import PairCell.Scheduling

/-!
# A request lives by its own expiry

A request without a durable effect is given up as expired only after its own
expiry, and is not started after it.  This needs that a request that joins a
queued item has the expiry of that item.
-/

namespace PairCell.Scheduling

open Lib

variable {P H : Type}

/-- The request meets its own expiry whenever the item does. -/
def Item.Fits (i : Item P H) (r : Request P H) : Prop :=
  r.durable = false →
    r.expiry = i.expiresAt ∧ (i.expiresAt = none ∨ i.request.durable = false)

instance (i : Item P H) (r : Request P H) : Decidable (i.Fits r) :=
  inferInstanceAs (Decidable (_ → _))

def Item.Uniform (i : Item P H) : Prop := ∀ r ∈ i.requests, i.Fits r

/-- The event respects the requests' own expiries. -/
def Event.Timely : Event P H → Prop
  | .refused r o time | .recorded _ r o time =>
      r.durable = false → o.category = .expiredNotStarted → ∃ e ∈ r.expiry, e ≤ time
  | .selected i time => ∀ r ∈ i.requests, r.durable = false → ∀ e ∈ r.expiry, time < e
  | _ => True

instance : DecidablePred (Event.Timely (P := P) (H := H))
  | .refused .. | .recorded .. => inferInstanceAs (Decidable (_ → _ → _))
  | .selected .. => inferInstanceAs (Decidable (∀ _ ∈ _, _))
  | .admitted .. | .completed _ => inferInstanceAs (Decidable True)

namespace Scheduler

variable [DecidableEq H] {ps : Payloads P H}

/-- The queued item that an admitted request is coalesced onto. -/
def joined (ps : Payloads P H) (s : Scheduler P H) (r : Request P H) (time : Instant) :
    Option (Item P H) :=
  if s.frozen = false ∧ ¬(r.expiry.any (· ≤ time) = true ∧ r.durable = false) ∧
      r.priorityOf ps = some .background ∧ (r.command.bind s.known.get).isNone = true then
    (ps.hash r.payload).bind s.equivalentBackground
  else none

/-- Requests join only items of their own expiry, and no caller calls an
item expired too early. -/
def Punctual (ps : Payloads P H) (s : Scheduler P H) : Call P H → Prop
  | .admitRpc r time => ∀ i ∈ s.joined ps r time, i.Fits r
  | .complete serial category _ time =>
      category = .expiredNotStarted →
        ∀ i ∈ s.handedItem serial, i.expiresAt.any (· ≤ time) = true
  | _ => True

instance (s : Scheduler P H) : DecidablePred (Punctual ps s)
  | .admitRpc .. => inferInstanceAs (Decidable (∀ _ ∈ _, _))
  | .complete .. => inferInstanceAs (Decidable (_ → _))
  | .next .. | .freeze | .release | .beforeBrokerSend .. =>
      inferInstanceAs (Decidable True)

structure Timed (s : Scheduler P H) : Prop where
  queued : ∀ p, ∀ i ∈ s.queues p, i.Uniform
  handed : ∀ i ∈ s.handed, i.Uniform
  log : ∀ e ∈ s.log, e.Timely

section Items

omit [DecidableEq H]

variable {s s' : Scheduler P H} {i : Item P H} {time done : Instant}

theorem elapsed_mono {e : Option Instant} (h : e.any (· ≤ time) = true)
    (hle : time ≤ done) :
    e.any (· ≤ done) = true := by
  obtain ⟨t, rfl, ht⟩ := (Option.any_eq_true _ _).1 h
  simpa using Int.le_trans (of_decide_eq_true ht) hle

theorem timed_fresh (capacity : Nat) : Timed (fresh capacity : Scheduler P H) :=
  ⟨fun _ _ h => (List.not_mem_nil h).elim, fun _ h => (List.not_mem_nil h).elim,
    fun _ h => (List.not_mem_nil h).elim⟩

theorem Timed.logged (h : Timed s) (hqueues : s'.queues = s.queues)
    (hhanded : s'.handed = s.handed) {es : List (Event P H)} (hlog : s'.log = s.log ++ es)
    (hes : ∀ e ∈ es, e.Timely) : Timed s' := by
  refine ⟨hqueues ▸ h.queued, hhanded ▸ h.handed, fun e he => ?_⟩
  rw [hlog] at he
  obtain he | he := List.mem_append.1 he
  · exact h.log e he
  · exact hes e he

theorem Timed.setQueue (h : Timed s) (p : Priority) (items : List (Item P H))
    (hitems : ∀ i ∈ items, i.Uniform) : Timed (s.setQueue p items) := by
  refine ⟨fun q j hj => ?_, h.handed, h.log⟩
  simp only [Scheduler.setQueue] at hj
  split at hj
  · exact hitems j hj
  · exact h.queued q j hj

/-- An item is recorded as expired only after the expiry of each of its requests. -/
theorem Timed.complete (h : Timed s) (hi : i.Uniform) {category : Category}
    {reason : String} (hexpired : category = .expiredNotStarted →
      i.expiresAt.any (· ≤ time) = true) :
    Timed (s.complete i category reason time).1 := by
  obtain ⟨hstock, -, hlog⟩ := complete_frame s i category reason time
  refine h.logged hstock.queues hstock.handed hlog fun e he => ?_
  obtain he | he := List.mem_append.1 he
  · obtain ⟨r, hr, hrecord⟩ := List.mem_filterMap.1 he
    obtain ⟨c, -, rfl⟩ := Option.map_eq_some_iff.1 hrecord
    intro hdurable hcategory
    obtain ⟨e, he, hle⟩ := (Option.any_eq_true _ _).1 (hexpired hcategory)
    exact ⟨e, (hi r hr hdurable).1.trans he, of_decide_eq_true hle⟩
  · rw [List.mem_singleton.1 he]
    trivial

/-- No request of an item that may start is past its own expiry. -/
theorem uniform_timely (hi : i.Uniform)
    (hlive : ¬(i.expiresAt.any (· ≤ time) = true ∧ i.request.durable = false)) :
    (Event.selected i time).Timely := by
  intro r hr hdurable e he
  obtain ⟨heq, hnone | hfirst⟩ := hi r hr hdurable
  · rw [heq, hnone] at he
    cases he
  · rw [← heq, he] at hlive
    by_contra hle
    exact hlive ⟨by simpa using hle, hfirst⟩

theorem Timed.start (h : Timed s) (hi : i.Uniform) (hclock : time ≤ done) :
    Timed (s.start i time done).1 := by
  unfold Scheduler.start
  split
  · next hexpired =>
      exact h.complete hi fun _ => elapsed_mono hexpired.1 hclock
  · next hlive =>
      split
      · exact h.complete hi fun hcategory => nomatch hcategory
      · have hstarted :
            Timed { s with active := some i.serial, handed := i :: s.handed } :=
          ⟨h.queued, fun j hj => (List.mem_cons.1 hj).elim (· ▸ hi) (h.handed j), h.log⟩
        refine hstarted.logged rfl rfl rfl fun e he => ?_
        rw [List.mem_singleton.1 he]
        exact uniform_timely hi (by simpa using hlive)

theorem Timed.next (h : Timed s) (hclock : time ≤ done) : Timed (s.next time done).1 := by
  obtain ⟨heq, -⟩ | ⟨p, i, tail, -, -, hqueue, heq⟩ := s.next_cases time done
  · rwa [heq]
  · rw [heq]
    have hitems : ∀ j ∈ i :: tail, j.Uniform := hqueue ▸ h.queued p
    refine (h.setQueue p tail fun j hj =>
      hitems j (List.mem_cons_of_mem _ hj)).start ?_ hclock
    exact hitems i List.mem_cons_self

theorem Timed.beforeBrokerSend (h : Timed s) (hi : i.Uniform) (hclock : time ≤ done) :
    Timed (s.beforeBrokerSend i time done).1 := by
  unfold Scheduler.beforeBrokerSend
  split
  · exact h.complete hi fun hcategory => nomatch hcategory
  · split
    · next hexpired =>
        exact h.complete hi fun _ => elapsed_mono hexpired hclock
    · refine ⟨h.queued, fun j hj => ?_, h.log⟩
      obtain ⟨k, hk, rfl⟩ := List.mem_map.1 hj
      split
      · exact h.handed k hk
      · exact h.handed k hk

/-- The request joins one item, whose expiry is its own. -/
theorem Timed.coalesce (h : Timed s) (hnumbered : Numbered s) {i : Item P H}
    {r : Request P H} {command : String} {payloadHash : H} (hi : i ∈ s.queues .background)
    (hr : i.Fits r) :
    Timed (s.coalesce i r command payloadHash) := by
  have hitems : ∀ j ∈ (s.queues .background).map (Item.join i.serial r), j.Uniform := by
    intro j hj
    obtain ⟨k, hk, rfl⟩ := List.mem_map.1 hj
    unfold Item.join
    split
    · next hserial =>
        have heq : k = i :=
          hnumbered.unique (mem_queued.2 ⟨_, hk⟩) (mem_queued.2 ⟨_, hi⟩) hserial
        subst heq
        intro q hq
        have happend : q ∈ k.requests ++ [r] := hq
        obtain hq | hq := List.mem_append.1 happend
        · exact h.queued _ k hk q hq
        · exact List.mem_singleton.1 hq ▸ hr
    · exact h.queued _ k hk
  refine (h.setQueue .background _ hitems).logged rfl rfl rfl fun e he => ?_
  rw [List.mem_singleton.1 he]
  trivial

theorem Timed.enqueue (h : Timed s) {r : Request P H} {command : String} {payloadHash : H}
    {priority : Priority} {time : Instant} :
    Timed (s.enqueue r command payloadHash priority time) := by
  have hnew : (s.newItem r command payloadHash priority time).Uniform := by
    intro q hq hdurable
    obtain rfl := List.mem_singleton.1 hq
    exact ⟨rfl, .inr hdurable⟩
  have hpushed := h.setQueue priority
    (s.queues priority ++ [s.newItem r command payloadHash priority time]) fun j hj =>
      (List.mem_append.1 hj).elim (h.queued priority j) fun hj =>
        List.mem_singleton.1 hj ▸ hnew
  refine (hpushed.setQueue priority _ fun j hj => ?_).logged rfl rfl rfl
    fun e he => ?_
  · obtain ⟨k, hk, rfl⟩ := List.mem_map.1 hj
    have hk := hpushed.queued priority k hk
    unfold Item.count
    split
    · exact hk
    · exact hk
  · rw [List.mem_singleton.1 he]
    trivial

end Items

variable {s : Scheduler P H}

theorem Timed.perform (h : Timed s) (hnumbered : Numbered s) {call : Call P H}
    (hpunctual : s.Punctual ps call) (hclock : call.readings.Pairwise (· ≤ ·)) :
    Timed (s.perform ps call) := by
  cases call with
  | admitRpc r time =>
      obtain ⟨o, hsame⟩ | ⟨command, payloadHash, priority, hc, -, hh, hk, hp, hcase⟩ :=
        admit_cases ps s r time
      · rwa [Scheduler.perform, hsame]
      · rw [Scheduler.perform]
        generalize s.admitRpc ps r time = result at hcase
        cases hcase with
        | refused category reason hexpired =>
            refine h.logged rfl rfl rfl fun e he => ?_
            rw [List.mem_singleton.1 he]
            intro _ hcategory
            obtain ⟨e, he, hle⟩ := (Option.any_eq_true _ _).1 (hexpired hcategory)
            exact ⟨e, he, of_decide_eq_true hle⟩
        | coalesced i hpriority hfrozen hfresh hfound =>
            refine h.coalesce hnumbered (List.mem_of_find?_eq_some hfound) (hpunctual i ?_)
            rw [joined, if_pos ⟨hfrozen, hfresh, hpriority ▸ hp, by simp [hc, hk]⟩]
            simp [hh, hfound]
        | enqueued => exact h.enqueue
  | next time done => exact h.next (by simpa [Call.readings] using hclock)
  | freeze | release => exact ⟨h.queued, h.handed, h.log⟩
  | beforeBrokerSend serial time done =>
      simp only [Scheduler.perform]
      split
      · next i hi =>
          exact h.beforeBrokerSend (h.handed i (List.mem_of_find?_eq_some hi))
            (by simpa [Call.readings] using hclock)
      · exact h
  | complete serial category reason time =>
      simp only [Scheduler.perform]
      split
      · next i hi =>
          exact h.complete (h.handed i (List.mem_of_find?_eq_some hi)) fun hexpired =>
            hpunctual hexpired i hi
      · exact h

theorem timed_run {capacity : Nat} {calls : List (Call P H)}
    (h : Along (perform ps) (Punctual ps) (fresh capacity) calls)
    (hclock : (calls.flatMap Call.readings).Pairwise (· ≤ ·)) :
    Timed (run ps capacity calls) := by
  let Kept (s : Scheduler P H) : Prop := Timed s ∧ Numbered s
  have hstart : Kept (fresh capacity) :=
    ⟨timed_fresh capacity, ⟨List.nodup_nil, fun _ hi => (List.not_mem_nil hi).elim⟩⟩
  have hreadings := (List.pairwise_flatMap.1 hclock).1
  have hkept : Kept (run ps capacity calls) := by
    refine (h.with hreadings).reach.invariant hstart ?_
    rintro s call s' ⟨htimed, hnumbered⟩ ⟨hpunctual, hsorted⟩ rfl
    exact ⟨htimed.perform hnumbered hpunctual hsorted, hnumbered.perform call⟩
  exact hkept.1

end Scheduler

/-- In a run in which requests join only items of their own expiry, and no caller calls an
item expired too early, every request lives by its own expiry. -/
theorem request_lives_by_its_expiry [DecidableEq H] (ps : Payloads P H) (capacity : Nat)
    (calls : List (Call P H))
    (hpunctual : Along (Scheduler.perform ps) (Scheduler.Punctual ps)
      (Scheduler.fresh capacity) calls)
    (hclock : (calls.flatMap Call.readings).Pairwise (· ≤ ·)) :
    ∀ e ∈ (Scheduler.run ps capacity calls).log, e.Timely :=
  (Scheduler.timed_run hpunctual hclock).log

/-! ## A shared item that expires too early -/

namespace Sample

def payloads : Payloads String String := .texts

/-- Two equal reads of the symbols; the first may start until 10, the second until 20. -/
def read (requestId : String) (expiresAt : Instant) : Request String String :=
  { requestId := requestId, kind := "read", payload := "symbols",
    expiresAt := .value expiresAt }

def shared : List (Call String String) :=
  [.admitRpc (read "first" 10) 0, .admitRpc (read "second" 20) 1, .next 10 10]

def fair : List (Call String String) :=
  [.admitRpc (read "first" 10) 0, .admitRpc (read "second" 10) 1, .next 9 9]

end Sample

/-- Two reads of one expiry share an item. -/
theorem shared_read_lives :
    (Scheduler.run Sample.payloads 8 Sample.fair).log.Forall Event.Timely :=
  List.forall_iff_forall_mem.2
    (request_lives_by_its_expiry Sample.payloads 8 Sample.fair
      (by decide +kernel) (by decide))

/-- The second read is given up when the first one expires. -/
theorem shared_read_expires_early :
    ¬∀ (capacity : Nat) (calls : List (Call String String)),
      (calls.flatMap Call.readings).Pairwise (· ≤ ·) →
        ∀ e ∈ (Scheduler.run Sample.payloads capacity calls).log, e.Timely := by
  intro h
  exact absurd (h 8 Sample.shared (by decide)) (by decide +kernel)

end PairCell.Scheduling
