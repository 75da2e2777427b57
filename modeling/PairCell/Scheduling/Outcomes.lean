import PairCell.Scheduling.Service

/-!
# Each command receives its outcome

A call that completes an item returns the outcome of its first request and leaves
those of the others remembered.  No more outcomes are remembered than the
capacity, so an item with more requests than that loses some as it is completed.
-/

namespace PairCell.Scheduling

open Lib

variable {P H : Type}

/-! ## What a call gives -/

/-- The request's entry, when this is a terminal outcome under its identifier and kind. -/
def Request.received (r : Request P H) (o : Outcome P) : Option Entry :=
  if o.terminal = true ∧ o.requestId = r.requestId ∧ o.kind = r.kind then r.entry else none

namespace Scheduler

/-- The oldest item of the highest priority that has any. -/
def first (s : Scheduler P H) : Option (Item P H) :=
  (Priority.all.find? fun p => !(s.queues p).isEmpty).bind fun p => (s.queues p).head?

/-- The item that a call completes. -/
def ended (s : Scheduler P H) : Call P H → Option (Item P H)
  | .next time _ =>
      if s.active = none then s.first.filter fun i => s.Withholds i time else none
  | .beforeBrokerSend serial time _ =>
      (s.handedItem serial).filter fun i =>
        (s.frozen = true ∧ i.priority ≠ .emergency) ∨ i.expiresAt.any (· ≤ time) = true
  | .complete serial _ _ _ => s.handedItem serial
  | _ => none

/-- The outcome that a call returns. -/
def returned (s : Scheduler P H) : Call P H → Option (Outcome P)
  | .next time done =>
      match (s.next time done).2 with
      | .outcome o => some o
      | _ => none
  | .beforeBrokerSend serial time done =>
      (s.handedItem serial).bind fun i => (s.beforeBrokerSend i time done).2
  | .complete serial category reason time =>
      (s.handedItem serial).map fun i => (s.complete i category reason time).2
  | _ => none

/-- The outcome that is remembered for the command of a request. -/
def stored (s : Scheduler P H) (r : Request P H) : Option (Outcome P) :=
  match r.command.bind s.known.get with
  | some (_, .settled o) => some o
  | _ => none

variable [DecidableEq H] (ps : Payloads P H)

/-- The command that a call takes on. -/
def admitted (s : Scheduler P H) : Call P H → List Entry
  | .admitRpc r time => if (s.admitRpc ps r time).2.isNone then r.entry.toList else []
  | _ => []

/-- The commands that receive a terminal outcome from a call: the first request of the item
it completes has the one that is returned, the others have the one that is remembered. -/
def received (s : Scheduler P H) (call : Call P H) : List Entry :=
  match s.ended call with
  | none => []
  | some i => ((s.returned call).bind i.request.received).toList ++
      i.coalesced.filterMap fun r => ((s.perform ps call).stored r).bind r.received

/-- What the calls of a run give, one after the other. -/
def collect (give : Scheduler P H → Call P H → List Entry) :
    Scheduler P H → List (Call P H) → List Entry
  | _, [] => []
  | s, call :: calls => give s call ++ collect give (s.perform ps call) calls

/-! ## What is remembered -/

variable {ps} {s s' : Scheduler P H} {i : Item P H} {c : String} {v : H × Known P}

omit [DecidableEq H] in
theorem evict_completed (capacity : Nat) (known : Table String (H × Known P))
    (outcomes : List (String × Outcome P)) :
    (evict capacity known outcomes).2 = outcomes.drop (outcomes.length - capacity) := by
  induction outcomes generalizing known with
  | nil => simp [evict]
  | cons stale outcomes ih =>
      simp only [evict]
      split
      · next hmore =>
        have hlength : (stale :: outcomes).length - capacity =
            outcomes.length - capacity + 1 := by
          rw [List.length_cons]
          omega
        rw [ih, hlength, List.drop_succ_cons]
      · next hfew =>
        have hlength : (stale :: outcomes).length - capacity = 0 := by
          rw [List.length_cons]
          omega
        rw [hlength, List.drop_zero]

/-- The remembered outcomes are listed, and there are no more of them than the capacity. -/
structure Ring (s : Scheduler P H) : Prop where
  listed : ∀ c h o, s.known.get c = some (h, .settled o) → c ∈ s.completed.map Prod.fst
  short : s.completed.length ≤ s.capacity

omit [DecidableEq H] in
theorem evict_listed (capacity : Nat) {known : Table String (H × Known P)}
    {outcomes : List (String × Outcome P)}
    (h : ∀ c k o, known.get c = some (k, .settled o) → c ∈ outcomes.map Prod.fst) :
    ∀ c k o, (evict capacity known outcomes).1.get c = some (k, .settled o) →
      c ∈ (evict capacity known outcomes).2.map Prod.fst := by
  induction outcomes generalizing known with
  | nil => exact h
  | cons stale outcomes ih =>
      simp only [evict]
      split
      · refine ih fun c k o hc => ?_
        obtain ⟨hc, hkept⟩ := (Table.get_delete_eq_some ..).1 hc
        obtain rfl | hmem := List.mem_cons.1 (h c k o hc)
        · simp [Known.isSettled] at hkept
        · exact hmem
      · exact h

omit [DecidableEq H] in
theorem Ring.remember (h : Ring s) (command : String) (payloadHash : H) (o : Outcome P) :
    Ring (s.remember command payloadHash o) where
  listed := by
    refine evict_listed s.capacity fun c k p hc => ?_
    rw [Table.get_set] at hc
    split at hc
    · next heq => simp [heq]
    · next hne =>
      obtain ⟨q, hq, rfl⟩ := List.mem_map.1 (h.listed c k p hc)
      exact List.mem_map_of_mem
        (List.mem_append_left _ (List.mem_filter.2 ⟨hq, by simpa using hne⟩))
  short := by
    simp only [Scheduler.remember, evict_completed, List.length_drop]
    omega

omit [DecidableEq H] in
/-- Nothing new is settled. -/
theorem Ring.of_pending (h : Ring s)
    (hknown : ∀ c k o, s'.known.get c = some (k, .settled o) →
      s.known.get c = some (k, .settled o))
    (hcompleted : s'.completed = s.completed)
    (hcapacity : s'.capacity = s.capacity) : Ring s' := by
  refine ⟨fun c k o hc => ?_, ?_⟩
  · rw [hcompleted]
    exact h.listed c k o (hknown c k o hc)
  · rw [hcompleted, hcapacity]
    exact h.short

omit [DecidableEq H] in
theorem Ring.settle (h : Ring s) (i : Item P H) (o : Outcome P) (time : Instant)
    (r : Request P H) :
    Ring (s.settle i o time r) := by
  unfold Scheduler.settle
  cases r.command with
  | none => exact h
  | some command =>
      have hremember := h.remember command i.payloadHash
        { o with requestId := r.requestId, kind := r.kind }
      exact ⟨hremember.listed, hremember.short⟩

omit [DecidableEq H] in
theorem Ring.complete (h : Ring s) (i : Item P H) (category : Category) (reason : String)
    (time : Instant) : Ring (s.complete i category reason time).1 := by
  have hsettled : ∀ (rs : List (Request P H)) o,
      Ring (rs.foldl (fun s r => s.settle i o time r) s) := by
    intro rs o
    induction rs generalizing s with
    | nil => exact h
    | cons r rs ih => exact ih (h.settle i o time r)
  have hall := hsettled i.requests (s.complete i category reason time).2
  exact ⟨hall.listed, hall.short⟩

omit [DecidableEq H] in
theorem Ring.refuse (h : Ring s) (r : Request P H) (command : String) (payloadHash : H)
    (category : Category) (reason : String) (time : Instant) :
    Ring (s.refuse r command payloadHash category reason time).1 :=
  ⟨(h.remember command payloadHash _).listed, (h.remember command payloadHash _).short⟩

omit [DecidableEq H] in
theorem settled_of_set {known : Table String (H × Known P)} {command : String}
    {k : H} {n : Nat} {c : String} {l : H} {o : Outcome P}
    (h : (known.set command (k, .pending n)).get c = some (l, .settled o)) :
    known.get c = some (l, .settled o) := by
  rw [Table.get_set] at h
  split at h
  · cases h
  · exact h

theorem Ring.perform (h : Ring s) (call : Call P H) : Ring (s.perform ps call) := by
  cases call with
  | admitRpc r time =>
      rw [Scheduler.perform]
      obtain ⟨o, hsame⟩ | ⟨command, payloadHash, priority, -, -, -, -, -, hcase⟩ :=
        admit_cases ps s r time
      · rwa [hsame]
      · generalize s.admitRpc ps r time = result at hcase
        cases hcase with
        | refused category reason =>
            exact h.refuse r command payloadHash category reason time
        | coalesced => exact h.of_pending (fun _ _ _ => settled_of_set) rfl rfl
        | enqueued => exact h.of_pending (fun _ _ _ => settled_of_set) rfl rfl
  | next time done =>
      rw [Scheduler.perform]
      obtain ⟨heq, -⟩ | ⟨p, i, tail, -, -, -, heq⟩ := s.next_cases time done
      · rwa [heq]
      · have hqueue : Ring (s.setQueue p tail) := ⟨h.listed, h.short⟩
        obtain ⟨-, category, reason, hstart⟩ | ⟨-, hstart⟩ :=
          (s.setQueue p tail).start_cases (dequeued i time) time done
        · rw [heq, hstart]
          exact hqueue.complete _ _ _ _
        · rw [heq, hstart]
          exact ⟨h.listed, h.short⟩
  | freeze | release => exact ⟨h.listed, h.short⟩
  | beforeBrokerSend serial time done =>
      simp only [Scheduler.perform]
      split
      · unfold Scheduler.beforeBrokerSend
        split
        · exact h.complete _ _ _ _
        · split
          · exact h.complete _ _ _ _
          · exact ⟨h.listed, h.short⟩
      · exact h
  | complete serial category reason time =>
      simp only [Scheduler.perform]
      split
      · exact h.complete _ _ _ _
      · exact h

theorem ring_run (capacity : Nat) (calls : List (Call P H)) :
    Ring (run ps capacity calls) := by
  induction calls using List.reverseRecOn with
  | nil => exact ⟨fun c _ _ hc => (nomatch hc : False).elim, Nat.zero_le _⟩
  | append_singleton calls call ih =>
      rw [run_concat]
      exact ih.perform call

/-! ## What an item leaves behind -/

/-- The command is known so, and `n` outcomes at most have been remembered since. -/
structure Kept (n : Nat) (c : String) (v : H × Known P) (s : Scheduler P H) : Prop where
  known : s.known.get c = some v
  listed : ∃ before o after, s.completed = before ++ (c, o) :: after ∧
    c ∉ before.map Prod.fst ∧ after.length ≤ n

omit [DecidableEq H] in
/-- An outcome with fewer later ones than the capacity is not evicted. -/
theorem evict_keep (capacity : Nat) {known : Table String (H × Known P)}
    {before after : List (String × Outcome P)} (o : Outcome P)
    (hknown : known.get c = some v) (hnew : c ∉ before.map Prod.fst)
    (hfew : after.length < capacity) :
    (evict capacity known (before ++ (c, o) :: after)).1.get c = some v ∧
      ∃ kept, (evict capacity known (before ++ (c, o) :: after)).2 = kept ++
      (c, o) :: after ∧
        c ∉ kept.map Prod.fst := by
  induction before generalizing known with
  | nil =>
      have hshort : ¬capacity < after.length + 1 := Nat.not_lt.2 hfew
      simp only [List.nil_append, evict, if_neg hshort]
      exact ⟨hknown, [], rfl, hnew⟩
  | cons stale before ih =>
      simp only [List.map_cons, List.mem_cons, not_or] at hnew
      simp only [List.cons_append, evict]
      split
      · refine ih ((Table.get_delete_eq_some ..).2 ⟨hknown, ?_⟩) hnew.2
        simp [hnew.1]
      · refine ⟨hknown, stale :: before, rfl, ?_⟩
        simpa using hnew

omit [DecidableEq H] in
theorem kept_new (hcapacity : 0 < s.capacity) (command : String) (payloadHash : H)
    (o : Outcome P) :
    Kept 0 command (payloadHash, .settled o) (s.remember command payloadHash o) := by
  have hnew : command ∉ (s.completed.filter fun q => q.1 ≠ command).map Prod.fst := by simp
  have hfew : ([] : List (String × Outcome P)).length < s.capacity := hcapacity
  obtain ⟨hknown, kept, heq, hother⟩ := evict_keep s.capacity o
    (Table.get_set_self s.known command (payloadHash, .settled o)) hnew hfew
  exact ⟨hknown, kept, o, [], heq, hother, Nat.le_refl 0⟩

omit [DecidableEq H] in
theorem Kept.remember {n : Nat} (h : Kept n c v s) {command : String} (hne : c ≠ command)
    (hroom : n + 1 < s.capacity) (payloadHash : H) (o : Outcome P) :
    Kept (n + 1) c v (s.remember command payloadHash o) := by
  obtain ⟨before, p, after, heq, hnew, hfew⟩ := h.listed
  have hlist : s.completed.filter (fun q => q.1 ≠ command) ++ [(command, o)] =
      before.filter (fun q => q.1 ≠ command) ++
        (c, p) :: (after.filter (fun q => q.1 ≠ command) ++ [(command, o)]) := by
    simp [heq, List.filter_append, hne]
  have hlength :
      (after.filter (fun q => q.1 ≠ command) ++ [(command, o)]).length ≤ n + 1 := by
    rw [List.length_append]
    exact Nat.add_le_add_right (Nat.le_trans (List.length_filter_le _ _) hfew) 1
  have hbefore : c ∉ (before.filter fun q => q.1 ≠ command).map Prod.fst := fun hmem =>
    hnew ((List.filter_sublist.map Prod.fst).subset hmem)
  obtain ⟨hknown, kept, heq, hother⟩ := evict_keep s.capacity p
    ((Table.get_set_ne _ (payloadHash, .settled o) hne).trans h.known) hbefore
    (Nat.lt_of_le_of_lt hlength hroom)
  rw [← hlist] at hknown heq
  exact ⟨hknown, kept, p, _, heq, hother, hlength⟩

omit [DecidableEq H] in
theorem Kept.settles {n : Nat} (h : Kept n c v s) (i : Item P H) (o : Outcome P)
    (time : Instant) {rs : List (Request P H)} (hne : ∀ r ∈ rs, r.command ≠ some c)
    (hroom : n + rs.length < s.capacity) :
    (rs.foldl (fun s r => s.settle i o time r) s).known.get c = some v := by
  induction rs generalizing s n with
  | nil => exact h.known
  | cons r rs ih =>
      have hrest : ∀ q ∈ rs, q.command ≠ some c :=
        fun q hq => hne q (List.mem_cons_of_mem _ hq)
      rw [List.length_cons] at hroom
      rw [List.foldl_cons]
      cases hcommand : r.command with
      | none =>
          have hsame : s.settle i o time r = s := by simp [Scheduler.settle, hcommand]
          rw [hsame]
          exact ih h hrest (by omega)
      | some command =>
          have hother : c ≠ command := fun heq => hne r List.mem_cons_self (heq ▸ hcommand)
          obtain ⟨hknown, hlisted⟩ := h.remember hother (by omega) i.payloadHash
            { o with requestId := r.requestId, kind := r.kind }
          have hkept : Kept (n + 1) c v (s.settle i o time r) := by
            simp only [Scheduler.settle, hcommand]
            exact ⟨hknown, hlisted⟩
          refine ih hkept hrest ?_
          rw [(settle_frame s i o time r).1.capacity]
          omega

omit [DecidableEq H] in
/-- Of no more requests than the capacity, all outcomes are remembered. -/
theorem settles_stored (i : Item P H) (o : Outcome P) (time : Instant)
    {rs : List (Request P H)} (honce : (rs.map Request.command).Nodup)
    (hroom : rs.length ≤ s.capacity) :
    ∀ r ∈ rs, ∀ c, r.command = some c →
      (rs.foldl (fun s r => s.settle i o time r) s).known.get c =
        some (i.payloadHash, .settled
          { o with requestId := r.requestId, kind := r.kind }) := by
  induction rs generalizing s with
  | nil => exact fun _ hr => (List.not_mem_nil hr).elim
  | cons q rs ih =>
      obtain ⟨hfirst, hrest⟩ := List.nodup_cons.1 honce
      rw [List.length_cons] at hroom
      have hcapacity : (s.settle i o time q).capacity = s.capacity :=
        (settle_frame s i o time q).1.capacity
      intro r hr c hc
      rw [List.foldl_cons]
      obtain rfl | hr := List.mem_cons.1 hr
      · have hne : ∀ p ∈ rs, p.command ≠ some c := fun p hp heq =>
          hfirst (List.mem_map.2 ⟨p, hp, heq.trans hc.symm⟩)
        have hkept : Kept 0 c (i.payloadHash,
            .settled { o with requestId := r.requestId, kind := r.kind })
              (s.settle i o time r) := by
          simp only [Scheduler.settle, hc]
          obtain ⟨hknown, hlisted⟩ := kept_new (s := s) (by omega) c i.payloadHash
            { o with requestId := r.requestId, kind := r.kind }
          exact ⟨hknown, hlisted⟩
        exact hkept.settles i o time hne (by omega)
      · exact ih hrest (by omega) r hr c hc

/-! ## Every call -/

/-- The item that the call completes has no more requests after its first than are
remembered. -/
def Roomy (s : Scheduler P H) (call : Call P H) : Prop :=
  ∀ i ∈ s.ended call, i.coalesced.length ≤ s.capacity

instance (s : Scheduler P H) (call : Call P H) : Decidable (Roomy s call) :=
  inferInstanceAs (Decidable (∀ i ∈ s.ended call, i.coalesced.length ≤ s.capacity))

/-- `t.complete j` is what the call makes of the item `i`. -/
structure Finish (ps : Payloads P H) (s t : Scheduler P H) (i j : Item P H) : Prop where
  taken : Taken ps t j
  capacity : t.capacity = s.capacity
  log : t.log = s.log
  request : j.request = i.request
  coalesced : j.coalesced = i.coalesced

omit [DecidableEq H] in
theorem Served.finish (h : Served ps s) {serial : Nat} (hi : s.handedItem serial = some i)
    {category : Category} {reason : String} {time : Instant}
    (honce : (s.complete i category reason time).1.completions.Nodup) :
    Finish ps s s i i :=
  ⟨h.taken hi (fresh_of_once honce), rfl, rfl, rfl, rfl⟩

omit [DecidableEq H] in
theorem first_none (h : s.queued = []) : s.first = none := by
  unfold first
  cases hp : Priority.all.find? fun p => !(s.queues p).isEmpty with
  | none => rfl
  | some p =>
      have hempty : s.queues p = [] :=
        List.eq_nil_iff_forall_not_mem.2 fun i hi => by
          have hmem := mem_queued.2 ⟨p, hi⟩
          rw [h] at hmem
          exact List.not_mem_nil hmem
      simp [hempty]

/-- An admission is logged with its command and gives no admitted command an outcome. -/
theorem admitted_entries (s : Scheduler P H) (r : Request P H) (time : Instant) :
    (s.perform ps (.admitRpc r time)).outcomes = s.outcomes ∧
      (s.perform ps (.admitRpc r time)).admissions =
        s.admissions ++ s.admitted ps (.admitRpc r time) := by
  simp only [Scheduler.perform, Scheduler.admitted]
  obtain ⟨o, hsame⟩ | ⟨command, payloadHash, priority, hcommand, -, -, -, -, hcase⟩ :=
    admit_cases ps s r time
  · simp [hsame]
  · generalize s.admitRpc ps r time = result at hcase
    cases hcase with
    | refused category reason =>
        simp [Scheduler.refuse, note, Scheduler.remember, admissions, outcomes,
          Event.admission, Event.outcome, List.filterMap_append]
    | coalesced =>
        simp [Scheduler.coalesce, note, setQueue, admissions, outcomes, Event.admission,
          Event.outcome, List.filterMap_append, Request.entry, hcommand]
    | enqueued =>
        simp [Scheduler.enqueue, note, setQueue, admissions, outcomes, Event.admission,
          Event.outcome, List.filterMap_append, Request.entry, hcommand]

/-- A call completes an item, or it gives no outcome to an admitted command. -/
theorem ended_cases (h : Served ps s) (call : Call P H)
    (honce : (s.perform ps call).completions.Nodup) :
    (s.ended call = none ∧ (s.perform ps call).outcomes = s.outcomes ∧
      (s.perform ps call).admissions = s.admissions ++ s.admitted ps call) ∨
    s.admitted ps call = [] ∧ ∃ t i j category reason time, Finish ps s t i j ∧
      s.ended call = some i ∧ s.returned call =
        some (t.complete j category reason time).2 ∧
      s.perform ps call = (t.complete j category reason time).1 := by
  cases call with
  | admitRpc r time =>
      exact .inl ⟨rfl, admitted_entries s r time⟩
  | next time done =>
      simp only [Scheduler.perform, Scheduler.admitted, ended, returned] at honce ⊢
      obtain ⟨heq, hbusy⟩ | ⟨p, i, tail, hidle, hp, hqueue, heq⟩ := s.next_cases time done
      · have hnone : s.active = none → s.first = none := fun hidle =>
          first_none (hbusy.resolve_left (· hidle))
        refine .inl ⟨?_, by simp [heq], by simp [heq]⟩
        split
        · next hidle => simp [hnone hidle]
        · rfl
      · have hfirst : s.first = some i := by simp [first, hp, hqueue]
        have hfinish : Finish ps s (s.setQueue p tail) i (dequeued i time) :=
          ⟨h.pop hidle hqueue time, rfl, rfl, rfl, rfl⟩
        have hsame : (s.setQueue p tail).Withholds (dequeued i time) time ↔
            s.Withholds i time :=
          Iff.rfl
        obtain ⟨hwithheld, category, reason, hstart⟩ | ⟨hfree, hstart⟩ :=
          (s.setQueue p tail).start_cases (dequeued i time) time done
        · have hended : s.first.filter (fun i => s.Withholds i time) = some i := by
            simpa [hfirst] using hsame.1 hwithheld
          rw [heq, hstart, if_pos hidle, hended]
          exact .inr ⟨trivial, _, i, _, category, reason, done, hfinish, rfl, rfl, rfl⟩
        · have hended : s.first.filter (fun i => s.Withholds i time) = none := by
            simpa [hfirst] using fun hwithheld => hfree (hsame.2 hwithheld)
          rw [heq, hstart, if_pos hidle, hended]
          refine .inl ⟨rfl, ?_⟩
          simp [note, setQueue, admissions, outcomes, Event.admission, Event.outcome,
            List.filterMap_append]
  | freeze | release => exact .inl ⟨rfl, rfl, (List.append_nil _).symm⟩
  | beforeBrokerSend serial time done =>
      simp only [Scheduler.perform, Scheduler.admitted, ended, returned] at honce ⊢
      cases hi : s.handedItem serial with
      | none => exact .inl (by simp)
      | some i =>
          simp only [hi] at honce
          simp only [Option.bind_some, Option.filter_some, decide_eq_true_eq]
          rw [Scheduler.beforeBrokerSend] at honce ⊢
          by_cases hfrozen : s.frozen = true ∧ i.priority ≠ .emergency
          · rw [if_pos hfrozen] at honce ⊢
            rw [if_pos (.inl hfrozen)]
            exact .inr ⟨trivial, s, i, i, _, _, done, h.finish hi honce, rfl, rfl, rfl⟩
          rw [if_neg hfrozen] at honce ⊢
          by_cases hexpired : i.expiresAt.any (· ≤ time) = true
          · rw [if_pos hexpired] at honce ⊢
            rw [if_pos (.inr hexpired)]
            exact .inr ⟨trivial, s, i, i, _, _, done, h.finish hi honce, rfl, rfl, rfl⟩
          · rw [if_neg hexpired, if_neg (not_or.2 ⟨hfrozen, hexpired⟩)]
            exact .inl ⟨rfl, rfl, (List.append_nil _).symm⟩
  | complete serial category reason time =>
      simp only [Scheduler.perform, Scheduler.admitted, ended, returned] at honce ⊢
      cases hi : s.handedItem serial with
      | none => exact .inl (by simp)
      | some i =>
          simp only [hi] at honce
          exact .inr ⟨trivial, s, i, i, category, reason, time, h.finish hi honce,
            rfl, rfl, rfl⟩

omit [DecidableEq H] in
theorem commands_of_entries {rs : List (Request P H)}
    (h : ∀ r ∈ rs, ∃ c, r.command = some c) :
    rs.map Request.command = ((rs.filterMap Request.entry).map Entry.command).map some := by
  induction rs with
  | nil => rfl
  | cons r rs ih =>
      obtain ⟨c, hc⟩ := h r List.mem_cons_self
      have hentry : r.entry = some ⟨c, r.requestId, r.kind⟩ := by
        simp [Request.entry, hc]
      rw [List.filterMap_cons_some hentry, List.map_cons, hc,
        ih fun q hq => h q (List.mem_cons_of_mem _ hq)]
      rfl

omit [DecidableEq H] in
/-- The requests of an item in progress have commands, all different. -/
theorem Taken.commands (h : Taken ps s i) : (∀ r ∈ i.requests, ∃ c, r.command = some c) ∧
    (i.requests.map Request.command).Nodup := by
  have hmem : i ∈ s.queued ++ [i] := List.mem_append_right _ List.mem_cons_self
  have hnamed : ∀ r ∈ i.requests, ∃ c, r.command = some c := fun r hr =>
    ((h.books.known i hmem).named r hr).imp fun _ => And.left
  refine ⟨hnamed, ?_⟩
  have hentries : (i.entries.map Entry.command).Nodup := by
    have hall := h.books.once
    rw [List.flatMap_append, List.map_append] at hall
    simpa using hall.of_append_right
  rw [commands_of_entries hnamed]
  exact hentries.map fun _ _ => Option.some.inj

omit [DecidableEq H] in
/-- Every request of an item that is completed with room receives its outcome. -/
theorem complete_receives (h : Taken ps s i) (category : Category) (reason : String)
    (time : Instant) (hroom : i.coalesced.length ≤ s.capacity) {r : Request P H}
    (hr : r ∈ i.coalesced) :
    ((s.complete i category reason time).1.stored r).bind r.received = r.entry := by
  obtain ⟨hnamed, honce⟩ := h.commands
  obtain ⟨c, hc⟩ := hnamed r (List.mem_cons_of_mem _ hr)
  generalize ho : (s.complete i category reason time).2 = o
  have hterminal : o.terminal = true := by
    rw [← ho]
    rfl
  have hknown : (s.complete i category reason time).1.known.get c = some (i.payloadHash,
      .settled { o with requestId := r.requestId, kind := r.kind }) := by
    have hcapacity : (s.settle i o time i.request).capacity = s.capacity :=
      (settle_frame s i o time i.request).1.capacity
    have hstored := settles_stored (s := s.settle i o time i.request) i o time
      (List.nodup_cons.1 honce).2 (by rwa [hcapacity]) r hr c hc
    rw [← hstored, ← ho]
    rfl
  simp [stored, hc, hknown, Request.received, hterminal]

omit [DecidableEq H] in
theorem Finish.received_first {t : Scheduler P H} {j : Item P H} (h : Finish ps s t i j)
    (category : Category) (reason : String) (time : Instant) :
    i.request.received (t.complete j category reason time).2 = i.request.entry := by
  simp [Request.received, Scheduler.complete, h.request]

/-- A call gives no more outcomes than the log has, and as many just if there is room. -/
theorem received_step (h : Served ps s) (hring : Ring s) (call : Call P H)
    (honce : (s.perform ps call).completions.Nodup) :
    (s.perform ps call).admissions = s.admissions ++ s.admitted ps call ∧
      s.outcomes.length + (s.received ps call).length ≤
      (s.perform ps call).outcomes.length ∧
      (Roomy s call → (s.perform ps call).outcomes = s.outcomes ++ s.received ps call) ∧
      (s.outcomes.length + (s.received ps call).length =
        (s.perform ps call).outcomes.length →
        Roomy s call) := by
  obtain ⟨hnone, houtcomes, hadmissions⟩ | ⟨hadmitted, t, i, j, category,
      reason, time, hfinish, hended, hreturned, hperform⟩ := ended_cases h call honce
  · have hreceived : s.received ps call = [] := by simp [Scheduler.received, hnone]
    have hroomy : Roomy s call := fun x hx => by simp [hnone] at hx
    rw [houtcomes, hreceived]
    exact ⟨hadmissions, Nat.le_refl _, fun _ => (List.append_nil _).symm, fun _ => hroomy⟩
  · obtain ⟨hkeeps, hentries, -⟩ := complete_entries t j category reason time
    have hlater : Ring (s.perform ps call) := hring.perform call
    have hrequests : j.requests = i.requests := by
      rw [Item.requests, Item.requests, hfinish.request, hfinish.coalesced]
    obtain ⟨hnamed, hdistinct⟩ := hfinish.taken.commands
    rw [hrequests] at hnamed hdistinct
    have hall : i.entries = i.request.entry.toList ++
        i.coalesced.filterMap Request.entry := by
      obtain ⟨c, hc⟩ := hnamed i.request List.mem_cons_self
      simp [Item.entries, Item.requests, Request.entry, hc]
    have hcount : (i.coalesced.filterMap Request.entry).length = i.coalesced.length := by
      refine List.filterMap_length_eq_length.2 fun r hr => ?_
      obtain ⟨c, hc⟩ := hnamed r (List.mem_cons_of_mem _ hr)
      simp [Request.entry, hc]
    have houtcomes : (s.perform ps call).outcomes = s.outcomes ++ i.entries := by
      rw [hperform, hentries]
      rw [outcomes, hfinish.log, ← outcomes, Item.entries, hrequests, ← Item.entries]
    have hadmissions : (s.perform ps call).admissions = s.admissions := by
      rw [hperform, hkeeps, admissions, hfinish.log, ← admissions]
    have hreceived : s.received ps call = i.request.entry.toList ++
        i.coalesced.filterMap fun r => ((s.perform ps call).stored r).bind r.received := by
      simp only [Scheduler.received, hended, hreturned, Option.bind_some,
        hfinish.received_first]
    have hfew : (i.coalesced.filterMap fun r =>
        ((s.perform ps call).stored r).bind r.received).length ≤ i.coalesced.length :=
      List.length_filterMap_le _ _
    rw [hadmissions, hadmitted, List.append_nil, houtcomes, hreceived, hall]
    simp only [List.length_append, hcount]
    refine ⟨trivial, by omega, fun hroomy => ?_, fun hequal => ?_⟩
    · have hroom : j.coalesced.length ≤ t.capacity := by
        rw [hfinish.coalesced, hfinish.capacity]
        exact hroomy _ hended
      congr 2
      refine List.filterMap_congr fun r hr => ?_
      rw [hperform]
      exact (complete_receives hfinish.taken category reason time hroom
        (hfinish.coalesced.symm ▸ hr)).symm
    · -- every outcome is remembered, and no more than the capacity are
      have hsome := List.filterMap_length_eq_length.1 (Nat.le_antisymm hfew (by omega))
      have hlisted : ∀ c ∈ i.coalesced.map Request.command,
          c ∈ ((s.perform ps call).completed.map Prod.fst).map some := by
        intro x hx
        obtain ⟨r, hr, rfl⟩ := List.mem_map.1 hx
        obtain ⟨c, hc⟩ := hnamed r (List.mem_cons_of_mem _ hr)
        have hstored := hsome r hr
        unfold stored at hstored
        rw [hc, Option.bind_some] at hstored
        rw [hc]
        split at hstored
        · next hknown => exact List.mem_map_of_mem (hlater.listed _ _ _ hknown)
        · cases hstored
      intro x hx
      obtain rfl : i = x := Option.some.inj (hended.symm.trans hx)
      have hlength :=
        (List.subperm_of_subset (List.nodup_cons.1 hdistinct).2 hlisted).length_le
      rw [List.length_map, List.length_map, List.length_map] at hlength
      rw [← (perform_adds ps s call).1]
      exact Nat.le_trans hlength hlater.short

/-! ## Every run -/

theorem collect_concat (give : Scheduler P H → Call P H → List Entry) (s : Scheduler P H)
    (calls : List (Call P H)) (call : Call P H) :
    collect ps give s (calls ++ [call]) =
      collect ps give s calls ++ give (calls.foldl (Scheduler.perform ps) s) call := by
  induction calls generalizing s with
  | nil => simp [collect]
  | cons first calls ih => simp [collect, ih]

theorem received_run (capacity : Nat) (calls : List (Call P H))
    (honce : (run ps capacity calls).completions.Nodup) :
    (run ps capacity calls).admissions =
        collect ps (Scheduler.admitted ps) (fresh capacity) calls ∧
      (collect ps (Scheduler.received ps) (fresh capacity) calls).length ≤
        (run ps capacity calls).outcomes.length ∧
      (Along (Scheduler.perform ps) Roomy (fresh capacity) calls →
        (run ps capacity calls).outcomes =
          collect ps (Scheduler.received ps) (fresh capacity) calls) ∧
      ((collect ps (Scheduler.received ps) (fresh capacity) calls).length =
          (run ps capacity calls).outcomes.length →
        Along (Scheduler.perform ps) Roomy (fresh capacity) calls) := by
  induction calls using List.reverseRecOn with
  | nil => exact ⟨rfl, Nat.le_refl _, fun _ => rfl, fun _ => trivial⟩
  | append_singleton calls call ih =>
      rw [run_concat] at honce ⊢
      have hbefore : (run ps capacity calls).completions.Nodup :=
        honce.sublist (completions_grow _ call).sublist
      obtain ⟨hadmissions, hshort, hreceives, hroomy⟩ := ih hbefore
      obtain ⟨hadmissions', hshort', hreceives', hroomy'⟩ :=
        received_step (served_run capacity calls hbefore)
          (ring_run capacity calls) call honce
      rw [collect_concat, collect_concat, along_concat]
      change _ = _ ++ (run ps capacity calls).admitted ps call ∧
        (_ ++ (run ps capacity calls).received ps call).length ≤ _ ∧
        (_ ∧ Roomy (run ps capacity calls) call →
          _ = _ ++ (run ps capacity calls).received ps call) ∧
        ((_ ++ (run ps capacity calls).received ps call).length = _ →
          _ ∧ Roomy (run ps capacity calls) call)
      rw [List.length_append]
      refine ⟨by rw [hadmissions', hadmissions], by omega, fun hall => ?_,
        fun hequal => ⟨?_, ?_⟩⟩
      · rw [hreceives' hall.2, hreceives hall.1]
      · exact hroomy (by omega)
      · exact hroomy' (by omega)

/-! ## What is served next -/

/-- The item is the oldest one of the highest priority that has any. -/
def Due (s : Scheduler P H) (i : Item P H) : Prop :=
  ∃ p, i ∈ s.queues p ∧ (∀ q, Priority.all.idxOf q < Priority.all.idxOf p →
    s.queues q = []) ∧
    ∀ j ∈ s.queues p, i.serial ≤ j.serial

theorem find_highest {f : Priority → Bool} {p q : Priority}
    (h : Priority.all.find? f = some p)
    (hq : Priority.all.idxOf q < Priority.all.idxOf p) : f q = false := by
  obtain ⟨-, before, after, hall, hbefore⟩ := List.find?_eq_some_iff_append.1 h
  have hmem : q ∈ before := by
    by_contra hnot
    rw [hall, List.idxOf_append_of_notMem hnot] at hq
    have hp : (before ++ p :: after).idxOf p ≤ before.length := by
      by_cases hmem : p ∈ before
      · rw [List.idxOf_append_of_mem hmem]
        exact List.idxOf_le_length
      · rw [List.idxOf_append_of_notMem hmem, List.idxOf_cons_self]
        omega
    omega
  simpa using hbefore q hmem

/-- What a caller can rely on after a run. -/
structure Serves (ps : Payloads P H) (capacity : Nat) (calls : List (Call P H))
    (s : Scheduler P H) : Prop where
  -- at most one item is handed out and not completed
  oneActive : (s.handed.filter fun i => i.serial ∉ s.completions).length ≤ 1
  bounded : s.queuedCount ≤ capacity
  -- each admitted command waits, or has received one terminal outcome under its own
  -- identifier
  received : (collect ps (Scheduler.admitted ps) (fresh capacity) calls).Perm
    (collect ps (Scheduler.received ps) (fresh capacity) calls ++ s.waiting)
  once : (s.waiting.map Entry.command).Nodup
  drains : ∃ more : List (Call P H), (∀ r time, .admitRpc r time ∉ more) ∧
    (more.foldl (Scheduler.perform ps) s).completions.Nodup ∧
    (more.foldl (Scheduler.perform ps) s).waiting = []
  idles : ∀ time done, (s.next time done).2 = .idle → s.active ≠ none ∨ s.queued = []
  selects : ∀ time done i, (s.next time done).2 = .selected i → ∃ j, s.Due j ∧
      i = dequeued j time
  givesUp : ∀ time done o, (s.next time done).2 = .outcome o →
    ∃ j, s.Due j ∧ o.requestId = j.request.requestId ∧
      (s.next time done).1.completions = s.completions ++ [j.serial]
  frozenSelects : s.frozen = true → ∀ time done i, (s.next time done).2 = .selected i →
    i.priority = .emergency
  frozenSends : s.frozen = true → ∀ i : Item P H, i.priority ≠ .emergency → ∀ time done,
    (s.beforeBrokerSend i time done).2 ≠ none
  remembers : ∀ c h o, s.known.get c = some (h, .settled o) →
    ∃ q, (∃ e ∈ s.log, e.Concludes c q o) ∧ ∀ r time, r.command = some c →
      (s.admitRpc ps r time).1 = s ∧
        (r.requestId ≠ "" → r.payload = q.payload → r.payloadHash = .absent ∨
            r.payloadHash = .value h →
          (s.admitRpc ps r time).2 = some o) ∧
        (r.payload ≠ q.payload → ∃ refusal, (s.admitRpc ps r time).2 = some refusal ∧
          refusal.requestId = r.requestId ∧ refusal.category = .rejectedPreflight)

/-- A request for a command whose outcome is remembered changes nothing. -/
theorem admit_remembered {c : String} {h : H} {o : Outcome P} {q r : Request P H}
    (hknown : s.known.get c = some (h, .settled o)) (hnamed : c ≠ "")
    (hpayload : ps.hash q.payload = some h) (hcommand : r.command = some c)
    (time : Instant) :
    (s.admitRpc ps r time).1 = s ∧
      (r.requestId ≠ "" → r.payload = q.payload → r.payloadHash = .absent ∨
        r.payloadHash = .value h →
        (s.admitRpc ps r time).2 = some o) ∧
      (r.payload ≠ q.payload → ∃ refusal, (s.admitRpc ps r time).2 = some refusal ∧
        refusal.requestId = r.requestId ∧ refusal.category = .rejectedPreflight) := by
  by_cases hid : r.requestId = ""
  · rw [admitRpc, if_pos hid]
    exact ⟨rfl, fun hne => absurd hid hne, fun _ => ⟨_, rfl, rfl, rfl⟩⟩
  rw [admitRpc, if_neg hid, hcommand]
  dsimp only
  rw [if_neg hnamed]
  cases hhash : ps.hash r.payload with
  | none =>
      refine ⟨rfl, fun _ hsame => ?_, fun _ => ⟨_, rfl, rfl, rfl⟩⟩
      rw [hsame, hpayload] at hhash
      cases hhash
  | some payloadHash =>
      dsimp only
      have hsame : r.payload = q.payload → payloadHash = h := fun heq => by
        rw [heq, hpayload] at hhash
        exact (Option.some.inj hhash).symm
      have hother : r.payload ≠ q.payload → h ≠ payloadHash := by
        rintro hne rfl
        exact hne (ps.faithful hhash hpayload)
      split
      · next hdeclared =>
          refine ⟨rfl, fun _ heq hdeclares => ?_, fun _ => ⟨_, rfl, rfl, rfl⟩⟩
          rw [hsame heq] at hdeclared
          exact (hdeclares.elim hdeclared.1 hdeclared.2).elim
      · rw [hknown]
        refine ⟨rfl, fun _ heq _ => ?_, fun hne => ⟨_, rfl, ?_⟩⟩
        · simp [readmitted, hsame heq]
        · rw [readmitted, if_pos (hother hne)]
          exact ⟨rfl, rfl⟩

omit [DecidableEq H] in
theorem Served.due (h : Served ps s) {p : Priority} {tail : List (Item P H)}
    (hfound : (Priority.all.find? fun p => !(s.queues p).isEmpty) = some p)
    (hqueue : s.queues p = i :: tail) : s.Due i := by
  refine ⟨p, hqueue ▸ List.mem_cons_self, fun q hq => ?_, fun j hj => ?_⟩
  · simpa using find_highest hfound hq
  · have holdest := h.oldest p
    rw [hqueue, List.map_cons, List.pairwise_cons] at holdest
    rw [hqueue] at hj
    obtain rfl | hj := List.mem_cons.1 hj
    · exact Nat.le_refl _
    · exact Nat.le_of_lt (holdest.1 _ (List.mem_map_of_mem hj))

omit [DecidableEq H] in
/-- What `next` hands out or gives up was due. -/
theorem Served.nextDue (h : Served ps s) (time done : Instant) :
    (∀ i, (s.next time done).2 = .selected i → ∃ j, s.Due j ∧ i = dequeued j time) ∧
      ∀ o, (s.next time done).2 = .outcome o → ∃ j, s.Due j ∧
        o.requestId = j.request.requestId ∧
        (s.next time done).1.completions = s.completions ++ [j.serial] := by
  obtain ⟨heq, -⟩ | ⟨p, j, tail, -, hfound, hqueue, heq⟩ := s.next_cases time done
  · rw [heq]
    exact ⟨fun i hi => (by cases hi), fun o ho => (by cases ho)⟩
  · have hdue := h.due hfound hqueue
    have hgiven : ∀ category reason o,
        ((s.setQueue p tail).complete (dequeued j time) category reason done).2 = o →
        ∃ k, s.Due k ∧ o.requestId = k.request.requestId ∧
          ((s.setQueue p tail).complete (dequeued j time) category reason
            done).1.completions =
            s.completions ++ [k.serial] := by
      rintro category reason o rfl
      exact ⟨j, hdue, rfl, (complete_entries _ _ _ _ _).2.2⟩
    obtain ⟨-, category, reason, hstart⟩ | ⟨-, hstart⟩ :=
      (s.setQueue p tail).start_cases (dequeued j time) time done
    · rw [heq, hstart]
      refine ⟨fun i hi => (by cases hi), fun o ho => ?_⟩
      exact hgiven category reason o (Next.outcome.inj ho)
    · rw [heq, hstart]
      exact ⟨fun i hi => ⟨j, hdue, (Next.selected.inj hi).symm⟩, fun o ho => (by cases ho)⟩

omit [DecidableEq H] in
theorem Served.oneActive (h : Served ps s) :
    (s.handed.filter fun i => i.serial ∉ s.completions).length ≤ 1 := by
  have hactive : ∀ i ∈ s.handed.filter (fun i => i.serial ∉ s.completions),
      s.active = some i.serial := by
    intro i hi
    obtain ⟨hmem, hopen⟩ := List.mem_filter.1 hi
    exact (h.held i hmem).resolve_left (by simpa using hopen)
  have hnodup :
      ((s.handed.filter fun i => i.serial ∉ s.completions).map (·.serial)).Nodup := by
    refine h.numbered.nodup.sublist (List.Sublist.map _ ?_)
    exact List.filter_sublist.trans (List.sublist_append_right _ _)
  match hlist : s.handed.filter (fun i => i.serial ∉ s.completions) with
  | [] | [_] =>
      rw [hlist]
      simp
  | i :: j :: rest =>
      rw [hlist] at hactive hnodup
      have hi := hactive i List.mem_cons_self
      have hj := hactive j (List.mem_cons_of_mem _ List.mem_cons_self)
      have hsame : i.serial = j.serial := Option.some.inj (hi.symm.trans hj)
      simp [hsame] at hnodup

omit [DecidableEq H] in
/-- While the Worker is frozen only emergency items start. -/
theorem next_frozen (hfrozen : s.frozen = true) {time done : Instant}
    (hi : (s.next time done).2 = .selected i) : i.priority = .emergency := by
  obtain ⟨heq, -⟩ | ⟨p, j, tail, -, -, -, heq⟩ := s.next_cases time done
  · rw [heq] at hi
    cases hi
  · obtain ⟨-, category, reason, hstart⟩ | ⟨hordinary, hstart⟩ :=
      (s.setQueue p tail).start_cases (dequeued j time) time done
    · rw [heq, hstart] at hi
      cases hi
    · rw [heq, hstart] at hi
      cases hi
      by_contra hne
      exact hordinary (.inr ⟨hfrozen, hne⟩)

end Scheduler

/--
After every run in which no item is completed twice, the scheduler has served
each command once, in order, just if every item that was completed had no more
requests after its first than the scheduler remembers.
-/
theorem serves_each_command_once [DecidableEq H] (ps : Payloads P H) (capacity : Nat)
    (calls : List (Call P H))
    (honce : (Scheduler.run ps capacity calls).completions.Nodup) :
    (Scheduler.run ps capacity calls).Serves ps capacity calls ↔
      Along (Scheduler.perform ps) Scheduler.Roomy (Scheduler.fresh capacity) calls := by
  have h := Scheduler.served_run capacity calls honce
  obtain ⟨hadmissions, -, hreceives, hroomy⟩ := Scheduler.received_run capacity calls honce
  have haccounted := h.books.accounted
  rw [hadmissions] at haccounted
  refine ⟨fun hserves => hroomy ?_, fun hall => ?_⟩
  · have hlength := (hserves.received.symm.trans haccounted).length_eq
    rw [List.length_append, List.length_append] at hlength
    exact Nat.add_right_cancel hlength
  rw [hreceives hall] at haccounted
  refine
    { oneActive := h.oneActive
      bounded := Nat.le_trans h.room (Nat.le_of_eq (Scheduler.run_capacity capacity calls))
      received := haccounted
      once := h.books.once
      drains := h.drain honce
      idles := fun time done hidle => ?_
      selects := fun time done => (h.nextDue time done).1
      givesUp := fun time done => (h.nextDue time done).2
      frozenSelects := fun hfrozen time done i hi => Scheduler.next_frozen hfrozen hi
      frozenSends := fun hfrozen i hordinary time done => ?_
      remembers := fun c payloadHash o hknown => ?_ }
  · obtain ⟨-, hbusy⟩ | ⟨p, i, tail, -, -, -, heq⟩ :=
      (Scheduler.run ps capacity calls).next_cases time done
    · exact hbusy
    · obtain ⟨-, category, reason, hstart⟩ | ⟨-, hstart⟩ :=
        (Scheduler.setQueue _ p tail).start_cases (Scheduler.dequeued i time) time done
      · rw [heq, hstart] at hidle
        cases hidle
      · rw [heq, hstart] at hidle
        cases hidle
  · rw [Scheduler.beforeBrokerSend, if_pos ⟨hfrozen, hordinary⟩]
    exact fun hnone => nomatch hnone
  · obtain ⟨hnamed, q, hconcluded, hq⟩ := h.books.remembered c payloadHash o hknown
    exact ⟨q, hconcluded, fun r time hr =>
      Scheduler.admit_remembered hknown hnamed hq hr time⟩

namespace Sample

def texts : Payloads String String := .texts

/-- A read of the symbols, which shares an item with others. -/
def symbols (requestId : String) : Request String String :=
  ⟨requestId, "read", "symbols", .absent, .absent, .absent, .absent, none, none, none⟩

/-- Two reads of the symbols share an item, and an entry overtakes them. -/
def busy : List (Call String String) :=
  [.admitRpc (symbols "a") 0, .admitRpc (symbols "b") 1,
    .admitRpc ⟨"c", "operation", "market", .absent, .absent, .absent, .absent,
      none, none, none⟩ 2,
    .next 3 3, .complete 1 .completed "done" 4, .next 5 5, .complete 0 .completed "done" 6,
    .admitRpc { symbols "d" with commandId := .value "a" } 7]

/-- Three reads of the symbols share an item of a scheduler that remembers one outcome. -/
def crowded : List (Call String String) :=
  [.admitRpc (symbols "a") 0, .admitRpc (symbols "b") 1,
    .admitRpc (symbols "c") 2, .next 3 3, .complete 0 .completed "done" 4]

end Sample

theorem busy_served_once :
    (Scheduler.run Sample.texts 8 Sample.busy).Serves Sample.texts 8 Sample.busy :=
  (serves_each_command_once Sample.texts 8 Sample.busy (by decide +kernel)).2
    (by decide +kernel)

/-- The second of the three reads never receives its outcome, and is queued
when it comes again. -/
theorem crowded_loses_outcome :
    let s := Scheduler.run Sample.texts 1 Sample.crowded
    s.completions.Nodup ∧ s.waiting = [] ∧ s.known.get "b" = none ∧
      s.admitted Sample.texts (.admitRpc (Sample.symbols "b") 5) = [⟨"b", "b", "read"⟩] ∧
      ¬s.Serves Sample.texts 1 Sample.crowded := by
  refine ⟨by decide +kernel, by decide +kernel, by decide +kernel,
    by decide +kernel, fun h => ?_⟩
  have hlength := h.received.length_eq
  revert hlength
  decide +kernel

end PairCell.Scheduling
