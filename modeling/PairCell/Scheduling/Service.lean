import Mathlib.Data.List.Induction
import PairCell.Scheduling

/-!
# The scheduler serves each command once, in order

Every request that was admitted waits in one item or has one outcome, under its
own identifier.  The queues are bounded, the oldest item of the highest
priority is taken first, and a command whose outcome is remembered is not
queued again.
-/

namespace PairCell.Scheduling

open Lib

variable {P H : Type}

/-- A command with the identifier and the kind of the request that brought it. -/
structure Entry where
  command : String
  requestId : String
  kind : String
  deriving DecidableEq, Repr

def Request.entry (r : Request P H) : Option Entry :=
  r.command.map fun c => ⟨c, r.requestId, r.kind⟩

def Item.entries (i : Item P H) : List Entry := i.requests.filterMap Request.entry

namespace Event

def admission : Event P H → Option Entry
  | .admitted c r => some ⟨c, r.requestId, r.kind⟩
  | _ => none

/-- The command and the identifier under which an outcome is recorded. -/
def outcome : Event P H → Option Entry
  | .recorded c _ o _ => some ⟨c, o.requestId, o.kind⟩
  | _ => none

def completion : Event P H → Option Nat
  | .completed serial => some serial
  | _ => none

/-- The event gives a request for the command its outcome. -/
def Concludes (e : Event P H) (command : String) (q : Request P H)
    (o : Outcome P) : Prop :=
  (∃ time, e = .recorded command q o time) ∨
    ∃ time, e = .refused q o time ∧ q.command = some command

end Event

namespace Scheduler

variable (s : Scheduler P H)

/-- The item that is active. -/
def current : Option (Item P H) := s.active.bind s.handedItem

def inProgress : List (Item P H) := s.queued ++ s.current.toList

def admissions : List Entry := s.log.filterMap Event.admission

def outcomes : List Entry := s.log.filterMap Event.outcome

def completions : List Nat := s.log.filterMap Event.completion

/-- The requests that wait for their outcome. -/
def waiting : List Entry := s.inProgress.flatMap Item.entries

/-! ## What is remembered -/

variable {s} {s' : Scheduler P H}

/-- Eviction forgets outcomes only. -/
theorem evict_pending (capacity : Nat) {known : Table String (H × Known P)}
    (outcomes : List (String × Outcome P)) {c : String} {h : H} {n : Nat}
    (hc : known.get c = some (h, .pending n)) :
    (evict capacity known outcomes).1.get c = some (h, .pending n) := by
  induction outcomes generalizing known with
  | nil => exact hc
  | cons stale outcomes ih =>
      simp only [evict]
      split
      · exact ih ((Table.get_delete_eq_some _ _ _ _).2 ⟨hc, by simp [Known.isSettled]⟩)
      · exact hc

/-- What is known after an eviction was known before. -/
theorem evict_known (capacity : Nat) {known : Table String (H × Known P)}
    (outcomes : List (String × Outcome P)) {c : String} {v : H × Known P}
    (hc : (evict capacity known outcomes).1.get c = some v) : known.get c = some v := by
  induction outcomes generalizing known with
  | nil => exact hc
  | cons stale outcomes ih =>
      simp only [evict] at hc
      split at hc
      · exact ((Table.get_delete_eq_some _ _ _ _).1 (ih hc)).1
      · exact hc

theorem remember_pending {command c : String} {payloadHash h : H} {o : Outcome P} {n : Nat}
    (hne : c ≠ command) (hc : s.known.get c = some (h, .pending n)) :
    (s.remember command payloadHash o).known.get c = some (h, .pending n) :=
  evict_pending _ _ ((Table.get_set_ne _ _ hne).trans hc)

theorem remember_known {command c : String} {payloadHash : H} {o : Outcome P}
    {v : H × Known P} (hc : (s.remember command payloadHash o).known.get c = some v) :
    c = command ∧ v = (payloadHash, .settled o) ∨ s.known.get c = some v := by
  have hset := evict_known _ _ hc
  rw [Table.get_set] at hset
  split at hset
  · exact .inl ⟨‹_›, (Option.some.inj hset).symm⟩
  · exact .inr hset

theorem settle_pending (i : Item P H) (o : Outcome P) (time : Instant)
    {r : Request P H} {c : String} {h : H} {n : Nat} (hne : r.command ≠ some c)
    (hc : s.known.get c = some (h, .pending n)) :
    (s.settle i o time r).known.get c = some (h, .pending n) := by
  unfold settle
  cases hcommand : r.command with
  | none => exact hc
  | some d =>
      refine remember_pending ?_ hc
      rintro rfl
      exact hne hcommand

theorem settle_known (i : Item P H) (o : Outcome P) (time : Instant)
    {r : Request P H} {c : String} {v : H × Known P}
    (hc : (s.settle i o time r).known.get c = some v) :
    (r.command = some c ∧
      v = (i.payloadHash, .settled { o with requestId := r.requestId, kind := r.kind })) ∨
      s.known.get c = some v := by
  unfold settle at hc
  cases hcommand : r.command with
  | none =>
      rw [hcommand] at hc
      exact .inr hc
  | some d =>
      rw [hcommand] at hc
      obtain ⟨rfl, rfl⟩ | hknown := remember_known hc
      · exact .inl ⟨rfl, rfl⟩
      · exact .inr hknown

theorem settles_pending (i : Item P H) (o : Outcome P) (time : Instant)
    {rs : List (Request P H)} {c : String} {h : H} {n : Nat}
    (hne : ∀ r ∈ rs, r.command ≠ some c) (hc : s.known.get c = some (h, .pending n)) :
    (rs.foldl (fun s r => s.settle i o time r) s).known.get c = some (h, .pending n) := by
  induction rs generalizing s with
  | nil => exact hc
  | cons r rs ih =>
      exact ih (fun r hr => hne r (List.mem_cons_of_mem _ hr))
        (settle_pending i o time (hne r List.mem_cons_self) hc)

theorem settles_known (i : Item P H) (o : Outcome P) (time : Instant)
    {rs : List (Request P H)} {c : String} {v : H × Known P}
    (hc : (rs.foldl (fun s r => s.settle i o time r) s).known.get c = some v) :
    (∃ r ∈ rs, r.command = some c ∧
      v = (i.payloadHash, .settled { o with requestId := r.requestId, kind := r.kind })) ∨
      s.known.get c = some v := by
  induction rs generalizing s with
  | nil => exact .inr hc
  | cons r rs ih =>
      obtain ⟨q, hq, hv⟩ | hknown := ih hc
      · exact .inl ⟨q, List.mem_cons_of_mem _ hq, hv⟩
      · obtain hr | hknown := settle_known i o time hknown
        · exact .inl ⟨r, List.mem_cons_self, hr⟩
        · exact .inr hknown

/-! ## The accounts -/

/-- The item is what is known of each of its commands. -/
structure Tracks (ps : Payloads P H) (s : Scheduler P H) (i : Item P H) : Prop where
  pending : ∀ r ∈ i.requests, ∀ c, r.command = some c →
    s.known.get c = some (i.payloadHash, .pending i.serial)
  payload : ∀ r ∈ i.requests, ps.hash r.payload = some i.payloadHash
  named : ∀ r ∈ i.requests, ∃ c, r.command = some c ∧ c ≠ ""

/-- What is known of the commands of an item stays known. -/
theorem Tracks.keep {i : Item P H} {ps : Payloads P H} (h : Tracks ps s i)
    (hkeep : ∀ c v n, s.known.get c = some (v, .pending n) →
      (∃ r ∈ i.requests, r.command = some c) →
      s'.known.get c = some (v, .pending n)) : Tracks ps s' i :=
  ⟨fun r hr c hc => hkeep c _ _ (h.pending r hr c hc) ⟨r, hr, hc⟩, h.payload, h.named⟩

/-- Every admission waits in one of the items or has one outcome. -/
structure Books (ps : Payloads P H) (s : Scheduler P H)
    (items : List (Item P H)) : Prop where
  known : ∀ i ∈ items, Tracks ps s i
  once : ((items.flatMap Item.entries).map Entry.command).Nodup
  remembered : ∀ c h o, s.known.get c = some (h, .settled o) →
    c ≠ "" ∧ ∃ q, (∃ e ∈ s.log, e.Concludes c q o) ∧ ps.hash q.payload = some h
  accounted : s.admissions.Perm (s.outcomes ++ items.flatMap Item.entries)

variable {ps : Payloads P H} {items items' : List (Item P H)} {i : Item P H}
    {time : Instant}

theorem mem_entries {e : Entry} : e ∈ i.entries ↔ ∃ r ∈ i.requests, r.entry = some e := by
  simp [Item.entries]

theorem entry_command {r : Request P H} {e : Entry} (h : r.entry = some e) :
    r.command = some e.command := by
  obtain ⟨c, hc, rfl⟩ := Option.map_eq_some_iff.1 h
  exact hc

theorem Books.perm (h : Books ps s items) (hperm : items.Perm items') :
    Books ps s items' := by
  have hentries := hperm.flatMap_right Item.entries
  exact ⟨fun i hi => h.known i (hperm.mem_iff.2 hi), (hentries.map _).nodup_iff.1 h.once,
    h.remembered, h.accounted.trans (hentries.append_left _)⟩

/-- The accounts read the log, what is known, and the requests of the items. -/
theorem Books.touch {j : Item P H} (h : Books ps s (items ++ [i])) (hlog : s'.log = s.log)
    (hknown : s'.known = s.known) (hrequests : j.requests = i.requests)
    (hhash : j.payloadHash = i.payloadHash) (hserial : j.serial = i.serial) :
    Books ps s' (items ++ [j]) := by
  have hentries : (items ++ [j]).flatMap Item.entries =
      (items ++ [i]).flatMap Item.entries := by
    simp [Item.entries, hrequests]
  refine ⟨fun k hk => ?_, hentries ▸ h.once, hlog ▸ hknown ▸ h.remembered, ?_⟩
  · obtain hk | hk := List.mem_append.1 hk
    · have hk := h.known k (List.mem_append_left _ hk)
      exact hk.keep fun c v n hc _ => hknown ▸ hc
    · have hi := h.known i (List.mem_append_right _ List.mem_cons_self)
      obtain rfl := List.mem_singleton.1 hk
      refine ⟨?_, ?_, hrequests ▸ hi.named⟩
      · rw [hrequests, hhash, hserial, hknown]
        exact hi.pending
      · rw [hrequests, hhash]
        exact hi.payload
  · rw [hentries, admissions, outcomes, hlog]
    exact h.accounted

/-- An event that is neither an admission nor an outcome changes no account. -/
theorem Books.noted {e : Event P H} (h : Books ps s items) (hlog : s'.log = s.log ++ [e])
    (hknown : s'.known = s.known) (hadmission : e.admission = none)
    (houtcome : e.outcome = none) :
    Books ps s' items := by
  refine ⟨fun i hi => (h.known i hi).keep fun c v n hc _ => hknown ▸ hc, h.once, ?_, ?_⟩
  · rw [hknown]
    intro c payloadHash o hc
    obtain ⟨hnamed, q, ⟨e, he, hconcludes⟩, hq⟩ := h.remembered c payloadHash o hc
    exact ⟨hnamed, q, ⟨e, hlog ▸ List.mem_append_left _ he, hconcludes⟩, hq⟩
  · rw [admissions, outcomes, hlog, List.filterMap_append, List.filterMap_append]
    simpa [hadmission, houtcome, List.filterMap_cons, admissions,
      outcomes] using h.accounted

/-- The outcomes of a completed item are those of its requests. -/
theorem records_entries (o : Outcome P) (time : Instant) (i : Item P H) :
    (records o time i.requests).filterMap Event.outcome = i.entries ∧
      (records o time i.requests : List (Event P H)).filterMap Event.admission = [] ∧
      (records o time i.requests : List (Event P H)).filterMap Event.completion = [] := by
  have houtcome : ∀ r : Request P H, (r.command.map fun c =>
      (Event.recorded c r { o with requestId := r.requestId, kind := r.kind } time :
        Event P H)).bind
        Event.outcome = r.entry := by
    intro r
    cases hc : r.command <;> simp [Request.entry, hc, Event.outcome]
  simp only [records, List.filterMap_filterMap, houtcome]
  refine ⟨rfl, ?_, ?_⟩
  · refine List.filterMap_eq_nil_iff.2 fun r _ => ?_
    cases r.command <;> rfl
  · refine List.filterMap_eq_nil_iff.2 fun r _ => ?_
    cases r.command <;> rfl

theorem complete_entries (s : Scheduler P H) (i : Item P H) (category : Category)
    (reason : String) (time : Instant) :
    let s' := (s.complete i category reason time).1
    s'.admissions = s.admissions ∧ s'.outcomes = s.outcomes ++ i.entries ∧
      s'.completions = s.completions ++ [i.serial] := by
  obtain ⟨-, -, hlog⟩ := complete_frame s i category reason time
  obtain ⟨houtcomes, hadmissions, hcompletions⟩ :=
    records_entries (s.complete i category reason time).2 time i
  simp only [admissions, outcomes, completions, hlog, List.filterMap_append,
    houtcomes, hadmissions, hcompletions]
  exact ⟨by simp [Event.admission], by simp [Event.outcome], by simp [Event.completion]⟩

theorem fresh_of_once {category : Category} {reason : String}
    (h : (s.complete i category reason time).1.completions.Nodup) :
    i.serial ∉ s.completions := by
  rw [(complete_entries s i category reason time).2.2, List.nodup_append] at h
  exact fun hmem => h.2.2 _ hmem _ List.mem_cons_self rfl

theorem Books.complete (h : Books ps s (items ++ [i])) (category : Category)
    (reason : String) (time : Instant) :
    Books ps (s.complete i category reason time).1 items := by
  obtain ⟨hadmissions, houtcomes, -⟩ := complete_entries s i category reason time
  obtain ⟨-, -, hlog⟩ := complete_frame s i category reason time
  have hi := h.known i (List.mem_append_right _ List.mem_cons_self)
  have hsplit : ((items.flatMap Item.entries).map Entry.command ++
      i.entries.map Entry.command).Nodup := by simpa using h.once
  refine ⟨fun j hj => (h.known j (List.mem_append_left _ hj)).keep fun c v n hpending
    ⟨r, hr, hc⟩ => ?_, hsplit.of_append_left, fun c payloadHash o hknown => ?_, ?_⟩
  · -- no command waits in two items
    refine settles_pending i _ time (fun q hq hcommand => ?_) hpending
    refine (List.nodup_append.1 hsplit).2.2 c ?_ c ?_ rfl
    · refine List.mem_map.2 ⟨⟨c, r.requestId, r.kind⟩, List.mem_flatMap.2 ⟨j, hj, ?_⟩, rfl⟩
      exact mem_entries.2 ⟨r, hr, by rw [Request.entry, hc]; rfl⟩
    · refine List.mem_map.2 ⟨⟨c, q.requestId, q.kind⟩, mem_entries.2 ⟨q, hq, ?_⟩, rfl⟩
      rw [Request.entry, hcommand]
      rfl
  · obtain ⟨r, hr, hc, heq⟩ | hknown := settles_known i _ time hknown
    · cases heq
      obtain ⟨d, hd, hnamed⟩ := hi.named r hr
      obtain rfl := Option.some.inj (hd.symm.trans hc)
      refine ⟨hnamed, r,
        ⟨_, hlog ▸ List.mem_append_right _ (List.mem_append_left _ ?_), .inl ⟨time, rfl⟩⟩,
        hi.payload r hr⟩
      exact List.mem_filterMap.2 ⟨r, hr, by rw [hc]; rfl⟩
    · obtain ⟨hnamed, q, ⟨e, he, hconcludes⟩, hpayload⟩ :=
        h.remembered c payloadHash o hknown
      exact ⟨hnamed, q, ⟨e, hlog ▸ List.mem_append_left _ he, hconcludes⟩, hpayload⟩
  · rw [hadmissions, houtcomes, List.append_assoc]
    refine h.accounted.trans (.append_left _ ?_)
    simpa using List.perm_append_comm

section Admission

variable {r : Request P H} {command : String} {payloadHash : H}

theorem Books.refuse (h : Books ps s items) (hcommand : r.command = some command)
    (hnamed : command ≠ "") (hnew : s.known.get command = none)
    (hpayload : ps.hash r.payload = some payloadHash) (category : Category)
    (reason : String) :
    Books ps (s.refuse r command payloadHash category reason time).1 items := by
  refine ⟨fun j hj => (h.known j hj).keep fun c v n hpending _ => ?_, h.once,
    fun c h' o hknown => ?_, ?_⟩
  · refine remember_pending ?_ hpending
    rintro rfl
    simp [hnew] at hpending
  · obtain ⟨rfl, heq⟩ | hknown := remember_known hknown
    · cases heq
      exact ⟨hnamed, r, ⟨_, List.mem_append_right _ List.mem_cons_self,
        .inr ⟨time, rfl, hcommand⟩⟩, hpayload⟩
    · obtain ⟨hold, q, ⟨e, he, hconcludes⟩, hq⟩ := h.remembered c h' o hknown
      exact ⟨hold, q, ⟨e, List.mem_append_left _ he, hconcludes⟩, hq⟩
  · simp only [Scheduler.refuse, note, remember, admissions, outcomes,
      List.filterMap_append]
    simpa [Event.admission, Event.outcome, List.filterMap_cons, admissions, outcomes] using
      h.accounted

/-- A request for a command that is not known joins the accounts. -/
theorem Books.admitted (h : Books ps s items) (hcommand : r.command = some command)
    (hnamed : command ≠ "") (hnew : s.known.get command = none)
    (hpayload : ps.hash r.payload = some payloadHash) {n : Nat}
    (hknown : s'.known = s.known.set command (payloadHash, .pending n))
    (hlog : s'.log = s.log ++ [.admitted command r])
    (hentries : (items'.flatMap Item.entries).Perm
      (items.flatMap Item.entries ++ [⟨command, r.requestId, r.kind⟩]))
    (hitems : ∀ i ∈ items', ∀ q ∈ i.requests,
      (q = r ∧ i.payloadHash = payloadHash ∧ i.serial = n) ∨
      ∃ j ∈ items, q ∈ j.requests ∧ i.payloadHash = j.payloadHash ∧ i.serial = j.serial) :
    Books ps s' items' := by
  have hfresh : ∀ e ∈ items.flatMap Item.entries, e.command ≠ command := by
    rintro e he rfl
    obtain ⟨j, hj, he⟩ := List.mem_flatMap.1 he
    obtain ⟨q, hq, hentry⟩ := mem_entries.1 he
    simpa [hnew] using (h.known j hj).pending q hq _ (entry_command hentry)
  refine ⟨fun i hi => ⟨fun q hq c hc => ?_, fun q hq => ?_, fun q hq => ?_⟩, ?_,
    fun c h' o hc => ?_, ?_⟩
  · rw [hknown, Table.get_set]
    obtain ⟨rfl, hhash, hserial⟩ | ⟨j, hj, hqj, hhash, hserial⟩ := hitems i hi q hq
    · rw [if_pos (Option.some.inj (hc.symm.trans hcommand)), hhash, hserial]
    · have hpending := (h.known j hj).pending q hqj c hc
      rw [if_neg, hpending, hhash, hserial]
      rintro rfl
      simp [hnew] at hpending
  · obtain ⟨rfl, hhash, -⟩ | ⟨j, hj, hqj, hhash, -⟩ := hitems i hi q hq
    · rw [hhash, hpayload]
    · rw [hhash, (h.known j hj).payload q hqj]
  · obtain ⟨rfl, -, -⟩ | ⟨j, hj, hqj, -, -⟩ := hitems i hi q hq
    · exact ⟨command, hcommand, hnamed⟩
    · exact (h.known j hj).named q hqj
  · refine ((hentries.map Entry.command).nodup_iff).2 ?_
    rw [List.map_append, List.nodup_append]
    refine ⟨h.once, List.nodup_singleton _, ?_⟩
    rintro c hc d hd rfl
    obtain ⟨e, he, rfl⟩ := List.mem_map.1 hc
    exact hfresh e he (List.mem_singleton.1 hd)
  · rw [hknown, Table.get_set] at hc
    split at hc
    · cases hc
    · obtain ⟨hold, q, ⟨e, he, hconcludes⟩, hq⟩ := h.remembered c h' o hc
      exact ⟨hold, q, ⟨e, hlog ▸ List.mem_append_left _ he, hconcludes⟩, hq⟩
  · have hadmissions : s'.admissions = s.admissions ++
        [⟨command, r.requestId, r.kind⟩] := by
      simp [admissions, hlog, Event.admission]
    have houtcomes : s'.outcomes = s.outcomes := by simp [outcomes, hlog, Event.outcome]
    rw [hadmissions, houtcomes]
    refine (h.accounted.append_right _).trans ?_
    rw [List.append_assoc]
    exact hentries.symm.append_left _

end Admission

/-! ## The invariant -/

structure Served (ps : Payloads P H) (s : Scheduler P H) : Prop where
  numbered : Numbered s
  room : s.queuedCount ≤ s.capacity
  oldest : ∀ p, ((s.queues p).map (·.serial)).Pairwise (· < ·)
  issued : ∀ n ∈ s.completions, n < s.issued
  waits : ∀ i ∈ s.queued, i.serial ∉ s.completions
  -- a handed item is completed, or it is the active one
  held : ∀ i ∈ s.handed, i.serial ∈ s.completions ∨ s.active = some i.serial
  active : ∀ n, s.active = some n → n ∉ s.completions ∧ ∃ i ∈ s.handed, i.serial = n
  books : Books ps s s.inProgress

/-- The item is no longer queued, and nothing else is in progress outside the queues. -/
structure Taken (ps : Payloads P H) (s : Scheduler P H) (i : Item P H) : Prop where
  numbered : Numbered s
  room : s.queuedCount ≤ s.capacity
  oldest : ∀ p, ((s.queues p).map (·.serial)).Pairwise (· < ·)
  issued : i.serial < s.issued ∧ ∀ n ∈ s.completions, n < s.issued
  waits : ∀ j ∈ s.queued, j.serial ∉ s.completions ∧ j.serial ≠ i.serial
  held : ∀ j ∈ s.handed, j.serial ∈ s.completions ∨ j.serial = i.serial
  active : s.active = none ∨ s.active = some i.serial
  fresh : i.serial ∉ s.completions
  books : Books ps s (s.queued ++ [i])

theorem Taken.complete (h : Taken ps s i) (category : Category) (reason : String)
    (time : Instant) :
    Served ps (s.complete i category reason time).1 := by
  obtain ⟨hstock, hactive, -⟩ := complete_frame s i category reason time
  obtain ⟨-, -, hcompletions⟩ := complete_entries s i category reason time
  have hbooks := h.books.complete category reason time
  generalize (s.complete i category reason time).1 = t at *
  have hqueued : t.queued = s.queued := by rw [queued, hstock.queues, queued]
  have hidle : t.active = none := by
    rw [hactive]
    obtain hnone | hsome := h.active
    · rw [hnone]
      rfl
    · rw [if_pos hsome]
  refine ⟨h.numbered.of_stock hstock, ?_, hstock.queues ▸ h.oldest, ?_, ?_, ?_, ?_, ?_⟩
  · rw [queuedCount, hqueued, hstock.capacity]
    exact h.room
  · rw [hcompletions, hstock.issued]
    intro n hn
    obtain hn | hn := List.mem_append.1 hn
    · exact h.issued.2 n hn
    · exact List.mem_singleton.1 hn ▸ h.issued.1
  · rw [hqueued, hcompletions]
    intro j hj hmem
    obtain hmem | hmem := List.mem_append.1 hmem
    · exact (h.waits j hj).1 hmem
    · exact (h.waits j hj).2 (List.mem_singleton.1 hmem)
  · rw [hstock.handed, hcompletions]
    intro j hj
    obtain hdone | heq := h.held j hj
    · exact .inl (List.mem_append_left _ hdone)
    · exact .inl (List.mem_append_right _ (List.mem_singleton.2 heq))
  · intro n hn
    rw [hidle] at hn
    cases hn
  · rw [inProgress, current, hidle, hqueued]
    simpa using hbooks

/-- A handed item that is not completed is the only one in progress outside the queues. -/
theorem Served.taken (h : Served ps s) {serial : Nat} (hi : s.handedItem serial = some i)
    (hfresh : i.serial ∉ s.completions) : Taken ps s i := by
  have hmem : i ∈ s.handed := List.mem_of_find?_eq_some hi
  have hserial : i.serial = serial := by simpa using List.find?_some hi
  have hactive : s.active = some i.serial := (h.held i hmem).resolve_left hfresh
  have hcurrent : s.current = some i := by
    rw [current, hactive, hserial]
    exact hi
  refine ⟨h.numbered, h.room, h.oldest, ⟨?_, h.issued⟩,
    fun j hj => ⟨h.waits j hj, fun heq => ?_⟩,
    fun j hj => ?_, .inr hactive, hfresh, ?_⟩
  · exact h.numbered.issued i (List.mem_append_right _ hmem)
  · have hnodup := h.numbered.nodup
    rw [List.map_append, List.nodup_append] at hnodup
    exact hnodup.2.2 _ (List.mem_map_of_mem hj) _ (List.mem_map_of_mem hmem) heq
  · obtain hdone | hother := h.held j hj
    · exact .inl hdone
    · rw [hactive] at hother
      exact .inr (Option.some.inj hother).symm
  · have hbooks := h.books
    rwa [inProgress, hcurrent] at hbooks

/-- The first item of a queue is taken out while nothing is active. -/
theorem Served.pop (h : Served ps s) (hidle : s.active = none) {p : Priority}
    {tail : List (Item P H)} (hqueue : s.queues p = i :: tail) (time : Instant) :
    Taken ps (s.setQueue p tail) (dequeued i time) := by
  have hperm : s.queued.Perm (i :: (s.setQueue p tail).queued) := by
    have hold := s.queued_perm p
    rw [hqueue] at hold
    exact hold.trans ((s.setQueue_queued p tail).symm.cons i)
  have hserials := h.numbered.nodup
  rw [List.map_append, List.nodup_append] at hserials
  have hcount := hperm.length_eq
  have hi : i ∈ s.queued := hperm.mem_iff.2 List.mem_cons_self
  refine ⟨(h.numbered.pop hqueue (j := i) rfl).1, ?_, fun q => ?_, ⟨?_, h.issued⟩,
    fun j hj => ?_,
    fun j hj => ?_, .inl hidle, h.waits i hi, ?_⟩
  · have hroom := h.room
    have hcapacity : (s.setQueue p tail).capacity = s.capacity := rfl
    simp only [queuedCount, List.length_cons] at hroom hcount ⊢
    omega
  · have holdest := h.oldest q
    by_cases hq : q = p
    · subst hq
      rw [hqueue, List.map_cons, List.pairwise_cons] at holdest
      simpa [setQueue] using holdest.2
    · simpa [setQueue, hq] using holdest
  · exact h.numbered.issued i (List.mem_append_left _ hi)
  · refine ⟨h.waits j (hperm.mem_iff.2 (List.mem_cons_of_mem _ hj)), ?_⟩
    have hnodup := (hperm.map (·.serial)).nodup_iff.1 hserials.1
    intro heq
    exact (List.nodup_cons.1 hnodup).1 (List.mem_map.2 ⟨j, hj, heq⟩)
  · exact .inl ((h.held j hj).resolve_right (by simp [hidle]))
  · have hbooks := h.books
    rw [inProgress, current, hidle] at hbooks
    refine Books.touch (i := i) (hbooks.perm ?_) rfl rfl rfl rfl rfl
    simpa using hperm.trans (List.perm_append_singleton _ _).symm

/-- An item that was taken may be handed out. -/
theorem Taken.handOut (h : Taken ps s i)
    (hnumbered : Numbered { s with handed := i :: s.handed }) (time : Instant) :
    Served ps ({ s with active := some i.serial, handed := i :: s.handed }.note
      (.selected i time)) := by
  have hcompletions : ({ s with active := some i.serial, handed := i :: s.handed }.note
      (.selected i time)).completions = s.completions := by
    simp only [note, completions, List.filterMap_append]
    exact List.append_nil _
  refine ⟨hnumbered.of_stock ⟨rfl, rfl, rfl, rfl, rfl⟩, h.room, h.oldest,
    hcompletions ▸ h.issued.2, ?_, ?_, ?_, ?_⟩
  · rw [hcompletions]
    exact fun j hj => (h.waits j hj).1
  · rw [hcompletions]
    intro j hj
    obtain rfl | hj := List.mem_cons.1 hj
    · exact .inr rfl
    · obtain hdone | heq := h.held j hj
      · exact .inl hdone
      · exact .inr (congrArg some heq.symm)
  · rw [hcompletions]
    intro n hn
    cases hn
    exact ⟨h.fresh, i, List.mem_cons_self, rfl⟩
  · have hcurrent : ({ s with active := some i.serial, handed := i :: s.handed }.note
        (.selected i time)).current = some i := by
      simp [current, note, handedItem]
    rw [inProgress, hcurrent]
    exact h.books.noted rfl rfl rfl rfl

theorem Served.next (h : Served ps s) (time done : Instant) :
    Served ps (s.next time done).1 := by
  obtain ⟨heq, -⟩ | ⟨p, i, tail, hidle, -, hqueue, heq⟩ := s.next_cases time done
  · rwa [heq]
  · rw [heq]
    have htaken := h.pop hidle hqueue time
    unfold Scheduler.start
    split
    · exact htaken.complete _ _ _
    · split
      · exact htaken.complete _ _ _
      · exact htaken.handOut (h.numbered.pop hqueue (j := dequeued i time) rfl).2 time

/-- Only the telemetry of handed items changes. -/
theorem Served.mapHanded (h : Served ps s) {f : Item P H → Item P H}
    (hf : ∀ j, (f j).requests = j.requests ∧ (f j).payloadHash = j.payloadHash ∧
      (f j).serial = j.serial) :
    Served ps { s with handed := s.handed.map f } := by
  have hserials : (s.handed.map f).map (·.serial) = s.handed.map (·.serial) := by
    simp [hf]
  have hcurrent : ({ s with handed := s.handed.map f } : Scheduler P H).current =
      s.current.map f := by
    unfold current handedItem
    cases s.active with
    | none => rfl
    | some n =>
        have hsame : ((fun j : Item P H => decide (j.serial = n)) ∘ f) = fun j =>
            decide (j.serial = n) :=
          funext fun j => by simp only [Function.comp_apply, (hf j).2.2]
        simp only [Option.bind_some, List.find?_map, hsame]
  refine ⟨h.numbered.of_subperm ?_ rfl, h.room, h.oldest, h.issued, h.waits,
    fun j hj => ?_,
    fun n hn => ?_, ?_⟩
  · simp only [serials, List.map_append, hserials]
    exact .refl _
  · obtain ⟨k, hk, rfl⟩ := List.mem_map.1 hj
    rw [(hf k).2.2]
    exact h.held k hk
  · obtain ⟨hfresh, k, hk, rfl⟩ := h.active n hn
    exact ⟨hfresh, f k, List.mem_map_of_mem hk, (hf k).2.2⟩
  · have hbooks := h.books
    rw [inProgress] at hbooks ⊢
    rw [hcurrent]
    cases hcase : s.current with
    | none =>
        rw [hcase] at hbooks
        exact ⟨fun j hj => (hbooks.known j hj).keep fun _ _ _ hc _ => hc, hbooks.once,
          hbooks.remembered, hbooks.accounted⟩
    | some i =>
        rw [hcase] at hbooks
        exact hbooks.touch rfl rfl (hf i).1 (hf i).2.1 (hf i).2.2

theorem Served.beforeBrokerSend (h : Served ps s) {serial : Nat}
    (hi : s.handedItem serial = some i) (time done : Instant)
    (honce : (s.beforeBrokerSend i time done).1.completions.Nodup) :
    Served ps (s.beforeBrokerSend i time done).1 := by
  unfold Scheduler.beforeBrokerSend at honce ⊢
  split
  · next hfrozen =>
      rw [if_pos hfrozen] at honce
      exact (h.taken hi (fresh_of_once honce)).complete _ _ _
  · next hfrozen =>
      rw [if_neg hfrozen] at honce
      split
      · next hexpired =>
          rw [if_pos hexpired] at honce
          exact (h.taken hi (fresh_of_once honce)).complete _ _ _
      · exact h.mapHanded fun j => by split <;> exact ⟨rfl, rfl, rfl⟩

theorem Served.completed (h : Served ps s) {serial : Nat}
    (hi : s.handedItem serial = some i) {category : Category} {reason : String}
    (honce : (s.complete i category reason time).1.completions.Nodup) :
    Served ps (s.complete i category reason time).1 :=
  (h.taken hi (fresh_of_once honce)).complete _ _ _

section Admission

variable {r : Request P H} {command : String} {payloadHash : H} {priority : Priority}

theorem Served.refuse (h : Served ps s) (hcommand : r.command = some command)
    (hnamed : command ≠ "") (hnew : s.known.get command = none)
    (hpayload : ps.hash r.payload = some payloadHash) (category : Category)
    (reason : String) :
    Served ps (s.refuse r command payloadHash category reason time).1 := by
  have hcompletions : (s.refuse r command payloadHash category reason time).1.completions =
      s.completions := by
    simp only [Scheduler.refuse, note, remember, completions, List.filterMap_append]
    exact List.append_nil _
  refine ⟨h.numbered.of_stock ⟨rfl, rfl, rfl, rfl, rfl⟩, h.room, h.oldest,
    hcompletions ▸ h.issued, hcompletions ▸ h.waits, hcompletions ▸ h.held,
    hcompletions ▸ h.active, ?_⟩
  exact h.books.refuse hcommand hnamed hnew hpayload category reason

/-- One item of a list gets one more request. -/
theorem join_entries {l : List (Item P H)} (hnodup : (l.map (·.serial)).Nodup) (hi : i ∈ l)
    (hcommand : r.command = some command) :
    ((l.map (Item.join i.serial r)).flatMap Item.entries).Perm
      (l.flatMap Item.entries ++ [⟨command, r.requestId, r.kind⟩]) := by
  obtain ⟨before, after, rfl⟩ := List.append_of_mem hi
  rw [List.map_append, List.map_cons, List.nodup_append, List.nodup_cons] at hnodup
  obtain ⟨-, ⟨hafter, -⟩, hbefore⟩ := hnodup
  have hsame : ∀ j : Item P H, j.serial ≠ i.serial → j.join i.serial r = j :=
    fun j hj => if_neg hj
  have hleft : before.map (Item.join i.serial r) = before :=
    (List.map_congr_left fun j hj =>
      hsame j (hbefore _ (List.mem_map_of_mem hj) _ List.mem_cons_self)).trans
        (List.map_id _)
  have hright : after.map (Item.join i.serial r) = after :=
    (List.map_congr_left fun j hj => hsame j fun heq =>
      hafter (heq ▸ List.mem_map_of_mem hj)).trans (List.map_id _)
  have hjoin : (i.join i.serial r).entries = i.entries ++
      [⟨command, r.requestId, r.kind⟩] := by
    have hrequests : (i.join i.serial r).requests = i.requests ++ [r] := by
      rw [Item.join, if_pos rfl]
      rfl
    rw [Item.entries, hrequests, List.filterMap_append, Item.entries]
    simp [Request.entry, hcommand]
  simp only [List.map_append, List.map_cons, hleft, hright, List.flatMap_append,
    List.flatMap_cons, hjoin, List.append_assoc]
  exact (List.perm_append_comm.append_left _).append_left _

theorem current_congr (hactive : s'.active = s.active) (hhanded : s'.handed = s.handed) :
    s'.current = s.current := by
  unfold current handedItem
  rw [hactive, hhanded]

/-- After an admission only the queues and the accounts have to be looked at. -/
theorem Served.admitted (h : Served ps s) (command : String) (r : Request P H)
    (hnumbered : Numbered s') (hroom : s'.queuedCount ≤ s'.capacity)
    (holdest : ∀ p, ((s'.queues p).map (·.serial)).Pairwise (· < ·))
    (hissued : s.issued ≤ s'.issued)
    (hserials : ∀ j ∈ s'.queued, (∃ k ∈ s.queued, k.serial = j.serial) ∨ j.serial =
      s.issued) (hactive : s'.active = s.active) (hhanded : s'.handed = s.handed)
    (hlog : s'.log = s.log ++ [.admitted command r])
    (hbooks : Books ps s' (s'.queued ++ s.current.toList)) :
    Served ps s' := by
  have hcompletions : s'.completions = s.completions := by
    rw [completions, hlog, List.filterMap_append]
    exact List.append_nil _
  refine ⟨hnumbered, hroom, holdest, ?_, ?_, ?_, ?_, ?_⟩
  · rw [hcompletions]
    exact fun n hn => Nat.lt_of_lt_of_le (h.issued n hn) hissued
  · rw [hcompletions]
    intro j hj hmem
    obtain ⟨k, hk, heq⟩ | heq := hserials j hj
    · exact h.waits k hk (heq ▸ hmem)
    · exact absurd (h.issued _ hmem) (by omega)
  · rw [hcompletions, hactive, hhanded]
    exact h.held
  · rw [hcompletions, hactive, hhanded]
    exact h.active
  · rwa [inProgress, current_congr hactive hhanded]

theorem Served.coalesce [DecidableEq H] (h : Served ps s)
    (hcommand : r.command = some command) (hnamed : command ≠ "")
    (hnew : s.known.get command = none) (hpayload : ps.hash r.payload = some payloadHash)
    (hi : s.equivalentBackground payloadHash = some i) :
    Served ps (s.coalesce i r command payloadHash) := by
  have hmem : i ∈ s.queues .background := List.mem_of_find?_eq_some hi
  have hhash : i.payloadHash = payloadHash := by simpa using List.find?_some hi
  have hold := s.queued_perm .background
  have hqueued : (s.coalesce i r command payloadHash).queued.Perm
      ((s.queues .background).map (Item.join i.serial r) ++ s.rest .background) :=
    s.setQueue_queued .background _
  have hjoined : ∀ j ∈ (s.coalesce i r command payloadHash).queued,
      ∃ k ∈ s.queued, j = k ∨ k ∈ s.queues .background ∧ j = k.join i.serial r := by
    intro j hj
    obtain hj | hj := List.mem_append.1 (hqueued.mem_iff.1 hj)
    · obtain ⟨k, hk, rfl⟩ := List.mem_map.1 hj
      exact ⟨k, mem_queued.2 ⟨_, hk⟩, .inr ⟨hk, rfl⟩⟩
    · exact ⟨j, hold.mem_iff.2 (List.mem_append_right _ hj), .inl rfl⟩
  have hnodup : ((s.queues .background).map (·.serial)).Nodup :=
    (h.oldest .background).imp Nat.ne_of_lt
  refine h.admitted command r (h.numbered.coalesce i r command payloadHash)
    ?_ (fun p => ?_) (Nat.le_refl _) (fun j hj => ?_) rfl rfl rfl ?_
  · have hroom := h.room
    rw [queuedCount, hold.length_eq, List.length_append] at hroom
    rw [queuedCount, hqueued.length_eq, List.length_append, List.length_map]
    exact hroom
  · have hqueue : ((s.coalesce i r command payloadHash).queues p).map (·.serial) =
        (s.queues p).map (·.serial) := by
      by_cases hp : p = .background
      · simp [hp, Scheduler.coalesce, setQueue, note, join_serial]
      · simp [hp, Scheduler.coalesce, setQueue, note]
    rw [hqueue]
    exact h.oldest p
  · obtain ⟨k, hk, rfl | ⟨-, rfl⟩⟩ := hjoined j hj
    · exact .inl ⟨j, hk, rfl⟩
    · exact .inl ⟨k, hk, (join_serial _ _ k).1.symm⟩
  · refine h.books.admitted hcommand hnamed hnew hpayload (n := i.serial) rfl rfl ?_
      fun j hj q hq => ?_
    · have hnew := (hqueued.append_right s.current.toList).flatMap_right Item.entries
      have hbefore := (hold.append_right s.current.toList).flatMap_right Item.entries
      refine hnew.trans (.trans ?_ (hbefore.symm.append_right _))
      simp only [List.flatMap_append, List.append_assoc]
      refine ((join_entries hnodup hmem hcommand).append_right _).trans ?_
      rw [List.append_assoc]
      refine List.Perm.append_left _ ?_
      exact List.perm_append_comm.trans (List.Perm.of_eq (by simp))
    · obtain hj | hj := List.mem_append.1 hj
      · obtain ⟨k, hk, rfl | ⟨hbackground, rfl⟩⟩ := hjoined j hj
        · exact .inr ⟨j, List.mem_append_left _ hk, hq, rfl, rfl⟩
        · by_cases hserial : k.serial = i.serial
          · obtain rfl := h.numbered.unique hk (mem_queued.2 ⟨_, hmem⟩) hserial
            rw [Item.join, if_pos rfl] at hq
            have happend : q ∈ k.requests ++ [r] := hq
            obtain hq | hq := List.mem_append.1 happend
            · exact .inr ⟨k, List.mem_append_left _ hk, hq, (join_serial _ _ k).2,
                (join_serial _ _ k).1⟩
            · exact .inl ⟨List.mem_singleton.1 hq, (join_serial _ _ k).2.trans hhash,
                (join_serial _ _ k).1⟩
          · rw [Item.join, if_neg hserial] at hq ⊢
            exact .inr ⟨k, List.mem_append_left _ hk, hq, rfl, rfl⟩
      · exact .inr ⟨j, List.mem_append_right _ hj, hq, rfl, rfl⟩

theorem Served.enqueue (h : Served ps s) (hcommand : r.command = some command)
    (hnamed : command ≠ "") (hnew : s.known.get command = none)
    (hpayload : ps.hash r.payload = some payloadHash)
    (hroom : s.queuedCount < s.capacity) :
    Served ps (s.enqueue r command payloadHash priority time) := by
  let i := s.newItem r command payloadHash priority time
  let t := s.setQueue priority (s.queues priority ++ [i])
  let items := (s.queues priority ++ [i]).map (Item.count i.serial t.queueDepths)
  have hold := s.queued_perm priority
  have htwice : (s.enqueue r command payloadHash priority time).queues =
      (s.setQueue priority items).queues := by
    funext p
    by_cases hp : p = priority
    · simp [hp, Scheduler.enqueue, setQueue, note, items, t, i]
    · simp [hp, Scheduler.enqueue, setQueue, note, items, t, i]
  have hqueued : (s.enqueue r command payloadHash priority time).queued.Perm
      (items ++ s.rest priority) := by
    rw [queued, htwice]
    exact s.setQueue_queued priority items
  refine h.admitted command r
    (h.numbered.enqueue r command payloadHash priority time) ?_ (fun p => ?_)
      (Nat.le_succ _)
    (fun j hj => ?_) rfl rfl rfl ?_
  · have hcapacity : (s.enqueue r command payloadHash priority time).capacity =
        s.capacity := rfl
    rw [queuedCount, hold.length_eq, List.length_append] at hroom
    rw [queuedCount, hqueued.length_eq, List.length_append, List.length_map, hcapacity]
    simp only [List.length_append, List.length_singleton]
    omega
  · rw [htwice]
    by_cases hp : p = priority
    · have hserials : ((s.setQueue priority items).queues p).map (·.serial) =
          (s.queues priority).map (·.serial) ++ [s.issued] := by
        simp [hp, setQueue, items, count_same, i, newItem]
      rw [hserials, List.pairwise_append]
      refine ⟨h.oldest priority, List.pairwise_singleton _ _, fun n hn m hm => ?_⟩
      obtain ⟨j, hj, rfl⟩ := List.mem_map.1 hn
      rw [List.mem_singleton.1 hm]
      exact h.numbered.issued j (List.mem_append_left _ (mem_queued.2 ⟨_, hj⟩))
    · rw [show (s.setQueue priority items).queues p = s.queues p from if_neg hp]
      exact h.oldest p
  · obtain ⟨k, hk, rfl⟩ | hj :=
      (List.mem_append.1 (hqueued.mem_iff.1 hj)).imp List.mem_map.1 id
    · rw [(count_same _ _ k).1]
      obtain hk | hk := List.mem_append.1 hk
      · exact .inl ⟨k, mem_queued.2 ⟨_, hk⟩, rfl⟩
      · exact .inr (congrArg Item.serial (List.mem_singleton.1 hk))
    · exact .inl ⟨j, hold.mem_iff.2 (List.mem_append_right _ hj), rfl⟩
  · have hcounted : ∀ l : List (Item P H),
        (l.map (Item.count i.serial t.queueDepths)).flatMap
        Item.entries = l.flatMap Item.entries := by
      intro l
      rw [List.flatMap_map]
      exact List.flatMap_congr fun j _ => by
        rw [Item.entries, (count_same _ _ j).2.2, Item.entries]
    have hentries : i.entries = [⟨command, r.requestId, r.kind⟩] := by
      simp [i, newItem, Item.entries, Item.requests, Request.entry, hcommand]
    refine h.books.admitted hcommand hnamed hnew hpayload (n := s.issued) rfl rfl ?_
      fun j hj q hq => ?_
    · have hafter := (hqueued.append_right s.current.toList).flatMap_right Item.entries
      have hbefore := (hold.append_right s.current.toList).flatMap_right Item.entries
      refine hafter.trans (.trans ?_ (hbefore.symm.append_right _))
      simp only [items, List.flatMap_append, hcounted, List.flatMap_singleton, hentries,
        List.append_assoc]
      exact List.Perm.append_left _
        (List.perm_append_comm.trans (List.Perm.of_eq (by simp)))
    · obtain hj | hj := List.mem_append.1 hj
      · obtain ⟨k, hk, rfl⟩ | hj :=
          (List.mem_append.1 (hqueued.mem_iff.1 hj)).imp List.mem_map.1 id
        · obtain ⟨hserial, hhash, hrequests⟩ := count_same i.serial t.queueDepths k
          rw [hrequests] at hq
          rw [hserial, hhash]
          obtain hk | hk := List.mem_append.1 hk
          · exact .inr ⟨k, List.mem_append_left _ (mem_queued.2 ⟨_, hk⟩), hq, rfl, rfl⟩
          · obtain rfl := List.mem_singleton.1 hk
            exact .inl ⟨List.mem_singleton.1 hq, rfl, rfl⟩
        · exact .inr ⟨j, List.mem_append_left _
            (hold.mem_iff.2 (List.mem_append_right _ hj)), hq, rfl, rfl⟩
      · exact .inr ⟨j, List.mem_append_right _ hj, hq, rfl, rfl⟩

end Admission

/-! ## Runs -/

section Runs

variable [DecidableEq H]

theorem Served.perform (h : Served ps s) (call : Call P H)
    (honce : (s.perform ps call).completions.Nodup) : Served ps (s.perform ps call) := by
  cases call with
  | admitRpc r time =>
      obtain ⟨o, hsame⟩ | ⟨command, payloadHash, priority, hc, hnamed, hh, hk, -, hcase⟩ :=
        admit_cases ps s r time
      · rwa [Scheduler.perform, hsame]
      · rw [Scheduler.perform]
        generalize s.admitRpc ps r time = result at hcase
        cases hcase with
        | refused category reason => exact h.refuse hc hnamed hk hh category reason
        | coalesced i _ _ _ hfound => exact h.coalesce hc hnamed hk hh hfound
        | enqueued hroom => exact h.enqueue hc hnamed hk hh hroom
  | next time done => exact h.next time done
  | freeze | release =>
      exact ⟨⟨h.numbered.nodup, h.numbered.issued⟩, h.room, h.oldest, h.issued, h.waits,
        h.held, h.active, ⟨fun j hj => (h.books.known j hj).keep fun _ _ _ hc _ =>
          hc, h.books.once, h.books.remembered, h.books.accounted⟩⟩
  | beforeBrokerSend serial time done =>
      simp only [Scheduler.perform] at honce ⊢
      split
      · next i hi =>
          rw [hi] at honce
          exact h.beforeBrokerSend hi time done honce
      · exact h
  | complete serial category reason time =>
      simp only [Scheduler.perform] at honce ⊢
      split
      · next i hi =>
          rw [hi] at honce
          exact h.completed hi honce
      · exact h

omit [DecidableEq H] in
theorem served_fresh (capacity : Nat) : Served ps (fresh capacity : Scheduler P H) := by
  have hbooks : Books ps (fresh capacity : Scheduler P H) [] := by
    refine ⟨fun _ hi => (List.not_mem_nil hi).elim, List.nodup_nil,
      fun c _ _ hc => ?_, .refl _⟩
    rw [show (fresh capacity : Scheduler P H).known.get c = none from rfl] at hc
    cases hc
  exact
    { numbered := ⟨List.nodup_nil, fun _ hi => (List.not_mem_nil hi).elim⟩
      room := Nat.zero_le _
      oldest := fun _ => List.Pairwise.nil
      issued := fun _ hn => (List.not_mem_nil hn).elim
      waits := fun _ hi => (List.not_mem_nil hi).elim
      held := fun _ hi => (List.not_mem_nil hi).elim
      active := fun _ hn => nomatch hn
      books := hbooks }

/-- A call keeps the capacity and only adds to the history. -/
theorem perform_adds (ps : Payloads P H) (s : Scheduler P H) (call : Call P H) :
    (s.perform ps call).capacity = s.capacity ∧ s.log <+: (s.perform ps call).log := by
  have hcomplete : ∀ (t : Scheduler P H) (i : Item P H) category reason time,
      t.capacity = s.capacity → t.log = s.log →
      let t' := (t.complete i category reason time).1
      t'.capacity = s.capacity ∧ s.log <+: t'.log := by
    intro t i category reason time hcapacity ht
    obtain ⟨hstock, -, hlog⟩ := complete_frame t i category reason time
    exact ⟨hstock.capacity.trans hcapacity, _, (ht ▸ hlog).symm⟩
  cases call with
  | admitRpc r time =>
      rw [Scheduler.perform]
      obtain ⟨o, hsame⟩ | ⟨_, _, _, -, -, -, -, -, hcase⟩ := admit_cases ps s r time
      · rw [hsame]
        exact ⟨rfl, List.prefix_rfl⟩
      · generalize s.admitRpc ps r time = result at hcase
        cases hcase <;> exact ⟨rfl, List.prefix_append _ _⟩
  | next time done =>
      rw [Scheduler.perform]
      obtain ⟨heq, -⟩ | ⟨p, i, tail, -, -, -, heq⟩ := s.next_cases time done
      · rw [heq]
        exact ⟨rfl, List.prefix_rfl⟩
      · rw [heq]
        unfold Scheduler.start
        split
        · exact hcomplete _ _ _ _ _ rfl rfl
        · split
          · exact hcomplete _ _ _ _ _ rfl rfl
          · exact ⟨rfl, List.prefix_append _ _⟩
  | freeze | release => exact ⟨rfl, List.prefix_rfl⟩
  | beforeBrokerSend serial time done =>
      simp only [Scheduler.perform]
      split
      · unfold Scheduler.beforeBrokerSend
        split
        · exact hcomplete _ _ _ _ _ rfl rfl
        · split
          · exact hcomplete _ _ _ _ _ rfl rfl
          · exact ⟨rfl, List.prefix_rfl⟩
      · exact ⟨rfl, List.prefix_rfl⟩
  | complete serial category reason time =>
      simp only [Scheduler.perform]
      split
      · exact hcomplete _ _ _ _ _ rfl rfl
      · exact ⟨rfl, List.prefix_rfl⟩

theorem run_concat (capacity : Nat) (calls : List (Call P H)) (call : Call P H) :
    run ps capacity (calls ++ [call]) = (run ps capacity calls).perform ps call := by
  simp [run]

theorem run_capacity (capacity : Nat) (calls : List (Call P H)) :
    (run ps capacity calls).capacity = capacity := by
  induction calls using List.reverseRecOn with
  | nil => rfl
  | append_singleton calls call ih => rw [run_concat, (perform_adds ps _ call).1, ih]

/-- What is completed at some point of a run is completed at its end. -/
theorem completions_grow (s : Scheduler P H) (call : Call P H) :
    s.completions <+: (s.perform ps call).completions :=
  (perform_adds ps s call).2.filterMap _

theorem served_run (capacity : Nat) (calls : List (Call P H))
    (honce : (run ps capacity calls).completions.Nodup) :
    Served ps (run ps capacity calls) := by
  induction calls using List.reverseRecOn with
  | nil => exact served_fresh capacity
  | append_singleton calls call ih =>
      rw [run_concat] at honce ⊢
      exact (ih (honce.sublist (completions_grow _ call).sublist)).perform call honce

omit [DecidableEq H] in
/-- What is left after an item that was taken is completed. -/
theorem Taken.finish (h : Taken ps s i) (honce : s.completions.Nodup) (category : Category)
    (reason : String) (time : Instant) :
    let t := (s.complete i category reason time).1
    t.completions.Nodup ∧ t.queuedCount = s.queuedCount ∧ t.active = none := by
  obtain ⟨hstock, hactive, -⟩ := complete_frame s i category reason time
  obtain ⟨-, -, hcompletions⟩ := complete_entries s i category reason time
  refine ⟨?_, ?_, ?_⟩
  · rw [hcompletions]
    exact honce.append (List.nodup_singleton _) (List.disjoint_singleton.2 h.fresh)
  · rw [queuedCount, queued, hstock.queues, queuedCount, queued]
  · rw [hactive]
    obtain hnone | hsome := h.active
    · rw [hnone]
      rfl
    · rw [if_pos hsome]

/-- How many calls it takes at most until nothing waits. -/
def load (s : Scheduler P H) : Nat := 2 * s.queuedCount + s.active.toList.length

omit [DecidableEq H] in
/-- Taking an item out of its queue, to start it or to give it up, brings
it nearer to its end. -/
theorem Served.started (h : Served ps s) (honce : s.completions.Nodup)
    (hidle : s.active = none) {p : Priority} {tail : List (Item P H)}
    (hqueue : s.queues p = i :: tail) (time done : Instant) :
    let t := ((s.setQueue p tail).start (dequeued i time) time done).1
    t.completions.Nodup ∧ t.load < s.load := by
  have hcount : s.queuedCount = (s.setQueue p tail).queuedCount + 1 := by
    have hold := s.queued_perm p
    rw [hqueue] at hold
    exact (hold.trans ((s.setQueue_queued p tail).symm.cons i)).length_eq
  have hgiven : ∀ category reason,
      let t := ((s.setQueue p tail).complete (dequeued i time) category reason done).1
      t.completions.Nodup ∧ t.load < s.load := by
    intro category reason
    obtain ⟨hnodup, hleft, hfree⟩ :=
      (h.pop hidle hqueue time).finish honce category reason done
    refine ⟨hnodup, ?_⟩
    rw [load, load, hleft, hfree, hcount, hidle]
    simp only [Option.toList_none, List.length_nil]
    omega
  unfold Scheduler.start
  split
  · exact hgiven _ _
  · split
    · exact hgiven _ _
    · refine ⟨?_, ?_⟩
      · simpa [note, completions, List.filterMap_append, Event.completion,
          List.filterMap_cons, setQueue]
          using honce
      · have hsame :
            ∀ n l e,
              (note ({ s.setQueue p tail with active := n, handed := l }) e).queuedCount =
            (s.setQueue p tail).queuedCount := fun _ _ _ => rfl
        rw [load, load, hsame, hcount, hidle]
        simp only [note, Option.toList_some, Option.toList_none, List.length_nil,
          List.length_singleton]
        omega

/-- While something is in progress, some call brings it nearer to its end. -/
theorem Served.advance (h : Served ps s) (honce : s.completions.Nodup)
    (hload : 0 < s.load) :
    ∃ call, (∀ r time, call ≠ .admitRpc r time) ∧ Served ps (s.perform ps call) ∧
      (s.perform ps call).completions.Nodup ∧ (s.perform ps call).load < s.load := by
  cases hactive : s.active with
  | some n =>
      obtain ⟨hfresh, i, hi, hserial⟩ := h.active n hactive
      obtain ⟨j, hj⟩ : ∃ j, s.handedItem n = some j :=
        Option.isSome_iff_exists.1 (List.find?_isSome.2 ⟨i, hi, by simpa using hserial⟩)
      have hn : j.serial = n := by simpa using List.find?_some hj
      have htaken := h.taken hj (hn ▸ hfresh)
      obtain ⟨hnodup, hcount, hidle⟩ := htaken.finish honce .completed "" 0
      refine ⟨.complete n .completed "" 0, (fun _ _ heq => by cases heq), ?_⟩
      simp only [Scheduler.perform, hj]
      refine ⟨htaken.complete _ _ _, hnodup, ?_⟩
      simp [load, hcount, hidle, hactive]
  | none =>
      refine ⟨.next 0 0, (fun _ _ heq => by cases heq), h.next 0 0, ?_⟩
      obtain ⟨-, hbusy | hempty⟩ | ⟨p, i, tail, -, -, hqueue, heq⟩ := s.next_cases 0 0
      · exact absurd hactive hbusy
      · simp [load, queuedCount, hempty, hactive] at hload
      · simp only [Scheduler.perform, heq]
        exact h.started honce hactive hqueue 0 0

/-- Whatever waits can be served without a further admission. -/
theorem Served.drain (h : Served ps s) (honce : s.completions.Nodup) :
    ∃ more : List (Call P H), (∀ r time, .admitRpc r time ∉ more) ∧
      (more.foldl (Scheduler.perform ps) s).completions.Nodup ∧
      (more.foldl (Scheduler.perform ps) s).waiting = [] := by
  induction hload : s.load using Nat.strongRecOn generalizing s with
  | ind n ih =>
      by_cases hzero : s.load = 0
      · refine ⟨[], fun _ _ => List.not_mem_nil, honce, ?_⟩
        have hparts : s.queued.length = 0 ∧ s.active.toList.length = 0 := by
          unfold load queuedCount at hzero
          omega
        have hempty : s.queued = [] := List.length_eq_zero_iff.1 hparts.1
        have hidle : s.active = none := by simpa using hparts.2
        simp [waiting, inProgress, current, hempty, hidle]
      · obtain ⟨call, hother, hserved, hnodup, hless⟩ := h.advance honce (by omega)
        obtain ⟨more, hnone, hdone, hwaiting⟩ := ih _ (hload ▸ hless) hserved hnodup rfl
        refine ⟨call :: more, fun r time hmem => ?_, hdone, hwaiting⟩
        obtain heq | hmem := List.mem_cons.1 hmem
        · exact hother r time heq.symm
        · exact hnone r time hmem

end Runs

end Scheduler

end PairCell.Scheduling
