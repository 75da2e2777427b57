import PairCell.BrokerWrite

/-!
# Every broker write is classified

Before the send boundary a write ends with what the scheduler says; after it,
with what `order_send` does.  Nothing escapes but what `json.dumps` or the
handler of `order_send` does not take.
-/

namespace PairCell.BrokerWrite

open Lib Scheduling

/-! ## The journal -/

namespace Journal

variable {j : Journal} {effectId other : String} {row old : Row}

theorem get_set_ne (h : other ≠ effectId) :
    (j.set effectId row).get other = j.get other := by
  unfold set
  split
  · rfl
  · exact Table.get_set_ne _ _ h

theorem get_set_old (h : j.get effectId = some old) :
    (j.set effectId row).get effectId = some row := by
  unfold set
  split
  · next hempty =>
      subst hempty
      exact absurd (j.named.symm.trans h) (by simp)
  · exact Table.get_set_self _ _ _

end Journal

variable {P H : Type}

/-- A receipt is recorded for the effect. -/
def Recorded (d : Desk P H) (effectId : String) (receipt : Receipt) : Prop :=
  ∃ row, d.journal.get effectId = some row ∧ row.state = .receipt ∧
    row.evidence = some (.receipt receipt)

theorem recorded_congr {d d' : Desk P H} {effectId : String}
    (h : d'.journal.get effectId = d.journal.get effectId) (receipt : Receipt) :
    Recorded d' effectId receipt ↔ Recorded d effectId receipt := by
  unfold Recorded
  rw [h]

/-- The categories of an action that did not start. -/
def Idle (c : Scheduling.Category) : Prop := c ≠ .completed ∧ c ≠ .unknownAfterSend

/-! ## The scheduler -/

section Scheduler

variable (s : Scheduler P H)

theorem start_cases (i : Item P H) (time done : Instant) :
    (∃ category reason, Idle category ∧
      s.start i time done =
        ((s.complete i category reason done).1,
          .outcome (s.complete i category reason done).2)) ∨
      ((s.start i time done).1.active = some i.serial ∧
        (s.start i time done).1.queues = s.queues ∧
        (s.start i time done).2 = .selected i) := by
  unfold Scheduler.start
  split
  · exact .inl ⟨_, _, by constructor <;> decide, rfl⟩
  · split
    · exact .inl ⟨_, _, by constructor <;> decide, rfl⟩
    · exact .inr ⟨rfl, rfl, rfl⟩

theorem beforeBrokerSend_cases (i : Item P H) (time done : Instant) :
    (∃ category reason, Idle category ∧
      s.beforeBrokerSend i time done =
        ((s.complete i category reason done).1,
          some (s.complete i category reason done).2)) ∨
      ((s.beforeBrokerSend i time done).1.active = s.active ∧
        (s.beforeBrokerSend i time done).1.queues = s.queues ∧
        (s.beforeBrokerSend i time done).2 = none) := by
  unfold Scheduler.beforeBrokerSend
  split
  · exact .inl ⟨_, _, by constructor <;> decide, rfl⟩
  · split
    · exact .inl ⟨_, _, by constructor <;> decide, rfl⟩
    · exact .inr ⟨rfl, rfl, rfl⟩

theorem queuedCount_congr {s s' : Scheduler P H} (h : s'.queues = s.queues) :
    s'.queuedCount = s.queuedCount := by
  unfold Scheduler.queuedCount Scheduler.queued
  rw [h]

theorem queuedCount_pop {p : Priority} {i : Item P H} {rest : List (Item P H)}
    (h : s.queues p = i :: rest) :
    (s.setQueue p rest).queuedCount + 1 = s.queuedCount := by
  have hold := (s.queued_perm p).length_eq
  have hnew := (s.setQueue_queued p rest).length_eq
  rw [h] at hold
  simp only [List.length_append, List.length_cons] at hold hnew
  unfold Scheduler.queuedCount
  omega

theorem refuse_idle {r : Request P H} {command : String} {payloadHash : H}
    {category : Scheduling.Category} {reason : String} {time : Instant} {o : Outcome P}
    (h : (s.refuse r command payloadHash category reason time).2 = some o) :
    o.category = category := by
  rw [← Option.some.inj h]

variable [DecidableEq H]

theorem admitRpc_active (ps : Payloads P H) (r : Request P H) (time : Instant) :
    (s.admitRpc ps r time).1.active = s.active := by
  obtain ⟨o, hsame⟩ | ⟨_, _, _, -, -, -, -, -, hcase⟩ := Scheduler.admit_cases ps s r time
  · rw [hsame]
  · generalize s.admitRpc ps r time = result at hcase
    cases hcase <;> rfl

theorem admitNew_idle {r : Request P H} {command : String} {payloadHash : H}
    {priority : Priority} {time : Instant} {o : Outcome P}
    (h : (s.admitNew r command payloadHash priority time).2 = some o) :
    Idle o.category := by
  unfold Scheduler.admitNew at h
  split at h
  · rw [refuse_idle s h]
    constructor <;> decide
  · split at h
    · rw [refuse_idle s h]
      constructor <;> decide
    · generalize (if priority = .background then s.equivalentBackground payloadHash
        else none) = equivalent at h
      cases equivalent with
      | some i => cases h
      | none =>
          simp only at h
          split at h
          · rw [refuse_idle s h]
            constructor <;> decide
          · cases h

/-- The outcome that the scheduler remembers for the same effect and payload. -/
def Remembered (ps : Payloads P H) (effectId : String) (payload : P)
    (o : Outcome P) : Prop :=
  effectId ≠ "" ∧ ∃ payloadHash, ps.hash payload = some payloadHash ∧
    s.known.get effectId = some (payloadHash, .settled o)

theorem admit_remembered {ps : Payloads P H} {effectId : String} {payload : P}
    {o : Outcome P} (h : Remembered s ps effectId payload o) (priority : Priority)
    (time : Instant) :
    s.admitRpc ps (Desk.writeRequest effectId payload priority) time = (s, some o) := by
  obtain ⟨hid, payloadHash, hhash, hknown⟩ := h
  simp [Scheduler.admitRpc, Desk.writeRequest, Request.command, hid, hhash, hknown,
    Scheduler.readmitted]

theorem admit_refused {ps : Payloads P H} {effectId : String} {payload : P}
    {priority : Priority} {time : Instant} {o : Outcome P}
    (h : (s.admitRpc ps (Desk.writeRequest effectId payload priority) time).2 = some o) :
    Idle o.category ∨ Remembered s ps effectId payload o := by
  have hidle :
      ∀ reason,
        Idle (Scheduler.rejected (P := P)
          (Desk.writeRequest (H := H) effectId payload priority) reason).category :=
    fun _ => ⟨nofun, nofun⟩
  by_cases hid : effectId = ""
  · rw [Scheduler.admitRpc, if_pos
      (show (Desk.writeRequest (H := H) effectId payload priority).requestId =
        "" from hid)]
      at h
    exact .inl (Option.some.inj h ▸ hidle _)
  · simp only [Scheduler.admitRpc, Request.command, Desk.writeRequest, hid, if_false] at h
    cases hhash : ps.hash payload with
    | none =>
        rw [hhash] at h
        exact .inl (Option.some.inj h ▸ hidle _)
    | some payloadHash =>
        simp only [hhash, ne_eq, not_true_eq_false, false_and, if_false] at h
        cases hknown : s.known.get effectId with
        | none =>
            simp only [hknown, Request.priorityOf] at h
            exact .inl (admitNew_idle s h)
        | some known =>
            obtain ⟨knownHash, known⟩ := known
            simp only [hknown, Scheduler.readmitted] at h
            split at h
            · exact .inl (Option.some.inj h ▸ hidle _)
            · next hsame =>
                have hsame : knownHash = payloadHash := not_not.1 hsame
                subst hsame
                cases known with
                | settled o' =>
                    exact .inr ⟨hid, knownHash, hhash, Option.some.inj h ▸ hknown⟩
                | pending serial =>
                    exact .inl (Option.some.inj h ▸
                      hidle "The Trader command is already in progress.")

end Scheduler

/-! ## The turn of a write -/

namespace Desk

/-- Neither the journal nor the sends change. -/
structure Quiet (d d' : Desk P H) : Prop where
  journal : d'.journal = d.journal
  sends : d'.sends = d.sends

variable (w : Setting P H) (d : Desk P H)

theorem complete_spec (i : Item P H) (category : Scheduling.Category) (reason : String) :
    d.Quiet (d.complete w i category reason) ∧
      (d.complete w i category reason).scheduler.queues = d.scheduler.queues ∧
      (d.complete w i category reason).scheduler.active =
        if d.scheduler.active = some i.serial then none else d.scheduler.active := by
  obtain ⟨hstock, hactive, -⟩ :=
    Scheduler.complete_frame d.scheduler i category reason (w.clock d.ticks)
  exact ⟨⟨rfl, rfl⟩, hstock.queues, hactive⟩

theorem beforeBrokerSend_spec (i : Item P H) :
    d.Quiet (d.beforeBrokerSend w i).1 ∧ (d.beforeBrokerSend w i).1.scheduler.queues =
      d.scheduler.queues ∧
      match (d.beforeBrokerSend w i).2 with
      | none => (d.beforeBrokerSend w i).1.scheduler.active = d.scheduler.active
      | some o => Idle o.category ∧ (d.beforeBrokerSend w i).1.scheduler.active =
          if d.scheduler.active = some i.serial then none else d.scheduler.active := by
  unfold beforeBrokerSend
  obtain ⟨category, reason, hidle, heq⟩ | ⟨hactive, hqueues, hnone⟩ :=
    beforeBrokerSend_cases d.scheduler i (w.clock d.ticks) (w.clock (d.ticks + 1))
  · obtain ⟨hstock, hactive, -⟩ :=
      Scheduler.complete_frame d.scheduler i category reason (w.clock (d.ticks + 1))
    rw [heq]
    exact ⟨⟨rfl, rfl⟩, hstock.queues, hidle, hactive⟩
  · simp only [hnone]
    exact ⟨⟨rfl, rfl⟩, hqueues, hactive⟩

theorem next_spec :
    d.Quiet (d.next w).1 ∧
      match (d.next w).2 with
      | .idle => (d.next w).1.scheduler.active = d.scheduler.active
      | .outcome o => Idle o.category ∧ d.scheduler.active = none ∧
          (d.next w).1.scheduler.active = none ∧
          (d.next w).1.scheduler.queuedCount < d.scheduler.queuedCount
      | .selected i => d.scheduler.active = none ∧
          (d.next w).1.scheduler.active = some i.serial ∧
          (d.next w).1.scheduler.queuedCount < d.scheduler.queuedCount := by
  unfold next
  obtain ⟨heq, -⟩ | ⟨p, i, rest, hidle, -, hqueue, heq⟩ :=
    d.scheduler.next_cases (w.clock d.ticks) (w.clock (d.ticks + 1))
  · rw [heq]
    exact ⟨⟨rfl, rfl⟩, rfl⟩
  · have hpop := queuedCount_pop d.scheduler hqueue
    rw [heq]
    obtain ⟨category, reason, hcategory, hstart⟩ | ⟨hactive, hqueues, hselected⟩ :=
      start_cases (d.scheduler.setQueue p rest) (Scheduler.dequeued i (w.clock d.ticks))
        (w.clock d.ticks)
        (w.clock (d.ticks + 1))
    · obtain ⟨hstock, hactive, -⟩ := Scheduler.complete_frame (d.scheduler.setQueue p rest)
        (Scheduler.dequeued i (w.clock d.ticks)) category reason (w.clock (d.ticks + 1))
      have hcount := queuedCount_congr hstock.queues
      rw [hstart]
      refine ⟨⟨rfl, rfl⟩, hcategory, hidle, ?_, by simp only; omega⟩
      rw [hactive]
      exact (if_neg (by simp [Scheduler.setQueue, hidle])).trans hidle
    · have hcount := queuedCount_congr hqueues
      simp only [hselected]
      exact ⟨⟨rfl, rfl⟩, hidle, hactive, by omega⟩

omit w in
theorem writeRow_spec {effectId other : String} (row : Option Row) (h : other ≠ effectId) :
    (d.writeRow other row).journal.get effectId = d.journal.get effectId ∧
      (d.writeRow other row).sends = d.sends ∧
      (d.writeRow other row).scheduler = d.scheduler := by
  cases row with
  | none => exact ⟨rfl, rfl, rfl⟩
  | some row => exact ⟨Journal.get_set_ne (Ne.symm h), rfl, rfl⟩

theorem serveForeign_spec {i : Item P H} {effectId : String}
    (hactive : d.scheduler.active = some i.serial) (hforeign : i.commandId ≠ effectId) :
    (d.serveForeign w i).journal.get effectId = d.journal.get effectId ∧
      (d.serveForeign w i).sends = d.sends ∧ (d.serveForeign w i).scheduler.active = none ∧
      (d.serveForeign w i).scheduler.queues = d.scheduler.queues := by
  unfold serveForeign
  cases w.serveForeignSchedulerItem with
  | none =>
      obtain ⟨hquiet, hqueues, hdone⟩ := d.complete_spec w i .rejectedWorkerState
        "No Worker handler is wired to serve this scheduled Trader RPC."
      exact ⟨by rw [hquiet.journal], hquiet.sends, hdone.trans (if_pos hactive), hqueues⟩
  | some serve =>
      simp only
      generalize serve i d = served
      set begun := if served.begins then (d.beforeBrokerSend w i).1 else d with hbegun
      have hquiet : d.Quiet begun ∧ begun.scheduler.queues = d.scheduler.queues ∧
          (begun.scheduler.active = some i.serial ∨ begun.scheduler.active = none) := by
        rw [hbegun]
        split
        · obtain ⟨hquiet, hqueues, hafter⟩ := d.beforeBrokerSend_spec w i
          refine ⟨hquiet, hqueues, ?_⟩
          split at hafter
          · exact .inl (hafter.trans hactive)
          · exact .inr (hafter.2.trans (if_pos hactive))
        · exact ⟨⟨rfl, rfl⟩, rfl, .inl hactive⟩
      obtain ⟨hquiet, hqueues, hturn⟩ := hquiet
      obtain ⟨hjournal, hsends, hscheduler⟩ := begun.writeRow_spec served.row hforeign
      have hjournal := hjournal.trans (by rw [hquiet.journal])
      have hsends := hsends.trans hquiet.sends
      generalize begun.writeRow i.commandId served.row = written at *
      obtain ⟨hdone, hdoneQueues, hdoneActive⟩ :=
        written.complete_spec w i served.category served.reason
      refine ⟨by rw [hdone.journal, hjournal], hdone.sends.trans hsends, ?_, ?_⟩
      · rw [hdoneActive, hscheduler]
        obtain hturn | hturn := hturn <;> simp [hturn]
      · rw [hdoneQueues, hscheduler, hqueues]

/-- The loop ends, since every turn takes an item out of a queue. -/
theorem dequeueOwnItem_spec (effectId : String) {n : Nat}
    (hn : d.scheduler.queuedCount < n) :
    (d.dequeueOwnItem w effectId n).1.journal.get effectId = d.journal.get effectId ∧
      (d.dequeueOwnItem w effectId n).1.sends = d.sends ∧
      match (d.dequeueOwnItem w effectId n).2 with
      | .looping => False
      | .nothing => (d.dequeueOwnItem w effectId n).1.scheduler.active = d.scheduler.active
      | .outcome o => Idle o.category ∧
          (d.dequeueOwnItem w effectId n).1.scheduler.active = d.scheduler.active
      | .item i => d.scheduler.active = none ∧
          (d.dequeueOwnItem w effectId n).1.scheduler.active = some i.serial := by
  induction n generalizing d with
  | zero => exact absurd hn (Nat.not_lt_zero _)
  | succ n ih =>
      obtain ⟨hquiet, hnext⟩ := d.next_spec w
      unfold dequeueOwnItem
      generalize d.next w = result at hquiet hnext
      obtain ⟨d', next⟩ := result
      have hjournal : d'.journal.get effectId = d.journal.get effectId := by
        rw [hquiet.journal]
      cases next with
      | idle => exact ⟨hjournal, hquiet.sends, hnext⟩
      | outcome o =>
          obtain ⟨hidle, hbefore, hafter, hless⟩ := hnext
          simp only
          split
          · exact ⟨hjournal, hquiet.sends, hidle, hafter.trans hbefore.symm⟩
          · obtain ⟨hj, hs, hrest⟩ := ih d' (by simp only at hless; omega)
            refine ⟨hj.trans hjournal, hs.trans hquiet.sends, ?_⟩
            rw [hafter] at hrest
            rw [hbefore]
            exact hrest
      | selected i =>
          obtain ⟨hbefore, hafter, hless⟩ := hnext
          simp only
          split
          · exact ⟨hjournal, hquiet.sends, hbefore, hafter⟩
          · next hforeign =>
              obtain ⟨hj, hs, hactive, hqueues⟩ := d'.serveForeign_spec w hafter hforeign
              have hcount := queuedCount_congr hqueues
              obtain ⟨hj', hs', hrest⟩ :=
                ih (d'.serveForeign w i) (by simp only at hless; omega)
              refine ⟨hj'.trans (hj.trans hjournal), hs'.trans (hs.trans hquiet.sends), ?_⟩
              rw [hactive] at hrest
              rw [hbefore]
              exact hrest

theorem set_unresolved {j : Journal} {effectId : String} {old row : Row}
    (h : j.get effectId = some old) :
    (j.set effectId row).unresolved effectId = row.unresolved := by
  unfold Journal.unresolved
  rw [Journal.get_set_old h]
  rfl

omit w in
theorem notStarted_spec (effectId : String) (o : Outcome P) :
    (d.notStarted effectId o).1.sends = d.sends ∧
    (d.notStarted effectId o).1.scheduler = d.scheduler ∧
      (d.notStarted effectId o).1.journal.unresolved effectId = false ∧
      ∀ receipt, Recorded (d.notStarted effectId o).1 effectId receipt ↔
        Recorded d effectId receipt := by
  unfold notStarted recordEffectObservation
  simp only
  split
  · next hopen =>
      unfold Journal.unresolved at hopen
      obtain ⟨row, hrow, hunresolved⟩ := (Option.any_eq_true _ _).1 hopen
      refine ⟨rfl, rfl, set_unresolved hrow, fun receipt => ?_⟩
      refine iff_of_false ?_ ?_
      · rintro ⟨row', hrow', hstate, -⟩
        rw [Journal.get_set_old hrow] at hrow'
        cases hrow'
        cases hstate
      · rintro ⟨row', hrow', hstate, -⟩
        rw [hrow] at hrow'
        cases hrow'
        simp [Row.unresolved, hstate] at hunresolved
  · next hclosed => exact ⟨rfl, rfl, by simpa using hclosed, fun _ => Iff.rfl⟩

/-- What a result says that was decided before the send boundary. -/
structure Early (before after : Desk P H) (effectId : String) (r : Result) : Prop where
  active : after.scheduler.active = before.scheduler.active
  sends : after.sends = before.sends
  receipt : r.receipt = none
  receipts : ∀ receipt, Recorded after effectId receipt ↔ Recorded before effectId receipt
  resolved : r.category ≠ .unknownAfterSend → after.journal.unresolved effectId = false

omit w in
theorem notStarted_early {before : Desk P H} {effectId : String} (o : Outcome P)
    (hactive : d.scheduler.active = before.scheduler.active)
    (hsends : d.sends = before.sends)
    (hjournal : d.journal.get effectId = before.journal.get effectId) :
    Early before (d.notStarted effectId o).1 effectId (d.notStarted effectId o).2 := by
  obtain ⟨hs, hscheduler, hresolved, hreceipts⟩ := d.notStarted_spec effectId o
  exact ⟨by rw [hscheduler, hactive], hs.trans hsends, rfl,
    fun receipt => (hreceipts receipt).trans (recorded_congr hjournal receipt),
      fun _ => hresolved⟩

theorem map_idle {c : Scheduling.Category} (h : Idle c) :
    mapSchedulerCategory c ≠ .completed := by
  cases c with
  | completed => exact absurd rfl h.1
  | rejectedPreflight | expiredNotStarted | unknownAfterSend | rejectedWorkerState =>
      exact nofun

variable [DecidableEq H]

theorem takeTurn_spec (effectId : String) (payload : P) (priority : Priority) :
    match d.takeTurn w effectId payload priority with
    | (_, .error _) => False
    | (d', .ok (.inl r)) => Early d d' effectId r ∧
        (r.category = .completed → ∃ o,
          Remembered d.scheduler w.payloads effectId payload o ∧ o.category = .completed)
    | (d', .ok (.inr i)) => d.scheduler.active = none ∧
        d'.scheduler.active = some i.serial ∧
        d'.sends = d.sends ∧ d'.journal.get effectId = d.journal.get effectId := by
  have hactive := admitRpc_active d.scheduler w.payloads
    (writeRequest effectId payload priority) (w.clock d.ticks)
  have hrefused : ∀ o, (d.admitRpc w (writeRequest effectId payload priority)).2 = some o →
      Idle o.category ∨ Remembered d.scheduler w.payloads effectId payload o :=
        fun o => admit_refused d.scheduler
  unfold takeTurn
  have hadmitted :
      (d.admitRpc w (writeRequest effectId payload priority)).1.scheduler.active =
        d.scheduler.active ∧
      (d.admitRpc w (writeRequest effectId payload priority)).1.sends = d.sends ∧
      (d.admitRpc w (writeRequest effectId payload priority)).1.journal = d.journal :=
        ⟨hactive, rfl, rfl⟩
  generalize d.admitRpc w (writeRequest effectId payload priority) =
    admitted at hadmitted hrefused
  obtain ⟨d₁, refused⟩ := admitted
  obtain ⟨hactive, hsends, hjournal⟩ := hadmitted
  cases refused with
  | some o =>
      refine ⟨d₁.notStarted_early o hactive hsends (by rw [hjournal]),
        fun hcompleted => ?_⟩
      obtain hidle | hremembered := hrefused o rfl
      · exact absurd hcompleted (map_idle hidle)
      · refine ⟨o, hremembered, ?_⟩
        revert hcompleted
        show mapSchedulerCategory o.category = .completed → _
        cases o.category <;> simp [mapSchedulerCategory]
  | none =>
      obtain ⟨hj, hs, hdequeued⟩ := d₁.dequeueOwnItem_spec w effectId (Nat.lt_succ_self _)
      simp only
      generalize d₁.dequeueOwnItem w effectId (d₁.scheduler.queuedCount + 1) =
        dequeued at hj hs hdequeued
      obtain ⟨d₂, dequeued⟩ := dequeued
      replace hj : d₂.journal.get effectId = d.journal.get effectId :=
        hj.trans (by rw [hjournal])
      replace hs : d₂.sends = d.sends := hs.trans hsends
      cases dequeued with
      | looping => exact hdequeued
      | nothing =>
          exact ⟨⟨hdequeued.trans hactive, hs, rfl, recorded_congr hj,
            fun hne => absurd rfl hne⟩, nofun⟩
      | outcome o =>
          exact ⟨d₂.notStarted_early o (hdequeued.2.trans hactive) hs hj,
            fun hcompleted => absurd hcompleted (map_idle hdequeued.1)⟩
      | item i =>
          obtain ⟨hfree, htaken⟩ := hdequeued
          obtain ⟨hquiet, -, hbegins⟩ := d₂.beforeBrokerSend_spec w i
          simp only
          generalize d₂.beforeBrokerSend w i = begun at hquiet hbegins
          obtain ⟨d₃, stopped⟩ := begun
          replace hj : d₃.journal.get effectId = d.journal.get effectId := by
            rw [hquiet.journal, hj]
          replace hs : d₃.sends = d.sends := hquiet.sends.trans hs
          replace hfree : d.scheduler.active = none := hactive.symm.trans hfree
          cases stopped with
          | none => exact ⟨hfree, hbegins.trans htaken, hs, hj⟩
          | some o =>
              refine ⟨d₃.notStarted_early o ?_ hs hj,
                fun hcompleted => absurd hcompleted (map_idle hbegins.1)⟩
              rw [hfree]
              exact hbegins.2.trans (if_pos htaken)

end Desk

/-! ## The result -/

/-- The result says that nothing was sent. -/
def Result.SaysNotSent (r : Result) : Prop :=
  r.category = .expiredNotStarted ∨ r.category = .rejected ∧ r.receipt = none

/-- The write returned, holds no slot of the scheduler, and its result is what happened. -/
structure Classified (operation : Option String) (effectId : String)
    (before after : Desk P H) (r : Result) :
    Prop where
  slot : after.scheduler.active = before.scheduler.active
  completed : r.category = .completed →
    ∃ receipt, Recorded after effectId receipt ∧
        successfulBrokerWrite operation receipt.retcode = true
  rejected : r.category = .rejected →
    (∃ receipt, Recorded after effectId receipt ∧
        successfulBrokerWrite operation receipt.retcode = false) ∨
      after.sends = before.sends
  expired : r.category = .expiredNotStarted → after.sends = before.sends
  resolved : r.SaysNotSent → after.journal.unresolved effectId = false

/-- `order_send` raises an `Exception`, or returns what can be written down as JSON. -/
def Answer.Readable : Answer → Prop
  | .raised isException _ => isException = true
  | .returned raw => ∀ receipt, receiptOf raw = some receipt →
      Value.dumpable (.dict receipt) = true

namespace Desk

variable [DecidableEq H] (w : Setting P H) (d : Desk P H)

/-- Item after item the scheduler gives what is somebody else's, and
then the write's own. -/
inductive Surfaces (effectId : String) : Desk P H → Desk P H → Item P H → Prop
  | own {d d' : Desk P H} {i : Item P H} (hnext : d.next w = (d', .selected i))
      (hown : i.commandId = effectId) : Surfaces effectId d d' i
  | served {d d' d'' : Desk P H} {i own : Item P H} (hnext : d.next w = (d', .selected i))
      (hother : i.commandId ≠ effectId)
      (h : Surfaces effectId (d'.serveForeign w i) d'' own) :
      Surfaces effectId d d'' own
  | ended {d d' d'' : Desk P H} {o : Outcome P} {own : Item P H}
      (hnext : d.next w = (d', .outcome o)) (hother : o.requestId ≠ effectId)
      (h : Surfaces effectId d' d'' own) : Surfaces effectId d d'' own

/-- The scheduler admits the write, its item surfaces and is in time, and the journal has
the effect prepared: `order_send` is called. -/
def Reaches (d : Desk P H) (effectId : String) (payload : P)
    (priority : Priority) : Prop :=
  (∃ admitted surfaced i, d.admitRpc w (writeRequest effectId payload priority) =
    (admitted, none) ∧
    Surfaces w effectId admitted surfaced i ∧ (surfaced.beforeBrokerSend w i).2 = none) ∧
  ∃ row, d.journal.get effectId = some row ∧ row.state = .prepared

omit [DecidableEq H] in
theorem Surfaces.dequeued {effectId : String} {d' : Desk P H} {i : Item P H}
    (h : Surfaces w effectId d d' i) : ∀ n, (d.dequeueOwnItem w effectId n).2 = .looping ∨
      d.dequeueOwnItem w effectId n = (d', .item i) := by
  induction h with
  | own hnext hown =>
      intro n
      cases n with
      | zero => exact .inl rfl
      | succ n => exact .inr (by simp only [dequeueOwnItem, hnext, hown, if_true])
  | served hnext hother h ih =>
      intro n
      cases n with
      | zero => exact .inl rfl
      | succ n => simpa only [dequeueOwnItem, hnext, hother, if_false] using ih n
  | ended hnext hother h ih =>
      intro n
      cases n with
      | zero => exact .inl rfl
      | succ n => simpa only [dequeueOwnItem, hnext, hother, if_false] using ih n

omit [DecidableEq H] in
theorem surfaces_of_dequeued {effectId : String} {d' : Desk P H} {i : Item P H} {n : Nat}
    (h : d.dequeueOwnItem w effectId n = (d', .item i)) : Surfaces w effectId d d' i := by
  induction n generalizing d with
  | zero => cases h
  | succ n ih =>
      unfold dequeueOwnItem at h
      split at h
      · cases h
      · next hnext =>
          split at h
          · cases h
          · next hother => exact .ended hnext hother (ih _ h)
      · next hnext =>
          split at h
          · next hown =>
              cases h
              exact .own hnext hown
          · next hother => exact .served hnext hother (ih _ h)

/-- The write is about to be sent. -/
theorem takeTurn_begun {effectId : String} {payload : P} {priority : Priority} :
    (∃ d' i, d.takeTurn w effectId payload priority = (d', .ok (.inr i))) ↔
      ∃ admitted surfaced i,
        d.admitRpc w (writeRequest effectId payload priority) = (admitted, none) ∧
        Surfaces w effectId admitted surfaced i ∧
        (surfaced.beforeBrokerSend w i).2 = none := by
  have hturn := d.takeTurn_spec w effectId payload priority
  constructor
  · rintro ⟨d', i, hbegun⟩
    unfold takeTurn at hbegun
    split at hbegun
    · cases hbegun
    · next admitted hadmitted =>
        split at hbegun
        · cases hbegun
        · cases hbegun
        · cases hbegun
        · next surfaced j hdequeued =>
            split at hbegun
            · cases hbegun
            · next hsend =>
                exact ⟨admitted, surfaced, j, hadmitted,
                  surfaces_of_dequeued w _ hdequeued, congrArg Prod.snd hsend⟩
  · rintro ⟨admitted, surfaced, i, hadmitted, hsurfaces, hsend⟩
    unfold takeTurn at hturn ⊢
    simp only [hadmitted] at hturn ⊢
    obtain hlooping | hdequeued :=
      hsurfaces.dequeued w admitted (admitted.scheduler.queuedCount + 1)
    · cases hcase :
        admitted.dequeueOwnItem w effectId (admitted.scheduler.queuedCount + 1) with
      | mk d' result =>
          rw [hcase] at hlooping hturn
          cases hlooping
          exact hturn.elim
    · simp only [hdequeued]
      cases hbefore : surfaced.beforeBrokerSend w i with
      | mk d' o =>
          rw [hbefore] at hsend
          cases hsend
          exact ⟨d', i, rfl⟩

omit [DecidableEq H] w in
theorem send_spec {effectId : String} {operation : Option String} {answer : Answer}
    (hanswer : (∃ row, d.journal.get effectId = some row ∧ row.state = .prepared) →
      answer.Readable) :
    (d.send effectId operation answer).1.scheduler = d.scheduler ∧
      ∃ r, (d.send effectId operation answer).2.1 = .ok r ∧
        (r.category = .unknownAfterSend ∨ ∃ receipt, r.receipt = some receipt ∧
          Recorded (d.send effectId operation answer).1 effectId receipt ∧
          r.category = if successfulBrokerWrite operation receipt.retcode then .completed
            else .rejected) := by
  unfold send unknown
  cases hrow : d.journal.get effectId with
  | none => exact ⟨rfl, _, rfl, .inl rfl⟩
  | some row =>
      simp only
      split
      · exact ⟨rfl, _, rfl, .inl rfl⟩
      · next hprepared =>
          have hreadable := hanswer ⟨row, hrow, not_not.1 hprepared⟩
          cases answer with
          | raised isException text =>
              cases hreadable
              exact ⟨rfl, _, rfl, .inl rfl⟩
          | returned raw =>
              cases hreceipt : receiptOf raw with
              | none =>
                  simp only [hreceipt]
                  exact ⟨trivial, _, rfl, .inl rfl⟩
              | some receipt =>
                  have hdump := hreadable receipt hreceipt
                  simp only [hreceipt, hdump, if_true]
                  refine ⟨trivial, _, rfl, .inr ⟨receipt, rfl,
                    ⟨⟨.receipt, some (.receipt receipt)⟩, ?_, rfl, rfl⟩, rfl⟩⟩
                  exact Journal.get_set_old (Journal.get_set_old hrow)

omit [DecidableEq H] w in
/-- What `order_send` answers escapes if it cannot be read. -/
theorem send_fails {effectId : String} (operation : Option String)
    {answer : Answer} {row : Row} (hrow : d.journal.get effectId = some row)
    (hprepared : row.state = .prepared) (hanswer : ¬ answer.Readable) :
    ∃ failure, (d.send effectId operation answer).2.1 = .error failure := by
  unfold send
  simp only [hrow, hprepared, ne_eq, not_true_eq_false, if_false]
  cases answer with
  | raised isException text =>
      cases isException with
      | true => exact absurd rfl hanswer
      | false => exact ⟨_, rfl⟩
  | returned raw =>
      simp only [Answer.Readable, not_forall] at hanswer
      obtain ⟨receipt, hreceipt, hdump⟩ := hanswer
      simp only [hreceipt, hdump]
      exact ⟨_, rfl⟩

theorem takeTurn_remembered {effectId : String} {payload : P} {o : Outcome P}
    (h : Remembered d.scheduler w.payloads effectId payload o) (priority : Priority) :
    ∃ d', d.takeTurn w effectId payload priority =
      (d', .ok (.inl ⟨mapSchedulerCategory o.category, none⟩)) := by
  unfold takeTurn admitRpc
  rw [admit_remembered d.scheduler h]
  exact ⟨_, rfl⟩

omit [DecidableEq H] in
/-- What a begun write does is classified if what `order_send` answers can be read. -/
theorem begun_classified {d' : Desk P H} {i : Item P H} {effectId : String}
    {operation : Option String} {answer : Answer} (hfree : d.scheduler.active = none)
    (htaken : d'.scheduler.active = some i.serial)
    (hanswer : (∃ row, d'.journal.get effectId = some row ∧ row.state = .prepared) →
      answer.Readable) :
    let sent := d'.send effectId operation answer
    ∃ r, sent.2.1 = .ok r ∧
      Classified operation effectId d (sent.1.complete w i sent.2.2.1 sent.2.2.2) r := by
  intro sent
  obtain ⟨hscheduler, r, hr, hresult⟩ : sent.1.scheduler = d'.scheduler ∧ _ :=
    d'.send_spec hanswer
  obtain ⟨hquiet, -, hactive⟩ := sent.1.complete_spec w i sent.2.2.1 sent.2.2.2
  have hrecorded : ∀ receipt,
      Recorded (sent.1.complete w i sent.2.2.1 sent.2.2.2) effectId receipt ↔
      Recorded sent.1 effectId receipt := recorded_congr (by rw [hquiet.journal])
  refine ⟨r, hr, ?_, fun hcompleted => ?_, fun hrejected => .inl ?_, fun hexpired => ?_,
    fun hnot => ?_⟩
  · rw [hactive, hscheduler, htaken, if_pos rfl, hfree]
  · obtain hunknown | ⟨receipt, -, hreceipt, hcategory⟩ := hresult
    · rw [hunknown] at hcompleted
      cases hcompleted
    · refine ⟨receipt, (hrecorded receipt).2 hreceipt, ?_⟩
      by_contra hsuccess
      rw [hcategory, if_neg hsuccess] at hcompleted
      cases hcompleted
  · obtain hunknown | ⟨receipt, -, hreceipt, hcategory⟩ := hresult
    · rw [hunknown] at hrejected
      cases hrejected
    · refine ⟨receipt, (hrecorded receipt).2 hreceipt, ?_⟩
      by_contra hsuccess
      rw [hcategory, if_pos (by simpa using hsuccess)] at hrejected
      cases hrejected
  · obtain hunknown | ⟨receipt, -, -, hcategory⟩ := hresult
    · rw [hunknown] at hexpired
      cases hexpired
    · rw [hcategory] at hexpired
      split at hexpired <;> cases hexpired
  · obtain hunknown | ⟨receipt, hsome, -, hcategory⟩ := hresult
    · rw [Result.SaysNotSent, hunknown] at hnot
      obtain hnot | ⟨hnot, -⟩ := hnot <;> cases hnot
    · obtain hexpired | ⟨-, hnone⟩ := hnot
      · rw [hcategory] at hexpired
        split at hexpired <;> cases hexpired
      · rw [hsome] at hnone
        cases hnone

end Desk

namespace Sample

def payloads : Payloads Unit Unit :=
  ⟨fun _ => some (), fun _ _ => rfl, fun _ => some "market"⟩

def setting : Setting Unit Unit := ⟨payloads, fun n => n, none⟩

/-- A Worker with one prepared effect. -/
def desk : Desk Unit Unit :=
  { scheduler := .fresh 8
    journal := Journal.set ⟨.empty, rfl⟩ "effect" ⟨.prepared, none⟩
    ticks := 0
    sends := [] }

/-- A filled order whose ask is not a number. -/
def receipt : Receipt := [(.text "retcode", .int 10009), (.text "ask", .nan)]

end Sample

end PairCell.BrokerWrite
