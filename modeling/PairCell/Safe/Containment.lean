import PairCell.Safe.Write

/-!
# Snapshots and containment keep to the discipline

The order of a broker read carries the argument: the snapshot settles the entry
and the effects the leg names before containment may call the account empty.
-/

namespace PairCell

open Lib World

variable {w : World}

/-! ## Legs -/

section Legs

variable {a : Attempt} {l : Leg} {i : Nat}

/-- The leg in memory belongs to the attempt in memory. -/
theorem Booked.legOk (h : Booked w) (ha : w.mem.attempt = some a)
    (hl : w.mem.leg = some l) :
    LegOk w.cfg a.attemptId l := by
  obtain ⟨b, hb, hok⟩ := h.mem.leg l hl
  obtain rfl : a = b := Option.some.inj (ha.symm.trans hb)
  exact hok

theorem Booked.attempt (h : Booked w) (hl : w.mem.leg = some l) :
    ∃ a, w.mem.attempt = some a := by
  obtain ⟨a, ha, -⟩ := h.mem.leg l hl
  exact ⟨a, ha⟩

theorem LegOk.fill {c : Config} (h : LegOk c i l) : l.fillPrice = none ∨
    l.ticket ≠ none := by
  by_cases ht : l.ticket = none
  · exact .inl (h.unticketed ht).2.2.1
  · exact .inr ht

theorem LegOk.precise {c : Config} (h : LegOk c i l) (hp : l.protectionStatus = .precise) :
    l.ticket ≠ none :=
  fun ht => (h.unticketed ht).2.2.2 hp

/-- A leg whose entry is not filled has no ticket. -/
theorem LegOk.ticket_none {c : Config} (h : LegOk c i l) (hne : l.entryStatus ≠ .filled) :
    l.ticket = none := by
  by_contra ht
  exact hne (h.ticketed ht)

theorem legStep_refl (h : LegOk w.cfg i l) : LegStep w a l l where
  attemptId := rfl
  role := rfl
  entryEffectId := rfl
  ticket := .kept rfl
  ticketed := h.ticketed
  fill := h.fill
  relayed := id
  dispatched := id
  empty := id
  entry := .inl rfl
  verified := .inl
  close := rfl
  precise := fun hp => ⟨h.precise hp, .inl hp⟩
  protection := .inl rfl
  protectionStatus := .kept rfl
  prices := .inr (.inr ⟨rfl, rfl⟩)
  observed := .inr (.inr (.inl ⟨rfl, rfl⟩))

/-- A change of the entry status of a leg that holds nothing. -/
theorem legStep_status (h : LegOk w.cfg i l) {s : EntryStatus}
    (hne : l.entryStatus ≠ .filled) (hstep : EntryStep w a l { l with entryStatus := s }) :
    LegStep w a l { l with entryStatus := s } :=
  { legStep_refl (w := w) (a := a) h with
    ticketed := fun ht => absurd (h.ticket_none hne) ht
    entry := .inr hstep
    verified := .inl }

/-- Saving a leg whose entry stays open or settled owes nothing new. -/
theorem owes_of_status {l' : Leg} (h : ∀ old, w.mem.leg = some old →
    openStatus old.entryStatus = true → openStatus l'.entryStatus = true) :
    w.owes l' = w.mem.owed := by
  unfold owes settlesEntry
  cases hl : w.mem.leg with
  | none => rfl
  | some old =>
      cases hold : openStatus old.entryStatus with
      | false => simp [hold]
      | true => simp [hold, h old hl hold]

theorem owes_settled (l' : Leg) {e : EffectId} (he : l'.entryEffectId = some e)
    (howed : w.mem.owed = none) :
    w.owes l' = none ∨ w.owes l' = some e ∧ w.disk.unresolved e = true := by
  unfold owes
  split
  · rw [he]
    cases hu : w.disk.unresolved e with
    | false => exact .inl (by simp [hu])
    | true =>
        cases hown : w.disk.ownEffect e with
        | false => exact .inl (by simp [hown])
        | true => exact .inr ⟨by simp [hu, hown], rfl⟩
  · exact .inl howed

end Legs

/-! ## Saving the leg -/

theorem permits_saveLeg {a : Attempt} {l l' : Leg} (hdue : w.mem.due = false)
    (ha : w.mem.attempt = some a) (hl : w.mem.leg = some l) (hstep : LegStep w a l l') :
    Permits w (.saveLeg l') := by
  refine ⟨fun h => absurd (h.symm.trans hdue) (by decide), a, ha, ?_⟩
  simp only [hl]
  exact hstep

/-- What saving the leg leaves alone. -/
structure Saved (l : Leg) (w w' : World) : Prop where
  cfg : w'.cfg = w.cfg
  delivered : w'.script.delivered = w.script.delivered
  attempt : w'.mem.attempt = w.mem.attempt
  leg : w'.mem.leg = some l
  state : w'.mem.state = w.mem.state
  peerLeg : w'.mem.peerLeg = w.mem.peerLeg
  policy : w'.mem.policy = w.mem.policy
  attempts : w'.disk.attempts = w.disk.attempts
  read : w'.mem.read = w.mem.read
  sent : w'.disk.sent = w.disk.sent
  quiet : ∀ x, w'.disk.unresolved x = true → w.disk.unresolved x = true

theorem Saved.frame {l : Leg} {w' w'' : World} (h : Saved l w w') (hf : Frame w' w'') :
    Saved l w w'' where
  cfg := hf.cfg.trans h.cfg
  delivered := hf.delivered.trans h.delivered
  attempt := hf.attempt.trans h.attempt
  leg := hf.leg.trans h.leg
  state := hf.state.trans h.state
  peerLeg := hf.peerLeg.trans h.peerLeg
  policy := hf.policy.trans h.policy
  attempts := hf.attempts.trans h.attempts
  read := hf.read.trans h.read
  sent := hf.sent.trans h.sent
  quiet := fun x hx => h.quiet x (hf.quiet x hx)

theorem wp_persistLeg {l : Leg} {R : Except Exn Unit → World → Prop} (hs : Sound w)
    (hp : Permits w (.saveLeg l))
    (h : ∀ w', Sound w' → Saved l w w' → w'.mem.armed = w.mem.armed →
      w'.mem.writing = w.mem.writing → w'.mem.owed = w.owes l → w'.mem.due = false →
      w'.disk.journal = w.disk.journal → R (.ok ()) w') :
    wp Permits (persistLeg l) R w := by
  simp only [persistLeg, bumpStateVersion, wp_bind, wp_emit, next_ok]
  refine ⟨hp, trivial, h _ ((hs.act hp).act (a := .bump) trivial) ?_ rfl rfl rfl rfl rfl⟩
  exact ⟨rfl, rfl, rfl, rfl, rfl, rfl, rfl, rfl, rfl, rfl, fun _ h => h⟩

/-- The common case: nothing becomes due. -/
theorem wp_persistLeg_good {l : Leg} {R : Except Exn Unit → World → Prop} (hw : Good w)
    (hp : Permits w (.saveLeg l)) (howes : w.owes l = w.mem.owed)
    (h : ∀ w', Good w' → Saved l w w' → R (.ok ()) w') : wp Permits (persistLeg l) R w :=
  wp_persistLeg hw.sound hp fun w' hs hsaved harmed hwriting howed hdue _ =>
    h w' ⟨hs, idle_same hw.idle harmed hwriting (howed.trans howes)
      (hdue.trans hw.idle.due.symm)⟩
      hsaved

/-! ## Stops -/

theorem wp_setNeedsHuman {stop : Stop} (hw : Good w)
    (h : ∀ i, stop.attempt? = some i → ∀ a, w.mem.attempt = some a → a.attemptId = i) :
    wp Permits (setNeedsHuman stop) (fun _ w' => Good w' ∧ Later w w') w := by
  simp only [setNeedsHuman, wp_bind, wp_get, next_ok]
  split
  · exact keeps_pure () w hw
  · have hp : Permits w (.latch stop) := h
    rw [wp_emit]
    exact ⟨hp, ⟨hw.sound.act hp, idle_same hw.idle rfl rfl rfl rfl⟩, .inl rfl⟩

theorem wp_unlatch {toEmpty : Bool} {event : String} (hw : Good w)
    (h : toEmpty = true → w.mem.attempt = none) :
    wp Permits (emit (.unlatch toEmpty event) : M Unit)
      (fun _ w' => Good w' ∧ Later w w') w := by
  have hp : Permits w (.unlatch toEmpty event) := h
  rw [wp_emit]
  exact ⟨hp, ⟨hw.sound.act hp, idle_same hw.idle rfl rfl rfl rfl⟩, .inl rfl⟩

/-- A stop about an attempt whose row is terminal is not about the attempt in memory. -/
theorem Booked.attempt_none (h : Booked w) {stop : Stop} {i : Nat}
    (hstop : w.mem.needsHuman = some stop) (hi : stop.attempt? = some i)
    (hrow : ∃ r ∈ w.disk.attempts, r.attempt.attemptId = i ∧ r.terminal ≠ none) :
    w.mem.attempt = none := by
  cases ha : w.mem.attempt with
  | none => rfl
  | some a =>
      obtain ⟨r, hr, hri, hterm⟩ := hrow
      obtain ⟨q, hq, hqa, hlive⟩ := h.mem.live a ha
      have hqi : q.attempt.attemptId = i := by
        rw [hqa]
        exact h.mem.stopOwn stop i hstop hi a ha
      obtain rfl := row_unique h.disk.ids hr hq (hri.trans hqi.symm)
      exact absurd hlive hterm

theorem bothEmptyRow_terminal {i : Nat} (h : bothEmptyRow w i = true) :
    ∃ r ∈ w.disk.attempts, r.attempt.attemptId = i ∧ r.terminal ≠ none := by
  obtain ⟨r, hr, hrow⟩ := List.any_eq_true.1 h
  simp only [Bool.and_eq_true, decide_eq_true_eq] at hrow
  exact ⟨r, hr, hrow.1.1, by simp [hrow.2]⟩

theorem Booked.bothEmptyTransition_terminal (h : Booked w) {i : Nat}
    (hi : bothEmptyTransition w i = true) :
    ∃ r ∈ w.disk.attempts, r.attempt.attemptId = i ∧ r.terminal ≠ none := by
  obtain ⟨t, ht, hrow⟩ := List.any_eq_true.1 hi
  simp only [Bool.and_eq_true, decide_eq_true_eq] at hrow
  obtain ⟨r, hr, hri, hterm⟩ := h.disk.terminated t ht _ hrow.2
  rw [hrow.1] at hri
  exact ⟨r, hr, (Option.some.inj hri).symm, hterm⟩

theorem wp_clearResolved (i : Nat) (hw : Good w)
    (h : w.mem.needsHuman = some (.noPeerProof i) → w.mem.attempt = none) :
    wp Permits (clearResolvedPeerTerminalProofStop i)
      (fun _ w' => Good w' ∧ Later w w') w := by
  simp only [clearResolvedPeerTerminalProofStop, wp_bind, wp_get, next_ok]
  split
  · exact keeps_pure () w hw
  · next hne => exact wp_unlatch hw fun _ => h (by simpa using hne)

theorem keeps_recoverTerminalProofStop : Keeps recoverTerminalProofStop := by
  intro w hw
  simp only [recoverTerminalProofStop, wp_bind, wp_get, next_ok]
  split
  · next i hstop =>
      split
      · next hrow =>
          exact wp_clearResolved i hw fun _ =>
            hw.sound.attempt_none hstop rfl (bothEmptyRow_terminal hrow)
      · exact keeps_pure () w hw
  · exact keeps_pure () w hw

theorem keeps_recoverTerminalizedContainmentStop :
    Keeps recoverTerminalizedContainmentStop := by
  intro w hw
  simp only [recoverTerminalizedContainmentStop, wp_bind, wp_get, next_ok]
  split
  · next i worker kind why hstop =>
      split
      · next hrow =>
          refine wp_unlatch hw fun _ => hw.sound.attempt_none hstop rfl ?_
          rcases Bool.or_eq_true _ _ ▸ hrow with hrow | hrow
          · exact bothEmptyRow_terminal hrow
          · exact hw.sound.bothEmptyTransition_terminal hrow
      · exact keeps_pure () w hw
  · exact keeps_pure () w hw

theorem keeps_recoverLatchedContainmentReplayStop :
    Keeps recoverLatchedContainmentReplayStop := by
  intro w hw
  simp only [recoverLatchedContainmentReplayStop, wp_bind, wp_get, next_ok]
  split
  · split
    · exact wp_unlatch hw (by simp)
    · exact keeps_pure () w hw
  · exact keeps_pure () w hw

/-! ## The end of an attempt -/

theorem wp_terminateAttempt {reason : TerminalReason} (hw : Good w)
    (hp : Permits w (.terminate reason)) :
    wp Permits (terminateAttempt reason)
      (fun _ w' => Good w' ∧ w'.mem.attempt = none) w := by
  have hgood : Good (w.act (.terminate reason)) :=
    ⟨hw.sound.act hp, idle_same hw.idle rfl rfl rfl rfl⟩
  have hnone : (w.act (.terminate reason)).mem.attempt = none := rfl
  have hrest : Frames (do
      bumpStateVersion
      emit (.saveDesired .none false)
      bumpStateVersion) :=
    frames_bind frames_bump fun _ => frames_bind frames_clearDesired fun _ => frames_bump
  unfold terminateAttempt
  rw [wp_bind, wp_emit, next_ok]
  refine ⟨hp, wp_mono (hrest _ hgood) ?_⟩
  rintro r w' ⟨hw', hframe⟩
  exact ⟨hw', hframe.attempt.trans hnone⟩

/-- The guard of `_maybe_finalize_empty` is a proof about the peer. -/
theorem peerProof_of_guard {l : Leg} (hl : w.mem.leg = some l)
    (h : ¬ (decide (w.mem.peerLeg.status ≠ .empty) && peerSendPossible w) = true) :
    PeerProof w l := by
  by_cases hterm : w.mem.peerLeg.status ∈ peerTerminalStatuses
  · exact .inl hterm
  · have hne : w.mem.peerLeg.status ≠ .empty := by
      intro he
      rw [he] at hterm
      exact hterm (by decide)
    have hpossible : peerSendPossible w = false := by simpa [hne] using h
    simp only [peerSendPossible, hl, hterm, if_false] at hpossible
    split at hpossible
    · cases hpossible
    · next hunknown =>
        refine .inr ⟨by simpa using hunknown, ?_⟩
        simpa using hpossible

theorem keeps_maybeFinalizeEmpty : Keeps maybeFinalizeEmpty := by
  intro w hw
  simp only [maybeFinalizeEmpty, wp_bind, wp_get, next_ok]
  split
  · next a l ha hl =>
      split
      · exact keeps_pure () w hw
      · next hempty =>
          split
          · exact keeps_pure () w hw
          · next hguard =>
              rw [wp_bind]
              refine wp_mono (frames_note _ w hw) ?_
              rintro (err | u) w₁ ⟨hw₁, hframe⟩
              · exact ⟨hw₁, hframe.later⟩
              have hp : Permits w₁ (.terminate .bothEmptyVerified) := by
                refine ⟨hw₁.idle, a, l, hframe.attempt.trans ha, hframe.leg.trans hl,
                  by simpa using hempty, ?_⟩
                simpa only [PeerProof, hframe.peerLeg, hframe.cfg] using
                  peerProof_of_guard hl hguard
              rw [next_ok, wp_bind]
              refine wp_mono (wp_terminateAttempt hw₁ hp) ?_
              rintro (err | u) w₂ ⟨hw₂, hnone⟩
              · exact ⟨hw₂, .inr hnone⟩
              rw [next_ok]
              refine wp_mono (wp_clearResolved a.attemptId hw₂ fun _ => hnone) ?_
              rintro r w₃ ⟨hw₃, hlater⟩
              exact ⟨hw₃, Later.trans (.inr hnone) hlater⟩
  · exact keeps_pure () w hw

/-! ## The entry effect -/

/-- The cell still follows the attempt and still holds the snapshot. -/
structure Sighted (w w' : World) : Prop where
  cfg : w'.cfg = w.cfg
  attempt : w'.mem.attempt = w.mem.attempt
  read : w'.mem.read = w.mem.read

theorem Sighted.refl (w : World) : Sighted w w := ⟨rfl, rfl, rfl⟩

theorem Sighted.trans {w w' w'' : World} (h : Sighted w w') (h' : Sighted w' w'') :
    Sighted w w'' :=
  ⟨h'.cfg.trans h.cfg, h'.attempt.trans h.attempt, h'.read.trans h.read⟩

theorem Frame.sighted {w w' : World} (h : Frame w w') : Sighted w w' :=
  ⟨h.cfg, h.attempt, h.read⟩

theorem Saved.sighted {l : Leg} {w w' : World} (h : Saved l w w') : Sighted w w' :=
  ⟨h.cfg, h.attempt, h.read⟩

theorem Sound.not_entrySent (h : Sound w) {e : EffectId} (hno : ¬ StartedAt w.disk e) :
    ¬ w.disk.entrySent e := by
  rintro ⟨s, hs, rfl, -⟩
  exact hno (h.journal.sent s hs)

/-- A saved leg that settles the entry is followed by the observation of its effect. -/
theorem wp_persistLeg_observe {l : Leg} {e : EffectId} {e? : Option EffectId}
    {rest : M Unit} {R : Except Exn Unit → World → Prop} (hw : Good w)
    (hp : Permits w (.saveLeg l)) (he : l.entryEffectId = some e) (he? : e? = some e)
    (h : ∀ w', Good w' → Saved l w w' → wp Permits rest R w') :
    wp Permits (do persistLeg l; recordEffectObservation e?; rest) R w := by
  subst he?
  rw [wp_bind]
  apply wp_persistLeg hw.sound hp
  intro w₁ hs hsaved harmed hwriting howed hdue hjournal
  have howing : Owing e w₁ := by
    refine ⟨harmed.trans hw.idle.armed, .inl (hwriting.trans hw.idle.writing), ?_, hdue⟩
    rw [howed, unresolved_get (congrArg (Table.get · e) hjournal)]
    exact owes_settled _ he hw.idle.owed
  rw [next_ok]
  refine wp_seq (wp_recordEffectObservation hs howing) ?_
  rintro u w₂ ⟨hw₂, hframe, -⟩
  exact h w₂ hw₂ (hsaved.frame hframe)

/-- Whichever way the journal decides, the entry is no longer pending. -/
def Decided (w w' : World) : Prop :=
  Good w' ∧ Sighted w w' ∧ (∀ l, w'.mem.leg = some l → l.entryStatus ≠ .pending) ∧
    (w.mem.leg ≠ none → w'.mem.leg ≠ none)

theorem Saved.decided {l : Leg} {w' w'' : World} (h : Saved l w w')
    (hne : l.entryStatus ≠ .pending) (hw : Good w'')
    (hf : Frame w' w'') : Decided w w'' := by
  have hl : w''.mem.leg = some l := hf.leg.trans h.leg
  refine ⟨hw, h.sighted.trans hf.sighted, ?_, by simp [hl]⟩
  intro l' hl'
  rw [hl] at hl'
  exact Option.some.inj hl' ▸ hne

section Reconcile

variable {a : Attempt} {l : Leg} {e : EffectId}

theorem permits_neverStarted (hw : Good w) (ha : w.mem.attempt = some a)
    (hl : w.mem.leg = some l) (hpending : l.entryStatus = .pending)
    (he : l.entryEffectId = some e) (hno : ¬ StartedAt w.disk e) :
    Permits w (.saveLeg { l with entryStatus := .expiredNotStarted }) := by
  have hok := hw.sound.legOk ha hl
  have hsame : e = entryEffectId w.cfg a :=
    Option.some.inj (he.symm.trans hok.entryEffectId)
  refine permits_saveLeg hw.idle.due ha hl ?_
  exact legStep_status hok (by simp [hpending])
    (.expired hpending rfl (hsame ▸ hw.sound.not_entrySent hno))

theorem wp_markEntryNeverStarted (hw : Good w) (hl : w.mem.leg = some l)
    (hpending : l.entryStatus = .pending) (he : l.entryEffectId = some e)
    (hno : ¬ StartedAt w.disk e) {record : Bool}
    (hrecord : record = false → w.disk.unresolved e = false) :
    wp Permits (markEntryNeverStarted l e record) (fun _ w' => Decided w w') w := by
  obtain ⟨a, ha⟩ := hw.sound.attempt hl
  have hp := permits_neverStarted hw ha hl hpending he hno
  unfold markEntryNeverStarted
  cases record with
  | true =>
      simp only [if_true]
      refine wp_persistLeg_observe hw hp he rfl fun w₁ hw₁ hsaved => ?_
      exact wp_mono (frames_note _ w₁ hw₁) fun _ _ hr => hsaved.decided (by simp) hr.1 hr.2
  | false =>
      rw [wp_bind]
      apply wp_persistLeg hw.sound hp
      intro w₁ hs hsaved harmed hwriting howed hdue _
      have hdone : w.owes { l with entryStatus := .expiredNotStarted } = none := by
        rcases owes_settled { l with entryStatus := .expiredNotStarted } he
          hw.idle.owed with h | ⟨-, hu⟩
        · exact h
        · simp [hrecord rfl] at hu
      have hw₁ : Good w₁ :=
        ⟨hs, harmed.trans hw.idle.armed, hwriting.trans hw.idle.writing,
          howed.trans hdone, hdue⟩
      simp only [next_ok, Bool.false_eq_true, if_false]
      exact wp_mono (frames_note _ w₁ hw₁) fun _ _ hr => hsaved.decided (by simp) hr.1 hr.2

theorem wp_markEntryMayHaveSent (hw : Good w) (hl : w.mem.leg = some l)
    (hpending : l.entryStatus = .pending) :
    wp Permits (markEntryMayHaveSent l) (fun _ w' => Decided w w') w := by
  obtain ⟨a, ha⟩ := hw.sound.attempt hl
  have hok := hw.sound.legOk ha hl
  have hticket : l.ticket = none := hok.ticket_none (by simp [hpending])
  have hstep :
      LegStep w a l { l with entryStatus := .unknownAfterSend, entryDispatched := true } :=
    { legStep_refl (w := w) (a := a) hok with
      ticketed := fun ht => absurd hticket ht
      dispatched := fun _ => rfl
      entry := .inr (.unknown hpending rfl)
      verified := .inl }
  have hp : Permits w (.saveLeg { l with
      entryStatus := .unknownAfterSend, entryDispatched := true }) := by
    refine permits_saveLeg hw.idle.due ha hl ?_
    exact hstep
  unfold markEntryMayHaveSent
  rw [wp_bind]
  refine wp_persistLeg_good hw hp (owes_of_status fun _ _ _ => rfl) fun w₁ hw₁ hsaved => ?_
  exact wp_mono (frames_note _ w₁ hw₁) fun _ _ hr => hsaved.decided (by simp) hr.1 hr.2

/-- `prepared` means the send cannot have happened; past that it may have. -/
theorem wp_reconcileEntryEffectState (hw : Good w) :
    wp Permits reconcileEntryEffectState (fun _ w' => Decided w w') w := by
  have hdone : (∀ l, w.mem.leg = some l → l.entryStatus ≠ .pending) →
      wp Permits (pure () : M Unit) (fun _ w' => Decided w w') w := fun h =>
    (wp_pure _ _ _).2 ⟨hw, Sighted.refl w, h, id⟩
  simp only [reconcileEntryEffectState, wp_bind, wp_get, next_ok]
  cases hl : w.mem.leg with
  | none => exact hdone fun l h => by simp [hl] at h
  | some l =>
      dsimp only
      split
      · next e hpending he =>
          cases hrow : w.disk.journal.get e with
          | none =>
              have hno : ¬ StartedAt w.disk e := by
                rintro ⟨r, hr, -⟩
                simp [hrow] at hr
              exact wp_markEntryNeverStarted hw hl hpending he hno
                fun _ => by simp [Disk.unresolved, hrow]
          | some row =>
              dsimp only
              split
              · next hst =>
                  have hno : ¬ StartedAt w.disk e := by
                    rintro ⟨r, hr, hne⟩
                    rw [hrow] at hr
                    exact hne (Option.some.inj hr ▸ hst)
                  exact wp_markEntryNeverStarted hw hl hpending he hno (by simp)
              · exact wp_markEntryMayHaveSent hw hl hpending
      · next hother =>
          refine hdone fun l' hl' hpending => ?_
          obtain rfl : l = l' := Option.some.inj (hl.symm.trans hl')
          obtain ⟨a, ha⟩ := hw.sound.attempt hl
          exact hother _ hpending (hw.sound.legOk ha hl).entryEffectId

end Reconcile

/-! ## Evidence in a snapshot -/

section Sights

variable {α β : Type}

/-- The part keeps the attempt and the snapshot in sight. -/
def Sights (m : M α) : Prop :=
  ∀ w, Good w → wp Permits m (fun _ w' => Good w' ∧ Sighted w w') w

theorem Frames.sights {m : M α} (h : Frames m) : Sights m :=
  fun w hw => wp_mono (h w hw) fun _ _ hr => ⟨hr.1, hr.2.sighted⟩

theorem Sights.from {m : M α} (hm : Sights m) {w w' : World} (hw' : Good w')
    (h : Sighted w w') : wp Permits m (fun _ w'' => Good w'' ∧ Sighted w w'') w' :=
  wp_mono (hm w' hw') fun _ _ hr => ⟨hr.1, h.trans hr.2⟩

theorem sights_setState {s : PairState} (h : s ≠ .empty ∧ s ≠ .idle ∧ s ≠ .active) :
    Sights (emit (.setState s)) := by
  intro w hw
  have hp : Permits w (.setState s) := ⟨h.1, h.2.1, fun hactive => absurd hactive h.2.2⟩
  rw [wp_emit]
  exact ⟨hp, ⟨hw.sound.act hp, idle_same hw.idle rfl rfl rfl rfl⟩, rfl, rfl, rfl⟩

theorem wp_setState_bind {s : PairState} {rest : M α}
    {R : Except Exn α → World → Prop} {w : World}
    (h : s ≠ .empty ∧ s ≠ .idle ∧ s ≠ .active) (hw : Good w)
    (hrest : ∀ w', Good w' → Sighted w w' → w'.mem.leg = w.mem.leg →
      wp Permits rest R w') :
    wp Permits (do emit (.setState s); rest) R w := by
  have hp : Permits w (.setState s) := ⟨h.1, h.2.1, fun hactive => absurd hactive h.2.2⟩
  rw [wp_bind, wp_emit]
  refine ⟨hp, ?_⟩
  rw [next_ok]
  exact hrest _ ⟨hw.sound.act hp, idle_same hw.idle rfl rfl rfl rfl⟩ ⟨rfl, rfl, rfl⟩ rfl

theorem Sights.keeps {m : M α} (h : Sights m) : Keeps m :=
  fun w hw => wp_mono (h w hw) fun _ _ hr => ⟨hr.1, .inl hr.2.attempt⟩

end Sights

section Evidence

variable {a : Attempt} {l : Leg} {s : Snapshot}

/-- The end of `entryFilled`, once the fill is durable. -/
theorem wp_reportFill {l' : Leg} (hw : Good w) (hl : w.mem.leg = some l')
    (hfilled : l'.entryStatus = .filled) :
    wp Permits (do
      emit (.setState .awaitingPairConfirmation)
      note "entry_filled_observed"
      note "timing:position_observed"
      let w ← get
      match ownEvidenceInconsistency w with
      | some why => do
          note "inconsistent_exact_evidence"
          reportLegStatus { status := .inconsistent, reason := ⟨why, false⟩ }
          notifyEntryFailed why
          beginClose ⟨"inconsistent_exact_evidence", false⟩
      | none =>
          reportLegStatus { status := .filled, ticket := l'.ticket,
                            fillPrice := l'.fillPrice, sl := l'.observedSl,
                            tp := l'.observedTp })
      (fun _ w' => Good w' ∧ Sighted w w') w := by
  refine wp_setState_bind (by decide) hw fun w₁ hw₁ hsight hleg => ?_
  refine wp_mono (wp_framed_bind (frames_note _) hw₁ fun _ w₂ hw₂ hframe₂ =>
    wp_framed_bind (frames_note _) hw₂ fun _ w₃ hw₃ hframe₃ => ?_) fun _ _ hr =>
      ⟨hr.1, hsight.trans hr.2.sighted⟩
  rw [wp_bind, wp_get, next_ok]
  split
  · refine frames_bind (frames_note _) (fun _ => ?_) w₃ hw₃
    refine frames_bind (frames_reportLegStatus _ (by dsimp only; decide)) fun _ => ?_
    exact frames_bind (frames_notifyEntryFailed _) fun _ => frames_beginClose _
  · have hl₃ := hframe₃.leg.trans (hframe₂.leg.trans (hleg.trans hl))
    exact wp_reportFilled hw₃ _ rfl rfl hl₃ hfilled

theorem wp_entryFilled {p : Position} (hw : Good w) (ha : w.mem.attempt = some a)
    (hl : w.mem.leg = some l) (hread : w.mem.read = some s)
    (hstatus : l.entryStatus = .sent ∨ l.entryStatus = .unknownAfterSend)
    (hone : attemptMatches a l.role s = [p]) :
    wp Permits (entryFilled l p) (fun _ w' => Good w' ∧ Sighted w w') w := by
  have hok := hw.sound.legOk ha hl
  have hticket : l.ticket = none :=
    hok.ticket_none (by rcases hstatus with h | h <;> simp [h])
  have hnone := hok.unticketed hticket
  have hp : Permits w (.saveLeg (l.fill p)) := by
    refine permits_saveLeg hw.idle.due ha hl ?_
    exact { legStep_refl (w := w) (a := a) hok with
      ticket := .observed hticket hstatus s p hread hone rfl
      ticketed := fun _ => rfl
      fill := .inr (by simp [Leg.fill])
      entry := .inr (.observed hstatus rfl s p hread hone)
      verified := .inl
      precise := fun h => absurd h hnone.2.2.2
      observed := .inr (.inl (by rcases hstatus with h | h <;> simp [h])) }
  unfold entryFilled
  dsimp only
  refine wp_persistLeg_observe hw hp hok.entryEffectId hok.entryEffectId fun w₁
    hw₁ hsaved => ?_
  exact wp_mono (wp_reportFill hw₁ hsaved.leg rfl) fun _ _ hr =>
    ⟨hr.1, hsaved.sighted.trans hr.2⟩

/-- A report about the leg in memory, once its entry came to nothing. -/
theorem wp_reportClosed {r : StatusReport} (hw : Good w) (hl : w.mem.leg = some l)
    (hclosed : ClosedLeg l) (hr : r.attemptId = none)
    (hplain : r.status ∉ .noAttemptRecord :: .filled :: protectionStatuses) :
    wp Permits (reportLegStatus r) (fun _ w' => Good w' ∧ Frame w w') w := by
  obtain ⟨a, ha⟩ := hw.sound.attempt hl
  rw [List.mem_cons, not_or] at hplain
  refine wp_reportLegStatus hw r hplain.2 fun i hi => ?_
  rw [hr] at hi
  refine .leg a l ha ?_ hl hclosed hplain.1
  simpa [World.attemptId?, ha, StatusReport.payload] using hi

theorem wp_entryAbsent (hw : Good w) (ha : w.mem.attempt = some a)
    (hl : w.mem.leg = some l) (hread : w.mem.read = some s)
    (hstatus : l.entryStatus = .unknownAfterSend)
    (hnone : attemptMatches a l.role s = []) :
    wp Permits (entryAbsent l) (fun _ w' => Good w' ∧ Sighted w w' ∧
      w'.mem.leg = some { l with entryStatus := .rejected }) w := by
  have hok := hw.sound.legOk ha hl
  have hp : Permits w (.saveLeg { l with entryStatus := .rejected }) := by
    refine permits_saveLeg hw.idle.due ha hl ?_
    exact legStep_status hok (by simp [hstatus]) (.absent hstatus rfl s hread hnone)
  unfold entryAbsent
  refine wp_persistLeg_observe hw hp hok.entryEffectId hok.entryEffectId fun w₁
    hw₁ hsaved => ?_
  have hend : ∀ w', Good w' ∧ Frame w₁ w' → Good w' ∧ Sighted w w' ∧
      w'.mem.leg = some { l with entryStatus := .rejected } := fun w' h =>
    ⟨h.1, hsaved.sighted.trans h.2.sighted, h.2.leg.trans hsaved.leg⟩
  rw [wp_bind]
  refine wp_mono (frames_note _ w₁ hw₁) ?_
  rintro (err | u) w₂ hw₂
  · exact hend w₂ hw₂
  rw [next_ok, wp_bind]
  refine wp_mono (wp_reportClosed hw₂.1 (hw₂.2.leg.trans hsaved.leg) (.inr (.inl rfl)) rfl
    (by dsimp only; decide)) ?_
  rintro (err | u) w₃ hw₃
  · exact hend w₃ ⟨hw₃.1, hw₂.2.trans hw₃.2⟩
  rw [next_ok]
  refine wp_mono
    ((frames_bind (frames_notifyEntryFailed _) fun _ => frames_beginClose _) w₃ hw₃.1) ?_
  rintro r w₄ hw₄
  exact hend w₄ ⟨hw₄.1, (hw₂.2.trans hw₃.2).trans hw₄.2⟩

/-- An account without positions settles the entry. -/
def EntrySettled (s : Snapshot) (w : World) : Prop :=
  s.positions = [] → ∀ l, w.mem.leg = some l → openStatus l.entryStatus = false

theorem wp_applyEntryEvidence (hw : Good w) (ha : w.mem.attempt = some a)
    (hl : w.mem.leg = some l) (hread : w.mem.read = some s)
    (hpending : l.entryStatus ≠ .pending) :
    wp Permits (applyEntryEvidence a l s)
      (fun _ w' => Good w' ∧ Sighted w w' ∧ EntrySettled s w') w := by
  unfold applyEntryEvidence
  split
  · next hstatus =>
      cases hmatch : attemptMatches a l.role s with
      | nil =>
          dsimp only
          split
          · next hunknown =>
              refine wp_mono (wp_entryAbsent hw ha hl hread hunknown hmatch) ?_
              rintro r w' ⟨hw', hs, hl'⟩
              refine ⟨hw', hs, fun _ l' h => ?_⟩
              rw [hl'] at h
              exact Option.some.inj h ▸ rfl
          · next hknown =>
              rw [wp_pure]
              refine ⟨hw, Sighted.refl w, fun _ l' h => ?_⟩
              obtain rfl : l = l' := Option.some.inj (hl.symm.trans h)
              rw [hstatus.resolve_right hknown]
              rfl
      | cons p rest =>
          have hpos : s.positions ≠ [] := by
            intro hnil
            simp [attemptMatches, hnil] at hmatch
          cases rest with
          | nil =>
              refine wp_mono (wp_entryFilled hw ha hl hread hstatus hmatch) ?_
              exact fun _ _ hr => ⟨hr.1, hr.2, fun h => absurd h hpos⟩
          | cons q rest =>
              refine wp_mono
                ((frames_bind (frames_note _) fun _ => frames_beginClose _) w hw) ?_
              exact fun _ _ hr => ⟨hr.1, hr.2.sighted, fun h => absurd h hpos⟩
  · next hstatus =>
      rw [wp_pure]
      refine ⟨hw, Sighted.refl w, fun _ l' h => ?_⟩
      obtain rfl : l = l' := Option.some.inj (hl.symm.trans h)
      cases hst : l.entryStatus <;> simp_all [openStatus]

end Evidence

end PairCell
