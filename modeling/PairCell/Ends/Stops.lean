import PairCell.Ends.Still

/-!
# What a latched stop depends on

A stop of the followed attempt is lifted by the verdict on its rows or by the
broker evidence the cell object remembers.  `Undisturbed` keeps both, together
with the attempt and the stop, and evidence of a shown target keeps it.
-/

namespace PairCell

open Lib World

variable {w w₀ : World} {s : Snapshot} {a : Attempt}

/-- The handler raises nothing and leaves a state of `P`. -/
def Done (P : World → Prop) : Except Exn Unit → World → Prop
  | .ok _, w => P w
  | .error _, _ => False

theorem done_of {m : M Unit} {P : World → Prop}
    (h : ∀ exn, (m w).1 ≠ .error exn ∧ P (after w (m w).2)) : wp freely m (Done P) w := by
  refine ⟨Allowed.of_true _ _, ?_⟩
  have hend := (h .recursion).2
  rcases hrun : m w with ⟨exn | _, t⟩
  · exact absurd (by rw [hrun]) (h exn).1
  · simpa [hrun, Done] using hend

theorem done_ends {m : M Unit} {I : World → Prop} (h : ∀ exn, Ends exn I m) (hw : I w) :
    wp freely m (Done I) w := done_of fun exn => h exn w hw

theorem wp_done {m : M Unit} {f : Unit → M Unit} {P : World → Prop}
    {R : Except Exn Unit → World → Prop} (hm : wp freely m (Done P) w)
    (hf : ∀ w', P w' → wp freely (f ()) R w') : wp freely (m >>= f) R w :=
  wp_then hm (fun _ w' h => hf w' h) fun _ _ h => h.elim

/-! ## Lifting the stop of an open attempt -/

/-- `_recover_latched_containment_replay_stop` lifts the stop. -/
def liftable (w : World) : Stop → Bool
  | .containment e .nonSuccessReplay => deferredEffectTargetAbsent w e &&
      brokerVerifiedEmpty w
  | _ => false

/-- No row says that the followed attempt is over, and a stop that names
an attempt names it. -/
structure Standing (a : Attempt) (w : World) : Prop where
  attempt : w.mem.attempt = some a
  row : bothEmptyRow w a.attemptId = false
  transition : bothEmptyTransition w a.attemptId = false
  stop : ∀ stop i, w.mem.needsHuman = some stop → stop.attempt? = some i → i = a.attemptId

theorem Sound.standing (h : Sound w) (ha : w.mem.attempt = some a) : Standing a w := by
  obtain ⟨r, hr, hra, hlive⟩ := h.mem.live a ha
  have honly : ∀ q ∈ w.disk.attempts, q.attempt.attemptId = a.attemptId →
      q.terminal = none := by
    intro q hq hid
    have hqr : q = r :=
      row_unique h.disk.ids hq hr (hid.trans (congrArg Attempt.attemptId hra).symm)
    rw [hqr, hlive]
  refine ⟨ha, ?_, ?_, fun stop i hstop hi => (h.mem.stopOwn stop i hstop hi a ha).symm⟩
  · simp only [bothEmptyRow, List.any_eq_false, Bool.and_eq_true, decide_eq_true_eq]
    rintro q hq ⟨⟨hid, -⟩, hterminal⟩
    rw [honly q hq hid] at hterminal
    cases hterminal
  · simp only [bothEmptyTransition, List.any_eq_false, Bool.and_eq_true, decide_eq_true_eq]
    rintro t ht ⟨hid, hevent⟩
    obtain ⟨q, hq, hqt, hterminal⟩ := h.disk.terminated t ht _ hevent
    exact hterminal (honly q hq (Option.some.inj (hqt.symm.trans hid)))

theorem recoverTerminalProofStop_run (h : Standing a w) :
    recoverTerminalProofStop w = (.ok (), []) := by
  rw [recoverTerminalProofStop, get_bind_run]
  cases hstop : w.mem.needsHuman with
  | none => rfl
  | some stop =>
      cases stop with
      | noPeerProof i =>
          obtain rfl := h.stop _ i hstop rfl
          simp [h.row, pure_run]
      | containment e why => rfl
      | unattributed i => rfl
      | foreignRoute i => rfl

theorem recoverTerminalizedContainmentStop_run (h : Standing a w) :
    recoverTerminalizedContainmentStop w = (.ok (), []) := by
  rw [recoverTerminalizedContainmentStop, get_bind_run]
  cases hstop : w.mem.needsHuman with
  | none => rfl
  | some stop =>
      cases stop with
      | containment e why =>
          cases e with
          | cell i worker kind =>
              obtain rfl := h.stop _ i hstop rfl
              simp [h.row, h.transition, pure_run]
          | other n => rfl
      | noPeerProof i => rfl
      | unattributed i => rfl
      | foreignRoute i => rfl

theorem recoverLatchedContainmentReplayStop_run (w : World) :
    recoverLatchedContainmentReplayStop w =
      (.ok (), if w.mem.needsHuman.any (liftable w) then
        [.unlatch false "containment_receipt_recovered"] else []) := by
  rw [recoverLatchedContainmentReplayStop, get_bind_run]
  cases hstop : w.mem.needsHuman with
  | none => rfl
  | some stop =>
      cases stop with
      | containment e why =>
          cases why with
          | nonSuccessReplay =>
              simp only [Option.any_some, liftable]
              split <;> simp_all [emit, pure_run]
          | _ => rfl
      | noPeerProof i => rfl
      | unattributed i => rfl
      | foreignRoute i => rfl

/-- Only the broker's evidence lifts the stop of an attempt that is not over. -/
theorem recoverStops_run (h : Standing a w) :
    recoverStops w = (.ok (), if w.mem.needsHuman.any (liftable w) then
      [.unlatch false "containment_receipt_recovered"] else []) := by
  simp [recoverStops, bind_run, recoverTerminalProofStop_run h,
    recoverTerminalizedContainmentStop_run h, recoverLatchedContainmentReplayStop_run]

/-! ## Actions that leave a stop and what lifts it alone -/

/-- An action of an open attempt outside what a stop depends on. -/
def Bystander (w : World) : Action → Prop
  | .adopt _ | .refuse .. | .terminate _ | .latePeerLeg _ | .savePolicy _ | .latch
      _ | .unlatch .. =>
      False
  | .transition event => ∀ reason, event ≠ .terminated reason
  | .saveDesired desired _ => desired = .empty
  | .setAux x => x.evidence = w.mem.aux.evidence
  | _ => True

structure Undisturbed (w₀ w : World) : Prop where
  cfg : w.cfg = w₀.cfg
  attempt : w.mem.attempt = w₀.mem.attempt
  desired : w₀.mem.desired = .empty → w.mem.desired = .empty
  stop : w.mem.needsHuman = w₀.mem.needsHuman
  evidence : w.mem.aux.evidence = w₀.mem.aux.evidence
  attempts : w.disk.attempts = w₀.disk.attempts
  transitions : ∀ t ∈ w.disk.transitions, t ∈ w₀.disk.transitions ∨ Harmless t

theorem Undisturbed.refl (w : World) : Undisturbed w w :=
  ⟨rfl, rfl, id, rfl, rfl, rfl, fun _ ht => .inl ht⟩

theorem act_evidence {x : Action} (hx : Bystander w x) :
    (w.act x).mem.aux.evidence = w.mem.aux.evidence := by
  cases x with
  | setAux y => exact hx
  | adopt b => exact hx.elim
  | refuse b reason => exact hx.elim
  | terminate reason => exact hx.elim
  | _ =>
      simp [act, setJournal, addTransition, endWrite, endOwed, apply_ite World.mem,
        apply_ite Mem.aux]

theorem act_transitions {x : Action} (hx : Bystander w x) :
    ∀ t ∈ (w.act x).disk.transitions, t ∈ w.disk.transitions ∨ Harmless t := by
  cases x with
  | transition event => exact harmless_append hx
  | adopt b => exact hx.elim
  | refuse b reason => exact hx.elim
  | terminate reason => exact hx.elim
  | latePeerLeg p => exact hx.elim
  | latch stop => exact hx.elim
  | unlatch b event => exact hx.elim
  | _ =>
      intro t ht
      simp only [act, setJournal, endWrite, endOwed, moveJournal_transitions,
        apply_ite World.disk, ite_self] at ht
      exact .inl ht

theorem Undisturbed.act (h : Undisturbed w₀ w) {x : Action} (hx : Bystander w x) :
    Undisturbed w₀ (w.act x) where
  cfg := (act_cfg w x).trans h.cfg
  attempt := by
    rw [act_attempt]
    cases x <;> first | exact hx.elim | exact h.attempt
  desired := by
    rw [act_memDesired]
    cases x with
    | saveDesired desired confirmed => exact fun _ => hx
    | terminate reason => exact hx.elim
    | _ => exact h.desired
  stop := by
    rw [act_needsHuman]
    cases x <;> first | exact hx.elim | exact h.stop
  evidence := (act_evidence hx).trans h.evidence
  attempts := by
    rw [act_attempts]
    cases x <;> first | exact hx.elim | exact h.attempts
  transitions := fun t ht => (act_transitions hx t ht).elim (h.transitions t) .inr

theorem liftable_congr {w w' : World}
    (h : w'.mem.aux.evidence.2 = w.mem.aux.evidence.2) (stop : Stop) :
    liftable w' stop = liftable w stop := by
  simp only [Aux.evidence, Prod.mk.injEq] at h
  obtain ⟨horders, hpositions, hfacts⟩ := h
  have habsent : ∀ e, deferredEffectTargetAbsent w' e =
      deferredEffectTargetAbsent w e := by
    intro e
    unfold deferredEffectTargetAbsent
    rw [horders, hpositions]
  unfold liftable brokerVerifiedEmpty
  simp only [habsent, hfacts]

theorem Undisturbed.liftable_eq (h : Undisturbed w₀ w) (stop : Stop) :
    liftable w stop = liftable w₀ stop :=
      liftable_congr (congrArg Prod.snd h.evidence) stop

theorem Undisturbed.standing (h : Undisturbed w₀ w) (hs : Standing a w₀) :
    Standing a w where
  attempt := h.attempt.trans hs.attempt
  row := by
    rw [← hs.row]
    simp [bothEmptyRow, h.attempts, h.cfg]
  transition := by
    have hold := hs.transition
    simp only [bothEmptyTransition, List.any_eq_false, Bool.and_eq_true,
      decide_eq_true_eq] at hold ⊢
    rintro t ht ⟨hid, hevent⟩
    rcases h.transitions t ht with hbefore | hharmless
    · exact hold t hbefore ⟨hid, hevent⟩
    · exact hharmless _ hevent
  stop stop i hstop := hs.stop stop i (h.stop ▸ hstop)

/-! ## A shown target -/

/-- The terminal may have seen the entry. -/
def MaySent (w : World) (l : Leg) : Prop :=
  l.entryStatus = .sent ∨ l.entryStatus = .unknownAfterSend ∨
    l.entryStatus = .pending ∧ ∃ e, l.entryEffectId = some e ∧ unsent w e = false

/-- The snapshot has a position under the leg's ticket, or the one that
the entry will take. -/
def Visible (w : World) (a : Attempt) (s : Snapshot) (l : Leg) : Prop :=
  (∃ p ∈ s.positions, l.ticket = some p.text) ∨
    MaySent w l ∧ ∃ p, attemptMatches a l.role s = [p]

/-- The snapshot shows something to contain of the leg. -/
def Seen (a : Attempt) (s : Snapshot) (l : Leg) : Prop :=
  (∃ o ∈ s.orders, o.symbol = a.symbol) ∨ ∃ p ∈ s.positions, l.ticket = some p.text

/-- A shadow cell under the stop of `w₀` whose leg is as `K` says. -/
structure Facing (a : Attempt) (s : Snapshot) (K : World → Leg → Prop) (w₀ w : World) :
    Prop where
  simulates : Simulates a s w
  undisturbed : Undisturbed w₀ w
  reads : w.script.reads = w₀.script.reads
  ticks : w.script.ticks = w₀.script.ticks
  depth : w.script.depth = w₀.script.depth
  leg : ∃ l, w.mem.leg = some l ∧ K w l

/-- There is a target, and the leg is verified empty or not. -/
def targetLeg (a : Attempt) (s : Snapshot) (verified : Bool) (w : World)
    (l : Leg) : Prop :=
  ((∃ o ∈ s.orders, o.symbol = a.symbol) ∨ Visible w a s l) ∧ l.emptyVerified = verified

def seenLeg (a : Attempt) (s : Snapshot) (verified : Bool) (l : Leg) : Prop :=
  Seen a s l ∧ l.emptyVerified = verified

variable {verified : Bool}

/-- A bystander that takes no input of the call. -/
def Inward (w : World) (x : Action) : Prop :=
  Bystander w x ∧ x ≠ .tick ∧ ∀ v r, x ≠ .savePeerLeg v ∧ x ≠ .brokerRead r

theorem act_ticks (x : Action) :
    (w.act x).script.ticks =
      match x with
      | .tick => w.script.ticks.tail
      | _ => w.script.ticks := by
  cases x <;>
    simp [act, setJournal, addTransition, forgetAttempt, endWrite, endOwed,
      apply_ite World.script]

theorem Facing.act {K K' : World → Leg → Prop} (h : Facing a s K w₀ w) {x : Action}
    (hx : Inward w x)
    (hleg : ∃ l, (w.act x).mem.leg = some l ∧ K' (w.act x) l) :
    Facing a s K' w₀ (w.act x) where
  simulates := h.simulates.act (by
    cases x <;> first | exact hx.1.elim | exact (hx.2.2 _ none).1 rfl | trivial)
  undisturbed := h.undisturbed.act hx.1
  reads := by
    rw [act_reads]
    cases x <;> first | exact absurd rfl (hx.2.2 {} _).2 | exact h.reads
  ticks := by
    rw [act_ticks]
    cases x <;> first | exact absurd rfl hx.2.1 | exact h.ticks
  depth := (act_depth x).trans h.depth
  leg := hleg

theorem Quiet.inward {x : Action} (hx : Quiet x) : Inward w x := by
  refine ⟨?_, by rintro rfl; exact hx,
    fun v r => ⟨by rintro rfl; exact hx, by rintro rfl; exact hx⟩⟩
  cases x <;> first | exact hx.elim | exact hx

theorem Booking.inward {x : Action} (hx : Booking x) : Inward w x := by
  refine ⟨?_, by rintro rfl; exact hx,
    fun v r => ⟨by rintro rfl; exact hx, by rintro rfl; exact hx⟩⟩
  cases x <;> first | exact hx.elim | trivial

theorem MaySent.congr {w w' : World} {l : Leg} (h : MaySent w l)
    (hjournal : w'.disk.journal = w.disk.journal) : MaySent w' l := by
  unfold MaySent unsent at h ⊢
  rwa [hjournal]

theorem targetLeg.congr {w w' : World} {l : Leg} (h : targetLeg a s verified w l)
    (hjournal : w'.disk.journal = w.disk.journal) : targetLeg a s verified w' l :=
  ⟨h.1.imp_right fun h => h.imp_right fun h => ⟨h.1.congr hjournal, h.2⟩, h.2⟩

theorem Facing.imp {K K' : World → Leg → Prop} (h : Facing a s K w₀ w)
    (hK : ∀ l, K w l → K' w l) : Facing a s K' w₀ w :=
  ⟨h.simulates, h.undisturbed, h.reads, h.ticks, h.depth,
    h.leg.imp fun l hl => ⟨hl.1, hK l hl.2⟩⟩

theorem facing_calm {K : World → Leg → Prop}
    (hK : ∀ {w w' : World} {l : Leg}, K w l → w'.disk.journal = w.disk.journal → K w' l) :
    Calm (Facing a s K w₀) where
  quiet {w x} h hx := by
    refine h.act hx.inward ?_
    obtain ⟨l, hl, hkept⟩ := h.leg
    refine ⟨l, ?_, hK hkept ?_⟩
    · rw [act_leg]
      cases x <;> first | exact hx.elim | exact hl
    · refine act_journal_same ?_ (by rintro e p own rfl; exact hx)
      cases x <;> simp_all [Quiet, Booking]
  aux {w x} h hx := by
    refine h.act ⟨hx, by simp⟩ ?_
    obtain ⟨l, hl, hkept⟩ := h.leg
    exact ⟨l, hl, hK hkept rfl⟩

/-- With a condition on the leg that evidence keeps. -/
theorem facing_stable {C : Leg → Prop} (hlike : ∀ {l l' : Leg}, C l → Like l l' → C l')
    (hfill : ∀ {b : Attempt} {l : Leg} {p : Position}, C l →
      attemptMatches b l.role s = [p] →
      C (l.fill p)) : Stable s (Facing a s (fun _ => C) w₀) C where
  toCalm := facing_calm fun h _ => h
  book {w x} h hx := by
    refine h.act hx.inward ?_
    rw [act_leg]
    cases x <;> first | exact hx.elim | exact h.leg
  prepare {w e p own} h _ := by
    refine h.act ⟨trivial, by simp⟩ ?_
    rw [act_leg]
    exact h.leg
  held {w l} h hl := by
    obtain ⟨l', hl', hkept⟩ := h.leg
    rw [hl] at hl'
    cases hl'
    exact hkept
  save {w l} h hl := h.act ⟨trivial, by simp⟩ ⟨l, by rw [act_leg], hl⟩
  name {w l} h hl := h.act ⟨trivial, by simp⟩ ⟨l, by rw [act_leg], hl⟩
  like := hlike
  fill _ _ hl _ hmatch := hfill hl hmatch

theorem seen_stable :
    Stable s (Facing a s (fun _ => seenLeg a s verified) w₀) (seenLeg a s verified) := by
  refine facing_stable (fun {l l'} hl hlike => ⟨?_, hlike.verified.trans hl.2⟩)
    fun {b l p} hl hmatch => ⟨.inr ⟨p, ?_, rfl⟩, hl.2⟩
  · have hseen := hl.1
    unfold Seen at hseen ⊢
    rwa [hlike.ticket]
  · have hp : p ∈ attemptMatches b l.role s := by simp [hmatch]
    exact List.mem_of_mem_filter hp

/-! ### Evidence of a target -/

/-- There is a target that the next entry evidence shows under the leg's ticket. -/
def openLeg (a : Attempt) (s : Snapshot) (verified : Bool) (l : Leg) : Prop :=
  (Seen a s l ∨ (l.entryStatus = .sent ∨ l.entryStatus = .unknownAfterSend) ∧
    ∃ p, attemptMatches a l.role s = [p]) ∧ l.emptyVerified = verified

theorem facing_reconcile (exn : Exn) (h : Facing a s (targetLeg a s verified) w₀ w) :
    (reconcileEntryEffectState w).1 ≠ .error exn ∧
      Facing a s (fun _ => openLeg a s verified) w₀
      (after w (reconcileEntryEffectState w).2) := by
  obtain ⟨l, hl, htarget, hverified⟩ := h.leg
  have hseen : Seen a s l → (reconcileEntryEffectState w).1 ≠ .error exn ∧
      Facing a s (fun _ => openLeg a s verified) w₀
        (after w (reconcileEntryEffectState w).2) := by
    intro hseen
    have hends : Ends exn (Facing a s (fun _ => seenLeg a s verified) w₀)
        reconcileEntryEffectState := seen_stable.reconcileEntryEffectState
    obtain ⟨hreturns, hfacing⟩ := hends w
      ⟨h.simulates, h.undisturbed, h.reads, h.ticks, h.depth, l, hl, hseen, hverified⟩
    exact ⟨hreturns, hfacing.imp fun l hl => ⟨.inl hl.1, hl.2⟩⟩
  rcases htarget with horders | hticket | ⟨hsent, hmatch⟩
  · exact hseen (.inl horders)
  · exact hseen (.inr hticket)
  · simp only [reconcileEntryEffectState, get_bind_run, hl]
    have hopen : (l.entryStatus = .sent ∨ l.entryStatus = .unknownAfterSend) →
        Facing a s (fun _ => openLeg a s verified) w₀ w := fun hopen =>
      ⟨h.simulates, h.undisturbed, h.reads, h.ticks, h.depth, l, hl,
        .inr ⟨hopen, hmatch⟩, hverified⟩
    rcases hsent with hstatus | hstatus | ⟨hstatus, e, he, hunsent⟩
    · simp only [hstatus]
      exact ends_pure _ w (hopen (.inl hstatus))
    · simp only [hstatus]
      exact ends_pure _ w (hopen (.inr hstatus))
    · simp only [hstatus, he]
      cases hrow : w.disk.journal.get e with
      | none => simp [unsent, hrow] at hunsent
      | some row =>
          have hmoved : row.state ≠ .prepared := by
            simpa [unsent, hrow] using hunsent
          have hcalm : Calm (Facing a s (fun _ => openLeg a s verified) w₀) :=
            facing_calm fun h _ => h
          have hsaved : Facing a s (fun _ => openLeg a s verified) w₀ (after w
              (persistLeg { l with entryStatus := .unknownAfterSend,
                                   entryDispatched := true } w).2) :=
            hcalm.quiet (x := .bump) (h.act (x := .saveLeg _) ⟨trivial, by simp⟩
              ⟨_, rfl, .inr ⟨.inr rfl, hmatch⟩, hverified⟩) trivial
          have hmay : (markEntryMayHaveSent l w).1 ≠ .error exn ∧
              Facing a s (fun _ => openLeg a s verified) w₀
                (after w (markEntryMayHaveSent l w).2) :=
            ends_bind_at ⟨by simp [persistLeg, bumpStateVersion, bind_run, emit], hsaved⟩
              fun _ _ => hcalm.note _ _ hsaved
          cases hstate : row.state with
          | prepared => exact absurd hstate hmoved
          | sendStarted | receipt | observed => simpa only [hstate] using hmay

theorem openLeg_evidence (exn : Exn) (h : Facing a s (fun _ => openLeg a s verified) w₀ w)
    (hbusy : w₀.mem.attempt = some a) :
    (applyRecoveredEvidence s w).1 ≠ .error exn ∧
      Facing a s (fun _ => seenLeg a s verified) w₀
        (after w (applyRecoveredEvidence s w).2) := by
  have hst : Stable s (Facing a s (fun _ => seenLeg a s verified) w₀)
      (seenLeg a s verified) :=
    seen_stable
  obtain ⟨l, hl, htarget, hverified⟩ := h.leg
  rcases htarget with hseen | ⟨hopen, p, hp⟩
  · exact hst.applyRecoveredEvidence w
      ⟨h.simulates, h.undisturbed, h.reads, h.ticks, h.depth, l, hl, hseen, hverified⟩
  · have hmem : p ∈ attemptMatches a l.role s := by simp [hp]
    have hsaved : Facing a s (fun _ => seenLeg a s verified) w₀
        (after w (persistLeg (l.fill p) w).2) :=
      hst.quiet (x := .bump) (h.act (x := .saveLeg (l.fill p)) ⟨trivial, by simp⟩
        ⟨_, rfl, .inr ⟨p, List.mem_of_mem_filter hmem, rfl⟩, hverified⟩) trivial
    have hentry : (applyEntryEvidence a l s w).1 ≠ .error exn ∧
        Facing a s (fun _ => seenLeg a s verified) w₀
          (after w (applyEntryEvidence a l s w).2) := by
      simp only [applyEntryEvidence, if_pos hopen, hp, entryFilled_eq]
      exact ends_bind_at ⟨by simp [persistLeg, bumpStateVersion, bind_run, emit], hsaved⟩
        fun _ _ => hst.reportFill _ _ hsaved
    simp only [applyRecoveredEvidence, get_bind_run, h.undisturbed.attempt, hbusy, hl]
    refine ends_bind_at hentry fun _ _ => ?_
    refine (ends_get fun w hw => ?_ :
      Ends exn (Facing a s (fun _ => seenLeg a s verified) w₀) _) _ hentry.2
    cases hleg : w.mem.leg with
    | none => exact ends_pure _
    | some l' =>
        dsimp only
        split
        · exact ends_pure _
        · exact hst.applyTicketEvidence (hst.held hw hleg)

/-- What evidence of a target leaves is a target under the leg's own ticket. -/
theorem facing_evidence (h : Facing a s (targetLeg a s verified) w₀ w)
    (hbusy : w₀.mem.attempt = some a) :
    wp freely (applyLegEvidence s)
      (Done (Facing a s (fun _ => seenLeg a s verified) w₀)) w := by
  rw [applyLegEvidence_eq]
  exact wp_done (done_of fun exn => facing_reconcile exn h) fun w' h' =>
    done_of fun exn => openLeg_evidence exn h' hbusy

theorem openLeg.target {l : Leg} (h : openLeg a s verified l) :
    targetLeg a s verified w l := by
  refine ⟨?_, h.2⟩
  rcases h.1 with (horders | hticket) | ⟨hsent, hmatch⟩
  · exact .inl horders
  · exact .inr (.inl hticket)
  · exact .inr (.inr ⟨hsent.imp_right .inl, hmatch⟩)

/-! ### A snapshot under a stop -/

/-- The state once `s` is the last broker snapshot. -/
def World.sees (w : World) (s : Snapshot) : World :=
  { w with mem := { w.mem with aux := { w.mem.aux with
      lastOrders := some s.orders, lastPositions := some s.positions } } }

/-- A shadow cell that is to be emptied and sees a target of its leg. -/
structure Pressed (a : Attempt) (s : Snapshot) (verified : Bool) (w : World) : Prop where
  simulates : Simulates a s w
  attempt : w.mem.attempt = some a
  desired : w.mem.desired = .empty
  leg : ∃ l, w.mem.leg = some l ∧ targetLeg a s verified w l

theorem Pressed.facing (h : Pressed a s verified w) :
    Facing a s (targetLeg a s verified) w w := ⟨h.simulates, .refl w, rfl, rfl, rfl, h.leg⟩

theorem Facing.pressed (h : Facing a s (targetLeg a s verified) w₀ w)
    (hbusy : w₀.mem.attempt = some a) (hdesired : w₀.mem.desired = .empty) :
    Pressed a s verified w :=
  ⟨h.simulates, h.undisturbed.attempt.trans hbusy, h.undisturbed.desired hdesired, h.leg⟩

theorem seenLeg.target {l : Leg} (h : seenLeg a s verified l) :
    targetLeg a s verified w l :=
  ⟨h.1.imp_right .inl, h.2⟩

theorem Pressed.passing (h : Pressed a s verified w) {x : Action}
    (hx : (∃ y, x = .setAux y) ∨ ∃ r, x = .brokerRead r) :
    Pressed a s verified (w.act x) := by
  obtain ⟨l, hl, htarget⟩ := h.leg
  rcases hx with ⟨y, rfl⟩ | ⟨r, rfl⟩ <;>
    exact ⟨h.simulates.act trivial, h.attempt, h.desired, l, hl, htarget.congr rfl⟩

theorem Pressed.sees (h : Pressed a s verified w) : Pressed a s verified (w.sees s) :=
  h.passing (.inl ⟨_, rfl⟩)

/-- A snapshot of a leg is its evidence, then the containment. -/
theorem wp_snapshot_of_leg {r : M Unit} {l : Leg} {Q : Except Exn Unit → World → Prop}
    (ha : w.mem.attempt = some a) (hl : w.mem.leg = some l)
    (h : wp freely
      (do
        applyLegEvidence s
        let w ← get
        if w.mem.desired = .empty then advanceConvergence r s else pure ())
      Q (w.sees s)) :
    wp freely (applyBrokerSnapshot r (some s)) Q w := by
  simp only [applyBrokerSnapshot, modifyAux, wp_bind, wp_get, next_ok, wp_emit, true_and]
  split
  · exact h
  · next hnone => exact absurd hl (hnone a l ha)

/-- The shown position is not closed while a stop is latched. -/
theorem applyBrokerSnapshot_stopped {r : M Unit} (h : Pressed a s verified w)
    (horders : ∀ o ∈ s.orders, o.symbol ≠ a.symbol) (hstop : w.mem.needsHuman ≠ none) :
    wp freely (applyBrokerSnapshot r (some s))
      (Done (Facing a s (fun _ => seenLeg a s verified) (w.sees s))) w := by
  obtain ⟨l, hl, -⟩ := h.leg
  have hattempt : (w.sees s).mem.attempt = some a := h.attempt
  refine wp_snapshot_of_leg h.attempt hl ?_
  refine wp_done (facing_evidence h.sees.facing hattempt) fun w' h' => ?_
  have hadvance : advanceConvergence r s w' = (.ok (), []) := by
    obtain ⟨l', hl', hseen, -⟩ := h'.leg
    have hnone : (s.orders.find? fun o => decide (o.symbol = a.symbol)) = none := by
      rw [List.find?_eq_none]
      intro o ho heq
      exact horders o ho (of_decide_eq_true heq)
    obtain ⟨p, hp, hticket⟩ := hseen.resolve_left (by
      rintro ⟨o, ho, hsymbol⟩
      exact horders o ho hsymbol)
    have howned : (ownedPosition l' s).isSome = true := by
      simp only [ownedPosition, hticket, List.find?_isSome]
      exact ⟨p, hp, by simp⟩
    obtain ⟨q, hq⟩ := Option.isSome_iff_exists.1 howned
    have hlatched : w'.mem.needsHuman ≠ none := by
      rw [h'.undisturbed.stop]
      exact hstop
    simp only [advanceConvergence, get_bind_run, h'.undisturbed.attempt, hattempt,
      hl', hnone, hq, if_pos hlatched]
    rfl
  rw [wp_bind, wp_get, next_ok, if_pos (h'.undisturbed.desired h.desired)]
  exact ⟨Allowed.of_true _ _, by simpa [hadvance, Done] using h'⟩

end PairCell
