import PairCell.Ends

/-!
# Whole calls that end

`Plainly` adds the verdicts on an attempt to what an invariant survives, and
`Parts` the broker reads and writes, so that the calls of the cell end.  Lifting
a stop is apart: a latched stop may be all that keeps a call from reading again.
-/

namespace PairCell

open Lib World

/-! ### Probes -/

theorem ends_monotonic {I : World → Prop} (htick : ∀ w, I w → I (w.act .tick)) :
    Ends Exn.recursion I monotonic :=
  ends_get fun _ _ => ends_bind (ends_emit htick) fun _ => ends_pure _

namespace Calm

variable {I : World → Prop} (h : Calm I)
include h

theorem reportEmpty (a : Attempt) : Ends Exn.recursion I (reportEmpty a) :=
  ends_get fun _ _ => h.reportLegStatus _

section Clock

variable (htick : ∀ w, I w → I (w.act .tick))
include htick

theorem sendProofProbe (a : Attempt) : Ends Exn.recursion I (sendProofProbe a) := by
  refine ends_bind (ends_monotonic htick) fun _ =>
    ends_bind (h.modifyAux fun _ => rfl) fun _ => ?_
  refine ends_bind (h.reportEmpty a) fun _ => ends_bind (h.emit trivial) fun _ => h.note _

theorem probePeerTerminalProofNow : Ends Exn.recursion I probePeerTerminalProofNow := by
  refine ends_get fun w _ => ?_
  split
  · split
    · exact ends_bind (h.modifyAux fun _ => rfl) fun _ => h.sendProofProbe htick _
    · exact ends_pure _
  · exact ends_pure _

end Clock

end Calm

/-- An action of an event handler outside entry, evidence and broker writes. -/
def Routine : Action → Prop
  | .adopt _ | .savePolicy _ | .saveLeg _ | .memLeg _ | .savePeerLeg _ | .prepare
      .. | .unlatch ..
  | .markSendStarted _ | .recordReceipt .. | .recordObservation _ | .orderSend
      .. | .turn .. => False
  | _ => True

structure Plainly (I : World → Prop) : Prop extends Calm I where
  plain {w : World} {x : Action} : I w → Routine x → I (w.act x)
  /-- No stop keeps a cell without an attempt from reading. -/
  gone {w : World} {b : Bool} {event : String} : I w → w.mem.attempt = none →
    I (w.act (.unlatch b event))

namespace Plainly

variable {I : World → Prop} (h : Plainly I)
include h

theorem step {x : Action} (hx : Routine x) : Ends Exn.recursion I (Lib.emit x : M Unit) :=
  ends_emit fun _ hw => h.plain hw hx

theorem setAux (f : Aux → Aux) : Ends Exn.recursion I (PairCell.modifyAux f) :=
  ends_get fun _ _ => h.step trivial

theorem tick (w : World) (hw : I w) : I (w.act .tick) := h.plain hw trivial

theorem monotonic : Ends Exn.recursion I monotonic := ends_monotonic h.tick

/-! ### Verdicts -/

theorem setNeedsHuman (stop : Stop) : Ends Exn.recursion I (setNeedsHuman stop) := by
  refine ends_get fun w _ => ?_
  split
  · exact ends_pure _
  · exact h.step trivial

theorem terminateAttempt (reason : TerminalReason) :
    Ends Exn.recursion I (terminateAttempt reason) := by
  refine ends_bind (h.step trivial) fun _ => ends_bind h.bump fun _ => ?_
  exact ends_bind (h.step trivial) fun _ => h.bump

theorem clearResolvedPeerTerminalProofStop {w : World} (hw : I w)
    (hgone : w.mem.attempt = none) (i : Nat) : (clearResolvedPeerTerminalProofStop i w).1 ≠
      .error .recursion ∧
      I (after w (clearResolvedPeerTerminalProofStop i w).2) := by
  simp only [PairCell.clearResolvedPeerTerminalProofStop, get_bind_run]
  split
  · exact ends_pure _ w hw
  · exact ⟨by simp [Lib.emit], h.gone hw hgone⟩

theorem maybeFinalizeEmpty : Ends Exn.recursion I maybeFinalizeEmpty := by
  refine ends_get fun w _ => ?_
  split
  · split
    · exact ends_pure _
    · split
      · exact ends_pure _
      · refine ends_bind (h.note _) fun _ w hw => ?_
        have hover := h.terminateAttempt .bothEmptyVerified w hw
        exact ends_bind_at hover fun _ _ =>
          h.clearResolvedPeerTerminalProofStop hover.2 rfl _
  · exact ends_pure _

/-! ### Reports -/

theorem reportCurrentLegStatus : Ends Exn.recursion I reportCurrentLegStatus := by
  refine ends_get fun w _ => ?_
  split
  · split
    · exact h.reportEmpty _
    · split
      · exact h.reportLegStatus _
      · split <;> exact h.reportLegStatus _
  · exact ends_pure _

theorem answerLegStatus (i : Nat) (b : Bool) :
    Ends Exn.recursion I (answerLegStatus i b) := by
  refine ends_get fun w _ => ?_
  split
  · exact h.reportCurrentLegStatus
  · split
    · split
      · exact h.reportLegStatus _
      · exact ends_pure _
    · split
      · exact h.reportLegStatus _
      · exact ends_pure _

theorem awaitPeerTerminalProof : Ends Exn.recursion I awaitPeerTerminalProof := by
  refine ends_get fun w _ => ?_
  split
  · split
    · exact h.setAux _
    · split
      · exact ends_pure _
      · refine ends_bind h.monotonic fun _ => ?_
        split
        · exact h.setAux _
        · refine ends_get fun w _ => ?_
          split
          · exact h.setNeedsHuman _
          · split
            · exact h.sendProofProbe h.tick _
            · exact ends_pure _
  · exact h.setAux _

/-! ### Confirmation and protection -/

theorem maybeEmitPairConfirmation : Ends Exn.recursion I maybeEmitPairConfirmation := by
  refine ends_get fun w _ => ?_
  split
  · split
    · exact ends_pure _
    · split
      · exact ends_pure _
      · split
        · refine ends_bind (h.note _) fun _ =>
            ends_bind (h.notifyEntryFailed _) fun _ => ?_
          exact h.beginClose _
        · exact ends_pure _
        · refine ends_bind (h.setAux _) fun _ => ends_bind (h.step trivial) fun _ => ?_
          exact ends_bind (h.note _) fun _ => ends_bind (h.note _) fun _ => h.step trivial
  · exact ends_pure _

theorem handlePairEntryConfirmed (i : Nat) :
    Ends Exn.recursion I (handlePairEntryConfirmed i) := by
  refine ends_get fun w _ => ?_
  split
  · split
    · exact ends_pure _
    · split
      · exact h.note _
      · have hlate : ∀ late : Bool, Ends Exn.recursion I (do
            if late then do
              PairCell.note "pair_confirmation_rejected"
              PairCell.beginClose ⟨"pair_confirmation_after_timer", false⟩
            else do
              modifyAux fun x => { x with timerDeadline := none }
              Lib.emit (.saveDesired w.mem.desired true)
              PairCell.note "pair_entry_confirmed"
              PairCell.note "timing:pair_entry_confirmed") := by
          intro late
          split
          · exact ends_bind (h.note _) fun _ => h.beginClose _
          · refine ends_bind (h.setAux _) fun _ => ends_bind (h.step trivial) fun _ => ?_
            exact ends_bind (h.note _) fun _ => h.note _
        dsimp only
        split
        · exact hlate true
        · exact ends_bind h.monotonic fun _ => hlate _
  · exact ends_pure _

theorem handlePairEntryFailed (i : Nat) :
    Ends Exn.recursion I (handlePairEntryFailed i) := by
  refine ends_get fun w _ => ?_
  split
  · exact ends_bind (h.note _) fun _ => h.beginClose _
  · exact ends_pure _

theorem maybeDeclareActive : Ends Exn.recursion I maybeDeclareActive := by
  refine ends_get fun w _ => ?_
  split
  · dsimp only
    split
    · exact ends_pure _
    · split
      · refine ends_bind (h.step trivial) fun _ => ?_
        split
        · exact ends_bind (h.step trivial) fun _ => ends_bind (h.note _) fun _ => h.note _
        · exact ends_pure _
      · exact ends_pure _
  · exact ends_pure _

/-! ### The peer's leg -/

theorem closeAfterPeer (reason : Reason) : Ends Exn.recursion I (closeAfterPeer reason) :=
  ends_bind (h.beginClose reason) fun _ => h.maybeFinalizeEmpty

theorem peerLegEmpty (p : LegStatus) : Ends Exn.recursion I (peerLegEmpty p) := by
  refine ends_get fun w _ => ?_
  split
  · exact ends_bind (h.note _) fun _ => h.closeAfterPeer _
  · dsimp only
    split
    · exact ends_bind (h.note _) fun _ => h.closeAfterPeer _
    · exact h.closeAfterPeer _

theorem recordLatePeerLegStatus (p : LegStatus) :
    Ends Exn.recursion I (recordLatePeerLegStatus p) := by
  have hlate := h.step (x := .latePeerLeg p) trivial
  refine ends_bind hlate fun _ => ?_
  split
  · exact ends_pure _
  · exact h.answerLegStatus _ _

/-! ### Progress -/

theorem enforceExitPolicy : Ends Exn.recursion I enforceExitPolicy := by
  refine ends_get fun w _ => ?_
  split
  · split
    · exact ends_pure _
    · split
      · exact h.beginClose _
      · split
        · exact h.beginClose _
        · exact ends_pure _
  · exact ends_pure _

theorem enforceTimers : Ends Exn.recursion I enforceTimers := by
  have htimeout : Ends Exn.recursion I confirmationTimeout := by
    refine ends_get fun w _ => ends_bind (h.setAux _) fun _ => ?_
    cases w.cfg.role with
    | leader =>
        refine ends_bind (h.note _) fun _ => ends_bind (h.notifyEntryFailed _) fun _ => ?_
        exact h.beginClose _
    | follower => exact ends_bind (h.note _) fun _ => h.beginClose _
  refine ends_get fun w _ => ?_
  split
  · split
    · exact ends_pure _
    · refine ends_bind h.monotonic fun now => ?_
      split
      · exact ends_pure _
      · exact htimeout
  · exact ends_pure _

theorem progressStopped : Ends Exn.recursion I progressStopped := by
  refine ends_bind (h.step trivial) fun _ => ends_bind h.maybeFinalizeEmpty fun _ => ?_
  refine ends_get fun w _ => ?_
  split
  · exact h.awaitPeerTerminalProof
  · exact ends_pure _

/-! ### Entry points -/

theorem replayLegStatus (a : Attempt) : Ends Exn.recursion I (replayLegStatus a) := by
  refine ends_get fun w _ => ?_
  split
  · exact h.reportCurrentLegStatus
  · split
    · exact h.reportLegStatus _
    · exact ends_pure _

end Plainly

/-! ## Reads and writes -/

structure Parts (I : World → Prop) : Prop extends Plainly I where
  peer {w : World} {v : PeerLegView} : I w → w.mem.attempt ≠ none →
      I (w.act (.savePeerLeg v))
  reconcile : Ends Exn.recursion I reconcileEntryEffectState
  protect : Ends Exn.recursion I maybeApplyPreciseProtection
  restore (reason : String) : Ends Exn.recursion I (restoreRoughProtection reason)
  freeze {w : World} {l : Leg} : I w → w.mem.leg = some l → l.protectionStatus = .precise →
    Ends Exn.recursion I (freezeWithPeer l)
  read : Ends Exn.recursion I readBroker
  snapshot {w : World} : I w → Ends Exn.recursion I
    (applyBrokerSnapshot (requestBrokerRead w.script.depth) (w.script.reads.headD none))

namespace Parts

variable {I : World → Prop} (h : Parts I)
include h

theorem recoverAttempt : Ends Exn.recursion I recoverAttempt := by
  refine ends_get fun w _ => ?_
  split
  · exact ends_bind (h.note _) fun _ => h.terminateAttempt _
  · refine ends_bind h.reconcile fun _ => ends_get fun w _ => ?_
    split
    · exact ends_pure _
    · exact ends_bind (h.note _) fun _ => h.beginClose _
  · exact ends_pure _

/-! ### Statuses of the peer -/

theorem followPeerStatus (p : LegStatus) : Ends Exn.recursion I (followPeerStatus p) := by
  refine ends_get fun w hw => ?_
  cases p.status with
  | protectionRoughFallback =>
      dsimp only
      split
      · exact h.restore _
      · exact ends_pure _
  | protectionFrozen =>
      cases hleg : w.mem.leg with
      | none => exact ends_pure _
      | some l =>
          dsimp only
          split
          · next hprecise => exact h.freeze hw hleg hprecise
          · exact ends_pure _
  | empty => exact h.peerLegEmpty p
  | rejected | expiredNotStarted | protectionFailed | inconsistent | noAttemptRecord =>
      exact h.closeAfterPeer _
  | unknown | pending | sent | unknownAfterSend | filled | protectionPrecise | other _ =>
      exact ends_pure _

theorem savePeerLeg {p : LegStatus} {w : World} (hw : I w)
    (hid : w.attemptId? = some p.attemptId) :
    I (w.act (.savePeerLeg (w.mem.peerLeg.update p))) := by
  refine h.peer hw fun hnone => ?_
  simp [attemptId?, hnone] at hid

theorem handlePeerLegStatus (p : LegStatus) :
    Ends Exn.recursion I (handlePeerLegStatus p) := by
  unfold PairCell.handlePeerLegStatus
  dsimp only
  split
  on_goal 1 => refine ends_bind (h.note _) fun _ => ?_
  all_goals
    intro w hw
    rw [get_bind_run]
    split
    · exact h.recordLatePeerLegStatus p w hw
    · next hid =>
        have hsave := h.savePeerLeg hw (not_not.1 hid)
        split
        · exact h.note _ w hw
        · refine ends_bind_at ⟨by simp [Lib.emit], hsave⟩ fun _ _ => ?_
          refine ends_bind (h.note _) (fun _ => ?_) _ hsave
          split
          · exact ends_bind (h.setAux _) fun _ => h.followPeerStatus p
          · exact h.followPeerStatus p

/-! ### Steps that read -/

theorem settleDeferred (now : Nat) (items : List (EffectId × Nat)) :
    Ends Exn.recursion I (settleDeferred now items) := by
  induction items with
  | nil => exact ends_pure _
  | cons item items ih =>
      obtain ⟨e, deferredAt⟩ := item
      simp only [PairCell.settleDeferred]
      split
      · exact ih
      · refine ends_bind h.read fun _ => ends_bind (h.setAux _) fun _ =>
          ends_get fun w _ => ?_
        split
        · exact ends_bind (h.note _) fun _ => ih
        · exact ends_bind (h.setNeedsHuman _) fun _ => ih

theorem maybeResolveDeferredContainment :
    Ends Exn.recursion I maybeResolveDeferredContainment := by
  refine ends_get fun w _ => ?_
  split
  · exact ends_pure _
  · exact ends_bind h.monotonic fun now => h.settleDeferred now _

theorem maybeProgressConvergence : Ends Exn.recursion I maybeProgressConvergence := by
  refine ends_get fun w _ => ?_
  split
  · split
    · exact ends_pure _
    · refine ends_bind (h.step trivial) fun _ => ?_
      split
      · exact ends_pure _
      · exact h.read
  · exact ends_pure _

theorem progressAttempt : Ends Exn.recursion I progressAttempt := by
  refine ends_bind h.maybeEmitPairConfirmation fun _ => ?_
  refine ends_bind h.protect fun _ => ?_
  refine ends_bind h.maybeProgressConvergence fun _ =>
    ends_bind h.maybeFinalizeEmpty fun _ => ?_
  exact ends_bind h.awaitPeerTerminalProof fun _ => h.maybeDeclareActive

/-! ### Calls -/

/-- While an attempt is open no other one is admitted. -/
theorem handleAttempt {w : World} (hw : I w) (hopen : w.attemptUnresolved = true)
    (a : Attempt) :
    (handleAttempt a w).1 ≠ .error .recursion ∧ I (after w (handleAttempt a w).2) := by
  simp only [PairCell.handleAttempt, get_bind_run]
  split
  · exact ends_pure _ w hw
  · cases w.disk.rowOf a.attemptId with
    | some row =>
        dsimp only
        split
        · exact ends_bind (h.note _) (fun _ => h.reportLegStatus _) w hw
        · exact ends_bind (h.note _) (fun _ => h.replayLegStatus a) w hw
    | none =>
        cases hadmit : attemptAdmissionReason w a with
        | some reason =>
            have hrefuse : Ends Exn.recursion I (Lib.emit (.refuse a reason) : M Unit) :=
              h.step trivial
            exact ends_bind hrefuse
              (fun _ => ends_bind (h.note _) fun _ => h.reportLegStatus _) w hw
        | none =>
            rw [attemptAdmissionReason, firstRefusal_eq_none] at hadmit
            have hbusy := hadmit
              (refuseIf w.attemptUnresolved
                "an earlier attempt is still unresolved") (by simp)
            rw [refuseIf_eq_none, hopen] at hbusy
            cases hbusy

theorem acceptRelayEnvelope {w : World} (hw : I w) (hopen : w.attemptUnresolved = true)
    (m : Message) : (acceptRelayEnvelope m w).1 ≠ .error .recursion ∧
      I (after w (acceptRelayEnvelope m w).2) := by
  unfold PairCell.acceptRelayEnvelope
  refine ends_bind_at (h.setAux _ w hw) fun _ _ => ?_
  have hw' := (h.setAux (fun x => { x with proofWaitStarted := none }) w hw).2
  cases m with
  | attempt a => exact h.handleAttempt hw' hopen a
  | legStatus p => exact h.handlePeerLegStatus p _ hw'
  | legStatusRequest i => exact h.answerLegStatus i true _ hw'
  | pairEntryConfirmed i => exact h.handlePairEntryConfirmed i _ hw'
  | pairEntryFailed i reason => exact h.handlePairEntryFailed i _ hw'
  | other k => exact ends_pure _ _ hw'

theorem observeTime (now : Nat) : Ends Exn.recursion I (observeTime now) :=
  h.modifyAux fun _ => rfl

/-- The events whose handling lifts no stop. -/
theorem dispatchEvent {w : World} (hw : I w)
    (hopen : w.attemptUnresolved = true) {ev : Event}
    (hsession : ∀ now b, ev ≠ .peerSession now b)
    (hsnapshot : ∀ now, ev ≠ .brokerSnapshot now) :
    (dispatchEvent ev w).1 ≠ .error .recursion ∧ I (after w (dispatchEvent ev w).2) := by
  cases ev with
  | clockTick now => exact h.observeTime now w hw
  | readinessFacts now facts =>
      exact ends_bind (h.observeTime now) (fun _ => h.setAux _) w hw
  | brokerSnapshot now => exact absurd rfl (hsnapshot now)
  | peerSession now b => exact absurd rfl (hsession now b)
  | routeMetadata now u d => exact ends_bind (h.observeTime now) (fun _ => h.setAux _) w hw
  | envelope m => exact h.acceptRelayEnvelope hw hopen m
  | policy p =>
      simp only [PairCell.dispatchEvent, acceptPolicy, get_bind_run]
      split
      · exact ends_pure _ w hw
      · rw [if_pos (by simp [policyChangeBlocked, hopen])]
        exact h.note _ w hw
  | other => exact ends_pure _ w hw

section Call

variable (hnew : ∀ w, I w → mayCreate w = true →
  ((do maybeCreateAttempt; PairCell.progressAttempt : M Unit) w).1 ≠ .error .recursion)
include hnew

/-- Whatever a new attempt leaves behind, the call is over. -/
theorem progress {w : World} (hw : I w) : (progress w).1 ≠ .error .recursion := by
  refine ends_then h.maybeResolveDeferredContainment (fun _ w hw => ?_) hw
  rw [get_bind_run]
  split
  · exact (h.progressStopped w hw).1
  · refine ends_then h.enforceExitPolicy (fun _ w hw => ?_) hw
    refine ends_then h.enforceTimers (fun _ w hw => ?_) hw
    rw [get_bind_run]
    dsimp only
    split
    · next hcreate => exact hnew w hw hcreate
    · exact (h.progressAttempt w hw).1

theorem readAndProgress {w : World} (hw : I w) :
    (readAndProgress w).1 ≠ .error .recursion := by
  simp only [PairCell.readAndProgress, get_bind_run]
  split
  · exact (ends_pure _ w hw).1
  · exact ends_then h.read (fun _ _ hw => h.progress hnew hw) hw

theorem handleEvent {w : World} (hw : I w)
    (hopen : w.attemptUnresolved = true) {ev : Event}
    (hsession : ∀ now b, ev ≠ .peerSession now b)
    (hsnapshot : ∀ now, ev ≠ .brokerSnapshot now) :
    (handleEvent ev w).1 ≠ .error .recursion := by
  have hdispatch := h.dispatchEvent hw hopen hsession hsnapshot
  exact (ends_bind_at (I := fun _ => True) ⟨hdispatch.1, trivial⟩
    fun _ _ => ⟨h.progress hnew hdispatch.2, trivial⟩).1

theorem requestClose {w : World} (hw : I w) (reason : Reason) :
    (requestClose reason w).1 ≠ .error .recursion :=
  ends_then (h.beginClose reason) (fun _ _ hw => h.readAndProgress hnew hw) hw

end Call

end Parts

/-! ## Lifting stops -/

/-- An invariant that a lifted stop does not break. -/
structure Freed (I : World → Prop) : Prop extends Parts I where
  free {w : World} {b : Bool} {event : String} : I w → I (w.act (.unlatch b event))

namespace Freed

variable {I : World → Prop} (h : Freed I)
include h

theorem unlatch (b : Bool) (event : String) :
    Ends Exn.recursion I (emit (.unlatch b event) : M Unit) :=
      ends_emit fun _ hw => h.free hw

theorem recoverStops : Ends Exn.recursion I recoverStops := by
  refine ends_bind (ends_get fun w _ => ?_) fun _ =>
    ends_bind (ends_get fun w _ => ?_) fun _ => ends_get fun w _ => ?_
  · split
    · split
      · refine ends_get fun w _ => ?_
        split
        · exact ends_pure _
        · exact h.unlatch _ _
      · exact ends_pure _
    · exact ends_pure _
  · split
    · split
      · exact h.unlatch _ _
      · exact ends_pure _
    · exact ends_pure _
  · split
    · split
      · exact h.unlatch _ _
      · exact ends_pure _
    · exact ends_pure _

theorem peerSessionChanged (connected : Bool) :
    Ends Exn.recursion I (peerSessionChanged connected) := by
  refine ends_get fun w _ => ends_bind (h.setAux _) fun _ => ?_
  split
  · exact h.note _
  · split
    · exact ends_pure _
    · exact ends_bind (h.probePeerTerminalProofNow h.tick) fun _ => h.recoverStops

theorem observedSnapshot : Ends Exn.recursion I observedSnapshot := by
  refine ends_get fun w hw => ?_
  have hread :
      Ends Exn.recursion I (emit (.brokerRead (w.script.reads.headD none)) : M Unit) :=
    h.step trivial
  exact ends_bind hread fun _ => ends_bind (h.snapshot hw) fun _ => h.recoverStops

theorem call (hnew : ∀ w, I w → mayCreate w = true →
      ((do maybeCreateAttempt; PairCell.progressAttempt : M Unit) w).1 ≠ .error .recursion)
    {w : World} (hw : I w) (hopen : w.attemptUnresolved = true) (c : Call) :
    (c.run w).1 ≠ .error .recursion := by
  cases c with
  | event ev =>
      by_cases hsession : ∃ now b, ev = .peerSession now b
      · obtain ⟨now, b, rfl⟩ := hsession
        exact ends_then (ends_bind (h.observeTime now) fun _ => h.peerSessionChanged b)
          (fun _ _ hw => h.progress hnew hw) hw
      · by_cases hsnapshot : ∃ now, ev = .brokerSnapshot now
        · obtain ⟨now, rfl⟩ := hsnapshot
          exact ends_then (ends_bind (h.observeTime now) fun _ => h.observedSnapshot)
            (fun _ _ hw => h.progress hnew hw) hw
        · refine h.handleEvent hnew hw hopen ?_ ?_
          · rintro now b rfl
            exact hsession ⟨now, b, rfl⟩
          · rintro now rfl
            exact hsnapshot ⟨now, rfl⟩
  | requestClose reason => exact h.requestClose hnew hw reason
  | recover =>
      have hrecovering : ∀ b, Ends Exn.recursion I (emit (.setRecovering b) : M Unit) :=
        fun _ => h.emit trivial
      refine ends_then (hrecovering true) (fun _ _ hw => ?_) hw
      refine ends_then h.recoverAttempt
        (fun _ _ hw => ends_then (h.note _) (fun _ _ hw => ?_) hw) hw
      refine ends_then (hrecovering false) (fun _ _ hw => ?_) hw
      exact ends_then h.recoverStops (fun _ _ hw => h.readAndProgress hnew hw) hw

end Freed

/-! ## Invariants of the leg -/

/-- With a condition `C` on the leg that every way of naming and saving it keeps. -/
structure Lasting (s : Snapshot) (I : World → Prop) (C : Leg → Prop) : Prop
    extends Stable s I C, Plainly I where
  verified {l : Leg} : C l → C { l with emptyVerified := true }

namespace Lasting

variable {s : Snapshot} {I : World → Prop} {C : Leg → Prop} (h : Lasting s I C)
include h

theorem verifyEmpty (a : Attempt) {l : Leg} (hl : C l) :
    Ends Exn.recursion I (verifyEmpty a l) := by
  unfold PairCell.verifyEmpty
  split
  · exact ends_pure _
  · refine ends_bind (h.persist (h.verified hl)) fun _ => ends_bind (h.note _) fun _ => ?_
    refine ends_bind (h.step trivial) fun _ => ends_bind (h.reportEmpty a) fun _ => ?_
    exact h.maybeFinalizeEmpty

theorem freezeOrFallbackProtection {l : Leg} (hl : C l) (reason : String) :
    Ends Exn.recursion I (freezeOrFallbackProtection l reason) := by
  refine ends_bind (h.persist (h.like hl ⟨rfl, rfl, rfl, id⟩)) fun _ => ?_
  exact ends_bind (h.note _) fun _ => h.reportLegStatus _

section Read

variable (hread : Ends Exn.recursion I readBroker)
include hread

theorem restoreRoughProtection (reason : String) :
    Ends Exn.recursion I (restoreRoughProtection reason) := by
  refine ends_get fun w hw => ?_
  cases w.mem.attempt with
  | none => exact ends_pure _
  | some a =>
      cases hleg : w.mem.leg with
      | none => exact ends_pure _
      | some l =>
          dsimp only
          split
          · exact ends_pure _
          · refine ends_bind (h.journalPrepare _ _ _) fun r => ?_
            cases r with
            | error _ => exact ends_bind (h.note _) fun _ => h.beginClose _
            | ok _ =>
                refine ends_bind (h.runBrokerWrite _ _) fun out => ?_
                split
                · exact ends_bind (h.note _) fun _ => h.beginClose _
                · refine ends_bind
                    (h.persist (h.like (h.held hw hleg) ⟨rfl, rfl, rfl, id⟩)) fun _ => ?_
                  refine ends_bind (h.note _) fun _ => ends_bind hread fun _ => ?_
                  exact h.reportLegStatus _

theorem applyMirroredBox {a : Attempt} {l : Leg} (hl : C l) (box : Rat × Rat) :
    Ends Exn.recursion I (applyMirroredBox a l box) := by
  refine ends_get fun w _ => ?_
  have hl' : ∀ e, C { l with protectionEffectId := e } :=
    fun e => h.like hl ⟨rfl, rfl, rfl, id⟩
  have hname : Ends Exn.recursion I (Lib.emit (.memLeg { l with
      protectionEffectId := some (w.cfg.effect a .protection) }) : M Unit) :=
    ends_emit fun _ hw => h.name hw (hl' _)
  refine ends_bind hname fun _ => ?_
  split
  · exact ends_bind (h.persist (h.like hl ⟨rfl, rfl, rfl, id⟩)) fun _ =>
      h.reportLegStatus _
  · refine ends_bind (h.journalPrepare _ _ _) fun r => ?_
    cases r with
    | error _ => exact h.freezeOrFallbackProtection (hl' _) _
    | ok _ =>
        refine ends_bind (h.runBrokerWrite _ _) fun out => ?_
        split
        · refine ends_bind (h.persist (h.like hl ⟨rfl, rfl, rfl, id⟩)) fun _ => ?_
          refine ends_bind (h.step trivial) fun _ => ends_bind (h.note _) fun _ => ?_
          refine ends_bind (h.note _) fun _ => ends_bind (h.reportLegStatus _) fun _ => ?_
          exact hread
        · exact h.freezeOrFallbackProtection (hl' _) _

theorem maybeApplyPreciseProtection :
    Ends Exn.recursion I maybeApplyPreciseProtection := by
  refine ends_get fun w hw => ?_
  split
  · next hleg =>
      have hl := h.held hw hleg
      split
      · exact ends_pure _
      · split
        · exact h.freezeOrFallbackProtection hl _
        · exact h.applyMirroredBox hread hl _
  · exact ends_pure _

theorem parts
    (hpeer : ∀ {w : World} {v : PeerLegView}, I w → w.mem.attempt ≠ none →
      I (w.act (.savePeerLeg v)))
    (hsnapshot : ∀ {w : World}, I w → Ends Exn.recursion I
      (applyBrokerSnapshot (requestBrokerRead w.script.depth)
        (w.script.reads.headD none))) :
    Parts I where
  toPlainly := h.toPlainly
  peer := hpeer
  reconcile := h.reconcileEntryEffectState
  protect := h.maybeApplyPreciseProtection hread
  restore := h.restoreRoughProtection hread
  freeze hw hleg _ :=
    ends_bind (h.persist (h.like (h.held hw hleg) ⟨rfl, rfl, rfl, id⟩)) fun _ =>
      ends_bind (h.note _) fun _ => h.reportLegStatus _
  read := hread
  snapshot := hsnapshot

end Read

end Lasting

end PairCell
