import PairCell.Frame
import PairCell.Cell

/-!
# Calls that end

Every handler but the broker read is a finite composition of actions.  `Calm`
and `Stable` list what an invariant of the cell has to survive so that reports,
broker evidence and broker writes end in it.
-/

namespace PairCell

open Lib World

/-- An action that concerns neither what is followed, nor the leg, nor the journal. -/
def Quiet : Action → Prop
  | .transition event => ∀ reason, event ≠ .terminated reason
  | .bump | .setState _ | .setRecovering _ | .relay _ | .complete _ => True
  | .saveDesired desired _ => desired = .empty
  | _ => False

/-- An action that moves a row of the journal, or comes with such a move. -/
def Booking : Action → Prop
  | .markSendStarted _ | .recordReceipt .. | .recordObservation _ | .orderSend
      .. | .turn .. => True
  | _ => False

/-- The broker may still have to be asked what became of the entry. -/
def undecided : EntryStatus → Bool
  | .pending | .sent | .unknownAfterSend => true
  | _ => false

/-- An undecided entry; a pending one has been given an effect. -/
def Leg.unsettled (l : Leg) : Bool :=
  undecided l.entryStatus && (decide (l.entryStatus ≠ .pending) || l.entryEffectId.isSome)

/-- The same ticket, and an entry that is decided if it was. -/
structure Like (l l' : Leg) : Prop where
  role : l'.role = l.role
  ticket : l'.ticket = l.ticket
  verified : l'.emptyVerified = l.emptyVerified
  status : l'.unsettled = true → l.unsettled = true

/-- What the cell object remembers of the broker. -/
def Aux.evidence (x : Aux) :
    List (EffectId × Nat) × Option (List Order) × Option (List Position) × Option Facts :=
  (x.replayDeferred, x.lastOrders, x.lastPositions, x.localFacts)

structure Calm (I : World → Prop) : Prop where
  quiet {w : World} {x : Action} : I w → Quiet x → I (w.act x)
  aux {w : World} {x : Aux} : I w → x.evidence = w.mem.aux.evidence → I (w.act (.setAux x))

structure Stable (s : Snapshot) (I : World → Prop) (C : Leg → Prop) :
    Prop extends Calm I where
  book {w : World} {x : Action} : I w → Booking x → I (w.act x)
  prepare {w : World} {e : EffectId} {p : Payload} {own : Bool} : I w →
    w.disk.journal.get e = none → I (w.act (.prepare e p own))
  held {w : World} {l : Leg} : I w → w.mem.leg = some l → C l
  save {w : World} {l : Leg} : I w → C l → I (w.act (.saveLeg l))
  name {w : World} {l : Leg} : I w → C l → I (w.act (.memLeg l))
  like {l l' : Leg} : C l → Like l l' → C l'
  fill {w : World} {a : Attempt} {l : Leg} {p : Position} : I w →
      w.mem.attempt = some a → C l →
    (l.entryStatus = .sent ∨ l.entryStatus = .unknownAfterSend) →
    attemptMatches a l.role s = [p] → C (l.fill p)

/-- An invariant of every action, as long as no row is prepared twice. -/
theorem stable_of_act {s : Snapshot} {I : World → Prop}
    (h : ∀ w x, I w → (∀ e p own, x = .prepare e p own → w.disk.journal.get e = none) →
      I (w.act x)) : Stable s I (fun _ => True) where
  quiet {w x} hw hx := h w x hw (by rintro e p own rfl; exact hx.elim)
  aux {w _} hw _ := h w _ hw (by simp)
  book {w x} hw hx := h w x hw (by rintro e p own rfl; exact hx.elim)
  prepare {w e p own} hw hnone :=
    h w _ hw (by rintro e' p' own' heq; cases heq; exact hnone)
  held _ _ := trivial
  save {w _} hw _ := h w _ hw (by simp)
  name {w _} hw _ := h w _ hw (by simp)
  like _ _ := trivial
  fill _ _ _ _ _ := trivial

/-- What `entryFilled` does once the leg is stored. -/
def reportFill (l : Leg) : M Unit := do
  recordEffectObservation l.entryEffectId
  emit (.setState .awaitingPairConfirmation)
  note "entry_filled_observed"
  note "timing:position_observed"
  let w ← get
  match ownEvidenceInconsistency w with
  | some why => do
      note "inconsistent_exact_evidence"
      reportLegStatus { status := .inconsistent, reason := ⟨why, false⟩ }
      notifyEntryFailed why
      beginClose ⟨"inconsistent_exact_evidence", false⟩
  | none =>
      reportLegStatus { status := .filled, ticket := l.ticket, fillPrice := l.fillPrice,
                        sl := l.observedSl, tp := l.observedTp }

theorem entryFilled_eq (l : Leg) (p : Position) :
    entryFilled l p = (do persistLeg (l.fill p); reportFill (l.fill p)) := rfl

/-- The part of `applyLegEvidence` after the durable recovery of the entry. -/
def applyRecoveredEvidence (s : Snapshot) : M Unit := do
  let w ← get
  match w.mem.attempt, w.mem.leg with
  | some a, some l => do
      let verified := decide (l.protectionStatus ≠ .rough)
      applyEntryEvidence a l s
      let w ← get
      match w.mem.leg with
      | some l => if l.ticket = none then pure () else applyTicketEvidence a l verified s
      | none => pure ()
  | _, _ => pure ()

theorem applyLegEvidence_eq (s : Snapshot) :
    applyLegEvidence s = (do reconcileEntryEffectState; applyRecoveredEvidence s) := rfl

/-! ## Calm steps -/

namespace Calm

variable {I : World → Prop} {exn : Exn} (h : Calm I)
include h

theorem emit {x : Action} (hx : Quiet x) : Ends exn I (Lib.emit x : M Unit) :=
  ends_emit fun _ hw => h.quiet hw hx

theorem note (event : String) : Ends exn I (note event) := h.emit (by simp [Quiet])

theorem bump : Ends exn I bumpStateVersion := h.emit trivial

theorem modifyAux {f : Aux → Aux} (hf : ∀ x, (f x).evidence = x.evidence) :
    Ends exn I (modifyAux f) := by
  intro w hw
  simp only [PairCell.modifyAux, get_bind_run]
  exact ⟨by simp [Lib.emit], h.aux hw (hf _)⟩

theorem reportLegStatus (r : StatusReport) : Ends exn I (reportLegStatus r) := by
  refine ends_get fun w _ => ?_
  cases r.attemptId.or w.attemptId? with
  | none => exact ends_pure _
  | some i => exact h.emit trivial

theorem notifyEntryFailed (reason : String) : Ends exn I (notifyEntryFailed reason) := by
  refine ends_get fun w _ => ?_
  cases w.mem.attempt with
  | none => exact ends_pure _
  | some a => exact h.emit trivial

theorem beginClose (reason : Reason) : Ends exn I (beginClose reason) := by
  refine ends_get fun w _ => ?_
  have hclose : Ends exn I
      (if w.mem.desired = .empty then pure () else desireEmpty reason) := by
    split
    · exact ends_pure _
    · refine ends_get fun w _ => ends_bind (h.modifyAux fun _ => rfl) fun _ => ?_
      refine ends_bind (h.emit rfl) fun _ => ends_bind (h.emit ?_) fun _ => h.note _
      simp [Quiet]
  cases w.mem.attempt with
  | none => exact ends_pure _
  | some a =>
      dsimp only
      split
      · exact ends_bind (h.modifyAux fun _ => rfl) fun _ => hclose
      · exact hclose

end Calm

namespace Stable

variable {s : Snapshot} {I : World → Prop} {C : Leg → Prop} {exn : Exn} (h : Stable s I C)
include h

theorem booking {x : Action} (hx : Booking x) : Ends exn I (Lib.emit x : M Unit) :=
  ends_emit fun _ hw => h.book hw hx

theorem persist {l : Leg} (hl : C l) : Ends exn I (persistLeg l) :=
  ends_bind (ends_emit fun _ hw => h.save hw hl) fun _ => h.bump

/-! ## The journal -/

theorem recordObservation (e : EffectId) :
    Ends exn I (Journal.recordObservation e) := by
  refine ends_get fun w _ => ?_
  cases w.disk.journal.get e with
  | none => exact ends_pure _
  | some row =>
      dsimp only
      split
      · exact ends_pure _
      · exact ends_bind (h.booking trivial) fun _ => ends_pure _

theorem recordEffectObservation (e? : Option EffectId) :
    Ends exn I (recordEffectObservation e?) := by
  cases e? with
  | none => exact ends_pure _
  | some e =>
      refine ends_get fun w _ => ?_
      split
      · refine ends_bind (h.recordObservation e) fun r => ?_
        cases r with
        | error _ => exact h.note _
        | ok _ => exact ends_bind (h.note _) fun _ => h.bump
      · exact ends_pure _

theorem journalPrepare (e : EffectId) (p : Payload) (own : Bool) :
    Ends exn I (Journal.prepare e p own) := by
  intro w hw
  simp only [Journal.prepare, get_bind_run]
  cases hrow : w.disk.journal.get e with
  | some row =>
      dsimp only
      split <;> exact ends_pure _ w hw
  | none => exact ⟨by simp [Lib.emit, bind_run, pure_run], h.prepare hw hrow⟩

theorem markSendStarted (e : EffectId) : Ends exn I (Journal.markSendStarted e) := by
  refine ends_get fun w _ => ?_
  cases w.disk.journal.get e with
  | none => exact ends_pure _
  | some row =>
      dsimp only
      split
      · exact ends_pure _
      · exact ends_bind (h.booking trivial) fun _ => ends_pure _

theorem recordReceipt (e : EffectId) (retcode : Option Int) (encodable : Bool) :
    Ends Exn.recursion I (Journal.recordReceipt e retcode encodable) := by
  refine ends_get fun w _ => ?_
  cases w.disk.journal.get e with
  | none => exact ends_pure _
  | some row =>
      dsimp only
      split
      · exact ends_pure _
      · split
        · exact ends_bind (h.booking trivial) fun _ => ends_pure _
        · exact ends_raise (by decide)

theorem orderSend (e : EffectId) (p : Payload) : Ends exn I (orderSend e p) :=
  ends_get fun _ _ => ends_bind (h.booking trivial) fun _ => ends_pure _

/-! ## Broker writes -/

theorem dispatchScheduledTraderRpc (item : ForeignItem) :
    Ends Exn.recursion I (dispatchScheduledTraderRpc item) := by
  refine ends_bind (h.journalPrepare _ _ _) fun r => ?_
  split
  · split
    · refine ends_bind (h.markSendStarted _) fun r => ?_
      cases r with
      | error _ => exact ends_pure _
      | ok _ =>
          refine ends_bind (h.orderSend _ _) fun r => ?_
          split
          · exact ends_bind (h.recordReceipt _ _ _) fun _ => ends_pure _
          · exact ends_pure _
    · exact ends_pure _
  · exact ends_pure _

theorem drain (items : List ForeignItem) : Ends Exn.recursion I (drain items) := by
  induction items with
  | nil => exact ends_pure _
  | cons item items ih => exact ends_bind (h.dispatchScheduledTraderRpc item) fun _ => ih

theorem notStarted (e : EffectId) (category : OutcomeCategory) :
    Ends exn I (notStarted e category) :=
  ends_bind (h.recordEffectObservation _) fun _ => ends_pure _

theorem sendAndClassify (e : EffectId) (p : Payload) :
    Ends Exn.recursion I (sendAndClassify e p) := by
  refine ends_bind (h.markSendStarted e) fun r => ?_
  cases r with
  | error _ => exact ends_bind (h.note _) fun _ =>
      ends_bind (h.emit trivial) fun _ => ends_pure _
  | ok _ =>
      refine ends_bind (h.note _) fun _ => ends_bind (h.orderSend e p) fun r => ?_
      split
      · exact ends_bind (h.note _) fun _ => ends_bind (h.emit trivial) fun _ => ends_pure _
      · exact ends_bind (h.note _) fun _ => ends_bind (h.emit trivial) fun _ => ends_pure _
      · exact ends_bind (h.emit trivial) fun _ => ends_raise (by decide)
      · refine ends_bind (h.recordReceipt _ _ _) fun r => ?_
        cases r with
        | error _ =>
            exact ends_bind (h.note _) fun _ =>
              ends_bind (h.emit trivial) fun _ => ends_pure _
        | ok _ =>
            refine ends_bind (h.note _) fun _ => ends_bind (h.emit trivial) fun _ => ?_
            split <;> exact ends_pure _

theorem nextTurn (e : EffectId) : Ends exn I (nextTurn e) :=
  ends_get fun _ _ => ends_bind (h.booking trivial) fun _ => ends_pure _

theorem runBrokerWrite (e : EffectId) (p : Payload) :
    Ends Exn.recursion I (runBrokerWrite e p) := by
  refine ends_bind (h.nextTurn e) fun t => ?_
  cases t.refused with
  | some category => exact h.notStarted e category
  | none =>
      refine ends_bind (h.drain _) fun _ => ?_
      cases t.surfaced with
      | outcome category => exact h.notStarted e category
      | exhausted => exact ends_pure _
      | own =>
          cases t.expired with
          | some category => exact h.notStarted e category
          | none => exact h.sendAndClassify e p

/-! ## Broker evidence -/

theorem reconcileEntryEffectState : Ends exn I reconcileEntryEffectState := by
  refine ends_get fun w hw => ?_
  cases hleg : w.mem.leg with
  | none => exact ends_pure _
  | some l =>
      have hl := h.held hw hleg
      dsimp only
      split
      · next e hpending heffect =>
          have hnever : ∀ b, Ends exn I (markEntryNeverStarted l e b) := by
            intro b
            refine ends_bind (h.persist (h.like hl ⟨rfl, rfl, rfl, ?_⟩)) fun _ => ?_
            · simp [Leg.unsettled, undecided]
            dsimp only
            split
            · exact ends_bind (h.recordEffectObservation _) fun _ => h.note _
            · exact h.note _
          have hsent : Ends exn I (markEntryMayHaveSent l) :=
            ends_bind (h.persist (h.like hl ⟨rfl, rfl, rfl, fun _ => by
              simp [Leg.unsettled, undecided, hpending, heffect]⟩)) fun _ => h.note _
          cases w.disk.journal.get e with
          | none => exact hnever false
          | some row =>
              dsimp only
              split
              · exact hnever true
              · exact hsent
      · exact ends_pure _

theorem reportFill (l : Leg) : Ends exn I (reportFill l) := by
  refine ends_bind (h.recordEffectObservation _) fun _ =>
    ends_bind (h.emit trivial) fun _ => ?_
  refine ends_bind (h.note _) fun _ => ends_bind (h.note _) fun _ => ends_get fun w _ => ?_
  split
  · refine ends_bind (h.note _) fun _ => ends_bind (h.reportLegStatus _) fun _ => ?_
    exact ends_bind (h.notifyEntryFailed _) fun _ => h.beginClose _
  · exact h.reportLegStatus _

theorem entryFilled {l : Leg} {p : Position} (hl : C (l.fill p)) :
    Ends exn I (entryFilled l p) := by
  rw [entryFilled_eq]
  exact ends_bind (h.persist hl) fun _ => h.reportFill _

theorem entryAbsent {l : Leg} (hl : C l) : Ends exn I (entryAbsent l) := by
  refine ends_bind
    (h.persist (h.like hl ⟨rfl, rfl, rfl, by simp [Leg.unsettled, undecided]⟩)) fun _ => ?_
  refine ends_bind (h.recordEffectObservation _) fun _ => ends_bind (h.note _) fun _ => ?_
  refine ends_bind (h.reportLegStatus _) fun _ =>
    ends_bind (h.notifyEntryFailed _) fun _ => ?_
  exact h.beginClose _

/-- From a state that follows the attempt. -/
theorem applyEntryEvidence {a : Attempt} {l : Leg} {w : World} (hw : I w)
    (ha : w.mem.attempt = some a) (hl : C l) : Ends exn I (applyEntryEvidence a l s) := by
  unfold PairCell.applyEntryEvidence
  split
  · next hopen =>
      split
      · split
        · exact h.entryAbsent hl
        · exact ends_pure _
      · next p hp => exact h.entryFilled (h.fill hw ha hl hopen hp)
      · exact ends_bind (h.note _) fun _ => h.beginClose _
  · exact ends_pure _

theorem applyTicketEvidence {a : Attempt} {l : Leg} {verified : Bool} (hl : C l) :
    Ends exn I (applyTicketEvidence a l verified s) := by
  unfold PairCell.applyTicketEvidence
  split
  · refine ends_bind (h.recordEffectObservation _) fun _ => ?_
    split
    · refine ends_get fun w _ => ?_
      dsimp only
      split
      · exact h.persist (h.like hl ⟨rfl, rfl, rfl, id⟩)
      · exact ends_bind (h.note _) fun _ => h.beginClose _
    · exact ends_pure _
  · refine ends_bind (h.recordEffectObservation _) fun _ => ?_
    refine ends_bind (h.recordEffectObservation _) fun _ => ?_
    split
    · exact h.beginClose _
    · exact ends_pure _

theorem applyRecoveredEvidence : Ends exn I (applyRecoveredEvidence s) := by
  refine ends_get fun w hw => ?_
  cases ha : w.mem.attempt with
  | none => exact ends_pure _
  | some a =>
      cases hleg : w.mem.leg with
      | none => exact ends_pure _
      | some l =>
          refine ends_bind (h.applyEntryEvidence hw ha (h.held hw hleg)) fun _ => ?_
          refine ends_get fun w' hw' => ?_
          cases hleg' : w'.mem.leg with
          | none => exact ends_pure _
          | some l' =>
              dsimp only
              split
              · exact ends_pure _
              · exact h.applyTicketEvidence (h.held hw' hleg')

theorem applyLegEvidence : Ends exn I (applyLegEvidence s) :=
  ends_bind h.reconcileEntryEffectState fun _ => h.applyRecoveredEvidence

end Stable

end PairCell
