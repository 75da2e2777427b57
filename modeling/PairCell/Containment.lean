import PairCell.Leg

/-!
# Broker snapshots and containment

A snapshot resolves what the local leg does not know, and, once the attempt is
to be emptied, drives it to an account without exposure.  Reads, snapshots and
containment writes call each other; `requestBrokerRead` counts the nesting down
from the interpreter's recursion limit.
-/

namespace PairCell

open Lib

/-! ## Terminal attempts and the stops they lift -/

/-- `_terminate_attempt` followed by `_reset_attempt`. -/
def terminateAttempt (reason : TerminalReason) : M Unit := do
  emit (.terminate reason)
  bumpStateVersion
  emit (.saveDesired .none false)
  bumpStateVersion

/-- The route's row of the attempt is terminal with both legs verified empty. -/
def bothEmptyRow (w : World) (attemptId : Nat) : Bool :=
  w.disk.attempts.any fun r =>
    decide (r.attempt.attemptId = attemptId) &&
      decide (r.attempt.routeId = w.cfg.routeId) &&
      decide (r.terminal = some .bothEmptyVerified)

def bothEmptyTransition (w : World) (attemptId : Nat) : Bool :=
  w.disk.transitions.any fun t =>
    decide (t.attemptId = some attemptId) &&
      decide (t.event = .terminated .bothEmptyVerified)

def clearResolvedPeerTerminalProofStop (attemptId : Nat) : M Unit := do
  let w ← get
  if w.mem.needsHuman ≠ some (.noPeerProof attemptId) then pure ()
  else emit (.unlatch true "peer_terminal_proof_recovered")

def recoverTerminalProofStop : M Unit := do
  let w ← get
  match w.mem.needsHuman with
  | some (.noPeerProof attemptId) =>
      if bothEmptyRow w attemptId then
        clearResolvedPeerTerminalProofStop attemptId
      else pure ()
  | _ => pure ()

def recoverTerminalizedContainmentStop : M Unit := do
  let w ← get
  match w.mem.needsHuman with
  | some (.containment (.cell attemptId _ _) _) =>
      if bothEmptyRow w attemptId || bothEmptyTransition w attemptId then
        emit (.unlatch true "terminal_containment_recovered")
      else pure ()
  | _ => pure ()

/-- Whether the last broker snapshot shows no trace of the effect's target. -/
def deferredEffectTargetAbsent (w : World) : EffectId → Bool
  | .cell _ _ (.cancel (.broker n)) =>
      match w.mem.aux.lastOrders with
      | some orders => orders.all fun o => decide (o.ticket ≠ n)
      | none => false
  | .cell _ _ (.close (.broker n)) =>
      match w.mem.aux.lastPositions with
      | some positions => positions.all fun p => decide (p.ticket ≠ n)
      | none => false
  | _ => false

def recoverLatchedContainmentReplayStop : M Unit := do
  let w ← get
  match w.mem.needsHuman with
  | some (.containment e .nonSuccessReplay) =>
      if deferredEffectTargetAbsent w e && brokerVerifiedEmpty w then
        emit (.unlatch false "containment_receipt_recovered")
      else pure ()
  | _ => pure ()

/-- Whether the peer could still hold the mirror leg. -/
def peerSendPossible (w : World) : Bool :=
  match w.mem.leg with
  | none => false
  | some l =>
      if w.mem.peerLeg.status ∈ peerTerminalStatuses then false
      else if w.mem.peerLeg.status ≠ .unknown then true
      else !(decide (w.cfg.role = .leader) && !l.attemptRelayed)

def maybeFinalizeEmpty : M Unit := do
  let w ← get
  match w.mem.attempt, w.mem.leg with
  | some a, some l =>
      if !l.emptyVerified then pure ()
      else if decide (w.mem.peerLeg.status ≠ .empty) && peerSendPossible w then pure ()
      else do
        note "timing:terminal_time"
        terminateAttempt .bothEmptyVerified
        clearResolvedPeerTerminalProofStop a.attemptId
  | _, _ => pure ()

/-! ## Durable recovery of the entry effect -/

def markEntryNeverStarted (l : Leg) (e : EffectId)
    (recordObservation : Bool) : M Unit := do
  persistLeg { l with entryStatus := .expiredNotStarted }
  if recordObservation then recordEffectObservation (some e) else pure ()
  note "entry_effect_never_started"

def markEntryMayHaveSent (l : Leg) : M Unit := do
  persistLeg { l with entryStatus := .unknownAfterSend, entryDispatched := true }
  note "entry_effect_may_have_sent"

/-- The journal, not the leg, says whether the entry may have been sent. -/
def reconcileEntryEffectState : M Unit := do
  let w ← get
  match w.mem.leg with
  | none => pure ()
  | some l =>
      match l.entryStatus, l.entryEffectId with
      | .pending, some e =>
          match w.disk.journal.get e with
          | none => markEntryNeverStarted l e false
          | some row =>
              match row.state with
              | .prepared => markEntryNeverStarted l e true
              | _ => markEntryMayHaveSent l
      | _, _ => pure ()

/-! ## Containment writes -/

/-- A refused cancel or close is judged by the next snapshot, not by its receipt. -/
def awaitPostFailureContainmentObservation (out : BrokerWriteResult) : Bool :=
  match out.receipt with
  | some retcode => decide (out.category = .rejected) && !successRetcode retcode
  | none => false

/-- `read` is `_request_broker_read`. -/
def journaledEmergencyWrite (read : M Unit) (e : EffectId) (p : Payload) : M Unit := do
  let w ← get
  if w.shadow then read
  else
    match ← Journal.prepare e p true with
    | .error _ => setNeedsHuman (.containment e .prepareFailed)
    | .ok state => do
        bumpStateVersion
        match state with
        | .sendStarted => setNeedsHuman (.containment e .noConclusiveReceipt)
        | .prepared => do
            let out ← runBrokerWrite e p
            if awaitPostFailureContainmentObservation out then
              note "containment_receipt_reconciliation_pending"
            else if out.category ≠ .completed then
              setNeedsHuman (.containment e (.ended out.category))
            else read
        | _ => do
            let w ← get
            match Journal.evidence w.disk e with
            | .error _ => setNeedsHuman (.containment e .invalidReplayEvidence)
            | .ok retcode =>
                if successRetcode retcode then do
                  note "containment_receipt_recovered"
                  modifyAux fun x => { x with
                    replayDeferred := x.replayDeferred.filter fun r => decide (r.1 ≠ e) }
                else if (w.mem.aux.replayDeferred.map Prod.fst).contains e then pure ()
                else do
                  let now ← monotonic
                  modifyAux fun x =>
                    { x with replayDeferred := x.replayDeferred ++ [(e, now)] }
                  note "containment_receipt_reconciliation_pending"
                  read

def cancelOwned (read : M Unit) (a : Attempt) (o : Order) : M Unit := do
  let w ← get
  journaledEmergencyWrite read (w.cfg.effect a (.cancel o.text)) (.cancel o.text)

def closeOwned (read : M Unit) (a : Attempt) (l : Leg) (p : Position) : M Unit := do
  let w ← get
  let e := w.cfg.effect a (.close p.text)
  emit (.memLeg { l with closeEffectId := some e })
  journaledEmergencyWrite read e (.close p.text p.volume)

def verifyEmpty (a : Attempt) (l : Leg) : M Unit := do
  if l.emptyVerified then pure ()
  else do
    persistLeg { l with emptyVerified := true }
    note "empty_verified"
    emit (.setState .convergingEmpty)
    reportEmpty a
    maybeFinalizeEmpty

/-- The position that carries the leg's own ticket. -/
def ownedPosition (l : Leg) (s : Snapshot) : Option Position :=
  match l.ticket with
  | some t => s.positions.find? fun p => decide (p.text = t)
  | none => none

def advanceConvergence (read : M Unit) (s : Snapshot) : M Unit := do
  let w ← get
  match w.mem.attempt, w.mem.leg with
  | some a, some l =>
      match s.orders.find? fun o => decide (o.symbol = a.symbol) with
      | some o => cancelOwned read a o
      | none =>
          match ownedPosition l s with
          | some p =>
              if w.mem.needsHuman ≠ none then pure ()
              else closeOwned read a l p
          | none =>
              if s.positions ≠ [] ∨ s.orders ≠ [] then
                setNeedsHuman (.unattributed a.attemptId)
              else verifyEmpty a l
  | _, _ => pure ()

/-! ## Broker facts -/

/-- The leg once the broker shows the entry's position. -/
def Leg.fill (l : Leg) (p : Position) : Leg :=
  { l with
    ticket := some p.text, fillPrice := p.priceOpen, observedVolume := p.volume
    observedSl := p.sl, observedTp := p.tp, entryStatus := .filled }

def entryFilled (l : Leg) (p : Position) : M Unit := do
  let l' := l.fill p
  persistLeg l'
  recordEffectObservation l'.entryEffectId
  emit (.setState .awaitingPairConfirmation)
  note "entry_filled_observed"
  note "timing:position_observed"
  let w ← get
  match ownEvidenceInconsistency w with
  | some why => do
      note "inconsistent_exact_evidence"
      reportLegStatus { status := .inconsistent, reason := ⟨why, false⟩ }
      notifyEntryFailed why
      beginClose ⟨"inconsistent_exact_evidence", false⟩
  | none =>
      reportLegStatus { status := .filled, ticket := l'.ticket, fillPrice := l'.fillPrice,
                        sl := l'.observedSl, tp := l'.observedTp }

def entryAbsent (l : Leg) : M Unit := do
  persistLeg { l with entryStatus := .rejected }
  recordEffectObservation l.entryEffectId
  note "unknown_after_send_resolved_absent"
  reportLegStatus { status := .rejected,
                    reason :=
                      ⟨"fresh observation proves no owned position exists", false⟩ }
  notifyEntryFailed "the local entry could not be observed"
  beginClose ⟨"unknown_after_send_resolved_absent", false⟩

/-- What the positions say about an entry that was sent or may have been. -/
def applyEntryEvidence (a : Attempt) (l : Leg) (s : Snapshot) : M Unit :=
  if l.entryStatus = .sent ∨ l.entryStatus = .unknownAfterSend then
    match attemptMatches a l.role s with
    | [] => if l.entryStatus = .unknownAfterSend then entryAbsent l else pure ()
    | [p] => entryFilled l p
    | _ => do
        note "ambiguous_position_attribution"
        beginClose ⟨"ambiguous_position_attribution", false⟩
  else pure ()

/-- The stop loss and take profit the leg's ticket should carry. -/
def expectedProtection (a : Attempt) (l : Leg) : Option Rat × Option Rat :=
  match l.protectionStatus with
  | .precise | .frozen => (l.preciseSl, l.preciseTp)
  | _ => (some (a.roughOf l.role).1, some (a.roughOf l.role).2)

def applyTicketEvidence (a : Attempt) (l : Leg) (verified : Bool)
    (s : Snapshot) : M Unit :=
  match ownedPosition l s with
  | some p => do
      recordEffectObservation l.protectionEffectId
      if verified then do
        let w ← get
        let expected := expectedProtection a l
        let tick := w.script.tickOf l.role
        if sameProtectionPrice expected.1 p.sl tick &&
          sameProtectionPrice expected.2 p.tp tick then
          persistLeg { l with observedSl := p.sl, observedTp := p.tp }
        else do
          note "integrity_divergence"
          beginClose ⟨"integrity_divergence", false⟩
      else pure ()
  | none => do
      recordEffectObservation l.protectionEffectId
      recordEffectObservation l.closeEffectId
      if l.entryStatus = .filled ∧ l.emptyVerified = false then
        beginClose ⟨"owned_ticket_disappeared", false⟩
      else pure ()

/-- The part of a snapshot that concerns the leg of the current attempt. -/
def applyLegEvidence (s : Snapshot) : M Unit := do
  reconcileEntryEffectState
  let w ← get
  match w.mem.attempt, w.mem.leg with
  | some a, some l => do
      let verified := decide (l.protectionStatus ≠ .rough)
      applyEntryEvidence a l s
      let w ← get
      match w.mem.leg with
      | some l => if l.ticket = none then pure () else applyTicketEvidence a l verified s
      | none => pure ()
  | _, _ => pure ()

def applyBrokerSnapshot (read : M Unit) (s? : Option Snapshot) : M Unit := do
  match s? with
  | none => pure ()
  | some s => do
      modifyAux fun x =>
        { x with lastOrders := some s.orders, lastPositions := some s.positions }
      let w ← get
      match w.mem.attempt, w.mem.leg with
      | some _, some _ => do
          applyLegEvidence s
          let w ← get
          if w.mem.desired = .empty then advanceConvergence read s else pure ()
      | _, _ => pure ()

def requestBrokerRead : Nat → M Unit
  | 0 => raise .recursion
  | depth + 1 => do
      let w ← get
      match w.mem.attempt with
      | none => pure ()
      | some _ => do
          let s := w.script.reads.headD none
          emit (.brokerRead s)
          applyBrokerSnapshot (requestBrokerRead depth) s

end PairCell
