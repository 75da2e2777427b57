import PairCell.Protection

/-!
# The peer's leg

Statuses received from the peer, the probes that ask for a missing terminal
proof, and the answers this worker gives from its durable facts.
-/

namespace PairCell

open Lib

/-! ## Answers -/

/-- `allowNoRecord` is true only for an explicit probe. -/
def answerLegStatus (attemptId : Nat) (allowNoRecord : Bool) : M Unit := do
  let w ← get
  if w.attemptId? = some attemptId then reportCurrentLegStatus
  else
    match w.disk.rowOf attemptId with
    | none =>
        if allowNoRecord then
          reportLegStatus { status := .noAttemptRecord, attemptId := some attemptId,
                            reason :=
                              ⟨"this Worker has no durable record of the attempt", false⟩ }
        else pure ()
    | some row =>
        match row.terminal with
        | some reason =>
            reportLegStatus { status := terminalStatusFor reason,
                              attemptId := some attemptId, reason := ⟨reason.text, false⟩ }
        | none => pure ()

def handleLegStatusRequest (attemptId : Nat) : M Unit := answerLegStatus attemptId true

/-! ## Statuses -/

def recordLatePeerLegStatus (p : LegStatus) : M Unit := do
  emit (.latePeerLeg p)
  if p.status ∈ peerTerminalStatuses then pure () else answerLegStatus p.attemptId false

/-- Fields the peer leaves out keep what it said before. -/
def PeerLegView.update (v : PeerLegView) (p : LegStatus) : PeerLegView :=
  { status := p.status
    ticket := p.ticket.or v.ticket
    symbol := p.symbol.or v.symbol
    side := p.side.or v.side
    volume := p.volume.or v.volume
    fillPrice := p.fillPrice.or v.fillPrice
    sl := p.sl.or v.sl
    tp := p.tp.or v.tp
    reason := p.reason }

def freezeWithPeer (l : Leg) : M Unit := do
  persistLeg { l with protectionStatus := .frozen }
  note "protection_frozen"
  reportLegStatus { status := .protectionFrozen, sl := l.preciseSl, tp := l.preciseTp }

def closeAfterPeer (reason : Reason) : M Unit := do
  beginClose reason
  maybeFinalizeEmpty

/-- This side still holds its leg while the peer reports an empty one. -/
def survivesPeer (w : World) : Bool :=
  match w.mem.leg with
  | some l => decide (w.mem.desired = .active) && !l.emptyVerified && l.ticket.isSome
  | none => false

def peerLegEmpty (p : LegStatus) : M Unit := do
  let w ← get
  if p.reason.shutdown then do
    note "peer_operator_shutdown"
    closeAfterPeer ⟨"peer_operator_shutdown", true⟩
  else do
    if survivesPeer w then note "peer_leg_empty_edge_follow" else pure ()
    closeAfterPeer ⟨"peer_leg_empty", false⟩

/-- What a new peer status makes this side do. -/
def followPeerStatus (p : LegStatus) : M Unit := do
  let w ← get
  match p.status with
  | .protectionRoughFallback =>
      if w.mem.leg.isSome then restoreRoughProtection "peer retained rough protection"
      else pure ()
  | .protectionFrozen =>
      match w.mem.leg with
      | some l => if l.protectionStatus = .precise then freezeWithPeer l else pure ()
      | none => pure ()
  | .rejected => closeAfterPeer ⟨"peer_leg_rejected", false⟩
  | .expiredNotStarted => closeAfterPeer ⟨"peer_leg_expired_not_started", false⟩
  | .protectionFailed => closeAfterPeer ⟨"peer_leg_protection_failed", false⟩
  | .inconsistent => closeAfterPeer ⟨"peer_leg_inconsistent", false⟩
  | .noAttemptRecord => closeAfterPeer ⟨"peer_leg_no_attempt_record", false⟩
  | .empty => peerLegEmpty p
  | _ => pure ()

def handlePeerLegStatus (p : LegStatus) : M Unit := do
  if p.receiptRetcode = some priceOffRetcode ∧ p.productId ≠ none then
    note "product_quarantined"
  else pure ()
  let w ← get
  if w.attemptId? ≠ some p.attemptId then recordLatePeerLegStatus p
  else if p.status = .noAttemptRecord ∧ w.mem.aux.proofProbesSent = 0 then
    note "unsolicited_no_attempt_record_ignored"
  else do
    emit (.savePeerLeg (w.mem.peerLeg.update p))
    note "peer_leg_status"
    if p.status ≠ w.mem.peerLeg.status then
      modifyAux fun x => { x with proofWaitStarted := none, proofLastProbe := none }
    else pure ()
    followPeerStatus p

/-! ## Probes -/

def peerProofProbeMultiplier : Nat := 1

def peerProofEscalationMultiplier : Nat := 6

def sendProofProbe (a : Attempt) : M Unit := do
  let now ← monotonic
  modifyAux fun x => { x with
    proofLastProbe := some now, proofProbesSent := x.proofProbesSent + 1 }
  reportEmpty a
  emit (.relay (.legStatusRequest a.attemptId))
  note "peer_terminal_proof_probe"

/-- The local leg is verified empty and the peer's terminal proof is missing. -/
def awaitsPeerProof (w : World) : Bool :=
  match w.mem.attempt, w.mem.leg with
  | some _, some l =>
      l.emptyVerified && peerSendPossible w &&
        decide (w.mem.peerLeg.status ∉ peerTerminalStatuses)
  | _, _ => false

/-- Whether a stop other than the missing proof is latched. -/
def unrelatedStop (w : World) (a : Attempt) : Bool :=
  w.mem.needsHuman.isSome && decide (w.mem.needsHuman ≠ some (.noPeerProof a.attemptId))

def probeDue (w : World) (a : Attempt) (now : Nat) : Bool :=
  match w.mem.aux.proofLastProbe with
  | none => true
  | some last =>
      decide (now - last ≥ a.confirmationTimeoutSeconds * peerProofProbeMultiplier)

def escalateOrProbe (a : Attempt) (started now : Nat) : M Unit := do
  let w ← get
  if now - started ≥ a.confirmationTimeoutSeconds * peerProofEscalationMultiplier ∧
      unrelatedStop w a = false then
    setNeedsHuman (.noPeerProof a.attemptId)
  else if probeDue w a now && w.mem.aux.peerSession then sendProofProbe a
  else pure ()

def awaitPeerTerminalProof : M Unit := do
  let w ← get
  match w.mem.attempt, w.mem.leg with
  | some a, some l =>
      if !l.emptyVerified then
        modifyAux fun x => { x with proofWaitStarted := none, proofLastProbe := none }
      else if !awaitsPeerProof w then pure ()
      else do
        let now ← monotonic
        match w.mem.aux.proofWaitStarted with
        | none =>
            modifyAux fun x => { x with
              proofWaitStarted := some now
              proofLastProbe := x.proofLastProbe.or (some now) }
        | some started => escalateOrProbe a started now
  | _, _ => modifyAux fun x => { x with proofWaitStarted := none, proofLastProbe := none }

def probePeerTerminalProofNow : M Unit := do
  let w ← get
  match w.mem.attempt with
  | some a =>
      if awaitsPeerProof w && w.mem.aux.peerSession then do
        modifyAux fun x => { x with proofWaitStarted := none }
        sendProofProbe a
      else pure ()
  | none => pure ()

end PairCell
