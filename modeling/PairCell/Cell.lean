import PairCell.Peer

/-!
# The cell

The periodic progress of an attempt, the entry points of the cell object, and
its construction from a database.
-/

namespace PairCell

open Lib

/-! ## Progress -/

def containmentReplaySettleSeconds : Nat := 10

def settleDeferred (now : Nat) : List (EffectId × Nat) → M Unit
  | [] => pure ()
  | (e, deferredAt) :: rest => do
      if now - deferredAt < containmentReplaySettleSeconds then pure ()
      else do
        readBroker
        modifyAux fun x => { x with
          replayDeferred := x.replayDeferred.filter fun r => decide (r.1 ≠ e) }
        let w ← get
        if deferredEffectTargetAbsent w e then note "containment_receipt_recovered"
        else setNeedsHuman (.containment e .nonSuccessReplay)
      settleDeferred now rest

def maybeResolveDeferredContainment : M Unit := do
  let w ← get
  if w.mem.aux.replayDeferred = [] then pure ()
  else do
    let now ← monotonic
    settleDeferred now w.mem.aux.replayDeferred

/-- The attempt has been held as long as the policy allows. -/
def heldTooLong (w : World) (policy : Policy) : Bool :=
  match w.mem.activeSince, policy.maximumHoldingSeconds with
  | some since, some limit => decide (since + limit ≤ w.mem.aux.now)
  | _, _ => false

def enforceExitPolicy : M Unit := do
  let w ← get
  match w.mem.policy, w.mem.attempt with
  | some policy, some _ =>
      if w.mem.desired = .empty then pure ()
      else
        match w.script.blackout with
        | some (reason, _) => beginClose ⟨reason, false⟩
        | none =>
            if heldTooLong w policy then beginClose ⟨"maximum_holding_seconds", false⟩
            else pure ()
  | _, _ => pure ()

def confirmationTimeout : M Unit := do
  let w ← get
  modifyAux fun x => { x with timerDeadline := none }
  match w.cfg.role with
  | .leader => do
      note "leader_confirmation_timeout"
      notifyEntryFailed
        "leader confirmation timer expired without exact evidence for both legs"
      beginClose ⟨"leader_confirmation_timeout", false⟩
  | .follower => do
      note "follower_confirmation_timeout"
      beginClose ⟨"follower_confirmation_timeout", false⟩

def enforceTimers : M Unit := do
  let w ← get
  match w.mem.aux.timerDeadline, w.mem.attempt, w.mem.leg with
  | some deadline, some _, some _ =>
      if w.mem.pairConfirmed ∨ w.mem.desired = .empty then pure ()
      else do
        let now ← monotonic
        if now < deadline then pure () else confirmationTimeout
  | _, _, _ => pure ()

def maybeProgressConvergence : M Unit := do
  let w ← get
  match w.mem.attempt, w.mem.leg with
  | some _, some l =>
      if w.mem.desired ≠ .empty then pure ()
      else do
        emit (.setState .convergingEmpty)
        if l.emptyVerified then pure () else readBroker
  | _, _ => pure ()

def progressStopped : M Unit := do
  emit (.setState .needsHuman)
  maybeFinalizeEmpty
  let w ← get
  if w.mem.needsHuman ≠ none then awaitPeerTerminalProof else pure ()

/-- The gate of `_maybe_create_attempt` in `_progress`. -/
def mayCreate (w : World) : Bool :=
  decide (w.cfg.role = .leader) && !w.mem.aux.unpairing && w.mem.attempt.isNone &&
    decide (w.mem.state = .idle ∨ w.mem.state = .empty)

def progressAttempt : M Unit := do
  maybeEmitPairConfirmation
  maybeApplyPreciseProtection
  maybeProgressConvergence
  maybeFinalizeEmpty
  awaitPeerTerminalProof
  maybeDeclareActive

def progress : M Unit := do
  maybeResolveDeferredContainment
  let w ← get
  if w.mem.needsHuman ≠ none then progressStopped
  else do
    enforceExitPolicy
    enforceTimers
    let w ← get
    if mayCreate w then maybeCreateAttempt else pure ()
    progressAttempt

/-! ## Entry points -/

inductive Event where
  | clockTick (now : Nat)
  | readinessFacts (now : Nat) (facts : Facts)
  | brokerSnapshot (now : Nat)
  | peerSession (now : Nat) (connected : Bool)
  | routeMetadata (now : Nat) (unpairing : Bool) (disagreement : Option String)
  | envelope (m : Message)
  | policy (p : Policy)
  | other
  deriving DecidableEq

def observeTime (now : Nat) : M Unit := modifyAux fun x => { x with now := max x.now now }

def recoverStops : M Unit := do
  recoverTerminalProofStop
  recoverTerminalizedContainmentStop
  recoverLatchedContainmentReplayStop

def peerSessionChanged (connected : Bool) : M Unit := do
  let w ← get
  modifyAux fun x => { x with peerSession := connected }
  if !connected then note "peer_session_lost"
  else if w.mem.aux.peerSession then pure ()
  else do
    probePeerTerminalProofNow
    recoverStops

/-- An authenticated envelope of the peer on this route. -/
def acceptRelayEnvelope (m : Message) : M Unit := do
  modifyAux fun x => { x with proofWaitStarted := none }
  match m with
  | .attempt a => handleAttempt a
  | .legStatus p => handlePeerLegStatus p
  | .legStatusRequest attemptId => handleLegStatusRequest attemptId
  | .pairEntryConfirmed attemptId => handlePairEntryConfirmed attemptId
  | .pairEntryFailed attemptId _ => handlePairEntryFailed attemptId
  | .other _ => pure ()

/-- Policy content changes only while the account is proven empty. -/
def policyChangeBlocked (w : World) : Bool := w.attemptUnresolved || !brokerVerifiedEmpty w

def acceptPolicy (p : Policy) : M Unit := do
  let w ← get
  if (w.mem.policy.map Policy.hash) = some p.hash then pure ()
  else if policyChangeBlocked w then note "policy_refused"
  else do
    emit (.savePolicy p)
    note "policy_accepted"

def observedSnapshot : M Unit := do
  let w ← get
  let s := w.script.reads.headD none
  emit (.brokerRead s)
  applyBrokerSnapshot (requestBrokerRead w.script.depth) s
  recoverStops

def dispatchEvent : Event → M Unit
  | .clockTick now => observeTime now
  | .readinessFacts now facts => do
      observeTime now
      modifyAux fun x => { x with localFacts := some facts }
  | .brokerSnapshot now => do
      observeTime now
      observedSnapshot
  | .peerSession now connected => do
      observeTime now
      peerSessionChanged connected
  | .routeMetadata now unpairing disagreement => do
      observeTime now
      modifyAux fun x =>
        { x with unpairing := unpairing, metadataReconciliation := disagreement }
  | .envelope m => acceptRelayEnvelope m
  | .policy p => acceptPolicy p
  | .other => pure ()

def handleEvent (ev : Event) : M Unit := do
  dispatchEvent ev
  progress

def recoverAttempt : M Unit := do
  let w ← get
  match w.mem.attempt, w.mem.leg with
  | some _, none => do
      note "recovered_attempt_without_local_leg"
      terminateAttempt .noLocalEffectWasEverPrepared
  | some _, some _ => do
      reconcileEntryEffectState
      let w ← get
      if w.mem.state = .active then pure ()
      else do
        note "recovery_containment"
        beginClose ⟨"unresolved_attempt_after_restart", false⟩
  | none, _ => pure ()

def readAndProgress : M Unit := do
  let w ← get
  if w.mem.attempt = none then pure ()
  else do
    readBroker
    progress

def recover : M Unit := do
  emit (.setRecovering true)
  recoverAttempt
  note "recovered"
  emit (.setRecovering false)
  recoverStops
  readAndProgress

def requestClose (reason : Reason) : M Unit := do
  beginClose reason
  readAndProgress

/-- A call of the cell object by the worker. -/
inductive Call where
  | event (ev : Event)
  | recover
  | requestClose (reason : Reason)
  deriving DecidableEq

def Call.run : Call → M Unit
  | .event ev => handleEvent ev
  | .recover => PairCell.recover
  | .requestClose reason => PairCell.requestClose reason

/-! ## Construction from a database -/

def newerRow (best : Option AttemptRow) (r : AttemptRow) : Option AttemptRow :=
  match best with
  | none => some r
  | some b => if b.createdAt ≤ r.createdAt then some r else some b

/-- The row `ORDER BY created_at DESC, rowid DESC LIMIT 1` selects. -/
def newestRow (rows : List AttemptRow) : Option AttemptRow := rows.foldl newerRow none

def routeRows (c : Config) (d : Disk) : List AttemptRow :=
  d.attempts.filter fun r => decide (r.attempt.routeId = c.routeId)

/-- An unresolved attempt of another route. -/
def foreignAttempt (c : Config) (d : Disk) : Option AttemptRow :=
  newestRow (d.attempts.filter fun r =>
    r.terminal.isNone && decide (r.attempt.routeId ≠ c.routeId))

def recoveredState (l : Leg) (desired : DesiredState) (active : Option Nat) : PairState :=
  if l.entryStatus = .unknownAfterSend then .entryUncertain
  else if desired = .empty then .convergingEmpty
  else if l.protectionStatus ≠ .rough ∧ active ≠ none then .active
  else if l.entryStatus = .filled then .awaitingPairConfirmation
  else .entering

/-- The attempt the loaded cell follows. -/
def loadedAttempt (c : Config) (d : Disk) : Option Attempt :=
  match newestRow (routeRows c d) with
  | some r => if r.terminal = none then some r.attempt else none
  | none => none

def lastTransitionAt (d : Disk) : Nat := (d.transitions.getLast?.map Transition.at_).getD 0

/-- What every construction loads. -/
def loadCommon (d : Disk) : Mem :=
  { needsHuman := d.stop, policy := d.policy, aux := { now := lastTransitionAt d } }

def shutdownMarked (d : Disk) (attemptId : Nat) : Bool :=
  d.transitions.any fun t =>
    decide (t.attemptId = some attemptId) &&
      match t.event with
      | .closeRequested reason => reason.shutdown
      | _ => false

def loadAttempt (d : Disk) (a : Attempt) (peer : PeerLegView) : Mem :=
  let leg := d.legs.get a.attemptId
  let desired := (d.desired.map DesiredRow.desired).getD .none
  let active := d.active.get a.attemptId
  let m := loadCommon d
  { m with
    attempt := some a, leg := leg, peerLeg := peer, desired := desired
    pairConfirmed := (d.desired.map DesiredRow.pairConfirmed).getD false
    activeSince := active, recovering := true
    state := match leg with
      | some l => recoveredState l desired active
      | none => .idle
    aux := { m.aux with
      operatorShutdownAttempts :=
        if shutdownMarked d a.attemptId then [a.attemptId] else [] } }

/-- The stored peer view, or nothing when its row is not one. -/
def loadPeer (d : Disk) (a : Attempt) : Option PeerLegView :=
  match d.peerLegs.get a.attemptId with
  | none => some {}
  | some (.view v) => some v
  | some (.raw _) => none

/--
`_load_persisted_state`.  A late status stored under the attempt's id does not
fit a peer view and makes the constructor raise.
-/
def load (c : Config) (d : Disk) : Option World :=
  let w : World := { cfg := c, disk := d, mem := loadCommon d }
  let w := match foreignAttempt c d with
    | some r =>
        let stop := Stop.foreignRoute r.attempt.attemptId
        if d.stop = some stop then w else w.act (.latch stop)
    | none => w
  match loadedAttempt c d with
  | none => some w
  | some a => (loadPeer d a).map fun peer =>
      { w with mem := { loadAttempt d a peer with needsHuman := w.mem.needsHuman } }

end PairCell
