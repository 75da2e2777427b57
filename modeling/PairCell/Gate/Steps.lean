import PairCell.Lib.Runs
import PairCell.Gate

/-!
# Events of the entry gate

The peer's envelopes, the events of the worker, the leader's decision, and the
restart of the process.
-/

namespace PairCell.Gate

open Lib

/-- `readiness`, as far as the gate reads it. -/
structure Readiness where
  ready : Bool
  policyHash : Option Nat
  policyAccepted : Bool
  brokerVerifiedEmpty : Bool
  deriving DecidableEq, Repr

inductive Message where
  | catalogSummary (workerId epoch : Nat)
  | remainingAllowance (summary : Allowance)
  | reseedRequest (nonce : Nat)
  | readiness (r : Readiness)
  | policyAck (policyHash : Nat) (accepted : Bool) (reason : String)
  | policy (p : Policy) (leaderBrokerVerifiedEmpty : Bool)
  | pairingAcceptance (workerId : Nat) (risk : Limits)
  | attempt (a : Attempt)
  | other (kind : Kind)
  deriving DecidableEq, Repr

def Message.kind : Message → Kind
  | .catalogSummary .. => .catalogSummary
  | .remainingAllowance _ => .remainingAllowance
  | .reseedRequest _ => .reseedRequest
  | .readiness _ => .readiness
  | .policyAck .. => .policyAck
  | .policy .. => .policy
  | .pairingAcceptance .. => .pairingAcceptance
  | .attempt _ => .attempt
  | .other kind => kind

structure Envelope where
  routeId : Nat
  fromWorkerId : Nat
  toWorkerId : Nat
  message : Message
  deriving DecidableEq, Repr

def cooldownProofRelayKinds : List Kind :=
  [.pairingAcceptance, .policy, .policyAck, .universe, .sizingPlans, .readiness,
    .remainingAllowance]

/-- How the work on an open attempt leaves the cell. -/
structure Work where
  state : PairState
  ended : Bool
  stop : Option String
  deriving DecidableEq, Repr

inductive Event where
  | clockTick (now : Nat)
  | readinessFacts (now : Nat) (facts : Facts)
  | peerSession (now : Nat) (connected : Bool)
  | realizedPnl (now day : Nat) (amount : Rat)
  | routeMetadata (now : Nat) (unpairing : Bool) (disagreement : Option String)
  | market (m : Market)
  | quarantine (products : List Nat) (symbols : List String)
  | acceptPolicy (p : Policy)
  | freezePairingAcceptance
  | worked (w : Work)
  /-- A transition that some other part of the cell writes. -/
  | noted
  | envelope (e : Envelope)

namespace Cell

variable (c : Cell)

/-! ## Epochs and allowances -/

def sawEpoch (epoch : Nat) : Cell := { c with epochsSeen := epoch :: c.epochsSeen }

/-- Fail closed: a summary of the peer's previous session may be larger than what it
accepts now. -/
def advanceEpoch (epoch : Nat) : Cell :=
  { c with
    peerPublisherEpoch := epoch, received := []
    peerAllowance := c.peerAllowance.filter fun a => !decide (a.publisherEpoch < epoch) }

/-- A greater peer epoch means that the peer was rebuilt. -/
def notePeerPublisherEpoch (epoch : Nat) : Cell :=
  let c' := c.sawEpoch epoch
  if epoch ≤ c.peerPublisherEpoch then c'
  else
    let c' := c'.advanceEpoch epoch
    if c.peerPublisherEpoch = 0 then c'.transition .other
    else (c'.transition .other).noteCooldownTrigger.transition .other

def hear (s : Allowance) : Cell := { c with received := s :: c.received }

/-- A summary not after the held one is ignored. -/
def takeAllowance (s : Allowance) : Cell :=
  if c.peerAllowance.any fun held => s.notAfter held then c.hear s
  else { c.hear s with peerAllowance := some s }

def acceptPeerAllowance (s : Allowance) : Cell :=
  if s.workerId ≠ c.cfg.peerWorkerId ∨ s.publisherEpoch = 0 ∨ s.version = 0 then c
  else (c.notePeerPublisherEpoch s.publisherEpoch).takeAllowance s

def acceptPeerCatalog (workerId epoch : Nat) : Cell :=
  if workerId ≠ c.cfg.peerWorkerId then c else c.notePeerPublisherEpoch epoch

/-- Answered once per nonce; the last 64 are remembered. -/
def acceptReseedRequest (nonce : Nat) : Cell :=
  if nonce ∈ c.servedReseedNonces then c
  else
    let served := c.servedReseedNonces ++ [nonce]
    let c := { c with servedReseedNonces := served.drop (served.length - 64) }
    (c.transition .other).noteCooldownTrigger

def acceptPeerReadiness (r : Readiness) : Cell :=
  let hash := match r.policyHash, r.policyAccepted with
    | some h, true => some h
    | _, false => none
    | none, true => c.peerPolicyHash
  { c with peerReady := r.ready, peerPolicyHash := hash,
           peerEmptyClaim := r.brokerVerifiedEmpty }

def acceptPolicyAck (policyHash : Nat) (accepted : Bool) (reason : String) : Cell :=
  if c.cfg.role ≠ .leader then c
  else if accepted then { c with peerPolicyHash := some policyHash }
  else
    let c := { c with peerPolicyHash := none }
    if reason = "" then c else { c with peerReady := false }

/-- Policy content may only change while both accounts are proven empty. -/
def policyChangeBlocked : Option String :=
  firstRefusal
    [ refuseIf c.attemptUnresolved "an attempt is unresolved",
      refuseIf (!c.brokerVerifiedEmpty) "this account is not broker-verified empty",
      refuseIf (decide (c.cfg.role = .leader) && !c.peerEmptyClaim)
        "the peer account is not broker-verified empty" ]

def persistPolicy (p : Policy) : Cell :=
  { c with policy := some p, disk := { c.disk with policy := some p } }.transition .other

/-- A refusal raises and changes nothing. -/
def acceptPolicy (p : Policy) : Cell :=
  let expectedLeader := c.cfg.declaredLimits.withUnifiedBudget p.strategyBudgetUsd
  let expectedFollower := c.peerAcceptance.map fun r =>
    r.withUnifiedBudget p.strategyBudgetUsd
  if c.cfg.role ≠ .leader ∨ p.leaderRisk ≠ expectedLeader ∨
      some p.followerRisk ≠ expectedFollower then c
  else if c.policy.map Policy.hash = some p.hash ∨ c.policyChangeBlocked ≠ none then c
  else c.persistPolicy p

def acceptLeaderPolicy (p : Policy) (leaderBrokerVerifiedEmpty : Bool) : Cell :=
  let expected := c.localAcceptance.map fun r => r.withUnifiedBudget p.strategyBudgetUsd
  if c.cfg.role ≠ .follower ∨ c.policy.map Policy.hash = some p.hash then c
  else if some p.followerRisk ≠ expected ∨ c.policyChangeBlocked ≠ none ∨
      leaderBrokerVerifiedEmpty = false then c
  else c.persistPolicy p

def acceptPairingAcceptance (workerId : Nat) (risk : Limits) : Cell :=
  if c.cfg.role ≠ .leader then c
  else if workerId ≠ c.cfg.peerWorkerId then c.transition .other
  else
    { c with peerAcceptance := some risk
             disk := { c.disk with peerAcceptance := some risk } }.transition .other

def freezePairingAcceptance : Cell :=
  if c.cfg.role ≠ .follower then c
  else
    let limits := some c.cfg.declaredLimits
    { c with localAcceptance := limits
             disk := { c.disk with localAcceptance := limits } }.transition .other

/-! ## Opening an attempt -/

def follow (a : Attempt) : Cell :=
  { c with
    attempt := some a, state := .entering
    disk := { c.disk with attempts := c.disk.attempts ++ [AttemptRow.mk a false] } }

/-- Follow the attempt and keep its row. -/
def openAttempt (a : Attempt) (event : Noted) : Cell := (c.follow a).transition event

def handleAttempt (x : Inputs) (a : Attempt) : Cell :=
  if c.cfg.role ≠ .follower then c
  else if c.disk.attempts.any fun r => decide (r.attempt.attemptId = a.attemptId) then
    c.transition .other
  else
    match c.attemptAdmissionReason x a with
    | some _ =>
        { c with disk := { c.disk with
            attempts := c.disk.attempts ++ [AttemptRow.mk a true] } }.transition .other
    | none => c.openAttempt a (.attemptAdmitted a.attemptId)

/-- The common lots and both plans for a product and the leader's direction. -/
def pairLots (productId : Nat) (direction : Direction) :
    Option (Rat × SizingPlan × SizingPlan) := do
  let leaderPlan ← c.currentPlan productId direction
  let followerPlan ← c.currentPeerPlan productId (mirror direction)
  let lots ← combinePairLots leaderPlan followerPlan
  some (lots, leaderPlan, followerPlan)

/-- The attempt the leader decides, when every precondition holds. -/
def decideAttempt (x : Inputs) : Option Attempt := do
  let policy ← c.policy
  let u ← c.market.universe?
  if c.cfg.role ≠ .leader then none
  else if c.localReady x ≠ none ∨ c.peerReady = false ∨ c.peerSession = false then none
  else if c.peerPolicyHash ≠ some policy.hash then none
  else
    -- a current peer summary is required before an attempt exists
    let peer ← c.peerAllowance
    if peer.publisherEpoch < c.peerPublisherEpoch then none
    else
      let k ← x.candidate
      let (lots, leaderPlan, followerPlan) ← c.pairLots k.productId k.leaderDirection
      let followerDirection := mirror k.leaderDirection
      let leaderAllowed := c.allowedLegLossUsd
      let followerAllowed :=
        min peer.allowedLegLossUsd (policy.riskOf .follower).legLossCapUsd
      if leaderAllowed ≤ 0 ∨ followerAllowed ≤ 0 then none
      else
        let leaderRough ← computeProtection (entryPrice k.leaderQuote k.leaderDirection)
          k.leaderDirection lots leaderPlan leaderAllowed
        let followerRough ← computeProtection
          (entryPrice k.followerQuote followerDirection)
          followerDirection lots followerPlan followerAllowed
        some
          { attemptId := k.attemptId, policyHash := policy.hash, routeId := c.cfg.routeId
            universeGeneration := u.generation, productId := k.productId
            symbol := leaderPlan.symbol, leaderDirection := k.leaderDirection
            followerDirection := followerDirection, lots := some lots
            leaderQuote := k.leaderQuote, followerQuote := k.followerQuote
            leaderPlanVersion := leaderPlan, followerPlanVersion := followerPlan
            leaderAllowanceEpoch := c.disk.publisherEpoch
            followerAllowanceEpoch := peer.publisherEpoch
            leaderAllowanceVersion := c.allowanceVersion
            followerAllowanceVersion := peer.version
            leaderAllowedLossUsd := some leaderAllowed
            followerAllowedLossUsd := some followerAllowed
            leaderRough := (some leaderRough.1, some leaderRough.2)
            followerRough := (some followerRough.1, some followerRough.2)
            fillingMode := leaderPlan.fillingMode, decisionTime := c.now
            confirmationTimeout := policy.followerConfirmationTimeout }

def maybeCreateAttempt (x : Inputs) : Cell :=
  match c.decideAttempt x with
  | none => c
  | some a => c.openAttempt a (.attemptCreated a.attemptId)

/-! ## Events -/

def progress (x : Inputs) : Cell :=
  if c.needsHuman.isSome then { c with state := .needsHuman }
  else if c.cfg.role = .leader ∧ c.unpairing = false ∧ c.attempt = none ∧
      (c.state = .idle ∨ c.state = .empty) then c.maybeCreateAttempt x
  else c

def observeTime (now : Nat) : Cell := { c with now := max c.now now }

/-- Fail closed: the peer may be rebuilt behind the outage. -/
def loseSession : Cell :=
  { c with peerSession := false, peerReady := false, peerAllowance := none,
           received := [] }

def peerSessionChanged (connected : Bool) : Cell :=
  if !connected then (c.loseSession.transition .other).noteCooldownTrigger
  else if c.peerSession then c
  else ({ c with peerSession := true }.transition .other).noteCooldownTrigger

def settle (attemptId : Nat) (r : AttemptRow) : AttemptRow :=
  if r.attempt.attemptId = attemptId then { r with terminal := true } else r

/-- The work on the open attempt moves its state label, ends it or latches a stop. -/
def worked (w : Work) : Cell :=
  let c :=
    { c with needsHuman := w.stop, state := w.state,
             disk := { c.disk with stop := w.stop } }
  match c.attempt, w.ended with
  | some a, true =>
      { c with
        attempt := none, state := .empty
        disk :=
          { c.disk with attempts := c.disk.attempts.map (settle a.attemptId) } }.transition
        .other
  | _, _ => c

def dispatchMessage (x : Inputs) : Message → Cell
  | .catalogSummary workerId epoch => c.acceptPeerCatalog workerId epoch
  | .remainingAllowance s => c.acceptPeerAllowance s
  | .reseedRequest nonce => c.acceptReseedRequest nonce
  | .readiness r => c.acceptPeerReadiness r
  | .policyAck policyHash accepted reason => c.acceptPolicyAck policyHash accepted reason
  | .policy p empty => c.acceptLeaderPolicy p empty
  | .pairingAcceptance workerId risk => c.acceptPairingAcceptance workerId risk
  | .attempt a => c.handleAttempt x a
  | .other _ => c

def handshake : Cell := { c with handshakes := c.now :: c.handshakes }.noteCooldownProof

/-- The envelope comes from the peer of this route and is addressed to this worker. -/
def authentic (e : Envelope) : Bool :=
  decide (e.routeId = c.cfg.routeId ∧ e.fromWorkerId = c.cfg.peerWorkerId ∧
    e.toWorkerId = c.cfg.workerId)

def acceptRelayEnvelope (x : Inputs) (e : Envelope) : Cell :=
  if e.routeId ≠ c.cfg.routeId then c.transition .other
  else if !c.authentic e then c
  else
    let c := if e.message.kind ∈ cooldownProofRelayKinds then c.handshake else c
    c.dispatchMessage x e.message

def dispatchEvent (x : Inputs) : Event → Cell
  | .clockTick now => c.observeTime now
  | .readinessFacts now facts => { c.observeTime now with localFacts := some facts }
  | .peerSession now connected => (c.observeTime now).peerSessionChanged connected
  | .realizedPnl now day amount =>
      let c := c.observeTime now
      { c with
        disk := { c.disk with realized := c.disk.realized ++ [(day, amount)] } }.transition
        .other
  | .routeMetadata now unpairing disagreement =>
      { c.observeTime now with unpairing := unpairing,
                               metadataReconciliation := disagreement }
  | .market m => { c with market := m }
  | .quarantine products symbols =>
      { c with
        disk := { c.disk with quarantined := products, quarantinedSymbols := symbols } }
  | .acceptPolicy p => c.acceptPolicy p
  | .freezePairingAcceptance => c.freezePairingAcceptance
  | .worked w => c.worked w
  | .noted => c.transition .other
  | .envelope e => c.acceptRelayEnvelope x e

def handleEvent (x : Inputs) (ev : Event) : Cell := (c.dispatchEvent x ev).progress x

/-! ## Restart -/

/-- The newest row of the route, when it is still open. -/
def openRow : Option Attempt :=
  let own := c.disk.attempts.filter fun r => decide (r.attempt.routeId = c.cfg.routeId)
  (own.getLast?.filter fun r => !r.terminal).map AttemptRow.attempt

/-- Construction from the database; what is not stored starts over. -/
def reopen (m : Market) : Cell :=
  { cfg := c.cfg, disk := { c.disk with publisherEpoch := c.disk.publisherEpoch + 1 }
    now := (c.disk.transitions.getLast?.map Transition.at_).getD 0
    cooldown := c.disk.cooldown, policy := c.disk.policy
    localAcceptance := c.disk.localAcceptance, peerAcceptance := c.disk.peerAcceptance
    market := m, attempt := c.openRow,
    state := if c.openRow.isSome then .entering else .idle
    recovering := c.openRow.isSome, needsHuman := c.disk.stop
    handshakes := c.handshakes, epochsSeen := c.epochsSeen }

/-- `recover` up to its first progress; what becomes of an open attempt is an input. -/
def recovered (w : Work) : Cell :=
  (({ c.worked w with recovering := false }.transition
    .other).noteCooldownTrigger).transition .other

def recover (x : Inputs) (w : Work) : Cell :=
  let c := c.recovered w
  if c.attempt.isSome then c.progress x else c

end Cell

inductive Label where
  | event (x : Inputs) (ev : Event)
  | restart (x : Inputs) (m : Market) (w : Work)

/-- A restarted worker recovers before it handles anything. -/
def next (c : Cell) : Label → Cell
  | .event x ev => c.handleEvent x ev
  | .restart x m w => (c.reopen m).recover x w

def fresh (cfg : Config) : Cell := { cfg := cfg, disk := { publisherEpoch := 1 } }

def Step (c : Cell) (l : Label) (c' : Cell) : Prop := c' = next c l

end PairCell.Gate
