import PairCell.Entry
import PairCell.Gate.Sizing

/-!
# The entry gate of a cell

What decides whether a cell may open an attempt: the accepted policy and the
loss it still allows, the peer's session, readiness, publisher epoch and
remaining allowance, and the quiet window after a reconnect.  The leader's
decision and the follower's admission are made from these; the work on an open
attempt is an input here.
-/

namespace PairCell.Gate

/-! ## Risk configuration -/

structure Limits where
  strategyBudgetUsd : Rat
  maximumMarginFraction : Rat
  maximumLossPerTradeUsd : Rat
  dailyLossFraction : Rat
  tradeLossFraction : Rat
  deriving DecidableEq, Repr

namespace Limits

def dailyLossLimitUsd (l : Limits) : Rat := l.strategyBudgetUsd * l.dailyLossFraction

def tradeLossLimitUsd (l : Limits) : Rat := l.strategyBudgetUsd * l.tradeLossFraction

def legLossCapUsd (l : Limits) : Rat := min l.tradeLossLimitUsd l.maximumLossPerTradeUsd

/-- A unified budget replaces the sizing base; 0 leaves each leg its own. -/
def withUnifiedBudget (authored : Limits) (unified : Rat) : Limits :=
  if unified = 0 then authored else { authored with strategyBudgetUsd := unified }

end Limits

structure Policy where
  hash : Nat
  strategyBudgetUsd : Rat
  leaderRisk : Limits
  followerRisk : Limits
  /-- Durations are in microseconds, the resolution of the cell's clock. -/
  postReconnectCooldown : Nat
  planRetention : Nat
  followerConfirmationTimeout : Nat
  deriving DecidableEq, Repr

def Policy.riskOf (p : Policy) : Role → Limits
  | .leader => p.leaderRisk
  | .follower => p.followerRisk

structure Config where
  workerId : Nat
  peerWorkerId : Nat
  routeId : Nat
  role : Role
  declaredLimits : Limits
  dailyLossWarningThresholdUsd : Rat
  nyDay : Nat → Nat

/-! ## What the cell keeps -/

structure Allowance where
  workerId : Nat
  publisherEpoch : Nat
  version : Nat
  allowedLegLossUsd : Rat
  deriving DecidableEq, Repr

/-- The order of `(publisher_epoch, version)`. -/
def Allowance.notAfter (a b : Allowance) : Bool :=
  decide (a.publisherEpoch < b.publisherEpoch) ||
    (decide (a.publisherEpoch = b.publisherEpoch) && decide (a.version ≤ b.version))

structure Universe where
  generation : Nat
  products : List Nat
  deriving DecidableEq, Repr

structure PlanRow where
  plan : SizingPlan
  supersededAt : Option Nat
  deriving DecidableEq, Repr

/-- What discovery and the sizing plans of both sides currently are. -/
structure Market where
  universe? : Option Universe := none
  discoveryReason : String := ""
  rediscoveryPending : Bool := false
  plans : List SizingPlan := []
  planRows : List PlanRow := []
  peerPlans : List SizingPlan := []
  peerPlanIndex : List SizingPlan := []
  deriving DecidableEq, Repr

structure AttemptRow where
  attempt : Attempt
  terminal : Bool
  deriving DecidableEq, Repr

/-- The transitions that a reader of the history looks for here. -/
inductive Noted where
  | cooldownStarted
  | attemptCreated (attemptId : Nat)
  | attemptAdmitted (attemptId : Nat)
  | other
  deriving DecidableEq, Repr

structure Transition where
  event : Noted
  at_ : Nat
  deriving DecidableEq, Repr

structure Cooldown where
  flapAt : Nat
  proofAt : Option Nat
  deriving DecidableEq, Repr

structure Disk where
  publisherEpoch : Nat := 0
  policy : Option Policy := none
  cooldown : Option Cooldown := none
  realized : List (Nat × Rat) := []
  stop : Option String := none
  attempts : List AttemptRow := []
  quarantined : List Nat := []
  /-- Quarantine keys that are bare symbols. -/
  quarantinedSymbols : List String := []
  localAcceptance : Option Limits := none
  peerAcceptance : Option Limits := none
  transitions : List Transition := []

/--
The cell object.  `handshakes`, `received` and `epochsSeen`, which nothing in the
worker reads, are the times at which a peer handshake arrived, the allowance
summaries received since the last reset, and every peer epoch ever seen.
-/
structure Cell where
  cfg : Config
  disk : Disk := {}
  now : Nat := 0
  peerSession : Bool := true
  peerReady : Bool := false
  peerPolicyHash : Option Nat := none
  peerPublisherEpoch : Nat := 0
  allowanceVersion : Nat := 0
  peerAllowance : Option Allowance := none
  cooldown : Option Cooldown := none
  policy : Option Policy := none
  /-- The risk blocks of the pairing acceptance: this worker's own and the peer's. -/
  localAcceptance : Option Limits := none
  peerAcceptance : Option Limits := none
  peerEmptyClaim : Bool := false
  market : Market := {}
  attempt : Option Attempt := none
  state : PairState := .idle
  needsHuman : Option String := none
  recovering : Bool := false
  metadataReconciliation : Option String := none
  unpairing : Bool := false
  localFacts : Option Facts := none
  servedReseedNonces : List Nat := []
  handshakes : List Nat := []
  received : List Allowance := []
  epochsSeen : List Nat := []

/-! ## Inputs -/

/-- The candidate the leader ranks first. -/
structure Candidate where
  attemptId : Nat
  productId : Nat
  leaderDirection : Direction
  leaderQuote : Quote
  followerQuote : Quote
  deriving DecidableEq, Repr

structure Inputs where
  /-- The blackout that currently forbids trading. -/
  blackout : Option String := none
  /-- Why the journal does not let an entry start. -/
  journalRefusal : Option String := none
  /-- Exposure on the account that is not this attempt's own leg. -/
  unownedExposure : Option String := none
  candidate : Option Candidate := none

namespace Cell

variable (c : Cell)

def transition (event : Noted) : Cell :=
  { c with disk := { c.disk with transitions := c.disk.transitions ++ [⟨event, c.now⟩] } }

/-! ## The quiet window -/

def noteCooldownTrigger : Cell :=
  let row : Cooldown := ⟨c.now, none⟩
  { c with cooldown := some row, disk := { c.disk with cooldown := some row } }.transition
    .cooldownStarted

/-- Only the first proof of an episode is written to the database. -/
def noteCooldownProof : Cell :=
  match c.cooldown with
  | none => c
  | some row =>
      let row' : Cooldown := { row with proofAt := some c.now }
      match row.proofAt with
      | none =>
          { c with cooldown := some row', disk := { c.disk with cooldown := some row' } }
      | some _ => { c with cooldown := some row' }

def defaultPostReconnectCooldown : Nat := 300000000

def cooldownLength : Nat :=
  match c.policy with
  | none => defaultPostReconnectCooldown
  | some policy => policy.postReconnectCooldown

def reconnectCooldownReason : Option String :=
  match c.cooldown with
  | none => none
  | some row =>
      if c.cooldownLength = 0 then none
      else if c.now < row.flapAt + c.cooldownLength then
        some ("peer reconnect cooldown until " ++ toString (row.flapAt + c.cooldownLength))
      else
        match row.proofAt with
        | none => some "peer reconnect cooldown awaiting fresh peer handshake"
        | some proofAt =>
            refuseIf (decide (proofAt ≤ row.flapAt))
              "peer reconnect cooldown awaiting fresh peer handshake"

/-! ## Local risk -/

def limits : Option Limits := c.policy.map fun p => p.riskOf c.cfg.role

def riskConfigurationDrift : Option String :=
  match c.policy with
  | none => none
  | some policy =>
      refuseIf (decide (policy.riskOf c.cfg.role ≠
          c.cfg.declaredLimits.withUnifiedBudget policy.strategyBudgetUsd))
        "the local risk configuration does not match the accepted canonical policy"

def accumulatedRealizedLossUsd : Rat :=
  let day := c.cfg.nyDay c.now
  max 0 (-((c.disk.realized.filter fun r => decide (r.1 = day)).map Prod.snd).sum)

def remainingDailyLossAllowanceUsd : Rat :=
  match c.limits, c.riskConfigurationDrift with
  | some limits, none => max 0 (limits.dailyLossLimitUsd - c.accumulatedRealizedLossUsd)
  | _, _ => 0

def allowedLegLossUsd : Rat :=
  match c.limits, c.riskConfigurationDrift with
  | some limits, none => min limits.legLossCapUsd c.remainingDailyLossAllowanceUsd
  | _, _ => 0

/-! ## Readiness -/

def brokerVerifiedEmpty : Bool :=
  match c.localFacts with
  | some ⟨some [], some [], connected, _⟩ => connected
  | _ => false

def attemptUnresolved : Bool :=
  c.attempt.isSome && decide (c.state ≠ .empty ∧ c.state ≠ .idle)

def factsRefusal (x : Inputs) : Option String :=
  match c.localFacts with
  | none => some "no local readiness facts observed yet"
  | some facts =>
      firstRefusal
        [ refuseIf (!facts.terminalConnected) "terminal disconnected",
          refuseIf (facts.orders.isNone || facts.positions.isNone)
            "broker order/position read unavailable",
          x.unownedExposure,
          refuseIf (!facts.marginHeadroomOk) "insufficient margin headroom" ]

def metadataRefusal : Option String :=
  c.metadataReconciliation.map ("route metadata reconciliation: " ++ ·)

def localReady (x : Inputs) : Option String :=
  let remaining := c.remainingDailyLossAllowanceUsd
  firstRefusal
    [ refuseIf c.needsHuman.isSome "operator intervention is required",
      refuseIf c.recovering "recovering durable state after restart",
      c.metadataRefusal,
      refuseIf c.unpairing "the route is UNPAIRING",
      refuseIf (!c.peerSession) "authenticated peer session lost",
      refuseIf c.market.universe?.isNone
        ("no discovered universe: " ++ c.market.discoveryReason),
      refuseIf c.market.rediscoveryPending "an explicit rediscovery is in progress",
      refuseIf c.policy.isNone "no canonical strategy policy is accepted",
      c.riskConfigurationDrift,
      x.blackout,
      refuseIf (decide (0 < remaining ∧ remaining ≤ c.cfg.dailyLossWarningThresholdUsd))
        ("the New York daily-loss warning threshold is reached (remaining $" ++
          toString remaining ++ ", threshold $" ++
          toString c.cfg.dailyLossWarningThresholdUsd ++
          ")"),
      c.factsRefusal x,
      x.journalRefusal,
      refuseIf c.market.plans.isEmpty "no discovered product has a valid sizing plan",
      refuseIf (decide (c.allowedLegLossUsd ≤ 0))
        "the New York daily realized-loss allowance is exhausted",
      refuseIf c.attemptUnresolved "an attempt is unresolved",
      c.reconnectCooldownReason ]

/-! ## The follower's admission -/

def currentPlan (productId : Nat) (direction : Direction) : Option SizingPlan :=
  c.market.plans.find? fun p => decide (p.productId = productId ∧ p.direction = direction)

def currentPeerPlan (productId : Nat) (direction : Direction) : Option SizingPlan :=
  c.market.peerPlans.find? fun p =>
    decide (p.productId = productId ∧ p.direction = direction)

/-- A superseded version still inside its retention window. -/
def retainedPlan (version : SizingPlan) : Option SizingPlan :=
  match c.policy, c.market.planRows.find? fun r => decide (r.plan = version) with
  | some policy, some ⟨plan, some supersededAt⟩ =>
      if policy.planRetention < c.now - supersededAt then none else some plan
  | _, _ => none

/-- The current plan for this leg, or a retained superseded version. -/
def planForValidation (productId : Nat) (direction : Direction) (version : SizingPlan) :
    Option SizingPlan :=
  if c.currentPlan productId direction = some version then some version
  else (c.retainedPlan version).filter fun p =>
    decide (p.productId = productId ∧ p.direction = direction)

/-- The stop and the target of the payload can be attached to the initial order. -/
def roughProtectionAttachable (a : Attempt) (plan : SizingPlan) : Bool :=
  let entry := entryPrice a.followerQuote a.followerDirection
  match a.followerRough, plan.minimumStopDistance with
  | (some sl, some tp), some minimum =>
      decide (0 < sl ∧ 0 < tp) &&
        (match a.followerDirection with
          | .long => decide (sl < entry ∧ entry < tp)
          | .short => decide (tp < entry ∧ entry < sl)) &&
        decide (minimum ≤ |entry - sl| ∧ minimum ≤ |tp - entry|)
  | _, _ => false

/-- The checks made with the follower's own plan of the named version. -/
def planRefusal (a : Attempt) (plan : SizingPlan) : Option String :=
  firstRefusal
    [ refuseIf (decide (plan.symbol ≠ a.symbol)) "local symbol does not match the attempt",
      match a.allowedLossOf .follower with
      | none => some "the attempt assigns no usable allowed leg loss"
      | some allowed =>
          firstRefusal
            [ refuseIf (decide (allowed ≤ 0))
              "the attempt assigns no usable allowed leg loss",
              refuseIf (decide (c.allowedLegLossUsd < allowed))
                "the assigned leg loss exceeds this Worker's current local remaining allowance" ],
      if a.leaderPlanVersion ∈ c.market.peerPlanIndex then
        refuseIf
          (match combinePairLots a.leaderPlanVersion plan with
            | none => true
            | some lots => decide (a.lots ≠ some lots))
          "common lots differ from the pair plan of the named plan version"
      else some "no cached leader plan exists for the named sizing-plan version",
      refuseIf (!roughProtectionAttachable a plan)
        "valid rough emergency protection cannot be attached to the initial order" ]

def universeRefusal (a : Attempt) : Option String :=
  match c.market.universe? with
  | none => some "no discovered universe is installed"
  | some u =>
      refuseIf (decide (a.universeGeneration ≠ u.generation))
        "the attempt names another universe_generation"

def policyRefusal (a : Attempt) : Option String :=
  match c.policy with
  | none => some "no canonical strategy policy is accepted"
  | some policy =>
      refuseIf (decide (a.policyHash ≠ policy.hash))
        "policy hash is not the exact locally accepted hash"

/-- A key of an older revision covers every product on its symbol. -/
def quarantineReason (a : Attempt) : Option String :=
  firstRefusal
    [ refuseIf (decide (a.productId ∈ c.disk.quarantined)) "product is quarantined",
      refuseIf (decide (a.symbol ∈ c.disk.quarantinedSymbols))
        ("a symbol-wide quarantine on " ++ a.symbol ++ " covers this product") ]

/-- Why the follower does not admit the attempt. -/
def attemptAdmissionReason (x : Inputs) (a : Attempt) : Option String :=
  firstRefusal
    [ refuseIf (decide (a.routeId ≠ c.cfg.routeId)) "the attempt names another route",
      refuseIf c.unpairing "the route is UNPAIRING",
      c.metadataRefusal,
      c.universeRefusal a,
      c.policyRefusal a,
      refuseIf c.attemptUnresolved "an earlier attempt is still unresolved",
      c.quarantineReason a,
      (c.localReady x).map ("follower not ready: " ++ ·),
      refuseIf (!c.brokerVerifiedEmpty) "follower is not broker-verified empty",
      refuseIf (!(c.market.universe?.any fun u => decide (a.productId ∈ u.products)))
        "selected product identity is not locally eligible",
      match c.planForValidation a.productId a.followerDirection a.followerPlanVersion with
      | none =>
          if c.currentPlan a.productId a.followerDirection = none then
            some "selected product or direction is not locally eligible"
          else some "sizing-plan version is neither current nor a retained superseded version"
      | some plan => c.planRefusal a plan ]

end Cell

end PairCell.Gate
