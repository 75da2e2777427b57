import Mathlib.Data.List.Sort
import PairCell.Types

/-!
# The market side of a cell

What a cell knows of the shared products: its catalog and its peer's, the
discovered universe and the candidates for the next one, the sizing plans of
both sides and what was last published of them.  The functions are those of
`pair_cell.py` between discovery and publication, with the part of the attempt
bookkeeping that names plans.

A hash stands for the content it is taken of, so a plan version is the plan and
a catalog hash the catalog.  Times are microseconds.  `out` holds the envelopes
handed to the relay and not yet delivered, oldest first.
-/

namespace PairCell.Market

/-! ## Data -/

/-- A catalog entry by its canonical text. -/
abbrev CatalogEntry := String

structure CatalogSummary where
  publisherEpoch : Nat
  version : Nat
  entries : List CatalogEntry
  deriving DecidableEq, Repr

/-- `ordering`: a rebuilt publisher restarts its versions under a greater epoch. -/
def CatalogSummary.after (new old : CatalogSummary) : Bool :=
  decide (old.publisherEpoch < new.publisherEpoch) ||
    (decide (old.publisherEpoch = new.publisherEpoch) &&
      decide (old.version < new.version))

structure DiscoveredProduct where
  productId : String
  summary : String
  deriving DecidableEq, Repr

structure DiscoveredUniverse where
  universeGeneration : Nat
  products : List DiscoveredProduct
  leaderCatalog : CatalogSummary
  followerCatalog : CatalogSummary
  deriving DecidableEq, Repr

/-- The result of one compatibility run; it is admitted when it gives no reason. -/
structure DiscoveryOutcome where
  products : List DiscoveredProduct
  reason : String
  deriving DecidableEq, Repr

def DiscoveryOutcome.admitted (o : DiscoveryOutcome) : Bool := o.reason.isEmpty

structure SizingPlan where
  universeGeneration : Nat
  productId : String
  symbol : String
  direction : Direction
  marginPerLot : String
  localMaxLots : String
  canonicalPoint : String
  point : String
  tickSize : String
  profitTickValue : String
  lossTickValue : String
  volumeMin : String
  volumeStep : String
  volumeMax : String
  fillingMode : String
  minimumStopDistance : String
  usdPerPointPerLot : String
  deriving DecidableEq, Repr

/-- The identity of one plan: a hash of all its fields. -/
abbrev PlanVersion := SizingPlan

/-- The identity of a plan set on the relay: a hash that leaves the margins out. -/
abbrev PlanSetVersion := List SizingPlan

namespace SizingPlan

def version (p : SizingPlan) : PlanVersion := p

def key (p : SizingPlan) : String × Direction := (p.productId, p.direction)

/-- The order of `sorted(plans.items())`: by product, long before short. -/
def le (p q : SizingPlan) : Bool :=
  decide (p.productId < q.productId) ||
    (decide (p.productId = q.productId) && (p.direction == .long || q.direction == .short))

def stripped (p : SizingPlan) : SizingPlan := { p with marginPerLot := "" }

end SizingPlan

def planSetVersionOf (canonical : List SizingPlan) : PlanSetVersion :=
  canonical.map (·.stripped)

def sortedPlans (plans : List SizingPlan) : List SizingPlan :=
  plans.insertionSort fun p q => p.le q = true

structure StrategyPolicy where
  hash : Nat
  /-- `plan_retention_seconds` -/
  planRetention : Rat
  deriving DecidableEq, Repr

def mirror : Direction → Direction
  | .long => .short
  | .short => .long

/-- The part of an attempt that fences it to one discovery result and names its plans. -/
structure Attempt where
  attemptId : Nat
  policyHash : Nat
  universeGeneration : Nat
  productId : String
  symbol : String
  leaderDirection : Direction
  followerDirection : Direction
  leaderPlanVersion : PlanVersion
  followerPlanVersion : PlanVersion
  deriving DecidableEq, Repr

namespace Attempt

def directionOf (a : Attempt) : Role → Direction
  | .leader => a.leaderDirection
  | .follower => a.followerDirection

def planVersionOf (a : Attempt) : Role → PlanVersion
  | .leader => a.leaderPlanVersion
  | .follower => a.followerPlanVersion

end Attempt

/-- A row of `cell_attempts`. -/
structure AttemptRow where
  attempt : Attempt
  createdAt : Nat
  terminal : Bool
  deriving DecidableEq, Repr

/-- A row of `cell_sizing_plans`, keyed by the plan version. -/
structure PlanRow where
  plan : SizingPlan
  generation : Nat
  supersededAt : Option Nat
  deriving DecidableEq, Repr

/-- A row of `cell_peer_sizing_plans`, keyed by the plan version. -/
structure PeerPlanRow where
  plan : SizingPlan
  generation : Nat
  planSetVersion : PlanSetVersion
  current : Bool
  deriving DecidableEq, Repr

structure Readiness where
  ready : Bool
  policyHash : Option Nat
  brokerVerifiedEmpty : Bool
  nothingUnresolved : Bool
  universeGeneration : Option Nat
  deriving DecidableEq, Repr

inductive Message where
  | catalogSummary (catalog : CatalogSummary)
  | discovered (candidate : DiscoveredUniverse)
  | rediscoveryRequest (requestId : Nat)
  | rediscoveryResult (ok : Bool) (reason : String) (generation : Option Nat)
      (hash : Option DiscoveredUniverse) (requestId : Option Nat)
  | reseedRequest (nonce : Nat)
  | remainingAllowance (publisherEpoch version allowed : Nat)
  | sizingPlans (planSetVersion : PlanSetVersion) (generation : Option Nat)
      (index count : Nat)
      (plans : List SizingPlan)
  | readiness (payload : Readiness)
  | attempt (payload : Attempt)
  -- quotes, policy exchange, acceptances and leg statuses
  | other
  deriving DecidableEq, Repr

/-- The recorded answer to a rediscovery request. -/
inductive Answer where
  | discovered (candidate : DiscoveredUniverse)
  | failed (reason : String) (generation : Option Nat)
  deriving DecidableEq, Repr

def Answer.message (requestId : Nat) : Answer → Message
  | .discovered u => .discovered u
  | .failed reason generation =>
      .rediscoveryResult false reason generation none (some requestId)

/-- What the parts of the cell outside this model answer during one call. -/
structure Facts where
  brokerVerifiedEmpty : Bool
  journalResolved : Bool
  -- the gates of `_local_ready` that read nothing kept here
  ready : Bool
  -- the admission checks that read nothing kept here
  admits : Bool
  allowedLegLoss : Nat
  asksReseed : Bool
  deriving DecidableEq, Repr

/-- The result of pricing the universe: at most one plan for each product and direction. -/
structure BuiltPlans where
  plans : List SizingPlan
  suspended : List String
  distinct : (plans.map SizingPlan.key).Nodup
  deriving DecidableEq, Repr

/-- The product and direction a leader decides to enter, and whether its effect was
prepared. -/
structure Candidate where
  attemptId : Nat
  productId : String
  direction : Direction
  prepared : Bool
  deriving DecidableEq, Repr

/-- The parts of `_progress` that touch what is modelled here. -/
inductive Op where
  | installPending
  | deadline
  | refresh (built : BuiltPlans)
  | publish
  | create (candidate : Candidate)
  -- the followed attempt is terminated
  | finish
  deriving DecidableEq, Repr

structure Cell where
  role : Role
  now : Nat
  facts : Facts
  -- catalogs
  publisherEpoch : Nat
  peerPublisherEpoch : Nat
  catalogVersion : Nat
  localCatalog : Option CatalogSummary
  peerCatalog : Option CatalogSummary
  lastPublishedCatalog : Option CatalogSummary
  -- discovery
  discoveredUniverse : Option DiscoveredUniverse
  stagedUniverse : Option DiscoveredUniverse
  pendingUniverse : Option DiscoveredUniverse
  universeRows : List DiscoveredUniverse
  discoveryReason : String
  rediscoveryPending : Bool
  rediscoveryFailure : Option String
  rediscoveryRequestId : Option Nat
  rediscoveryStartedAt : Option Nat
  rediscoveryLastSentAt : Option Nat
  answeredRediscovery : Option (Nat × Answer)
  -- sizing plans
  policy : Option StrategyPolicy
  plans : List SizingPlan
  planIndex : List SizingPlan
  planRows : List PlanRow
  planSetVersion : PlanSetVersion
  suspendedProducts : List String
  plansPolicyHash : Option Nat
  peerPlans : List SizingPlan
  peerPlanIndex : List SizingPlan
  peerPlanRows : List PeerPlanRow
  peerPlanSetVersion : Option PlanSetVersion
  peerPlanBatches : List (PlanSetVersion × List (Nat × List SizingPlan))
  -- publication
  lastPublishedPlanVersion : Option PlanSetVersion
  lastPublishedPlanKeys : Option (List (String × Direction))
  lastPlanPublishAt : Option Nat
  lastPublishedReadiness : Option Readiness
  allowanceVersion : Nat
  publishedAllowance : Option Nat
  reseedRequested : Bool
  reseedAskNonce : Option Nat
  servedReseedNonces : List Nat
  peerEmptyClaim : Bool
  peerNothingUnresolved : Bool
  -- attempts, newest row first
  attempt : Option Attempt
  attempts : List AttemptRow
  -- the `universe_installed` transitions, each with the attempts open at that moment
  installs : List (DiscoveredUniverse × List AttemptRow)
  out : List Message
  todo : List Op
  deriving DecidableEq, Repr

namespace Cell

def fresh (role : Role) : Cell where
  role := role
  now := 0
  facts := ⟨false, true, false, false, 0, false⟩
  publisherEpoch := 1
  peerPublisherEpoch := 0
  catalogVersion := 0
  localCatalog := none
  peerCatalog := none
  lastPublishedCatalog := none
  discoveredUniverse := none
  stagedUniverse := none
  pendingUniverse := none
  universeRows := []
  discoveryReason := ""
  rediscoveryPending := false
  rediscoveryFailure := none
  rediscoveryRequestId := none
  rediscoveryStartedAt := none
  rediscoveryLastSentAt := none
  answeredRediscovery := none
  policy := none
  plans := []
  planIndex := []
  planRows := []
  planSetVersion := planSetVersionOf []
  suspendedProducts := []
  plansPolicyHash := none
  peerPlans := []
  peerPlanIndex := []
  peerPlanRows := []
  peerPlanSetVersion := none
  peerPlanBatches := []
  lastPublishedPlanVersion := none
  lastPublishedPlanKeys := none
  lastPlanPublishAt := none
  lastPublishedReadiness := none
  allowanceVersion := 0
  publishedAllowance := none
  reseedRequested := false
  reseedAskNonce := none
  servedReseedNonces := []
  peerEmptyClaim := false
  peerNothingUnresolved := false
  attempt := none
  attempts := []
  installs := []
  out := []
  todo := []

def send (c : Cell) (m : Message) : Cell := { c with out := c.out ++ [m] }

def universeGeneration (c : Cell) : Option Nat :=
  c.discoveredUniverse.map (·.universeGeneration)

/-- The attempts of the database that are not terminal. -/
def openAttempts (c : Cell) : List AttemptRow := c.attempts.filter (!·.terminal)

def unresolvedLocalWork (c : Cell) : Option String :=
  if c.attempt.isSome then some "an attempt is unresolved"
  else if !c.openAttempts.isEmpty then some "a durable attempt is not terminal"
  else if !c.facts.journalResolved then some "a local broker effect is unresolved"
  else none

end Cell

/-! ## Discovery -/

/-- The compatibility run over the leader's and the follower's catalog. -/
abbrev Discover := CatalogSummary → CatalogSummary → DiscoveryOutcome

def seconds (n : Nat) : Nat := n * 1000000

def rediscoveryTimeout : Nat := seconds 30

def rediscoveryRetry : Nat := seconds 5

namespace Cell

/-- The leader's and the follower's catalog, once both are known. -/
def catalogsByRole (c : Cell) : Option (CatalogSummary × CatalogSummary) :=
  match c.localCatalog, c.peerCatalog with
  | some own, some peer =>
      match c.role with
      | .leader => some (own, peer)
      | .follower => some (peer, own)
  | _, _ => none

def rediscoveryBlocked (c : Cell) : Option String :=
  if !c.facts.brokerVerifiedEmpty then some "this account is not broker-verified empty"
  else if c.unresolvedLocalWork.isSome then
    some "this Worker has unresolved attempts or effects"
  else if !c.peerEmptyClaim then some "the peer account is not broker-verified empty"
  else if !c.peerNothingUnresolved then some "the peer has unresolved attempts or effects"
  else none

/-- Fail closed without a new transition for an unchanged reason. -/
def noteDiscoveryFailure (c : Cell) (reason : String) : Cell :=
  if c.discoveryReason = reason then c
  else { c with discoveryReason := reason, lastPublishedReadiness := none }

def failRediscovery (c : Cell) (reason : String) : Cell :=
  { c with
    rediscoveryPending := false
    rediscoveryFailure := some reason
    rediscoveryRequestId := none
    rediscoveryStartedAt := none
    rediscoveryLastSentAt := none
    lastPublishedReadiness := none
    discoveryReason := if c.discoveredUniverse.isNone then reason else "" }

def recordRediscoveryAnswer (c : Cell) (serving : Option Nat) (answer : Answer) : Cell :=
  match serving with
  | some requestId => { c with answeredRediscovery := some (requestId, answer) }
  | none => c

/-- The leader's verdict that an attempt failed, told to the follower. -/
def finishRediscovery (c : Cell) (serving : Option Nat) (reason : String) : Cell :=
  ((c.failRediscovery reason).recordRediscoveryAnswer serving
    (.failed reason c.universeGeneration)).send
      (.rediscoveryResult false reason c.universeGeneration none serving)

def nextUniverseGeneration (c : Cell) : Nat :=
  (c.discoveredUniverse.toList ++ c.universeRows).foldr
    (fun u top => max u.universeGeneration top) 0 + 1

def recomputePlanVersion (c : Cell) : Cell :=
  { c with planSetVersion := planSetVersionOf (sortedPlans c.plans) }

def installUniverse (c : Cell) (u : DiscoveredUniverse) : Cell :=
  recomputePlanVersion
    { c with
      universeRows :=
        u :: c.universeRows.filter
          (fun row => row.universeGeneration ≠ u.universeGeneration)
      discoveredUniverse := some u
      discoveryReason := ""
      pendingUniverse := none
      plans := []
      planIndex := []
      peerPlans := []
      peerPlanIndex := []
      peerPlanSetVersion := none
      peerPlanBatches := []
      suspendedProducts := []
      plansPolicyHash := none
      lastPublishedReadiness := none
      installs := (u, c.openAttempts) :: c.installs }

variable (discover : Discover)

/-- The universe a discovery run gives now, or why it gives none. -/
def candidate (c : Cell) (rediscovery : Bool) : Except String DiscoveredUniverse :=
  match c.catalogsByRole with
  | none => .error "a catalog summary is unavailable from one Worker"
  | some (leaderCatalog, followerCatalog) =>
      match if rediscovery then c.rediscoveryBlocked else none with
      | some blocked => .error ("rediscovery refused: " ++ blocked)
      | none =>
          let outcome := discover leaderCatalog followerCatalog
          if outcome.admitted then
            .ok ⟨c.nextUniverseGeneration, outcome.products, leaderCatalog,
              followerCatalog⟩
          else .error outcome.reason

/-- A rediscovery is staged until the follower acknowledges it; the first discovery is
installed. -/
def runDiscovery (c : Cell) (serving : Option Nat) : Cell :=
  if c.role ≠ .leader then c
  else
    let rediscovery := c.discoveredUniverse.isSome
    match c.candidate discover rediscovery with
    | .error reason =>
        if rediscovery then c.finishRediscovery serving reason
        else c.noteDiscoveryFailure reason
    | .ok u =>
        let c := c.recordRediscoveryAnswer serving (.discovered u)
        if rediscovery then { c with stagedUniverse := some u }.send (.discovered u)
        else
          { c.installUniverse u with
            rediscoveryPending := false, rediscoveryFailure := none }.send (.discovered u)

/-- The leader installs the candidate that the follower acknowledged. -/
def commitStagedUniverse (c : Cell) (generation : Option Nat)
    (hash : Option DiscoveredUniverse) : Cell :=
  match c.stagedUniverse with
  | none => c
  | some staged =>
      if generation = some staged.universeGeneration ∧ hash = some staged then
        { { c with stagedUniverse := none }.installUniverse staged with
          rediscoveryPending := false
          rediscoveryFailure := none
          rediscoveryStartedAt := none
          rediscoveryLastSentAt := none }
      else c

def discardStagedUniverse (c : Cell) : Cell := { c with stagedUniverse := none }

def acknowledgeUniverse (c : Cell) (u : DiscoveredUniverse) : Cell :=
  c.send (.rediscoveryResult true "" (some u.universeGeneration) (some u)
    c.rediscoveryRequestId)

def refuseUniverse (c : Cell) (reason : String) : Cell :=
  let refusal := Message.rediscoveryResult false
    ("the follower refused the rediscovered universe: " ++ reason)
    c.universeGeneration none c.rediscoveryRequestId
  ({ c with pendingUniverse := none }.send refusal).failRediscovery reason

/-- What the follower's own compatibility run says of a published universe. -/
inductive Verdict where
  | unverifiable
  | refused (reason : String)
  | confirmed
  deriving DecidableEq, Repr

def verdict (c : Cell) (u : DiscoveredUniverse) : Verdict :=
  match c.catalogsByRole with
  | none => .unverifiable
  | some (leaderCatalog, followerCatalog) =>
      let outcome := discover leaderCatalog followerCatalog
      if !outcome.admitted then .refused outcome.reason
      else if outcome.products ≠ u.products then
        .refused
          "the published universe does not match this Worker's own compatibility result"
      else .confirmed

def maybeInstallPendingUniverse (c : Cell) : Cell :=
  match c.role, c.pendingUniverse with
  | .follower, some u =>
      match c.verdict discover u with
      | .unverifiable =>
          c.noteDiscoveryFailure "a catalog summary is unavailable from one Worker"
      | .refused reason => c.refuseUniverse reason
      | .confirmed =>
          { (c.installUniverse u).acknowledgeUniverse u with
            rediscoveryPending := false
            rediscoveryFailure := none
            rediscoveryRequestId := none
            rediscoveryStartedAt := none
            rediscoveryLastSentAt := none }
  | _, _ => c

def setPendingUniverse (c : Cell) (u : DiscoveredUniverse) : Cell :=
  { c with pendingUniverse := some u }

def acceptUniverse (c : Cell) (u : DiscoveredUniverse) : Cell :=
  match c.role, c.discoveredUniverse with
  | .leader, _ => c
  | .follower, none => (c.setPendingUniverse u).maybeInstallPendingUniverse discover
  | .follower, some installed =>
      if u.universeGeneration < installed.universeGeneration then c
      else if u.universeGeneration = installed.universeGeneration then
        c.acknowledgeUniverse installed
      else (c.setPendingUniverse u).maybeInstallPendingUniverse discover

def acceptRediscoveryResult (c : Cell) (ok : Bool) (reason : String)
    (generation : Option Nat) (hash : Option DiscoveredUniverse)
    (requestId : Option Nat) : Cell :=
  if ok then c.commitStagedUniverse generation hash
  else if c.rediscoveryPending ∧ c.rediscoveryRequestId.isSome ∧ requestId.isSome ∧
      requestId ≠ c.rediscoveryRequestId then c
  else
    c.discardStagedUniverse.failRediscovery
      (if reason.isEmpty then "the peer refused the rediscovery" else reason)

def maybeDiscover (c : Cell) : Cell :=
  match c.role with
  | .leader =>
      if c.discoveredUniverse.isNone ∨ c.rediscoveryPending then
        c.runDiscovery discover none
      else c
  | .follower => c.maybeInstallPendingUniverse discover

def setLocalCatalog (c : Cell) (summary : CatalogSummary) : Cell :=
  { c with catalogVersion := summary.version, localCatalog := some summary }

def setPeerCatalog (c : Cell) (summary : CatalogSummary) : Cell :=
  { c with peerCatalog := some summary }

def publishCatalogSummary (c : Cell) : Cell :=
  match c.localCatalog with
  | none => c
  | some summary =>
      if c.lastPublishedCatalog = some summary then c
      else { c with lastPublishedCatalog := some summary }.send (.catalogSummary summary)

/-- The new summary of a changed local catalog. -/
def newCatalog (c : Cell) (entries : List CatalogEntry) : Option CatalogSummary :=
  if c.localCatalog.map (·.entries) = some entries then none
  else some ⟨c.publisherEpoch, c.catalogVersion + 1, entries⟩

def acceptLocalCatalog (c : Cell) (entries : List CatalogEntry) : Cell :=
  match c.newCatalog entries with
  | none => c
  | some summary =>
      (c.setLocalCatalog summary).publishCatalogSummary.maybeDiscover discover

/-! ## Requests and deadlines -/

/-- An attempt is pending from now on. -/
def startRediscovery (c : Cell) : Cell :=
  { c with
    rediscoveryPending := true
    rediscoveryFailure := none
    lastPublishedReadiness := none
    rediscoveryStartedAt := some c.now
    rediscoveryLastSentAt := some c.now }

def handleRediscoveryRequest (c : Cell) (requestId : Nat) : Cell :=
  match c.role with
  | .follower =>
      { c.startRediscovery with rediscoveryRequestId := some requestId }.send
        (.rediscoveryRequest requestId)
  | .leader => c.startRediscovery.runDiscovery discover none

def serveNewRequest (c : Cell) (requestId : Nat) : Cell :=
  c.startRediscovery.runDiscovery discover (some requestId)

/-- The leader answers a repeated request from its recorded answer. -/
def serveRediscoveryRequest (c : Cell) (requestId : Nat) : Cell :=
  if c.role ≠ .leader then c
  else
    match c.answeredRediscovery with
    | some (answered, answer) =>
        if answered = requestId then c.send (answer.message requestId)
        else c.serveNewRequest discover requestId
    | none => c.serveNewRequest discover requestId

def abandonRediscovery (c : Cell) (reason : String) : Cell :=
  let verdict := Message.rediscoveryResult false reason c.universeGeneration none
    c.rediscoveryRequestId
  ({ c.discardStagedUniverse with pendingUniverse := none }.send
    verdict).failRediscovery reason

/-- What the deadline of a rediscovery attempt asks for now. -/
inductive Due where
  | nothing | retry | abandon
  deriving DecidableEq, Repr

def rediscoveryDue (c : Cell) : Due :=
  match c.rediscoveryPending, c.rediscoveryStartedAt with
  | true, some started =>
      if started + rediscoveryTimeout ≤ c.now then .abandon
      else
        match c.rediscoveryLastSentAt with
        | some last => if c.now < last + rediscoveryRetry then .nothing else .retry
        | none => .retry
  | _, _ => .nothing

def enforceRediscoveryDeadline (c : Cell) : Cell :=
  match c.rediscoveryDue with
  | .nothing => c
  | .abandon =>
      c.abandonRediscovery "the rediscovery attempt was not completed before its deadline"
  | .retry =>
      let c := { c with rediscoveryLastSentAt := some c.now }
      match c.role, c.rediscoveryRequestId, c.stagedUniverse with
      | .follower, some requestId, _ => c.send (.rediscoveryRequest requestId)
      | .leader, _, some staged => c.send (.discovered staged)
      | _, _, _ => c

/-! ## Re-seeding -/

def requestReseed (c : Cell) (ask : Option Nat) : Cell :=
  { c with
    reseedRequested := true
    lastPublishedReadiness := none
    lastPublishedPlanVersion := none
    lastPublishedCatalog := none
    publishedAllowance := none
    reseedAskNonce := if ask.isSome then ask else c.reseedAskNonce }

/-- A greater peer epoch means that the peer was rebuilt. -/
def notePeerPublisherEpoch (c : Cell) (epoch : Nat) : Cell :=
  if epoch ≤ c.peerPublisherEpoch then c
  else { c with peerPublisherEpoch := epoch }.requestReseed none

def acceptReseedRequest (c : Cell) (nonce : Nat) : Cell :=
  if nonce ∈ c.servedReseedNonces then c
  else
    let served := c.servedReseedNonces ++ [nonce]
    { c with servedReseedNonces := served.drop (served.length - 64) }.requestReseed none

def republishPeerState (c : Cell) : Cell :=
  match c.role with
  | .leader =>
      let c := c.send .other
      match c.stagedUniverse.or c.discoveredUniverse with
      | some u => c.send (.discovered u)
      | none => c
  | .follower => c.send .other

def acceptsCatalog (c : Cell) (summary : CatalogSummary) : Bool :=
  match c.peerCatalog with
  | none => true
  | some known => summary.after known

def acceptPeerCatalog (c : Cell) (summary : CatalogSummary) : Cell :=
  let c := c.notePeerPublisherEpoch summary.publisherEpoch
  if c.acceptsCatalog summary then (c.setPeerCatalog summary).maybeDiscover discover else c

end Cell

end PairCell.Market
