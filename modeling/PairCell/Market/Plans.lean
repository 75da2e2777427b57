import Mathlib.Data.Rat.Floor
import PairCell.Lib.Median
import PairCell.Market

/-!
# Sizing plans, publication and the plans of an attempt

A refresh installs the plans of one cell and keeps the versions it supersedes
for a while.  The plans are published in bounded batches and collected by the
peer, which keeps every version it was told of in its peer plan index.  An
attempt names one version of each side.
-/

namespace PairCell.Market

/-- Cut a list into batches whose summed sizes stay below a bound. -/
def boundedBatches {α : Type} (size : α → Nat) (maxBytes : Nat) (payload : List α) :
    List (List α) :=
  go payload [] 2
where
  go : List α → List α → Nat → List (List α)
    | [], current, _ => [current]
    | entry :: rest, current, currentSize =>
        if !current.isEmpty ∧ maxBytes < currentSize + size entry then
          current :: go rest [entry] (2 + size entry)
        else go rest (current ++ [entry]) (currentSize + size entry)

def planBatchBytes : Nat := 32768

def minPlanPublish : Nat := seconds 120

namespace Cell

/-! ## Own plans -/

/-- The row of a plan version, inserted or current again. -/
def upsertPlanRow (rows : List PlanRow) (generation : Nat)
    (p : SizingPlan) : List PlanRow :=
  if rows.any (·.plan = p) then
    rows.map fun row => if row.plan = p then { row with supersededAt := none } else row
  else rows ++ [⟨p, generation, none⟩]

def supersede (rows : List PlanRow) (generation now : Nat)
    (new : List SizingPlan) : List PlanRow :=
  rows.map fun row =>
    if row.generation = generation ∧ row.supersededAt = none ∧ row.plan ∉ new then
      { row with supersededAt := some now }
    else row

/-- The rows of a refresh before the purge. -/
def refreshedRows (rows : List PlanRow) (generation now : Nat) (plans : List SizingPlan) :
    List PlanRow :=
  plans.foldl (upsertPlanRow · generation)
    (supersede rows generation now (plans.map (·.version)))

def retentionWindow (seconds : Rat) : Rat := seconds * 1000000

/-- `now - timedelta(seconds=plan_retention_seconds)`, rounded to whole microseconds. -/
def purgeCutoff (window : Rat) (now : Nat) : Int := now - Lib.halfEven window

/-- A superseded row whose retention is over and that the followed
attempt does not name. -/
def expiredRow (named : Option PlanVersion) (cutoff : Int) (row : PlanRow) : Bool :=
  match row.supersededAt with
  | none => false
  | some superseded =>
      decide (named ≠ some row.plan.version) && decide ((superseded : Int) ≤ cutoff)

/-- A superseded version inside its retention window, which is not rounded here. -/
def retainedOf (rows : List PlanRow) (window : Rat) (now : Nat) (version : PlanVersion) :
    Option SizingPlan :=
  match rows.find? (·.plan.version = version) with
  | some row =>
      match row.supersededAt with
      | some superseded =>
          if window < (now : Rat) - superseded then none else some row.plan
      | none => none
  | none => none

def planOf (plans : List SizingPlan) (productId : String) (direction : Direction) :
    Option SizingPlan :=
  plans.find? fun p => p.key = (productId, direction)

/-- The current plan when it is the version asked for, else the retained one. -/
def validPlan (plans : List SizingPlan) (retained : Option SizingPlan) (productId : String)
    (direction : Direction) (version : PlanVersion) : Option SizingPlan :=
  let retained := retained.filter fun p => p.key = (productId, direction)
  match planOf plans productId direction with
  | some current => if current.version = version then some current else retained
  | none => retained

def samePlanSet (installed : PlanSetVersion) (installedPolicy : Option Nat)
    (installedSuspended : List String) (plans : List SizingPlan) (policyHash : Nat)
    (suspended : List String) : Bool :=
  decide (planSetVersionOf (sortedPlans plans) = installed) &&
    decide (installedPolicy = some policyHash) &&
    suspended.all (· ∈ installedSuspended) && installedSuspended.all (· ∈ suspended)

/-- The rows of `cell_attempts` once an attempt is terminated. -/
def terminatedRows (rows : List AttemptRow) (a : Attempt) : List AttemptRow :=
  rows.map fun row =>
    if row.attempt.attemptId = a.attemptId then { row with terminal := true } else row

def expired (c : Cell) (policy : StrategyPolicy) (row : PlanRow) : Bool :=
  expiredRow (c.attempt.map (·.planVersionOf c.role))
    (purgeCutoff (retentionWindow policy.planRetention) c.now) row

def purgeExpiredPlanVersions (c : Cell) (policy : StrategyPolicy) : Cell :=
  let gone := c.planRows.filter (c.expired policy)
  { c with
    planRows := c.planRows.filter fun row => !c.expired policy row
    planIndex := c.planIndex.filter fun p => !gone.any (·.plan = p) }

def unchangedPlans (c : Cell) (plans : List SizingPlan) (suspended : List String)
    (policy : StrategyPolicy) : Bool :=
  samePlanSet c.planSetVersion c.plansPolicyHash c.suspendedProducts plans
    policy.hash suspended

def installPlans (c : Cell) (generation : Nat) (plans : List SizingPlan)
    (suspended : List String) (policy : StrategyPolicy) : Cell :=
  if c.unchangedPlans plans suspended policy then c
  else
    let installed : Cell :=
      { c with
        planRows := refreshedRows c.planRows generation c.now plans
        planIndex := plans.foldl (fun index p => index.insert p) c.planIndex
        plans := plans
        suspendedProducts := suspended
        plansPolicyHash := some policy.hash }
    (installed.purgeExpiredPlanVersions policy).recomputePlanVersion

/-- Every plan is built for the installed universe. -/
def refreshSizingPlans (c : Cell) (built : BuiltPlans) : Cell :=
  match c.discoveredUniverse, c.policy with
  | some u, some policy =>
      c.installPlans u.universeGeneration
        (built.plans.map fun p => { p with universeGeneration := u.universeGeneration })
        built.suspended policy
  | _, _ => c

def retainedPlan (c : Cell) (version : PlanVersion) : Option SizingPlan :=
  c.policy.bind fun policy =>
    retainedOf c.planRows (retentionWindow policy.planRetention) c.now version

def planForValidation (c : Cell) (productId : String) (direction : Direction)
    (version : PlanVersion) : Option SizingPlan :=
  validPlan c.plans (c.retainedPlan version) productId direction version

/-! ## The peer's plans -/

def persistPeerPlans (rows : List PeerPlanRow) (generation : Nat)
    (version : PlanSetVersion) (plans : List SizingPlan) : List PeerPlanRow :=
  plans.foldl upsert
    (rows.map fun row =>
      if row.generation = generation then { row with current := false } else row)
where
  upsert (rows : List PeerPlanRow) (p : SizingPlan) : List PeerPlanRow :=
    if rows.any (·.plan = p) then
      rows.map fun row =>
        if row.plan = p then { row with current := true, planSetVersion := version }
        else row
    else rows ++ [⟨p, generation, version, true⟩]

def batchesOf (c : Cell) (version : PlanSetVersion) : List (Nat × List SizingPlan) :=
  ((c.peerPlanBatches.find? (·.1 = version)).map Prod.snd).getD []

def setBatches (c : Cell) (version : PlanSetVersion)
    (batches : List (Nat × List SizingPlan)) :
    Cell :=
  { c with
    peerPlanBatches := (version, batches) :: c.peerPlanBatches.filter (·.1 ≠ version) }

def combine (batches : List (Nat × List SizingPlan)) (count : Nat) : List SizingPlan :=
  (List.range count).flatMap fun index =>
    ((batches.find? (·.1 = index)).map Prod.snd).getD []

/-- A dictionary keyed by product and direction: a later plan replaces an earlier one. -/
def keyed (plans : List SizingPlan) : List SizingPlan :=
  plans.foldl (fun known p => known.filter (·.key ≠ p.key) ++ [p]) []

def acceptPeerPlanBatch (c : Cell) (version : PlanSetVersion) (generation : Option Nat)
    (index count : Nat) (plans : List SizingPlan) : Cell :=
  if generation ≠ c.universeGeneration then c
  else if ¬ index < count then c
  else
    let batches := (index, plans) :: (c.batchesOf version).filter (·.1 ≠ index)
    let c := c.setBatches version batches
    if batches.length ≠ count then c
    else
      let combined := combine batches count
      if planSetVersionOf combined ≠ version then
        { c with peerPlanBatches := c.peerPlanBatches.filter (·.1 ≠ version) }
      else
        { c with
          peerPlanIndex := combined.foldl (fun known p => known.insert p) c.peerPlanIndex
          peerPlans := keyed combined
          peerPlanSetVersion := some version
          peerPlanBatches := [(version, batches)]
          peerPlanRows :=
            persistPeerPlans c.peerPlanRows (generation.getD 0) version (keyed combined) }

/-! ## Publication -/

variable (size : SizingPlan → Nat)

def publishPlanBatches (c : Cell) : Cell :=
  let batches := boundedBatches size planBatchBytes (sortedPlans c.plans)
  batches.zipIdx.foldl
    (fun c batch =>
      c.send (.sizingPlans c.planSetVersion c.universeGeneration batch.2
        batches.length batch.1)) c

/-- A changed plan set of unchanged keys waits until the last publication is old enough. -/
def throttled (c : Cell) : Bool :=
  c.lastPublishedPlanVersion.isSome &&
    decide (c.lastPublishedPlanKeys = some ((sortedPlans c.plans).map SizingPlan.key)) &&
    match c.lastPlanPublishAt with
    | none => false
    | some published => decide (c.now < published + minPlanPublish)

def unpublished (c : Cell) : Bool :=
  decide (c.lastPublishedPlanVersion ≠ some c.planSetVersion)

def markPublished (c : Cell) : Cell :=
  { c with
    lastPublishedPlanVersion := some c.planSetVersion
    lastPublishedPlanKeys := some ((sortedPlans c.plans).map SizingPlan.key)
    lastPlanPublishAt := some c.now }

def maybePublishPlans (c : Cell) : Cell :=
  if c.unpublished ∧ !c.throttled then c.markPublished.publishPlanBatches size else c

/-- The gates of entry readiness that read what is kept here. -/
def localReady (c : Cell) : Bool :=
  c.discoveredUniverse.isSome && !c.rediscoveryPending && c.policy.isSome &&
    !c.plans.isEmpty &&
    c.attempt.isNone && c.facts.ready

def readinessNow (c : Cell) : Readiness :=
  ⟨c.localReady, c.policy.map (·.hash), c.facts.brokerVerifiedEmpty,
    c.unresolvedLocalWork.isNone, c.universeGeneration⟩

def publishReadiness (c : Cell) : Cell :=
  if c.lastPublishedReadiness = some c.readinessNow then c
  else { c with lastPublishedReadiness := some c.readinessNow }.send
    (.readiness c.readinessNow)

def publishRemainingAllowance (c : Cell) : Cell :=
  if c.publishedAllowance = some c.facts.allowedLegLoss then c
  else
    { c with
      publishedAllowance := some c.facts.allowedLegLoss
      allowanceVersion := c.allowanceVersion + 1 }.send
        (.remainingAllowance c.publisherEpoch (c.allowanceVersion + 1)
          c.facts.allowedLegLoss)

def serveReseed (c : Cell) : Cell :=
  if c.reseedRequested then { c with reseedRequested := false }.republishPeerState else c

def maybeSendReseedAsk (c : Cell) : Cell :=
  match c.reseedAskNonce with
  | some nonce => if c.facts.asksReseed then c.send (.reseedRequest nonce) else c
  | none => c

def maybePublishState (c : Cell) : Cell :=
  (maybePublishPlans size
    c.serveReseed.maybeSendReseedAsk.publishCatalogSummary.publishRemainingAllowance
      ).publishReadiness

/-! ## Attempts -/

/-- Whether the follower admits an attempt. -/
def attemptAdmitted (c : Cell) (a : Attempt) : Bool :=
  decide (c.universeGeneration = some a.universeGeneration) &&
    decide (c.policy.map (·.hash) = some a.policyHash) &&
    c.attempt.isNone && c.localReady && c.facts.brokerVerifiedEmpty &&
    (c.discoveredUniverse.any fun u => u.products.any (·.productId = a.productId)) &&
    (match c.planForValidation a.productId a.followerDirection a.followerPlanVersion with
      | some plan => decide (plan.symbol = a.symbol)
      | none => false) &&
    decide (a.leaderPlanVersion ∈ c.peerPlanIndex) && c.facts.admits

def handleAttempt (c : Cell) (a : Attempt) : Cell :=
  if c.role ≠ .follower then c
  else if c.attempts.any (·.attempt.attemptId = a.attemptId) then c
  else if c.attemptAdmitted a then
    { c with attempt := some a, attempts := ⟨a, c.now, false⟩ :: c.attempts }
  else { c with attempts := ⟨a, c.now, true⟩ :: c.attempts }

/-- The attempt a leader decides from its current plan and its peer's. -/
def decided (c : Cell) (k : Candidate) : Option Attempt :=
  match c.discoveredUniverse, c.policy, planOf c.plans k.productId k.direction,
      planOf c.peerPlans k.productId (mirror k.direction) with
  | some u, some policy, some leaderPlan, some followerPlan =>
      if c.role = .leader ∧ c.localReady then
        some
          { attemptId := k.attemptId
            policyHash := policy.hash
            universeGeneration := u.universeGeneration
            productId := k.productId
            symbol := leaderPlan.symbol
            leaderDirection := k.direction
            followerDirection := mirror k.direction
            leaderPlanVersion := leaderPlan.version
            followerPlanVersion := followerPlan.version }
      else none
  | _, _, _, _ => none

def maybeCreateAttempt (c : Cell) (k : Candidate) : Cell :=
  match c.decided k with
  | none => c
  | some a =>
      let c := { c with attempt := some a, attempts := ⟨a, c.now, false⟩ :: c.attempts }
      if k.prepared then c.send (.attempt a) else c

def terminateAttempt (c : Cell) : Cell :=
  match c.attempt with
  | none => c
  | some a =>
      { c with
        attempt := none
        attempts := terminatedRows c.attempts a }

/-- The plan an open attempt was sized from, own or of the peer. -/
def attemptPlanForRole (c : Cell) (a : Attempt) (role : Role) : Option SizingPlan :=
  let plans := if role = c.role then c.planIndex else c.peerPlanIndex
  (plans.find? (·.version = a.planVersionOf role)).filter fun p =>
    p.key = (a.productId, a.directionOf role)

/-! ## Restart -/

/-- The row with the greatest generation. -/
def newestUniverse (rows : List DiscoveredUniverse) : Option DiscoveredUniverse :=
  rows.foldr (fun u best =>
    match best with
    | some b => if b.universeGeneration < u.universeGeneration then some u else some b
    | none => some u) none

/-- `ORDER BY created_at DESC, rowid DESC LIMIT 1`; the rows are newest first. -/
def newestAttempt (rows : List AttemptRow) : Option AttemptRow :=
  rows.foldr (fun row best =>
    match best with
    | some b => if row.createdAt < b.createdAt then some b else some row
    | none => some row) none

def loadedPlans (rows : List PlanRow) (generation : Nat) : List SizingPlan :=
  keyed ((rows.filter fun row => row.generation = generation ∧
    row.supersededAt = none).map (·.plan))

def loadedPeerRows (rows : List PeerPlanRow) (generation : Nat) : List PeerPlanRow :=
  rows.filter (·.generation = generation)

def reopen (c : Cell) (at' : Nat) : Cell :=
  let installed := newestUniverse c.universeRows
  let base : Cell :=
    { fresh c.role with
      now := min at' c.now
      facts := c.facts
      publisherEpoch := c.publisherEpoch + 1
      discoveredUniverse := installed
      universeRows := c.universeRows
      policy := c.policy
      planRows := c.planRows
      peerPlanRows := c.peerPlanRows
      attempts := c.attempts
      attempt := (newestAttempt c.attempts).bind fun row =>
        if row.terminal then none else some row.attempt
      installs := c.installs
      out := c.out }
  match installed with
  | none => base
  | some u =>
      let peerRows := loadedPeerRows c.peerPlanRows u.universeGeneration
      recomputePlanVersion
        { base with
          plans := loadedPlans c.planRows u.universeGeneration
          planIndex :=
            (c.planRows.filter (·.generation = u.universeGeneration)).map (·.plan)
          peerPlans := keyed ((peerRows.filter (·.current)).map (·.plan))
          peerPlanIndex := peerRows.map (·.plan)
          peerPlanSetVersion :=
            ((peerRows.filter (·.current)).getLast?).map (·.planSetVersion) }

end Cell

end PairCell.Market
