import Mathlib.Data.List.Sort
import PairCell.Gate
import PairCell.Lib.Runs

/-!
# Sizing plans

How a worker prices the products of the frozen universe: one plan for each
product and direction it can size from its margin budget, plans it keeps from
the last refresh when a reading is missing, and products it suspends.  What
the terminal and the catalog say at a refresh is an input of the refresh.
-/

namespace PairCell.Pricing

open Gate (entryPrice floorToVolumeStep)

/-! ## Products and readings -/

structure Product where
  productId : Nat
  symbol : String
  tradeCalcMode : Nat
  contractSize : Rat
  volumeMin : Rat
  volumeStep : Rat
  volumeMax : Rat
  canonicalPoint : Rat
  fillingMode : Nat
  directions : List Direction
  deriving DecidableEq, Repr

/-- A frozen discovery result; a product is named by its derived identity. -/
structure Universe where
  generation : Nat
  products : List Product
  distinct : (products.map Product.productId).Nodup

/-- One raw catalog symbol; a trade mode that is not an integer is missing. -/
structure CatalogEntry where
  tradeMode : Option Nat
  tradeCalcMode : Nat
  contractSize : Option Rat
  volumeMin : Option Rat
  volumeStep : Option Rat
  allowedDirections : List Direction
  fillingModes : List Nat
  deriving DecidableEq, Repr

def fullTradingMode : Nat := 4

/-- Why the current catalog no longer matches a frozen product. -/
def compatibilityDrift (entry : Option CatalogEntry) (product : Product) : Option String :=
  match entry with
  | none => some "the symbol is no longer present in this Worker's catalog"
  | some e =>
      if e.tradeMode ≠ some fullTradingMode then
        some "the symbol is no longer fully tradable"
      else if e.tradeCalcMode ≠ product.tradeCalcMode ∨
          e.contractSize ≠ some product.contractSize ∨
          e.volumeMin ≠ some product.volumeMin ∨
          e.volumeStep ≠ some product.volumeStep then
        some "the current specification no longer matches the frozen compatibility summary"
      else if ¬ ∀ d ∈ product.directions, d ∈ e.allowedDirections then
        some "the current specification no longer allows both directions"
      else if product.fillingMode ∉ e.fillingModes then
        some "the shared filling mode is no longer supported"
      else none

structure LocalProductFacts where
  point : Rat
  tickSize : Rat
  profitTickValue : Rat
  lossTickValue : Rat
  stopLevelPoints : Rat
  freezeLevelPoints : Rat
  volumeMax : Rat
  tradable : Bool
  deriving DecidableEq, Repr

def LocalProductFacts.usable (f : LocalProductFacts) : Prop :=
  0 < f.volumeMax ∧ 0 < f.point ∧ 0 < f.tickSize ∧ 0 < f.lossTickValue ∧
    0 < f.profitTickValue

instance (f : LocalProductFacts) : Decidable f.usable := instDecidableAnd

/-- What a refresh reads: the catalog, the last quotes, and the terminal's answers. -/
structure Readings where
  catalog : String → Option CatalogEntry
  quote : Nat → Option Quote
  facts : String → Option LocalProductFacts
  orderCalcMargin : String → Direction → Rat → Option Rat

/-- A plan with every field the source carries. -/
structure SizingPlan extends Gate.SizingPlan where
  canonicalPoint : Option Rat
  point : Option Rat
  volumeMax : Option Rat
  usdPerPointPerLot : Option Rat
  deriving DecidableEq, Repr

/-! ## One refresh -/

structure Desk where
  role : Role
  universe? : Option Universe := none
  policy? : Option Gate.Policy := none
  plans : List SizingPlan := []
  suspended : List (Nat × String) := []
  /-- The sorted plans without their margin; the hash of it is the set's version. -/
  planSetVersion : List SizingPlan := []
  plansPolicyHash : Option Nat := none
  /-- The plan rows of every generation that nothing supersedes. -/
  rows : List SizingPlan := []

def marginBudgetUsd (policy : Gate.Policy) (role : Role) : Rat :=
  (policy.riskOf role).strategyBudgetUsd * (policy.riskOf role).maximumMarginFraction

def directionRank : Direction → Nat
  | .long => 0
  | .short => 1

/-- The order of the keys `(product_id, direction)`. -/
def keyLe (p q : SizingPlan) : Prop :=
  p.productId < q.productId ∨
    (p.productId = q.productId ∧ directionRank p.direction ≤ directionRank q.direction)

instance : DecidableRel keyLe := fun _ _ => instDecidableOr

/-- The fields that take part in the identity of a plan set. -/
def stripped (p : SizingPlan) : SizingPlan :=
  { p with toSizingPlan := { p.toSizingPlan with marginPerLot := none } }

def planSetVersionOf (plans : List SizingPlan) : List SizingPlan :=
  (plans.insertionSort keyLe).map stripped

/-- The plan that `_refresh_sizing_plans` builds when a margin and lots are known. -/
def buildPlan (generation : Nat) (product : Product) (facts : LocalProductFacts)
    (direction : Direction) (margin lots : Rat) : SizingPlan :=
  { universeGeneration := generation, productId := product.productId,
    symbol := product.symbol
    direction := direction, marginPerLot := some margin, localMaxLots := some lots
    tickSize := some facts.tickSize, profitTickValue := some facts.profitTickValue
    lossTickValue := some facts.lossTickValue, volumeMin := some product.volumeMin
    volumeStep := some product.volumeStep, fillingMode := product.fillingMode
    minimumStopDistance :=
      some (max facts.stopLevelPoints facts.freezeLevelPoints * facts.point)
    canonicalPoint := some product.canonicalPoint, point := some facts.point
    volumeMax := some (min product.volumeMax facts.volumeMax)
    usdPerPointPerLot := some (facts.lossTickValue * (facts.point / facts.tickSize)) }

/-- A product with no plan is suspended. -/
def orSuspend (plans : List SizingPlan) (reason : String) :
    List SizingPlan × Option String :=
  if plans = [] then ([], some reason) else (plans, none)

@[simp] theorem orSuspend_fst (plans : List SizingPlan) (reason : String) :
    (orSuspend plans reason).1 = plans := by
  unfold orSuspend
  split
  · next hnil => exact hnil.symm
  · rfl

namespace Desk

variable (s : Desk) (x : Readings) (u : Universe) (policy : Gate.Policy)

/-- Plans are kept only under the policy they were built under. -/
def retainPrior : Bool := !s.plans.isEmpty && decide (s.plansPolicyHash = some policy.hash)

def prior (productId : Nat) (direction : Direction) : Option SizingPlan :=
  if s.retainPrior policy then
    s.plans.find? fun p => decide (p.productId = productId ∧ p.direction = direction)
  else none

def directionPlan (product : Product) (quote : Quote) (facts : LocalProductFacts)
    (direction : Direction) : Option SizingPlan :=
  match x.orderCalcMargin product.symbol direction (entryPrice quote direction) with
  | none => s.prior policy product.productId direction
  | some margin =>
      if margin ≤ 0 then s.prior policy product.productId direction
      else
        match floorToVolumeStep (marginBudgetUsd policy s.role / margin) product.volumeMin
            (min product.volumeMax facts.volumeMax) product.volumeStep with
        | none => s.prior policy product.productId direction
        | some lots => some (buildPlan u.generation product facts direction margin lots)

/-- The installed plans of a product that cannot be priced, or its suspension. -/
def retainedOr (product : Product) (reason : String) : List SizingPlan × Option String :=
  orSuspend
    (if s.retainPrior policy then
      s.plans.filter fun p => decide (p.productId = product.productId)
    else []) reason

def productPlans (product : Product) : List SizingPlan × Option String :=
  match compatibilityDrift (x.catalog product.symbol) product with
  | some drift => ([], some drift)
  | none =>
      match x.quote product.productId with
      | none =>
          s.retainedOr policy product "no current local quote exists for this product"
      | some quote =>
          match x.facts product.symbol with
          | none => s.retainedOr policy product "local symbol economics are unavailable"
          | some facts =>
              if facts.tradable = false then ([], some "product is not currently tradable")
              else if ¬facts.usable then
                ([], some "specification is missing usable economics")
              else
                orSuspend
                  (([Direction.long, .short].filter (· ∈ product.directions)).filterMap
                    (s.directionPlan x u policy product quote facts))
                  "no direction has a valid positive sizing plan"

/-- A refresh that changes no plan but its margin leaves the installed set in place. -/
def installPlans (plans : List SizingPlan) (suspended : List (Nat × String)) : Desk :=
  if planSetVersionOf plans = s.planSetVersion ∧ s.plansPolicyHash = some policy.hash ∧
      (∀ p ∈ suspended, p.1 ∈ s.suspended.map Prod.fst) ∧
      (∀ p ∈ s.suspended, p.1 ∈ suspended.map Prod.fst) then s
  else
    { s with
      plans := plans, suspended := suspended, plansPolicyHash := some policy.hash
      planSetVersion := planSetVersionOf plans
      rows :=
        s.rows.filter (fun p => decide (p.universeGeneration ≠ u.generation)) ++ plans }

def rebuilt : List SizingPlan := u.products.flatMap fun p =>
  (s.productPlans x u policy p).1

def refreshSizingPlans : Desk :=
  match s.universe?, s.policy? with
  | some u, some policy =>
      s.installPlans u policy (s.rebuilt x u policy)
        (u.products.filterMap fun p =>
          (s.productPlans x u policy p).2.map fun reason => (p.productId, reason))
  | _, _ => s

/-! ## The other events -/

def acceptPolicy : Desk := { s with policy? := some policy }

/-- Product-scoped state restarts under a new generation; its rows stay. -/
def installUniverse : Desk :=
  { s with
    universe? := some u, plans := [], suspended := [], plansPolicyHash := none
    planSetVersion := planSetVersionOf [] }

/-- `_load_persisted_plans`: the rows of the installed generation, under no known
policy. -/
def reopen : Desk :=
  let plans :=
    match s.universe? with
    | none => []
    | some u => s.rows.filter fun p => decide (p.universeGeneration = u.generation)
  { s with
    plans := plans, suspended := [], plansPolicyHash := none
    planSetVersion := planSetVersionOf plans }

end Desk

inductive Label where
  | refresh (x : Readings)
  | acceptPolicy (policy : Gate.Policy)
  | installUniverse (u : Universe)
  | restart

def next (s : Desk) : Label → Desk
  | .refresh x => s.refreshSizingPlans x
  | .acceptPolicy policy => s.acceptPolicy policy
  | .installUniverse u => s.installUniverse u
  | .restart => s.reopen

def Step (s : Desk) (l : Label) (t : Desk) : Prop := t = next s l

def fresh (role : Role) : Desk := { role := role }

/-- A product that both directions may trade. -/
def Sample.product : Product :=
  { productId := 5, symbol := "EURUSD", tradeCalcMode := 0, contractSize := 1,
    volumeMin := 1
    volumeStep := 1, volumeMax := 10, canonicalPoint := 1 / 10, fillingMode := 0
    directions := [.long, .short] }

end PairCell.Pricing
