import PairCell.Canonical.Identities
import PairCell.Lib.DecimalValue
import PairCell.Lib.Grid
import PairCell.Lib.Table
import PairCell.Pricing.Budget

/-!
# The common lots of a pair

The leader sizes an attempt from its own plan and the follower's, and the
follower sizes it again from the two plans that the attempt names.  The
numbers are texts on the way; the arithmetic is exact.
-/

namespace PairCell.Canonical

open Lib

variable {F : Type}

def mirror (direction : String) : String := if direction = "LONG" then "SHORT" else "LONG"

def floorToVolumeStep (rawLots : Rat) (volumeMin volumeMax volumeStep : Decimal) :
    Option Decimal :=
  if volumeStep.value ≤ 0 ∨ volumeMin.value ≤ 0 ∨ volumeMax.value < volumeMin.value ∨
      rawLots < volumeMin.value then none
  else
    let capped := min rawLots volumeMax.value
    let steps : Int := ⌊(capped - volumeMin.value) / volumeStep.value⌋
    let lots := volumeMin.add ((Decimal.ofInt steps).mul volumeStep)
    if lots.value < volumeMin.value ∨ volumeMax.value < lots.value then none
    else some (lots.trim.add (Decimal.ofInt 0))

/-- What the refresh of the plans computes of a product and one direction: the grid is the
product's, and the lots are those that the margin pays for. -/
def sizePlan (product : DiscoveredProduct F) (productId direction : String)
    (marginBudgetUsd : Rat) (localMax marginPerLot : Decimal) (plan : SizingPlan) :
    Option SizingPlan := do
  let volumeMin ← decimalOf product.volumeMin
  let volumeStep ← decimalOf product.volumeStep
  let commonMax ← decimalOf product.volumeMax
  if localMax.value ≤ 0 ∨ marginPerLot.value ≤ 0 then none
  else
    let volumeMax := if localMax.value < commonMax.value then localMax else commonMax
    let localMaxLots ← floorToVolumeStep (marginBudgetUsd / marginPerLot.value)
        volumeMin volumeMax
      volumeStep
    pure
      { plan with
        productId := productId
        symbol := product.symbol
        direction := direction
        marginPerLot := String.ofList marginPerLot.text
        localMaxLots := String.ofList localMaxLots.text
        canonicalPoint := product.canonicalPoint
        volumeMin := product.volumeMin
        volumeStep := product.volumeStep
        fillingMode := product.fillingMode }

def combinePairLots (leaderPlan followerPlan : SizingPlan) :
    Option (Decimal × SizingPlan × SizingPlan) := do
  let leaderLots ← decimalOf leaderPlan.localMaxLots
  let followerLots ← decimalOf followerPlan.localMaxLots
  let volumeMin ← decimalOf leaderPlan.volumeMin
  let volumeStep ← decimalOf leaderPlan.volumeStep
  let lower := if followerLots.value < leaderLots.value then followerLots else leaderLots
  let lots ← floorToVolumeStep lower.value volumeMin lower volumeStep
  if lots.value ≤ 0 then none else pure (lots, leaderPlan, followerPlan)

/-! ## The two cells -/

/-- Every plan is kept under its own version. -/
def Named (py : Host F) (t : Table String SizingPlan) : Prop :=
  ∀ version plan, t.get version = some plan → plan.version py = .ok version

/-- The plans of one cell; `retained` holds the superseded ones that are still valid. -/
structure PlanDesk (py : Host F) where
  role : Role
  plans : Table (String × String) SizingPlan
  peerPlans : Table (String × String) SizingPlan
  retained : Table String SizingPlan
  peerPlanIndex : Table String SizingPlan
  retainedNamed : Named py retained
  indexNamed : Named py peerPlanIndex

namespace PlanDesk

variable {py : Host F}

theorem named_set {t : Table String SizingPlan} (ht : Named py t) {version : String}
    {plan : SizingPlan} (h : plan.version py = .ok version) :
    Named py (t.set version plan) := by
  intro v p hp
  rw [Table.get_set] at hp
  split at hp
  · next hv =>
      cases hp
      rw [hv]
      exact h
  · exact ht v p hp

def acceptPeerPlan (desk : PlanDesk py) (plan : SizingPlan) : PlanDesk py :=
  match h : plan.version py with
  | .ok version =>
      { desk with
        peerPlans := desk.peerPlans.set (plan.productId, plan.direction) plan
        peerPlanIndex := desk.peerPlanIndex.set version plan
        indexNamed := named_set desk.indexNamed h }
  | .error _ => desk

/-- A complete set of the peer's plans replaces the current ones and extends the index. -/
def acceptPeerPlans (desk : PlanDesk py) (plans : List SizingPlan) : PlanDesk py :=
  plans.foldl acceptPeerPlan { desk with peerPlans := .empty }

def pairLots (desk : PlanDesk py) (productId direction : String) :
    Option (Decimal × SizingPlan × SizingPlan) := do
  let localDirection := if desk.role = .leader then direction else mirror direction
  let peerDirection := mirror localDirection
  let leaderPlan ← if desk.role = .leader then desk.plans.get (productId, localDirection)
    else desk.peerPlans.get (productId, peerDirection)
  let followerPlan ← if desk.role = .leader then
      desk.peerPlans.get (productId, peerDirection)
    else desk.plans.get (productId, localDirection)
  combinePairLots leaderPlan followerPlan

def planForValidation (desk : PlanDesk py) (productId direction version : String) :
    Option SizingPlan :=
  match (desk.plans.get (productId, direction)).filter fun p =>
    decide (p.version py = .ok version) with
  | some current => some current
  | none =>
      (desk.retained.get version).filter fun p =>
        decide (p.productId = productId) && decide (p.direction = direction)

end PlanDesk

/-- The sizing of a new attempt; `draft` holds what the rest of the
decision has filled in. -/
def sizeAttempt {py : Host F} (desk : PlanDesk py) (draft : Attempt py)
    (productId leaderDirection : String) :
    Except PyError (Option (Attempt py)) :=
  match desk.pairLots productId leaderDirection with
  | none => .ok none
  | some (lots, leaderPlan, followerPlan) => do
      pure (some
        { draft with
          productId := productId
          symbol := leaderPlan.symbol
          leaderDirection := leaderDirection
          followerDirection := mirror leaderDirection
          lots := String.ofList lots.text
          leaderPlanVersion := ← leaderPlan.version py
          followerPlanVersion := ← followerPlan.version py
          fillingMode := leaderPlan.fillingMode })

/-- The sizing part of the follower's admission. -/
def sizingReason {py : Host F} (desk : PlanDesk py) (a : Attempt py) : Option String :=
  match desk.planForValidation a.productId a.followerDirection a.followerPlanVersion with
  | none =>
      if (desk.plans.get (a.productId, a.followerDirection)).isNone then
        some "selected product or direction is not locally eligible"
      else some "sizing-plan version is neither current nor a retained superseded version"
  | some plan =>
      if plan.symbol ≠ a.symbol then some "local symbol does not match the attempt"
      else
        match desk.peerPlanIndex.get a.leaderPlanVersion with
        | none => some "no cached leader plan exists for the named sizing-plan version"
        | some peerPlan =>
            if (combinePairLots peerPlan plan).any fun sized =>
                decide ((decimalOf a.lots).map Decimal.value =
                  some sized.1.value) then none
            else some "common lots differ from the pair plan of the named plan version"

/-! ## The greatest common lots -/

section Lots

variable {product : DiscoveredProduct F} {leaderPlan followerPlan plan : SizingPlan}

theorem floorToVolumeStep_value (raw : Rat) (low high step : Decimal) :
    (floorToVolumeStep raw low high step).map Decimal.value =
      Gate.floorToVolumeStep raw low.value high.value step.value := by
  simp only [floorToVolumeStep, Gate.floorToVolumeStep, Decimal.value_add,
    Decimal.value_mul, Decimal.value_ofInt]
  split
  · rfl
  · split
    · rfl
    · simp only [Option.map_some, Decimal.value_add, Decimal.value_trim, Decimal.value_mul,
        Decimal.value_ofInt, Int.cast_zero, add_zero]

theorem storable_of_decimalOf {s : String} {d : Decimal}
    (h : decimalOf s = some d) : d.Storable := by
  obtain ⟨-, hstorable⟩ := Option.filter_eq_some_iff.1 h
  exact of_decide_eq_true hstorable

/-- Lots on the grid are no finer than the grid, and do not exceed the maximum. -/
theorem floorToVolumeStep_storable {raw : Rat} {low high step lots : Decimal}
    (h : floorToVolumeStep raw low high step = some lots) (hlow : low.Storable)
    (hhigh : high.Storable) (hstep : step.Storable) : lots.Storable := by
  simp only [floorToVolumeStep, Option.ite_none_left_eq_some, not_or, not_le, not_lt,
    Option.some.injEq] at h
  obtain ⟨⟨-, hpos, -⟩, ⟨hleast, hmost⟩, rfl⟩ := h
  generalize hsum : low.add ((Decimal.ofInt _).mul step) = sum at hleast hmost ⊢
  have hvalue : (sum.trim.add (Decimal.ofInt 0)).value = sum.value := by
    rw [Decimal.value_add, Decimal.value_trim, Decimal.value_ofInt,
      Int.cast_zero, add_zero]
  have hcoeff := (Decimal.pos_parts (hpos.trans_le hleast)).2
  have hexp : sum.exp = min low.exp (0 + step.exp) := by
    rw [← hsum]
    rfl
  have htrim := Decimal.trim_exp hcoeff
  have hlast : (sum.trim.add (Decimal.ofInt 0)).exp = min sum.trim.exp 0 := rfl
  have hfirst := Decimal.left_mono (a := sum.trim.add (Decimal.ofInt 0)) (b := high)
    (by rw [hvalue]; exact hpos.trans_le hleast) (by rw [hvalue]; exact hmost)
  have hlimit : Decimal.storedTiny = -1999999999999999997 := rfl
  have hfinest := hlow.1
  have hfinest' := hstep.1
  refine ⟨?_, hfirst.trans hhigh.2⟩
  rw [hlast]
  omega

theorem combinePairLots_storable {lots : Decimal} {one two : SizingPlan}
    (h : combinePairLots leaderPlan followerPlan = some (lots, one, two)) :
    lots.Storable := by
  simp only [combinePairLots, Option.bind_eq_bind, Option.bind_eq_some_iff] at h
  obtain ⟨own, hown, peer, hpeer, low, hlow, step, hstep, lots', hlots, h⟩ := h
  split at h
  · cases h
  · cases h
    refine floorToVolumeStep_storable hlots (storable_of_decimalOf hlow) ?_
      (storable_of_decimalOf hstep)
    split
    · exact storable_of_decimalOf hpeer
    · exact storable_of_decimalOf hown

/-- No point of the grid lies between the floor and the amount. -/
theorem floorToVolumeStep_greatest {raw low high step lots : Rat}
    (h : Gate.floorToVolumeStep raw low high step = some lots) {k : ℕ}
    (hraw : low + k * step ≤ raw) (hhigh : low + k * step ≤ high) :
    low + k * step ≤ lots := by
  simp only [Gate.floorToVolumeStep, Option.ite_none_left_eq_some, not_or, not_le, not_lt,
    Option.some.injEq] at h
  obtain ⟨⟨hstep, -⟩, -, rfl⟩ := h
  have hpaid : ((k : ℤ) : Rat) * step ≤ min raw high - low := by
    have hmin := le_min hraw hhigh
    push_cast
    linarith
  have hfloor := le_floor_of_mul_le hstep hpaid
  have hcast : (k : Rat) ≤ (⌊(min raw high - low) / step⌋ : Rat) := by
    exact_mod_cast hfloor
  have hmul := mul_le_mul_of_nonneg_right hcast hstep.le
  linarith

/-- The plan has the grid of the product, and the grid is usable. -/
structure OnProduct (product : DiscoveredProduct F) (plan : SizingPlan) : Prop where
  symbol : plan.symbol = product.symbol
  volumeMin : plan.volumeMin = product.volumeMin
  volumeStep : plan.volumeStep = product.volumeStep
  usable : ∃ low step, decimalOf product.volumeMin = some low ∧
      decimalOf product.volumeStep = some step ∧
    0 < low.value ∧ 0 < step.value

/-- Every plan that is built is a plan of its product. -/
theorem sizePlan_onProduct {productId direction : String} {budget : Rat}
    {localMax margin : Decimal} {draft : SizingPlan}
    (h : sizePlan product productId direction budget localMax margin draft = some plan) :
    OnProduct product plan := by
  simp only [sizePlan, Option.bind_eq_bind, Option.bind_eq_some_iff,
    Option.ite_none_left_eq_some] at h
  obtain ⟨low, hlow, step, hstep, most, -, -, lots, hlots, h⟩ := h
  cases h
  have hvalue := floorToVolumeStep_value (budget / margin.value) low
    (if localMax.value < most.value then localMax else most) step
  rw [hlots, Option.map_some] at hvalue
  have hgrid := Pricing.floorToVolumeStep_onGrid hvalue.symm
  exact ⟨rfl, rfl, rfl, low, step, hlow, hstep, hgrid.low_pos, hgrid.step_pos⟩

/-- The grid points not above either leg's maximum. -/
def Fits (product : DiscoveredProduct F)
    (leaderPlan followerPlan : SizingPlan) : Set Rat :=
  {x | ∃ low step own peer, decimalOf product.volumeMin = some low ∧
    decimalOf product.volumeStep = some step ∧
    decimalOf leaderPlan.localMaxLots = some own ∧
    decimalOf followerPlan.localMaxLots = some peer ∧
    (∃ k : ℕ, x = low.value + k * step.value) ∧
    x ≤ own.value ∧ x ≤ peer.value}

theorem combinePairLots_spec (hleader : OnProduct product leaderPlan) :
    (combinePairLots leaderPlan followerPlan = none ∧
      Fits product leaderPlan followerPlan = ∅) ∨
      ∃ lots, combinePairLots leaderPlan followerPlan =
        some (lots, leaderPlan, followerPlan) ∧
        IsGreatest (Fits product leaderPlan followerPlan) lots.value := by
  obtain ⟨low, step, hlow, hstep, hlowpos, hsteppos⟩ := hleader.usable
  cases hown : decimalOf leaderPlan.localMaxLots with
  | none =>
      refine .inl ⟨by simp [combinePairLots, hown], Set.eq_empty_iff_forall_notMem.2 ?_⟩
      rintro x ⟨_, _, own, _, -, -, h, -⟩
      rw [hown] at h
      cases h
  | some own =>
  cases hpeer : decimalOf followerPlan.localMaxLots with
  | none =>
      refine .inl ⟨by simp [combinePairLots, hown, hpeer],
        Set.eq_empty_iff_forall_notMem.2 ?_⟩
      rintro x ⟨_, _, _, peer, -, -, -, h, -⟩
      rw [hpeer] at h
      cases h
  | some peer =>
  have hfits : ∀ x, x ∈ Fits product leaderPlan followerPlan ↔
      (∃ k : ℕ, x = low.value + k * step.value) ∧ x ≤ own.value ∧ x ≤ peer.value := by
    intro x
    constructor
    · rintro ⟨_, _, _, _, h₁, h₂, h₃, h₄, hx⟩
      rw [hlow] at h₁
      rw [hstep] at h₂
      rw [hown] at h₃
      rw [hpeer] at h₄
      cases h₁
      cases h₂
      cases h₃
      cases h₄
      exact hx
    · intro hx
      exact ⟨low, step, own, peer, hlow, hstep, hown, hpeer, hx⟩
  generalize hlower : (if peer.value < own.value then peer else own) = lower
  have hmin : ∀ x, x ≤ lower.value ↔ x ≤ own.value ∧ x ≤ peer.value := by
    intro x
    rw [← hlower]
    split
    · exact ⟨fun h => ⟨by linarith, h⟩, fun h => h.2⟩
    · next hle => exact ⟨fun h => ⟨h, by linarith⟩, fun h => h.1⟩
  have hvalue := floorToVolumeStep_value lower.value low lower step
  have hcombine : combinePairLots leaderPlan followerPlan =
      (floorToVolumeStep lower.value low lower step).bind fun lots =>
        if lots.value ≤ 0 then none else some (lots, leaderPlan, followerPlan) := by
    simp only [combinePairLots, hown, hpeer, hleader.volumeMin,
      hleader.volumeStep, hlow, hstep, Option.bind_eq_bind, Option.bind_some, hlower]
    rfl
  cases hlots : floorToVolumeStep lower.value low lower step with
  | none =>
      left
      refine ⟨by rw [hcombine, hlots]; rfl,
        Set.eq_empty_iff_forall_notMem.2 fun x hx => ?_⟩
      obtain ⟨⟨k, rfl⟩, hle⟩ := (hfits x).1 hx
      have hroom : low.value ≤ lower.value := by
        have hpoint := (hmin _).2 hle
        have hmul := mul_nonneg (Nat.cast_nonneg (α := Rat) k) hsteppos.le
        linarith
      obtain ⟨lots, hsome⟩ := Pricing.floorToVolumeStep_isSome hsteppos hlowpos hroom hroom
      rw [hlots, hsome] at hvalue
      cases hvalue
  | some lots =>
      right
      rw [hlots, Option.map_some] at hvalue
      have hgrid := Pricing.floorToVolumeStep_onGrid hvalue.symm
      have hpos : ¬lots.value ≤ 0 := by
        have hlowest := hgrid.low_le
        linarith
      refine ⟨lots, by rw [hcombine, hlots, Option.bind_some, if_neg hpos], ?_, ?_⟩
      · exact (hfits _).2 ⟨hgrid.grid, (hmin _).1 hgrid.le_high⟩
      · intro x hx
        obtain ⟨⟨k, rfl⟩, hle⟩ := (hfits x).1 hx
        have hpoint := (hmin _).2 hle
        exact floorToVolumeStep_greatest hvalue.symm hpoint hpoint

end Lots

/-! ## Both sides -/

section Sides

variable {py : Host F} {product : DiscoveredProduct F}
  {leaderPlan followerPlan plan peerPlan : SizingPlan} {leader follower : PlanDesk py}
  {productId direction version peerVersion : String}

theorem acceptPeerPlan_of {desk : PlanDesk py} {plan : SizingPlan} {version : String}
    (h : plan.version py = .ok version) : (desk.acceptPeerPlan plan).peerPlans =
        desk.peerPlans.set (plan.productId, plan.direction) plan ∧
      (desk.acceptPeerPlan plan).peerPlanIndex = desk.peerPlanIndex.set version plan := by
  unfold PlanDesk.acceptPeerPlan
  split
  · next v hv =>
      rw [h] at hv
      cases hv
      exact ⟨rfl, rfl⟩
  · next e he =>
      rw [h] at he
      cases he

theorem version_ok (py : Host F) (plan : SizingPlan) :
    ∃ version, plan.version py = .ok version := by
  have hnone : (plan.canonical : Json F).special = false := by
    simp [Json.special, Json.specialFields, SizingPlan.canonical, SizingPlan.fields]
  refine ⟨String.ofList
    ((py.sha256 (dumps py.floats ⟨true, true⟩ plan.canonical)).toList.take 16), ?_⟩
  simp [SizingPlan.version, shortHash, hash, canonicalJson, hnone, Except.map]

theorem planForValidation_version
    (h : follower.planForValidation productId direction version = some plan) :
    plan.version py = .ok version := by
  unfold PlanDesk.planForValidation at h
  split at h
  · next current hcurrent =>
      cases h
      obtain ⟨-, hversion⟩ := Option.filter_eq_some_iff.1 hcurrent
      simpa using hversion
  · obtain ⟨hget, -⟩ := Option.filter_eq_some_iff.1 h
    exact follower.retainedNamed _ _ hget

theorem planForValidation_current
    (hcurrent : follower.plans.get (productId, direction) = some plan)
    (hversion : plan.version py = .ok version) :
    follower.planForValidation productId direction version = some plan := by
  have hkept :
      (some plan).filter (fun p => decide (p.version py = .ok version)) = some plan := by
    simp [hversion]
  simp only [PlanDesk.planForValidation, hcurrent, hkept]

theorem pairLots_leader (hrole : leader.role = .leader)
    (hplan : leader.plans.get (productId, direction) = some leaderPlan)
    (hpeer : leader.peerPlans.get (productId, mirror direction) = some followerPlan) :
    leader.pairLots productId direction = combinePairLots leaderPlan followerPlan := by
  simp [PlanDesk.pairLots, hrole, hplan, hpeer]

theorem sizeAttempt_some {draft : Attempt py} {lots : Decimal}
    (hlots : leader.pairLots productId direction = some (lots, leaderPlan, followerPlan))
    (hversion : leaderPlan.version py = .ok version)
    (hpeerVersion : followerPlan.version py = .ok peerVersion) :
    sizeAttempt leader draft productId direction = .ok (some
      { draft with
        productId := productId
        symbol := leaderPlan.symbol
        leaderDirection := direction
        followerDirection := mirror direction
        lots := String.ofList lots.text
        leaderPlanVersion := version
        followerPlanVersion := peerVersion
        fillingMode := leaderPlan.fillingMode }) := by
  simp only [sizeAttempt, hlots, hversion, hpeerVersion]
  rfl

/-- The follower finds the lots of the leader in the two plans that the attempt names: the
greatest point of the product's grid not above either leg's maximum, written exactly; and
where there is no such point, neither side has lots.
No two of the compared plans share a hash. -/
theorem both_workers_size_alike (hleader : OnProduct product leaderPlan)
    (hfollower : OnProduct product followerPlan) (hrole : leader.role = .leader)
    (hown : leader.plans.get (productId, direction) = some leaderPlan)
    (hpeer : leader.peerPlans.get (productId, mirror direction) = some followerPlan)
    (hversion : leaderPlan.version py = .ok version)
    (hpeerVersion : followerPlan.version py = .ok peerVersion)
    (hplan : follower.planForValidation productId (mirror direction) peerVersion =
      some plan)
    (hindex : follower.peerPlanIndex.get version = some peerPlan)
    (hsame : plan.version py = followerPlan.version py → plan = followerPlan)
    (hsamePeer : peerPlan.version py = leaderPlan.version py → peerPlan = leaderPlan) :
    combinePairLots peerPlan plan = leader.pairLots productId direction ∧
      ((leader.pairLots productId direction = none ∧
        Fits product leaderPlan followerPlan = ∅ ∧
          ∀ draft : Attempt py, sizeAttempt leader draft productId direction = .ok none) ∨
        ∃ lots, leader.pairLots productId direction =
          some (lots, leaderPlan, followerPlan) ∧
          IsGreatest (Fits product leaderPlan followerPlan) lots.value ∧
          ∀ draft : Attempt py, ∃ a, sizeAttempt leader draft productId direction =
            .ok (some a) ∧
            a.leaderPlanVersion = version ∧ a.followerPlanVersion = peerVersion ∧
            decimalOf a.lots = some lots ∧ sizingReason follower a = none) := by
  obtain rfl := hsame ((planForValidation_version hplan).trans hpeerVersion.symm)
  obtain rfl := hsamePeer ((follower.indexNamed _ _ hindex).trans hversion.symm)
  have hpair := pairLots_leader hrole hown hpeer
  refine ⟨hpair.symm, ?_⟩
  have hspec : (combinePairLots peerPlan plan = none ∧ _) ∨ _ :=
    combinePairLots_spec hleader
  obtain ⟨hnone, hempty⟩ | ⟨lots, hlots, hgreatest⟩ := hspec
  · refine .inl ⟨hpair.trans hnone, hempty, fun draft => ?_⟩
    simp only [sizeAttempt, hpair, hnone]
  · refine .inr ⟨lots, hpair.trans hlots, hgreatest, fun draft => ?_⟩
    have hstorable := combinePairLots_storable hlots
    refine ⟨_, sizeAttempt_some (hpair.trans hlots) hversion hpeerVersion, rfl, rfl,
      decimalOf_text hstorable, ?_⟩
    have hsymbol : plan.symbol = peerPlan.symbol :=
      hfollower.symbol.trans hleader.symbol.symm
    simp only [sizingReason, hplan, hsymbol, ne_eq, not_true_eq_false,
      if_false, hindex, hlots, Option.any_some, decimalOf_text hstorable, Option.map_some,
      decide_true, if_true]

end Sides

namespace Sample

def product : DiscoveredProduct Seconds :=
  { symbol := "EURUSD"
    tradeCalcMode := .int 0
    contractSize := "100000"
    volumeMin := "0.01"
    volumeStep := "0.01"
    volumeMax := "50"
    canonicalPoint := "0.00001"
    fillingMode := "FOK"
    directions := ["LONG", "SHORT"] }

def planOf (direction localMaxLots : String) : SizingPlan :=
  { universeGeneration := 1
    productId := "EURUSD:1"
    symbol := "EURUSD"
    direction := direction
    marginPerLot := "1000"
    localMaxLots := localMaxLots
    canonicalPoint := "0.00001"
    point := "0.00001"
    tickSize := "0.00001"
    profitTickValue := "1"
    lossTickValue := "1"
    volumeMin := "0.01"
    volumeStep := "0.01"
    volumeMax := "50"
    fillingMode := "FOK"
    minimumStopDistance := "0"
    usdPerPointPerLot := "1" }

theorem planOf_onProduct (direction localMaxLots : String) :
    OnProduct product (planOf direction localMaxLots) := by
  refine ⟨rfl, rfl, rfl, ⟨false, 1, -2⟩, ⟨false, 1, -2⟩, by decide +kernel,
    by decide +kernel, ?_, ?_⟩ <;>
    norm_num [Decimal.value]

def emptyDesk (role : Role) : PlanDesk host :=
  ⟨role, .empty, .empty, .empty, .empty, fun _ _ h => by simp at h,
    fun _ _ h => by simp at h⟩

def deskOf (role : Role) (own peer : SizingPlan) : PlanDesk host :=
  { (emptyDesk role).acceptPeerPlans [peer] with
    role := role
    plans := Table.empty.set ("EURUSD:1", own.direction) own }

theorem deskOf_accepts {role : Role} {own peer : SizingPlan} {version : String}
    (h : peer.version host = .ok version) :
    (deskOf role own peer).peerPlans.get (peer.productId, peer.direction) = some peer ∧
      (deskOf role own peer).peerPlanIndex.get version = some peer := by
  obtain ⟨hplans, hindex⟩ : ((emptyDesk role).acceptPeerPlan peer).peerPlans = _ ∧ _ :=
    acceptPeerPlan_of h
  constructor
  · exact (congrArg (fun t => t.get (peer.productId, peer.direction)) hplans).trans
      (Table.get_set_self _ _ _)
  · exact (congrArg (fun t => t.get version) hindex).trans (Table.get_set_self _ _ _)

/-- `0.57` and `0.425` lots have `0.42` in common. -/
theorem sample_sized_alike : ∃ lots : Decimal,
    combinePairLots (planOf "LONG" "0.57") (planOf "SHORT" "0.425") =
      some (lots, planOf "LONG" "0.57", planOf "SHORT" "0.425") ∧
    IsGreatest (Fits product (planOf "LONG" "0.57") (planOf "SHORT" "0.425"))
      lots.value := by
  obtain ⟨version, hversion⟩ := version_ok host (planOf "LONG" "0.57")
  obtain ⟨peerVersion, hpeerVersion⟩ := version_ok host (planOf "SHORT" "0.425")
  let leader := deskOf .leader (planOf "LONG" "0.57") (planOf "SHORT" "0.425")
  let follower := deskOf .follower (planOf "SHORT" "0.425") (planOf "LONG" "0.57")
  have hpeer : leader.peerPlans.get ("EURUSD:1", mirror "LONG") =
      some (planOf "SHORT" "0.425") :=
    (deskOf_accepts hpeerVersion).1
  have hindex : follower.peerPlanIndex.get version = some (planOf "LONG" "0.57") :=
    (deskOf_accepts hversion).2
  have hplan : follower.planForValidation "EURUSD:1" (mirror "LONG") peerVersion =
      some (planOf "SHORT" "0.425") :=
    planForValidation_current (Table.get_set_self _ _ _) hpeerVersion
  have hsized := both_workers_size_alike (planOf_onProduct _ _) (planOf_onProduct _ _) rfl
    (Table.get_set_self _ _ _) hpeer hversion hpeerVersion hplan hindex
      (fun _ => rfl) fun _ => rfl
  obtain ⟨hcombine, ⟨-, hempty, -⟩ | ⟨lots, hlots, hgreatest, -⟩⟩ := hsized
  · have hfits : (0.01 : Rat) ∈
        Fits product (planOf "LONG" "0.57") (planOf "SHORT" "0.425") := by
      refine ⟨⟨false, 1, -2⟩, ⟨false, 1, -2⟩, ⟨false, 57, -2⟩, ⟨false, 425, -3⟩,
        by decide +kernel,
        by decide +kernel, by decide +kernel, by decide +kernel, ⟨0, ?_⟩, ?_, ?_⟩ <;>
      norm_num [Decimal.value]
    rw [hempty] at hfits
    cases hfits
  · exact ⟨lots, hcombine.trans hlots, hgreatest⟩

end Sample

end PairCell.Canonical
