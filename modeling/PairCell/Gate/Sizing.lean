import Mathlib.Data.Rat.Floor
import Mathlib.Tactic.Linarith
import Mathlib.Tactic.FieldSimp
import Mathlib.Tactic.Positivity
import PairCell.Types

/-!
# Sizing and emergency protection

The immutable attempt with every field the two sides read, the sizing plans it
names, the common lots of two plans, and the stop and target that are attached
to the initial order.  A number that arrives as text is what `_to_decimal`
reads in it.
-/

namespace PairCell.Gate

/-- A per-product, per-direction plan; its version is the hash of its content. -/
structure SizingPlan where
  universeGeneration : Nat
  productId : Nat
  symbol : String
  direction : Direction
  marginPerLot : Option Rat
  localMaxLots : Option Rat
  tickSize : Option Rat
  profitTickValue : Option Rat
  lossTickValue : Option Rat
  volumeMin : Option Rat
  volumeStep : Option Rat
  fillingMode : Nat
  minimumStopDistance : Option Rat
  deriving DecidableEq, Repr

structure Attempt where
  attemptId : Nat
  policyHash : Nat
  routeId : Nat
  universeGeneration : Nat
  productId : Nat
  symbol : String
  leaderDirection : Direction
  followerDirection : Direction
  lots : Option Rat
  leaderQuote : Quote
  followerQuote : Quote
  /-- A plan version stands for the content it is the hash of. -/
  leaderPlanVersion : SizingPlan
  followerPlanVersion : SizingPlan
  leaderAllowanceEpoch : Nat
  followerAllowanceEpoch : Nat
  leaderAllowanceVersion : Nat
  followerAllowanceVersion : Nat
  leaderAllowedLossUsd : Option Rat
  followerAllowedLossUsd : Option Rat
  leaderRough : Option Rat × Option Rat
  followerRough : Option Rat × Option Rat
  fillingMode : Nat
  decisionTime : Nat
  confirmationTimeout : Nat
  deriving DecidableEq, Repr

namespace Attempt

def directionOf (a : Attempt) : Role → Direction
  | .leader => a.leaderDirection
  | .follower => a.followerDirection

def quoteOf (a : Attempt) : Role → Quote
  | .leader => a.leaderQuote
  | .follower => a.followerQuote

def allowedLossOf (a : Attempt) : Role → Option Rat
  | .leader => a.leaderAllowedLossUsd
  | .follower => a.followerAllowedLossUsd

end Attempt

def entryPrice (q : Quote) : Direction → Rat
  | .long => q.ask
  | .short => q.bid

def mirror : Direction → Direction
  | .long => .short
  | .short => .long

/-! ## Common lots -/

/-- Snap the lots down onto the shared broker volume grid. -/
def floorToVolumeStep (rawLots volumeMin volumeMax volumeStep : Rat) : Option Rat :=
  if volumeStep ≤ 0 ∨ volumeMin ≤ 0 ∨ volumeMax < volumeMin ∨ rawLots < volumeMin then none
  else
    let capped := min rawLots volumeMax
    let steps : Int := ⌊(capped - volumeMin) / volumeStep⌋
    let lots := volumeMin + steps * volumeStep
    if lots < volumeMin ∨ volumeMax < lots then none else some lots

theorem floorToVolumeStep_le {raw low high step lots : Rat}
    (h : floorToVolumeStep raw low high step = some lots) : lots ≤ high := by
  unfold floorToVolumeStep at h
  split at h
  · cases h
  · simp only [Option.ite_none_left_eq_some, not_or, not_lt, Option.some.injEq] at h
    obtain ⟨⟨-, hle⟩, rfl⟩ := h
    exact hle

/-- The common lots for two named plan versions, on the leader's grid. -/
def combinePairLots (leaderPlan followerPlan : SizingPlan) : Option Rat := do
  let leaderLots ← leaderPlan.localMaxLots
  let followerLots ← followerPlan.localMaxLots
  let volumeMin ← leaderPlan.volumeMin
  let volumeStep ← leaderPlan.volumeStep
  let lower := min leaderLots followerLots
  let lots ← floorToVolumeStep lower volumeMin lower volumeStep
  if lots ≤ 0 then none else some lots

theorem combinePairLots_le {leaderPlan followerPlan : SizingPlan} {lots : Rat}
    (h : combinePairLots leaderPlan followerPlan = some lots) :
    0 < lots ∧ ∃ most, followerPlan.localMaxLots = some most ∧ lots ≤ most := by
  simp only [combinePairLots, Option.bind_eq_bind, Option.bind_eq_some_iff,
    Option.ite_none_left_eq_some, not_le, Option.some.injEq] at h
  obtain ⟨leaderLots, -, followerLots, hfollower, low, -, step, -, x, hx, hpos, rfl⟩ := h
  have hle := floorToVolumeStep_le hx
  exact ⟨hpos, followerLots, hfollower, hle.trans (min_le_right _ _)⟩

/-! ## The rough stop and target -/

def roundUpToTick (price tick : Rat) : Rat := ⌈price / tick⌉ * tick

def roundDownToTick (price tick : Rat) : Rat := ⌊price / tick⌋ * tick

/-- Stop and target at equal amounts, each moved to the nearest tick towards the entry. -/
def protectionAt (entry : Rat) (direction : Direction)
    (tick lossDistance profitDistance : Rat) :
    Rat × Rat :=
  match direction with
  | .long =>
      (roundUpToTick (entry - lossDistance) tick,
        roundDownToTick (entry + profitDistance) tick)
  | .short =>
      (roundDownToTick (entry + lossDistance) tick,
        roundUpToTick (entry - profitDistance) tick)

/-- The stop and the target for an allowed loss, when one can be constructed. -/
def computeProtection (entry : Rat) (direction : Direction) (volume : Rat)
    (plan : SizingPlan) (allowedLossUsd : Rat) : Option (Rat × Rat) := do
  let tick ← plan.tickSize
  let minimum ← plan.minimumStopDistance
  let profitTickValue ← plan.profitTickValue
  let lossTickValue ← plan.lossTickValue
  if tick ≤ 0 ∨ minimum < 0 ∨ profitTickValue ≤ 0 ∨ lossTickValue ≤ 0 ∨ volume ≤ 0 ∨
      allowedLossUsd ≤ 0 then none
  else
    let lossTicks : Int := ⌊allowedLossUsd / (lossTickValue * volume)⌋
    let profitTicks : Int := ⌊allowedLossUsd / (profitTickValue * volume)⌋
    if lossTicks < 1 ∨ profitTicks < 1 then none
    else if lossTicks * tick < minimum ∨ profitTicks * tick < minimum then none
    else
      let (sl, tp) :=
        protectionAt entry direction tick (lossTicks * tick) (profitTicks * tick)
      if sl ≤ 0 ∨ tp ≤ 0 then none else some (sl, tp)

/-- What a leg of these lots loses in USD between the entry price and the stop. -/
def stopLossUsd (entry sl tick lossTickValue lots : Rat) : Rat :=
  |entry - sl| / tick * lossTickValue * lots

theorem roundUpToTick_ge (price : Rat) {tick : Rat} (h : 0 < tick) :
    price ≤ roundUpToTick price tick := by
  have hceil : price / tick ≤ ⌈price / tick⌉ := Int.le_ceil _
  exact (div_le_iff₀ h).1 hceil

theorem roundDownToTick_le (price : Rat) {tick : Rat} (h : 0 < tick) :
    roundDownToTick price tick ≤ price := by
  have hfloor : (⌊price / tick⌋ : Rat) ≤ price / tick := Int.floor_le _
  exact (le_div_iff₀ h).1 hfloor

/-- The stop lies on the side of the entry where the leg loses. -/
def onLossSide (entry sl : Rat) : Direction → Prop
  | .long => sl < entry
  | .short => entry < sl

/-- A stop on the losing side is no farther away than the loss distance. -/
theorem protectionAt_near {entry tick lossDistance profitDistance : Rat}
    {direction : Direction} (htick : 0 < tick)
    (hside : onLossSide entry
      (protectionAt entry direction tick lossDistance profitDistance).1
      direction) :
    |entry - (protectionAt entry direction tick lossDistance profitDistance).1| ≤
      lossDistance := by
  unfold onLossSide at hside
  cases direction with
  | long =>
      have hup := roundUpToTick_ge (entry - lossDistance) htick
      simp only [protectionAt] at hside ⊢
      rw [abs_of_pos (by linarith)]
      linarith
  | short =>
      have hdown := roundDownToTick_le (entry + lossDistance) htick
      simp only [protectionAt] at hside ⊢
      rw [abs_of_neg (by linarith)]
      linarith

/-- Whole ticks that an allowance pays for cost at most the allowance. -/
theorem lossTicks_cost (allowed : Rat) {value volume : Rat} (hvalue : 0 < value)
    (hvolume : 0 < volume) :
    (⌊allowed / (value * volume)⌋ : Rat) * value * volume ≤ allowed := by
  have hpos : 0 < value * volume := mul_pos hvalue hvolume
  have hfloor : (⌊allowed / (value * volume)⌋ : Rat) ≤ allowed / (value * volume) :=
    Int.floor_le _
  have hcost := (le_div_iff₀ hpos).1 hfloor
  rwa [← mul_assoc] at hcost

theorem computeProtection_cost {entry volume allowed sl tp : Rat} {direction : Direction}
    {plan : SizingPlan}
    (h : computeProtection entry direction volume plan allowed = some (sl, tp))
    (hside : onLossSide entry sl direction) :
    ∃ tick lossTickValue, plan.tickSize = some tick ∧
      plan.lossTickValue = some lossTickValue ∧
      stopLossUsd entry sl tick lossTickValue volume ≤ allowed := by
  simp only [computeProtection, Option.bind_eq_bind, Option.bind_eq_some_iff,
    Option.ite_none_left_eq_some, not_or, not_le, not_lt, Option.some.injEq,
    Prod.mk.injEq] at h
  obtain ⟨tick, htick, minimum, -, profitValue, -, value, hvalue,
      ⟨htickPos, -, -, hvaluePos,
    hvolumePos, -⟩, -, -, -, rfl, -⟩ := h
  refine ⟨tick, value, htick, hvalue, ?_⟩
  have hnear := protectionAt_near htickPos hside
  have hticks := (div_le_iff₀ htickPos).2 hnear
  have hcost := lossTicks_cost allowed hvaluePos hvolumePos
  unfold stopLossUsd
  refine le_trans ?_ hcost
  gcongr

end PairCell.Gate
