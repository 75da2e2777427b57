import PairCell.Gate.Play
import PairCell.Lib.Grid

/-!
# The stop and the target of a leg

What `compute_protection` guarantees, and when the protection that a leader
builds from a quote between two ticks keeps the broker's minimum distance.
-/

namespace PairCell.Gate

open Lib

/-! ## Whole ticks away from a price -/

section Ticks

variable {tick entry : Rat} {n : ℤ}

/-- `p` is a grid price on one side of the entry, at most `n` ticks away. -/
structure Away (tick entry : Rat) (n : ℤ) (p : Rat) : Prop where
  grid : OnGrid tick p
  near : |entry - p| ≤ n * tick
  exact : OnGrid tick entry → |entry - p| = n * tick

theorem roundUpToTick_eq (price tick : Rat) :
    roundUpToTick price tick = gridCeil tick price := rfl

theorem roundDownToTick_eq (price tick : Rat) :
    roundDownToTick price tick = gridFloor tick price :=
  rfl

/-- How far a price lies below the next tick, and above the last one. -/
def gapAbove (tick price : Rat) : Rat := roundUpToTick price tick - price

def gapBelow (tick price : Rat) : Rat := price - roundDownToTick price tick

theorem gapAbove_nonneg (htick : 0 < tick) (price : Rat) : 0 ≤ gapAbove tick price :=
  sub_nonneg.2 (le_gridCeil htick price)

theorem gapAbove_lt (htick : 0 < tick) (price : Rat) : gapAbove tick price < tick := by
  have hlt := gridCeil_lt htick price
  rw [gapAbove, roundUpToTick_eq]
  linarith

theorem gapBelow_nonneg (htick : 0 < tick) (price : Rat) : 0 ≤ gapBelow tick price :=
  sub_nonneg.2 (gridFloor_le htick price)

theorem gapBelow_lt (htick : 0 < tick) (price : Rat) : gapBelow tick price < tick := by
  have hlt := lt_gridFloor htick price
  rw [gapBelow, roundDownToTick_eq]
  linarith

/-- A price rounded up from `n` ticks below loses the gap to the tick above. -/
theorem entry_sub_roundUp (htick : 0 < tick) (entry : Rat) (n : ℤ) :
    entry - roundUpToTick (entry - n * tick) tick = n * tick - gapAbove tick entry := by
  rw [roundUpToTick_eq, gridCeil_sub htick, gapAbove, roundUpToTick_eq]
  ring

theorem roundDown_sub_entry (htick : 0 < tick) (entry : Rat) (n : ℤ) :
    roundDownToTick (entry + n * tick) tick - entry = n * tick - gapBelow tick entry := by
  rw [roundDownToTick_eq, gridFloor_add htick, gapBelow, roundDownToTick_eq]
  ring

theorem ticks_le (htick : 0 < tick) (hn : 1 ≤ n) : tick ≤ n * tick := by
  have hone : (1 : Rat) ≤ n := by exact_mod_cast hn
  calc tick = 1 * tick := (one_mul _).symm
    _ ≤ n * tick := mul_le_mul_of_nonneg_right hone htick.le

theorem roundUp_lt_entry (htick : 0 < tick) (entry : Rat) (hn : 1 ≤ n) :
    roundUpToTick (entry - n * tick) tick < entry := by
  have hgap := gapAbove_lt htick entry
  have hdist := entry_sub_roundUp htick entry n
  have hle := ticks_le htick hn
  linarith

theorem entry_lt_roundDown (htick : 0 < tick) (entry : Rat) (hn : 1 ≤ n) :
    entry < roundDownToTick (entry + n * tick) tick := by
  have hgap := gapBelow_lt htick entry
  have hdist := roundDown_sub_entry htick entry n
  have hle := ticks_le htick hn
  linarith

theorem abs_entry_sub_roundUp (htick : 0 < tick) (entry : Rat) (hn : 1 ≤ n) :
    |entry - roundUpToTick (entry - n * tick) tick| = n * tick - gapAbove tick entry := by
  rw [abs_of_pos (sub_pos.2 (roundUp_lt_entry htick entry hn)), entry_sub_roundUp htick]

theorem abs_entry_sub_roundDown (htick : 0 < tick) (entry : Rat) (hn : 1 ≤ n) :
    |entry - roundDownToTick (entry + n * tick) tick| =
      n * tick - gapBelow tick entry := by
  rw [abs_sub_comm, abs_of_pos (sub_pos.2 (entry_lt_roundDown htick entry hn)),
    roundDown_sub_entry htick]

theorem away_roundUp (htick : 0 < tick) (entry : Rat) (hn : 1 ≤ n) :
    Away tick entry n (roundUpToTick (entry - n * tick) tick) where
  grid := onGrid_gridCeil _ _
  near := by
    have hgap := gapAbove_nonneg htick entry
    rw [abs_entry_sub_roundUp htick entry hn]
    linarith
  exact := by
    intro hgrid
    have hgap : gapAbove tick entry = 0 := by
      rw [gapAbove, roundUpToTick_eq, hgrid.gridCeil_eq htick, sub_self]
    rw [abs_entry_sub_roundUp htick entry hn, hgap, sub_zero]

theorem away_roundDown (htick : 0 < tick) (entry : Rat) (hn : 1 ≤ n) :
    Away tick entry n (roundDownToTick (entry + n * tick) tick) where
  grid := onGrid_gridFloor _ _
  near := by
    have hgap := gapBelow_nonneg htick entry
    rw [abs_entry_sub_roundDown htick entry hn]
    linarith
  exact := by
    intro hgrid
    have hgap : gapBelow tick entry = 0 := by
      rw [gapBelow, roundDownToTick_eq, hgrid.gridFloor_eq htick, sub_self]
    rw [abs_entry_sub_roundDown htick entry hn, hgap, sub_zero]

/-! ## What the distance costs -/

/-- What a leg of these lots gains in USD between the entry price and the target. -/
def targetUsd (entry tp tick profitTickValue lots : Rat) : Rat :=
  |entry - tp| / tick * profitTickValue * lots

/-- The whole ticks an allowance pays for. -/
def ticksFor (allowed value volume : Rat) : ℤ := ⌊allowed / (value * volume)⌋

variable {allowed value volume p : Rat}

theorem Away.cost (h : Away tick entry (ticksFor allowed value volume) p)
    (htick : 0 < tick) (hvalue : 0 < value) (hvolume : 0 < volume) :
    |entry - p| / tick * value * volume ≤ allowed := by
  have hticks : |entry - p| / tick ≤ ticksFor allowed value volume :=
    (div_le_iff₀ htick).2 h.near
  have hcost := floor_mul_le (mul_pos hvalue hvolume) allowed
  calc |entry - p| / tick * value * volume
      ≤ ticksFor allowed value volume * value * volume := by gcongr
    _ = ticksFor allowed value volume * (value * volume) := mul_assoc _ _ _
    _ ≤ allowed := hcost

/-- On the grid, no grid price farther away costs as little. -/
theorem Away.widest (h : Away tick entry (ticksFor allowed value volume) p)
    (htick : 0 < tick) (hvalue : 0 < value) (hvolume : 0 < volume)
    (hentry : OnGrid tick entry) {q : Rat} (hq : OnGrid tick q)
    (hcost : |entry - q| / tick * value * volume ≤ allowed) :
    |entry - q| ≤ |entry - p| := by
  obtain ⟨i, hi⟩ := hentry
  obtain ⟨j, hj⟩ := hq
  have habs : |entry - q| = (|i - j| : ℤ) * tick := by
    rw [hi, hj, ← sub_mul, abs_mul, abs_of_pos htick]
    push_cast
    rfl
  have hwhole : |entry - q| / tick = (|i - j| : ℤ) := by
    rw [habs, mul_div_cancel_right₀ _ htick.ne']
  rw [hwhole, mul_assoc] at hcost
  have hle : |i - j| ≤ ticksFor allowed value volume :=
    le_floor_of_mul_le (mul_pos hvalue hvolume) hcost
  have hcast : ((|i - j| : ℤ) : Rat) ≤ ticksFor allowed value volume := by
    exact_mod_cast hle
  rw [h.exact ⟨i, hi⟩, habs]
  exact mul_le_mul_of_nonneg_right hcast htick.le

end Ticks

/-! ## The numbers of a plan -/

/-- The fields of a plan that a protection is computed from. -/
structure Numbers where
  tick : Rat
  minimum : Rat
  profitValue : Rat
  lossValue : Rat

def SizingPlan.numbers (plan : SizingPlan) : Option Numbers := do
  let tick ← plan.tickSize
  let minimum ← plan.minimumStopDistance
  let profitValue ← plan.profitTickValue
  let lossValue ← plan.lossTickValue
  some ⟨tick, minimum, profitValue, lossValue⟩

variable {entry volume allowed sl tp : Rat} {direction : Direction} {plan : SizingPlan}
  {n : Numbers}

/-- What `compute_protection` has checked and computed when it answers. -/
structure Built (entry : Rat) (direction : Direction) (volume allowed : Rat) (n : Numbers)
    (sl tp : Rat) : Prop where
  tick_pos : 0 < n.tick
  profit_pos : 0 < n.profitValue
  loss_pos : 0 < n.lossValue
  volume_pos : 0 < volume
  lossTicks : 1 ≤ ticksFor allowed n.lossValue volume
  profitTicks : 1 ≤ ticksFor allowed n.profitValue volume
  lossFar : n.minimum ≤ ticksFor allowed n.lossValue volume * n.tick
  profitFar : n.minimum ≤ ticksFor allowed n.profitValue volume * n.tick
  eq : protectionAt entry direction n.tick (ticksFor allowed n.lossValue volume * n.tick)
    (ticksFor allowed n.profitValue volume * n.tick) = (sl, tp)
  stop_pos : 0 < sl
  target_pos : 0 < tp

theorem computeProtection_built
    (h : computeProtection entry direction volume plan allowed = some (sl, tp)) :
    ∃ n, plan.numbers = some n ∧ Built entry direction volume allowed n sl tp := by
  simp only [computeProtection, Option.bind_eq_bind, Option.bind_eq_some_iff,
    Option.ite_none_left_eq_some, not_or, not_le, not_lt, Option.some.injEq] at h
  obtain ⟨tick, htick, minimum, hmin, profit, hprofit, loss, hloss,
      ⟨htickPos, -, hprofitPos,
    hlossPos, hvolume, -⟩, ⟨hlossTicks, hprofitTicks⟩, ⟨hlossFar, hprofitFar⟩,
    ⟨hsl, htp⟩, heq⟩ := h
  rw [Prod.mk.injEq] at heq
  obtain ⟨rfl, rfl⟩ := heq
  refine ⟨⟨tick, minimum, profit, loss⟩, ?_, htickPos, hprofitPos, hlossPos,
    hvolume, hlossTicks, hprofitTicks, hlossFar, hprofitFar, rfl, hsl, htp⟩
  simp [SizingPlan.numbers, htick, hmin, hprofit, hloss]

/-- The target lies on the side of the entry where the leg wins. -/
def onWinSide (entry tp : Rat) : Direction → Prop
  | .long => entry < tp
  | .short => tp < entry

namespace Built

variable (h : Built entry direction volume allowed n sl tp)
include h

theorem stop_away : Away n.tick entry (ticksFor allowed n.lossValue volume) sl := by
  have heq := h.eq
  cases direction with
  | long =>
      obtain ⟨rfl, -⟩ := Prod.mk.inj heq
      exact away_roundUp h.tick_pos entry h.lossTicks
  | short =>
      obtain ⟨rfl, -⟩ := Prod.mk.inj heq
      exact away_roundDown h.tick_pos entry h.lossTicks

theorem target_away : Away n.tick entry (ticksFor allowed n.profitValue volume) tp := by
  have heq := h.eq
  cases direction with
  | long =>
      obtain ⟨-, rfl⟩ := Prod.mk.inj heq
      exact away_roundDown h.tick_pos entry h.profitTicks
  | short =>
      obtain ⟨-, rfl⟩ := Prod.mk.inj heq
      exact away_roundUp h.tick_pos entry h.profitTicks

theorem stop_side : onLossSide entry sl direction := by
  have heq := h.eq
  cases direction with
  | long =>
      obtain ⟨rfl, -⟩ := Prod.mk.inj heq
      exact roundUp_lt_entry h.tick_pos entry h.lossTicks
  | short =>
      obtain ⟨rfl, -⟩ := Prod.mk.inj heq
      exact entry_lt_roundDown h.tick_pos entry h.lossTicks

theorem target_side : onWinSide entry tp direction := by
  have heq := h.eq
  cases direction with
  | long =>
      obtain ⟨-, rfl⟩ := Prod.mk.inj heq
      exact entry_lt_roundDown h.tick_pos entry h.profitTicks
  | short =>
      obtain ⟨-, rfl⟩ := Prod.mk.inj heq
      exact roundUp_lt_entry h.tick_pos entry h.profitTicks

theorem stop_cost : stopLossUsd entry sl n.tick n.lossValue volume ≤ allowed :=
  h.stop_away.cost h.tick_pos h.loss_pos h.volume_pos

theorem target_cost : targetUsd entry tp n.tick n.profitValue volume ≤ allowed :=
  h.target_away.cost h.tick_pos h.profit_pos h.volume_pos

end Built

/-- The stop and the target of a leg bound what it can lose and win. -/
structure RiskBounded (entry : Rat) (direction : Direction)
    (volume allowed : Rat) (n : Numbers) (sl tp : Rat) : Prop where
  stop_pos : 0 < sl
  target_pos : 0 < tp
  stop_grid : OnGrid n.tick sl
  target_grid : OnGrid n.tick tp
  stop_side : onLossSide entry sl direction
  target_side : onWinSide entry tp direction
  loss : stopLossUsd entry sl n.tick n.lossValue volume ≤ allowed
  profit : targetUsd entry tp n.tick n.profitValue volume ≤ allowed

/-- No grid price within the allowed amount is farther from the entry, and
the minimum is kept. -/
structure Widest (entry volume allowed : Rat) (n : Numbers) (sl tp : Rat) : Prop where
  stop_far : n.minimum ≤ |entry - sl|
  target_far : n.minimum ≤ |entry - tp|
  stop_widest : ∀ p, OnGrid n.tick p →
      stopLossUsd entry p n.tick n.lossValue volume ≤ allowed →
    |entry - p| ≤ |entry - sl|
  target_widest : ∀ p, OnGrid n.tick p →
      targetUsd entry p n.tick n.profitValue volume ≤ allowed →
    |entry - p| ≤ |entry - tp|

theorem Built.widest (h : Built entry direction volume allowed n sl tp)
    (hgrid : OnGrid n.tick entry) : Widest entry volume allowed n sl tp where
  stop_far := (h.stop_away.exact hgrid).symm ▸ h.lossFar
  target_far := (h.target_away.exact hgrid).symm ▸ h.profitFar
  stop_widest := fun _ hp hcost =>
    h.stop_away.widest h.tick_pos h.loss_pos h.volume_pos hgrid hp hcost
  target_widest := fun _ hp hcost =>
    h.target_away.widest h.tick_pos h.profit_pos h.volume_pos hgrid hp hcost

/--
Whenever `compute_protection` answers, the stop and the target are positive grid
prices on their sides of the entry that cost at most the allowed amount; from an
entry on the grid they keep the minimum distance and are the widest such prices.
-/
theorem protection_bounds_risk
    (h : computeProtection entry direction volume plan allowed = some (sl, tp)) :
    ∃ n, plan.numbers = some n ∧ RiskBounded entry direction volume allowed n sl tp ∧
      (OnGrid n.tick entry → Widest entry volume allowed n sl tp) := by
  obtain ⟨n, hn, hb⟩ := computeProtection_built h
  exact ⟨n, hn, ⟨hb.stop_pos, hb.target_pos, hb.stop_away.grid,
    hb.target_away.grid, hb.stop_side, hb.target_side, hb.stop_cost,
    hb.target_cost⟩, hb.widest⟩

/-- A long leg of two lots that may lose 20 USD. -/
theorem sample_protection_bounded :
    computeProtection 100 .long 2 (Sample.plan .long) 20 = some (99, 101) ∧
      ∃ n, (Sample.plan .long).numbers = some n ∧
        RiskBounded 100 .long 2 20 n 99 101 ∧
        (OnGrid n.tick 100 → Widest 100 2 20 n 99 101) := by
  have h : computeProtection 100 .long 2 (Sample.plan .long) 20 = some (99, 101) := by
    decide +kernel
  exact ⟨h, protection_bounds_risk h⟩

/-! ## The minimum distance of a leader's attempt -/

namespace Attempt

variable (a : Attempt)

def planVersionOf : Role → SizingPlan
  | .leader => a.leaderPlanVersion
  | .follower => a.followerPlanVersion

def roughOf : Role → Option Rat × Option Rat
  | .leader => a.leaderRough
  | .follower => a.followerRough

/-- The quote's price that the leg of this role enters at. -/
def entryOf (role : Role) : Rat := entryPrice (a.quoteOf role) (a.directionOf role)

/-- The rough stop and target keep the plan's minimum distance from the entry quote. -/
def KeepsMinimum (role : Role) : Prop :=
  ∃ sl tp minimum, a.roughOf role = (some sl, some tp) ∧
    (a.planVersionOf role).minimumStopDistance = some minimum ∧
    minimum ≤ |a.entryOf role - sl| ∧ minimum ≤ |tp - a.entryOf role|

end Attempt

/--
The whole ticks an allowance pays for exceed the minimum distance by what the
rounding towards the entry takes off.
-/
def Roomy (n : Numbers) (entry : Rat) (direction : Direction)
    (volume allowed : Rat) : Prop :=
  match direction with
  | .long =>
      n.minimum + gapAbove n.tick entry ≤ ticksFor allowed n.lossValue volume * n.tick ∧
        n.minimum + gapBelow n.tick entry ≤ ticksFor allowed n.profitValue volume * n.tick
  | .short =>
      n.minimum + gapBelow n.tick entry ≤ ticksFor allowed n.lossValue volume * n.tick ∧
        n.minimum + gapAbove n.tick entry ≤ ticksFor allowed n.profitValue volume * n.tick

/-- There is room at the quote, the plan, the lots and the allowance of the leg. -/
def Attempt.HasRoom (a : Attempt) (role : Role) : Prop :=
  ∃ lots ∈ a.lots, ∃ allowed ∈ a.allowedLossOf role, ∃ n ∈ (a.planVersionOf role).numbers,
    Roomy n (a.entryOf role) (a.directionOf role) lots allowed

/-- The numbers of a leg that the leader's `compute_protection` has built. -/
structure LegBuilt (a : Attempt) (role : Role) (lots allowed sl tp : Rat)
    (n : Numbers) : Prop where
  lots_eq : a.lots = some lots
  allowed_eq : a.allowedLossOf role = some allowed
  rough_eq : a.roughOf role = (some sl, some tp)
  numbers_eq : (a.planVersionOf role).numbers = some n
  built : Built (a.entryOf role) (a.directionOf role) lots allowed n sl tp

theorem numbers_minimum (h : plan.numbers = some n) :
    plan.minimumStopDistance = some n.minimum := by
  simp only [SizingPlan.numbers, Option.bind_eq_bind, Option.bind_eq_some_iff,
    Option.some.injEq] at h
  obtain ⟨_, -, minimum, hmin, _, -, _, -, rfl⟩ := h
  exact hmin

/-- Rounding towards the entry keeps the minimum exactly when there is room for it. -/
theorem Built.far_iff (h : Built entry direction volume allowed n sl tp) :
    (n.minimum ≤ |entry - sl| ∧ n.minimum ≤ |tp - entry|) ↔
      Roomy n entry direction volume allowed := by
  have heq := h.eq
  cases direction with
  | long =>
      obtain ⟨rfl, rfl⟩ := Prod.mk.inj heq
      rw [abs_sub_comm (roundDownToTick _ _),
        abs_entry_sub_roundUp h.tick_pos entry h.lossTicks,
        abs_entry_sub_roundDown h.tick_pos entry h.profitTicks, le_sub_iff_add_le,
        le_sub_iff_add_le]
      exact Iff.rfl
  | short =>
      obtain ⟨rfl, rfl⟩ := Prod.mk.inj heq
      rw [abs_sub_comm (roundUpToTick _ _),
        abs_entry_sub_roundDown h.tick_pos entry h.lossTicks,
        abs_entry_sub_roundUp h.tick_pos entry h.profitTicks, le_sub_iff_add_le,
        le_sub_iff_add_le]
      exact Iff.rfl

section Leader

variable {c : Cell} {x : Inputs} {a : Attempt} {role : Role} {lots : Rat}

theorem decideAttempt_legBuilt (h : c.decideAttempt x = some a) (role : Role) :
    ∃ lots allowed sl tp n, LegBuilt a role lots allowed sl tp n := by
  simp only [Cell.decideAttempt, Option.bind_eq_bind, Option.bind_eq_some_iff,
    Option.ite_none_left_eq_some, Option.some.injEq] at h
  obtain ⟨policy, -, u, -, -, -, -, peer, -, -, k, -,
      ⟨lots, leaderPlan, followerPlan⟩, -, -,
    ⟨leaderSl, leaderTp⟩, hleader, ⟨followerSl, followerTp⟩, hfollower, rfl⟩ := h
  cases role with
  | leader =>
      obtain ⟨n, hn, hb⟩ := computeProtection_built hleader
      exact ⟨lots, _, leaderSl, leaderTp, n, rfl, rfl, rfl, hn, hb⟩
  | follower =>
      obtain ⟨n, hn, hb⟩ := computeProtection_built hfollower
      exact ⟨lots, _, followerSl, followerTp, n, rfl, rfl, rfl, hn, hb⟩

namespace LegBuilt

variable {allowed sl tp : Rat} {n : Numbers} (h : LegBuilt a role lots allowed sl tp n)
include h

theorem hasRoom_iff :
    a.HasRoom role ↔ Roomy n (a.entryOf role) (a.directionOf role) lots allowed := by
  simp only [Attempt.HasRoom, h.lots_eq, h.allowed_eq, h.numbers_eq, Option.mem_some_iff,
    exists_eq_left']

theorem keepsMinimum_iff : a.KeepsMinimum role ↔ a.HasRoom role := by
  rw [h.hasRoom_iff, ← h.built.far_iff, Attempt.KeepsMinimum]
  simp only [h.rough_eq, numbers_minimum h.numbers_eq, Prod.mk.injEq, Option.some.injEq]
  constructor
  · rintro ⟨_, _, _, ⟨rfl, rfl⟩, rfl, hfar⟩
    exact hfar
  · intro hfar
    exact ⟨sl, tp, n.minimum, ⟨rfl, rfl⟩, rfl, hfar⟩

end LegBuilt

/-- The follower's checks before the distance hold of every protection the leader
builds. -/
theorem LegBuilt.attachable_iff {allowed sl tp : Rat} {n : Numbers}
    (h : LegBuilt a .follower lots allowed sl tp n) :
    Cell.roughProtectionAttachable a a.followerPlanVersion = true ↔
      a.HasRoom .follower := by
  have hrough : a.followerRough = (some sl, some tp) := h.rough_eq
  have hmin : a.followerPlanVersion.minimumStopDistance = some n.minimum :=
    numbers_minimum h.numbers_eq
  have hloss : onLossSide (entryPrice a.followerQuote a.followerDirection) sl
      a.followerDirection := h.built.stop_side
  have hwin : onWinSide (entryPrice a.followerQuote a.followerDirection) tp
      a.followerDirection := h.built.target_side
  rw [h.hasRoom_iff, ← h.built.far_iff, Cell.roughProtectionAttachable, hrough, hmin]
  simp only [Bool.and_eq_true, decide_eq_true_eq]
  constructor
  · intro hchecks
    exact hchecks.2
  · intro hfar
    refine ⟨⟨⟨h.built.stop_pos, h.built.target_pos⟩, ?_⟩, hfar⟩
    cases hd : a.followerDirection with
    | long =>
        rw [hd] at hloss hwin
        exact decide_eq_true ⟨hloss, hwin⟩
    | short =>
        rw [hd] at hloss hwin
        exact decide_eq_true ⟨hwin, hloss⟩

end Leader

end PairCell.Gate
