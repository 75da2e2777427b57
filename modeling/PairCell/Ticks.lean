import Mathlib.Data.Rat.Floor
import PairCell.Leg
import PairCell.Lib.Grid
import PairCell.Lib.Median

/-!
# Executable prices

What the comparison of an observed protection price with the expected one
accepts: only prices on the tick grid, each observed price for one of them.
-/

namespace PairCell

open Lib

theorem roundHalfEven_eq (q : Rat) : roundHalfEven q = halfEven q := by
  have hfloor : q.floor = ⌊q⌋ := rfl
  simp only [roundHalfEven, halfEven, hfloor, Int.fract]
  congr

theorem roundToTick_eq (price tick : Rat) :
    roundToTick price tick = halfEven (price / tick) * tick := by
  rw [roundToTick, roundHalfEven_eq]

theorem onGrid_roundToTick (price tick : Rat) : OnGrid tick (roundToTick price tick) :=
  ⟨_, rfl⟩

/-- A price that an order can carry: a whole number of ticks. -/
def Executable (tick price : Rat) : Prop := 0 < tick ∧ OnGrid tick price

theorem Executable.roundToTick {tick price : Rat} (h : Executable tick price) :
    roundToTick price tick = price := by
  obtain ⟨hpos, n, rfl⟩ := h
  rw [roundToTick_eq, mul_div_cancel_right₀ _ hpos.ne', halfEven_intCast]

/-- What an accepted price is: the expected one is on the grid, the observed
one rounds to it and differs by no more than a millionth of a tick. -/
theorem sameProtectionPrice_spec {expected observed tick : Rat}
    (h : sameProtectionPrice (some expected) (some observed) (some tick) = true) :
    Executable tick expected ∧ roundToTick observed tick = expected ∧
      |observed - expected| ≤ tick / 1000000 := by
  simp only [sameProtectionPrice] at h
  split at h
  · cases h
  · next htick =>
    have hpos : 0 < tick := lt_of_not_ge htick
    split at h
    · cases h
    · next hround =>
      have hself : expected = PairCell.roundToTick expected tick := not_not.1 hround
      have hexpected : Executable tick expected :=
        ⟨hpos, hself ▸ onGrid_roundToTick expected tick⟩
      split at h
      · next heq =>
        subst heq
        refine ⟨hexpected, hself.symm, ?_⟩
        rw [sub_self, abs_zero]
        exact div_nonneg hpos.le (by norm_num)
      · -- the tick-relative bound is never the larger one of the two
        simp only [Bool.and_eq_true, decide_eq_true_eq] at h
        exact ⟨hexpected, h.2, h.1.trans (min_le_left _ _)⟩

theorem sameProtectionPrice_self {expected tick : Rat} (h : Executable tick expected) :
    sameProtectionPrice (some expected) (some expected) (some tick) = true := by
  have hround := h.roundToTick
  simp [sameProtectionPrice, hround, not_le.2 h.1]

/-- Two executable prices are the same one or at least a tick apart. -/
theorem Executable.tick_le_abs_sub {tick p q : Rat} (hp : Executable tick p)
    (hq : Executable tick q) (hne : p ≠ q) : tick ≤ |p - q| := by
  obtain ⟨hpos, m, rfl⟩ := hp
  obtain ⟨-, n, rfl⟩ := hq
  have hdiff : m - n ≠ 0 := fun h => hne (by rw [sub_eq_zero.1 h])
  have hone : (1 : Rat) ≤ |((m - n : Int) : Rat)| := by
    exact_mod_cast Int.one_le_abs hdiff
  calc tick = 1 * tick := (one_mul tick).symm
    _ ≤ |((m - n : Int) : Rat)| * tick := mul_le_mul_of_nonneg_right hone hpos.le
    _ = |(m : Rat) * tick - n * tick| := by
        rw [← sub_mul, abs_mul, abs_of_pos hpos, Int.cast_sub]

theorem sameProtectionPrice_separates_ticks (tick : Rat) :
    (∀ expected expected' observed, Executable tick expected → Executable tick expected' →
      expected ≠ expected' →
      ¬(sameProtectionPrice (some expected) (some observed) (some tick) = true ∧
        sameProtectionPrice (some expected') (some observed) (some tick) = true)) ∧
    (∀ expected, Executable tick expected →
      sameProtectionPrice (some expected) (some expected) (some tick) = true) ∧
    (∀ expected observed, ¬Executable tick expected →
      sameProtectionPrice (some expected) observed (some tick) = false) ∧
    (∀ expected observed,
      sameProtectionPrice (some expected) (some observed) (some tick) = true →
        |observed - expected| ≤ tick / 1000000) ∧
    (∀ expected observed, Executable tick expected → Executable tick observed →
      expected ≠ observed →
        tick ≤ |expected - observed| ∧
        sameProtectionPrice (some expected) (some observed) (some tick) = false) := by
  refine ⟨?unique, fun _ h => sameProtectionPrice_self h, ?off, fun _ _ h =>
    (sameProtectionPrice_spec h).2.2, ?apart⟩
  case unique =>
    rintro expected expected' observed - - hne ⟨h, h'⟩
    exact hne
      ((sameProtectionPrice_spec h).2.1.symm.trans (sameProtectionPrice_spec h').2.1)
  case off =>
    intro expected observed hoff
    cases observed with
    | none => rfl
    | some observed =>
        rw [Bool.eq_false_iff]
        exact fun h => hoff (sameProtectionPrice_spec h).1
  case apart =>
    intro expected observed hexpected hobserved hne
    refine ⟨hexpected.tick_le_abs_sub hobserved hne, ?_⟩
    rw [Bool.eq_false_iff]
    intro h
    -- an executable price rounds to itself
    exact hne ((sameProtectionPrice_spec h).2.1.symm.trans hobserved.roundToTick)

theorem sameProtectionPrice_separates_cents :
    sameProtectionPrice (some (3 / 100)) (some (4 / 100)) (some (1 / 100)) = false :=
  ((sameProtectionPrice_separates_ticks (1 / 100)).2.2.2.2 (3 / 100) (4 / 100)
    ⟨by norm_num, 3, by norm_num⟩ ⟨by norm_num, 4, by norm_num⟩ (by norm_num)).2

end PairCell
