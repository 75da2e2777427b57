import Mathlib.Algebra.Order.Floor.Ring
import Mathlib.Tactic.Linarith
import Mathlib.Tactic.FieldSimp

/-!
# Prices on a grid

The multiples of a positive step in an ordered field, and rounding to the next
of them in either direction.
-/

namespace PairCell.Lib

variable {α : Type} [Field α] [LinearOrder α]

/-- A whole multiple of the step. -/
def OnGrid (step x : α) : Prop := ∃ n : ℤ, x = n * step

section Rounding

variable [FloorRing α]

/-- The next grid point that is not below. -/
def gridCeil (step x : α) : α := ⌈x / step⌉ * step

/-- The next grid point that is not above. -/
def gridFloor (step x : α) : α := ⌊x / step⌋ * step

theorem onGrid_gridCeil (step x : α) : OnGrid step (gridCeil step x) := ⟨_, rfl⟩

theorem onGrid_gridFloor (step x : α) : OnGrid step (gridFloor step x) := ⟨_, rfl⟩

variable [IsStrictOrderedRing α] {step x y : α}

theorem le_gridCeil (hstep : 0 < step) (x : α) : x ≤ gridCeil step x :=
  (div_le_iff₀ hstep).1 (Int.le_ceil _)

theorem gridFloor_le (hstep : 0 < step) (x : α) : gridFloor step x ≤ x :=
  (le_div_iff₀ hstep).1 (Int.floor_le _)

theorem gridCeil_lt (hstep : 0 < step) (x : α) : gridCeil step x < x + step := by
  have hlt : (⌈x / step⌉ : α) < x / step + 1 := Int.ceil_lt_add_one _
  calc gridCeil step x < (x / step + 1) * step := mul_lt_mul_of_pos_right hlt hstep
    _ = x + step := by rw [add_mul, div_mul_cancel₀ _ hstep.ne', one_mul]

theorem lt_gridFloor (hstep : 0 < step) (x : α) : x < gridFloor step x + step := by
  have hlt : x / step < ⌊x / step⌋ + 1 := Int.lt_floor_add_one _
  calc x = x / step * step := (div_mul_cancel₀ _ hstep.ne').symm
    _ < (⌊x / step⌋ + 1) * step := mul_lt_mul_of_pos_right hlt hstep
    _ = gridFloor step x + step := by rw [add_mul, one_mul, gridFloor]

/-- A move by whole steps commutes with rounding. -/
theorem gridCeil_sub (hstep : 0 < step) (x : α) (n : ℤ) :
    gridCeil step (x - n * step) = gridCeil step x - n * step := by
  rw [gridCeil, sub_div, mul_div_cancel_right₀ _ hstep.ne',
    Int.ceil_sub_intCast, Int.cast_sub, sub_mul, gridCeil]

theorem gridFloor_add (hstep : 0 < step) (x : α) (n : ℤ) :
    gridFloor step (x + n * step) = gridFloor step x + n * step := by
  rw [gridFloor, add_div, mul_div_cancel_right₀ _ hstep.ne',
    Int.floor_add_intCast, Int.cast_add, add_mul, gridFloor]

theorem OnGrid.gridCeil_eq (h : OnGrid step x) (hstep : 0 < step) :
    gridCeil step x = x := by
  obtain ⟨n, rfl⟩ := h
  rw [gridCeil, mul_div_cancel_right₀ _ hstep.ne', Int.ceil_intCast]

theorem OnGrid.gridFloor_eq (h : OnGrid step x) (hstep : 0 < step) :
    gridFloor step x = x := by
  obtain ⟨n, rfl⟩ := h
  rw [gridFloor, mul_div_cancel_right₀ _ hstep.ne', Int.floor_intCast]

/-! ## Whole units that an amount pays for -/

theorem floor_mul_le {cost : α} (hcost : 0 < cost) (amount : α) :
    (⌊amount / cost⌋ : α) * cost ≤ amount :=
  (le_div_iff₀ hcost).1 (Int.floor_le _)

theorem le_floor_of_mul_le {cost amount : α} (hcost : 0 < cost) {n : ℤ}
    (h : (n : α) * cost ≤ amount) : n ≤ ⌊amount / cost⌋ :=
  Int.le_floor.2 ((le_div_iff₀ hcost).2 h)

end Rounding

end PairCell.Lib
