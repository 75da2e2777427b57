import Mathlib.Algebra.Order.Floor.Ring
import Mathlib.Data.List.GetD
import Mathlib.Data.List.Sort
import Mathlib.Tactic.Linarith

/-!
# Medians and rounding to even

The median of a list over an ordered field, and the nearest integer of a
number where a tie goes to the even one.
-/

namespace PairCell.Lib

variable {α : Type} [Field α] [LinearOrder α]

/-- The middle of the sorted list, or the mean of the two in the middle. -/
def median (l : List α) : α :=
  let s := l.insertionSort (· ≤ ·)
  if s.length % 2 = 1 then s.getD (s.length / 2) 0
  else (s.getD (s.length / 2 - 1) 0 + s.getD (s.length / 2) 0) / 2

section Rounding

variable [FloorRing α]

/-- The nearest integer; a tie goes to the even one. -/
def halfEven (x : α) : ℤ :=
  if Int.fract x < 1 / 2 then ⌊x⌋
  else if 1 / 2 < Int.fract x then ⌊x⌋ + 1
  else if ⌊x⌋ % 2 = 0 then ⌊x⌋
  else ⌊x⌋ + 1

variable [IsStrictOrderedRing α]

theorem abs_halfEven_sub (x : α) : |(halfEven x : α) - x| ≤ 1 / 2 := by
  have hnonneg := Int.fract_nonneg x
  have hlt := Int.fract_lt_one x
  have hfloor : (⌊x⌋ : α) = x - Int.fract x := (Int.self_sub_fract x).symm
  rw [abs_le]
  unfold halfEven
  split
  · rw [hfloor]
    constructor <;> linarith
  · split
    · push_cast
      rw [hfloor]
      constructor <;> linarith
    · split
      · rw [hfloor]
        constructor <;> linarith
      · push_cast
        rw [hfloor]
        constructor <;> linarith

theorem halfEven_intCast (n : ℤ) : halfEven (n : α) = n := by
  simp [halfEven]

end Rounding

/-- The median is the mean of two members of the list. -/
theorem median_mean [IsStrictOrderedRing α] {l : List α} (h : l ≠ []) :
    ∃ a ∈ l, ∃ b ∈ l, median l = (a + b) / 2 := by
  have hlength : (l.insertionSort (· ≤ ·)).length = l.length :=
    List.length_insertionSort _ l
  have hpos : 0 < l.length := List.length_pos_iff.2 h
  have hmem : ∀ n, n < l.length → (l.insertionSort (· ≤ ·)).getD n 0 ∈ l := by
    intro n hn
    rw [List.getD_eq_getElem _ _ (hlength.symm ▸ hn)]
    exact (List.perm_insertionSort (· ≤ ·) l).mem_iff.1 (List.getElem_mem _)
  unfold median
  simp only [hlength]
  split
  · have hmid := hmem (l.length / 2) (by omega)
    exact ⟨_, hmid, _, hmid, by rw [add_self_div_two]⟩
  · exact ⟨_, hmem _ (by omega), _, hmem _ (by omega), rfl⟩

end PairCell.Lib
