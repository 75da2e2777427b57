import Mathlib.Data.List.Nodup
import Mathlib.Data.List.Range

/-!
# Numbered slots

A list kept as numbered slots in any order, as it is collected piece by piece.
-/

namespace PairCell.Lib

variable {α β : Type}

/-- The list with `x` at position `i`, which is an old position or the next one. -/
def put (l : List α) (i : Nat) (x : α) : List α := l.take i ++ x :: l.drop (i + 1)

/-- The slots hold exactly the list, one slot for each position. -/
structure Holds (slots : List (Nat × α)) (l : List α) : Prop where
  distinct : (slots.map Prod.fst).Nodup
  mem : ∀ i x, (i, x) ∈ slots ↔ l[i]? = some x

theorem holds_nil : Holds ([] : List (Nat × α)) [] := by
  refine ⟨List.nodup_nil, ?_⟩
  intro i x
  simp

variable {slots : List (Nat × α)} {l : List α} {i : Nat} {x : α}

theorem getElem?_put (hi : i ≤ l.length) (j : Nat) :
    (put l i x)[j]? = if j = i then some x else l[j]? := by
  have htake : (l.take i).length = i := List.length_take_of_le hi
  rw [put]
  rcases lt_trichotomy j i with h | rfl | h
  · rw [List.getElem?_append_left (by omega), List.getElem?_take_of_lt h,
      if_neg (by omega)]
  · rw [List.getElem?_append_right (by omega), htake]
    simp
  · rw [List.getElem?_append_right (by omega), htake, if_neg (by omega)]
    obtain ⟨k, rfl⟩ : ∃ k, j = i + 1 + k := ⟨j - (i + 1), by omega⟩
    rw [show i + 1 + k - i = k + 1 by omega, List.getElem?_cons_succ, List.getElem?_drop]

theorem put_same (h : l[i]? = some x) : put l i x = l := by
  have hi : i < l.length := (List.getElem?_eq_some_iff.1 h).1
  apply List.ext_getElem?
  intro j
  rw [getElem?_put hi.le]
  split
  · next hj => rw [hj, h]
  · rfl

theorem Holds.put (h : Holds slots l) (hi : i ≤ l.length) :
    Holds ((i, x) :: slots.filter fun s => decide (s.1 ≠ i)) (put l i x) := by
  constructor
  · rw [List.map_cons, List.nodup_cons]
    refine ⟨?_, h.distinct.sublist (List.filter_sublist.map _)⟩
    intro hmem
    obtain ⟨s, hs, hsi⟩ := List.mem_map.1 hmem
    exact of_decide_eq_true (List.mem_filter.1 hs).2 hsi
  · intro j y
    rw [getElem?_put hi, List.mem_cons, List.mem_filter]
    by_cases hj : j = i
    · simp [hj, eq_comm]
    · simp [hj, h.mem]

theorem Holds.length_eq (h : Holds slots l) : slots.length = l.length := by
  have hperm : (slots.map Prod.fst).Perm (List.range l.length) := by
    rw [List.perm_ext_iff_of_nodup h.distinct List.nodup_range]
    intro i
    rw [List.mem_range, List.mem_map]
    constructor
    · rintro ⟨⟨_, x⟩, hs, rfl⟩
      exact (List.getElem?_eq_some_iff.1 ((h.mem _ x).1 hs)).1
    · intro hi
      exact ⟨(i, l[i]), (h.mem i l[i]).2 (List.getElem?_eq_getElem hi), rfl⟩
  simpa using hperm.length_eq

theorem Holds.find (h : Holds slots l) (i : Nat) :
    (slots.find? fun s => decide (s.1 = i)).map Prod.snd = l[i]? := by
  cases hfind : slots.find? fun s => decide (s.1 = i) with
  | none =>
      cases hl : l[i]? with
      | none => rfl
      | some x =>
          have hmem := (h.mem i x).2 hl
          have hne := List.find?_eq_none.1 hfind _ hmem
          simp at hne
  | some s =>
      have hi : s.1 = i := by simpa using List.find?_some hfind
      have hmem := List.mem_of_find?_eq_some hfind
      rw [Option.map_some, ← (h.mem i s.2).1 (hi ▸ hmem)]

/-- Reading the slots in order gives the list. -/
theorem Holds.collect {slots : List (Nat × List β)} {l : List (List β)}
    (h : Holds slots l) :
    ((List.range l.length).flatMap fun i =>
      ((slots.find? fun s => decide (s.1 = i)).map Prod.snd).getD []) = l.flatten := by
  have heach : ∀ i ∈ List.range l.length,
      ((slots.find? fun s => decide (s.1 = i)).map Prod.snd).getD [] = l[i]?.getD [] := by
    intro i _
    rw [h.find]
  rw [List.flatMap_congr heach, List.flatMap_def]
  congr 1
  apply List.ext_getElem?
  intro j
  rw [List.getElem?_map]
  by_cases hj : j < l.length
  · rw [List.getElem?_range hj, Option.map_some, List.getElem?_eq_getElem hj]
    rfl
  · rw [List.getElem?_eq_none (by simpa using hj),
      List.getElem?_eq_none (by simpa using hj)]
    rfl

end PairCell.Lib
