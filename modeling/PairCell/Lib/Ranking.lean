import Mathlib.Data.List.Pairwise
import Mathlib.Data.List.Sort
import Mathlib.Order.Defs.LinearOrder

/-!
# Ranking by a key

A list sorted by one key is also sorted by another exactly when the two keys
order every two of its elements alike.
-/

namespace PairCell.Lib

variable {α K L : Type} [LinearOrder K] [LinearOrder L]

def rank (key : α → K) (l : List α) : List α := l.insertionSort fun a b => key a ≤ key b

theorem rank_perm (key : α → K) (l : List α) : (rank key l).Perm l :=
  List.perm_insertionSort _ _

theorem mem_rank {key : α → K} {l : List α} {a : α} : a ∈ rank key l ↔ a ∈ l :=
  (rank_perm key l).mem_iff

theorem rank_pairwise (key : α → K) (l : List α) :
    (rank key l).Pairwise fun a b => key a ≤ key b := by
  have htotal : Std.Total fun a b : α => key a ≤ key b :=
    ⟨fun a b => le_total (key a) (key b)⟩
  have htrans : IsTrans α fun a b => key a ≤ key b := ⟨fun _ _ _ h h' => h.trans h'⟩
  exact List.pairwise_insertionSort _ l

/-- Both keys put the same one of two elements first. -/
def Alike (key : α → K) (other : α → L) (a b : α) : Prop :=
  (key a ≤ key b ∧ other a ≤ other b) ∨ (key b ≤ key a ∧ other b ≤ other a)

instance (key : α → K) (other : α → L) : Std.Symm (Alike key other) :=
  ⟨fun _ _ h => h.symm⟩

/-- Two keys that tie on the same elements only sort a list alike iff they agree on it. -/
theorem pairwise_le_iff {l : List α} {key : α → K} {other : α → L}
    (hl : l.Pairwise fun a b => key a ≤ key b)
    (htie : ∀ a ∈ l, ∀ b ∈ l, key a = key b ↔ other a = other b) :
    (l.Pairwise fun a b => other a ≤ other b) ↔
      ∀ a ∈ l, ∀ b ∈ l, (key a ≤ key b ↔ other a ≤ other b) := by
  constructor
  · intro hother a ha b hb
    -- one of the two stands first in the list, and both keys rank it there
    have halike : l.Pairwise (Alike key other) := (hl.and hother).imp .inl
    have hself : ∀ c ∈ l, Alike key other c c := fun c _ => .inl ⟨le_rfl, le_rfl⟩
    have hboth : Alike key other a b := List.Pairwise.forall_of_forall hself halike ha hb
    obtain ⟨hkey, hle⟩ | ⟨hkey, hle⟩ := hboth
    · exact ⟨fun _ => hle, fun _ => hkey⟩
    · constructor
      · intro h
        exact ((htie a ha b hb).1 (le_antisymm h hkey)).le
      · intro h
        exact ((htie a ha b hb).2 (le_antisymm h hle)).le
  · intro h
    exact hl.imp_of_mem fun ha hb hle => (h _ ha _ hb).1 hle

end PairCell.Lib
