import Mathlib.Logic.Function.Basic
import PairCell.Lib.Runs

/-!
# Ventures

Several parties enter a venture on the terms of one of them, the lead.  Each
places one order at most, and none once its part is over; it counts the venture
as under way only when the orders of all are filled.
-/

namespace PairCell.Lib

variable {P α : Type}

/-- What one party has done about a venture. -/
structure Stake (α : Type) where
  terms : Option α := none
  orders : Nat := 0
  filled : Bool := false
  active : Bool := false
  ended : Bool := false

namespace Venture

variable {lead : P} {v : P → Stake α} {p : P} {k : Stake α}

/-- What a party may make of its stake. -/
structure Move (lead : P) (v : P → Stake α) (p : P) (k : Stake α) : Prop where
  terms : k.terms = (v p).terms ∨
    (v p).terms = none ∧ k.terms ≠ none ∧ (p ≠ lead → k.terms = (v lead).terms)
  orders : k.orders = (v p).orders ∨
    (v p).orders = 0 ∧ k.orders = 1 ∧ (v p).ended = false ∧ k.terms ≠ none
  filled : k.filled = (v p).filled ∨ k.filled = true ∧ k.terms ≠ none
  active : k.active = (v p).active ∨ k.active = true ∧ ∀ q, (v q).filled = true
  ended : k.ended = (v p).ended ∨ k.ended = true ∧ k.terms ≠ none

inductive Step [DecidableEq P] (lead : P) : (P → Stake α) → P → (P → Stake α) → Prop where
  | move {v : P → Stake α} (p : P) (k : Stake α) (h : Move lead v p k) :
      Step lead v p (Function.update v p k)

/-- Nobody has done anything yet. -/
def start : P → Stake α := fun _ => {}

/-- What holds of every venture. -/
structure Fair (lead : P) (v : P → Stake α) : Prop where
  agreed : ∀ p, (v p).terms ≠ none → (v p).terms = (v lead).terms
  engaged : ∀ p, (v p).terms = none →
    (v p).orders = 0 ∧ (v p).filled = false ∧ (v p).ended = false
  once : ∀ p, (v p).orders ≤ 1
  active : ∀ p, (v p).active = true → ∀ q, (v q).filled = true

theorem fair_start : Fair lead (start : P → Stake α) where
  agreed := fun _ h => absurd rfl h
  engaged := fun _ _ => ⟨rfl, rfl, rfl⟩
  once := fun _ => Nat.zero_le 1
  active := fun _ h => nomatch h

/-- The terms of a party stay once it has them. -/
theorem Move.keeps_terms (h : Move lead v p k) (hterms : (v p).terms ≠ none) :
    k.terms = (v p).terms := by
  obtain hsame | ⟨hnone, -⟩ := h.terms
  · exact hsame
  · exact absurd hnone hterms

theorem Move.keeps_filled (h : Move lead v p k) (hfilled : (v p).filled = true) :
    k.filled = true := by
  obtain hsame | ⟨hnew, -⟩ := h.filled
  · rw [hsame, hfilled]
  · exact hnew

theorem Move.engaged (h : Move lead v p k) (hv : Fair lead v) (hterms : k.terms = none) :
    k.orders = 0 ∧ k.filled = false ∧ k.ended = false := by
  have hold : (v p).terms = none := by
    by_contra hne
    exact hne ((h.keeps_terms hne).symm.trans hterms)
  obtain ⟨horders, hfilled, hover⟩ := hv.engaged p hold
  refine ⟨?_, ?_, ?_⟩
  · obtain hsame | ⟨-, -, -, hsome⟩ := h.orders
    · rw [hsame, horders]
    · exact absurd hterms hsome
  · obtain hsame | ⟨-, hsome⟩ := h.filled
    · rw [hsame, hfilled]
    · exact absurd hterms hsome
  · obtain hsame | ⟨-, hsome⟩ := h.ended
    · rw [hsame, hover]
    · exact absurd hterms hsome

variable [DecidableEq P]

theorem Fair.move (h : Fair lead v) (hk : Move lead v p k) :
    Fair lead (Function.update v p k) := by
  have hself : Function.update v p k p = k := Function.update_self p k v
  have hother : ∀ q, q ≠ p → Function.update v p k q = v q :=
    fun q hq => Function.update_of_ne hq k v
  have hlead : ∀ q, (v q).terms ≠ none →
      (Function.update v p k lead).terms = (v lead).terms := by
    intro q hq
    by_cases hl : lead = p
    · subst hl
      rw [hself]
      refine hk.keeps_terms ?_
      rw [← h.agreed q hq]
      exact hq
    · rw [hother lead hl]
  have hfilled : ∀ q, (v q).filled = true → (Function.update v p k q).filled = true := by
    intro q hq
    by_cases hp : q = p
    · subst hp
      rw [hself]
      exact hk.keeps_filled hq
    · rw [hother q hp]
      exact hq
  refine ⟨?_, ?_, ?_, ?_⟩
  · intro q hq
    by_cases hp : q = p
    · subst hp
      rw [hself] at hq ⊢
      by_cases hl : q = lead
      · subst hl
        rw [hself]
      · rw [hother lead (Ne.symm hl)]
        obtain hsame | ⟨-, -, hterms⟩ := hk.terms
        · rw [hsame] at hq ⊢
          exact h.agreed q hq
        · exact hterms hl
    · rw [hother q hp] at hq ⊢
      rw [hlead q hq]
      exact h.agreed q hq
  · intro q hq
    by_cases hp : q = p
    · subst hp
      rw [hself] at hq ⊢
      exact hk.engaged h hq
    · rw [hother q hp] at hq ⊢
      exact h.engaged q hq
  · intro q
    by_cases hp : q = p
    · subst hp
      rw [hself]
      obtain hsame | ⟨-, hone, -⟩ := hk.orders
      · rw [hsame]
        exact h.once q
      · exact Nat.le_of_eq hone
    · rw [hother q hp]
      exact h.once q
  · intro q hq r
    by_cases hp : q = p
    · subst hp
      rw [hself] at hq
      obtain hsame | ⟨-, hall⟩ := hk.active
      · exact hfilled r (h.active q (hsame.symm.trans hq) r)
      · exact hfilled r (hall r)
    · rw [hother q hp] at hq
      exact hfilled r (h.active q hq r)

theorem reach_fair {ok : (P → Stake α) → P → Prop} (h : Reach (Step lead) ok start v) :
    Fair lead v := by
  refine h.invariant fair_start ?_
  intro v p v' hfair _ hstep
  cases hstep with
  | move k hk => exact hfair.move hk

end Venture

end PairCell.Lib
