import Mathlib.Data.List.Basic
import Mathlib.Order.Basic

/-!
# Revisions with epochs

A revision has an epoch and a sequence number in it.  A log of revisions,
newest first, is unbroken if it never returns to an earlier epoch, and goes
forward if it never returns to an earlier number of the same one either.
-/

namespace PairCell.Lib

variable {α E S : Type} [Preorder S] {epoch : α → E} {seq : α → S}

def Unbroken (epoch : α → E) : List α → Prop
  | [] => True
  | q :: log => Unbroken epoch log ∧
      ((∃ p ∈ log.head?, epoch p = epoch q) ∨ ∀ r ∈ log, epoch r ≠ epoch q)

def Forward (epoch : α → E) (seq : α → S) : List α → Prop
  | [] => True
  | q :: log => Forward epoch seq log ∧
      ((∃ p ∈ log.head?, epoch p = epoch q ∧ seq p < seq q) ∨ ∀ r ∈ log, epoch r ≠ epoch q)

theorem Unbroken.of_append {newer log : List α} (h : Unbroken epoch (newer ++ log)) :
    Unbroken epoch log := by
  induction newer with
  | nil => exact h
  | cons q newer ih => exact ih h.1

/-- The revisions between two of one epoch are of this epoch. -/
theorem Unbroken.between {q a r : α} {mid rest : List α}
    (h : Unbroken epoch (q :: (mid ++ a :: rest))) (hr : r ∈ rest)
    (hepoch : epoch r = epoch q) :
    epoch a = epoch q := by
  induction mid generalizing q with
  | nil =>
      obtain ⟨-, ⟨_, ha, hsame⟩ | hnew⟩ := h
      · cases ha
        exact hsame
      · exact absurd hepoch (hnew r (List.mem_cons_of_mem _ hr))
  | cons m mid ih =>
      obtain ⟨hlog, ⟨_, hm, hsame⟩ | hnew⟩ := h
      · cases hm
        exact (ih hlog (hepoch.trans hsame.symm)).trans hsame
      · refine absurd hepoch (hnew r ?_)
        simp [hr]

namespace Forward

theorem lt {q r : α} {log : List α} (h : Forward epoch seq (q :: log)) (hr : r ∈ log)
    (hepoch : epoch r = epoch q) : seq r < seq q := by
  induction log generalizing q with
  | nil => cases hr
  | cons p log ih =>
      obtain ⟨hlog, ⟨_, hp, hsame, hlt⟩ | hnew⟩ := h
      · cases hp
        obtain rfl | hr := List.mem_cons.1 hr
        · exact hlt
        · exact (ih hlog hr (hepoch.trans hsame.symm)).trans hlt
      · exact absurd hepoch (hnew r hr)

end Forward

/-- `a` is not newer than `b` in the log. -/
def Older (log : List α) (a b : α) : Prop :=
  ∃ newer older, log = newer ++ b :: older ∧ a ∈ b :: older

namespace Older

variable {log : List α} {a b q : α}

theorem mono (h : Older log a b) (more : List α) : Older (more ++ log) a b := by
  obtain ⟨newer, older, rfl, ha⟩ := h
  exact ⟨more ++ newer, older, by simp, ha⟩

theorem newest (h : a ∈ q :: log) : Older (q :: log) a q := ⟨[], log, rfl, h⟩

theorem refl (h : a ∈ log) : Older log a a := by
  obtain ⟨newer, older, rfl⟩ := List.append_of_mem h
  exact ⟨newer, older, rfl, List.mem_cons_self⟩

/-- In an unbroken log no epoch lies between two revisions of another one. -/
theorem epoch_eq {r : α} (hlog : Unbroken epoch log) (hra : Older log r a)
    (haq : Older log a q) (hepoch : epoch r = epoch q) : epoch a = epoch q := by
  obtain ⟨newer, older, hsplit, ha⟩ := haq
  obtain ⟨newer', older', hsplit', hr⟩ := hra
  obtain rfl | ha := List.mem_cons.1 ha
  · rfl
  obtain rfl | hr := List.mem_cons.1 hr
  · exact hepoch
  rw [hsplit] at hsplit' hlog
  have hlog' := hsplit' ▸ hlog
  obtain ⟨mid, -, hmid⟩ | ⟨mid, -, hmid⟩ := List.append_eq_append_iff.1 hsplit'
  · -- the log holds `q`, then `a`, then `r`
    cases mid with
    | nil => exact congrArg epoch (List.cons.inj hmid).1.symm
    | cons m mid =>
        obtain ⟨rfl, rfl⟩ := List.cons.inj hmid
        exact hlog.of_append.between hr hepoch
  · -- the log holds `a`, then `q`, then `a`
    cases mid with
    | nil => exact congrArg epoch (List.cons.inj hmid).1
    | cons m mid =>
        obtain ⟨rfl, rfl⟩ := List.cons.inj hmid
        exact (hlog'.of_append.between ha rfl).symm

end Older

/-- What is taken of a log in its order, without what repeats the last number, goes
forward. -/
theorem Forward.take {log taken : List α} {q : α} (hlog : Unbroken epoch log)
    (htaken : Forward epoch seq taken) (horder : taken.Pairwise fun a b => Older log b a)
    (hq : ∀ a ∈ taken, Older log a q)
    (hlast : ∀ a ∈ taken.head?, epoch a = epoch q → seq a < seq q) :
    Forward epoch seq (q :: taken) := by
  refine ⟨htaken, ?_⟩
  cases taken with
  | nil => exact .inr (by simp)
  | cons a taken =>
      by_cases hepoch : epoch a = epoch q
      · exact .inl ⟨a, rfl, hepoch, hlast a rfl hepoch⟩
      · right
        intro r hr hsame
        obtain rfl | hr := List.mem_cons.1 hr
        · exact hepoch hsame
        · have hra : Older log r a := (List.pairwise_cons.1 horder).1 r hr
          exact hepoch (hra.epoch_eq hlog (hq a List.mem_cons_self) hsame)

end PairCell.Lib
