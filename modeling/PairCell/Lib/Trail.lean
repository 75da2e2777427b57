import Mathlib.Data.List.Basic

/-!
# Trails

A trail is what has happened, the newest entry first.  A question about it asks
for an entry together with those newer than it, and a trail is grounded when
each entry is justified by those older than it.
-/

namespace PairCell.Lib.Trail

variable {E : Type} {d : E} {t : List E}

/-- Some entry satisfies `P` together with the entries newer than it. -/
def Found (P : List E → E → Prop) (t : List E) : Prop :=
  ∃ newer e older, t = newer ++ e :: older ∧ P newer e

theorem found_nil (P : List E → E → Prop) : ¬Found P [] := by
  rintro ⟨newer, e, older, h, -⟩
  simp at h

theorem found_cons {P : List E → E → Prop} :
    Found P (d :: t) ↔ P [] d ∨ Found (fun newer e => P (d :: newer) e) t := by
  constructor
  · rintro ⟨newer, e, older, h, hP⟩
    cases newer with
    | nil =>
        obtain ⟨rfl, -⟩ := List.cons.inj h
        exact .inl hP
    | cons d' newer =>
        obtain ⟨rfl, rfl⟩ := List.cons.inj h
        exact .inr ⟨newer, e, older, rfl, hP⟩
  · rintro (hP | ⟨newer, e, older, rfl, hP⟩)
    · exact ⟨[], d, t, rfl, hP⟩
    · exact ⟨d :: newer, e, older, rfl, hP⟩

theorem Found.mono {P Q : List E → E → Prop} (h : Found P t)
    (hPQ : ∀ newer e, e ∈ t → P newer e → Q newer e) : Found Q t := by
  obtain ⟨newer, e, older, rfl, hP⟩ := h
  exact ⟨newer, e, older, rfl, hPQ newer e (by simp) hP⟩

theorem Found.mem {P : List E → E → Prop} (h : Found P t) :
    ∃ newer, ∃ e ∈ t, P newer e := by
  obtain ⟨newer, e, older, rfl, hP⟩ := h
  exact ⟨newer, e, by simp, hP⟩

/-! ## Grounded trails -/

/-- Each entry is justified by the entries older than it. -/
def Grounded (J : List E → E → Prop) (t : List E) : Prop :=
  ∀ newer e older, t = newer ++ e :: older → J older e

section Grounding

variable {J : List E → E → Prop}

theorem grounded_nil : Grounded J [] := by
  intro newer e older h
  simp at h

theorem grounded_cons : Grounded J (d :: t) ↔ J t d ∧ Grounded J t := by
  constructor
  · intro h
    exact ⟨h [] d t rfl, fun newer e older ht => h (d :: newer) e older (by rw [ht]; rfl)⟩
  · rintro ⟨hd, ht⟩ newer e older h
    cases newer with
    | nil =>
        obtain ⟨rfl, rfl⟩ := List.cons.inj h
        exact hd
    | cons d' newer =>
        obtain ⟨rfl, rfl⟩ := List.cons.inj h
        exact ht newer e older rfl

/-- Entries that need no justification. -/
theorem Grounded.append {entries : List E} (h : Grounded J t)
    (hentries : ∀ e ∈ entries, ∀ older, J older e) : Grounded J (entries ++ t) := by
  induction entries with
  | nil => exact h
  | cons e entries ih =>
      exact grounded_cons.2 ⟨hentries e List.mem_cons_self _,
        ih fun x hx => hentries x (List.mem_cons_of_mem _ hx)⟩

end Grounding

end PairCell.Lib.Trail
