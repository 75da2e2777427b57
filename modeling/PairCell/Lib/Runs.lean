/-!
# Runs of a labelled transition system

`Reach step ok s t` says that `t` is reached from `s` by steps whose labels all
meet the condition `ok` in the state they leave.
-/

namespace PairCell.Lib

variable {σ ℓ : Type} {step : σ → ℓ → σ → Prop} {ok ok' : σ → ℓ → Prop}

inductive Reach (step : σ → ℓ → σ → Prop) (ok : σ → ℓ → Prop) (s : σ) : σ → Prop where
  | refl : Reach step ok s s
  | tail {t u : σ} (l : ℓ) (h : Reach step ok s t) (hok : ok t l) (hstep : step t l u) :
      Reach step ok s u

/-- What the first state satisfies and every step keeps holds in every state reached. -/
theorem Reach.invariant {I : σ → Prop} {s t : σ} (h : Reach step ok s t) (hs : I s)
    (hstep : ∀ t l u, I t → ok t l → step t l u → I u) : I t := by
  induction h with
  | refl => exact hs
  | tail l _ hok hst ih => exact hstep _ l _ ih hok hst

theorem Reach.trans {s t u : σ} (h : Reach step ok s t) (h' : Reach step ok t u) :
    Reach step ok s u := by
  induction h' with
  | refl => exact h
  | tail l _ hok hst ih => exact .tail l ih hok hst

theorem Reach.mono {s t : σ} (h : Reach step ok s t) (hok : ∀ t l, ok t l → ok' t l) :
    Reach step ok' s t := by
  induction h with
  | refl => exact .refl
  | tail l _ ho hst ih => exact .tail l ih (hok _ _ ho) hst

/-- A run goes over into a run of another system, when each of its steps does. -/
theorem Reach.simulate {τ κ : Type} {step' : τ → κ → τ → Prop}
    {ok' : τ → κ → Prop} {f : σ → τ} {s t : σ} (h : Reach step ok s t)
    (hstep : ∀ t l u, Reach step ok s t → step t l u → Reach step' ok' (f t) (f u)) :
    Reach step' ok' (f s) (f t) := by
  induction h with
  | refl => exact .refl
  | tail l h _ hst ih => exact ih.trans (hstep _ l _ h hst)

/-! ## Runs of a function -/

section Function

variable {next : σ → ℓ → σ}

/-- Every label of the list meets `ok` in the state where it is taken. -/
def Along (next : σ → ℓ → σ) (ok : σ → ℓ → Prop) : σ → List ℓ → Prop
  | _, [] => True
  | s, l :: ls => ok s l ∧ Along next ok (next s l) ls

instance decidableAlong [∀ s l, Decidable (ok s l)] :
    ∀ (s : σ) (ls : List ℓ), Decidable (Along next ok s ls)
  | _, [] => isTrue trivial
  | s, l :: ls =>
      have := decidableAlong (next s l) ls
      inferInstanceAs (Decidable (ok s l ∧ Along next ok (next s l) ls))

/-- A condition on the labels alone may be asked of every step. -/
theorem Along.with {Q : ℓ → Prop} {s : σ} {ls : List ℓ} (h : Along next ok s ls)
    (hQ : ∀ l ∈ ls, Q l) : Along next (fun s l => ok s l ∧ Q l) s ls := by
  induction ls generalizing s with
  | nil => trivial
  | cons l ls ih =>
      exact ⟨⟨h.1, hQ l List.mem_cons_self⟩,
        ih h.2 fun m hm => hQ m (List.mem_cons_of_mem _ hm)⟩

theorem along_concat {s : σ} {ls : List ℓ} {l : ℓ} :
    Along next ok s (ls ++ [l]) ↔ Along next ok s ls ∧ ok (ls.foldl next s) l := by
  induction ls generalizing s with
  | nil => simp [Along]
  | cons m ls ih => simp [Along, ih, and_assoc]

theorem Along.reach {s : σ} {ls : List ℓ} (h : Along next ok s ls) :
    Reach (fun s l t => t = next s l) ok s (ls.foldl next s) := by
  induction ls generalizing s with
  | nil => exact .refl
  | cons l ls ih =>
      have first : Reach (fun s l t => t = next s l) ok s (next s l) :=
        .tail l .refl h.1 rfl
      exact first.trans (ih h.2)

end Function

/-! ## Playing a run -/

section Play

variable {μ : Type} (next : σ → μ → Option (ℓ × σ)) (optional : μ → Bool) (ok)
  [∀ s l, Decidable (ok s l)]

/-- Carry out moves one after the other; one that is not possible is left out
or ends the run. -/
def play : σ → List μ → Option σ
  | s, [] => some s
  | s, m :: ms =>
      match next s m with
      | some (l, t) => if ok s l then play t ms else none
      | none => if optional m then play s ms else none

variable {next optional ok}

theorem play_reach (hnext : ∀ s m l t, next s m = some (l, t) → step s l t)
    {s t : σ} {ms : List μ} (h : play ok next optional s ms = some t) :
    Reach step ok s t := by
  fun_induction play ok next optional s ms with
  | case1 s =>
      obtain rfl := Option.some.inj h
      exact .refl
  | case2 s m ms l u hm hok ih =>
      have first : Reach step ok s u := .tail l .refl hok (hnext s m l u hm)
      exact first.trans (ih h)
  | case3 => cases h
  | case4 s m ms hm hopt ih => exact ih h
  | case5 => cases h

/-- A run whose last state has a property that can be decided. -/
theorem play_any (hnext : ∀ s m l t, next s m = some (l, t) → step s l t)
    {s : σ} {ms : List μ} (P : σ → Bool) (h : (play ok next optional s ms).any P = true) :
    ∃ t, Reach step ok s t ∧ P t = true := by
  cases hplay : play ok next optional s ms with
  | none => simp [hplay] at h
  | some t => exact ⟨t, play_reach hnext hplay, by simpa [hplay] using h⟩

end Play

end PairCell.Lib
