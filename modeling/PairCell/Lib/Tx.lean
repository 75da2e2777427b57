import Mathlib.Logic.Relation

/-!
# Transactions

A transaction reads and writes a state and may fail.  `commit` keeps what it
wrote when it returns and rolls the state back when it fails.  The equations
say when a compound transaction returns, so that a proof takes one apart with
`obtain` and never unfolds the monad.
-/

namespace PairCell.Lib

abbrev Tx (ε σ : Type) := StateT σ (Except ε)

namespace Tx

variable {ε σ α β : Type}

def require (c : Prop) [Decidable c] (e : ε) : Tx ε σ Unit :=
  if c then pure () else throw e

def commit (t : Tx ε σ α) (s : σ) : Except ε α × σ :=
  match t.run s with
  | .ok (a, s') => (.ok a, s')
  | .error e => (.error e, s)

theorem bind_ok {t : Tx ε σ α} {f : α → Tx ε σ β} {s u : σ} {b : β} :
    (t >>= f).run s = .ok (b, u) ↔ ∃ a s', t.run s = .ok (a, s') ∧
    (f a).run s' = .ok (b, u) := by
  rw [StateT.run_bind]
  cases h : t.run s with
  | error e => simp [bind, Except.bind]
  | ok p =>
      obtain ⟨a, s'⟩ := p
      simp only [bind, Except.bind, Except.ok.injEq, Prod.mk.injEq]
      constructor
      · intro hf
        exact ⟨a, s', ⟨rfl, rfl⟩, hf⟩
      · rintro ⟨_, _, ⟨rfl, rfl⟩, hf⟩
        exact hf

theorem pure_ok {s u : σ} {a b : α} :
    (pure a : Tx ε σ α).run s = .ok (b, u) ↔ b = a ∧ u = s := by
  change (Except.ok (a, s) : Except ε (α × σ)) = .ok (b, u) ↔ _
  simp [eq_comm]

theorem get_ok {s u t : σ} : (MonadState.get : Tx ε σ σ).run s =
    .ok (t, u) ↔ t = s ∧ u = s := by
  simp [StateT.run_get, pure, Except.pure, eq_comm]

theorem modify_ok {f : σ → σ} {s u : σ} {b : Unit} :
    (modify f : Tx ε σ Unit).run s = .ok (b, u) ↔ u = f s := by
  simp [StateT.run_modify, pure, Except.pure, eq_comm]

theorem throw_ok {e : ε} {s u : σ} {b : α} :
    (throw e : Tx ε σ α).run s = .ok (b, u) ↔ False := by
  simp [throw, throwThe, MonadExceptOf.throw, StateT.run, StateT.lift, bind, Except.bind]

theorem require_ok {c : Prop} [Decidable c] {e : ε} {s u : σ} {b : Unit} :
    (require c e : Tx ε σ Unit).run s = .ok (b, u) ↔ c ∧ u = s := by
  by_cases h : c
  · simp only [require, h, if_true, pure_ok, true_and]
  · simp only [require, h, if_false, throw_ok, false_and]

theorem bind_error {t : Tx ε σ α} {f : α → Tx ε σ β} {s : σ} {e : ε} :
    (t >>= f).run s = .error e ↔
      t.run s = .error e ∨ ∃ a s', t.run s = .ok (a, s') ∧ (f a).run s' = .error e := by
  rw [StateT.run_bind]
  cases h : t.run s with
  | error e' => simp [bind, Except.bind]
  | ok p =>
      obtain ⟨a, s'⟩ := p
      simp only [bind, Except.bind, Except.ok.injEq, Prod.mk.injEq, reduceCtorEq, false_or]
      constructor
      · intro hf
        exact ⟨a, s', ⟨rfl, rfl⟩, hf⟩
      · rintro ⟨_, _, ⟨rfl, rfl⟩, hf⟩
        exact hf

/-- Every failure of `t` is one of `P`. -/
def Fails (P : ε → Prop) (t : Tx ε σ α) : Prop := ∀ s e, t.run s = .error e → P e

theorem Fails.bind {P : ε → Prop} {t : Tx ε σ α} {f : α → Tx ε σ β} (ht : Fails P t)
    (hf : ∀ a, Fails P (f a)) : Fails P (t >>= f) := by
  intro s e h
  obtain h | ⟨a, s', -, h⟩ := bind_error.1 h
  · exact ht s e h
  · exact hf a s' e h

theorem fails_pure (P : ε → Prop) (a : α) : Fails P (pure a : Tx ε σ α) := by
  intro s e h
  change (Except.ok (a, s) : Except ε (α × σ)) = .error e at h
  cases h

theorem fails_get (P : ε → Prop) : Fails P (MonadState.get : Tx ε σ σ) := by
  intro s e h
  change (Except.ok (s, s) : Except ε (σ × σ)) = .error e at h
  cases h

theorem fails_modify (P : ε → Prop) (f : σ → σ) : Fails P (modify f : Tx ε σ Unit) := by
  intro s e h
  change (Except.ok ((), f s) : Except ε (Unit × σ)) = .error e at h
  cases h

theorem fails_throw {P : ε → Prop} {e : ε} (he : P e) : Fails P (throw e : Tx ε σ α) := by
  intro s e' h
  change (Except.error e : Except ε (α × σ)) = .error e' at h
  cases h
  exact he

theorem fails_require {P : ε → Prop} {c : Prop} [Decidable c] {e : ε} (he : P e) :
    Fails P (require c e : Tx ε σ Unit) := by
  unfold require
  split
  · exact fails_pure P ()
  · exact fails_throw he

theorem commit_ok {t : Tx ε σ α} {s s' : σ} {a : α} :
    t.commit s = (.ok a, s') ↔ t.run s = .ok (a, s') := by
  unfold commit
  split <;> simp_all

theorem commit_error {t : Tx ε σ α} {s s' : σ} {e : ε} :
    t.commit s = (.error e, s') ↔ t.run s = .error e ∧ s' = s := by
  unfold commit
  split
  · next h => simp [h]
  · next h => simp [h, eq_comm]

theorem commit_invariant {I : σ → Prop} {t : Tx ε σ α} {s : σ} (hs : I s)
    (hok : ∀ a s', t.commit s = (.ok a, s') → I s') : I (t.commit s).2 := by
  cases h : t.run s with
  | ok p =>
      have hc : t.commit s = (.ok p.1, p.2) := commit_ok.2 h
      rw [hc]
      exact hok p.1 p.2 hc
  | error e =>
      rw [commit_error.2 ⟨h, rfl⟩]
      exact hs

/-- Every normal return of `t` ends where finitely many writes of `R` lead. -/
def Writes (R : σ → σ → Prop) (t : Tx ε σ α) : Prop :=
  ∀ s a s', t.run s = .ok (a, s') → Relation.ReflTransGen R s s'

theorem Writes.bind {R : σ → σ → Prop} {t : Tx ε σ α} {f : α → Tx ε σ β} (ht : Writes R t)
    (hf : ∀ a, Writes R (f a)) : Writes R (t >>= f) := by
  intro s b u h
  obtain ⟨a, s', h1, h2⟩ := bind_ok.1 h
  exact (ht s a s' h1).trans (hf a s' b u h2)

theorem writes_pure (R : σ → σ → Prop) (a : α) : Writes R (pure a : Tx ε σ α) := by
  intro s b u h
  obtain ⟨-, rfl⟩ := pure_ok.1 h
  exact .refl

theorem Writes.commit {R : σ → σ → Prop} {t : Tx ε σ α} (ht : Writes R t) (s : σ) :
    Relation.ReflTransGen R s (t.commit s).2 :=
  commit_invariant (I := Relation.ReflTransGen R s) .refl
    fun a s' h => ht s a s' (commit_ok.1 h)

end Tx

end PairCell.Lib
