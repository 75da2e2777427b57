import Mathlib.Data.List.Basic

/-!
# Handlers that emit actions

A handler reads a state and emits a list of atomic actions; it ends with a
value or by raising.  The actions are the only way the state changes, so the
state at any instant of a run is the fold of a prefix of the emitted list, and
a process that is killed simply keeps such a prefix.

`Emits` bounds the actions a handler can emit whatever the state.  `wp` is a
weakest precondition: it asks that every emitted action is admissible in the
state it is applied to, and that the result and the final state satisfy a
postcondition.
-/

namespace PairCell.Lib

/-- A state that changes by atomic actions. -/
class Acts (σ : Type) (A : outParam Type) where
  act : σ → A → σ

section After

variable {σ A : Type} [Acts σ A]

/-- The state after a list of actions. -/
def after (s : σ) (t : List A) : σ := t.foldl Acts.act s

@[simp] theorem after_nil (s : σ) : after s ([] : List A) = s := rfl

@[simp] theorem after_cons (s : σ) (a : A) (t : List A) :
    after s (a :: t) = after (Acts.act s a) t := rfl

theorem after_append (s : σ) (t u : List A) :
    after s (t ++ u) = after (after s t) u := by
  simp [after, List.foldl_append]

/-- Every action is admissible in the state it is applied to. -/
def Allowed (G : σ → A → Prop) : σ → List A → Prop
  | _, [] => True
  | s, a :: t => G s a ∧ Allowed G (Acts.act s a) t

@[simp] theorem allowed_nil (G : σ → A → Prop) (s : σ) : Allowed G s [] := trivial

theorem allowed_cons {G : σ → A → Prop} {s : σ} {a : A} {t : List A} :
    Allowed G s (a :: t) ↔ G s a ∧ Allowed G (Acts.act s a) t := Iff.rfl

theorem allowed_append {G : σ → A → Prop} {s : σ} {t u : List A} :
    Allowed G s (t ++ u) ↔ Allowed G s t ∧ Allowed G (after s t) u := by
  induction t generalizing s with
  | nil => simp
  | cons a t ih =>
      simp only [List.cons_append, allowed_cons, after_cons, ih]
      exact ⟨fun h => ⟨⟨h.1, h.2.1⟩, h.2.2⟩, fun h => ⟨h.1.1, h.1.2, h.2⟩⟩

theorem Allowed.of_true (s : σ) (t : List A) : Allowed (fun _ _ => True) s t := by
  induction t generalizing s with
  | nil => trivial
  | cons a t ih => exact ⟨trivial, ih _⟩

theorem Allowed.mono {G G' : σ → A → Prop} {s : σ} {t : List A} (h : Allowed G s t)
    (hG : ∀ s a, G s a → G' s a) : Allowed G' s t := by
  induction t generalizing s with
  | nil => trivial
  | cons a t ih => exact ⟨hG s a h.1, ih h.2⟩

theorem allowed_of_forall {G : σ → A → Prop} {t : List A}
    (h : ∀ a ∈ t, ∀ s, G s a) (s : σ) :
    Allowed G s t := by
  induction t generalizing s with
  | nil => trivial
  | cons a t ih => exact ⟨h a (by simp) s, ih (fun b hb => h b (by simp [hb])) _⟩

theorem Allowed.mem {G : σ → A → Prop} {s : σ} {t : List A} (h : Allowed G s t) {a : A}
    (ha : a ∈ t) : ∃ s', G s' a := by
  induction t generalizing s with
  | nil => cases ha
  | cons b t ih =>
      obtain rfl | ha := List.mem_cons.1 ha
      · exact ⟨s, h.1⟩
      · exact ih h.2 ha

theorem Allowed.with {G : σ → A → Prop} {K : A → Prop} {s : σ} {t : List A}
    (h : Allowed G s t) (hK : ∀ a ∈ t, K a) : Allowed (fun s a => G s a ∧ K a) s t := by
  induction t generalizing s with
  | nil => trivial
  | cons a t ih =>
      exact ⟨⟨h.1, hK a List.mem_cons_self⟩,
        ih h.2 fun b hb => hK b (List.mem_cons_of_mem _ hb)⟩

/-- An invariant of single admissible actions is an invariant of lists of them. -/
theorem Allowed.preserve {G : σ → A → Prop} {I : σ → Prop}
    (hstep : ∀ s a, I s → G s a → I (Acts.act s a))
    {s : σ} {t : List A} (h : Allowed G s t) (hs : I s) : I (after s t) := by
  induction t generalizing s with
  | nil => exact hs
  | cons a t ih => exact ih h.2 (hstep s a hs h.1)

/-- What every action leaves behind holds at every instant. -/
theorem Allowed.of_initial {P : σ → Prop} {s : σ} {t done : List A}
    (h : Allowed (fun s a => P (Acts.act s a)) s t) (hs : P s) (hdone : done <+: t) :
    P (after s done) := by
  obtain ⟨rest, rfl⟩ := hdone
  exact (allowed_append.1 h).1.preserve (fun _ _ _ ha => ha) hs

end After

/-- A handler over states `σ`, actions `A` and exceptions `ε`. -/
def Handler (σ A ε α : Type) : Type := σ → Except ε α × List A

section Emits

variable {σ A ε α β : Type}

/-- The state the next action will be applied to. -/
def get : Handler σ A ε σ := fun s => (.ok s, [])

def emit (a : A) : Handler σ A ε Unit := fun _ => (.ok (), [a])

def raise (e : ε) : Handler σ A ε α := fun _ => (.error e, [])

/-- What the handler raises becomes its result. -/
def attempt (m : Handler σ A ε α) : Handler σ A ε (Except ε α) :=
  fun s => (.ok (m s).1, (m s).2)

/-- Every action the handler emits, in any state, satisfies `K`. -/
def Emits (K : A → Prop) (m : Handler σ A ε α) : Prop := ∀ s, ∀ a ∈ (m s).2, K a

theorem emits_get {K : A → Prop} : Emits K (get : Handler σ A ε σ) := by
  intro s x hx
  simp [get] at hx

theorem emits_emit {K : A → Prop} {a : A} (h : K a) :
    Emits K (emit a : Handler σ A ε Unit) := by
  intro s x hx
  simp only [emit, List.mem_singleton] at hx
  exact hx ▸ h

theorem emits_raise {K : A → Prop} (e : ε) :
    Emits K (raise e : Handler σ A ε α) := by
  intro s x hx
  simp [raise] at hx

end Emits

section Rules

variable {σ A ε α β : Type} [Acts σ A]

instance : Monad (Handler σ A ε) where
  pure a := fun _ => (.ok a, [])
  bind m f := fun s =>
    match m s with
    | (.ok a, t) => ((f a (after s t)).1, t ++ (f a (after s t)).2)
    | (.error e, t) => (.error e, t)

theorem pure_run (a : α) (s : σ) : (pure a : Handler σ A ε α) s = (.ok a, []) := rfl

theorem bind_run (m : Handler σ A ε α) (f : α → Handler σ A ε β) (s : σ) :
    (m >>= f) s =
      match m s with
      | (.ok a, t) => ((f a (after s t)).1, t ++ (f a (after s t)).2)
      | (.error e, t) => (.error e, t) := rfl

theorem get_bind_run (f : σ → Handler σ A ε β) (s : σ) : (get >>= f) s = f s s := by
  simp [bind_run, get]

/-- What the first part emits comes first. -/
theorem bind_emits (m : Handler σ A ε α) (f : α → Handler σ A ε β) (s : σ) :
    ∃ u, ((m >>= f) s).2 = (m s).2 ++ u := by
  rw [bind_run]
  rcases m s with ⟨e | a, t⟩
  · exact ⟨[], (List.append_nil t).symm⟩
  · exact ⟨_, rfl⟩

theorem emits_pure {K : A → Prop} (a : α) :
    Emits K (pure a : Handler σ A ε α) := by
  intro s x hx
  simp [pure_run] at hx

theorem emits_bind {K : A → Prop} {m : Handler σ A ε α} {f : α → Handler σ A ε β}
    (hm : Emits K m) (hf : ∀ a, Emits K (f a)) : Emits K (m >>= f) := by
  intro s x hx
  rw [bind_run] at hx
  have hms := hm s
  rcases hrun : m s with ⟨_ | a, t⟩ <;> rw [hrun] at hx hms
  · exact hms x hx
  · rcases List.mem_append.mp hx with h | h
    · exact hms x h
    · exact hf a _ x h

/--
Every action `m` emits from `s` is admissible, and its result and the state it
leaves satisfy `R`.
-/
def wp (G : σ → A → Prop) (m : Handler σ A ε α) (R : Except ε α → σ → Prop)
    (s : σ) : Prop :=
  Allowed G s (m s).2 ∧ R (m s).1 (after s (m s).2)

variable {G : σ → A → Prop}

@[simp] theorem wp_pure (a : α) (R : Except ε α → σ → Prop) (s : σ) :
    wp G (pure a) R s ↔ R (.ok a) s := by
  simp [wp, pure_run]

@[simp] theorem wp_get (R : Except ε σ → σ → Prop) (s : σ) :
    wp G get R s ↔ R (.ok s) s := by
  simp [wp, get]

@[simp] theorem wp_emit (a : A) (R : Except ε Unit → σ → Prop) (s : σ) :
    wp G (emit a) R s ↔ G s a ∧ R (.ok ()) (Acts.act s a) := by
  simp [wp, emit, Allowed]

@[simp] theorem wp_raise (e : ε) (R : Except ε α → σ → Prop) (s : σ) :
    wp G (raise e) R s ↔ R (.error e) s := by
  simp [wp, raise]

@[simp] theorem wp_attempt (m : Handler σ A ε α)
    (R : Except ε (Except ε α) → σ → Prop) (s : σ) :
    wp G (attempt m) R s ↔ wp G m (fun r s' => R (.ok r) s') s := Iff.rfl

/-- What the continuation of a bind has to establish. -/
def next (G : σ → A → Prop) (f : α → Handler σ A ε β) (R : Except ε β → σ → Prop) :
    Except ε α → σ → Prop
  | .ok a, s => wp G (f a) R s
  | .error e, s => R (.error e) s

@[simp] theorem next_ok (f : α → Handler σ A ε β) (R : Except ε β → σ → Prop)
    (a : α) (s : σ) :
    next G f R (.ok a) s ↔ wp G (f a) R s := Iff.rfl

@[simp] theorem next_error (f : α → Handler σ A ε β) (R : Except ε β → σ → Prop)
    (e : ε) (s : σ) :
    next G f R (.error e) s ↔ R (.error e) s := Iff.rfl

@[simp] theorem wp_bind (m : Handler σ A ε α) (f : α → Handler σ A ε β)
    (R : Except ε β → σ → Prop) (s : σ) :
    wp G (m >>= f) R s ↔ wp G m (next G f R) s := by
  simp only [wp, bind_run]
  rcases m s with ⟨e | a, t⟩
  · rfl
  · simp only [allowed_append, after_append, next, wp, and_assoc]

theorem wp_mono {m : Handler σ A ε α} {R R' : Except ε α → σ → Prop} {s : σ}
    (h : wp G m R s) (hR : ∀ r s', R r s' → R' r s') : wp G m R' s :=
  ⟨h.1, hR _ _ h.2⟩

/-- Sequencing by what holds between the two parts. -/
theorem wp_then {m : Handler σ A ε α} {f : α → Handler σ A ε β} {Q : Except ε α → σ → Prop}
    {R : Except ε β → σ → Prop} {s : σ} (hm : wp G m Q s)
    (hok : ∀ a s', Q (.ok a) s' → wp G (f a) R s')
    (herr : ∀ e s', Q (.error e) s' → R (.error e) s') : wp G (m >>= f) R s := by
  rw [wp_bind]
  refine wp_mono hm fun r s' hr => ?_
  cases r with
  | ok a => exact hok a s' hr
  | error e => exact herr e s' hr

/-- A handler that only emits always-admissible actions keeps what those actions keep. -/
theorem wp_of_emits {K : A → Prop} {m : Handler σ A ε α}
    {R : Except ε α → σ → Prop} {s : σ} (hm : Emits K m) (P : σ → Prop) (hs : P s)
    (hK : ∀ s a, P s → K a → G s a ∧ P (Acts.act s a))
    (hR : ∀ r s', P s' → R r s') : wp G m R s := by
  have key : ∀ t : List A, (∀ a ∈ t, K a) → ∀ s, P s → Allowed G s t ∧ P (after s t) := by
    intro t
    induction t with
    | nil => exact fun _ s hs => ⟨trivial, hs⟩
    | cons a t ih =>
        intro ht s hs
        obtain ⟨hg, hp⟩ := hK s a hs (ht a (by simp))
        obtain ⟨hall, hend⟩ := ih (fun b hb => ht b (by simp [hb])) _ hp
        exact ⟨⟨hg, hall⟩, hend⟩
  obtain ⟨hall, hend⟩ := key (m s).2 (hm s) s hs
  exact ⟨hall, hR _ _ hend⟩

end Rules

/-! ## Handlers that do not raise -/

section Ends

variable {σ A ε α β : Type} [Acts σ A] {e : ε} {I : σ → Prop}

/-- From a state of `I` the handler does not raise `e` and leaves a state of `I`. -/
def Ends (e : ε) (I : σ → Prop) (m : Handler σ A ε α) : Prop :=
  ∀ s, I s → (m s).1 ≠ .error e ∧ I (after s (m s).2)

theorem ends_pure (a : α) : Ends e I (pure a : Handler σ A ε α) := by
  intro s hs
  simp [pure_run, hs]

theorem ends_emit {a : A} (h : ∀ s, I s → I (Acts.act s a)) :
    Ends e I (emit a : Handler σ A ε Unit) := by
  intro s hs
  simp [emit, h s hs]

theorem ends_raise {e' : ε} (h : e' ≠ e) : Ends e I (raise e' : Handler σ A ε α) := by
  intro s hs
  simp [raise, h, hs]

theorem ends_get {f : σ → Handler σ A ε α} (h : ∀ s, I s → Ends e I (f s)) :
    Ends e I (get >>= f) := by
  intro s hs
  rw [get_bind_run]
  exact h s hs s hs

/-- Sequencing when the second part depends on where the first one ends. -/
theorem ends_bind_at {m : Handler σ A ε α} {f : α → Handler σ A ε β} {s : σ}
    (hm : (m s).1 ≠ .error e ∧ I (after s (m s).2))
    (hf : ∀ a, (m s).1 = .ok a →
      (f a (after s (m s).2)).1 ≠ .error e ∧
      I (after (after s (m s).2) (f a (after s (m s).2)).2)) :
    ((m >>= f) s).1 ≠ .error e ∧ I (after s ((m >>= f) s).2) := by
  rw [bind_run]
  rcases hrun : m s with ⟨e' | a, t⟩ <;> simp only [hrun] at hm hf ⊢
  · exact ⟨by simpa using hm.1, hm.2⟩
  · rw [after_append]
    exact hf a rfl

theorem ends_bind {m : Handler σ A ε α} {f : α → Handler σ A ε β} (hm : Ends e I m)
    (hf : ∀ a, Ends e I (f a)) : Ends e I (m >>= f) :=
  fun s hs => ends_bind_at (hm s hs) fun a _ => hf a _ (hm s hs).2

theorem wp_of_ends {m : Handler σ A ε α} {R : Except ε α → σ → Prop} {s : σ}
    (hm : Ends e I m) (hs : I s) (hR : ∀ r s', r ≠ .error e → I s' → R r s') :
    wp (fun _ _ => True) m R s :=
  ⟨Allowed.of_true _ _, hR _ _ (hm s hs).1 (hm s hs).2⟩

/-- Nothing is asked of the state the last part leaves. -/
theorem ends_then {m : Handler σ A ε α} {f : α → Handler σ A ε β} {s : σ} (hm : Ends e I m)
    (hf : ∀ a s, I s → (f a s).1 ≠ .error e) (hs : I s) : ((m >>= f) s).1 ≠ .error e :=
  (ends_bind_at (I := fun _ => True) ⟨(hm s hs).1, trivial⟩
    fun a _ => ⟨hf a _ (hm s hs).2, trivial⟩).1

end Ends

end PairCell.Lib
