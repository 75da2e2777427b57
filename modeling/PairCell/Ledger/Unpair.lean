import Mathlib.Data.List.Induction
import PairCell.Ledger.Exclusive

/-!
# Safe unpair

A route leaves the ledger through safe unpair on two assertions only, one of
each of its Workers, both made since `UNPAIRING` was last entered and both
carrying the state version then recorded.
-/

namespace PairCell.ControlLedger

open Lib

abbrev Entry := Op × Outcome

/-- An accepted enter or cancel of the route. -/
def turns (r : Nat) : Entry → Bool
  | (.enterPairRouteUnpairing q _, .ok _) => q == r
  | (.cancelPairRouteUnpairing q _, .ok _) => q == r
  | _ => false

/-- `since` is what came after the last accepted enter of the route, and
no cancel is in it. -/
def SinceEnter (h : List Entry) (r : Nat) (since : List Entry) : Prop :=
  (∃ before w reply, h = before ++ (.enterPairRouteUnpairing r w, .ok reply) :: since) ∧
  ∀ e ∈ since, turns r e = false

def Asserted (h : List Entry) (r w : Nat) (v : Int) : Prop :=
  ∃ reply, (.recordPairUnpairAssertion r w v, .ok reply) ∈ h

theorem SinceEnter.snoc {h since : List Entry} {r : Nat} {e : Entry}
    (hs : SinceEnter h r since) (he : turns r e = false) :
    SinceEnter (h ++ [e]) r (since ++ [e]) := by
  obtain ⟨⟨before, w, reply, rfl⟩, hno⟩ := hs
  refine ⟨⟨before, w, reply, by simp⟩, ?_⟩
  intro x hx
  obtain hx | hx := List.mem_append.1 hx
  · exact hno x hx
  · rw [List.mem_singleton.1 hx]
    exact he

theorem Asserted.snoc {h : List Entry} {r w : Nat} {v : Int}
    (ha : Asserted h r w v) (e : Entry) :
    Asserted (h ++ [e]) r w v := by
  obtain ⟨reply, hm⟩ := ha
  exact ⟨reply, List.mem_append_left _ hm⟩

/-- Every unpairing route was entered, and the assertions it holds were all made since. -/
def Evidence (h : List Entry) (l : ControlLedger) : Prop :=
  ∀ r row, l.pairRoutes.get r = some row → row.state = .unpairing →
    ∃ since, SinceEnter h r since ∧
      ∀ w v, l.unpairAssertions.get (r, w) = some v → Asserted since r w v

/-- No route of `l'` became unpairing and no assertion was added. -/
def Calm (l l' : ControlLedger) : Prop :=
  (∀ r row, l'.pairRoutes.get r = some row → row.state = .unpairing →
    l.pairRoutes.get r = some row) ∧
  ∀ k v, l'.unpairAssertions.get k = some v → l.unpairAssertions.get k = some v

theorem Calm.refl (l : ControlLedger) : Calm l l := ⟨fun _ _ h _ => h, fun _ _ h => h⟩

theorem Calm.trans {l m n : ControlLedger} (h : Calm l m) (h' : Calm m n) : Calm l n :=
  ⟨fun r row hr hst => h.1 r row (h'.1 r row hr hst) hst,
    fun k v hk => h.2 k v (h'.2 k v hk)⟩

theorem PairingWrite.calm {l l' : ControlLedger} (hw : PairingWrite l l') : Calm l l' := by
  cases hw with
  | remove r row hr =>
      exact ⟨fun q row' hq _ => ((Table.get_delete_eq_some ..).1 hq).1,
        fun k v hk => ((Table.get_delete_eq_some ..).1 hk).1⟩
  | create p r res hp hel hnew hfree =>
      refine ⟨fun q row' hq hst => ?_, fun k v hk => hk⟩
      simp only [created, Table.get_set] at hq
      split at hq
      · cases hq
        cases hst
      · exact hq
  | forget w hw =>
      exact ⟨fun q row' hq _ => hq, fun k v hk => ((Table.get_delete_eq_some ..).1 hk).1⟩
  | _ => exact Calm.refl l

theorem calm_writes {l l' : ControlLedger} (hw : PairingWrites l l') : Calm l l' := by
  induction hw with
  | refl => exact Calm.refl l
  | tail _ hw ih => exact ih.trans hw.calm

/-- A calm step that is no accepted enter or cancel keeps the evidence. -/
theorem Evidence.calm {h : List Entry} {l l' : ControlLedger} {e : Entry}
    (hi : Evidence h l) (hc : Calm l l') (he : ∀ r, turns r e = false) :
    Evidence (h ++ [e]) l' := by
  intro r row hr hst
  obtain ⟨since, hs, ha⟩ := hi r row (hc.1 r row hr hst) hst
  exact ⟨since ++ [e], hs.snoc (he r), fun w v hv => (ha w v (hc.2 _ v hv)).snoc e⟩

theorem turns_error (r : Nat) (op : Op) (e : LedgerFault) :
    turns r (op, .error e) = false := by
  cases op <;> rfl

theorem turns_other {op : Op} (h : ¬op.OnUnpair) (r : Nat) (out : Outcome) :
    turns r (op, out) = false := by
  cases op <;> first | rfl | exact absurd trivial h

section Steps

variable {h : List Entry} {l l' : ControlLedger}

theorem Evidence.enter {r w : Nat} {reply : RouteRecord} {out : Reply} (hi : Evidence h l)
    (hr : enterPairRouteUnpairing r w l = (.ok reply, l')) :
    Evidence (h ++ [(.enterPairRouteUnpairing r w, .ok out)]) l' := by
  obtain ⟨row, routes, hrow, -, hroutes, rfl⟩ := enter_ok hr
  intro q row' hq hst
  by_cases hqr : q = r
  · subst hqr
    refine ⟨[], ⟨⟨h, w, out, rfl⟩, by simp⟩, ?_⟩
    intro x v hv
    simp [Table.get_delete_eq_some] at hv
  · have hold : l.pairRoutes.get q = some row' := by
      obtain ⟨rfl, -⟩ | rfl := hroutes
      · exact hq
      · rwa [Table.get_set_ne _ _ hqr] at hq
    obtain ⟨since, hs, ha⟩ := hi q row' hold hst
    have hturn : turns q (.enterPairRouteUnpairing r w, .ok out) = false := by
      simp [turns, Ne.symm hqr]
    exact ⟨since ++ [_], hs.snoc hturn,
      fun x v hv => (ha x v ((Table.get_delete_eq_some ..).1 hv).1).snoc _⟩

theorem Evidence.cancel {r w : Nat} {reply : RouteRecord} {out : Reply} (hi : Evidence h l)
    (hr : cancelPairRouteUnpairing r w l = (.ok reply, l')) :
    Evidence (h ++ [(.cancelPairRouteUnpairing r w, .ok out)]) l' := by
  obtain ⟨row, hrow, -, -, rfl⟩ := cancel_ok hr
  intro q row' hq hst
  simp only [Table.get_set] at hq
  split at hq
  · cases hq
    cases hst
  · next hqr =>
      obtain ⟨since, hs, ha⟩ := hi q row' hq hst
      have hturn : turns q (.cancelPairRouteUnpairing r w, .ok out) = false := by
        simp [turns, Ne.symm hqr]
      exact ⟨since ++ [_], hs.snoc hturn,
        fun x v hv => (ha x v ((Table.get_delete_eq_some ..).1 hv).1).snoc _⟩

theorem shrink_assertions {r w : Nat} {assertions : Table (Nat × Nat) Int}
    (ha : assertions = l.unpairAssertions ∨
      assertions = l.unpairAssertions.delete fun k _ => k == (r, w))
      (k : Nat × Nat) (v : Int)
    (hk : assertions.get k = some v) : l.unpairAssertions.get k = some v := by
  obtain rfl | rfl := ha
  · exact hk
  · exact ((Table.get_delete_eq_some ..).1 hk).1

theorem Evidence.recordVersion {r w : Nat} {v : Int} {reply : VersionRecord} {out : Reply}
    (hi : Evidence h l) (hr : recordPairWorkerStateVersion r w v l = (.ok reply, l')) :
    Evidence (h ++ [(.recordPairWorkerStateVersion r w v, .ok out)]) l' := by
  obtain ⟨row, assertions, -, -, -, ha, rfl⟩ := recordVersion_ok hr
  exact hi.calm ⟨fun q row' hq _ => hq, shrink_assertions ha⟩ fun _ => rfl

/-- The evidence with the assertion just accepted, before the route is arbitrated. -/
theorem Evidence.asserted {r w : Nat} {v : Int} {out : Reply}
    {assertions : Table (Nat × Nat) Int} (hi : Evidence h l)
    (ha : assertions = l.unpairAssertions ∨
      assertions = l.unpairAssertions.delete fun k _ => k == (r, w)) :
    Evidence (h ++ [(.recordPairUnpairAssertion r w v, .ok out)])
      (l.asserted r w v assertions) := by
  intro q row hq hst
  obtain ⟨since, hs, hold⟩ := hi q row hq hst
  refine ⟨since ++ [_], hs.snoc rfl, ?_⟩
  intro x u hu
  simp only [ControlLedger.asserted, Table.get_set] at hu
  split at hu
  · next hk =>
      cases hk
      cases hu
      exact ⟨out, by simp⟩
  · exact (hold x u (shrink_assertions ha _ u hu)).snoc _

theorem Evidence.assertion {r w : Nat} {v : Int} {reply : AssertionRecord} {out : Reply}
    (hi : Evidence h l) (hr : recordPairUnpairAssertion r w v l = (.ok reply, l')) :
    Evidence (h ++ [(.recordPairUnpairAssertion r w v, .ok out)]) l' := by
  obtain ⟨row, assertions, hrow, -, -, -, ha, hl⟩ := assertion_ok hr
  have hm : Evidence (h ++ [(.recordPairUnpairAssertion r w v, .ok out)])
      (l.asserted r w v assertions) := hi.asserted ha
  obtain ⟨-, rfl⟩ | ⟨-, rfl, -⟩ := hl
  · exact hm
  · intro q row' hq hst
    obtain ⟨since, hs, hold⟩ := hm q row' ((Table.get_delete_eq_some ..).1 hq).1 hst
    exact ⟨since, hs, fun x u hu => hold x u ((Table.get_delete_eq_some ..).1 hu).1⟩

end Steps

/-- The outcome of a committed operation, and the ledger after it. -/
theorem answer_cases {α : Type} (f : α → Reply) (t : Locked α) (l : ControlLedger) :
    (∃ e, answer f (t.commit l) = (.error e, l)) ∨
      ∃ a l', t.commit l = (.ok a, l') ∧ answer f (t.commit l) = (.ok (f a), l') := by
  cases h : t.run l with
  | ok p => exact .inr ⟨p.1, p.2, Tx.commit_ok.2 h, by rw [Tx.commit_ok.2 h]; rfl⟩
  | error e => exact .inl ⟨e, by rw [Tx.commit_error.2 ⟨h, rfl⟩]; rfl⟩

theorem Evidence.perform {h : List Entry} {l : ControlLedger}
    (hi : Evidence h l) (op : Op) :
    Evidence (h ++ [(op, (l.perform op).1)]) (l.perform op).2 := by
  have failed : ∀ e, l.perform op = (.error e, l) →
      Evidence (h ++ [(op, (l.perform op).1)]) (l.perform op).2 := by
    intro e he
    rw [he]
    exact hi.calm (Calm.refl l) fun r => turns_error r op e
  by_cases hop : op.OnUnpair
  · cases op with
    | enterPairRouteUnpairing r w =>
        obtain ⟨e, he⟩ | ⟨a, l', hl, he⟩ := answer_cases Reply.route _ l
        · exact failed e he
        · have he : l.perform (.enterPairRouteUnpairing r w) = _ := he
          rw [he]
          exact hi.enter hl
    | cancelPairRouteUnpairing r w =>
        obtain ⟨e, he⟩ | ⟨a, l', hl, he⟩ := answer_cases Reply.route _ l
        · exact failed e he
        · have he : l.perform (.cancelPairRouteUnpairing r w) = _ := he
          rw [he]
          exact hi.cancel hl
    | recordPairWorkerStateVersion r w v =>
        obtain ⟨e, he⟩ | ⟨a, l', hl, he⟩ := answer_cases Reply.version _ l
        · exact failed e he
        · have he : l.perform (.recordPairWorkerStateVersion r w v) = _ := he
          rw [he]
          exact hi.recordVersion hl
    | recordPairUnpairAssertion r w v =>
        obtain ⟨e, he⟩ | ⟨a, l', hl, he⟩ := answer_cases Reply.assertion _ l
        · exact failed e he
        · have he : l.perform (.recordPairUnpairAssertion r w v) = _ := he
          rw [he]
          exact hi.assertion hl
    | _ => exact hop.elim
  · exact hi.calm (calm_writes (perform_writes l op hop)) fun r => turns_other hop r _

theorem evidence_run (ops : List Op) : Evidence (empty.history ops) (empty.run ops) := by
  induction ops using List.reverseRecOn with
  | nil =>
      intro r row hr
      simp [run, empty] at hr
  | append_singleton ops op ih =>
      rw [history_append, run_append]
      exact ih.perform op

/-! ## Recorded versions -/

/-- A recorded version is one of a Worker on a live route. -/
def Tracked (l : ControlLedger) : Prop :=
  ∀ r w v, l.stateVersions.get (r, w) = some v →
    ∃ row, l.pairRoutes.get r = some row ∧ row.has w = true

/-- The route was issued; while it lives, the Worker's version is at least `v`. -/
def AtLeast (r w : Nat) (v : Int) (l : ControlLedger) : Prop :=
  r ∈ l.pairRouteIdentifiers ∧
    (l.pairRoutes.get r = none ∨ ∃ u, v ≤ u ∧ l.stateVersions.get (r, w) = some u)

theorem PairingWrite.tracked {l l' : ControlLedger} (hw : PairingWrite l l')
    (h : Tracked l) :
    Tracked l' := by
  cases hw with
  | remove r row hr =>
      intro q w v hv
      obtain ⟨hv, hne⟩ := (Table.get_delete_eq_some ..).1 hv
      obtain ⟨row', hq, hw⟩ := h q w v hv
      exact ⟨row', (Table.get_delete_eq_some ..).2 ⟨hq, hne⟩, hw⟩
  | create p r res hp hel hnew hfree =>
      intro q w v hv
      obtain ⟨row', hq, hw⟩ := h q w v hv
      refine ⟨row', ?_, hw⟩
      simp only [created]
      rw [Table.get_set_ne _ _ (by rintro rfl; simp [hfree] at hq)]
      exact hq
  | forget x hx =>
      intro q w v hv
      exact h q w v ((Table.get_delete_eq_some ..).1 hv).1
  | _ => exact h

theorem PairingWrite.atLeast {l l' : ControlLedger} {r w : Nat} {v : Int}
    (hw : PairingWrite l l') (ht : Tracked l) (h : AtLeast r w v l) :
    AtLeast r w v l' := by
  refine ⟨hw.identifiers h.1, ?_⟩
  cases hw with
  | remove q row hq =>
      by_cases hqr : r = q
      · exact .inl (Table.get_delete_gone (by simp [hqr]))
      · refine h.2.imp (fun hr => ?_) fun ⟨u, hu, hv⟩ => ⟨u, hu, ?_⟩
        · simp only [removed]
          rw [Table.get_delete_keep (by simp [hqr])]
          exact hr
        · simp only [removed]
          rw [Table.get_delete_keep (by simp [hqr])]
          exact hv
  | create p q res hp hel hnew hfree =>
      have hne : r ≠ q := by rintro rfl; exact hnew h.1
      refine h.2.imp (fun hr => ?_) fun hv => hv
      simp only [created]
      rw [Table.get_set_ne _ _ hne]
      exact hr
  | forget x hx =>
      refine h.2.imp (fun hr => hr) fun ⟨u, hu, hv⟩ => ⟨u, hu, ?_⟩
      -- a Worker with a version is on a route, and `x` is on none
      obtain ⟨row, hr, hw⟩ := ht r w u hv
      have hne : w ≠ x := by rintro rfl; simp [hx r row hr] at hw
      rw [Table.get_delete_keep (by simp [hne])]
      exact hv
  | _ => exact h.2

theorem tracked_writes {l l' : ControlLedger} (hw : PairingWrites l l') (ht : Tracked l) :
    Tracked l' := by
  induction hw with
  | refl => exact ht
  | tail _ hw ih => exact hw.tracked ih

section Steps

variable {l l' : ControlLedger}

/-- Setting one Worker's version, not below the one recorded. -/
theorem AtLeast.set {r w q x : Nat} {v u : Int} (h : AtLeast r w v l)
    (hle : ∀ current ∈ l.stateVersions.get (q, x), current ≤ u) :
    AtLeast r w v { l with stateVersions := l.stateVersions.set (q, x) u } := by
  refine ⟨h.1, h.2.imp (fun hr => hr) fun ⟨c, hc, hv⟩ => ?_⟩
  by_cases hk : (r, w) = (q, x)
  · rw [hk] at hv
    exact ⟨u, Int.le_trans hc (hle c hv), by simp [hk]⟩
  · refine ⟨c, hc, ?_⟩
    rw [Table.get_set_ne _ _ hk]
    exact hv

theorem Tracked.set {q x : Nat} {u : Int} {row : RouteRow} (h : Tracked l)
    (hr : l.pairRoutes.get q = some row) (hx : row.has x = true) :
    Tracked { l with stateVersions := l.stateVersions.set (q, x) u } := by
  intro r w v hv
  rw [Table.get_set] at hv
  split at hv
  · next hk =>
      cases hk
      exact ⟨row, hr, hx⟩
  · exact h r w v hv

/-- Changing the state of a route keeps its Workers. -/
theorem Tracked.stateSet {r : Nat} {row : RouteRow} {st : RouteState} (h : Tracked l)
    (hr : l.pairRoutes.get r = some row) :
    Tracked { l with pairRoutes := l.pairRoutes.set r { row with state := st } } := by
  intro q w v hv
  obtain ⟨row', hq, hw⟩ := h q w v hv
  by_cases hqr : q = r
  · subst hqr
    rw [hr] at hq
    cases hq
    exact ⟨_, Table.get_set_self .., hw⟩
  · refine ⟨row', ?_, hw⟩
    rw [Table.get_set_ne _ _ hqr]
    exact hq

theorem AtLeast.stateSet {r w q : Nat} {v : Int} {row : RouteRow} {st : RouteState}
    (h : AtLeast r w v l) (hq : l.pairRoutes.get q = some row) :
    AtLeast r w v
      { l with pairRoutes := l.pairRoutes.set q { row with state := st } } := by
  refine ⟨h.1, h.2.imp (fun hr => ?_) fun hv => hv⟩
  rw [Table.get_set_ne _ _ (by rintro rfl; simp [hr] at hq)]
  exact hr

end Steps

theorem Tracked.perform {l : ControlLedger} (h : Tracked l) (op : Op) :
    Tracked (l.perform op).2 := by
  by_cases hop : op.OnUnpair
  · cases op with
    | enterPairRouteUnpairing r w =>
        refine Tx.commit_invariant h fun a l' hl' => ?_
        obtain ⟨row, routes, hr, -, ⟨rfl, -⟩ | rfl, rfl⟩ := enter_ok hl'
        · exact h
        · exact h.stateSet hr
    | cancelPairRouteUnpairing r w =>
        refine Tx.commit_invariant h fun a l' hl' => ?_
        obtain ⟨row, hr, -, -, rfl⟩ := cancel_ok hl'
        exact h.stateSet hr
    | recordPairWorkerStateVersion r w v =>
        refine Tx.commit_invariant h fun a l' hl' => ?_
        obtain ⟨row, assertions, hr, hw, -, -, rfl⟩ := recordVersion_ok hl'
        exact h.set hr hw
    | recordPairUnpairAssertion r w v =>
        refine Tx.commit_invariant h fun a l' hl' => ?_
        obtain ⟨row, assertions, hr, hw, -, -, -, hl⟩ := assertion_ok hl'
        have hm : Tracked (l.asserted r w v assertions) := h.set hr hw
        obtain ⟨-, rfl⟩ | ⟨-, rfl, -⟩ := hl
        · exact hm
        · exact PairingWrite.tracked (.remove r row hr) hm
    | _ => exact hop.elim
  · exact tracked_writes (perform_writes l op hop) h

theorem tracked_run (ops : List Op) : Tracked (empty.run ops) := by
  refine run_invariant (fun r w v hv => ?_) (fun _ op h => h.perform op) ops
  simp [empty] at hv

theorem atLeast_writes {l l' : ControlLedger} {r w : Nat} {v : Int}
    (hw : PairingWrites l l') (ht : Tracked l) (h : AtLeast r w v l) :
    AtLeast r w v l' := by
  induction hw with
  | refl => exact h
  | tail hmany hw ih => exact hw.atLeast (tracked_writes hmany ht) ih

theorem AtLeast.perform {l : ControlLedger} {r w : Nat} {v : Int} (ht : Tracked l)
    (h : AtLeast r w v l) (op : Op) : AtLeast r w v (l.perform op).2 := by
  by_cases hop : op.OnUnpair
  · cases op with
    | enterPairRouteUnpairing q x =>
        refine Tx.commit_invariant h fun a l' hl' => ?_
        obtain ⟨row, routes, hq, -, ⟨rfl, -⟩ | rfl, rfl⟩ := enter_ok hl'
        · exact h
        · exact h.stateSet hq
    | cancelPairRouteUnpairing q x =>
        refine Tx.commit_invariant h fun a l' hl' => ?_
        obtain ⟨row, hq, -, -, rfl⟩ := cancel_ok hl'
        exact h.stateSet hq
    | recordPairWorkerStateVersion q x u =>
        refine Tx.commit_invariant h fun a l' hl' => ?_
        obtain ⟨row, assertions, -, -, hle, -, rfl⟩ := recordVersion_ok hl'
        exact h.set hle
    | recordPairUnpairAssertion q x u =>
        refine Tx.commit_invariant h fun a l' hl' => ?_
        obtain ⟨row, assertions, hq, hx, -, hle, -, hl⟩ := assertion_ok hl'
        have hm : AtLeast r w v (l.asserted q x u assertions) := h.set hle
        obtain ⟨-, rfl⟩ | ⟨-, rfl, -⟩ := hl
        · exact hm
        · exact PairingWrite.atLeast (.remove q row hq) (ht.set hq hx) hm
    | _ => exact hop.elim
  · exact atLeast_writes (perform_writes l op hop) ht h

theorem AtLeast.run {l : ControlLedger} {r w : Nat} {v : Int} (ht : Tracked l)
    (h : AtLeast r w v l) (ops : List Op) : AtLeast r w v (l.run ops) :=
  (run_invariant (I := fun l => Tracked l ∧ AtLeast r w v l) ⟨ht, h⟩
    (fun _ op hi => ⟨hi.1.perform op, AtLeast.perform hi.1 hi.2 op⟩) ops).2

/-! ## The arbitration -/

/-- The four operations on safe unpair remove a route by an assertion that finds every
Worker of the route among the fresh ones. -/
theorem removal_ok {l : ControlLedger} {op : Op} {r : Nat} {row : RouteRow}
    (hop : op.OnUnpair) (hr : l.pairRoutes.get r = some row)
    (hgone : (l.perform op).2.pairRoutes.get r = none) :
    ∃ w v assertions reply, op = .recordPairUnpairAssertion r w v ∧
      (l.perform op).1 = .ok reply ∧ row.state = .unpairing ∧
      (assertions = l.unpairAssertions ∨
        assertions = l.unpairAssertions.delete fun k _ => k == (r, w)) ∧
      ∀ x, row.has x = true →
        x ∈ (l.asserted r w v assertions).freshPairUnpairAssertionsLocked r := by
  have set_stays : ∀ (q : Nat) (row' : RouteRow),
      (l.pairRoutes.set q row').get r ≠ none := by
    intro q row'
    rw [Table.get_set]
    split <;> simp [hr]
  cases op with
  | enterPairRouteUnpairing q w =>
      obtain ⟨e, he⟩ | ⟨a, l', hl, he⟩ := answer_cases Reply.route _ l
      · have he : l.perform (.enterPairRouteUnpairing q w) = _ := he
        simp [he, hr] at hgone
      · have he : l.perform (.enterPairRouteUnpairing q w) = _ := he
        rw [he] at hgone
        obtain ⟨row', routes, -, -, ⟨rfl, -⟩ | rfl, rfl⟩ := enter_ok hl
        · simp [hr] at hgone
        · exact absurd hgone (set_stays _ _)
  | cancelPairRouteUnpairing q w =>
      obtain ⟨e, he⟩ | ⟨a, l', hl, he⟩ := answer_cases Reply.route _ l
      · have he : l.perform (.cancelPairRouteUnpairing q w) = _ := he
        simp [he, hr] at hgone
      · have he : l.perform (.cancelPairRouteUnpairing q w) = _ := he
        rw [he] at hgone
        obtain ⟨row', -, -, -, rfl⟩ := cancel_ok hl
        exact absurd hgone (set_stays _ _)
  | recordPairWorkerStateVersion q w v =>
      obtain ⟨e, he⟩ | ⟨a, l', hl, he⟩ := answer_cases Reply.version _ l
      · have he : l.perform (.recordPairWorkerStateVersion q w v) = _ := he
        simp [he, hr] at hgone
      · have he : l.perform (.recordPairWorkerStateVersion q w v) = _ := he
        rw [he] at hgone
        obtain ⟨row', assertions, -, -, -, -, rfl⟩ := recordVersion_ok hl
        simp [hr] at hgone
  | recordPairUnpairAssertion q w v =>
      obtain ⟨e, he⟩ | ⟨a, l', hl, he⟩ := answer_cases Reply.assertion _ l
      · have he : l.perform (.recordPairUnpairAssertion q w v) = _ := he
        simp [he, hr] at hgone
      · have he : l.perform (.recordPairUnpairAssertion q w v) = _ := he
        rw [he] at hgone
        obtain ⟨row', assertions, hq, -, hst, -, ha, ⟨-, rfl⟩ | ⟨-, rfl, hfresh⟩⟩ :=
          assertion_ok hl
        · simp [asserted, hr] at hgone
        · by_cases hqr : r = q
          · subst hqr
            rw [hr] at hq
            cases hq
            exact ⟨w, v, assertions, .assertion a, rfl, by rw [he], hst, ha, hfresh⟩
          · simp only [removed, asserted] at hgone
            rw [Table.get_delete_keep (by simp [hqr]), hr] at hgone
            cases hgone
  | _ => exact hop.elim

theorem mem_fresh {l : ControlLedger} {r x : Nat}
    (h : x ∈ l.freshPairUnpairAssertionsLocked r) :
    ∃ version, l.unpairAssertions.get (r, x) = some version ∧
      l.stateVersions.get (r, x) = some version := by
  obtain ⟨k, hk, rfl⟩ := List.mem_map.1 h
  obtain ⟨version, hv, hp⟩ := (Table.mem_keys ..).1 hk
  obtain ⟨hr, hs⟩ := Bool.and_eq_true_iff.1 hp
  have hr : k.1 = r := by simpa using hr
  subst hr
  exact ⟨version, hv, by simpa using hs⟩

/-- After every run, an operation on safe unpair removes a route only when the route is
unpairing and each of its Workers, since unpairing was last entered, asserted the version
that is recorded for it when the route goes.  And while a route lives, the versions
recorded for it never decrease. -/
theorem safe_unpair_arbitrated (ops : List Op) :
    (∀ op r row, op.OnUnpair → (empty.run ops).pairRoutes.get r = some row →
      ((empty.run ops).perform op).2.pairRoutes.get r = none →
      row.state = .unpairing ∧ ∃ w v since, op = .recordPairUnpairAssertion r w v ∧
        SinceEnter (empty.history (ops ++ [op])) r since ∧
        ∀ x, row.has x = true → ∃ version, Asserted since r x version ∧
          ((empty.run ops).stateVersions.set (r, w) v).get (r, x) = some version) ∧
    ∀ more r w v, (empty.run ops).stateVersions.get (r, w) = some v →
      (empty.run (ops ++ more)).pairRoutes.get r ≠ none →
      ∃ u, v ≤ u ∧ (empty.run (ops ++ more)).stateVersions.get (r, w) = some u := by
  constructor
  · intro op r row hop hr hgone
    obtain ⟨w, v, assertions, reply, rfl, hok, hst, ha, hfresh⟩ := removal_ok hop hr hgone
    have hev : Evidence (empty.history (ops ++ [.recordPairUnpairAssertion r w v]))
        ((empty.run ops).asserted r w v assertions) := by
      rw [history_append, history, hok]
      exact (evidence_run ops).asserted ha
    obtain ⟨since, hs, hold⟩ := hev r row hr hst
    refine ⟨hst, w, v, since, rfl, hs, fun x hx => ?_⟩
    obtain ⟨version, hassert, hversion⟩ := mem_fresh (hfresh x hx)
    exact ⟨version, hold x version hassert, hversion⟩
  · intro more r w v hv hlive
    have ht := tracked_run ops
    obtain ⟨row, hr, -⟩ := ht r w v hv
    have hi : AtLeast r w v (empty.run ops) :=
      ⟨(exclusive_run ops).issued r row hr, .inr ⟨v, Int.le_refl v, hv⟩⟩
    rw [run_append] at hlive ⊢
    exact (hi.run ht more).2.resolve_left hlive

/-- Two Workers enroll, pair and unpair; the second assertion takes the route away. -/
def pairAndUnpair : List Op :=
  [.enrollments ((Table.empty.set 11 ⟨1, "a", .pending, 100⟩).set 12 ⟨2, "b",
    .pending, 100⟩), .approveEnrollment 11 1 0, .approveEnrollment 12 2 0,
    .reservePairRouteProposal 1 2 [1, 2] 5 0,
    .createPairRoute 5 [1, 2] (fun i => 7 + i) 10, .recordPairWorkerStateVersion 7 1 3,
    .enterPairRouteUnpairing 7 2, .recordPairUnpairAssertion 7 1 3]

theorem safe_unpair_arbitrated_pairAndUnpair :
    ∃ since,
      SinceEnter
      (empty.history (pairAndUnpair ++ [.recordPairUnpairAssertion 7 2 0])) 7 since ∧
      Asserted since 7 1 3 ∧ Asserted since 7 2 0 := by
  have h := (safe_unpair_arbitrated pairAndUnpair).1 (.recordPairUnpairAssertion 7 2 0) 7
    ⟨(1, 2), 1, 2, .unpairing⟩ trivial (by decide +kernel) (by decide +kernel)
  obtain ⟨-, w, v, since, hop, hs, hx⟩ := h
  cases hop
  obtain ⟨version, ha, hv⟩ := hx 1 (by decide)
  obtain ⟨version', ha', hv'⟩ := hx 2 (by decide)
  have h1 : version = 3 := by
    have hget : ((empty.run pairAndUnpair).stateVersions.set (7, 2) 0).get
        (7, 1) = some 3 := by
      decide +kernel
    exact Option.some.inj (hv.symm.trans hget)
  have h2 : version' = 0 := by
    have hget : ((empty.run pairAndUnpair).stateVersions.set (7, 2) 0).get
        (7, 2) = some 0 := by
      decide +kernel
    exact Option.some.inj (hv'.symm.trans hget)
  exact ⟨since, hs, h1 ▸ ha, h2 ▸ ha'⟩

end PairCell.ControlLedger
