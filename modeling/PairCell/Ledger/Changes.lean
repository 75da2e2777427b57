import PairCell.Ledger.Accounts
import PairCell.Ledger.Unpair

/-!
# What one operation can change

Only a reservation and its commit make anything new, and only an assertion or
the deletion of a Worker takes a route away.
-/

namespace PairCell.ControlLedger

open Lib

/-- Nothing is new and every route stays. -/
structure Steady (l l' : ControlLedger) : Prop where
  routes : ∀ r row, l'.pairRoutes.get r = some row →
    ∃ st, l.pairRoutes.get r = some { row with state := st }
  kept : ∀ r row, l.pairRoutes.get r = some row →
    ∃ st, l'.pairRoutes.get r = some { row with state := st }
  reservations : ∀ p row, l'.pairRouteReservations.get p = some row →
    l.pairRouteReservations.get p = some row
  assertions : ∀ k, l'.unpairAssertions.get k ≠ none → l.unpairAssertions.get k ≠ none
  identifiers : l'.pairRouteIdentifiers = l.pairRouteIdentifiers

theorem Steady.refl (l : ControlLedger) : Steady l l where
  routes _ row h := ⟨row.state, h⟩
  kept _ row h := ⟨row.state, h⟩
  reservations _ _ h := h
  assertions _ h := h
  identifiers := rfl

theorem Steady.trans {l m n : ControlLedger} (h : Steady l m) (h' : Steady m n) :
    Steady l n where
  routes r row hr := by
    obtain ⟨st, hr⟩ := h'.routes r row hr
    obtain ⟨st', hr⟩ := h.routes r _ hr
    exact ⟨st', hr⟩
  kept r row hr := by
    obtain ⟨st, hr⟩ := h.kept r row hr
    obtain ⟨st', hr⟩ := h'.kept r _ hr
    exact ⟨st', hr⟩
  reservations p row hp := h.reservations p row (h'.reservations p row hp)
  assertions k hk := h.assertions k (h'.assertions k hk)
  identifiers := h'.identifiers.trans h.identifiers

theorem steady_of_writes {l l' : ControlLedger} (h : Relation.ReflTransGen Steady l l') :
    Steady l l' := by
  induction h with
  | refl => exact .refl l
  | tail _ hs ih => exact ih.trans hs

section Tables

variable {l : ControlLedger}

/-- Routes, assertions and identifiers are as they were. -/
theorem steady_of_same {l' : ControlLedger} (hroutes : l'.pairRoutes = l.pairRoutes)
    (hres : ∀ p row, l'.pairRouteReservations.get p = some row →
      l.pairRouteReservations.get p = some row)
    (hassertions : l'.unpairAssertions = l.unpairAssertions)
    (hids : l'.pairRouteIdentifiers = l.pairRouteIdentifiers) : Steady l l' where
  routes r row h := ⟨row.state, by rwa [← hroutes]⟩
  kept r row h := ⟨row.state, by rwa [hroutes]⟩
  reservations := hres
  assertions k h := by rwa [← hassertions]
  identifiers := hids

theorem steady_released (p : Nat) (row : Reservation) : Steady l (l.released p row) :=
  steady_of_same rfl (fun _ _ hq => ((Table.get_delete_eq_some ..).1 hq).1) rfl rfl

theorem release_steady (p : Nat) :
    Tx.Writes Steady (releasePairRouteReservationLocked p) := by
  intro l b l' hrun
  rw [release_run] at hrun
  split at hrun
  · cases hrun
    exact .refl
  · next row hp =>
      cases hrun
      exact .single (steady_released p row)

theorem releaseAll_steady (ps : List Nat) : Tx.Writes Steady (releaseAllLocked ps) := by
  induction ps with
  | nil => exact Tx.writes_pure _ _
  | cons p ps ih =>
      exact (release_steady p).bind fun _ => ih.bind fun _ => Tx.writes_pure _ _

theorem releaseSelected_steady (select : ControlLedger → List Nat) :
    Tx.Writes Steady (do let l ← get; releaseAllLocked (select l)) := by
  intro l b l' hrun
  obtain ⟨_, _, hget, hrest⟩ := Tx.bind_ok.1 hrun
  obtain ⟨rfl, rfl⟩ := Tx.get_ok.1 hget
  exact releaseAll_steady _ _ _ _ hrest

theorem expired_steady {now : Nat} {ids : List Nat} {l' : ControlLedger}
    (h : (expirePairRouteReservationsLocked now).run l = .ok (ids, l')) : Steady l l' :=
  steady_of_writes (releaseSelected_steady _ _ _ _ h)

theorem stateSet_steady {r : Nat} {row : RouteRow} (st : RouteState)
    (hr : l.pairRoutes.get r = some row) {assertions : Table (Nat × Nat) Int}
    (ha : ∀ k, assertions.get k ≠ none → l.unpairAssertions.get k ≠ none) :
    Steady l { l with
      pairRoutes := l.pairRoutes.set r { row with state := st }
      unpairAssertions := assertions } where
  routes q row' hq := by
    simp only [Table.get_set] at hq
    split at hq
    · next hqr =>
        cases hq
        exact ⟨row.state, by rw [hqr, hr]⟩
    · exact ⟨row'.state, hq⟩
  kept q row' hq := by
    simp only [Table.get_set]
    split
    · next hqr =>
        rw [hqr, hr] at hq
        cases hq
        exact ⟨st, rfl⟩
    · exact ⟨row'.state, hq⟩
  reservations _ _ h := h
  assertions := ha
  identifiers := rfl

theorem deleted_assertion {t : Table (Nat × Nat) Int} {p : Nat × Nat → Int → Bool}
    {k : Nat × Nat} (h : (t.delete p).get k ≠ none) : t.get k ≠ none := by
  obtain ⟨v, hv⟩ := Option.ne_none_iff_exists'.1 h
  rw [((Table.get_delete_eq_some ..).1 hv).1]
  exact Option.some_ne_none v

theorem release_keeps (p : Nat) : Steady l (releasePairRouteReservation p l).2 :=
  steady_of_writes ((release_steady p).commit l)

/-! ## A reservation and its commit -/

theorem reserve_error {a b : Nat} {connected : List Nat} {uuid now : Nat} {e : LedgerFault}
    {l' : ControlLedger}
    (h : reservePairRouteProposal a b connected uuid now l = (.error e, l')) :
    l' = l :=
  (Tx.commit_error.1 h).2

/-- Reservations that are due expire, and then the new one is inserted. -/
theorem reserve_ok {a b : Nat} {connected : List Nat} {uuid now : Nat} {p : Proposal}
    {l' : ControlLedger}
    (h : reservePairRouteProposal a b connected uuid now l = (.ok p, l')) :
    ∃ m row owners, Steady l m ∧ row.leaderWorkerId = a ∧ row.followerWorkerId = b ∧
      l' = { m with
        pairExecutionOwners := owners
        pairRouteReservations := m.pairRouteReservations.set uuid row } := by
  have hrun := Tx.commit_ok.1 h
  simp only [ensure, requireConnected, insertReservation, Tx.bind_ok,
    Tx.get_ok, Tx.require_ok, Tx.modify_ok, Tx.pure_ok] at hrun
  obtain ⟨_, _, ⟨-, rfl⟩, _, m, hexp, _, _, h1, _, _, h2, _, _, ⟨-, rfl⟩, _, _, ⟨-, rfl⟩,
    _, _, hel, _, _, hclaim, _, _, ⟨_, _, ⟨rfl, rfl⟩, _, _, ⟨-, rfl⟩, rfl⟩, -, rfl⟩ := hrun
  obtain rfl := activeWorker_ok h1
  obtain rfl := activeWorker_ok h2
  obtain ⟨-, rfl⟩ := eligible_ok hel
  obtain rfl := claim_ok hclaim
  exact ⟨_, _, _, expired_steady hexp, rfl, rfl, rfl⟩

/-- The route that a commit returns joins the Workers of the reservation. -/
theorem createLocked_parties {p : Nat} {connected : List Nat}
    {draw : Nat → Nat} {now : Nat} {l' : ControlLedger} {r : RouteRecord}
    (h : (createPairRouteLocked p connected draw now).run l = .ok (r, l')) {row : RouteRow}
    (hr : l'.pairRoutes.get r.routeId = some row) :
    row.leaderWorkerId = r.leaderWorkerId ∧ row.followerWorkerId = r.followerWorkerId := by
  simp only [createPairRouteLocked, Tx.bind_ok, Tx.get_ok] at h
  obtain ⟨expired, m, hexp, _, _, ⟨rfl, rfl⟩, h⟩ := h
  split at h
  · simp only [refuse, Tx.throw_ok] at h
  · simp only [insertRoute, Tx.bind_ok, Tx.get_ok, Tx.require_ok, Tx.modify_ok,
      Tx.pure_ok] at h
    obtain ⟨_, _, h1, _, _, h2, _, _, h3, _, _, h4, _, _, h5, _, _, h6, _, _, h7, _, _,
      ⟨_, _, ⟨rfl, rfl⟩, _, _, ⟨-, rfl⟩, rfl⟩, _, _, rfl, rfl, rfl⟩ := h
    rw [Table.get_set_self] at hr
    cases hr
    exact ⟨rfl, rfl⟩

/-- Reservations that are due expire, and then the reservation becomes a route. -/
theorem create_ok {p : Nat} {connected : List Nat} {draw : Nat → Nat} {now : Nat}
    {r : RouteRecord} {l' : ControlLedger}
    (h : createPairRoute p connected draw now l = (.ok r, l')) :
    ∃ m res, Steady l m ∧ m.pairRouteReservations.get p = some res ∧
      r.routeId ∉ m.pairRouteIdentifiers ∧ res.leaderWorkerId = r.leaderWorkerId ∧
      res.followerWorkerId = r.followerWorkerId ∧ l' = m.created p r.routeId res := by
  have hrun : (createPairRouteLocked p connected draw now).run l = .ok (r, l') := by
    unfold createPairRoute at h
    split at h
    · cases (Prod.mk.inj h).1
    · exact Tx.commit_ok.1 h
  obtain ⟨expired, m, res, hexp, hres, -, hnew, -, rfl⟩ := createLocked_ok hrun
  obtain ⟨hl, hf⟩ := createLocked_parties hrun (Table.get_set_self ..)
  exact ⟨m, res, expired_steady hexp, hres, hnew, hl, hf, rfl⟩

theorem create_fails {p : Nat} {connected : List Nat} {draw : Nat → Nat} {now : Nat}
    {e : LedgerFault} {l' : ControlLedger}
    (h : createPairRoute p connected draw now l = (.error e, l')) : Steady l l' := by
  unfold createPairRoute at h
  split at h
  · next message m hc =>
      obtain rfl := (Prod.mk.inj h).2
      obtain ⟨-, rfl⟩ := Tx.commit_error.1 hc
      exact release_keeps p
  · obtain ⟨-, rfl⟩ := Tx.commit_error.1 h
    exact .refl _

/-! ## An assertion -/

/-- An assertion of `w` takes its route away only when every Worker of it has asserted. -/
theorem assertion_steady {r w : Nat} {v : Int} {reply : AssertionRecord}
    {l' : ControlLedger} (h : recordPairUnpairAssertion r w v l = (.ok reply, l')) :
    ∃ row assertions, l.pairRoutes.get r = some row ∧ row.has w = true ∧
      (∀ k, assertions.get k ≠ none → k = (r, w) ∨ l.unpairAssertions.get k ≠ none) ∧
      (l' = { l with stateVersions := l'.stateVersions, unpairAssertions := assertions } ∨
        (∀ x, row.has x = true → assertions.get (r, x) ≠ none) ∧
          l' = ({ l with stateVersions := l.stateVersions.set (r, w) v
                         unpairAssertions := assertions }).removed r row) := by
  obtain ⟨row, assertions, hr, hw, -, -, ha, hl⟩ := assertion_ok h
  refine ⟨row, assertions.set (r, w) v, hr, hw, ?_, ?_⟩
  · intro k hk
    rw [Table.get_set] at hk
    split at hk
    · next hkey => exact .inl hkey
    · obtain rfl | rfl := ha
      · exact .inr hk
      · exact .inr (deleted_assertion hk)
  · obtain ⟨-, rfl⟩ | ⟨-, rfl, hfresh⟩ := hl
    · exact .inl rfl
    · refine .inr ⟨fun x hx => ?_, rfl⟩
      obtain ⟨version, hversion, -⟩ := mem_fresh (hfresh x hx)
      rw [show (assertions.set (r, w) v).get (r, x) = some version from hversion]
      exact Option.some_ne_none version

/-! ## Everything else -/

/-- The operations that make something new or may take a route away. -/
def Op.Decisive : Op → Prop
  | .reservePairRouteProposal .. => True
  | .createPairRoute .. => True
  | .recordPairUnpairAssertion .. => True
  | .deleteWorker _ => True
  | _ => False

theorem commit_steady {α : Type} {t : Locked α}
    (h : ∀ a l', t.run l = .ok (a, l') → Steady l l') : Steady l (Tx.commit t l).2 :=
  Tx.commit_invariant (I := Steady l) (.refl l) fun a l' hl' => h a l' (Tx.commit_ok.1 hl')

theorem perform_steady (op : Op) (hop : ¬op.Decisive) : Steady l (l.perform op).2 := by
  have hrows : ∀ e w, Steady l { l with enrollments := e, workers := w } :=
    fun _ _ => steady_of_same rfl (fun _ _ h => h) rfl rfl
  cases op with
  | enrollments rows => exact hrows rows l.workers
  | approveEnrollment e w now =>
      change Steady l (approveEnrollment e w now l).2
      refine Tx.commit_invariant (I := Steady l) (.refl l) fun a l' hl' => ?_
      obtain ⟨row, ps, -, -, -, -, -, rfl⟩ := approve_ok hl'
      exact hrows _ _
  | revokeWorker w =>
      change Steady l (revokeWorker w l).2
      refine Tx.commit_invariant (I := Steady l) (.refl l) fun a l' hl' => ?_
      obtain ⟨row, -, rfl⟩ := revoke_ok hl'
      exact hrows _ _
  | availablePairFollowers w now =>
      change Steady l (availablePairFollowers w now l).2
      refine commit_steady fun a l' hrun => ?_
      obtain ⟨_, m, hactive, hexp⟩ := Tx.bind_ok.1 hrun
      obtain rfl := activeWorker_ok hactive
      exact expired_steady hexp
  | releasePairRouteReservation p => exact release_keeps p
  | releasePairRouteReservationsForWorker w =>
      exact commit_steady fun a l' hrun =>
        steady_of_writes (releaseSelected_steady _ _ _ _ hrun)
  | expirePairRouteReservations now =>
      exact commit_steady fun a l' hrun => expired_steady hrun
  | enterPairRouteUnpairing r w =>
      change Steady l (enterPairRouteUnpairing r w l).2
      refine Tx.commit_invariant (I := Steady l) (.refl l) fun a l' hl' => ?_
      obtain ⟨row, routes, hr, -, ⟨rfl, -⟩ | rfl, rfl⟩ := enter_ok hl'
      · exact ⟨fun _ row h => ⟨row.state, h⟩, fun _ row h => ⟨row.state, h⟩,
          fun _ _ h => h,
          fun _ h => deleted_assertion h, rfl⟩
      · exact stateSet_steady .unpairing hr fun _ h => deleted_assertion h
  | cancelPairRouteUnpairing r w =>
      change Steady l (cancelPairRouteUnpairing r w l).2
      refine Tx.commit_invariant (I := Steady l) (.refl l) fun a l' hl' => ?_
      obtain ⟨row, hr, -, -, rfl⟩ := cancel_ok hl'
      exact stateSet_steady .active hr fun _ h => deleted_assertion h
  | recordPairWorkerStateVersion r w v =>
      change Steady l (recordPairWorkerStateVersion r w v l).2
      refine Tx.commit_invariant (I := Steady l) (.refl l) fun a l' hl' => ?_
      obtain ⟨row, assertions, -, -, -, ha, rfl⟩ := recordVersion_ok hl'
      refine ⟨fun _ row h => ⟨row.state, h⟩, fun _ row h => ⟨row.state, h⟩,
        fun _ _ h => h, ?_, rfl⟩
      intro k hk
      obtain rfl | rfl := ha
      · exact hk
      · exact deleted_assertion hk
  | restart => exact steady_of_same rfl (fun _ _ h => h) rfl rfl
  | _ => exact absurd trivial hop

end Tables

end PairCell.ControlLedger
