import Mathlib.Data.List.Basic
import PairCell.Ledger

/-!
# Runs of the ledger

The operations as labels, their runs with what each returned, and what an
operation can write: those on pairings and Workers by a few kinds of writes,
the four on safe unpair each by an equation.
-/

namespace PairCell.ControlLedger

open Lib

/-! ## Operations and runs -/

/-- Every public operation with its arguments, the identifiers it draws and the clock it
reads. `enrollments` stands for the operations on enrollments alone, `restart` opens the
database. -/
inductive Op where
  | enrollments (rows : Table Nat Enrollment)
  | approveEnrollment (enrollmentId workerId now : Nat)
  | revokeWorker (workerId : Nat)
  | deleteWorker (workerId : Nat)
  | availablePairFollowers (requestingWorkerId now : Nat)
  | reservePairRouteProposal (leaderWorkerId followerWorkerId : Nat) (connected : List Nat)
      (uuid now : Nat)
  | createPairRoute (proposalId : Nat) (connected : List Nat)
      (draw : Nat → Nat) (now : Nat)
  | releasePairRouteReservation (proposalId : Nat)
  | releasePairRouteReservationsForWorker (workerId : Nat)
  | expirePairRouteReservations (now : Nat)
  | enterPairRouteUnpairing (routeId workerId : Nat)
  | cancelPairRouteUnpairing (routeId workerId : Nat)
  | recordPairWorkerStateVersion (routeId workerId : Nat) (stateVersion : Int)
  | recordPairUnpairAssertion (routeId workerId : Nat) (stateVersion : Int)
  | restart

inductive Reply where
  | done
  | worker (workerId : Nat)
  | deletion (d : Deletion)
  | proposals (ids : List Nat)
  | proposal (p : Proposal)
  | route (r : RouteRecord)
  | released (b : Bool)
  | version (v : VersionRecord)
  | assertion (a : AssertionRecord)

abbrev Outcome := Except LedgerFault Reply

def answer {α : Type} (f : α → Reply) (p : Except LedgerFault α × ControlLedger) :
    Outcome × ControlLedger :=
  (p.1.map f, p.2)

def perform (l : ControlLedger) : Op → Outcome × ControlLedger
  | .enrollments rows => (.ok .done, { l with enrollments := rows })
  | .approveEnrollment e w now => answer .worker (approveEnrollment e w now l)
  | .revokeWorker w => answer (fun _ => .done) (revokeWorker w l)
  | .deleteWorker w => answer .deletion (deleteWorker w l)
  | .availablePairFollowers w now => answer .proposals (availablePairFollowers w now l)
  | .reservePairRouteProposal a b connected uuid now =>
      answer .proposal (reservePairRouteProposal a b connected uuid now l)
  | .createPairRoute p connected draw now =>
      answer .route (createPairRoute p connected draw now l)
  | .releasePairRouteReservation p => answer .released (releasePairRouteReservation p l)
  | .releasePairRouteReservationsForWorker w =>
      answer .proposals (releasePairRouteReservationsForWorker w l)
  | .expirePairRouteReservations now =>
      answer .proposals (expirePairRouteReservations now l)
  | .enterPairRouteUnpairing r w => answer .route (enterPairRouteUnpairing r w l)
  | .cancelPairRouteUnpairing r w => answer .route (cancelPairRouteUnpairing r w l)
  | .recordPairWorkerStateVersion r w v =>
      answer .version (recordPairWorkerStateVersion r w v l)
  | .recordPairUnpairAssertion r w v =>
      answer .assertion (recordPairUnpairAssertion r w v l)
  | .restart => (.ok .done, dropOrphanedPairCellClaims l)

def run (l : ControlLedger) (ops : List Op) : ControlLedger :=
  ops.foldl (fun l op => (l.perform op).2) l

/-- The operations of a run with what each returned, in their order. -/
def history (l : ControlLedger) : List Op → List (Op × Outcome)
  | [] => []
  | op :: ops => (op, (l.perform op).1) :: history (l.perform op).2 ops

theorem run_append (l : ControlLedger) (ops more : List Op) :
    l.run (ops ++ more) = (l.run ops).run more := by
  simp [run]

theorem history_append (l : ControlLedger) (ops more : List Op) :
    l.history (ops ++ more) = l.history ops ++ (l.run ops).history more := by
  induction ops generalizing l with
  | nil => rfl
  | cons op ops ih => simp [history, ih, run]

/-- What holds of the first ledger and is kept by every operation holds after every run. -/
theorem run_invariant {I : ControlLedger → Prop} {l : ControlLedger} (h : I l)
    (hstep : ∀ l op, I l → I (l.perform op).2) (ops : List Op) : I (l.run ops) := by
  induction ops generalizing l with
  | nil => exact h
  | cons op ops ih => exact ih (hstep l op h)

/-! ## What the locked helpers do -/

section Helpers

variable {l l' : ControlLedger}

theorem activeWorker_ok {w : Nat} {a : WorkerRow}
    (h : (activeWorker w).run l = .ok (a, l')) :
    l' = l := by
  simp only [activeWorker, Tx.bind_ok, Tx.get_ok] at h
  obtain ⟨_, _, ⟨rfl, rfl⟩, h⟩ := h
  split at h
  · simp only [refuse, Tx.throw_ok] at h
  · simp only [ensure, Tx.bind_ok, Tx.require_ok, Tx.pure_ok] at h
    obtain ⟨_, _, ⟨-, rfl⟩, -, rfl⟩ := h
    rfl

theorem claim_ok {a b : Nat} {mode : ExecutionMode} {u : Unit}
    (h : (claimPairExecutionModeLocked a b mode).run l = .ok (u, l')) :
    l' = { l with
      pairExecutionOwners := l.pairExecutionOwners.set (pairKey a b, mode) () } := by
  simp only [claimPairExecutionModeLocked, ensure, Tx.bind_ok, Tx.get_ok, Tx.require_ok,
    Tx.modify_ok] at h
  obtain ⟨_, _, h1, _, _, h2, _, _, ⟨-, rfl⟩, _, _, ⟨-, rfl⟩, rfl⟩ := h
  rw [activeWorker_ok h2, activeWorker_ok h1]

theorem routed_ok {r w : Nat} {row : RouteRow}
    (h : (requireRoutedWorkerLocked r w).run l = .ok (row, l')) :
    l.pairRoutes.get r = some row ∧ row.has w = true ∧ l' = l := by
  simp only [requireRoutedWorkerLocked, Tx.bind_ok, Tx.get_ok] at h
  obtain ⟨_, _, ⟨rfl, rfl⟩, h⟩ := h
  split at h
  · simp only [refuse, Tx.throw_ok] at h
  · next hrow =>
      simp only [ensure, Tx.bind_ok, Tx.require_ok, Tx.pure_ok] at h
      obtain ⟨_, _, ⟨hw, rfl⟩, rfl, rfl⟩ := h
      exact ⟨hrow, hw, rfl⟩

/-- No route names one of the two, nor does a reservation other than the ignored one. -/
def Eligible (l : ControlLedger) (a b : Nat) (ignoreProposalId : Option Nat) : Prop :=
  (∀ r row, l.pairRoutes.get r = some row → row.has a = false ∧ row.has b = false) ∧
  ∀ p row, l.pairRouteReservations.get p = some row → some p ≠ ignoreProposalId →
    row.has a = false ∧ row.has b = false

theorem any_eq_false {K V : Type} [DecidableEq K] {t : Table K V} {p : K → V → Bool}
    (h : t.any p = false) {k : K} {v : V} (hk : t.get k = some v) : p k v = false := by
  by_contra hp
  have : t.any p = true := (t.any_iff p).2 ⟨k, v, hk, by simpa using hp⟩
  simp [h] at this

theorem eligible_ok {a b : Nat} {ignore : Option Nat} {u : Unit}
    (h : (requirePairWorkerEligibilityLocked a b ignore).run l = .ok (u, l')) :
    Eligible l a b ignore ∧ l' = l := by
  simp only [requirePairWorkerEligibilityLocked, ensure, Tx.bind_ok, Tx.get_ok,
    Tx.require_ok] at h
  obtain ⟨_, _, ⟨rfl, rfl⟩, _, _, ⟨h1, rfl⟩, _, _, ⟨h2, rfl⟩, -, rfl⟩ := h
  refine ⟨⟨?_, ?_⟩, rfl⟩
  · intro r row hr
    simpa using any_eq_false h1 hr
  · intro p row hp hne
    simpa [hne] using any_eq_false h2 hp

/-- The ledger after the reservation `p`, whose row is `row`, is released. -/
def released (l : ControlLedger) (p : Nat) (row : Reservation) : ControlLedger :=
  let key := pairKey row.leaderWorkerId row.followerWorkerId
  { l with
    pairRouteReservations := l.pairRouteReservations.delete fun q _ => q == p
    pairExecutionOwners :=
      if l.pairRoutes.any (fun _ r => r.pairKey == key) = false then
        l.pairExecutionOwners.delete fun k _ => k == (key, .pairExecutionCell)
      else l.pairExecutionOwners }

theorem release_run (p : Nat) : (releasePairRouteReservationLocked p).run l =
    match l.pairRouteReservations.get p with
    | none => .ok (false, l)
    | some row => .ok (true, l.released p row) := by
  rw [releasePairRouteReservationLocked, StateT.run_bind, StateT.run_get, pure_bind]
  dsimp only
  cases h : l.pairRouteReservations.get p with
  | none => rfl
  | some row =>
      by_cases hr : l.pairRoutes.any
          (fun _ r => r.pairKey == pairKey row.leaderWorkerId row.followerWorkerId) = false
      · simp [hr, released, releasePairExecutionModeLocked]
        rfl
      · simp [hr, released]
        rfl

theorem issue_ok {draw : Nat → Nat} {r : Nat}
    (h : (issuePairRouteIdLocked draw).run l = .ok (r, l')) :
    r ∉ l.pairRouteIdentifiers ∧
      l' = { l with pairRouteIdentifiers := r :: l.pairRouteIdentifiers } := by
  simp only [issuePairRouteIdLocked, Tx.bind_ok, Tx.get_ok] at h
  obtain ⟨_, _, ⟨rfl, rfl⟩, h⟩ := h
  split at h
  · simp only [refuse, Tx.throw_ok] at h
  · next c hc =>
      simp only [Tx.bind_ok, Tx.modify_ok, Tx.pure_ok] at h
      obtain ⟨_, _, rfl, rfl, rfl⟩ := h
      exact ⟨by simpa using List.find?_some hc, rfl⟩

/-- The ledger after the route `r`, whose row is `row`, is removed. -/
def removed (l : ControlLedger) (r : Nat) (row : RouteRow) : ControlLedger :=
  { l with
    pairRoutes := l.pairRoutes.delete fun q _ => q == r
    unpairAssertions := l.unpairAssertions.delete fun k _ => k.1 == r
    stateVersions := l.stateVersions.delete fun k _ => k.1 == r
    pairExecutionOwners := l.pairExecutionOwners.delete fun k _ =>
      k == (pairKey row.leaderWorkerId row.followerWorkerId, .pairExecutionCell) }

/-- The ledger after the reservation `p`, whose row is `res`, became the route `r`. -/
def created (l : ControlLedger) (p r : Nat) (res : Reservation) : ControlLedger :=
  let key := pairKey res.leaderWorkerId res.followerWorkerId
  { l with
    pairExecutionOwners := l.pairExecutionOwners.set (key, .pairExecutionCell) ()
    pairRouteIdentifiers := r :: l.pairRouteIdentifiers
    pairRoutes :=
      l.pairRoutes.set r ⟨key, res.leaderWorkerId, res.followerWorkerId, .active⟩
    pairRouteReservations := l.pairRouteReservations.delete fun q _ => q == p }

theorem remove_ok {r : Nat} {row : RouteRow} {u : Unit}
    (h : (removePairRouteLocked r row).run l = .ok (u, l')) : l' = l.removed r row := by
  simp only [removePairRouteLocked, releasePairExecutionModeLocked, Tx.bind_ok,
    Tx.modify_ok] at h
  obtain ⟨_, _, rfl, _, _, rfl, _, _, rfl, rfl⟩ := h
  rfl

end Helpers

/-! ## What the operations on pairings and Workers write -/

inductive PairingWrite (l : ControlLedger) : ControlLedger → Prop where
  | rows (enrollments : Table Nat Enrollment) (workers : Table Nat WorkerRow) :
      PairingWrite l { l with enrollments := enrollments, workers := workers }
  | release (p : Nat) (row : Reservation) (hp : l.pairRouteReservations.get p = some row) :
      PairingWrite l (l.released p row)
  | remove (r : Nat) (row : RouteRow) (hr : l.pairRoutes.get r = some row) :
      PairingWrite l (l.removed r row)
  | reserve (a b uuid t u : Nat) (hab : a ≠ b) (hel : Eligible l a b none)
      (hfree : l.pairRouteReservations.get uuid = none) :
      PairingWrite l { l with
        pairExecutionOwners :=
          l.pairExecutionOwners.set (pairKey a b, .pairExecutionCell) ()
        pairRouteReservations := l.pairRouteReservations.set uuid ⟨a, b, t, u⟩ }
  | create (p r : Nat) (res : Reservation) (hp : l.pairRouteReservations.get p = some res)
      (hel : Eligible l res.leaderWorkerId res.followerWorkerId (some p))
      (hnew : r ∉ l.pairRouteIdentifiers) (hfree : l.pairRoutes.get r = none) :
      PairingWrite l (l.created p r res)
  | forget (w : Nat) (hw : ∀ r row, l.pairRoutes.get r = some row → row.has w = false) :
      PairingWrite l { l with
        stateVersions := l.stateVersions.delete fun k _ => k.2 == w
        unpairAssertions := l.unpairAssertions.delete fun k _ => k.2 == w }
  | drop : PairingWrite l (dropOrphanedPairCellClaims l)

abbrev PairingWrites := Relation.ReflTransGen PairingWrite

theorem release_writes (p : Nat) :
    Tx.Writes PairingWrite (releasePairRouteReservationLocked p) := by
  intro l b l' hrun
  rw [release_run] at hrun
  split at hrun
  · cases hrun
    exact .refl
  · next row hp =>
      cases hrun
      exact .single (.release p row hp)

theorem releaseAll_writes (ps : List Nat) :
    Tx.Writes PairingWrite (releaseAllLocked ps) := by
  induction ps with
  | nil => exact Tx.writes_pure _ _
  | cons p ps ih =>
      exact (release_writes p).bind fun _ => ih.bind fun _ => Tx.writes_pure _ _

theorem releaseSelected_writes (select : ControlLedger → List Nat) :
    Tx.Writes PairingWrite (do let l ← get; releaseAllLocked (select l)) := by
  intro l b l' hrun
  obtain ⟨_, _, hget, hrest⟩ := Tx.bind_ok.1 hrun
  obtain ⟨rfl, rfl⟩ := Tx.get_ok.1 hget
  exact releaseAll_writes _ _ _ _ hrest

theorem expire_writes (now : Nat) :
    Tx.Writes PairingWrite (expirePairRouteReservationsLocked now) :=
  releaseSelected_writes _

/-- Every listed route is gone, the other routes are as they were. -/
theorem removeRoutes_ok (w : Nat) {rs : List Nat} {l l' : ControlLedger}
    {removed : List (Nat × Nat)}
    (h : (removeRoutesLocked w rs).run l = .ok (removed, l')) :
    PairingWrites l l' ∧ ∀ r row, l'.pairRoutes.get r = some row →
      l.pairRoutes.get r = some row ∧ r ∉ rs := by
  induction rs generalizing l removed with
  | nil =>
      obtain ⟨-, rfl⟩ := Tx.pure_ok.1 h
      exact ⟨.refl, fun r row hr => ⟨hr, by simp⟩⟩
  | cons q rs ih =>
      obtain ⟨_, _, hget, hrest⟩ := Tx.bind_ok.1 h
      obtain ⟨rfl, rfl⟩ := Tx.get_ok.1 hget
      dsimp only at hrest
      split at hrest
      · next hq =>
          obtain ⟨hw, hold⟩ := ih hrest
          refine ⟨hw, fun r row hr => ?_⟩
          obtain ⟨hr, hnot⟩ := hold r row hr
          have hne : r ≠ q := by rintro rfl; simp [hq] at hr
          exact ⟨hr, by simp [hne, hnot]⟩
      · next row hq =>
          simp only [Tx.bind_ok, Tx.pure_ok] at hrest
          obtain ⟨_, m, hrem, _, _, hrest, -, rfl⟩ := hrest
          rw [remove_ok hrem] at hrest
          obtain ⟨hw, hold⟩ := ih hrest
          refine ⟨.head (.remove q row hq) hw, fun r row hr => ?_⟩
          obtain ⟨hr, hnot⟩ := hold r row hr
          obtain ⟨hr, hne⟩ := (Table.get_delete_eq_some ..).1 hr
          have hne : r ≠ q := by simpa using hne
          exact ⟨hr, by simp [hne, hnot]⟩

theorem releaseAll_routes {ps ids : List Nat} {l l' : ControlLedger}
    (h : (releaseAllLocked ps).run l = .ok (ids, l')) : l'.pairRoutes = l.pairRoutes := by
  induction ps generalizing l ids with
  | nil =>
      obtain ⟨-, rfl⟩ := Tx.pure_ok.1 h
      rfl
  | cons p ps ih =>
      simp only [releaseAllLocked, Tx.bind_ok, Tx.pure_ok] at h
      obtain ⟨_, m, hrel, _, _, hrest, -, rfl⟩ := h
      rw [ih hrest]
      rw [release_run] at hrel
      split at hrel <;> cases hrel <;> rfl

theorem reserve_writes (a b : Nat) (connected : List Nat) (uuid now : Nat)
    (l : ControlLedger) :
    PairingWrites l (reservePairRouteProposal a b connected uuid now l).2 := by
  refine Tx.Writes.commit ?_ l
  intro l p l' hrun
  simp only [ensure, requireConnected, insertReservation, Tx.bind_ok,
    Tx.get_ok, Tx.require_ok, Tx.modify_ok, Tx.pure_ok] at hrun
  obtain ⟨_, _, ⟨hab, rfl⟩, _, m, hexp, _, _, h1, _, _, h2, _, _, ⟨-, rfl⟩, _, _, ⟨-, rfl⟩,
    _, _, hel, _, _, hclaim, _, _, ⟨_, _, ⟨rfl, rfl⟩, _, _, ⟨hfree, rfl⟩, rfl⟩,
    -, rfl⟩ := hrun
  obtain rfl := activeWorker_ok h1
  obtain rfl := activeWorker_ok h2
  obtain ⟨hel, rfl⟩ := eligible_ok hel
  obtain rfl := claim_ok hclaim
  exact (expire_writes now _ _ _ hexp).tail (.reserve a b uuid _ _ hab hel hfree)

/-- What a successful commit did: the reservation, still there after the expiry, became a
route under an identifier never issued before. -/
theorem createLocked_ok {p : Nat} {connected : List Nat} {draw : Nat → Nat} {now : Nat}
    {l l' : ControlLedger} {r : RouteRecord}
    (h : (createPairRouteLocked p connected draw now).run l = .ok (r, l')) :
    ∃ expired m res, (expirePairRouteReservationsLocked now).run l = .ok (expired, m) ∧
      m.pairRouteReservations.get p = some res ∧
      Eligible m res.leaderWorkerId res.followerWorkerId (some p) ∧
      r.routeId ∉ m.pairRouteIdentifiers ∧ m.pairRoutes.get r.routeId = none ∧
      l' = m.created p r.routeId res := by
  simp only [createPairRouteLocked, Tx.bind_ok, Tx.get_ok] at h
  obtain ⟨expired, m, hexp, _, _, ⟨rfl, rfl⟩, h⟩ := h
  split at h
  · simp only [refuse, Tx.throw_ok] at h
  · next res hres =>
      simp only [ensure, requireConnected, insertRoute, Tx.bind_ok,
        Tx.get_ok, Tx.require_ok, Tx.modify_ok, Tx.pure_ok] at h
      obtain ⟨_, _, h1, _, _, h2, _, _, ⟨-, rfl⟩, _, _, ⟨-, rfl⟩, _, _, hel, _,
          _, hclaim, _, _,
        hid, _, _, ⟨_, _, ⟨rfl, rfl⟩, _, _, ⟨⟨hfree, -⟩, rfl⟩, rfl⟩, _, _, rfl,
        rfl, rfl⟩ := h
      obtain rfl := activeWorker_ok h1
      obtain rfl := activeWorker_ok h2
      obtain ⟨hel, rfl⟩ := eligible_ok hel
      obtain rfl := claim_ok hclaim
      obtain ⟨hnew, rfl⟩ := issue_ok hid
      exact ⟨expired, _, res, hexp, hres, hel, hnew, hfree, rfl⟩

theorem create_writes (p : Nat) (connected : List Nat) (draw : Nat → Nat) (now : Nat)
    (l : ControlLedger) : PairingWrites l (createPairRoute p connected draw now l).2 := by
  have hcommit : PairingWrites l
      (Tx.commit (createPairRouteLocked p connected draw now) l).2 := by
    refine Tx.Writes.commit ?_ l
    intro l r l' hrun
    obtain ⟨expired, m, res, hexp, hres, hel, hnew, hfree, rfl⟩ := createLocked_ok hrun
    exact (expire_writes now _ _ _ hexp).tail (.create p _ res hres hel hnew hfree)
  unfold createPairRoute
  split
  · next hl =>
      rw [hl] at hcommit
      exact hcommit.trans ((release_writes p).commit _)
  · exact hcommit

theorem approve_writes (e w now : Nat) (l : ControlLedger) :
    PairingWrites l (approveEnrollment e w now l).2 := by
  refine Tx.Writes.commit ?_ l
  intro l a l' hrun
  obtain ⟨_, _, hget, hrest⟩ := Tx.bind_ok.1 hrun
  obtain ⟨rfl, rfl⟩ := Tx.get_ok.1 hget
  split at hrest
  · simp only [refuse, Tx.throw_ok] at hrest
  · simp only [ensure, Tx.bind_ok, Tx.require_ok, Tx.modify_ok, Tx.pure_ok] at hrest
    obtain ⟨_, _, ⟨-, rfl⟩, _, _, ⟨-, rfl⟩, _, _, ⟨-, rfl⟩, _, _, rfl, _, _,
        ⟨-, rfl⟩, _, _, rfl,
      _, _, rfl, -, rfl⟩ := hrest
    exact .single (.rows _ _)

theorem revoke_writes (w : Nat) (l : ControlLedger) :
    PairingWrites l (revokeWorker w l).2 := by
  refine Tx.Writes.commit ?_ l
  intro l a l' hrun
  obtain ⟨_, _, hget, hrest⟩ := Tx.bind_ok.1 hrun
  obtain ⟨rfl, rfl⟩ := Tx.get_ok.1 hget
  split at hrest
  · simp only [refuse, Tx.throw_ok] at hrest
  · simp only [ensure, Tx.bind_ok, Tx.require_ok, Tx.modify_ok] at hrest
    obtain ⟨_, _, ⟨-, rfl⟩, rfl⟩ := hrest
    exact .single (.rows _ _)

theorem delete_writes (w : Nat) (l : ControlLedger) :
    PairingWrites l (deleteWorker w l).2 := by
  refine Tx.Writes.commit ?_ l
  intro l a l' hrun
  obtain ⟨_, _, hget, hrest⟩ := Tx.bind_ok.1 hrun
  obtain ⟨rfl, rfl⟩ := Tx.get_ok.1 hget
  split at hrest
  · simp only [refuse, Tx.throw_ok] at hrest
  · simp only [ensure, Tx.bind_ok, Tx.get_ok, Tx.require_ok, Tx.modify_ok,
      Tx.pure_ok] at hrest
    obtain ⟨_, _, ⟨-, rfl⟩, peers, m, hroutes, _, _, ⟨rfl, rfl⟩, ids, n, hres, _, _,
        rfl, _, _, rfl,
      _, _, rfl, _, _, rfl, -, rfl⟩ := hrest
    obtain ⟨hm, hgone⟩ := removeRoutes_ok w hroutes
    have hn := hm.trans (releaseAll_writes _ _ _ _ hres)
    refine (hn.tail (.forget w ?_)).tail (.rows _ _)
    intro r row hr
    rw [releaseAll_routes hres] at hr
    obtain ⟨hr, hnot⟩ := hgone r row hr
    by_contra hw
    exact hnot ((Table.mem_keys ..).2 ⟨row, hr, by simpa using hw⟩)

/-! ## What the four operations on safe unpair do -/

theorem setVersion_ok {r w : Nat} {v : Int} {l l' : ControlLedger} {b : Bool}
    (h : (setPairWorkerStateVersionLocked r w v).run l = .ok (b, l')) :
    ∃ assertions, l' = { l with
      stateVersions := l.stateVersions.set (r, w) v
      unpairAssertions := assertions } ∧
      (assertions = l.unpairAssertions ∨
        assertions = l.unpairAssertions.delete fun k _ => k == (r, w)) := by
  simp only [setPairWorkerStateVersionLocked, Tx.bind_ok, Tx.get_ok, Tx.require_ok,
    Tx.modify_ok] at h
  obtain ⟨_, _, ⟨rfl, rfl⟩, _, _, ⟨-, rfl⟩, _, _, rfl, h⟩ := h
  split at h
  · obtain ⟨-, rfl⟩ := Tx.pure_ok.1 h
    exact ⟨_, rfl, .inl rfl⟩
  · split at h
    · simp only [Tx.bind_ok, Tx.modify_ok, Tx.pure_ok] at h
      obtain ⟨_, _, rfl, -, rfl⟩ := h
      exact ⟨_, rfl, .inr rfl⟩
    · obtain ⟨-, rfl⟩ := Tx.pure_ok.1 h
      exact ⟨_, rfl, .inl rfl⟩

theorem enter_ok {r w : Nat} {l l' : ControlLedger} {reply : RouteRecord}
    (h : enterPairRouteUnpairing r w l = (.ok reply, l')) :
    ∃ row routes, l.pairRoutes.get r = some row ∧ row.has w = true ∧
      (routes = l.pairRoutes ∧ row.state = .unpairing ∨
        routes = l.pairRoutes.set r { row with state := .unpairing }) ∧
      l' = { l with
        pairRoutes := routes
        unpairAssertions := l.unpairAssertions.delete fun k _ => k.1 == r } := by
  obtain ⟨row, m, hrow, hrest⟩ := Tx.bind_ok.1 (Tx.commit_ok.1 h)
  obtain ⟨hr, hw, rfl⟩ := routed_ok hrow
  dsimp only at hrest
  split at hrest
  · simp only [deleteAssertions, setRouteState, Tx.bind_ok, Tx.modify_ok,
      Tx.pure_ok] at hrest
    obtain ⟨_, _, rfl, _, _, rfl, -, rfl⟩ := hrest
    exact ⟨row, _, hr, hw, .inr rfl, rfl⟩
  · next hst =>
      simp only [deleteAssertions, Tx.bind_ok, Tx.modify_ok, Tx.pure_ok] at hrest
      obtain ⟨_, _, rfl, -, rfl⟩ := hrest
      exact ⟨row, _, hr, hw, .inl ⟨rfl, by simpa using hst⟩, rfl⟩

theorem cancel_ok {r w : Nat} {l l' : ControlLedger} {reply : RouteRecord}
    (h : cancelPairRouteUnpairing r w l = (.ok reply, l')) :
    ∃ row, l.pairRoutes.get r = some row ∧ row.has w = true ∧ row.state = .unpairing ∧
      l' = { l with
        pairRoutes := l.pairRoutes.set r { row with state := .active }
        unpairAssertions := l.unpairAssertions.delete fun k _ => k.1 == r } := by
  have h := Tx.commit_ok.1 h
  simp only [deleteAssertions, setRouteState, ensure, Tx.bind_ok,
    Tx.modify_ok, Tx.require_ok, Tx.pure_ok] at h
  obtain ⟨row, _, hrow, _, _, ⟨hst, rfl⟩, _, _, rfl, _, _, rfl, -, rfl⟩ := h
  obtain ⟨hr, hw, rfl⟩ := routed_ok hrow
  exact ⟨row, hr, hw, hst, rfl⟩

theorem recordVersion_ok {r w : Nat} {v : Int} {l l' : ControlLedger}
    {reply : VersionRecord} (h : recordPairWorkerStateVersion r w v l = (.ok reply, l')) :
    ∃ row assertions, l.pairRoutes.get r = some row ∧ row.has w = true ∧
      (∀ current ∈ l.stateVersions.get (r, w), current ≤ v) ∧
      (assertions = l.unpairAssertions ∨
        assertions = l.unpairAssertions.delete fun k _ => k == (r, w)) ∧
      l' = { l with
        stateVersions := l.stateVersions.set (r, w) v
        unpairAssertions := assertions } := by
  have h := Tx.commit_ok.1 h
  simp only [ensure, Tx.bind_ok, Tx.get_ok, Tx.require_ok, Tx.pure_ok] at h
  obtain ⟨_, _, ⟨-, rfl⟩, row, _, hrow, _, _, ⟨rfl, rfl⟩, _, _, ⟨hle, rfl⟩, _, _,
      hset, -, rfl⟩ := h
  obtain ⟨hr, hw, rfl⟩ := routed_ok hrow
  obtain ⟨assertions, rfl, ha⟩ := setVersion_ok hset
  exact ⟨row, assertions, hr, hw, hle, ha, rfl⟩

/-- The ledger with an accepted assertion, before the route is arbitrated. -/
def asserted (l : ControlLedger) (r w : Nat) (v : Int)
    (assertions : Table (Nat × Nat) Int) :
    ControlLedger :=
  { l with
    stateVersions := l.stateVersions.set (r, w) v
    unpairAssertions := assertions.set (r, w) v }

theorem assertion_ok {r w : Nat} {v : Int} {l l' : ControlLedger} {reply : AssertionRecord}
    (h : recordPairUnpairAssertion r w v l = (.ok reply, l')) :
    ∃ row assertions, l.pairRoutes.get r = some row ∧ row.has w = true ∧
      row.state = .unpairing ∧
      (∀ current ∈ l.stateVersions.get (r, w), current ≤ v) ∧
      (assertions = l.unpairAssertions ∨
        assertions = l.unpairAssertions.delete fun k _ => k == (r, w)) ∧
      ((reply.routeRemoved = false ∧ l' = l.asserted r w v assertions) ∨
        (reply.routeRemoved = true ∧ l' = (l.asserted r w v assertions).removed r row ∧
          ∀ x, row.has x = true →
            x ∈ (l.asserted r w v assertions).freshPairUnpairAssertionsLocked r)) := by
  have h := Tx.commit_ok.1 h
  simp only [ensure, Tx.bind_ok, Tx.get_ok, Tx.require_ok, Tx.modify_ok] at h
  obtain ⟨_, _, ⟨-, rfl⟩, row, _, hrow, _, _, ⟨hst, rfl⟩, _, _, ⟨rfl, rfl⟩, _, _,
      ⟨hle, rfl⟩, _, _,
    hset, _, _, rfl, _, _, ⟨rfl, rfl⟩, h⟩ := h
  obtain ⟨hr, hw, rfl⟩ := routed_ok hrow
  obtain ⟨assertions, rfl, ha⟩ := setVersion_ok hset
  refine ⟨row, assertions, hr, hw, hst, hle, ha, ?_⟩
  split at h
  · next hall =>
      simp only [Tx.bind_ok, Tx.pure_ok] at h
      obtain ⟨_, m, hrem, rfl, rfl⟩ := h
      refine .inr ⟨hall, remove_ok hrem, ?_⟩
      intro x hx
      rw [Bool.and_eq_true] at hall
      have hreq := List.all_eq_true.1 hall.2
      have hx : row.leaderWorkerId = x ∨ row.followerWorkerId = x := by
        simpa [RouteRow.has] using hx
      have hmem : x ∈ [row.leaderWorkerId, row.followerWorkerId] := by
        obtain rfl | rfl := hx <;> simp
      exact List.contains_iff_mem.1 (hreq x hmem)
  · next hall =>
      obtain ⟨rfl, rfl⟩ := Tx.pure_ok.1 h
      exact .inl ⟨Bool.eq_false_iff.2 hall, rfl⟩

/-- The four operations on safe unpair. -/
def Op.OnUnpair : Op → Prop
  | .enterPairRouteUnpairing .. => True
  | .cancelPairRouteUnpairing .. => True
  | .recordPairWorkerStateVersion .. => True
  | .recordPairUnpairAssertion .. => True
  | _ => False

theorem perform_writes (l : ControlLedger) (op : Op) (h : ¬op.OnUnpair) :
    PairingWrites l (l.perform op).2 := by
  cases op with
  | enrollments rows => exact .single (.rows rows l.workers)
  | approveEnrollment e w now => exact approve_writes e w now l
  | revokeWorker w => exact revoke_writes w l
  | deleteWorker w => exact delete_writes w l
  | availablePairFollowers w now =>
      refine Tx.Writes.commit (Tx.Writes.bind ?_ fun _ => expire_writes now) l
      intro l a l' hrun
      obtain rfl := activeWorker_ok hrun
      exact .refl
  | reservePairRouteProposal a b connected uuid now =>
      exact reserve_writes a b connected uuid now l
  | createPairRoute p connected draw now => exact create_writes p connected draw now l
  | releasePairRouteReservation p => exact (release_writes p).commit l
  | releasePairRouteReservationsForWorker w =>
      exact (releaseSelected_writes fun l =>
        l.pairRouteReservations.keys fun _ r => r.has w).commit l
  | expirePairRouteReservations now => exact (expire_writes now).commit l
  | restart => exact .single .drop
  | enterPairRouteUnpairing r w => exact absurd trivial h
  | cancelPairRouteUnpairing r w => exact absurd trivial h
  | recordPairWorkerStateVersion r w v => exact absurd trivial h
  | recordPairUnpairAssertion r w v => exact absurd trivial h

end PairCell.ControlLedger
