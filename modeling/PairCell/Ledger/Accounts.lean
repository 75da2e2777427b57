import PairCell.Lib.Runs
import PairCell.Ledger.Exclusive

/-!
# One trading account, one pairing

Eligibility is checked for each Worker identifier, while the resource is the
trading account.  The invariant below follows the accounts through approval,
revocation and deletion.
-/

namespace PairCell

open Lib

def WorkerRow.account (w : WorkerRow) : Nat × String := (w.login, w.server)

namespace ControlLedger

/-- Some route or reservation names the Worker. -/
def Named (l : ControlLedger) (w : Nat) : Prop := ∃ e, l.Names e w

structure Accounts (l : ControlLedger) : Prop where
  active : ∀ w v x y, l.workers.get w = some x → l.workers.get v = some y →
    x.status = .active → y.status = .active → x.account = y.account → w = v
  known : ∀ w, l.Named w → ∃ x, l.workers.get w = some x
  owner : ∀ w v x y, l.workers.get w = some x → l.workers.get v = some y →
      x.status = .active →
    x.account = y.account → l.Named v → v = w
  once : ∀ w v x y, l.workers.get w = some x → l.workers.get v = some y →
    x.account = y.account → l.Named w → l.Named v → w = v

theorem accounts_empty : Accounts empty := by
  have unnamed : ∀ w, ¬empty.Named w := by
    rintro w ⟨e, he⟩
    cases e <;> simp [Names, empty] at he
  constructor
  · intro w v x y hw
    simp [empty] at hw
  · intro w hw
    exact absurd hw (unnamed w)
  · intro w v x y _ _ _ _ hv
    exact absurd hv (unnamed v)
  · intro w v x y _ _ _ hw
    exact absurd hw (unnamed w)

/-! ## Writes that only drop pairings -/

/-- The Workers are as they were and no other Worker is named. -/
def Shrinks (l l' : ControlLedger) : Prop :=
  l'.workers = l.workers ∧ ∀ w, l'.Named w → l.Named w

section Shrinking

variable {l l' : ControlLedger}

theorem Accounts.shrink (h : Accounts l) (hs : Shrinks l l') : Accounts l' := by
  obtain ⟨hworkers, hnamed⟩ := hs
  constructor
  · rw [hworkers]
    exact h.active
  · intro w hw
    rw [hworkers]
    exact h.known w (hnamed w hw)
  · intro w v x y hx hy hact hacc hv
    rw [hworkers] at hx hy
    exact h.owner w v x y hx hy hact hacc (hnamed v hv)
  · intro w v x y hx hy hacc hw hv
    rw [hworkers] at hx hy
    exact h.once w v x y hx hy hacc (hnamed w hw) (hnamed v hv)

theorem Accounts.shrinks (h : Accounts l) (hs : Relation.ReflTransGen Shrinks l l') :
    Accounts l' := by
  induction hs with
  | refl => exact h
  | tail _ hs ih => exact ih.shrink hs

theorem shrinks_of_tables (hworkers : l'.workers = l.workers)
    (hroutes : ∀ r row, l'.pairRoutes.get r = some row →
      ∃ st, l.pairRoutes.get r = some { row with state := st })
    (hres : ∀ p row, l'.pairRouteReservations.get p = some row →
      l.pairRouteReservations.get p = some row) : Shrinks l l' := by
  refine ⟨hworkers, ?_⟩
  rintro w ⟨e, he⟩
  cases e with
  | route r =>
      obtain ⟨row, hr, hw⟩ := he
      obtain ⟨st, hr⟩ := hroutes r row hr
      exact ⟨.route r, _, hr, hw⟩
  | reservation p =>
      obtain ⟨row, hp, hw⟩ := he
      exact ⟨.reservation p, row, hres p row hp, hw⟩

theorem shrinks_released (p : Nat) (row : Reservation) : Shrinks l (l.released p row) := by
  refine shrinks_of_tables rfl (fun r row hr => ⟨row.state, hr⟩) ?_
  intro q row' hq
  exact ((Table.get_delete_eq_some ..).1 hq).1

theorem shrinks_removed (r : Nat) (row : RouteRow) : Shrinks l (l.removed r row) := by
  refine shrinks_of_tables rfl ?_ (fun p row hp => hp)
  intro q row' hq
  exact ⟨row'.state, ((Table.get_delete_eq_some ..).1 hq).1⟩

theorem shrinks_stateSet {r : Nat} {row : RouteRow} (st : RouteState)
    (hr : l.pairRoutes.get r = some row) :
    Shrinks l { l with pairRoutes := l.pairRoutes.set r { row with state := st } } := by
  refine shrinks_of_tables rfl ?_ (fun p row hp => hp)
  intro q row' hq
  rw [Table.get_set] at hq
  split at hq
  · next hqr =>
      cases hq
      exact ⟨row.state, by rw [hqr, hr]⟩
  · exact ⟨row'.state, hq⟩

theorem release_shrinks (p : Nat) :
    Tx.Writes Shrinks (releasePairRouteReservationLocked p) := by
  intro l b l' hrun
  rw [release_run] at hrun
  split at hrun
  · cases hrun
    exact .refl
  · next row hp =>
      cases hrun
      exact .single (shrinks_released p row)

theorem releaseAll_shrinks (ps : List Nat) : Tx.Writes Shrinks (releaseAllLocked ps) := by
  induction ps with
  | nil => exact Tx.writes_pure _ _
  | cons p ps ih =>
      exact (release_shrinks p).bind fun _ => ih.bind fun _ => Tx.writes_pure _ _

theorem releaseSelected_shrinks (select : ControlLedger → List Nat) :
    Tx.Writes Shrinks (do let l ← get; releaseAllLocked (select l)) := by
  intro l b l' hrun
  obtain ⟨_, _, hget, hrest⟩ := Tx.bind_ok.1 hrun
  obtain ⟨rfl, rfl⟩ := Tx.get_ok.1 hget
  exact releaseAll_shrinks _ _ _ _ hrest

theorem removeRoutes_shrinks (w : Nat) (rs : List Nat) :
    Tx.Writes Shrinks (removeRoutesLocked w rs) := by
  induction rs with
  | nil => exact Tx.writes_pure _ _
  | cons q rs ih =>
      intro l removed l' h
      obtain ⟨_, _, hget, hrest⟩ := Tx.bind_ok.1 h
      obtain ⟨rfl, rfl⟩ := Tx.get_ok.1 hget
      dsimp only at hrest
      split at hrest
      · exact ih _ _ _ hrest
      · next row hq =>
          simp only [Tx.bind_ok, Tx.pure_ok] at hrest
          obtain ⟨_, m, hrem, _, _, hrest, -, rfl⟩ := hrest
          rw [remove_ok hrem] at hrest
          exact .head (shrinks_removed q row) (ih _ _ _ hrest)

/-- Releasing every reservation of the list leaves none of them. -/
theorem releaseAll_gone {ps ids : List Nat}
    (h : (releaseAllLocked ps).run l = .ok (ids, l')) {p : Nat} {row : Reservation}
    (hp : l'.pairRouteReservations.get p = some row) :
    l.pairRouteReservations.get p = some row ∧ p ∉ ps := by
  induction ps generalizing l ids with
  | nil =>
      obtain ⟨-, rfl⟩ := Tx.pure_ok.1 h
      exact ⟨hp, List.not_mem_nil⟩
  | cons q ps ih =>
      simp only [releaseAllLocked, Tx.bind_ok, Tx.pure_ok] at h
      obtain ⟨_, m, hrel, _, _, hrest, -, rfl⟩ := h
      obtain ⟨hm, hnot⟩ := ih hrest
      rw [release_run] at hrel
      split at hrel
      · next hq =>
          cases hrel
          have hne : p ≠ q := by rintro rfl; simp [hq] at hm
          exact ⟨hm, by simp [hne, hnot]⟩
      · next hq =>
          cases hrel
          obtain ⟨hm, hne⟩ := (Table.get_delete_eq_some ..).1 hm
          have hne : p ≠ q := by simpa using hne
          exact ⟨hm, by simp [hne, hnot]⟩

end Shrinking

/-! ## Reserving and committing a pair -/

section Pairing

variable {l l' : ControlLedger}

theorem activeWorker_active {w : Nat} {a : WorkerRow}
    (h : (activeWorker w).run l = .ok (a, l')) :
    l.workers.get w = some a ∧ a.status = .active := by
  simp only [activeWorker, Tx.bind_ok, Tx.get_ok] at h
  obtain ⟨_, _, ⟨rfl, rfl⟩, h⟩ := h
  split at h
  · simp only [refuse, Tx.throw_ok] at h
  · next hw =>
      simp only [ensure, Tx.bind_ok, Tx.require_ok, Tx.pure_ok] at h
      obtain ⟨_, _, ⟨⟨hact, -⟩, rfl⟩, rfl, rfl⟩ := h
      exact ⟨hw, hact⟩

/-- Two active Workers may be paired: an active Worker is the only one of its account that
can be named. -/
theorem Accounts.paired (h : Accounts l) {a b : Nat} {x y : WorkerRow}
    (ha : l.workers.get a = some x ∧ x.status = .active)
    (hb : l.workers.get b = some y ∧ y.status = .active)
    (hworkers : l'.workers = l.workers)
    (hnamed : ∀ w, l'.Named w → l.Named w ∨ w = a ∨ w = b) : Accounts l' := by
  have cases : ∀ w, l'.Named w → l.Named w ∨
      ∃ z, l.workers.get w = some z ∧ z.status = .active := by
    intro w hw
    obtain hw | rfl | rfl := hnamed w hw
    · exact .inl hw
    · exact .inr ⟨x, ha⟩
    · exact .inr ⟨y, hb⟩
  constructor
  · rw [hworkers]
    exact h.active
  · intro w hw
    rw [hworkers]
    obtain hw | ⟨z, hz, -⟩ := cases w hw
    · exact h.known w hw
    · exact ⟨z, hz⟩
  · intro w v x' y' hx hy hact hacc hv
    rw [hworkers] at hx hy
    obtain hv | ⟨z, hz, hzact⟩ := cases v hv
    · exact h.owner w v x' y' hx hy hact hacc hv
    · obtain rfl := Option.some.inj (hy.symm.trans hz)
      exact (h.active w v x' y' hx hy hact hzact hacc).symm
  · intro w v x' y' hx hy hacc hw hv
    rw [hworkers] at hx hy
    obtain hw | ⟨z, hz, hzact⟩ := cases w hw
    · obtain hv | ⟨z, hz, hzact⟩ := cases v hv
      · exact h.once w v x' y' hx hy hacc hw hv
      · obtain rfl := Option.some.inj (hy.symm.trans hz)
        exact h.owner v w y' x' hy hx hzact hacc.symm hw
    · obtain rfl := Option.some.inj (hx.symm.trans hz)
      obtain hv | ⟨z', hz', hzact'⟩ := cases v hv
      · exact (h.owner w v x' y' hx hy hzact hacc hv).symm
      · obtain rfl := Option.some.inj (hy.symm.trans hz')
        exact h.active w v x' y' hx hy hzact hzact' hacc

theorem reserve_accounts (a b : Nat) (connected : List Nat) (uuid now : Nat)
    (h : Accounts l) : Accounts (reservePairRouteProposal a b connected uuid now l).2 := by
  refine Tx.commit_invariant h fun reply l' hl' => ?_
  have hrun := Tx.commit_ok.1 hl'
  simp only [ensure, requireConnected, insertReservation, Tx.bind_ok,
    Tx.get_ok, Tx.require_ok, Tx.modify_ok, Tx.pure_ok] at hrun
  obtain ⟨_, _, ⟨-, rfl⟩, _, m, hexp, _, _, h1, _, _, h2, _, _, ⟨-, rfl⟩, _, _, ⟨-, rfl⟩,
    _, _, hel, _, _, hclaim, _, _, ⟨_, _, ⟨rfl, rfl⟩, _, _, ⟨-, rfl⟩, rfl⟩, -, rfl⟩ := hrun
  have ha := activeWorker_active h1
  obtain rfl := activeWorker_ok h1
  have hb := activeWorker_active h2
  obtain rfl := activeWorker_ok h2
  obtain ⟨-, rfl⟩ := eligible_ok hel
  obtain rfl := claim_ok hclaim
  refine (h.shrinks (releaseSelected_shrinks _ _ _ _ hexp)).paired ha hb rfl ?_
  rintro w ⟨e, he⟩
  cases e with
  | route r => exact .inl ⟨.route r, he⟩
  | reservation p =>
      obtain ⟨row, hp, hw⟩ := he
      rw [Table.get_set] at hp
      split at hp
      · cases hp
        exact .inr (has_reservation hw)
      · exact .inl ⟨.reservation p, row, hp, hw⟩

/-- The Workers of the new route were those of its reservation. -/
theorem shrinks_created {p r : Nat} {res : Reservation}
    (hp : l.pairRouteReservations.get p = some res) : Shrinks l (l.created p r res) := by
  refine ⟨rfl, ?_⟩
  rintro w ⟨e, he⟩
  cases e with
  | route q =>
      obtain ⟨row, hq, hw⟩ := he
      simp only [created, Table.get_set] at hq
      split at hq
      · cases hq
        exact ⟨.reservation p, res, hp, hw⟩
      · exact ⟨.route q, row, hq, hw⟩
  | reservation q =>
      obtain ⟨row, hq, hw⟩ := he
      exact ⟨.reservation q, row, ((Table.get_delete_eq_some ..).1 hq).1, hw⟩

theorem create_accounts (p : Nat) (connected : List Nat) (draw : Nat → Nat) (now : Nat)
    (h : Accounts l) : Accounts (createPairRoute p connected draw now l).2 := by
  have hcommit :
      Accounts (Tx.commit (createPairRouteLocked p connected draw now) l).2 := by
    refine Tx.commit_invariant h fun reply l' hl' => ?_
    obtain ⟨expired, m, res, hexp, hres, -, -, -, rfl⟩ :=
      createLocked_ok (Tx.commit_ok.1 hl')
    exact (h.shrinks (releaseSelected_shrinks _ _ _ _ hexp)).shrink (shrinks_created hres)
  unfold createPairRoute
  split
  · next hl =>
      rw [hl] at hcommit
      exact hcommit.shrinks ((release_shrinks p).commit _)
  · exact hcommit

end Pairing

/-! ## Approving, revoking and deleting Workers -/

section Workers

variable {l l' : ControlLedger}

def revokeRow (ws : Table Nat WorkerRow) (p : Nat) : Table Nat WorkerRow :=
  match ws.get p with
  | none => ws
  | some w => ws.set p { w with status := .revoked }

theorem get_revokeRow (ws : Table Nat WorkerRow) (p v : Nat) :
    (revokeRow ws p).get v =
      if v = p then (ws.get v).map fun w =>
      { w with status := .revoked } else ws.get v := by
  unfold revokeRow
  split
  · next hp =>
      split
      · next hv => rw [hv, hp]; rfl
      · rfl
  · next w hp =>
      rw [Table.get_set]
      split
      · next hv => rw [hv, hp]; rfl
      · rfl

theorem get_revokeRows (ps : List Nat) (ws : Table Nat WorkerRow) (v : Nat) :
    (ps.foldl revokeRow ws).get v =
      if v ∈ ps then (ws.get v).map fun w =>
      { w with status := .revoked } else ws.get v := by
  induction ps generalizing ws with
  | nil => simp
  | cons p ps ih =>
      rw [List.foldl_cons, ih, get_revokeRow]
      by_cases hp : v = p
      · simp [hp, Option.map_map, Function.comp_def]
      · simp [hp]

theorem named_iff (w : Nat) : l.Named w ↔
    l.pairRoutes.any (fun _ r => r.has w) = true ∨
      l.pairRouteReservations.any (fun _ r => r.has w) = true := by
  constructor
  · rintro ⟨e, he⟩
    cases e with
    | route r =>
        obtain ⟨row, hr, hw⟩ := he
        exact .inl ((Table.any_iff ..).2 ⟨r, row, hr, hw⟩)
    | reservation p =>
        obtain ⟨row, hp, hw⟩ := he
        exact .inr ((Table.any_iff ..).2 ⟨p, row, hp, hw⟩)
  · rintro (h | h)
    · obtain ⟨r, row, hr, hw⟩ := (Table.any_iff ..).1 h
      exact ⟨.route r, row, hr, hw⟩
    · obtain ⟨p, row, hp, hw⟩ := (Table.any_iff ..).1 h
      exact ⟨.reservation p, row, hp, hw⟩

/-- The ledger after the Worker `w` is approved and the Workers `ps` are superseded. -/
def approved (l : ControlLedger) (e w : Nat) (row : Enrollment)
    (ps : List Nat) : ControlLedger :=
  { l with
    workers := (ps.foldl revokeRow l.workers).set w ⟨e, row.login, row.server, .active⟩
    enrollments := l.enrollments.set e { row with status := .approved } }

/-- What an approval did: the active Workers of the account, none of them paired or
reserved, are revoked and the new one is added. -/
theorem approve_ok {e w now reply : Nat}
    (h : approveEnrollment e w now l = (.ok reply, l')) :
    ∃ (row : Enrollment) (ps : List Nat), l.enrollments.get e = some row ∧
      (row.status = .pending ∧ now < row.expiresAt) ∧ l.workers.get w = none ∧
      (∀ p, p ∈ ps ↔ ∃ x, l.workers.get p = some x ∧ x.account = (row.login, row.server) ∧
        x.status = .active) ∧
      (∀ p ∈ ps, ¬l.Named p) ∧ l' = l.approved e w row ps := by
  obtain ⟨_, _, hget, hrest⟩ := Tx.bind_ok.1 (Tx.commit_ok.1 h)
  obtain ⟨rfl, rfl⟩ := Tx.get_ok.1 hget
  split at hrest
  · simp only [refuse, Tx.throw_ok] at hrest
  · next row hrow =>
      simp only [ensure, Tx.bind_ok, Tx.require_ok, Tx.modify_ok, Tx.pure_ok] at hrest
      obtain ⟨_, _, ⟨hpending, rfl⟩, _, _, ⟨hroutes, rfl⟩, _, _, ⟨hres, rfl⟩,
          _, _, rfl, _, _,
        ⟨hnew, rfl⟩, _, _, rfl, _, _, rfl, -, rfl⟩ := hrest
      refine ⟨row, _, hrow, hpending, hnew, ?_, ?_, rfl⟩
      · intro p
        simp [Table.mem_keys, WorkerRow.account, and_assoc]
      · intro p hp hnamed
        obtain h | h := (named_iff p).1 hnamed
        · simpa [h] using List.all_eq_true.1 hroutes p hp
        · simpa [h] using List.all_eq_true.1 hres p hp

theorem approved_named {e w : Nat} {row : Enrollment} {ps : List Nat} (v : Nat) :
    (l.approved e w row ps).Named v ↔ l.Named v := by
  rw [named_iff, named_iff]
  rfl

/-- An old row keeps its account.  It stays active only when it is of another account. -/
theorem approved_old {e w : Nat} {row : Enrollment} {ps : List Nat}
    (hps : ∀ p, p ∈ ps ↔ ∃ x, l.workers.get p = some x ∧
      x.account = (row.login, row.server) ∧
      x.status = .active)
    {v : Nat} {x : WorkerRow} (hne : v ≠ w)
    (hx : (l.approved e w row ps).workers.get v = some x) :
    ∃ x', l.workers.get v = some x' ∧ x'.account = x.account ∧
      (x.status = .active → x' = x ∧ x.account ≠ (row.login, row.server)) := by
  simp only [approved, Table.get_set_ne _ _ hne, get_revokeRows] at hx
  split at hx
  · obtain ⟨x', hx', rfl⟩ := Option.map_eq_some_iff.1 hx
    exact ⟨x', hx', rfl, fun hact => by cases hact⟩
  · next hv =>
      exact ⟨x, hx, rfl, fun hact => ⟨rfl, fun hacc => hv ((hps v).2 ⟨x, hx, hacc, hact⟩)⟩⟩

theorem approved_new {e w : Nat} {row : Enrollment} {ps : List Nat} {x : WorkerRow}
    (hx : (l.approved e w row ps).workers.get w = some x) :
    x.account = (row.login, row.server) := by
  simp only [approved, Table.get_set_self, Option.some.injEq] at hx
  rw [← hx]
  rfl

/-- Some revoked Worker of the account is still in a route or a reservation. -/
def heldByRevoked (l : ControlLedger) (login : Nat) (server : String) : Bool :=
  l.workers.any fun w x => x.login == login && x.server == server &&
    x.status == .revoked &&
    (l.pairRoutes.any (fun _ r => r.has w) ||
      l.pairRouteReservations.any fun _ r => r.has w)

theorem not_held {login : Nat} {server : String} (h : l.heldByRevoked login server = false)
    {w : Nat} {x : WorkerRow} (hw : l.workers.get w = some x)
    (hacc : x.account = (login, server)) (hst : x.status = .revoked) : ¬l.Named w := by
  have hno := any_eq_false h hw
  cases hacc
  rw [named_iff]
  simpa [hst] using hno

theorem approve_accounts (e w now : Nat) (h : Accounts l)
    (hheld : ∀ row ∈ l.enrollments.get e, row.status = .pending ∧ now < row.expiresAt →
      l.heldByRevoked row.login row.server = false) :
    Accounts (approveEnrollment e w now l).2 := by
  refine Tx.commit_invariant h fun reply l' hl' => ?_
  obtain ⟨row, ps, hrow, hpending, hnew, hps, hfree, rfl⟩ := approve_ok hl'
  have fresh : ∀ v, l.Named v → v ≠ w := by
    rintro v hv rfl
    obtain ⟨x, hx⟩ := h.known v hv
    simp [hnew] at hx
  -- nobody of the new Worker's account is named
  have unnamed : ∀ v x, l.workers.get v = some x → x.account = (row.login, row.server) →
      ¬l.Named v := by
    intro v x hx hacc
    cases hst : x.status with
    | active => exact hfree v ((hps v).2 ⟨x, hx, hacc, hst⟩)
    | revoked => exact not_held (hheld row hrow hpending) hx hacc hst
  -- an active Worker of that account is the new one
  have newest : ∀ v x, (l.approved e w row ps).workers.get v = some x →
      x.status = .active →
      x.account = (row.login, row.server) → v = w := by
    intro v x hx hact hacc
    by_contra hne
    obtain ⟨x', -, -, hold⟩ := approved_old hps hne hx
    exact (hold hact).2 hacc
  constructor
  · intro v u x y hx hy hxa hya hacc
    by_cases hv : v = w
    · subst hv
      rw [approved_new hx] at hacc
      exact (newest u y hy hya hacc.symm).symm
    · by_cases hu : u = w
      · subst hu
        rw [approved_new hy] at hacc
        exact newest v x hx hxa hacc
      · obtain ⟨x', hx', -, hxo⟩ := approved_old hps hv hx
        obtain ⟨y', hy', -, hyo⟩ := approved_old hps hu hy
        obtain ⟨rfl, -⟩ := hxo hxa
        obtain ⟨rfl, -⟩ := hyo hya
        exact h.active v u _ _ hx' hy' hxa hya hacc
  · intro v hv
    rw [approved_named] at hv
    obtain ⟨x, hx⟩ := h.known v hv
    simp only [approved, Table.get_set_ne _ _ (fresh v hv), get_revokeRows, hx]
    split
    · exact ⟨_, rfl⟩
    · exact ⟨x, rfl⟩
  · intro v u x y hx hy hxa hacc hu
    rw [approved_named] at hu
    obtain ⟨y', hy', hya, -⟩ := approved_old hps (fresh u hu) hy
    by_cases hv : v = w
    · subst hv
      rw [approved_new hx] at hacc
      exact absurd hu (unnamed u y' hy' (hya.trans hacc.symm))
    · obtain ⟨x', hx', -, hxo⟩ := approved_old hps hv hx
      obtain ⟨rfl, -⟩ := hxo hxa
      exact h.owner v u _ y' hx' hy' hxa (hacc.trans hya.symm) hu
  · intro v u x y hx hy hacc hv hu
    rw [approved_named] at hv hu
    obtain ⟨x', hx', hxa, -⟩ := approved_old hps (fresh v hv) hx
    obtain ⟨y', hy', hya, -⟩ := approved_old hps (fresh u hu) hy
    exact h.once v u x' y' hx' hy' ((hxa.trans hacc).trans hya.symm) hv hu

theorem revoke_ok {w : Nat} {u : Unit} (h : revokeWorker w l = (.ok u, l')) :
    ∃ row, l.workers.get w = some row ∧
      l' = { l with workers := l.workers.set w { row with status := .revoked } } := by
  obtain ⟨_, _, hget, hrest⟩ := Tx.bind_ok.1 (Tx.commit_ok.1 h)
  obtain ⟨rfl, rfl⟩ := Tx.get_ok.1 hget
  split at hrest
  · simp only [refuse, Tx.throw_ok] at hrest
  · next row hrow =>
      simp only [ensure, Tx.bind_ok, Tx.require_ok, Tx.modify_ok] at hrest
      obtain ⟨_, _, ⟨-, rfl⟩, rfl⟩ := hrest
      exact ⟨row, hrow, rfl⟩

theorem revoke_accounts (w : Nat) (h : Accounts l) : Accounts (revokeWorker w l).2 := by
  refine Tx.commit_invariant h fun reply l' hl' => ?_
  obtain ⟨row, hrow, rfl⟩ := revoke_ok hl'
  -- every row is as before or lost its activity
  have old : ∀ v x, (l.workers.set w { row with status := .revoked }).get v = some x →
      ∃ x', l.workers.get v = some x' ∧ x'.account = x.account ∧
        (x.status = .active → x'.status = .active) := by
    intro v x hx
    rw [Table.get_set] at hx
    split at hx
    · next hv =>
        cases hx
        exact ⟨row, by rw [hv, hrow], rfl, fun hact => by cases hact⟩
    · exact ⟨x, hx, rfl, id⟩
  constructor
  · intro v u x y hx hy hxa hya hacc
    obtain ⟨x', hx', hxc, hxo⟩ := old v x hx
    obtain ⟨y', hy', hyc, hyo⟩ := old u y hy
    exact h.active v u x' y' hx' hy' (hxo hxa) (hyo hya) ((hxc.trans hacc).trans hyc.symm)
  · intro v hv
    obtain ⟨x, hx⟩ := h.known v hv
    rw [Table.get_set]
    split
    · exact ⟨_, rfl⟩
    · exact ⟨x, hx⟩
  · intro v u x y hx hy hxa hacc hu
    obtain ⟨x', hx', hxc, hxo⟩ := old v x hx
    obtain ⟨y', hy', hyc, -⟩ := old u y hy
    exact h.owner v u x' y' hx' hy' (hxo hxa) ((hxc.trans hacc).trans hyc.symm) hu
  · intro v u x y hx hy hacc hv hu
    obtain ⟨x', hx', hxc, -⟩ := old v x hx
    obtain ⟨y', hy', hyc, -⟩ := old u y hy
    exact h.once v u x' y' hx' hy' ((hxc.trans hacc).trans hyc.symm) hv hu

/-- A Worker that nothing names may be forgotten. -/
theorem Accounts.forget (h : Accounts l) {w : Nat} (hw : ¬l.Named w)
    (hworkers : l'.workers = l.workers.delete fun k _ => k == w)
    (hnamed : ∀ v, l'.Named v → l.Named v) : Accounts l' := by
  have old : ∀ v x, l'.workers.get v = some x → l.workers.get v = some x := by
    intro v x hx
    rw [hworkers] at hx
    exact ((Table.get_delete_eq_some ..).1 hx).1
  constructor
  · intro v u x y hx hy
    exact h.active v u x y (old v x hx) (old u y hy)
  · intro v hv
    obtain ⟨x, hx⟩ := h.known v (hnamed v hv)
    have hne : v ≠ w := by
      rintro rfl
      exact hw (hnamed v hv)
    rw [hworkers]
    exact ⟨x, (Table.get_delete_eq_some ..).2 ⟨hx, by simpa using hne⟩⟩
  · intro v u x y hx hy hact hacc hu
    exact h.owner v u x y (old v x hx) (old u y hy) hact hacc (hnamed u hu)
  · intro v u x y hx hy hacc hv hu
    exact h.once v u x y (old v x hx) (old u y hy) hacc (hnamed v hv) (hnamed u hu)

theorem delete_accounts (w : Nat) (h : Accounts l) : Accounts (deleteWorker w l).2 := by
  refine Tx.commit_invariant h fun reply l' hl' => ?_
  obtain ⟨_, _, hget, hrest⟩ := Tx.bind_ok.1 (Tx.commit_ok.1 hl')
  obtain ⟨rfl, rfl⟩ := Tx.get_ok.1 hget
  split at hrest
  · simp only [refuse, Tx.throw_ok] at hrest
  · simp only [ensure, Tx.bind_ok, Tx.get_ok, Tx.require_ok, Tx.modify_ok,
      Tx.pure_ok] at hrest
    obtain ⟨_, _, ⟨-, rfl⟩, peers, m, hroutes, _, _, ⟨rfl, rfl⟩, ids, n, hres, _, _,
        rfl, _, _, rfl,
      _, _, rfl, _, _, rfl, -, rfl⟩ := hrest
    have hn : Accounts n :=
      (h.shrinks (removeRoutes_shrinks _ _ _ _ _ hroutes)).shrinks
        (releaseAll_shrinks _ _ _ _ hres)
    refine hn.forget (w := w) ?_ rfl (fun v hv => hv)
    rintro ⟨e, he⟩
    cases e with
    | route r =>
        obtain ⟨row, hr, hw⟩ := he
        rw [releaseAll_routes hres] at hr
        obtain ⟨hr, hnot⟩ := (removeRoutes_ok w hroutes).2 r row hr
        exact hnot ((Table.mem_keys ..).2 ⟨row, hr, hw⟩)
    | reservation p =>
        obtain ⟨row, hp, hw⟩ := he
        obtain ⟨hp, hnot⟩ := releaseAll_gone hres hp
        exact hnot ((Table.mem_keys ..).2 ⟨row, hp, hw⟩)

end Workers

/-! ## Every operation keeps it -/

/-- A pending enrollment is approved only when no revoked Worker of its account is still
paired. -/
def Op.Vacated (l : ControlLedger) : Op → Prop
  | .approveEnrollment e _ now =>
      ∀ row ∈ l.enrollments.get e, row.status = .pending ∧ now < row.expiresAt →
        l.heldByRevoked row.login row.server = false
  | _ => True

instance (l : ControlLedger) : ∀ op : Op, Decidable (op.Vacated l)
  | .approveEnrollment e _ now =>
      inferInstanceAs (Decidable (∀ row ∈ l.enrollments.get e,
        row.status = .pending ∧ now < row.expiresAt →
          l.heldByRevoked row.login row.server = false))
  | .enrollments _ | .revokeWorker _ | .deleteWorker _ | .availablePairFollowers _ _
  | .reservePairRouteProposal _ _ _ _ _ | .createPairRoute _ _ _ _
  | .releasePairRouteReservation _ | .releasePairRouteReservationsForWorker _
  | .expirePairRouteReservations _ | .enterPairRouteUnpairing _
      _ | .cancelPairRouteUnpairing _ _
  | .recordPairWorkerStateVersion _ _ _ | .recordPairUnpairAssertion _ _ _ | .restart =>
      isTrue trivial

theorem unpair_shrinks {l : ControlLedger} {op : Op} (hop : op.OnUnpair) :
    Relation.ReflTransGen Shrinks l (l.perform op).2 := by
  cases op with
  | enterPairRouteUnpairing r w =>
      change Relation.ReflTransGen Shrinks l (enterPairRouteUnpairing r w l).2
      refine Tx.commit_invariant (I := Relation.ReflTransGen Shrinks l) .refl
        fun a l' hl' => ?_
      obtain ⟨row, routes, hr, -, ⟨rfl, -⟩ | rfl, rfl⟩ := enter_ok hl'
      · exact .single ⟨rfl, fun w hw => hw⟩
      · exact .single (shrinks_stateSet .unpairing hr)
  | cancelPairRouteUnpairing r w =>
      change Relation.ReflTransGen Shrinks l (cancelPairRouteUnpairing r w l).2
      refine Tx.commit_invariant (I := Relation.ReflTransGen Shrinks l) .refl
        fun a l' hl' => ?_
      obtain ⟨row, hr, -, -, rfl⟩ := cancel_ok hl'
      exact .single (shrinks_stateSet .active hr)
  | recordPairWorkerStateVersion r w v =>
      change Relation.ReflTransGen Shrinks l (recordPairWorkerStateVersion r w v l).2
      refine Tx.commit_invariant (I := Relation.ReflTransGen Shrinks l) .refl
        fun a l' hl' => ?_
      obtain ⟨row, assertions, -, -, -, -, rfl⟩ := recordVersion_ok hl'
      exact .single ⟨rfl, fun w hw => hw⟩
  | recordPairUnpairAssertion r w v =>
      change Relation.ReflTransGen Shrinks l (recordPairUnpairAssertion r w v l).2
      refine Tx.commit_invariant (I := Relation.ReflTransGen Shrinks l) .refl
        fun a l' hl' => ?_
      obtain ⟨row, assertions, -, -, -, -, -, ⟨-, rfl⟩ | ⟨-, rfl, -⟩⟩ := assertion_ok hl'
      · exact .single ⟨rfl, fun w hw => hw⟩
      · exact .single (shrinks_removed (l := l.asserted r w v assertions) r row)
  | _ => exact hop.elim

theorem Accounts.perform {l : ControlLedger} (h : Accounts l) (op : Op)
    (hop : op.Vacated l) :
    Accounts (l.perform op).2 := by
  cases op with
  | enrollments rows => exact h.shrink ⟨rfl, fun w hw => hw⟩
  | approveEnrollment e w now => exact approve_accounts e w now h hop
  | revokeWorker w => exact revoke_accounts w h
  | deleteWorker w => exact delete_accounts w h
  | availablePairFollowers w now =>
      refine h.shrinks
        (Tx.Writes.commit (Tx.Writes.bind ?_ fun _ => releaseSelected_shrinks _) l)
      intro l a l' hrun
      obtain rfl := activeWorker_ok hrun
      exact .refl
  | reservePairRouteProposal a b connected uuid now =>
      exact reserve_accounts a b connected uuid now h
  | createPairRoute p connected draw now => exact create_accounts p connected draw now h
  | releasePairRouteReservation p => exact h.shrinks ((release_shrinks p).commit l)
  | releasePairRouteReservationsForWorker w =>
      exact h.shrinks ((releaseSelected_shrinks _).commit l)
  | expirePairRouteReservations now =>
      exact h.shrinks ((releaseSelected_shrinks _).commit l)
  | restart => exact h.shrink ⟨rfl, fun w hw => hw⟩
  | _ => exact h.shrinks (unpair_shrinks trivial)

/-- In a run that approves an enrollment only while no revoked Worker of its account is
paired or reserved, every ledger reached has one active Worker at most for each account,
and each account, through any of its Workers, is in one route
or unexpired reservation at most. -/
theorem account_paired_once (ops : List Op)
    (h : Along (fun l op => (perform l op).2) (fun l op => op.Vacated l) empty ops) :
    let l := empty.run ops
    (∀ w v x y, l.workers.get w = some x → l.workers.get v = some y → x.status = .active →
      y.status = .active → x.login = y.login → x.server = y.server → w = v) ∧
    (∀ now e f w v, l.LiveAt now e → l.LiveAt now f → l.Names e w → l.Names f v →
      ∃ x y, l.workers.get w = some x ∧ l.workers.get v = some y ∧
        (x.login = y.login → x.server = y.server → e = f)) := by
  have hacc : Accounts (empty.run ops) :=
    h.reach.invariant accounts_empty fun l op l' hl hop hstep => hstep ▸ hl.perform op hop
  refine ⟨?_, ?_⟩
  · intro w v x y hx hy hxa hya hlogin hserver
    exact hacc.active w v x y hx hy hxa hya (Prod.ext hlogin hserver)
  · intro now e f w v _ _ he hf
    obtain ⟨x, hx⟩ := hacc.known w ⟨e, he⟩
    obtain ⟨y, hy⟩ := hacc.known v ⟨f, hf⟩
    refine ⟨x, y, hx, hy, fun hlogin hserver => ?_⟩
    have hwv := hacc.once w v x y hx hy (Prod.ext hlogin hserver) ⟨e, he⟩ ⟨f, hf⟩
    exact (exclusive_run ops).one e f w he (hwv ▸ hf)

/-- Four pending enrollments, the first and the third of one account. -/
def Sample.enrolled : Op :=
  .enrollments ((((Table.empty.set 1 ⟨100, "broker", .pending, 50⟩).set 2
    ⟨200, "broker", .pending, 50⟩).set 3 ⟨100, "broker", .pending, 50⟩).set 4
    ⟨300, "broker", .pending, 50⟩)

/-- Workers 11 and 12 of the accounts 100 and 200 are paired on route 31. -/
def Sample.paired : List Op :=
  [Sample.enrolled, .approveEnrollment 1 11 0, .approveEnrollment 2 12 0,
    .reservePairRouteProposal 11 12 [11, 12] 21 0,
    .createPairRoute 21 [11, 12] (fun _ => 31) 1]

/-- The route is safely unpaired, Worker 11 revoked and its account migrated
and paired again. -/
def Sample.migrated : List Op :=
  [.enterPairRouteUnpairing 31 11, .recordPairUnpairAssertion 31 11 1,
    .recordPairUnpairAssertion 31 12 1, .revokeWorker 11, .approveEnrollment 3 13 2,
    .reservePairRouteProposal 13 12 [12, 13] 22 3]

theorem migrated_account_paired_once :
    let l := empty.run (Sample.paired ++ Sample.migrated)
    l.workers.get 11 = some ⟨1, 100, "broker", .revoked⟩ ∧
    l.workers.get 13 = some ⟨3, 100, "broker", .active⟩ ∧ l.Named 13 ∧
    ∀ now e f w v, l.LiveAt now e → l.LiveAt now f → l.Names e w → l.Names f v →
      ∃ x y, l.workers.get w = some x ∧ l.workers.get v = some y ∧
        (x.login = y.login → x.server = y.server → e = f) := by
  refine ⟨by decide +kernel, by decide +kernel, (named_iff 13).2 (by decide +kernel), ?_⟩
  exact (account_paired_once _ (by decide +kernel)).2

/-- Revoking Worker 11 leaves its route behind.  Its account is then approved as Worker 13,
since no active Worker of it is left to look at, and reserved with a third account: the
account is in a route and in a reservation. -/
theorem revoked_worker_leaves_account_paired :
    let l := empty.run (Sample.paired ++ [.revokeWorker 11, .approveEnrollment 3 13 2,
      .approveEnrollment 4 14 3, .reservePairRouteProposal 13 14 [13, 14] 22 4])
    l.LiveAt 5 (.route 31) ∧ l.LiveAt 5 (.reservation 22) ∧ l.Names (.route 31) 11 ∧
      l.Names (.reservation 22) 13 ∧
      l.workers.get 11 = some ⟨1, 100, "broker", .revoked⟩ ∧
      l.workers.get 13 = some ⟨3, 100, "broker", .active⟩ := by
  refine ⟨⟨⟨(11, 12), 11, 12, .active⟩, ?_⟩, ⟨⟨13, 14, 4, 34⟩, ?_, ?_⟩,
    ⟨⟨(11, 12), 11, 12, .active⟩, ?_, ?_⟩, ⟨⟨13, 14, 4, 34⟩, ?_, ?_⟩, ?_, ?_⟩ <;>
      decide +kernel

end ControlLedger

end PairCell
