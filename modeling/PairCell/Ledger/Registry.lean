import PairCell.Ledger.Accounts

/-!
# Who writes Workers and enrollments

The operations on pairings leave both tables alone; approval, revocation and
deletion change them as the equations below say.
-/

namespace PairCell.ControlLedger

open Lib

/-- Workers and enrollments are as they were. -/
def SameRegistry (l l' : ControlLedger) : Prop :=
  l'.workers = l.workers ∧ l'.enrollments = l.enrollments

variable {l l' : ControlLedger}

theorem sameRegistry_of_writes (h : Relation.ReflTransGen SameRegistry l l') :
    SameRegistry l l' := by
  induction h with
  | refl => exact ⟨rfl, rfl⟩
  | tail _ hs ih => exact ⟨hs.1.trans ih.1, hs.2.trans ih.2⟩

theorem release_sameRegistry (p : Nat) :
    Tx.Writes SameRegistry (releasePairRouteReservationLocked p) := by
  intro l b l' hrun
  rw [release_run] at hrun
  split at hrun
  · cases hrun
    exact .refl
  · cases hrun
    exact .single ⟨rfl, rfl⟩

theorem releaseAll_sameRegistry (ps : List Nat) :
    Tx.Writes SameRegistry (releaseAllLocked ps) := by
  induction ps with
  | nil => exact Tx.writes_pure _ _
  | cons p ps ih =>
      exact (release_sameRegistry p).bind fun _ => ih.bind fun _ => Tx.writes_pure _ _

theorem releaseSelected_sameRegistry (select : ControlLedger → List Nat) :
    Tx.Writes SameRegistry (do let l ← get; releaseAllLocked (select l)) := by
  intro l b l' hrun
  obtain ⟨_, _, hget, hrest⟩ := Tx.bind_ok.1 hrun
  obtain ⟨rfl, rfl⟩ := Tx.get_ok.1 hget
  exact releaseAll_sameRegistry _ _ _ _ hrest

theorem removeRoutes_sameRegistry (w : Nat) (rs : List Nat) :
    Tx.Writes SameRegistry (removeRoutesLocked w rs) := by
  induction rs with
  | nil => exact Tx.writes_pure _ _
  | cons q rs ih =>
      intro l removed l' h
      obtain ⟨_, _, hget, hrest⟩ := Tx.bind_ok.1 h
      obtain ⟨rfl, rfl⟩ := Tx.get_ok.1 hget
      dsimp only at hrest
      split at hrest
      · exact ih _ _ _ hrest
      · simp only [Tx.bind_ok, Tx.pure_ok] at hrest
        obtain ⟨_, m, hrem, _, _, hrest, -, rfl⟩ := hrest
        rw [remove_ok hrem] at hrest
        refine Relation.ReflTransGen.head ?_ (ih _ _ _ hrest)
        exact ⟨rfl, rfl⟩

theorem reserve_sameRegistry (a b : Nat) (connected : List Nat) (uuid now : Nat) :
    SameRegistry l (reservePairRouteProposal a b connected uuid now l).2 := by
  refine sameRegistry_of_writes (Tx.commit_invariant .refl fun reply l' hl' => ?_)
  have hrun := Tx.commit_ok.1 hl'
  simp only [ensure, requireConnected, insertReservation, Tx.bind_ok,
    Tx.get_ok, Tx.require_ok, Tx.modify_ok, Tx.pure_ok] at hrun
  obtain ⟨_, _, ⟨-, rfl⟩, _, m, hexp, _, _, h1, _, _, h2, _, _, ⟨-, rfl⟩, _, _, ⟨-, rfl⟩,
    _, _, hel, _, _, hclaim, _, _, ⟨_, _, ⟨rfl, rfl⟩, _, _, ⟨-, rfl⟩, rfl⟩, -, rfl⟩ := hrun
  obtain rfl := activeWorker_ok h1
  obtain rfl := activeWorker_ok h2
  obtain ⟨-, rfl⟩ := eligible_ok hel
  obtain rfl := claim_ok hclaim
  exact (releaseSelected_sameRegistry _ _ _ _ hexp).tail ⟨rfl, rfl⟩

theorem create_sameRegistry (p : Nat) (connected : List Nat)
    (draw : Nat → Nat) (now : Nat) :
    SameRegistry l (createPairRoute p connected draw now l).2 := by
  have hcommit : Relation.ReflTransGen SameRegistry l
      (Tx.commit (createPairRouteLocked p connected draw now) l).2 := by
    refine Tx.commit_invariant .refl fun reply l' hl' => ?_
    obtain ⟨expired, m, res, hexp, -, -, -, -, rfl⟩ := createLocked_ok (Tx.commit_ok.1 hl')
    exact (releaseSelected_sameRegistry _ _ _ _ hexp).tail ⟨rfl, rfl⟩
  refine sameRegistry_of_writes ?_
  unfold createPairRoute
  split
  · next hl =>
      rw [hl] at hcommit
      exact hcommit.trans ((release_sameRegistry p).commit _)
  · exact hcommit

theorem unpair_sameRegistry {op : Op} (hop : op.OnUnpair) :
    SameRegistry l (l.perform op).2 := by
  cases op with
  | enterPairRouteUnpairing r w =>
      change SameRegistry l (enterPairRouteUnpairing r w l).2
      refine Tx.commit_invariant ⟨rfl, rfl⟩ fun a l' hl' => ?_
      obtain ⟨row, routes, -, -, -, rfl⟩ := enter_ok hl'
      exact ⟨rfl, rfl⟩
  | cancelPairRouteUnpairing r w =>
      change SameRegistry l (cancelPairRouteUnpairing r w l).2
      refine Tx.commit_invariant ⟨rfl, rfl⟩ fun a l' hl' => ?_
      obtain ⟨row, -, -, -, rfl⟩ := cancel_ok hl'
      exact ⟨rfl, rfl⟩
  | recordPairWorkerStateVersion r w v =>
      change SameRegistry l (recordPairWorkerStateVersion r w v l).2
      refine Tx.commit_invariant ⟨rfl, rfl⟩ fun a l' hl' => ?_
      obtain ⟨row, assertions, -, -, -, -, rfl⟩ := recordVersion_ok hl'
      exact ⟨rfl, rfl⟩
  | recordPairUnpairAssertion r w v =>
      change SameRegistry l (recordPairUnpairAssertion r w v l).2
      refine Tx.commit_invariant ⟨rfl, rfl⟩ fun a l' hl' => ?_
      obtain ⟨row, assertions, -, -, -, -, -, ⟨-, rfl⟩ | ⟨-, rfl, -⟩⟩ := assertion_ok hl'
      · exact ⟨rfl, rfl⟩
      · exact ⟨rfl, rfl⟩
  | _ => exact hop.elim

/-- The operations that enroll, approve, revoke or delete. -/
def Op.OnRegistry : Op → Bool
  | .enrollments _ | .approveEnrollment _ _ _ | .revokeWorker _ | .deleteWorker _ => true
  | _ => false

theorem perform_sameRegistry (l : ControlLedger) {op : Op} (hop : op.OnRegistry = false) :
    SameRegistry l (l.perform op).2 := by
  cases op with
  | enrollments rows => cases hop
  | approveEnrollment e w now => cases hop
  | revokeWorker w => cases hop
  | deleteWorker w => cases hop
  | availablePairFollowers w now =>
      refine sameRegistry_of_writes
        (Tx.Writes.commit (Tx.Writes.bind ?_ fun _ => releaseSelected_sameRegistry _) l)
      intro l a l' hrun
      obtain rfl := activeWorker_ok hrun
      exact .refl
  | reservePairRouteProposal a b connected uuid now =>
      exact reserve_sameRegistry a b connected uuid now
  | createPairRoute p connected draw now => exact create_sameRegistry p connected draw now
  | releasePairRouteReservation p =>
      exact sameRegistry_of_writes ((release_sameRegistry p).commit l)
  | releasePairRouteReservationsForWorker w =>
      exact sameRegistry_of_writes ((releaseSelected_sameRegistry _).commit l)
  | expirePairRouteReservations now =>
      exact sameRegistry_of_writes ((releaseSelected_sameRegistry _).commit l)
  | restart => exact ⟨rfl, rfl⟩
  | _ => exact unpair_sameRegistry trivial

/-- The Worker and its enrollment are gone, the other rows are as they were. -/
theorem delete_registry {w : Nat} {reply : Deletion}
    (h : deleteWorker w l = (.ok reply, l')) :
    ∃ row, l.workers.get w = some row ∧
      (l.enrollments.get row.enrollmentId).isSome = true ∧
      l'.workers = l.workers.delete (fun k _ => k == w) ∧
      l'.enrollments = l.enrollments.delete fun k _ => k == row.enrollmentId := by
  obtain ⟨_, _, hget, hrest⟩ := Tx.bind_ok.1 (Tx.commit_ok.1 h)
  obtain ⟨rfl, rfl⟩ := Tx.get_ok.1 hget
  split at hrest
  · simp only [refuse, Tx.throw_ok] at hrest
  · next row hrow =>
      simp only [ensure, Tx.bind_ok, Tx.get_ok, Tx.require_ok, Tx.modify_ok,
        Tx.pure_ok] at hrest
      obtain ⟨_, _, ⟨hsome, rfl⟩, peers, m, hroutes, _, _, ⟨rfl, rfl⟩, ids, n, hres,
          _, _, rfl, _, _,
        rfl, _, _, rfl, _, _, rfl, -, rfl⟩ := hrest
      obtain ⟨hworkers, henrollments⟩ := sameRegistry_of_writes
        ((removeRoutes_sameRegistry _ _ _ _ _ hroutes).trans
          (releaseAll_sameRegistry _ _ _ _ hres))
      exact ⟨row, hrow, hsome, by rw [← hworkers], by rw [← henrollments]⟩

end PairCell.ControlLedger
