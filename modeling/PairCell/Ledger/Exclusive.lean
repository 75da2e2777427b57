import PairCell.Ledger.Run

/-!
# Exclusive pairing

The joint invariant of the pairing tables: a Worker is named by one route or
one reservation at most, every execution claim is backed by one of the two,
and a route identifier is issued once.
-/

namespace PairCell.ControlLedger

open Lib

/-! ## The joint invariant -/

/-- A route or a reservation, by its identifier. -/
inductive Element where
  | route (routeId : Nat)
  | reservation (proposalId : Nat)

/-- The element is in the ledger and one of its two Workers is `w`. -/
def Names (l : ControlLedger) : Element → Nat → Prop
  | .route r, w => ∃ row, l.pairRoutes.get r = some row ∧ row.has w = true
  | .reservation p, w => ∃ row, l.pairRouteReservations.get p = some row ∧ row.has w = true

/-- Some route or reservation is for this pair. -/
def Backed (l : ControlLedger) (key : PairKey) : Prop :=
  (∃ r row, l.pairRoutes.get r = some row ∧ row.pairKey = key) ∨
  ∃ p row, l.pairRouteReservations.get p = some row ∧
    pairKey row.leaderWorkerId row.followerWorkerId = key

structure Exclusive (l : ControlLedger) : Prop where
  one : ∀ e f w, l.Names e w → l.Names f w → e = f
  route : ∀ r row, l.pairRoutes.get r = some row →
      row.leaderWorkerId ≠ row.followerWorkerId ∧
    row.pairKey = pairKey row.leaderWorkerId row.followerWorkerId
  reservation : ∀ p row, l.pairRouteReservations.get p = some row →
    row.leaderWorkerId ≠ row.followerWorkerId
  backed : ∀ key, l.pairExecutionOwners.get (key, .pairExecutionCell) =
      some () → l.Backed key
  issued : ∀ r row, l.pairRoutes.get r = some row → r ∈ l.pairRouteIdentifiers

theorem exclusive_empty : Exclusive empty where
  one e f w he _ := by
    cases e <;> simp [Names, empty] at he
  route r row h := by simp [empty] at h
  reservation p row h := by simp [empty] at h
  backed key h := by simp [empty] at h
  issued r row h := by simp [empty] at h

section Writes

variable {l l' : ControlLedger}

/-- Dropping routes and reservations, or changing a route's state, needs a look at the
claims only. -/
theorem Exclusive.shrink (h : Exclusive l)
    (hroutes : ∀ r row, l'.pairRoutes.get r = some row →
      ∃ st, l.pairRoutes.get r = some { row with state := st })
    (hres : ∀ p row, l'.pairRouteReservations.get p = some row →
      l.pairRouteReservations.get p = some row)
    (hids : ∀ r ∈ l.pairRouteIdentifiers, r ∈ l'.pairRouteIdentifiers)
    (hback : ∀ key, l'.pairExecutionOwners.get (key, .pairExecutionCell) = some () →
      l'.Backed key) : Exclusive l' := by
  have names : ∀ e w, l'.Names e w → l.Names e w := by
    intro e w he
    cases e with
    | route r =>
        obtain ⟨row, hr, hw⟩ := he
        obtain ⟨st, hr⟩ := hroutes r row hr
        exact ⟨_, hr, hw⟩
    | reservation p =>
        obtain ⟨row, hp, hw⟩ := he
        exact ⟨row, hres p row hp, hw⟩
  constructor
  · intro e f w he hf
    exact h.one e f w (names e w he) (names f w hf)
  · intro r row hr
    obtain ⟨st, hr⟩ := hroutes r row hr
    have hrow := h.route r _ hr
    exact hrow
  · intro p row hp
    exact h.reservation p row (hres p row hp)
  · exact hback
  · intro r row hr
    obtain ⟨st, hr⟩ := hroutes r row hr
    exact hids r (h.issued r _ hr)

theorem released_owners {p : Nat} {row : Reservation}
    (k : PairKey × ExecutionMode)
    (h : (l.released p row).pairExecutionOwners.get k = some ()) :
    l.pairExecutionOwners.get k = some () := by
  simp only [released] at h
  split at h
  · exact ((Table.get_delete_eq_some ..).1 h).1
  · exact h

theorem Exclusive.released (h : Exclusive l) {p : Nat} {row : Reservation}
    (hp : l.pairRouteReservations.get p = some row) : Exclusive (l.released p row) := by
  refine h.shrink (fun r row hr => ⟨row.state, hr⟩) ?_ (fun r hr => hr) ?_
  · intro q row' hq
    exact ((Table.get_delete_eq_some ..).1 hq).1
  · intro key hkey
    -- the claim is still there, so it is for another pair or a route holds the pair
    obtain hr | ⟨q, row', hq, hk⟩ := h.backed key (released_owners _ hkey)
    · exact .inl hr
    · by_cases hqp : q = p
      · subst hqp
        rw [hp] at hq
        cases hq
        simp only [ControlLedger.released, hk] at hkey
        split at hkey
        · simp [Table.get_delete_eq_some] at hkey
        · next hany =>
            obtain ⟨r, route, hr, hrk⟩ := (Table.any_iff ..).1 (by simpa using hany)
            exact .inl ⟨r, route, hr, by simpa using hrk⟩
      · exact .inr ⟨q, row', (Table.get_delete_eq_some ..).2 ⟨hq, by simp [hqp]⟩, hk⟩

theorem Exclusive.removed (h : Exclusive l) {r : Nat} {row : RouteRow}
    (hr : l.pairRoutes.get r = some row) : Exclusive (l.removed r row) := by
  refine h.shrink ?_ (fun p row hp => hp) (fun r hr => hr) ?_
  · intro q row' hq
    exact ⟨row'.state, ((Table.get_delete_eq_some ..).1 hq).1⟩
  · intro key hkey
    obtain ⟨hold, hne⟩ := (Table.get_delete_eq_some ..).1 hkey
    obtain ⟨q, row', hq, hk⟩ | hp := h.backed key hold
    · refine .inl ⟨q, row', (Table.get_delete_eq_some ..).2 ⟨hq, ?_⟩, hk⟩
      by_contra hqr
      have hqr : q = r := by simpa using hqr
      subst hqr
      rw [hr] at hq
      cases hq
      rw [(h.route q row hr).2] at hk
      simp [hk] at hne
    · exact .inr hp

theorem Exclusive.stateSet (h : Exclusive l) {r : Nat} {row : RouteRow} (st : RouteState)
    (hr : l.pairRoutes.get r = some row) :
    Exclusive { l with pairRoutes := l.pairRoutes.set r { row with state := st } } := by
  refine h.shrink ?_ (fun p row hp => hp) (fun r hr => hr) ?_
  · intro q row' hq
    rw [Table.get_set] at hq
    split at hq
    · next hqr =>
        cases hq
        exact ⟨row.state, by rw [hqr, hr]⟩
    · exact ⟨row'.state, hq⟩
  · intro key hkey
    obtain ⟨q, row', hq, hk⟩ | hp := h.backed key hkey
    · by_cases hqr : q = r
      · subst hqr
        rw [hr] at hq
        cases hq
        exact .inl ⟨q, _, Table.get_set_self .., hk⟩
      · exact .inl ⟨q, row', by rw [Table.get_set_ne _ _ hqr]; exact hq, hk⟩
    · exact .inr hp

/-- A new element for two Workers that no other element of `l'` names. -/
theorem one_of_new (h : Exclusive l) {n : Element} {a b : Nat}
    (hold : ∀ e w, l'.Names e w → e = n ∨ (l.Names e w ∧ w ≠ a ∧ w ≠ b))
    (hnew : ∀ w, l'.Names n w → w = a ∨ w = b) :
    ∀ e f w, l'.Names e w → l'.Names f w → e = f := by
  have clash : ∀ e w, l'.Names n w → l'.Names e w → e = n := by
    intro e w hn he
    obtain rfl | ⟨-, ha, hb⟩ := hold e w he
    · rfl
    · exact absurd (hnew w hn) (by simp [ha, hb])
  intro e f w he hf
  obtain rfl | ⟨he', -, -⟩ := hold e w he
  · exact (clash f w he hf).symm
  · obtain rfl | ⟨hf', -, -⟩ := hold f w hf
    · exact clash e w hf he
    · exact h.one e f w he' hf'

theorem has_reservation {a b t u w : Nat} (h : (Reservation.mk a b t u).has w = true) :
    w = a ∨ w = b := by
  have h : a = w ∨ b = w := by simpa [Reservation.has] using h
  exact h.imp Eq.symm Eq.symm

theorem has_route {k : PairKey} {a b w : Nat} {st : RouteState}
    (h : (RouteRow.mk k a b st).has w = true) : w = a ∨ w = b := by
  have h : a = w ∨ b = w := by simpa [RouteRow.has] using h
  exact h.imp Eq.symm Eq.symm

/-- Reserving two eligible Workers and claiming their pair. -/
theorem Exclusive.reserved (h : Exclusive l) {a b uuid t u : Nat} (hab : a ≠ b)
    (hel : Eligible l a b none) (hfree : l.pairRouteReservations.get uuid = none) :
    Exclusive { l with
      pairExecutionOwners := l.pairExecutionOwners.set (pairKey a b, .pairExecutionCell) ()
      pairRouteReservations := l.pairRouteReservations.set uuid ⟨a, b, t, u⟩ } := by
  constructor
  · refine one_of_new h (n := .reservation uuid) (a := a) (b := b) ?_ ?_
    · intro e w he
      cases e with
      | route r =>
          obtain ⟨row, hr, hw⟩ := he
          obtain ⟨ha, hb⟩ := hel.1 r row hr
          exact .inr ⟨⟨row, hr, hw⟩, fun e => by simp [e, ha] at hw,
            fun e => by simp [e, hb] at hw⟩
      | reservation p =>
          obtain ⟨row, hp, hw⟩ := he
          by_cases hpu : p = uuid
          · exact .inl (by rw [hpu])
          · rw [Table.get_set_ne _ _ hpu] at hp
            obtain ⟨ha, hb⟩ := hel.2 p row hp (by simp)
            exact .inr ⟨⟨row, hp, hw⟩, fun e => by simp [e, ha] at hw,
              fun e => by simp [e, hb] at hw⟩
    · rintro w ⟨row, hp, hw⟩
      rw [Table.get_set_self] at hp
      cases hp
      exact has_reservation hw
  · exact h.route
  · intro p row hp
    rw [Table.get_set] at hp
    split at hp
    · cases hp
      exact hab
    · exact h.reservation p row hp
  · intro key hkey
    rw [Table.get_set] at hkey
    split at hkey
    · next hk =>
        cases hk
        exact .inr ⟨uuid, _, Table.get_set_self .., rfl⟩
    · obtain hr | ⟨p, row, hp, hk⟩ := h.backed key hkey
      · exact .inl hr
      · refine .inr ⟨p, row, ?_, hk⟩
        rw [Table.get_set_ne _ _ (by rintro rfl; simp [hfree] at hp)]
        exact hp
  · exact h.issued

/-- Turning the reservation `p` into the route `r`. -/
theorem Exclusive.created (h : Exclusive l) {p r : Nat} {res : Reservation}
    (hp : l.pairRouteReservations.get p = some res) (hr : l.pairRoutes.get r = none)
    (hel : Eligible l res.leaderWorkerId res.followerWorkerId (some p)) :
    Exclusive (l.created p r res) := by
  unfold ControlLedger.created
  constructor
  · refine one_of_new h (n := .route r) (a := res.leaderWorkerId)
      (b := res.followerWorkerId)
      ?_ ?_
    · intro e w he
      cases e with
      | route q =>
          obtain ⟨row, hq, hw⟩ := he
          by_cases hqr : q = r
          · exact .inl (by rw [hqr])
          · rw [Table.get_set_ne _ _ hqr] at hq
            obtain ⟨ha, hb⟩ := hel.1 q row hq
            exact .inr ⟨⟨row, hq, hw⟩, fun e => by simp [e, ha] at hw,
              fun e => by simp [e, hb] at hw⟩
      | reservation q =>
          obtain ⟨row, hq, hw⟩ := he
          obtain ⟨hq, hne⟩ := (Table.get_delete_eq_some ..).1 hq
          have hne : q ≠ p := by simpa using hne
          obtain ⟨ha, hb⟩ := hel.2 q row hq (by simpa using hne)
          exact .inr ⟨⟨row, hq, hw⟩, fun e => by simp [e, ha] at hw,
            fun e => by simp [e, hb] at hw⟩
    · rintro w ⟨row, hq, hw⟩
      rw [Table.get_set_self] at hq
      cases hq
      exact has_route hw
  · intro q row hq
    rw [Table.get_set] at hq
    split at hq
    · cases hq
      exact ⟨h.reservation p res hp, rfl⟩
    · exact h.route q row hq
  · intro q row hq
    exact h.reservation q row ((Table.get_delete_eq_some ..).1 hq).1
  · intro key hkey
    rw [Table.get_set] at hkey
    split at hkey
    · next hk =>
        rw [(Prod.mk.inj hk).1]
        exact .inl ⟨r, _, Table.get_set_self .., rfl⟩
    · obtain ⟨q, row, hq, hk⟩ | ⟨q, row, hq, hk⟩ := h.backed key hkey
      · refine .inl ⟨q, row, ?_, hk⟩
        rw [Table.get_set_ne _ _ (by rintro rfl; simp [hr] at hq)]
        exact hq
      · by_cases hqp : q = p
        · subst hqp
          rw [hp] at hq
          cases hq
          rw [← hk]
          exact .inl ⟨r, _, Table.get_set_self .., rfl⟩
        · exact .inr ⟨q, row, (Table.get_delete_eq_some ..).2 ⟨hq, by simp [hqp]⟩, hk⟩
  · intro q row hq
    rw [Table.get_set] at hq
    split at hq
    · next hqr => exact hqr ▸ List.mem_cons_self ..
    · exact List.mem_cons_of_mem _ (h.issued q row hq)

end Writes

/-! ## Every operation keeps it -/

theorem Exclusive.write {l l' : ControlLedger} (h : Exclusive l) (hw : PairingWrite l l') :
    Exclusive l' := by
  cases hw with
  | rows enrollments workers => exact ⟨h.one, h.route, h.reservation, h.backed, h.issued⟩
  | release p row hp => exact h.released hp
  | remove r row hr => exact h.removed hr
  | reserve a b uuid t u hab hel hfree => exact h.reserved hab hel hfree
  | create p r res hp hel hnew hfree => exact h.created hp hfree hel
  | forget w hw => exact ⟨h.one, h.route, h.reservation, h.backed, h.issued⟩
  | drop =>
      exact ⟨h.one, h.route, h.reservation,
        fun key hkey => h.backed key ((Table.get_delete_eq_some ..).1 hkey).1, h.issued⟩

theorem Exclusive.writes {l l' : ControlLedger} (h : Exclusive l)
    (hw : PairingWrites l l') :
    Exclusive l' := by
  induction hw with
  | refl => exact h
  | tail _ hw ih => exact ih.write hw

theorem enter_keeps (r w : Nat) {l : ControlLedger} (h : Exclusive l) :
    Exclusive (enterPairRouteUnpairing r w l).2 := by
  refine Tx.commit_invariant h fun a l' hl' => ?_
  obtain ⟨row, routes, hr, -, ⟨rfl, -⟩ | rfl, rfl⟩ := enter_ok hl'
  · exact ⟨h.one, h.route, h.reservation, h.backed, h.issued⟩
  · have hs := h.stateSet .unpairing hr
    exact ⟨hs.one, hs.route, hs.reservation, hs.backed, hs.issued⟩

theorem cancel_keeps (r w : Nat) {l : ControlLedger} (h : Exclusive l) :
    Exclusive (cancelPairRouteUnpairing r w l).2 := by
  refine Tx.commit_invariant h fun a l' hl' => ?_
  obtain ⟨row, hr, -, -, rfl⟩ := cancel_ok hl'
  have hs := h.stateSet .active hr
  exact ⟨hs.one, hs.route, hs.reservation, hs.backed, hs.issued⟩

theorem recordVersion_keeps (r w : Nat) (v : Int) {l : ControlLedger} (h : Exclusive l) :
    Exclusive (recordPairWorkerStateVersion r w v l).2 := by
  refine Tx.commit_invariant h fun a l' hl' => ?_
  obtain ⟨row, assertions, -, -, -, -, rfl⟩ := recordVersion_ok hl'
  exact ⟨h.one, h.route, h.reservation, h.backed, h.issued⟩

theorem assertion_keeps (r w : Nat) (v : Int) {l : ControlLedger} (h : Exclusive l) :
    Exclusive (recordPairUnpairAssertion r w v l).2 := by
  refine Tx.commit_invariant h fun a l' hl' => ?_
  obtain ⟨row, assertions, hr, -, -, -, -, hl⟩ := assertion_ok hl'
  have ha : Exclusive (l.asserted r w v assertions) :=
    ⟨h.one, h.route, h.reservation, h.backed, h.issued⟩
  obtain ⟨-, rfl⟩ | ⟨-, rfl, -⟩ := hl
  · exact ha
  · exact ha.removed hr

theorem perform_keeps {l : ControlLedger} (op : Op) (h : Exclusive l) :
    Exclusive (l.perform op).2 := by
  by_cases hop : op.OnUnpair
  · cases op with
    | enterPairRouteUnpairing r w => exact enter_keeps r w h
    | cancelPairRouteUnpairing r w => exact cancel_keeps r w h
    | recordPairWorkerStateVersion r w v => exact recordVersion_keeps r w v h
    | recordPairUnpairAssertion r w v => exact assertion_keeps r w v h
    | _ => exact hop.elim
  · exact h.writes (perform_writes l op hop)

theorem exclusive_run (ops : List Op) : Exclusive (empty.run ops) :=
  run_invariant exclusive_empty (fun _ op h => perform_keeps op h) ops

/-! ## Route identifiers -/

theorem PairingWrite.identifiers {l l' : ControlLedger} (hw : PairingWrite l l') :
    l.pairRouteIdentifiers ⊆ l'.pairRouteIdentifiers := by
  cases hw with
  | create => exact List.subset_cons_self ..
  | _ => exact List.Subset.refl _

theorem identifiers_writes {l l' : ControlLedger} (hw : PairingWrites l l') :
    l.pairRouteIdentifiers ⊆ l'.pairRouteIdentifiers := by
  induction hw with
  | refl => exact List.Subset.refl _
  | tail _ hw ih => exact List.Subset.trans ih hw.identifiers

theorem identifiers_perform (l : ControlLedger) (op : Op) :
    l.pairRouteIdentifiers ⊆ (l.perform op).2.pairRouteIdentifiers := by
  by_cases hop : op.OnUnpair
  · have same : (l.perform op).2.pairRouteIdentifiers = l.pairRouteIdentifiers := by
      cases op with
      | enterPairRouteUnpairing r w =>
          refine Tx.commit_invariant (I := fun m : ControlLedger =>
            m.pairRouteIdentifiers = l.pairRouteIdentifiers) rfl ?_
          intro a l' hl'
          obtain ⟨row, routes, -, -, -, rfl⟩ := enter_ok hl'
          rfl
      | cancelPairRouteUnpairing r w =>
          refine Tx.commit_invariant (I := fun m : ControlLedger =>
            m.pairRouteIdentifiers = l.pairRouteIdentifiers) rfl ?_
          intro a l' hl'
          obtain ⟨row, -, -, -, rfl⟩ := cancel_ok hl'
          rfl
      | recordPairWorkerStateVersion r w v =>
          refine Tx.commit_invariant (I := fun m : ControlLedger =>
            m.pairRouteIdentifiers = l.pairRouteIdentifiers) rfl ?_
          intro a l' hl'
          obtain ⟨row, assertions, -, -, -, -, rfl⟩ := recordVersion_ok hl'
          rfl
      | recordPairUnpairAssertion r w v =>
          refine Tx.commit_invariant (I := fun m : ControlLedger =>
            m.pairRouteIdentifiers = l.pairRouteIdentifiers) rfl ?_
          intro a l' hl'
          obtain ⟨row, assertions, -, -, -, -, -, ⟨-, rfl⟩ | ⟨-, rfl, -⟩⟩ :=
            assertion_ok hl' <;> rfl
      | _ => exact hop.elim
    rw [same]
    exact List.Subset.refl _
  · exact identifiers_writes (perform_writes l op hop)

/-- The identifier of the route that an entry of the history created. -/
def createdRouteId : Op × Outcome → Option Nat
  | (.createPairRoute .., .ok (.route r)) => some r.routeId
  | _ => none

theorem createdRouteId_issued {l : ControlLedger} {op : Op} {r : Nat}
    (h : createdRouteId (op, (l.perform op).1) = some r) :
    r ∉ l.pairRouteIdentifiers ∧ r ∈ (l.perform op).2.pairRouteIdentifiers := by
  cases op with
  | createPairRoute p connected draw now =>
      cases hc : createPairRoute p connected draw now l with
      | mk out l' =>
          cases out with
          | error e => simp [perform, answer, hc, createdRouteId, Except.map] at h
          | ok record =>
              have hr : record.routeId = r := by
                simpa [perform, answer, hc, createdRouteId, Except.map] using h
              have hrun : (createPairRouteLocked p connected draw now).run l =
                  .ok (record, l') := by
                unfold createPairRoute at hc
                split at hc
                · cases (Prod.mk.inj hc).1
                · exact Tx.commit_ok.1 hc
              obtain ⟨expired, m, res, hexp, -, -, hnew, -, rfl⟩ := createLocked_ok hrun
              rw [hr] at hnew
              refine ⟨fun hmem => hnew
                (identifiers_writes (expire_writes now _ _ _ hexp) hmem), ?_⟩
              simp [perform, answer, hc, created, hr]
  | _ => simp [createdRouteId] at h

theorem createdRouteIds_fresh (l : ControlLedger) (ops : List Op) :
    ((l.history ops).filterMap createdRouteId).Nodup ∧
      ∀ r ∈ (l.history ops).filterMap createdRouteId, r ∉ l.pairRouteIdentifiers := by
  induction ops generalizing l with
  | nil => exact ⟨List.nodup_nil, by simp [history]⟩
  | cons op ops ih =>
      obtain ⟨hnodup, hfresh⟩ := ih (l.perform op).2
      have hlater : ∀ r ∈ ((l.perform op).2.history ops).filterMap createdRouteId,
          r ∉ l.pairRouteIdentifiers :=
        fun r hr hmem => hfresh r hr (identifiers_perform l op hmem)
      cases hc : createdRouteId (op, (l.perform op).1) with
      | none =>
          rw [history, List.filterMap_cons_none hc]
          exact ⟨hnodup, hlater⟩
      | some r =>
          obtain ⟨hnew, hissued⟩ := createdRouteId_issued hc
          rw [history, List.filterMap_cons_some hc]
          refine ⟨List.nodup_cons.2 ⟨fun hr => hfresh r hr hissued, hnodup⟩, ?_⟩
          intro q hq
          obtain rfl | hq := List.mem_cons.1 hq
          · exact hnew
          · exact hlater q hq

/-! ## A commit that fails -/

def Refusal (e : LedgerFault) : Prop := ∃ message, e = .ledgerError message

theorem fails_ensure (c : Prop) [Decidable c] (message : String) :
    Tx.Fails Refusal (ensure c message) :=
  Tx.fails_require ⟨message, rfl⟩

theorem fails_activeWorker (w : Nat) : Tx.Fails Refusal (activeWorker w) := by
  refine (Tx.fails_get _).bind fun l => ?_
  split
  · exact Tx.fails_throw ⟨_, rfl⟩
  · exact (fails_ensure _ _).bind fun _ => Tx.fails_pure _ _

theorem fails_claim (a b : Nat) (mode : ExecutionMode) :
    Tx.Fails Refusal (claimPairExecutionModeLocked a b mode) :=
  (fails_activeWorker a).bind fun _ => (fails_activeWorker b).bind fun _ =>
    (Tx.fails_get _).bind fun _ => (fails_ensure _ _).bind fun _ => Tx.fails_modify _ _

theorem fails_eligibility (a b : Nat) (ignore : Option Nat) :
    Tx.Fails Refusal (requirePairWorkerEligibilityLocked a b ignore) :=
  (Tx.fails_get _).bind fun _ => (fails_ensure _ _).bind fun _ =>
    (fails_ensure _ _).bind fun _ => fails_ensure _ _

theorem fails_issue (draw : Nat → Nat) :
    Tx.Fails Refusal (issuePairRouteIdLocked draw) := by
  refine (Tx.fails_get _).bind fun l => ?_
  split
  · exact Tx.fails_throw ⟨_, rfl⟩
  · exact (Tx.fails_modify _ _).bind fun _ => Tx.fails_pure _ _

theorem fails_release (p : Nat) :
    Tx.Fails Refusal (releasePairRouteReservationLocked p) := by
  intro l e h
  rw [release_run] at h
  split at h <;> cases h

theorem fails_releaseAll (ps : List Nat) : Tx.Fails Refusal (releaseAllLocked ps) := by
  induction ps with
  | nil => exact Tx.fails_pure _ _
  | cons p ps ih =>
      exact (fails_release p).bind fun _ => ih.bind fun _ => Tx.fails_pure _ _

theorem pairKey_eq {a b c d : Nat} (h : pairKey a b = pairKey c d) : a = c ∨ a = d := by
  simp only [pairKey, Prod.mk.injEq] at h
  omega

theorem Exclusive.free {l : ControlLedger} (h : Exclusive l) {r : Nat}
    (hnew : r ∉ l.pairRouteIdentifiers) : l.pairRoutes.get r = none := by
  cases hr : l.pairRoutes.get r with
  | none => rfl
  | some row => exact absurd (h.issued r row hr) hnew

/-- A route of the same pair would name the leader. -/
theorem Exclusive.unclaimed {l : ControlLedger} (h : Exclusive l) {a b : Nat}
    {ignore : Option Nat} (hel : Eligible l a b ignore) :
    l.pairRoutes.any (fun _ row => row.pairKey == pairKey a b) = false := by
  rw [Bool.eq_false_iff]
  intro hany
  obtain ⟨q, row, hq, hk⟩ := (Table.any_iff ..).1 hany
  have hk : row.pairKey = pairKey a b := by simpa using hk
  rw [(h.route q row hq).2] at hk
  have hno := (hel.1 q row hq).1
  obtain hl | hl := pairKey_eq hk.symm <;> simp [RouteRow.has, ← hl] at hno

/-- Only a refusal stops a commit: the database's own constraints are met by then. -/
theorem createLocked_error {p : Nat} {connected : List Nat} {draw : Nat → Nat} {now : Nat}
    {l : ControlLedger} {e : LedgerFault} (h : Exclusive l)
    (hrun : (createPairRouteLocked p connected draw now).run l =
      .error e) : Refusal e := by
  obtain herr | ⟨_, m, hexp, hrun1⟩ := Tx.bind_error.1 hrun
  · exact (Tx.fails_get _).bind (fun _ => fails_releaseAll _) l e herr
  have hm := h.writes (expire_writes now _ _ _ hexp)
  obtain herr | ⟨_, _, hget, hrun2⟩ := Tx.bind_error.1 hrun1
  · exact Tx.fails_get _ _ e herr
  obtain ⟨rfl, rfl⟩ := Tx.get_ok.1 hget
  split at hrun2
  · exact Tx.fails_throw ⟨_, rfl⟩ _ e hrun2
  next res hres =>
  obtain herr | ⟨_, _, h1, hrun3⟩ := Tx.bind_error.1 hrun2
  · exact fails_activeWorker _ _ e herr
  obtain herr | ⟨_, _, h2, hrun4⟩ := Tx.bind_error.1 hrun3
  · exact fails_activeWorker _ _ e herr
  obtain rfl := activeWorker_ok h1
  obtain rfl := activeWorker_ok h2
  obtain herr | ⟨_, _, h3, hrun5⟩ := Tx.bind_error.1 hrun4
  · exact fails_ensure _ _ _ e herr
  obtain herr | ⟨_, _, h4, hrun6⟩ := Tx.bind_error.1 hrun5
  · exact fails_ensure _ _ _ e herr
  obtain ⟨-, rfl⟩ := Tx.require_ok.1 h3
  obtain ⟨-, rfl⟩ := Tx.require_ok.1 h4
  obtain herr | ⟨_, _, h5, hrun7⟩ := Tx.bind_error.1 hrun6
  · exact fails_eligibility _ _ _ _ e herr
  obtain ⟨hel, rfl⟩ := eligible_ok h5
  obtain herr | ⟨_, _, h6, hrun8⟩ := Tx.bind_error.1 hrun7
  · exact fails_claim _ _ _ _ e herr
  obtain rfl := claim_ok h6
  obtain herr | ⟨r, _, h7, hrun9⟩ := Tx.bind_error.1 hrun8
  · exact fails_issue _ _ e herr
  obtain ⟨hnew, rfl⟩ := issue_ok h7
  obtain herr | ⟨_, _, -, hrun10⟩ := Tx.bind_error.1 hrun9
  · -- the insertion: the identifier is new, and a route of the same pair would name its
    -- leader
    exfalso
    have hfree := hm.free hnew
    have hkey := hm.unclaimed hel
    simp only [insertRoute, Tx.bind_error] at herr
    obtain herr | ⟨_, _, hget, herr⟩ := herr
    · exact Tx.fails_get (fun _ => False) _ e herr
    obtain ⟨rfl, rfl⟩ := Tx.get_ok.1 hget
    obtain herr | ⟨_, _, -, herr⟩ := herr
    · rw [Tx.require, if_pos ⟨hfree, hkey⟩] at herr
      exact Tx.fails_pure (fun _ => False) _ _ e herr
    · exact Tx.fails_modify (fun _ => False) _ _ e herr
  · exact (Tx.fails_modify _ _).bind (fun _ => Tx.fails_pure _ _) _ e hrun10

theorem create_error {p : Nat} {connected : List Nat} {draw : Nat → Nat} {now : Nat}
    {l l' : ControlLedger} {e : LedgerFault} (h : Exclusive l)
    (hc : createPairRoute p connected draw now l = (.error e, l')) :
    l' = match l.pairRouteReservations.get p with
      | none => l
      | some row => l.released p row := by
  unfold createPairRoute at hc
  split at hc
  · next message m hm =>
      obtain ⟨-, rfl⟩ := Tx.commit_error.1 hm
      obtain rfl := (Prod.mk.inj hc).2
      rw [releasePairRouteReservation, Tx.commit, release_run]
      cases m.pairRouteReservations.get p <;> rfl
  · next hother =>
      obtain ⟨hrun, rfl⟩ := Tx.commit_error.1 hc
      obtain ⟨message, rfl⟩ := createLocked_error h hrun
      exact absurd hc (hother message l')

/-- An unexpired reservation, or a route. -/
def LiveAt (l : ControlLedger) (now : Nat) : Element → Prop
  | .route r => ∃ row, l.pairRoutes.get r = some row
  | .reservation p => ∃ row, l.pairRouteReservations.get p = some row ∧ now < row.expiresAt

/-- In every ledger that a run of operations reaches, a Worker is in one route or unexpired
reservation at most and every execution claim has its reservation or route.  A commit that
fails there leaves no trace of its proposal and creates no route, and over the whole run no
route identifier is given twice. -/
theorem pairing_exclusive (ops : List Op) :
    (∀ now e f w, (empty.run ops).LiveAt now e → (empty.run ops).LiveAt now f →
      (empty.run ops).Names e w → (empty.run ops).Names f w → e = f) ∧
    (∀ key, (empty.run ops).pairExecutionOwners.get (key, .pairExecutionCell) = some () →
      (empty.run ops).Backed key) ∧
    (∀ p connected draw now e l',
      createPairRoute p connected draw now (empty.run ops) = (.error e, l') →
      l'.pairRoutes = (empty.run ops).pairRoutes ∧
      l'.pairRouteReservations.get p = none ∧
      (∀ q row, l'.pairRouteReservations.get q = some row →
        (empty.run ops).pairRouteReservations.get q = some row) ∧
      (∀ k, l'.pairExecutionOwners.get k = some () →
        (empty.run ops).pairExecutionOwners.get k = some ()) ∧
      ∀ res, (empty.run ops).pairRouteReservations.get p = some res →
        let key := pairKey res.leaderWorkerId res.followerWorkerId
        l'.pairExecutionOwners.get (key, .pairExecutionCell) = none ∧
        ∀ r row, l'.pairRoutes.get r = some row → row.pairKey ≠ key) ∧
    ((empty.history ops).filterMap createdRouteId).Nodup := by
  have h := exclusive_run ops
  refine ⟨fun now e f w _ _ => h.one e f w, h.backed, ?_,
    (createdRouteIds_fresh empty ops).1⟩
  intro p connected draw now e l' hc
  have hl' := create_error h hc
  cases hp : (empty.run ops).pairRouteReservations.get p with
  | none =>
      rw [hp] at hl'
      subst hl'
      exact ⟨rfl, hp, fun q row hq => hq, fun k hk => hk, fun res hres => by cases hres⟩
  | some res =>
      rw [hp] at hl'
      subst hl'
      refine ⟨rfl, Table.get_delete_gone (by simp),
        fun q row hq => ((Table.get_delete_eq_some ..).1 hq).1, released_owners, ?_⟩
      rintro _ ⟨rfl⟩
      -- the pair has no route: one would share its Workers with the reservation
      have hroute : ∀ r row, (empty.run ops).pairRoutes.get r = some row →
          row.pairKey ≠ pairKey res.leaderWorkerId res.followerWorkerId := by
        intro r row hr hk
        rw [(h.route r row hr).2] at hk
        have hin : row.has res.leaderWorkerId = true := by
          obtain hl | hl := pairKey_eq hk.symm <;> simp [RouteRow.has, hl]
        have := h.one (.route r) (.reservation p) res.leaderWorkerId ⟨row, hr, hin⟩
          ⟨res, hp, by simp [Reservation.has]⟩
        cases this
      refine ⟨?_, hroute⟩
      have hnone : (empty.run ops).pairRoutes.any (fun _ row =>
          row.pairKey == pairKey res.leaderWorkerId res.followerWorkerId) = false := by
        rw [Bool.eq_false_iff]
        intro hany
        obtain ⟨r, row, hr, hk⟩ := (Table.any_iff ..).1 hany
        exact hroute r row hr (by simpa using hk)
      simp only [released, hnone, if_true]
      exact Table.get_delete_gone (by simp)

end PairCell.ControlLedger
