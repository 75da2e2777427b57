import PairCell.Runtime.Requests

/-!
# Adopting a route with its own budget

A route becomes durable with the balance of the record frozen for its own
proposal, and is not adopted without that record.
-/

namespace PairCell

open Lib

namespace Pairing

variable {s : Pairing}

/-! ## Every run -/

theorem bound_init (workerId : Nat) (options : Options) :
    Bound (init workerId options) := by
  refine ⟨⟨List.nodup_nil, ?_, ?_, ?_⟩, ⟨?_, ?_, ?_, List.nodup_nil⟩,
    ⟨?_, ?_, ?_⟩, ⟨?_, ?_, ?_⟩, ⟨?_, ?_, ?_, ?_, .nil⟩, notices_nil _ _ _ _ _,
    ⟨?_, ?_, ?_⟩, ?_, fun _ => rfl⟩
  all_goals simp [init, ControlLedger.empty, flight, replies, Runtime.init,
    Prepared, offers]

theorem Bound.step {t : Pairing} {l : PairingLabel} (h : Bound s) (hx : s.ledger.Exclusive)
    (hok : s.Answered l) (hstep : Step s l t) : Bound t := by
  cases hstep with
  | inner hl hr =>
      obtain ⟨hk, hroute⟩ := Runtime.keeps_inner hl hr
      exact h.keep hk hroute
  | drain n hturn => exact h.drain hturn n
  | handle x hidle hturn =>
      refine h.handle ?_ hturn x
      by_contra hdown
      have := h.down (by simpa using hdown)
      simp [flight, hturn] at this
  | advance x hlive hturn hidle =>
      have hk := h.keep (Runtime.keeps_advance s.runtime x)
        (.inl (Runtime.route_advance s.runtime x))
      refine hk.ask (fun f hf => ?_) (fun p hp => ?_) fun r v hv => ?_
      · obtain ⟨-, -, hpending⟩ := Runtime.advanceAsks_cases hf
        exact hpending
      · obtain ⟨f, hf, -⟩ := Runtime.advanceAsks_cases hp
        cases hf
      · obtain ⟨f, hf, -⟩ := Runtime.advanceAsks_cases hv
        cases hf
  | assertion v hlive hturn hcell hroute =>
      next d =>
      refine h.ask (fun f hf => by simp at hf) (fun p hp => by simp at hp)
        fun r v' hv => ?_
      obtain ⟨rfl, -⟩ : r = d.routeId ∧ v' = v := by simpa using hv
      obtain ⟨p, b, -, ho, -⟩ := h.files.own d hroute
      refine ⟨h.history.issued _ p ho, fun m hm hest => ?_⟩
      have hm : m ∈ s.wire := by simpa [flight, hturn] using hm
      exact (h.notices.unseen m hm d.routeId hest).1 d hroute rfl
  | lose hturn hwire hfirst => exact h.lose hturn hwire hfirst hok
  | hangup hlive => exact h.hangup hok
  | torn x hidle hturn => exact h.torn hturn x hok
  | reconnect x hlive => exact h.reconnect hlive x
  | serve e hasked hunused => exact h.serve hx hasked hunused hok
  | tell m hm =>
      cases m with
      | roleResult accepted route resolved =>
          refine h.tell rfl rfl (fun _ => id) fun v hv => ?_
          cases accepted with
          | false => cases hv
          | true =>
              cases route with
              | none => cases hv
              | some u =>
                  obtain rfl := Option.some.inj hv
                  exact hm
      | routeSyncResult accepted route =>
          refine h.tell rfl rfl (fun _ => id) fun v hv => ?_
          cases accepted with
          | false => cases hv
          | true =>
              cases route with
              | none => cases hv
              | some u =>
                  obtain rfl := Option.some.inj hv
                  exact hm
      | pairingProposalResult accepted answer =>
          obtain rfl : accepted = false := hm
          exact h.plain rfl rfl rfl
      | pairingDecisionResult accepted paired route =>
          obtain rfl : paired = false := hm
          refine h.plain rfl rfl ?_
          cases accepted <;> rfl
      | pairingProposed p leader => exact hm.elim
      | routeEstablished route acceptance => exact hm.elim
      | _ => exact h.plain rfl rfl rfl
  | operate op hop => exact h.operate hx hop

theorem step_exclusive {t : Pairing} {l : PairingLabel} (hx : s.ledger.Exclusive)
    (hstep : Step s l t) : t.ledger.Exclusive := by
  cases hstep with
  | serve e hasked hunused =>
      next q rest => exact serve_exclusive (s := { s with asked := rest }) hx e q
  | tell m hm => rwa [ledger_send]
  | operate op hop =>
      rw [operate_ledger]
      exact ControlLedger.perform_keeps op hx
  | _ => exact hx

theorem bound_reach {workerId : Nat} {options : Options}
    (h : Reach Step Answered (init workerId options) s) : Bound s := by
  have hstep : ∀ (t : Pairing) l u, Bound t ∧ t.ledger.Exclusive →
      Answered t l → Step t l u →
      Bound u ∧ u.ledger.Exclusive := by
    rintro t l u ⟨ht, hx⟩ hok hstep
    exact ⟨ht.step hx hok hstep, step_exclusive hx hstep⟩
  exact (h.invariant ⟨bound_init workerId options, ControlLedger.exclusive_empty⟩ hstep).1

/-- The durable route has the balance of the one record frozen for the proposal that the
controller made the route from. -/
def OwnBudget (s : Pairing) : Prop :=
  ∀ d, s.runtime.route = some d → ∃ p, ∃ b ∈ s.frozen, s.origins.get d.routeId = some p ∧
    b.proposalId = p ∧ b.balance = d.balance ∧ ∀ c ∈ s.frozen, c.proposalId = p → c = b

/-- A route without a durable copy, and without a record of its proposal, is not
adopted. -/
def FailsClosed (s : Pairing) : Prop :=
  ∀ x m rest v r p, s.turn = m :: rest → m.view? = some v → v.routeId = some r →
    s.origins.get r = some p → s.runtime.hasCell = false →
    (∀ d, s.runtime.route = some d → d.routeId ≠ r) →
    (∀ b, s.runtime.budget = some b → b.proposalId ≠ p) →
    (s.runtime.control x m).failedClosed = true ∧ (s.runtime.control x m).hasCell = false ∧
      (s.runtime.control x m).route = s.runtime.route

theorem Bound.ownBudget (h : Bound s) : s.OwnBudget := by
  intro d hd
  obtain ⟨p, b, hb, ho, hp, hbalance⟩ := h.files.own d hd
  refine ⟨p, b, hb, ho, hp, hbalance, fun c hc hcp => ?_⟩
  have hnodup : (s.frozen.map FrozenBudget.proposalId).Nodup :=
    h.mail.fresh.sublist (List.sublist_append_right _ _)
  exact List.inj_on_of_nodup_map hnodup hc hb (hcp.trans hp.symm)

/-- Without a balance the view of a route fails the Worker closed. -/
theorem adopt_failClosed {r : Runtime} {v : RouteView} {routeId a b : Nat}
    (hid : v.routeId = some routeId) (ha : v.leaderWorkerId = some a)
    (hb : v.followerWorkerId = some b) (hcell : r.hasCell = false)
    (hnamed : a = r.workerId ∨ b = r.workerId)
    (hbalance : ∀ proposal, r.frozenBalanceFor routeId
      (if r.workerId = a then .leader else .follower)
      (if (if r.workerId = a then Role.leader else .follower) = .leader then b else a)
      proposal = none) (x : Answers) (p : Option Nat) :
    r.adoptControllerRoute x v p = r.failClosed := by
  have hworker : ¬(r.workerId ≠ a ∧ r.workerId ≠ b) := by
    rintro ⟨h1, h2⟩
    exact hnamed.elim (fun he => h1 he.symm) fun he => h2 he.symm
  simp only [Runtime.adoptControllerRoute, hid, ha, hb, hcell, Bool.false_eq_true,
    if_false, hworker, hbalance]

theorem control_failClosed {r : Runtime} {m : Control} {v : RouteView}
    (hv : m.view? = some v) (hcell : r.hasCell = false) {x : Answers}
    (h : ∀ p, r.adoptControllerRoute x v p = r.failClosed) :
    r.control x m = r.failClosed := by
  have hfailed : r.failClosed.hasCell = false := hcell
  unfold Control.view? at hv
  split at hv
  · cases hv
    exact h none
  · cases hv
    exact h none
  · cases hv
    exact h r.proposalId
  · cases hv
    simp [Runtime.control, Runtime.isResult, Runtime.handleControlPush, h, hfailed]
  · cases hv

theorem Bound.failsClosed (h : Bound s) : s.FailsClosed := by
  intro x m rest v r p hturn hv hid ho hcell hroute hbudget
  obtain ⟨r', p', a, b, hbond, hos, hw⟩ := h.mail.viewed m (by simp [flight, hturn]) v hv
  obtain rfl : r' = r := Option.some.inj (hbond.routeId.symm.trans hid)
  obtain rfl : p' = p := Option.some.inj (hbond.origin.symm.trans ho)
  have hagrees := h.view_agrees hturn hv hbond hos
  have hnone : ∀ proposal, s.runtime.frozenBalanceFor r'
      (if s.runtime.workerId = a then .leader else .follower)
      (if (if s.runtime.workerId = a then Role.leader else .follower) =
        .leader then b else a)
      proposal = none := by
    intro proposal
    cases hf : s.runtime.frozenBalanceFor r' _ _ proposal with
    | none => rfl
    | some balance =>
        obtain ⟨d, hd, hdid, -⟩ | ⟨c, hc, hrole, hpeer, -⟩ :=
          Runtime.frozenBalanceFor_cases hf
        · exact absurd hdid (hroute d hd)
        · refine absurd ?_ (hbudget c hc)
          by_cases he : a = s.workerId
          · have he' : s.runtime.workerId = a := he.symm
            simp only [he, if_true] at hagrees
            simp only [he', if_true] at hrole hpeer
            exact hagrees c hc hrole hpeer
          · have he' : ¬s.runtime.workerId = a := fun e => he e.symm
            simp only [he, if_false] at hagrees
            simp only [he', if_false] at hrole hpeer
            exact hagrees c hc hrole (hpeer.trans (if_neg (by decide)))
  have hcontrol := control_failClosed hv hcell
    (fun q => adopt_failClosed hid hbond.leader hbond.follower hcell hw hnone x q)
  rw [hcontrol]
  exact ⟨rfl, hcell, rfl⟩

/-- In every run that loses no reply to a proposal while the record of an earlier proposal
to the same follower is held, the balance of the durable route is the one frozen for the
proposal that the controller made the route from; and without a record of that proposal the
route is not adopted. -/
theorem adopted_route_has_own_budget {workerId : Nat} {options : Options}
    (h : Reach Step Answered (init workerId options) s) : s.OwnBudget ∧ s.FailsClosed :=
  ⟨(bound_reach h).ownBudget, (bound_reach h).failsClosed⟩

/-! ## Playing a run -/

/-- The controller's record of this Worker's route. -/
def shown (s : Pairing) : Option RouteView :=
  (s.ledger.pairRoutes.rows.find? fun r => r.2.has s.workerId).map fun r =>
    { routeId := some r.1, leaderWorkerId := some r.2.leaderWorkerId
      followerWorkerId := some r.2.followerWorkerId, state := some r.2.state }

theorem shows_shown (s : Pairing) : s.Shows s.shown := by
  unfold shown
  cases hf : s.ledger.pairRoutes.rows.find? fun r => r.2.has s.workerId with
  | none =>
      intro r row hr
      rw [List.find?_eq_none] at hf
      simpa using hf (r, row) ((Table.get_eq_some_iff ..).1 hr)
  | some r =>
      exact ⟨r.1, r.2, (Table.get_eq_some_iff ..).2 (List.mem_of_find?_eq_some hf),
        by simpa using List.find?_some hf, rfl, rfl, rfl⟩

inductive Move where
  | drain (n : Nat)
  | handle (x : Answers)
  | hangup
  | reconnect (x : Answers)
  | serve (e : Draws)
  /-- The reply to a role declaration. -/
  | declared (resolved : Option Role)
  | operate (op : ControlLedger.Op)

def next (s : Pairing) : Move → Option (PairingLabel × Pairing)
  | .drain n => if s.turn = [] then some (.drain n, s.drained n) else none
  | .handle x =>
      match s.turn with
      | m :: rest => if s.runtime.idle then some (.handle x, s.handled x m rest) else none
      | [] => none
  | .hangup => if s.live then some (.hangup, s.hangup) else none
  | .reconnect x =>
      if s.live then none
      else some (.reconnect x,
        { s with runtime := s.runtime.rebuild x, live := true, asked := [] })
  | .serve e =>
      match s.asked with
      | q :: rest =>
          if s.Unused e.uuid then some (.serve e,
            { s with asked := rest }.serve e q) else none
      | [] => none
  | .declared resolved =>
      some (.tell (.roleResult true s.shown resolved),
        s.send [.roleResult true s.shown resolved])
  | .operate op => if s.Others op then some (.operate op, s.operate op) else none

theorem next_step {m : Move} {l : PairingLabel} {t : Pairing}
    (h : s.next m = some (l, t)) :
    Step s l t := by
  cases m with
  | drain n =>
      simp only [next, Option.ite_none_right_eq_some] at h
      obtain ⟨hturn, h⟩ := h
      cases h
      exact .drain n hturn
  | handle x =>
      simp only [next] at h
      split at h
      · next hturn =>
          simp only [Option.ite_none_right_eq_some] at h
          obtain ⟨hidle, h⟩ := h
          cases h
          exact .handle x hidle hturn
      · cases h
  | hangup =>
      simp only [next, Option.ite_none_right_eq_some] at h
      obtain ⟨hlive, h⟩ := h
      cases h
      exact .hangup hlive
  | reconnect x =>
      simp only [next, Option.ite_none_left_eq_some] at h
      obtain ⟨hlive, h⟩ := h
      cases h
      exact .reconnect x (by simpa using hlive)
  | serve e =>
      simp only [next] at h
      split at h
      · next hasked =>
          simp only [Option.ite_none_right_eq_some] at h
          obtain ⟨hunused, h⟩ := h
          cases h
          exact .serve e hasked hunused
      · cases h
  | declared resolved =>
      cases h
      exact .tell _ (shows_shown s)
  | operate op =>
      simp only [next, Option.ite_none_right_eq_some] at h
      obtain ⟨hop, h⟩ := h
      cases h
      exact .operate op hop

/-- Every step is allowed. -/
def anyStep : Pairing → PairingLabel → Prop := fun _ _ => True

instance (s : Pairing) (l : PairingLabel) : Decidable (anyStep s l) := isTrue trivial

theorem plays (ok : Pairing → PairingLabel → Prop)
    [∀ s l, Decidable (ok s l)] (s : Pairing) (ms : List Move) (P : Pairing → Bool)
    (h : (play ok next (fun _ => false) s ms).any P = true) :
    ∃ t, Reach Step ok s t ∧ P t = true := by
  have hnext : ∀ (s : Pairing) m l t, s.next m = some (l, t) → Step s l t :=
    fun _ _ _ _ h => next_step h
  exact play_any hnext P h

/-- Both Workers are enrolled, and Worker 1 proposes to Worker 2 with a balance of 1000. -/
def Sample.proposed : List Move :=
  [.reconnect {},
    .operate (.enrollments ((Table.empty.set 11 ⟨1, "a", .pending, 100⟩).set 12
      ⟨2, "b", .pending, 100⟩)),
    .operate (.approveEnrollment 11 1 0), .operate (.approveEnrollment 12 2 0),
    .declared (some .leader), .drain 1, .handle { startupBalance := some 1000 },
    .serve { connected := [1, 2], uuid := 9 }, .drain 1, .handle {}]

/-- The session is lost before Worker 2 decides; in the next one the balance is 1200, and
Worker 2 accepts the new proposal. -/
def Sample.proposedAgain : List Move :=
  Sample.proposed ++
    [.hangup, .operate (.releasePairRouteReservationsForWorker 1), .reconnect {},
      .declared (some .leader), .drain 1, .handle { startupBalance := some 1200 },
      .serve { connected := [1, 2], uuid := 10 },
      .operate (.createPairRoute 10 [1, 2] (fun i => 7 + i) 1)]

/-- Route 7 is adopted with this balance. -/
def adoptedWith (balance : Rat) (s : Pairing) : Bool :=
  s.runtime.route.any fun d => decide (d.routeId = 7 ∧ d.balance = balance)

/-- The reply comes before the notice of the route, and the route has the new balance. -/
theorem sample_adopts_own_budget :
    ∃ s, Reach Step Answered (init 1 PairCell.Sample.leaderOptions) s ∧
    s.adoptedWith 1200 = true ∧ s.OwnBudget ∧ s.FailsClosed := by
  obtain ⟨s, hreach, hs⟩ := plays Answered (init 1 PairCell.Sample.leaderOptions)
    (Sample.proposedAgain ++ [.drain 2, .handle {}, .handle {}]) (adoptedWith 1200)
      (by decide +kernel)
  exact ⟨s, hreach, hs, adopted_route_has_own_budget hreach⟩

/-- The second reply is lost with its session; on reconnect the route gets the balance that
was frozen for the first proposal. -/
theorem lost_reply_adopts_old_budget :
    ¬∀ workerId options s, Reach Step anyStep (init workerId options) s →
      s.OwnBudget ∧ s.FailsClosed := by
  intro h
  obtain ⟨s, hreach, hs⟩ := plays anyStep (init 1 PairCell.Sample.leaderOptions)
    (Sample.proposedAgain ++
      [.hangup, .reconnect {}, .declared none, .drain 1, .handle {}])
    (fun s => s.adoptedWith 1000 && decide (s.origins.get 7 = some 10) &&
      s.frozen.all fun b => decide (b.proposalId ≠ 10)) (by decide +kernel)
  simp only [Bool.and_eq_true, decide_eq_true_eq, List.all_eq_true, adoptedWith,
    Option.any_eq_true] at hs
  obtain ⟨⟨⟨d, hd, hid, -⟩, ho⟩, hfrozen⟩ := hs
  obtain ⟨p, b, hb, ho', hp, -⟩ := (h _ _ s hreach).1 d hd
  rw [hid] at ho'
  exact hfrozen b hb (hp.trans (Option.some.inj (ho'.symm.trans ho)))

end Pairing

end PairCell
