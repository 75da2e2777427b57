import PairCell.Runtime.Control
import PairCell.Runtime.Pairing

/-!
# The files of a pairing

What a handler does to the frozen record and to the durable route.  A record is
kept, discarded, or replaced by the one that is frozen; a route is kept, given
up, or adopted with a balance that was found for it.
-/

namespace PairCell

open Lib World

namespace Runtime

/-- The frozen record stays and no pending balance is forgotten. -/
structure Keeps (r r' : Runtime) : Prop where
  workerId : r'.workerId = r.workerId
  budget : r'.budget = r.budget
  pending : r.pendingBudget.isSome = true → r'.pendingBudget.isSome = true

/-- The record of an abandoned proposal is gone. -/
structure Discards (r r' : Runtime) : Prop where
  workerId : r'.workerId = r.workerId
  budget : r'.budget = none

/-- The route that adopting the view gives, with its balance. -/
structure Adopts (r : Runtime) (v : RouteView) (d : DurableRoute) : Prop where
  closed : r.hasCell = false
  routeId : v.routeId = some d.routeId
  leader : v.leaderWorkerId = some d.leaderWorkerId
  follower : v.followerWorkerId = some d.followerWorkerId
  role : d.role = if r.workerId = d.leaderWorkerId then .leader else .follower
  named : r.workerId = d.leaderWorkerId ∨ r.workerId = d.followerWorkerId
  balance : ∃ proposal, r.frozenBalanceFor d.routeId d.role
    (if d.role = .leader then d.followerWorkerId else d.leaderWorkerId) proposal =
        some d.balance

section Handlers
variable (r : Runtime) (x : Answers)

theorem Keeps.refl : Keeps r r := ⟨rfl, rfl, id⟩

theorem keeps_propose (follower : Nat) : Keeps r (r.propose x follower) := by
  unfold propose
  split
  · exact ⟨rfl, rfl, id⟩
  · dsimp only
    split
    · exact ⟨rfl, rfl, fun _ => rfl⟩
    · split <;> exact ⟨rfl, rfl, id⟩

theorem keeps_beginSelection : Keeps r (r.beginSelection x) := by
  unfold beginSelection
  split
  · split
    · exact ⟨rfl, rfl, id⟩
    · exact keeps_propose r x _
  · repeat' split
    all_goals exact ⟨rfl, rfl, id⟩

theorem keeps_feed (view : Option RouteView) : Keeps r (r.feedRouteMetadata x view) := by
  unfold feedRouteMetadata
  split <;> exact ⟨rfl, rfl, id⟩

theorem keeps_construct (d : DurableRoute) : Keeps r (r.constructCell x d) := by
  unfold constructCell
  split
  · exact ⟨rfl, rfl, id⟩
  · split <;> exact ⟨rfl, rfl, id⟩

theorem route_construct (d : DurableRoute) :
    (r.constructCell x d).route = r.route ∨ (r.constructCell x d).route = some d := by
  unfold constructCell
  split
  · exact .inl rfl
  · split
    · exact .inl rfl
    · exact .inr rfl

theorem adopt_cases (v : RouteView) (p : Option Nat) :
    Keeps r (r.adoptControllerRoute x v p) ∧
      ((r.adoptControllerRoute x v p).route = r.route ∨
        ∃ d, Adopts r v d ∧ (r.adoptControllerRoute x v p).route = some d) := by
  unfold adoptControllerRoute
  split
  · next routeId leader follower hrouteId hleader hfollower =>
      split
      · exact ⟨keeps_feed r x _, .inl (same_feedRouteMetadata r x _).route⟩
      · next hcell =>
          split
          · exact ⟨⟨rfl, rfl, id⟩, .inl rfl⟩
          · next hnamed =>
              dsimp only
              split
              · exact ⟨⟨rfl, rfl, id⟩, .inl rfl⟩
              · next balance hbalance =>
                  refine ⟨keeps_construct r x _,
                    (route_construct r x _).imp_right fun h => ⟨_, ?_, h⟩⟩
                  refine ⟨by simpa using hcell, hrouteId, hleader, hfollower, rfl, ?_,
                    ⟨_, hbalance⟩⟩
                  exact or_iff_not_and_not.2 hnamed
  · exact ⟨⟨rfl, rfl, id⟩, .inl rfl⟩

theorem discards_conflict : Discards r r.pairingConflict := by
  unfold pairingConflict
  dsimp only
  split <;> exact ⟨rfl, rfl⟩

end Handlers

/-- What a handler does to the files of a pairing. -/
structure Handles (r : Runtime) (x : Answers) (m : Control) (r' : Runtime) : Prop where
  budget : r.freezes x m = none ∧ (Keeps r r' ∨ Discards r r') ∨
    ∃ b, r.freezes x m = some b ∧ r'.workerId = r.workerId ∧ r'.budget = some b ∧
      r'.pendingBudget = r.pendingBudget
  route : r'.route = r.route ∨ r'.route = none ∨
    ∃ v d, m.view? = some v ∧ Adopts r v d ∧ r'.route = some d

theorem Handles.keeps {r r' : Runtime} {x : Answers} {m : Control}
    (hf : r.freezes x m = none) (h : Keeps r r') (hroute : r'.route = r.route) :
    Handles r x m r' :=
  ⟨.inl ⟨hf, .inl h⟩, .inl hroute⟩

theorem Handles.discards {r r' : Runtime} {x : Answers} {m : Control}
    (hf : r.freezes x m = none) (h : Discards r r')
    (hroute : r'.route = r.route ∨ r'.route = none) : Handles r x m r' :=
  ⟨.inl ⟨hf, .inr h⟩, hroute.imp_right .inl⟩

theorem Handles.adopts {r : Runtime} {x : Answers} {m : Control} {v : RouteView}
    (hf : r.freezes x m = none) (hv : m.view? = some v) (p : Option Nat) :
    Handles r x m (r.adoptControllerRoute x v p) := by
  obtain ⟨hk, hroute | ⟨d, hd, hroute⟩⟩ := adopt_cases r x v p
  · exact .keeps hf hk hroute
  · exact ⟨.inl ⟨hf, .inl hk⟩, .inr (.inr ⟨v, d, hv, hd, hroute⟩)⟩

theorem reconcileAbsentPairing_cases (r : Runtime) (x : Answers) :
    (Keeps r (r.reconcileAbsentPairing x) ∨ Discards r (r.reconcileAbsentPairing x)) ∧
      (r.reconcileAbsentPairing x).route = r.route := by
  unfold reconcileAbsentPairing
  split
  · exact ⟨.inl (.refl r), rfl⟩
  · split
    · exact ⟨.inl (.refl r), rfl⟩
    · dsimp only
      split
      · exact ⟨.inr ⟨rfl, rfl⟩, rfl⟩
      · exact ⟨.inr ⟨(discards_conflict _).workerId, (discards_conflict _).budget⟩,
          (same_pairingConflict _).route⟩

theorem reconcileAbsentControllerRoute_cases (r : Runtime) (x : Answers) :
    Keeps r (r.reconcileAbsentControllerRoute x) ∧
        (r.reconcileAbsentControllerRoute x).route = r.route ∨
      Discards r (r.reconcileAbsentControllerRoute x) ∧
        (r.reconcileAbsentControllerRoute x).route = none := by
  unfold reconcileAbsentControllerRoute
  split
  · split
    · exact .inl ⟨keeps_feed r x _, (same_feedRouteMetadata r x _).route⟩
    · dsimp only
      split
      · have hk := keeps_feed (r.noteAssertion ‹_›) x none
        exact .inl ⟨⟨hk.workerId, hk.budget, hk.pending⟩,
          (same_feedRouteMetadata _ x _).route⟩
      · exact .inr ⟨⟨rfl, rfl⟩, rfl⟩
  · exact .inl ⟨.refl r, rfl⟩

theorem handles_result (r : Runtime) (x : Answers) (m : Control) (hm : isResult m = true) :
    Handles r x m (r.handleControlResult x m) := by
  cases m with
  | roleResult accepted route resolved =>
      simp only [handleControlResult]
      split
      · exact .keeps rfl ⟨rfl, rfl, id⟩ rfl
      · next h =>
          obtain rfl : accepted = true := by simpa using h
          split
          · exact .adopts rfl rfl none
          · split
            · exact .keeps rfl ⟨rfl, rfl, id⟩ rfl
            · split
              · have hk := keeps_beginSelection { r with pairingState := .selecting } x
                exact .keeps rfl ⟨hk.workerId, hk.budget,
                  hk.pending⟩ (same_beginSelection _ x).route
              · exact .keeps rfl ⟨rfl, rfl, id⟩ rfl
  | availableFollowersResult accepted =>
      simp only [handleControlResult]
      split
      · unfold selectFromListing
        split
        · exact .keeps rfl ⟨rfl, rfl, id⟩ rfl
        · exact .keeps rfl (keeps_propose r x _) (same_propose r x _).route
      · exact .keeps rfl ⟨rfl, rfl, id⟩ rfl
  | pairingProposalResult accepted answer =>
      cases accepted with
      | false =>
          exact .discards rfl (discards_conflict r) (.inl (same_pairingConflict r).route)
      | true =>
          cases answer with
          | none => exact .keeps rfl ⟨rfl, rfl, id⟩ rfl
          | some p =>
              cases hp : r.pendingBudget with
              | none =>
                  simp only [handleControlResult, Bool.not_true,
                    Bool.false_eq_true, if_false, hp]
                  exact .keeps (by simp [freezes, hp]) ⟨rfl, rfl,
                    fun h => by simp [hp] at h⟩ rfl
              | some b =>
                  simp only [handleControlResult, Bool.not_true,
                    Bool.false_eq_true, if_false, hp]
                  exact ⟨.inr ⟨_, by simp [freezes, hp], rfl, rfl, hp.symm⟩, .inl rfl⟩
  | pairingDecisionResult accepted paired route =>
      simp only [handleControlResult]
      split
      · exact .discards rfl ⟨rfl, rfl⟩ (.inl rfl)
      · next h =>
          obtain rfl : accepted = true := by simpa using h
          split
          · exact .adopts rfl rfl _
          · exact .keeps rfl ⟨rfl, rfl, id⟩ rfl
  | routeSyncResult accepted route =>
      simp only [handleControlResult]
      split
      · exact .keeps rfl (.refl r) rfl
      · next h =>
          obtain rfl : accepted = true := by simpa using h
          split
          · exact .adopts rfl rfl none
          · split
            · obtain ⟨hk, hroute⟩ | ⟨hd, hroute⟩ :=
                reconcileAbsentControllerRoute_cases r x
              · exact .keeps rfl hk hroute
              · exact .discards rfl hd (.inr hroute)
            · obtain ⟨hk | hd, hroute⟩ := reconcileAbsentPairing_cases r x
              · exact .keeps rfl hk hroute
              · exact .discards rfl hd (.inl hroute)
  | unpairResult accepted route =>
      simp only [handleControlResult]
      split
      · exact .keeps rfl (keeps_feed r x _) (same_feedRouteMetadata r x _).route
      · exact .keeps rfl (.refl r) rfl
  | unpairAssertionResult accepted removed =>
      simp only [handleControlResult]
      split
      · exact .discards rfl ⟨rfl, rfl⟩ (.inr rfl)
      · split
        · exact .keeps rfl ⟨rfl, rfl, id⟩ rfl
        · exact .keeps rfl (.refl r) rfl
  | stateVersionResult accepted =>
      simp only [handleControlResult]
      split
      · exact .keeps rfl (.refl r) rfl
      · exact .keeps rfl ⟨rfl, rfl, id⟩ rfl
  | _ => cases hm

theorem answer_cases (r : Runtime) (x : Answers) (p : Nat) (leader : Option Nat) :
    Handles r x (.pairingProposed (some p) leader)
      (r.answerPairingProposal x (some p) leader) := by
  unfold answerPairingProposal
  split
  · next q balance hq hrefusal hbalance =>
      cases hq
      refine ⟨.inr ⟨⟨p, .follower, leader.getD 0, balance⟩, ?_, ?_⟩, ?_⟩
      · simp [freezes, accepts, hrefusal, hbalance]
      · dsimp only
        split <;> exact ⟨rfl, rfl, rfl⟩
      · dsimp only
        split <;> exact .inl rfl
  · next hnone =>
      refine .keeps ?_ (.refl r) rfl
      simp only [freezes, accepts, Option.map_eq_none_iff]
      cases hx : x.refusal with
      | some _ => rfl
      | none =>
          cases hb : r.readStartupBalance x with
          | none => rfl
          | some b => exact absurd hb (hnone p b rfl hx)

theorem handles_push (r : Runtime) (x : Answers) (m : Control) (hm : isResult m = false) :
    Handles r x m (r.handleControlPush x m) := by
  cases m with
  | pairingProposed proposalId leader =>
      cases proposalId with
      | some p => exact answer_cases r x p leader
      | none => exact .keeps rfl (.refl r) rfl
  | pairingEnded =>
      simp only [handleControlPush]
      split
      · exact .keeps rfl (.refl r) rfl
      · split
        · exact .discards rfl ⟨rfl, rfl⟩ (.inl rfl)
        · exact .discards rfl ⟨(discards_conflict _).workerId,
            (discards_conflict _).budget⟩
            (.inl (same_pairingConflict _).route)
  | routeEstablished route acceptance =>
      simp only [handleControlPush]
      split
      · next v =>
          have h : Handles r x (.routeEstablished (some v) acceptance)
            (r.adoptControllerRoute x v r.proposalId) := .adopts rfl rfl _
          split
          · obtain ⟨hb, hr⟩ := h
            refine ⟨hb.imp (fun h => ⟨h.1, h.2.imp ?_ ?_⟩) id, hr⟩
            · exact fun h => ⟨h.workerId, h.budget, h.pending⟩
            · exact fun h => ⟨h.workerId, h.budget⟩
          · exact h
      · exact .keeps rfl (.refl r) rfl
  | routeStateChanged route =>
      simp only [handleControlPush]
      split
      · exact .keeps rfl (keeps_feed r x _) (same_feedRouteMetadata r x _).route
      · exact .keeps rfl (.refl r) rfl
  | routeRemoved routeId safeUnpair =>
      simp only [handleControlPush]
      split
      · split
        · exact .discards rfl ⟨rfl, rfl⟩ (.inr rfl)
        · exact .keeps rfl (.refl r) rfl
      · exact .keeps rfl (.refl r) rfl
  | _ => cases hm

theorem handles_control (r : Runtime) (x : Answers) (m : Control) :
    Handles r x m (r.control x m) := by
  unfold control
  split
  · next hm => exact handles_result r x m hm
  · next hm => exact handles_push r x m (by simpa using hm)
/-! ## Requests -/

theorem proposeAsks_pending {r : Runtime} {x : Answers} {follower f : Nat}
    (h : Request.propose f ∈ r.proposeAsks x follower) :
    (r.propose x follower).pendingBudget.isSome = true := by
  unfold proposeAsks at h
  split at h
  · next hsent =>
      obtain ⟨hbalance, hsent⟩ := Bool.and_eq_true_iff.1 hsent
      obtain ⟨balance, hb⟩ := Option.isSome_iff_exists.1 hbalance
      simp [propose, hb, hsent]
  · cases h

theorem selectionAsks_pending {r : Runtime} {x : Answers} {f : Nat}
    (h : Request.propose f ∈ r.selectionAsks x) :
    (r.beginSelection x).pendingBudget.isSome = true := by
  unfold selectionAsks at h
  split at h
  · next named hnamed =>
      split at h
      · cases h
      · next hattempts =>
          simp only [beginSelection, hnamed, hattempts, if_false]
          exact proposeAsks_pending h
  · cases h

/-- Who proposes remembers the balance it will freeze. -/
theorem asks_pending {r : Runtime} {x : Answers} {m : Control} {f : Nat}
    (h : Request.propose f ∈ r.asks x m) :
    (r.control x m).pendingBudget.isSome = true := by
  unfold asks at h
  split at h
  · split at h
    · cases h
    · next hunpair =>
        simp only [control, isResult, if_true, handleControlResult, hunpair]
        exact selectionAsks_pending h
  · split at h
    · next follower hchosen =>
        simp only [control, isResult, if_true, handleControlResult,
          selectFromListing, hchosen]
        exact proposeAsks_pending h
    · cases h
  · split at h <;> simp at h
  · cases h

theorem keeps_advance (r : Runtime) (x : Answers) : Keeps r (r.advancePairing x) := by
  unfold advancePairing
  split
  · exact .refl r
  · split
    · split <;> exact ⟨rfl, rfl, id⟩
    · exact keeps_beginSelection r x
    · exact .refl r

theorem route_advance (r : Runtime) (x : Answers) :
    (r.advancePairing x).route = r.route := by
  unfold advancePairing
  split
  · rfl
  · split
    · split <;> rfl
    · exact (same_beginSelection r x).route
    · rfl

theorem advanceAsks_cases {r : Runtime} {x : Answers} {q : Request}
    (h : q ∈ r.advanceAsks x) :
    ∃ f, q = .propose f ∧ (r.advancePairing x).pendingBudget.isSome = true := by
  unfold advanceAsks at h
  split at h
  · cases h
  · next hopen =>
      split at h
      · next hstate =>
          have hf : ∃ f, q = .propose f := by
            unfold selectionAsks proposeAsks at h
            repeat' split at h
            all_goals simp at h
            exact ⟨_, h⟩
          obtain ⟨f, rfl⟩ := hf
          refine ⟨f, rfl, ?_⟩
          simp only [advancePairing, hopen, hstate, Bool.false_eq_true, if_false]
          exact selectionAsks_pending h
      · cases h

/-! ## Steps of the cell -/

theorem keeps_keepState (r : Runtime) (w : World) :
    Keeps r (r.keepRouteState w) ∧ ((r.keepRouteState w).route = r.route ∨
      ∃ d st, r.route = some d ∧
      (r.keepRouteState w).route = some { d with state := st }) := by
  unfold keepRouteState
  split
  · exact ⟨.refl r, .inl rfl⟩
  · next d hd =>
      dsimp only
      generalize (if w.mem.aux.unpairing = true then RouteState.unpairing
        else .active) = state
      split
      · split <;> exact ⟨⟨rfl, rfl, id⟩, .inr ⟨d, state, hd, rfl⟩⟩
      · exact ⟨.refl r, .inl rfl⟩

theorem keeps_inner {r r' : Runtime} {l : RuntimeLabel} (hl : l.isInner = true)
    (h : Step r l r') :
    Keeps r r' ∧ (r'.route = r.route ∨ ∃ d st, r.route = some d ∧
      r'.route = some { d with state := st }) := by
  cases h with
  | cell hrunning hturn hp => exact ⟨⟨rfl, rfl, id⟩, .inl rfl⟩
  | snapshot now day script s deals hw hagenda hread hfresh =>
      exact ⟨⟨rfl, rfl, id⟩, .inl rfl⟩
  | work script hw hagenda hfresh =>
      next w task rest =>
      cases task with
      | keepState =>
          obtain ⟨hk, hroute⟩ := keeps_keepState r w
          exact ⟨⟨hk.workerId, hk.budget, hk.pending⟩, hroute⟩
      | _ => exact ⟨⟨rfl, rfl, id⟩, .inl rfl⟩
  | control x m hidle => cases hl
  | rebuild x => cases hl

theorem keeps_rebuild (r : Runtime) (x : Answers) :
    (r.rebuild x).workerId = r.workerId ∧ (r.rebuild x).budget = r.budget ∧
      (r.rebuild x).route = r.route := by
  unfold rebuild
  split
  · next hd => exact ⟨rfl, rfl, rfl⟩
  · next d hd =>
      have hk := keeps_construct { workerId := r.workerId, options := r.options
                                   proc := .down r.proc.cfg r.proc.disk, tables := r.tables
                                   pnl := r.pnl, route := r.route, budget := r.budget
                                   acceptance := r.acceptance } x d
      refine ⟨hk.workerId, hk.budget, ?_⟩
      obtain h | h := route_construct { workerId := r.workerId, options := r.options
                                        proc := .down r.proc.cfg r.proc.disk,
                                        tables := r.tables
                                        pnl := r.pnl, route := r.route, budget := r.budget
                                        acceptance := r.acceptance } x d
      · exact h
      · rw [hd]
        rw [hd] at h
        exact h

end Runtime

end PairCell
