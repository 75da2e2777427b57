import PairCell.Route.Agreement

/-!
# Both legs trade under one policy

An attempt names the policy it was decided under.  The follower admits it only
under a policy with the same hash, and neither cell accepts another one while
its database holds an unresolved attempt with a leg.
-/

namespace PairCell

open Lib World

variable {w : World} {x : Action}

/-- The hash of the policy a database holds. -/
def Disk.policyHash (d : Disk) : Option Nat := d.policy.map Policy.hash

/-- The attempt of a running cell is under the policy it names. -/
structure UnderPolicy (w : World) : Prop where
  same : w.mem.policy = w.disk.policy
  named : ∀ a, w.mem.attempt = some a → w.mem.leg ≠ none ∨ w.mem.recovering = false →
    w.disk.policyHash = some a.policyHash

/-- The unresolved attempt of a database, once it has a leg, is under
the policy it names. -/
def UnderPolicyOn (c : Config) (d : Disk) : Prop :=
  ∀ a, loadedAttempt c d = some a → d.legs.get a.attemptId ≠ none →
    d.policyHash = some a.policyHash

theorem UnderPolicy.act (hx : Permits w x) (h : UnderPolicy w) :
    UnderPolicy (w.act x) := by
  refine ⟨?_, ?_⟩
  · rw [act_policy, act_diskPolicy]
    cases x <;> first | rfl | exact h.same
  · unfold Disk.policyHash
    rw [act_attempt, act_leg, act_recovering, act_diskPolicy]
    intro a ha hready
    cases x with
    | adopt b =>
        obtain rfl : b = a := Option.some.inj ha
        obtain ⟨policy, hpolicy, hhash⟩ := hx.2.2.2.2.2.1
        show w.disk.policy.map Policy.hash = some b.policyHash
        rw [← h.same, hpolicy, hhash]
        rfl
    | terminate reason => cases ha
    | savePolicy policy =>
        obtain ⟨hleg, hnone | hrecovering⟩ := hx
        · exact absurd (hnone.symm.trans ha) (by simp)
        · obtain hready | hready := hready
          · exact absurd hleg hready
          · exact absurd (hrecovering.symm.trans hready) (by simp)
    | saveLeg l =>
        obtain ⟨-, b, hb, hleg⟩ := hx
        cases hl : w.mem.leg with
        | none =>
            simp only [hl] at hleg
            exact h.named a ha (.inr hleg.2.2.2.1)
        | some old => exact h.named a ha (.inl (by simp [hl]))
    | memLeg l =>
        obtain ⟨b, old, -, hold, -⟩ := hx
        exact h.named a ha (.inl (by simp [hold]))
    | setRecovering b =>
        obtain hready | hdone := hready
        · exact h.named a ha (.inl hready)
        · exact h.named a ha
            (.inl (hx hdone (by rw [show w.mem.attempt = some a from ha]; simp)))
    | _ => exact h.named a ha hready

theorem UnderPolicy.stored (hw : Sound w) (h : UnderPolicy w) :
    UnderPolicyOn w.cfg w.disk := by
  intro a hloaded hleg
  have ha := hw.mem.newest a hloaded
  exact h.named a ha (.inl fun hnone => hleg (hw.toBooked.leg_row ha hnone))

theorem UnderPolicy.load {c : Config} {d : Disk} (hd : DiskSound c d)
    (h : UnderPolicyOn c d) (hload : load c d = some w) : UnderPolicy w := by
  rw [load_eq hd] at hload
  cases hat : loadedAttempt c d with
  | none =>
      simp only [hat, Option.some.injEq] at hload
      subst hload
      exact ⟨rfl, fun _ ha => nomatch ha⟩
  | some a =>
      simp only [hat, Option.map_eq_some_iff] at hload
      obtain ⟨view, -, rfl⟩ := hload
      refine ⟨rfl, fun b hb hready => ?_⟩
      obtain rfl : a = b := Option.some.inj hb
      obtain hleg | hrecovering := hready
      · exact h a hat hleg
      · cases hrecovering

theorem Proc.reach_underPolicy {ok : Proc → Label → Prop} {c : Config} {p : Proc}
    (h : Reach Proc.Step ok (.init c) p) : p.Sound ∧
    p.Meets UnderPolicy UnderPolicyOn := by
  refine Proc.reach_meets h ?_ ?_ ?_ ?_ ?_
  · exact fun a ha => by simp [loadedAttempt, newestRow, routeRows] at ha
  · exact fun w script hw => ⟨hw.same, hw.named⟩
  · exact fun w x _ hx hu => hu.act hx
  · exact fun w hw hu => hu.stored hw
  · exact fun c d w hd hu hload => .load hd hu hload

theorem Proc.Meets.underPolicyOn {p : Proc} (hs : p.Sound)
    (h : p.Meets UnderPolicy UnderPolicyOn) : UnderPolicyOn p.cfg p.disk := by
  cases h with
  | up hw =>
      cases hs with
      | up hsound _ _ => exact hw.stored hsound
  | down hd => exact hd

/-! ## Dispatch -/

/-- The entry order of the attempt is about to be handed to the terminal. -/
def Proc.Dispatches (n : Nat) (p : Proc) : Prop :=
  ∃ w payload reply todo,
    p = .up w (.orderSend (.cell n w.cfg.workerId .entry) payload reply :: todo) ∧
      payload.isEntry = true

/-- The entry order of an attempt is handed over under the policy the attempt names. -/
theorem Proc.Dispatches.underPolicy {p : Proc} {n : Nat} (h : p.Dispatches n)
    (hs : p.Sound) (hp : p.Meets UnderPolicy UnderPolicyOn) : ∃ row ∈ p.disk.attempts,
      row.attempt.attemptId = n ∧ p.disk.policyHash = some row.attempt.policyHash := by
  obtain ⟨w, payload, reply, todo, rfl, hentry⟩ := h
  cases hs with
  | up hw htodo _ =>
      cases hp with
      | up hu =>
          obtain ⟨a, l, ha, hl, heffect, -⟩ := htodo.1.2.2.1 hentry
          obtain rfl : n = a.attemptId := by
            simpa [entryEffectId, Config.effect] using heffect
          obtain ⟨row, hrow, rfl, -⟩ := hw.mem.live a ha
          exact ⟨row, hrow, rfl, hu.named _ ha (.inl (by simp [hl]))⟩

namespace Route

variable {s s' : Route} {r : Role} {ok : Route → Label → Prop}
    {leaderId followerId routeId : Nat}

theorem rows_stay (h : Reach Step ok s s') (hs : ∀ r, (s.proc r).Sound) {row : AttemptRow}
    (hrow : row ∈ (s.proc r).disk.attempts) :
    ∃ row' ∈ (s'.proc r).disk.attempts, row'.attempt = row.attempt := by
  refine ((reach_proc h r).invariant (I := fun p => p.Sound ∧
    ∃ row' ∈ p.disk.attempts, row'.attempt = row.attempt) ⟨hs r, row, hrow, rfl⟩ ?_).2
  rintro p l p' ⟨hp, hold⟩ _ hstep
  refine ⟨hp.step hstep, ?_⟩
  cases hp.moves hstep with
  | exec hp hl hp' _ _ =>
      subst hp hp'
      exact act_row_stays _ hold
  | still hdisk _ _ _ => rwa [hdisk]

/--
The unresolved attempt of either database, once it has a leg, is under the policy
it names, so no other policy is accepted meanwhile; and when the two terminals
are handed the entry orders of one attempt, at whatever times, the two cells hold
the same policy then.
-/
theorem legs_trade_under_one_policy
    (h : Reach Step anyLabel (init leaderId followerId routeId) s)
    (h' : Reach Step anyLabel s s') :
    (∀ r, UnderPolicyOn (s.proc r).cfg (s.proc r).disk) ∧
      ∀ r n, (s.proc r).Dispatches n → (s'.proc r.peer).Dispatches n →
        ∃ hash, (s.proc r).disk.policyHash = some hash ∧
          (s'.proc r.peer).disk.policyHash = some hash := by
  have hpolicy : ∀ {t}, Reach Step anyLabel (init leaderId followerId routeId) t → ∀ r,
      (t.proc r).Sound ∧ (t.proc r).Meets UnderPolicy UnderPolicyOn := by
    intro t ht r
    cases r with
    | leader => exact Proc.reach_underPolicy (reach_proc ht .leader)
    | follower => exact Proc.reach_underPolicy (reach_proc ht .follower)
  refine ⟨fun r => (hpolicy h r).2.underPolicyOn (hpolicy h r).1, fun r n hown hpeer => ?_⟩
  obtain ⟨row, hrow, rfl, hhash⟩ := hown.underPolicy (hpolicy h r).1 (hpolicy h r).2
  obtain ⟨row', hrow', hid, hhash'⟩ :=
    hpeer.underPolicy (hpolicy (h.trans h') r.peer).1 (hpolicy (h.trans h') r.peer).2
  obtain ⟨later, hlater, hsame⟩ := rows_stay h' (reach_joined h).sound hrow
  refine ⟨row.attempt.policyHash, hhash, ?_⟩
  have hone : row'.attempt = row.attempt := by
    cases r with
    | leader =>
        rw [← hsame] at hid ⊢
        exact (one_content (h.trans h') hlater hrow' hid.symm).symm
    | follower =>
        rw [← hsame] at hid ⊢
        exact one_content (h.trans h') hrow' hlater hid
  rw [hhash', hone]

namespace Sample

open PairCell.Sample (attempt emptyFacts)

/-- The entry order of the attempt 100 is next. -/
def dispatching (p : Proc) : Bool :=
  match p with
  | .up w (.orderSend e payload _ :: _) =>
      payload.isEntry && decide (e = .cell 100 w.cfg.workerId .entry)
  | _ => false

theorem dispatching_dispatches {p : Proc} (h : dispatching p = true) :
    p.Dispatches 100 := by
  unfold dispatching at h
  split at h
  · next w e payload reply todo =>
    obtain ⟨hentry, heffect⟩ := Bool.and_eq_true_iff.1 h
    obtain rfl := of_decide_eq_true heffect
    exact ⟨w, payload, reply, todo, rfl, hentry⟩
  · cases h

/-- Up to the leader's order. -/
def leaderSends : List Move :=
  ready .leader ++ ready .follower ++
    run .leader true 27 (.event (.readinessFacts 2 emptyFacts))
    { filling .leader with decision := some (attempt 100) }

/-- From there up to the follower's. -/
def followerSends : List Move :=
  List.replicate 20 (.exec .leader true) ++ delivered .follower 21 (filling .follower)

end Sample

theorem legs_trade_under_one_policy_entered : ∃ s s', Reach Step anyLabel Sample.both s ∧
    Reach Step anyLabel s s' ∧ ∃ hash, s.leader.disk.policyHash = some hash ∧
      s'.follower.disk.policyHash = some hash := by
  obtain ⟨s, hrun, hs⟩ := plays_any anyLabel Sample.both Sample.leaderSends
    (fun s => Sample.dispatching s.leader &&
      (plays anyLabel s Sample.followerSends).any fun s' =>
      Sample.dispatching s'.follower) (by decide +kernel)
  obtain ⟨hleader, hlater⟩ := Bool.and_eq_true_iff.1 hs
  obtain ⟨s', hrun', hfollower⟩ := plays_any anyLabel s Sample.followerSends _ hlater
  exact ⟨s, s', hrun, hrun', (legs_trade_under_one_policy hrun hrun').2 .leader 100
    (Sample.dispatching_dispatches hleader) (Sample.dispatching_dispatches hfollower)⟩

end Route

end PairCell
