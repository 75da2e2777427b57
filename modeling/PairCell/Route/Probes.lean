import PairCell.Route.Play
import PairCell.Route.Timely

/-!
# A finalised attempt never starts later

The leader's probe for the status of its attempt must not overtake the attempt
on the way to the follower.
-/

namespace PairCell.Route

open Lib World

variable {s s' : Route} {side : Role} {i : Nat}

theorem arrived_sent {v : Wire} (h : v.line.Ordered) {m : Message} (hm : m ∈ v.arrived) :
    m ∈ v.sends := (arrived_sublist h).subset hm

theorem reach_sends {ok : Route → Label → Prop} (h : Reach Step ok s s') :
    ∀ m ∈ (s.wire side).sends, m ∈ (s'.wire side).sends := by
  induction h with
  | refl => exact fun _ hm => hm
  | tail l _ _ hstep ih =>
      intro m hm
      rw [hstep.wire, sends_after]
      exact List.mem_append_left _ (ih m hm)

/-- Without a record of the attempt its entry order was not handed to the terminal. -/
theorem unsent_of_row {c : Config} {d : Disk} (hd : DiskSound c d)
    (hrow : d.rowOf i = none) :
    ¬d.entrySent (.cell i c.workerId .entry) := by
  rintro ⟨sent, hsent, heffect, hentry⟩
  obtain ⟨i', l, hl, -, heffect'⟩ := hd.sent sent hsent hentry
  obtain ⟨r, hr, hid⟩ := (hd.legs i' l hl).2
  cases heffect.symm.trans heffect'
  exact rowOf_eq_none.1 hrow r hr hid

theorem no_record_is_final {leaderId followerId routeId : Nat} {w : World}
    {todo : List Action} {a : Attempt}
    (h : Reach Step Queued (init leaderId followerId routeId) s)
    (hleader : s.leader = .up w (.terminate .bothEmptyVerified :: todo))
    (ha : w.mem.attempt = some a) (hanswer : w.mem.peerLeg.status = .noAttemptRecord)
    (h' : Reach Step Queued s s') :
    s'.follower.disk.rowOf a.attemptId = none ∧
      ¬s'.follower.disk.entrySent (.cell a.attemptId followerId .entry) := by
  have htimely := reach_timely h
  have hheard := htimely.heard .leader
  unfold Heard at hheard
  rw [show s.proc .leader = _ from hleader] at hheard
  obtain ⟨p, hp, hid, hstatus⟩ : ∃ p, .legStatus p ∈ (s.wire .follower).arrived ∧
      p.attemptId = a.attemptId ∧ p.status = .noAttemptRecord := by
    cases hheard with
    | up hheard =>
        obtain hunknown | htold := hheard.held a ha
        · cases hunknown.symm.trans hanswer
        · rw [hanswer] at htold
          exact htold
  have hsent := arrived_sent (htimely.ordered .follower) hp
  -- the answer was given on no record, and there is none in any later state
  have hdenied := (reach_timely (h.trans h')).truthful p (reach_sends h' _ hsent) hstatus
  rw [hid] at hdenied
  refine ⟨hdenied.row, ?_⟩
  have hsound := (reach_history (reach_proc (h.trans h') .follower)).2
  have hdisk := hsound.2.diskSound
  rw [hsound.1] at hdisk
  exact unsent_of_row hdisk hdenied.row

namespace Sample

open PairCell.Sample (attempt)

/-- The leader is about to terminate the attempt on the follower's answer. -/
def finalising (s : Route) : Bool :=
  match s.leader with
  | .up w (.terminate .bothEmptyVerified :: _) =>
      decide (w.mem.attempt = some (attempt 100) ∧ w.mem.peerLeg.status = .noAttemptRecord)
  | _ => false

theorem finalising_up (h : finalising s = true) : ∃ w todo,
    s.leader = .up w (.terminate .bothEmptyVerified :: todo) ∧
      w.mem.attempt = some (attempt 100) ∧ w.mem.peerLeg.status = .noAttemptRecord := by
  unfold finalising at h
  split at h
  · next w todo hleader =>
    obtain ⟨ha, hanswer⟩ := of_decide_eq_true h
    exact ⟨w, todo, hleader, ha, hanswer⟩
  · cases h

/-- The probe and its answer, up to the termination. -/
def answered : List Move :=
  probed ++ delivered .follower 20 {} ++ delivered .follower 20 {} ++
    delivered .leader 5 {}

def lost : List Move :=
  ready .leader ++ ready .follower ++ decided true ++
    List.replicate 4 (.lose .leader) ++ answered

/-- They wait in the outbox while the probe and its answer pass. -/
def overtaken : List Move := ready .leader ++ ready .follower ++ decided false ++ answered

/-- The outbox is flushed and the follower is handed the attempt. -/
def flushed : List Move :=
  List.replicate 10 (.exec .leader true) ++ [.flush .leader [true]] ++
    delivered .follower 60 {}

end Sample

theorem lost_attempt_is_final : ∃ s, Reach Step Queued Sample.both s ∧
    Sample.finalising s = true ∧
    s.follower.disk.rowOf 100 = none ∧
    ¬s.follower.disk.entrySent (.cell 100 2 .entry) := by
  obtain ⟨s, hrun, hs⟩ := plays_any Queued Sample.both Sample.lost Sample.finalising
    (by decide +kernel)
  obtain ⟨w, todo, hleader, ha, hanswer⟩ := Sample.finalising_up hs
  exact ⟨s, hrun, hs, no_record_is_final hrun hleader ha hanswer .refl⟩

/-- The follower admits an attempt that the leader has terminated on its answer. -/
theorem overtaken_attempt_starts :
    ¬ ∀ (leaderId followerId routeId : Nat) (s s' : Route) (w : World) (todo : List Action)
      (a : Attempt), Reach Step anyLabel (init leaderId followerId routeId) s →
      s.leader = .up w (.terminate .bothEmptyVerified :: todo) → w.mem.attempt = some a →
      w.mem.peerLeg.status = .noAttemptRecord → Reach Step anyLabel s s' →
      s'.follower.disk.rowOf a.attemptId = none ∧
        ¬s'.follower.disk.entrySent (.cell a.attemptId followerId .entry) := by
  intro h
  obtain ⟨s, hrun, hs⟩ := plays_any anyLabel Sample.both Sample.overtaken
    (fun s => Sample.finalising s && (plays anyLabel s Sample.flushed).any fun s' =>
      (s'.follower.disk.rowOf 100).isSome) (by decide +kernel)
  obtain ⟨hfinal, hlater⟩ := Bool.and_eq_true_iff.1 hs
  obtain ⟨w, todo, hleader, ha, hanswer⟩ := Sample.finalising_up hfinal
  obtain ⟨s', hrun', hs'⟩ := plays_any anyLabel s Sample.flushed _ hlater
  have hnone := (h 1 2 7 s s' w todo _ hrun hleader ha hanswer hrun').1
  change s'.follower.disk.rowOf 100 = none at hnone
  rw [hnone] at hs'
  cases hs'

end PairCell.Route
