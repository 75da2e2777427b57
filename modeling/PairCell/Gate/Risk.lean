import PairCell.Gate.Play

/-!
# What an admitted attempt can lose

The follower checks the lots, the assigned loss and the place of the stop
separately.  The lots and the assigned loss are bounded for every payload; the
loss at the stop is bounded by the assigned loss when the stop is the one the
leader constructs.
-/

namespace PairCell.Gate

variable {c : Cell} {x : Inputs} {a : Attempt} {plan : SizingPlan}

def Attempt.followerEntry (a : Attempt) : Rat :=
  entryPrice a.followerQuote a.followerDirection

/-- The follower leg loses at most what it was assigned, on the plan named by the
attempt. -/
def LossWithin (a : Attempt) (plan : SizingPlan) (allowed lots sl : Rat) : Prop :=
  ∃ tick lossTickValue, plan.tickSize = some tick ∧
    plan.lossTickValue = some lossTickValue ∧
    stopLossUsd a.followerEntry sl tick lossTickValue lots ≤ allowed

/-- The numbers the follower's checks read out of the payload and its plan. -/
structure Checked (c : Cell) (a : Attempt) (plan : SizingPlan)
    (allowed lots sl : Rat) : Prop where
  named :
      c.planForValidation a.productId a.followerDirection a.followerPlanVersion = some plan
  allowed_eq : a.followerAllowedLossUsd = some allowed
  lots_eq : a.lots = some lots
  stop_eq : a.followerRough.1 = some sl
  allowed_le : 0 < allowed ∧ allowed ≤ c.allowedLegLossUsd
  lots_le : 0 < lots ∧ ∃ most, plan.localMaxLots = some most ∧ lots ≤ most
  side : onLossSide a.followerEntry sl a.followerDirection
  away : ∃ minimum, plan.minimumStopDistance = some minimum ∧
      minimum ≤ |a.followerEntry - sl|

theorem attachable_stop (h : Cell.roughProtectionAttachable a plan = true) :
    ∃ sl, a.followerRough.1 = some sl ∧ onLossSide a.followerEntry sl a.followerDirection ∧
      ∃ minimum, plan.minimumStopDistance = some minimum ∧
        minimum ≤ |a.followerEntry - sl| := by
  unfold Cell.roughProtectionAttachable at h
  split at h
  · next sl tp minimum hrough hmin =>
    simp only [Bool.and_eq_true, decide_eq_true_eq] at h
    obtain ⟨⟨-, hside⟩, hfar, -⟩ := h
    refine ⟨sl, by rw [hrough], ?_, minimum, hmin, hfar⟩
    unfold onLossSide Attempt.followerEntry
    cases hd : a.followerDirection with
    | long =>
        rw [hd] at hside
        exact (of_decide_eq_true hside).1
    | short =>
        rw [hd] at hside
        exact (of_decide_eq_true hside).2
  · cases h

theorem planRefusal_none (h : c.planRefusal a plan = none) :
    (∃ allowed, a.followerAllowedLossUsd = some allowed ∧ 0 < allowed ∧
      allowed ≤ c.allowedLegLossUsd) ∧
    (∃ lots, a.lots = some lots ∧ combinePairLots a.leaderPlanVersion plan = some lots) ∧
    Cell.roughProtectionAttachable a plan = true := by
  simp only [Cell.planRefusal, firstRefusal_eq_none, List.mem_cons,
    List.not_mem_nil, or_false, forall_eq_or_imp, forall_eq, refuseIf_eq_none,
    Bool.not_eq_eq_eq_not, Bool.not_false] at h
  obtain ⟨-, hloss, hlots, hrough⟩ := h
  refine ⟨?_, ?_, hrough⟩
  · split at hloss
    · cases hloss
    · next allowed heq =>
      simp only [firstRefusal_eq_none, List.mem_cons, List.not_mem_nil, or_false,
        forall_eq_or_imp, forall_eq, refuseIf_eq_none, decide_eq_false_iff_not, not_le,
        not_lt] at hloss
      exact ⟨allowed, heq, hloss⟩
  · split at hlots
    · rw [refuseIf_eq_none] at hlots
      split at hlots
      · cases hlots
      · next lots heq => exact ⟨lots, not_not.1 (of_decide_eq_false hlots), heq⟩
    · cases hlots

theorem admitted_checked (h : c.attemptAdmissionReason x a = none) :
    ∃ plan allowed lots sl, Checked c a plan allowed lots sl := by
  simp only [Cell.attemptAdmissionReason, firstRefusal_eq_none, List.mem_cons,
    List.not_mem_nil, or_false, forall_eq_or_imp, forall_eq] at h
  obtain ⟨-, -, -, -, -, -, -, -, -, -, hplan⟩ := h
  split at hplan
  · split at hplan <;> cases hplan
  · next plan hnamed =>
    obtain ⟨⟨allowed, hallowed, hloss⟩, ⟨lots, hlots, hsized⟩, hrough⟩ :=
      planRefusal_none hplan
    obtain ⟨sl, hsl, hside, haway⟩ := attachable_stop hrough
    exact ⟨plan, allowed, lots, sl, hnamed, hallowed, hlots, hsl, hloss,
      combinePairLots_le hsized, hside, haway⟩

/-- The stop of the payload is the one that is constructed for its assigned loss. -/
def Constructed (a : Attempt) (plan : SizingPlan) (allowed lots sl : Rat) : Prop :=
  ∃ tp, computeProtection a.followerEntry a.followerDirection lots plan
    allowed = some (sl, tp)

/-- The same attempt with a stop nine hundred away from the entry. -/
def Sample.farStop : Attempt := { attempt with followerRough := (some 1000, some 99) }

end PairCell.Gate
