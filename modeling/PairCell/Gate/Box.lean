import PairCell.Gate.Frame
import PairCell.Gate.Protection
import PairCell.Leg

/-!
# The mirrored box

After both legs are confirmed each worker derives one box of prices from the
attempt, the two fills and the two plans, and takes its own stop and target
from it.  The two workers look at the same facts from opposite roles.
-/

namespace PairCell.Gate

open Lib

/-! ## One worker's half of the box -/

/-- What `_mirrored_precise_protection` reads of the cell that runs it. -/
structure BoxView where
  role : Role
  policyKnown : Bool
  protectionStatus : ProtectionStatus
  planIndex : List SizingPlan
  peerPlanIndex : List SizingPlan
  fillPrice : Option Rat
  peerFillPrice : Option Rat
  deriving DecidableEq, Repr

/-- One leg as the box sees it. -/
structure BoxLeg where
  plan : SizingPlan
  fill : Rat
  allowed : Rat
  deriving DecidableEq, Repr

/-- The inner pair of the two legs' own stops and targets. -/
def jointBox (direction : Direction) (own peer : BoxLeg) (volume : Rat) :
    Option (Rat × Rat) := do
  let (long, short) := if direction = .long then (own, peer) else (peer, own)
  let (longSl, longTp) ← computeProtection long.fill .long volume long.plan long.allowed
  let (shortSl, shortTp) ← computeProtection short.fill .short volume
      short.plan short.allowed
  let low := max longSl shortTp
  let high := min longTp shortSl
  if low < min own.fill peer.fill ∧ max own.fill peer.fill < high ∧ low < high then
    some (low, high)
  else none

/-- The box of one leg on its own grid, rounded toward the entry: tighter, never wider. -/
def ownHalf (direction : Direction) (low high fill tick minimum : Rat) :
    Option (Rat × Rat) :=
  match direction with
  | .long =>
      let sl := roundUpToTick low tick
      let tp := roundDownToTick high tick
      if ¬(sl < fill ∧ fill < tp) then none
      else if fill - sl < minimum ∨ tp - fill < minimum then none
      else if sl ≤ 0 ∨ tp ≤ 0 then none
      else some (sl, tp)
  | .short =>
      let sl := roundDownToTick high tick
      let tp := roundUpToTick low tick
      if ¬(fill < sl ∧ tp < fill) then none
      else if sl - fill < minimum ∨ fill - tp < minimum then none
      else if sl ≤ 0 ∨ tp ≤ 0 then none
      else some (sl, tp)

namespace BoxView

variable (v : BoxView) (a : Attempt)

/-- The attempt-bound local or peer plan. -/
def attemptPlanForRole (role : Role) : Option SizingPlan :=
  let plans := if role = v.role then v.planIndex else v.peerPlanIndex
  (plans.find? fun plan => decide (plan = a.planVersionOf role)).filter fun plan =>
    decide (plan.productId = a.productId ∧ plan.direction = a.directionOf role)

def fillOf (role : Role) : Option Rat :=
  if role = v.role then v.fillPrice else v.peerFillPrice

def legOf (role : Role) : Option BoxLeg := do
  let plan ← v.attemptPlanForRole a role
  let fill ← v.fillOf role
  let allowed ← a.allowedLossOf role
  if allowed ≤ 0 then none else some ⟨plan, fill, allowed⟩

/-- The boundaries both legs share, when a box contains both fills. -/
def priceBox : Option (Rat × Rat) := do
  let own ← v.legOf a v.role
  let peer ← v.legOf a v.role.peer
  let volume ← a.lots
  if volume ≤ 0 then none else jointBox (a.directionOf v.role) own peer volume

/-- This worker's own stop and target on its own tick grid. -/
def mirroredPreciseProtection : Option (Rat × Rat) := do
  if v.protectionStatus ≠ .rough ∨ v.policyKnown = false then none
  else
    let (low, high) ← v.priceBox a
    let own ← v.legOf a v.role
    let tick ← own.plan.tickSize
    let minimum ← own.plan.minimumStopDistance
    if tick ≤ 0 ∨ minimum < 0 then none
    else ownHalf (a.directionOf v.role) low high own.fill tick minimum

end BoxView

/-- The two legs stand on opposite sides. -/
def Attempt.Mirrored (a : Attempt) : Prop := a.followerDirection = mirror a.leaderDirection

instance (a : Attempt) : Decidable a.Mirrored := inferInstanceAs (Decidable (_ = _))

theorem decideAttempt_mirrored {c : Cell} {x : Inputs} {a : Attempt}
    (h : c.decideAttempt x = some a) : a.Mirrored := by
  simp only [Cell.decideAttempt, Option.bind_eq_bind, Option.bind_eq_some_iff,
    Option.ite_none_left_eq_some, Option.some.injEq] at h
  obtain ⟨_, -, _, -, -, -, -, _, -, -, _, -, _, -, -, _, -, _, -, rfl⟩ := h
  rfl

/-- Whatever a leader is told, the attempt it opens in a step is mirrored. -/
theorem opened_mirrored {c c' : Cell} {l : Label} (hstep : Step c l c')
    (hrole : c'.cfg.role = .leader) (hentry : c'.entries ≠ c.entries) :
    ∃ a, c'.attempt = some a ∧ a.Mirrored := by
  have hadv : Advance (fun _ _ => True) c c' := by
    rw [hstep]
    exact advance_next c l fun _ _ => trivial
  cases hadv with
  | moves hm => exact absurd hm.entries hentry
  | opened cm x a hm ho =>
      cases ho with
      | admitted hfollower =>
          rw [show cm.cfg.role = .leader from hrole] at hfollower
          cases hfollower
      | created _ hd => exact ⟨a, rfl, decideAttempt_mirrored hd⟩

/-- The two workers know the same plans and the same fills of the attempt. -/
structure Shared (a : Attempt) (leader follower : BoxView) : Prop where
  leader_role : leader.role = .leader
  follower_role : follower.role = .follower
  plans : ∀ role, leader.attemptPlanForRole a role = follower.attemptPlanForRole a role
  leader_fill : leader.fillPrice = follower.peerFillPrice
  follower_fill : leader.peerFillPrice = follower.fillPrice

/-! ## The same box from both sides -/

section SameBox

variable {a : Attempt} {leader follower : BoxView}

theorem Shared.legOf_eq (h : Shared a leader follower) (role : Role) :
    leader.legOf a role = follower.legOf a role := by
  have hfill : leader.fillOf role = follower.fillOf role := by
    unfold BoxView.fillOf
    rw [h.leader_role, h.follower_role, h.leader_fill, h.follower_fill]
    cases role <;> rfl
  simp only [BoxView.legOf, h.plans role, hfill]

/-- The peer sees the same two legs with own and peer exchanged. -/
theorem jointBox_mirror (direction : Direction) (own peer : BoxLeg) (volume : Rat) :
    jointBox (mirror direction) peer own volume = jointBox direction own peer volume := by
  cases direction with
  | long => simp [jointBox, mirror, min_comm peer.fill, max_comm peer.fill]
  | short => simp [jointBox, mirror, min_comm peer.fill, max_comm peer.fill]

theorem Shared.priceBox_eq (h : Shared a leader follower) (hm : a.Mirrored) :
    leader.priceBox a = follower.priceBox a := by
  have hdir : a.followerDirection = mirror a.leaderDirection := hm
  unfold BoxView.priceBox
  rw [h.leader_role, h.follower_role]
  simp only [h.legOf_eq, Role.peer, Attempt.directionOf, hdir]
  cases follower.legOf a .leader with
  | none => cases follower.legOf a .follower <;> simp
  | some leaderLeg =>
      cases follower.legOf a .follower with
      | none => simp
      | some followerLeg => simp [jointBox_mirror]

end SameBox

/-! ## Inside the box -/

/-- A stop and a target on the tick grid that enclose the fill inside the box. -/
structure InBox (direction : Direction) (low high fill peerFill : Rat) (n : Numbers)
    (sl tp : Rat) : Prop where
  stop_grid : OnGrid n.tick sl
  target_grid : OnGrid n.tick tp
  stop_inside : low ≤ sl ∧ sl ≤ high
  target_inside : low ≤ tp ∧ tp ≤ high
  stop_side : onLossSide fill sl direction
  target_side : onWinSide fill tp direction
  stop_far : n.minimum ≤ |fill - sl|
  target_far : n.minimum ≤ |fill - tp|
  own_inside : low < fill ∧ fill < high
  peer_inside : low < peerFill ∧ peerFill < high

/-- No boundary of the box is farther than the leg's own stop. -/
def BoundsStop (low high sl : Rat) : Direction → Prop
  | .long => sl ≤ low
  | .short => high ≤ sl

section Half

variable {direction : Direction} {own peer : BoxLeg} {volume low high sl tp : Rat}

/-- What the joint box keeps of the leg that looks at it. -/
structure Joint (direction : Direction) (own peer : BoxLeg)
    (volume low high : Rat) (n : Numbers) (sl tp : Rat) : Prop where
  numbers : own.plan.numbers = some n
  built : Built own.fill direction volume own.allowed n sl tp
  bounds : BoundsStop low high sl direction
  own_inside : low < own.fill ∧ own.fill < high
  peer_inside : low < peer.fill ∧ peer.fill < high

theorem jointBox_joint (h : jointBox direction own peer volume = some (low, high)) :
    ∃ n sl tp, Joint direction own peer volume low high n sl tp := by
  cases direction with
  | long =>
      simp only [jointBox, if_true, Option.bind_eq_bind, Option.bind_eq_some_iff,
        Option.ite_none_right_eq_some, Option.some.injEq, Prod.mk.injEq] at h
      obtain ⟨⟨longSl, longTp⟩, hlong, ⟨shortSl, shortTp⟩, -, ⟨hlow, hhigh, -⟩,
          rfl, rfl⟩ := h
      obtain ⟨n, hn, hb⟩ := computeProtection_built hlong
      exact ⟨n, longSl, longTp, hn, hb, le_max_left _ _,
        ⟨(lt_min_iff.1 hlow).1, (max_lt_iff.1 hhigh).1⟩,
        (lt_min_iff.1 hlow).2, (max_lt_iff.1 hhigh).2⟩
  | short =>
      simp only [jointBox, reduceCtorEq, if_false, Option.bind_eq_bind,
        Option.bind_eq_some_iff, Option.ite_none_right_eq_some, Option.some.injEq,
        Prod.mk.injEq] at h
      obtain ⟨⟨longSl, longTp⟩, -, ⟨shortSl, shortTp⟩, hshort, ⟨hlow, hhigh, -⟩,
          rfl, rfl⟩ := h
      obtain ⟨n, hn, hb⟩ := computeProtection_built hshort
      exact ⟨n, shortSl, shortTp, hn, hb, min_le_right _ _,
        ⟨(lt_min_iff.1 hlow).1, (max_lt_iff.1 hhigh).1⟩,
        (lt_min_iff.1 hlow).2, (max_lt_iff.1 hhigh).2⟩

theorem onLossSide.nearer {fill near far low high : Rat} {direction : Direction}
    (hside : onLossSide fill near direction) (hinside : low ≤ near ∧ near ≤ high)
    (hbound : BoundsStop low high far direction) : |fill - near| ≤ |fill - far| := by
  cases direction with
  | long =>
      have hfar : far ≤ low := hbound
      have hnear : near < fill := hside
      rw [abs_of_pos (by linarith), abs_of_pos (by linarith)]
      linarith
  | short =>
      have hfar : high ≤ far := hbound
      have hnear : fill < near := hside
      rw [abs_of_neg (by linarith), abs_of_neg (by linarith)]
      linarith

/-- A stop between the box boundary and the fill costs no more than the leg's own stop. -/
theorem Joint.loss {n : Numbers} {stop target : Rat}
    (h : Joint direction own peer volume low high n sl tp)
    (hin : InBox direction low high own.fill peer.fill n stop target) :
    stopLossUsd own.fill stop n.tick n.lossValue volume ≤ own.allowed := by
  have hnear := hin.stop_side.nearer hin.stop_inside h.bounds
  have htick := h.built.tick_pos
  have hloss := h.built.loss_pos
  have hvolume := h.built.volume_pos
  calc stopLossUsd own.fill stop n.tick n.lossValue volume
      ≤ stopLossUsd own.fill sl n.tick n.lossValue volume := by
        unfold stopLossUsd
        gcongr
    _ ≤ own.allowed := h.built.stop_cost

theorem ownHalf_inBox {n : Numbers} (htick : 0 < n.tick) {fill peerFill : Rat}
    (hown : low < fill ∧ fill < high) (hpeer : low < peerFill ∧ peerFill < high)
    (h : ownHalf direction low high fill n.tick n.minimum = some (sl, tp)) :
    InBox direction low high fill peerFill n sl tp := by
  have hlow := roundUpToTick_ge low htick
  have hhigh := roundDownToTick_le high htick
  cases direction with
  | long =>
      simp only [ownHalf, Option.ite_none_left_eq_some, not_not, not_or, not_lt,
        Option.some.injEq, Prod.mk.injEq] at h
      obtain ⟨⟨hsl, htp⟩, ⟨hstop, htarget⟩, -, rfl, rfl⟩ := h
      refine ⟨onGrid_gridCeil _ _, onGrid_gridFloor _ _, ⟨hlow, by linarith⟩,
        ⟨by linarith, hhigh⟩, hsl, htp, ?_, ?_, hown, hpeer⟩
      · rwa [abs_of_pos (by linarith)]
      · rwa [abs_sub_comm, abs_of_pos (by linarith)]
  | short =>
      simp only [ownHalf, Option.ite_none_left_eq_some, not_not, not_or, not_lt,
        Option.some.injEq, Prod.mk.injEq] at h
      obtain ⟨⟨hsl, htp⟩, ⟨hstop, htarget⟩, -, rfl, rfl⟩ := h
      refine ⟨onGrid_gridFloor _ _, onGrid_gridCeil _ _, ⟨by linarith, hhigh⟩,
        ⟨hlow, by linarith⟩, hsl, htp, ?_, ?_, hown, hpeer⟩
      · rwa [abs_sub_comm, abs_of_pos (by linarith)]
      · rwa [abs_of_pos (by linarith)]

/-- The half of one worker: inside its box, and no costlier than it may be. -/
theorem mirroredPreciseProtection_half {v : BoxView} {a : Attempt}
    (h : v.mirroredPreciseProtection a = some (sl, tp)) :
    ∃ low high own peer n lots, v.priceBox a = some (low, high) ∧
      v.legOf a v.role = some own ∧
      v.legOf a v.role.peer = some peer ∧ own.plan.numbers = some n ∧ a.lots = some lots ∧
      InBox (a.directionOf v.role) low high own.fill peer.fill n sl tp ∧
      stopLossUsd own.fill sl n.tick n.lossValue lots ≤ own.allowed := by
  simp only [BoxView.mirroredPreciseProtection, Option.bind_eq_bind,
    Option.bind_eq_some_iff, Option.ite_none_left_eq_some] at h
  obtain ⟨-, ⟨low, high⟩, hbox, own, hown, tick, htick, minimum, hmin, hpos, h⟩ := h
  have hjoint := hbox
  simp only [BoxView.priceBox, hown, Option.bind_eq_bind, Option.bind_eq_some_iff,
    Option.some.injEq, exists_eq_left', Option.ite_none_left_eq_some] at hjoint
  obtain ⟨peer, hpeer, lots, hlots, -, hjoint⟩ := hjoint
  obtain ⟨n, boxSl, boxTp, hj⟩ := jointBox_joint hjoint
  have hn : n.tick = tick ∧ n.minimum = minimum := by
    have hnumbers := hj.numbers
    simp only [SizingPlan.numbers, htick, hmin, Option.bind_eq_bind,
      Option.bind_eq_some_iff, Option.some.injEq, exists_eq_left'] at hnumbers
    obtain ⟨_, -, _, -, rfl⟩ := hnumbers
    exact ⟨rfl, rfl⟩
  obtain ⟨rfl, rfl⟩ := hn
  have hin := ownHalf_inBox hj.built.tick_pos hj.own_inside hj.peer_inside h
  exact ⟨low, high, own, peer, n, lots, hbox, hown, hpeer, hj.numbers, hlots,
    hin, hj.loss hin⟩

end Half

/--
Every attempt that a leader opens is mirrored. Of a mirrored attempt, leader and
follower derive the same box, and what either takes from it lies on its own grid
inside the box around its fill, keeps the minimum distance and costs at most
what the attempt allows the leg to lose.
-/
theorem mirrored_box_is_one :
    (∀ (c c' : Cell) (l : Label), Step c l c' → c'.cfg.role = .leader →
      c'.entries ≠ c.entries →
      ∃ a, c'.attempt = some a ∧ a.Mirrored) ∧
    ∀ (a : Attempt) (leader follower : BoxView), a.Mirrored → Shared a leader follower →
      leader.priceBox a = follower.priceBox a ∧
        ∀ v, v = leader ∨ v = follower →
          ∀ sl tp, v.mirroredPreciseProtection a = some (sl, tp) →
          ∃ low high own peer n lots, v.priceBox a = some (low, high) ∧
            v.legOf a v.role = some own ∧ v.legOf a v.role.peer = some peer ∧
            own.plan.numbers = some n ∧ a.lots = some lots ∧
            InBox (a.directionOf v.role) low high own.fill peer.fill n sl tp ∧
            stopLossUsd own.fill sl n.tick n.lossValue lots ≤ own.allowed := by
  refine ⟨fun c c' l => opened_mirrored,
    fun a leader follower hm h => ⟨h.priceBox_eq hm, ?_⟩⟩
  intro v _ sl tp hv
  exact mirroredPreciseProtection_half hv

def Sample.view (role : Role) : BoxView :=
  { role := role, policyKnown := true, protectionStatus := .rough
    planIndex := plans, peerPlanIndex := plans,
    fillPrice := some 100, peerFillPrice := some 100 }

/-- Both workers close the sample pair between 99 and 101. -/
theorem sample_box_is_one :
    Sample.attempt.Mirrored ∧
      (Sample.view .leader).mirroredPreciseProtection Sample.attempt =
      some (99, 101) ∧
    (Sample.view .leader).priceBox Sample.attempt =
    (Sample.view .follower).priceBox Sample.attempt := by
  have hm : Sample.attempt.Mirrored := rfl
  have hs : Shared Sample.attempt (Sample.view .leader) (Sample.view .follower) := by
    refine ⟨rfl, rfl, ?_, rfl, rfl⟩
    intro role
    cases role <;> decide +kernel
  exact ⟨hm, by decide +kernel, (mirrored_box_is_one.2 _ _ _ hm hs).1⟩

end PairCell.Gate
