import PairCell.Gate.Steps

/-!
# A sample pair

The configuration, policy, plans and events from which runs of the entry gate
are played.
-/

namespace PairCell.Gate.Sample

open Lib

def limits : Limits :=
  { strategyBudgetUsd := 1000, maximumMarginFraction := 1 / 2, maximumLossPerTradeUsd := 40
    dailyLossFraction := 3 / 100, tradeLossFraction := 2 / 100 }

def cfg (role : Role) : Config :=
  { workerId := if role = .leader then 1 else 2,
    peerWorkerId := if role = .leader then 2 else 1
    routeId := 7, role := role, declaredLimits := limits, dailyLossWarningThresholdUsd := 5
    nyDay := fun _ => 0 }

def policy : Policy :=
  { hash := 1, strategyBudgetUsd := 0, leaderRisk := limits, followerRisk := limits
    postReconnectCooldown := 100,
    planRetention := 1000, followerConfirmationTimeout := 10 }

def plan (direction : Direction) : SizingPlan :=
  { universeGeneration := 1, productId := 5, symbol := "EURUSD", direction := direction
    marginPerLot := some 100, localMaxLots := some 2, tickSize := some (1 / 10)
    profitTickValue := some 1, lossTickValue := some 1,
    volumeMin := some 1, volumeStep := some 1
    fillingMode := 0, minimumStopDistance := some (1 / 10) }

def plans : List SizingPlan := [plan .long, plan .short]

def market : Market :=
  { universe? := some ⟨1, [5]⟩, plans := plans, planRows := plans.map fun p => ⟨p, none⟩
    peerPlans := plans, peerPlanIndex := plans }

def facts : Facts :=
  { orders := some [], positions := some [], terminalConnected := true,
    marginHeadroomOk := true }

/-- An envelope the peer addresses to the worker of this role. -/
def heard (role : Role) (m : Message) : Event :=
  .envelope
    { routeId := 7, fromWorkerId := (cfg role).peerWorkerId,
      toWorkerId := (cfg role).workerId
      message := m }

def quote : Quote := ⟨100, 100⟩

def candidate : Candidate :=
  { attemptId := 11, productId := 5, leaderDirection := .long, leaderQuote := quote
    followerQuote := quote }

def on (ev : Event) : Label := .event {} ev

def ready (r : Role) : List Label :=
  match r with
  | .follower =>
      [on .freezePairingAcceptance, on (.readinessFacts 1 facts), on (.market market),
        on (heard .follower (.policy policy true))]
  | .leader =>
      [on (heard .leader (.pairingAcceptance 2 limits)), on (.readinessFacts 1 facts),
        on (.market market), on (heard .leader (.readiness ⟨true, none, false, true⟩)),
        on (.acceptPolicy policy),
        on (heard .leader (.readiness ⟨true, some 1, true, true⟩))]

/-- The follower publishes its remaining allowance. -/
def published (epoch version : Nat) (usd : Rat) : Label :=
  on (heard .leader (.remainingAllowance ⟨2, epoch, version, usd⟩))

/-- The leader's ranking has a candidate at this tick. -/
def decides (now : Nat) : Label := .event { candidate := some candidate } (.clockTick now)

/-- What the leader decides for the candidate. -/
def attempt : Attempt :=
  { attemptId := 11, policyHash := 1, routeId := 7, universeGeneration := 1, productId := 5
    symbol := "EURUSD", leaderDirection := .long,
    followerDirection := .short, lots := some 2
    leaderQuote := quote, followerQuote := quote, leaderPlanVersion := plan .long
    followerPlanVersion := plan .short,
    leaderAllowanceEpoch := 1, followerAllowanceEpoch := 1
    leaderAllowanceVersion := 0,
    followerAllowanceVersion := 1, leaderAllowedLossUsd := some 20
    followerAllowedLossUsd := some 20, leaderRough := (some 99, some 101)
    followerRough := (some 101, some 99), fillingMode := 0, decisionTime := 5
    confirmationTimeout := 10 }

/-- The cell after a list of labels. -/
def play (role : Role) (ls : List Label) : Cell := ls.foldl next (fresh (cfg role))

theorem reach_play (role : Role) (ls : List Label) :
    Reach Step (fun _ _ => True) (fresh (cfg role)) (play role ls) := by
  have any (c : Cell) : Along next (fun _ _ => True) c ls := by
    induction ls generalizing c with
    | nil => trivial
    | cons l ls ih => exact ⟨trivial, ih _⟩
  exact (any _).reach

end PairCell.Gate.Sample
