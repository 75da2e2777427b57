import PairCell.Ledger.Run
import PairCell.Runtime.Play

/-!
# A Worker and the controller while they pair

The runtime of one Worker, the controller's ledger, and the session between
them.  The messages of a session wait on the wire in the order in which the
controller wrote them.  A Worker takes some of them off at a time and handles
the replies among them before the notifications.  A session may end at any
moment; what it still carried is gone, but a request that was sent can be served
until the next session is there.

The controller may do anything for the other Workers, except delete one.  A
reply that no budget depends on is not tied to a request.
-/

namespace PairCell

open Lib

/-! ## Messages -/

namespace Control

def reply? : Control → Option Nat
  | .pairingProposalResult true (some p) => some p
  | _ => none

def offer? : Control → Option Nat
  | .pairingProposed (some p) _ => some p
  | _ => none

/-- The route that the handler of the message adopts. -/
def view? : Control → Option RouteView
  | .roleResult true (some v) _ => some v
  | .routeSyncResult true (some v) => some v
  | .pairingDecisionResult true true (some v) => some v
  | .routeEstablished (some v) _ => some v
  | _ => none

end Control

def replies (ms : List Control) : List Nat := ms.filterMap Control.reply?

def offers (ms : List Control) : List Nat := ms.filterMap Control.offer?

inductive Request where
  | propose (followerWorkerId : Nat)
  | decide (proposalId : Nat) (accepted : Bool)
  | assertion (routeId : Nat) (stateVersion : Int)
  deriving DecidableEq, Repr

namespace Runtime

/-! ## What a handler sends and writes -/

def proposeAsks (r : Runtime) (x : Answers) (follower : Nat) : List Request :=
  if (r.readStartupBalance x).isSome && x.sent then [.propose follower] else []

def selectionAsks (r : Runtime) (x : Answers) : List Request :=
  match r.options.followerWorkerId with
  | some named => if r.proposalAttempts ≠ 0 then [] else r.proposeAsks x named
  | none => []

/-- Whether the push is answered with an acceptance. -/
def accepts (r : Runtime) (x : Answers) : Option Rat :=
  match x.refusal with
  | none => r.readStartupBalance x
  | some _ => none

def asks (r : Runtime) (x : Answers) : Control → List Request
  | .roleResult true none (some .leader) =>
      if r.options.unpair then [] else r.selectionAsks x
  | .availableFollowersResult true =>
      match x.chosen with
      | some follower => r.proposeAsks x follower
      | none => []
  | .pairingProposed (some p) _ => if x.sent then [.decide p (r.accepts x).isSome] else []
  | _ => []

/-- The record that the handler of the message freezes. -/
def freezes (r : Runtime) (x : Answers) : Control → Option FrozenBudget
  | .pairingProposalResult true (some p) => r.pendingBudget.map fun b =>
      ⟨p, .leader, b.1, b.2⟩
  | .pairingProposed (some p) leader =>
      (r.accepts x).map fun balance => ⟨p, .follower, leader.getD 0, balance⟩
  | _ => none

/-- `_advance_pairing`; the route sync it may ask for leaves the runtime as it is. -/
def advancePairing (r : Runtime) (x : Answers) : Runtime :=
  if r.hasCell || r.failedClosed then r
  else
    match r.pairingState with
    | .unstarted => if x.sent then { r with pairingState := .declaring } else r
    | .selecting => r.beginSelection x
    | _ => r

def advanceAsks (r : Runtime) (x : Answers) : List Request :=
  if r.hasCell || r.failedClosed then []
  else if r.pairingState = .selecting then r.selectionAsks x
  else []

/-- The crash comes in the handler of `m`: in every handler the file of the route is
written before that of the budget. -/
def torn (r : Runtime) (x : Answers) (m : Control) : Runtime :=
  { r with route := (r.control x m).route }

end Runtime

/-! ## The Worker, the session and the controller -/

structure Offer where
  proposalId : Nat
  leaderWorkerId : Nat
  followerWorkerId : Nat
  deriving DecidableEq, Repr

structure Pairing where
  runtime : Runtime
  ledger : ControlLedger := .empty
  live : Bool := false
  /-- Taken off the wire and not handled yet. -/
  turn : List Control := []
  wire : List Control := []
  asked : List Request := []
  proposals : List Offer := []
  origins : Table Nat Nat := .empty
  frozen : List FrozenBudget := []

structure Draws where
  connected : List Nat := []
  uuid : Nat := 0
  routeIds : Nat → Nat := id
  now : Nat := 0

def ControlLedger.RouteRecord.view (r : ControlLedger.RouteRecord) : RouteView :=
  { routeId := some r.routeId, leaderWorkerId := some r.leaderWorkerId
    followerWorkerId := some r.followerWorkerId, state := some r.state }

namespace Pairing

def init (workerId : Nat) (options : Options) : Pairing :=
  { runtime := .init workerId options }

def workerId (s : Pairing) : Nat := s.runtime.workerId

def flight (s : Pairing) : List Control := s.turn ++ s.wire

/-- Written to the session, when there is one. -/
def send (s : Pairing) (ms : List Control) : Pairing :=
  if s.live then { s with wire := s.wire ++ ms } else s

def refused : List Control := [.pairingDecisionResult false false none]

def reserve (s : Pairing) (l : ControlLedger) (o : Offer) : Pairing :=
  { s with ledger := l, proposals := o :: s.proposals }

def establish (s : Pairing) (l : ControlLedger) (p : Nat) (r : ControlLedger.RouteRecord) :
    Pairing :=
  { s with ledger := l, origins := s.origins.set r.routeId p }

def serve (s : Pairing) (e : Draws) : Request → Pairing
  | .propose follower =>
      match s.ledger.reservePairRouteProposal s.workerId follower e.connected
        e.uuid e.now with
      | (.ok _, l) =>
          (s.reserve l ⟨e.uuid, s.workerId, follower⟩).send
            [.pairingProposalResult true (some e.uuid)]
      | (.error _, l) => { s with ledger := l }.send [.pairingProposalResult false none]
  | .decide p accepted =>
      match s.ledger.pairRouteReservations.get p with
      | none => s.send refused
      | some row =>
          if row.followerWorkerId ≠ s.workerId then s.send refused
          else if !accepted then
            { s with ledger := (s.ledger.releasePairRouteReservation p).2 }.send
              [.pairingDecisionResult true false none]
          else
            match s.ledger.createPairRoute p e.connected e.routeIds e.now with
            | (.ok r, l) =>
                (s.establish l p r).send
                  [.pairingDecisionResult true true (some r.view),
                    .routeEstablished (some r.view) false]
            | (.error _, l) => { s with ledger := l }.send refused
  | .assertion routeId v =>
      match s.ledger.recordPairUnpairAssertion routeId s.workerId v with
      | (.ok a, l) =>
          { s with ledger := l }.send (.unpairAssertionResult true a.routeRemoved ::
            if a.routeRemoved then [.routeRemoved (some routeId) true] else [])
      | (.error _, l) => { s with ledger := l }.send [.unpairAssertionResult false false]

def operate (s : Pairing) (op : ControlLedger.Op) : Pairing :=
  match op, s.ledger.perform op with
  | .reservePairRouteProposal a b _ uuid _, (.ok (.proposal _), l) =>
      (s.reserve l ⟨uuid, a, b⟩).send
        (if b = s.workerId then [.pairingProposed (some uuid) (some a)] else [])
  | .createPairRoute p _ _ _, (.ok (.route r), l) =>
      (s.establish l p r).send
        (if r.leaderWorkerId = s.workerId then
          [.routeEstablished (some r.view) true] else [])
  | _, (_, l) => { s with ledger := l }

def Unused (s : Pairing) (uuid : Nat) : Prop := ∀ o ∈ s.proposals, o.proposalId ≠ uuid

instance (s : Pairing) (uuid : Nat) : Decidable (s.Unused uuid) :=
  inferInstanceAs (Decidable (∀ o ∈ s.proposals, o.proposalId ≠ uuid))

def Others (s : Pairing) : ControlLedger.Op → Prop
  | .reservePairRouteProposal a _ _ uuid _ => a ≠ s.workerId ∧ s.Unused uuid
  | .createPairRoute p _ _ _ =>
      ∀ row ∈ s.ledger.pairRouteReservations.get p, row.followerWorkerId ≠ s.workerId
  | .recordPairUnpairAssertion _ w _ => w ≠ s.workerId
  | .deleteWorker _ => False
  | _ => True

instance (s : Pairing) (op : ControlLedger.Op) : Decidable (s.Others op) := by
  unfold Others
  split <;> infer_instance

def Shows (s : Pairing) : Option RouteView → Prop
  | none => ∀ r row, s.ledger.pairRoutes.get r = some row → row.has s.workerId = false
  | some v => ∃ r row, s.ledger.pairRoutes.get r = some row ∧ row.has s.workerId = true ∧
      v.routeId = some r ∧ v.leaderWorkerId = some row.leaderWorkerId ∧
      v.followerWorkerId = some row.followerWorkerId

/-- A message that the controller may write without one of the operations above. -/
def Told (s : Pairing) : Control → Prop
  | .roleResult _ route _ => s.Shows route
  | .routeSyncResult _ route => s.Shows route
  | .pairingProposalResult accepted _ => accepted = false
  | .pairingDecisionResult _ paired _ => paired = false
  | .pairingProposed .. => False
  | .routeEstablished .. => False
  | _ => True

/-- The Worker has handled the first message of its turn. -/
def handled (s : Pairing) (x : Answers) (m : Control) (rest : List Control) : Pairing :=
  { s with
    runtime := s.runtime.control x m
    turn := rest
    asked := s.asked ++ s.runtime.asks x m
    frozen := s.frozen ++ (s.runtime.freezes x m).toList }

def hangup (s : Pairing) : Pairing := { s with live := false, turn := [], wire := [] }

/-- The replies of the first `n` messages come before the notifications. -/
def drained (s : Pairing) (n : Nat) : Pairing :=
  { s with
    turn := (s.wire.take n).filter Runtime.isResult ++
      (s.wire.take n).filter fun m => !Runtime.isResult m
    wire := s.wire.drop n }

end Pairing

inductive PairingLabel where
  | inner (l : RuntimeLabel)
  | drain (n : Nat)
  | handle (x : Answers)
  | advance (x : Answers)
  | assertion (v : Int)
  | lose (m : Control)
  | hangup
  | torn (x : Answers)
  | reconnect (x : Answers)
  | serve (e : Draws)
  | tell (m : Control)
  | operate (op : ControlLedger.Op)

/-- Steps of the cell, of its snapshots and of the agenda. -/
def RuntimeLabel.isInner : RuntimeLabel → Bool
  | .control .. | .rebuild _ => false
  | _ => true

inductive Pairing.Step : Pairing → PairingLabel → Pairing → Prop where
  | inner {s : Pairing} {l : RuntimeLabel} {r : Runtime} (hl : l.isInner = true)
      (hstep : Runtime.Step s.runtime l r) : Step s (.inner l) { s with runtime := r }
  | drain {s : Pairing} (n : Nat) (hturn : s.turn = []) : Step s (.drain n) (s.drained n)
  | handle {s : Pairing} {m : Control} {rest : List Control} (x : Answers)
      (hidle : s.runtime.idle = true) (hturn : s.turn = m :: rest) :
      Step s (.handle x) (s.handled x m rest)
  | advance {s : Pairing} (x : Answers) (hlive : s.live = true) (hturn : s.turn = [])
      (hidle : s.runtime.idle = true) :
      Step s (.advance x)
        { s with
          runtime := s.runtime.advancePairing x,
          asked := s.asked ++ s.runtime.advanceAsks x }
  | assertion {s : Pairing} {d : DurableRoute} (v : Int) (hlive : s.live = true)
      (hturn : s.turn = []) (hcell : s.runtime.hasCell = true)
          (hroute : s.runtime.route = some d) :
      Step s (.assertion v) { s with asked := s.asked ++ [.assertion d.routeId v] }
  | lose {s : Pairing} {m : Control} {before after : List Control} (hturn : s.turn = [])
      (hwire : s.wire = before ++ m :: after)
      (hfirst : ∀ b ∈ before, Runtime.isResult b ≠ Runtime.isResult m) :
      Step s (.lose m) { s with wire := before ++ after }
  | hangup {s : Pairing} (hlive : s.live = true) : Step s .hangup s.hangup
  | torn {s : Pairing} {m : Control} {rest : List Control} (x : Answers)
      (hidle : s.runtime.idle = true) (hturn : s.turn = m :: rest) :
      Step s (.torn x) { s with runtime := s.runtime.torn x m }.hangup
  | reconnect {s : Pairing} (x : Answers) (hlive : s.live = false) :
      Step s (.reconnect x)
        { s with runtime := s.runtime.rebuild x, live := true, asked := [] }
  | serve {s : Pairing} {q : Request} {rest : List Request} (e : Draws)
      (hasked : s.asked = q :: rest) (hunused : s.Unused e.uuid) :
      Step s (.serve e) ({ s with asked := rest }.serve e q)
  | tell {s : Pairing} (m : Control) (hm : s.Told m) : Step s (.tell m) (s.send [m])
  | operate {s : Pairing} (op : ControlLedger.Op) (hop : s.Others op) :
      Step s (.operate op) (s.operate op)

end PairCell
