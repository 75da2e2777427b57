import PairCell.Lib.Runs
import PairCell.Market.Plans

/-!
# Two cells on one route

A call handles one event and then makes progress, part by part; the two cells
interleave freely.  Envelopes of each direction are delivered in order, may be
lost on the way, and a cell may be restarted over its database at any time.
-/

namespace PairCell.Market

open Lib

variable (discover : Discover) (size : SizingPlan → Nat)

namespace Cell

def acceptRelayEnvelope (c : Cell) : Message → Cell
  | .catalogSummary summary => c.acceptPeerCatalog discover summary
  | .discovered u => c.acceptUniverse discover u
  | .rediscoveryRequest requestId => c.serveRediscoveryRequest discover requestId
  | .rediscoveryResult ok reason generation hash requestId =>
      c.acceptRediscoveryResult ok reason generation hash requestId
  | .reseedRequest nonce => c.acceptReseedRequest nonce
  | .remainingAllowance epoch _ _ => c.notePeerPublisherEpoch epoch
  | .sizingPlans version generation index count plans =>
      c.acceptPeerPlanBatch version generation index count plans
  | .readiness r =>
      { c with peerEmptyClaim := r.brokerVerifiedEmpty,
               peerNothingUnresolved := r.nothingUnresolved }
  | .attempt a => c.handleAttempt a
  | .other => c

end Cell

/-- A local event. -/
inductive Event where
  | tick
  | localCatalog (entries : List CatalogEntry)
  | rediscovery (requestId : Nat)
  | peerReconnected (nonce : Nat)
  | policyAccepted (policy : StrategyPolicy)
  deriving DecidableEq, Repr

def Cell.handle (c : Cell) : Event → Cell
  | .tick => c
  | .localCatalog entries => c.acceptLocalCatalog discover entries
  | .rediscovery requestId => c.handleRediscoveryRequest discover requestId
  | .peerReconnected nonce => c.requestReseed (some nonce)
  | .policyAccepted policy => { c with policy := some policy }

/-- What happens around the modelled parts during one call. -/
structure Inputs where
  now : Nat
  facts : Facts
  -- the followed attempt ends while the event is handled, or at the end of the call
  finishedFirst : Bool
  finishedLast : Bool
  stopped : Bool
  built : Option BuiltPlans
  candidate : Option Candidate
  deriving DecidableEq, Repr

/-- The parts of `_progress`; a stopped cell only publishes. -/
def Inputs.progress (i : Inputs) : List Op :=
  (if i.finishedFirst then [Op.finish] else []) ++
    if i.stopped then [.publish]
    else
      [.installPending, .deadline] ++ (i.built.map Op.refresh).toList ++ [.publish] ++
        (i.candidate.map Op.create).toList ++ if i.finishedLast then [.finish] else []

def Cell.begin (c : Cell) (i : Inputs) : Cell :=
  { c with now := max c.now i.now, facts := i.facts }

def Cell.perform (c : Cell) : Op → Cell
  | .installPending => c.maybeInstallPendingUniverse discover
  | .deadline => c.enforceRediscoveryDeadline
  | .refresh built => c.refreshSizingPlans built
  | .publish => c.maybePublishState size
  | .create k => c.maybeCreateAttempt k
  | .finish => c.terminateAttempt

/-- The cell built again and recovered; an attempt without a leg is terminated at once. -/
def Cell.restart (c : Cell) (at' nonce : Nat) (legless : Bool) (i : Inputs) : Cell :=
  let c := c.reopen at'
  let c := (if legless then c.terminateAttempt else c).requestReseed (some nonce)
  { c with facts := i.facts, todo := if c.attempt.isSome then i.progress else [] }

structure Pair where
  leader : Cell
  follower : Cell
  deriving DecidableEq, Repr

namespace Pair

def fresh : Pair := ⟨.fresh .leader, .fresh .follower⟩

def cell (s : Pair) : Role → Cell
  | .leader => s.leader
  | .follower => s.follower

def setCell (s : Pair) : Role → Cell → Pair
  | .leader, c => { s with leader := c }
  | .follower, c => { s with follower := c }

end Pair

def peerOf : Role → Role
  | .leader => .follower
  | .follower => .leader

inductive Label where
  | call (role : Role) (event : Event) (inputs : Inputs)
  | deliver (role : Role) (inputs : Inputs)
  | perform (role : Role)
  | lose (sender : Role) (index : Nat)
  | restart (role : Role) (at' nonce : Nat) (legless : Bool) (inputs : Inputs)
  deriving DecidableEq, Repr

def next (s : Pair) : Label → Option Pair
  | .call r event i =>
      if (s.cell r).todo = [] then
        some (s.setCell r
          { ((s.cell r).begin i).handle discover event with todo := i.progress })
      else none
  | .deliver r i =>
      match (s.cell r).todo, (s.cell (peerOf r)).out with
      | [], m :: rest =>
          let s := s.setCell (peerOf r) { s.cell (peerOf r) with out := rest }
          some (s.setCell r
            { ((s.cell r).begin i).acceptRelayEnvelope discover m with
              todo := i.progress })
      | _, _ => none
  | .perform r =>
      match (s.cell r).todo with
      | op :: ops =>
          some (s.setCell r { (s.cell r).perform discover size op with todo := ops })
      | [] => none
  | .lose r k =>
      if k < (s.cell r).out.length then
        some (s.setCell r { s.cell r with out := (s.cell r).out.eraseIdx k })
      else none
  | .restart r at' nonce legless i =>
      some (s.setCell r ((s.cell r).restart at' nonce legless i))

def Step (s : Pair) (l : Label) (t : Pair) : Prop := next discover size s l = some t

/-- No envelope is on its way and no call is under way. -/
def Pair.Quiet (s : Pair) : Prop :=
  s.leader.out = [] ∧ s.follower.out = [] ∧ s.leader.todo = [] ∧ s.follower.todo = []

instance (s : Pair) : Decidable s.Quiet := by unfold Pair.Quiet; infer_instance

end PairCell.Market
