import Mathlib.Data.List.Dedup
import PairCell.Lib.Runs
import PairCell.Lib.Table
import PairCell.Types

/-!
# Releasing a quarantine on both Workers

A Worker that releases a symbol proposes one marker to its peer; the peer
applies it and acknowledges, and then the proposer applies it too.  The model
has both cells and the messages between them, which may be delivered in any
order, more than once or never.  Times are microseconds.
-/

namespace PairCell.Release

open Lib

def releaseProposalRetry : Nat := 5000000

def releaseProposalTimeout : Nat := 30000000

/-- What a quarantine row and a propagated quarantine carry. -/
structure Quarantine where
  offendingWorker : Role
  attemptId : Nat
  releaseMarker : Option Nat
  deriving DecidableEq, Repr

structure Proposal where
  proposalId : Nat
  symbol : String
  productIds : List String
  marker : Nat
  actor : Role
  reason : String
  requestedAt : Nat
  deriving DecidableEq, Repr

inductive Message where
  | proposal (proposalId : Nat) (symbol : String) (marker : Nat) (actor : Role)
      (reason : String)
  | response (proposalId : Nat) (ok : Bool) (reason : String) (applied : List String)
  deriving DecidableEq, Repr

inductive Ending where
  | applied | rejected
  deriving DecidableEq, Repr

structure Outcome where
  state : Ending
  proposalId : Nat
  symbol : String
  marker : Nat
  reason : String
  applied : List String
  peerApplied : List String
  deriving DecidableEq, Repr

/-- One cell.  `blocked` is its own test for an unresolved attempt, `products` those of its
installed universe with their symbols, and each pending proposal stands with the time it
was last sent. `outcomes` is the log of every outcome recorded. -/
structure Cell where
  now : Nat
  blocked : Bool
  products : List (String × String)
  quarantine : Table String Quarantine
  quarantineRelease : List (String × Role × Nat)
  releaseMarker : Table String Nat
  releaseProposals : List (Proposal × Nat)
  outcomes : List Outcome

namespace Cell

def empty : Cell := ⟨0, false, [], .empty, [], .empty, [], []⟩

/-- The installed products of the symbol and the quarantined ones that carry its name. -/
def releaseTargetProductIds (c : Cell) (symbol : String) : List String :=
  let installed := (c.products.filter fun p => p.2 == symbol).map Prod.fst
  let quarantined := c.quarantine.keys fun p _ =>
    p == symbol || (symbol ++ ":").toList.isPrefixOf p.toList
  (installed ++ quarantined).dedup.mergeSort fun a b => decide (a ≤ b)

/-- Local evidence takes this cell's own marker; a propagated quarantine must carry it.
Returns whether a row was inserted. -/
def quarantineProduct (c : Cell) (productId : String) (offendingWorker : Role)
    (attemptId : Nat) (releaseMarker : Option Nat) (localEvidence : Bool) : Cell × Bool :=
  let marker := c.releaseMarker.get productId
  if localEvidence = false ∧ releaseMarker ≠ marker then (c, false)
  else if (c.quarantine.get productId).isSome then (c, false)
  else if (productId, offendingWorker, attemptId) ∈ c.quarantineRelease then (c, false)
  else
    ({ c with
      quarantine :=
        c.quarantine.set productId ⟨offendingWorker, attemptId, marker⟩ }, true)

def releaseProductQuarantine (c : Cell) (productId : String) (observedAt : Nat) : Cell :=
  if c.blocked then c
  else
    { c with
      releaseMarker := c.releaseMarker.set productId observedAt
      quarantineRelease := match c.quarantine.get productId with
        | none => c.quarantineRelease
        | some q => (productId, q.offendingWorker, q.attemptId) :: c.quarantineRelease
      quarantine := c.quarantine.delete fun p _ => p == productId }

/-- Release every listed product under one marker; returns those that carry it then. -/
def releaseAll (c : Cell) (marker : Nat) : List String → Cell × List String
  | [] => (c, [])
  | productId :: rest =>
      let was := (c.quarantine.get productId).isSome
      let c' := c.releaseProductQuarantine productId marker
      let (c'', applied) := releaseAll c' marker rest
      if was = false ∨ c'.releaseMarker.get productId = some marker then
        (c'', productId :: applied)
      else (c'', applied)

def proposalMessage (p : Proposal) : Message :=
  .proposal p.proposalId p.symbol p.marker p.actor p.reason

/-- Refused while blocked; the marker proposed is this cell's clock. -/
def requestQuarantineRelease (c : Cell) (self : Role) (symbol reason : String)
    (uuid : Nat) :
    Option (Cell × Proposal) :=
  if c.blocked then none
  else
    let p : Proposal :=
      ⟨uuid, symbol, c.releaseTargetProductIds symbol, c.now, self, reason, c.now⟩
    some ({ c with releaseProposals := c.releaseProposals ++ [(p, c.now)] }, p)

/-- The stored marker is as late as the proposed one. -/
def stale (c : Cell) (marker : Nat) (productId : String) : Bool :=
  match c.releaseMarker.get productId with
  | none => false
  | some stored => decide (marker ≤ stored)

/-- The products of the symbol whose marker is not stale are released. -/
def acceptReleaseProposal (c : Cell) (proposalId : Nat) (symbol : String) (marker : Nat) :
    Cell × Message :=
  let fresh := (c.releaseTargetProductIds symbol).filter fun p => !c.stale marker p
  if c.blocked then (c, .response proposalId false "unresolved attempt" [])
  else
    let (c', applied) := c.releaseAll marker fresh
    (c', .response proposalId true "" applied)

def recordReleaseOutcome (c : Cell) (p : Proposal) (state : Ending) (reason : String)
    (applied peerApplied : List String) : Cell :=
  { c with
    outcomes := c.outcomes ++
      [⟨state, p.proposalId, p.symbol, p.marker, reason, applied, peerApplied⟩]
    releaseProposals := c.releaseProposals.filter fun q => q.1.proposalId != p.proposalId }

/-- The proposer releases every product of the symbol, whatever marker it has stored. -/
def acceptReleaseResponse (c : Cell) (proposalId : Nat) (ok : Bool) (reason : String)
    (peerApplied : List String) : Cell :=
  match c.releaseProposals.find? fun q => q.1.proposalId == proposalId with
  | none => c
  | some (p, _) =>
      if ok = false then
        c.recordReleaseOutcome p .rejected
          (if reason = "" then "the peer refused the release" else reason) [] peerApplied
      else
        let (c', applied) := c.releaseAll p.marker (c.releaseTargetProductIds p.symbol)
        c'.recordReleaseOutcome p .applied "" applied peerApplied

/-- Resend what is unanswered for the retry time, give up what is for the whole timeout. -/
def enforceReleaseProposalDeadline (c : Cell) : List (Proposal × Nat) → Cell × List Message
  | [] => (c, [])
  | (p, lastSentAt) :: rest =>
      if releaseProposalTimeout ≤ c.now - p.requestedAt then
        enforceReleaseProposalDeadline
          (c.recordReleaseOutcome p .rejected
            "the peer did not answer before the deadline" [] []) rest
      else if c.now - lastSentAt < releaseProposalRetry then
        enforceReleaseProposalDeadline c rest
      else
        let sent := { c with releaseProposals := c.releaseProposals.map fun q =>
          if q.1.proposalId = p.proposalId then (q.1, c.now) else q }
        let (c', messages) := enforceReleaseProposalDeadline sent rest
        (c', proposalMessage p :: messages)

end Cell

/-! ## Two cells and the messages between them -/

def peerOf : Role → Role
  | .leader => .follower
  | .follower => .leader

@[simp] theorem peerOf_peerOf (c : Role) : peerOf (peerOf c) = c := by cases c <;> rfl

theorem eq_or_peer (c d : Role) : d = c ∨ d = peerOf c := by
  cases c <;> cases d <;> simp [peerOf]

/-- `inFlight c` are the messages on their way to `c`; `requested` are all
proposals ever made. -/
structure World where
  cell : Role → Cell
  inFlight : Role → List Message
  requested : List Proposal

def World.start : World := ⟨fun _ => .empty, fun _ => [], []⟩

/-- `deliver` with `again` leaves a copy in flight.  The last six are what the rest of a
cell does to the data used here. -/
inductive Label where
  | request (c : Role) (symbol reason : String) (uuid : Nat)
  | deadline (c : Role)
  | deliver (c : Role) (m : Message) (again : Bool)
  | lose (c : Role) (m : Message)
  | clock (c : Role) (now : Nat)
  | settle (c : Role) (blocked : Bool)
  | install (c : Role) (products : List (String × String))
  | quarantine (c : Role) (productId : String) (attemptId : Nat)
  | propagated (c : Role) (productId : String) (attemptId : Nat)
      (releaseMarker : Option Nat)
  | restart (c : Role)

namespace World

def setCell (s : World) (c : Role) (x : Cell) : World :=
  { s with cell := fun d => if d = c then x else s.cell d }

def send (s : World) (c : Role) (ms : List Message) : World :=
  { s with inFlight := fun d => if d = c then s.inFlight d ++ ms else s.inFlight d }

def drop (s : World) (c : Role) (m : Message) : World :=
  { s with inFlight := fun d => if d = c then (s.inFlight d).erase m else s.inFlight d }

def handle (s : World) (c : Role) : Message → World
  | .proposal proposalId symbol marker _ _ =>
      let (x, reply) := (s.cell c).acceptReleaseProposal proposalId symbol marker
      (s.setCell c x).send (peerOf c) [reply]
  | .response proposalId ok reason applied =>
      s.setCell c ((s.cell c).acceptReleaseResponse proposalId ok reason applied)

def next (s : World) : Label → World
  | .request c symbol reason uuid =>
      match (s.cell c).requestQuarantineRelease c symbol reason uuid with
      | none => s
      | some (x, p) =>
          { (s.setCell c x).send (peerOf c) [Cell.proposalMessage p] with
            requested := s.requested ++ [p] }
  | .deadline c =>
      let (x, messages) :=
        (s.cell c).enforceReleaseProposalDeadline (s.cell c).releaseProposals
      (s.setCell c x).send (peerOf c) messages
  | .deliver c m again =>
      if m ∈ s.inFlight c then (if again then s else s.drop c m).handle c m else s
  | .lose c m => s.drop c m
  | .clock c now => s.setCell c { s.cell c with now := max (s.cell c).now now }
  | .settle c blocked => s.setCell c { s.cell c with blocked := blocked }
  | .install c products => s.setCell c { s.cell c with products := products }
  | .quarantine c productId attemptId =>
      s.setCell c ((s.cell c).quarantineProduct productId c attemptId none true).1
  | .propagated c productId attemptId releaseMarker =>
      s.setCell c
        ((s.cell c).quarantineProduct productId (peerOf c) attemptId releaseMarker false).1
  | .restart c => s.setCell c { s.cell c with releaseProposals := [] }

abbrev Step (s : World) (l : Label) (t : World) : Prop := t = s.next l

end World

end PairCell.Release
