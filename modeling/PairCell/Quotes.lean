import Mathlib.Data.Int.Order.Basic
import PairCell.Lib.Revisions
import PairCell.Lib.Table

/-!
# Quotes and decisions

The quotes that a cell stores of its own broker and of its peer's, and the
quote revisions that a leader has decided on.  `Rest` is what else a quote
holds: prices, times and the calibration of the broker clock.  The relay
delivers envelopes in order; it may repeat one and it may lose one.
-/

namespace PairCell.Quotes

open Lib

variable {Rest : Type}

structure Quote (Rest : Type) where
  productId : String
  recoveryEpoch : String
  sequence : Int
  rest : Rest

abbrev QuoteKey := String × Int × String × Int

def quoteKey (own peer : Quote Rest) : QuoteKey :=
  (own.recoveryEpoch, own.sequence, peer.recoveryEpoch, peer.sequence)

/-! ## Own quotes -/

structure Feed (Rest : Type) where
  localQuotes : Table String (Quote Rest)
  quoteEpochs : Table String (List String)

namespace Feed

def seen (f : Feed Rest) (productId : String) : List String :=
  (f.quoteEpochs.get productId).getD []

def noteEpoch (f : Feed Rest) (productId epoch : String) : Feed Rest :=
  if epoch ∈ f.seen productId then f
  else { f with quoteEpochs := f.quoteEpochs.set productId (f.seen productId ++ [epoch]) }

def isPreviousEpoch (f : Feed Rest) (productId epoch : String) : Bool :=
  decide (epoch ∈ f.seen productId ∧ (f.seen productId).getLast? ≠ some epoch)

def store (f : Feed Rest) (q : Quote Rest) : Feed Rest :=
  let f := f.noteEpoch q.productId q.recoveryEpoch
  { f with localQuotes := f.localQuotes.set q.productId q }

/-- Whether `_accept_local_quote` stores the quote; `known` are the products that are and
stay in the universe. -/
def takes (known : String → Bool) (f : Feed Rest) (q : Quote Rest) : Bool :=
  known q.productId &&
    match f.localQuotes.get q.productId with
    | none => true
    | some existing =>
        !(decide (existing.recoveryEpoch = q.recoveryEpoch ∧
          q.sequence ≤ existing.sequence) ||
          f.isPreviousEpoch q.productId q.recoveryEpoch)

def acceptLocalQuote (known : String → Bool) (f : Feed Rest)
    (q : Quote Rest) : Feed Rest :=
  if f.takes known q then f.store q else f

/-- The quotes of a batch one after the other, and those that were stored, newest first. -/
def acceptBatch (known : String → Bool) : Feed Rest → List (Quote Rest) →
    Feed Rest × List (Quote Rest)
  | f, [] => (f, [])
  | f, q :: batch =>
      let (f', accepted) := acceptBatch known (f.acceptLocalQuote known q) batch
      (f', if f.takes known q then accepted ++ [q] else accepted)

end Feed

/-! ## The leader -/

structure Leader (Rest : Type) where
  feed : Feed Rest
  peerQuotes : Table String (Quote Rest)
  decidedQuotes : Table String QuoteKey
  -- no state of the cell: the own and peer quotes stored so far, newest first, and the
  -- attempts under the present universe
  stored : List (Quote Rest)
  storedPeer : List (Quote Rest)
  attempts : List (String × QuoteKey)

namespace Leader

/-- `_accept_peer_quote`; `usable` says that the payload can be read. -/
def acceptPeerQuote (known : String → Bool) (usable : Quote Rest → Bool) (l : Leader Rest)
    (q : Quote Rest) : Leader Rest :=
  if known q.productId && usable q then
    match l.peerQuotes.get q.productId with
    | some existing =>
        if existing.recoveryEpoch = q.recoveryEpoch ∧ q.sequence ≤ existing.sequence then l
        else { l with peerQuotes := l.peerQuotes.set q.productId q,
                      storedPeer := q :: l.storedPeer }
    | none =>
        { l with peerQuotes := l.peerQuotes.set q.productId q,
                 storedPeer := q :: l.storedPeer }
  else l

/-- A decision on the current quotes; `created` says that an attempt comes of it. The other
gates of a candidate may let any product pass. -/
def decideOn (l : Leader Rest) (productId : String) (created : Bool) : Leader Rest :=
  match l.feed.localQuotes.get productId, l.peerQuotes.get productId with
  | some own, some peer =>
      if l.decidedQuotes.get productId = some (quoteKey own peer) then l
      else
        { l with
          decidedQuotes := l.decidedQuotes.set productId (quoteKey own peer)
          attempts :=
            if created then (productId, quoteKey own peer) :: l.attempts else l.attempts }
  | _, _ => l

/-- The adoption of a universe generation; the quotes of a product that stays are kept. -/
def adoptUniverse (l : Leader Rest) : Leader Rest :=
  { l with decidedQuotes := .empty, attempts := [] }

end Leader

/-! ## Both Workers -/

structure System (Rest : Type) where
  leader : Leader Rest
  peer : Feed Rest
  relay : List (List (Quote Rest))
  /-- The recovery epoch of the peer's session; a cell that no session feeds may see any
  epochs. -/
  session : Option String
  -- the quotes that the peer has stored so far, newest first, and the epochs of its
  -- earlier processes
  published : List (Quote Rest)
  retired : List String

inductive Step (Rest : Type) where
  /-- A local quote or a batch of them, with any epochs and sequences. -/
  | localQuotes (batch : List (Quote Rest))
  | peerQuotes (batch : List (Quote Rest))
  | deliver
  | drop
  /-- The peer's cell is built again, on the session it had, on another one or on none. -/
  | peerRestart (session : Option String)
  | decideOn (productId : String) (created : Bool)
  | adoptUniverse

namespace System

variable (known : String → Bool) (usable : Quote Rest → Bool)

/-- The envelope of a batch holds the stored quote of each accepted one. -/
def publish (s : System Rest) (batch : List (Quote Rest)) : System Rest :=
  let (peer, accepted) := s.peer.acceptBatch known batch
  let envelope := accepted.reverse.filterMap fun q => peer.localQuotes.get q.productId
  { s with
    peer := peer
    published := accepted ++ s.published
    relay := if accepted.isEmpty then s.relay else s.relay ++ [envelope] }

/-- A quote has the recovery epoch of its session; without a session it may have any epoch
that no earlier process had. -/
def stamped (s : System Rest) (batch : List (Quote Rest)) : List (Quote Rest) :=
  match s.session with
  | some epoch => batch.map fun q => { q with recoveryEpoch := epoch }
  | none => batch.filter fun q => q.recoveryEpoch ∉ s.retired

/-- Whether the quotes of some product went on from this epoch to another one. The epoch of
a session is a random one, so it is no such epoch. -/
def left (s : System Rest) (epoch : String) : Bool :=
  s.published.any fun q => decide (q.recoveryEpoch = epoch) &&
    decide ((s.published.find? (·.productId = q.productId)).map Quote.recoveryEpoch ≠
      some epoch)

def restartPeer (s : System Rest) (session : Option String) : System Rest :=
  { s with
    peer := ⟨.empty, .empty⟩
    session := session
    retired := s.published.map Quote.recoveryEpoch ++ s.retired }

def next (s : System Rest) : Step Rest → System Rest
  | .localQuotes batch =>
      let (feed, accepted) := s.leader.feed.acceptBatch known batch
      { s with
        leader := { s.leader with feed := feed, stored := accepted ++ s.leader.stored } }
  | .peerQuotes batch => s.publish known (s.stamped batch)
  | .deliver =>
      match s.relay with
      | [] => s
      | envelope :: _ =>
          { s with
            leader := envelope.foldl (Leader.acceptPeerQuote known usable) s.leader }
  | .drop => { s with relay := s.relay.tail }
  | .peerRestart session => if session.any s.left then s else s.restartPeer session
  | .decideOn productId created => { s with leader := s.leader.decideOn productId created }
  | .adoptUniverse => { s with leader := s.leader.adoptUniverse }

def run (s : System Rest) (steps : List (Step Rest)) : System Rest :=
  steps.foldl (next known usable) s

def start (leaderEpochs peerEpochs : Table String (List String)) : System Rest :=
  { leader := ⟨⟨.empty, leaderEpochs⟩, .empty, .empty, [], [], []⟩
    peer := ⟨.empty, peerEpochs⟩
    relay := []
    session := none
    published := []
    retired := [] }

end System

end PairCell.Quotes
