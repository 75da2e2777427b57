import Mathlib.Data.Rat.Init
import Mathlib.Data.Rat.Defs
import PairCell.Relay

/-!
# The data of a pair execution cell

The records a cell keeps in memory and in its database, the broker requests it
makes and the envelopes it exchanges with its peer.  Identifiers, hashes and
times are numbers; prices and volumes are exact decimals.
-/

namespace PairCell

inductive Role where
  | leader | follower
  deriving DecidableEq, Repr

inductive Direction where
  | long | short
  deriving DecidableEq, Repr

/-- `live` sends to the broker; `shadow` simulates. -/
inductive Mode where
  | live | shadow
  deriving DecidableEq, Repr

structure Quote where
  bid : Rat
  ask : Rat
  deriving DecidableEq, Repr

/-- The immutable attempt a leader decides and a follower admits. A number stands for each
of its identifiers, which are strings. -/
structure Attempt where
  attemptId : Nat
  policyHash : Nat
  routeId : Nat
  universeGeneration : Nat
  productId : Nat
  symbol : String
  leaderDirection : Direction
  followerDirection : Direction
  lots : Rat
  leaderQuote : Quote
  followerQuote : Quote
  leaderPlanVersion : Nat
  followerPlanVersion : Nat
  leaderRough : Rat × Rat
  followerRough : Rat × Rat
  fillingMode : Nat
  confirmationTimeoutSeconds : Nat
  deriving DecidableEq, Repr

namespace Attempt

def directionOf (a : Attempt) : Role → Direction
  | .leader => a.leaderDirection
  | .follower => a.followerDirection

def quoteOf (a : Attempt) : Role → Quote
  | .leader => a.leaderQuote
  | .follower => a.followerQuote

def roughOf (a : Attempt) : Role → Rat × Rat
  | .leader => a.leaderRough
  | .follower => a.followerRough

def entryOf (a : Attempt) (role : Role) : Rat :=
  match a.directionOf role with
  | .long => (a.quoteOf role).ask
  | .short => (a.quoteOf role).bid

end Attempt

/-! ## Broker effects -/

/-- A position or order ticket as text; a shadow fill has a ticket of its own. -/
inductive Ticket where
  | broker (number : Nat)
  | shadow (attemptId workerId : Nat)
  deriving DecidableEq, Repr

inductive EffectKind where
  | entry
  | protection
  | rollback
  | cancel (ticket : Ticket)
  | close (ticket : Ticket)
  deriving DecidableEq, Repr

/-- `{attempt}:{worker}:{kind}` for an effect of a cell, anything else otherwise. -/
inductive EffectId where
  | cell (attemptId workerId : Nat) (kind : EffectKind)
  | other (name : Nat)
  deriving DecidableEq, Repr

def EffectId.attempt? : EffectId → Option Nat
  | .cell a _ _ => some a
  | .other _ => none

/-- The request handed to `order_send` and recorded in the journal. -/
inductive Payload where
  | market (symbol : String) (volume : Rat) (direction : Direction) (fillingMode : Nat)
      (sl tp : Rat)
  | traderMarket (symbol : String) (volume : Rat) (direction : Direction)
      (fillingMode : Nat)
  | cancel (ticket : Ticket)
  | close (ticket : Ticket) (volume : Option Rat)
  | modifySlTp (symbol : String) (position : Option Ticket) (sl tp : Rat)
  deriving DecidableEq, Repr

/-- Whether the request opens a position with protection attached, as only a cell does. -/
def Payload.isEntry : Payload → Bool
  | .market .. => true
  | _ => false

def Payload.operation : Payload → String
  | .market .. | .traderMarket .. => "market"
  | .cancel _ => "cancel"
  | .close .. => "close"
  | .modifySlTp .. => "modify_sl_tp"

def successRetcodes : List Int := [10008, 10009]

def noChangesRetcode : Int := 10025

def priceOffRetcode : Int := 10021

/-- `_successful_broker_write`, of the `type` of a request and the number that its receipt
gives as `retcode`: a change of protections that changes nothing counts as done. -/
def successfulBrokerWrite {R : Type} [DecidableEq R] [IntCast R]
    (operation : Option String) (retcode : Option R) : Bool :=
  match retcode with
  | none => false
  | some code =>
      decide (∃ c ∈ successRetcodes, (c : R) = code) ||
        decide (operation = some "modify_sl_tp" ∧ code = (noChangesRetcode : R))

inductive EffectState where
  | prepared | sendStarted | receipt | observed
  deriving DecidableEq, Repr

/-- What `order_send` did: it raised, returned nothing, or returned a receipt. -/
inductive Response where
  | raised
  | nothing
  | receipt (retcode : Option Int) (encodable : Bool)
  deriving DecidableEq, Repr

/-- A response together with the volume the broker filled, which the
worker does not see. -/
structure Reply where
  response : Response
  fill : Rat := 0
  ticket : Nat := 0
  deriving DecidableEq, Repr

inductive Category where
  | completed | rejected | expiredNotStarted | unknownAfterSend
  deriving DecidableEq, Repr

structure BrokerWriteResult where
  category : Category
  receipt : Option (Option Int) := none
  deriving DecidableEq, Repr

/-! ## Broker observations -/

structure Position where
  ticket : Nat
  symbol : String
  side : Option Direction
  volume : Option Rat
  priceOpen : Option Rat
  sl : Option Rat
  tp : Option Rat
  deriving DecidableEq, Repr

structure Order where
  ticket : Nat
  symbol : String
  deriving DecidableEq, Repr

structure Snapshot where
  orders : List Order
  positions : List Position
  deriving DecidableEq, Repr

/-! ## The legs of an attempt -/

inductive EntryStatus where
  | pending | sent | rejected | expiredNotStarted | unknownAfterSend | filled
  deriving DecidableEq, Repr

inductive ProtectionStatus where
  | rough | precise | fallback | frozen
  deriving DecidableEq, Repr

structure Leg where
  attemptId : Nat
  role : Role
  rough : Option (Rat × Rat) := none
  entryEffectId : Option EffectId := none
  entryStatus : EntryStatus := .pending
  ticket : Option Ticket := none
  fillPrice : Option Rat := none
  observedVolume : Option Rat := none
  observedSl : Option Rat := none
  observedTp : Option Rat := none
  protectionEffectId : Option EffectId := none
  protectionStatus : ProtectionStatus := .rough
  preciseSl : Option Rat := none
  preciseTp : Option Rat := none
  lastProtectionUpdateAt : Option Nat := none
  closeEffectId : Option EffectId := none
  emptyVerified : Bool := false
  timerStartedAt : Option Nat := none
  attemptRelayed : Bool := false
  entryDispatched : Bool := false
  deriving DecidableEq, Repr

inductive Status where
  | unknown | pending | sent | rejected | expiredNotStarted | unknownAfterSend
      | filled | empty
  | protectionPrecise | protectionRoughFallback | protectionFrozen | protectionFailed
  | inconsistent | noAttemptRecord
  | other (text : String)
  deriving DecidableEq, Repr

def EntryStatus.report : EntryStatus → Status
  | .pending => .pending
  | .sent => .sent
  | .rejected => .rejected
  | .expiredNotStarted => .expiredNotStarted
  | .unknownAfterSend => .unknownAfterSend
  | .filled => .filled

/-- Statuses that are durable proof the peer created no broker exposure. -/
def peerNonSendStatuses : List Status := [.rejected, .expiredNotStarted, .noAttemptRecord]

def peerTerminalStatuses : List Status := peerNonSendStatuses ++ [.empty]

/-- A close or status reason; `shutdown` is what
`_is_operator_shutdown_reason` says of the text. -/
structure Reason where
  text : String
  shutdown : Bool := false
  deriving DecidableEq, Repr

def operatorShutdown : Reason := ⟨"operator_shutdown", true⟩

structure PeerLegView where
  status : Status := .unknown
  ticket : Option Ticket := none
  symbol : Option String := none
  side : Option Direction := none
  volume : Option Rat := none
  fillPrice : Option Rat := none
  sl : Option Rat := none
  tp : Option Rat := none
  reason : Reason := ⟨"", false⟩
  deriving DecidableEq, Repr

/-- The payload of a `leg_status` envelope. -/
structure LegStatus where
  attemptId : Nat
  status : Status
  ticket : Option Ticket := none
  symbol : Option String := none
  side : Option Direction := none
  volume : Option Rat := none
  fillPrice : Option Rat := none
  sl : Option Rat := none
  tp : Option Rat := none
  reason : Reason := ⟨"", false⟩
  productId : Option Nat := none
  receiptRetcode : Option Int := none
  deriving DecidableEq, Repr

/-- The envelopes of an attempt's life; every other kind is `other`. -/
inductive Message where
  | attempt (a : Attempt)
  | legStatus (l : LegStatus)
  | legStatusRequest (attemptId : Nat)
  | pairEntryConfirmed (attemptId : Nat)
  | pairEntryFailed (attemptId : Nat) (reason : String)
  | other (kind : Kind)
  deriving DecidableEq, Repr

def Message.kind : Message → Kind
  | .attempt _ => .attempt
  | .legStatus _ => .legStatus
  | .legStatusRequest _ => .legStatusRequest
  | .pairEntryConfirmed _ => .pairEntryConfirmed
  | .pairEntryFailed .. => .pairEntryFailed
  | .other k => k

/-! ## Rows of the cell database -/

inductive TerminalReason where
  | bothEmptyVerified
  | noLocalEffectWasEverPrepared
  | admissionRejected (reason : String)
  deriving DecidableEq, Repr

/-- The status a terminal attempt is reported with. -/
def terminalStatusFor : TerminalReason → Status
  | .admissionRejected _ => .rejected
  | _ => .empty

def TerminalReason.text : TerminalReason → String
  | .bothEmptyVerified => "both_empty_verified"
  | .noLocalEffectWasEverPrepared => "no_local_effect_was_ever_prepared"
  | .admissionRejected reason => "admission_rejected: " ++ reason

/-- A row of `cell_attempts`; `terminal` is empty while the attempt is unresolved. -/
structure AttemptRow where
  attempt : Attempt
  createdAt : Nat
  terminal : Option TerminalReason := none
  deriving DecidableEq, Repr

/-- A row of `cell_peer_leg`: a view, or the raw payload of a late status. -/
inductive PeerRow where
  | view (v : PeerLegView)
  | raw (payload : LegStatus)
  deriving DecidableEq, Repr

inductive DesiredState where
  | none | active | empty
  deriving DecidableEq, Repr

structure DesiredRow where
  desired : DesiredState
  attemptId : Option Nat
  pairConfirmed : Bool
  deriving DecidableEq, Repr

inductive ContainmentStop where
  | prepareFailed
  | invalidReplayEvidence
  | nonSuccessReplay
  | noConclusiveReceipt
  | ended (category : Category)
  deriving DecidableEq, Repr

/-- The reason an operator has to step in. -/
inductive Stop where
  | containment (effect : EffectId) (why : ContainmentStop)
  | noPeerProof (attemptId : Nat)
  | unattributed (attemptId : Nat)
  | foreignRoute (attemptId : Nat)
  deriving DecidableEq, Repr

/-- A row of `cell_transitions`; the events nothing reads back keep their text. -/
inductive TransitionEvent where
  | terminated (reason : TerminalReason)
  | closeRequested (reason : Reason)
  | note (event : String)
  deriving DecidableEq, Repr

structure Transition where
  attemptId : Option Nat
  event : TransitionEvent
  at_ : Nat
  deriving DecidableEq, Repr

inductive PairState where
  | idle | entering | entryUncertain | awaitingPairConfirmation | protecting | active
  | convergingEmpty | empty | needsHuman
  deriving DecidableEq, Repr

end PairCell
