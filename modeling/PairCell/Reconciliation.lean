import Mathlib.Data.Rat.Defs
import PairCell.Lib.Table

/-!
# Reconciliation of an account with the terminal

`MT5ReconciliationAdapter` polls the orders and positions of a terminal and
sends what has changed, and every ten minutes everything.  The receiver folds
what it accepts.  Times are in microseconds.
-/

namespace PairCell.Reconciliation

open Lib

/-! ## Records -/

inductive Value where
  | null
  | bool (b : Bool)
  | int (n : Int)
  | float (q : Rat)
  | infinite (negative : Bool)
  | nan
  | text (s : String)
  deriving DecidableEq

/-- What equal values have in common: a truth value, an integer and a float compare as
numbers. -/
inductive Content where
  | null
  | number (q : Rat)
  | infinite (negative : Bool)
  | text (s : String)
  deriving DecidableEq

namespace Value

/-- A NaN has no content: it is not even equal to itself. -/
def content? : Value → Option Content
  | .null => some .null
  | .bool b => some (.number (if b then 1 else 0))
  | .int n => some (.number n)
  | .float q => some (.number q)
  | .infinite negative => some (.infinite negative)
  | .nan => none
  | .text s => some (.text s)

def same (a b : Value) : Bool := a.content?.isSome && decide (a.content? = b.content?)

end Value

abbrev Fields := Table String Value

def fieldOf (record : Fields) (field : String) : Value := (record.get field).getD .null

/-- `_volume` -/
def volume (record : Fields) : Value :=
  (record.get "volume_current").getD (fieldOf record "volume")

def ticketOf (record : Fields) : Option Int :=
  match fieldOf record "ticket" with
  | .int n => some n
  | _ => none

inductive Entity where
  | order
  | position
  deriving DecidableEq

def Entity.text : Entity → String
  | .order => "order"
  | .position => "position"

/-- `_RELEVANT_FIELDS` -/
def relevantFields : Entity → List String
  | .order =>
      ["comment", "external_id", "magic", "price_stoplimit", "position_by_id",
        "position_id", "sl", "symbol", "time_expiration", "tp", "type",
        "type_filling", "type_time"]
  | .position => ["comment", "external_id", "identifier", "magic", "sl",
      "symbol", "tp", "type"]

/-! ## Reading the terminal -/

/-- An answer of the terminal; an item that is no mapping and no named tuple has no
fields. -/
inductive Answer where
  | nothing
  | invalid
  | items (items : List (Option Fields))

def evidence (value : Option Fields) (kind : String) : Except String Fields :=
  match value with
  | some fields => .ok fields
  | none => .error s!"The local MT5 terminal returned invalid {kind} evidence."

def withCommandId (record : Fields) : Fields :=
  match record.get "comment" with
  | some (.text comment) =>
      if "abt:".toList.isPrefixOf comment.toList then
        record.assign "control_plane_command_id" (.text comment)
      else record
  | _ => record

/-- `_records`, keyed by ticket -/
def records (answer : Answer) (e : Entity) : Except String (Table Int Fields) :=
  match answer with
  | .nothing => .error s!"The local MT5 terminal returned no {e.text} records."
  | .invalid => .error s!"The local MT5 terminal returned invalid {e.text} records."
  | .items items =>
      items.foldlM
        (fun (read : Table Int Fields) item => do
          let record := withCommandId (← evidence item e.text)
          match ticketOf record with
          | none => .error s!"The local MT5 terminal returned a {e.text} without a ticket."
          | some ticket => .ok (read.assign ticket record))
        .empty

/-! ## Changes -/

inductive Change where
  | created
  | stateChanged
  | volumeChanged
  | modified
  | closed
  deriving DecidableEq

structure Delta where
  entity : Entity
  ticket : Int
  change : Change
  record : Fields

def change? (e : Entity) (old : Option Fields) (record : Fields) : Option Change :=
  match old with
  | none => some .created
  | some old =>
      if !(fieldOf old "state").same (fieldOf record "state") then some .stateChanged
      else if !(volume old).same (volume record) then some .volumeChanged
      else if (relevantFields e).any fun f => !(fieldOf old f).same (fieldOf record f) then
        some .modified
      else none

/-- `_changes` -/
def changes (e : Entity) (previous current : Table Int Fields) : List Delta :=
  (current.rows.filterMap fun (ticket, record) =>
    (change? e (previous.get ticket) record).map fun c => ⟨e, ticket, c, record⟩) ++
  previous.rows.filterMap fun (ticket, record) =>
    if (current.get ticket).isNone then some ⟨e, ticket, .closed, record⟩ else none

inductive Message where
  | delta (cursor : Nat) (observedAt : Int) (d : Delta)
  | snapshot (cursor : Nat) (observedAt : Int) (account terminal : Fields)
      (orders positions : List Fields)

def Message.cursor : Message → Nat
  | .delta cursor .. => cursor
  | .snapshot cursor .. => cursor

/-! ## The receiver -/

/-- The envelope of `send_reconciliation`. -/
inductive Envelope where
  | workerSnapshot (snapshotBaseline : Nat) (observedAt : Int)
      (orders positions : List Fields)
  | workerBrokerDelta (eventId : Nat) (observedAt : Int) (entity : Entity) (remove : Bool)
      (record : Fields)

def envelope : Message → Envelope
  | .snapshot cursor observedAt _ _ orders positions =>
      .workerSnapshot cursor observedAt orders positions
  | .delta cursor observedAt d =>
      .workerBrokerDelta cursor observedAt d.entity (decide (d.change = .closed)) d.record

structure Account where
  orders : Table Int Fields
  positions : Table Int Fields

namespace Account

def empty : Account := ⟨.empty, .empty⟩

def of (a : Account) : Entity → Table Int Fields
  | .order => a.orders
  | .position => a.positions

def update (a : Account) (e : Entity)
    (f : Table Int Fields → Table Int Fields) : Account :=
  match e with
  | .order => { a with orders := f a.orders }
  | .position => { a with positions := f a.positions }

def upsert (t : Table Int Fields) (record : Fields) : Table Int Fields :=
  match ticketOf record with
  | some ticket => t.assign ticket record
  | none => t

def remove (t : Table Int Fields) (record : Fields) : Table Int Fields :=
  t.delete fun ticket _ => decide (ticketOf record = some ticket)

/-- A snapshot replaces everything, a delta one ticket of its entity. -/
def apply (a : Account) : Envelope → Account
  | .workerSnapshot _ _ orders positions =>
      ⟨orders.foldl upsert .empty, positions.foldl upsert .empty⟩
  | .workerBrokerDelta _ _ e closed record => a.update e fun t =>
      if closed then remove t record else upsert t record

end Account

/-! ## Polls -/

structure Adapter where
  cursor : Nat
  lastSnapshotAt : Option Int
  polled : Account

/-- What becomes of a message: the receiver may have accepted it also where `emit`
raises. -/
inductive Outcome where
  | accepted
  | refused
  | lost
  deriving DecidableEq

structure Poll where
  observedAt : Int
  account : Option Fields
  terminal : Option Fields
  orders : Answer
  positions : Answer
  -- of the messages in turn; those that are left are accepted
  outcomes : List Outcome

def Poll.read (p : Poll) : Except String (Fields × Fields × Account) := do
  let account ← evidence p.account "account"
  let terminal ← evidence p.terminal "terminal"
  let orders ← records p.orders .order
  let positions ← records p.positions .position
  return (account, terminal, ⟨orders, positions⟩)

structure System where
  adapter : Adapter
  -- the messages so far, and whether the receiver accepted them
  log : List (Message × Bool)

namespace System

/-- The fold of the accepted messages. -/
def received (s : System) : Account :=
  ((s.log.filter Prod.snd).map fun m => envelope m.1).foldl Account.apply .empty

/-- Take the next cursor and emit; `true` if `emit` returns. -/
def emit (s : System) (message : Nat → Message) (outcome : Outcome) : System × Bool :=
  let cursor := s.adapter.cursor + 1
  ({ adapter := { s.adapter with cursor := cursor }
     log := s.log ++ [(message cursor, decide (outcome ≠ .refused))] },
     decide (outcome = .accepted))

/-- The deltas one after the other; the outcomes that are left if all were emitted. -/
def emitDeltas (observedAt : Int) : List Delta → List Outcome → System →
    System × Option (List Outcome)
  | [], outcomes, s => (s, some outcomes)
  | d :: ds, outcomes, s =>
      match s.emit (.delta · observedAt d) (outcomes.headD .accepted) with
      | (s, true) => emitDeltas observedAt ds outcomes.tail s
      | (s, false) => (s, none)

def snapshotInterval : Int := 600000000

def snapshotDue (a : Adapter) (observedAt : Int) : Bool :=
  match a.lastSnapshotAt with
  | none => true
  | some last => decide (snapshotInterval ≤ observedAt - last)

def changesOf (a : Adapter) (current : Account) : List Delta :=
  if a.lastSnapshotAt.isSome then
    changes .order a.polled.orders current.orders ++
      changes .position a.polled.positions current.positions
  else []

/-- `poll`; `true` if it completes. -/
def poll (s : System) (p : Poll) : System × Bool :=
  match p.read with
  | .error _ => (s, false)
  | .ok (account, terminal, current) =>
      match s.emitDeltas p.observedAt (changesOf s.adapter current) p.outcomes with
      | (s, none) => (s, false)
      | (s, some outcomes) =>
          let s := { s with adapter := { s.adapter with polled := current } }
          if snapshotDue s.adapter p.observedAt then
            match s.emit
              (.snapshot · p.observedAt account terminal (current.orders.rows.map Prod.snd)
                (current.positions.rows.map Prod.snd)) (outcomes.headD .accepted) with
            | (s, true) =>
                ({ s with
                  adapter :=
                    { s.adapter with lastSnapshotAt := some p.observedAt } }, true)
            | (s, false) => (s, false)
          else (s, true)

def run (s : System) (polls : List Poll) : System :=
  polls.foldl (fun s p => (s.poll p).1) s

def start (initialCursor : Nat) : System := ⟨⟨initialCursor, none, .empty⟩, []⟩

end System

end PairCell.Reconciliation
