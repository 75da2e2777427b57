import Mathlib.Data.Rat.Defs
import PairCell.Scheduling
import PairCell.Types

/-!
# One broker write

`_run_broker_write` takes its turn at the shared scheduler, crosses the send
boundary in the effect journal, calls `order_send` and records the receipt.
What MT5 returns may hold anything.
-/

namespace PairCell.BrokerWrite

open Lib Scheduling

/-! ## What MT5 returns -/

/-- A value of a result; `object` is whatever is none of the others. -/
inductive Value where
  | null
  | bool (b : Bool)
  | int (n : Int)
  | float (q : Rat)
  | infinite (negative : Bool)
  | nan
  | text (s : String)
  | list (items : List Value)
  | dict (items : List (Value × Value))
  | object

namespace Value

def number? : Value → Option Rat
  | .bool b => some (if b then 1 else 0)
  | .int n => some n
  | .float q => some q
  | _ => none

def isText : Value → Bool
  | .text _ => true
  | _ => false

def isNumber : Value → Bool
  | .bool _ | .int _ | .float _ | .infinite _ | .nan => true
  | _ => false

/-- A key that `json.dumps` turns into a text. -/
def isKey : Value → Bool
  | .null | .bool _ | .int _ | .float _ | .text _ => true
  | _ => false

/-- The keys can be sorted. -/
def sortable (keys : List Value) : Bool :=
  decide (keys.length ≤ 1) || keys.all isText || keys.all isNumber

mutual

/-- `json.dumps(..., sort_keys=True, allow_nan=False)` does not raise. -/
def dumpable : Value → Bool
  | .null | .bool _ | .int _ | .float _ | .text _ => true
  | .infinite _ | .nan | .object => false
  | .list items => dumpableItems items
  | .dict items => sortable (items.map Prod.fst) && dumpableFields items

def dumpableItems : List Value → Bool
  | [] => true
  | v :: items => dumpable v && dumpableItems items

def dumpableFields : List (Value × Value) → Bool
  | [] => true
  | (k, v) :: items => isKey k && dumpable v && dumpableFields items

end

end Value

abbrev Receipt := List (Value × Value)

def Receipt.get (r : Receipt) (field : String) : Value :=
  match r.find? fun f => match f.1 with | .text s => decide (s = field) | _ => false with
  | some f => f.2
  | none => .null

/-- A dictionary, or an object with attributes, such as a named tuple or another
mapping. -/
inductive Raw where
  | none
  | dict (items : List (Value × Value))
  | object (attributes : List (String × Value))

def receiptFields : List String :=
  ["retcode", "deal", "order", "volume", "price", "bid", "ask", "comment"]

/-- `_receipt` -/
def receiptOf : Raw → Option Receipt
  | .none => none
  | .dict items => some items
  | .object attributes =>
      let result := receiptFields.filterMap fun f =>
        (attributes.lookup f).map fun v => (.text f, v)
      if result.isEmpty then none else some result

def Receipt.retcode (r : Receipt) : Option Rat := (r.get "retcode").number?

/-- `order_send` returns a value or raises, maybe something that is no `Exception`. -/
inductive Answer where
  | returned (raw : Raw)
  | raised (isException : Bool) (text : String)

/-! ## The effect journal -/

inductive Evidence where
  | receipt (r : Receipt)
  | notStarted (category : Scheduling.Category) (reason : String)

structure Row where
  state : EffectState
  evidence : Option Evidence

def Row.unresolved (r : Row) : Bool :=
  match r.state with
  | .prepared | .sendStarted => true
  | .receipt | .observed => false

/-- `prepare` refuses an empty id. -/
structure Journal where
  rows : Table String Row
  named : rows.get "" = none

namespace Journal

def get (j : Journal) (effectId : String) : Option Row := j.rows.get effectId

def set (j : Journal) (effectId : String) (row : Row) : Journal :=
  if h : effectId = "" then j
  else ⟨j.rows.set effectId row, by rw [Table.get_set_ne _ _ (Ne.symm h)]; exact j.named⟩

def unresolved (j : Journal) (effectId : String) : Bool :=
  (j.get effectId).any Row.unresolved

end Journal

/-! ## The Worker -/

structure Desk (P H : Type) where
  scheduler : Scheduler P H
  journal : Journal
  -- the clock readings so far, and the effects for which `order_send` was called
  ticks : Nat
  sends : List String

/-- What `_dispatch_scheduled_trader_rpc` does with an item of somebody else: it may begin
its action and write the journal row of its command, and it completes the item whatever
happens. -/
structure Served where
  begins : Bool
  row : Option Row
  category : Scheduling.Category
  reason : String

structure Setting (P H : Type) where
  payloads : Payloads P H
  clock : Nat → Instant
  serveForeignSchedulerItem : Option (Item P H → Desk P H → Served)

/-- `BrokerWriteResult` -/
structure Result where
  category : Category
  receipt : Option Receipt

/-- `_map_scheduler_category` -/
def mapSchedulerCategory : Scheduling.Category → Category
  | .completed => .completed
  | .expiredNotStarted => .expiredNotStarted
  | .rejectedPreflight | .rejectedWorkerState => .rejected
  | .unknownAfterSend => .unknownAfterSend

inductive Failure where
  | typeOrValueError
  | notAnException
  | looping

inductive Dequeued (P H : Type) where
  | item (i : Item P H)
  | outcome (o : Outcome P)
  | nothing
  | looping

namespace Desk

variable {P H : Type}

/-- `_record_effect_observation` -/
def recordEffectObservation (d : Desk P H) (effectId : String)
    (observation : Evidence) : Desk P H :=
  if d.journal.unresolved effectId then
    { d with journal := d.journal.set effectId ⟨.observed, some observation⟩ }
  else d

/-- `_not_started` -/
def notStarted (d : Desk P H) (effectId : String) (o : Outcome P) : Desk P H × Result :=
  (d.recordEffectObservation effectId (.notStarted o.category o.reason),
    ⟨mapSchedulerCategory o.category, none⟩)

variable (w : Setting P H)

def admitRpc [DecidableEq H] (d : Desk P H) (r : Request P H) :
    Desk P H × Option (Outcome P) :=
  let (s, o) := d.scheduler.admitRpc w.payloads r (w.clock d.ticks)
  ({ d with scheduler := s, ticks := d.ticks + 1 }, o)

def next (d : Desk P H) : Desk P H × Scheduler.Next P H :=
  let (s, n) := d.scheduler.next (w.clock d.ticks) (w.clock (d.ticks + 1))
  ({ d with scheduler := s, ticks := d.ticks + 2 }, n)

def beforeBrokerSend (d : Desk P H) (i : Item P H) : Desk P H × Option (Outcome P) :=
  let (s, o) := d.scheduler.beforeBrokerSend i (w.clock d.ticks) (w.clock (d.ticks + 1))
  ({ d with scheduler := s, ticks := d.ticks + 2 }, o)

def complete (d : Desk P H) (i : Item P H) (category : Scheduling.Category)
    (reason : String) : Desk P H :=
  { d with
    scheduler := (d.scheduler.complete i category reason (w.clock d.ticks)).1
    ticks := d.ticks + 1 }

def writeRow (d : Desk P H) (effectId : String) : Option Row → Desk P H
  | some row => { d with journal := d.journal.set effectId row }
  | none => d

/-- An item of somebody else is served, or refused where no handler is wired. -/
def serveForeign (d : Desk P H) (i : Item P H) : Desk P H :=
  match w.serveForeignSchedulerItem with
  | none => d.complete w i .rejectedWorkerState
      "No Worker handler is wired to serve this scheduled Trader RPC."
  | some serve =>
      let served := serve i d
      let d := if served.begins then (d.beforeBrokerSend w i).1 else d
      (d.writeRow i.commandId served.row).complete w i served.category served.reason

/-- `_dequeue_own_item`; the number bounds the turns of the loop. -/
def dequeueOwnItem (effectId : String) : Nat → Desk P H → Desk P H × Dequeued P H
  | 0, d => (d, .looping)
  | n + 1, d =>
      match d.next w with
      | (d, .idle) => (d, .nothing)
      | (d, .outcome o) =>
          if o.requestId = effectId then (d, .outcome o) else dequeueOwnItem effectId n d
      | (d, .selected i) =>
          if i.commandId = effectId then (d, .item i)
          else dequeueOwnItem effectId n (d.serveForeign w i)

def writeRequest (effectId : String) (payload : P) (priority : Priority) : Request P H :=
  { requestId := effectId, kind := "operation", payload := payload,
    commandId := .value effectId
    priority := .value priority, effectId := some effectId }

/-- The part before the send boundary: a result that is decided already, or the item that
begins. -/
def takeTurn [DecidableEq H] (d : Desk P H) (effectId : String) (payload : P)
    (priority : Priority) :
    Desk P H × Except Failure (Result ⊕ Item P H) :=
  match d.admitRpc w (writeRequest effectId payload priority) with
  | (d, some o) =>
      let (d, r) := d.notStarted effectId o
      (d, .ok (.inl r))
  | (d, none) =>
      match d.dequeueOwnItem w effectId (d.scheduler.queuedCount + 1) with
      | (d, .looping) => (d, .error .looping)
      | (d, .nothing) => (d, .ok (.inl ⟨.unknownAfterSend, none⟩))
      | (d, .outcome o) =>
          let (d, r) := d.notStarted effectId o
          (d, .ok (.inl r))
      | (d, .item i) =>
          match d.beforeBrokerSend w i with
          | (d, some o) =>
              let (d, r) := d.notStarted effectId o
              (d, .ok (.inl r))
          | (d, none) => (d, .ok (.inr i))

def unknown (reason : String) : Except Failure Result × Scheduling.Category × String :=
  (.ok ⟨.unknownAfterSend, none⟩, .unknownAfterSend, reason)

/-- From the send boundary to the receipt; the last two are for `finally`. -/
def send (d : Desk P H) (effectId : String) (operation : Option String) (answer : Answer) :
    Desk P H × Except Failure Result × Scheduling.Category × String :=
  match d.journal.get effectId with
  | none =>
      (d, unknown
        ("the effect journal refused the send_started boundary: " ++
          "Broker effect was not prepared."))
  | some row =>
      if row.state ≠ .prepared then
        (d, unknown
          ("the effect journal refused the send_started boundary: " ++
            "A prepared broker effect must not be sent again."))
      else
        let d :=
          { d with journal := d.journal.set effectId ⟨.sendStarted, none⟩,
                   sends := effectId :: d.sends }
        match answer with
        | .raised true text =>
            (d, unknown s!"the MT5 call raised after send_started: {text}")
        | .raised false _ =>
            (d, .error .notAnException, .unknownAfterSend,
              "the broker write ended without a conclusive result")
        | .returned raw =>
            match receiptOf raw with
            | none => (d, unknown "MT5 returned no usable receipt after send_started")
            | some receipt =>
                -- `json.dumps` raises past the handler of journal errors
                if Value.dumpable (.dict receipt) then
                  let d :=
                    { d with
                      journal :=
                        d.journal.set effectId ⟨.receipt, some (.receipt receipt)⟩ }
                  let category :=
                    if successfulBrokerWrite operation receipt.retcode then .completed
                    else .rejected
                  (d, .ok ⟨category, some receipt⟩, .completed, "broker receipt observed")
                else
                  (d, .error .typeOrValueError, .unknownAfterSend,
                    "the broker write ended without a conclusive result")

/-- `_run_broker_write` -/
def runBrokerWrite [DecidableEq H] (d : Desk P H) (effectId : String) (payload : P)
    (priority : Priority) (answer : Answer) :
    Desk P H × Except Failure Result :=
  match d.takeTurn w effectId payload priority with
  | (d, .error failure) => (d, .error failure)
  | (d, .ok (.inl r)) => (d, .ok r)
  | (d, .ok (.inr i)) =>
      let (d, r, category, reason) := d.send effectId (w.payloads.operation payload) answer
      (d.complete w i category reason, r)

end Desk

end PairCell.BrokerWrite
