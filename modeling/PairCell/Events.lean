import Mathlib.Data.Prod.Lex
import PairCell.Lib.Bytes
import PairCell.Lib.JsonText
import PairCell.Lib.Keyset

/-!
# The event table and its pages

Events are appended with the next number of a sequence and the time of a clock
that may go back.  A page is read in decreasing order of time and number, from a
cursor or by its number.
-/

namespace PairCell.Events

open Lib

structure Event (τ F : Type) where
  eventId : Int
  eventType : String
  payload : Json F
  occurredAt : τ

/-- What of the database, its time zone and the JSON reader the pages rely on. -/
structure Database (τ F : Type) where
  floats : FloatText F
  isoformat : τ → String
  /-- Nothing for a text that is no timestamp with a time zone. -/
  fromisoformat : String → Option τ
  fromisoformat_isoformat : ∀ t, fromisoformat (isoformat t) = some t
  /-- `lower(concat_ws(' ', event_type, CAST(payload AS VARCHAR))) LIKE ?` -/
  like : String → Event τ F → Bool
  /-- A text that is compared with a number. -/
  bigint : String → Option Int

inductive Failure where
  | ledgerError (message : String)
  | databaseError
deriving DecidableEq

variable {τ F : Type}

/-! ## The table -/

/-- The numbers are those of the sequence. -/
structure EventTable (τ F : Type) where
  rows : List (Event τ F)
  next : Int
  below : ∀ e ∈ rows, e.eventId < next
  distinct : (rows.map Event.eventId).Nodup

inductive Arrival (τ F : Type) where
  | event (eventType : String) (payload : Json F) (now : τ)
  | rolledBack

namespace EventTable

def event (t : EventTable τ F) (eventType : String) (payload : Json F) (now : τ) :
    EventTable τ F where
  rows := t.rows ++ [⟨t.next, eventType, payload, now⟩]
  next := t.next + 1
  below := by
    intro e he
    obtain he | he := List.mem_append.1 he
    · have hlt := t.below e he
      omega
    · rw [List.mem_singleton.1 he]
      exact Int.lt_succ _
  distinct := by
    rw [List.map_append, List.nodup_append]
    refine ⟨t.distinct, by simp, ?_⟩
    rintro id hid id' hid' rfl
    obtain ⟨e, he, rfl⟩ := List.mem_map.1 hid
    have hlt := t.below e he
    simp only [List.map_cons, List.map_nil, List.mem_singleton] at hid'
    omega

def skip (t : EventTable τ F) : EventTable τ F :=
  { t with
    next := t.next + 1
    below := fun e he => (t.below e he).trans (Int.lt_succ _) }

def arrive (t : EventTable τ F) : Arrival τ F → EventTable τ F
  | .event eventType payload now => t.event eventType payload now
  | .rolledBack => t.skip

def arriveAll (t : EventTable τ F) (arrivals : List (Arrival τ F)) : EventTable τ F :=
  arrivals.foldl arrive t

end EventTable

/-! ## Cursors -/

inductive Identifier where
  | number (n : Int)
  | text (s : String)
deriving DecidableEq

def Identifier.toJson : Identifier → Json F
  | .number n => .int n
  | .text s => .str s

/-- `isinstance(identifier, (str, int))`, where a truth value is a number. -/
def identifier? : Json F → Option Identifier
  | .int n => some (.number n)
  | .bool b => some (.number b.toNat)
  | .str s => some (.text s)
  | _ => none

structure Cursor (τ : Type) where
  timestamp : τ
  id : Identifier

section Cursor

variable (db : Database τ F)

def cursorFields (resource : String) (timestamp : τ) (identifier : Identifier) :
    List (String × Json F) :=
  [("resource", .str resource), ("timestamp", .str (db.isoformat timestamp)),
    ("id", identifier.toJson)]

def encodePageCursor (resource : String) (timestamp : τ)
    (identifier : Identifier) : String :=
  let payload := Utf8.encode (dumps db.floats ⟨true, false⟩
    (.obj (cursorFields db resource timestamp identifier)))
  String.ofList (Base64.strip (Base64.encode payload))

/-- The body of the `try`; a text in UTF-16 or UTF-32 is not read. -/
def readPageCursor (resource cursor : String) : Option (Cursor τ) := do
  if cursor.toList.any fun c => decide (128 ≤ c.toNat) then none
  else
    let payload ← Base64.decode? (Base64.fill cursor.toList)
    match loads db.floats (← Utf8.decode? payload) with
    | some (.obj fields) =>
        match Json.field? fields "timestamp", Json.field? fields "id",
          Json.field? fields "resource" with
        | some (.str timestamp), some identifier, some (.str named) => do
            let timestamp ← db.fromisoformat timestamp
            let identifier ← identifier? identifier
            if named = resource then some ⟨timestamp, identifier⟩ else none
        | _, _, _ => none
    | _ => none

def decodePageCursor (cursor : Option String) (resource : String) :
    Except Failure (Option (Cursor τ)) :=
  match cursor with
  | none => .ok none
  | some text =>
      match readPageCursor db resource text with
      | none => .error (.ledgerError "Invalid pagination cursor.")
      | some values => .ok (some values)

end Cursor

/-! ## Pages -/

structure Page (τ F : Type) where
  items : List (Event τ F)
  nextCursor : Option String
  totalItems : Nat

structure Filter where
  eventType : Option String
  query : Option String

variable [LinearOrder τ]

/-- The filter clauses. -/
def Filter.selects (db : Database τ F) (f : Filter) (e : Event τ F) : Bool :=
  (f.eventType.all fun eventType => decide (e.eventType = eventType)) &&
    f.query.all fun query => db.like query e

def Event.key (e : Event τ F) : τ ×ₗ Int := toLex (e.occurredAt, e.eventId)

/-- The rows before a cursor. -/
def before (timestamp : τ) (id : Int) (e : Event τ F) : Bool :=
  decide (e.occurredAt < timestamp ∨ (e.occurredAt = timestamp ∧ e.eventId < id))

/-- The clause of the cursor; without one there is none. -/
def cursorClause (db : Database τ F) : Option (Cursor τ) →
    Except Failure (Event τ F → Bool)
  | none => .ok fun _ => true
  | some ⟨timestamp, .number id⟩ => .ok (before timestamp id)
  | some ⟨timestamp, .text s⟩ =>
      match db.bigint s with
      | some id => .ok (before timestamp id)
      | none => .error .databaseError

/-- A page number is from one on. -/
def offsetOf (limit : Nat) : Option Nat → Except Failure Nat
  | none => .ok 0
  | some 0 => .error .databaseError
  | some (page + 1) => .ok (page * limit)

def pageOf (db : Database τ F) (items : List (Event τ F)) (hasMore : Bool)
    (totalItems : Nat) :
    Page τ F :=
  { items
    nextCursor :=
      if hasMore then
        items.getLast?.map fun e =>
          encodePageCursor db "events" e.occurredAt (.number e.eventId)
      else none
    totalItems }

def eventPage (db : Database τ F) (t : EventTable τ F) (limit : Nat)
    (cursor : Option String) (page : Option Nat) (f : Filter) :
    Except Failure (Page τ F) :=
  if cursor.isSome && page.isSome then
    .error (.ledgerError "Specify either a cursor or a page, not both.")
  else do
    let cursorValues ← decodePageCursor db cursor "events"
    let clause ← cursorClause db cursorValues
    let matching := t.rows.filter (f.selects db)
    let totalItems := matching.length
    let rowLimit := if page.isSome then limit else limit + 1
    let offset ← offsetOf limit page
    -- ORDER BY occurred_at DESC, event_id DESC
    let rows :=
      ((Keyset.descending Event.key (matching.filter clause)).drop offset).take rowLimit
    let hasMore := match page with
      | some page => decide (page * limit < totalItems)
      | none => decide (limit < rows.length)
    pure (pageOf db (rows.take limit) hasMore totalItems)

/-- Request after request with the cursor of the page before; the arrivals
stand between them. -/
def walk (db : Database τ F) (limit : Nat) (f : Filter) :
    EventTable τ F → Option String → List (List (Arrival τ F)) →
      Except Failure (List (Event τ F) × Option String)
  | t, cursor, [] => do
      let page ← eventPage db t limit cursor none f
      pure (page.items, page.nextCursor)
  | t, cursor, arrivals :: later => do
      let page ← eventPage db t limit cursor none f
      match page.nextCursor with
      | none => pure (page.items, none)
      | some next => do
          let rest ← walk db limit f (t.arriveAll arrivals) (some next) later
          pure (page.items ++ rest.1, rest.2)

end PairCell.Events
