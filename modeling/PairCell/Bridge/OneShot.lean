import PairCell.Bridge.Frames

/-!
# One order, one child

The client starts a bridge for one `order_send`, writes one request and reads
one response.  The bridge checks the request and the account, sends the order,
shuts MT5 down and answers; what fails in it is answered as an error.
-/

namespace PairCell.Bridge

open Lib Lib.Json

variable {F : Type}

/-! ## What MT5 does -/

structure PyException where
  type : String
  /-- It is a `TypeError`, a `ValueError`, an `IndexError` or a `KeyError`. -/
  lookup : Bool
  /-- Nothing for a text with half of a surrogate pair. -/
  message : Option String
deriving DecidableEq

def bridgeError (message : String) : PyException := ⟨"BridgeError", false, some message⟩

/-- How a call ends: with a value, an `Exception`, another exception, or the end of the
process. -/
inductive Call (α : Type) where
  | returns (a : α)
  | raises (e : PyException)
  | interrupts
  | dies

namespace Call

variable {α β : Type}

def bind : Call α → (α → Call β) → Call β
  | returns a, f => f a
  | raises e, _ => raises e
  | interrupts, _ => interrupts
  | dies, _ => dies

instance : Monad Call where
  pure := returns
  bind := bind

def lift : Except PyException α → Call α
  | .ok a => returns a
  | .error e => raises e

def andFinally (body : Call α) (cleanup : Call Unit) : Call α :=
  match body with
  | dies => dies
  | _ => cleanup.bind fun _ => body

end Call

/-- A value of the MT5 package. -/
inductive MtValue (F : Type) where
  | none
  | bool (b : Bool)
  | int (n : Int)
  | float (x : FloatValue F)
  | str (s : Option String)
  | date (isoformat : String)
  | mapping (fields : List (Option String × MtValue F))
  /-- A value with an `_asdict`. -/
  | record (asDict : MtValue F)
  /-- The rows of a structured array. -/
  | table (rows : List (List (Option String × MtValue F)))
  | array (toList : MtValue F)
  | list (items : List (MtValue F))
  /-- A value that raises when it is read. -/
  | unreadable (e : PyException)
  | object (typeName : String)

structure Account where
  login : Option Rat
  server : Option String

structure Mt5 (F : Type) where
  imported : Bool
  initialized : Call Bool
  /-- Nothing if it is not a mapping. -/
  accountInfo : Call (Option Account)
  orderSend : List (String × Json F) → Call (MtValue F)
  shutdown : Call Unit
  /-- The operations that send nothing. -/
  reads : String → List (String × Json F) → Call (MtValue F)

/-! ## The result as JSON -/

/-- A later item of a dictionary replaces the value of an earlier one of the same key. -/
def putItem (items : List (Option String × Value F)) (k : Option String) (v : Value F) :
    List (Option String × Value F) :=
  if k ∈ items.map Prod.fst then items.map fun i => if i.1 = k then (k, v) else i
  else items ++ [(k, v)]

def textOf : Option String → Value F
  | some s => .str s
  | none => .other

def dictOf (items : List (Option String × Value F)) : Value F :=
  .dict ((items.foldl (fun d i => putItem d i.1 i.2) []).map fun i =>
    (match i.1 with
      | some s => Key.text s
      | none => Key.other, i.2))

/-- The `except` around a row. -/
def PyException.ofRow (e : PyException) : PyException :=
  if e.lookup then
    ⟨"BridgeError", false, e.message.map fun m =>
      "MT5 returned an unreadable structured row: " ++ m⟩
  else e

mutual

def jsonValue : MtValue F → Except PyException (Value F)
  | .none => .ok .none
  | .bool b => .ok (.bool b)
  | .int n => .ok (.int n)
  | .float (.finite x) => .ok (.float (.finite x))
  | .float _ => .error (bridgeError "MT5 returned a non-finite float")
  | .str s => .ok (textOf s)
  | .date isoformat => .ok (.str isoformat)
  | .mapping fields => (jsonFields fields).map dictOf
  | .record asDict => jsonValue asDict
  | .table rows => (jsonRows rows).map .list
  | .array toList => jsonValue toList
  | .list items => (jsonItems items).map .list
  | .unreadable e => .error e
  | .object typeName =>
      .error (bridgeError ("MT5 returned unsupported value type " ++ typeName))

def jsonFields : List (Option String × MtValue F) →
    Except PyException (List (Option String × Value F))
  | [] => .ok []
  | (k, v) :: fields => do
      let v ← jsonValue v
      let fields ← jsonFields fields
      .ok ((k, v) :: fields)

def jsonRows : List (List (Option String × MtValue F)) →
    Except PyException (List (Value F))
  | [] => .ok []
  | row :: rows => do
      let row ← (jsonFields row).mapError PyException.ofRow
      let rows ← jsonRows rows
      .ok (dictOf row :: rows)

def jsonItems : List (MtValue F) → Except PyException (List (Value F))
  | [] => .ok []
  | v :: items => do
      let v ← jsonValue v
      let items ← jsonItems items
      .ok (v :: items)

end

/-! ## The request in the child -/

def protocolVersion : Int := 1

def requestFields : List String := ["version", "id", "operation", "params"]

def noParamOperations : List String :=
  ["health", "constants", "initialize", "shutdown", "account_info",
    "terminal_info", "symbols_get", "orders_get", "positions_get", "last_error"]

def paramFields : List (String × List String) :=
  [("login", ["login", "password", "server"]),
   ("symbol_info", ["symbol"]),
   ("symbol_info_tick", ["symbol"]),
   ("symbol_select", ["symbol", "enable"]),
   ("copy_rates_range", ["symbol", "timeframe", "from", "to"]),
   ("copy_rates_from_pos", ["symbol", "timeframe", "start_pos", "count"]),
   ("copy_ticks_range", ["symbol", "from", "to", "flags"]),
   ("order_calc_margin", ["action", "symbol", "volume", "price"]),
   ("order_calc_profit", ["action", "symbol", "volume", "open_price", "close_price"]),
   ("order_check", ["request"]),
   ("order_send", ["request", "expected_login", "expected_server"])]

def orderRequestFields : List String :=
  ["action", "magic", "order", "symbol", "volume", "price", "stoplimit", "sl", "tp",
    "deviation", "type", "type_filling", "type_time", "expiration", "comment", "position",
    "position_by"]

def allowedParams (operation : String) : Option (List String) :=
  if operation ∈ noParamOperations then some []
  else (paramFields.find? fun p => p.1 = operation).map Prod.snd

def keys (fields : List (String × Json F)) : List String := fields.map Prod.fst

/-- `set(fields) == set(expected)` -/
def sameKeys (fields : List (String × Json F)) (expected : List String) : Bool :=
  (keys fields).all (fun k => decide (k ∈ expected)) &&
    expected.all (fun k => decide (k ∈ keys fields))

section Child

variable (fmt : FloatText F)
-- the `repr` of a text
variable (quoted : String → String)

def sortedText (names : List String) : String :=
  "[" ++ ", ".intercalate ((names.mergeSort fun a b => decide (a ≤ b)).map quoted) ++ "]"

def truthy : Json F → Bool
  | .null => false
  | .bool b => b
  | .int n => n ≠ 0
  | .float (.finite x) => fmt.repr x ≠ "0.0".toList && fmt.repr x ≠ "-0.0".toList
  | .float _ => true
  | .str s => s ≠ ""
  | .arr items => !items.isEmpty
  | .obj fields => !fields.isEmpty

def scalar : Json F → Bool
  | .float (.finite _) => true
  | .float _ | .arr _ | .obj _ => false
  | _ => true

def orderRequest (params : List (String × Json F)) :
    Except PyException (List (String × Json F)) :=
  match field? params "request" with
  | some (.obj request) =>
      let unknown := (keys request).filter fun k => k ∉ orderRequestFields
      if unknown ≠ [] then
        .error (bridgeError ("unknown order request fields: " ++
          sortedText quoted unknown))
      else if "action" ∉ keys request then
        .error (bridgeError "order request requires action")
      else if (field? request "comment").any (truthy fmt) ∨
          (field? request "magic").any fun v => !(v matches .null) then
        .error (bridgeError "MT5 orders must not set comment or magic number fields")
      else
        match request.find? fun f => !scalar f.2 with
        | some f =>
            .error (bridgeError ("order request field " ++ f.1 ++
              " has an unsupported value"))
        | none => .ok request
  | _ => .error (bridgeError "order request must be an object")

def validateRequest (request : List (String × Json F)) (allowMutation : Bool) :
    Except PyException (String × String × List (String × Json F)) := do
  let unknown := (keys request).filter fun k => k ∉ requestFields
  if unknown ≠ [] then
    throw (bridgeError ("unknown request fields: " ++ sortedText quoted unknown))
  match field? request "version" with
  | some (.int version) =>
      if version ≠ protocolVersion then throw (bridgeError "unsupported protocol version")
  | _ => throw (bridgeError "unsupported protocol version")
  let requestId ← match field? request "id" with
    | some (.str requestId) =>
        if requestId = "" ∨ 128 < requestId.length then
          throw (bridgeError
            "request id must be a non-empty string of at most 128 characters")
        else pure requestId
    | _ =>
        throw (bridgeError
          "request id must be a non-empty string of at most 128 characters")
  let operation ← match field? request "operation" with
    | some (.str operation) => pure operation
    | _ => throw (bridgeError "operation must be a string")
  let params ← match field? request "params" with
    | some (.obj params) => pure params
    | _ => throw (bridgeError "params must be an object")
  if operation = "order_send" ∧ !allowMutation then
    throw (bridgeError "mutation operation requires one-shot mode")
  if operation = "history_deals_get" then
    if !sameKeys params ["position"] && !sameKeys params ["from", "to"] then
      throw (bridgeError "history_deals_get requires position or an exact date range")
    return (requestId, operation, params)
  let allowed ← match allowedParams operation with
    | some allowed => pure allowed
    | none => throw (bridgeError ("unsupported operation " ++ quoted operation))
  let unknownParams := (keys params).filter fun k => k ∉ allowed
  if unknownParams ≠ [] then
    throw (bridgeError ("unknown parameters for " ++ operation ++ ": " ++
      sortedText quoted unknownParams))
  let missingParams := allowed.filter fun k => k ∉ keys params
  if missingParams ≠ [] then
    throw (bridgeError ("missing parameters for " ++ operation ++ ": " ++
      sortedText quoted missingParams))
  if operation = "order_check" ∨ operation = "order_send" then
    let _ ← orderRequest fmt quoted params
  return (requestId, operation, params)

def requiredText (params : List (String × Json F)) (field : String) :
    Except PyException String :=
  match field? params field with
  | some (.str value) =>
      if value = "" then .error (bridgeError (field ++ " must be a non-empty string"))
      else .ok value
  | _ => .error (bridgeError (field ++ " must be a non-empty string"))

def requiredInt (params : List (String × Json F)) (field : String) :
    Except PyException Int :=
  match field? params field with
  | some (.int value) => .ok value
  | _ => .error (bridgeError (field ++ " must be an integer"))

def requiredPositiveInt (params : List (String × Json F)) (field : String) :
    Except PyException Int := do
  let value ← requiredInt params field
  if value ≤ 0 then .error (bridgeError (field ++ " must be a positive integer"))
  else .ok value

/-- `_call` for `order_send`, before its `try`. -/
def checkAccount (m : Mt5 F) (params : List (String × Json F)) : Call Unit := do
  let ready ← m.initialized
  if !ready then Call.raises (bridgeError "one-shot MT5 initialization failed")
  else
    let account ← m.accountInfo
    match account with
    | none => Call.raises (bridgeError "one-shot MT5 account evidence is unavailable")
    | some account =>
        let login ← Call.lift (requiredPositiveInt params "expected_login")
        if account.login ≠ some (login : Rat) then
          Call.raises
            (bridgeError "one-shot MT5 account does not match the Worker identity")
        else
          let server ← Call.lift (requiredText params "expected_server")
          if account.server ≠ some server then
            Call.raises
              (bridgeError "one-shot MT5 account does not match the Worker identity")
          else pure ()

/-- The `try` of `_call` for `order_send`, and the orders it sends. -/
def sendOrder (m : Mt5 F) (params : List (String × Json F)) :
    Call (MtValue F) × List (List (String × Json F)) :=
  match orderRequest fmt quoted params with
  | .error e => ((Call.raises e).andFinally m.shutdown, [])
  | .ok request => ((m.orderSend request).andFinally m.shutdown, [request])

def call (m : Mt5 F) (operation : String) (params : List (String × Json F)) :
    Call (MtValue F) × List (List (String × Json F)) :=
  if operation = "order_send" then
    match checkAccount m params with
    | .returns () => sendOrder fmt quoted m params
    | .raises e => (.raises e, [])
    | .interrupts => (.interrupts, [])
    | .dies => (.dies, [])
  else (m.reads operation params, [])

def successResponse (requestId : String) (result : Value F) : List (Key F × Value F) :=
  [(.text "version", .int protocolVersion), (.text "id", .str requestId),
    (.text "ok", .bool true), (.text "result", result)]

def errorResponse (requestId : String) (error : PyException) : List (Key F × Value F) :=
  [(.text "version", .int protocolVersion), (.text "id", .str requestId),
    (.text "ok", .bool false),
    (.text "error", .dict [(.text "type", .str error.type),
      (.text "message", textOf error.message)])]

def handleRequest (m : Mt5 F) (request : List (String × Json F)) (allowMutation : Bool) :
    Call (List (Key F × Value F)) × List (List (String × Json F)) :=
  match validateRequest fmt quoted request allowMutation with
  | .error e => (.raises e, [])
  | .ok (requestId, operation, params) =>
      let called := call fmt quoted m operation params
      (called.1.bind fun value => (Call.lift (jsonValue value)).bind fun result =>
        .returns (successResponse requestId result), called.2)

def responseFrame (requestId : String) : Call (List (Key F × Value F)) → Option Bytes
  | .returns response => (encodeFrame fmt response).toOption
  | .raises error => (encodeFrame fmt (errorResponse requestId error)).toOption
  | .interrupts | .dies => none

/-- The frame that is written, if there is one, and the orders that are sent. -/
def serveOne (m : Mt5 F) (allowMutation : Bool) (stdin : List Input) :
    Option Bytes × List (List (String × Json F)) :=
  match readFrame fmt stdin with
  | .error _ => (none, [])
  | .ok (request, _) =>
      let requestId := match field? request "id" with
        | some (.str requestId) => requestId
        | _ => "invalid"
      let handled := handleRequest fmt quoted m request allowMutation
      (responseFrame fmt requestId handled.1, handled.2)

/-- The bridge with `--one-shot-mutation`. -/
def oneShotMain (m : Mt5 F) (stdin : List Input) :
    Option Bytes × List (List (String × Json F)) :=
  if m.imported then serveOne fmt quoted m true stdin else (none, [])

end Child

/-! ## The client -/

inductive ClientError where
  | remote (message : String)
  | notEncoded
  | notWritten
  | timedOut
  | invalidResponse
  | malformedResponse
  | unsupportedVersion
  | mismatchedId
deriving DecidableEq

def validateResponse (response : List (String × Json F)) : Except ClientError Unit :=
  match field? response "ok" with
  | some (.bool true) =>
      if sameKeys response ["version", "id", "ok", "result"] then .ok ()
      else .error .malformedResponse
  | some (.bool false) =>
      match field? response "error" with
      | some (.obj error) =>
          if !sameKeys response ["version", "id", "ok", "error"] ||
            !sameKeys error ["type", "message"] then
            .error .malformedResponse
          else
            match field? error "type", field? error "message" with
            | some (.str _), some (.str _) => .ok ()
            | _, _ => .error .malformedResponse
      | _ => .error .malformedResponse
  | _ => .error .malformedResponse

/-- The response is accepted as the answer to the request. -/
def acceptResponse (requestId : String) (response : List (String × Json F)) :
    Except ClientError (Json F) := do
  validateResponse response
  match field? response "version" with
  | some (.int version) => if version ≠ protocolVersion then throw .unsupportedVersion
  | _ => throw .unsupportedVersion
  match field? response "id" with
  | some (.str id) => if id ≠ requestId then throw .mismatchedId
  | _ => throw .mismatchedId
  match field? response "ok" with
  | some (.bool true) => return (field? response "result").getD .null
  | _ =>
      match field? response "error" with
      | some (.obj error) =>
          match field? error "message" with
          | some (.str message) => throw (.remote message)
          | _ => throw (.remote "None")
      | _ => throw (.remote "unknown bridge error")

/-- A call of `OneShotMutationClient.order_send`. -/
structure Order (F : Type) where
  request : List (Key F × Value F)
  expectedLogin : Int
  expectedServer : String

def Order.params (order : Order F) : List (Key F × Value F) :=
  [(.text "request", .dict order.request),
    (.text "expected_login", .int order.expectedLogin),
    (.text "expected_server", .str order.expectedServer)]

def requestFrame (fmt : FloatText F) (requestId operation : String)
    (params : List (Key F × Value F)) :
    Except Raised Bytes :=
  encodeFrame fmt
    [(.text "version", .int protocolVersion), (.text "id", .str requestId),
      (.text "operation", .str operation), (.text "params", .dict params)]

/-- `BridgeClient.request`, with the number of bytes that could be written before the
deadline and the responses that can be read. -/
def clientRequest (fmt : FloatText F) (requestId operation : String)
    (params : List (Key F × Value F)) (wrote : Nat) (responses : List Input) :
    Except ClientError (Json F) :=
  match requestFrame fmt requestId operation params with
  | .error _ => .error .notEncoded
  | .ok frame =>
      if wrote < frame.length then .error .notWritten
      else
        match readResponseBefore fmt responses with
        | .error .timedOut => .error .timedOut
        | .error _ => .error .invalidResponse
        | .ok (response, _) => acceptResponse requestId response

inductive Outcome (F : Type) where
  | returned (result : Json F)
  | remoteError (message : String)
  | outcomeUnknown (cause : ClientError)

def orderSend (fmt : FloatText F) (requestId : String) (order : Order F) (wrote : Nat)
    (responses : List Input) : Outcome F :=
  match clientRequest fmt requestId "order_send" order.params wrote responses with
  | .ok result => .returned result
  | .error (.remote message) => .remoteError message
  | .error cause => .outcomeUnknown cause

/-- One call with its child: what the client wrote is what the child reads, in any
chunks. -/
structure OneShot (F : Type) (fmt : FloatText F) where
  requestId : String
  order : Order F
  mt5 : Mt5 F
  wrote : Nat
  stdin : List Input
  responses : List Input
  fed : Cut stdin
    (((requestFrame fmt requestId "order_send" order.params).toOption.getD []).take wrote)

namespace OneShot

variable {fmt : FloatText F}

def outcome (s : OneShot F fmt) : Outcome F :=
  orderSend fmt s.requestId s.order s.wrote s.responses

def written (quoted : String → String) (s : OneShot F fmt) : Option Bytes :=
  (oneShotMain fmt quoted s.mt5 s.stdin).1

/-- The orders that `mt5.order_send` is called with. -/
def sent (quoted : String → String) (s : OneShot F fmt) : List (List (String × Json F)) :=
  (oneShotMain fmt quoted s.mt5 s.stdin).2

end OneShot

end PairCell.Bridge
