import PairCell.Lib.Bytes
import PairCell.Lib.StrictJson

/-!
# Frames of the bridge

A frame is the length of a body in four bytes and the body, a JSON object in
UTF-8.  The reader gets the bytes in chunks of any sizes and is strict about the
body: its nesting, its keys and its numbers.
-/

namespace PairCell.Bridge

open Lib

def maxFrameBytes : Nat := 4 * 1024 * 1024

def maximumDepth : Int := 128

inductive Fault where
  | unexpectedEof
  | tooLarge (size : Nat)
  | duplicateKey (k : String)
  | invalidBody
  | notAnObject
  | notSerializable
deriving DecidableEq

/-- What the functions of a frame raise. -/
inductive Raised where
  | protocolError (fault : Fault)
  | unicodeDecodeError
  | jsonDecodeError
  | valueError
  | timedOut
deriving DecidableEq

variable {F : Type}

/-! ## Bodies -/

structure Scanner where
  depth : Int
  inString : Bool
  escaped : Bool
deriving DecidableEq

def Scanner.step (s : Scanner) (byte : UInt8) : Except Raised Scanner :=
  if s.inString then
    if s.escaped then .ok { s with escaped := false }
    else if byte = 92 then .ok { s with escaped := true }
    else if byte = 34 then .ok { s with inString := false }
    else .ok s
  else if byte = 34 then .ok { s with inString := true }
  else if byte = 91 ∨ byte = 123 then
    if maximumDepth < s.depth + 1 then .error .valueError
    else .ok { s with depth := s.depth + 1 }
  else if byte = 93 ∨ byte = 125 then .ok { s with depth := s.depth - 1 }
  else .ok s

def scan : Scanner → Bytes → Except Raised Scanner
  | s, [] => .ok s
  | s, byte :: rest => s.step byte >>= fun s => scan s rest

def rejectExcessiveNesting (body : Bytes) : Except Raised Unit :=
  (scan ⟨0, false, false⟩ body).map fun _ => ()

def parseBody (fmt : FloatText F) (body : Bytes) : Except Raised (Json F) := do
  rejectExcessiveNesting body
  match Utf8.decode? body with
  | none => .error .unicodeDecodeError
  | some text =>
      match strictLoads fmt text with
      | .ok v => .ok v
      | .error .syntaxError => .error .jsonDecodeError
      | .error .nonFinite => .error .valueError
      | .error (.duplicateKey k) => .error (.protocolError (.duplicateKey k))

def decodeJsonObject (fmt : FloatText F) (body : Bytes) :
    Except Raised (List (String × Json F)) :=
  match parseBody fmt body with
  | .error (.protocolError fault) => .error (.protocolError fault)
  | .error _ => .error (.protocolError .invalidBody)
  | .ok (.obj fields) => .ok fields
  | .ok _ => .error (.protocolError .notAnObject)

/-! ## Streams -/

inductive Input where
  | chunk (b : Bytes)
  | timeout

/-- The loop of `_read_exact` and of `_read_exact_before`; a read gives no more than it
asks for, and no bytes at the end of the stream. -/
def readExact : Nat → List Input → Except Raised (Bytes × List Input)
  | 0, stream => .ok ([], stream)
  | _ + 1, [] => .error (.protocolError .unexpectedEof)
  | _ + 1, .timeout :: _ => .error .timedOut
  | n + 1, .chunk b :: stream =>
      if b = [] then .error (.protocolError .unexpectedEof)
      else if b.length ≤ n + 1 then
        (readExact (n + 1 - b.length) stream).map fun p => (b ++ p.1, p.2)
      else .ok (b.take (n + 1), .chunk (b.drop (n + 1)) :: stream)

/-- `struct.unpack(">I", header)[0]` -/
def unpack (header : Bytes) : Nat := header.foldl (fun n b => n * 256 + b.toNat) 0

/-- `struct.pack(">I", n)` -/
def pack (n : Nat) : Bytes :=
  [UInt8.ofNat (n / 16777216), UInt8.ofNat (n / 65536), UInt8.ofNat (n / 256),
    UInt8.ofNat n]

def readFrame (fmt : FloatText F) (stream : List Input) :
    Except Raised (List (String × Json F) × List Input) := do
  let header ← readExact 4 stream
  let size := unpack header.1
  if maxFrameBytes < size then .error (.protocolError (.tooLarge size))
  else do
    let body ← readExact size header.2
    let fields ← decodeJsonObject fmt body.1
    .ok (fields, body.2)

def readResponseBefore (fmt : FloatText F) (stream : List Input) :
    Except Raised (List (String × Json F) × List Input) := readFrame fmt stream

/-! ## Encoding -/

/-- A key of a dictionary; `other` has no JSON text. -/
inductive Key (F : Type) where
  | text (s : String)
  | int (n : Int)
  | bool (b : Bool)
  | none
  | float (x : FloatValue F)
  | other

/-- A value; a text with half of a surrogate pair is an `other`. -/
inductive Value (F : Type) where
  | none
  | bool (b : Bool)
  | int (n : Int)
  | float (x : FloatValue F)
  | str (s : String)
  | list (items : List (Value F))
  | dict (fields : List (Key F × Value F))
  | other

def Key.toText (fmt : FloatText F) : Key F → Option String
  | .text s => some s
  | .int n => some (String.ofList (intText n))
  | .bool b => some (if b then "true" else "false")
  | .none => some "null"
  | .float (.finite x) => some (String.ofList (fmt.repr x))
  | .float _ => Option.none
  | .other => Option.none

namespace Value

mutual

/-- The JSON value that is written; nothing if it is not serializable. -/
def toJson (fmt : FloatText F) : Value F → Option (Json F)
  | .none => some .null
  | .bool b => some (.bool b)
  | .int n => some (.int n)
  | .float (.finite x) => some (.float (.finite x))
  | .float _ => Option.none
  | .str s => some (.str s)
  | .list items => (toItems fmt items).map .arr
  | .dict fields => (toFields fmt fields).map .obj
  | .other => Option.none

def toItems (fmt : FloatText F) : List (Value F) → Option (List (Json F))
  | [] => some []
  | v :: items => do
      let v ← toJson fmt v
      let items ← toItems fmt items
      some (v :: items)

def toFields (fmt : FloatText F) : List (Key F × Value F) → Option (List (String × Json F))
  | [] => some []
  | (k, v) :: fields => do
      let k ← k.toText fmt
      let v ← toJson fmt v
      let fields ← toFields fmt fields
      some ((k, v) :: fields)

end

end Value

/-- The text of the body: nothing escaped that need not be. -/
def bodyOf (fmt : FloatText F) (v : Json F) : Bytes :=
  Utf8.encode (dumps fmt ⟨false, false⟩ v)

def encodeFrame (fmt : FloatText F) (value : List (Key F × Value F)) :
    Except Raised Bytes :=
  match Value.toFields fmt value with
  | none => .error (.protocolError .notSerializable)
  | some fields =>
      let body := bodyOf fmt (.obj fields)
      if maxFrameBytes < body.length then .error (.protocolError (.tooLarge body.length))
      else .ok (pack body.length ++ body)

end PairCell.Bridge
