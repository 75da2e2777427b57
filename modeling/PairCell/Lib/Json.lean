import Mathlib.Data.List.Sort
import Mathlib.Data.String.Basic

/-!
# JSON texts

Values, their texts, and a parser that takes every text back to its value.
Finite floats are a parameter: a type whose texts are JSON numbers with a
fraction or an exponent, and a reader of these texts.
-/

namespace PairCell.Lib

inductive FloatValue (F : Type) where
  | finite (x : F)
  | nan
  | infinity (neg : Bool)
deriving DecidableEq

inductive Json (F : Type) where
  | null
  | bool (b : Bool)
  | int (n : Int)
  | float (x : FloatValue F)
  | str (s : String)
  | arr (items : List (Json F))
  | obj (fields : List (String × Json F))

/-! ## Numbers -/

def scanInt : List Char → Option (List Char × List Char)
  | c :: r =>
      if c = '0' then some (['0'], r)
      else if c.isDigit then some (c :: r.takeWhile Char.isDigit, r.dropWhile Char.isDigit)
      else none
  | [] => none

def scanDigits (mark r : List Char) (whole : List Char) : List Char × List Char :=
  if r.takeWhile Char.isDigit = [] then ([], whole)
  else (mark ++ r.takeWhile Char.isDigit, r.dropWhile Char.isDigit)

def scanFraction : List Char → List Char × List Char
  | c :: r => if c = '.' then scanDigits ['.'] r (c :: r) else ([], c :: r)
  | [] => ([], [])

def isExponent (c : Char) : Bool := c = 'e' || c = 'E'

def isSign (c : Char) : Bool := c = '+' || c = '-'

def scanExponent : List Char → List Char × List Char
  | e :: c :: r =>
      if isExponent e then
        if isSign c then scanDigits [e, c] r (e :: c :: r)
        else scanDigits [e] (c :: r) (e :: c :: r)
      else ([], e :: c :: r)
  | r => ([], r)

/-- The text of a number, whether it has a fraction or an exponent, and the rest. -/
def scanUnsigned (s : List Char) : Option (List Char × Bool × List Char) :=
  (scanInt s).map fun (i, r) =>
    let (f, r) := scanFraction r
    let (e, r) := scanExponent r
    (i ++ f ++ e, !(f.isEmpty && e.isEmpty), r)

def scanNumber : List Char → Option (List Char × Bool × List Char)
  | c :: s =>
      if c = '-' then (scanUnsigned s).map fun (t, b, r) => ('-' :: t, b, r)
      else scanUnsigned (c :: s)
  | [] => none

/-- The texts of the finite floats, and the reader of a text. -/
structure FloatText (F : Type) where
  repr : F → List Char
  parse : List Char → Option (FloatValue F)
  literal : ∀ x, scanNumber (repr x) = some (repr x, true, [])
  parse_repr : ∀ x, parse (repr x) = some (.finite x)

/-- There are no finite floats. -/
def FloatText.empty : FloatText Empty := ⟨nofun, fun _ => none, nofun, nofun⟩

def intText : Int → List Char
  | .ofNat n => Nat.toDigits 10 n
  | .negSucc n => '-' :: Nat.toDigits 10 (n + 1)

def readInt : List Char → Int
  | c :: s =>
      if c = '-' then -(Nat.ofDigitChars 10 s 0 : Int)
      else (Nat.ofDigitChars 10 (c :: s) 0 : Int)
  | [] => 0

/-! ## Strings -/

def hexDigit (n : Nat) : Char :=
  if n < 10 then Char.ofNat (48 + n) else Char.ofNat (87 + n)

def hexValue (c : Char) : Option Nat :=
  if '0' ≤ c ∧ c ≤ '9' then some (c.toNat - 48)
  else if 'a' ≤ c ∧ c ≤ 'f' then some (c.toNat - 87)
  else if 'A' ≤ c ∧ c ≤ 'F' then some (c.toNat - 55)
  else none

/-- `\uXXXX` -/
def unit (n : Nat) : List Char :=
  ['\\', 'u', hexDigit (n / 4096 % 16), hexDigit (n / 256 % 16), hexDigit (n / 16 % 16),
    hexDigit (n % 16)]

def readUnit : List Char → Option (Nat × List Char)
  | '\\' :: 'u' :: a :: b :: c :: d :: r =>
      match hexValue a, hexValue b, hexValue c, hexValue d with
      | some a, some b, some c, some d => some (a * 4096 + b * 256 + c * 16 + d, r)
      | _, _, _, _ => none
  | _ => none

/-- A character above the first plane takes two units. -/
def units (n : Nat) : List Char :=
  if n < 65536 then unit n
  else unit (55296 + (n - 65536) / 1024) ++ unit (56320 + (n - 65536) % 1024)

/-- With `ascii` every character outside the printable ASCII range is escaped. -/
def escape (ascii : Bool) (c : Char) : List Char :=
  if c = '"' then ['\\', '"']
  else if c = '\\' then ['\\', '\\']
  else if c = '\n' then ['\\', 'n']
  else if c = '\r' then ['\\', 'r']
  else if c = '\t' then ['\\', 't']
  else if c = Char.ofNat 12 then ['\\', 'f']
  else if c = Char.ofNat 8 then ['\\', 'b']
  else if c.toNat < 32 then unit c.toNat
  else if ascii && decide (126 < c.toNat) then units c.toNat
  else [c]

def simpleEscape (c : Char) : Option Char :=
  if c = '"' ∨ c = '\\' ∨ c = '/' then some c
  else if c = 'n' then some '\n'
  else if c = 'r' then some '\r'
  else if c = 't' then some '\t'
  else if c = 'f' then some (Char.ofNat 12)
  else if c = 'b' then some (Char.ofNat 8)
  else none

/-- One character of a string. A unit that is half of a pair has no character of its own:
the text that Python's reader makes of it is outside these texts. -/
def readChar (s : List Char) : Option (Char × List Char) :=
  match readUnit s with
  | some (n, r) =>
      if n < 55296 ∨ 57344 ≤ n then some (Char.ofNat n, r)
      else if n < 56320 then
        match readUnit r with
        | some (m, r) =>
            if 56320 ≤ m ∧ m < 57344 then
              some (Char.ofNat (65536 + (n - 55296) * 1024 + (m - 56320)), r)
            else none
        | none => none
      else none
  | none =>
      match s with
      | '\\' :: c :: r => (simpleEscape c).map fun c => (c, r)
      | ['\\'] => none
      | c :: r => if c.toNat < 32 then none else some (c, r)
      | [] => none

/-- The characters up to the closing quote. -/
def readChars : Nat → List Char → Option (List Char × List Char)
  | 0, _ => none
  | _ + 1, '"' :: r => some ([], r)
  | n + 1, s => do
      let (c, r) ← readChar s
      let (cs, r) ← readChars n r
      some (c :: cs, r)

def readString (s : List Char) : Option (String × List Char) :=
  (readChars (s.length + 1) s).map fun (cs, r) => (String.ofList cs, r)

def stringText (ascii : Bool) (s : String) : List Char :=
  '"' :: (s.toList.flatMap (escape ascii) ++ ['"'])

/-! ## Values -/

variable {F : Type}

def floatText (fmt : FloatText F) : FloatValue F → List Char
  | .finite x => fmt.repr x
  | .nan => "NaN".toList
  | .infinity neg => if neg then "-Infinity".toList else "Infinity".toList

namespace Json

mutual

def print (fmt : FloatText F) (ascii : Bool) : Json F → List Char
  | .null => ['n', 'u', 'l', 'l']
  | .bool b => if b then ['t', 'r', 'u', 'e'] else ['f', 'a', 'l', 's', 'e']
  | .int n => intText n
  | .float x => floatText fmt x
  | .str s => stringText ascii s
  | .arr [] => ['[', ']']
  | .arr (v :: items) => '[' :: (print fmt ascii v ++ printItems fmt ascii items)
  | .obj [] => ['\x7b', '\x7d']
  | .obj ((k, v) :: fields) =>
      '\x7b' :: (stringText ascii k ++
        ':' :: (print fmt ascii v ++ printFields fmt ascii fields))

/-- The items after the first one, and the closing bracket. -/
def printItems (fmt : FloatText F) (ascii : Bool) : List (Json F) → List Char
  | [] => [']']
  | v :: items => ',' :: (print fmt ascii v ++ printItems fmt ascii items)

def printFields (fmt : FloatText F) (ascii : Bool) : List (String × Json F) → List Char
  | [] => ['\x7d']
  | (k, v) :: fields =>
      ',' :: (stringText ascii k ++
        ':' :: (print fmt ascii v ++ printFields fmt ascii fields))

end

def isSpace (c : Char) : Bool := c = ' ' || c = '\t' || c = '\n' || c = '\r'

def skip (s : List Char) : List Char := s.dropWhile isSpace

def field? (fields : List (String × Json F)) (k : String) : Option (Json F) :=
  (fields.find? fun f => f.1 = k).map Prod.snd

/-- A later field replaces the value of an earlier one of the same key. -/
def insertField (fields : List (String × Json F)) (k : String) (v : Json F) :
    List (String × Json F) :=
  if k ∈ fields.map Prod.fst then fields.map fun f => if f.1 = k then (k, v) else f
  else fields ++ [(k, v)]

def dictionary (fields : List (String × Json F)) : List (String × Json F) :=
  fields.foldl (fun d f => insertField d f.1 f.2) []

/-- The object of the pairs of a text. -/
def asDictionary (pairs : List (String × Json F)) : Json F := .obj (dictionary pairs)

def readScalar (fmt : FloatText F) : List Char → Option (Json F × List Char)
  | 'n' :: 'u' :: 'l' :: 'l' :: r => some (.null, r)
  | 't' :: 'r' :: 'u' :: 'e' :: r => some (.bool true, r)
  | 'f' :: 'a' :: 'l' :: 's' :: 'e' :: r => some (.bool false, r)
  | 'N' :: 'a' :: 'N' :: r => some (.float .nan, r)
  | 'I' :: 'n' :: 'f' :: 'i' :: 'n' :: 'i' :: 't' :: 'y' :: r =>
      some (.float (.infinity false), r)
  | '-' :: 'I' :: 'n' :: 'f' :: 'i' :: 'n' :: 'i' :: 't' :: 'y' :: r =>
      some (.float (.infinity true), r)
  | s =>
      match scanNumber s with
      | some (t, true, r) => (fmt.parse t).map fun x => (.float x, r)
      | some (t, false, r) => some (.int (readInt t), r)
      | none => none

/-- A key, a colon and a value. -/
def readField (value : List Char → Option (Json F × List Char)) :
    List Char → Option ((String × Json F) × List Char)
  | '"' :: r => do
      let (k, r) ← readString r
      match skip r with
      | ':' :: r =>
          let (v, r) ← value (skip r)
          some ((k, v), r)
      | _ => none
  | _ => none

mutual

/-- `hook` makes an object of its pairs. -/
def parseValue (fmt : FloatText F) (hook : List (String × Json F) → Json F) :
    Nat → List Char → Option (Json F × List Char)
  | 0, _ => none
  | _ + 1, '"' :: r => (readString r).map fun (s, r) => (.str s, r)
  | n + 1, '[' :: r =>
      match skip r with
      | ']' :: r => some (.arr [], r)
      | r => do
          let (v, r) ← parseValue fmt hook n r
          let (items, r) ← parseItems fmt hook n r
          some (.arr (v :: items), r)
  | n + 1, '\x7b' :: r =>
      match skip r with
      | '\x7d' :: r => some (hook [], r)
      | r => do
          let (f, r) ← readField (parseValue fmt hook n) r
          let (fields, r) ← parseFields fmt hook n r
          some (hook (f :: fields), r)
  | _ + 1, s => readScalar fmt s

def parseItems (fmt : FloatText F) (hook : List (String × Json F) → Json F) :
    Nat → List Char → Option (List (Json F) × List Char)
  | 0, _ => none
  | n + 1, s =>
      match skip s with
      | ']' :: r => some ([], r)
      | ',' :: r => do
          let (v, r) ← parseValue fmt hook n (skip r)
          let (items, r) ← parseItems fmt hook n r
          some (v :: items, r)
      | _ => none

def parseFields (fmt : FloatText F) (hook : List (String × Json F) → Json F) :
    Nat → List Char → Option (List (String × Json F) × List Char)
  | 0, _ => none
  | n + 1, s =>
      match skip s with
      | '\x7d' :: r => some ([], r)
      | ',' :: r => do
          let (f, r) ← readField (parseValue fmt hook n) (skip r)
          let (fields, r) ← parseFields fmt hook n r
          some (f :: fields, r)
      | _ => none

end

mutual

/-- The same value with the fields of every object in the order of their keys. -/
def sorted : Json F → Json F
  | .arr items => .arr (sortedItems items)
  | .obj fields => .obj ((sortedFields fields).insertionSort fun f g => f.1 ≤ g.1)
  | v => v

def sortedItems : List (Json F) → List (Json F)
  | [] => []
  | v :: items => sorted v :: sortedItems items

def sortedFields : List (String × Json F) → List (String × Json F)
  | [] => []
  | (k, v) :: fields => (k, sorted v) :: sortedFields fields

end

mutual

/-- Some number in the value is not finite. -/
def special : Json F → Bool
  | .float (.finite _) => false
  | .float _ => true
  | .arr items => specialItems items
  | .obj fields => specialFields fields
  | _ => false

def specialItems : List (Json F) → Bool
  | [] => false
  | v :: items => special v || specialItems items

def specialFields : List (String × Json F) → Bool
  | [] => false
  | (_, v) :: fields => special v || specialFields fields

end

end Json

/-- How a value is written: escaped to ASCII or not, and with sorted keys or not. -/
structure Style where
  ascii : Bool
  sortKeys : Bool

def dumps (fmt : FloatText F) (style : Style) (v : Json F) : List Char :=
  (if style.sortKeys then v.sorted else v).print fmt style.ascii

def loadsWith (fmt : FloatText F) (hook : List (String × Json F) → Json F)
    (s : List Char) :
    Option (Json F) :=
  match Json.parseValue fmt hook (s.length + 1) (Json.skip s) with
  | some (v, r) => if Json.skip r = [] then some v else none
  | none => none

def loads (fmt : FloatText F) (s : List Char) : Option (Json F) :=
  loadsWith fmt Json.asDictionary s

end PairCell.Lib
