import PairCell.Canonical.Records
import PairCell.Lib.Ranking

/-!
# Discovery of the shared products

Each Worker publishes a catalog of its symbols, and the leader and the follower
each run the same comparison of the two catalogs.  The names and the numbers of
an entry are texts; its two modes may be any plain value.
-/

namespace PairCell.Canonical

open Lib

variable {F : Type}

structure CatalogEntry (F : Type) where
  name : String
  tradeMode : Scalar F
  tradeCalcMode : Scalar F
  digits : Int
  point : String
  tradeTickSize : String
  contractSize : String
  volumeMin : String
  volumeStep : String
  volumeMax : String
  allowedDirections : List String
  fillingModes : List String
  baseCurrency : String
  profitCurrency : String

def sortedTexts (l : List String) : List String := l.insertionSort (· ≤ ·)

namespace CatalogEntry

def fields (e : CatalogEntry F) : Fields F :=
  [("name", .str e.name), ("trade_mode", e.tradeMode.toJson),
    ("trade_calc_mode", e.tradeCalcMode.toJson), ("digits", .int e.digits),
    ("point", .str e.point), ("trade_tick_size", .str e.tradeTickSize),
    ("contract_size", .str e.contractSize), ("volume_min", .str e.volumeMin),
    ("volume_step", .str e.volumeStep), ("volume_max", .str e.volumeMax),
    ("allowed_directions", .arr ((sortedTexts e.allowedDirections).map .str)),
    ("filling_modes", .arr ((sortedTexts e.fillingModes).map .str)),
    ("base_currency", .str e.baseCurrency), ("profit_currency", .str e.profitCurrency)]

def canonical (e : CatalogEntry F) : Json F := .obj e.fields

end CatalogEntry

def getTexts (fields : Fields F) (k : String) : Except PyError (List String) := do
  (← asList (← get fields k)).mapM asText

def textOr (fields : Fields F) (k default : String) : Except PyError String :=
  asText ((Json.field? fields k).getD (.str default))

def catalogEntryFromCanonical (py : Host F) (v : Fields F) :
    Except PyError (CatalogEntry F) := do
  pure
    { name := ← getText v "name"
      tradeMode := ← asScalar (← get v "trade_mode")
      tradeCalcMode := ← asScalar (← get v "trade_calc_mode")
      digits := ← getInt v "digits"
      point := py.str (← get v "point")
      tradeTickSize := py.str (← get v "trade_tick_size")
      contractSize := py.str (← get v "contract_size")
      volumeMin := py.str (← get v "volume_min")
      volumeStep := py.str (← get v "volume_step")
      volumeMax := py.str (← get v "volume_max")
      allowedDirections := ← getTexts v "allowed_directions"
      fillingModes := ← getTexts v "filling_modes"
      baseCurrency := ← textOr v "base_currency" ""
      profitCurrency := ← textOr v "profit_currency" "" }

structure CatalogSummary (F : Type) where
  workerId : String
  publisherEpoch : Int
  version : Int
  entries : List (CatalogEntry F)

namespace CatalogSummary

def fields (c : CatalogSummary F) : Fields F :=
  [("worker_id", .str c.workerId), ("publisher_epoch", .int c.publisherEpoch),
    ("version", .int c.version),
    ("entries", .arr ((rank CatalogEntry.name c.entries).map CatalogEntry.canonical))]

def canonical (c : CatalogSummary F) : Json F := .obj c.fields

end CatalogSummary

def positiveInt (message : String) : Json F → Except PyError Int
  | .int n => if n ≤ 0 then .error (.cellError message) else .ok n
  | _ => .error (.cellError message)

def catalogSummaryFromCanonical (py : Host F) (v : Fields F) :
    Except PyError (CatalogSummary F) := do
  match ← get v "entries" with
  | .arr entries =>
      let epoch ← get v "publisher_epoch"
      let version ← get v "version"
      pure
        { publisherEpoch :=
            ← positiveInt "A catalog summary requires a positive publisher_epoch." epoch
          version := ← positiveInt "A catalog summary requires a positive version." version
          workerId := ← getText v "worker_id"
          entries := ← entries.mapM fun e => do catalogEntryFromCanonical py (← asDict e) }
  | _ => throw (.cellError "A catalog summary requires a list of entries.")

/-! ## One catalog -/

def fullTradingMode : Int := 4

/-- The loop of `_validated_catalog`; `filtered` holds the entries kept so far. -/
def validate (workerId : String) (filtered : List (CatalogEntry F)) :
    List (CatalogEntry F) → Except String (List (CatalogEntry F))
  | [] => .ok filtered
  | entry :: entries =>
      if entry.name = "" then
        .error (workerId ++ " returned a catalog entry without a symbol name")
      else
        match entry.tradeMode with
        | .int tradeMode =>
            if entry.name ∈ filtered.map CatalogEntry.name then
              .error (workerId ++ " returned a duplicated catalog symbol " ++ entry.name)
            else if tradeMode ≠ fullTradingMode then validate workerId filtered entries
            else validate workerId (filtered ++ [entry]) entries
        | _ => .error (workerId ++ " returned an invalid catalog: " ++ entry.name ++
            " has no integer trade_mode")

def validatedCatalog (summary : CatalogSummary F) :
    Except String (List (CatalogEntry F)) :=
  validate summary.workerId [] summary.entries

/-! ## Two entries -/

namespace Scalar

def number? (py : Host F) : Scalar F → Option Rat
  | .bool b => some b.toNat
  | .int n => some n
  | .float (.finite x) => some (py.value x)
  | _ => none

/-- `one == two` -/
def equal (py : Host F) : Scalar F → Scalar F → Bool
  | .null, .null => true
  | .str s, .str t => decide (s = t)
  | .float (.infinity m), .float (.infinity n) => decide (m = n)
  | one, two =>
      match one.number? py, two.number? py with
      | some x, some y => decide (x = y)
      | _, _ => false

end Scalar

/-- `decimal_text` of a text -/
def decimalTextOf (s : String) : Except PyError (Option String) :=
  (decimalOf s).elim (.ok none) fun d => (decimalText d).map some

/-- `set(one) == set(two)` -/
def sameTexts (one two : List String) : Bool :=
  one.all (fun s => decide (s ∈ two)) && two.all fun s => decide (s ∈ one)

def textMismatch (name one two : String) : Except PyError (List String) := do
  let oneText ← decimalTextOf one
  let twoText ← decimalTextOf two
  pure (if oneText = none ∨ twoText = none ∨ oneText ≠ twoText then [name] else [])

def hardMismatches (py : Host F) (first second : CatalogEntry F) :
    Except PyError (List String) := do
  let mode :=
    if first.tradeCalcMode.equal py second.tradeCalcMode then [] else ["trade_calc_mode"]
  let contract ← textMismatch "contract_size" first.contractSize second.contractSize
  let least ← textMismatch "volume_min" first.volumeMin second.volumeMin
  let step ← textMismatch "volume_step" first.volumeStep second.volumeStep
  let directions := if sameTexts first.allowedDirections second.allowedDirections then []
    else ["allowed_directions"]
  pure (mode ++ contract ++ least ++ step ++ directions)

def preferredSharedFillingMode (first second : List String) : Option String :=
  if "FOK" ∈ first ∧ "FOK" ∈ second then some "FOK"
  else if "IOC" ∈ first ∧ "IOC" ∈ second then some "IOC"
  else none

/-- One of two positive numbers in its plain spelling. -/
def pickDecimalText (pick : Decimal → Decimal → Decimal) (first second : String) :
    Except PyError (Option String) :=
  match decimalOf first, decimalOf second with
  | some one, some two =>
      if positive one && positive two then (decimalText (pick one two)).map some
      else .ok none
  | _, _ => .ok none

def maxDecimalText : String → String → Except PyError (Option String) :=
  pickDecimalText fun one two => if one.value < two.value then two else one

def minDecimalText : String → String → Except PyError (Option String) :=
  pickDecimalText fun one two => if two.value < one.value then two else one

structure Economics where
  canonicalPoint : String
  volumeMax : String
  contractSize : String
  volumeMin : String
  volumeStep : String

def economics (one two : CatalogEntry F) : Except PyError (Option Economics) := do
  let canonicalPoint ← maxDecimalText one.point two.point
  let volumeMax ← minDecimalText one.volumeMax two.volumeMax
  let contractSize ← decimalTextOf one.contractSize
  let volumeMin ← decimalTextOf one.volumeMin
  let volumeStep ← decimalTextOf one.volumeStep
  match canonicalPoint, volumeMax, contractSize, volumeMin, volumeStep with
  | some p, some v, some c, some m, some s => pure (some ⟨p, v, c, m, s⟩)
  | _, _, _, _, _ => pure none

/-! ## Two catalogs -/

inductive Verdict (F : Type) where
  | excluded (reason : String)
  | admitted (product : DiscoveredProduct F)

namespace Verdict

def product? : Verdict F → Option (DiscoveredProduct F)
  | .admitted p => some p
  | .excluded _ => none

def reason? : Verdict F → Option String
  | .admitted _ => none
  | .excluded reason => some reason

end Verdict

def tradesBothWays (e : CatalogEntry F) : Bool :=
  decide ("LONG" ∈ e.allowedDirections ∧ "SHORT" ∈ e.allowedDirections)

def productOf (one : CatalogEntry F) (filling : String) (e : Economics) :
    DiscoveredProduct F :=
  { symbol := one.name
    tradeCalcMode := one.tradeCalcMode
    contractSize := e.contractSize
    volumeMin := e.volumeMin
    volumeStep := e.volumeStep
    volumeMax := e.volumeMax
    canonicalPoint := e.canonicalPoint
    fillingMode := filling
    directions := ["LONG", "SHORT"] }

/-- The body of the loop over the shared symbols. -/
def judge (py : Host F) (one two : CatalogEntry F) : Except PyError (Verdict F) := do
  let mismatches ← hardMismatches py one two
  if mismatches ≠ [] then
    pure (.excluded ("hard specification mismatch: " ++ ",".intercalate mismatches))
  else if !tradesBothWays one then pure (.excluded "bidirectional trading is unavailable")
  else
    match preferredSharedFillingMode one.fillingModes two.fillingModes with
    | none => pure (.excluded "no shared FOK or IOC filling mode")
    | some filling =>
        match ← economics one two with
        | none => pure (.excluded "catalog economics are not usable numbers")
        | some e => pure (.admitted (productOf one filling e))

def entryNamed (entries : List (CatalogEntry F)) (symbol : String) :
    Option (CatalogEntry F) :=
  entries.find? fun e => decide (e.name = symbol)

/-- `sorted(set(first) & set(second))` -/
def sharedSymbols (first second : List (CatalogEntry F)) : List String :=
  sortedTexts ((first.map CatalogEntry.name).filter fun s =>
    decide (s ∈ second.map CatalogEntry.name))

def judgeSymbol (py : Host F) (first second : List (CatalogEntry F)) (symbol : String) :
    Except PyError (String × Verdict F) :=
  match entryNamed first symbol, entryNamed second symbol with
  | some one, some two => (judge py one two).map fun verdict => (symbol, verdict)
  | _, _ => .error (.keyError symbol)

structure DiscoveryOutcome (F : Type) where
  products : List (DiscoveredProduct F)
  reason : String
  excluded : List (String × String)

def DiscoveryOutcome.admitted (o : DiscoveryOutcome F) : Bool := decide (o.reason = "")

def outcomeOf (verdicts : List (String × Verdict F)) : DiscoveryOutcome F :=
  let products := verdicts.filterMap fun v => v.2.product?
  let excluded := verdicts.filterMap fun v => v.2.reason?.map fun reason => (v.1, reason)
  if products.isEmpty then ⟨[], "no compatible symbol survived discovery", excluded⟩
  else ⟨products, "", excluded⟩

def discoverCompatibleProducts (py : Host F) (own peer : CatalogSummary F) :
    Except PyError (DiscoveryOutcome F) :=
  match validatedCatalog own with
  | .error reason => .ok ⟨[], reason, []⟩
  | .ok first =>
      match validatedCatalog peer with
      | .error reason => .ok ⟨[], reason, []⟩
      | .ok second =>
          ((sharedSymbols first second).mapM (judgeSymbol py first second)).map outcomeOf

end PairCell.Canonical
