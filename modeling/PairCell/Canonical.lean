import PairCell.Lib.Decimal
import PairCell.Lib.JsonText
import PairCell.Lib.Numeral
import PairCell.Lib.Timestamp

/-!
# Canonical forms

The records whose hashes the two Workers compare, their canonical forms, and
the decoders that read these forms from the wire and from the disk.
-/

namespace PairCell.Canonical

open Lib

inductive PyError where
  | keyError (key : String)
  | typeError
  | valueError
  | overflowError
  | invalidOperation
  | cellError (message : String)
deriving DecidableEq

/-- What is taken from the language: its floats, the text of a list or a dictionary, and
the hash function. -/
structure Host (F : Type) where
  floats : FloatText F
  value : F → Rat
  zero : F
  value_zero : value zero = 0
  /-- The decimal of exactly the same value. -/
  exact : F → Decimal
  /-- Nothing if the number is too large for a float. -/
  ofInt : Int → Option F
  containerText : Json F → String
  sha256 : List Char → String

abbrev Fields (F : Type) := List (String × Json F)

variable {F : Type}

namespace Host

def floatText (py : Host F) : FloatValue F → List Char
  | .finite x => py.floats.repr x
  | .nan => ['n', 'a', 'n']
  | .infinity neg => if neg then ['-', 'i', 'n', 'f'] else ['i', 'n', 'f']

/-- `str(value)` -/
def str (py : Host F) : Json F → String
  | .null => "None"
  | .bool b => if b then "True" else "False"
  | .int n => String.ofList (intText n)
  | .float x => String.ofList (py.floatText x)
  | .str s => s
  | v => py.containerText v

/-- `float(value)` -/
def float (py : Host F) : Json F → Except PyError (FloatValue F)
  | .float x => .ok x
  | .int n => (py.ofInt n).elim (.error .overflowError) fun x => .ok (.finite x)
  | .bool b => (py.ofInt b.toNat).elim (.error .overflowError) fun x => .ok (.finite x)
  | .str s => (py.floats.parse s.toList).elim (.error .valueError) .ok
  | _ => .error .typeError

end Host

/-! ## Reading fields -/

def get (fields : Fields F) (k : String) : Except PyError (Json F) :=
  (Json.field? fields k).elim (.error (.keyError k)) .ok

def asText : Json F → Except PyError String
  | .str s => .ok s
  | _ => .error .typeError

def asInt : Json F → Except PyError Int
  | .int n => .ok n
  | _ => .error .typeError

def asDict : Json F → Except PyError (Fields F)
  | .obj fields => .ok fields
  | _ => .error .typeError

def asList : Json F → Except PyError (List (Json F))
  | .arr items => .ok items
  | _ => .error .typeError

def getText (fields : Fields F) (k : String) : Except PyError String := do
  asText (← get fields k)

def getInt (fields : Fields F) (k : String) : Except PyError Int := do
  asInt (← get fields k)

def getDict (fields : Fields F) (k : String) : Except PyError (Fields F) := do
  asDict (← get fields k)

/-! ## Numbers in texts -/

def isBlank (c : Char) : Bool := Numeral.isSpace c || Numeral.isSeparator c

/-- The text in ASCII digits, without blanks at its ends and without underscores. -/
def clean (s : List Char) : List Char :=
  ((Numeral.strip isBlank s).filter fun c => c ≠ '_').map Numeral.ascii

/-- `Decimal(text)`; nothing for a text of no number, and for a number that cannot be
stored. -/
def decimalOf (s : String) : Option Decimal :=
  (Decimal.read? (clean s.toList)).filter fun d => d.Storable

/-- Nothing for a value that is no finite number. -/
def toDecimal (py : Host F) : Json F → Option Decimal
  | .int n => some (Decimal.ofInt n)
  | .float (.finite x) => Decimal.read? (py.floats.repr x)
  | .str s => decimalOf s
  | _ => none

def positive (d : Decimal) : Bool := !d.neg && decide (d.coeff ≠ 0)

/-- One plain spelling of a number. -/
def decimalText (d : Decimal) : Except PyError String := do
  let some normalized := d.normalize | .error .overflowError
  if 0 < normalized.exp then
    let some whole := normalized.toWhole | .error .invalidOperation
    pure (String.ofList whole.fixedText)
  else pure (String.ofList normalized.fixedText)

/-- The spelling of a unified budget, `"0"` for none; nothing if it is no such amount. -/
def resolveUnifiedBudget (py : Host F) (v : Json F) : Except PyError (Option String) :=
  match toDecimal py v with
  | none => .ok none
  | some d =>
      if d.coeff = 0 then .ok (some "0")
      else if d.neg then .ok none
      else (decimalText d).map some

/-! ## Hashes -/

/-- The canonical text; a number that is not finite has none. -/
def canonicalJson (py : Host F) (v : Json F) : Except PyError (List Char) :=
  if v.special then .error .valueError else .ok (dumps py.floats ⟨true, true⟩ v)

def hash (py : Host F) (v : Json F) : Except PyError String :=
  (canonicalJson py v).map py.sha256

/-- The first sixteen characters of a hash. -/
def shortHash (py : Host F) (v : Json F) : Except PyError String :=
  (hash py v).map fun h => String.ofList (h.toList.take 16)

/-! ## Risk limits -/

structure RiskFields where
  strategyBudgetUsd : String
  maximumMarginFraction : String
  maximumLossPerTradeUsd : String
  dailyLossFraction : String
  tradeLossFraction : String
deriving DecidableEq

namespace RiskFields

def positiveField (name s : String) : Except PyError Unit :=
  if (decimalOf s).any positive then .ok ()
  else .error (.cellError (name ++ " must be a positive number."))

def atMostOne (name s : String) : Except PyError Unit :=
  if (decimalOf s).any fun d => decide (1 < d.value) then
    .error (.cellError (name ++ " must not exceed 1."))
  else .ok ()

/-- `WorkerRiskLimits.__post_init__` -/
def check (r : RiskFields) : Except PyError Unit := do
  positiveField "strategy_budget_usd" r.strategyBudgetUsd
  positiveField "maximum_margin_fraction" r.maximumMarginFraction
  positiveField "maximum_loss_per_trade_usd" r.maximumLossPerTradeUsd
  positiveField "daily_loss_fraction" r.dailyLossFraction
  positiveField "trade_loss_fraction" r.tradeLossFraction
  atMostOne "maximum_margin_fraction" r.maximumMarginFraction
  atMostOne "daily_loss_fraction" r.dailyLossFraction
  atMostOne "trade_loss_fraction" r.tradeLossFraction

def fields (r : RiskFields) : Fields F :=
  [("strategy_budget_usd", .str r.strategyBudgetUsd),
    ("maximum_margin_fraction", .str r.maximumMarginFraction),
    ("maximum_loss_per_trade_usd", .str r.maximumLossPerTradeUsd),
    ("daily_loss_fraction", .str r.dailyLossFraction),
    ("trade_loss_fraction", .str r.tradeLossFraction)]

def canonical (r : RiskFields) : Json F := .obj r.fields

end RiskFields

structure WorkerRiskLimits extends RiskFields where
  checked : toRiskFields.check = .ok ()

def WorkerRiskLimits.make (r : RiskFields) : Except PyError WorkerRiskLimits :=
  match h : r.check with
  | .ok () => .ok ⟨r, h⟩
  | .error e => .error e

def riskFromCanonical (py : Host F) (v : Fields F) : Except PyError WorkerRiskLimits := do
  WorkerRiskLimits.make
    { strategyBudgetUsd := py.str (← get v "strategy_budget_usd")
      maximumMarginFraction := py.str (← get v "maximum_margin_fraction")
      maximumLossPerTradeUsd := py.str (← get v "maximum_loss_per_trade_usd")
      dailyLossFraction := py.str (← get v "daily_loss_fraction")
      tradeLossFraction := py.str (← get v "trade_loss_fraction") }

/-- The canonical texts are the same. -/
def isVerbatimCopyOf (py : Host F) (r s : WorkerRiskLimits) : Except PyError Bool := do
  let one ← canonicalJson py r.canonical
  let two ← canonicalJson py s.canonical
  pure (decide (one = two))

/-- The block for one leg: only the base is replaced, and only by a unified budget. -/
def riskWithUnifiedBudget (py : Host F) (authored : WorkerRiskLimits) (unified : String) :
    Except PyError WorkerRiskLimits := do
  match ← resolveUnifiedBudget py (.str unified) with
  | none => pure authored
  | some resolved =>
      if resolved = "0" then pure authored
      else if (decimalOf authored.strategyBudgetUsd).map Decimal.value =
          (decimalOf resolved).map Decimal.value then
        pure authored
      else
        WorkerRiskLimits.make { authored.toRiskFields with strategyBudgetUsd := resolved }

/-! ## The acceptance payload -/

structure AcceptanceFields where
  proposalId : String
  workerId : String
  startupBalanceUsd : String
  accountCurrency : String
  maximumMarginFraction : String
  dailyLossFraction : String
  tradeLossFraction : String
  maximumLossPerTradeUsd : String
deriving DecidableEq

namespace AcceptanceFields

def risk (a : AcceptanceFields) : RiskFields :=
  { strategyBudgetUsd := a.startupBalanceUsd
    maximumMarginFraction := a.maximumMarginFraction
    maximumLossPerTradeUsd := a.maximumLossPerTradeUsd
    dailyLossFraction := a.dailyLossFraction
    tradeLossFraction := a.tradeLossFraction }

/-- `PairingAcceptance.__post_init__` -/
def check (a : AcceptanceFields) : Except PyError Unit := do
  if a.proposalId = "" then
    throw (.cellError "A Pairing Acceptance payload requires its proposal_id.")
  if a.workerId = "" then
    throw (.cellError "A Pairing Acceptance payload requires the follower's worker_id.")
  if a.accountCurrency ≠ "USD" then
    throw (.cellError "A Pairing Acceptance payload requires a USD account currency.")
  match decimalOf a.startupBalanceUsd with
  | some d =>
      if positive d then discard (decimalText d)
      else throw (.cellError
        "A Pairing Acceptance payload requires a strictly positive frozen startup balance.")
  | none => throw (.cellError
      "A Pairing Acceptance payload requires a strictly positive frozen startup balance.")
  a.risk.check

def fields (a : AcceptanceFields) : Fields F :=
  [("proposal_id", .str a.proposalId), ("worker_id", .str a.workerId),
    ("startup_balance_usd", .str a.startupBalanceUsd),
    ("account_currency", .str a.accountCurrency),
    ("maximum_margin_fraction", .str a.maximumMarginFraction),
    ("daily_loss_fraction", .str a.dailyLossFraction),
    ("trade_loss_fraction", .str a.tradeLossFraction),
    ("maximum_loss_per_trade_usd", .str a.maximumLossPerTradeUsd)]

def canonical (a : AcceptanceFields) : Json F := .obj a.fields

end AcceptanceFields

structure PairingAcceptance extends AcceptanceFields where
  checked : toAcceptanceFields.check = .ok ()

def PairingAcceptance.make (a : AcceptanceFields) : Except PyError PairingAcceptance :=
  match h : a.check with
  | .ok () => .ok ⟨a, h⟩
  | .error e => .error e

def PairingAcceptance.riskLimits (a : PairingAcceptance) :
    Except PyError WorkerRiskLimits :=
  WorkerRiskLimits.make a.risk

def acceptanceFromCanonical (py : Host F) (v : Fields F) :
    Except PyError PairingAcceptance := do
  PairingAcceptance.make
    { proposalId := ← getText v "proposal_id"
      workerId := ← getText v "worker_id"
      startupBalanceUsd := py.str (← get v "startup_balance_usd")
      accountCurrency := ← getText v "account_currency"
      maximumMarginFraction := py.str (← get v "maximum_margin_fraction")
      dailyLossFraction := py.str (← get v "daily_loss_fraction")
      tradeLossFraction := py.str (← get v "trade_loss_fraction")
      maximumLossPerTradeUsd := py.str (← get v "maximum_loss_per_trade_usd") }

end PairCell.Canonical
