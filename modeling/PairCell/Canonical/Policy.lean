import PairCell.Canonical
import PairCell.Types

/-!
# The strategy policy

The policy that the leader composes from its own block, the acceptance of the
follower and the shared values, and what the follower answers to it.
-/

namespace PairCell.Canonical

open Lib

variable {F : Type}

structure PolicyFields (F : Type) where
  policyVersion : String
  strategyBudgetUsd : String
  edgeMinNetPoints : String
  quoteMaxAgeSeconds : FloatValue F
  quoteMaxSkewSeconds : FloatValue F
  leaderRisk : WorkerRiskLimits
  followerRisk : WorkerRiskLimits
  followerConfirmationTimeoutSeconds : FloatValue F
  postReconnectCooldownSeconds : FloatValue F
  sizingRefreshSeconds : FloatValue F
  relayHandlingTimeoutSeconds : FloatValue F
  maximumHoldingSeconds : Json F
  tradingBlackoutStartNy : Json F
  tradingBlackoutEndNy : Json F
  mode : Json F

def maximumHolding : Rat := 7 * 24 * 60 * 60

def maximumCooldown : Rat := 24 * 3600

/-- `int(text)`, which takes fewer characters for blanks. -/
def intOf (s : List Char) : Option Int :=
  let t := (Numeral.strip Numeral.isSpace s).map Numeral.ascii
  let digits := if t.head? = some '-' ∨ t.head? = some '+' then t.drop 1 else t
  -- an underscore stands between two digits, and there are at most 4300 digits
  let parts := digits.splitOn '_'
  if parts.all (fun part => decide (part ≠ []) && part.all Char.isDigit) ∧
      parts.flatten.length ≤ 4300 then
    let n : Int := Nat.ofDigitChars 10 parts.flatten 0
    some (if t.head? = some '-' then -n else n)
  else none

/-- The minute of the day. -/
def parseNyTime (v : Json F) (fieldName : String) : Except PyError Int :=
  let malformed := .error (.cellError (fieldName ++ " must be 'HH:MM'."))
  match v with
  | .str s =>
      match s.toList.splitOn ':' with
      | [hour, minute] =>
          match intOf hour, intOf minute with
          | some h, some m =>
              if 0 ≤ h ∧ h < 24 ∧ 0 ≤ m ∧ m < 60 then .ok (h * 60 + m) else malformed
          | _, _ => malformed
      | _ => malformed
  | _ => malformed

namespace PolicyFields

def positiveSeconds (py : Host F) (name : String) : FloatValue F → Except PyError Unit
  | .finite x =>
      if 0 < py.value x then .ok ()
      else .error (.cellError (name ++ " must be a positive number."))
  | _ => .error (.cellError (name ++ " must be a positive number."))

def cooldownSeconds (py : Host F) : FloatValue F → Except PyError Unit
  | .finite x =>
      if py.value x < 0 ∨ maximumCooldown < py.value x then .error cooldownError
      else .ok ()
  | _ => .error cooldownError
where
  cooldownError :=
    .cellError ("post_reconnect_cooldown_seconds must be a finite number of seconds" ++
    " in [0, 86400] (0 disables the gate).")

def holdingSeconds (py : Host F) : Json F → Except PyError Unit
  | .null => .ok ()
  | .bool b => if b then .ok () else .error holdingError
  | .int n =>
      if (py.ofInt n).isNone then .error .overflowError
      else if 0 < n ∧ (n : Rat) ≤ maximumHolding then .ok () else .error holdingError
  | .float (.finite x) =>
      if 0 < py.value x ∧ py.value x ≤ maximumHolding then .ok () else .error holdingError
  | .float _ => .error holdingError
  | _ => .error .typeError
where
  holdingError := .cellError "maximum_holding_seconds is out of range."

def isMode : Json F → Bool
  | .str s => s == "live" || s == "shadow"
  | _ => false

/-- `StrategyPolicy.__post_init__` -/
def check (py : Host F) (p : PolicyFields F) : Except PyError Unit := do
  if p.policyVersion = "" then throw (.cellError "A strategy policy requires a version.")
  if (decimalOf p.edgeMinNetPoints).isNone then
    throw (.cellError "edge_min_net_points must be a finite number.")
  positiveSeconds py "quote_max_age_seconds" p.quoteMaxAgeSeconds
  positiveSeconds py "quote_max_skew_seconds" p.quoteMaxSkewSeconds
  positiveSeconds py "follower_confirmation_timeout_seconds"
    p.followerConfirmationTimeoutSeconds
  positiveSeconds py "sizing_refresh_seconds" p.sizingRefreshSeconds
  positiveSeconds py "relay_handling_timeout_seconds" p.relayHandlingTimeoutSeconds
  cooldownSeconds py p.postReconnectCooldownSeconds
  if (← resolveUnifiedBudget py (.str p.strategyBudgetUsd)).isNone then
    throw (.cellError
      ("strategy_budget_usd must be '0' (each leg uses its own startup balance)" ++
      " or a positive USD amount."))
  holdingSeconds py p.maximumHoldingSeconds
  let start ← parseNyTime p.tradingBlackoutStartNy "trading_blackout_start_ny"
  let stop ← parseNyTime p.tradingBlackoutEndNy "trading_blackout_end_ny"
  if stop ≤ start then
    throw (.cellError
      "trading_blackout_start_ny must be earlier than trading_blackout_end_ny.")
  if !isMode p.mode then throw (.cellError "mode must be 'live' or 'shadow'.")

def fields (p : PolicyFields F) : Fields F :=
  [("policy_version", .str p.policyVersion),
    ("strategy_budget_usd", .str p.strategyBudgetUsd),
    ("edge_min_net_points", .str p.edgeMinNetPoints),
    ("quote_max_age_seconds", .float p.quoteMaxAgeSeconds),
    ("quote_max_skew_seconds", .float p.quoteMaxSkewSeconds),
    ("follower_confirmation_timeout_seconds", .float p.followerConfirmationTimeoutSeconds),
    ("post_reconnect_cooldown_seconds", .float p.postReconnectCooldownSeconds),
    ("sizing_refresh_seconds", .float p.sizingRefreshSeconds),
    ("relay_handling_timeout_seconds", .float p.relayHandlingTimeoutSeconds),
    ("maximum_holding_seconds", p.maximumHoldingSeconds),
    ("trading_blackout_start_ny", p.tradingBlackoutStartNy),
    ("trading_blackout_end_ny", p.tradingBlackoutEndNy),
    ("mode", p.mode),
    ("leader_risk", p.leaderRisk.canonical),
    ("follower_risk", p.followerRisk.canonical)]

def canonical (p : PolicyFields F) : Json F := .obj p.fields

def hash (py : Host F) (p : PolicyFields F) : Except PyError String :=
  Canonical.hash py p.canonical

end PolicyFields

structure StrategyPolicy (py : Host F) extends PolicyFields F where
  checked : toPolicyFields.check py = .ok ()

def StrategyPolicy.make (py : Host F) (p : PolicyFields F) :
    Except PyError (StrategyPolicy py) :=
  match h : p.check py with
  | .ok () => .ok ⟨p, h⟩
  | .error e => .error e

/-! ## Composing a policy -/

/-- The float `n.0`. -/
def Host.literal (py : Host F) (n : Int) : Json F :=
  (py.ofInt n).elim (.int n) fun x => .float (.finite x)

def defaultSharedPolicyValues (py : Host F) : Fields F :=
  [("mode", .str "shadow"), ("strategy_budget_usd", .str "0"),
    ("edge_min_net_points", .str "-4"), ("quote_max_age_seconds", py.literal 6),
    ("quote_max_skew_seconds", py.literal 6),
    ("follower_confirmation_timeout_seconds", py.literal 60),
    ("post_reconnect_cooldown_seconds", py.literal 300),
    ("sizing_refresh_seconds", py.literal 3600),
    ("relay_handling_timeout_seconds", py.literal 30),
    ("trading_blackout_start_ny", .str "16:30"), ("trading_blackout_end_ny", .str "17:30"),
    ("maximum_holding_seconds", .null)]

def sharedPolicyKeys : List String :=
  ["mode", "strategy_budget_usd", "edge_min_net_points", "quote_max_age_seconds",
    "quote_max_skew_seconds", "follower_confirmation_timeout_seconds",
    "post_reconnect_cooldown_seconds", "sizing_refresh_seconds",
    "relay_handling_timeout_seconds", "trading_blackout_start_ny",
    "trading_blackout_end_ny", "maximum_holding_seconds"]

/-- The defaults, replaced by the leader's own values. -/
def sharedValues (py : Host F) (shared : Fields F) : Except PyError (Fields F) :=
  shared.foldlM (fun values f =>
    if f.1 ∈ sharedPolicyKeys then .ok (Json.insertField values f.1 f.2)
    else .error
      (.cellError ("'" ++ f.1 ++ "' is not a shared, leader-authored policy value.")))
    (defaultSharedPolicyValues py)

def canonicalPolicyFromAcceptance (py : Host F) (policyVersion : String)
    (leaderRisk : WorkerRiskLimits) (acceptance : PairingAcceptance) (shared : Fields F) :
    Except PyError (StrategyPolicy py) := do
  let values ← sharedValues py shared
  let some unifiedBudget ← resolveUnifiedBudget py (← get values "strategy_budget_usd")
    | throw (.cellError
        ("strategy_budget_usd must be '0' (each leg uses its own startup balance)" ++
          " or a positive USD amount."))
  StrategyPolicy.make py
    { policyVersion := policyVersion
      strategyBudgetUsd := unifiedBudget
      edgeMinNetPoints := py.str (← get values "edge_min_net_points")
      quoteMaxAgeSeconds := ← py.float (← get values "quote_max_age_seconds")
      quoteMaxSkewSeconds := ← py.float (← get values "quote_max_skew_seconds")
      leaderRisk := ← riskWithUnifiedBudget py leaderRisk unifiedBudget
      followerRisk := ← riskWithUnifiedBudget py (← acceptance.riskLimits) unifiedBudget
      followerConfirmationTimeoutSeconds :=
        ← py.float (← get values "follower_confirmation_timeout_seconds")
      postReconnectCooldownSeconds :=
        ← py.float (← get values "post_reconnect_cooldown_seconds")
      sizingRefreshSeconds := ← py.float (← get values "sizing_refresh_seconds")
      relayHandlingTimeoutSeconds :=
        ← py.float (← get values "relay_handling_timeout_seconds")
      maximumHoldingSeconds := ← get values "maximum_holding_seconds"
      tradingBlackoutStartNy := ← get values "trading_blackout_start_ny"
      tradingBlackoutEndNy := ← get values "trading_blackout_end_ny"
      mode := ← get values "mode" }

/-! ## Reading a policy -/

def removedPolicyKeys : List String :=
  ["entry_mode", "trend_lookback_seconds", "trend_breakout_buffer_points",
    "trend_min_range_points", "trend_momentum_T_seconds", "trend_vol_window_seconds",
    "trend_momentum_k", "trend_min_mom_points", "trend_max_spread_points",
    "trend_min_coverage", "trend_quote_max_age_seconds"]

def policyKeys : List String :=
  ["policy_version", "edge_min_net_points", "quote_max_age_seconds",
    "quote_max_skew_seconds", "leader_risk", "follower_risk",
    "follower_confirmation_timeout_seconds", "post_reconnect_cooldown_seconds",
    "sizing_refresh_seconds", "relay_handling_timeout_seconds", "maximum_holding_seconds",
    "trading_blackout_start_ny", "trading_blackout_end_ny", "mode", "strategy_budget_usd"]

def emptyAccounts : String := "both accounts must be empty and accept a fresh policy."

/-- The keys of earlier policies, and any unknown key, are refused. -/
def checkPolicyKeys (keys : List String) : Except PyError Unit := do
  if "flatten_at_ny" ∈ keys then
    throw (.cellError ("The persisted policy uses removed flatten_at_ny semantics; " ++
      emptyAccounts))
  match removedPolicyKeys.find? (· ∈ keys) with
  | some removed => throw (.cellError
      ("The persisted policy uses removed " ++ removed ++ " semantics; " ++ emptyAccounts))
  | none => pure ()
  let unknown := keys.filter fun k => k ∉ policyKeys
  if unknown ≠ [] then
    throw (.cellError ("The persisted policy carries unknown keys (" ++
      ", ".intercalate (unknown.insertionSort (· ≤ ·)) ++ "); " ++ emptyAccounts))

/-- `value.get(key, default)` -/
def getOr (v : Fields F) (k : String) (default : Json F) : Json F :=
  (Json.field? v k).getD default

def policyFromCanonical (py : Host F) (v : Fields F) :
    Except PyError (StrategyPolicy py) := do
  checkPolicyKeys (v.map Prod.fst)
  StrategyPolicy.make py
    { policyVersion := ← getText v "policy_version"
      edgeMinNetPoints := py.str (getOr v "edge_min_net_points" (.str "-4"))
      quoteMaxAgeSeconds := ← py.float (← get v "quote_max_age_seconds")
      quoteMaxSkewSeconds := ← py.float (← get v "quote_max_skew_seconds")
      leaderRisk := ← riskFromCanonical py (← getDict v "leader_risk")
      followerRisk := ← riskFromCanonical py (← getDict v "follower_risk")
      followerConfirmationTimeoutSeconds :=
        ← py.float (← get v "follower_confirmation_timeout_seconds")
      postReconnectCooldownSeconds :=
        ← py.float (getOr v "post_reconnect_cooldown_seconds" (py.literal 300))
      sizingRefreshSeconds :=
        ← py.float (getOr v "sizing_refresh_seconds" (py.literal 3600))
      relayHandlingTimeoutSeconds :=
        ← py.float (getOr v "relay_handling_timeout_seconds" (py.literal 30))
      maximumHoldingSeconds := getOr v "maximum_holding_seconds" .null
      tradingBlackoutStartNy := ← get v "trading_blackout_start_ny"
      tradingBlackoutEndNy := ← get v "trading_blackout_end_ny"
      mode := getOr v "mode" (.str "shadow")
      strategyBudgetUsd := py.str (getOr v "strategy_budget_usd" (.str "0")) }

/-! ## The follower's answer -/

/-- What a cell knows when a policy arrives. -/
structure Desk (py : Host F) where
  role : Role
  policy : Option (StrategyPolicy py)
  localAcceptance : Option PairingAcceptance
  /-- Why a policy may not be changed now. -/
  blocked : Option String

inductive PolicyReason where
  | malformed
  | hashMismatch
  | alreadyAccepted
  | noAcceptance
  | notVerbatim
  | blocked (reason : String)
  | leaderNotEmpty
  | accepted
deriving DecidableEq

def PolicyReason.text : PolicyReason → String
  | .malformed => "policy payload is malformed"
  | .hashMismatch => "policy hash does not match its content"
  | .alreadyAccepted => "policy already durably accepted"
  | .noAcceptance => "this Worker has no frozen Pairing Acceptance payload"
  | .notVerbatim =>
      "follower_risk is not a verbatim copy of this Worker's Pairing Acceptance payload"
  | .blocked reason => reason
  | .leaderNotEmpty => "the leader account is not broker-verified empty"
  | .accepted => "accepted"

structure PolicyAck where
  policyHash : String
  accepted : Bool
  reason : PolicyReason
deriving DecidableEq

/-- The payload of the answer on the wire. -/
def PolicyAck.fields (ack : PolicyAck) : Fields F :=
  [("policy_hash", .str ack.policyHash), ("accepted", .bool ack.accepted),
    ("reason", .str ack.reason.text)]

def PyError.isMalformed : PyError → Bool
  | .keyError _ => true
  | .typeError => true
  | .cellError _ => true
  | _ => false

/-- The answer to a policy that was read, and the policy if it is taken. -/
def judgePolicy (py : Host F) (desk : Desk py) (declared : String) (leaderEmpty : Bool)
    (policy : StrategyPolicy py) : Except PyError (PolicyAck × Desk py) := do
  let policyHash ← policy.hash py
  if policyHash ≠ declared then return (⟨declared, false, .hashMismatch⟩, desk)
  let current ← desk.policy.elim (.ok none) fun p => (p.hash py).map some
  if current = some policyHash then
    return (⟨policyHash, true, .alreadyAccepted⟩, desk)
  let some acceptance := desk.localAcceptance
    | return (⟨policyHash, false, .noAcceptance⟩, desk)
  let expected ← riskWithUnifiedBudget py (← acceptance.riskLimits)
      policy.strategyBudgetUsd
  if !(← isVerbatimCopyOf py policy.followerRisk expected) then
    return (⟨policyHash, false, .notVerbatim⟩, desk)
  match desk.blocked with
  | some reason => return (⟨policyHash, false, .blocked reason⟩, desk)
  | none =>
      if !leaderEmpty then
        return (⟨policyHash, false, .leaderNotEmpty⟩, desk)
      return (⟨policyHash, true, .accepted⟩, { desk with policy := some policy })

/-- Nothing is answered by the leader, or to a payload without a policy. -/
def acceptLeaderPolicy (py : Host F) (desk : Desk py) (payload : Fields F) :
    Except PyError (Option PolicyAck × Desk py) :=
  if desk.role = .leader then .ok (none, desk)
  else
    match Json.field? payload "policy", Json.field? payload "policy_hash" with
    | some (.obj raw), some (.str declared) =>
        match policyFromCanonical py raw with
        | .error e =>
            if e.isMalformed then .ok (some ⟨declared, false, .malformed⟩, desk)
            else .error e
        | .ok policy =>
            let leaderEmpty :=
              match Json.field? payload "leader_broker_verified_empty" with
              | some (.bool b) => b
              | _ => false
            (judgePolicy py desk declared leaderEmpty policy).map fun r => (some r.1, r.2)
    | _, _ => .ok (none, desk)

/-- The payload that the leader publishes. -/
def publishPolicy (py : Host F) (policy : StrategyPolicy py) (brokerVerifiedEmpty : Bool) :
    Except PyError (Fields F) :=
  (policy.hash py).map fun h =>
    [("policy", policy.canonical), ("policy_hash", .str h),
      ("leader_broker_verified_empty", .bool brokerVerifiedEmpty)]

end PairCell.Canonical
