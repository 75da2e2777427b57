import PairCell.Canonical

/-!
# Attempts, sizing plans and the discovered universe
-/

namespace PairCell.Canonical

open Lib

variable {F : Type}

/-! ## Quotes -/

/-- `BrokerClockCalibration`. Both numbers are floats, as `sample_broker_clock_calibration`
and the reader of a quote make them; they are finite, and the error is not negative. -/
structure Calibration (py : Host F) where
  offsetSeconds : F
  errorSeconds : F
  status : String
  nonneg : 0 ≤ py.value errorSeconds

namespace Calibration

def fields {py : Host F} (c : Calibration py) : Fields F :=
  [("offset_seconds", .float (.finite c.offsetSeconds)),
    ("error_seconds", .float (.finite c.errorSeconds)), ("status", .str c.status)]

/-- Nothing if the numbers are not usable. -/
def make (py : Host F) (offset error : FloatValue F) (status : String) :
    Option (Calibration py) :=
  match offset, error with
  | .finite x, .finite e => if h : 0 ≤ py.value e then some ⟨x, e, status, h⟩ else none
  | _, _ => none

end Calibration

structure QuoteSnapshot (py : Host F) where
  workerId : String
  productId : String
  symbol : String
  bid : Decimal.Stored
  ask : Decimal.Stored
  brokerTime : Timestamp
  localReceiveTime : Timestamp
  recoveryEpoch : String
  sequence : Int
  calibration : Calibration py

def QuoteSnapshot.fields {py : Host F} (q : QuoteSnapshot py) : Fields F :=
  [("worker_id", .str q.workerId), ("product_id", .str q.productId),
    ("symbol", .str q.symbol), ("bid", .str (String.ofList q.bid.val.text)),
    ("ask", .str (String.ofList q.ask.val.text)),
    ("broker_time", .str (String.ofList q.brokerTime.isoformat)),
    ("recovery_epoch", .str q.recoveryEpoch), ("sequence", .int q.sequence),
    ("calibration", .obj q.calibration.fields)]

def stored (d : Decimal) : Except PyError Decimal.Stored :=
  if h : d.Storable then .ok ⟨d, h⟩ else .error .invalidOperation

/-- `Decimal(value)` -/
def Host.decimal (py : Host F) : Json F → Except PyError Decimal.Stored
  | .str s => (decimalOf s).elim (.error .invalidOperation) stored
  | .int n => stored (Decimal.ofInt n)
  | .bool b => stored (Decimal.ofInt b.toNat)
  | .float (.finite x) => stored (py.exact x)
  | .float _ => .error .invalidOperation
  | .arr _ => .error .valueError
  | _ => .error .typeError

def parseUtc (s : String) : Except PyError Timestamp :=
  (Timestamp.read? s.toList).elim (.error .valueError) .ok

def uncalibrated (py : Host F) : Calibration py :=
  ⟨py.zero, py.zero, "uncalibrated", py.value_zero.ge⟩

/-- A malformed calibration is an uncalibrated clock. -/
def calibrationFromCanonical (py : Host F) : Option (Json F) → Calibration py
  | some (.obj v) =>
      match py.float ((Json.field? v "offset_seconds").getD (.float (.finite py.zero))),
        py.float ((Json.field? v "error_seconds").getD (.float (.finite py.zero))),
        asText ((Json.field? v "status").getD (.str "uncalibrated")) with
      | .ok offset, .ok error, .ok status =>
          (Calibration.make py offset error status).getD (uncalibrated py)
      | _, _, _ => uncalibrated py
  | _ => uncalibrated py

def quoteFromCanonical (py : Host F) (raw : Fields F) :
    Except PyError (QuoteSnapshot py) := do
  let brokerTime ← parseUtc (← getText raw "broker_time")
  pure
    { workerId := ← getText raw "worker_id"
      productId := ← getText raw "product_id"
      symbol := ← getText raw "symbol"
      bid := ← py.decimal (← get raw "bid")
      ask := ← py.decimal (← get raw "ask")
      brokerTime := brokerTime
      localReceiveTime := brokerTime
      recoveryEpoch := ← getText raw "recovery_epoch"
      sequence := ← getInt raw "sequence"
      calibration := calibrationFromCanonical py (Json.field? raw "calibration") }

/-! ## Attempts -/

structure Attempt (py : Host F) where
  attemptId : String
  policyHash : String
  routeId : String
  universeGeneration : Int
  productId : String
  symbol : String
  leaderDirection : String
  followerDirection : String
  lots : String
  leaderQuote : QuoteSnapshot py
  followerQuote : QuoteSnapshot py
  leaderPlanVersion : String
  followerPlanVersion : String
  leaderAllowanceEpoch : Int
  followerAllowanceEpoch : Int
  leaderAllowanceVersion : Int
  followerAllowanceVersion : Int
  leaderAllowedLossUsd : String
  followerAllowedLossUsd : String
  leaderRoughSl : String
  leaderRoughTp : String
  followerRoughSl : String
  followerRoughTp : String
  fillingMode : String
  decisionTime : Timestamp
  confirmationTimeoutSeconds : FloatValue F

namespace Attempt

variable {py : Host F}

def fields (a : Attempt py) : Fields F :=
  [("attempt_id", .str a.attemptId), ("policy_hash", .str a.policyHash),
    ("route_id", .str a.routeId), ("universe_generation", .int a.universeGeneration),
    ("product_id", .str a.productId), ("symbol", .str a.symbol),
    ("leader_direction", .str a.leaderDirection),
    ("follower_direction", .str a.followerDirection), ("lots", .str a.lots),
    ("leader_quote", .obj a.leaderQuote.fields),
    ("follower_quote", .obj a.followerQuote.fields),
    ("leader_plan_version", .str a.leaderPlanVersion),
    ("follower_plan_version", .str a.followerPlanVersion),
    ("leader_allowance_epoch", .int a.leaderAllowanceEpoch),
    ("follower_allowance_epoch", .int a.followerAllowanceEpoch),
    ("leader_allowance_version", .int a.leaderAllowanceVersion),
    ("follower_allowance_version", .int a.followerAllowanceVersion),
    ("leader_allowed_loss_usd", .str a.leaderAllowedLossUsd),
    ("follower_allowed_loss_usd", .str a.followerAllowedLossUsd),
    ("leader_rough_sl", .str a.leaderRoughSl), ("leader_rough_tp", .str a.leaderRoughTp),
    ("follower_rough_sl", .str a.followerRoughSl),
    ("follower_rough_tp", .str a.followerRoughTp), ("filling_mode", .str a.fillingMode),
    ("decision_time", .str (String.ofList a.decisionTime.isoformat)),
    ("confirmation_timeout_seconds", .float a.confirmationTimeoutSeconds)]

def canonical (a : Attempt py) : Json F := .obj a.fields

def payloadHash (a : Attempt py) : Except PyError String := hash py a.canonical

end Attempt

def attemptFromCanonical (py : Host F) (v : Fields F) : Except PyError (Attempt py) := do
  pure
    { attemptId := ← getText v "attempt_id"
      policyHash := ← getText v "policy_hash"
      routeId := ← getText v "route_id"
      universeGeneration := ← getInt v "universe_generation"
      productId := ← getText v "product_id"
      symbol := ← getText v "symbol"
      leaderDirection := ← getText v "leader_direction"
      followerDirection := ← getText v "follower_direction"
      lots := ← getText v "lots"
      leaderQuote := ← quoteFromCanonical py (← getDict v "leader_quote")
      followerQuote := ← quoteFromCanonical py (← getDict v "follower_quote")
      leaderPlanVersion := ← getText v "leader_plan_version"
      followerPlanVersion := ← getText v "follower_plan_version"
      leaderAllowanceEpoch := ← getInt v "leader_allowance_epoch"
      followerAllowanceEpoch := ← getInt v "follower_allowance_epoch"
      leaderAllowanceVersion := ← getInt v "leader_allowance_version"
      followerAllowanceVersion := ← getInt v "follower_allowance_version"
      leaderAllowedLossUsd := ← getText v "leader_allowed_loss_usd"
      followerAllowedLossUsd := ← getText v "follower_allowed_loss_usd"
      leaderRoughSl := ← getText v "leader_rough_sl"
      leaderRoughTp := ← getText v "leader_rough_tp"
      followerRoughSl := ← getText v "follower_rough_sl"
      followerRoughTp := ← getText v "follower_rough_tp"
      fillingMode := ← getText v "filling_mode"
      decisionTime := ← parseUtc (← getText v "decision_time")
      confirmationTimeoutSeconds := ← py.float (← get v "confirmation_timeout_seconds") }

/-! ## Sizing plans -/

structure SizingPlan where
  universeGeneration : Int
  productId : String
  symbol : String
  direction : String
  marginPerLot : String
  localMaxLots : String
  canonicalPoint : String
  point : String
  tickSize : String
  profitTickValue : String
  lossTickValue : String
  volumeMin : String
  volumeStep : String
  volumeMax : String
  fillingMode : String
  minimumStopDistance : String
  usdPerPointPerLot : String

namespace SizingPlan

def fields (p : SizingPlan) : Fields F :=
  [("universe_generation", .int p.universeGeneration), ("product_id", .str p.productId),
    ("symbol", .str p.symbol), ("direction", .str p.direction),
    ("margin_per_lot", .str p.marginPerLot), ("local_max_lots", .str p.localMaxLots),
    ("canonical_point", .str p.canonicalPoint), ("point", .str p.point),
    ("tick_size", .str p.tickSize), ("profit_tick_value", .str p.profitTickValue),
    ("loss_tick_value", .str p.lossTickValue), ("volume_min", .str p.volumeMin),
    ("volume_step", .str p.volumeStep), ("volume_max", .str p.volumeMax),
    ("filling_mode", .str p.fillingMode),
    ("minimum_stop_distance", .str p.minimumStopDistance),
    ("usd_per_point_per_lot", .str p.usdPerPointPerLot)]

def canonical (p : SizingPlan) : Json F := .obj p.fields

def version (py : Host F) (p : SizingPlan) : Except PyError String :=
  shortHash py p.canonical

end SizingPlan

def planFromCanonical (v : Fields F) : Except PyError SizingPlan := do
  pure
    { universeGeneration := ← getInt v "universe_generation"
      productId := ← getText v "product_id"
      symbol := ← getText v "symbol"
      direction := ← getText v "direction"
      marginPerLot := ← getText v "margin_per_lot"
      localMaxLots := ← getText v "local_max_lots"
      canonicalPoint := ← getText v "canonical_point"
      point := ← getText v "point"
      tickSize := ← getText v "tick_size"
      profitTickValue := ← getText v "profit_tick_value"
      lossTickValue := ← getText v "loss_tick_value"
      volumeMin := ← getText v "volume_min"
      volumeStep := ← getText v "volume_step"
      volumeMax := ← getText v "volume_max"
      fillingMode := ← getText v "filling_mode"
      minimumStopDistance := ← getText v "minimum_stop_distance"
      usdPerPointPerLot := ← getText v "usd_per_point_per_lot" }

/-! ## Products and the universe -/

/-- A value that is no list and no dictionary. -/
inductive Scalar (F : Type) where
  | null
  | bool (b : Bool)
  | int (n : Int)
  | float (x : FloatValue F)
  | str (s : String)

def Scalar.toJson : Scalar F → Json F
  | .null => .null
  | .bool b => .bool b
  | .int n => .int n
  | .float x => .float x
  | .str s => .str s

def asScalar : Json F → Except PyError (Scalar F)
  | .null => .ok .null
  | .bool b => .ok (.bool b)
  | .int n => .ok (.int n)
  | .float x => .ok (.float x)
  | .str s => .ok (.str s)
  | _ => .error .typeError

structure DiscoveredProduct (F : Type) where
  symbol : String
  tradeCalcMode : Scalar F
  contractSize : String
  volumeMin : String
  volumeStep : String
  volumeMax : String
  canonicalPoint : String
  fillingMode : String
  directions : List String

namespace DiscoveredProduct

def compatibilitySummary (p : DiscoveredProduct F) : Fields F :=
  [("symbol", .str p.symbol), ("trade_calc_mode", p.tradeCalcMode.toJson),
    ("contract_size", .str p.contractSize), ("volume_min", .str p.volumeMin),
    ("volume_step", .str p.volumeStep), ("volume_max", .str p.volumeMax),
    ("canonical_point", .str p.canonicalPoint), ("filling_mode", .str p.fillingMode),
    ("directions", .arr ((p.directions.insertionSort (· ≤ ·)).map .str))]

def productId (py : Host F) (p : DiscoveredProduct F) : Except PyError String :=
  (shortHash py (.obj p.compatibilitySummary)).map fun h => p.symbol ++ ":" ++ h

def canonical (py : Host F) (p : DiscoveredProduct F) : Except PyError (Json F) :=
  (p.productId py).map fun id => .obj (p.compatibilitySummary ++ [("product_id", .str id)])

end DiscoveredProduct

/-- A declared identity has to be the one of the summary. -/
def productFromCanonical (py : Host F) (v : Fields F) :
    Except PyError (DiscoveredProduct F) := do
  let product : DiscoveredProduct F :=
    { symbol := ← getText v "symbol"
      tradeCalcMode := ← asScalar (← get v "trade_calc_mode")
      contractSize := py.str (← get v "contract_size")
      volumeMin := py.str (← get v "volume_min")
      volumeStep := py.str (← get v "volume_step")
      volumeMax := py.str (← get v "volume_max")
      canonicalPoint := py.str (← get v "canonical_point")
      fillingMode := ← getText v "filling_mode"
      directions := ← (← asList (← get v "directions")).mapM asText }
  match Json.field? v "product_id" with
  | some (.str declared) =>
      if declared ≠ "" then
        if declared ≠ (← product.productId py) then
          throw (.cellError "A discovered product's identity does not match its summary.")
  | _ => pure ()
  pure product

structure DiscoveredUniverse (F : Type) where
  routeId : String
  universeGeneration : Int
  products : List (DiscoveredProduct F)
  leaderCatalogHash : String
  followerCatalogHash : String

namespace DiscoveredUniverse

def fields (u : DiscoveredUniverse F) (products : List (Json F)) : Fields F :=
  [("route_id", .str u.routeId), ("universe_generation", .int u.universeGeneration),
    ("products", .arr products), ("leader_catalog_hash", .str u.leaderCatalogHash),
    ("follower_catalog_hash", .str u.followerCatalogHash)]

def canonical (py : Host F) (u : DiscoveredUniverse F) : Except PyError (Json F) :=
  (u.products.mapM (DiscoveredProduct.canonical py)).map fun products =>
    .obj (u.fields products)

def hash (py : Host F) (u : DiscoveredUniverse F) : Except PyError String := do
  Canonical.hash py (← u.canonical py)

end DiscoveredUniverse

def universeFromCanonical (py : Host F) (v : Fields F) :
    Except PyError (DiscoveredUniverse F) := do
  match ← get v "products" with
  | .arr products =>
      pure
        { routeId := ← getText v "route_id"
          universeGeneration := ← getInt v "universe_generation"
          products := ← products.mapM fun p => do productFromCanonical py (← asDict p)
          leaderCatalogHash := ← getText v "leader_catalog_hash"
          followerCatalogHash := ← getText v "follower_catalog_hash" }
  | _ => throw (.cellError "A discovered universe requires a list of products.")

end PairCell.Canonical
