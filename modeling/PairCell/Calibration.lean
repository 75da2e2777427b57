import Mathlib.Data.Rat.Floor
import Mathlib.Tactic.FieldSimp
import PairCell.Lib.Median

/-!
# The broker clock

A Worker measures how far its broker's clock is from UTC by a few samples of a
tick, and charges what it cannot know as an error.  Quotes are aged and
compared on the calibrated time with that error added.  Instants are in
microseconds; offsets, errors and ages are exact numbers of seconds.
-/

namespace PairCell.Calibration

open Lib

abbrev Instant := Int

def seconds (t : Instant) : ℚ := t / 1000000

/-- `timedelta(seconds=x)`, in microseconds. -/
def timedelta (x : ℚ) : Int := halfEven (x * 1000000)

def roundMicro (x : ℚ) : ℚ := halfEven (x * 1000000) / 1000000

inductive Status where
  | calibrated
  | stale
  | uncalibrated
  deriving DecidableEq, Repr

structure BrokerClockCalibration where
  offsetSeconds : ℚ
  errorSeconds : ℚ
  status : Status
  nonneg : 0 ≤ errorSeconds

def BrokerClockCalibration.usable (c : BrokerClockCalibration) : Bool :=
  decide (c.status = .calibrated)

/-! ## Sampling -/

/-- The numbers a tick carries, if they are numbers. -/
structure TickEvidence where
  timeMsc : Option ℚ
  time : Option ℚ
  deriving DecidableEq, Repr

/-- `_tick_epoch_milliseconds`; nothing for invalid evidence. -/
def tickEpochMilliseconds (evidence : TickEvidence) : Option Int :=
  match evidence.timeMsc.filter (0 < ·), evidence.time.filter (0 < ·) with
  | some milliseconds, _ => some ⌊milliseconds⌋
  | none, some time => some ⌊time * 1000⌋
  | none, none => none

/-- One sample: the clock before and after the tick was read, and the tick if it was
readable. -/
structure Reading where
  before : Instant
  evidence : Option TickEvidence
  after : Instant
  deriving DecidableEq, Repr

namespace Reading

def epoch (r : Reading) : Option Int := r.evidence.bind tickEpochMilliseconds

def midpoint (r : Reading) : Instant :=
  r.before + halfEven ((r.after - r.before : Int) / 2 : ℚ)

def span (r : Reading) : ℚ := seconds (r.after - r.before)

end Reading

structure Sample where
  offset : ℚ
  span : ℚ
  observedAt : Instant
  deriving DecidableEq, Repr

/-- The samples of readings whose ticks strictly advance; nothing for any others. -/
def collect : Option Int → List Reading → Option (List Sample)
  | _, [] => some []
  | previous, r :: rs =>
      match r.epoch with
      | none => none
      | some epoch =>
          if previous.any (epoch ≤ ·) then none
          else
            (collect (some epoch) rs).map fun samples =>
              ⟨epoch / 1000 - seconds r.midpoint, r.span, r.after⟩ :: samples

structure BrokerClockSample where
  calibration : BrokerClockCalibration
  sampledAt : Instant

inductive Failure where
  | tooFewSamples
  | negativeError
  deriving DecidableEq, Repr

def maxCalibrationDispersion : ℚ := 5

def residual (offsets : List ℚ) : ℚ := max 0 (offsets.max?.getD 0 - median offsets)

def dispersion (offsets : List ℚ) : ℚ := offsets.max?.getD 0 - offsets.min?.getD 0

/-- What is charged for what the median cannot tell. -/
def samplingError (offsets spans : List ℚ) : ℚ :=
  residual offsets + dispersion offsets + spans.max?.getD 0 / 2

def sampleBrokerClockCalibration (readings : List Reading) :
    Except Failure (Option BrokerClockSample) :=
  if readings.length < 2 then .error .tooFewSamples
  else
    match collect none readings with
    | none => .ok none
    | some samples =>
        let offsets := samples.map (·.offset)
        if maxCalibrationDispersion < dispersion offsets then .ok none
        else
          let error := roundMicro (samplingError offsets (samples.map (·.span)))
          match samples.getLast? with
          | none => .ok none
          | some last =>
              if h : 0 ≤ error then
                .ok (some ⟨⟨median offsets, error, .calibrated, h⟩, last.observedAt⟩)
              else .error .negativeError

/-! ## Quotes -/

structure QuoteSnapshot where
  brokerTime : Instant
  calibration : BrokerClockCalibration

namespace QuoteSnapshot

def calibratedBrokerTime (q : QuoteSnapshot) : Instant :=
  q.brokerTime - timedelta q.calibration.offsetSeconds

def ageSeconds (q : QuoteSnapshot) (now : Instant) : ℚ :=
  seconds (now - q.calibratedBrokerTime) + q.calibration.errorSeconds

def fresh (q : QuoteSnapshot) (now : Instant) (maxAgeSeconds : ℚ) : Bool :=
  q.calibration.usable && decide (0 ≤ q.ageSeconds now ∧ q.ageSeconds now ≤ maxAgeSeconds)

end QuoteSnapshot

def calibratedSkewSeconds (leader follower : QuoteSnapshot) : ℚ :=
  |seconds (leader.calibratedBrokerTime - follower.calibratedBrokerTime)| +
    leader.calibration.errorSeconds + follower.calibration.errorSeconds

end PairCell.Calibration
