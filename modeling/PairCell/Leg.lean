import Mathlib.Algebra.Order.Ring.Rat
import Mathlib.Algebra.Order.Group.Unbundled.Abs
import PairCell.Write

/-!
# The local leg

Prices and evidence of the local leg, the status reports it sends, and the
requests that begin its containment.
-/

namespace PairCell

open Lib

/-! ## Executable prices -/

def roundHalfEven (q : Rat) : Int :=
  let low := q.floor
  let rest := q - low
  if rest < 1 / 2 then low
  else if 1 / 2 < rest then low + 1
  else if low % 2 = 0 then low else low + 1

def roundToTick (price tick : Rat) : Rat := roundHalfEven (price / tick) * tick

/-- Whether broker evidence preserves one requested executable protection price. -/
def sameProtectionPrice (expected observed tick : Option Rat) : Bool :=
  match expected, observed, tick with
  | some expected, some observed, some tick =>
      if tick ≤ 0 then false
      else if expected ≠ roundToTick expected tick then false
      else if observed = expected then true
      else
        let bound : Rat := 1 / 1000000000000
        let serializationError :=
          min (tick / 1000000) (max bound (max |expected| |observed| * bound))
        decide (|observed - expected| ≤ serializationError) &&
          decide (roundToTick observed tick = expected)
  | _, _, _ => false

/-! ## Effects of an attempt -/

def Config.effect (c : Config) (a : Attempt) (kind : EffectKind) : EffectId :=
  .cell a.attemptId c.workerId kind

def entryEffectId (c : Config) (a : Attempt) : EffectId := c.effect a .entry

def entryPayload (a : Attempt) (role : Role) : Payload :=
  .market a.symbol a.lots (a.directionOf role) a.fillingMode (a.roughOf role).1
    (a.roughOf role).2

/-- Whether the accepted policy only simulates. -/
def World.shadow (w : World) : Bool :=
  match w.mem.policy with
  | some p => decide (p.mode = .shadow)
  | none => false

/-! ## Evidence -/

def positionMatches (p : Position) (symbol : String) (direction : Direction)
    (volume : Rat) : Bool :=
  decide (p.symbol = symbol) && decide (p.side = some direction) &&
    decide (p.volume = some volume)

def attemptMatches (a : Attempt) (role : Role) (s : Snapshot) : List Position :=
  s.positions.filter fun p => positionMatches p a.symbol (a.directionOf role) a.lots

def Position.text (p : Position) : Ticket := .broker p.ticket

def Order.text (o : Order) : Ticket := .broker o.ticket

/-- Why the local evidence is not exact. -/
def ownEvidenceInconsistency (w : World) : Option String :=
  match w.mem.attempt, w.mem.leg with
  | some a, some l =>
      if l.entryStatus ≠ .filled then some "no exact position evidence"
      else if l.ticket = none then some "the observed position has no ticket"
      else if l.fillPrice = none then some "the observed position has no fill price"
      else if l.observedVolume ≠ some a.lots then
        some "the observed volume does not match the immutable attempt volume"
      else if w.script.tickOf l.role = none then
        some "no sizing plan exists for the immutable attempt version"
      else if l.protectionStatus = .rough ∨ l.protectionStatus = .fallback then
        if !sameProtectionPrice (some (a.roughOf l.role).1) l.observedSl
            (w.script.tickOf l.role) then
          some "the observed stop loss does not match the attached rough protection"
        else if !sameProtectionPrice (some (a.roughOf l.role).2) l.observedTp
            (w.script.tickOf l.role) then
          some "the observed take profit does not match the attached rough protection"
        else none
      else none
  | _, _ => some "no exact position evidence"

def Role.peer : Role → Role
  | .leader => .follower
  | .follower => .leader

/-- Whether the peer's reported evidence is exact, and what contradicts it. -/
def peerEvidenceState (w : World) : Bool × Option String :=
  let peer := w.mem.peerLeg
  let role := w.cfg.role.peer
  match w.mem.attempt with
  | none => (false, none)
  | some a =>
      if peer.status ≠ .filled then (false, none)
      else if peer.ticket = none then (false, some "the peer position has no ticket")
      else if peer.fillPrice = none then
        (false, some "the peer position has no fill price")
      else if peer.symbol ≠ some a.symbol then
        (false, some "the peer position symbol does not match the attempt")
      else if peer.side ≠ some (a.directionOf role) then
        (false, some "the peer position side does not match the attempt")
      else if peer.volume ≠ some a.lots then
        (false,
          some "the peer position volume does not match the immutable attempt volume")
      else if w.script.tickOf role = none then
        (false, some "no sizing plan exists for the peer immutable attempt version")
      else if !(
          sameProtectionPrice (some (a.roughOf role).1) peer.sl (w.script.tickOf role) &&
            sameProtectionPrice (some (a.roughOf role).2) peer.tp
              (w.script.tickOf role)) then
        (false, some "the peer position is missing its attached rough protection")
      else (true, none)

/-- No order and no position in the latest readiness facts of a connected terminal. -/
def brokerVerifiedEmpty (w : World) : Bool :=
  match w.mem.aux.localFacts with
  | some f => decide (f.orders = some []) && decide (f.positions = some []) &&
      f.terminalConnected
  | none => false

/-! ## Persistence and reports -/

def persistLeg (l : Leg) : M Unit := do
  emit (.saveLeg l)
  bumpStateVersion

structure StatusReport where
  status : Status
  attemptId : Option Nat := none
  ticket : Option Ticket := none
  fillPrice : Option Rat := none
  sl : Option Rat := none
  tp : Option Rat := none
  reason : Reason := ⟨"", false⟩
  receiptRetcode : Option Int := none

def StatusReport.payload (r : StatusReport) (w : World) (attemptId : Nat) : LegStatus :=
  let own := w.mem.attempt.filter fun a => decide (a.attemptId = attemptId)
  { attemptId := attemptId
    status := r.status
    ticket := r.ticket
    symbol := own.map Attempt.symbol
    side := own.map fun a => a.directionOf w.cfg.role
    volume := own.map Attempt.lots
    fillPrice := r.fillPrice
    sl := r.sl
    tp := r.tp
    reason := r.reason
    productId := own.map Attempt.productId
    receiptRetcode := r.receiptRetcode }

def reportLegStatus (r : StatusReport) : M Unit := do
  let w ← get
  match r.attemptId.or w.attemptId? with
  | none => pure ()
  | some attemptId => emit (.relay (.legStatus (r.payload w attemptId)))

/-- The reason to attach when `empty` is reported. -/
def emptyLegStatusReason (w : World) (attemptId : Nat) : Reason :=
  if attemptId ∈ w.mem.aux.operatorShutdownAttempts then operatorShutdown else ⟨"", false⟩

def reportEmpty (a : Attempt) : M Unit := do
  let w ← get
  reportLegStatus { status := .empty, reason := emptyLegStatusReason w a.attemptId }

def reportCurrentLegStatus : M Unit := do
  let w ← get
  match w.mem.leg, w.mem.attempt with
  | some l, some a =>
      if l.emptyVerified then reportEmpty a
      else if l.protectionStatus = .precise then
        reportLegStatus { status := .protectionPrecise, sl := l.preciseSl,
                          tp := l.preciseTp }
      else if l.entryStatus = .filled then
        reportLegStatus { status := .filled, ticket := l.ticket, fillPrice := l.fillPrice,
                          sl := l.observedSl, tp := l.observedTp }
      else reportLegStatus { status := l.entryStatus.report }
  | _, _ => pure ()

def notifyEntryFailed (reason : String) : M Unit := do
  let w ← get
  match w.mem.attempt with
  | none => pure ()
  | some a => emit (.relay (.pairEntryFailed a.attemptId reason))

/-! ## Containment requests and operator stops -/

def desireEmpty (reason : Reason) : M Unit := do
  let w ← get
  modifyAux fun x => { x with timerDeadline := none }
  emit (.saveDesired .empty w.mem.pairConfirmed)
  emit (.transition (.closeRequested reason))
  note "timing:containment_start"

/-- A repeated close keeps the shutdown marker armed. -/
def beginClose (reason : Reason) : M Unit := do
  let w ← get
  match w.mem.attempt with
  | none => pure ()
  | some a => do
      if reason.shutdown then
        modifyAux fun x => { x with
          operatorShutdownAttempts := x.operatorShutdownAttempts.insert a.attemptId }
      if w.mem.desired = .empty then pure () else desireEmpty reason

def setNeedsHuman (s : Stop) : M Unit := do
  let w ← get
  if w.mem.needsHuman = some s then pure () else emit (.latch s)

end PairCell
