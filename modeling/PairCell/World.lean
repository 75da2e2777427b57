import PairCell.Lib.Table
import PairCell.Lib.Trace
import PairCell.Types

/-!
# The worker a cell runs on

`Disk` is what survives the process: the cell database and the effect journal,
each change one committed transaction.  `Mem` is the cell object.  `Script`
holds what the rest of the worker and the outside world answer while one event
is handled: broker replies and reads, scheduler turns, clock readings, and the
verdicts of the subsystems that decide nothing about an attempt's life.

`Action` lists the atomic changes.  A memory change that no other code can see
before the next commit is part of that commit's action.
-/

namespace PairCell

open Lib

/-! ## Durable state -/

/-- A row of the effect journal; `own`, which nothing reads, says that
the cell prepared it. -/
structure JournalRow where
  payload : Payload
  state : EffectState
  retcode : Option Int := none
  own : Bool
  deriving DecidableEq, Repr

def JournalRow.unresolved (r : JournalRow) : Bool :=
  match r.state with
  | .prepared | .sendStarted => true
  | .receipt | .observed => false

structure Sent where
  effect : EffectId
  payload : Payload
  reply : Reply
  deriving DecidableEq, Repr

structure Policy where
  hash : Nat
  mode : Mode
  maximumHoldingSeconds : Option Nat := none
  deriving DecidableEq, Repr

/--
The cell database and the effect journal.  `sent` and `relayed` are the history
of what has left the worker; nothing in the worker reads them.
-/
structure Disk where
  attempts : List AttemptRow := []
  legs : Table Nat Leg := .empty
  peerLegs : Table Nat PeerRow := .empty
  desired : Option DesiredRow := none
  stop : Option Stop := none
  policy : Option Policy := none
  active : Table Nat Nat := .empty
  transitions : List Transition := []
  stateVersion : Nat := 0
  journal : Table EffectId JournalRow := .empty
  sent : List Sent := []
  relayed : List Message := []

namespace Disk

def rowOf (d : Disk) (attemptId : Nat) : Option AttemptRow :=
  d.attempts.find? fun r => decide (r.attempt.attemptId = attemptId)

def unresolved (d : Disk) (e : EffectId) : Bool :=
  match d.journal.get e with
  | some r => r.unresolved
  | none => false

/-- The cell prepared the effect, not another client. -/
def ownEffect (d : Disk) (e : EffectId) : Bool :=
  match d.journal.get e with
  | some r => r.own
  | none => false

def anyUnresolved (d : Disk) : Bool := d.journal.any fun _ r => r.unresolved

def wasSent (d : Disk) (e : EffectId) : Prop := ∃ s ∈ d.sent, s.effect = e

instance (d : Disk) (e : EffectId) : Decidable (d.wasSent e) :=
  inferInstanceAs (Decidable (∃ s ∈ d.sent, s.effect = e))

end Disk

/-! ## Memory -/

structure Facts where
  orders : Option (List Order)
  positions : Option (List Position)
  terminalConnected : Bool
  marginHeadroomOk : Bool
  deriving DecidableEq, Repr

/-- The part of the cell object that only decides when something happens, never what. -/
structure Aux where
  now : Nat := 0
  timerDeadline : Option Nat := none
  proofWaitStarted : Option Nat := none
  proofLastProbe : Option Nat := none
  proofProbesSent : Nat := 0
  replayDeferred : List (EffectId × Nat) := []
  lastOrders : Option (List Order) := none
  lastPositions : Option (List Position) := none
  operatorShutdownAttempts : List Nat := []
  peerSession : Bool := true
  unpairing : Bool := false
  metadataReconciliation : Option String := none
  localFacts : Option Facts := none
  deriving DecidableEq, Repr

/--
The cell object.  The last five fields are the model's own: the effect whose
`send_started` was just committed, the effect whose write is under way, the
effect whose observation is about to be recorded, whether an entry has succeeded
that the leg does not show yet, and the broker snapshot read since the attempt
was adopted and since the last `order_send`.
-/
structure Mem where
  attempt : Option Attempt := none
  leg : Option Leg := none
  peerLeg : PeerLegView := {}
  desired : DesiredState := .none
  pairConfirmed : Bool := false
  state : PairState := .idle
  recovering : Bool := false
  needsHuman : Option Stop := none
  policy : Option Policy := none
  activeSince : Option Nat := none
  aux : Aux := {}
  armed : Option EffectId := none
  writing : Option EffectId := none
  owed : Option EffectId := none
  due : Bool := false
  read : Option Snapshot := none

/-! ## Inputs -/

inductive OutcomeCategory where
  | completed | rejectedPreflight | expiredNotStarted | unknownAfterSend
      | rejectedWorkerState
  deriving DecidableEq, Repr

/--
A scheduled item of another client that the cell drains past.  `allowed` says
that trading is permitted, the request could be built and its own deadline had
not passed.
-/
structure ForeignItem where
  effect : EffectId
  payload : Payload
  allowed : Bool
  deriving DecidableEq, Repr

inductive Surfaced where
  | own
  | outcome (category : OutcomeCategory)
  | exhausted
  deriving DecidableEq, Repr

structure Turn where
  refused : Option OutcomeCategory := none
  drained : List ForeignItem := []
  surfaced : Surfaced := .own
  expired : Option OutcomeCategory := none
  deriving DecidableEq, Repr

structure Script where
  delivered : Option Message := none
  replies : List Reply := []
  reads : List (Option Snapshot) := []
  turns : List Turn := []
  ticks : List Nat := []
  /-- The tick size of the attempt-bound plan of each role, when that plan is known. -/
  leaderTick : Option Rat := none
  followerTick : Option Rat := none
  /-- The mirrored box, when one contains both fills. -/
  mirror : Option (Rat × Rat) := none
  decision : Option Attempt := none
  /-- The reason and the text of the blackout that currently forbids trading. -/
  blackout : Option (String × String) := none
  /-- Why the cell is not ready, in the subsystem named; each stands where its check
  stands. -/
  notReadyUniverse : Option String := none
  notReadyRisk : Option String := none
  notReadyAllowance : Option String := none
  notReadyPlans : Option String := none
  notReadyCooldown : Option String := none
  /-- Why the attempt is not admitted, in the subsystem named. -/
  notAdmittedUniverse : Option String := none
  notAdmittedQuarantine : Option String := none
  notAdmittedPlan : Option String := none
  /-- How many nested broker reads the interpreter's stack allows. -/
  depth : Nat := 0

def Script.tickOf (s : Script) : Role → Option Rat
  | .leader => s.leaderTick
  | .follower => s.followerTick

structure Config where
  workerId : Nat
  role : Role
  routeId : Nat
  deriving DecidableEq, Repr

structure World where
  cfg : Config
  disk : Disk := {}
  mem : Mem := {}
  script : Script := {}

/-! ## Atomic actions -/

inductive Action where
  | adopt (a : Attempt)
  | refuse (a : Attempt) (reason : String)
  | terminate (reason : TerminalReason)
  | saveLeg (l : Leg)
  | memLeg (l : Leg)
  | savePeerLeg (v : PeerLegView)
  | latePeerLeg (l : LegStatus)
  | saveDesired (desired : DesiredState) (confirmed : Bool)
  | saveActive (since : Nat)
  | savePolicy (p : Policy)
  | latch (stop : Stop)
  | unlatch (toEmpty : Bool) (event : String)
  | transition (event : TransitionEvent)
  | bump
  | setState (s : PairState)
  | setRecovering (b : Bool)
  | setAux (a : Aux)
  | prepare (e : EffectId) (p : Payload) (own : Bool)
  | markSendStarted (e : EffectId)
  | recordReceipt (e : EffectId) (retcode : Option Int)
  | recordObservation (e : EffectId)
  | orderSend (e : EffectId) (p : Payload) (r : Reply)
  | brokerRead (s : Option Snapshot)
  | turn (e : EffectId) (exhausted : Bool)
  | complete (e : EffectId)
  | tick
  | relay (m : Message)
  deriving DecidableEq, Repr

def successRetcode : Option Int → Bool
  | some code => decide (code ∈ successRetcodes)
  | none => false

/-- The order was answered by a receipt that the journal can keep and that is a success. -/
def succeeded : Response → Bool
  | .receipt retcode true => successRetcode retcode
  | _ => false

namespace World

def attemptId? (w : World) : Option Nat := w.mem.attempt.map Attempt.attemptId

def addTransition (w : World) (event : TransitionEvent) : World :=
  { w with disk := { w.disk with
      transitions := w.disk.transitions ++ [⟨w.attemptId?, event, w.mem.aux.now⟩] } }

def setJournal (w : World) (e : EffectId) (r : JournalRow) : World :=
  { w with disk := { w.disk with journal := w.disk.journal.set e r } }

/-- Move the journal row of `e` on, when there is one. -/
def moveJournal (w : World) (e : EffectId) (state : EffectState)
    (retcode : Option Int) : World :=
  match w.disk.journal.get e with
  | some r => w.setJournal e { r with state := state, retcode := retcode }
  | none => w

def forgetAttempt (w : World) : World :=
  { w with mem := { w.mem with
      attempt := none, leg := none, peerLeg := {}, desired := .none, pairConfirmed := false
      activeSince := none
      aux := { w.mem.aux with
        timerDeadline := none, proofWaitStarted := none, proofLastProbe := none
        proofProbesSent := 0, replayDeferred := []
        operatorShutdownAttempts :=
          w.mem.aux.operatorShutdownAttempts.filter fun i =>
            decide (some i ≠ w.attemptId?) } } }

def openStatus : EntryStatus → Bool
  | .pending | .unknownAfterSend => true
  | _ => false

/-- Whether saving `l` settles an entry that was open. -/
def settlesEntry (w : World) (l : Leg) : Bool :=
  match w.mem.leg with
  | some old => openStatus old.entryStatus && !openStatus l.entryStatus
  | none => false

/-- The entry effect whose observation has to follow the saved leg. -/
def owes (w : World) (l : Leg) : Option EffectId :=
  if w.settlesEntry l then
    l.entryEffectId.filter fun e => w.disk.unresolved e && w.disk.ownEffect e
  else w.mem.owed

def isReceipt : Response → Bool
  | .receipt _ true => true
  | _ => false

def endWrite (w : World) (e : EffectId) : World :=
  { w with mem := { w.mem with
      writing := w.mem.writing.filter fun x => decide (x ≠ e) } }

def endOwed (w : World) (e : EffectId) : World :=
  { w with mem := { w.mem with owed := w.mem.owed.filter fun x => decide (x ≠ e) } }

/-- What a row becomes when the attempt `id?` is terminated. -/
def terminateRow (id? : Option Nat) (reason : TerminalReason)
    (r : AttemptRow) : AttemptRow :=
  if some r.attempt.attemptId = id? then { r with terminal := some reason } else r

def act (w : World) : Action → World
  | .adopt a =>
      { w with
        disk := { w.disk with attempts := w.disk.attempts ++ [⟨a, w.mem.aux.now, none⟩] }
        mem := { w.mem with attempt := some a, state := .entering, read := none }
        -- the leader's decision is used up
        script := { w.script with decision := none } }
  | .refuse a reason =>
      { w with disk := { w.disk with
          attempts :=
            w.disk.attempts ++ [⟨a, w.mem.aux.now, some (.admissionRejected reason)⟩] } }
  | .terminate reason =>
      let w' := w.addTransition (.terminated reason)
      ({ w' with
        disk :=
          { w'.disk with
            attempts := w.disk.attempts.map (terminateRow w.attemptId? reason) }
        mem := { w.mem with state := .empty } }).forgetAttempt
  | .saveLeg l =>
      { w with
        disk := { w.disk with legs := match w.mem.attempt with
          | some a => w.disk.legs.set a.attemptId l
          | none => w.disk.legs }
        mem := { w.mem with leg := some l, owed := w.owes l, due := false } }
  | .memLeg l => { w with mem := { w.mem with leg := some l } }
  | .savePeerLeg v =>
      { w with
        disk := { w.disk with peerLegs := match w.mem.attempt with
          | some a => w.disk.peerLegs.set a.attemptId (.view v)
          | none => w.disk.peerLegs }
        mem := { w.mem with peerLeg := v } }
  | .latePeerLeg l =>
      { w with disk := { w.disk with
          peerLegs := w.disk.peerLegs.set l.attemptId (.raw l)
          transitions := w.disk.transitions ++
            [⟨some l.attemptId, .note "late_peer_leg_status", w.mem.aux.now⟩] } }
  | .saveDesired desired confirmed =>
      { w with
        disk := { w.disk with desired := some ⟨desired, w.attemptId?, confirmed⟩ }
        mem := { w.mem with desired := desired, pairConfirmed := confirmed } }
  | .saveActive since =>
      { w with
        disk := { w.disk with active := match w.mem.attempt with
          | some a => w.disk.active.set a.attemptId since
          | none => w.disk.active }
        mem := { w.mem with activeSince := some since } }
  | .savePolicy p =>
      { w with disk := { w.disk with policy := some p },
               mem := { w.mem with policy := some p } }
  | .latch stop =>
      ({ w with
        disk := { w.disk with stop := some stop }
        mem := { w.mem with needsHuman := some stop } }).addTransition
          (.note "close_needs_human")
  | .unlatch toEmpty event =>
      ({ w with
        disk := { w.disk with stop := none }
        mem := { w.mem with
          needsHuman := none
          state := if toEmpty then .empty else w.mem.state } }).addTransition (.note event)
  | .transition event => w.addTransition event
  | .bump => { w with disk := { w.disk with stateVersion := w.disk.stateVersion + 1 } }
  | .setState s => { w with mem := { w.mem with state := s } }
  | .setRecovering b => { w with mem := { w.mem with recovering := b } }
  | .setAux a => { w with mem := { w.mem with aux := a } }
  | .prepare e p own =>
      let w := w.setJournal e ⟨p, .prepared, none, own⟩
      if own then { w with mem := { w.mem with writing := some e } } else w
  | .markSendStarted e =>
      let w := w.moveJournal e .sendStarted none
      { w with mem := { w.mem with armed := some e } }
  | .recordReceipt e retcode => (w.moveJournal e .receipt retcode).endWrite e
  | .recordObservation e => ((w.moveJournal e .observed none).endWrite e).endOwed e
  | .orderSend e p r =>
      let w := if isReceipt r.response then w else w.endWrite e
      { w with
        disk := { w.disk with sent := w.disk.sent ++ [⟨e, p, r⟩] }
        mem := { w.mem with
          armed := none, read := none, due := p.isEntry && succeeded r.response }
        script := { w.script with replies := w.script.replies.tail } }
  | .brokerRead s =>
      { w with
        mem := { w.mem with read := s }
        script := { w.script with reads := w.script.reads.tail } }
  | .turn e exhausted =>
      let w := if exhausted then w.endWrite e else w
      { w with script := { w.script with turns := w.script.turns.tail } }
  | .complete _ => w
  | .tick => { w with script := { w.script with ticks := w.script.ticks.tail } }
  | .relay m => { w with disk := { w.disk with relayed := w.disk.relayed ++ [m] } }

instance : Acts World Action := ⟨act⟩

end World

/-- Exceptions that leave an event handler. -/
inductive Exn where
  /-- The receipt could not be written as JSON. -/
  | encode
  /-- The interpreter's recursion limit was reached. -/
  | recursion
  deriving DecidableEq, Repr

abbrev M := Handler World Action Exn

end PairCell
