import PairCell.Ledger
import PairCell.Play

/-!
# The runtime around a cell

`PairCellRuntime` owns the pairing of one Worker: it answers the controller,
constructs the cell once a route exists and takes it down when the route is
gone.  It keeps a durable copy of the route, the frozen startup balance, and in
memory the tickets whose closing it still has to charge.

A message of the controller is handled between two calls of the cell.  What a
handler still has to do once the cell has finished a call stands on the
agenda.  The texts of diagnostics are left out.
-/

namespace PairCell

open Lib World

/-! ## Records of a pairing -/

structure Options where
  role : Option Role := none
  followerWorkerId : Option Nat := none
  interactive : Bool := false
  unpair : Bool := false
  deriving DecidableEq, Repr

structure DurableRoute where
  routeId : Nat
  role : Role
  leaderWorkerId : Nat
  followerWorkerId : Nat
  balance : Rat
  state : RouteState
  proposalId : Option Nat
  deriving DecidableEq, Repr

structure FrozenBudget where
  proposalId : Nat
  role : Role
  counterpartyWorkerId : Nat
  balance : Rat
  deriving DecidableEq, Repr

/-- Whether the budget belongs to the pairing that is adopted. -/
def FrozenBudget.boundTo (b : FrozenBudget) (role : Role) (counterparty : Nat)
    (proposalId : Option Nat) : Bool :=
  decide (b.role = role) && decide (b.counterpartyWorkerId = counterparty) &&
    proposalId.all fun p => decide (p = b.proposalId)

/-- The controller's route as a message carries it. -/
structure RouteView where
  routeId : Option Nat := none
  leaderWorkerId : Option Nat := none
  followerWorkerId : Option Nat := none
  role : Option Role := none
  state : Option RouteState := none
  deriving DecidableEq, Repr

inductive PairingState where
  | unstarted | declaring | selecting | listing | proposing | awaitingDecision | available
  | deciding | unpaired | routed
  deriving DecidableEq, Repr

/-- The route-scoped tables beside those of `Disk`, by their rows. No step of the cell
writes to them here, so that only a route change can: what they hold is not modelled. -/
structure RouteTables where
  route : List Nat := []
  pairingAcceptance : List Nat := []
  universes : List Nat := []
  planVersion : List Nat := []
  sizingPlans : List Nat := []
  peerSizingPlans : List Nat := []
  productSuspend : List Nat := []
  discoveryExcluded : List Nat := []
  reconnectCooldown : List Nat := []
  deriving DecidableEq, Repr

/-! ## Realized results -/

/-- A deal of the broker history: its `entry`, when there is one, and its amounts. -/
structure Deal where
  entry : Option Int
  amounts : List Rat
  deriving DecidableEq, Repr

def dealExitEntries : List Int := [1, 2, 3]

/-- The realized amount of a position, once the broker proves it closed. -/
def readClosedRealizedUsd (deals : Option (List Deal))
    (observedOpen : Bool) : Option Rat :=
  match deals with
  | none => none
  | some deals =>
      let entrySeen := deals.any fun d => d.entry.isSome
      let closed := deals.any fun d => d.entry.any fun e => decide (e ∈ dealExitEntries)
      let amounts := deals.flatMap Deal.amounts
      if deals = [] then none
      else if entrySeen && !closed then none
      else if !entrySeen && !observedOpen then none
      else if amounts = [] then none
      else some amounts.sum

structure Realized where
  ticket : Ticket
  attemptId : Nat
  amount : Rat
  deriving DecidableEq, Repr

/-- A row of `cell_realized_pnl`; its event id is the ticket of the position. -/
structure PnlRow where
  ticket : Ticket
  day : Nat
  amount : Rat
  deriving DecidableEq, Repr

/-- `INSERT OR IGNORE`. -/
def insertRealized (rows : List PnlRow) (row : PnlRow) : List PnlRow :=
  if rows.any fun r => decide (r.ticket = row.ticket) then rows else rows ++ [row]

/-- What the runtime remembers of tickets: owned, charged, and seen open. -/
structure Books where
  owned : List (Ticket × Nat) := []
  reported : List Ticket := []
  observedOpen : List Ticket := []
  deriving DecidableEq, Repr

def maxRememberedClosedTickets : Nat := 512

namespace Books

def owns (b : Books) (t : Ticket) : Bool := b.owned.any fun o => decide (o.1 = t)

def markOpen (b : Books) (t : Ticket) : Books :=
  if t ∈ b.observedOpen then b else { b with observedOpen := b.observedOpen ++ [t] }

def own (b : Books) (t : Ticket) (attemptId : Nat) : Books :=
  if t ∈ b.reported ∨ b.owns t then b else { b with owned := b.owned ++ [(t, attemptId)] }

/-- `_observe_outbound_envelope`. -/
def observe (b : Books) (m : Message) : Books :=
  match m with
  | .legStatus p =>
      match p.ticket with
      | some t => b.own t p.attemptId
      | none => b
  | _ => b

/-- A position of a snapshot. -/
def see (attemptId? : Option Nat) (b : Books) (p : Position) : Books :=
  match attemptId? with
  | some i => (b.markOpen p.text).own p.text i
  | none => b.markOpen p.text

/-- An owned ticket is charged. -/
def charge (b : Books) (t : Ticket) : Books :=
  { owned := b.owned.filter fun o => decide (o.1 ≠ t)
    observedOpen := b.observedOpen.filter fun x => decide (x ≠ t)
    reported :=
      let reported := if t ∈ b.reported then b.reported else b.reported ++ [t]
      reported.drop (reported.length - maxRememberedClosedTickets) }

/-- The owned tickets that a snapshot does not show, one after the other. -/
def settle (deals : Ticket → Option (List Deal)) :
    List (Ticket × Nat) → Books → Books × List Realized
  | [], b => (b, [])
  | (t, i) :: rest, b =>
      match readClosedRealizedUsd (deals t) (decide (t ∈ b.observedOpen)) with
      | none => settle deals rest b
      | some amount =>
          let (b', facts) := settle deals rest (b.charge t)
          (b', ⟨t, i, amount⟩ :: facts)

def realizedLossFacts (b : Books) (positions : List Position) (attemptId? : Option Nat)
    (deals : Ticket → Option (List Deal)) : Books × List Realized :=
  let b := positions.foldl (see attemptId?) b
  settle deals (b.owned.filter fun o => decide (∀ p ∈ positions, p.text ≠ o.1)) b

end Books

/-! ## The state of a runtime -/

/-- What a handler does once the cell is idle again. -/
inductive Task where
  | call (c : Call)
  /-- Copy the route state of the cell into the durable route. -/
  | keepState
  | realized (day : Nat) (positions : List Position) (deals : Ticket → Option (List Deal))
  | record (fact : Realized) (day : Nat)

structure Runtime where
  workerId : Nat
  options : Options
  /-- The cell object, or the database it left. -/
  proc : Proc
  tables : RouteTables := {}
  pnl : List PnlRow := []
  route : Option DurableRoute := none
  budget : Option FrozenBudget := none
  acceptance : Option Nat := none
  pendingBudget : Option (Nat × Rat) := none
  startupBalance : Option Rat := none
  failedClosed : Bool := false
  pairingState : PairingState := .unstarted
  pairingDeadline : Option Nat := none
  proposalId : Option Nat := none
  proposalAttempts : Nat := 0
  publishedStateVersion : Option Nat := none
  assertedStateVersion : Option Nat := none
  probedStateVersion : Option Nat := none
  exitAfterSafeUnpair : Bool := false
  books : Books := {}
  agenda : List Task := []

/-- What the session, the broker and the operator answer to a handler. -/
structure Answers where
  now : Nat := 0
  sent : Bool := true
  startupBalance : Option Rat := none
  chosen : Option Nat := none
  refusal : Option String := none
  /-- The configuration grants the role and the risk limits can be computed. -/
  authorized : Bool := true

/-! ## Messages of the controller -/

inductive Control where
  | roleResult (accepted : Bool) (route : Option RouteView) (resolved : Option Role)
  | availableFollowersResult (accepted : Bool)
  | pairingProposalResult (accepted : Bool) (proposalId : Option Nat)
  | pairingDecisionResult (accepted paired : Bool) (route : Option RouteView)
  | routeSyncResult (accepted : Bool) (route : Option RouteView)
  | unpairResult (accepted : Bool) (route : Option RouteView)
  | unpairAssertionResult (accepted routeRemoved : Bool)
  | stateVersionResult (accepted : Bool)
  | pairingProposed (proposalId leaderWorkerId : Option Nat)
  /-- The pairing was refused, failed, or its reservation released. -/
  | pairingEnded
  | routeEstablished (route : Option RouteView) (acceptance : Bool)
  | routeStateChanged (route : Option RouteView)
  | routeRemoved (routeId : Option Nat) (safeUnpair : Bool)
  deriving DecidableEq, Repr

def pairingReservationGraceSeconds : Nat := 90

def absentRoute : String := "the controller holds no route for this Worker"

namespace DurableRoute

/-- `_route_disagreement` of the cell on this route. -/
def disagreement (d : DurableRoute) (v : RouteView) : Option String :=
  if v.routeId = none then some absentRoute
  else if v.routeId ≠ some d.routeId then
    some "the controller's route_id does not match this Worker's durable route"
  else if v.role.any fun r => decide (r ≠ d.role) then
    some "the controller assigns this Worker a different role"
  else if v.leaderWorkerId.any fun w => decide (w ≠ d.leaderWorkerId) then
    some "the controller's route names a different leader"
  else if v.followerWorkerId.any fun w => decide (w ≠ d.followerWorkerId) then
    some "the controller's route names a different follower"
  else none

end DurableRoute

/-- A durable attempt that is not terminal, or an effect the journal holds open. -/
def Disk.openWork (d : Disk) : Bool :=
  d.attempts.any (fun a => decide (a.terminal = none)) || d.anyUnresolved

namespace Runtime

/-- The cell, when it exists and is between two calls. -/
def cell (r : Runtime) : Option World :=
  match r.proc with
  | .up w [] => some w
  | _ => none

def hasCell (r : Runtime) : Bool :=
  match r.proc with
  | .up _ _ => true
  | .down _ _ => false

/-! ### Pairing -/

def discardProposalRecords (r : Runtime) : Runtime :=
  { r with acceptance := none, budget := none, pendingBudget := none }

def idleUnpaired (r : Runtime) : Runtime := { r with pairingState := .unpaired }

def failClosed (r : Runtime) : Runtime :=
  { r with failedClosed := true, pairingState := .unpaired }

def pairingConflict (r : Runtime) : Runtime :=
  let r := { r with proposalId := none }.discardProposalRecords
  if r.options.followerWorkerId.isSome || !r.options.interactive then r.idleUnpaired
  else { r with pairingState := .selecting }

def readStartupBalance (r : Runtime) (x : Answers) : Option Rat :=
  r.startupBalance <|> x.startupBalance

def propose (r : Runtime) (x : Answers) (follower : Nat) : Runtime :=
  match r.readStartupBalance x with
  | none => r.idleUnpaired
  | some balance =>
      let r := { r with startupBalance := some balance }
      if x.sent then
        { r with
          proposalAttempts := r.proposalAttempts + 1
          pendingBudget := some (follower, balance)
          pairingState := .proposing }
      else if r.pairingState = .listing then { r with pairingState := .selecting }
      else r

def beginSelection (r : Runtime) (x : Answers) : Runtime :=
  match r.options.followerWorkerId with
  | some named => if r.proposalAttempts ≠ 0 then r.idleUnpaired else r.propose x named
  | none =>
      if !r.options.interactive then r.idleUnpaired
      else if x.sent then { r with pairingState := .listing }
      else r

def selectFromListing (r : Runtime) (x : Answers) : Runtime :=
  match x.chosen with
  | none => r.idleUnpaired
  | some follower => r.propose x follower

def freezeBudget (r : Runtime) (b : FrozenBudget) : Runtime := { r with budget := some b }

def answerPairingProposal (r : Runtime) (x : Answers)
    (proposalId leader : Option Nat) : Runtime :=
  match proposalId, x.refusal, r.readStartupBalance x with
  | some proposal, none, some balance =>
      let r := { r with
        startupBalance := some balance, acceptance := some proposal,
        proposalId := some proposal }
      let r := r.freezeBudget ⟨proposal, .follower, leader.getD 0, balance⟩
      if x.sent then
        { r with
          pairingState := .deciding
          pairingDeadline := some (x.now + pairingReservationGraceSeconds) }
      else r
  | _, _, _ => r

def reconcileAbsentPairing (r : Runtime) (x : Answers) : Runtime :=
  if r.pairingState ≠ .awaitingDecision ∧ r.pairingState ≠ .deciding then r
  else if r.pairingDeadline.any fun d => decide (x.now < d) then r
  else
    let deciding := decide (r.pairingState = .deciding)
    let r := { r with pairingDeadline := none, proposalId := none }.discardProposalRecords
    if deciding then { r with pairingState := .available } else r.pairingConflict

/-! ### The cell of a route -/

def frozenBalanceFor (r : Runtime) (routeId : Nat) (role : Role) (peer : Nat)
    (proposalId : Option Nat) : Option Rat :=
  match r.route.filter fun d => decide (d.routeId = routeId) with
  | some d => some d.balance
  | none =>
      (r.budget.filter fun b => b.boundTo role peer proposalId).map FrozenBudget.balance

/-- The cell is constructed, fed the catalog and recovered. -/
def constructCell (r : Runtime) (x : Answers) (route : DurableRoute) : Runtime :=
  if !x.authorized then r.failClosed
  else
    match load ⟨r.workerId, route.role, route.routeId⟩ r.proc.disk with
    | none => r.failClosed
    | some w =>
        { r with
          proc := .up w [], route := some route, startupBalance := some route.balance
          pairingState := .routed, agenda := [.call (.event .other), .call .recover] }

/-- Hand the controller's record to the cell. -/
def feedRouteMetadata (r : Runtime) (x : Answers) (view : Option RouteView) : Runtime :=
  match r.cell, r.route with
  | some w, some d =>
      let event :=
        match view with
        | none => Event.routeMetadata x.now w.mem.aux.unpairing (some absentRoute)
        | some v =>
            let role :=
              v.role <|> (if v.leaderWorkerId = some r.workerId then some .leader
                else if v.followerWorkerId = some r.workerId then some .follower else none)
            match d.disagreement { v with role := role } with
            | some why => .routeMetadata x.now w.mem.aux.unpairing (some why)
            | none => .routeMetadata x.now (decide (v.state = some .unpairing)) none
      { r with
        agenda := .call (.event event) :: if view.isSome then [.keepState] else [] }
  | _, _ => r

/-- The tail of `_feed_route_metadata`, once the cell has handled the record. -/
def keepRouteState (r : Runtime) (w : World) : Runtime :=
  match r.route with
  | none => r
  | some d =>
      let state := if w.mem.aux.unpairing then RouteState.unpairing else .active
      if w.mem.aux.metadataReconciliation = none ∧ d.state ≠ state then
        let r := { r with route := some { d with state := state } }
        if state = .unpairing then
          { r with assertedStateVersion := none, probedStateVersion := none }
        else r
      else r

def adoptControllerRoute (r : Runtime) (x : Answers) (v : RouteView)
    (proposalId : Option Nat) :
    Runtime :=
  match v.routeId, v.leaderWorkerId, v.followerWorkerId with
  | some routeId, some leader, some follower =>
      if r.hasCell then r.feedRouteMetadata x (some v)
      else if r.workerId ≠ leader ∧ r.workerId ≠ follower then r.idleUnpaired
      else
        let role : Role := if r.workerId = leader then .leader else .follower
        let peer := if role = .leader then follower else leader
        let existing := r.route.filter fun d => decide (d.routeId = routeId)
        let bound := r.budget.filter fun b => b.boundTo role peer none
        let proposal :=
          proposalId <|> existing.bind DurableRoute.proposalId <|>
            bound.map FrozenBudget.proposalId
        match r.frozenBalanceFor routeId role peer proposal with
        | none => r.failClosed
        | some balance =>
            r.constructCell x
              ⟨routeId, role, leader, follower, balance, v.state.getD .active, proposal⟩
  | _, _, _ => r

/-- `_unresolved_local_work`. -/
def unresolvedLocalWork (w : World) : Bool := w.mem.attempt.isSome || w.disk.openWork

/-- `SafeUnpairAssertion.safe`. -/
def safeUnpairAssertion (w : World) : Bool :=
  brokerVerifiedEmpty w && !unresolvedLocalWork w

/-- Clear one pairing's state; attempt evidence goes only as a whole, and only when
terminal. -/
def resetRouteScopedState (d : Disk) : Disk :=
  let d := { d with policy := none, stop := none }
  if d.attempts.any fun a => decide (a.terminal = none) then d
  else
    { d with
      attempts := [], legs := .empty, peerLegs := .empty,
      desired := none, active := .empty }

def routeRemoved (r : Runtime) (safeUnpair : Bool) : Runtime :=
  { r.discardProposalRecords with
    proc := .down r.proc.cfg (resetRouteScopedState r.proc.disk)
    tables := {}
    route := none
    failedClosed := false
    proposalId := none
    publishedStateVersion := none
    assertedStateVersion := none
    probedStateVersion := none
    proposalAttempts := 0
    books := { r.books with owned := [], observedOpen := [] }
    startupBalance := none
    pairingState := .unstarted
    exitAfterSafeUnpair := r.exitAfterSafeUnpair || r.options.unpair && safeUnpair }

/-- The cell notes the assertion it has produced. -/
def noteAssertion (r : Runtime) (w : World) : Runtime :=
  { r with proc := .up (w.act (.transition (.note "safe_unpair_assertion"))) [] }

/-- The controller holds no route while this Worker still has a copy. -/
def reconcileAbsentControllerRoute (r : Runtime) (x : Answers) : Runtime :=
  match r.cell, r.route with
  | some w, some d =>
      if d.state ≠ .unpairing then r.feedRouteMetadata x none
      else
        let r := r.noteAssertion w
        if !safeUnpairAssertion w || decide (w.cfg.routeId ≠ d.routeId) then
          r.feedRouteMetadata x none
        else r.routeRemoved true
  | _, _ => r

/-! ### Replies and notifications -/

def handleControlResult (r : Runtime) (x : Answers) : Control → Runtime
  | .roleResult accepted route resolved =>
      if !accepted then r.idleUnpaired
      else
        match route with
        | some v => r.adoptControllerRoute x v none
        | none =>
            if r.options.unpair then
              { r with pairingState := .unpaired, exitAfterSafeUnpair := true }
            else if resolved = some .leader then
              { r with pairingState := .selecting }.beginSelection x
            else { r with pairingState := .available }
  | .availableFollowersResult accepted =>
      if accepted then r.selectFromListing x else r.idleUnpaired
  | .pairingProposalResult accepted proposalId =>
      if !accepted then r.pairingConflict
      else
        let r := { r with proposalId := proposalId }
        let r :=
          match proposalId, r.pendingBudget with
          | some p, some (counterparty, balance) =>
              r.freezeBudget ⟨p, .leader, counterparty, balance⟩
          | _, _ => r
        { r with
          pairingState := .awaitingDecision
          pairingDeadline := some (x.now + pairingReservationGraceSeconds) }
  | .pairingDecisionResult accepted paired route =>
      if !accepted then
        { { r with proposalId := none }.discardProposalRecords with
          pairingState := .available }
      else
        match paired, route with
        | true, some v => r.adoptControllerRoute x v r.proposalId
        | _, _ => { r with proposalId := none, pairingState := .available }
  | .routeSyncResult accepted route =>
      if !accepted then r
      else
        match route with
        | some v => r.adoptControllerRoute x v none
        | none =>
            if r.hasCell then r.reconcileAbsentControllerRoute x
            else r.reconcileAbsentPairing x
  | .unpairResult accepted route =>
      match accepted, route with
      | true, some v => r.feedRouteMetadata x (some v)
      | _, _ => r
  | .unpairAssertionResult accepted removed =>
      if accepted && removed then r.routeRemoved true
      else if !accepted then { r with assertedStateVersion := none }
      else r
  | .stateVersionResult accepted =>
      if accepted then r else { r with publishedStateVersion := none }
  | _ => r

def handleControlPush (r : Runtime) (x : Answers) : Control → Runtime
  | .pairingProposed proposalId leader => r.answerPairingProposal x proposalId leader
  | .pairingEnded =>
      if r.hasCell then r
      else
        let r := { r with proposalId := none }.discardProposalRecords
        if r.route = none ∧ r.options.role ≠ some .leader ∧
            (r.pairingState = .available ∨ r.pairingState = .deciding) then
          { r with pairingState := .available }
        else r.pairingConflict
  | .routeEstablished route acceptance =>
      match route with
      | some v =>
          let r := r.adoptControllerRoute x v r.proposalId
          -- the forwarded payload is an envelope of the peer for the cell
          if acceptance && (r.route.any fun d => decide (d.role = .leader)) &&
            r.hasCell then
            { r with agenda := r.agenda ++ [.call (.event .other)] }
          else r
      | none => r
  | .routeStateChanged route =>
      match route with
      | some v => r.feedRouteMetadata x (some v)
      | none => r
  | .routeRemoved routeId safeUnpair =>
      match r.route with
      | some d => if routeId = some d.routeId then r.routeRemoved safeUnpair else r
      | none => r
  | _ => r

def isResult : Control → Bool
  | .pairingProposed .. | .pairingEnded | .routeEstablished .. | .routeStateChanged ..
  | .routeRemoved .. => false
  | _ => true

def control (r : Runtime) (x : Answers) (m : Control) : Runtime :=
  if isResult m then r.handleControlResult x m else r.handleControlPush x m

/-! ### Steps -/

/-- A call of the cell begins. -/
def begin (r : Runtime) (w : World) (call : Call) (script : Script) : Runtime :=
  { r with proc := .up (w.given call script) (call.run (w.given call script)).2 }

/-- The first task of the agenda, when the cell `w` is idle. -/
def work (r : Runtime) (w : World) (script : Script) (task : Task)
    (rest : List Task) : Runtime :=
  match task with
  | .call c => { r.begin w c script with agenda := rest }
  | .keepState => { r.keepRouteState w with agenda := rest }
  | .realized day positions deals =>
      let (books, facts) :=
        r.books.realizedLossFacts positions w.attemptId? deals
      { r with books := books, agenda := facts.map (fun f => .record f day) ++ rest }
  | .record fact day =>
      { r with
        pnl := insertRealized r.pnl ⟨fact.ticket, day, fact.amount⟩
        agenda := .call (.event .other) :: rest }

/-- The session is gone: the runtime is closed and built again from what is durable. -/
def rebuild (r : Runtime) (x : Answers) : Runtime :=
  let fresh : Runtime :=
    { workerId := r.workerId, options := r.options, proc := .down r.proc.cfg r.proc.disk
      tables := r.tables, pnl := r.pnl, route := r.route, budget := r.budget
      acceptance := r.acceptance }
  match r.route with
  | none => fresh
  | some d => fresh.constructCell x d

/-- What the runtime notes of an action of its cell. -/
def noted (r : Runtime) : Label → Books
  | .exec (.relay m) => r.books.observe m
  | _ => r.books

def idle (r : Runtime) : Bool :=
  r.agenda.isEmpty &&
    match r.proc with
    | .up _ todo => todo.isEmpty
    | .down _ _ => true

end Runtime

inductive RuntimeLabel where
  | cell (l : Label)
  | snapshot (now day : Nat) (script : Script) (s : Snapshot)
      (deals : Ticket → Option (List Deal))
  | work (script : Script)
  | control (x : Answers) (m : Control)
  | rebuild (x : Answers)

/-- The cell is called, or works on, while the runtime is up. -/
def Label.running : Label → Bool
  | .crash | .reopen => false
  | _ => true

/-- Only an action of a call goes on while the agenda waits. -/
def Label.isExec : Label → Bool
  | .exec _ => true
  | _ => false

inductive Runtime.Step : Runtime → RuntimeLabel → Runtime → Prop where
  | cell {r : Runtime} {l : Label} {p : Proc} (hl : l.running = true)
      (hturn : r.agenda = [] ∨ l.isExec = true) (hstep : Proc.Step r.proc l p) :
      Step r (.cell l) { r with proc := p, books := r.noted l }
  | snapshot {r : Runtime} {w : World} (now day : Nat) (script : Script) (s : Snapshot)
      (deals : Ticket → Option (List Deal)) (hcell : r.cell = some w)
          (hagenda : r.agenda = [])
      (hread : script.reads.head? = some (some s)) (hfresh : script.Fresh w.disk) :
      Step r (.snapshot now day script s deals)
        { r.begin w (.event (.brokerSnapshot now)) script with
          agenda := [.realized day s.positions deals] }
  | work {r : Runtime} {w : World} {task : Task} {rest : List Task} (script : Script)
      (hcell : r.cell = some w) (hagenda : r.agenda = task :: rest)
      (hfresh : script.Fresh w.disk) : Step r (.work script) (r.work w script task rest)
  | control {r : Runtime} (x : Answers) (m : Control) (hidle : r.idle = true) :
      Step r (.control x m) (r.control x m)
  | rebuild {r : Runtime} (x : Answers) : Step r (.rebuild x) (r.rebuild x)

end PairCell
