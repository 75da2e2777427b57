import Mathlib.Algebra.Group.Int.Defs
import PairCell.Lib.Table
import PairCell.Lib.Tx

/-!
# The control ledger: pairing and route ownership

The tables of the controller's database that pairing uses and the operations
on them.  Every operation is one transaction.  Worker, route and proposal
identifiers are the numbers of their UUIDs, so a pair key is the sorted pair
of the two Worker identifiers.  Audit events and the time stamps that no
operation reads are left out.
-/

namespace PairCell

open Lib

inductive RouteState where
  | active | unpairing
  deriving DecidableEq, Repr

inductive ExecutionMode where
  | pairExecutionCell | shadow
  deriving DecidableEq, Repr

inductive WorkerStatus where
  | active | revoked
  deriving DecidableEq, Repr

inductive EnrollmentStatus where
  | pending | approved | rejected | expired
  deriving DecidableEq, Repr

structure Enrollment where
  login : Nat
  server : String
  status : EnrollmentStatus
  expiresAt : Nat
  deriving DecidableEq, Repr

structure WorkerRow where
  enrollmentId : Nat
  login : Nat
  server : String
  status : WorkerStatus
  deriving DecidableEq, Repr

abbrev PairKey := Nat × Nat

def pairKey (leaderWorkerId followerWorkerId : Nat) : PairKey :=
  (min leaderWorkerId followerWorkerId, max leaderWorkerId followerWorkerId)

structure RouteRow where
  pairKey : PairKey
  leaderWorkerId : Nat
  followerWorkerId : Nat
  state : RouteState
  deriving DecidableEq, Repr

structure Reservation where
  leaderWorkerId : Nat
  followerWorkerId : Nat
  reservedAt : Nat
  expiresAt : Nat
  deriving DecidableEq, Repr

/-- State versions and assertions are keyed by route and Worker. -/
structure ControlLedger where
  enrollments : Table Nat Enrollment
  workers : Table Nat WorkerRow
  pairExecutionOwners : Table (PairKey × ExecutionMode) Unit
  pairRoutes : Table Nat RouteRow
  pairRouteIdentifiers : List Nat
  pairRouteReservations : Table Nat Reservation
  stateVersions : Table (Nat × Nat) Int
  unpairAssertions : Table (Nat × Nat) Int

/-- A `LedgerError` with its text, or an error of the database itself. -/
inductive LedgerFault where
  | ledgerError (message : String)
  | constraint
  | conversion
  deriving DecidableEq, Repr

def pairingReservationTimeoutSeconds : Nat := 30

def RouteRow.has (r : RouteRow) (w : Nat) : Bool :=
  r.leaderWorkerId == w || r.followerWorkerId == w

def Reservation.has (r : Reservation) (w : Nat) : Bool :=
  r.leaderWorkerId == w || r.followerWorkerId == w

namespace ControlLedger

def empty : ControlLedger where
  enrollments := .empty
  workers := .empty
  pairExecutionOwners := .empty
  pairRoutes := .empty
  pairRouteIdentifiers := []
  pairRouteReservations := .empty
  stateVersions := .empty
  unpairAssertions := .empty

abbrev Locked := Tx LedgerFault ControlLedger

def refuse {α : Type} (message : String) : Locked α := throw (.ledgerError message)

def ensure (c : Prop) [Decidable c] (message : String) : Locked Unit :=
  Tx.require c (.ledgerError message)

/-! ## What the operations share -/

/-- The Worker's active row, joined with its enrollment. -/
def activeWorker (workerId : Nat) : Locked WorkerRow := do
  let l ← get
  match l.workers.get workerId with
  | none => refuse "Worker is not active."
  | some w =>
      ensure (w.status = .active ∧ (l.enrollments.get w.enrollmentId).isSome)
        "Worker is not active."
      return w

def claimPairExecutionModeLocked (leaderWorkerId followerWorkerId : Nat)
    (mode : ExecutionMode) :
    Locked Unit := do
  let key := pairKey leaderWorkerId followerWorkerId
  let _ ← activeWorker leaderWorkerId
  let _ ← activeWorker followerWorkerId
  let l ← get
  ensure (mode = .shadow ∨ l.pairExecutionOwners.any
      (fun k _ => k.1 == key && k.2 != .shadow && k.2 != mode) = false)
    "This Worker pair already has a different live execution owner."
  modify fun l =>
    { l with pairExecutionOwners := l.pairExecutionOwners.set (key, mode) () }

def releasePairExecutionModeLocked (leaderWorkerId followerWorkerId : Nat)
    (mode : ExecutionMode) :
    Locked Unit :=
  modify fun l => { l with
    pairExecutionOwners := l.pairExecutionOwners.delete
      fun k _ => k == (pairKey leaderWorkerId followerWorkerId, mode) }

def requireRoutedWorkerLocked (routeId workerId : Nat) : Locked RouteRow := do
  let l ← get
  match l.pairRoutes.get routeId with
  | none => refuse "No live Pair Execution Cell route has this route identifier."
  | some route =>
      ensure (route.has workerId = true)
        "This Worker is not on that Pair Execution Cell route."
      return route

/-- Neither Worker may appear in another route, in another reservation or in the execution
claim of another pair. -/
def requirePairWorkerEligibilityLocked (leaderWorkerId followerWorkerId : Nat)
    (ignoreProposalId : Option Nat) : Locked Unit := do
  let l ← get
  ensure (l.pairRoutes.any
    (fun _ r => r.has leaderWorkerId || r.has followerWorkerId) = false)
    "This Worker already appears in a Pair Execution Cell route."
  ensure (l.pairRouteReservations.any (fun p r =>
      some p != ignoreProposalId &&
        (r.has leaderWorkerId || r.has followerWorkerId)) = false)
    "This Worker is already reserved by another live pairing proposal."
  ensure (l.pairExecutionOwners.any (fun k _ =>
      k.2 != .shadow && k.1 != pairKey leaderWorkerId followerWorkerId &&
        [k.1.1, k.1.2].any fun w => w == leaderWorkerId || w == followerWorkerId) = false)
    "This Worker already holds a Pair Execution Cell execution-mode claim for another pair."

/-- Eight draws at most; the first that was never issued is recorded and returned. -/
def issuePairRouteIdLocked (draw : Nat → Nat) : Locked Nat := do
  let l ← get
  match ((List.range 8).map draw).find? fun c => !l.pairRouteIdentifiers.contains c with
  | none => refuse "Could not generate an unused Pair Execution Cell route identifier."
  | some candidate =>
      modify fun l =>
        { l with pairRouteIdentifiers := candidate :: l.pairRouteIdentifiers }
      return candidate

def releasePairRouteReservationLocked (proposalId : Nat) : Locked Bool := do
  let l ← get
  match l.pairRouteReservations.get proposalId with
  | none => return false
  | some row =>
      modify fun l => { l with
        pairRouteReservations := l.pairRouteReservations.delete fun p _ =>
          p == proposalId }
      let key := pairKey row.leaderWorkerId row.followerWorkerId
      if l.pairRoutes.any (fun _ r => r.pairKey == key) = false then
        releasePairExecutionModeLocked row.leaderWorkerId row.followerWorkerId
          .pairExecutionCell
      return true

/-- Release each of these and return those that were still there. -/
def releaseAllLocked : List Nat → Locked (List Nat)
  | [] => return []
  | proposalId :: rest => do
      let released ← releasePairRouteReservationLocked proposalId
      let others ← releaseAllLocked rest
      return if released then proposalId :: others else others

def expirePairRouteReservationsLocked (now : Nat) : Locked (List Nat) := do
  let l ← get
  releaseAllLocked (l.pairRouteReservations.keys fun _ r => r.expiresAt ≤ now)

def removePairRouteLocked (routeId : Nat) (route : RouteRow) : Locked Unit := do
  modify fun l => { l with pairRoutes := l.pairRoutes.delete fun r _ => r == routeId }
  modify fun l =>
    { l with unpairAssertions := l.unpairAssertions.delete fun k _ => k.1 == routeId }
  modify fun l =>
    { l with stateVersions := l.stateVersions.delete fun k _ => k.1 == routeId }
  releasePairExecutionModeLocked route.leaderWorkerId route.followerWorkerId
    .pairExecutionCell

/-- The inserted key must be new: the proposal identifier is the primary key. -/
def insertReservation (proposalId : Nat) (row : Reservation) : Locked Unit := do
  let l ← get
  Tx.require (l.pairRouteReservations.get proposalId = none) .constraint
  modify fun l =>
    { l with pairRouteReservations := l.pairRouteReservations.set proposalId row }

/-- The route identifier is the primary key and the pair key is unique. -/
def insertRoute (routeId : Nat) (row : RouteRow) : Locked Unit := do
  let l ← get
  Tx.require (l.pairRoutes.get routeId = none ∧
    l.pairRoutes.any (fun _ r => r.pairKey == row.pairKey) = false) .constraint
  modify fun l => { l with pairRoutes := l.pairRoutes.set routeId row }

def requireConnected (connected : List Nat) (workerId : Nat) : Locked Unit :=
  ensure (workerId ∈ connected)
    "A Pair Execution Cell pairing requires both Workers to be connected right now."

/-! ## Pairing -/

structure Proposal where
  proposalId : Nat
  leaderWorkerId : Nat
  followerWorkerId : Nat
  reservedAt : Nat
  expiresAt : Nat
  timeoutSeconds : Nat
  deriving DecidableEq, Repr

/-- `uuid` is the proposal identifier drawn. -/
def reservePairRouteProposal (leaderWorkerId followerWorkerId : Nat) (connected : List Nat)
    (uuid moment : Nat) : ControlLedger → Except LedgerFault Proposal × ControlLedger :=
  Tx.commit do
    ensure (leaderWorkerId ≠ followerWorkerId)
      "A Pair Execution Cell pairing must use two distinct Workers."
    let _ ← expirePairRouteReservationsLocked moment
    let _ ← activeWorker leaderWorkerId
    let _ ← activeWorker followerWorkerId
    requireConnected connected leaderWorkerId
    requireConnected connected followerWorkerId
    requirePairWorkerEligibilityLocked leaderWorkerId followerWorkerId none
    claimPairExecutionModeLocked leaderWorkerId followerWorkerId .pairExecutionCell
    let expiresAt := moment + pairingReservationTimeoutSeconds
    insertReservation uuid ⟨leaderWorkerId, followerWorkerId, moment, expiresAt⟩
    return ⟨uuid, leaderWorkerId, followerWorkerId, moment, expiresAt,
      pairingReservationTimeoutSeconds⟩

/-- A route as the operations return it. -/
structure RouteRecord where
  routeId : Nat
  leaderWorkerId : Nat
  followerWorkerId : Nat
  state : RouteState
  deriving DecidableEq, Repr

def createPairRouteLocked (proposalId : Nat) (connected : List Nat) (draw : Nat → Nat)
    (moment : Nat) : Locked RouteRecord := do
  let _ ← expirePairRouteReservationsLocked moment
  let l ← get
  match l.pairRouteReservations.get proposalId with
  | none => refuse "The pairing reservation is no longer valid."
  | some reservation =>
      let leaderWorkerId := reservation.leaderWorkerId
      let followerWorkerId := reservation.followerWorkerId
      let _ ← activeWorker leaderWorkerId
      let _ ← activeWorker followerWorkerId
      requireConnected connected leaderWorkerId
      requireConnected connected followerWorkerId
      requirePairWorkerEligibilityLocked leaderWorkerId followerWorkerId (some proposalId)
      claimPairExecutionModeLocked leaderWorkerId followerWorkerId .pairExecutionCell
      let routeId ← issuePairRouteIdLocked draw
      insertRoute routeId
        ⟨pairKey leaderWorkerId followerWorkerId, leaderWorkerId,
          followerWorkerId, .active⟩
      modify fun l => { l with
        pairRouteReservations := l.pairRouteReservations.delete fun p _ =>
          p == proposalId }
      return ⟨routeId, leaderWorkerId, followerWorkerId, .active⟩

def releasePairRouteReservation (proposalId : Nat) :
    ControlLedger → Except LedgerFault Bool × ControlLedger :=
  Tx.commit (releasePairRouteReservationLocked proposalId)

/-- A refused commit is rolled back, and then releases its reservation in a transaction of
its own.  An error of the database is rolled back only. -/
def createPairRoute (proposalId : Nat) (connected : List Nat) (draw : Nat → Nat)
    (moment : Nat) (l : ControlLedger) : Except LedgerFault RouteRecord × ControlLedger :=
  match Tx.commit (createPairRouteLocked proposalId connected draw moment) l with
  | (.error (.ledgerError message), l') =>
      (.error (.ledgerError message), (releasePairRouteReservation proposalId l').2)
  | result => result

def releasePairRouteReservationsForWorker (workerId : Nat) :
    ControlLedger → Except LedgerFault (List Nat) × ControlLedger :=
  Tx.commit do
    let l ← get
    releaseAllLocked (l.pairRouteReservations.keys fun _ r => r.has workerId)

def expirePairRouteReservations (now : Nat) :
    ControlLedger → Except LedgerFault (List Nat) × ControlLedger :=
  Tx.commit (expirePairRouteReservationsLocked now)

/-- The part of the listing that writes: the requester must be active, then the
reservations that are due expire. -/
def availablePairFollowers (requestingWorkerId now : Nat) :
    ControlLedger → Except LedgerFault (List Nat) × ControlLedger :=
  Tx.commit do
    let _ ← activeWorker requestingWorkerId
    expirePairRouteReservationsLocked now

/-! ## Safe unpair -/

def deleteAssertions (routeId : Nat) : Locked Unit :=
  modify fun l =>
    { l with unpairAssertions := l.unpairAssertions.delete fun k _ => k.1 == routeId }

def setRouteState (routeId : Nat) (route : RouteRow) (state : RouteState) : Locked Unit :=
  modify fun l =>
    { l with pairRoutes := l.pairRoutes.set routeId { route with state := state } }

def enterPairRouteUnpairing (routeId workerId : Nat) :
    ControlLedger → Except LedgerFault RouteRecord × ControlLedger :=
  Tx.commit do
    let route ← requireRoutedWorkerLocked routeId workerId
    if route.state ≠ .unpairing then
      setRouteState routeId route .unpairing
    deleteAssertions routeId
    return ⟨routeId, route.leaderWorkerId, route.followerWorkerId, .unpairing⟩

def cancelPairRouteUnpairing (routeId workerId : Nat) :
    ControlLedger → Except LedgerFault RouteRecord × ControlLedger :=
  Tx.commit do
    let route ← requireRoutedWorkerLocked routeId workerId
    ensure (route.state = .unpairing) "This Pair Execution Cell route is not unpairing."
    setRouteState routeId route .active
    deleteAssertions routeId
    return ⟨routeId, route.leaderWorkerId, route.followerWorkerId, .active⟩

/-- The version column is a 64-bit integer. -/
def setPairWorkerStateVersionLocked (routeId workerId : Nat) (stateVersion : Int) :
    Locked Bool := do
  let l ← get
  Tx.require (stateVersion < 2 ^ 63) .conversion
  modify fun l => { l with
    stateVersions := l.stateVersions.set (routeId, workerId) stateVersion }
  if l.stateVersions.get (routeId, workerId) = none ∨
      l.stateVersions.get (routeId, workerId) = some stateVersion then
    return false
  let invalidated := l.unpairAssertions.any fun k v =>
    k == (routeId, workerId) && v != stateVersion
  if invalidated then
    modify fun l => { l with
      unpairAssertions := l.unpairAssertions.delete fun k _ => k == (routeId, workerId) }
  return invalidated

structure VersionRecord where
  routeId : Nat
  workerId : Nat
  stateVersion : Int
  assertionInvalidated : Bool
  deriving DecidableEq, Repr

def recordPairWorkerStateVersion (routeId workerId : Nat) (stateVersion : Int) :
    ControlLedger → Except LedgerFault VersionRecord × ControlLedger :=
  Tx.commit do
    ensure (0 ≤ stateVersion)
      "A Pair Execution Cell state version must be a non-negative integer."
    let _ ← requireRoutedWorkerLocked routeId workerId
    let l ← get
    ensure (∀ current ∈ l.stateVersions.get (routeId, workerId), current ≤ stateVersion)
      "A Pair Execution Cell state version never moves backwards."
    let invalidated ← setPairWorkerStateVersionLocked routeId workerId stateVersion
    return ⟨routeId, workerId, stateVersion, invalidated⟩

/-- The Workers whose assertion carries their recorded state version. -/
def freshPairUnpairAssertionsLocked (l : ControlLedger) (routeId : Nat) : List Nat :=
  (l.unpairAssertions.keys fun k v =>
    k.1 == routeId && l.stateVersions.get k == some v).map Prod.snd

structure AssertionRecord where
  routeId : Nat
  workerId : Nat
  stateVersion : Int
  leaderWorkerId : Nat
  followerWorkerId : Nat
  assertedWorkerIds : List Nat
  routeRemoved : Bool
  deriving DecidableEq, Repr

def recordPairUnpairAssertion (routeId workerId : Nat) (stateVersion : Int) :
    ControlLedger → Except LedgerFault AssertionRecord × ControlLedger :=
  Tx.commit do
    ensure (0 ≤ stateVersion)
      "A Pair Execution Cell state version must be a non-negative integer."
    let route ← requireRoutedWorkerLocked routeId workerId
    ensure (route.state = .unpairing)
      "A safe-unpair assertion is accepted only while its route is UNPAIRING."
    let l ← get
    ensure (∀ current ∈ l.stateVersions.get (routeId, workerId), current ≤ stateVersion)
      "This safe-unpair assertion is bound to a superseded local state version."
    let _ ← setPairWorkerStateVersionLocked routeId workerId stateVersion
    modify fun l => { l with
      unpairAssertions := l.unpairAssertions.set (routeId, workerId) stateVersion }
    let l ← get
    let fresh := l.freshPairUnpairAssertionsLocked routeId
    -- as sets: the two Workers of the route and no other
    let required := [route.leaderWorkerId, route.followerWorkerId]
    let removed := fresh.all required.contains && required.all fresh.contains
    if removed then
      removePairRouteLocked routeId route
    return ⟨routeId, workerId, stateVersion, route.leaderWorkerId, route.followerWorkerId,
      fresh.mergeSort, removed⟩

/-! ## Workers -/

/-- `workerId` is the identifier drawn; the certificate is issued without fault. -/
def approveEnrollment (enrollmentId workerId now : Nat) :
    ControlLedger → Except LedgerFault Nat × ControlLedger :=
  Tx.commit do
    let l ← get
    match l.enrollments.get enrollmentId with
    | none => refuse "Enrollment does not exist."
    | some e =>
        ensure (e.status = .pending ∧ now < e.expiresAt) "Enrollment is no longer pending."
        let bound := fun (w : WorkerRow) =>
          w.login == e.login && w.server == e.server && w.status == .active
        let predecessors := l.workers.keys fun _ w => bound w
        ensure (predecessors.all (fun p => !l.pairRoutes.any fun _ r => r.has p) = true)
          "This MT5 account is currently paired; safe-unpair before migrating it."
        ensure (predecessors.all
          (fun p => !l.pairRouteReservations.any fun _ r => r.has p) = true)
          "This MT5 account holds a live pairing reservation; retry approval once it lapses."
        let revoke := fun (ws : Table Nat WorkerRow) (p : Nat) =>
          match ws.get p with
          | none => ws
          | some w => ws.set p { w with status := .revoked }
        modify fun l => { l with workers := predecessors.foldl revoke l.workers }
        Tx.require (l.workers.get workerId = none) .constraint
        modify fun l => { l with
          workers := l.workers.set workerId ⟨enrollmentId, e.login, e.server, .active⟩ }
        modify fun l => { l with
          enrollments := l.enrollments.set enrollmentId { e with status := .approved } }
        return workerId

def revokeWorker (workerId : Nat) : ControlLedger →
    Except LedgerFault Unit × ControlLedger :=
  Tx.commit do
    let l ← get
    match l.workers.get workerId with
    | none => refuse "Worker is not active."
    | some w =>
        ensure (w.status = .active) "Worker is not active."
        modify fun l =>
          { l with workers := l.workers.set workerId { w with status := .revoked } }

structure Deletion where
  workerId : Nat
  enrollmentId : Nat
  removedRouteIds : List Nat
  peerWorkerIds : List Nat
  deriving DecidableEq, Repr

/-- The routes are removed one by one; each returns the peer that keeps running. -/
def removeRoutesLocked (workerId : Nat) : List Nat → Locked (List (Nat × Nat))
  | [] => return []
  | routeId :: rest => do
      let l ← get
      match l.pairRoutes.get routeId with
      | none => removeRoutesLocked workerId rest
      | some route =>
          removePairRouteLocked routeId route
          let others ← removeRoutesLocked workerId rest
          let peer := if route.leaderWorkerId = workerId then route.followerWorkerId
            else route.leaderWorkerId
          return (routeId, peer) :: others

def deleteWorker (workerId : Nat) : ControlLedger →
    Except LedgerFault Deletion × ControlLedger :=
  Tx.commit do
    let l ← get
    match l.workers.get workerId with
    | none => refuse "Worker does not exist."
    | some w =>
        ensure ((l.enrollments.get w.enrollmentId).isSome = true) "Worker does not exist."
        let removed ← removeRoutesLocked workerId
            (l.pairRoutes.keys fun _ r => r.has workerId)
        let l ← get
        let _ ← releaseAllLocked (l.pairRouteReservations.keys fun _ r => r.has workerId)
        modify fun l =>
          { l with stateVersions := l.stateVersions.delete fun k _ => k.2 == workerId }
        modify fun l => { l with
          unpairAssertions := l.unpairAssertions.delete fun k _ => k.2 == workerId }
        modify fun l => { l with workers := l.workers.delete fun k _ => k == workerId }
        modify fun l => { l with
          enrollments := l.enrollments.delete fun k _ => k == w.enrollmentId }
        return ⟨workerId, w.enrollmentId, removed.map Prod.fst, removed.map Prod.snd⟩

/-- On opening the database: claims without a route are dropped. -/
def dropOrphanedPairCellClaims (l : ControlLedger) : ControlLedger :=
  { l with pairExecutionOwners := l.pairExecutionOwners.delete fun k _ =>
      k.2 == .pairExecutionCell && !l.pairRoutes.any fun _ r => r.pairKey == k.1 }

end ControlLedger

end PairCell
