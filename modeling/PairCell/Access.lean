import PairCell.Access.Logins
import PairCell.Access.Payloads
import PairCell.Ledger.Registry

/-!
# The control plane: enrollment, credentials and certificates

Registration invites, enrollments, the MT5 passwords in the secret store and
the device certificates: the rest of the control ledger and the handlers of the
service that use it.  Every operation on the database is one transaction.  A
handler runs as a call, one transaction or request to the secret store at a
time, so that the calls of many clients interleave; a call may be abandoned and
the process restarted at any point.  Invites, challenges, nonces and
identifiers are the numbers of their draws, instants are microseconds.
-/

namespace PairCell.Access

open Lib

inductive InviteStatus where
  | active | used | expired | revoked
  deriving DecidableEq, Repr

/-- A row of `registration_invites`, which is keyed by the hash of the invite. -/
structure Invite where
  role : String
  issuedBy : String
  expiresAt : Nat
  status : InviteStatus
  deriving DecidableEq, Repr

/-- A row of `enrollment_challenges`, which is keyed by the hash of the challenge. -/
structure Challenge where
  expiresAt : Nat
  consumedAt : Option Nat
  deriving DecidableEq, Repr

/-- The columns of `enrollments` that `Enrollment` leaves out. -/
structure EnrollmentDetail where
  publicKeyPem : String
  passwordSecretRef : Nat
  passwordSecretDeletedAt : Option Nat
  registrationInviteHash : Digest
  approvedBy : Option String
  deriving DecidableEq, Repr

/-- A device certificate as issued: its claims and the signature of the certificate key. -/
structure Certificate where
  workerId : Nat
  login : Nat
  server : String
  publicKeyPem : String
  issuedAt : Nat
  expiresAt : Nat
  signature : Nat
  deriving DecidableEq, Repr

/-- A row of `certificate_overlaps`, keyed by the Worker and the replaced certificate. -/
structure Overlap where
  publicKeyPem : String
  expiresAt : Nat
  deriving DecidableEq, Repr

/-- `certificates` is the column of that name of `workers`. -/
structure Database where
  ledger : ControlLedger
  registrationInvites : Table Digest Invite
  enrollmentChallenges : Table Digest Challenge
  details : Table Nat EnrollmentDetail
  certificates : Table Nat Certificate
  certificateOverlaps : Table (Nat × Certificate) Overlap

inductive Fault where
  | ledger (e : LedgerFault)
  | secretStore
  deriving DecidableEq, Repr

structure EnrollmentRequest (F : Type) where
  registrationInvite : Nat
  login : Nat
  server : String
  accountInfo : Dict F
  terminalInfo : Dict F
  mt5Password : String
  enrollmentChallenge : Nat
  publicKeyPem : String
  proofSignature : String

structure ActiveWorker where
  workerId : Nat
  login : Nat
  server : String
  certificate : Certificate
  publicKeyPem : String
  passwordSecretRef : Nat
  deriving DecidableEq, Repr

namespace Database

def empty : Database := ⟨.empty, .empty, .empty, .empty, .empty, .empty⟩

abbrev Locked := Tx Fault Database

def refuse {α : Type} (message : String) : Locked α :=
  throw (.ledger (.ledgerError message))

def ensure (c : Prop) [Decidable c] (message : String) : Locked Unit :=
  Tx.require c (.ledger (.ledgerError message))

/-- An operation of the ledger as part of a transaction. -/
def onLedger {α : Type} (op : ControlLedger → Except LedgerFault α × ControlLedger) :
    Locked α := do
  let d ← get
  match op d.ledger with
  | (.ok a, l) =>
      modify fun d => { d with ledger := l }
      return a
  | (.error e, _) => throw (.ledger e)

/-! ## Invites and challenges -/

def setInvite (invite : Digest) (row : Invite) : Locked Unit :=
  modify fun d => { d with registrationInvites := d.registrationInvites.set invite row }

/-- `invite` is the one drawn. -/
def createRegistrationInvite (issuedBy role : String) (invite now : Nat) :
    Locked Unit := do
  ensure (role = "worker") "Registration invite role is invalid."
  let d ← get
  Tx.require (d.registrationInvites.get ⟨invite⟩ = none) (.ledger .constraint)
  setInvite ⟨invite⟩ ⟨role, issuedBy, now + hours 1, .active⟩

/-- The mark of an expired invite is rolled back with the transaction that makes it. -/
def consumeRegistrationInvite (invite : Nat) (role : String) (now : Nat) :
    Locked Unit := do
  let d ← get
  match d.registrationInvites.get ⟨invite⟩ with
  | none => refuse "Registration invite is invalid."
  | some row =>
      ensure (row.role = role) "Registration invite role does not match."
      ensure (row.status ≠ .used) "Registration invite is already used."
      ensure (row.status = .active) "Registration invite is no longer active."
      if row.expiresAt ≤ now then
        setInvite ⟨invite⟩ { row with status := .expired }
        refuse "Registration invite is expired."
      else
        setInvite ⟨invite⟩ { row with status := .used }

/-- The invite or its hash may be given. -/
def revokeRegistrationInvite (inviteHash : Digest) (now : Nat) : Locked Unit := do
  let d ← get
  match d.registrationInvites.get inviteHash with
  | none => refuse "Registration invite is no longer active."
  | some row =>
      ensure (row.status = .active ∧ now < row.expiresAt)
        "Registration invite is no longer active."
      setInvite inviteHash { row with status := .revoked }

/-- `challenge` is the one drawn. -/
def issueEnrollmentChallenge (challenge now : Nat) : Locked Unit := do
  modify fun d => { d with
    enrollmentChallenges := d.enrollmentChallenges.delete fun _ row =>
      decide (row.expiresAt ≤ now) }
  let d ← get
  Tx.require (d.enrollmentChallenges.get ⟨challenge⟩ = none) (.ledger .constraint)
  modify fun d => { d with
    enrollmentChallenges :=
      d.enrollmentChallenges.set ⟨challenge⟩ ⟨now + minutes 2, none⟩ }

def consumeEnrollmentChallenge (challenge now : Nat) : Locked Unit := do
  let d ← get
  match d.enrollmentChallenges.get ⟨challenge⟩ with
  | none => refuse "Enrollment challenge is invalid, expired, or already used."
  | some row =>
      ensure (row.consumedAt = none ∧ now < row.expiresAt)
        "Enrollment challenge is invalid, expired, or already used."
      modify fun d => { d with
        enrollmentChallenges :=
          d.enrollmentChallenges.set ⟨challenge⟩ { row with consumedAt := some now } }

/-! ## Enrollments -/

/-- `enrollmentId` is the identifier drawn. -/
def createEnrollment {F : Type} (body : EnrollmentRequest F)
    (passwordSecretRef enrollmentId now : Nat) :
    Locked Unit := do
  consumeRegistrationInvite body.registrationInvite "worker" now
  consumeEnrollmentChallenge body.enrollmentChallenge now
  let d ← get
  Tx.require (d.ledger.enrollments.get enrollmentId = none) (.ledger .constraint)
  modify fun d => { d with
    ledger := { d.ledger with enrollments :=
      d.ledger.enrollments.set enrollmentId ⟨body.login, body.server, .pending,
        now + minutes 15⟩ }
    details := d.details.set enrollmentId
      ⟨body.publicKeyPem, passwordSecretRef, none, ⟨body.registrationInvite⟩, none⟩ }

/-- The certificate key signs at an instant or not at all; `signature` is new. -/
def issueCertificate (issuedAt : Option Nat) (signature workerId login : Nat)
    (server publicKeyPem : String) : Locked Certificate :=
  match issuedAt with
  | none => throw .secretStore
  | some t => return ⟨workerId, login, server, publicKeyPem, t,
      t + hours (30 * 24), signature⟩

/-- `workerId` and `signature` are drawn. -/
def approveEnrollment (enrollmentId : Nat) (approvedBy : String) (workerId signature : Nat)
    (issuedAt : Option Nat) (now : Nat) : Locked Certificate := do
  let _ ← onLedger (ControlLedger.approveEnrollment enrollmentId workerId now)
  let d ← get
  match d.ledger.enrollments.get enrollmentId, d.details.get enrollmentId with
  | some row, some detail =>
      let certificate ←
        issueCertificate issuedAt signature workerId row.login row.server
          detail.publicKeyPem
      modify fun d => { d with
        certificates := d.certificates.set workerId certificate
        details :=
          d.details.set enrollmentId { detail with approvedBy := some approvedBy } }
      return certificate
  | _, _ => refuse "Enrollment does not exist."

def updateRows {V : Type} (f : V → V) (keys : List Nat) (t : Table Nat V) : Table Nat V :=
  keys.foldl (fun t k => match t.get k with
    | none => t
    | some v => t.set k (f v)) t

/-- A rejection may be repeated, for another attempt at deleting the password. -/
def rejectEnrollment (enrollmentId : Nat) (rejectedBy : String) : Locked Nat := do
  let d ← get
  match d.ledger.enrollments.get enrollmentId, d.details.get enrollmentId with
  | some row, some detail =>
      if row.status = .rejected then
        return detail.passwordSecretRef
      else
        ensure (row.status = .pending) "Enrollment is no longer pending."
        modify fun d => { d with
          ledger := { d.ledger with
            enrollments :=
              d.ledger.enrollments.set enrollmentId { row with status := .rejected } }
          details :=
            d.details.set enrollmentId { detail with approvedBy := some rejectedBy } }
        return detail.passwordSecretRef
  | _, _ => refuse "Enrollment is no longer pending."

/-- The enrollments that expire now, and those expired before whose password is not marked
deleted. -/
def dueEnrollments (d : Database) (now : Nat) : List Nat :=
  d.ledger.enrollments.keys fun e row =>
    row.status == .pending && decide (row.expiresAt ≤ now) ||
      row.status == .expired &&
        ((d.details.get e).map EnrollmentDetail.passwordSecretDeletedAt == some none)

def expirePendingEnrollments (now : Nat) : Locked (List Nat × List Nat) := do
  let d ← get
  let due := d.dueEnrollments now
  modify fun d => { d with
    ledger := { d.ledger with
      enrollments := updateRows (fun row => { row with status := .expired }) due
        d.ledger.enrollments } }
  return (due, due.filterMap fun e =>
    (d.details.get e).map EnrollmentDetail.passwordSecretRef)

def markPendingPasswordDeleted (passwordSecretRef now : Nat) : Locked Unit :=
  modify fun d => { d with
    details :=
      updateRows (fun detail => { detail with passwordSecretDeletedAt := some now })
      (d.details.keys fun e detail =>
        detail.passwordSecretRef == passwordSecretRef &&
          detail.passwordSecretDeletedAt == none &&
          ((d.ledger.enrollments.get e).any fun row =>
            row.status == .expired || row.status == .rejected)) d.details }

/-! ## Workers -/

/-- The Worker's active row joined with its enrollment. -/
def activeWorker (d : Database) (workerId : Nat) : Option ActiveWorker := do
  let row ← d.ledger.workers.get workerId
  let _ ← d.ledger.enrollments.get row.enrollmentId
  let detail ← d.details.get row.enrollmentId
  let certificate ← d.certificates.get workerId
  if row.status = .active then
    some ⟨workerId, row.login, row.server, certificate, detail.publicKeyPem,
      detail.passwordSecretRef⟩
  else none

/-- `signature` is drawn. -/
def rotateWorkerCertificate (workerId : Nat) (publicKeyPem : String) (signature : Nat)
    (issuedAt : Option Nat) (now : Nat) : Locked Certificate := do
  let d ← get
  match d.activeWorker workerId, d.ledger.workers.get workerId with
  | some worker, some row =>
      let certificate ←
        issueCertificate issuedAt signature workerId worker.login
          worker.server publicKeyPem
      Tx.require (d.certificateOverlaps.get (workerId, worker.certificate) = none)
        (.ledger .constraint)
      modify fun d => { d with
        certificateOverlaps := d.certificateOverlaps.set (workerId, worker.certificate)
          ⟨worker.publicKeyPem, now + hours 1⟩ }
      match d.details.get row.enrollmentId with
      | none => refuse "Worker is not active."
      | some detail =>
          modify fun d => { d with
            details :=
              d.details.set row.enrollmentId { detail with publicKeyPem := publicKeyPem }
            certificates := d.certificates.set workerId certificate }
          return certificate
  | _, _ => refuse "Worker is not active."

/-- The certificate in force, or a replaced one whose overlap lasts. -/
def workerForCertificate (d : Database) (workerId : Nat)
    (certificate : Certificate) (now : Nat) :
    Except Fault ActiveWorker :=
  match d.activeWorker workerId with
  | none => .error (.ledger (.ledgerError "Worker is not active."))
  | some worker =>
      if certificate = worker.certificate then .ok worker
      else
        match d.certificateOverlaps.get (workerId, certificate) with
        | none => .error (.ledger (.ledgerError "Worker certificate is no longer active."))
        | some overlap =>
            if now < overlap.expiresAt then
              .ok { worker with certificate := certificate,
                                publicKeyPem := overlap.publicKeyPem }
            else .error (.ledger (.ledgerError "Worker certificate is no longer active."))

def deleteWorker (workerId : Nat) : Locked (Nat × Nat) := do
  let d ← get
  match d.ledger.workers.get workerId with
  | none => refuse "Worker does not exist."
  | some row =>
      match d.details.get row.enrollmentId with
      | none => refuse "Worker does not exist."
      | some detail =>
          let _ ← onLedger (ControlLedger.deleteWorker workerId)
          modify fun d => { d with
            certificateOverlaps := d.certificateOverlaps.delete fun k _ => k.1 == workerId
            certificates := d.certificates.delete fun k _ => k == workerId
            details := d.details.delete fun k _ => k == row.enrollmentId }
          return (row.enrollmentId, detail.passwordSecretRef)

end Database

/-! ## The service -/

inductive AdminRequest where
  | createRegistrationInvite (role : String)
  | revokeRegistrationInvite (invite : Digest)
  | listEnrollments
  | revokeWorker (workerId : Nat)
  | deleteWorker (workerId : Nat)
  | approveEnrollment (enrollmentId : Nat)
  | rejectEnrollment (enrollmentId : Nat)
  deriving DecidableEq, Repr

/-- Only the listing does without the CSRF token. -/
def AdminRequest.requiresCsrf : AdminRequest → Bool
  | .listEnrollments => false
  | _ => true

structure RotationChallenge where
  nonce : Nat
  replacementPublicKeyPem : String
  expiresAt : Nat
  deriving DecidableEq, Repr

structure RotationRequest where
  workerId : Nat
  publicKeyPem : String
  oldKeySignature : String
  replacementKeySignature : String
  deriving DecidableEq, Repr

inductive Call (F : Type) where
  | admin (username : String) (request : AdminRequest)
  | approve (username : String) (enrollmentId : Nat)
  | enroll (body : EnrollmentRequest F) (secretRef : Nat)
  | deletePassword (secretRef : Nat) (mark : Bool) (rest : List Nat)
  | markDeleted (secretRef : Nat) (rest : List Nat)
  | challengeRotation (workerId : Nat) (publicKeyPem : String)
  | takeRotation (body : RotationRequest) (worker : ActiveWorker)
  | rotate (workerId : Nat) (publicKeyPem : String) (nonce : Nat)
  | mediatePassword (worker : ActiveWorker) (nonce : Nat) (signature : String)
  | openSession (worker : ActiveWorker) (nonce : Nat) (signature : String)
  /-- A session with the Worker as it was read when the session began. -/
  | session (worker : ActiveWorker) (nonce : Nat)

/-- What was committed, for the statements only. -/
inductive Entry (F : Type) where
  | admitted (username : String) (request : AdminRequest) (token : Nat)
      (csrfToken : Option Nat)
      (now : Nat)
  | inviteIssued (invite : Nat) (issuedBy : String) (now : Nat)
  | inviteRevoked (invite : Digest)
  | challengeIssued (challenge now : Nat)
  | enrolled (enrollmentId : Nat) (body : EnrollmentRequest F) (secretRef now : Nat)
  | approved (enrollmentId workerId : Nat) (approvedBy : String) (now : Nat)
  | closed (enrollmentId : Nat)
  | certified (certificate : Certificate) (nonce : Option Nat) (now : Nat)
  | challenged (workerId : Nat) (publicKeyPem : String) (nonce now : Nat)
  | proven (workerId : Nat) (oldPublicKeyPem publicKeyPem : String) (nonce now : Nat)
  | deleted (workerId enrollmentId : Nat)
  | mediated (worker : ActiveWorker) (password : String) (nonce : Nat)

structure ControlPlane (F : Type) where
  administrators : Administrators
  database : Database
  secretStore : Table Nat String
  rotationChallenges : Table Nat RotationChallenge
  calls : Table Nat (Call F)
  draws : Nat
  trail : List (Entry F)

/-- A request to the secret store is carried out, not carried out, or carried out and
reported as failed. -/
inductive StoreOutcome where
  | done | failed | lost
  deriving DecidableEq, Repr

/-- What a step meets: the clock, the secret store, the certificate key (the instant it
signs at, and whether it verifies), the connected Workers, and whether a session is still
the one registered for its Worker. -/
structure Surroundings where
  now : Nat
  store : StoreOutcome := .done
  issuedAt : Option Nat := none
  verifies : Bool := true
  connected : List Nat := []
  authoritative : Bool := true

/-- How floats are written, and the signatures. -/
structure Setting (F : Type) where
  floats : FloatText F
  cryptography : Cryptography

inductive Label (F : Type) where
  | administrators (op : Administrators.Op)
  | pairing (op : ControlLedger.Op)
  | authorize (token csrfToken : Option Nat) (request : AdminRequest) (now : Nat)
  | enrollmentChallenge (now : Nat)
  | enroll (body : EnrollmentRequest F) (env : Surroundings)
  | expirePendingSecrets (now : Nat)
  | rotationChallenge (workerId : Nat) (publicKeyPem : String) (env : Surroundings)
  | rotate (body : RotationRequest) (env : Surroundings)
  | mediatePassword (workerId : Nat) (certificate : Certificate) (signature : String)
      (env : Surroundings)
  | openSession (workerId : Nat) (certificate : Certificate) (signature : String)
      (env : Surroundings)
  | serve (id : Nat) (env : Surroundings)
  | abandon (id : Nat)
  | restart

namespace ControlPlane

variable {F : Type}

def empty : ControlPlane F := ⟨.empty, .empty, .empty, .empty, .empty, 0, []⟩

def finish (s : ControlPlane F) (id : Nat) : ControlPlane F :=
  { s with calls := s.calls.delete fun k _ => k == id }

def proceed (s : ControlPlane F) (id : Nat) : Option (Call F) → ControlPlane F
  | none => s.finish id
  | some call => { s with calls := s.calls.set id call }

def spawn (s : ControlPlane F) (call : Call F) : ControlPlane F :=
  { s with calls := s.calls.set s.draws call, draws := s.draws + 1 }

/-- A transaction of a call.  Two numbers are drawn for it. -/
def transact {α : Type} (s : ControlPlane F) (id : Nat) (t : Database.Locked α)
    (next : Except Fault α → Option (Call F)) (entries : α → List (Entry F)) :
    ControlPlane F :=
  match t.commit s.database with
  | (.ok a, d) => ({ s with
      database := d
      draws := s.draws + 2
      trail := entries a ++ s.trail }).proceed id (next (.ok a))
  | (.error e, d) => ({ s with database := d }).proceed id (next (.error e))

/-- The `except LedgerError` of `create_enrollment` deletes the password it stored. -/
def afterEnroll (secretRef : Nat) : Except Fault Unit → Option (Call F)
  | .error (.ledger (.ledgerError _)) => some (.deletePassword secretRef false [])
  | _ => none

/-- The passwords of the list are deleted one after the other, each
marked before the next. -/
def purgeNext : List Nat → Option (Call F)
  | [] => none
  | secretRef :: rest => some (.deletePassword secretRef true rest)

def afterDelete (secretRef : Nat) (mark : Bool) (rest : List Nat) : Option (Call F) :=
  if mark then some (.markDeleted secretRef rest) else none

/-- An account whose Worker is still connected is not migrated. -/
def stillConnected (d : Database) (enrollmentId : Nat) (connected : List Nat) : Bool :=
  match d.ledger.enrollments.get enrollmentId with
  | none => false
  | some row =>
      row.status == .pending && d.ledger.workers.any fun w worker =>
        worker.login == row.login && worker.server == row.server &&
          worker.status == .active &&
          connected.contains w

def serveAdmin (s : ControlPlane F) (id : Nat) (username : String) (env : Surroundings) :
    AdminRequest → ControlPlane F
  | .createRegistrationInvite role =>
      s.transact id (Database.createRegistrationInvite username role s.draws env.now)
        (fun _ => none) fun _ => [.inviteIssued s.draws username env.now]
  | .revokeRegistrationInvite invite =>
      s.transact id (Database.revokeRegistrationInvite invite env.now) (fun _ => none)
        fun _ => [.inviteRevoked invite]
  | .listEnrollments =>
      s.transact id (Database.expirePendingEnrollments env.now)
        (fun r => r.toOption.bind fun p => purgeNext p.2) fun p => p.1.map .closed
  | .revokeWorker workerId =>
      s.transact id (Database.onLedger (ControlLedger.revokeWorker workerId))
        (fun _ => none)
        fun _ => []
  | .deleteWorker workerId =>
      s.transact id (Database.deleteWorker workerId)
        (fun r => r.toOption.map fun p => .deletePassword p.2 false [])
        fun p => [.deleted workerId p.1]
  | .approveEnrollment enrollmentId =>
      if stillConnected s.database enrollmentId env.connected then s.finish id
      else s.proceed id (some (.approve username enrollmentId))
  | .rejectEnrollment enrollmentId =>
      s.transact id (Database.rejectEnrollment enrollmentId username)
        (fun r => r.toOption.map fun secretRef => .deletePassword secretRef true [])
        fun _ => [.closed enrollmentId]

/-- The challenge is taken whatever comes of it; both keys must have signed it. -/
def takeRotation (σ : Setting F) (s : ControlPlane F) (id : Nat) (body : RotationRequest)
    (worker : ActiveWorker) (now : Nat) : ControlPlane F :=
  let taken := { s with
    rotationChallenges := s.rotationChallenges.delete fun k _ => k == body.workerId }
  match s.rotationChallenges.get body.workerId with
  | none => taken.finish id
  | some challenge =>
      let key := challenge.replacementPublicKeyPem
      let proof := fun publicKeyPem signature =>
        verifyWorkerRotationProof σ.cryptography σ.floats publicKeyPem signature
          (toString worker.workerId) key (toString challenge.nonce)
      if key = body.publicKeyPem ∧ now < challenge.expiresAt ∧
          (proof worker.publicKeyPem body.oldKeySignature).isOk ∧
          (proof key body.replacementKeySignature).isOk then
        { taken with
          trail :=
            .proven worker.workerId worker.publicKeyPem key challenge.nonce now ::
              s.trail }
          |>.proceed id (some (.rotate worker.workerId key challenge.nonce))
      else taken.finish id

/-- The proof is checked, then the password is read and sent. -/
def sendPassword (σ : Setting F) (s : ControlPlane F) (id : Nat)
    (worker : ActiveWorker) (nonce : Nat) (signature : String) (store : StoreOutcome) :
    ControlPlane F :=
  match verifyWorkerProof σ.cryptography σ.floats worker.publicKeyPem signature
    "password_request"
      (toString worker.workerId) (toString nonce), store,
      s.secretStore.get worker.passwordSecretRef with
  | .ok _, .done, some password =>
      { s with trail := .mediated worker password nonce :: s.trail }.finish id
  | _, _, _ => s.finish id

/-- The proof of the key opens the session. -/
def startSession (σ : Setting F) (s : ControlPlane F) (id : Nat)
    (worker : ActiveWorker) (nonce : Nat) (signature : String) : ControlPlane F :=
  match verifyWorkerProof σ.cryptography σ.floats worker.publicKeyPem signature
    "worker_session"
      (toString worker.workerId) (toString nonce) with
  | .ok _ => s.proceed id (some (.session worker nonce))
  | .error _ => s.finish id

/-- A `password_request` of an open session: the certificate that opened it must still be
accepted, and a session that was superseded passes the request over.  The password is that
of the Worker as it was when the session began. -/
def requestPassword (s : ControlPlane F) (id : Nat) (worker : ActiveWorker) (nonce : Nat)
    (env : Surroundings) : ControlPlane F :=
  match s.database.workerForCertificate worker.workerId worker.certificate env.now with
  | .error _ => s.finish id
  | .ok _ =>
      if env.authoritative then
        match env.store, s.secretStore.get worker.passwordSecretRef with
        | .done, some password =>
            { s with trail := .mediated worker password nonce :: s.trail }
        | _, _ => s.finish id
      else s

def serve (σ : Setting F) (s : ControlPlane F) (id : Nat) (env : Surroundings) :
    Call F → ControlPlane F
  | .admin username request => s.serveAdmin id username env request
  | .approve username enrollmentId =>
      s.transact id (Database.approveEnrollment enrollmentId username s.draws (s.draws + 1)
        env.issuedAt env.now) (fun _ => none) fun certificate =>
          [.certified certificate none env.now,
            .approved enrollmentId s.draws username env.now]
  | .enroll body secretRef =>
      s.transact id (Database.createEnrollment body secretRef s.draws env.now)
        (afterEnroll secretRef) fun _ => [.enrolled s.draws body secretRef env.now]
  | .deletePassword secretRef mark rest =>
      let deleted :=
        { s with secretStore := s.secretStore.delete fun k _ => k == secretRef }
      match env.store with
      | .done => deleted.proceed id (afterDelete secretRef mark rest)
      | .failed => s.finish id
      | .lost => deleted.finish id
  | .markDeleted secretRef rest =>
      s.transact id (Database.markPendingPasswordDeleted secretRef env.now)
        (fun _ => purgeNext rest) fun _ => []
  | .challengeRotation workerId publicKeyPem =>
      { s with
        rotationChallenges :=
          s.rotationChallenges.set workerId ⟨s.draws, publicKeyPem, env.now + minutes 2⟩
        draws := s.draws + 1
        trail := .challenged workerId publicKeyPem s.draws env.now :: s.trail }
        |>.finish id
  | .takeRotation body worker => s.takeRotation σ id body worker env.now
  | .rotate workerId publicKeyPem nonce =>
      s.transact id
        (Database.rotateWorkerCertificate workerId publicKeyPem s.draws env.issuedAt
          env.now)
        (fun _ => none) fun certificate => [.certified certificate (some nonce) env.now]
  | .mediatePassword worker nonce signature =>
      s.sendPassword σ id worker nonce signature env.store
  | .openSession worker nonce signature => s.startSession σ id worker nonce signature
  | .session worker nonce => s.requestPassword id worker nonce env

/-- `_verify_worker_certificate`: the Worker's own certificate lasts, verifies and
matches. -/
def certificateHolds (worker : ActiveWorker) (env : Surroundings) : Bool :=
  decide (worker.certificate.issuedAt < worker.certificate.expiresAt) &&
    decide (env.now < worker.certificate.expiresAt) && env.verifies &&
    worker.certificate.workerId == worker.workerId &&
    worker.certificate.login == worker.login &&
    worker.certificate.server == worker.server &&
    worker.certificate.publicKeyPem == worker.publicKeyPem

/-- The start of both rotation handlers: the active Worker, with a
certificate that holds. -/
def withActiveWorker (s : ControlPlane F) (workerId : Nat) (env : Surroundings)
    (next : ActiveWorker → Call F) : ControlPlane F :=
  match s.database.activeWorker workerId with
  | none => s
  | some worker => if certificateHolds worker env then s.spawn (next worker) else s

/-- The start of `mediate_password` and of `worker_session`: the certificate lasts,
verifies and is accepted for the Worker, and its claims are the Worker's.  A nonce is
drawn, which the key of the certificate is to sign. -/
def withCertificate (s : ControlPlane F) (workerId : Nat) (certificate : Certificate)
    (env : Surroundings) (next : ActiveWorker → Nat → Call F) : ControlPlane F :=
  match s.database.workerForCertificate workerId certificate env.now with
  | .error _ => s
  | .ok worker =>
      if certificate = worker.certificate ∧ certificateHolds worker env then
        { s with draws := s.draws + 1 }.spawn (next worker s.draws)
      else s

/-- The proof is checked, then the password is stored under a new reference. -/
def enroll (σ : Setting F) (s : ControlPlane F) (body : EnrollmentRequest F)
    (env : Surroundings) :
    ControlPlane F :=
  match verifyEnrollmentProof σ.cryptography σ.floats body.publicKeyPem
    body.proofSignature body.login
      body.server body.accountInfo body.terminalInfo body.mt5Password
      (toString body.enrollmentChallenge) with
  | .error _ => s
  | .ok _ =>
      let stored := { s with
        secretStore := s.secretStore.set s.draws body.mt5Password
        draws := s.draws + 1 }
      match env.store with
      | .done => stored.spawn (.enroll body s.draws)
      | .failed => { s with draws := s.draws + 1 }
      | .lost => stored

def authorize (s : ControlPlane F) (token csrfToken : Option Nat)
    (request : AdminRequest) (now : Nat) :
    ControlPlane F :=
  match token, s.administrators.requireAdmin token csrfToken request.requiresCsrf now with
  | some token, (.ok username, a) =>
      let admitted := { s with
        administrators := a
        trail := .admitted username request token csrfToken now :: s.trail }
      admitted.spawn (.admin username request)
  | _, (_, a) => { s with administrators := a }

def perform (σ : Setting F) (s : ControlPlane F) : Label F → ControlPlane F
  | .administrators op => { s with administrators := s.administrators.perform op }
  | .pairing op =>
      if op.OnRegistry = false then
        { s with
          database := { s.database with ledger := (s.database.ledger.perform op).2 } }
      else s
  | .authorize token csrfToken request now => s.authorize token csrfToken request now
  | .enrollmentChallenge now =>
      { s with
        database := ((Database.issueEnrollmentChallenge s.draws now).commit s.database).2
        draws := s.draws + 1
        trail := .challengeIssued s.draws now :: s.trail }
  | .enroll body env => s.enroll σ body env
  | .expirePendingSecrets now =>
      s.transact s.draws (Database.expirePendingEnrollments now)
        (fun r => r.toOption.bind fun p => purgeNext p.2) fun p => p.1.map .closed
  | .rotationChallenge workerId publicKeyPem env =>
      s.withActiveWorker workerId env fun worker =>
        .challengeRotation worker.workerId publicKeyPem
  | .rotate body env => s.withActiveWorker body.workerId env (.takeRotation body)
  | .mediatePassword workerId certificate signature env =>
      s.withCertificate workerId certificate env fun worker nonce =>
        .mediatePassword worker nonce signature
  | .openSession workerId certificate signature env =>
      s.withCertificate workerId certificate env fun worker nonce =>
        .openSession worker nonce signature
  | .serve id env =>
      match s.calls.get id with
      | none => s
      | some call => s.serve σ id env call
  | .abandon id => s.finish id
  | .restart => { s with
      administrators := s.administrators.perform .restart
      database := { s.database with ledger := (s.database.ledger.perform .restart).2 }
      rotationChallenges := .empty
      calls := .empty }

def run (σ : Setting F) (s : ControlPlane F) (labels : List (Label F)) : ControlPlane F :=
  labels.foldl (perform σ) s

end ControlPlane

end PairCell.Access
