import PairCell.Lib.Table
import PairCell.Lib.Trace

/-!
# Certificate rotation

`maintain_worker_certificate` and its recovery, over the key store, the three
files beside the identity and the controller's rows for one Worker.  Every
call out of the process may succeed, fail or be the point where the process
dies, and takes some time.  Key names and public keys are the numbers of the
draws that made them; times are in seconds.
-/

namespace PairCell.Rotation

open Lib

/-! ## The controller -/

structure Certificate where
  publicKey : Nat
  issuedAt : Nat
  expiresAt : Nat
  deriving DecidableEq, Repr

structure Overlap where
  certificate : Certificate
  publicKey : Nat
  expiresAt : Nat
  deriving DecidableEq, Repr

structure Challenge where
  replacementPublicKey : Nat
  expiresAt : Nat
  deriving DecidableEq, Repr

/-- The enrollment's public key, the Worker's certificate, the overlaps and the open
challenge. -/
structure Controller where
  clock : Nat
  publicKey : Nat
  certificate : Certificate
  overlaps : List Overlap
  challenge : Option Challenge
  deriving DecidableEq, Repr

def hour : Nat := 3600

def day : Nat := 24 * hour

namespace Controller

def issueWorkerRotationChallenge (c : Controller) (publicKey : Nat) : Controller :=
  { c with challenge := some ⟨publicKey, c.clock + 2 * 60⟩ }

/-- The challenge is for this key and not expired, and the two signatures are those of the
enrolled key and of the replacement. -/
def provesRotation (c : Controller) (publicKey oldSigner replacementSigner : Nat) : Bool :=
  match c.challenge with
  | none => false
  | some ch => ch.replacementPublicKey == publicKey && decide (c.clock < ch.expiresAt) &&
      oldSigner == c.publicKey && replacementSigner == publicKey

def rotateWorkerCertificate (c : Controller) (publicKey : Nat) : Controller :=
  { c with
    overlaps := ⟨c.certificate, c.publicKey, c.clock + hour⟩ :: c.overlaps
    publicKey := publicKey
    certificate := ⟨publicKey, c.clock, c.clock + 30 * day⟩ }

/-- The public key that a session under this certificate is checked with. -/
def workerForCertificate (c : Controller) (certificate : Certificate) : Option Nat :=
  if certificate = c.certificate then some c.publicKey
  else (c.overlaps.find? fun o =>
    decide (o.certificate = certificate ∧ c.clock < o.expiresAt)).map Overlap.publicKey

/-- Some certificate lets the key authenticate. -/
def Accepts (c : Controller) (publicKey : Nat) : Prop :=
  ∃ certificate, c.workerForCertificate certificate = some publicKey

end Controller

/-! ## The Worker's files and keys -/

structure Journal where
  retiredKeyName : Nat
  replacementKeyName : Nat
  eligibleAt : Nat
  deriving DecidableEq, Repr

structure Retired where
  keyName : Nat
  eligibleAt : Nat
  retryAt : Option Nat
  deriving DecidableEq, Repr

/-- `identity` is the key name of the identity file, whose other fields a rotation
copies. -/
structure World where
  controller : Controller
  keys : Table Nat Nat
  drawn : Nat
  identity : Nat
  journal : Option Journal
  retiredKeys : List Retired

inductive Action where
  | elapse (seconds : Nat)
  | createKey
  | deleteKey (name : Nat)
  | issueChallenge (publicKey : Nat)
  | popChallenge
  | commitRotation (publicKey : Nat)
  | writeJournal (j : Journal)
  | unlinkJournal
  | saveIdentity (keyName : Nat)
  | writeState (retiredKeys : List Retired)
  deriving DecidableEq, Repr

def World.act (w : World) : Action → World
  | .elapse d =>
      { w with controller := { w.controller with clock := w.controller.clock + d } }
  | .createKey => { w with keys := w.keys.set w.drawn w.drawn, drawn := w.drawn + 1 }
  | .deleteKey name => { w with keys := w.keys.delete fun k _ => k == name }
  | .issueChallenge k =>
      { w with controller := w.controller.issueWorkerRotationChallenge k }
  | .popChallenge => { w with controller := { w.controller with challenge := none } }
  | .commitRotation k => { w with controller := w.controller.rotateWorkerCertificate k }
  | .writeJournal j => { w with journal := some j }
  | .unlinkJournal => { w with journal := none }
  | .saveIdentity name => { w with identity := name }
  | .writeState retired => { w with retiredKeys := retired }

instance : Acts World Action := ⟨World.act⟩

inductive Exn where
  | rotationError (message : String)
  | certificateRotated (message : String)
  | certificateExpired (message : String)
  | other
  /-- The process died here: no handler runs. -/
  | killed
  deriving DecidableEq, Repr

abbrev M := Handler World Action Exn

/-- The calls that leave the process, in the order of the source. -/
inductive Point where
  | readJournal | recoverIdentity | recoverReadState | recoverWriteState | recoverUnlink
  | readState | openRetired (keyName : Nat) | deleteRetired (keyName : Nat) | writeState
  | createKey | publicKey | challenge | challengeResponse | sign | rotate | response
  | writeJournal | saveIdentity
  | readRetired | writeRetired | unlinkJournal | deleteReplacement
  deriving DecidableEq, Repr

inductive Result where
  | ok | failed | killed
  deriving DecidableEq, Repr

inductive ChallengeReply where
  | valid | incomplete | mismatched
  deriving DecidableEq, Repr

/-- How the calls of one run end and how long they take.  `accepts` is false when the
controller refuses the rotation for a reason outside this model. -/
structure Outcomes where
  result : Point → Result := fun _ => .ok
  elapsed : Point → Nat := fun _ => 0
  challengeReply : ChallengeReply := .valid
  validSignature : Bool := true
  accepts : Bool := true
  validResponse : Bool := true

/-- A call that raises `e` when it fails; a failed write leaves its file as it was. -/
def external (o : Outcomes) (p : Point) (e : Exn) : M Unit := do
  emit (.elapse (o.elapsed p))
  match o.result p with
  | .ok => pure ()
  | .failed => raise e
  | .killed => raise .killed

/-! ## The rotation -/

def halfLife : Nat := 15 * day

def overlap : Nat := hour

def retryDelay : Nat := day

def invalidState : Exn := .rotationError "Worker rotation state is invalid."

def unwritableState : Exn := .rotationError "Worker rotation state cannot be written."

def addRetiredKey (o : Outcomes) (read write : Point)
    (keyName eligibleAt : Nat) : M Unit := do
  external o read invalidState
  let w ← get
  let retired := w.retiredKeys.filter fun entry => entry.keyName != keyName
  external o write unwritableState
  emit (.writeState (retired ++ [⟨keyName, eligibleAt, none⟩]))

/-- The identity must be one of the two keys of the journal; the retired one is
replaced. -/
def recoverIdentity (o : Outcomes) (keyName : Nat) (j : Journal) : M Unit := do
  if keyName = j.retiredKeyName then
    external o .recoverIdentity .other
    emit (.saveIdentity j.replacementKeyName)
  else if keyName ≠ j.replacementKeyName then
    raise (.rotationError
      "Worker rotation recovery journal does not match the active identity.")

/-- True when the recovery switched the identity. -/
def recoverPendingRotation (o : Outcomes) (keyName : Nat) : M Bool := do
  let w ← get
  match w.journal with
  | none => return false
  | some j =>
      external o .readJournal
        (.rotationError "Worker rotation recovery journal is invalid.")
      recoverIdentity o keyName j
      addRetiredKey o .recoverReadState .recoverWriteState j.retiredKeyName j.eligibleAt
      external o .recoverUnlink .other
      emit .unlinkJournal
      return keyName == j.retiredKeyName

/-- The key of a retired entry is opened and deleted; false when the
deletion is put off. -/
def deleteRetired (o : Outcomes) (entry : Retired) : M Bool := do
  external o (.openRetired entry.keyName) .other
  let w ← get
  match w.keys.get entry.keyName with
  | none => raise .other
  | some _ =>
      match ← attempt (do
          external o (.deleteRetired entry.keyName) .other
          emit (.deleteKey entry.keyName)) with
      | .error .killed => raise .killed
      | .error _ => return false
      | .ok () => return true

/-- The entries that stay and whether any was deleted or put off. -/
def cleanRetired (o : Outcomes) (active observedAt : Nat) : List Retired →
    M (List Retired × Bool)
  | [] => return ([], false)
  | entry :: rest => do
      if entry.keyName = active ∨ observedAt < entry.eligibleAt ∨
          observedAt < entry.retryAt.getD entry.eligibleAt then
        let (retained, changed) ← cleanRetired o active observedAt rest
        return (entry :: retained, changed)
      else
        let deleted ← deleteRetired o entry
        let (retained, _) ← cleanRetired o active observedAt rest
        return (if deleted then retained
          else { entry with retryAt := some (observedAt + retryDelay) } :: retained, true)

def cleanRetiredKeys (o : Outcomes) (active observedAt : Nat) : M Unit := do
  external o .readState invalidState
  let w ← get
  let (retained, changed) ← cleanRetired o active observedAt w.retiredKeys
  if changed then
    external o .writeState unwritableState
    emit (.writeState retained)

structure Held where
  keyName : Nat
  publicKey : Nat
  deriving DecidableEq, Repr

/-- The request as the service answers it: the challenge is used up, and the rotation is
committed before the response is sent. -/
def rotate (o : Outcomes) (publicKey oldSigner replacementSigner : Nat) : M Unit := do
  external o .rotate .other
  let w ← get
  emit .popChallenge
  if w.controller.provesRotation publicKey oldSigner replacementSigner && o.accepts then
    emit (.commitRotation publicKey)
    external o .response .other
  else
    external o .response .other
    raise .other

def check (valid : Bool) (message : String) : M Unit :=
  if valid then pure () else raise (.rotationError message)

def invalidResponse : String := "The controller returned an invalid rotation response."

def checkChallenge (o : Outcomes) : M Unit := do
  check (o.challengeReply != .incomplete) invalidResponse
  check (o.challengeReply != .mismatched)
    "The controller returned an invalid rotation challenge."

/-- From the new key to the identity that names it. -/
def switchIdentity (o : Outcomes) (held : Held)
    (replacement observedAt : Nat) : M Unit := do
  external o .publicKey .other
  let w ← get
  match w.keys.get replacement with
  | none => raise .other
  | some publicKey =>
      external o .challenge .other
      emit (.issueChallenge publicKey)
      external o .challengeResponse .other
      checkChallenge o
      external o .sign .other
      check o.validSignature "The device key returned an invalid signature."
      rotate o publicKey held.publicKey publicKey
      check o.validResponse invalidResponse
      external o .writeJournal
        (.rotationError "Worker rotation recovery journal cannot be written.")
      emit (.writeJournal ⟨held.keyName, replacement, observedAt + overlap⟩)
      external o .saveIdentity .other
      emit (.saveIdentity replacement)

def rotatedMessage : String :=
  "Worker device certificate rotated; reconnecting with the replacement identity."

/-- The identity is switched: record the retired key and drop the journal. -/
def retireKey (o : Outcomes) (held : Held) (observedAt : Nat) : M Unit := do
  match ← attempt (addRetiredKey o .readRetired .writeRetired held.keyName
      (observedAt + overlap)) with
  | .error .killed => raise .killed
  | .error _ => raise (.certificateRotated rotatedMessage)
  | .ok () =>
      external o .unlinkJournal .other
      emit .unlinkJournal

/-- `except WorkerRotationError: raise` and `except Exception`. -/
def rethrown : Exn → Exn
  | .other => .rotationError "Worker device certificate rotation failed safely."
  | e => e

/-- The key is created, becomes current or is deleted again, and the old one is retired. -/
def rotateKey (o : Outcomes) (held : Held) (observedAt : Nat) : M Unit := do
  let w ← get
  let replacement := w.drawn
  match ← attempt (do external o .createKey .other; emit .createKey) with
  | .error e => raise (rethrown e)
  | .ok () =>
      match ← attempt (switchIdentity o held replacement observedAt) with
      | .error .killed => raise .killed
      | .error e =>
          -- the `finally` block: the new key did not become current
          external o .deleteReplacement .other
          emit (.deleteKey replacement)
          raise (rethrown e)
      | .ok () =>
          match ← attempt (retireKey o held observedAt) with
          | .error e => raise (rethrown e)
          | .ok () => raise (.certificateRotated rotatedMessage)

def maintainWorkerCertificate (o : Outcomes) (held : Held)
    (certificate : Option Certificate) (observedAt : Nat) : M Unit := do
  if ← recoverPendingRotation o held.keyName then
    raise (.certificateRotated
      "Worker rotation recovery completed; reconnecting with the replacement identity.")
  else
    cleanRetiredKeys o held.keyName observedAt
    match certificate with
    | none =>
        raise (.rotationError
          "The controller returned an invalid Worker device certificate.")
    | some certificate =>
        if certificate.expiresAt ≤ observedAt then
          raise (.certificateExpired
            "The Worker device certificate has expired; operator action is required.")
        else if observedAt - certificate.issuedAt < halfLife then
          return
        else
          rotateKey o held observedAt

/-! ## The process -/

structure Sys where
  world : World
  held : Option Held

inductive Label where
  | start
  | maintain (o : Outcomes) (certificate : Option Certificate) (observedAt : Nat)
  | stop
  | tick (seconds : Nat)

def World.load (w : World) : Option Held :=
  (w.keys.get w.identity).map fun publicKey => ⟨w.identity, publicKey⟩

/-- Only `WorkerCertificateRotated` makes the process read its identity again. -/
def Sys.maintained (s : Sys) (held : Held) (o : Outcomes)
    (certificate : Option Certificate) (observedAt : Nat) : Sys :=
  let run := maintainWorkerCertificate o held certificate observedAt s.world
  let w := after s.world run.2
  { world := w
    held := match run.1 with
      | .error (.certificateRotated _) => w.load
      | .error .killed => none
      | _ => some held }

/-- What a step does, one action after the other. -/
def Sys.actions (s : Sys) : Label → List Action
  | .start | .stop => []
  | .tick d => [.elapse d]
  | .maintain o certificate observedAt =>
      match s.held with
      | none => []
      | some held => (maintainWorkerCertificate o held certificate observedAt s.world).2

def next (s : Sys) : Label → Sys
  | .start => { s with held := s.world.load }
  | .stop => { s with held := none }
  | .tick d => { s with world := s.world.act (.elapse d) }
  | .maintain o certificate observedAt =>
      match s.held with
      | none => s
      | some held => s.maintained held o certificate observedAt

/-- An enrolled Worker that never rotated. -/
def enrolled : Sys where
  world :=
    { controller := ⟨0, 0, ⟨0, 0, 30 * day⟩, [], none⟩
      keys := Table.empty.set 0 0
      drawn := 1
      identity := 0
      journal := none
      retiredKeys := [] }
  held := none

end PairCell.Rotation
