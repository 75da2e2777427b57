import PairCell.Access

/-!
# What the transactions of the control plane do

One equation for each transaction that commits, and the rules for calls: a
property of the control plane is kept by a call that ends and has to be shown
only for what its transaction commits.
-/

namespace PairCell.Access

open Lib

namespace Database

variable {d d' : Database}

theorem onLedger_ok {α : Type}
    {op : ControlLedger → Except LedgerFault α × ControlLedger} {a : α} :
    (onLedger op).run d = .ok (a, d') ↔
      ∃ l, op d.ledger = (.ok a, l) ∧ d' = { d with ledger := l } := by
  simp only [onLedger, Tx.bind_ok, Tx.get_ok]
  constructor
  · rintro ⟨_, _, ⟨rfl, rfl⟩, h⟩
    split at h
    · next b l hop =>
        simp only [Tx.bind_ok, Tx.modify_ok, Tx.pure_ok] at h
        obtain ⟨_, _, rfl, rfl, rfl⟩ := h
        exact ⟨l, hop, rfl⟩
    · simp only [Tx.throw_ok] at h
  · rintro ⟨l, hop, rfl⟩
    refine ⟨d, d, ⟨rfl, rfl⟩, ?_⟩
    rw [hop]
    exact Tx.bind_ok.2 ⟨(), _, Tx.modify_ok.2 rfl, Tx.pure_ok.2 ⟨rfl, rfl⟩⟩

theorem createRegistrationInvite_ok {issuedBy role : String} {invite now : Nat} {u : Unit}
    (h : (createRegistrationInvite issuedBy role invite now).run d = .ok (u, d')) :
    role = "worker" ∧ d.registrationInvites.get ⟨invite⟩ = none ∧
      d' = { d with
        registrationInvites :=
          d.registrationInvites.set ⟨invite⟩ ⟨role, issuedBy,
            now + hours 1, .active⟩ } := by
  simp only [createRegistrationInvite, ensure, setInvite, Tx.bind_ok,
    Tx.get_ok, Tx.require_ok, Tx.modify_ok] at h
  obtain ⟨_, _, ⟨hrole, rfl⟩, _, _, ⟨rfl, rfl⟩, _, _, ⟨hnew, rfl⟩, rfl⟩ := h
  exact ⟨hrole, hnew, rfl⟩

theorem revokeRegistrationInvite_ok {invite : Digest} {now : Nat} {u : Unit}
    (h : (revokeRegistrationInvite invite now).run d = .ok (u, d')) :
    ∃ row, d.registrationInvites.get invite = some row ∧
      row.status = .active ∧ d' = { d with
      registrationInvites :=
        d.registrationInvites.set invite { row with status := .revoked } } := by
  simp only [revokeRegistrationInvite, Tx.bind_ok, Tx.get_ok] at h
  obtain ⟨_, _, ⟨rfl, rfl⟩, h⟩ := h
  split at h
  · simp only [refuse, Tx.throw_ok] at h
  · next row hrow =>
      simp only [ensure, setInvite, Tx.bind_ok, Tx.require_ok, Tx.modify_ok] at h
      obtain ⟨_, _, ⟨⟨hactive, -⟩, rfl⟩, rfl⟩ := h
      exact ⟨row, hrow, hactive, rfl⟩

/-- What is consumed was active and not yet expired. -/
theorem consumeRegistrationInvite_ok {invite : Nat} {role : String} {now : Nat} {u : Unit}
    (h : (consumeRegistrationInvite invite role now).run d = .ok (u, d')) :
    ∃ row, d.registrationInvites.get ⟨invite⟩ = some row ∧ row.status = .active ∧
      now < row.expiresAt ∧ d' = { d with
        registrationInvites :=
          d.registrationInvites.set ⟨invite⟩ { row with status := .used } } := by
  simp only [consumeRegistrationInvite, Tx.bind_ok, Tx.get_ok] at h
  obtain ⟨_, _, ⟨rfl, rfl⟩, h⟩ := h
  split at h
  · simp only [refuse, Tx.throw_ok] at h
  · next row hrow =>
      simp only [ensure, Tx.bind_ok, Tx.require_ok] at h
      obtain ⟨_, _, ⟨-, rfl⟩, _, _, ⟨-, rfl⟩, _, _, ⟨hactive, rfl⟩, h⟩ := h
      split at h
      · simp only [setInvite, refuse, Tx.bind_ok, Tx.throw_ok] at h
        obtain ⟨_, _, -, h⟩ := h
        exact h.elim
      · next hlive =>
          simp only [setInvite, Tx.modify_ok] at h
          exact ⟨row, hrow, hactive, Nat.lt_of_not_le hlive, h⟩

/-- The challenges that have expired go, the new one is added. -/
theorem issueEnrollmentChallenge_ok {challenge now : Nat} {u : Unit}
    (h : (issueEnrollmentChallenge challenge now).run d = .ok (u, d')) :
    d' = { d with
      enrollmentChallenges :=
        (d.enrollmentChallenges.delete fun _ row => decide (row.expiresAt ≤ now)).set
          ⟨challenge⟩
          ⟨now + minutes 2, none⟩ } := by
  simp only [issueEnrollmentChallenge, Tx.bind_ok, Tx.get_ok, Tx.require_ok,
    Tx.modify_ok] at h
  obtain ⟨_, _, rfl, _, _, ⟨rfl, rfl⟩, _, _, ⟨-, rfl⟩, rfl⟩ := h
  rfl

theorem issueEnrollmentChallenge_commit (challenge now : Nat) (d : Database) :
    ∃ table, ((issueEnrollmentChallenge challenge now).commit d).2 =
        { d with enrollmentChallenges := table } ∧
      ∀ k row, table.get k = some row →
        d.enrollmentChallenges.get k = some row ∨ k = ⟨challenge⟩ ∧
        row = ⟨now + minutes 2, none⟩ := by
  refine Tx.commit_invariant (I := fun d' : Database => ∃ table, d' = { d with
    enrollmentChallenges := table } ∧ ∀ k row, table.get k = some row →
      d.enrollmentChallenges.get k = some row ∨ k = ⟨challenge⟩ ∧
      row = ⟨now + minutes 2, none⟩)
    ⟨_, rfl, fun _ _ hrow => .inl hrow⟩ fun u d' hd => ?_
  refine ⟨_, issueEnrollmentChallenge_ok (Tx.commit_ok.1 hd), fun k row hrow => ?_⟩
  rw [Table.get_set] at hrow
  split at hrow
  · next hk => exact .inr ⟨hk, (Option.some.inj hrow).symm⟩
  · exact .inl ((Table.get_delete_eq_some ..).1 hrow).1

theorem consumeEnrollmentChallenge_ok {challenge now : Nat} {u : Unit}
    (h : (consumeEnrollmentChallenge challenge now).run d = .ok (u, d')) :
    ∃ row, d.enrollmentChallenges.get ⟨challenge⟩ = some row ∧ row.consumedAt = none ∧
      now < row.expiresAt ∧ d' = { d with
        enrollmentChallenges :=
          d.enrollmentChallenges.set ⟨challenge⟩
            { row with consumedAt := some now } } := by
  simp only [consumeEnrollmentChallenge, Tx.bind_ok, Tx.get_ok] at h
  obtain ⟨_, _, ⟨rfl, rfl⟩, h⟩ := h
  split at h
  · simp only [refuse, Tx.throw_ok] at h
  · next row hrow =>
      simp only [ensure, Tx.bind_ok, Tx.require_ok, Tx.modify_ok] at h
      obtain ⟨_, _, ⟨⟨hunused, hlive⟩, rfl⟩, rfl⟩ := h
      exact ⟨row, hrow, hunused, hlive, rfl⟩

/-- The database after an enrollment is added. -/
def enrolled {F : Type} (d : Database) (body : EnrollmentRequest F)
    (secretRef enrollmentId now : Nat) (invite : Invite)
    (challenge : Challenge) : Database :=
  { d with
    registrationInvites :=
      d.registrationInvites.set ⟨body.registrationInvite⟩ { invite with status := .used }
    enrollmentChallenges :=
      d.enrollmentChallenges.set ⟨body.enrollmentChallenge⟩
        { challenge with consumedAt := some now }
    ledger := { d.ledger with enrollments :=
      d.ledger.enrollments.set enrollmentId ⟨body.login, body.server, .pending,
        now + minutes 15⟩ }
    details := d.details.set enrollmentId
      ⟨body.publicKeyPem, secretRef, none, ⟨body.registrationInvite⟩, none⟩ }

theorem createEnrollment_ok {F : Type} {body : EnrollmentRequest F}
    {secretRef enrollmentId now : Nat} {u : Unit}
    (h : (createEnrollment body secretRef enrollmentId now).run d = .ok (u, d')) :
    ∃ invite challenge, d.registrationInvites.get ⟨body.registrationInvite⟩ = some invite ∧
      invite.status = .active ∧ now < invite.expiresAt ∧
      d.enrollmentChallenges.get ⟨body.enrollmentChallenge⟩ = some challenge ∧
      challenge.consumedAt = none ∧ now < challenge.expiresAt ∧
      d.ledger.enrollments.get enrollmentId = none ∧
      d' = d.enrolled body secretRef enrollmentId now invite challenge := by
  simp only [createEnrollment, Tx.bind_ok, Tx.get_ok, Tx.require_ok, Tx.modify_ok] at h
  obtain ⟨_, _, hinvite, _, _, hchallenge, _, _, ⟨rfl, rfl⟩, _, _, ⟨hnew, rfl⟩, rfl⟩ := h
  obtain ⟨invite, hrow, hactive, hlive, rfl⟩ := consumeRegistrationInvite_ok hinvite
  obtain ⟨challenge, hrow', hunused, hlive', rfl⟩ :=
    consumeEnrollmentChallenge_ok hchallenge
  exact ⟨invite, challenge, hrow, hactive, hlive, hrow', hunused, hlive', hnew, rfl⟩

theorem issueCertificate_ok {issuedAt : Option Nat} {signature workerId login : Nat}
    {server publicKeyPem : String} {c : Certificate}
    (h : (issueCertificate issuedAt signature workerId login server publicKeyPem).run d =
      .ok (c, d')) :
    ∃ t, c = ⟨workerId, login, server, publicKeyPem, t, t + hours (30 * 24),
      signature⟩ ∧ d' = d := by
  unfold issueCertificate at h
  split at h
  · simp only [Tx.throw_ok] at h
  · next t =>
      obtain ⟨rfl, rfl⟩ := Tx.pure_ok.1 h
      exact ⟨t, rfl, rfl⟩

/-- The database after a Worker is approved. -/
def approved (d : Database) (e w : Nat) (row : Enrollment) (detail : EnrollmentDetail)
    (superseded : List Nat) (approvedBy : String) (c : Certificate) : Database :=
  { d with
    ledger := d.ledger.approved e w row superseded
    certificates := d.certificates.set w c
    details := d.details.set e { detail with approvedBy := some approvedBy } }

theorem approveEnrollment_ok {e : Nat} {approvedBy : String} {w signature : Nat}
    {issuedAt : Option Nat} {now : Nat} {c : Certificate}
    (h : (approveEnrollment e approvedBy w signature issuedAt now).run d = .ok (c, d')) :
    ∃ row detail superseded t, d.ledger.enrollments.get e = some row ∧
      row.status = .pending ∧
      now < row.expiresAt ∧ d.details.get e = some detail ∧ d.ledger.workers.get w = none ∧
      (∀ p, p ∈ superseded ↔ ∃ x, d.ledger.workers.get p = some x ∧
        x.account = (row.login, row.server) ∧ x.status = .active) ∧
      c = ⟨w, row.login, row.server, detail.publicKeyPem, t,
        t + hours (30 * 24), signature⟩ ∧
      d' = d.approved e w row detail superseded approvedBy c := by
  obtain ⟨reply, m, hledger, h⟩ := Tx.bind_ok.1 h
  obtain ⟨l, hop, rfl⟩ := onLedger_ok.1 hledger
  obtain ⟨row, superseded, hrow, ⟨hpending, hlive⟩, hnew, hsuperseded, -, rfl⟩ :=
    ControlLedger.approve_ok hop
  obtain ⟨_, _, hget, h⟩ := Tx.bind_ok.1 h
  obtain ⟨rfl, rfl⟩ := Tx.get_ok.1 hget
  split at h
  · next row' detail hrow' hdetail =>
      obtain rfl : { row with status := .approved } = row' := by
        simpa [ControlLedger.approved] using hrow'
      simp only [Tx.bind_ok, Tx.modify_ok, Tx.pure_ok] at h
      obtain ⟨_, _, hissue, _, _, rfl, rfl, rfl⟩ := h
      obtain ⟨t, rfl, rfl⟩ := issueCertificate_ok hissue
      exact ⟨row, detail, superseded, t, hrow, hpending, hlive, hdetail, hnew,
        hsuperseded, rfl, rfl⟩
  · simp only [refuse, Tx.throw_ok] at h

theorem rejectEnrollment_ok {e : Nat} {rejectedBy : String} {ref : Nat}
    (h : (rejectEnrollment e rejectedBy).run d = .ok (ref, d')) :
    ∃ row detail, d.ledger.enrollments.get e = some row ∧ d.details.get e = some detail ∧
      ref = detail.passwordSecretRef ∧
      (row.status = .rejected ∧ d' = d ∨ row.status = .pending ∧ d' = { d with
        ledger := { d.ledger with
          enrollments := d.ledger.enrollments.set e { row with status := .rejected } }
        details := d.details.set e { detail with approvedBy := some rejectedBy } }) := by
  simp only [rejectEnrollment, Tx.bind_ok, Tx.get_ok] at h
  obtain ⟨_, _, ⟨rfl, rfl⟩, h⟩ := h
  split at h
  · next row detail hrow hdetail =>
      split at h
      · next hrejected =>
          obtain ⟨rfl, rfl⟩ := Tx.pure_ok.1 h
          exact ⟨row, detail, hrow, hdetail, rfl, .inl ⟨hrejected, rfl⟩⟩
      · simp only [ensure, Tx.bind_ok, Tx.require_ok, Tx.modify_ok, Tx.pure_ok] at h
        obtain ⟨_, _, ⟨hpending, rfl⟩, _, _, rfl, rfl, rfl⟩ := h
        exact ⟨row, detail, hrow, hdetail, rfl, .inr ⟨hpending, rfl⟩⟩
  · simp only [refuse, Tx.throw_ok] at h

theorem get_updateRows {V : Type} {f : V → V} (hf : ∀ v, f (f v) = f v) (keys : List Nat)
    (t : Table Nat V) (k : Nat) :
    (updateRows f keys t).get k = if k ∈ keys then (t.get k).map f else t.get k := by
  unfold updateRows
  induction keys generalizing t with
  | nil => simp
  | cons j keys ih =>
      rw [List.foldl_cons, ih]
      cases hj : t.get j with
      | none =>
          by_cases hk : k = j
          · subst hk
            simp [hj]
          · simp [hk]
      | some v =>
          simp only [Table.get_set]
          by_cases hk : k = j
          · subst hk
            simp [hj, hf]
          · simp [hk]

theorem expirePendingEnrollments_ok {now : Nat} {reply : List Nat × List Nat}
    (h : (expirePendingEnrollments now).run d = .ok (reply, d')) :
    reply = (d.dueEnrollments now, (d.dueEnrollments now).filterMap fun e =>
      (d.details.get e).map EnrollmentDetail.passwordSecretRef) ∧
    d' = { d with
      ledger := { d.ledger with
        enrollments := updateRows (fun row => { row with status := .expired })
          (d.dueEnrollments now) d.ledger.enrollments } } := by
  simp only [expirePendingEnrollments, Tx.bind_ok, Tx.get_ok, Tx.modify_ok,
    Tx.pure_ok] at h
  obtain ⟨_, _, ⟨rfl, rfl⟩, _, _, rfl, rfl, rfl⟩ := h
  exact ⟨rfl, rfl⟩

theorem mem_dueEnrollments {now e : Nat} (h : e ∈ d.dueEnrollments now) :
    ∃ row, d.ledger.enrollments.get e = some row ∧
      (row.status = .pending ∧ row.expiresAt ≤ now ∨ row.status = .expired) := by
  obtain ⟨row, hrow, hdue⟩ := (Table.mem_keys ..).1 h
  refine ⟨row, hrow, ?_⟩
  simp only [Bool.or_eq_true, Bool.and_eq_true, beq_iff_eq, decide_eq_true_eq] at hdue
  exact hdue.imp id And.left

theorem activeWorker_some {workerId : Nat} {worker : ActiveWorker} :
    d.activeWorker workerId = some worker ↔ ∃ row enrollment detail,
      d.ledger.workers.get workerId = some row ∧ row.status = .active ∧
      d.ledger.enrollments.get row.enrollmentId = some enrollment ∧
      d.details.get row.enrollmentId = some detail ∧
      d.certificates.get workerId = some worker.certificate ∧
      worker = ⟨workerId, row.login, row.server, worker.certificate, detail.publicKeyPem,
        detail.passwordSecretRef⟩ := by
  simp only [activeWorker, Option.bind_eq_bind, Option.bind_eq_some_iff]
  constructor
  · rintro ⟨row, hrow, enrollment, henrollment, detail, hdetail, c, hc, h⟩
    obtain ⟨hactive, heq⟩ := Option.ite_none_right_eq_some.1 h
    obtain rfl := Option.some.inj heq
    exact ⟨row, enrollment, detail, hrow, hactive, henrollment, hdetail, hc, rfl⟩
  · rintro ⟨row, enrollment, detail, hrow, hactive, henrollment, hdetail, hc, heq⟩
    refine ⟨row, hrow, enrollment, henrollment, detail, hdetail,
      worker.certificate, hc, ?_⟩
    rw [if_pos hactive, heq]

/-- The Worker of a certificate that is accepted is the active one, but for
certificate and key. -/
theorem workerForCertificate_ok {workerId : Nat} {certificate : Certificate} {now : Nat}
    {worker : ActiveWorker}
    (h : d.workerForCertificate workerId certificate now = .ok worker) :
    ∃ active, d.activeWorker workerId = some active ∧ worker.login = active.login ∧
      worker.server = active.server ∧
      worker.passwordSecretRef = active.passwordSecretRef := by
  unfold workerForCertificate at h
  split at h
  · cases h
  · next active hactive =>
      refine ⟨active, hactive, ?_⟩
      split at h
      · cases h
        exact ⟨rfl, rfl, rfl⟩
      · split at h
        · cases h
        · split at h
          · cases h
            exact ⟨rfl, rfl, rfl⟩
          · cases h

/-- The database after the Worker `w`, of enrollment `e`, has a new key and certificate. -/
def rotated (d : Database) (w e : Nat) (detail : EnrollmentDetail) (old new : Certificate)
    (now : Nat) : Database :=
  { d with
    certificateOverlaps :=
      d.certificateOverlaps.set (w, old) ⟨detail.publicKeyPem, now + hours 1⟩
    details := d.details.set e { detail with publicKeyPem := new.publicKeyPem }
    certificates := d.certificates.set w new }

theorem rotateWorkerCertificate_ok {w : Nat} {publicKeyPem : String} {signature : Nat}
    {issuedAt : Option Nat} {now : Nat} {c : Certificate}
    (h : (rotateWorkerCertificate w publicKeyPem signature issuedAt now).run d =
      .ok (c, d')) :
    ∃ row detail old t, d.ledger.workers.get w = some row ∧ row.status = .active ∧
      d.details.get row.enrollmentId = some detail ∧ d.certificates.get w = some old ∧
      d.certificateOverlaps.get (w, old) = none ∧
      c = ⟨w, row.login, row.server, publicKeyPem, t, t + hours (30 * 24), signature⟩ ∧
      d' = d.rotated w row.enrollmentId detail old c now := by
  simp only [rotateWorkerCertificate, Tx.bind_ok, Tx.get_ok] at h
  obtain ⟨_, _, ⟨rfl, rfl⟩, h⟩ := h
  split at h
  · next worker row hworker hrow =>
      obtain ⟨row', enrollment, detail, hrow', hactive, -, hdetail, hcert, hw⟩ :=
        activeWorker_some.1 hworker
      obtain rfl := Option.some.inj (hrow.symm.trans hrow')
      simp only [hdetail, Tx.bind_ok, Tx.require_ok, Tx.modify_ok, Tx.pure_ok] at h
      obtain ⟨_, _, hissue, _, _, ⟨hfree, rfl⟩, _, _, rfl, _, _, rfl, rfl, rfl⟩ := h
      obtain ⟨t, rfl, rfl⟩ := issueCertificate_ok hissue
      refine ⟨row, detail, worker.certificate, t, hrow, hactive, hdetail, hcert,
        hfree, ?_, ?_⟩
      · rw [hw]
      · rw [hw]
        rfl
  · simp only [refuse, Tx.throw_ok] at h

/-- The database after the Worker `w` and its enrollment `e` are deleted. -/
def deleted (d : Database) (l : ControlLedger) (w e : Nat) : Database :=
  { d with
    ledger := l
    certificateOverlaps := d.certificateOverlaps.delete fun k _ => k.1 == w
    certificates := d.certificates.delete fun k _ => k == w
    details := d.details.delete fun k _ => k == e }

theorem deleteWorker_ok {w : Nat} {reply : Nat × Nat}
    (h : (deleteWorker w).run d = .ok (reply, d')) :
    ∃ row detail l, d.ledger.workers.get w = some row ∧
      d.details.get row.enrollmentId = some detail ∧
      reply = (row.enrollmentId, detail.passwordSecretRef) ∧
      l.workers = d.ledger.workers.delete (fun k _ => k == w) ∧
      l.enrollments = d.ledger.enrollments.delete (fun k _ => k == row.enrollmentId) ∧
      d' = d.deleted l w row.enrollmentId := by
  simp only [deleteWorker, Tx.bind_ok, Tx.get_ok] at h
  obtain ⟨_, _, ⟨rfl, rfl⟩, h⟩ := h
  split at h
  · simp only [refuse, Tx.throw_ok] at h
  · next row hrow =>
      split at h
      · simp only [refuse, Tx.throw_ok] at h
      · next detail hdetail =>
          simp only [Tx.bind_ok, Tx.modify_ok, Tx.pure_ok] at h
          obtain ⟨deletion, _, hledger, _, _, rfl, rfl, rfl⟩ := h
          obtain ⟨l, hop, rfl⟩ := onLedger_ok.1 hledger
          obtain ⟨row', hrow', -, hworkers, henrollments⟩ :=
            ControlLedger.delete_registry hop
          obtain rfl := Option.some.inj (hrow.symm.trans hrow')
          exact ⟨row, detail, l, hrow, hdetail, rfl, hworkers, henrollments, rfl⟩

end Database

/-! ## Calls -/

namespace ControlPlane

variable {F : Type} {s : ControlPlane F}

@[simp] theorem proceed_get (id : Nat) (next : Option (Call F)) (k : Nat) :
    (s.proceed id next).calls.get k = if k = id then next else s.calls.get k := by
  cases next with
  | some call => exact Table.get_set ..
  | none =>
      by_cases hk : k = id
      · simp only [proceed, finish, hk, if_true]
        exact Table.get_delete_gone fun _ => by simp
      · simp only [proceed, finish, if_neg hk]
        exact Table.get_delete_keep fun _ => by simpa using hk

@[simp] theorem proceed_administrators (id : Nat) (next : Option (Call F)) :
    (s.proceed id next).administrators = s.administrators := by
  cases next <;> rfl

@[simp] theorem proceed_database (id : Nat) (next : Option (Call F)) :
    (s.proceed id next).database = s.database := by
  cases next <;> rfl

@[simp] theorem proceed_secretStore (id : Nat) (next : Option (Call F)) :
    (s.proceed id next).secretStore = s.secretStore := by
  cases next <;> rfl

@[simp] theorem proceed_rotationChallenges (id : Nat) (next : Option (Call F)) :
    (s.proceed id next).rotationChallenges = s.rotationChallenges := by
  cases next <;> rfl

@[simp] theorem proceed_draws (id : Nat) (next : Option (Call F)) :
    (s.proceed id next).draws = s.draws := by
  cases next <;> rfl

@[simp] theorem proceed_trail (id : Nat) (next : Option (Call F)) :
    (s.proceed id next).trail = s.trail := by
  cases next <;> rfl

theorem afterEnroll_some {r : Nat} {result : Except Fault Unit} {call : Call F}
    (h : afterEnroll r result = some call) : call = .deletePassword r false [] := by
  unfold afterEnroll at h
  split at h
  · exact (Option.some.inj h).symm
  · cases h

theorem purgeNext_some {refs : List Nat} {call : Call F} (h : purgeNext refs = some call) :
    ∃ r rest, call = .deletePassword r true rest := by
  cases refs with
  | nil => cases h
  | cons r rest => exact ⟨r, rest, (Option.some.inj h).symm⟩

theorem afterDelete_some {r : Nat} {mark : Bool} {rest : List Nat} {call : Call F}
    (h : afterDelete r mark rest = some call) : call = .markDeleted r rest := by
  unfold afterDelete at h
  split at h
  · exact (Option.some.inj h).symm
  · cases h

/-- What the start, each commit and each refusal of a transaction keep. -/
theorem transact_invariant {I : ControlPlane F → Prop} {α : Type} {id : Nat}
    {t : Database.Locked α} {next : Except Fault α → Option (Call F)}
    {entries : α → List (Entry F)}
    (hok : ∀ a d, t.run s.database = .ok (a, d) → I (({ s with
      database := d
      draws := s.draws + 2
      trail := entries a ++ s.trail }).proceed id (next (.ok a))))
    (herr : ∀ e, t.run s.database = .error e → I (s.proceed id (next (.error e)))) :
    I (s.transact id t next entries) := by
  unfold transact
  split
  · next a d h => exact hok a d (Tx.commit_ok.1 h)
  · next e d h =>
      obtain ⟨hrun, rfl⟩ := Tx.commit_error.1 h
      exact herr e hrun

end ControlPlane

end PairCell.Access
