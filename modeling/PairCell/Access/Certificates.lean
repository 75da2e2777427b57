import PairCell.Access.Custody
import PairCell.Lib.Trail

/-!
# Which certificates are accepted

A certificate that is accepted for a Worker was issued for its account, and its
key is the one that the Worker enrolled or one that came in its place by a
rotation which both keys signed.
-/

namespace PairCell.Access

open Lib Trail

variable {F : Type}

/-- The key signed that this replacement is to be the Worker's key. -/
def Signed (σ : Setting F) (publicKeyPem : String) (w : Nat) (replacement : String)
    (nonce : Nat) :
    Prop :=
  ∃ signature,
    (verifyWorkerRotationProof σ.cryptography σ.floats publicKeyPem signature (toString w)
    replacement (toString nonce)).isOk

def Issued (t : List (Entry F)) (c : Certificate) : Prop :=
  ∃ nonce now, .certified c nonce now ∈ t

/-- Some certificate of the Worker has been issued for the key. -/
def KeyHeld (t : List (Entry F)) (w : Nat) (publicKeyPem : String) : Prop :=
  ∃ c, Issued t c ∧ c.workerId = w ∧ c.publicKeyPem = publicKeyPem

def Attested (σ : Setting F) (older : List (Entry F)) : Entry F → Prop
  | .certified c none _ =>
      ∃ e username t body r t', .approved e c.workerId username t ∈ older ∧
      .enrolled e body r t' ∈ older ∧ c.publicKeyPem = body.publicKeyPem ∧
      (c.login, c.server) = (body.login, body.server)
  | .certified c (some nonce) _ =>
      (∃ old t, .proven c.workerId old c.publicKeyPem nonce t ∈ older) ∧
      ∀ c' t, .certified c' (some nonce) t ∉ older
  | .proven w old key nonce now =>
      (∃ t, .challenged w key nonce t ∈ older ∧ now < t + minutes 2) ∧
      Signed σ old w key nonce ∧ Signed σ key w key nonce ∧ KeyHeld older w old ∧
      ∀ w' old' key' t, .proven w' old' key' nonce t ∉ older
  | _ => True

theorem Issued.mono {t t' : List (Entry F)} {c : Certificate} (h : Issued t c)
    (hmem : ∀ x ∈ t, x ∈ t') : Issued t' c := by
  obtain ⟨nonce, now, hentry⟩ := h
  exact ⟨nonce, now, hmem _ hentry⟩

theorem KeyHeld.mono {t t' : List (Entry F)} {w : Nat} {publicKeyPem : String}
    (h : KeyHeld t w publicKeyPem) (hmem : ∀ x ∈ t, x ∈ t') :
    KeyHeld t' w publicKeyPem := by
  obtain ⟨c, hissued, hc⟩ := h
  exact ⟨c, hissued.mono hmem, hc⟩

def Certificate.account (c : Certificate) : Nat × String := (c.login, c.server)

/-! ## Certificates on record -/

structure CertificatesSound (d : Database) (t : List (Entry F)) (n : Nat) : Prop where
  keys : ∀ e row x, d.ledger.enrollments.get e = some row → d.details.get e = some x →
    row.status = .pending → ∃ body r now, .enrolled e body r now ∈ t ∧
      x.publicKeyPem = body.publicKeyPem ∧ row.account = (body.login, body.server)
  certificates : ∀ w c, d.certificates.get w = some c → w < n ∧ c.workerId = w ∧ Issued t c
  own : ∀ w row c, d.ledger.workers.get w = some row → d.certificates.get w = some c →
    c.account = row.account ∧
      ∀ x, d.details.get row.enrollmentId = some x → x.publicKeyPem = c.publicKeyPem
  overlaps : ∀ w c o, d.certificateOverlaps.get (w, c) = some o → w < n ∧ c.workerId = w ∧
    Issued t c ∧ o.publicKeyPem = c.publicKeyPem ∧
      ∀ row, d.ledger.workers.get w = some row → c.account = row.account

section Certificates

variable {d d' : Database} {t t' : List (Entry F)} {n n' : Nat}

/-- Rows go or change in columns that play no part here. -/
theorem CertificatesSound.ease (h : CertificatesSound d t n)
    (hmem : ∀ x ∈ t, x ∈ t') (hn : n ≤ n')
    (henrollments : ∀ e row', d'.ledger.enrollments.get e = some row' →
      ∃ row, d.ledger.enrollments.get e = some row ∧ row'.account = row.account ∧
        (row'.status = .pending → row.status = .pending))
    (hdetails : ∀ e x', d'.details.get e = some x' →
      ∃ x, d.details.get e = some x ∧ x'.publicKeyPem = x.publicKeyPem)
    (hworkers : ∀ w row', d'.ledger.workers.get w = some row' →
      ∃ row, d.ledger.workers.get w = some row ∧ row'.enrollmentId = row.enrollmentId ∧
        row'.account = row.account)
    (hcertificates : ∀ w c, d'.certificates.get w = some c → d.certificates.get w = some c)
    (hoverlaps : ∀ k o, d'.certificateOverlaps.get k = some o →
      d.certificateOverlaps.get k = some o) :
    CertificatesSound d' t' n' where
  keys e row' x' hrow' hx' hpending := by
    obtain ⟨row, hrow, haccount, hback⟩ := henrollments e row' hrow'
    obtain ⟨x, hx, hkey⟩ := hdetails e x' hx'
    obtain ⟨body, r, now, hentry, hbody, hsame⟩ := h.keys e row x hrow hx (hback hpending)
    exact ⟨body, r, now, hmem _ hentry, hkey.trans hbody, haccount.trans hsame⟩
  certificates w c hc := by
    obtain ⟨hw, hid, hissued⟩ := h.certificates w c (hcertificates w c hc)
    exact ⟨Nat.lt_of_lt_of_le hw hn, hid, hissued.mono hmem⟩
  own w row' c hrow' hc := by
    obtain ⟨row, hrow, henrollment, haccount⟩ := hworkers w row' hrow'
    obtain ⟨hsame, hkey⟩ := h.own w row c hrow (hcertificates w c hc)
    refine ⟨hsame.trans haccount.symm, fun x' hx' => ?_⟩
    obtain ⟨x, hx, heq⟩ := hdetails _ x' hx'
    exact heq.trans (hkey x (henrollment ▸ hx))
  overlaps w c o ho := by
    obtain ⟨hw, hid, hissued, hkey, hsame⟩ := h.overlaps w c o (hoverlaps _ o ho)
    refine ⟨Nat.lt_of_lt_of_le hw hn, hid, hissued.mono hmem, hkey, fun row' hrow' => ?_⟩
    obtain ⟨row, hrow, -, haccount⟩ := hworkers w row' hrow'
    exact (hsame row hrow).trans haccount.symm

theorem CertificatesSound.same (h : CertificatesSound d t n)
    (hmem : ∀ x ∈ t, x ∈ t') (hn : n ≤ n')
    (henrollments : d'.ledger.enrollments = d.ledger.enrollments)
    (hworkers : d'.ledger.workers = d.ledger.workers) (hdetails : d'.details = d.details)
    (hcertificates : d'.certificates = d.certificates)
    (hoverlaps : d'.certificateOverlaps = d.certificateOverlaps) :
    CertificatesSound d' t' n' :=
  h.ease hmem hn (fun _ row hrow => ⟨row, henrollments ▸ hrow, rfl, fun hcase => hcase⟩)
    (fun _ x hx => ⟨x, hdetails ▸ hx, rfl⟩)
      (fun _ row hrow => ⟨row, hworkers ▸ hrow, rfl, rfl⟩)
    (fun _ _ hc => hcertificates ▸ hc) fun _ _ ho => hoverlaps ▸ ho

theorem CertificatesSound.later (h : CertificatesSound d t n) (hmem : ∀ x ∈ t, x ∈ t')
    (hn : n ≤ n') : CertificatesSound d t' n' :=
  h.same hmem hn rfl rfl rfl rfl rfl

/-- An enrollment is added; no Worker has it yet. -/
theorem CertificatesSound.enrolled (h : CertificatesSound d t n) (hmem : ∀ x ∈ t, x ∈ t')
    (hn : n ≤ n') {body : EnrollmentRequest F} {r e now : Nat} {invite : Invite}
    {challenge : Challenge} (hentry : .enrolled e body r now ∈ t')
    (hworkers : ∀ w row, d.ledger.workers.get w = some row → row.enrollmentId ≠ e) :
    CertificatesSound (d.enrolled body r e now invite challenge) t' n' := by
  have hlater := h.later hmem hn
  refine ⟨fun k row x hrow hx hpending => ?_, hlater.certificates,
    fun w row c hrow hc => ?_, hlater.overlaps⟩
  · simp only [Database.enrolled, Table.get_set] at hrow hx
    by_cases hk : k = e
    · subst hk
      rw [if_pos rfl] at hrow hx
      obtain rfl := Option.some.inj hrow
      obtain rfl := Option.some.inj hx
      exact ⟨body, r, now, hentry, rfl, rfl⟩
    · rw [if_neg hk] at hrow hx
      exact hlater.keys k row x hrow hx hpending
  · obtain ⟨hsame, hkey⟩ := hlater.own w row c hrow hc
    refine ⟨hsame, fun x hx => hkey x ?_⟩
    exact (Table.get_set_ne _ _ (hworkers w row hrow)).symm.trans hx

/-- A Worker is approved; its number is new and no Worker has its enrollment yet. -/
theorem CertificatesSound.approved (h : CertificatesSound d t n) (hmem : ∀ x ∈ t, x ∈ t')
    (hn : n < n') {e : Nat} {row : Enrollment} {detail : EnrollmentDetail}
    {superseded : List Nat} {approvedBy : String} {c : Certificate}
    (hissued : Issued t' c) (hid : c.workerId = n) (haccount : c.account = row.account)
    (hkey : c.publicKeyPem = detail.publicKeyPem)
    (hworkers : ∀ w row, d.ledger.workers.get w = some row → row.enrollmentId ≠ e) :
    CertificatesSound (d.approved e n row detail superseded approvedBy c) t' n' := by
  have hlater := h.later hmem (Nat.le_of_lt hn)
  have hold : ∀ v x, (d.ledger.approved e n row superseded).workers.get v =
      some x → v ≠ n →
      ∃ x', d.ledger.workers.get v = some x' ∧ x'.enrollmentId = x.enrollmentId ∧
        x'.account = x.account := by
    intro v x hx hv
    simp only [ControlLedger.approved, Table.get_set_ne _ _ hv,
      ControlLedger.get_revokeRows] at hx
    split at hx
    · obtain ⟨x', hx', rfl⟩ := Option.map_eq_some_iff.1 hx
      exact ⟨x', hx', rfl, rfl⟩
    · exact ⟨x, hx, rfl, rfl⟩
  refine ⟨fun k row' x hrow' hx hpending => ?_, fun w c' hc' => ?_,
    fun w row' c' hrow' hc' => ?_,
    fun w c' o ho => ?_⟩
  · simp only [Database.approved, ControlLedger.approved, Table.get_set] at hrow' hx
    by_cases hk : k = e
    · rw [if_pos hk] at hrow'
      obtain rfl := Option.some.inj hrow'
      cases hpending
    · rw [if_neg hk] at hrow' hx
      exact hlater.keys k row' x hrow' hx hpending
  · simp only [Database.approved, Table.get_set] at hc'
    split at hc'
    · next hw =>
        obtain rfl := Option.some.inj hc'
        exact ⟨hw ▸ hn, hid.trans hw.symm, hissued⟩
    · exact hlater.certificates w c' hc'
  · simp only [Database.approved] at hrow' hc' ⊢
    by_cases hw : w = n
    · subst hw
      obtain rfl := Option.some.inj ((Table.get_set_self ..).symm.trans hrow')
      obtain rfl := Option.some.inj ((Table.get_set_self ..).symm.trans hc')
      refine ⟨haccount, fun x hx => ?_⟩
      obtain rfl := Option.some.inj ((Table.get_set_self ..).symm.trans hx)
      exact hkey.symm
    · obtain ⟨old, hrow, henrollment, hsame⟩ := hold w row' hrow' hw
      obtain ⟨hacc, hk⟩ :=
        hlater.own w old c' hrow ((Table.get_set_ne _ _ hw).symm.trans hc')
      refine ⟨hacc.trans hsame, fun x hx => hk x ?_⟩
      rw [henrollment]
      exact (Table.get_set_ne _ _ (henrollment ▸ hworkers w old hrow)).symm.trans hx
  · obtain ⟨hw, hw', hissued', hkey', hsame⟩ := h.overlaps w c' o ho
    refine ⟨Nat.lt_trans hw hn, hw', hissued'.mono hmem, hkey', fun row' hrow' => ?_⟩
    obtain ⟨old, hrow, -, hacc⟩ := hold w row' hrow' (Nat.ne_of_lt hw)
    exact (hsame old hrow).trans hacc

/-- A Worker has a new key and certificate, and its old ones go on as an overlap. -/
theorem CertificatesSound.rotated (h : CertificatesSound d t n) (hmem : ∀ x ∈ t, x ∈ t')
    (hn : n ≤ n') {w now : Nat} {row : WorkerRow} {detail : EnrollmentDetail}
    {old c : Certificate} (hrow : d.ledger.workers.get w = some row)
    (hdetail : d.details.get row.enrollmentId = some detail)
    (hold : d.certificates.get w = some old) (hissued : Issued t' c) (hid : c.workerId = w)
    (haccount : c.account = row.account)
    (hpending : ∀ er, d.ledger.enrollments.get row.enrollmentId = some er →
      er.status ≠ .pending)
    (hsingle : ∀ v x, d.ledger.workers.get v = some x →
      x.enrollmentId = row.enrollmentId → v = w) :
    CertificatesSound (d.rotated w row.enrollmentId detail old c now) t' n' := by
  have hlater := h.later hmem hn
  obtain ⟨hw, hoid, hoissued⟩ := hlater.certificates w old hold
  obtain ⟨hosame, hokey⟩ := hlater.own w row old hrow hold
  refine ⟨fun k er x her hx hp => ?_, fun v c' hc' => ?_, fun v row' c' hrow' hc' => ?_,
    fun v c' o ho => ?_⟩
  · simp only [Database.rotated, Table.get_set] at her hx
    by_cases hk : k = row.enrollmentId
    · exact absurd hp (hpending er (hk ▸ her))
    · rw [if_neg hk] at hx
      exact hlater.keys k er x her hx hp
  · simp only [Database.rotated, Table.get_set] at hc'
    split at hc'
    · next hv =>
        obtain rfl := Option.some.inj hc'
        exact ⟨hv ▸ hw, hid.trans hv.symm, hissued⟩
    · exact hlater.certificates v c' hc'
  · simp only [Database.rotated] at hrow' hc' ⊢
    by_cases hv : v = w
    · subst hv
      obtain rfl := Option.some.inj (hrow.symm.trans hrow')
      obtain rfl := Option.some.inj ((Table.get_set_self ..).symm.trans hc')
      refine ⟨haccount, fun x hx => ?_⟩
      obtain rfl := Option.some.inj ((Table.get_set_self ..).symm.trans hx)
      rfl
    · obtain ⟨hacc, hk⟩ :=
        hlater.own v row' c' hrow' ((Table.get_set_ne _ _ hv).symm.trans hc')
      refine ⟨hacc, fun x hx => hk x ?_⟩
      exact (Table.get_set_ne _ _ fun heq => hv (hsingle v row' hrow' heq)).symm.trans hx
  · simp only [Database.rotated, Table.get_set] at ho
    split at ho
    · next hk =>
        obtain ⟨rfl, rfl⟩ := Prod.mk.inj hk
        obtain rfl := Option.some.inj ho
        refine ⟨hw, hoid, hoissued, hokey detail hdetail, fun row' hrow' => ?_⟩
        obtain rfl := Option.some.inj (hrow.symm.trans hrow')
        exact hosame
    · exact hlater.overlaps v c' o ho

/-- What is accepted was issued for the Worker's account, and the key is the
certificate's. -/
theorem CertificatesSound.accepted (h : CertificatesSound d t n) {w now : Nat}
    {c : Certificate} {worker : ActiveWorker}
    (hw : d.workerForCertificate w c now = .ok worker) :
    Issued t c ∧ worker.certificate = c ∧ c.workerId = worker.workerId ∧
      c.account = (worker.login, worker.server) ∧
      c.publicKeyPem = worker.publicKeyPem := by
  unfold Database.workerForCertificate at hw
  split at hw
  · cases hw
  · next active hactive =>
      obtain ⟨row, enrollment, detail, hrow, -, -, hdetail, hcertificate, heq⟩ :=
        Database.activeWorker_some.1 hactive
      split at hw
      · next hc =>
          cases hw
          obtain ⟨-, hid, hissued⟩ := h.certificates w _ hcertificate
          obtain ⟨hsame, hkey⟩ := h.own w row _ hrow hcertificate
          rw [hc, heq]
          exact ⟨hissued, rfl, hid, hsame, (hkey detail hdetail).symm⟩
      · split at hw
        · cases hw
        · next o ho =>
            split at hw
            · cases hw
              obtain ⟨-, hid, hissued, hkey, hsame⟩ := h.overlaps w c o ho
              rw [heq]
              exact ⟨hissued, rfl, hid, hsame row hrow, hkey.symm⟩
            · cases hw

/-- The certificate of an active Worker is one that was issued for its key. -/
theorem CertificatesSound.active (h : CertificatesSound d t n) {w : Nat}
    {worker : ActiveWorker} (hw : d.activeWorker w = some worker) :
    worker.workerId = w ∧ KeyHeld t worker.workerId worker.publicKeyPem := by
  obtain ⟨row, enrollment, detail, hrow, -, -, hdetail, hcertificate, heq⟩ :=
    Database.activeWorker_some.1 hw
  obtain ⟨-, hid, hissued⟩ := h.certificates w _ hcertificate
  obtain ⟨-, hkey⟩ := h.own w row _ hrow hcertificate
  rw [heq]
  exact ⟨rfl, worker.certificate, hissued, hid, (hkey detail hdetail).symm⟩

end Certificates

/-! ## Rotations under way -/

def Entry.Rotates : Entry F → Prop
  | .certified _ (some _) _ | .proven .. | .challenged .. => True
  | _ => False

def CallAttested (t : List (Entry F)) : Call F → Prop
  | .takeRotation body worker => body.workerId = worker.workerId ∧
      KeyHeld t worker.workerId worker.publicKeyPem
  | .rotate w key nonce => (∃ old now, .proven w old key nonce now ∈ t) ∧
      ∀ c now, .certified c (some nonce) now ∉ t
  | _ => True

/-- A challenge on record is open: nothing has been proven for its nonce. -/
structure RotationsSound (rc : Table Nat RotationChallenge) (calls : Table Nat (Call F))
    (t : List (Entry F)) (n : Nat) : Prop where
  pending : ∀ w ch, rc.get w = some ch →
    (∃ now, .challenged w ch.replacementPublicKeyPem ch.nonce now ∈ t ∧
      ch.expiresAt = now + minutes 2) ∧
    ∀ w' old key now, .proven w' old key ch.nonce now ∉ t
  distinct : ∀ w w' ch ch', rc.get w = some ch → rc.get w' = some ch' →
      ch.nonce = ch'.nonce → w = w'
  drawn : ∀ w key nonce now, .challenged w key nonce now ∈ t → nonce < n
  proven : ∀ w old key nonce now, .proven w old key nonce now ∈ t → nonce < n
  certified : ∀ c nonce now, .certified c (some nonce) now ∈ t →
    ∃ w old key now, .proven w old key nonce now ∈ t
  attested : ∀ id call, calls.get id = some call → CallAttested t call
  once : ∀ i j w key w' key' nonce, calls.get i = some (.rotate w key nonce) →
    calls.get j = some (.rotate w' key' nonce) → i = j

section Rotations

variable {rc : Table Nat RotationChallenge} {calls calls' : Table Nat (Call F)}
  {t t' : List (Entry F)} {n n' : Nat}

theorem CallAttested.mono {call : Call F} (h : CallAttested t call)
    (hmem : ∀ x ∈ t, x ∈ t') (hback : ∀ x ∈ t', x.Rotates → x ∈ t) :
    CallAttested t' call := by
  cases call with
  | takeRotation body worker => exact ⟨h.1, h.2.mono hmem⟩
  | rotate w key nonce =>
      obtain ⟨⟨old, now, hentry⟩, hnone⟩ := h
      exact ⟨⟨old, now, hmem _ hentry⟩, fun c t hc => hnone c t (hback _ hc trivial)⟩
  | _ => trivial

/-- No rotation goes on. -/
theorem RotationsSound.later (h : RotationsSound rc calls t n) (hmem : ∀ x ∈ t, x ∈ t')
    (hback : ∀ x ∈ t', x.Rotates → x ∈ t) (hn : n ≤ n')
    (hcalls : ∀ id call, calls'.get id = some call → calls.get id = some call ∨
      CallAttested t' call ∧ ∀ w key nonce, call ≠ .rotate w key nonce) :
    RotationsSound rc calls' t' n' where
  pending w ch hch := by
    obtain ⟨⟨now, hentry, hexpires⟩, hnone⟩ := h.pending w ch hch
    exact ⟨⟨now, hmem _ hentry, hexpires⟩, fun w' old key t hp =>
      hnone w' old key t (hback _ hp trivial)⟩
  distinct := h.distinct
  drawn w key nonce now hentry :=
    Nat.lt_of_lt_of_le (h.drawn w key nonce now (hback _ hentry trivial)) hn
  proven w old key nonce now hentry :=
    Nat.lt_of_lt_of_le (h.proven w old key nonce now (hback _ hentry trivial)) hn
  certified c nonce now hentry := by
    obtain ⟨w, old, key, t, hp⟩ := h.certified c nonce now (hback _ hentry trivial)
    exact ⟨w, old, key, t, hmem _ hp⟩
  attested id call hcall := by
    obtain hold | ⟨hnew, -⟩ := hcalls id call hcall
    · exact (h.attested id call hold).mono hmem hback
    · exact hnew
  once i j w key w' key' nonce hi hj := by
    obtain hi | ⟨-, hnot⟩ := hcalls i _ hi
    · obtain hj | ⟨-, hnot⟩ := hcalls j _ hj
      · exact h.once i j w key w' key' nonce hi hj
      · exact absurd rfl (hnot w' key' nonce)
    · exact absurd rfl (hnot w key nonce)

/-- The challenge of a Worker is replaced by one with a new nonce. -/
theorem RotationsSound.challenge (h : RotationsSound rc calls t n) {w now : Nat}
    {key : String} {id : Nat} : RotationsSound (rc.set w ⟨n, key, now + minutes 2⟩)
      (calls.delete fun k _ => k == id) (.challenged w key n now :: t) (n + 1) := by
  have hmem : ∀ x ∈ t, x ∈ .challenged w key n now :: t := fun _ => List.mem_cons_of_mem _
  refine ⟨fun v ch hch => ?_, fun v v' ch ch' hch hch' heq => ?_,
    fun v key' nonce t' hentry => ?_,
    fun v old key' nonce t' hentry => ?_, fun c nonce t' hentry =>
      ?_, fun k call hcall => ?_,
    fun i j v key' v' key'' nonce hi hj => ?_⟩
  · rw [Table.get_set] at hch
    split at hch
    · next hv =>
        obtain rfl := Option.some.inj hch
        refine ⟨⟨now, by simp [hv], rfl⟩, fun w' old key' t' hp => ?_⟩
        exact Nat.lt_irrefl _ (h.proven w' old key' n t' (by simpa using hp))
    · obtain ⟨⟨t', hentry, hexpires⟩, hnone⟩ := h.pending v ch hch
      exact ⟨⟨t', hmem _ hentry, hexpires⟩, fun w' old key' t'' hp =>
        hnone w' old key' t'' (by simpa using hp)⟩
  · have hlt : ∀ v ch, rc.get v = some ch → ch.nonce < n := by
      intro v ch hch
      obtain ⟨⟨t', hentry, -⟩, -⟩ := h.pending v ch hch
      exact h.drawn v _ _ t' hentry
    rw [Table.get_set] at hch hch'
    split at hch
    · next hv =>
        obtain rfl := Option.some.inj hch
        split at hch'
        · next hv' => exact hv.trans hv'.symm
        · exact absurd heq (Nat.ne_of_gt (hlt v' ch' hch'))
    · split at hch'
      · obtain rfl := Option.some.inj hch'
        exact absurd heq (Nat.ne_of_lt (hlt v ch hch))
      · exact h.distinct v v' ch ch' hch hch' heq
  · obtain heq | hentry := List.mem_cons.1 hentry
    · cases heq
      exact Nat.lt_succ_self _
    · exact Nat.lt_succ_of_lt (h.drawn v key' nonce t' hentry)
  · exact Nat.lt_succ_of_lt (h.proven v old key' nonce t' (by simpa using hentry))
  · obtain ⟨v, old, key', t'', hp⟩ := h.certified c nonce t' (by simpa using hentry)
    exact ⟨v, old, key', t'', hmem _ hp⟩
  · have hattested := h.attested k call ((Table.get_delete_eq_some ..).1 hcall).1
    cases call with
    | takeRotation body worker => exact ⟨hattested.1, hattested.2.mono hmem⟩
    | rotate v key' nonce =>
        obtain ⟨⟨old, t', hp⟩, hnone⟩ := hattested
        exact ⟨⟨old, t', hmem _ hp⟩, fun c t'' hc => hnone c t'' (by simpa using hc)⟩
    | _ => trivial
  · exact h.once i j v key' v' key'' nonce ((Table.get_delete_eq_some ..).1 hi).1
      ((Table.get_delete_eq_some ..).1 hj).1

/-- The challenge of a Worker is taken. -/
theorem RotationsSound.take (h : RotationsSound rc calls t n) (w : Nat) :
    RotationsSound (rc.delete fun k _ => k == w) calls t n :=
  ⟨fun v ch hch => h.pending v ch ((Table.get_delete_eq_some ..).1 hch).1,
    fun v v' ch ch' hch hch' =>
      h.distinct v v' ch ch' ((Table.get_delete_eq_some ..).1 hch).1
      ((Table.get_delete_eq_some ..).1 hch').1,
    h.drawn, h.proven, h.certified, h.attested, h.once⟩

/-- Both keys have signed for the challenge that was taken. -/
theorem RotationsSound.prove (h : RotationsSound rc calls t n) (id now : Nat)
    (old : String) {w : Nat} {ch : RotationChallenge} (hch : rc.get w = some ch) :
    RotationsSound (rc.delete fun k _ => k == w)
      (calls.set id (.rotate w ch.replacementPublicKeyPem ch.nonce))
      (.proven w old ch.replacementPublicKeyPem ch.nonce now :: t) n := by
  obtain ⟨⟨t₀, hchallenged, -⟩, hnone⟩ := h.pending w ch hch
  have hmem : ∀ x ∈ t, x ∈ .proven w old ch.replacementPublicKeyPem ch.nonce now :: t :=
    fun _ => List.mem_cons_of_mem _
  have hfresh : ∀ c t', .certified c (some ch.nonce) t' ∉ t := by
    intro c t' hc
    obtain ⟨v, old', key, t'', hp⟩ := h.certified c _ t' hc
    exact hnone v old' key t'' hp
  have hother : ∀ i v key, calls.get i ≠ some (.rotate v key ch.nonce) := by
    intro i v key hi
    obtain ⟨⟨old', t', hp⟩, -⟩ := h.attested i _ hi
    exact hnone v old' key t' hp
  refine ⟨fun v ch' hch' => ?_, fun v v' ch' ch'' hch' hch'' => ?_,
    fun v key nonce t' hentry => ?_,
    fun v old' key nonce t' hentry => ?_, fun c nonce t' hentry =>
      ?_, fun k call hcall => ?_,
    fun i j v key v' key' nonce hi hj => ?_⟩
  · obtain ⟨hch', hv⟩ := (Table.get_delete_eq_some ..).1 hch'
    obtain ⟨⟨t', hentry, hexpires⟩, hopen⟩ := h.pending v ch' hch'
    refine ⟨⟨t', hmem _ hentry, hexpires⟩, fun w' old' key t'' hp => ?_⟩
    obtain heq | hp := List.mem_cons.1 hp
    · injection heq with _ _ _ hnonce _
      simp [h.distinct v w ch' ch hch' hch hnonce] at hv
    · exact hopen w' old' key t'' hp
  · exact h.distinct v v' ch' ch'' ((Table.get_delete_eq_some ..).1 hch').1
      ((Table.get_delete_eq_some ..).1 hch'').1
  · exact h.drawn v key nonce t' (by simpa using hentry)
  · obtain heq | hentry := List.mem_cons.1 hentry
    · injection heq with _ _ _ hnonce _
      exact hnonce ▸ h.drawn w _ _ t₀ hchallenged
    · exact h.proven v old' key nonce t' hentry
  · obtain ⟨v, old', key, t'', hp⟩ := h.certified c nonce t' (by simpa using hentry)
    exact ⟨v, old', key, t'', hmem _ hp⟩
  · rw [Table.get_set] at hcall
    split at hcall
    · obtain rfl := Option.some.inj hcall
      exact ⟨⟨old, now, List.mem_cons_self⟩,
        fun c t' hc => hfresh c t' (by simpa using hc)⟩
    · have hattested := h.attested k call hcall
      cases call with
      | takeRotation body worker => exact ⟨hattested.1, hattested.2.mono hmem⟩
      | rotate v key' nonce =>
          obtain ⟨⟨old', t', hp⟩, hopen⟩ := hattested
          exact ⟨⟨old', t', hmem _ hp⟩, fun c t'' hc => hopen c t'' (by simpa using hc)⟩
      | _ => trivial
  · rw [Table.get_set] at hi hj
    split at hi
    · next hid =>
        cases hi
        split at hj
        · next hjd => exact hid.trans hjd.symm
        · exact absurd hj (hother j v' key')
    · split at hj
      · cases hj
        exact absurd hi (hother i v key)
      · exact h.once i j v key v' key' nonce hi hj

/-- The certificate for a proof is issued, and the call that had it is over. -/
theorem RotationsSound.certify (h : RotationsSound rc calls t n) (hn : n ≤ n')
    {id w nonce now : Nat} {key : String} {c : Certificate}
    (hcall : calls.get id = some (.rotate w key nonce)) :
    RotationsSound rc (calls.delete fun k _ => k == id)
      (.certified c (some nonce) now :: t) n' := by
  have hmem : ∀ x ∈ t, x ∈ .certified c (some nonce) now :: t :=
    fun _ => List.mem_cons_of_mem _
  obtain ⟨⟨old, t₀, hproven⟩, -⟩ := h.attested id _ hcall
  refine ⟨fun v ch hch => ?_, h.distinct, fun v key' q t' hentry => ?_,
    fun v old' key' q t' hentry => ?_, fun c' q t' hentry => ?_, fun k call hk => ?_,
    fun i j v key' v' key'' q hi hj => ?_⟩
  · obtain ⟨⟨t', hentry, hexpires⟩, hopen⟩ := h.pending v ch hch
    exact ⟨⟨t', hmem _ hentry, hexpires⟩, fun w' old' key' t'' hp =>
      hopen w' old' key' t'' (by simpa using hp)⟩
  · exact Nat.lt_of_lt_of_le (h.drawn v key' q t' (by simpa using hentry)) hn
  · exact Nat.lt_of_lt_of_le (h.proven v old' key' q t' (by simpa using hentry)) hn
  · obtain heq | hentry := List.mem_cons.1 hentry
    · cases heq
      exact ⟨w, old, key, t₀, hmem _ hproven⟩
    · obtain ⟨v, old', key', t'', hp⟩ := h.certified c' q t' hentry
      exact ⟨v, old', key', t'', hmem _ hp⟩
  · obtain ⟨hk, hne⟩ := (Table.get_delete_eq_some ..).1 hk
    have hattested := h.attested k call hk
    cases call with
    | takeRotation body worker => exact ⟨hattested.1, hattested.2.mono hmem⟩
    | rotate v key' q =>
        obtain ⟨⟨old', t', hp⟩, hopen⟩ := hattested
        refine ⟨⟨old', t', hmem _ hp⟩, fun c' t'' hc => ?_⟩
        obtain heq | hc := List.mem_cons.1 hc
        · cases heq
          simp [h.once k id v key' w key nonce hk hcall] at hne
        · exact hopen c' t'' hc
    | _ => trivial
  · exact h.once i j v key' v' key'' q ((Table.get_delete_eq_some ..).1 hi).1
      ((Table.get_delete_eq_some ..).1 hj).1

end Rotations

/-! ## The control plane -/

/-- The key a Worker enrolled, and each that came in the place of one by a rotation. -/
inductive Vouched (t : List (Entry F)) (w : Nat) : String → Prop
  | enrolled {e username now body r now'} : .approved e w username now ∈ t →
      .enrolled e body r now' ∈ t → Vouched t w body.publicKeyPem
  | replaced {old key nonce now} : Vouched t w old → .proven w old key nonce now ∈ t →
      Vouched t w key

theorem Vouched.mono {t t' : List (Entry F)} {w : Nat} {key : String} (h : Vouched t w key)
    (hmem : ∀ x ∈ t, x ∈ t') : Vouched t' w key := by
  induction h with
  | enrolled happroved henrolled => exact .enrolled (hmem _ happroved) (hmem _ henrolled)
  | replaced _ hproven ih => exact .replaced ih (hmem _ hproven)

theorem vouched_of_certified {σ : Setting F} {t : List (Entry F)}
    (h : Grounded (Attested σ) t) {c : Certificate} {nonce : Option Nat} {now : Nat}
    (hc : .certified c nonce now ∈ t) :
    Vouched t c.workerId c.publicKeyPem := by
  induction t generalizing c nonce now with
  | nil => cases hc
  | cons d t ih =>
      obtain ⟨hd, ht⟩ := grounded_cons.1 h
      have hmem : ∀ x ∈ t, x ∈ d :: t := fun _ => List.mem_cons_of_mem _
      obtain rfl | hc := List.mem_cons.1 hc
      · cases nonce with
        | none =>
            obtain ⟨e, username, now', body, r, now'', happroved, henrolled, hkey, -⟩ := hd
            rw [hkey]
            exact .enrolled (hmem _ happroved) (hmem _ henrolled)
        | some nonce =>
            obtain ⟨⟨old, now', hproven⟩, -⟩ := hd
            -- the replaced key was that of an older certificate
            obtain ⟨newer, older, rfl⟩ := List.append_of_mem hproven
            obtain ⟨-, -, -, ⟨c', ⟨nonce', now'', hc'⟩, hworker, rfl⟩, -⟩ :=
              ht newer _ older rfl
            have hold := ih ht (List.mem_append_right newer (List.mem_cons_of_mem _ hc'))
            rw [hworker] at hold
            exact .replaced (hold.mono hmem) (hmem _ hproven)
      · exact (ih ht hc).mono hmem

namespace ControlPlane

structure Certified (σ : Setting F) (s : ControlPlane F) : Prop where
  grounded : Grounded (Attested σ) s.trail
  certificates : CertificatesSound s.database s.trail s.draws
  rotations : RotationsSound s.rotationChallenges s.calls s.trail s.draws

variable {σ : Setting F} {s s' : ControlPlane F}

theorem certified_empty : Certified σ (empty : ControlPlane F) := by
  refine ⟨grounded_nil, ?_, ?_⟩
  · constructor <;> simp [empty, Database.empty, ControlLedger.empty]
  · constructor <;> simp [empty]

/-- No rotation goes on, and no certificate is issued. -/
theorem Certified.quiet (h : Certified σ s) (entries : List (Entry F))
    (htrail : s'.trail = entries ++ s.trail)
    (hentries : ∀ entry ∈ entries, ¬entry.Rotates ∧ ∀ older, Attested σ older entry)
    (hdraws : s.draws ≤ s'.draws)
    (hcertificates : (∀ x ∈ s.trail, x ∈ s'.trail) →
      CertificatesSound s'.database s'.trail s'.draws)
    (hrotations : s'.rotationChallenges = s.rotationChallenges)
    (hcalls : ∀ id call, s'.calls.get id = some call → s.calls.get id = some call ∨
      CallAttested s'.trail call ∧ ∀ w key nonce, call ≠ .rotate w key nonce) :
      Certified σ s' := by
  have hmem : ∀ x ∈ s.trail, x ∈ s'.trail := by
    intro x hx
    rw [htrail]
    exact List.mem_append_right _ hx
  refine ⟨?_, hcertificates hmem, ?_⟩
  · rw [htrail]
    exact h.grounded.append fun entry hentry => (hentries entry hentry).2
  · rw [hrotations]
    refine h.rotations.later hmem (fun x hx hrotates => ?_) hdraws hcalls
    rw [htrail] at hx
    obtain hx | hx := List.mem_append.1 hx
    · exact absurd hrotates (hentries x hx).1
    · exact hx

/-- Certificates are left alone as well. -/
theorem Certified.apart (h : Certified σ s) (entries : List (Entry F))
    (htrail : s'.trail = entries ++ s.trail)
    (hentries : ∀ entry ∈ entries, ¬entry.Rotates ∧ ∀ older, Attested σ older entry)
    (hdraws : s.draws ≤ s'.draws)
    (hdatabase : s'.database.ledger = s.database.ledger ∧
      s'.database.details = s.database.details ∧
      s'.database.certificates = s.database.certificates ∧
      s'.database.certificateOverlaps = s.database.certificateOverlaps)
    (hrotations : s'.rotationChallenges = s.rotationChallenges)
    (hcalls : ∀ id call, s'.calls.get id = some call → s.calls.get id = some call ∨
      CallAttested s'.trail call ∧ ∀ w key nonce, call ≠ .rotate w key nonce) :
      Certified σ s' := by
  obtain ⟨hledger, hdetails, hcertificates, hoverlaps⟩ := hdatabase
  exact h.quiet entries htrail hentries hdraws (fun hmem => h.certificates.same hmem hdraws
    (by rw [hledger]) (by rw [hledger]) hdetails hcertificates hoverlaps) hrotations hcalls

theorem Certified.proceed (h : Certified σ s) (id : Nat) {next : Option (Call F)}
    (hnext : ∀ call, next = some call →
      CallAttested s.trail call ∧ ∀ w key nonce, call ≠ .rotate w key nonce) :
    Certified σ (s.proceed id next) := by
  refine h.apart [] (by simp) (by simp) (by simp) (by simp) (by simp)
    fun k call hcall => ?_
  rw [proceed_get] at hcall
  split at hcall
  · exact .inr (by simpa using hnext call hcall)
  · exact .inl hcall

theorem Certified.finish (h : Certified σ s) (id : Nat) : Certified σ (s.finish id) := by
  have hover : Certified σ (s.proceed id none) := h.proceed id fun call hcall =>
    by cases hcall
  exact hover

theorem Certified.mediated (h : Certified σ s) (worker : ActiveWorker) (password : String)
    (nonce : Nat) :
    Certified σ { s with trail := .mediated worker password nonce :: s.trail } :=
  h.apart [_] rfl (by simp [Entry.Rotates, Attested]) (Nat.le_refl _) ⟨rfl,
    rfl, rfl, rfl⟩ rfl
    fun _ _ hcall => .inl hcall

theorem Certified.spawn (h : Certified σ s) {call : Call F}
    (hcall : CallAttested s.trail call)
    (hnot : ∀ w key nonce, call ≠ .rotate w key nonce) : Certified σ (s.spawn call) := by
  refine h.apart [] rfl (by simp) (Nat.le_succ _) ⟨rfl, rfl, rfl,
    rfl⟩ rfl fun k call' hk => ?_
  rw [ControlPlane.spawn, Table.get_set] at hk
  split at hk
  · obtain rfl := Option.some.inj hk
    exact .inr ⟨hcall, hnot⟩
  · exact .inl hk

/-- A transaction that ends its call. -/
theorem Certified.transact (h : Certified σ s) {α : Type} {id : Nat}
    {t : Database.Locked α} {entries : α → List (Entry F)}
    (hok : ∀ a d, t.run s.database = .ok (a, d) → Certified σ { s with
      database := d
      draws := s.draws + 2
      trail := entries a ++ s.trail }) :
        Certified σ (s.transact id t (fun _ => none) entries) :=
  transact_invariant (fun a d hrun => (hok a d hrun).finish id) fun _ _ => h.finish id

theorem Certified.approve (h : Certified σ s) (hs : Custody s) {id e now : Nat}
    {username : String} {issuedAt : Option Nat} : Certified σ (s.transact id
      (Database.approveEnrollment e username s.draws (s.draws + 1) issuedAt now)
      (fun _ => none)
      fun c => [.certified c none now, .approved e s.draws username now]) := by
  refine h.transact fun c d hrun => ?_
  obtain ⟨row, detail, superseded, t, hrow, hpending, -, hdetail, -, -, hc, rfl⟩ :=
    Database.approveEnrollment_ok hrun
  obtain ⟨body, r, t₀, henrolled, hkey, haccount⟩ :=
    h.certificates.keys e row detail hrow hdetail hpending
  have hmem : ∀ x ∈ s.trail,
      x ∈ [.certified c none now, .approved e s.draws username now] ++ s.trail :=
    fun _ hx => List.mem_append_right _ hx
  refine ⟨grounded_cons.2 ⟨?_, grounded_cons.2 ⟨trivial, h.grounded⟩⟩, ?_, ?_⟩
  · refine ⟨e, username, now, body, r, t₀, by simp [hc],
      List.mem_cons_of_mem _ henrolled, ?_, ?_⟩
    · rw [hc]
      exact hkey
    · rw [hc]
      exact haccount
  · refine h.certificates.approved hmem (Nat.lt_add_of_pos_right Nat.two_pos)
      ⟨none, now, by simp⟩ (by rw [hc]) (by rw [hc]; rfl) (by rw [hc]) fun w x hx heq => ?_
    obtain ⟨er, her, hstatus, -⟩ := hs.approved w x hx
    rw [heq, hrow] at her
    obtain rfl := Option.some.inj her
    rw [hpending] at hstatus
    cases hstatus
  · refine h.rotations.later hmem (fun x hx hrotates => ?_) (Nat.le_add_right _ 2)
      fun _ _ hcall => .inl hcall
    obtain rfl | hx := List.mem_cons.1 hx
    · exact hrotates.elim
    · obtain rfl | hx := List.mem_cons.1 hx
      · exact hrotates.elim
      · exact hx

theorem Certified.serveEnroll (h : Certified σ s) (hs : Custody s) {id r now : Nat}
    {body : EnrollmentRequest F} :
    Certified σ (s.transact id (Database.createEnrollment body r s.draws now)
      (afterEnroll r)
      fun _ => [.enrolled s.draws body r now]) := by
  refine transact_invariant (fun u d hrun => ?_) fun e _ => ?_
  · obtain ⟨invite, challenge, -, -, -, -, -, -, hnew, rfl⟩ :=
      Database.createEnrollment_ok hrun
    refine Certified.proceed ?_ id fun call hcall => by cases hcall
    refine h.quiet [.enrolled s.draws body r now] rfl (by simp [Entry.Rotates, Attested])
      (Nat.le_add_right _ 2) (fun hmem => ?_) rfl fun _ _ hcall => .inl hcall
    refine h.certificates.enrolled hmem (Nat.le_add_right _ 2) List.mem_cons_self ?_
    rintro w row hrow heq
    obtain ⟨er, her, -⟩ := hs.approved w row hrow
    rw [heq, hnew] at her
    cases her
  · refine h.proceed id fun call hcall => ?_
    obtain rfl := afterEnroll_some hcall
    exact ⟨trivial, fun _ _ _ heq => by cases heq⟩

theorem Certified.takeRotation (h : Certified σ s) {id : Nat} {body : RotationRequest}
    {worker : ActiveWorker} {now : Nat}
    (hcall : s.calls.get id = some (.takeRotation body worker)) :
    Certified σ (s.takeRotation σ id body worker now) := by
  have htaken : Certified σ { s with
      rotationChallenges := s.rotationChallenges.delete fun k _ => k == body.workerId } :=
    ⟨h.grounded, h.certificates, h.rotations.take body.workerId⟩
  obtain ⟨hid, hheld⟩ := h.rotations.attested id _ hcall
  unfold ControlPlane.takeRotation
  dsimp only
  split
  · exact htaken.finish id
  · next ch hch =>
      split
      · next hproofs =>
          obtain ⟨-, hlive, hold, hnew⟩ := hproofs
          obtain ⟨⟨t, hchallenged, hexpires⟩, hopen⟩ := h.rotations.pending _ ch hch
          rw [hid] at hchallenged
          refine ⟨grounded_cons.2 ⟨⟨⟨t, hchallenged, hexpires ▸ hlive⟩, ⟨_, hold⟩,
            ⟨_, hnew⟩, hheld, hopen⟩, h.grounded⟩,
            h.certificates.later (fun _ => List.mem_cons_of_mem _)
            (Nat.le_refl _), ?_⟩
          have hprove := h.rotations.prove id now worker.publicKeyPem hch
          rw [hid] at hprove
          rw [hid]
          exact hprove
      · exact htaken.finish id

theorem Certified.rotate (h : Certified σ s) (hs : Custody s) {id w nonce now : Nat}
    {key : String} {issuedAt : Option Nat}
    (hcall : s.calls.get id = some (.rotate w key nonce)) :
    Certified σ
      (s.transact id (Database.rotateWorkerCertificate w key s.draws issuedAt now)
        (fun _ => none) fun c => [.certified c (some nonce) now]) := by
  refine transact_invariant (fun c d hrun => ?_) fun _ _ => h.finish id
  obtain ⟨row, detail, old, t, hrow, -, hdetail, hold, -, hc, rfl⟩ :=
    Database.rotateWorkerCertificate_ok hrun
  obtain ⟨⟨oldKey, t₀, hproven⟩, hnone⟩ := h.rotations.attested id _ hcall
  have hmem : ∀ x ∈ s.trail, x ∈ .certified c (some nonce) now :: s.trail :=
    fun _ => List.mem_cons_of_mem _
  refine ⟨grounded_cons.2 ⟨⟨⟨oldKey, t₀, by rw [hc]; exact hproven⟩, hnone⟩, h.grounded⟩,
    ?_, h.rotations.certify (Nat.le_add_right _ 2) hcall⟩
  refine h.certificates.rotated hmem (Nat.le_add_right _ 2) hrow hdetail hold
    ⟨some nonce, now, List.mem_cons_self⟩ (by rw [hc]) (by rw [hc]; rfl) (fun er her => ?_)
    fun v x hx heq => hs.single v w x row hx hrow heq
  obtain ⟨er', her', hstatus, -⟩ := hs.approved w row hrow
  obtain rfl := Option.some.inj (her.symm.trans her')
  simp [hstatus]

/-- Enrollments are closed. -/
theorem Certified.close (h : Certified σ s) {rows : Table Nat Enrollment}
    {details : Table Nat EnrollmentDetail} (es : List Nat)
    (hrows : ∀ e row', rows.get e = some row' →
      ∃ row, s.database.ledger.enrollments.get e = some row ∧
      row'.account = row.account ∧ (row'.status = .pending → row.status = .pending))
    (hdetails : ∀ e x', details.get e = some x' →
      ∃ x, s.database.details.get e = some x ∧ x'.publicKeyPem = x.publicKeyPem) :
    Certified σ { s with
      database := { s.database with
        ledger := { s.database.ledger with enrollments := rows }
        details := details }
      draws := s.draws + 2
      trail := es.map .closed ++ s.trail } := by
  refine h.quiet (es.map .closed) rfl (fun entry hentry => ?_) (Nat.le_add_right _ 2)
    (fun hmem => ?_)
    rfl fun _ _ hcall => .inl hcall
  · obtain ⟨e, -, rfl⟩ := List.mem_map.1 hentry
    exact ⟨id, fun _ => trivial⟩
  · exact h.certificates.ease hmem (Nat.le_add_right _ 2) hrows hdetails
      (fun _ row hrow => ⟨row, hrow, rfl, rfl⟩) (fun _ _ hc => hc) fun _ _ ho => ho

theorem purgeNext_attested {t : List (Entry F)} {refs : List Nat} {call : Call F}
    (h : purgeNext refs = some call) :
    CallAttested t call ∧ ∀ w key nonce, call ≠ .rotate w key nonce := by
  obtain ⟨r, rest, rfl⟩ := purgeNext_some h
  exact ⟨trivial, fun _ _ _ heq => by cases heq⟩

theorem Certified.expire (h : Certified σ s) (id now : Nat) :
    Certified σ (s.transact id (Database.expirePendingEnrollments now)
      (fun r => r.toOption.bind fun p => purgeNext p.2) fun p => p.1.map .closed) := by
  refine transact_invariant (fun reply d hrun => ?_) fun _ _ => h.finish id
  obtain ⟨rfl, rfl⟩ := Database.expirePendingEnrollments_ok hrun
  refine Certified.proceed
    (h.close (s.database.dueEnrollments now) (fun e row' hrow' => ?_)
    fun e x hx => ⟨x, hx, rfl⟩) id fun call hcall => purgeNext_attested hcall
  rw [Database.get_updateRows
    (f := fun row : Enrollment => { row with status := .expired })
    fun _ => rfl] at hrow'
  split at hrow'
  · obtain ⟨row, hrow, rfl⟩ := Option.map_eq_some_iff.1 hrow'
    exact ⟨row, hrow, rfl, fun hcase => by cases hcase⟩
  · exact ⟨row', hrow', rfl, fun hcase => hcase⟩

theorem Certified.reject (h : Certified σ s) (id e : Nat) (username : String) :
    Certified σ (s.transact id (Database.rejectEnrollment e username)
      (fun r => r.toOption.map fun secretRef => .deletePassword secretRef true [])
      fun _ => [.closed e]) := by
  refine transact_invariant (fun ref d hrun => ?_) fun _ _ => h.finish id
  obtain ⟨row, detail, hrow, hdetail, rfl, hcase⟩ := Database.rejectEnrollment_ok hrun
  refine Certified.proceed ?_ id fun call hcall => ?_
  · obtain ⟨-, rfl⟩ | ⟨hpending, rfl⟩ := hcase
    · exact h.close [e] (fun k row' hrow' => ⟨row', hrow', rfl, fun hcase => hcase⟩)
        fun k x hx => ⟨x, hx, rfl⟩
    · refine h.close [e] (fun k row' hrow' => ?_) fun k x hx => ?_
      · rw [Table.get_set] at hrow'
        split at hrow'
        · next hk =>
            obtain rfl := Option.some.inj hrow'
            exact ⟨row, hk ▸ hrow, rfl, fun hcase => by cases hcase⟩
        · exact ⟨row', hrow', rfl, fun hcase => hcase⟩
      · rw [Table.get_set] at hx
        split at hx
        · next hk =>
            obtain rfl := Option.some.inj hx
            exact ⟨detail, hk ▸ hdetail, rfl⟩
        · exact ⟨x, hx, rfl⟩
  · obtain rfl := Option.some.inj hcall
    exact ⟨trivial, fun _ _ _ heq => by cases heq⟩

theorem Certified.deleteWorker (h : Certified σ s) (id w : Nat) :
    Certified σ (s.transact id (Database.deleteWorker w)
      (fun r => r.toOption.map fun p => .deletePassword p.2 false []) fun p =>
      [.deleted w p.1]) := by
  refine transact_invariant (fun reply d hrun => ?_) fun _ _ => h.finish id
  obtain ⟨row, detail, l, -, -, rfl, hworkers, henrollments, rfl⟩ :=
    Database.deleteWorker_ok hrun
  refine Certified.proceed ?_ id fun call hcall => ?_
  · refine h.quiet [.deleted w row.enrollmentId] rfl (by simp [Entry.Rotates, Attested])
      (Nat.le_add_right _ 2) (fun hmem => ?_) rfl fun _ _ hcall => .inl hcall
    refine h.certificates.ease hmem (Nat.le_add_right _ 2) (fun e row' hrow' => ?_)
      (fun e x hx => ?_)
      (fun v row' hrow' => ?_) (fun v c hc => ((Table.get_delete_eq_some ..).1 hc).1)
      fun k o ho => ((Table.get_delete_eq_some ..).1 ho).1
    · simp only [Database.deleted, henrollments] at hrow'
      exact ⟨row', ((Table.get_delete_eq_some ..).1 hrow').1, rfl, fun hcase => hcase⟩
    · exact ⟨x, ((Table.get_delete_eq_some ..).1 hx).1, rfl⟩
    · simp only [Database.deleted, hworkers] at hrow'
      exact ⟨row', ((Table.get_delete_eq_some ..).1 hrow').1, rfl, rfl⟩
  · obtain rfl := Option.some.inj hcall
    exact ⟨trivial, fun _ _ _ heq => by cases heq⟩

theorem Certified.serveAdmin (h : Certified σ s) (id : Nat) (username : String)
    (env : Surroundings) (request : AdminRequest) :
    Certified σ (s.serveAdmin id username env request) := by
  cases request with
  | createRegistrationInvite role =>
      refine h.transact fun a d hrun => ?_
      obtain ⟨-, -, rfl⟩ := Database.createRegistrationInvite_ok hrun
      exact h.apart [_] rfl (by simp [Entry.Rotates, Attested]) (Nat.le_add_right _ 2)
        ⟨rfl, rfl, rfl, rfl⟩ rfl fun _ _ hcall => .inl hcall
  | revokeRegistrationInvite invite =>
      refine h.transact fun a d hrun => ?_
      obtain ⟨row, -, -, rfl⟩ := Database.revokeRegistrationInvite_ok hrun
      exact h.apart [_] rfl (by simp [Entry.Rotates, Attested]) (Nat.le_add_right _ 2)
        ⟨rfl, rfl, rfl, rfl⟩ rfl fun _ _ hcall => .inl hcall
  | listEnrollments => exact h.expire id env.now
  | revokeWorker w =>
      refine h.transact fun a d hrun => ?_
      obtain ⟨l, hop, rfl⟩ := Database.onLedger_ok.1 hrun
      obtain ⟨row, hrow, rfl⟩ := ControlLedger.revoke_ok hop
      refine h.quiet [] rfl (by simp) (Nat.le_add_right _ 2) (fun hmem => ?_) rfl
        fun _ _ hcall => .inl hcall
      refine h.certificates.ease hmem (Nat.le_add_right _ 2)
        (fun _ row hrow => ⟨row, hrow, rfl, fun hcase => hcase⟩)
          (fun _ x hx => ⟨x, hx, rfl⟩)
        (fun v row' hrow' => ?_) (fun _ _ hc => hc) fun _ _ ho => ho
      rw [Table.get_set] at hrow'
      split at hrow'
      · next hv =>
          obtain rfl := Option.some.inj hrow'
          exact ⟨row, hv ▸ hrow, rfl, rfl⟩
      · exact ⟨row', hrow', rfl, rfl⟩
  | deleteWorker w => exact h.deleteWorker id w
  | approveEnrollment e =>
      simp only [ControlPlane.serveAdmin]
      split
      · exact h.finish id
      · refine h.proceed id fun call hcall => ?_
        obtain rfl := Option.some.inj hcall
        exact ⟨trivial, fun _ _ _ heq => by cases heq⟩
  | rejectEnrollment e => exact h.reject id e username

theorem Certified.serve (h : Certified σ s) (hs : Custody s) {id : Nat}
    (env : Surroundings) {call : Call F} (hcall : s.calls.get id = some call) :
    Certified σ (s.serve σ id env call) := by
  cases call with
  | admin username request => exact h.serveAdmin id username env request
  | approve username e => exact h.approve hs
  | enroll body r => exact h.serveEnroll hs
  | deletePassword r mark rest =>
      have hdeleted :
          Certified σ { s with secretStore := s.secretStore.delete fun k _ => k == r } :=
        h.apart [] rfl (by simp) (Nat.le_refl _) ⟨rfl, rfl, rfl, rfl⟩ rfl fun _ _ hcall =>
          .inl hcall
      simp only [ControlPlane.serve]
      split
      · refine hdeleted.proceed id fun next hnext => ?_
        obtain rfl := afterDelete_some hnext
        exact ⟨trivial, fun _ _ _ heq => by cases heq⟩
      · exact h.finish id
      · exact hdeleted.finish id
  | markDeleted r rest =>
      simp only [ControlPlane.serve]
      refine transact_invariant (fun u d hrun => ?_) fun _ _ =>
        h.proceed id fun next hnext =>
        purgeNext_attested hnext
      obtain rfl := Tx.modify_ok.1 hrun
      refine Certified.proceed ?_ id fun next hnext => purgeNext_attested hnext
      refine h.quiet [] rfl (by simp) (Nat.le_add_right _ 2) (fun hmem => ?_) rfl
        fun _ _ hcall => .inl hcall
      refine h.certificates.ease hmem (Nat.le_add_right _ 2)
        (fun _ row hrow => ⟨row, hrow, rfl, fun hcase => hcase⟩) (fun e x' hx' => ?_)
        (fun _ row hrow => ⟨row, hrow, rfl, rfl⟩) (fun _ _ hc => hc) fun _ _ ho => ho
      have hafter := (Database.get_updateRows (f := fun x : EnrollmentDetail => { x with
        passwordSecretDeletedAt := some env.now }) (fun _ => rfl) _ _ e).symm.trans hx'
      split at hafter
      · obtain ⟨x, hx, rfl⟩ := Option.map_eq_some_iff.1 hafter
        exact ⟨x, hx, rfl⟩
      · exact ⟨x', hafter, rfl⟩
  | challengeRotation w publicKeyPem =>
      exact ⟨grounded_cons.2 ⟨trivial, h.grounded⟩,
        h.certificates.later (fun _ => List.mem_cons_of_mem _) (Nat.le_succ _),
        h.rotations.challenge⟩
  | takeRotation body worker => exact h.takeRotation hcall
  | rotate w publicKeyPem nonce => exact h.rotate hs hcall
  | mediatePassword worker nonce signature =>
      simp only [ControlPlane.serve, ControlPlane.sendPassword]
      split
      · exact (h.mediated worker _ nonce).finish _
      · exact h.finish _
  | openSession worker nonce signature =>
      simp only [ControlPlane.serve, ControlPlane.startSession]
      split
      · refine h.proceed id fun call hnext => ?_
        obtain rfl := Option.some.inj hnext
        exact ⟨trivial, fun _ _ _ heq => by cases heq⟩
      · exact h.finish _
  | session worker nonce =>
      simp only [ControlPlane.serve, ControlPlane.requestPassword]
      split
      · exact h.finish _
      · split
        · split
          · exact h.mediated worker _ nonce
          · exact h.finish _
        · exact h

theorem Certified.withCertificate (h : Certified σ s) (w : Nat) (certificate : Certificate)
    (env : Surroundings) {next : ActiveWorker → Nat → Call F}
    (hnext : ∀ worker nonce, CallAttested s.trail (next worker nonce))
    (hnot : ∀ worker nonce v key n, next worker nonce ≠ .rotate v key n) :
    Certified σ (s.withCertificate w certificate env next) := by
  unfold ControlPlane.withCertificate
  split
  · exact h
  · split
    · have hdrawn : Certified σ { s with draws := s.draws + 1 } :=
        h.apart [] rfl (by simp) (Nat.le_succ _) ⟨rfl, rfl, rfl, rfl⟩ rfl
          fun _ _ hcall => .inl hcall
      exact hdrawn.spawn (hnext _ _) (hnot _ _)
    · exact h

theorem Certified.withActiveWorker (h : Certified σ s) (w : Nat) (env : Surroundings)
    {next : ActiveWorker → Call F}
    (hnext : ∀ worker, worker.workerId = w →
      KeyHeld s.trail worker.workerId worker.publicKeyPem →
      CallAttested s.trail (next worker))
    (hnot : ∀ worker v key nonce, next worker ≠ .rotate v key nonce) :
    Certified σ (s.withActiveWorker w env next) := by
  unfold ControlPlane.withActiveWorker
  split
  · exact h
  · next worker hworker =>
      obtain ⟨hid, hheld⟩ := h.certificates.active hworker
      split
      · exact h.spawn (hnext worker hid hheld) (hnot worker)
      · exact h

theorem Certified.enroll (h : Certified σ s) (body : EnrollmentRequest F)
    (env : Surroundings) :
    Certified σ (s.enroll σ body env) := by
  have hother : ∀ store, Certified σ { s with
      secretStore := store
      draws := s.draws + 1 } := fun store =>
    h.apart [] rfl (by simp) (Nat.le_succ _) ⟨rfl, rfl, rfl, rfl⟩ rfl fun _ _ hcall =>
      .inl hcall
  unfold ControlPlane.enroll
  split
  · exact h
  · dsimp only
    split
    · exact (hother _).spawn trivial fun _ _ _ heq => by cases heq
    · exact hother _
    · exact hother _

theorem Certified.authorize (h : Certified σ s) (token csrfToken : Option Nat)
    (request : AdminRequest) (now : Nat) :
    Certified σ (s.authorize token csrfToken request now) := by
  unfold ControlPlane.authorize
  split
  · refine Certified.spawn ?_ trivial fun _ _ _ heq => by cases heq
    exact h.apart [_] rfl (by simp [Entry.Rotates, Attested]) (Nat.le_refl _) ⟨rfl,
      rfl, rfl, rfl⟩ rfl
      fun _ _ hcall => .inl hcall
  · exact h.apart [] rfl (by simp) (Nat.le_refl _) ⟨rfl, rfl, rfl, rfl⟩ rfl
      fun _ _ hcall => .inl hcall

theorem Certified.pairing (h : Certified σ s) (op : ControlLedger.Op)
    (hop : op.OnRegistry = false) :
    Certified σ { s with
      database := { s.database with ledger := (s.database.ledger.perform op).2 } } := by
  obtain ⟨hworkers, henrollments⟩ :=
    ControlLedger.perform_sameRegistry s.database.ledger hop
  exact h.quiet [] rfl (by simp) (Nat.le_refl _) (fun hmem =>
    h.certificates.same hmem (Nat.le_refl _) henrollments hworkers rfl rfl rfl) rfl
    fun _ _ hcall => .inl hcall

theorem Certified.enrollmentChallenge (h : Certified σ s) (now : Nat) :
    Certified σ { s with
    database := ((Database.issueEnrollmentChallenge s.draws now).commit s.database).2
    draws := s.draws + 1
    trail := .challengeIssued s.draws now :: s.trail } := by
  obtain ⟨table, heq, -⟩ := Database.issueEnrollmentChallenge_commit s.draws now s.database
  rw [heq]
  exact h.apart [_] rfl (by simp [Entry.Rotates, Attested]) (Nat.le_succ _) ⟨rfl,
    rfl, rfl, rfl⟩ rfl
    fun _ _ hcall => .inl hcall

theorem Certified.perform (h : Certified σ s) (hs : Custody s) (label : Label F) :
    Certified σ (s.perform σ label) := by
  cases label with
  | administrators op =>
      exact h.apart [] rfl (by simp) (Nat.le_refl _) ⟨rfl, rfl, rfl, rfl⟩ rfl
        fun _ _ hcall => .inl hcall
  | pairing op =>
      simp only [ControlPlane.perform]
      split
      · next hop => exact h.pairing op hop
      · exact h
  | authorize token csrfToken request now => exact h.authorize token csrfToken request now
  | enrollmentChallenge now => exact h.enrollmentChallenge now
  | enroll body env => exact h.enroll body env
  | expirePendingSecrets now => exact h.expire s.draws now
  | rotationChallenge w publicKeyPem env =>
      exact h.withActiveWorker w env (fun _ _ _ => trivial) fun _ _ _ _ heq => by cases heq
  | rotate body env =>
      exact h.withActiveWorker body.workerId env (fun _ hid hheld => ⟨hid.symm, hheld⟩)
        fun _ _ _ _ heq => by cases heq
  | mediatePassword w certificate signature env
  | openSession w certificate signature env =>
      simp only [ControlPlane.perform]
      exact h.withCertificate w certificate env (fun _ _ => trivial) fun _ _ _ _ _ heq =>
        by cases heq
  | serve id env =>
      simp only [ControlPlane.perform]
      split
      · exact h
      · next call hcall => exact h.serve hs env hcall
  | abandon id => exact h.finish id
  | restart =>
      have hledger := h.pairing .restart rfl
      refine ⟨h.grounded, hledger.certificates, ?_⟩
      constructor
      case drawn => exact h.rotations.drawn
      case proven => exact h.rotations.proven
      case certified => exact h.rotations.certified
      all_goals simp [ControlPlane.perform]

theorem Certified.run (h : Certified σ s) (hs : Custody s) (labels : List (Label F)) :
    Certified σ (s.run σ labels) := by
  induction labels generalizing s with
  | nil => exact h
  | cons label labels ih => exact ih (h.perform hs label) (hs.perform σ label)

/-! ## Every run -/

/-- Whatever certificate is accepted for a Worker was issued to it, for its account and the
key it is accepted with, and that key comes from the enrolled one by rotations that both
keys signed. -/
structure CertificatesAttested (σ : Setting F) (s : ControlPlane F) : Prop where
  attested : Grounded (Attested σ) s.trail
  accepted : ∀ w c now worker, s.database.workerForCertificate w c now = .ok worker →
    Issued s.trail c ∧ worker.certificate = c ∧ c.workerId = worker.workerId ∧
      c.account = (worker.login, worker.server) ∧ c.publicKeyPem = worker.publicKeyPem ∧
      Vouched s.trail worker.workerId worker.publicKeyPem

theorem certificates_attested (σ : Setting F) (labels : List (Label F)) :
    CertificatesAttested σ ((empty : ControlPlane F).run σ labels) := by
  have h : Certified σ ((empty : ControlPlane F).run σ labels) :=
    certified_empty.run custody_empty labels
  refine ⟨h.grounded, fun w c now worker hw => ?_⟩
  obtain ⟨hissued, hsame, hid, haccount, hkey⟩ := h.certificates.accepted hw
  refine ⟨hissued, hsame, hid, haccount, hkey, ?_⟩
  obtain ⟨nonce, t, hc⟩ := hissued
  rw [← hid, ← hkey]
  exact vouched_of_certified h.grounded hc

end ControlPlane

end PairCell.Access
