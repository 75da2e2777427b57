import PairCell.Access.Moves
import PairCell.Lib.Trail

/-!
# How Workers are admitted

Each entry of the trail is justified by older ones: an approval by the request
of an administrator and an enrollment still pending, an enrollment by the proof
of its key, an invite of an administrator and a challenge, each used by this
enrollment only.
-/

namespace PairCell.Access

open Lib Trail

variable {F : Type}

/-- The request is signed with the key it enrolls. -/
def Proven (σ : Setting F) (body : EnrollmentRequest F) : Prop :=
  verifyEnrollmentProof σ.cryptography σ.floats body.publicKeyPem
    body.proofSignature body.login
    body.server body.accountInfo body.terminalInfo body.mt5Password
    (toString body.enrollmentChallenge) = .ok ()

/-- The administrator made the request and it was admitted. -/
def Requested (t : List (Entry F)) (username : String) (request : AdminRequest) : Prop :=
  ∃ token csrfToken now, .admitted username request token csrfToken now ∈ t

/-- Rejected, expired or approved. -/
def Settled (t : List (Entry F)) (e : Nat) : Prop :=
  .closed e ∈ t ∨ ∃ w username now, .approved e w username now ∈ t

def Justified (σ : Setting F) (older : List (Entry F)) : Entry F → Prop
  | .inviteIssued _ issuedBy _ =>
      Requested older issuedBy (.createRegistrationInvite "worker")
  | .enrolled e body _ now =>
      Proven σ body ∧
      (∃ issuedBy t, .inviteIssued body.registrationInvite issuedBy t ∈ older ∧
        now < t + hours 1) ∧
      .inviteRevoked ⟨body.registrationInvite⟩ ∉ older ∧
      (∃ t, .challengeIssued body.enrollmentChallenge t ∈ older ∧ now < t + minutes 2) ∧
      ∀ e' body' r t, .enrolled e' body' r t ∈ older → e' ≠ e ∧
        body'.registrationInvite ≠ body.registrationInvite ∧
        body'.enrollmentChallenge ≠ body.enrollmentChallenge
  | .approved e _ username now =>
      Requested older username (.approveEnrollment e) ∧
      (∃ body r t, .enrolled e body r t ∈ older ∧ now < t + minutes 15) ∧ ¬Settled older e
  | _ => True

def CallRequested (σ : Setting F) (t : List (Entry F)) : Call F → Prop
  | .admin username request => Requested t username request
  | .approve username e => Requested t username (.approveEnrollment e)
  | .enroll body _ => Proven σ body
  | _ => True

/-! ## Invites -/

structure InvitesSound (i : Table Digest Invite) (t : List (Entry F))
    (n : Nat) : Prop where
  rows : ∀ k row, i.get ⟨k⟩ = some row → k < n ∧
    ∃ username now, .inviteIssued k username now ∈ t ∧ row.expiresAt = now + hours 1
  used : ∀ e body r now, .enrolled e body r now ∈ t →
    ∃ row, i.get ⟨body.registrationInvite⟩ = some row ∧ row.status = .used
  revoked : ∀ k, .inviteRevoked k ∈ t → ∃ row, i.get k = some row ∧ row.status = .revoked

section Invites

variable {i i' : Table Digest Invite} {t t' : List (Entry F)} {n n' : Nat}

/-- Only active invites change. -/
theorem InvitesSound.step (h : InvitesSound i t n) (hmem : ∀ x ∈ t, x ∈ t') (hn : n ≤ n')
    (hrows : ∀ k row', i'.get ⟨k⟩ = some row' →
      (∃ row, i.get ⟨k⟩ = some row ∧ row'.expiresAt = row.expiresAt) ∨
      k < n' ∧ ∃ username now, .inviteIssued k username now ∈ t' ∧
        row'.expiresAt = now + hours 1)
    (hkeep : ∀ k row, i.get k = some row → row.status ≠ .active → i'.get k = some row)
    (hused : ∀ e body r now, .enrolled e body r now ∈ t' → .enrolled e body r now ∈ t ∨
      ∃ row, i'.get ⟨body.registrationInvite⟩ = some row ∧ row.status = .used)
    (hrevoked : ∀ k, .inviteRevoked k ∈ t' → .inviteRevoked k ∈ t ∨
      ∃ row, i'.get k = some row ∧ row.status = .revoked) : InvitesSound i' t' n' where
  rows k row' hrow' := by
    obtain ⟨row, hrow, hexpires⟩ | hnew := hrows k row' hrow'
    · obtain ⟨hk, username, now, hentry, heq⟩ := h.rows k row hrow
      exact ⟨Nat.lt_of_lt_of_le hk hn, username, now, hmem _ hentry, hexpires.trans heq⟩
    · exact hnew
  used e body r now hentry := by
    obtain hentry | hnew := hused e body r now hentry
    · obtain ⟨row, hrow, hstatus⟩ := h.used e body r now hentry
      exact ⟨row, hkeep _ row hrow (by simp [hstatus]), hstatus⟩
    · exact hnew
  revoked k hentry := by
    obtain hentry | hnew := hrevoked k hentry
    · obtain ⟨row, hrow, hstatus⟩ := h.revoked k hentry
      exact ⟨row, hkeep k row hrow (by simp [hstatus]), hstatus⟩
    · exact hnew

theorem InvitesSound.later (h : InvitesSound i t n) (hmem : ∀ x ∈ t, x ∈ t') (hn : n ≤ n')
    (henrolled : ∀ e body r now, .enrolled e body r now ∈ t' → .enrolled e body r now ∈ t)
    (hrevoked : ∀ k, .inviteRevoked k ∈ t' → .inviteRevoked k ∈ t) :
    InvitesSound i t' n' :=
  h.step hmem hn (fun _ row hrow => .inl ⟨row, hrow, rfl⟩) (fun _ _ hrow _ => hrow)
    (fun e body r now hentry => .inl (henrolled e body r now hentry))
    fun k hentry => .inl (hrevoked k hentry)

end Invites

/-! ## Challenges -/

structure ChallengesSound (c : Table Digest Challenge) (t : List (Entry F))
    (n : Nat) : Prop where
  rows : ∀ k row, c.get ⟨k⟩ = some row → k < n ∧
    ∃ now, .challengeIssued k now ∈ t ∧ row.expiresAt = now + minutes 2
  consumed : ∀ e body r now, .enrolled e body r now ∈ t → body.enrollmentChallenge < n ∧
    ∀ row, c.get ⟨body.enrollmentChallenge⟩ = some row → row.consumedAt ≠ none

section Challenges

variable {c c' : Table Digest Challenge} {t t' : List (Entry F)} {n n' : Nat}

/-- A challenge stays consumed, and a new one has a new number. -/
theorem ChallengesSound.step (h : ChallengesSound c t n)
    (hmem : ∀ x ∈ t, x ∈ t') (hn : n ≤ n') (hrows : ∀ k row', c'.get ⟨k⟩ = some row' →
      (∃ row, c.get ⟨k⟩ = some row ∧ row'.expiresAt = row.expiresAt ∧
        (row'.consumedAt = none → row.consumedAt = none)) ∨
      n ≤ k ∧ k < n' ∧ ∃ now, .challengeIssued k now ∈ t' ∧
        row'.expiresAt = now + minutes 2)
    (hconsumed : ∀ e body r now, .enrolled e body r now ∈ t' → .enrolled e body r now ∈ t ∨
      body.enrollmentChallenge < n' ∧
        ∀ row, c'.get ⟨body.enrollmentChallenge⟩ = some row → row.consumedAt ≠ none) :
    ChallengesSound c' t' n' where
  rows k row' hrow' := by
    obtain ⟨row, hrow, hexpires, -⟩ | ⟨-, hnew⟩ := hrows k row' hrow'
    · obtain ⟨hk, now, hentry, heq⟩ := h.rows k row hrow
      exact ⟨Nat.lt_of_lt_of_le hk hn, now, hmem _ hentry, hexpires.trans heq⟩
    · exact hnew
  consumed e body r now hentry := by
    obtain hentry | hnew := hconsumed e body r now hentry
    · obtain ⟨hk, hold⟩ := h.consumed e body r now hentry
      refine ⟨Nat.lt_of_lt_of_le hk hn, fun row' hrow' hnone => ?_⟩
      obtain ⟨row, hrow, -, hback⟩ | ⟨hge, -⟩ := hrows _ row' hrow'
      · exact hold row hrow (hback hnone)
      · exact absurd hk (Nat.not_lt.2 hge)
    · exact hnew

theorem ChallengesSound.later (h : ChallengesSound c t n)
    (hmem : ∀ x ∈ t, x ∈ t') (hn : n ≤ n')
    (henrolled : ∀ e body r now, .enrolled e body r now ∈ t' →
      .enrolled e body r now ∈ t) :
    ChallengesSound c t' n' :=
  h.step hmem hn (fun _ row hrow => .inl ⟨row, hrow, rfl, id⟩)
    fun e body r now hentry => .inl (henrolled e body r now hentry)

end Challenges

/-! ## Enrollments and Workers -/

structure EnrollmentsSound (l : ControlLedger) (t : List (Entry F)) (n : Nat) : Prop where
  rows : ∀ e row, l.enrollments.get e = some row →
    ∃ body r now, .enrolled e body r now ∈ t ∧ row.expiresAt = now + minutes 15
  drawn : ∀ e body r now, .enrolled e body r now ∈ t → e < n
  settled : ∀ e, Settled t e → e < n ∧
    ∀ row, l.enrollments.get e = some row → row.status ≠ .pending
  workers : ∀ w row, l.workers.get w = some row →
    ∃ username now, .approved row.enrollmentId w username now ∈ t

section Enrollments

variable {l l' : ControlLedger} {t t' : List (Entry F)} {n n' : Nat}

/-- No enrollment becomes pending again, and a new one has a new number. -/
theorem EnrollmentsSound.step (h : EnrollmentsSound l t n)
    (hmem : ∀ x ∈ t, x ∈ t') (hn : n ≤ n')
    (hrows : ∀ e row', l'.enrollments.get e = some row' →
      (∃ row, l.enrollments.get e = some row ∧ row'.expiresAt = row.expiresAt ∧
        (row'.status = .pending → row.status = .pending)) ∨
      n ≤ e ∧ ∃ body r now, .enrolled e body r now ∈ t' ∧
        row'.expiresAt = now + minutes 15)
    (hdrawn : ∀ e body r now, .enrolled e body r now ∈ t' →
      .enrolled e body r now ∈ t ∨ e < n')
    (hsettled : ∀ e, Settled t' e → Settled t e ∨
      e < n' ∧ ∀ row, l'.enrollments.get e = some row → row.status ≠ .pending)
    (hworkers : ∀ w row', l'.workers.get w = some row' →
      (∃ row, l.workers.get w = some row ∧ row.enrollmentId = row'.enrollmentId) ∨
      ∃ username now, .approved row'.enrollmentId w username now ∈ t') :
    EnrollmentsSound l' t' n' where
  rows e row' hrow' := by
    obtain ⟨row, hrow, hexpires, -⟩ | ⟨-, hnew⟩ := hrows e row' hrow'
    · obtain ⟨body, r, now, hentry, heq⟩ := h.rows e row hrow
      exact ⟨body, r, now, hmem _ hentry, hexpires.trans heq⟩
    · exact hnew
  drawn e body r now hentry := by
    obtain hentry | hnew := hdrawn e body r now hentry
    · exact Nat.lt_of_lt_of_le (h.drawn e body r now hentry) hn
    · exact hnew
  settled e hs := by
    obtain hs | hnew := hsettled e hs
    · obtain ⟨he, hold⟩ := h.settled e hs
      refine ⟨Nat.lt_of_lt_of_le he hn, fun row' hrow' hpending => ?_⟩
      obtain ⟨row, hrow, -, hback⟩ | ⟨hge, -⟩ := hrows e row' hrow'
      · exact hold row hrow (hback hpending)
      · exact absurd he (Nat.not_lt.2 hge)
    · exact hnew
  workers w row' hrow' := by
    obtain ⟨row, hrow, heq⟩ | hnew := hworkers w row' hrow'
    · obtain ⟨username, now, hentry⟩ := h.workers w row hrow
      exact ⟨username, now, heq ▸ hmem _ hentry⟩
    · exact hnew

theorem EnrollmentsSound.later (h : EnrollmentsSound l t n)
    (hmem : ∀ x ∈ t, x ∈ t') (hn : n ≤ n')
    (henrolled : ∀ e body r now, .enrolled e body r now ∈ t' → .enrolled e body r now ∈ t)
    (hsettled : ∀ e, Settled t' e → Settled t e)
    (henrollments : l'.enrollments = l.enrollments)
    (hworkers : ∀ w, (l'.workers.get w).map WorkerRow.enrollmentId =
      (l.workers.get w).map WorkerRow.enrollmentId) : EnrollmentsSound l' t' n' := by
  refine h.step hmem hn (fun e row hrow => .inl ⟨row, henrollments ▸ hrow, rfl, id⟩)
    (fun e body r now hentry => .inl (henrolled e body r now hentry))
    (fun e hs => .inl (hsettled e hs)) fun w row' hrow' => ?_
  have hmap := hworkers w
  rw [hrow'] at hmap
  exact .inl (Option.map_eq_some_iff.1 hmap.symm)

end Enrollments

/-! ## The control plane -/

/-- The entry needs no justification and settles nothing. -/
def Entry.Quiet : Entry F → Prop
  | .inviteIssued .. | .inviteRevoked _ | .enrolled .. | .approved .. | .closed _ => False
  | _ => True

theorem CallRequested.mono {σ : Setting F} {t t' : List (Entry F)} {call : Call F}
    (h : CallRequested σ t call) (hmem : ∀ x ∈ t, x ∈ t') : CallRequested σ t' call := by
  cases call with
  | admin username request =>
      obtain ⟨token, csrfToken, now, hentry⟩ := h
      exact ⟨token, csrfToken, now, hmem _ hentry⟩
  | approve username e =>
      obtain ⟨token, csrfToken, now, hentry⟩ := h
      exact ⟨token, csrfToken, now, hmem _ hentry⟩
  | enroll body r => exact h
  | _ => trivial

namespace ControlPlane

structure Admission (σ : Setting F) (s : ControlPlane F) : Prop where
  grounded : Grounded (Justified σ) s.trail
  invites : InvitesSound s.database.registrationInvites s.trail s.draws
  challenges : ChallengesSound s.database.enrollmentChallenges s.trail s.draws
  enrollments : EnrollmentsSound s.database.ledger s.trail s.draws
  calls : ∀ id call, s.calls.get id = some call → CallRequested σ s.trail call

variable {σ : Setting F} {s s' : ControlPlane F}

theorem admission_empty : Admission σ (empty : ControlPlane F) := by
  refine ⟨grounded_nil, ?_, ?_, ?_, ?_⟩
  · constructor <;> simp [empty, Database.empty]
  · constructor <;> simp [empty, Database.empty]
  · constructor <;> simp [empty, Database.empty, ControlLedger.empty, Settled]
  · simp [empty]

/-- Invites, challenges and enrollments are as they were. -/
theorem Admission.quiet (h : Admission σ s) (entries : List (Entry F))
    (htrail : s'.trail = entries ++ s.trail) (hquiet : ∀ entry ∈ entries, entry.Quiet)
    (hinvites : s'.database.registrationInvites = s.database.registrationInvites)
    (hchallenges : s'.database.enrollmentChallenges = s.database.enrollmentChallenges)
    (henrollments : s'.database.ledger.enrollments = s.database.ledger.enrollments)
    (hworkers : ∀ w, (s'.database.ledger.workers.get w).map WorkerRow.enrollmentId =
      (s.database.ledger.workers.get w).map WorkerRow.enrollmentId)
    (hdraws : s.draws ≤ s'.draws)
    (hcalls : ∀ id call, s'.calls.get id = some call →
      s.calls.get id = some call ∨ CallRequested σ s'.trail call) : Admission σ s' := by
  have hmem : ∀ x ∈ s.trail, x ∈ s'.trail := by
    intro x hx
    rw [htrail]
    exact List.mem_append_right _ hx
  have hback : ∀ x ∈ s'.trail, ¬x.Quiet → x ∈ s.trail := by
    intro x hx hloud
    rw [htrail] at hx
    obtain hx | hx := List.mem_append.1 hx
    · exact absurd (hquiet x hx) hloud
    · exact hx
  have henrolled : ∀ e body r now, .enrolled e body r now ∈ s'.trail →
      .enrolled e body r now ∈ s.trail := fun _ _ _ _ hentry => hback _ hentry id
  refine ⟨?_, ?_, ?_, ?_, fun id call hcall => ?_⟩
  · rw [htrail]
    refine h.grounded.append fun entry hentry older => ?_
    have hq := hquiet entry hentry
    cases entry with
    | inviteIssued => exact hq.elim
    | enrolled => exact hq.elim
    | approved => exact hq.elim
    | _ => trivial
  · rw [hinvites]
    exact h.invites.later hmem hdraws henrolled fun k hentry => hback _ hentry id
  · rw [hchallenges]
    exact h.challenges.later hmem hdraws henrolled
  · refine h.enrollments.later hmem hdraws henrolled (fun e hs => ?_) henrollments hworkers
    obtain hentry | ⟨w, username, now, hentry⟩ := hs
    · exact .inl (hback _ hentry id)
    · exact .inr ⟨w, username, now, hback _ hentry id⟩
  · obtain hold | hnew := hcalls id call hcall
    · exact (h.calls id call hold).mono hmem
    · exact hnew

theorem Admission.proceed (h : Admission σ s) (id : Nat) {next : Option (Call F)}
    (hnext : ∀ call, next = some call → CallRequested σ s.trail call) :
    Admission σ (s.proceed id next) := by
  refine h.quiet [] (by simp) (by simp) (by simp) (by simp) (by simp) (fun w => by simp)
    (by simp) fun k call hcall => ?_
  rw [proceed_get] at hcall
  split at hcall
  · exact .inr (by simpa using hnext call hcall)
  · exact .inl hcall

theorem Admission.finish (h : Admission σ s) (id : Nat) : Admission σ (s.finish id) := by
  have hover : Admission σ (s.proceed id none) := h.proceed id fun call hcall =>
    by cases hcall
  exact hover

theorem Admission.mediated (h : Admission σ s) (worker : ActiveWorker) (password : String)
    (nonce : Nat) :
    Admission σ { s with trail := .mediated worker password nonce :: s.trail } :=
  h.quiet [_] rfl (by simp [Entry.Quiet]) rfl rfl rfl (fun _ => rfl) (Nat.le_refl _)
    fun _ _ hcall => .inl hcall

theorem Admission.spawn (h : Admission σ s) {call : Call F}
    (hcall : CallRequested σ s.trail call) :
    Admission σ (s.spawn call) := by
  refine h.quiet [] rfl (by simp) rfl rfl rfl (fun _ => rfl) (Nat.le_succ _) fun k
    call' hk => ?_
  rw [ControlPlane.spawn, Table.get_set] at hk
  split at hk
  · obtain rfl := Option.some.inj hk
    exact .inr hcall
  · exact .inl hk

/-- A transaction that ends its call. -/
theorem Admission.transact (h : Admission σ s) {α : Type} {id : Nat}
    {t : Database.Locked α} {entries : α → List (Entry F)}
    (hok : ∀ a d, t.run s.database = .ok (a, d) → Admission σ { s with
      database := d
      draws := s.draws + 2
      trail := entries a ++ s.trail }) :
        Admission σ (s.transact id t (fun _ => none) entries) :=
  transact_invariant (fun a d hrun => (hok a d hrun).finish id) fun _ _ => h.finish id

theorem Admission.createRegistrationInvite (h : Admission σ s) {id : Nat}
    {username role : String} {now : Nat}
    (hrequest : Requested s.trail username (.createRegistrationInvite role)) :
    Admission σ
      (s.transact id (Database.createRegistrationInvite username role s.draws now)
        (fun _ => none) fun _ => [.inviteIssued s.draws username now]) := by
  refine h.transact fun u d hrun => ?_
  obtain ⟨rfl, hnew, rfl⟩ := Database.createRegistrationInvite_ok hrun
  refine ⟨grounded_cons.2 ⟨hrequest, h.grounded⟩, ?_, ?_, ?_, fun k call hcall =>
    (h.calls k call hcall).mono fun _ => List.mem_cons_of_mem _⟩
  · refine h.invites.step (fun _ => List.mem_cons_of_mem _) (Nat.le_add_right _ 2)
      (fun k row' hrow' => ?_) (fun k row hrow _ => ?_)
      (fun e body r t hentry => .inl (by simpa using hentry))
      fun k hentry => .inl (by simpa using hentry)
    · rw [Table.get_set] at hrow'
      split at hrow'
      · next hk =>
          obtain rfl := Option.some.inj hrow'
          obtain rfl := Digest.mk.inj hk
          exact .inr ⟨Nat.lt_add_of_pos_right Nat.two_pos, username, now,
            List.mem_cons_self, rfl⟩
      · exact .inl ⟨row', hrow', rfl⟩
    · refine (Table.get_set_ne _ _ ?_).trans hrow
      rintro rfl
      rw [hnew] at hrow
      cases hrow
  · exact h.challenges.later (fun _ => List.mem_cons_of_mem _) (Nat.le_add_right _ 2)
      fun e body r t hentry => by simpa using hentry
  · exact h.enrollments.later (fun _ => List.mem_cons_of_mem _) (Nat.le_add_right _ 2)
      (fun e body r t hentry => by simpa using hentry)
        (fun e hs => by simpa [Settled] using hs) rfl
      fun _ => rfl

theorem Admission.revokeRegistrationInvite (h : Admission σ s) {id : Nat}
    {invite : Digest} {now : Nat} :
    Admission σ (s.transact id (Database.revokeRegistrationInvite invite now)
      (fun _ => none)
      fun _ => [.inviteRevoked invite]) := by
  refine h.transact fun u d hrun => ?_
  obtain ⟨row, hrow, hactive, rfl⟩ := Database.revokeRegistrationInvite_ok hrun
  refine ⟨grounded_cons.2 ⟨trivial, h.grounded⟩, ?_, ?_, ?_, fun k call hcall =>
    (h.calls k call hcall).mono fun _ => List.mem_cons_of_mem _⟩
  · refine h.invites.step (fun _ => List.mem_cons_of_mem _) (Nat.le_add_right _ 2)
      (fun k row' hrow' => ?_) (fun k old hold hsettled => ?_)
      (fun e body r t hentry => .inl (by simpa using hentry)) fun k hentry => ?_
    · rw [Table.get_set] at hrow'
      split at hrow'
      · next hk =>
          obtain rfl := Option.some.inj hrow'
          exact .inl ⟨row, hk ▸ hrow, rfl⟩
      · exact .inl ⟨row', hrow', rfl⟩
    · refine (Table.get_set_ne _ _ ?_).trans hold
      rintro rfl
      obtain rfl := Option.some.inj (hrow.symm.trans hold)
      exact hsettled hactive
    · obtain heq | hentry := List.mem_cons.1 hentry
      · cases heq
        exact .inr ⟨_, Table.get_set_self .., rfl⟩
      · exact .inl hentry
  · exact h.challenges.later (fun _ => List.mem_cons_of_mem _) (Nat.le_add_right _ 2)
      fun e body r t hentry => by simpa using hentry
  · exact h.enrollments.later (fun _ => List.mem_cons_of_mem _) (Nat.le_add_right _ 2)
      (fun e body r t hentry => by simpa using hentry)
        (fun e hs => by simpa [Settled] using hs) rfl
      fun _ => rfl

theorem Admission.enrollmentChallenge (h : Admission σ s) (now : Nat) :
    Admission σ { s with
    database := ((Database.issueEnrollmentChallenge s.draws now).commit s.database).2
    draws := s.draws + 1
    trail := .challengeIssued s.draws now :: s.trail } := by
  have hmem : ∀ x ∈ s.trail, x ∈ .challengeIssued s.draws now :: s.trail :=
    fun _ => List.mem_cons_of_mem _
  have henrolled : ∀ e body r t, .enrolled e body r t ∈
      .challengeIssued s.draws now :: s.trail →
      .enrolled e body r t ∈ s.trail := fun e body r t hentry => by simpa using hentry
  obtain ⟨table, heq, htable⟩ :=
    Database.issueEnrollmentChallenge_commit s.draws now s.database
  rw [heq]
  refine ⟨grounded_cons.2 ⟨trivial, h.grounded⟩, ?_, ?_, ?_, fun k call hcall =>
    (h.calls k call hcall).mono hmem⟩
  · exact h.invites.later hmem (Nat.le_succ _) henrolled fun k hentry => by
      simpa using hentry
  · refine h.challenges.step hmem (Nat.le_succ _) (fun k row' hrow' => ?_)
      fun e body r t hentry => .inl (henrolled e body r t hentry)
    obtain hold | ⟨hk, rfl⟩ := htable ⟨k⟩ row' hrow'
    · exact .inl ⟨row', hold, rfl, id⟩
    · obtain rfl := Digest.mk.inj hk
      exact .inr ⟨Nat.le_refl _, Nat.lt_succ_self _, now, List.mem_cons_self, rfl⟩
  · exact h.enrollments.later hmem (Nat.le_succ _) henrolled
      (fun e hs => by simpa [Settled] using hs) rfl fun _ => rfl

/-- The invite and the challenge of a request were still open, so no
enrollment had used them. -/
theorem Admission.serveEnroll (h : Admission σ s) {id r now : Nat}
    {body : EnrollmentRequest F} (hproven : Proven σ body) :
    Admission σ (s.transact id (Database.createEnrollment body r s.draws now)
      (afterEnroll r)
      fun _ => [.enrolled s.draws body r now]) := by
  refine transact_invariant (fun u d hrun => ?_) fun e _ => ?_
  · obtain ⟨invite, challenge, hinvite, hactive, hlive, hchallenge, hunused,
        hlive', hnew, rfl⟩ :=
      Database.createEnrollment_ok hrun
    refine Admission.proceed ?_ id fun call hcall => by cases hcall
    refine ⟨grounded_cons.2 ⟨?_, h.grounded⟩, ?_, ?_, ?_, fun k call hcall =>
      (h.calls k call hcall).mono fun _ => List.mem_cons_of_mem _⟩
    · obtain ⟨-, issuedBy, t, hissued, hexpires⟩ := h.invites.rows _ _ hinvite
      obtain ⟨-, t', hissued', hexpires'⟩ := h.challenges.rows _ _ hchallenge
      refine ⟨hproven, ⟨issuedBy, t, hissued, hexpires ▸ hlive⟩, fun hrevoked => ?_,
        ⟨t', hissued', hexpires' ▸ hlive'⟩, fun e' body' r' t hentry => ⟨?_, ?_, ?_⟩⟩
      · obtain ⟨row, hrow, hstatus⟩ := h.invites.revoked _ hrevoked
        obtain rfl := Option.some.inj (hinvite.symm.trans hrow)
        rw [hactive] at hstatus
        cases hstatus
      · exact Nat.ne_of_lt (h.enrollments.drawn e' body' r' t hentry)
      · intro heq
        obtain ⟨row, hrow, hstatus⟩ := h.invites.used e' body' r' t hentry
        rw [heq, hinvite] at hrow
        obtain rfl := Option.some.inj hrow
        rw [hactive] at hstatus
        cases hstatus
      · intro heq
        exact (h.challenges.consumed e' body' r' t hentry).2 challenge
          (heq ▸ hchallenge) hunused
    · refine h.invites.step (fun _ => List.mem_cons_of_mem _) (Nat.le_add_right _ 2)
        (fun k row' hrow' => ?_) (fun k old hold hsettled => ?_)
          (fun e' body' r' t hentry => ?_)
        fun k hentry => .inl (by simpa using hentry)
      · simp only [Database.enrolled, Table.get_set] at hrow'
        split at hrow'
        · next hk =>
            obtain rfl := Option.some.inj hrow'
            exact .inl ⟨invite, hk ▸ hinvite, rfl⟩
        · exact .inl ⟨row', hrow', rfl⟩
      · refine (Table.get_set_ne _ _ ?_).trans hold
        rintro rfl
        obtain rfl := Option.some.inj (hinvite.symm.trans hold)
        exact hsettled hactive
      · obtain heq | hentry := List.mem_cons.1 hentry
        · cases heq
          exact .inr ⟨_, Table.get_set_self .., rfl⟩
        · exact .inl hentry
    · refine h.challenges.step (fun _ => List.mem_cons_of_mem _) (Nat.le_add_right _ 2)
        (fun k row' hrow' => ?_) fun e' body' r' t hentry => ?_
      · simp only [Database.enrolled, Table.get_set] at hrow'
        split at hrow'
        · next hk =>
            obtain rfl := Option.some.inj hrow'
            exact .inl ⟨challenge, hk ▸ hchallenge, rfl, fun hnone => by cases hnone⟩
        · exact .inl ⟨row', hrow', rfl, fun hnone => hnone⟩
      · obtain heq | hentry := List.mem_cons.1 hentry
        · cases heq
          refine .inr ⟨Nat.lt_add_right 2 (h.challenges.rows _ _ hchallenge).1,
            fun row hrow => ?_⟩
          obtain rfl := Option.some.inj ((Table.get_set_self ..).symm.trans hrow)
          exact fun hnone => by cases hnone
        · exact .inl hentry
    · refine h.enrollments.step (fun _ => List.mem_cons_of_mem _) (Nat.le_add_right _ 2)
        (fun e row' hrow' => ?_) (fun e' body' r' t hentry => ?_)
        (fun e hs => .inl (by simpa [Settled] using hs)) fun w row hrow =>
          .inl ⟨row, hrow, rfl⟩
      · simp only [Database.enrolled, Table.get_set] at hrow'
        split at hrow'
        · next he =>
            subst he
            obtain rfl := Option.some.inj hrow'
            exact .inr ⟨Nat.le_refl _, body, r, now, List.mem_cons_self, rfl⟩
        · exact .inl ⟨row', hrow', rfl, fun hpending => hpending⟩
      · obtain heq | hentry := List.mem_cons.1 hentry
        · cases heq
          exact .inr (Nat.lt_add_of_pos_right Nat.two_pos)
        · exact .inl hentry
  · refine h.proceed id fun call hcall => ?_
    obtain rfl := afterEnroll_some hcall
    trivial

theorem Admission.approve (h : Admission σ s) {id e now : Nat} {username : String}
    {issuedAt : Option Nat}
    (hrequest : Requested s.trail username (.approveEnrollment e)) :
    Admission σ (s.transact id
      (Database.approveEnrollment e username s.draws (s.draws + 1) issuedAt now)
      (fun _ => none)
      fun c => [.certified c none now, .approved e s.draws username now]) := by
  refine h.transact fun c d hrun => ?_
  obtain ⟨row, detail, superseded, t, hrow, hpending, hlive, -, -, -, -, rfl⟩ :=
    Database.approveEnrollment_ok hrun
  obtain ⟨body, r, t₀, henrolled, hexpires⟩ := h.enrollments.rows e row hrow
  have he : e < s.draws := h.enrollments.drawn e body r t₀ henrolled
  have hmem : ∀ x ∈ s.trail,
      x ∈ [.certified c none now, .approved e s.draws username now] ++ s.trail :=
    fun _ hx => List.mem_append_right _ hx
  refine ⟨grounded_cons.2 ⟨trivial, grounded_cons.2 ⟨⟨hrequest, ⟨body, r, t₀, henrolled,
    hexpires ▸ hlive⟩, fun hs =>
      (h.enrollments.settled e hs).2 row hrow hpending⟩, h.grounded⟩⟩,
    ?_, ?_, ?_, fun k call hcall => (h.calls k call hcall).mono hmem⟩
  · exact h.invites.later hmem (Nat.le_add_right _ 2)
      (fun _ _ _ _ hentry => by simpa using hentry)
      fun k hentry => by simpa using hentry
  · exact h.challenges.later hmem (Nat.le_add_right _ 2) fun _ _ _ _ hentry => by
      simpa using hentry
  · refine h.enrollments.step hmem (Nat.le_add_right _ 2) (fun k row' hrow' => ?_)
      (fun _ _ _ _ hentry => .inl (by simpa using hentry)) (fun k hs => ?_) fun w
        row' hrow' => ?_
    · simp only [Database.approved, ControlLedger.approved, Table.get_set] at hrow'
      split at hrow'
      · next hk =>
          obtain rfl := Option.some.inj hrow'
          exact .inl ⟨row, hk ▸ hrow, rfl, fun hcase => by cases hcase⟩
      · exact .inl ⟨row', hrow', rfl, fun hcase => hcase⟩
    · by_cases hk : k = e
      · subst hk
        refine .inr ⟨Nat.lt_add_right 2 he, fun row' hrow' => ?_⟩
        obtain rfl := Option.some.inj ((Table.get_set_self ..).symm.trans hrow')
        exact fun hcase => by cases hcase
      · exact .inl (by simpa [Settled, hk] using hs)
    · by_cases hw : w = s.draws
      · subst hw
        obtain rfl := Option.some.inj ((Table.get_set_self ..).symm.trans hrow')
        exact .inr ⟨username, now, by simp⟩
      · simp only [Database.approved, ControlLedger.approved, Table.get_set_ne _ _ hw,
          ControlLedger.get_revokeRows] at hrow'
        split at hrow'
        · obtain ⟨old, hold, rfl⟩ := Option.map_eq_some_iff.1 hrow'
          exact .inl ⟨old, hold, rfl⟩
        · exact .inl ⟨row', hrow', rfl⟩

/-- Enrollments that are closed are not pending then. -/
theorem Admission.close (h : Admission σ s) {rows : Table Nat Enrollment}
    {details : Table Nat EnrollmentDetail} (es : List Nat)
    (hrows : ∀ e row', rows.get e = some row' →
      ∃ row, s.database.ledger.enrollments.get e = some row ∧
      row'.expiresAt = row.expiresAt ∧ (row'.status = .pending → row.status = .pending))
    (hes : ∀ e ∈ es, (s.database.ledger.enrollments.get e).isSome ∧
      ∀ row', rows.get e = some row' → row'.status ≠ .pending) : Admission σ { s with
      database := { s.database with
        ledger := { s.database.ledger with enrollments := rows }
        details := details }
      draws := s.draws + 2
      trail := es.map .closed ++ s.trail } := by
  have hmem : ∀ x ∈ s.trail, x ∈ es.map .closed ++ s.trail :=
    fun _ hx => List.mem_append_right _ hx
  refine ⟨h.grounded.append fun entry hentry older => ?_, ?_, ?_, ?_, fun k call hcall =>
    (h.calls k call hcall).mono hmem⟩
  · obtain ⟨e, -, rfl⟩ := List.mem_map.1 hentry
    trivial
  · exact h.invites.later hmem (Nat.le_add_right _ 2)
      (fun _ _ _ _ hentry => by simpa using hentry)
      fun k hentry => by simpa using hentry
  · exact h.challenges.later hmem (Nat.le_add_right _ 2) fun _ _ _ _ hentry => by
      simpa using hentry
  · refine h.enrollments.step hmem (Nat.le_add_right _ 2)
      (fun e row' hrow' => .inl (hrows e row' hrow'))
      (fun _ _ _ _ hentry => .inl (by simpa using hentry)) (fun e hs => ?_)
      fun w row hrow => .inl ⟨row, hrow, rfl⟩
    by_cases he : e ∈ es
    · obtain ⟨hsome, hnot⟩ := hes e he
      obtain ⟨row, hrow⟩ := Option.isSome_iff_exists.1 hsome
      obtain ⟨body, r, now, henrolled, -⟩ := h.enrollments.rows e row hrow
      exact .inr ⟨Nat.lt_add_right 2 (h.enrollments.drawn e body r now henrolled), hnot⟩
    · exact .inl (by simpa [Settled, he] using hs)

theorem Admission.expire (h : Admission σ s) (id now : Nat) :
    Admission σ (s.transact id (Database.expirePendingEnrollments now)
      (fun r => r.toOption.bind fun p => purgeNext p.2) fun p => p.1.map .closed) := by
  refine transact_invariant (fun reply d hrun => ?_) fun _ _ => h.finish id
  obtain ⟨rfl, rfl⟩ := Database.expirePendingEnrollments_ok hrun
  have hget :=
    Database.get_updateRows (f := fun row : Enrollment => { row with status := .expired })
    (fun _ => rfl) (s.database.dueEnrollments now) s.database.ledger.enrollments
  refine Admission.proceed
    (h.close (s.database.dueEnrollments now) (fun e row' hrow' => ?_)
    fun e he => ⟨?_, fun row' hrow' => ?_⟩) id fun call hcall => ?_
  · rw [hget] at hrow'
    split at hrow'
    · obtain ⟨row, hrow, rfl⟩ := Option.map_eq_some_iff.1 hrow'
      exact ⟨row, hrow, rfl, fun hcase => by cases hcase⟩
    · exact ⟨row', hrow', rfl, fun hcase => hcase⟩
  · obtain ⟨row, hrow, -⟩ := Database.mem_dueEnrollments he
    rw [hrow]
    rfl
  · rw [hget, if_pos he] at hrow'
    obtain ⟨row, -, rfl⟩ := Option.map_eq_some_iff.1 hrow'
    exact fun hcase => by cases hcase
  · obtain ⟨r, rest, rfl⟩ := purgeNext_some hcall
    trivial

theorem Admission.reject (h : Admission σ s) (id e : Nat) (username : String) :
    Admission σ (s.transact id (Database.rejectEnrollment e username)
      (fun r => r.toOption.map fun secretRef => .deletePassword secretRef true [])
      fun _ => [.closed e]) := by
  refine transact_invariant (fun ref d hrun => ?_) fun _ _ => h.finish id
  obtain ⟨row, detail, hrow, -, rfl, hcase⟩ := Database.rejectEnrollment_ok hrun
  have hsome : (s.database.ledger.enrollments.get e).isSome := by
    rw [hrow]
    rfl
  refine Admission.proceed ?_ id fun call hcall => ?_
  · obtain ⟨hrejected, rfl⟩ | ⟨hpending, rfl⟩ := hcase
    · refine h.close [e] (fun k row' hrow' => ⟨row', hrow', rfl, fun hcase => hcase⟩)
        fun k hk => ?_
      obtain rfl := List.mem_singleton.1 hk
      refine ⟨hsome, fun row' hrow' => ?_⟩
      obtain rfl := Option.some.inj (hrow.symm.trans hrow')
      simp [hrejected]
    · refine h.close [e] (fun k row' hrow' => ?_) fun k hk => ?_
      · rw [Table.get_set] at hrow'
        split at hrow'
        · next hk =>
            obtain rfl := Option.some.inj hrow'
            exact ⟨row, hk ▸ hrow, rfl, fun hcase => by cases hcase⟩
        · exact ⟨row', hrow', rfl, fun hcase => hcase⟩
      · obtain rfl := List.mem_singleton.1 hk
        refine ⟨hsome, fun row' hrow' => ?_⟩
        obtain rfl := Option.some.inj ((Table.get_set_self ..).symm.trans hrow')
        exact fun hcase => by cases hcase
  · obtain rfl := Option.some.inj hcall
    trivial

theorem Admission.deleteWorker (h : Admission σ s) (id w : Nat) :
    Admission σ (s.transact id (Database.deleteWorker w)
      (fun r => r.toOption.map fun p => .deletePassword p.2 false []) fun p =>
      [.deleted w p.1]) := by
  refine transact_invariant (fun reply d hrun => ?_) fun _ _ => h.finish id
  obtain ⟨row, detail, l, -, -, rfl, hworkers, henrollments, rfl⟩ :=
    Database.deleteWorker_ok hrun
  have hmem : ∀ x ∈ s.trail, x ∈ .deleted w row.enrollmentId :: s.trail :=
    fun _ => List.mem_cons_of_mem _
  refine Admission.proceed ?_ id fun call hcall => ?_
  · refine ⟨grounded_cons.2 ⟨trivial, h.grounded⟩, ?_, ?_, ?_, fun k call hcall =>
      (h.calls k call hcall).mono hmem⟩
    · exact h.invites.later hmem (Nat.le_add_right _ 2)
        (fun _ _ _ _ hentry => by simpa using hentry) fun k hentry => by simpa using hentry
    · exact h.challenges.later hmem (Nat.le_add_right _ 2)
        fun _ _ _ _ hentry => by simpa using hentry
    · refine h.enrollments.step hmem (Nat.le_add_right _ 2) (fun e row' hrow' => ?_)
        (fun _ _ _ _ hentry => .inl (by simpa using hentry))
        (fun e hs => .inl (by simpa [Settled] using hs)) fun v row' hrow' => ?_
      · simp only [Database.deleted, henrollments] at hrow'
        exact .inl ⟨row', ((Table.get_delete_eq_some ..).1 hrow').1, rfl,
          fun hcase => hcase⟩
      · simp only [Database.deleted, hworkers] at hrow'
        exact .inl ⟨row', ((Table.get_delete_eq_some ..).1 hrow').1, rfl⟩
  · obtain rfl := Option.some.inj hcall
    trivial

theorem Admission.serveAdmin (h : Admission σ s) (id : Nat) (username : String)
    (env : Surroundings) (request : AdminRequest)
    (hrequest : Requested s.trail username request) :
    Admission σ (s.serveAdmin id username env request) := by
  cases request with
  | createRegistrationInvite role => exact h.createRegistrationInvite hrequest
  | revokeRegistrationInvite invite => exact h.revokeRegistrationInvite
  | listEnrollments => exact h.expire id env.now
  | revokeWorker w =>
      refine h.transact fun a d hrun => ?_
      obtain ⟨l, hop, rfl⟩ := Database.onLedger_ok.1 hrun
      obtain ⟨row, hrow, rfl⟩ := ControlLedger.revoke_ok hop
      refine h.quiet [] rfl (by simp) rfl rfl rfl (fun v => ?_) (Nat.le_add_right _ 2)
        fun _ _ hcall => .inl hcall
      rw [Table.get_set]
      split
      · next hv =>
          rw [hv, hrow]
          rfl
      · rfl
  | deleteWorker w => exact h.deleteWorker id w
  | approveEnrollment e =>
      simp only [ControlPlane.serveAdmin]
      split
      · exact h.finish id
      · refine h.proceed id fun call hcall => ?_
        obtain rfl := Option.some.inj hcall
        exact hrequest
  | rejectEnrollment e => exact h.reject id e username

theorem Admission.takeRotation (h : Admission σ s) (id : Nat) (body : RotationRequest)
    (worker : ActiveWorker) (now : Nat) :
    Admission σ (s.takeRotation σ id body worker now) := by
  have htaken : Admission σ { s with
      rotationChallenges := s.rotationChallenges.delete fun k _ => k == body.workerId } :=
    h.quiet [] rfl (by simp) rfl rfl rfl (fun _ => rfl) (Nat.le_refl _) fun _ _ hcall =>
      .inl hcall
  unfold ControlPlane.takeRotation
  dsimp only
  split
  · exact htaken.finish id
  · split
    · refine Admission.proceed ?_ id fun call hcall => ?_
      · exact htaken.quiet [_] rfl (by simp [Entry.Quiet]) rfl rfl rfl (fun _ => rfl)
          (Nat.le_refl _)
          fun _ _ hcall => .inl hcall
      · obtain rfl := Option.some.inj hcall
        trivial
    · exact htaken.finish id

theorem Admission.serve (h : Admission σ s) {id : Nat} (env : Surroundings) {call : Call F}
    (hcall : s.calls.get id = some call) : Admission σ (s.serve σ id env call) := by
  have hrequest := h.calls id call hcall
  cases call with
  | admin username request => exact h.serveAdmin id username env request hrequest
  | approve username e => exact h.approve hrequest
  | enroll body r => exact h.serveEnroll hrequest
  | deletePassword r mark rest =>
      have hdeleted :
          Admission σ { s with secretStore := s.secretStore.delete fun k _ => k == r } :=
        h.quiet [] rfl (by simp) rfl rfl rfl (fun _ => rfl) (Nat.le_refl _) fun _ _
          hcall => .inl hcall
      simp only [ControlPlane.serve]
      split
      · refine hdeleted.proceed id fun next hnext => ?_
        obtain rfl := afterDelete_some hnext
        trivial
      · exact h.finish id
      · exact hdeleted.finish id
  | markDeleted r rest =>
      have hnext : ∀ next : Call F, purgeNext rest = some next →
          CallRequested σ s.trail next := by
        intro next hnext
        obtain ⟨r, rest, rfl⟩ := purgeNext_some hnext
        trivial
      simp only [ControlPlane.serve]
      refine transact_invariant (fun u d hrun => ?_) fun _ _ => h.proceed id hnext
      obtain rfl := Tx.modify_ok.1 hrun
      refine Admission.proceed ?_ id fun next h => hnext next h
      exact h.quiet [] rfl (by simp) rfl rfl rfl (fun _ => rfl) (Nat.le_add_right _ 2)
        fun _ _ hcall => .inl hcall
  | challengeRotation w publicKeyPem =>
      refine Admission.finish ?_ id
      exact h.quiet [_] rfl (by simp [Entry.Quiet]) rfl rfl rfl (fun _ => rfl)
        (Nat.le_succ _)
        fun _ _ hcall => .inl hcall
  | takeRotation body worker => exact h.takeRotation id body worker env.now
  | rotate w publicKeyPem nonce =>
      refine h.transact fun c d hrun => ?_
      obtain ⟨row, detail, old, t, -, -, -, -, -, -, rfl⟩ :=
        Database.rotateWorkerCertificate_ok hrun
      exact h.quiet [_] rfl (by simp [Entry.Quiet]) rfl rfl rfl (fun _ => rfl)
        (Nat.le_add_right _ 2)
        fun _ _ hcall => .inl hcall
  | mediatePassword worker nonce signature =>
      simp only [ControlPlane.serve, ControlPlane.sendPassword]
      split
      · exact (h.mediated worker _ nonce).finish _
      · exact h.finish _
  | openSession worker nonce signature =>
      simp only [ControlPlane.serve, ControlPlane.startSession]
      split
      · refine h.proceed id fun call hnext => ?_
        obtain rfl := Option.some.inj hnext
        trivial
      · exact h.finish _
  | session worker nonce =>
      simp only [ControlPlane.serve, ControlPlane.requestPassword]
      split
      · exact h.finish _
      · split
        · split
          · exact h.mediated worker _ nonce
          · exact h.finish _
        · exact h

theorem Admission.withCertificate (h : Admission σ s) (w : Nat) (certificate : Certificate)
    (env : Surroundings) {next : ActiveWorker → Nat → Call F}
    (hnext : ∀ worker nonce, CallRequested σ s.trail (next worker nonce)) :
    Admission σ (s.withCertificate w certificate env next) := by
  unfold ControlPlane.withCertificate
  split
  · exact h
  · split
    · have hdrawn : Admission σ { s with draws := s.draws + 1 } :=
        h.quiet [] rfl (by simp) rfl rfl rfl (fun _ => rfl) (Nat.le_succ _)
          fun _ _ hcall => .inl hcall
      exact hdrawn.spawn (hnext _ _)
    · exact h

theorem Admission.withActiveWorker (h : Admission σ s) (w : Nat) (env : Surroundings)
    {next : ActiveWorker → Call F}
    (hnext : ∀ worker, CallRequested σ s.trail (next worker)) :
    Admission σ (s.withActiveWorker w env next) := by
  unfold ControlPlane.withActiveWorker
  split
  · exact h
  · next worker _ =>
      split
      · exact h.spawn (hnext worker)
      · exact h

theorem Admission.enroll (h : Admission σ s) (body : EnrollmentRequest F)
    (env : Surroundings) :
    Admission σ (s.enroll σ body env) := by
  have hother : ∀ store, Admission σ { s with
      secretStore := store
      draws := s.draws + 1 } := fun store =>
    h.quiet [] rfl (by simp) rfl rfl rfl (fun _ => rfl) (Nat.le_succ _) fun _ _ hcall =>
      .inl hcall
  unfold ControlPlane.enroll
  split
  · exact h
  · next hproven =>
      dsimp only
      split
      · exact (hother _).spawn hproven
      · exact hother _
      · exact hother _

theorem Admission.authorize (h : Admission σ s) (token csrfToken : Option Nat)
    (request : AdminRequest) (now : Nat) :
    Admission σ (s.authorize token csrfToken request now) := by
  unfold ControlPlane.authorize
  split
  · next token username a _ =>
      have hadmitted : Admission σ { s with
          administrators := a
          trail := .admitted username request token csrfToken now :: s.trail } :=
        h.quiet [_] rfl (by simp [Entry.Quiet]) rfl rfl rfl (fun _ => rfl) (Nat.le_refl _)
          fun _ _ hcall => .inl hcall
      exact hadmitted.spawn ⟨token, csrfToken, now, List.mem_cons_self⟩
  · exact h.quiet [] rfl (by simp) rfl rfl rfl (fun _ => rfl) (Nat.le_refl _)
      fun _ _ hcall => .inl hcall

theorem Admission.pairing (h : Admission σ s) (op : ControlLedger.Op)
    (hop : op.OnRegistry = false) :
    Admission σ { s with
      database := { s.database with ledger := (s.database.ledger.perform op).2 } } := by
  obtain ⟨hworkers, henrollments⟩ :=
    ControlLedger.perform_sameRegistry s.database.ledger hop
  exact h.quiet [] rfl (by simp) rfl rfl henrollments
    (fun w => congrArg (fun t : Table Nat WorkerRow =>
    (t.get w).map WorkerRow.enrollmentId) hworkers) (Nat.le_refl _) fun _ _ hcall =>
      .inl hcall

theorem Admission.perform (h : Admission σ s) (label : Label F) :
    Admission σ (s.perform σ label) := by
  cases label with
  | administrators op =>
      exact h.quiet [] rfl (by simp) rfl rfl rfl (fun _ => rfl) (Nat.le_refl _)
        fun _ _ hcall => .inl hcall
  | pairing op =>
      simp only [ControlPlane.perform]
      split
      · next hop => exact h.pairing op hop
      · exact h
  | authorize token csrfToken request now => exact h.authorize token csrfToken request now
  | enrollmentChallenge now => exact h.enrollmentChallenge now
  | enroll body env => exact h.enroll body env
  | expirePendingSecrets now => exact h.expire s.draws now
  | rotationChallenge w publicKeyPem env => exact h.withActiveWorker w env fun _ => trivial
  | rotate body env => exact h.withActiveWorker body.workerId env fun _ => trivial
  | mediatePassword w certificate signature env
  | openSession w certificate signature env =>
      simp only [ControlPlane.perform]
      exact h.withCertificate w certificate env fun _ _ => trivial
  | serve id env =>
      simp only [ControlPlane.perform]
      split
      · exact h
      · next call hcall => exact h.serve env hcall
  | abandon id => exact h.finish id
  | restart =>
      have hledger := h.pairing .restart rfl
      exact hledger.quiet [] rfl (by simp) rfl rfl rfl (fun _ => rfl) (Nat.le_refl _)
        fun _ _ hcall => by cases hcall

theorem Admission.run (h : Admission σ s) (labels : List (Label F)) :
    Admission σ (s.run σ labels) := by
  induction labels generalizing s with
  | nil => exact h
  | cons label labels ih => exact ih (h.perform label)

/-! ## The administrators of the requests -/

end ControlPlane

theorem Administrators.mem_validateSession {a : Administrators} {d : AdminEntry}
    (hd : d ∈ a.trail) (token : Nat) (csrfToken : Option Nat)
    (requireCsrf : Bool) (now : Nat) :
    d ∈ (a.validateSession token csrfToken requireCsrf now).2.trail := by
  unfold Administrators.validateSession
  split
  · exact hd
  · split
    · exact List.mem_cons_of_mem _ hd
    · split
      · exact hd
      · exact List.mem_cons_of_mem _ hd

theorem Administrators.mem_goOn {call : AdminCall}
    {r : Except AdminFault String × Administrators} {d : AdminEntry} (hd : d ∈ r.2.trail) :
    d ∈ (Administrators.goOn call r).trail := by
  obtain ⟨e | u, a⟩ := r
  · exact hd
  · exact hd

/-- The trail of the administrators only grows. -/
theorem Administrators.mem_perform {a : Administrators} {d : AdminEntry} (hd : d ∈ a.trail)
    (op : Administrators.Op) : d ∈ (a.perform op).trail := by
  cases op with
  | createAdmin username password =>
      simp only [Administrators.perform, Administrators.createAdmin]
      split
      · exact hd
      · exact List.mem_cons_of_mem _ hd
  | resetAdminPassword reported username password =>
      simp only [Administrators.perform, Administrators.resetAdminPassword]
      split
      · exact hd
      · exact List.mem_cons_of_mem _ hd
  | login username password now =>
      simp only [Administrators.perform, Administrators.authenticateAdmin]
      split
      · exact List.mem_cons_of_mem _ hd
      · exact hd
  | requireAdmin token csrfToken requireCsrf now =>
      cases token with
      | none => exact hd
      | some token => exact mem_validateSession hd token csrfToken requireCsrf now
  | resumeSession token now => exact mem_goOn (mem_validateSession hd token none false now)
  | renewCsrf token =>
      simp only [Administrators.perform]
      split
      · exact List.mem_cons_of_mem _ hd
      · exact hd
  | logout token csrfToken now =>
      exact mem_goOn (mem_validateSession hd token csrfToken true now)
  | logoutAdmin token =>
      simp only [Administrators.perform]
      split
      · simp only [Administrators.logoutAdmin]
        split
        · exact hd
        · exact List.mem_cons_of_mem _ hd
      · exact hd
  | restart => exact hd

theorem Administrators.validateSession_accepted {a a' : Administrators} {token : Nat}
    {csrfToken : Option Nat} {requireCsrf : Bool} {now : Nat} {username : String}
    (h : a.validateSession token csrfToken requireCsrf now = (.ok username, a')) :
    .accepted username token csrfToken requireCsrf now ∈ a'.trail := by
  unfold Administrators.validateSession at h
  split at h
  · cases h
  · split at h
    · cases h
    · split at h
      · cases h
      · cases h
        exact List.mem_cons_self

def Entry.Admits : Entry F → Prop
  | .admitted .. => True
  | _ => False

namespace ControlPlane

/-- What was admitted is what the administrators' sessions accepted. -/
structure Audited (s : ControlPlane F) : Prop where
  recorded : s.administrators.Recorded
  admitted : ∀ username request token csrfToken now,
    .admitted username request token csrfToken now ∈ s.trail →
    .accepted username token csrfToken request.requiresCsrf now ∈ s.administrators.trail

theorem Audited.apart (h : Audited s) (entries : List (Entry F))
    (htrail : s'.trail = entries ++ s.trail) (hentries : ∀ entry ∈ entries, ¬entry.Admits)
    (hadministrators : s'.administrators = s.administrators) : Audited s' := by
  refine ⟨hadministrators ▸ h.recorded,
    fun username request token csrfToken now hentry => ?_⟩
  rw [htrail] at hentry
  rw [hadministrators]
  obtain hentry | hentry := List.mem_append.1 hentry
  · exact absurd trivial (hentries _ hentry)
  · exact h.admitted username request token csrfToken now hentry

theorem Audited.proceed (h : Audited s) (id : Nat) (next : Option (Call F)) :
    Audited (s.proceed id next) :=
  h.apart [] (by simp) (by simp) (by simp)

theorem Audited.transact (h : Audited s) {α : Type} {id : Nat} {t : Database.Locked α}
    {next : Except Fault α → Option (Call F)} {entries : α → List (Entry F)}
    (hentries : ∀ a, ∀ entry ∈ entries a, ¬entry.Admits) :
    Audited (s.transact id t next entries) := by
  refine transact_invariant (fun a d _ => Audited.proceed ?_ id _) fun e _ =>
    h.proceed id _
  exact h.apart (entries a) rfl (hentries a) rfl

theorem Audited.serveAdmin (h : Audited s) (id : Nat) (username : String)
    (env : Surroundings) (request : AdminRequest) :
    Audited (s.serveAdmin id username env request) := by
  cases request with
  | approveEnrollment e =>
      simp only [ControlPlane.serveAdmin]
      split
      · exact h.apart [] rfl (by simp) rfl
      · exact h.proceed id _
  | _ =>
      simp only [ControlPlane.serveAdmin]
      refine h.transact ?_
      simp [Entry.Admits]

theorem Audited.serve (h : Audited s) (id : Nat) (env : Surroundings) (call : Call F) :
    Audited (s.serve σ id env call) := by
  cases call with
  | admin username request => exact h.serveAdmin id username env request
  | approve username e =>
      simp only [ControlPlane.serve]
      refine h.transact ?_
      simp [Entry.Admits]
  | enroll body r =>
      simp only [ControlPlane.serve]
      refine h.transact ?_
      simp [Entry.Admits]
  | deletePassword r mark rest =>
      simp only [ControlPlane.serve]
      split
      · exact h.apart [] (by simp) (by simp) (by simp)
      · exact h.apart [] rfl (by simp) rfl
      · exact h.apart [] rfl (by simp) rfl
  | markDeleted r rest =>
      simp only [ControlPlane.serve]
      refine h.transact ?_
      simp
  | challengeRotation w publicKeyPem => exact h.apart [_] rfl (by simp [Entry.Admits]) rfl
  | takeRotation body worker =>
      simp only [ControlPlane.serve, ControlPlane.takeRotation]
      split
      · exact h.apart [] rfl (by simp) rfl
      · split
        · exact h.apart [_] rfl (by simp [Entry.Admits]) rfl
        · exact h.apart [] rfl (by simp) rfl
  | rotate w publicKeyPem nonce =>
      simp only [ControlPlane.serve]
      refine h.transact ?_
      simp [Entry.Admits]
  | mediatePassword worker nonce signature =>
      simp only [ControlPlane.serve, ControlPlane.sendPassword]
      split
      · exact h.apart [_] rfl (by simp [Entry.Admits]) rfl
      · exact h.apart [] rfl (by simp) rfl
  | openSession worker nonce signature =>
      simp only [ControlPlane.serve, ControlPlane.startSession]
      split <;> exact h.apart [] rfl (by simp) rfl
  | session worker nonce =>
      simp only [ControlPlane.serve, ControlPlane.requestPassword]
      split
      · exact h.apart [] rfl (by simp) rfl
      · split
        · split
          · exact h.apart [_] rfl (by simp [Entry.Admits]) rfl
          · exact h.apart [] rfl (by simp) rfl
        · exact h

theorem Audited.withCertificate (h : Audited s) (w : Nat) (certificate : Certificate)
    (env : Surroundings) (next : ActiveWorker → Nat → Call F) :
    Audited (s.withCertificate w certificate env next) := by
  unfold ControlPlane.withCertificate
  split
  · exact h
  · split
    · exact h.apart [] rfl (by simp) rfl
    · exact h

theorem Audited.withActiveWorker (h : Audited s) (w : Nat) (env : Surroundings)
    (next : ActiveWorker → Call F) : Audited (s.withActiveWorker w env next) := by
  unfold ControlPlane.withActiveWorker
  split
  · exact h
  · split
    · exact h.apart [] rfl (by simp) rfl
    · exact h

theorem Audited.enroll (h : Audited s) (body : EnrollmentRequest F) (env : Surroundings) :
    Audited (s.enroll σ body env) := by
  unfold ControlPlane.enroll
  split
  · exact h
  · dsimp only
    split
    · exact h.apart [] rfl (by simp) rfl
    · exact h.apart [] rfl (by simp) rfl
    · exact h.apart [] rfl (by simp) rfl

theorem Audited.authorize (h : Audited s) (token csrfToken : Option Nat)
    (request : AdminRequest) (now : Nat) :
    Audited (s.authorize token csrfToken request now) := by
  have hrecorded : (s.administrators.requireAdmin token csrfToken request.requiresCsrf
      now).2.Recorded :=
        h.recorded.perform (.requireAdmin token csrfToken request.requiresCsrf now)
  have hgrown : ∀ d ∈ s.administrators.trail,
      d ∈ (s.administrators.requireAdmin token csrfToken
      request.requiresCsrf now).2.trail := fun _ hd =>
    Administrators.mem_perform hd (.requireAdmin token csrfToken request.requiresCsrf now)
  unfold ControlPlane.authorize
  split
  · next token username a hrequire =>
      rw [hrequire] at hrecorded hgrown
      refine ⟨hrecorded, fun username' request' token' csrfToken' now' hentry => ?_⟩
      obtain heq | hentry := List.mem_cons.1 hentry
      · cases heq
        exact Administrators.validateSession_accepted hrequire
      · exact hgrown _ (h.admitted _ _ _ _ _ hentry)
  · next hrequire =>
      rw [hrequire] at hrecorded hgrown
      exact ⟨hrecorded, fun _ _ _ _ _ hentry => hgrown _ (h.admitted _ _ _ _ _ hentry)⟩

theorem Audited.operate (h : Audited s) (op : Administrators.Op) :
    Audited { s with administrators := s.administrators.perform op } :=
  ⟨h.recorded.perform op, fun _ _ _ _ _ hentry =>
    Administrators.mem_perform (h.admitted _ _ _ _ _ hentry) op⟩

theorem Audited.perform (h : Audited s) (label : Label F) :
    Audited (s.perform σ label) := by
  cases label with
  | administrators op => exact h.operate op
  | pairing op =>
      simp only [ControlPlane.perform]
      split
      · exact h.apart [] rfl (by simp) rfl
      · exact h
  | authorize token csrfToken request now => exact h.authorize token csrfToken request now
  | enrollmentChallenge now => exact h.apart [_] rfl (by simp [Entry.Admits]) rfl
  | enroll body env => exact h.enroll body env
  | expirePendingSecrets now =>
      simp only [ControlPlane.perform]
      refine h.transact ?_
      simp [Entry.Admits]
  | rotationChallenge w publicKeyPem env => exact h.withActiveWorker w env _
  | rotate body env => exact h.withActiveWorker body.workerId env _
  | mediatePassword w certificate signature env
  | openSession w certificate signature env =>
      simp only [ControlPlane.perform]
      exact h.withCertificate w certificate env _
  | serve id env =>
      simp only [ControlPlane.perform]
      split
      · exact h
      · exact h.serve id env _
  | abandon id => exact h.apart [] rfl (by simp) rfl
  | restart => exact (h.operate .restart).apart [] rfl (by simp) rfl

theorem Audited.run (h : Audited s) (labels : List (Label F)) :
    Audited (s.run σ labels) := by
  induction labels generalizing s with
  | nil => exact h
  | cons label labels ih => exact ih (h.perform label)

/-! ## Every run -/

/-- Each entry of the trail is justified by older ones, each request of an administrator
was admitted while the session was live, and each Worker on record was approved. -/
structure WorkersAdmitted (σ : Setting F) (s : ControlPlane F) : Prop where
  justified : Grounded (Justified σ) s.trail
  live : ∀ username request token csrfToken now,
    .admitted username request token csrfToken now ∈ s.trail → ∃ newer older,
      s.administrators.trail =
        newer ++ .accepted username token csrfToken request.requiresCsrf now :: older ∧
      Live username token csrfToken request.requiresCsrf now older
  workers : ∀ w row, s.database.ledger.workers.get w = some row →
    ∃ username now, .approved row.enrollmentId w username now ∈ s.trail

theorem workers_admitted (σ : Setting F) (labels : List (Label F)) :
    WorkersAdmitted σ ((empty : ControlPlane F).run σ labels) := by
  have h : Admission σ ((empty : ControlPlane F).run σ labels) :=
    admission_empty.run labels
  have haudited : Audited ((empty : ControlPlane F).run σ labels) :=
    Audited.run ⟨Administrators.recorded_empty,
      fun _ _ _ _ _ hentry => by cases hentry⟩ labels
  refine ⟨h.grounded, fun username request token csrfToken now hentry => ?_,
    h.enrollments.workers⟩
  obtain ⟨newer, older, htrail⟩ :=
    List.append_of_mem (haudited.admitted username request token csrfToken now hentry)
  exact ⟨newer, older, htrail, haudited.recorded.grounded newer _ older htrail⟩

end ControlPlane

end PairCell.Access
