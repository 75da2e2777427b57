import PairCell.Access.Moves

/-!
# Where the passwords are

The MT5 password of an enrollment is in the secret store as long as the
enrollment is pending or approved, whatever rejections, clean-ups, deletions
and failures of the store go on beside it, and it is gone once it is marked
deleted.  What is sent to a Worker is the password of its own account.
-/

namespace PairCell

def Enrollment.account (row : Enrollment) : Nat × String := (row.login, row.server)

namespace Access

open Lib

/-- Its password must be there. -/
def Needed (row : Enrollment) : Prop := row.status = .pending ∨ row.status = .approved

/-- The reference under which the call has stored a password for its enrollment. -/
def Call.stored {F : Type} : Call F → Option Nat
  | .enroll _ secretRef => some secretRef
  | _ => none

namespace ControlPlane

variable {F : Type}

/-- The request enrolled the Worker's account with the password of the Worker's
reference. -/
def Brings (s : ControlPlane F) (worker : ActiveWorker)
    (body : EnrollmentRequest F) : Prop :=
  (∃ e now, .enrolled e body worker.passwordSecretRef now ∈ s.trail) ∧
    body.login = worker.login ∧ body.server = worker.server

/-- The entry stores no password, and one it sends is the one the Worker's request
brought. -/
def Fair (s : ControlPlane F) : Entry F → Prop
  | .enrolled .. => False
  | .mediated worker password _ => ∃ body, s.Brings worker body ∧
      password = body.mt5Password
  | _ => True

def Extends (s s' : ControlPlane F) : Prop :=
  ∃ entries, s'.trail = entries ++ s.trail ∧ ∀ entry ∈ entries, s.Fair entry

/-- No enrollment needs the password of this reference, and no call will
make one that does. -/
structure Released (s : ControlPlane F) (r : Nat) : Prop where
  drawn : r < s.draws
  dead : ∀ e row x, s.database.ledger.enrollments.get e = some row →
      s.database.details.get e = some x →
    x.passwordSecretRef = r → ¬Needed row
  unused : ∀ id call, s.calls.get id = some call → call.stored ≠ some r

def CallSafe (s : ControlPlane F) : Call F → Prop
  | .enroll body r => s.secretStore.get r = some body.mt5Password ∧ r < s.draws ∧
      ∀ e x, s.database.details.get e = some x → x.passwordSecretRef ≠ r
  | .deletePassword r _ rest => ∀ q ∈ r :: rest, s.Released q
  | .markDeleted r rest => s.secretStore.get r = none ∧ ∀ q ∈ r :: rest, s.Released q
  | .mediatePassword worker _ _ | .openSession worker _ _ | .session worker _ =>
      ∃ body, s.Brings worker body
  | _ => True

structure Custody (s : ControlPlane F) : Prop where
  joined : ∀ e, (s.database.details.get e).isSome =
      (s.database.ledger.enrollments.get e).isSome
  drawn : ∀ e x, s.database.details.get e = some x → x.passwordSecretRef < s.draws
  own : ∀ e e' x x', s.database.details.get e = some x →
      s.database.details.get e' = some x' →
    x.passwordSecretRef = x'.passwordSecretRef → e = e'
  kept : ∀ e row x, s.database.ledger.enrollments.get e = some row →
      s.database.details.get e = some x →
    Needed row → ∃ body now, .enrolled e body x.passwordSecretRef now ∈ s.trail ∧
      row.account = (body.login, body.server) ∧
      s.secretStore.get x.passwordSecretRef = some body.mt5Password
  marked : ∀ e x, s.database.details.get e = some x → x.passwordSecretDeletedAt ≠ none →
    s.secretStore.get x.passwordSecretRef = none
  honest : ∀ e body r now, .enrolled e body r now ∈ s.trail → r < s.draws ∧
    (s.secretStore.get r = none ∨ s.secretStore.get r = some body.mt5Password)
  sent : ∀ worker password nonce, .mediated worker password nonce ∈ s.trail →
    ∃ body, s.Brings worker body ∧ password = body.mt5Password
  calls : ∀ id call, s.calls.get id = some call → s.CallSafe call
  once : ∀ i j call call' r, s.calls.get i = some call → s.calls.get j = some call' →
    call.stored = some r → call'.stored = some r → i = j
  approved : ∀ w row, s.database.ledger.workers.get w = some row → ∃ er,
    s.database.ledger.enrollments.get row.enrollmentId = some er ∧ er.status = .approved ∧
    er.account = row.account
  single : ∀ w v x y, s.database.ledger.workers.get w = some x →
    s.database.ledger.workers.get v = some y → x.enrollmentId = y.enrollmentId → w = v

/-- Nothing new is to be kept, and only what was released is gone. -/
structure Eases (s s' : ControlPlane F) : Prop where
  details : ∀ e x', s'.database.details.get e = some x' →
      ∃ x, s.database.details.get e = some x ∧
    x'.passwordSecretRef = x.passwordSecretRef ∧
    (x'.passwordSecretDeletedAt = x.passwordSecretDeletedAt ∨
      s.secretStore.get x.passwordSecretRef = none)
  enrollments : ∀ e row', s'.database.ledger.enrollments.get e = some row' →
    ∃ row, s.database.ledger.enrollments.get e = some row ∧ row'.account = row.account ∧
      (Needed row' → Needed row)
  joined : ∀ e, (s'.database.details.get e).isSome =
      (s'.database.ledger.enrollments.get e).isSome
  store : ∀ r, s'.secretStore.get r = s.secretStore.get r ∨
    s'.secretStore.get r = none ∧ s.Released r
  trail : Extends s s'
  draws : s.draws ≤ s'.draws
  calls : ∀ id call, s'.calls.get id = some call →
    s.calls.get id = some call ∨ s'.CallSafe call ∧ call.stored = none
  approved : ∀ w row, s'.database.ledger.workers.get w = some row → ∃ er,
    s'.database.ledger.enrollments.get row.enrollmentId = some er ∧ er.status = .approved ∧
    er.account = row.account
  single : ∀ w v x y, s'.database.ledger.workers.get w = some x →
    s'.database.ledger.workers.get v = some y → x.enrollmentId = y.enrollmentId → w = v

variable {s s' : ControlPlane F}

theorem Extends.mem (h : Extends s s') {entry : Entry F} (hentry : entry ∈ s.trail) :
    entry ∈ s'.trail := by
  obtain ⟨entries, htrail, -⟩ := h
  rw [htrail]
  exact List.mem_append_right _ hentry

theorem Extends.fair (h : Extends s s') {entry : Entry F} (hentry : entry ∈ s'.trail) :
    entry ∈ s.trail ∨ s.Fair entry := by
  obtain ⟨entries, htrail, hfair⟩ := h
  rw [htrail] at hentry
  exact (List.mem_append.1 hentry).symm.imp id (hfair entry)

theorem Extends.of_eq (h : s'.trail = s.trail) : Extends s s' :=
  ⟨[], h, fun _ hentry => by cases hentry⟩

theorem Extends.cons {entry : Entry F} (h : s'.trail = entry :: s.trail)
    (hfair : s.Fair entry) :
    Extends s s' :=
  ⟨[entry], h, fun _ hentry => List.mem_singleton.1 hentry ▸ hfair⟩

theorem Brings.mono {worker : ActiveWorker} {body : EnrollmentRequest F}
    (h : s.Brings worker body) (htrail : ∀ entry ∈ s.trail, entry ∈ s'.trail) :
    s'.Brings worker body := by
  obtain ⟨⟨e, now, hentry⟩, haccount⟩ := h
  exact ⟨⟨e, now, htrail _ hentry⟩, haccount⟩

theorem Released.ease {r : Nat} (h : s.Released r) (he : Eases s s') : s'.Released r where
  drawn := Nat.lt_of_lt_of_le h.drawn he.draws
  dead e row' x' hrow' hx' href hlive := by
    obtain ⟨x, hx, hxref, -⟩ := he.details e x' hx'
    obtain ⟨row, hrow, -, hold⟩ := he.enrollments e row' hrow'
    exact h.dead e row x hrow hx (hxref ▸ href) (hold hlive)
  unused id call hcall := by
    obtain hold | ⟨-, hnone⟩ := he.calls id call hcall
    · exact h.unused id call hold
    · rw [hnone]
      exact fun heq => by cases heq

/-- What a call that goes on holds is still there. -/
theorem Custody.callSafe_ease (h : Custody s) (he : Eases s s') {id : Nat} {call : Call F}
    (hcall : s.calls.get id = some call) : s'.CallSafe call := by
  have hsafe := h.calls id call hcall
  cases call with
  | enroll body r =>
      obtain ⟨hstored, hdrawn, hunused⟩ := hsafe
      refine ⟨?_, Nat.lt_of_lt_of_le hdrawn he.draws, fun e x' hx' => ?_⟩
      · obtain hsame | ⟨-, hreleased⟩ := he.store r
        · exact hsame.trans hstored
        · exact absurd rfl (hreleased.unused id _ hcall)
      · obtain ⟨x, hx, href, -⟩ := he.details e x' hx'
        exact href ▸ hunused e x hx
  | deletePassword r mark rest => exact fun q hq => (hsafe q hq).ease he
  | markDeleted r rest =>
      refine ⟨?_, fun q hq => (hsafe.2 q hq).ease he⟩
      obtain hsame | ⟨hnone, -⟩ := he.store r
      · exact hsame.trans hsafe.1
      · exact hnone
  | mediatePassword worker _ _ | openSession worker _ _ | session worker _ =>
      obtain ⟨body, hbrings⟩ := hsafe
      exact ⟨body, hbrings.mono fun _ => he.trail.mem⟩
  | _ => trivial

theorem Custody.ease (h : Custody s) (he : Eases s s') : Custody s' where
  joined := he.joined
  drawn e x' hx' := by
    obtain ⟨x, hx, href, -⟩ := he.details e x' hx'
    exact href ▸ Nat.lt_of_lt_of_le (h.drawn e x hx) he.draws
  own e e' x' y' hx' hy' href := by
    obtain ⟨x, hx, hxref, -⟩ := he.details e x' hx'
    obtain ⟨y, hy, hyref, -⟩ := he.details e' y' hy'
    exact h.own e e' x y hx hy ((hxref.symm.trans href).trans hyref)
  kept e row' x' hrow' hx' hlive := by
    obtain ⟨x, hx, href, -⟩ := he.details e x' hx'
    obtain ⟨row, hrow, haccount, hold⟩ := he.enrollments e row' hrow'
    obtain ⟨body, now, hentry, hbody, hstored⟩ := h.kept e row x hrow hx (hold hlive)
    rw [href]
    refine ⟨body, now, he.trail.mem hentry, haccount.trans hbody, ?_⟩
    obtain hsame | ⟨-, hreleased⟩ := he.store x.passwordSecretRef
    · exact hsame.trans hstored
    · exact absurd (hold hlive) (hreleased.dead e row x hrow hx rfl)
  marked e x' hx' hdeleted := by
    obtain ⟨x, hx, href, hmark⟩ := he.details e x' hx'
    have hnone : s.secretStore.get x.passwordSecretRef = none := by
      obtain hmark | hnone := hmark
      · exact h.marked e x hx (hmark ▸ hdeleted)
      · exact hnone
    rw [href]
    obtain hsame | ⟨hgone, -⟩ := he.store x.passwordSecretRef
    · exact hsame.trans hnone
    · exact hgone
  honest e body r now hentry := by
    obtain hentry | hfair := he.trail.fair hentry
    · obtain ⟨hdrawn, hstored⟩ := h.honest e body r now hentry
      refine ⟨Nat.lt_of_lt_of_le hdrawn he.draws, ?_⟩
      obtain hsame | ⟨hgone, -⟩ := he.store r
      · rwa [hsame]
      · exact .inl hgone
    · exact hfair.elim
  sent worker password nonce hentry := by
    obtain hentry | hfair := he.trail.fair hentry
    · obtain ⟨body, hbrings, heq⟩ := h.sent worker password nonce hentry
      exact ⟨body, hbrings.mono fun _ => he.trail.mem, heq⟩
    · obtain ⟨body, hbrings, heq⟩ := hfair
      exact ⟨body, hbrings.mono fun _ => he.trail.mem, heq⟩
  calls id call hcall := by
    obtain hold | ⟨hsafe, -⟩ := he.calls id call hcall
    · exact h.callSafe_ease he hold
    · exact hsafe
  once i j call call' r hi hj hr hr' := by
    obtain hi | ⟨-, hnone⟩ := he.calls i call hi
    · obtain hj | ⟨-, hnone⟩ := he.calls j call' hj
      · exact h.once i j call call' r hi hj hr hr'
      · rw [hnone] at hr'
        cases hr'
    · rw [hnone] at hr
      cases hr
  approved := he.approved
  single := he.single

/-- The step leaves the tables of enrollments and Workers and the secret store as they are,
up to columns that play no part here, and no call that is new touches a password. -/
theorem Custody.frame (h : Custody s)
    (hdetails : ∀ e, (s'.database.details.get e).map
        (fun x => (x.passwordSecretRef, x.passwordSecretDeletedAt)) =
      (s.database.details.get e).map fun x =>
      (x.passwordSecretRef, x.passwordSecretDeletedAt))
    (henrollments : s'.database.ledger.enrollments = s.database.ledger.enrollments)
    (hworkers : ∀ w, (s'.database.ledger.workers.get w).map
      (fun x => (x.enrollmentId, x.account)) =
      (s.database.ledger.workers.get w).map fun x => (x.enrollmentId, x.account))
    (hstore : s'.secretStore = s.secretStore) (htrail : Extends s s')
    (hdraws : s.draws ≤ s'.draws)
    (hcalls : ∀ id call, s'.calls.get id = some call →
      s.calls.get id = some call ∨ s'.CallSafe call ∧ call.stored = none) :
      Custody s' := by
  have hold : ∀ w row', s'.database.ledger.workers.get w = some row' →
      ∃ row, s.database.ledger.workers.get w = some row ∧
        row.enrollmentId = row'.enrollmentId ∧
        row.account = row'.account := by
    intro w row' hrow'
    have hmap := hworkers w
    rw [hrow'] at hmap
    obtain ⟨row, hrow, heq⟩ := Option.map_eq_some_iff.1 hmap.symm
    exact ⟨row, hrow, Prod.mk.inj heq⟩
  refine h.ease ⟨fun e x' hx' => ?_, fun e row' hrow' => ?_, fun e => ?_, fun r => ?_,
    htrail, hdraws, hcalls, fun w row' hrow' => ?_, fun w v x' y' hx' hy' heq => ?_⟩
  · have hmap := hdetails e
    rw [hx'] at hmap
    obtain ⟨x, hx, hpair⟩ := Option.map_eq_some_iff.1 hmap.symm
    exact ⟨x, hx, (congrArg Prod.fst hpair).symm, .inl (congrArg Prod.snd hpair).symm⟩
  · exact ⟨row', henrollments ▸ hrow', rfl, id⟩
  · rw [henrollments, ← h.joined e]
    simpa using congrArg Option.isSome (hdetails e)
  · exact .inl (by rw [hstore])
  · obtain ⟨row, hrow, heq, haccount⟩ := hold w row' hrow'
    rw [henrollments, ← heq, ← haccount]
    exact h.approved w row hrow
  · obtain ⟨x, hx, hxe, -⟩ := hold w x' hx'
    obtain ⟨y, hy, hye, -⟩ := hold v y' hy'
    exact h.single w v x y hx hy ((hxe.trans heq).trans hye.symm)

theorem custody_empty : Custody (empty : ControlPlane F) := by
  constructor
  · intro e
    rfl
  all_goals simp [empty, Database.empty, ControlLedger.empty]

/-! ## Calls that start, go on and end -/

theorem Custody.proceed (h : Custody s) (id : Nat) {next : Option (Call F)}
    (hnext : ∀ call, next = some call → (s.proceed id next).CallSafe call ∧
      call.stored = none) :
    Custody (s.proceed id next) := by
  refine h.frame (fun e => by simp) (by simp) (fun w => by simp) (by simp)
    (.of_eq (by simp))
    (by simp) ?_
  intro k call hcall
  rw [proceed_get] at hcall
  split at hcall
  · exact .inr (hnext call hcall)
  · exact .inl hcall

theorem Custody.finish (h : Custody s) (id : Nat) : Custody (s.finish id) := by
  have hover : Custody (s.proceed id none) := h.proceed id fun call hcall => by cases hcall
  exact hover

/-- A call that touches no password starts. -/
theorem Custody.spawn (h : Custody s) {call : Call F}
    (hsafe : ∀ t : ControlPlane F, t.CallSafe call) (hnone : call.stored = none) :
    Custody (s.spawn call) := by
  refine h.frame (fun e => rfl) rfl (fun w => rfl) rfl (.of_eq rfl) (Nat.le_succ _) ?_
  intro k call' hcall
  rw [ControlPlane.spawn, Table.get_set] at hcall
  split at hcall
  · obtain rfl := Option.some.inj hcall
    exact .inr ⟨hsafe _, hnone⟩
  · exact .inl hcall

theorem Released.proceed {r : Nat} (h : s.Released r) (id : Nat) {next : Option (Call F)}
    (hnext : ∀ call, next = some call → call.stored = none) :
    (s.proceed id next).Released r where
  drawn := by simpa using h.drawn
  dead := by simpa using h.dead
  unused k call hcall := by
    rw [proceed_get] at hcall
    split at hcall
    · rw [hnext call hcall]
      exact fun heq => by cases heq
    · exact h.unused k call hcall

/-- Going on to delete passwords that are released. -/
theorem Custody.proceed_delete (h : Custody s) (id : Nat) {r : Nat} {mark : Bool}
    {rest : List Nat} (hrefs : ∀ q ∈ r :: rest, s.Released q) :
    Custody (s.proceed id (some (.deletePassword r mark rest))) := by
  have hnone : ∀ call : Call F, some (.deletePassword r mark rest) = some call →
      call.stored = none := by
    intro call hcall
    obtain rfl := Option.some.inj hcall
    rfl
  refine h.proceed id fun call hcall => ⟨?_, hnone call hcall⟩
  obtain rfl := Option.some.inj hcall
  exact fun q hq => (hrefs q hq).proceed id hnone

theorem Custody.proceed_purge (h : Custody s) (id : Nat) {refs : List Nat}
    (hrefs : ∀ q ∈ refs, s.Released q) : Custody (s.proceed id (purgeNext refs)) := by
  cases refs with
  | nil => exact h.finish id
  | cons r rest => exact h.proceed_delete id hrefs

/-! ## Enrolling -/

/-- A password that is stored under a new reference. -/
theorem Custody.store (h : Custody s) (password : String) : Custody { s with
    secretStore := s.secretStore.set s.draws password
    draws := s.draws + 1 } := by
  have hother : ∀ r, r < s.draws →
      (s.secretStore.set s.draws password).get r = s.secretStore.get r :=
    fun r hr => Table.get_set_ne _ _ (Nat.ne_of_lt hr)
  have hreleased : ∀ r, s.Released r → Released { s with
      secretStore := s.secretStore.set s.draws password
      draws := s.draws + 1 } r :=
    fun r hr => ⟨Nat.lt_succ_of_lt hr.drawn, hr.dead, hr.unused⟩
  refine ⟨h.joined, fun e x hx => Nat.lt_succ_of_lt (h.drawn e x hx), h.own, ?_, ?_,
    ?_, h.sent, ?_, h.once, h.approved, h.single⟩
  · intro e row x hrow hx hneeded
    obtain ⟨body, now, hentry, hbody, hstored⟩ := h.kept e row x hrow hx hneeded
    exact ⟨body, now, hentry, hbody, (hother _ (h.drawn e x hx)).trans hstored⟩
  · intro e x hx hdeleted
    exact (hother _ (h.drawn e x hx)).trans (h.marked e x hx hdeleted)
  · intro e body r now hentry
    obtain ⟨hdrawn, hstored⟩ := h.honest e body r now hentry
    refine ⟨Nat.lt_succ_of_lt hdrawn, ?_⟩
    rwa [hother r hdrawn]
  · intro id call hcall
    have hsafe := h.calls id call hcall
    cases call with
    | enroll body r =>
        obtain ⟨hstored, hdrawn, hunused⟩ := hsafe
        exact ⟨(hother r hdrawn).trans hstored, Nat.lt_succ_of_lt hdrawn, hunused⟩
    | deletePassword r mark rest => exact fun q hq => hreleased q (hsafe q hq)
    | markDeleted r rest =>
        exact ⟨(hother r (hsafe.2 r (by simp)).drawn).trans hsafe.1,
          fun q hq => hreleased q (hsafe.2 q hq)⟩
    | mediatePassword worker _ _ | openSession worker _ _ | session worker _ => exact hsafe
    | _ => trivial

/-- The reference of an enrollment to come is one that no other call has. -/
theorem Custody.stored_lt (h : Custody s) {id : Nat} {call : Call F}
    (hcall : s.calls.get id = some call) {r : Nat} (hr : call.stored = some r) :
    r < s.draws ∧ ∀ e x, s.database.details.get e = some x → x.passwordSecretRef ≠ r := by
  have hsafe := h.calls id call hcall
  cases call with
  | enroll body q =>
      obtain rfl := Option.some.inj hr
      exact hsafe.2
  | _ => cases hr

theorem Custody.enroll (h : Custody s) (σ : Setting F) (body : EnrollmentRequest F)
    (env : Surroundings) : Custody (s.enroll σ body env) := by
  unfold ControlPlane.enroll
  split
  · exact h
  · have hstore := h.store body.mt5Password
    dsimp only
    split
    · refine ⟨hstore.joined, fun e x hx => Nat.lt_succ_of_lt (hstore.drawn e x hx),
        hstore.own, hstore.kept, hstore.marked, fun e b r now hentry => ?_, hstore.sent,
          ?_, ?_, hstore.approved,
        hstore.single⟩
      · obtain ⟨hdrawn, hstored⟩ := hstore.honest e b r now hentry
        exact ⟨Nat.lt_succ_of_lt hdrawn, hstored⟩
      · intro id call hcall
        rw [ControlPlane.spawn, Table.get_set] at hcall
        split at hcall
        · obtain rfl := Option.some.inj hcall
          refine ⟨Table.get_set_self .., Nat.lt_succ_of_lt (Nat.lt_succ_self _),
            fun e x hx => ?_⟩
          exact Nat.ne_of_lt (h.drawn e x hx)
        · have hsafe := hstore.calls id call hcall
          have hrelease : ∀ q, s.Released q → Released (ControlPlane.spawn { s with
              secretStore := s.secretStore.set s.draws body.mt5Password
              draws := s.draws + 1 } (.enroll body s.draws)) q := by
            intro q hq
            refine ⟨Nat.lt_succ_of_lt (Nat.lt_succ_of_lt hq.drawn), hq.dead,
              fun k c hc => ?_⟩
            rw [ControlPlane.spawn, Table.get_set] at hc
            split at hc
            · obtain rfl := Option.some.inj hc
              exact fun heq => Nat.ne_of_gt hq.drawn (Option.some.inj heq)
            · exact hq.unused k c hc
          have hold := h.calls id call hcall
          cases call with
          | enroll b r =>
              exact ⟨hsafe.1, Nat.lt_succ_of_lt hsafe.2.1, hsafe.2.2⟩
          | deletePassword r mark rest => exact fun q hq => hrelease q (hold q hq)
          | markDeleted r rest => exact ⟨hsafe.1, fun q hq => hrelease q (hold.2 q hq)⟩
          | mediatePassword worker _ _ | openSession worker _ _ | session worker _ =>
              exact hsafe
          | _ => trivial
      · intro i j call call' r hi hj hr hr'
        rw [ControlPlane.spawn, Table.get_set] at hi hj
        split at hi
        · next hid =>
            obtain rfl := Option.some.inj hi
            obtain rfl := Option.some.inj hr
            split at hj
            · next hjd => exact hid.trans hjd.symm
            · exact absurd (h.stored_lt hj hr').1 (Nat.lt_irrefl _)
        · split at hj
          · obtain rfl := Option.some.inj hj
            obtain rfl := Option.some.inj hr'
            exact absurd (h.stored_lt hi hr).1 (Nat.lt_irrefl _)
          · exact h.once i j call call' r hi hj hr hr'
    · exact h.frame (fun e => rfl) rfl (fun w => rfl) rfl (.of_eq rfl) (Nat.le_succ _)
        fun id call hcall => .inl hcall
    · exact hstore

/-- The enrollment of a call whose password is stored is added. -/
theorem Custody.enrolled (h : Custody s) {id : Nat} {body : EnrollmentRequest F}
    {r e now : Nat} {invite : Invite} {challenge : Challenge}
    (hcall : s.calls.get id = some (.enroll body r))
    (hnew : s.database.ledger.enrollments.get e = none) : Custody (({ s with
      database := s.database.enrolled body r e now invite challenge
      draws := s.draws + 2
      trail := .enrolled e body r now :: s.trail }).finish id) := by
  obtain ⟨hstored, hdrawn, hunused⟩ := h.calls id _ hcall
  have hsame : ∀ k, k ≠ e →
      (s.database.enrolled body r e now invite challenge).details.get k =
        s.database.details.get k :=
    fun k hk => Table.get_set_ne _ _ hk
  have hsame' : ∀ k, k ≠ e →
      (s.database.enrolled body r e now invite challenge).ledger.enrollments.get k =
        s.database.ledger.enrollments.get k := fun k hk => Table.get_set_ne _ _ hk
  have hdetail : (s.database.enrolled body r e now invite challenge).details.get e =
      some ⟨body.publicKeyPem, r, none, ⟨body.registrationInvite⟩, none⟩ :=
        Table.get_set_self ..
  have hrow :
      (s.database.enrolled body r e now invite challenge).ledger.enrollments.get e =
      some ⟨body.login, body.server, .pending, now + minutes 15⟩ := Table.get_set_self ..
  have hold : ∀ k call, (({ s with
      database := s.database.enrolled body r e now invite challenge
      draws := s.draws + 2
      trail := .enrolled e body r now :: s.trail }).finish id).calls.get k = some call →
      k ≠ id ∧ s.calls.get k = some call := by
    intro k call hk
    obtain ⟨hk, hne⟩ := (Table.get_delete_eq_some ..).1 hk
    exact ⟨by simpa using hne, hk⟩
  have hreleased : ∀ q, s.Released q → (({ s with
      database := s.database.enrolled body r e now invite challenge
      draws := s.draws + 2
      trail := .enrolled e body r now :: s.trail }).finish id).Released q := by
    intro q hq
    have hqr : r ≠ q := fun heq => hq.unused id _ hcall (congrArg some heq)
    refine ⟨Nat.lt_add_right 2 hq.drawn, fun k row x hrow' hx href => ?_, fun k call hk =>
      hq.unused k call (hold k call hk).2⟩
    by_cases hk : k = e
    · subst hk
      obtain rfl := Option.some.inj (hdetail.symm.trans hx)
      exact absurd href hqr
    · exact hq.dead k row x ((hsame' k hk).symm.trans hrow')
        ((hsame k hk).symm.trans hx) href
  have hwas : ∀ w row, s.database.ledger.workers.get w = some row →
      row.enrollmentId ≠ e := by
    rintro w row hw rfl
    obtain ⟨er, her, -⟩ := h.approved w row hw
    rw [hnew] at her
    cases her
  constructor
  · intro k
    by_cases hk : k = e
    · subst hk
      exact (congrArg Option.isSome hdetail).trans (congrArg Option.isSome hrow).symm
    · exact (congrArg Option.isSome (hsame k hk)).trans
        ((h.joined k).trans (congrArg Option.isSome (hsame' k hk)).symm)
  · intro k x hx
    by_cases hk : k = e
    · subst hk
      obtain rfl := Option.some.inj (hdetail.symm.trans hx)
      exact Nat.lt_add_right 2 hdrawn
    · exact Nat.lt_add_right 2 (h.drawn k x ((hsame k hk).symm.trans hx))
  · intro k k' x x' hx hx' href
    by_cases hk : k = e <;> by_cases hk' : k' = e
    · exact hk.trans hk'.symm
    · subst hk
      obtain rfl := Option.some.inj (hdetail.symm.trans hx)
      exact absurd href.symm (hunused k' x' ((hsame k' hk').symm.trans hx'))
    · subst hk'
      obtain rfl := Option.some.inj (hdetail.symm.trans hx')
      exact absurd href (hunused k x ((hsame k hk).symm.trans hx))
    · exact h.own k k' x x' ((hsame k hk).symm.trans hx)
        ((hsame k' hk').symm.trans hx') href
  · intro k row x hrow' hx hneeded
    by_cases hk : k = e
    · subst hk
      obtain rfl := Option.some.inj (hdetail.symm.trans hx)
      obtain rfl := Option.some.inj (hrow.symm.trans hrow')
      exact ⟨body, now, List.mem_cons_self, rfl, hstored⟩
    · obtain ⟨b, t, hentry, hbody, hpassword⟩ :=
        h.kept k row x ((hsame' k hk).symm.trans hrow')
        ((hsame k hk).symm.trans hx) hneeded
      exact ⟨b, t, List.mem_cons_of_mem _ hentry, hbody, hpassword⟩
  · intro k x hx hdeleted
    by_cases hk : k = e
    · subst hk
      obtain rfl := Option.some.inj (hdetail.symm.trans hx)
      exact absurd rfl hdeleted
    · exact h.marked k x ((hsame k hk).symm.trans hx) hdeleted
  · intro k b q t hentry
    obtain heq | hentry := List.mem_cons.1 hentry
    · cases heq
      exact ⟨Nat.lt_add_right 2 hdrawn, .inr hstored⟩
    · obtain ⟨hq, hpassword⟩ := h.honest k b q t hentry
      exact ⟨Nat.lt_add_right 2 hq, hpassword⟩
  · intro worker password nonce hentry
    obtain heq | hentry := List.mem_cons.1 hentry
    · cases heq
    · obtain ⟨b, hbrings, heq⟩ := h.sent worker password nonce hentry
      exact ⟨b, hbrings.mono fun _ => List.mem_cons_of_mem _, heq⟩
  · intro k call hk
    obtain ⟨hne, hkeep⟩ := hold k call hk
    have hsafe := h.calls k call hkeep
    cases call with
    | enroll b q =>
        refine ⟨hsafe.1, Nat.lt_add_right 2 hsafe.2.1, fun k' x hx => ?_⟩
        by_cases hk' : k' = e
        · subst hk'
          obtain rfl := Option.some.inj (hdetail.symm.trans hx)
          exact fun heq => hne (h.once k id _ _ q hkeep hcall rfl (congrArg some heq))
        · exact hsafe.2.2 k' x ((hsame k' hk').symm.trans hx)
    | deletePassword q mark rest => exact fun p hp => hreleased p (hsafe p hp)
    | markDeleted q rest => exact ⟨hsafe.1, fun p hp => hreleased p (hsafe.2 p hp)⟩
    | mediatePassword worker _ _ | openSession worker _ _ | session worker _ =>
        obtain ⟨b, hbrings⟩ := hsafe
        exact ⟨b, hbrings.mono fun _ => List.mem_cons_of_mem _⟩
    | _ => trivial
  · intro i j call call' q hi hj
    exact h.once i j call call' q (hold i call hi).2 (hold j call' hj).2
  · intro w row hw
    obtain ⟨er, her, hstatus⟩ := h.approved w row hw
    exact ⟨er, (hsame' _ (hwas w row hw)).trans her, hstatus⟩
  · exact h.single

/-! ## Approving, rejecting, expiring and deleting -/

/-- A transaction that changes rows of the database and needs no password that was not
needed. -/
theorem Custody.commit (h : Custody s) {d : Database} {entries : List (Entry F)}
    (hentries : ∀ entry ∈ entries, s.Fair entry)
    (hdetails : ∀ e x', d.details.get e = some x' →
      ∃ x, s.database.details.get e = some x ∧
      x'.passwordSecretRef = x.passwordSecretRef ∧
      (x'.passwordSecretDeletedAt = x.passwordSecretDeletedAt ∨
        s.secretStore.get x.passwordSecretRef = none))
    (henrollments : ∀ e row', d.ledger.enrollments.get e = some row' →
      ∃ row, s.database.ledger.enrollments.get e = some row ∧ row'.account = row.account ∧
        (Needed row' → Needed row))
    (hjoined : ∀ e, (d.details.get e).isSome = (d.ledger.enrollments.get e).isSome)
    (happroved : ∀ w row, d.ledger.workers.get w = some row → ∃ er,
      d.ledger.enrollments.get row.enrollmentId = some er ∧ er.status = .approved ∧
      er.account = row.account)
    (hsingle : ∀ w v x y, d.ledger.workers.get w = some x →
      d.ledger.workers.get v = some y →
      x.enrollmentId = y.enrollmentId → w = v) : Custody { s with
      database := d
      draws := s.draws + 2
      trail := entries ++ s.trail } :=
  h.ease ⟨hdetails, henrollments, hjoined, fun _ => .inl rfl,
    ⟨entries, rfl, hentries⟩, Nat.le_add_right _ 2, fun _ _ hcall => .inl hcall,
    happroved, hsingle⟩

theorem Custody.approve (h : Custody s) {e w : Nat} {row : Enrollment}
    {detail : EnrollmentDetail} {superseded : List Nat} {approvedBy : String}
    {c : Certificate} {entries : List (Entry F)}
    (hentries : ∀ entry ∈ entries, s.Fair entry)
    (hrow : s.database.ledger.enrollments.get e = some row)
    (hpending : row.status = .pending) (hdetail : s.database.details.get e = some detail) :
    Custody { s with
      database := s.database.approved e w row detail superseded approvedBy c
      draws := s.draws + 2
      trail := entries ++ s.trail } := by
  have hworker :
      ∀ v x, (s.database.ledger.approved e w row superseded).workers.get v = some x →
      v ≠ w → ∃ x', s.database.ledger.workers.get v = some x' ∧
        x'.enrollmentId = x.enrollmentId ∧
        x'.account = x.account := by
    intro v x hx hv
    simp only [ControlLedger.approved, Table.get_set_ne _ _ hv,
      ControlLedger.get_revokeRows] at hx
    split at hx
    · obtain ⟨x', hx', rfl⟩ := Option.map_eq_some_iff.1 hx
      exact ⟨x', hx', rfl, rfl⟩
    · exact ⟨x, hx, rfl, rfl⟩
  have hnew : ∀ x, (s.database.ledger.approved e w row superseded).workers.get w = some x →
      x.enrollmentId = e ∧ row.account = x.account := by
    intro x hx
    obtain rfl := Option.some.inj ((Table.get_set_self ..).symm.trans hx)
    exact ⟨rfl, rfl⟩
  have hnot : ∀ v x, s.database.ledger.workers.get v = some x → x.enrollmentId ≠ e := by
    rintro v x hx rfl
    obtain ⟨er, her, hstatus, -⟩ := h.approved v x hx
    obtain rfl := Option.some.inj (hrow.symm.trans her)
    rw [hpending] at hstatus
    cases hstatus
  refine h.commit hentries ?_ ?_ ?_ ?_ ?_
  · intro k x' hx'
    simp only [Database.approved, Table.get_set] at hx'
    split at hx'
    · next hk =>
        obtain rfl := Option.some.inj hx'
        exact ⟨detail, hk ▸ hdetail, rfl, .inl rfl⟩
    · exact ⟨x', hx', rfl, .inl rfl⟩
  · intro k row' hrow'
    simp only [Database.approved, ControlLedger.approved, Table.get_set] at hrow'
    split at hrow'
    · next hk =>
        obtain rfl := Option.some.inj hrow'
        exact ⟨row, hk ▸ hrow, rfl, fun _ => .inl hpending⟩
    · exact ⟨row', hrow', rfl, id⟩
  · intro k
    simp only [Database.approved, ControlLedger.approved, Table.get_set]
    split
    · rfl
    · exact h.joined k
  · intro v x hx
    simp only [Database.approved] at hx ⊢
    by_cases hv : v = w
    · subst hv
      obtain ⟨henrollment, haccount⟩ := hnew x hx
      rw [henrollment]
      exact ⟨_, Table.get_set_self .., rfl, haccount⟩
    · obtain ⟨x', hx', heq, haccount⟩ := hworker v x hx hv
      obtain ⟨er, her, hstatus, hbody⟩ := h.approved v x' hx'
      rw [← heq]
      exact ⟨er, (Table.get_set_ne _ _ (hnot v x' hx')).trans her, hstatus,
        hbody.trans haccount⟩
  · intro v u x y hx hy heq
    simp only [Database.approved] at hx hy
    by_cases hv : v = w <;> by_cases hu : u = w
    · exact hv.trans hu.symm
    · subst hv
      obtain ⟨y', hy', hye, -⟩ := hworker u y hy hu
      exact absurd (hye.trans (heq.symm.trans (hnew x hx).1)) (hnot u y' hy')
    · subst hu
      obtain ⟨x', hx', hxe, -⟩ := hworker v x hx hv
      exact absurd (hxe.trans (heq.trans (hnew y hy).1)) (hnot v x' hx')
    · obtain ⟨x', hx', hxe, -⟩ := hworker v x hx hv
      obtain ⟨y', hy', hye, -⟩ := hworker u y hy hu
      exact h.single v u x' y' hx' hy' ((hxe.trans heq).trans hye.symm)

/-- Enrollments that are not approved lose what life they had. -/
theorem Custody.close (h : Custody s) {rows : Table Nat Enrollment}
    {details : Table Nat EnrollmentDetail} {entries : List (Entry F)}
    (hentries : ∀ entry ∈ entries, s.Fair entry)
    (hrows : ∀ e, rows.get e = s.database.ledger.enrollments.get e ∨
      ∃ row row', s.database.ledger.enrollments.get e = some row ∧ rows.get e = some row' ∧
        row'.account = row.account ∧ row.status ≠ .approved ∧ ¬Needed row')
    (hdetails : ∀ e, (details.get e).map
        (fun x => (x.passwordSecretRef, x.passwordSecretDeletedAt)) =
      (s.database.details.get e).map fun x =>
      (x.passwordSecretRef, x.passwordSecretDeletedAt)) :
    Custody { s with
      database := { s.database with
        ledger := { s.database.ledger with enrollments := rows }
        details := details }
      draws := s.draws + 2
      trail := entries ++ s.trail } := by
  refine h.commit hentries ?_ ?_ ?_ ?_ h.single
  · intro e x' hx'
    have hmap := hdetails e
    rw [hx'] at hmap
    obtain ⟨x, hx, hpair⟩ := Option.map_eq_some_iff.1 hmap.symm
    exact ⟨x, hx, (congrArg Prod.fst hpair).symm, .inl (congrArg Prod.snd hpair).symm⟩
  · intro e row' hrow'
    obtain hsame | ⟨row, row'', hrow, hrow'', haccount, -, hnot⟩ := hrows e
    · exact ⟨row', hsame ▸ hrow', rfl, id⟩
    · obtain rfl := Option.some.inj (hrow''.symm.trans hrow')
      exact ⟨row, hrow, haccount, fun hneeded => absurd hneeded hnot⟩
  · intro e
    have hsome : (details.get e).isSome = (s.database.details.get e).isSome := by
      simpa using congrArg Option.isSome (hdetails e)
    rw [hsome, h.joined e]
    obtain hsame | ⟨row, row', hrow, hrow', -⟩ := hrows e
    · rw [hsame]
    · rw [hrow, hrow']
      rfl
  · intro w row hw
    obtain ⟨er, her, hstatus⟩ := h.approved w row hw
    obtain hsame | ⟨er', row', her', -, -, hnot, -⟩ := hrows row.enrollmentId
    · exact ⟨er, hsame.trans her, hstatus⟩
    · obtain rfl := Option.some.inj (her.symm.trans her')
      exact absurd hstatus.1 hnot

/-- After a change of rows, a reference whose only enrollment is not needed is released. -/
theorem Custody.released (h : Custody s) {d : Database}
    {entries : List (Entry F)} {r : Nat} {e : Nat} {x : EnrollmentDetail}
    (hx : s.database.details.get e = some x) (hr : x.passwordSecretRef = r)
    (hdetails : ∀ e x', d.details.get e = some x' →
      ∃ x, s.database.details.get e = some x ∧
      x'.passwordSecretRef = x.passwordSecretRef)
    (hdead : ∀ row, d.ledger.enrollments.get e = some row → ¬Needed row) :
    Released { s with
      database := d
      draws := s.draws + 2
      trail := entries ++ s.trail } r where
  drawn := Nat.lt_add_right 2 (hr ▸ h.drawn e x hx)
  dead k row y' hrow hy' href := by
    obtain ⟨y, hy, hyref⟩ := hdetails k y' hy'
    obtain rfl := h.own k e y x hy hx ((hyref.symm.trans href).trans hr.symm)
    exact hdead row hrow
  unused id call hcall hstored := (h.stored_lt hcall hstored).2 e x hx hr

theorem Custody.delete (h : Custody s) {l : ControlLedger} {w : Nat} {row : WorkerRow}
    {entries : List (Entry F)} (hentries : ∀ entry ∈ entries, s.Fair entry)
    (hrow : s.database.ledger.workers.get w = some row)
    (hworkers : l.workers = s.database.ledger.workers.delete fun k _ => k == w)
    (henrollments : l.enrollments =
      s.database.ledger.enrollments.delete fun k _ => k == row.enrollmentId) :
      Custody { s with
      database := s.database.deleted l w row.enrollmentId
      draws := s.draws + 2
      trail := entries ++ s.trail } := by
  have hold : ∀ v x, l.workers.get v = some x →
      s.database.ledger.workers.get v = some x ∧ v ≠ w := by
    intro v x hx
    rw [hworkers] at hx
    obtain ⟨hx, hne⟩ := (Table.get_delete_eq_some ..).1 hx
    exact ⟨hx, by simpa using hne⟩
  refine h.commit hentries ?_ ?_ ?_ ?_ ?_
  · intro e x' hx'
    exact ⟨x', ((Table.get_delete_eq_some ..).1 hx').1, rfl, .inl rfl⟩
  · intro e row' hrow'
    simp only [Database.deleted, henrollments] at hrow'
    exact ⟨row', ((Table.get_delete_eq_some ..).1 hrow').1, rfl, id⟩
  · intro e
    simp only [Database.deleted, henrollments]
    by_cases he : e = row.enrollmentId
    · rw [Table.get_delete_gone fun _ => by simp [he],
        Table.get_delete_gone fun _ => by simp [he]]
      rfl
    · rw [Table.get_delete_keep fun _ => by simpa using he,
        Table.get_delete_keep fun _ => by simpa using he]
      exact h.joined e
  · intro v x hx
    simp only [Database.deleted] at hx ⊢
    obtain ⟨hx, hv⟩ := hold v x hx
    obtain ⟨er, her, hstatus⟩ := h.approved v x hx
    refine ⟨er, ?_, hstatus⟩
    rw [henrollments, Table.get_delete_keep fun _ => by
      simpa using fun heq => hv (h.single v w x row hx hrow heq)]
    exact her
  · intro v u x y hx hy heq
    exact h.single v u x y (hold v x hx).1 (hold u y hy).1 heq

/-- Passwords whose deletion is marked are gone already. -/
theorem Custody.eases_mark (h : Custody s) {r : Nat} (now : Nat) (es : List Nat)
    (hgone : s.secretStore.get r = none)
    (hes : ∀ e ∈ es, ∀ x, s.database.details.get e = some x → x.passwordSecretRef = r) :
    Eases s { s with
      database := { s.database with
        details :=
          Database.updateRows (fun x => { x with passwordSecretDeletedAt := some now }) es
          s.database.details }
      draws := s.draws + 2 } := by
  have hget := Database.get_updateRows (f := fun x : EnrollmentDetail => { x with
    passwordSecretDeletedAt := some now }) (fun _ => rfl) es s.database.details
  refine ⟨fun e x' hx' => ?_, fun e row hrow => ⟨row, hrow, rfl, id⟩, fun e => ?_,
    fun _ => .inl rfl, .of_eq rfl, Nat.le_add_right _ 2, fun _ _ hcall => .inl hcall,
    h.approved, h.single⟩
  · have hrow := (hget e).symm.trans hx'
    split at hrow
    · next he =>
        obtain ⟨x, hx, rfl⟩ := Option.map_eq_some_iff.1 hrow
        exact ⟨x, hx, rfl, .inr ((hes e he x hx) ▸ hgone)⟩
    · exact ⟨x', hrow, rfl, .inl rfl⟩
  · refine (congrArg Option.isSome (hget e)).trans (Eq.trans ?_ (h.joined e))
    split
    · exact Option.isSome_map
    · rfl

/-- A password that is released goes. -/
theorem Custody.eases_drop (h : Custody s) {r : Nat} (hr : s.Released r) :
    Eases s { s with secretStore := s.secretStore.delete fun k _ => k == r } := by
  refine ⟨fun e x hx => ⟨x, hx, rfl, .inl rfl⟩,
    fun e row hrow => ⟨row, hrow, rfl, id⟩, h.joined,
    fun q => ?_, .of_eq rfl, Nat.le_refl _, fun _ _ hcall => .inl hcall, h.approved,
    h.single⟩
  by_cases hq : q = r
  · exact .inr ⟨Table.get_delete_gone fun _ => by simp [hq], hq ▸ hr⟩
  · exact .inl (Table.get_delete_keep fun _ => by simpa using hq)

/-! ## A whole step -/

/-- A transaction that ends its call. -/
theorem Custody.transact (h : Custody s) {α : Type} {id : Nat} {t : Database.Locked α}
    {entries : α → List (Entry F)}
    (hok : ∀ a d, t.run s.database = .ok (a, d) → Custody { s with
      database := d
      draws := s.draws + 2
      trail := entries a ++ s.trail }) :
        Custody (s.transact id t (fun _ => none) entries) :=
  transact_invariant (fun a d hrun => (hok a d hrun).finish id) fun _ _ => h.finish id

/-- A transaction on other tables, or on columns that play no part here. -/
theorem Custody.aside (h : Custody s) {d : Database} {entries : List (Entry F)}
    (hentries : ∀ entry ∈ entries, s.Fair entry)
    (hdetails : ∀ e, (d.details.get e).map
        (fun x => (x.passwordSecretRef, x.passwordSecretDeletedAt)) =
      (s.database.details.get e).map fun x =>
      (x.passwordSecretRef, x.passwordSecretDeletedAt))
    (henrollments : d.ledger.enrollments = s.database.ledger.enrollments)
    (hworkers : ∀ w, (d.ledger.workers.get w).map (fun x => (x.enrollmentId, x.account)) =
      (s.database.ledger.workers.get w).map fun x => (x.enrollmentId, x.account)) :
      Custody { s with
      database := d
      draws := s.draws + 2
      trail := entries ++ s.trail } :=
  h.frame hdetails henrollments hworkers rfl ⟨entries, rfl, hentries⟩
    (Nat.le_add_right _ 2) fun _ _ hcall => .inl hcall

theorem Custody.expire (h : Custody s) (id now : Nat) :
    Custody (s.transact id (Database.expirePendingEnrollments now)
      (fun r => r.toOption.bind fun p => purgeNext p.2) fun p => p.1.map .closed) := by
  refine transact_invariant (fun reply d hrun => ?_) fun _ _ => h.finish id
  obtain ⟨rfl, rfl⟩ := Database.expirePendingEnrollments_ok hrun
  have hget :=
    Database.get_updateRows (f := fun row : Enrollment => { row with status := .expired })
    (fun _ => rfl) (s.database.dueEnrollments now) s.database.ledger.enrollments
  refine Custody.proceed_purge (h.close (by simp [Fair]) (fun e => ?_) fun _ => rfl) id
    fun q hq => ?_
  · by_cases he : e ∈ s.database.dueEnrollments now
    · obtain ⟨row, hrow, hdue⟩ := Database.mem_dueEnrollments he
      refine .inr ⟨row, { row with status := .expired }, hrow, ?_, rfl, ?_,
        by simp [Needed]⟩
      · rw [hget, if_pos he, hrow]
        rfl
      · obtain ⟨hpending, -⟩ | hexpired := hdue
        · simp [hpending]
        · simp [hexpired]
    · exact .inl ((hget e).trans (if_neg he))
  · obtain ⟨e, he, hdetail⟩ := List.mem_filterMap.1 hq
    obtain ⟨x, hx, href⟩ := Option.map_eq_some_iff.1 hdetail
    refine h.released hx href (fun _ x' hx' => ⟨x', hx', rfl⟩) fun row hrow => ?_
    have hafter := (hget e).symm.trans hrow
    rw [if_pos he] at hafter
    obtain ⟨before, -, rfl⟩ := Option.map_eq_some_iff.1 hafter
    simp [Needed]

theorem Custody.reject (h : Custody s) (id e : Nat) (username : String) :
    Custody (s.transact id (Database.rejectEnrollment e username)
      (fun r => r.toOption.map fun secretRef => .deletePassword secretRef true [])
      fun _ => [.closed e]) := by
  refine transact_invariant (fun ref d hrun => ?_) fun _ _ => h.finish id
  obtain ⟨row, detail, hrow, hdetail, rfl, hcase⟩ := Database.rejectEnrollment_ok hrun
  obtain ⟨hrejected, rfl⟩ | ⟨hpending, rfl⟩ := hcase
  · refine Custody.proceed_delete
      (h.aside (by simp [Fair]) (fun _ => rfl) rfl fun _ => rfl) id
      fun q hq => ?_
    obtain rfl := List.mem_singleton.1 hq
    refine h.released hdetail rfl (fun _ x hx => ⟨x, hx, rfl⟩) fun row' hrow' => ?_
    obtain rfl := Option.some.inj (hrow.symm.trans hrow')
    simp [Needed, hrejected]
  · refine Custody.proceed_delete (h.close (by simp [Fair]) (fun k => ?_) fun k => ?_) id
      fun q hq => ?_
    · rw [Table.get_set]
      split
      · next hk =>
          exact .inr ⟨row, _, hk ▸ hrow, rfl, rfl, by simp [hpending], by simp [Needed]⟩
      · exact .inl rfl
    · rw [Table.get_set]
      split
      · next hk =>
          rw [hk, hdetail]
          rfl
      · rfl
    · obtain rfl := List.mem_singleton.1 hq
      refine h.released hdetail rfl (fun k x hx => ?_) fun row' hrow' => ?_
      · rw [Table.get_set] at hx
        split at hx
        · next hk =>
            obtain rfl := Option.some.inj hx
            exact ⟨detail, hk ▸ hdetail, rfl⟩
        · exact ⟨x, hx, rfl⟩
      · obtain rfl := Option.some.inj ((Table.get_set_self ..).symm.trans hrow')
        simp [Needed]

theorem Custody.deleteWorker (h : Custody s) (id w : Nat) :
    Custody (s.transact id (Database.deleteWorker w)
      (fun r => r.toOption.map fun p => .deletePassword p.2 false []) fun p =>
      [.deleted w p.1]) := by
  refine transact_invariant (fun reply d hrun => ?_) fun _ _ => h.finish id
  obtain ⟨row, detail, l, hrow, hdetail, rfl, hworkers, henrollments, rfl⟩ :=
    Database.deleteWorker_ok hrun
  refine (h.delete (by simp [Fair]) hrow hworkers henrollments).proceed_delete id
    fun q hq => ?_
  obtain rfl := List.mem_singleton.1 hq
  refine h.released hdetail rfl (fun k x hx => ?_) fun row' hrow' => ?_
  · exact ⟨x, ((Table.get_delete_eq_some ..).1 hx).1, rfl⟩
  · simp only [Database.deleted, henrollments] at hrow'
    have hne := ((Table.get_delete_eq_some ..).1 hrow').2
    simp at hne

theorem Custody.serveAdmin (h : Custody s) (id : Nat) (username : String)
    (env : Surroundings) (request : AdminRequest) :
    Custody (s.serveAdmin id username env request) := by
  cases request with
  | createRegistrationInvite role =>
      refine h.transact fun a d hrun => ?_
      obtain ⟨-, -, rfl⟩ := Database.createRegistrationInvite_ok hrun
      exact h.aside (by simp [Fair]) (fun _ => rfl) rfl fun _ => rfl
  | revokeRegistrationInvite invite =>
      refine h.transact fun a d hrun => ?_
      obtain ⟨row, -, -, rfl⟩ := Database.revokeRegistrationInvite_ok hrun
      exact h.aside (by simp [Fair]) (fun _ => rfl) rfl fun _ => rfl
  | listEnrollments => exact h.expire id env.now
  | revokeWorker w =>
      refine h.transact fun a d hrun => ?_
      obtain ⟨l, hop, rfl⟩ := Database.onLedger_ok.1 hrun
      obtain ⟨row, hrow, rfl⟩ := ControlLedger.revoke_ok hop
      refine h.aside (by simp [Fair]) (fun _ => rfl) rfl fun v => ?_
      rw [Table.get_set]
      split
      · next hv =>
          rw [hv, hrow]
          rfl
      · rfl
  | deleteWorker w => exact h.deleteWorker id w
  | approveEnrollment e =>
      simp only [ControlPlane.serveAdmin]
      split
      · exact h.finish id
      · refine h.proceed id fun call hcall => ?_
        obtain rfl := Option.some.inj hcall
        exact ⟨trivial, rfl⟩
  | rejectEnrollment e => exact h.reject id e username

/-- The password of a request that is refused is to go, and no other call has it. -/
theorem Custody.refuse (h : Custody s) {id r : Nat} {body : EnrollmentRequest F}
    (hcall : s.calls.get id = some (.enroll body r)) :
    Custody (s.proceed id (some (.deletePassword r false []))) := by
  obtain ⟨-, hdrawn, hunused⟩ := h.calls id _ hcall
  refine h.proceed id fun call hnext => ?_
  obtain rfl := Option.some.inj hnext
  refine ⟨fun q hq => ?_, rfl⟩
  obtain rfl := List.mem_singleton.1 hq
  refine ⟨by simpa using hdrawn, fun e row x _ hx href => ?_, fun k call hk hstored => ?_⟩
  · exact absurd href (hunused e x (by simpa using hx))
  · rw [proceed_get] at hk
    split at hk
    · obtain rfl := Option.some.inj hk
      cases hstored
    · next hne => exact hne (h.once k id _ _ q hk hcall hstored rfl)

theorem Custody.serveEnroll (h : Custody s) {id r : Nat}
    {body : EnrollmentRequest F} {now : Nat}
    (hcall : s.calls.get id = some (.enroll body r)) :
    Custody (s.transact id (Database.createEnrollment body r s.draws now) (afterEnroll r)
      fun _ => [.enrolled s.draws body r now]) := by
  refine transact_invariant (fun u d hrun => ?_) fun e _ => ?_
  · obtain ⟨invite, challenge, -, -, -, -, -, -, hnew, rfl⟩ :=
      Database.createEnrollment_ok hrun
    exact h.enrolled hcall hnew
  · unfold afterEnroll
    split
    · exact h.refuse hcall
    · exact h.finish id

theorem Custody.serveDelete (h : Custody s) {id r : Nat} {mark : Bool} {rest : List Nat}
    (env : Surroundings) (σ : Setting F)
    (hcall : s.calls.get id = some (.deletePassword r mark rest)) :
    Custody (s.serve σ id env (.deletePassword r mark rest)) := by
  have hrefs := h.calls id _ hcall
  have hdrop := h.ease (h.eases_drop (hrefs r List.mem_cons_self))
  simp only [ControlPlane.serve]
  split
  · refine hdrop.proceed id fun call hnext => ?_
    unfold afterDelete at hnext ⊢
    split at hnext
    · next hmark =>
        obtain rfl := Option.some.inj hnext
        refine ⟨⟨?_, fun q hq => ?_⟩, rfl⟩
        · rw [proceed_secretStore]
          exact Table.get_delete_gone fun _ => by simp
        · refine ((hrefs q hq).ease
            (h.eases_drop (hrefs r List.mem_cons_self))).proceed id ?_
          rw [if_pos hmark]
          intro call hcall
          obtain rfl := Option.some.inj hcall
          rfl
    · cases hnext
  · exact h.finish id
  · exact hdrop.finish id

theorem Custody.serveMark (h : Custody s) {id r : Nat} {rest : List Nat} {now : Nat}
    (hcall : s.calls.get id = some (.markDeleted r rest)) :
    Custody (s.transact id (Database.markPendingPasswordDeleted r now)
      (fun _ => purgeNext rest)
      fun _ => []) := by
  obtain ⟨hgone, hrefs⟩ := h.calls id _ hcall
  have hrest : ∀ q ∈ rest, s.Released q := fun q hq => hrefs q (List.mem_cons_of_mem _ hq)
  refine transact_invariant (fun u d hrun => ?_) fun _ _ => h.proceed_purge id hrest
  obtain rfl := Tx.modify_ok.1 hrun
  have hmark := h.eases_mark now (s.database.details.keys
    fun e detail => detail.passwordSecretRef == r &&
      detail.passwordSecretDeletedAt == none &&
      ((s.database.ledger.enrollments.get e).any fun row =>
        row.status == .expired || row.status == .rejected)) hgone fun e he x hx => by
    obtain ⟨x', hx', hkey⟩ := (Table.mem_keys ..).1 he
    obtain rfl := Option.some.inj (hx.symm.trans hx')
    simp only [Bool.and_eq_true, beq_iff_eq] at hkey
    exact hkey.1.1
  exact (h.ease hmark).proceed_purge id fun q hq => (hrest q hq).ease hmark

theorem Custody.takeRotation (h : Custody s) (σ : Setting F) (id : Nat)
    (body : RotationRequest) (worker : ActiveWorker) (now : Nat) :
    Custody (s.takeRotation σ id body worker now) := by
  have htaken : Custody { s with
      rotationChallenges := s.rotationChallenges.delete fun k _ => k == body.workerId } :=
    h.frame (fun _ => rfl) rfl (fun _ => rfl) rfl (.of_eq rfl) (Nat.le_refl _)
      fun _ _ hcall => .inl hcall
  unfold ControlPlane.takeRotation
  dsimp only
  split
  · exact htaken.finish id
  · split
    · refine Custody.proceed ?_ id fun call hnext => ?_
      · exact htaken.frame (fun _ => rfl) rfl (fun _ => rfl) rfl
          (.cons rfl trivial) (Nat.le_refl _) fun _ _ hcall => .inl hcall
      · obtain rfl := Option.some.inj hnext
        exact ⟨trivial, rfl⟩
    · exact htaken.finish id

/-- The reference of a request never has another password than the one the request
brought. -/
theorem Custody.password (h : Custody s) {worker : ActiveWorker}
    {body : EnrollmentRequest F} (hbrings : s.Brings worker body) {password : String}
    (hpassword : s.secretStore.get worker.passwordSecretRef = some password) :
    password = body.mt5Password := by
  obtain ⟨e, now, hentry⟩ := hbrings.1
  obtain ⟨-, hnone | hstored⟩ := h.honest e body _ now hentry
  · rw [hnone] at hpassword
    cases hpassword
  · exact Option.some.inj (hpassword.symm.trans hstored)

/-- Sending the password of a Worker whose request brought it. -/
theorem Custody.mediated (h : Custody s) {worker : ActiveWorker}
    {body : EnrollmentRequest F} (hbrings : s.Brings worker body)
    {password : String} (nonce : Nat)
    (hpassword : s.secretStore.get worker.passwordSecretRef = some password) :
    Custody { s with trail := .mediated worker password nonce :: s.trail } :=
  h.frame (fun _ => rfl) rfl (fun _ => rfl) rfl
    (.cons rfl ⟨body, hbrings, h.password hbrings hpassword⟩) (Nat.le_refl _)
    fun _ _ hcall => .inl hcall

theorem Custody.sendPassword (h : Custody s) (σ : Setting F) {id nonce : Nat}
    {worker : ActiveWorker} {signature : String} (store : StoreOutcome)
    (hcall : s.calls.get id = some (.mediatePassword worker nonce signature)) :
    Custody (s.sendPassword σ id worker nonce signature store) := by
  obtain ⟨body, hbrings⟩ := h.calls id _ hcall
  unfold ControlPlane.sendPassword
  split
  · next password _ hpassword => exact (h.mediated hbrings nonce hpassword).finish _
  · exact h.finish _

theorem Custody.startSession (h : Custody s) (σ : Setting F) {id nonce : Nat}
    {worker : ActiveWorker} {signature : String}
    (hcall : s.calls.get id = some (.openSession worker nonce signature)) :
    Custody (s.startSession σ id worker nonce signature) := by
  obtain ⟨body, hbrings⟩ := h.calls id _ hcall
  unfold ControlPlane.startSession
  split
  · refine h.proceed id fun call hnext => ?_
    obtain rfl := Option.some.inj hnext
    exact ⟨⟨body, hbrings⟩, rfl⟩
  · exact h.finish _

theorem Custody.requestPassword (h : Custody s) {id nonce : Nat} {worker : ActiveWorker}
    (env : Surroundings) (hcall : s.calls.get id = some (.session worker nonce)) :
    Custody (s.requestPassword id worker nonce env) := by
  obtain ⟨body, hbrings⟩ := h.calls id _ hcall
  unfold ControlPlane.requestPassword
  split
  · exact h.finish _
  · split
    · split
      · next password _ hpassword => exact h.mediated hbrings nonce hpassword
      · exact h.finish _
    · exact h

theorem Custody.serve (h : Custody s) (σ : Setting F) {id : Nat} (env : Surroundings)
    {call : Call F} (hcall : s.calls.get id = some call) :
    Custody (s.serve σ id env call) := by
  cases call with
  | admin username request => exact h.serveAdmin id username env request
  | approve username e =>
      refine h.transact fun c d hrun => ?_
      obtain ⟨row, detail, superseded, t, hrow, hpending, -, hdetail, -, -, -, rfl⟩ :=
        Database.approveEnrollment_ok hrun
      exact h.approve (by simp [Fair]) hrow hpending hdetail
  | enroll body r => exact h.serveEnroll hcall
  | deletePassword r mark rest => exact h.serveDelete env σ hcall
  | markDeleted r rest => exact h.serveMark hcall
  | challengeRotation w publicKeyPem =>
      refine Custody.finish ?_ id
      exact h.frame (fun _ => rfl) rfl (fun _ => rfl) rfl
        (.cons rfl trivial) (Nat.le_succ _) fun _ _ hcall => .inl hcall
  | takeRotation body worker => exact h.takeRotation σ id body worker env.now
  | rotate w publicKeyPem nonce =>
      refine h.transact fun c d hrun => ?_
      obtain ⟨row, detail, old, t, -, -, hdetail, -, -, -, rfl⟩ :=
        Database.rotateWorkerCertificate_ok hrun
      refine h.aside (by simp [Fair]) (fun k => ?_) rfl fun _ => rfl
      simp only [Database.rotated, Table.get_set]
      split
      · next hk =>
          rw [hk, hdetail]
          rfl
      · rfl
  | mediatePassword worker nonce signature => exact h.sendPassword σ env.store hcall
  | openSession worker nonce signature => exact h.startSession σ hcall
  | session worker nonce => exact h.requestPassword env hcall

theorem Custody.withActiveWorker (h : Custody s) (w : Nat) (env : Surroundings)
    {next : ActiveWorker → Call F}
    (hsafe : ∀ worker, ∀ t : ControlPlane F, t.CallSafe (next worker))
    (hnone : ∀ worker, (next worker).stored = none) :
    Custody (s.withActiveWorker w env next) := by
  unfold ControlPlane.withActiveWorker
  split
  · exact h
  · next worker _ =>
      split
      · exact h.spawn (hsafe worker) (hnone worker)
      · exact h

/-- The active Worker's password was brought by the request of its enrollment. -/
theorem Custody.brings (h : Custody s) {w : Nat} {worker : ActiveWorker}
    (hw : s.database.activeWorker w = some worker) : ∃ body, s.Brings worker body := by
  obtain ⟨row, enrollment, detail, hrow, -, henrollment, hdetail, -, heq⟩ :=
    Database.activeWorker_some.1 hw
  obtain ⟨er, her, happroved, haccount⟩ := h.approved w row hrow
  obtain ⟨body, now, hentry, hbody, -⟩ :=
    h.kept row.enrollmentId er detail her hdetail (.inr happroved)
  obtain ⟨hlogin, hserver⟩ := Prod.mk.inj (hbody.symm.trans haccount)
  rw [heq]
  exact ⟨body, ⟨_, now, hentry⟩, hlogin, hserver⟩

theorem Custody.withCertificate (h : Custody s) (w : Nat) (certificate : Certificate)
    (env : Surroundings) {next : ActiveWorker → Nat → Call F}
    (hsafe : ∀ worker nonce t, (∃ body, Brings t worker body) →
      CallSafe t (next worker nonce))
    (hnone : ∀ worker nonce, (next worker nonce).stored = none) :
    Custody (s.withCertificate w certificate env next) := by
  unfold ControlPlane.withCertificate
  split
  · exact h
  · next worker hw =>
      split
      · obtain ⟨active, hactive, hlogin, hserver, href⟩ :=
          Database.workerForCertificate_ok hw
        obtain ⟨body, ⟨e, now, hentry⟩, hbody⟩ := h.brings hactive
        have hbrings : s.Brings worker body := by
          rw [Brings, href, hlogin, hserver]
          exact ⟨⟨e, now, hentry⟩, hbody⟩
        refine h.frame (fun _ => rfl) rfl (fun _ => rfl) rfl (.of_eq rfl)
          (Nat.le_add_right s.draws 2) fun k call hcall => ?_
        rw [ControlPlane.spawn, Table.get_set] at hcall
        split at hcall
        · obtain rfl := Option.some.inj hcall
          exact .inr ⟨hsafe _ _ _ ⟨body, hbrings⟩, hnone _ _⟩
        · exact .inl hcall
      · exact h

theorem Custody.authorize (h : Custody s) (token csrfToken : Option Nat)
    (request : AdminRequest) (now : Nat) :
    Custody (s.authorize token csrfToken request now) := by
  unfold ControlPlane.authorize
  split
  · refine Custody.spawn ?_ (fun _ => trivial) rfl
    exact h.frame (fun _ => rfl) rfl (fun _ => rfl) rfl
      (.cons rfl trivial) (Nat.le_refl _) fun _ _ hcall => .inl hcall
  · exact h.frame (fun _ => rfl) rfl (fun _ => rfl) rfl (.of_eq rfl) (Nat.le_refl _)
      fun _ _ hcall => .inl hcall

theorem Custody.pairing (h : Custody s) (op : ControlLedger.Op)
    (hop : op.OnRegistry = false) :
    Custody
      { s with
        database := { s.database with ledger := (s.database.ledger.perform op).2 } } := by
  obtain ⟨hworkers, henrollments⟩ :=
    ControlLedger.perform_sameRegistry s.database.ledger hop
  exact h.frame (fun _ => rfl) henrollments
    (fun w => congrArg (fun t : Table Nat WorkerRow =>
    (t.get w).map fun x => (x.enrollmentId, x.account)) hworkers) rfl (.of_eq rfl)
      (Nat.le_refl _)
    fun _ _ hcall => .inl hcall

theorem Custody.enrollmentChallenge (h : Custody s) (now : Nat) : Custody { s with
    database := ((Database.issueEnrollmentChallenge s.draws now).commit s.database).2
    draws := s.draws + 1
    trail := .challengeIssued s.draws now :: s.trail } := by
  obtain ⟨table, heq, -⟩ := Database.issueEnrollmentChallenge_commit s.draws now s.database
  rw [heq]
  exact h.frame (fun _ => rfl) rfl (fun _ => rfl) rfl (.cons rfl trivial) (Nat.le_succ _)
    fun _ _ hcall => .inl hcall

theorem Custody.perform (h : Custody s) (σ : Setting F) (label : Label F) :
    Custody (s.perform σ label) := by
  cases label with
  | administrators op =>
      exact h.frame (fun _ => rfl) rfl (fun _ => rfl) rfl (.of_eq rfl) (Nat.le_refl _)
        fun _ _ hcall => .inl hcall
  | pairing op =>
      simp only [ControlPlane.perform]
      split
      · next hop => exact h.pairing op hop
      · exact h
  | authorize token csrfToken request now => exact h.authorize token csrfToken request now
  | enrollmentChallenge now => exact h.enrollmentChallenge now
  | enroll body env => exact h.enroll σ body env
  | expirePendingSecrets now => exact h.expire s.draws now
  | rotationChallenge w publicKeyPem env =>
      exact h.withActiveWorker w env (fun _ _ => trivial) fun _ => rfl
  | rotate body env =>
      exact h.withActiveWorker body.workerId env (fun _ _ => trivial) fun _ => rfl
  | mediatePassword w certificate signature env
  | openSession w certificate signature env =>
      simp only [ControlPlane.perform]
      exact h.withCertificate w certificate env (fun _ _ _ hbrings => hbrings)
        fun _ _ => rfl
  | serve id env =>
      simp only [ControlPlane.perform]
      split
      · exact h
      · next call hcall => exact h.serve σ env hcall
  | abandon id => exact h.finish id
  | restart =>
      have hledger := h.pairing .restart rfl
      exact hledger.frame (fun _ => rfl) rfl (fun _ => rfl) rfl (.of_eq rfl)
        (Nat.le_refl _) fun _ _ hcall => by cases hcall

theorem Custody.run (h : Custody s) (σ : Setting F) (labels : List (Label F)) :
    Custody (s.run σ labels) := by
  induction labels generalizing s with
  | nil => exact h
  | cons label labels ih => exact ih (h.perform σ label)

/-! ## Every run -/

/-- The secret store has the password of every enrollment that is pending or approved, the
one its request brought, under a reference of its own; a Worker's enrollment is an approved
one of its account; a password marked deleted is gone; and a password that was sent to a
Worker is the one a request of the Worker's account brought. -/
structure PasswordsKept (s : ControlPlane F) : Prop where
  needed : ∀ e row, s.database.ledger.enrollments.get e = some row → Needed row →
    ∃ x body now, s.database.details.get e = some x ∧
      .enrolled e body x.passwordSecretRef now ∈ s.trail ∧
      row.account = (body.login, body.server) ∧
      s.secretStore.get x.passwordSecretRef = some body.mt5Password
  separate : ∀ e e' x x', s.database.details.get e = some x →
      s.database.details.get e' = some x' →
    x.passwordSecretRef = x'.passwordSecretRef → e = e'
  worker : ∀ w row, s.database.ledger.workers.get w = some row → ∃ er,
    s.database.ledger.enrollments.get row.enrollmentId = some er ∧ er.status = .approved ∧
      er.account = row.account
  deleted : ∀ e x, s.database.details.get e = some x → x.passwordSecretDeletedAt ≠ none →
    s.secretStore.get x.passwordSecretRef = none
  sent : ∀ worker password nonce, .mediated worker password nonce ∈ s.trail →
    ∃ body, s.Brings worker body ∧ password = body.mt5Password

theorem Custody.passwordsKept (h : Custody s) : PasswordsKept s where
  needed e row hrow hneeded := by
    have hsome : (s.database.details.get e).isSome := by
      rw [h.joined, hrow]
      rfl
    obtain ⟨x, hx⟩ := Option.isSome_iff_exists.1 hsome
    obtain ⟨body, now, hkept⟩ := h.kept e row x hrow hx hneeded
    exact ⟨x, body, now, hx, hkept⟩
  separate := h.own
  worker := h.approved
  deleted := h.marked
  sent := h.sent

/-- Whatever rejections, clean-ups, deletions, crashes and failures of
the store a run has. -/
theorem passwords_kept (σ : Setting F) (labels : List (Label F)) :
    PasswordsKept ((empty : ControlPlane F).run σ labels) :=
  (custody_empty.run σ labels).passwordsKept

def Sample.setting : Setting Empty :=
  ⟨.empty, ⟨Unit, fun _ => some (), fun _ => true, fun _ => some [], fun _ _ _ => true⟩⟩

def Sample.certificate : Certificate := ⟨9, 7, "s", "k", 8, 8 + hours (30 * 24), 10⟩

/-- An invite, an enrollment, its approval, and the Worker asks for its password, then for
it once more on a session. -/
def Sample.labels : List (Label Empty) :=
  [.administrators (.createAdmin "A" "p"), .administrators (.login "A" "p" 0),
    .authorize (some 0) (some 1) (.createRegistrationInvite "worker") 1,
    .serve 0 { now := 2 }, .enrollmentChallenge 3,
    .enroll ⟨1, 7, "s", .empty, .empty, "w", 3, "k", "g"⟩ { now := 4 },
    .serve 5 { now := 5 }, .authorize (some 0) (some 1) (.approveEnrollment 6) 6,
    .serve 8 { now := 7 }, .serve 8 { now := 8, issuedAt := some 8 },
    .mediatePassword 9 certificate "g" { now := 9 }, .serve 12 { now := 10 },
    .openSession 9 certificate "g" { now := 11 }, .serve 14 { now := 12 },
    .serve 14 { now := 13 }]

example : ((empty.run Sample.setting Sample.labels).trail.countP fun
    | .mediated worker password _ => worker.workerId == 9 && password == "w"
    | _ => false) = 2 := by decide +kernel

end ControlPlane

end Access

end PairCell
