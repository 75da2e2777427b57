import PairCell.Lib.Table
import PairCell.Lib.Trail

/-!
# Administrator sessions

`create_admin`, `reset_admin_password`, `authenticate_admin`, `validate_session`,
`resume_admin_session` and `logout_admin` of the control ledger, with the
handlers that call them.  Instants are microseconds.  A token is the number of
its draw and any number may be presented as one.  The trail says what was
committed and is read by no operation.
-/

namespace PairCell.Access

open Lib Lib.Trail

def seconds (n : Nat) : Nat := n * 1000000

def minutes (n : Nat) : Nat := seconds (n * 60)

def hours (n : Nat) : Nat := minutes (n * 60)

/-- What `_hash` makes of a token; no two tokens share it. -/
structure Digest where
  token : Nat
  deriving DecidableEq, Repr

/-- What the password hasher makes of a password; it verifies that password only. -/
structure PasswordHash where
  password : String
  deriving DecidableEq, Repr

inductive AdminFault where
  | ledger (message : String)
  | authentication (message : String)
  deriving DecidableEq, Repr

/-- A row of `admin_sessions`, which is keyed by the hash of the token. -/
structure SessionRow where
  username : String
  csrfHash : Digest
  lastSeenAt : Nat
  expiresAt : Nat
  deriving DecidableEq, Repr

inductive AdminEntry where
  | created (username password : String)
  | reset (username password : String)
  | loggedIn (username password : String) (token csrfToken now : Nat)
  | accepted (username : String) (token : Nat) (csrfToken : Option Nat)
      (requireCsrf : Bool)
      (now : Nat)
  | renewed (token csrfToken : Nat)
  | ended (token : Nat)
  deriving DecidableEq, Repr

/-- A request that was validated and whose second transaction is to come. -/
inductive AdminCall where
  | renew (token : Nat)
  | logout (token : Nat)
  deriving DecidableEq, Repr

structure Administrators where
  admins : Table String PasswordHash
  adminSessions : Table Digest SessionRow
  calls : List AdminCall
  draws : Nat
  trail : List AdminEntry

structure AdminSession where
  token : Nat
  csrfToken : Nat
  expiresAt : Nat
  deriving DecidableEq, Repr

namespace Administrators

def empty : Administrators := ⟨.empty, .empty, [], 0, []⟩

def createAdmin (username password : String) (a : Administrators) :
    Except AdminFault Unit × Administrators :=
  match a.admins.get username with
  | some _ => (.error (.ledger s!"Administrator '{username}' already exists."), a)
  | none => (.ok (), { a with
      admins := a.admins.set username ⟨password⟩
      trail := .created username password :: a.trail })

/-- The `rowcount` of an UPDATE: a database that does not report it gives -1. -/
def rowcount (reported : Bool) (rows : Nat) : Int := if reported then rows else -1

def resetAdminPassword (reported : Bool) (username password : String)
    (a : Administrators) :
    Except AdminFault Unit × Administrators :=
  if rowcount reported (a.admins.get username).isSome.toNat ≠ 1 then
    (.error (.ledger s!"Administrator '{username}' does not exist."), a)
  else (.ok (), { a with
    admins := a.admins.set username ⟨password⟩
    adminSessions := a.adminSessions.delete fun _ row => row.username == username
    trail := .reset username password :: a.trail })

/-- The token and the CSRF token are the next two draws. -/
def authenticateAdmin (username password : String) (now : Nat) (a : Administrators) :
    Except AdminFault AdminSession × Administrators :=
  if a.admins.get username = some ⟨password⟩ then
    let expiresAt := now + hours 8
    (.ok ⟨a.draws, a.draws + 1, expiresAt⟩, { a with
      adminSessions :=
        a.adminSessions.set ⟨a.draws⟩ ⟨username, ⟨a.draws + 1⟩, now, expiresAt⟩
      draws := a.draws + 2
      trail := .loggedIn username password a.draws (a.draws + 1) now :: a.trail })
  else (.error (.authentication "Invalid administrator credentials."), a)

def logoutAdmin (token : Nat) (a : Administrators) :
    Except AdminFault Unit × Administrators :=
  match a.adminSessions.get ⟨token⟩ with
  | none => (.error (.authentication "Invalid administrator session."), a)
  | some _ => (.ok (), { a with
      adminSessions := a.adminSessions.delete fun k _ => k == ⟨token⟩
      trail := .ended token :: a.trail })

/-- An authentication error commits, so an expired session is gone for good. -/
def validateSession (token : Nat) (csrfToken : Option Nat) (requireCsrf : Bool) (now : Nat)
    (a : Administrators) : Except AdminFault String × Administrators :=
  match a.adminSessions.get ⟨token⟩ with
  | none => (.error (.authentication "Invalid administrator session."), a)
  | some row =>
      if now ≥ row.expiresAt ∨ now > row.lastSeenAt + minutes 30 then
        (.error (.authentication "Administrator session has expired."), { a with
          adminSessions := a.adminSessions.delete fun k _ => k == ⟨token⟩
          trail := .ended token :: a.trail })
      else if requireCsrf = true ∧ csrfToken.map Digest.mk ≠ some row.csrfHash then
        (.error (.authentication "CSRF validation failed."), a)
      else (.ok row.username, { a with
        adminSessions := a.adminSessions.set ⟨token⟩ { row with lastSeenAt := now }
        trail := .accepted row.username token csrfToken requireCsrf now :: a.trail })

/-- The second transaction of `resume_admin_session`; the session may be gone by then. -/
def renewCsrf (token : Nat) (a : Administrators) : Nat × Administrators :=
  let sessions := match a.adminSessions.get ⟨token⟩ with
    | none => a.adminSessions
    | some row => a.adminSessions.set ⟨token⟩ { row with csrfHash := ⟨a.draws⟩ }
  (a.draws, { a with
    adminSessions := sessions
    draws := a.draws + 1
    trail := .renewed token a.draws :: a.trail })

def requireAdmin (token csrfToken : Option Nat) (requireCsrf : Bool) (now : Nat)
    (a : Administrators) : Except AdminFault String × Administrators :=
  match token with
  | none => (.error (.authentication "Administrator login is required."), a)
  | some token => a.validateSession token csrfToken requireCsrf now

/-- A validated request goes on to its second transaction. -/
def goOn (call : AdminCall) : Except AdminFault String × Administrators → Administrators
  | (.ok _, a) => { a with calls := call :: a.calls }
  | (.error _, a) => a

/-- What the two commands of the console and the handlers do, one transaction at a time. -/
inductive Op where
  | createAdmin (username password : String)
  /-- `reported`: DuckDB tells how many rows the UPDATE changed. -/
  | resetAdminPassword (reported : Bool) (username password : String)
  | login (username password : String) (now : Nat)
  | requireAdmin (token csrfToken : Option Nat) (requireCsrf : Bool) (now : Nat)
  | resumeSession (token now : Nat)
  | renewCsrf (token : Nat)
  | logout (token : Nat) (csrfToken : Option Nat) (now : Nat)
  | logoutAdmin (token : Nat)
  | restart

def perform (a : Administrators) : Op → Administrators
  | .createAdmin username password => (a.createAdmin username password).2
  | .resetAdminPassword reported username password =>
      (a.resetAdminPassword reported username password).2
  | .login username password now => (a.authenticateAdmin username password now).2
  | .requireAdmin token csrfToken requireCsrf now =>
      (a.requireAdmin token csrfToken requireCsrf now).2
  | .resumeSession token now =>
      goOn (.renew token) (a.validateSession token none false now)
  | .renewCsrf token =>
      if .renew token ∈ a.calls then
        (renewCsrf token { a with calls := a.calls.erase (.renew token) }).2
      else a
  | .logout token csrfToken now =>
      goOn (.logout token) (a.validateSession token csrfToken true now)
  | .logoutAdmin token =>
      if .logout token ∈ a.calls then
        (logoutAdmin token { a with calls := a.calls.erase (.logout token) }).2
      else a
  | .restart => { a with calls := [] }

def run (a : Administrators) (ops : List Op) : Administrators := ops.foldl perform a

end Administrators

/-! ## What the trail says of a session -/

namespace AdminEntry

/-- The entry ends the sessions of the user or the one session. -/
def ends (username : String) (token : Nat) : AdminEntry → Bool
  | .reset u _ => u == username
  | .ended t => t == token
  | _ => false

/-- When the entry used the session. -/
def useOf (token : Nat) : AdminEntry → Option Nat
  | .accepted _ t _ _ now => if t = token then some now else none
  | _ => none

/-- The CSRF token that the entry gave the session. -/
def csrfOf (token : Nat) : AdminEntry → Option Nat
  | .renewed t csrfToken => if t = token then some csrfToken else none
  | _ => none

def passwordOf (username : String) : AdminEntry → Option String
  | .created u password | .reset u password => if u = username then some password else none
  | _ => none

/-- The session that the entry began. -/
def began : AdminEntry → Option Nat
  | .loggedIn _ _ token _ _ => some token
  | _ => none

def update (token : Nat) (d : AdminEntry) (row : SessionRow) : SessionRow :=
  { row with
    csrfHash := ((d.csrfOf token).map Digest.mk).getD row.csrfHash
    lastSeenAt := (d.useOf token).getD row.lastSeenAt }

end AdminEntry

/-- What the newest of the entries says, and `start` if none does. -/
def latest (f : AdminEntry → Option Nat) (start : Nat) (newer : List AdminEntry) : Nat :=
  (newer.filterMap f).head?.getD start

theorem latest_cons (f : AdminEntry → Option Nat) (start : Nat) (d : AdminEntry)
    (newer : List AdminEntry) :
    latest f start (d :: newer) = (f d).getD (latest f start newer) := by
  cases h : f d with
  | none => simp [latest, h]
  | some n => simp [latest, h]

/-- The session of `token` as the trail has it. -/
def Held (token : Nat) (row : SessionRow) : List AdminEntry → Prop :=
  Found fun newer e => ∃ password csrfToken now,
    e = .loggedIn row.username password token csrfToken now ∧
    (∀ d ∈ newer, d.ends row.username token = false) ∧
    row.csrfHash = ⟨latest (AdminEntry.csrfOf token) csrfToken newer⟩ ∧
    row.lastSeenAt = latest (AdminEntry.useOf token) now newer ∧
    row.expiresAt = now + hours 8

theorem held_cons {token : Nat} {row : SessionRow} {d : AdminEntry} {t : List AdminEntry} :
    Held token row (d :: t) ↔
      (∃ password csrfToken now, d = .loggedIn row.username password token csrfToken now ∧
        row.csrfHash = ⟨csrfToken⟩ ∧ row.lastSeenAt = now ∧
        row.expiresAt = now + hours 8) ∨
      d.ends row.username token = false ∧ ∃ old, Held token old t ∧
        d.update token old = row := by
  rw [Held, found_cons]
  refine or_congr (by simp [latest]) ⟨?_, ?_⟩
  · rintro ⟨newer, e, older, rfl, password, csrfToken, now, rfl, hends, hcsrf, hseen, hexp⟩
    refine ⟨hends d (by simp),
      ⟨row.username, ⟨latest (AdminEntry.csrfOf token) csrfToken newer⟩,
        latest (AdminEntry.useOf token) now newer, row.expiresAt⟩,
        ⟨newer, _, older, rfl, password,
      csrfToken, now, rfl, fun x hx => hends x (by simp [hx]), rfl, rfl, hexp⟩, ?_⟩
    rw [latest_cons] at hcsrf hseen
    cases row
    cases h : d.csrfOf token <;> simp_all [AdminEntry.update]
  · rintro ⟨hd, old, ⟨newer, e, older, rfl, password, csrfToken, now, rfl,
      hends, hcsrf, hseen, hexp⟩, rfl⟩
    refine ⟨newer, _, older, rfl, password, csrfToken, now, rfl, ?_, ?_, ?_, hexp⟩
    · intro x hx
      obtain rfl | hx := List.mem_cons.1 hx
      · exact hd
      · exact hends x hx
    · rw [latest_cons]
      cases h : d.csrfOf token <;> simp [AdminEntry.update, h, hcsrf]
    · rw [latest_cons]
      simp [AdminEntry.update, hseen]

/-! ## The tables and the trail agree -/

/-- The password last set for the user. -/
def lastPassword (username : String) (t : List AdminEntry) : Option String :=
  (t.filterMap (AdminEntry.passwordOf username)).head?

theorem lastPassword_cons (username : String) (d : AdminEntry) (t : List AdminEntry) :
    lastPassword username (d :: t) =
      (d.passwordOf username).or (lastPassword username t) := by
  cases h : d.passwordOf username <;> simp [lastPassword, h]

/-- The token was issued by a login less than eight hours ago, its last accepted use is at
most half an hour ago, nothing ended the session since and, where it is asked for, the CSRF
token is the last one issued for it. -/
def Live (username : String) (token : Nat) (csrfToken : Option Nat)
    (requireCsrf : Bool) (now : Nat) :
    List AdminEntry → Prop :=
  Found fun newer e => ∃ password csrfIssued loggedInAt,
    e = .loggedIn username password token csrfIssued loggedInAt ∧
    (∀ d ∈ newer, d.ends username token = false) ∧
    now < loggedInAt + hours 8 ∧
    now ≤ latest (AdminEntry.useOf token) loggedInAt newer + minutes 30 ∧
    (requireCsrf = true → csrfToken =
      some (latest (AdminEntry.csrfOf token) csrfIssued newer))

/-- A login gave the password last set for its user and began a new session; what was
accepted was live. -/
def Grounds (older : List AdminEntry) : AdminEntry → Prop
  | .loggedIn username password token _ _ =>
      lastPassword username older = some password ∧ ∀ d ∈ older, d.began ≠ some token
  | .accepted username token csrfToken requireCsrf now =>
      Live username token csrfToken requireCsrf now older
  | _ => True

structure Administrators.Recorded (a : Administrators) : Prop where
  rows : ∀ token row, a.adminSessions.get ⟨token⟩ = some row ↔ Held token row a.trail
  drawn : ∀ e ∈ a.trail, ∀ token, e.began = some token → token < a.draws
  passwords : ∀ username, (a.admins.get username).map PasswordHash.password =
    lastPassword username a.trail
  grounded : Grounded Grounds a.trail

namespace Administrators

variable {a : Administrators}

theorem recorded_empty : Recorded empty where
  rows token row := by
    simp only [empty, Table.get_empty, reduceCtorEq, false_iff]
    exact found_nil _
  drawn e he := by cases he
  passwords username := rfl
  grounded := grounded_nil

/-- An entry that begins no session changes each row as it says. -/
theorem Recorded.push (h : a.Recorded) {d : AdminEntry} (hd : d.began = none)
    (hgrounds : Grounds a.trail d) {a' : Administrators}
    (htrail : a'.trail = d :: a.trail) (hdraws : a.draws ≤ a'.draws)
    (hrows : ∀ token, a'.adminSessions.get ⟨token⟩ =
      ((a.adminSessions.get ⟨token⟩).filter fun row => !d.ends row.username token).map
        (d.update token))
    (hadmins : ∀ username, (a'.admins.get username).map PasswordHash.password =
      (d.passwordOf username).or ((a.admins.get username).map PasswordHash.password)) :
    a'.Recorded where
  rows token row := by
    rw [hrows, htrail, held_cons, Option.map_eq_some_iff]
    simp only [Option.filter_eq_some_iff, Bool.not_eq_true', h.rows]
    constructor
    · rintro ⟨old, ⟨hold, hends⟩, rfl⟩
      exact .inr ⟨hends, old, hold, rfl⟩
    · rintro (⟨password, csrfToken, now, rfl, -⟩ | ⟨hends, old, hold, rfl⟩)
      · cases hd
      · exact ⟨old, ⟨hold, hends⟩, rfl⟩
  drawn e he token htoken := by
    rw [htrail] at he
    obtain rfl | he := List.mem_cons.1 he
    · rw [hd] at htoken
      cases htoken
    · exact Nat.lt_of_lt_of_le (h.drawn e he token htoken) hdraws
  passwords username := by
    rw [hadmins, h.passwords, htrail, lastPassword_cons]
  grounded := by
    rw [htrail]
    exact grounded_cons.2 ⟨hgrounds, h.grounded⟩

/-- Only what the invariant does not speak of changed. -/
theorem Recorded.same (h : a.Recorded) {a' : Administrators}
    (hadmins : a'.admins = a.admins) (hsessions : a'.adminSessions = a.adminSessions)
    (hdraws : a.draws ≤ a'.draws) (htrail : a'.trail = a.trail) : a'.Recorded where
  rows token row := by rw [hsessions, htrail, h.rows]
  drawn e he token htoken := by
    rw [htrail] at he
    exact Nat.lt_of_lt_of_le (h.drawn e he token htoken) hdraws
  passwords username := by rw [hadmins, htrail, h.passwords]
  grounded := by rw [htrail]; exact h.grounded

theorem Recorded.createAdmin (h : a.Recorded) (username password : String) :
    (a.createAdmin username password).2.Recorded := by
  unfold Administrators.createAdmin
  split
  · exact h
  · refine h.push (d := .created username password) rfl trivial rfl (Nat.le_refl _)
      (fun token => ?_) fun u => ?_
    · cases a.adminSessions.get ⟨token⟩ <;> rfl
    · rw [Table.get_set]
      by_cases hu : u = username
      · simp [AdminEntry.passwordOf, hu]
      · simp [AdminEntry.passwordOf, hu, Ne.symm hu]

theorem Recorded.resetAdminPassword (h : a.Recorded) (reported : Bool)
    (username password : String) :
    (a.resetAdminPassword reported username password).2.Recorded := by
  unfold Administrators.resetAdminPassword
  split
  · exact h
  · refine h.push (d := .reset username password) rfl trivial rfl (Nat.le_refl _)
      (fun token => ?_) fun u => ?_
    · ext row
      simp [Table.get_delete_eq_some, AdminEntry.ends, AdminEntry.update,
        AdminEntry.csrfOf, AdminEntry.useOf, eq_comm (a := username)]
    · rw [Table.get_set]
      by_cases hu : u = username
      · simp [AdminEntry.passwordOf, hu]
      · simp [AdminEntry.passwordOf, hu, Ne.symm hu]

theorem Recorded.authenticateAdmin (h : a.Recorded)
    (username password : String) (now : Nat) :
    (a.authenticateAdmin username password now).2.Recorded := by
  unfold Administrators.authenticateAdmin
  split
  · next hverified =>
      have hfresh : ∀ d ∈ a.trail, d.began ≠ some a.draws :=
        fun d hd htoken => Nat.lt_irrefl _ (h.drawn d hd _ htoken)
      have hnone : ∀ row, ¬Held a.draws row a.trail := by
        rintro row hheld
        obtain ⟨newer, e, he, _, _, _, rfl, -⟩ := hheld.mem
        exact hfresh _ he rfl
      refine ⟨fun token row => ?_, fun e he token htoken => ?_, fun u => ?_, ?_⟩
      · simp only [held_cons, Table.get_set, AdminEntry.loggedIn.injEq,
          AdminEntry.ends, true_and]
        by_cases htoken : token = a.draws
        · subst htoken
          constructor
          · intro hrow
            obtain rfl := Option.some.inj ((if_pos rfl).symm.trans hrow)
            exact .inl ⟨password, _, now, ⟨rfl, rfl, rfl, rfl, rfl⟩, rfl, rfl, rfl⟩
          · rintro (⟨_, _, _, ⟨rfl, rfl, -, rfl, rfl⟩, hcsrf, rfl, hexp⟩ | ⟨old, hold, -⟩)
            · cases row
              simp_all
            · exact absurd hold (hnone old)
        · have hne : (⟨token⟩ : Digest) ≠ ⟨a.draws⟩ :=
            fun heq => htoken (Digest.mk.inj heq)
          rw [if_neg hne, h.rows]
          constructor
          · exact fun hheld => .inr ⟨row, hheld, rfl⟩
          · rintro (⟨_, _, _, ⟨-, -, rfl, -⟩, -⟩ | ⟨old, hold, rfl⟩)
            · exact absurd rfl htoken
            · exact hold
      · obtain rfl | he := List.mem_cons.1 he
        · obtain rfl := Option.some.inj htoken
          exact Nat.lt_add_of_pos_right (by decide)
        · exact Nat.lt_add_right 2 (h.drawn e he token htoken)
      · rw [lastPassword_cons, h.passwords]
        rfl
      · exact grounded_cons.2 ⟨⟨by rw [← h.passwords, hverified]; rfl, hfresh⟩, h.grounded⟩
  · exact h

/-- A session that ends is gone and the others are as they were. -/
theorem Recorded.end (h : a.Recorded) (token : Nat) : Recorded { a with
    adminSessions := a.adminSessions.delete fun k _ => k == ⟨token⟩
    trail := .ended token :: a.trail } := by
  refine h.push (d := .ended token) rfl trivial rfl (Nat.le_refl _)
    (fun other => ?_) fun u => rfl
  ext row
  simp [Table.get_delete_eq_some, AdminEntry.ends, AdminEntry.update, AdminEntry.csrfOf,
    AdminEntry.useOf, eq_comm (a := token)]

theorem Recorded.logoutAdmin (h : a.Recorded) (token : Nat) :
    (a.logoutAdmin token).2.Recorded := by
  unfold Administrators.logoutAdmin
  split
  · exact h
  · exact h.end token

private theorem filter_keep {α : Type} (o : Option α) : (o.filter fun _ => true) = o := by
  cases o <;> rfl

/-- A row that is written anew changes as the entry says. -/
theorem Recorded.rewrite (h : a.Recorded) {token : Nat} {row : SessionRow} {d : AdminEntry}
    {draws : Nat} (hrow : a.adminSessions.get ⟨token⟩ = some row) (hd : d.began = none)
    (hgrounds : Grounds a.trail d) (hends : ∀ u t, d.ends u t = false)
    (hpassword : ∀ u, d.passwordOf u = none)
    (hother : ∀ t, t ≠ token → d.csrfOf t = none ∧ d.useOf t = none)
    (hdraws : a.draws ≤ draws) :
    Recorded { a with
      adminSessions := a.adminSessions.set ⟨token⟩ (d.update token row)
      draws := draws
      trail := d :: a.trail } := by
  refine h.push hd hgrounds rfl hdraws (fun other => ?_) fun u => by simp [hpassword]
  simp only [hends, Bool.not_false, filter_keep, Table.get_set]
  split
  · next heq =>
      obtain rfl := Digest.mk.inj heq
      rw [hrow]
      rfl
  · next hne =>
      obtain ⟨hcsrf, huse⟩ := hother other fun heq => hne (congrArg Digest.mk heq)
      have hid : d.update other = id := by
        funext row
        simp [AdminEntry.update, hcsrf, huse]
      rw [hid, Option.map_id_apply]

/-- When a session is accepted, read off its row. -/
theorem validateSession_ok {token : Nat} {csrfToken : Option Nat}
    {requireCsrf : Bool} {now : Nat} {username : String} :
    (a.validateSession token csrfToken requireCsrf now).1 = .ok username ↔
      ∃ row, a.adminSessions.get ⟨token⟩ = some row ∧ row.username = username ∧
        now < row.expiresAt ∧ now ≤ row.lastSeenAt + minutes 30 ∧
        (requireCsrf = true → csrfToken.map Digest.mk = some row.csrfHash) := by
  unfold validateSession
  cases hrow : a.adminSessions.get ⟨token⟩ with
  | none => simp
  | some row =>
      simp only [Option.some.injEq, exists_eq_left']
      split
      · next hexpired =>
          simp only [reduceCtorEq, false_iff]
          rintro ⟨-, hlive, hseen, -⟩
          omega
      · next hlive =>
          have htimes : now < row.expiresAt ∧ now ≤ row.lastSeenAt + minutes 30 := by omega
          split
          · next hcsrf => simpa [htimes] using fun _ => hcsrf
          · next hcsrf => simpa [htimes] using fun _ => hcsrf

theorem Recorded.live (h : a.Recorded) {token : Nat} {csrfToken : Option Nat}
    {requireCsrf : Bool} {now : Nat} {username : String} :
    (a.validateSession token csrfToken requireCsrf now).1 = .ok username ↔
      Live username token csrfToken requireCsrf now a.trail := by
  rw [validateSession_ok]
  constructor
  · rintro ⟨row, hrow, rfl, hlive, hseen, hcsrf⟩
    refine ((h.rows token row).1 hrow).mono ?_
    rintro newer e - ⟨password, csrfIssued, loggedInAt, rfl, hends, hissued, hlast, hexp⟩
    refine ⟨password, csrfIssued, loggedInAt, rfl, hends, hexp ▸ hlive, hlast ▸ hseen,
      fun hreq => ?_⟩
    obtain ⟨c, hc, hdigest⟩ := Option.map_eq_some_iff.1 (hcsrf hreq)
    rw [hc, Digest.mk.inj (hdigest.trans hissued)]
  · rintro ⟨newer, e, older, ht, password, csrfIssued, loggedInAt, rfl, hends,
      hlive, hseen, hcsrf⟩
    refine ⟨⟨username, ⟨latest (AdminEntry.csrfOf token) csrfIssued newer⟩,
      latest (AdminEntry.useOf token) loggedInAt newer, loggedInAt + hours 8⟩,
      (h.rows ..).2
      ⟨newer, _, older, ht, password, csrfIssued, loggedInAt, rfl, hends, rfl, rfl, rfl⟩,
      rfl, hlive, hseen, fun hreq => ?_⟩
    rw [hcsrf hreq]
    rfl

theorem Recorded.validateSession (h : a.Recorded) (token : Nat) (csrfToken : Option Nat)
    (requireCsrf : Bool) (now : Nat) :
    (a.validateSession token csrfToken requireCsrf now).2.Recorded := by
  have hlive : ∀ username, (a.validateSession token csrfToken requireCsrf now).1 =
      .ok username →
      Live username token csrfToken requireCsrf now a.trail := fun username => h.live.1
  unfold Administrators.validateSession at hlive ⊢
  split
  · exact h
  · next row hrow =>
      simp only [hrow] at hlive
      split
      · exact h.end token
      · next hfresh =>
          split
          · exact h
          · next hcsrf =>
              have hupdate :
                  (AdminEntry.accepted row.username token csrfToken requireCsrf now).update
                  token row = { row with lastSeenAt := now } := by
                simp [AdminEntry.update, AdminEntry.csrfOf, AdminEntry.useOf]
              rw [← hupdate]
              refine h.rewrite hrow rfl (hlive row.username ?_) (fun _ _ => rfl)
                (fun _ => rfl)
                (fun t ht => ⟨rfl, if_neg (Ne.symm ht)⟩) (Nat.le_refl _)
              rw [if_neg hfresh, if_neg hcsrf]

theorem Recorded.renewCsrf (h : a.Recorded) (token : Nat) :
    (a.renewCsrf token).2.Recorded := by
  unfold Administrators.renewCsrf
  cases hrow : a.adminSessions.get ⟨token⟩ with
  | none =>
      refine h.push (d := .renewed token a.draws) rfl trivial rfl (Nat.le_succ _)
        (fun other => ?_) fun u => rfl
      by_cases hother : other = token
      · rw [hother, hrow]
        rfl
      · cases hget : a.adminSessions.get ⟨other⟩ with
        | none => rfl
        | some row =>
            simp [AdminEntry.ends, AdminEntry.update, AdminEntry.csrfOf, AdminEntry.useOf,
              Ne.symm hother, filter_keep]
  | some row =>
      have hupdate : (AdminEntry.renewed token a.draws).update token row =
          { row with csrfHash := ⟨a.draws⟩ } := by
        simp [AdminEntry.update, AdminEntry.csrfOf, AdminEntry.useOf]
      have hrewrite :=
        h.rewrite (d := .renewed token a.draws) hrow rfl trivial (fun _ _ => rfl)
        (fun _ => rfl) (fun t ht => ⟨if_neg (Ne.symm ht), rfl⟩) (Nat.le_succ _)
      rw [hupdate] at hrewrite
      exact hrewrite

theorem Recorded.goOn {call : AdminCall} {r : Except AdminFault String × Administrators}
    (h : r.2.Recorded) : (Administrators.goOn call r).Recorded := by
  obtain ⟨e | u, a'⟩ := r
  · exact h
  · exact h.same rfl rfl (Nat.le_refl _) rfl

theorem Recorded.perform (h : a.Recorded) (op : Op) : (a.perform op).Recorded := by
  cases op with
  | createAdmin username password => exact h.createAdmin username password
  | resetAdminPassword reported username password =>
      exact h.resetAdminPassword reported username password
  | login username password now => exact h.authenticateAdmin username password now
  | requireAdmin token csrfToken requireCsrf now =>
      cases token with
      | none => exact h
      | some token => exact h.validateSession token csrfToken requireCsrf now
  | resumeSession token now => exact (h.validateSession token none false now).goOn
  | renewCsrf token =>
      simp only [Administrators.perform]
      split
      · have hcalls : Recorded { a with calls := a.calls.erase (.renew token) } :=
          h.same rfl rfl (Nat.le_refl _) rfl
        exact hcalls.renewCsrf token
      · exact h
  | logout token csrfToken now => exact (h.validateSession token csrfToken true now).goOn
  | logoutAdmin token =>
      simp only [Administrators.perform]
      split
      · have hcalls : Recorded { a with calls := a.calls.erase (.logout token) } :=
          h.same rfl rfl (Nat.le_refl _) rfl
        exact hcalls.logoutAdmin token
      · exact h
  | restart => exact h.same rfl rfl (Nat.le_refl _) rfl

theorem Recorded.run (h : a.Recorded) (ops : List Op) : (a.run ops).Recorded := by
  induction ops generalizing a with
  | nil => exact h
  | cons op ops ih => exact ih (h.perform op)

/--
Whatever was committed, in any order and with any clock readings, a session is
accepted exactly when the trail says that it is live; each login gave the
password last set for its user.
-/
theorem session_accepted_iff_live (ops : List Op) :
    let a := empty.run ops
    (∀ token csrfToken requireCsrf now username,
      (a.validateSession token csrfToken requireCsrf now).1 = .ok username ↔
        Live username token csrfToken requireCsrf now a.trail) ∧
    Grounded Grounds a.trail := by
  have h : (empty.run ops).Recorded := recorded_empty.run ops
  exact ⟨fun token csrfToken requireCsrf now username => h.live, h.grounded⟩

end Administrators

end PairCell.Access
