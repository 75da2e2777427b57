import PairCell.Cell

/-!
# What a cell may do

`Permits w a` says when the code of a cell performs the action `a` in the state
`w`.  It is the interface between the code and everything proved about runs:
the modules after this one show that every entry point only performs permitted
actions, and each property of runs is an induction over permitted actions.

`Sound` is the bookkeeping such actions keep.
-/

namespace PairCell

open Lib

/-! ## Guards -/

def Disk.entrySent (d : Disk) (e : EffectId) : Prop :=
  ∃ s ∈ d.sent, s.effect = e ∧ s.payload.isEntry = true

/-- The broker answered an entry order of the effect with a receipt that is no success. -/
def Disk.entryRefused (d : Disk) (e : EffectId) : Prop :=
  ∃ s ∈ d.sent, s.effect = e ∧ s.payload.isEntry = true ∧
    ∃ retcode, s.reply.response = .receipt retcode true ∧ successRetcode retcode = false

/-- The broker answered an order of the effect with this receipt. -/
def Disk.answered (d : Disk) (e : EffectId) (retcode : Option Int) : Prop :=
  ∃ s ∈ d.sent, s.effect = e ∧ s.reply.response = .receipt retcode true

/-- The evidence a change of the entry status rests on. -/
inductive EntryStep (w : World) (a : Attempt) (old l : Leg) : Prop where
  | expired (hold : old.entryStatus = .pending) (hnew : l.entryStatus = .expiredNotStarted)
      (hsent : ¬ w.disk.entrySent (entryEffectId w.cfg a))
  | refused (hold : old.entryStatus = .pending) (hnew : l.entryStatus = .rejected)
      (hsent : ¬ w.disk.entrySent (entryEffectId w.cfg a) ∨
        w.disk.entryRefused (entryEffectId w.cfg a))
  | unknown (hold : old.entryStatus = .pending) (hnew : l.entryStatus = .unknownAfterSend)
  | sent (hold : old.entryStatus = .pending) (hnew : l.entryStatus = .sent)
  | simulated (hold : old.entryStatus = .pending) (hnew : l.entryStatus = .filled)
      (hshadow : w.shadow = true)
  | absent (hold : old.entryStatus = .unknownAfterSend) (hnew : l.entryStatus = .rejected)
      (s : Snapshot) (hread : w.mem.read = some s)
          (hnone : attemptMatches a old.role s = [])
  | observed (hold : old.entryStatus = .sent ∨ old.entryStatus = .unknownAfterSend)
      (hnew : l.entryStatus = .filled) (s : Snapshot) (p : Position)
      (hread : w.mem.read = some s) (hone : attemptMatches a old.role s = [p])

/-- A leg is verified empty against a snapshot without exposure, its open effects
resolved. -/
structure VerifiedEmpty (w : World) (l : Leg) : Prop where
  settled : World.openStatus l.entryStatus = false
  snapshot : ∃ s, w.mem.read = some s ∧ s.positions = [] ∧ s.orders = []
  resolved : ∀ e, l.protectionEffectId = some e ∨ l.closeEffectId = some e →
    w.disk.unresolved e = false

def Disk.journaledAs (d : Disk) (e : EffectId) (p : Payload) : Prop :=
  ∃ row, d.journal.get e = some row ∧ row.payload = p

/-- Where the ticket saved in place of that of `old` comes from. -/
inductive Ticketed (w : World) (a : Attempt) (old : Leg) (new : Option Ticket) : Prop where
  | kept (hsame : new = old.ticket)
  | simulated (hold : old.ticket = none)
      (hnew : new = some (.shadow a.attemptId w.cfg.workerId))
  | observed (hold : old.ticket = none)
      (hopen : old.entryStatus = .sent ∨ old.entryStatus = .unknownAfterSend)
      (s : Snapshot) (p : Position) (hread : w.mem.read = some s)
      (hone : attemptMatches a old.role s = [p]) (hnew : new = some p.text)

inductive ProtectionStep (w : World) (a : Attempt)
    (old new : ProtectionStatus) : Prop where
  | kept (hsame : new = old)
  | decided (hold : old = .rough) (hnew : new = .precise ∨ new = .fallback)
  /-- The peer kept its rough protection, or froze its box. -/
  | followed (p : LegStatus) (hold : old = .precise)
      (hnew : new = .fallback ∨ new = .frozen)
      (hasked : w.script.delivered = some (.legStatus p)) (hid : p.attemptId = a.attemptId)
      (hstatus : acceptedPeerStatus new = some p.status)

/-- The stop loss and the take profit are the expected ones, up to the tick
of the role's plan. -/
def Protects (w : World) (role : Role) (expected : Option Rat × Option Rat)
    (sl tp : Option Rat) :
    Prop :=
  sameProtectionPrice expected.1 sl (w.script.tickOf role) = true ∧
    sameProtectionPrice expected.2 tp (w.script.tickOf role) = true

structure LegStep (w : World) (a : Attempt) (old l : Leg) : Prop where
  attemptId : l.attemptId = old.attemptId
  role : l.role = old.role
  entryEffectId : l.entryEffectId = old.entryEffectId
  ticket : Ticketed w a old l.ticket
  ticketed : l.ticket ≠ none → l.entryStatus = .filled
  fill : l.fillPrice = none ∨ l.ticket ≠ none
  relayed : old.attemptRelayed = true → l.attemptRelayed = true
  dispatched : old.entryDispatched = true → l.entryDispatched = true
  empty : old.emptyVerified = true → l.emptyVerified = true
  entry : l.entryStatus = old.entryStatus ∨ EntryStep w a old l
  verified : l.emptyVerified = true → old.emptyVerified = true ∨ VerifiedEmpty w l
  close : l.closeEffectId = old.closeEffectId
  precise : l.protectionStatus = .precise → l.ticket ≠ none ∧
    (old.protectionStatus = .precise ∨ w.shadow = true ∨
      ∀ e, l.protectionEffectId = some e → w.disk.unresolved e = false)
  protection : l.protectionEffectId = old.protectionEffectId ∨
    old.protectionStatus = .precise ∧
      ∀ e, l.protectionEffectId = some e → w.disk.unresolved e = false
  protectionStatus : ProtectionStep w a old.protectionStatus l.protectionStatus
  prices : old.protectionStatus = .rough ∨ l.protectionStatus ≠ old.protectionStatus ∨
    l.preciseSl = old.preciseSl ∧ l.preciseTp = old.preciseTp
  observed : old.protectionStatus = .rough ∨ old.entryStatus ≠ .filled ∨
    (l.observedSl = old.observedSl ∧ l.observedTp = old.observedTp) ∨
    Protects w l.role (expectedProtection a l) l.observedSl l.observedTp

def Stop.attempt? : Stop → Option Nat
  | .containment e _ => e.attempt?
  | .noPeerProof i => some i
  | .unattributed i => some i
  | .foreignRoute _ => none

def ClosedLeg (l : Leg) : Prop :=
  l.emptyVerified = true ∨ l.entryStatus = .rejected ∨ l.entryStatus = .expiredNotStarted

/-- The four grounds on which a terminal status is reported. -/
inductive ReportGround (w : World) (p : LegStatus) : Prop where
  | leg (a : Attempt) (l : Leg) (ha : w.mem.attempt = some a)
      (hid : a.attemptId = p.attemptId)
      (hl : w.mem.leg = some l) (hclosed : ClosedLeg l)
          (hstatus : p.status ≠ .noAttemptRecord)
  | terminal (r : AttemptRow) (hr : w.disk.rowOf p.attemptId = some r)
      (ht : r.terminal ≠ none)
      (hstatus : p.status ≠ .noAttemptRecord)
  | noRecord (hr : w.disk.rowOf p.attemptId = none)
      (hasked : w.script.delivered = some (.legStatusRequest p.attemptId))
      (hstatus : p.status = .noAttemptRecord)
  | reused (a : Attempt) (r : AttemptRow) (hasked : w.script.delivered = some (.attempt a))
      (hid : a.attemptId = p.attemptId) (hr : w.disk.rowOf p.attemptId = some r)
      (hne : r.attempt ≠ a) (hstatus : p.status ≠ .noAttemptRecord)

/-- The peer's own terminal status, or an attempt that never left this leader. -/
def PeerProof (w : World) (l : Leg) : Prop :=
  w.mem.peerLeg.status ∈ peerTerminalStatuses ∨
    w.mem.peerLeg.status = .unknown ∧ w.cfg.role = .leader ∧ l.attemptRelayed = false

def protectionStatuses : List Status :=
  [.protectionPrecise, .protectionRoughFallback, .protectionFrozen]

def ProtectionGround (w : World) (p : LegStatus) : Prop :=
  ∃ a l, w.mem.attempt = some a ∧ a.attemptId = p.attemptId ∧ w.mem.leg = some l ∧
    acceptedPeerStatus l.protectionStatus = some p.status

def FilledGround (w : World) (p : LegStatus) : Prop :=
  ∃ a l, w.mem.attempt = some a ∧ a.attemptId = p.attemptId ∧ w.mem.leg = some l ∧
    l.entryStatus = .filled

/-- What a pair is confirmed on: exact evidence of both legs, or the leader's word. -/
inductive ConfirmGround (w : World) : Prop where
  | evidence (hrole : w.cfg.role = .leader) (hown : ownEvidenceInconsistency w = none)
      (hpeer : peerEvidenceState w = (true, none))
  | told (a : Attempt) (hrole : w.cfg.role = .follower) (ha : w.mem.attempt = some a)
      (hasked : w.script.delivered = some (.pairEntryConfirmed a.attemptId))

structure ActiveGround (w : World) (a : Attempt) (l : Leg) : Prop where
  attempt : w.mem.attempt = some a
  leg : w.mem.leg = some l
  confirmed : w.mem.pairConfirmed = true
  agreed : acceptedPeerStatus l.protectionStatus = some w.mem.peerLeg.status
  observed : Protects w l.role (expectedProtection a l) l.observedSl l.observedTp

/-- No broker write, observation or send is half done. -/
structure Idle (w : World) : Prop where
  armed : w.mem.armed = none
  writing : w.mem.writing = none
  owed : w.mem.owed = none
  due : w.mem.due = false

/-- What the leg in memory says about the effect about to be prepared. -/
def EffectNamed (l : Leg) (e : EffectId) : EffectKind → Prop
  | .entry => l.entryStatus = .pending
  | .protection => l.protectionEffectId = some e ∧ l.protectionStatus = .rough
  | .close _ => l.closeEffectId = some e
  | .rollback => True
  | .cancel _ => True

def PrepareOwn (w : World) (e : EffectId) : Prop :=
  w.mem.writing = none ∧ ∃ a l kind, w.mem.attempt = some a ∧ w.mem.leg = some l ∧
    e = w.cfg.effect a kind ∧ EffectNamed l e kind ∧ (w.shadow = true → kind = .rollback)

/-- The state in which the entry order of an attempt is handed to the terminal. -/
def EntryDispatch (w : World) (e : EffectId) (p : Payload) : Prop :=
  ∃ a l, w.mem.attempt = some a ∧ w.mem.leg = some l ∧ e = entryEffectId w.cfg a ∧
    p = entryPayload a w.cfg.role ∧ l.entryStatus = .pending ∧ l.entryDispatched = true ∧
    l.emptyVerified = false

def LegNames (w : World) (a : Attempt) (old l : Leg) : Prop :=
  (l = { old with protectionEffectId := some (w.cfg.effect a .protection) } ∧
      old.ticket ≠ none ∧ old.protectionStatus = .rough) ∨
    ∃ t, old.ticket = some t ∧
      l = { old with closeEffectId := some (w.cfg.effect a (.close t)) }

def Payload.target : Payload → Option Ticket
  | .cancel t => some t
  | .close t _ => some t
  | .modifySlTp _ position _ _ => position
  | _ => none

/-- The ticket of the leg, or of an order on the attempt's symbol in the
snapshot just read. -/
def Reaches (w : World) (t : Ticket) : Prop :=
  (∃ l, w.mem.leg = some l ∧ l.ticket = some t) ∨
    ∃ a s o, w.mem.attempt = some a ∧ w.mem.read = some s ∧ o ∈ s.orders ∧
      o.symbol = a.symbol ∧ t = o.text

def Asks (w : World) (p : Payload) : Prop := ∀ t, p.target = some t → Reaches w t

def Permits (w : World) : Action → Prop
  | .adopt a =>
      w.mem.attempt = none ∧ w.mem.needsHuman = none ∧ w.disk.rowOf a.attemptId = none ∧
        a.routeId = w.cfg.routeId ∧
        (w.cfg.role = .follower → w.script.delivered = some (.attempt a)) ∧
        (∃ policy, w.mem.policy = some policy ∧ a.policyHash = policy.hash) ∧
        localReady w = none
  | .refuse a _ =>
      w.cfg.role = .follower ∧ w.disk.rowOf a.attemptId = none ∧
        w.script.delivered = some (.attempt a)
  | .terminate .bothEmptyVerified =>
      Idle w ∧ ∃ a l, w.mem.attempt = some a ∧ w.mem.leg = some l ∧
        l.emptyVerified = true ∧
        PeerProof w l
  | .terminate .noLocalEffectWasEverPrepared =>
      Idle w ∧ w.mem.attempt ≠ none ∧ w.mem.leg = none
  | .terminate (.admissionRejected _) => False
  | .saveLeg l => (w.mem.due = true → l.entryStatus = .sent) ∧
      ∃ a, w.mem.attempt = some a ∧
        match w.mem.leg with
        | none => l = firstLeg w.cfg a ∧ w.mem.state = .entering ∧ w.mem.read = none ∧
            w.mem.recovering = false ∧
            w.disk.desired = some ⟨w.mem.desired, some a.attemptId, w.mem.pairConfirmed⟩
        | some old => LegStep w a old l
  | .memLeg l => ∃ a old, w.mem.attempt = some a ∧ w.mem.leg = some old ∧
      LegNames w a old l
  | .savePeerLeg v =>
      ∃ a p, w.mem.attempt = some a ∧ w.script.delivered = some (.legStatus p) ∧
        p.attemptId = a.attemptId ∧ v.status = p.status
  | .latePeerLeg p =>
      w.script.delivered = some (.legStatus p) ∧ w.attemptId? ≠ some p.attemptId
  | .saveDesired desired confirmed =>
      (w.mem.attempt = none → desired = .none ∧ confirmed = false) ∧
        (confirmed = true → w.mem.pairConfirmed = true ∨ ConfirmGround w) ∧
        (desired = .active → w.mem.desired = .active ∨ w.script.blackout = none)
  | .saveActive _ => w.mem.state = .active
  | .savePolicy _ => w.mem.leg = none ∧ (w.mem.attempt = none ∨ w.mem.recovering = true)
  | .latch stop => ∀ i, stop.attempt? = some i → ∀ a, w.mem.attempt = some a →
      a.attemptId = i
  | .unlatch toEmpty _ => toEmpty = true → w.mem.attempt = none
  | .transition (.terminated _) => False
  | .setState s => s ≠ .empty ∧ s ≠ .idle ∧ (s = .active → ∃ a l, ActiveGround w a l)
  | .setRecovering b => b = false → w.mem.attempt ≠ none → w.mem.leg ≠ none
  | .setAux x =>
      w.mem.aux.now ≤ x.now ∧
        ∀ r ∈ x.replayDeferred, ∃ i, r.1.attempt? = some i ∧ w.attemptId? = some i
  | .prepare e p own =>
      w.disk.journal.get e = none ∧ (own = true → PrepareOwn w e ∧ Asks w p)
  | .markSendStarted e =>
      w.mem.armed = none ∧ ∃ r, w.disk.journal.get e = some r ∧ r.state = .prepared
  | .recordReceipt e retcode =>
      (∃ r, w.disk.journal.get e = some r ∧
        (r.state = .sendStarted ∨ r.state = .receipt)) ∧
        w.disk.answered e retcode
  | .recordObservation e => w.disk.unresolved e = true
  | .orderSend e p r =>
      w.mem.armed = some e ∧ r = w.script.replies.headD { response := .raised } ∧
        (p.isEntry = true → EntryDispatch w e p) ∧ w.disk.journaledAs e p ∧
        w.mem.due = false
  | .brokerRead s => s = w.script.reads.headD none
  | .turn e _ => ∃ p, w.disk.journaledAs e p ∧ Asks w p
  | .relay (.attempt a) =>
      w.cfg.role = .leader ∧ w.mem.attempt = some a ∧
        ∃ l, w.mem.leg = some l ∧ l.attemptRelayed = true ∧ l.entryDispatched = false ∧
          l.emptyVerified = false
  | .relay (.legStatus p) =>
      (p.status ∈ peerTerminalStatuses → ReportGround w p) ∧
        (p.status ∈ protectionStatuses → ProtectionGround w p) ∧
        (p.status = .filled → FilledGround w p)
  | .relay (.pairEntryConfirmed i) =>
      w.cfg.role = .leader ∧ w.attemptId? = some i ∧ w.mem.pairConfirmed = true ∧
        w.mem.leg ≠ none
  | .relay (.legStatusRequest i) =>
      ∃ a l, w.mem.attempt = some a ∧ a.attemptId = i ∧ w.mem.leg = some l ∧
        l.emptyVerified = true
  | _ => True

/-! ## Bookkeeping -/

structure LegOk (c : Config) (i : Nat) (l : Leg) : Prop where
  attemptId : l.attemptId = i
  role : l.role = c.role
  entryEffectId : l.entryEffectId = some (.cell i c.workerId .entry)
  unticketed : l.ticket = none →
    l.protectionEffectId = none ∧ l.closeEffectId = none ∧ l.fillPrice = none ∧
      l.protectionStatus ≠ .precise
  ticketed : l.ticket ≠ none → l.entryStatus = .filled
  closing : ∀ e, l.closeEffectId = some e →
    ∃ t, l.ticket = some t ∧ e = .cell i c.workerId (.close t)

def LegSync (mem disk : Leg) : Prop :=
  mem = { disk with
    protectionEffectId := mem.protectionEffectId, closeEffectId := mem.closeEffectId }

structure DiskSound (c : Config) (d : Disk) : Prop where
  ids : (d.attempts.map fun r => r.attempt.attemptId).Nodup
  route : ∀ r ∈ d.attempts, r.terminal = none → r.attempt.routeId = c.routeId
  legs : ∀ i l, d.legs.get i = some l →
    LegOk c i l ∧ ∃ r ∈ d.attempts, r.attempt.attemptId = i
  sent : ∀ s ∈ d.sent, s.payload.isEntry = true →
    ∃ i l, d.legs.get i = some l ∧ l.entryDispatched = true ∧
      s.effect = .cell i c.workerId .entry
  terminated : ∀ t ∈ d.transitions, ∀ reason, t.event = .terminated reason →
    ∃ r ∈ d.attempts, t.attemptId = some r.attempt.attemptId ∧ r.terminal ≠ none
  stop : ∀ stop i, d.stop = some stop → stop.attempt? = some i →
    ∀ a, loadedAttempt c d = some a → a.attemptId = i

structure MemSound (w : World) : Prop where
  stop : w.mem.needsHuman = w.disk.stop
  live : ∀ a, w.mem.attempt = some a → ∃ r ∈ w.disk.attempts, r.attempt = a ∧
      r.terminal = none
  newest : ∀ a, loadedAttempt w.cfg w.disk = some a → w.mem.attempt = some a
  busy : w.mem.attempt ≠ none →
    (w.mem.state ≠ .empty ∧ w.mem.state ≠ .idle) ∨ w.mem.leg = none ∧
    w.mem.recovering = true
  leg : ∀ l, w.mem.leg = some l →
    ∃ a, w.mem.attempt = some a ∧ LegOk w.cfg a.attemptId l
  sync : ∀ a, w.mem.attempt = some a →
    match w.mem.leg, w.disk.legs.get a.attemptId with
    | none, none => True
    | some l, some d => LegSync l d
    | _, _ => False
  stopOwn : ∀ stop i, w.mem.needsHuman = some stop → stop.attempt? = some i →
    ∀ a, w.mem.attempt = some a → a.attemptId = i
  deferred : ∀ r ∈ w.mem.aux.replayDeferred, ∃ i, r.1.attempt? = some i ∧
      w.attemptId? = some i
  peer : w.mem.attempt = none → w.mem.peerLeg = {}
  fresh : ∀ a, w.script.decision = some a → w.cfg.role = .leader →
    w.disk.rowOf a.attemptId = none

structure Booked (w : World) : Prop where
  disk : DiskSound w.cfg w.disk
  mem : MemSound w

def StartedAt (d : Disk) (e : EffectId) : Prop :=
  ∃ r, d.journal.get e = some r ∧ r.state ≠ .prepared

/-- No effect reaches the terminal before its `send_started`. -/
structure JournalSound (d : Disk) (armed : Option EffectId) : Prop where
  sent : ∀ s ∈ d.sent, StartedAt d s.effect
  armed : ∀ e, armed = some e → StartedAt d e
  own : ∀ e r, d.journal.get e = some r → r.own = true →
    ∃ i l, e.attempt? = some i ∧ d.legs.get i = some l

structure Sound (w : World) : Prop extends Booked w where
  journal : JournalSound w.disk w.mem.armed

end PairCell
