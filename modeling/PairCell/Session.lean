import Mathlib.Logic.Function.Basic
import PairCell.Ledger.Run
import PairCell.Lib.Runs

/-!
# The sessions of the Workers

Each Worker holds one authenticated session with the controller, which forwards
the envelopes of a pair from one session to another.  A step is what one of the
programs does between two points where it waits.  The frames of a connection
arrive in their order; when it is cut, the last ones of either direction are lost.
The payload of an envelope and the messages on pairing are opaque here.
-/

namespace PairCell

open Lib

/-! ## Envelopes and their authorization -/

structure PairRouteClaim where
  routeId : Nat
  leaderWorkerId : Nat
  followerWorkerId : Nat
  deriving DecidableEq, Repr

def PairRouteClaim.has (r : PairRouteClaim) (w : Nat) : Bool :=
  r.leaderWorkerId == w || r.followerWorkerId == w

/-- `encodedBytes` is the length of the JSON text of the whole envelope. -/
structure PairCellRelayEnvelope (α : Type) where
  route : PairRouteClaim
  fromWorkerId : Nat
  toWorkerId : Nat
  requestId : Nat
  payload : α
  encodedBytes : Nat
  deriving DecidableEq, Repr

def maxPairRelayEnvelopeBytes : Nat := 65536

def PairCellRelayEnvelope.betweenPaired {α : Type} (e : PairCellRelayEnvelope α) : Bool :=
  e.route.has e.fromWorkerId && e.route.has e.toWorkerId && e.fromWorkerId != e.toWorkerId

namespace ControlLedger

variable {α : Type}

def authorizePairRelay (e : PairCellRelayEnvelope α) : Locked Unit := do
  ensure (e.betweenPaired = true) "Pair relay envelope identity or route is invalid."
  ensure (e.encodedBytes ≤ maxPairRelayEnvelopeBytes)
    "Pair relay envelope exceeds the size limit."
  let l ← get
  match l.pairRoutes.get e.route.routeId with
  | none => refuse "Pair relay envelope does not match a live Worker route."
  | some r =>
      ensure (r.leaderWorkerId = e.route.leaderWorkerId ∧
        r.followerWorkerId = e.route.followerWorkerId)
        "Pair relay envelope does not match a live Worker route."
      let _ ← activeWorker e.fromWorkerId
      let _ ← activeWorker e.toWorkerId
      return ()

/-- The connection an envelope goes to; `connections` are the live sessions of the
Workers. -/
def relayPairCellEnvelope (connections : Nat → Option Nat) (fromWorkerId : Nat)
    (e : PairCellRelayEnvelope α) : Locked Nat := do
  ensure (e.betweenPaired = true) "Pair Execution Cell relay envelope is invalid."
  ensure (e.fromWorkerId = fromWorkerId)
    "Pair Execution Cell relay envelope sender does not match the authenticated Worker."
  authorizePairRelay e
  match connections e.toWorkerId with
  | none => refuse "Peer Worker is disconnected."
  | some c => return c

end ControlLedger

namespace ControlLedger

variable {α : Type} {l l' : ControlLedger} {e : PairCellRelayEnvelope α}

/-- The envelope is of a live route, between its two Workers, and not too long. -/
structure Carries (l : ControlLedger) (e : PairCellRelayEnvelope α) : Prop where
  between : e.betweenPaired = true
  fits : e.encodedBytes ≤ maxPairRelayEnvelopeBytes
  route : ∃ r, l.pairRoutes.get e.route.routeId = some r ∧
    r.leaderWorkerId = e.route.leaderWorkerId ∧
    r.followerWorkerId = e.route.followerWorkerId
  sender : ((activeWorker e.fromWorkerId).run l).isOk = true
  receiver : ((activeWorker e.toWorkerId).run l).isOk = true

theorem authorizePairRelay_ok {u : Unit} (h : (authorizePairRelay e).run l = .ok (u, l')) :
    l.Carries e ∧ l' = l := by
  simp only [authorizePairRelay, ensure, Tx.bind_ok, Tx.require_ok, Tx.get_ok] at h
  obtain ⟨-, _, ⟨hbetween, rfl⟩, -, _, ⟨hfits, rfl⟩, _, _, ⟨rfl, rfl⟩, h⟩ := h
  split at h
  · simp only [refuse, Tx.throw_ok] at h
  · next r hr =>
      simp only [Tx.bind_ok, Tx.require_ok, Tx.pure_ok] at h
      obtain ⟨-, _, ⟨hsides, rfl⟩, a, m, hsender, b, k, hreceiver, -, rfl⟩ := h
      obtain rfl := activeWorker_ok hsender
      obtain rfl := activeWorker_ok hreceiver
      exact ⟨⟨hbetween, hfits, ⟨r, hr, hsides⟩, by rw [hsender]; rfl,
        by rw [hreceiver]; rfl⟩, rfl⟩

theorem authorizePairRelay_run (h : l.Carries e) :
    (authorizePairRelay e).run l = .ok ((), l) := by
  obtain ⟨r, hr, hsides⟩ := h.route
  have active : ∀ {w : Nat}, ((activeWorker w).run l).isOk = true →
      ∃ a, (activeWorker w).run l = .ok (a, l) := by
    intro w hw
    cases hrun : (activeWorker w).run l with
    | error f => simp [hrun, Except.isOk, Except.toBool] at hw
    | ok p => exact ⟨p.1, by rw [← activeWorker_ok hrun]⟩
  obtain ⟨a, ha⟩ := active h.sender
  obtain ⟨b, hb⟩ := active h.receiver
  simp only [authorizePairRelay, ensure, Tx.bind_ok, Tx.require_ok, Tx.get_ok]
  refine ⟨(), l, ⟨h.between, rfl⟩, (), l, ⟨h.fits, rfl⟩, l, l, ⟨rfl, rfl⟩, ?_⟩
  simp only [hr, Tx.bind_ok, Tx.require_ok, Tx.pure_ok]
  exact ⟨(), l, ⟨hsides, rfl⟩, a, l, ha, b, l, hb, trivial, rfl⟩

theorem relayPairCellEnvelope_run {connections : Nat → Option Nat} {c : Nat}
    (h : l.Carries e) (hc : connections e.toWorkerId = some c) :
    (relayPairCellEnvelope connections e.fromWorkerId e).run l = .ok (c, l) := by
  simp only [relayPairCellEnvelope, ensure, Tx.bind_ok, Tx.require_ok]
  refine ⟨(), l, ⟨h.between, rfl⟩, (), l, ⟨trivial, rfl⟩, (), l,
    authorizePairRelay_run h, ?_⟩
  simp only [hc]
  exact Tx.pure_ok.2 ⟨rfl, rfl⟩

theorem relayPairCellEnvelope_ok {connections : Nat → Option Nat} {fromWorkerId c : Nat}
    (h : (relayPairCellEnvelope connections fromWorkerId e).run l = .ok (c, l')) :
    l.Carries e ∧ e.fromWorkerId = fromWorkerId ∧ connections e.toWorkerId = some c := by
  simp only [relayPairCellEnvelope, ensure, Tx.bind_ok, Tx.require_ok] at h
  obtain ⟨-, _, ⟨-, rfl⟩, -, _, ⟨hfrom, rfl⟩, u, m, hauthorized, h⟩ := h
  obtain ⟨hcarries, -⟩ := authorizePairRelay_ok hauthorized
  refine ⟨hcarries, hfrom, ?_⟩
  split at h
  · simp only [refuse, Tx.throw_ok] at h
  · next d hd =>
      obtain ⟨rfl, -⟩ := Tx.pure_ok.1 h
      exact hd

end ControlLedger

/-! ## Frames -/

/-- A password as the secret store holds one. -/
abbrev Secret := { text : String // text ≠ "" }

/-- What a Worker asks and waits for.  Its own facts and live states
can only be too long. -/
inductive SessionRequest where
  | passwordRequest
  | recoverySync (epoch : String)
  | heartbeat
  | recoveryState (state reason : String)
  | liveState (fits : Bool)
  | workerFact (cursor : Int) (fits : Bool)
  deriving DecidableEq, Repr

inductive SessionReply where
  | authenticated (cursor : Nat)
  | password (text : String)
  | recoverySyncAccepted (epoch : String)
  | heartbeatAck
  | acceptedState (state : String)
  | liveStateAccepted
  | acceptedCursor (cursor : Int)
  deriving DecidableEq, Repr

namespace SessionRequest

def answer (secret : Option Secret) : SessionRequest → Option SessionReply
  | passwordRequest => secret.map fun s => .password s.val
  | recoverySync epoch => if epoch ≠ "" then some (.recoverySyncAccepted epoch) else none
  | heartbeat => some .heartbeatAck
  | recoveryState state reason => if reason ≠ "" then some (.acceptedState state) else none
  | liveState fits => if fits then some .liveStateAccepted else none
  | workerFact cursor fits => if fits then some (.acceptedCursor cursor) else none

def accepts : SessionRequest → SessionReply → Bool
  | passwordRequest, .password text => decide (text ≠ "")
  | recoverySync epoch, .recoverySyncAccepted e => decide (e = epoch)
  | heartbeat, .heartbeatAck => true
  | recoveryState state _, .acceptedState s => decide (s = state)
  | liveState _, .liveStateAccepted => true
  | workerFact cursor _, .acceptedCursor c => decide (c = cursor)
  | _, _ => false

theorem answer_accepted {r : SessionRequest} {secret : Option Secret} {x : SessionReply}
    (h : r.answer secret = some x) : r.accepts x = true := by
  cases r with
  | passwordRequest =>
      obtain ⟨s, -, rfl⟩ := Option.map_eq_some_iff.1 h
      exact decide_eq_true s.property
  | heartbeat =>
      obtain rfl := Option.some.inj h
      rfl
  | recoverySync epoch
  | recoveryState state reason
  | liveState fits
  | workerFact cursor fits =>
      obtain ⟨-, h⟩ := Option.ite_none_right_eq_some.1 h
      obtain rfl := Option.some.inj h
      simp [accepts]

end SessionRequest

structure RelayAck where
  requestId : Nat
  accepted : Bool
  reason : Option String := none
  deriving DecidableEq, Repr

inductive DirectReply where
  | pairRelayAck (a : RelayAck)
  | reply (x : SessionReply)
  deriving DecidableEq, Repr

inductive Upward (α β : Type) where
  | pairRelay (requestId : Nat) (envelope : PairCellRelayEnvelope α)
  | control (message : β)
  | request (r : SessionRequest)
  deriving DecidableEq, Repr

inductive Pushed (α β : Type) where
  | pairRelayDeliver (envelope : PairCellRelayEnvelope α)
  | pairCellResult (message : β)
  | pairCellPush (message : β)
  deriving DecidableEq, Repr

inductive Downward (α β : Type) where
  | pushed (m : Pushed α β)
  | direct (d : DirectReply)
  deriving DecidableEq, Repr

/-! ## The Worker's end -/

structure AuthenticatedWorkerSession (α β : Type) where
  connection : Nat
  reconciliationCursor : Int
  pairRelayInbox : List (PairCellRelayEnvelope α) := []
  pairRelayAckInbox : List RelayAck := []
  pairCellResultInbox : List β := []
  pairCellPushInbox : List β := []
  awaiting : Option SessionRequest := none

inductive Inbox where
  | pairRelayEnvelopes | pairRelayAcks | pairCellResults | pairCellPushes
  deriving DecidableEq, Repr

def maxPairRelayAcks : Nat := 128
def maxPairCellControlMessages : Nat := 256

@[irreducible] def keepNewest {γ : Type} (bound : Nat) (inbox : List γ) : List γ :=
  inbox.drop (inbox.length - bound)

theorem keepNewest_sublist {γ : Type} (bound : Nat) (inbox : List γ) :
    (keepNewest bound inbox).Sublist inbox := by
  unfold keepNewest
  exact List.drop_sublist _ _

namespace AuthenticatedWorkerSession

variable {α β : Type} (a : AuthenticatedWorkerSession α β)

def queuePairRelayEnvelope (e : PairCellRelayEnvelope α) :
    AuthenticatedWorkerSession α β :=
  { a with pairRelayInbox := a.pairRelayInbox ++ [e] }

def queuePairRelayAck (k : RelayAck) : AuthenticatedWorkerSession α β :=
  { a with pairRelayAckInbox := keepNewest maxPairRelayAcks (a.pairRelayAckInbox ++ [k]) }

def queuePairCellResult (m : β) : AuthenticatedWorkerSession α β :=
  { a with
    pairCellResultInbox :=
      keepNewest maxPairCellControlMessages (a.pairCellResultInbox ++ [m]) }

def queuePairCellPush (m : β) : AuthenticatedWorkerSession α β :=
  { a with
    pairCellPushInbox :=
      keepNewest maxPairCellControlMessages (a.pairCellPushInbox ++ [m]) }

def settle (r : SessionRequest) (x : SessionReply) : AuthenticatedWorkerSession α β :=
  { a with
    awaiting := none
    reconciliationCursor :=
      match r with
      | .workerFact cursor _ => if r.accepts x then cursor else a.reconciliationCursor
      | _ => a.reconciliationCursor }

end AuthenticatedWorkerSession

/-- A Worker process with all that it put on the wire and took off it, oldest first. -/
structure WorkerProcess (α β : Type) where
  opening : Option Nat := none
  session : Option (AuthenticatedWorkerSession α β) := none
  sent : List (Nat × PairCellRelayEnvelope α) := []
  drained : List (Nat × PairCellRelayEnvelope α) := []
  drainedAcks : List (Nat × RelayAck) := []
  replies : List (SessionRequest × SessionReply) := []
  /-- Replies that `receive_worker_relay` met. -/
  stray : List SessionReply := []

namespace WorkerProcess

variable {α β : Type} (p : WorkerProcess α β)

def connection? : Option Nat :=
  match p.session with
  | some a => some a.connection
  | none => p.opening

/-- `_response` when a reply is awaited, `receive_worker_relay` otherwise. -/
def receiveIn (a : AuthenticatedWorkerSession α β) : Downward α β → WorkerProcess α β
  | .pushed (.pairRelayDeliver e) =>
      { p with session := some (a.queuePairRelayEnvelope e) }
  | .pushed (.pairCellResult m) => { p with session := some (a.queuePairCellResult m) }
  | .pushed (.pairCellPush m) => { p with session := some (a.queuePairCellPush m) }
  | .direct (.pairRelayAck k) => { p with session := some (a.queuePairRelayAck k) }
  | .direct (.reply x) =>
      match a.awaiting with
      | some r =>
          { p with session := some (a.settle r x), replies := p.replies ++ [(r, x)] }
      | none => { p with stray := p.stray ++ [x] }

/-- The end of `open_authenticated_worker_session`; any frame but one closes the
connection. -/
def receiveOpening (c : Nat) : Downward α β → WorkerProcess α β
  | .direct (.reply (.authenticated cursor)) =>
      { p with
        opening := none
        session := some { connection := c, reconciliationCursor := cursor } }
  | _ => { p with opening := none }

def receive (m : Downward α β) : WorkerProcess α β :=
  match p.session, p.opening with
  | some a, _ => p.receiveIn a m
  | none, some c => p.receiveOpening c m
  | none, none => p

/-- The cell takes all that one inbox holds. -/
def drain (a : AuthenticatedWorkerSession α β) : Inbox → WorkerProcess α β
  | .pairRelayEnvelopes =>
      { p with
        session := some { a with pairRelayInbox := [] }
        drained := p.drained ++ a.pairRelayInbox.map fun e => (a.connection, e) }
  | .pairRelayAcks =>
      { p with
        session := some { a with pairRelayAckInbox := [] }
        drainedAcks := p.drainedAcks ++ a.pairRelayAckInbox.map fun k =>
          (a.connection, k) }
  | .pairCellResults => { p with session := some { a with pairCellResultInbox := [] } }
  | .pairCellPushes => { p with session := some { a with pairCellPushInbox := [] } }

end WorkerProcess

/-! ## The controller's end -/

inductive Stage where
  /-- The Worker has not proved its key yet. -/
  | handshake
  | replacing
  | serving
  | closing
  | ended
  deriving DecidableEq, Repr

structure WorkerSessionConnection (α β : Type) where
  workerId : Nat := 0
  stage : Stage := .handshake
  superseded : Bool := false
  /-- The socket still takes frames. -/
  live : Bool := true
  owed : Option DirectReply := none
  outbound : List (Pushed α β) := []
  up : List (Upward α β) := []
  down : List (Downward α β) := []

namespace WorkerSessionConnection

variable {α β : Type} (k : WorkerSessionConnection α β)

def transmit (m : Downward α β) : WorkerSessionConnection α β :=
  if k.live then { k with down := k.down ++ [m] } else k

def send (f : Upward α β) : WorkerSessionConnection α β :=
  if k.live then { k with up := k.up ++ [f] } else k

def push (m : Pushed α β) : WorkerSessionConnection α β :=
  { k with outbound := k.outbound ++ [m] }

end WorkerSessionConnection

/-- An envelope that a connection of an authenticated Worker brought: the connection it was
forwarded to, or why it was refused. -/
structure ServedRelay (α : Type) where
  connection : Nat
  workerId : Nat
  requestId : Nat
  envelope : PairCellRelayEnvelope α
  outcome : Except String Nat

def ServedRelay.ack {α : Type} (s : ServedRelay α) : RelayAck :=
  match s.outcome with
  | .ok _ => { requestId := s.requestId, accepted := true }
  | .error reason => { requestId := s.requestId, accepted := false, reason := some reason }

structure Network (α β : Type) where
  ledger : ControlLedger
  workerConnections : Nat → Option Nat := fun _ => none
  connections : Nat → WorkerSessionConnection α β := fun _ => {}
  opened : Nat := 0
  workers : Nat → WorkerProcess α β := fun _ => {}
  served : List (ServedRelay α) := []

/-- What a handler is given from outside: a stored password, or the result of a message on
pairing with the operation and the notices that it causes. -/
structure Handling (β : Type) where
  secret : Option Secret := none
  result : Option β := none
  op : Option ControlLedger.Op := none
  notices : List (Nat × β) := []

namespace Network

variable {α β : Type} (n : Network α β)

def onConnection (c : Nat)
    (f : WorkerSessionConnection α β → WorkerSessionConnection α β) :
    Network α β :=
  { n with connections := Function.update n.connections c (f (n.connections c)) }

def withWorker (w : Nat) (p : WorkerProcess α β) : Network α β :=
  { n with workers := Function.update n.workers w p }

def register (w : Nat) (c : Option Nat) : Network α β :=
  { n with workerConnections := Function.update n.workerConnections w c }

def activeWorker (w : Nat) : Bool := ((ControlLedger.activeWorker w).run n.ledger).isOk

def isAuthoritativeWorkerSession (c : Nat) : Bool :=
  !(n.connections c).superseded &&
    decide (n.workerConnections (n.connections c).workerId = some c)

def pushWorkerRelay (c : Nat) (m : Pushed α β) : Network α β :=
  n.onConnection c fun k => k.push m

def pushPairCellMessage (w : Nat) (message : β) : Network α β :=
  match n.workerConnections w with
  | some c => n.pushWorkerRelay c (.pairCellPush message)
  | none => n

def owe (c : Nat) (d : DirectReply) : Network α β := n.onConnection c fun k =>
  { k with owed := some d }

def record (x : ServedRelay α) : Network α β :=
  { n.owe x.connection (.pairRelayAck x.ack) with served := n.served ++ [x] }

def serveRelay (c requestId : Nat) (e : PairCellRelayEnvelope α) : Option (Network α β) :=
  let w := (n.connections c).workerId
  match (ControlLedger.relayPairCellEnvelope n.workerConnections w e).run n.ledger with
  | .ok (target, _) =>
      some ((n.pushWorkerRelay target (.pairRelayDeliver e)).record ⟨c, w, requestId,
        e, .ok target⟩)
  | .error (.ledgerError reason) => some (n.record ⟨c, w, requestId, e, .error reason⟩)
  | .error _ => none

def perform (op : ControlLedger.Op) : Network α β :=
  { n with ledger := (n.ledger.perform op).2 }

def notify (notices : List (Nat × β)) : Network α β :=
  notices.foldl (fun n x => n.pushPairCellMessage x.1 x.2) n

def serveControl (c : Nat) (result : β) (h : Handling β) : Network α β :=
  ((h.op.elim n n.perform).pushWorkerRelay c (.pairCellResult result)).notify h.notices

def handle (c : Nat) (h : Handling β) : Upward α β → Option (Network α β)
  | .pairRelay requestId e => n.serveRelay c requestId e
  | .control _ => h.result.map fun m => n.serveControl c m h
  | .request r => (r.answer h.secret).map fun x => n.owe c (.reply x)

def supersede : Option Nat → Network α β
  | some c => n.onConnection c fun k => { k with superseded := true }
  | none => n

def restart : Network α β where
  ledger := (n.ledger.perform .restart).2
  connections c := { n.connections c with
    stage := .ended
    live := false
    owed := none
    outbound := []
    up := [] }
  opened := n.opened
  workers := n.workers
  served := n.served

/-! ## Steps -/

inductive Label (α β : Type) where
  | connect (w : Nat)
  | authenticate (c : Nat)
  | replace (c cursor : Nat)
  | serve (c : Nat) (h : Handling β)
  | answer (c : Nat)
  | write (c : Nat)
  | finish (c : Nat)
  | discard (c : Nat)
  /-- An operation that no session asks for, and a notice about it. -/
  | ledger (op : ControlLedger.Op)
  | notice (w : Nat) (message : β)
  | forget (w : Nat)
  | restart
  /-- Of the frames under way some of the first arrive, and no later ones. -/
  | cut (c up down : Nat)
  | receive (w : Nat)
  | drain (w : Nat) (inbox : Inbox)
  | sendPairRelay (w requestId : Nat) (e : PairCellRelayEnvelope α)
  | sendPairCellControl (w : Nat) (message : β)
  | request (w : Nat) (r : SessionRequest)
  /-- An operator interrupt ends the wait for a reply, and the session goes on. -/
  | interrupt (w : Nat)
  | abandon (w : Nat)

/-- The step of a Worker whose session is idle. -/
def idle (w : Nat) (f : AuthenticatedWorkerSession α β → Network α β) :
    Option (Network α β) :=
  match (n.workers w).session with
  | some a => if a.awaiting = none then some (f a) else none
  | none => none

def step : Label α β → Option (Network α β)
  | .connect w =>
      if (n.workers w).connection? = none then
        some { n.withWorker w { n.workers w with opening := some n.opened } with
          connections := Function.update n.connections n.opened { workerId := w }
          opened := n.opened + 1 }
      else none
  | .authenticate c =>
      if c < n.opened ∧ (n.connections c).stage = .handshake ∧
          n.activeWorker (n.connections c).workerId = true then
        some ((n.supersede (n.workerConnections (n.connections c).workerId)).onConnection c
          fun k => { k with stage := .replacing })
      else none
  | .replace c cursor =>
      if c < n.opened ∧ (n.connections c).stage = .replacing then
        some ((n.register (n.connections c).workerId (some c)).onConnection c fun k =>
          { k with stage := .serving, owed := some (.reply (.authenticated cursor)) })
      else none
  | .serve c h =>
      if (n.connections c).stage = .serving ∧ (n.connections c).owed = none ∧
          n.activeWorker (n.connections c).workerId = true then
        match (n.connections c).up with
        | [] => none
        | f :: rest =>
            let n' := n.onConnection c fun k => { k with up := rest }
            if n.isAuthoritativeWorkerSession c then n'.handle c h f else some n'
      else none
  | .answer c =>
      match (n.connections c).owed with
      | some d =>
          if (n.connections c).stage = .serving then
            some (n.onConnection c fun k => { k.transmit (.direct d) with owed := none })
          else none
      | none => none
  | .write c =>
      match (n.connections c).outbound with
      | m :: rest =>
          if (n.connections c).stage = .serving ∨ (n.connections c).stage = .closing then
            some (n.onConnection c fun k =>
              { k.transmit (.pushed m) with outbound := rest })
          else none
      | [] => none
  | .finish c =>
      if c < n.opened ∧ (n.connections c).stage ≠ .ended then
        some (n.onConnection c fun k => { k with stage := .closing, owed := none })
      else none
  | .discard c =>
      if (n.connections c).stage = .closing then
        let n' := n.onConnection c fun k => { k with stage := .ended }
        let w := (n.connections c).workerId
        some (if n.workerConnections w = some c then n'.register w none else n')
      else none
  | .ledger op => some (n.perform op)
  | .notice w message => some (n.pushPairCellMessage w message)
  | .forget w => some (n.register w none)
  | .restart => some n.restart
  | .cut c up down =>
      some (n.onConnection c fun k =>
        { k with live := false, up := k.up.take up, down := k.down.take down })
  | .receive w =>
      match (n.workers w).connection? with
      | none => none
      | some c =>
          match (n.connections c).down with
          | [] => none
          | m :: rest =>
              some ((n.onConnection c fun k => { k with down := rest }).withWorker w
                ((n.workers w).receive m))
  | .drain w inbox => n.idle w fun a => n.withWorker w ((n.workers w).drain a inbox)
  | .sendPairRelay w requestId e =>
      n.idle w fun a =>
        (n.onConnection a.connection fun k => k.send (.pairRelay requestId e)).withWorker w
        { n.workers w with sent := (n.workers w).sent ++ [(requestId, e)] }
  | .sendPairCellControl w message =>
      n.idle w fun a => n.onConnection a.connection fun k => k.send (.control message)
  | .request w r =>
      n.idle w fun a =>
        (n.onConnection a.connection fun k => k.send (.request r)).withWorker w
        { n.workers w with session := some { a with awaiting := some r } }
  | .interrupt w =>
      match (n.workers w).session with
      | none => none
      | some a =>
          some (n.withWorker w
            { n.workers w with session := some { a with awaiting := none } })
  | .abandon w =>
      some (n.withWorker w { n.workers w with opening := none, session := none })

def Step (n : Network α β) (l : Label α β) (n' : Network α β) : Prop := n.step l = some n'

def anyLabel (_ : Network α β) (_ : Label α β) : Prop := True

def start (ledger : ControlLedger) : Network α β where
  ledger := ledger

abbrev Run (n n' : Network α β) : Prop := Reach Step anyLabel n n'

/-! ## Playing a run -/

/-- No wait for a reply is broken off. -/
def Undisturbed (n : Network α β) (l : Label α β) : Prop :=
  ∀ w, l = .interrupt w → (n.workers w).session.all (fun a => a.awaiting.isNone) = true

instance (n : Network α β) (l : Label α β) : Decidable (anyLabel n l) := isTrue trivial

instance (n : Network α β) (l : Label α β) : Decidable (Undisturbed n l) :=
  match l with
  | .interrupt w =>
      if h : (n.workers w).session.all (fun a => a.awaiting.isNone) = true then
        isTrue fun _ heq => Label.interrupt.inj heq ▸ h
      else isFalse fun hall => h (hall w rfl)
  | .connect _ | .authenticate _ | .replace .. | .serve .. | .answer _ | .write _
  | .finish _ | .discard _ | .ledger _ | .notice .. | .forget _ | .restart | .cut ..
  | .receive _ | .drain ..
  | .sendPairRelay .. | .sendPairCellControl .. | .request .. | .abandon _ =>
      isTrue fun _ heq => by cases heq

def next (n : Network α β) (l : Label α β) : Option (Label α β × Network α β) :=
  (n.step l).map (Prod.mk l)

theorem plays_any (ok : Network α β → Label α β → Prop) [∀ n l, Decidable (ok n l)]
    (n : Network α β) (ls : List (Label α β)) (P : Network α β → Bool)
    (h : (play ok next (fun _ => false) n ls).any P = true) :
    ∃ t, Reach Step ok n t ∧ P t = true := by
  refine play_any (fun s m l t hnext => ?_) P h
  obtain ⟨u, hu, heq⟩ := Option.map_eq_some_iff.1 hnext
  obtain ⟨rfl, rfl⟩ := Prod.mk.inj heq
  exact hu

namespace Sample

def ledger : ControlLedger := { ControlLedger.empty with
  enrollments :=
    (Table.empty.set 1 ⟨100, "broker", .approved, 0⟩).set 2 ⟨200, "broker", .approved, 0⟩
  workers :=
    (Table.empty.set 1 ⟨1, 100, "broker", .active⟩).set 2 ⟨2, 200, "broker", .active⟩
  pairRoutes := Table.empty.set 7 ⟨pairKey 1 2, 1, 2, .active⟩ }

def envelope (payload : Nat) : PairCellRelayEnvelope Nat where
  route := ⟨7, 1, 2⟩
  fromWorkerId := 1
  toWorkerId := 2
  requestId := payload
  payload := payload
  encodedBytes := 100

def login (w c : Nat) : List (Label Nat Unit) :=
  [.connect w, .authenticate c, .replace c 0, .answer c, .receive w]

def sending (payload : Nat) : List (Label Nat Unit) :=
  [.sendPairRelay 1 payload (envelope payload), .serve 0 {}, .answer 0]

def taking (w c : Nat) : List (Label Nat Unit) :=
  [.write c, .receive w, .drain w .pairRelayEnvelopes]

/-- Of three envelopes the follower takes two; the other is lost with a session of its. -/
def relayed : List (Label Nat Unit) :=
  login 1 0 ++ login 2 1 ++ sending 10 ++ taking 2 1 ++
    [.receive 1, .drain 1 .pairRelayAcks] ++
    sending 11 ++ [.abandon 2] ++ login 2 2 ++ sending 12 ++ taking 2 2

end Sample

end Network

end PairCell
