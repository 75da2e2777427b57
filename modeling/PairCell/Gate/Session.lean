import PairCell.Gate.Frame
import PairCell.Gate.Play

/-!
# The peer session as the runtime sees it

The runtime holds one flag for the peer session.  A rejected acknowledgement or
a failed send lowers it, a received envelope raises it, and the cell is told
only when a pump finds the flag different from what it told last.
-/

namespace PairCell.Gate

open Lib

/-- A relay acknowledgement of the controller. -/
structure Ack where
  accepted : Option Bool
  reason : String := ""
  deriving DecidableEq, Repr

/-- The acknowledgement makes the runtime take the peer session as lost. -/
def Ack.lost (a : Ack) : Bool :=
  decide (a.accepted = some false) ||
    (decide (a.accepted ≠ some true) && decide (a.reason = "Peer Worker is disconnected."))

/--
The session part of `PairCellRuntime`.  The last two fields are the model's own:
a loss was classified and the cell was not told since, and the cell handled a
peer envelope in that time.
-/
structure Runtime where
  cell : Cell
  peerSessionConnected : Bool := true
  fedPeerSession : Bool := true
  lastSendFailed : Bool := false
  owed : Bool := false
  missed : Bool := false

/-- A queued envelope; one that cannot be unwrapped is dropped. Handling
it may fail a send. -/
structure Arrival where
  inputs : Inputs := {}
  envelope : Option Envelope
  sendFailed : Bool := false

structure Drain where
  flushFailed : Bool := false
  acks : List Ack := []
  envelopes : List Arrival := []

/-- The event is neither an envelope nor about the peer session. -/
def Event.own : Event → Bool
  | .envelope _ | .peerSession .. => false
  | _ => true

/-- An event of the worker itself that a pump feeds to the cell. -/
structure Fed where
  inputs : Inputs := {}
  event : Event
  sendFailed : Bool := false
  own : event.own = true

structure Pump where
  now : Nat
  drain : Drain := {}
  /-- The catalog, fed before the session is compared. -/
  first : List Fed := []
  inputs : Inputs := {}
  /-- The clock, readiness facts, quotes and snapshots, fed after it. -/
  rest : List Fed := []

inductive Call where
  | drainRelay (d : Drain)
  | pump (p : Pump)

namespace Sample

/-- A leader that holds the peer's allowance and could create an attempt. -/
def willing : Cell := play .leader (ready .leader ++ [published 1 1 20])

def rejected : Ack := ⟨some false, "Peer Worker is disconnected."⟩

/-- A readiness envelope that arrives while the ranking has a candidate. -/
def arrival : Arrival :=
  { inputs := { candidate := some candidate }
    envelope := some
      { routeId := 7, fromWorkerId := 2, toWorkerId := 1
        message := .readiness ⟨true, some 1, true, true⟩ } }

end Sample

namespace Runtime

variable (r : Runtime)

def setPeerSessionConnected (connected : Bool) : Runtime :=
  if r.peerSessionConnected = connected then r
  else { r with peerSessionConnected := connected, owed := r.owed || !connected }

def noteAcks (acks : List Ack) : Runtime :=
  if acks.any Ack.lost then r.setPeerSessionConnected false else r

def receive (a : Arrival) : Runtime :=
  match a.envelope with
  | none => r
  | some e =>
      { r with
        cell := r.cell.handleEvent a.inputs (.envelope e)
        lastSendFailed := r.lastSendFailed || a.sendFailed
        missed := r.missed || r.owed }

def drainRelay (d : Drain) : Runtime :=
  let r := { r with lastSendFailed := r.lastSendFailed || d.flushFailed }
  let r := r.noteAcks d.acks
  let r := if d.envelopes.isEmpty then r else r.setPeerSessionConnected true
  d.envelopes.foldl receive r

def feed (f : Fed) : Runtime :=
  { r with
    cell := r.cell.handleEvent f.inputs f.event
    lastSendFailed := r.lastSendFailed || f.sendFailed }

def noteSendFailure : Runtime :=
  if r.lastSendFailed then
    { r with lastSendFailed := false }.setPeerSessionConnected false else r

/-- The cell is told when the flag differs from what it was told last. -/
def feedPeerSession (x : Inputs) (now : Nat) : Runtime :=
  if r.peerSessionConnected = r.fedPeerSession then r
  else
    { r with
      fedPeerSession := r.peerSessionConnected
      cell := r.cell.handleEvent x (.peerSession now r.peerSessionConnected)
      owed := r.owed && r.peerSessionConnected }

def pump (p : Pump) : Runtime :=
  let r := r.drainRelay p.drain
  let r := p.first.foldl feed r
  let r := r.noteSendFailure
  let r := r.feedPeerSession p.inputs p.now
  p.rest.foldl feed r

def next : Call → Runtime
  | .drainRelay d => r.drainRelay d
  | .pump p => r.pump p

def Step (r : Runtime) (call : Call) (r' : Runtime) : Prop := r' = r.next call

def init (c : Cell) : Runtime := { cell := c }

/-! ## When every loss is told -/

/-- The flag is down and the cell still takes the session as up. -/
def untold : Bool := !r.peerSessionConnected && r.fedPeerSession

/--
Acknowledgements lower the flag only when the cell was last told that the
session is up and no envelope is drained with them, and no envelope is drained
while a loss is still to be told.
-/
def DrainTells (d : Drain) : Prop :=
  (r.peerSessionConnected = true → d.acks.any Ack.lost = true →
    r.fedPeerSession = true ∧ d.envelopes = []) ∧
  (d.envelopes ≠ [] → r.untold = false)

/-- The flag is up after the drain. -/
def upAfter (d : Drain) : Bool :=
  !d.envelopes.isEmpty || (r.peerSessionConnected && !d.acks.any Ack.lost)

/-- A send has failed by the time the pump looks. -/
def sendFails (p : Pump) : Bool :=
  r.lastSendFailed || p.drain.flushFailed ||
    (p.drain.envelopes.any fun a => a.envelope.isSome && a.sendFailed) ||
    p.first.any Fed.sendFailed

/-- A failed send lowers the flag only when the cell was last told
that the session is up. -/
def PumpTells (p : Pump) : Prop :=
  r.DrainTells p.drain ∧
  (r.upAfter p.drain = true → r.sendFails p = true → r.fedPeerSession = true)

def Tells : Call → Prop
  | .drainRelay d => r.DrainTells d
  | .pump p => r.PumpTells p

instance (d : Drain) : Decidable (r.DrainTells d) :=
  inferInstanceAs (Decidable (_ ∧ (d.envelopes ≠ [] → _)))

instance (call : Call) : Decidable (r.Tells call) :=
  match call with
  | .drainRelay d => inferInstanceAs (Decidable (r.DrainTells d))
  | .pump p => inferInstanceAs (Decidable (r.DrainTells p.drain ∧ _))

variable {r}

/-- An untold loss is one that the next pump will find. -/
structure Telling (r : Runtime) : Prop where
  found : r.owed = true → r.untold = true
  heard : r.missed = false

/-! ## Draining -/

theorem receive_flags (r : Runtime) (as : List Arrival) :
    (as.foldl receive r).peerSessionConnected = r.peerSessionConnected ∧
      (as.foldl receive r).fedPeerSession = r.fedPeerSession ∧
      (as.foldl receive r).owed = r.owed ∧
      (r.owed = false → (as.foldl receive r).missed = r.missed) := by
  induction as generalizing r with
  | nil => exact ⟨rfl, rfl, rfl, fun _ => rfl⟩
  | cons a as ih =>
      obtain ⟨hc, hf, ho, hm⟩ := ih (r.receive a)
      have hone : (r.receive a).peerSessionConnected = r.peerSessionConnected ∧
          (r.receive a).fedPeerSession = r.fedPeerSession ∧ (r.receive a).owed = r.owed ∧
          (r.owed = false → (r.receive a).missed = r.missed) := by
        unfold receive
        split
        · exact ⟨rfl, rfl, rfl, fun _ => rfl⟩
        · refine ⟨rfl, rfl, rfl, fun howed => ?_⟩
          simp [howed]
      refine ⟨hc.trans hone.1, hf.trans hone.2.1, ho.trans hone.2.2.1, fun howed => ?_⟩
      exact (hm (hone.2.2.1.trans howed)).trans (hone.2.2.2 howed)

theorem receive_failed (r : Runtime) (as : List Arrival) :
    (as.foldl receive r).lastSendFailed =
      (r.lastSendFailed || as.any fun a => a.envelope.isSome && a.sendFailed) := by
  induction as generalizing r with
  | nil => simp
  | cons a as ih =>
      rw [List.foldl_cons, ih, List.any_cons, ← Bool.or_assoc]
      congr 1
      unfold receive
      split
      · next h => simp [h]
      · next e h => simp [h]

/-- Acknowledgements lower the flag; a loss that is classified is owed. -/
theorem noteAcks_flags (r : Runtime) (acks : List Ack) :
    (r.noteAcks acks).peerSessionConnected =
    (r.peerSessionConnected && !acks.any Ack.lost) ∧
      (r.noteAcks acks).fedPeerSession = r.fedPeerSession ∧
      (r.noteAcks acks).owed = (r.owed || (r.peerSessionConnected && acks.any Ack.lost)) ∧
      (r.noteAcks acks).missed = r.missed ∧
      (r.noteAcks acks).lastSendFailed = r.lastSendFailed := by
  unfold noteAcks setPeerSessionConnected
  cases hlost : acks.any Ack.lost <;> cases hup : r.peerSessionConnected <;> simp [hup]

theorem drainRelay_failed (r : Runtime) (d : Drain) :
    (r.drainRelay d).lastSendFailed =
      (r.lastSendFailed || d.flushFailed ||
        d.envelopes.any fun a => a.envelope.isSome && a.sendFailed) := by
  unfold drainRelay
  dsimp only
  rw [receive_failed]
  congr 1
  split_ifs
  · exact (noteAcks_flags _ _).2.2.2.2
  · unfold setPeerSessionConnected
    split_ifs
    · exact (noteAcks_flags _ _).2.2.2.2
    · exact (noteAcks_flags _ _).2.2.2.2

theorem raise_flags (r : Runtime) :
    (r.setPeerSessionConnected true).peerSessionConnected = true ∧
      (r.setPeerSessionConnected true).fedPeerSession = r.fedPeerSession ∧
      (r.setPeerSessionConnected true).owed = r.owed ∧
      (r.setPeerSessionConnected true).missed = r.missed := by
  unfold setPeerSessionConnected
  cases hup : r.peerSessionConnected <;> simp [hup]

theorem Telling.drain {d : Drain} (h : Telling r) (hd : r.DrainTells d) :
    Telling (r.drainRelay d) ∧ (r.drainRelay d).peerSessionConnected = r.upAfter d ∧
      (r.drainRelay d).fedPeerSession = r.fedPeerSession := by
  obtain ⟨hlower, hwait⟩ := hd
  obtain ⟨hc, hf, ho, hm, -⟩ :=
    noteAcks_flags { r with lastSendFailed := r.lastSendFailed || d.flushFailed } d.acks
  unfold drainRelay upAfter
  dsimp only
  generalize { r with lastSendFailed := r.lastSendFailed || d.flushFailed }.noteAcks
    d.acks = m
    at hc hf ho hm
  cases hes : d.envelopes with
  | nil =>
      refine ⟨⟨?_, hm.trans h.heard⟩, by simpa using hc, hf⟩
      intro howed
      change m.owed = true at howed
      change m.untold = true
      rw [ho, Bool.or_eq_true, Bool.and_eq_true] at howed
      rcases howed with howed | ⟨hup, hlost⟩
      · have hr := h.found howed
        simp only [untold, Bool.and_eq_true, Bool.not_eq_true'] at hr ⊢
        rw [hc, hf, hr.1]
        exact ⟨rfl, hr.2⟩
      · have hfed := (hlower hup hlost).1
        simp only [untold, hc, hf]
        simp [hlost, hfed]
  | cons a as =>
      have hpending : r.untold = false := hwait (by simp [hes])
      have hnot : r.owed = false := by
        by_contra howed
        rw [h.found (by simpa using howed)] at hpending
        cases hpending
      have hnoloss : (r.peerSessionConnected && d.acks.any Ack.lost) = false := by
        by_contra hloss
        rw [Bool.not_eq_false, Bool.and_eq_true] at hloss
        have hnone := (hlower hloss.1 hloss.2).2
        rw [hes] at hnone
        cases hnone
      have howed : m.owed = false := by
        rw [ho]
        change (r.owed || (r.peerSessionConnected && d.acks.any Ack.lost)) = false
        rw [hnot, hnoloss]
        rfl
      obtain ⟨rc, rf, ro, rm⟩ := raise_flags m
      obtain ⟨ec, ef, eo, em⟩ := receive_flags (m.setPeerSessionConnected true) (a :: as)
      have hquiet : (m.setPeerSessionConnected true).owed = false := ro.trans howed
      simp only [List.isEmpty_cons, Bool.false_eq_true, if_false]
      refine ⟨⟨?_, ?_⟩, ?_, ?_⟩
      · intro h'
        rw [eo, hquiet] at h'
        cases h'
      · rw [em hquiet, rm, hm]
        exact h.heard
      · rw [ec, rc]
        rfl
      · rw [ef, rf, hf]

/-! ## Pumping -/

theorem feed_flags (r : Runtime) (fs : List Fed) :
    (fs.foldl feed r).peerSessionConnected = r.peerSessionConnected ∧
      (fs.foldl feed r).fedPeerSession = r.fedPeerSession ∧
      (fs.foldl feed r).owed = r.owed ∧
      (fs.foldl feed r).missed = r.missed ∧
      (fs.foldl feed r).lastSendFailed = (r.lastSendFailed || fs.any Fed.sendFailed) := by
  induction fs generalizing r with
  | nil => simp
  | cons f fs ih =>
      obtain ⟨hc, hf, ho, hm, hs⟩ := ih (r.feed f)
      refine ⟨hc, hf, ho, hm, ?_⟩
      rw [List.foldl_cons, hs, List.any_cons, ← Bool.or_assoc]
      rfl

theorem Telling.feed (h : Telling r) (fs : List Fed) :
    Telling (fs.foldl Runtime.feed r) := by
  obtain ⟨hc, hf, ho, hm, -⟩ := feed_flags r fs
  refine ⟨?_, hm.trans h.heard⟩
  rw [ho]
  unfold untold
  rw [hc, hf]
  exact h.found

theorem Telling.sendFailure (h : Telling r)
    (hfed : r.peerSessionConnected = true → r.lastSendFailed = true →
      r.fedPeerSession = true) :
    Telling r.noteSendFailure := by
  unfold noteSendFailure setPeerSessionConnected
  dsimp only
  split_ifs with hfailed hdown
  · exact ⟨h.found, h.heard⟩
  · have hup : r.peerSessionConnected = true := by simpa using hdown
    refine ⟨fun _ => ?_, h.heard⟩
    simp [untold, hfed hup hfailed]
  · exact h

/-- After the comparison nothing is owed. -/
theorem Telling.told (h : Telling r) (x : Inputs) (now : Nat) :
    Telling (r.feedPeerSession x now) ∧ (r.feedPeerSession x now).owed = false := by
  have hsame : r.peerSessionConnected = r.fedPeerSession → r.owed = false := by
    intro heq
    by_contra howed
    have hr := h.found (by simpa using howed)
    simp only [untold, heq] at hr
    cases hfed : r.fedPeerSession <;> simp [hfed] at hr
  have hup : r.peerSessionConnected = true → r.owed = false := by
    intro hup
    by_contra howed
    have hr := h.found (by simpa using howed)
    simp [untold, hup] at hr
  unfold feedPeerSession
  split_ifs with heq
  · exact ⟨h, hsame heq⟩
  · have hnone : (r.owed && r.peerSessionConnected) = false := by
      cases hc : r.peerSessionConnected
      · simp
      · simp [hup hc]
    refine ⟨⟨fun howed => ?_, h.heard⟩, hnone⟩
    change (r.owed && r.peerSessionConnected) = true at howed
    rw [hnone] at howed
    cases howed

theorem Telling.pump {p : Pump} (h : Telling r) (hp : r.PumpTells p) :
    Telling (r.pump p) ∧ (r.pump p).owed = false := by
  obtain ⟨hdrain, hsend⟩ := hp
  obtain ⟨hd, hup, hfed⟩ := h.drain hdrain
  obtain ⟨fc, ff, -, -, fs⟩ := feed_flags (r.drainRelay p.drain) p.first
  have hfirst := hd.feed p.first
  have hsent := hfirst.sendFailure (by
    rw [fc, ff, fs, hup, hfed, drainRelay_failed]
    exact hsend)
  obtain ⟨htold, hpaid⟩ := hsent.told p.inputs p.now
  refine ⟨htold.feed p.rest, ?_⟩
  exact (feed_flags _ p.rest).2.2.1.trans hpaid

theorem Telling.step {r' : Runtime} {call : Call} (h : Telling r) (hok : r.Tells call)
    (hstep : Step r call r') : Telling r' := by
  obtain rfl := hstep
  cases call with
  | drainRelay d => exact (h.drain hok).1
  | pump p => exact (h.pump hok).1

theorem telling_init (c : Cell) : Telling (init c) := ⟨(nomatch ·), rfl⟩

/-- A cell that is told of a loss holds no allowance, and its quiet window starts over. -/
theorem told_cell (x : Inputs) (now : Nat) (h : r.untold = true) :
    (r.feedPeerSession x now).cell.peerAllowance = none ∧
      (r.feedPeerSession x now).cell.cooldown = some ⟨max r.cell.now now, none⟩ := by
  simp only [untold, Bool.and_eq_true, Bool.not_eq_true'] at h
  unfold feedPeerSession
  simp only [h.1, h.2, Bool.false_eq_true, if_false]
  exact progress_gate ((r.cell.observeTime now).peerSessionChanged false) x

/--
In every run of the runtime that lets a loss be told, no envelope is handled
while a loss is untold, every pump ends with nothing untold, and telling empties
the allowance and restarts the window.
-/
theorem session_loss_reaches_cell (c : Cell) (r : Runtime)
    (hreach : Reach Step Tells (init c) r) :
    r.missed = false ∧ (∀ p, r.PumpTells p → (r.pump p).owed = false) ∧
      ∀ x now, r.owed = true →
        (r.feedPeerSession x now).cell.peerAllowance = none ∧
          (r.feedPeerSession x now).cell.cooldown = some ⟨max r.cell.now now, none⟩ := by
  have h : Telling r :=
    hreach.invariant (telling_init c) fun _ _ _ h hok hstep => h.step hok hstep
  exact ⟨h.heard, fun p hp => (h.pump hp).2,
    fun x now howed => told_cell x now (h.found howed)⟩

/-- A rejection, a pump, and an envelope after it. -/
theorem session_loss_reaches_leader :
    ∃ r, Reach Step Tells (init Sample.willing) r ∧ r.cell.peerAllowance = none ∧
      r.missed = false ∧ (∀ p, r.PumpTells p → (r.pump p).owed = false) ∧
      ∀ x now, r.owed = true →
        (r.feedPeerSession x now).cell.peerAllowance = none ∧
          (r.feedPeerSession x now).cell.cooldown = some ⟨max r.cell.now now, none⟩ := by
  have hrun : Along Runtime.next Tells (init Sample.willing)
      [.drainRelay { acks := [Sample.rejected] }, .pump { now := 9 },
        .drainRelay { envelopes := [Sample.arrival] }] := by decide +kernel
  exact ⟨_, hrun.reach, by decide +kernel, session_loss_reaches_cell _ _ hrun.reach⟩

/-- A rejection and an envelope in one drain: the leader enters on the old allowance. -/
theorem drained_recovery_hides_loss :
    ∃ r, Reach Step (fun _ _ => True) (init Sample.willing) r ∧ r.missed = true ∧
      r.cell.attempt.isSome = true ∧ r.cell.triggers = [] := by
  refine ⟨_,
    .tail (.drainRelay { acks := [Sample.rejected], envelopes := [Sample.arrival] })
    .refl trivial rfl, ?_⟩
  decide +kernel

end Runtime

end PairCell.Gate
