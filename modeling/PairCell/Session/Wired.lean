import PairCell.Session

/-!
# Which connection belongs to whom

A Worker uses a connection it opened itself, the registered connection of a
Worker is one of its own, and a connection carries nothing before it was
registered once.
-/

namespace PairCell

open Lib

namespace WorkerSessionConnection

variable {α β : Type}

def Waits (k : WorkerSessionConnection α β) : Prop := k.stage = .handshake ∨
  k.stage = .replacing

structure Empty (k : WorkerSessionConnection α β) : Prop where
  owed : k.owed = none
  outbound : k.outbound = []
  up : k.up = []
  down : k.down = []

theorem not_waits_of_serving {k : WorkerSessionConnection α β}
    (h : k.stage = .serving) : ¬ k.Waits := by
  simp [Waits, h]

@[simp] theorem transmit_stage (k : WorkerSessionConnection α β) (m : Downward α β) :
    (k.transmit m).stage = k.stage := by
  unfold transmit
  split <;> rfl

@[simp] theorem transmit_workerId (k : WorkerSessionConnection α β) (m : Downward α β) :
    (k.transmit m).workerId = k.workerId := by
  unfold transmit
  split <;> rfl

@[simp] theorem send_stage (k : WorkerSessionConnection α β) (f : Upward α β) :
    (k.send f).stage = k.stage := by
  unfold send
  split <;> rfl

@[simp] theorem send_workerId (k : WorkerSessionConnection α β) (f : Upward α β) :
    (k.send f).workerId = k.workerId := by
  unfold send
  split <;> rfl

end WorkerSessionConnection

namespace WorkerProcess

variable {α β : Type} {p : WorkerProcess α β}

theorem connection?_of_session {a : AuthenticatedWorkerSession α β}
    (h : p.session = some a) :
    p.connection? = some a.connection := by
  simp [connection?, h]

/-- A frame does not move a session to another connection. -/
theorem receiveIn_session {a : AuthenticatedWorkerSession α β} (h : p.session = some a)
    (m : Downward α β) : ∃ a', (p.receiveIn a m).session = some a' ∧
      a'.connection = a.connection := by
  cases m with
  | pushed m => cases m <;> exact ⟨_, rfl, rfl⟩
  | direct d =>
      cases d with
      | pairRelayAck k => exact ⟨_, rfl, rfl⟩
      | reply x =>
          cases hwait : a.awaiting with
          | some r =>
              simp only [receiveIn, hwait]
              exact ⟨_, rfl, rfl⟩
          | none =>
              simp only [receiveIn, hwait]
              exact ⟨a, h, rfl⟩

theorem receive_connection? {c : Nat} (h : p.connection? = some c) (m : Downward α β) :
    (p.receive m).connection? = some c ∨ (p.receive m).connection? = none := by
  unfold receive
  cases hsession : p.session with
  | some a =>
      obtain rfl : a.connection = c :=
        Option.some.inj ((connection?_of_session hsession).symm.trans h)
      obtain ⟨a', hnew, hsame⟩ := receiveIn_session hsession m
      exact .inl ((connection?_of_session hnew).trans (congrArg some hsame))
  | none =>
      have hopening : p.opening = some c := by simpa [connection?, hsession] using h
      simp only [hopening]
      unfold receiveOpening
      split
      · exact .inl rfl
      · right
        simp [connection?, hsession]

end WorkerProcess

namespace Network

variable {α β : Type} {n n' : Network α β} {c w : Nat}

/-! ## The parts of a step -/

section Parts

variable (n : Network α β) (f : WorkerSessionConnection α β → WorkerSessionConnection α β)

@[simp] theorem onConnection_self : (n.onConnection c f).connections c =
    f (n.connections c) :=
  Function.update_self ..

@[simp] theorem onConnection_workers : (n.onConnection c f).workers = n.workers := rfl

@[simp] theorem onConnection_workerConnections :
    (n.onConnection c f).workerConnections = n.workerConnections := rfl

theorem onConnection_of_ne {d : Nat} (h : d ≠ c) :
    (n.onConnection c f).connections d = n.connections d :=
  Function.update_of_ne h ..

@[simp] theorem withWorker_self (p : WorkerProcess α β) :
    (n.withWorker w p).workers w = p :=
  Function.update_self ..

@[simp] theorem withWorker_connections (p : WorkerProcess α β) :
    (n.withWorker w p).connections = n.connections := rfl

@[simp] theorem withWorker_workerConnections (p : WorkerProcess α β) :
    (n.withWorker w p).workerConnections = n.workerConnections := rfl

theorem withWorker_of_ne {v : Nat} (p : WorkerProcess α β) (h : v ≠ w) :
    (n.withWorker w p).workers v = n.workers v :=
  Function.update_of_ne h ..

@[simp] theorem register_self (x : Option Nat) :
    (n.register w x).workerConnections w = x :=
  Function.update_self ..

theorem register_of_ne {v : Nat} (x : Option Nat) (h : v ≠ w) :
    (n.register w x).workerConnections v = n.workerConnections v :=
  Function.update_of_ne h ..

end Parts

theorem idle_some {f : AuthenticatedWorkerSession α β → Network α β}
    (h : n.idle w f = some n') :
    ∃ a, (n.workers w).session = some a ∧ a.awaiting = none ∧ n' = f a := by
  unfold idle at h
  split at h
  · next a hsession =>
      obtain ⟨hidle, h⟩ := Option.ite_none_right_eq_some.1 h
      exact ⟨a, hsession, hidle, (Option.some.inj h).symm⟩
  · cases h

/-- What the controller does with an envelope, unless the session fails. -/
theorem serveRelay_some {requestId : Nat} {e : PairCellRelayEnvelope α}
    (h : n.serveRelay c requestId e = some n') :
    (∃ target, n.ledger.Carries e ∧ e.fromWorkerId = (n.connections c).workerId ∧
      n.workerConnections e.toWorkerId = some target ∧
      n' = (n.pushWorkerRelay target (.pairRelayDeliver e)).record
        ⟨c, (n.connections c).workerId, requestId, e, .ok target⟩) ∨
    ∃ reason, (n.ledger.Carries e → e.fromWorkerId = (n.connections c).workerId →
        n.workerConnections e.toWorkerId = none) ∧
      n' = n.record ⟨c, (n.connections c).workerId, requestId, e, .error reason⟩ := by
  simp only [serveRelay] at h
  split at h
  · next target l hrelay =>
      obtain ⟨hcarries, hfrom, htarget⟩ := ControlLedger.relayPairCellEnvelope_ok hrelay
      exact .inl ⟨target, hcarries, hfrom, htarget, (Option.some.inj h).symm⟩
  · next reason hrelay =>
      refine .inr ⟨reason, fun hcarries hfrom => ?_, (Option.some.inj h).symm⟩
      cases hpeer : n.workerConnections e.toWorkerId with
      | none => rfl
      | some d =>
          rw [← hfrom, ControlLedger.relayPairCellEnvelope_run hcarries hpeer] at hrelay
          cases hrelay
  · cases h

theorem supersede_stage (x : Option Nat) :
    ((n.supersede x).connections c).stage = (n.connections c).stage := by
  cases x with
  | none => rfl
  | some d =>
      by_cases hd : c = d
      · subst hd
        simp [supersede]
      · simp [supersede, onConnection_of_ne _ _ hd]

theorem waits_push {d : Nat} {m : Pushed α β} :
    ((n.pushWorkerRelay d m).connections c).Waits ↔ (n.connections c).Waits := by
  by_cases hd : c = d
  · subst hd
    simp [pushWorkerRelay, WorkerSessionConnection.push, WorkerSessionConnection.Waits]
  · simp [pushWorkerRelay, onConnection_of_ne _ _ hd]

theorem workerId_push {d : Nat} {m : Pushed α β} :
    ((n.pushWorkerRelay d m).connections c).workerId = (n.connections c).workerId := by
  by_cases hd : c = d
  · subst hd
    simp [pushWorkerRelay, WorkerSessionConnection.push]
  · simp [pushWorkerRelay, onConnection_of_ne _ _ hd]

/-! ## What a step has done -/

theorem serve_some {x : Handling β} (h : n.step (.serve c x) = some n') :
    ∃ f rest, (n.connections c).stage = .serving ∧ (n.connections c).up = f :: rest ∧
      (n.isAuthoritativeWorkerSession c = true ∧
          (n.onConnection c fun k => { k with up := rest }).handle c x f = some n' ∨
        n' = n.onConnection c fun k => { k with up := rest }) := by
  obtain ⟨⟨hstage, -, -⟩, h⟩ := Option.ite_none_right_eq_some.1 h
  split at h
  · cases h
  · next f rest hup =>
      refine ⟨f, rest, hstage, hup, ?_⟩
      simp only at h
      split at h
      · next hauth => exact .inl ⟨hauth, h⟩
      · exact .inr (Option.some.inj h).symm

theorem answer_some (h : n.step (.answer c) = some n') :
    ∃ d, (n.connections c).owed = some d ∧ (n.connections c).stage = .serving ∧
      n' = n.onConnection c fun k => { k.transmit (.direct d) with owed := none } := by
  simp only [step] at h
  split at h
  · next d hd =>
      obtain ⟨hstage, h⟩ := Option.ite_none_right_eq_some.1 h
      exact ⟨d, hd, hstage, (Option.some.inj h).symm⟩
  · cases h

theorem write_some (h : n.step (.write c) = some n') :
    ∃ m rest, (n.connections c).outbound = m :: rest ∧
      ((n.connections c).stage = .serving ∨ (n.connections c).stage = .closing) ∧
      n' = n.onConnection c fun k => { k.transmit (.pushed m) with outbound := rest } := by
  simp only [step] at h
  split at h
  · next m rest hout =>
      obtain ⟨hstage, h⟩ := Option.ite_none_right_eq_some.1 h
      exact ⟨m, rest, hout, hstage, (Option.some.inj h).symm⟩
  · cases h

theorem receive_some (h : n.step (.receive w) = some n') :
    ∃ c m rest, (n.workers w).connection? = some c ∧ (n.connections c).down = m :: rest ∧
      n' = (n.onConnection c fun k => { k with down := rest }).withWorker w
        ((n.workers w).receive m) := by
  simp only [step] at h
  split at h
  · cases h
  · next c hc =>
      split at h
      · cases h
      · next m rest hdown => exact ⟨c, m, rest, hc, hdown, (Option.some.inj h).symm⟩

theorem interrupt_some (h : n.step (.interrupt w) = some n') :
    ∃ a, (n.workers w).session = some a ∧
      n' = n.withWorker w
      { n.workers w with session := some { a with awaiting := none } } := by
  simp only [step] at h
  split at h
  · cases h
  · next a ha => exact ⟨a, ha, (Option.some.inj h).symm⟩

/-! ## The invariant -/

structure Wired (n : Network α β) : Prop where
  own : ∀ w c, (n.workers w).connection? = some c → c < n.opened ∧
      (n.connections c).workerId = w
  registered : ∀ w c, n.workerConnections w = some c →
    c < n.opened ∧ (n.connections c).workerId = w ∧ ¬ (n.connections c).Waits
  session : ∀ w a, (n.workers w).session = some a → ¬ (n.connections a.connection).Waits
  waiting : ∀ c, (n.connections c).Waits → (n.connections c).Empty

namespace Wired

theorem start (l : ControlLedger) : (start l : Network α β).Wired where
  own := fun _ _ h => nomatch h
  registered := fun _ _ h => nomatch h
  session := fun _ _ h => nomatch h
  waiting := fun _ _ => ⟨rfl, rfl, rfl, rfl⟩

/-- Two Workers do not share a connection. -/
theorem own_unique (h : n.Wired) {v : Nat} (hw : (n.workers w).connection? = some c)
    (hv : (n.workers v).connection? = some c) : w = v :=
  (h.own w c hw).2.symm.trans (h.own v c hv).2

theorem onConnection (h : n.Wired)
    {f : WorkerSessionConnection α β → WorkerSessionConnection α β}
    (hid : (f (n.connections c)).workerId = (n.connections c).workerId)
    (hwaits : (f (n.connections c)).Waits → (n.connections c).Waits ∧
      (f (n.connections c)).Empty) :
    (n.onConnection c f).Wired := by
  refine ⟨fun w d hd => ?_, fun w d hd => ?_, fun w a ha => ?_, fun d hd => ?_⟩
  · obtain ⟨hopened, hworker⟩ := h.own w d hd
    refine ⟨hopened, ?_⟩
    by_cases hdc : d = c
    · subst hdc
      rw [onConnection_self, hid, hworker]
    · rw [onConnection_of_ne _ _ hdc, hworker]
  · obtain ⟨hopened, hworker, hstage⟩ := h.registered w d hd
    refine ⟨hopened, ?_⟩
    by_cases hdc : d = c
    · subst hdc
      rw [onConnection_self, hid]
      exact ⟨hworker, fun hw => hstage (hwaits hw).1⟩
    · rw [onConnection_of_ne _ _ hdc]
      exact ⟨hworker, hstage⟩
  · have hstage := h.session w a ha
    by_cases hdc : a.connection = c
    · rw [hdc, onConnection_self]
      rw [hdc] at hstage
      exact fun hw => hstage (hwaits hw).1
    · rw [onConnection_of_ne _ _ hdc]
      exact hstage
  · by_cases hdc : d = c
    · subst hdc
      rw [onConnection_self] at hd ⊢
      exact (hwaits hd).2
    · rw [onConnection_of_ne _ _ hdc] at hd ⊢
      exact h.waiting d hd

/-- As above, for a connection that was registered before. -/
theorem onBusy (h : n.Wired)
    {f : WorkerSessionConnection α β → WorkerSessionConnection α β}
    (hid : (f (n.connections c)).workerId = (n.connections c).workerId)
    (hstage : (f (n.connections c)).stage = (n.connections c).stage)
    (hbusy : ¬ (n.connections c).Waits) : (n.onConnection c f).Wired := by
  refine h.onConnection hid fun hw => absurd ?_ hbusy
  simpa [WorkerSessionConnection.Waits, hstage] using hw

theorem withWorker (h : n.Wired) {p : WorkerProcess α β}
    (hown : ∀ c, p.connection? = some c → c < n.opened ∧ (n.connections c).workerId = w)
    (hsession : ∀ a, p.session = some a → ¬ (n.connections a.connection).Waits) :
    (n.withWorker w p).Wired := by
  refine ⟨fun v c hc => ?_, h.registered, fun v a ha => ?_, h.waiting⟩
  · by_cases hv : v = w
    · subst hv
      rw [withWorker_self] at hc
      exact hown c hc
    · rw [withWorker_of_ne _ _ hv] at hc
      exact h.own v c hc
  · by_cases hv : v = w
    · subst hv
      rw [withWorker_self] at ha
      exact hsession a ha
    · rw [withWorker_of_ne _ _ hv] at ha
      exact h.session v a ha

/-- The Worker stays on its connection. -/
theorem withSession (h : n.Wired) {p : WorkerProcess α β}
    {a a' : AuthenticatedWorkerSession α β} (hold : (n.workers w).session = some a)
    (hnew : p.session = some a') (hsame : a'.connection = a.connection) :
    (n.withWorker w p).Wired := by
  refine h.withWorker (fun c hc => ?_) fun b hb => ?_
  · refine h.own w c ?_
    rw [WorkerProcess.connection?_of_session hold, ← hc,
      WorkerProcess.connection?_of_session hnew, hsame]
  · obtain rfl := Option.some.inj (hnew.symm.trans hb)
    rw [hsame]
    exact h.session w a hold

theorem register (h : n.Wired) {x : Option Nat}
    (hx : ∀ c, x = some c →
      c < n.opened ∧ (n.connections c).workerId = w ∧ ¬ (n.connections c).Waits) :
    (n.register w x).Wired := by
  refine ⟨h.own, fun v c hc => ?_, h.session, h.waiting⟩
  by_cases hv : v = w
  · subst hv
    rw [register_self] at hc
    exact hx c hc
  · rw [register_of_ne _ _ hv] at hc
    exact h.registered v c hc

theorem push (h : n.Wired) {m : Pushed α β} (hbusy : ¬ (n.connections c).Waits) :
    (n.pushWorkerRelay c m).Wired :=
  h.onBusy rfl rfl hbusy

theorem pushPairCellMessage (h : n.Wired) (w : Nat) (message : β) :
    (n.pushPairCellMessage w message).Wired := by
  unfold Network.pushPairCellMessage
  split
  · next c hc => exact h.push (h.registered w c hc).2.2
  · exact h

theorem notify (h : n.Wired) (notices : List (Nat × β)) : (n.notify notices).Wired := by
  unfold Network.notify
  induction notices generalizing n with
  | nil => exact h
  | cons x notices ih => exact ih (h.pushPairCellMessage x.1 x.2)

theorem supersede (h : n.Wired) (x : Option Nat) : (n.supersede x).Wired := by
  cases x with
  | none => exact h
  | some c =>
      simp only [Network.supersede]
      refine h.onConnection rfl fun hw => ?_
      have hwaits : (n.connections c).Waits := hw
      obtain ⟨howed, hout, hup, hdown⟩ := h.waiting c hwaits
      exact ⟨hwaits, howed, hout, hup, hdown⟩

theorem record (h : n.Wired) {x : ServedRelay α}
    (hbusy : ¬ (n.connections x.connection).Waits) :
    (n.record x).Wired := by
  have howe : (n.owe x.connection (.pairRelayAck x.ack)).Wired := h.onBusy rfl rfl hbusy
  exact ⟨howe.own, howe.registered, howe.session, howe.waiting⟩

theorem connect (h : n.Wired) (hstep : n.step (.connect w) = some n') : n'.Wired := by
  obtain ⟨hnone, hstep⟩ := Option.ite_none_right_eq_some.1 hstep
  obtain rfl := Option.some.inj hstep
  have hsession : (n.workers w).session = none := by
    cases hs : (n.workers w).session with
    | none => rfl
    | some a => simp [WorkerProcess.connection?, hs] at hnone
  have hsame : ∀ d, d < n.opened →
      Function.update n.connections n.opened { workerId := w } d = n.connections d :=
    fun d hd => Function.update_of_ne (Nat.ne_of_lt hd) ..
  refine ⟨fun v d hd => ?_, fun v d hd => ?_, fun v a ha => ?_, fun d hd => ?_⟩
  · by_cases hv : v = w
    · subst hv
      obtain rfl : n.opened = d := by simpa [WorkerProcess.connection?, hsession] using hd
      exact ⟨Nat.lt_succ_self _, by simp⟩
    · change ((n.withWorker w _).workers v).connection? = some d at hd
      rw [withWorker_of_ne _ _ hv] at hd
      obtain ⟨hlt, hworker⟩ := h.own v d hd
      exact ⟨Nat.lt_succ_of_lt hlt, (congrArg _ (hsame d hlt)).trans hworker⟩
  · obtain ⟨hlt, hworker, hstage⟩ := h.registered v d hd
    refine ⟨Nat.lt_succ_of_lt hlt, ?_⟩
    simp only [hsame d hlt]
    exact ⟨hworker, hstage⟩
  · by_cases hv : v = w
    · subst hv
      simp [hsession] at ha
    · change ((n.withWorker w _).workers v).session = some a at ha
      rw [withWorker_of_ne _ _ hv] at ha
      obtain ⟨hlt, -⟩ := h.own v a.connection (WorkerProcess.connection?_of_session ha)
      simp only [hsame _ hlt]
      exact h.session v a ha
  · by_cases hdn : d = n.opened
    · subst hdn
      simp only [Function.update_self]
      exact ⟨rfl, rfl, rfl, rfl⟩
    · simp only [Function.update_of_ne hdn] at hd ⊢
      exact h.waiting d hd

theorem perform (h : n.Wired) (op : ControlLedger.Op) : (n.perform op).Wired :=
  ⟨h.own, h.registered, h.session, h.waiting⟩

theorem handle (h : n.Wired) (hbusy : ¬ (n.connections c).Waits) {x : Handling β}
    {f : Upward α β} (hstep : n.handle c x f = some n') : n'.Wired := by
  cases f with
  | pairRelay requestId e =>
      obtain ⟨target, -, -, htarget, rfl⟩ | ⟨reason, -, rfl⟩ := serveRelay_some hstep
      · refine (h.push (h.registered _ _ htarget).2.2).record ?_
        rw [waits_push]
        exact hbusy
      · exact h.record hbusy
  | control message =>
      obtain ⟨m, -, rfl⟩ := Option.map_eq_some_iff.1 hstep
      refine Wired.notify (Wired.push ?_ ?_) x.notices
      · cases x.op with
        | none => exact h
        | some op => exact h.perform op
      · cases x.op <;> exact hbusy
  | request r =>
      obtain ⟨y, -, rfl⟩ := Option.map_eq_some_iff.1 hstep
      exact h.onBusy rfl rfl hbusy

theorem receive (h : n.Wired) (hstep : n.step (.receive w) = some n') : n'.Wired := by
  obtain ⟨c, m, rest, hc, hdown, rfl⟩ := receive_some hstep
  have hbusy : ¬ (n.connections c).Waits := by
    intro hw
    simp [(h.waiting c hw).down] at hdown
  have hpop : (n.onConnection c fun k => { k with down := rest }).Wired :=
    h.onBusy rfl rfl hbusy
  refine hpop.withWorker (fun d hd => ?_) fun a ha => ?_
  · obtain hsame | hnone := WorkerProcess.receive_connection? hc m
    · obtain rfl := Option.some.inj (hsame.symm.trans hd)
      exact hpop.own w c hc
    · cases hnone.symm.trans hd
  · have ha' := WorkerProcess.connection?_of_session ha
    obtain hsame | hnone := WorkerProcess.receive_connection? hc m
    · obtain rfl := Option.some.inj (hsame.symm.trans ha')
      rw [onConnection_self]
      exact hbusy
    · cases hnone.symm.trans ha'

theorem step (h : n.Wired) {l : Label α β} (hstep : Step n l n') : n'.Wired := by
  unfold Step at hstep
  cases l with
  | connect w => exact h.connect hstep
  | authenticate c =>
      obtain ⟨⟨-, hstage, -⟩, hstep⟩ := Option.ite_none_right_eq_some.1 hstep
      obtain rfl := Option.some.inj hstep
      have hold := h.supersede (n.workerConnections (n.connections c).workerId)
      refine hold.onConnection rfl fun _ => ?_
      have hwaits :
          ((n.supersede (n.workerConnections (n.connections c).workerId)).connections
            c).Waits :=
        .inl ((supersede_stage ..).trans hstage)
      obtain ⟨howed, hout, hup, hdown⟩ := hold.waiting c hwaits
      exact ⟨hwaits, howed, hout, hup, hdown⟩
  | replace c cursor =>
      obtain ⟨⟨hopened, -⟩, hstep⟩ := Option.ite_none_right_eq_some.1 hstep
      obtain rfl := Option.some.inj hstep
      have hserving : (n.onConnection c fun k =>
          { k with stage := .serving,
                   owed := some (.reply (.authenticated cursor)) }).Wired :=
        h.onConnection rfl fun hw =>
          absurd hw (WorkerSessionConnection.not_waits_of_serving rfl)
      refine hserving.register fun d hd => ?_
      obtain rfl := Option.some.inj hd
      refine ⟨hopened, ?_, ?_⟩
      · rw [onConnection_self]
      · rw [onConnection_self]
        exact WorkerSessionConnection.not_waits_of_serving rfl
  | serve c x =>
      obtain ⟨f, rest, hstage, -, hcase⟩ := serve_some hstep
      have hbusy := WorkerSessionConnection.not_waits_of_serving hstage
      have hpop : (n.onConnection c fun k => { k with up := rest }).Wired :=
        h.onBusy rfl rfl hbusy
      obtain ⟨-, hhandle⟩ | rfl := hcase
      · refine hpop.handle ?_ hhandle
        rw [onConnection_self]
        exact hbusy
      · exact hpop
  | answer c =>
      obtain ⟨d, -, hstage, rfl⟩ := answer_some hstep
      exact h.onBusy (by simp) (by simp)
        (WorkerSessionConnection.not_waits_of_serving hstage)
  | write c =>
      obtain ⟨m, rest, -, hstage, rfl⟩ := write_some hstep
      refine h.onBusy (by simp) (by simp) ?_
      obtain hstage | hstage := hstage <;> simp [WorkerSessionConnection.Waits, hstage]
  | finish c =>
      obtain ⟨-, hstep⟩ := Option.ite_none_right_eq_some.1 hstep
      obtain rfl := Option.some.inj hstep
      exact h.onConnection rfl fun hw =>
        absurd hw (by simp [WorkerSessionConnection.Waits])
  | discard c =>
      obtain ⟨-, hstep⟩ := Option.ite_none_right_eq_some.1 hstep
      obtain rfl := Option.some.inj hstep
      have hended : (n.onConnection c fun k => { k with stage := .ended }).Wired :=
        h.onConnection rfl fun hw => absurd hw (by simp [WorkerSessionConnection.Waits])
      split
      · exact hended.register fun _ hd => nomatch hd
      · exact hended
  | ledger op =>
      obtain rfl := Option.some.inj hstep
      exact h.perform op
  | notice w message =>
      obtain rfl := Option.some.inj hstep
      exact h.pushPairCellMessage w message
  | forget w =>
      obtain rfl := Option.some.inj hstep
      exact h.register fun _ hd => nomatch hd
  | restart =>
      obtain rfl := Option.some.inj hstep
      have hended : ∀ c, ¬ ((n.restart).connections c).Waits := by
        simp [Network.restart, WorkerSessionConnection.Waits]
      exact ⟨h.own, fun _ _ hd => (nomatch hd), fun _ a _ => hended a.connection,
        fun d hw => absurd hw (hended d)⟩
  | cut c up down =>
      obtain rfl := Option.some.inj hstep
      refine h.onConnection rfl fun hw => ?_
      have hwaits : (n.connections c).Waits := hw
      obtain ⟨howed, hout, hup, hdown⟩ := h.waiting c hwaits
      exact ⟨hwaits, howed, hout, by simp [hup], by simp [hdown]⟩
  | receive w => exact h.receive hstep
  | drain w inbox =>
      obtain ⟨a, ha, -, rfl⟩ := idle_some hstep
      cases inbox <;> exact h.withSession ha rfl rfl
  | sendPairRelay w requestId e =>
      obtain ⟨a, ha, -, rfl⟩ := idle_some hstep
      exact (h.onBusy (by simp) (by simp) (h.session w a ha)).withSession ha ha rfl
  | sendPairCellControl w message =>
      obtain ⟨a, ha, -, rfl⟩ := idle_some hstep
      exact h.onBusy (by simp) (by simp) (h.session w a ha)
  | request w r =>
      obtain ⟨a, ha, -, rfl⟩ := idle_some hstep
      exact (h.onBusy (by simp) (by simp) (h.session w a ha)).withSession ha rfl rfl
  | interrupt w =>
      obtain ⟨a, ha, rfl⟩ := interrupt_some hstep
      exact h.withSession ha rfl rfl
  | abandon w =>
      obtain rfl := Option.some.inj hstep
      exact h.withWorker (fun _ hc => nomatch hc) fun _ ha => nomatch ha

theorem run {l : ControlLedger} (h : Run (Network.start l) n) : n.Wired :=
  h.invariant (Wired.start l) fun _ _ _ hn _ hstep => hn.step hstep

end Wired

end Network

end PairCell
