import Mathlib.Data.List.Basic
import PairCell.Session.Wired

/-!
# What a step does to the envelopes

Of all the envelopes and acknowledgements under way a step may lose some.  It
moves the rest along: a Worker sends one, the controller takes the first of a
registered connection and forwards it or does not, a cell takes all of its inbox.
-/

namespace PairCell

/-! ## What is under way -/

section Frames

variable {α β : Type}

def Upward.relay? : Upward α β → Option (Nat × PairCellRelayEnvelope α)
  | .pairRelay requestId e => some (requestId, e)
  | _ => none

def Pushed.delivery? : Pushed α β → Option (PairCellRelayEnvelope α)
  | .pairRelayDeliver e => some e
  | _ => none

def Downward.delivery? : Downward α β → Option (PairCellRelayEnvelope α)
  | .pushed m => m.delivery?
  | .direct _ => none

def DirectReply.ack? : DirectReply → Option RelayAck
  | .pairRelayAck k => some k
  | .reply _ => none

def Downward.ack? : Downward α β → Option RelayAck
  | .pushed _ => none
  | .direct d => d.ack?

/-- The envelope on its way to a Worker, with the connection it was forwarded to. -/
def ServedRelay.forward? (w : Nat) (x : ServedRelay α) :
    Option (Nat × PairCellRelayEnvelope α) :=
  match x.outcome with
  | .ok c => if x.envelope.toWorkerId = w then some (c, x.envelope) else none
  | .error _ => none

end Frames

namespace WorkerSessionConnection

variable {α β : Type} (k : WorkerSessionConnection α β)

def relays : List (Nat × PairCellRelayEnvelope α) := k.up.filterMap Upward.relay?

def deliveries : List (PairCellRelayEnvelope α) :=
  k.down.filterMap Downward.delivery? ++ k.outbound.filterMap Pushed.delivery?

def acks : List RelayAck :=
  k.down.filterMap Downward.ack? ++ (k.owed.bind DirectReply.ack?).toList

theorem deliveries_cons {m : Downward α β} {rest : List (Downward α β)}
    (h : k.down = m :: rest) :
    k.deliveries = m.delivery?.toList ++ { k with down := rest }.deliveries := by
  cases hm : m.delivery? <;> simp [deliveries, h, hm]

theorem acks_cons {m : Downward α β} {rest : List (Downward α β)}
    (h : k.down = m :: rest) :
    k.acks = m.ack?.toList ++ { k with down := rest }.acks := by
  cases hm : m.ack? <;> simp [acks, h, hm]

/-- Nothing comes onto the connection that an envelope or its acknowledgement is in. -/
structure Shrinks (k' : WorkerSessionConnection α β) : Prop where
  relays : k'.relays.Sublist k.relays
  deliveries : k'.deliveries.Sublist k.deliveries
  acks : k'.acks.Sublist k.acks

end WorkerSessionConnection

namespace WorkerProcess

variable {α β : Type} (p : WorkerProcess α β)

def inbox : List (PairCellRelayEnvelope α) := p.session.elim [] fun a => a.pairRelayInbox

def ackInbox : List RelayAck := p.session.elim [] fun a => a.pairRelayAckInbox

variable {p}

theorem inbox_of_session {a : AuthenticatedWorkerSession α β} (h : p.session = some a) :
    p.inbox = a.pairRelayInbox ∧ p.ackInbox = a.pairRelayAckInbox := by
  simp [inbox, ackInbox, h]

theorem receiveIn_inbox {a : AuthenticatedWorkerSession α β} (h : p.session = some a)
    (m : Downward α β) :
    (p.receiveIn a m).inbox = a.pairRelayInbox ++ m.delivery?.toList ∧
      (p.receiveIn a m).ackInbox.Sublist (a.pairRelayAckInbox ++ m.ack?.toList) := by
  cases m with
  | pushed m =>
      cases m with
      | pairRelayDeliver e => exact ⟨rfl, List.sublist_append_left _ _⟩
      | pairCellResult b => exact ⟨(List.append_nil _).symm, List.sublist_append_left _ _⟩
      | pairCellPush b => exact ⟨(List.append_nil _).symm, List.sublist_append_left _ _⟩
  | direct d =>
      cases d with
      | pairRelayAck k => exact ⟨(List.append_nil _).symm, keepNewest_sublist _ _⟩
      | reply x =>
          simp only [receiveIn]
          split
          · exact ⟨(List.append_nil _).symm, List.sublist_append_left _ _⟩
          · obtain ⟨hinbox, hackInbox⟩ := inbox_of_session h
            exact ⟨hinbox.trans (List.append_nil _).symm,
              hackInbox ▸ List.sublist_append_left _ _⟩

theorem receive_inbox (m : Downward α β) :
    (p.receive m).inbox.Sublist (p.inbox ++ m.delivery?.toList) ∧
      (p.receive m).ackInbox.Sublist (p.ackInbox ++ m.ack?.toList) := by
  unfold receive
  cases hsession : p.session with
  | some a =>
      obtain ⟨hinbox, hackInbox⟩ := inbox_of_session hsession
      obtain ⟨henvelopes, hacks⟩ := receiveIn_inbox hsession m
      rw [hinbox, hackInbox, henvelopes]
      exact ⟨.refl _, hacks⟩
  | none =>
      cases p.opening with
      | none => simp
      | some c =>
          simp only [receiveOpening]
          split <;> simp [inbox, ackInbox, hsession]

/-- A frame by itself moves no envelope of the cell. -/
theorem receive_kept (m : Downward α β) :
    (p.receive m).sent = p.sent ∧ (p.receive m).drained = p.drained ∧
      (p.receive m).drainedAcks = p.drainedAcks := by
  unfold receive
  cases p.session with
  | some a =>
      simp only [receiveIn]
      cases m with
      | pushed m => cases m <;> exact ⟨rfl, rfl, rfl⟩
      | direct d =>
          cases d with
          | pairRelayAck k => exact ⟨rfl, rfl, rfl⟩
          | reply x => cases a.awaiting <;> exact ⟨rfl, rfl, rfl⟩
  | none =>
      cases p.opening with
      | none => exact ⟨rfl, rfl, rfl⟩
      | some c =>
          simp only [receiveOpening]
          split <;> exact ⟨rfl, rfl, rfl⟩

end WorkerProcess

namespace Network

variable {α β : Type}

section UnderWay

variable (n : Network α β)

def outgoing (v : Nat) : List (Nat × PairCellRelayEnvelope α) :=
  (n.workerConnections v).elim [] fun c => (n.connections c).relays

def incoming (w : Nat) : List (Nat × PairCellRelayEnvelope α) :=
  (n.workers w).connection?.elim [] fun c =>
    ((n.workers w).inbox ++ (n.connections c).deliveries).map (Prod.mk c)

def incomingAcks (w : Nat) : List (Nat × RelayAck) :=
  (n.workers w).connection?.elim [] fun c =>
    ((n.workers w).ackInbox ++ (n.connections c).acks).map (Prod.mk c)

end UnderWay

/-! ## What a step moves -/

/-- The controller takes up the frame of a connection, as the log has it. -/
structure Serves (n : Network α β) (x : ServedRelay α) : Prop where
  authoritative : n.isAuthoritativeWorkerSession x.connection = true
  worker : (n.connections x.connection).workerId = x.workerId
  frame : (n.connections x.connection).up.head? = some (.pairRelay x.requestId x.envelope)
  forwarded : ∀ c, x.outcome = .ok c → n.ledger.Carries x.envelope ∧
    x.envelope.fromWorkerId = x.workerId ∧
    n.workerConnections x.envelope.toWorkerId = some c
  refused : ∀ reason, x.outcome = .error reason → n.ledger.Carries x.envelope →
    x.envelope.fromWorkerId = x.workerId → n.workerConnections x.envelope.toWorkerId = none

/-- A step sends, serves and drains these and nothing else. -/
structure Moves (n n' : Network α β) (sends : Nat → List (Nat × PairCellRelayEnvelope α))
    (serves : List (ServedRelay α)) (drains : Nat → List (Nat × PairCellRelayEnvelope α))
    (ackDrains : Nat → List (Nat × RelayAck)) : Prop where
  genuine : ∀ x ∈ serves, n.Serves x
  sent : ∀ v, (n'.workers v).sent = (n.workers v).sent ++ sends v
  served : n'.served = n.served ++ serves
  drained : ∀ w, (n'.workers w).drained = (n.workers w).drained ++ drains w
  drainedAcks : ∀ w, (n'.workers w).drainedAcks = (n.workers w).drainedAcks ++ ackDrains w
  outgoing : ∀ v, ∃ rest, (n'.outgoing v).Sublist rest ∧ n.outgoing v ++ sends v =
    ((serves.filter fun x => decide (x.workerId = v)).map fun x =>
        (x.requestId, x.envelope)) ++ rest
  incoming : ∀ w, ∃ rest, (n'.incoming w).Sublist rest ∧
    n.incoming w ++ serves.filterMap (ServedRelay.forward? w) = drains w ++ rest
  incomingAcks : ∀ w, ∃ rest, (n'.incomingAcks w).Sublist rest ∧ n.incomingAcks w ++
    ((serves.filter fun x => decide (x.workerId = w)).map fun x => (x.connection, x.ack)) =
      ackDrains w ++ rest

/-- A step on which no envelope is sent, served or drained; some may be lost. -/
structure Quiet (n n' : Network α β) : Prop where
  sent : ∀ v, (n'.workers v).sent = (n.workers v).sent
  served : n'.served = n.served
  drained : ∀ w, (n'.workers w).drained = (n.workers w).drained
  drainedAcks : ∀ w, (n'.workers w).drainedAcks = (n.workers w).drainedAcks
  outgoing : ∀ v, (n'.outgoing v).Sublist (n.outgoing v)
  incoming : ∀ w, (n'.incoming w).Sublist (n.incoming w)
  incomingAcks : ∀ w, (n'.incomingAcks w).Sublist (n.incomingAcks w)

variable {n n' n'' : Network α β} {c w : Nat}

theorem Quiet.moves (h : Quiet n n') :
    Moves n n' (fun _ => []) [] (fun _ => []) fun _ => [] where
  genuine x hx := nomatch hx
  sent v := by rw [h.sent, List.append_nil]
  served := by rw [h.served, List.append_nil]
  drained w := by rw [h.drained, List.append_nil]
  drainedAcks w := by rw [h.drainedAcks, List.append_nil]
  outgoing v := ⟨_, h.outgoing v, by simp⟩
  incoming w := ⟨_, h.incoming w, by simp⟩
  incomingAcks w := ⟨_, h.incomingAcks w, by simp⟩

theorem Quiet.refl (n : Network α β) : Quiet n n :=
  ⟨fun _ => rfl, rfl, fun _ => rfl, fun _ => rfl, fun _ => .refl _, fun _ => .refl _,
    fun _ => .refl _⟩

theorem Quiet.trans (h : Quiet n n') (h' : Quiet n' n'') : Quiet n n'' where
  sent v := (h'.sent v).trans (h.sent v)
  served := h'.served.trans h.served
  drained w := (h'.drained w).trans (h.drained w)
  drainedAcks w := (h'.drainedAcks w).trans (h.drainedAcks w)
  outgoing v := (h'.outgoing v).trans (h.outgoing v)
  incoming w := (h'.incoming w).trans (h.incoming w)
  incomingAcks w := (h'.incomingAcks w).trans (h.incomingAcks w)

section OneConnection

variable {f : WorkerSessionConnection α β → WorkerSessionConnection α β}

theorem outgoing_onConnection
    (h : (f (n.connections c)).relays.Sublist (n.connections c).relays) (v : Nat) :
    ((n.onConnection c f).outgoing v).Sublist (n.outgoing v) := by
  simp only [Network.outgoing, onConnection_workerConnections]
  cases n.workerConnections v with
  | none => exact .refl _
  | some d =>
      by_cases hd : d = c
      · subst hd
        simpa using h
      · simp [onConnection_of_ne _ _ hd]

theorem incoming_onConnection
    (h : (f (n.connections c)).deliveries.Sublist (n.connections c).deliveries) (w : Nat) :
    ((n.onConnection c f).incoming w).Sublist (n.incoming w) := by
  simp only [Network.incoming, onConnection_workers]
  cases (n.workers w).connection? with
  | none => exact .refl _
  | some d =>
      by_cases hd : d = c
      · subst hd
        simp only [Option.elim_some, onConnection_self]
        exact ((List.Sublist.refl _).append h).map _
      · simp [onConnection_of_ne _ _ hd]

theorem incomingAcks_onConnection
    (h : (f (n.connections c)).acks.Sublist (n.connections c).acks) (w : Nat) :
    ((n.onConnection c f).incomingAcks w).Sublist (n.incomingAcks w) := by
  simp only [Network.incomingAcks, onConnection_workers]
  cases (n.workers w).connection? with
  | none => exact .refl _
  | some d =>
      by_cases hd : d = c
      · subst hd
        simp only [Option.elim_some, onConnection_self]
        exact ((List.Sublist.refl _).append h).map _
      · simp [onConnection_of_ne _ _ hd]

theorem Quiet.onConnection (h : (n.connections c).Shrinks (f (n.connections c))) :
    Quiet n (n.onConnection c f) :=
  ⟨fun _ => rfl, rfl, fun _ => rfl, fun _ => rfl, outgoing_onConnection h.relays,
    incoming_onConnection h.deliveries, incomingAcks_onConnection h.acks⟩

end OneConnection

theorem incoming_kept {p : WorkerProcess α β}
    (hinbox : p.inbox.Sublist (n.workers w).inbox)
    (hc : p.connection? = (n.workers w).connection? ∨ p.connection? = none) (v : Nat) :
    ((n.withWorker w p).incoming v).Sublist (n.incoming v) := by
  by_cases hv : v = w
  · subst hv
    simp only [Network.incoming, withWorker_self, withWorker_connections]
    obtain hsame | hnone := hc
    · rw [hsame]
      cases (n.workers v).connection? with
      | none => exact .refl _
      | some d => exact (hinbox.append (.refl _)).map _
    · rw [hnone]
      exact List.nil_sublist _
  · simp [Network.incoming, withWorker_of_ne _ _ hv]

theorem incomingAcks_kept {p : WorkerProcess α β}
    (hinbox : p.ackInbox.Sublist (n.workers w).ackInbox)
    (hc : p.connection? = (n.workers w).connection? ∨ p.connection? = none) (v : Nat) :
    ((n.withWorker w p).incomingAcks v).Sublist (n.incomingAcks v) := by
  by_cases hv : v = w
  · subst hv
    simp only [Network.incomingAcks, withWorker_self, withWorker_connections]
    obtain hsame | hnone := hc
    · rw [hsame]
      cases (n.workers v).connection? with
      | none => exact .refl _
      | some d => exact (hinbox.append (.refl _)).map _
    · rw [hnone]
      exact List.nil_sublist _
  · simp [Network.incomingAcks, withWorker_of_ne _ _ hv]

theorem same_withWorker {γ : Type} {p : WorkerProcess α β} (g : WorkerProcess α β → γ)
    (h : g p = g (n.workers w)) (v : Nat) : g ((n.withWorker w p).workers v) =
      g (n.workers v) := by
  by_cases hv : v = w
  · subst hv
    rw [withWorker_self, h]
  · rw [withWorker_of_ne _ _ hv]

theorem Quiet.withWorker {p : WorkerProcess α β} (hsent : p.sent = (n.workers w).sent)
    (hdrained : p.drained = (n.workers w).drained)
    (hdrainedAcks : p.drainedAcks = (n.workers w).drainedAcks)
    (hinbox : p.inbox.Sublist (n.workers w).inbox)
    (hackInbox : p.ackInbox.Sublist (n.workers w).ackInbox)
    (hc : p.connection? = (n.workers w).connection? ∨ p.connection? = none) :
    Quiet n (n.withWorker w p) :=
  ⟨same_withWorker _ hsent, rfl, same_withWorker _ hdrained,
    same_withWorker _ hdrainedAcks,
    fun _ => .refl _, incoming_kept hinbox hc, incomingAcks_kept hackInbox hc⟩

theorem Quiet.register {x : Option Nat}
    (hx : ∀ c, x = some c → (n.connections c).relays = []) :
    Quiet n (n.register w x) := by
  refine ⟨fun _ => rfl, rfl, fun _ => rfl, fun _ => rfl, fun v => ?_, fun _ => .refl _,
    fun _ => .refl _⟩
  by_cases hv : v = w
  · subst hv
    simp only [Network.outgoing, register_self]
    cases x with
    | none => exact List.nil_sublist _
    | some c =>
        have hnil : ((n.register v (some c)).connections c).relays = [] := hx c rfl
        simp only [Option.elim_some, hnil]
        exact List.nil_sublist _
  · simp only [Network.outgoing, register_of_ne _ _ hv]
    exact .refl _

/-! ## Steps on which envelopes move -/

theorem outgoing_pop {requestId : Nat} {e : PairCellRelayEnvelope α}
    {rest : List (Upward α β)}
    (hup : (n.connections c).up = .pairRelay requestId e :: rest)
    (hauth : n.isAuthoritativeWorkerSession c = true) (hw : n.Wired) (v : Nat) :
    n.outgoing v = (if (n.connections c).workerId = v then [(requestId, e)] else []) ++
      (n.onConnection c fun k => { k with up := rest }).outgoing v := by
  have hregistered : n.workerConnections (n.connections c).workerId = some c :=
    of_decide_eq_true (Bool.and_eq_true_iff.1 hauth).2
  simp only [Network.outgoing, onConnection_workerConnections]
  by_cases hv : (n.connections c).workerId = v
  · subst hv
    simp [hregistered, WorkerSessionConnection.relays, hup, Upward.relay?]
  · rw [if_neg hv, List.nil_append]
    cases hd : n.workerConnections v with
    | none => rfl
    | some d =>
        have hdc : d ≠ c := by
          rintro rfl
          exact hv (hw.registered v d hd).2.1
        simp [onConnection_of_ne _ _ hdc]

theorem incoming_push {u d : Nat} {e : PairCellRelayEnvelope α} (hw : n.Wired)
    (hd : n.workerConnections u = some d) (w : Nat) :
    ((n.pushWorkerRelay d (.pairRelayDeliver e)).incoming w).Sublist
      (n.incoming w ++ if u = w then [(d, e)] else []) := by
  simp only [Network.incoming, pushWorkerRelay, onConnection_workers]
  cases hc : (n.workers w).connection? with
  | none => exact List.nil_sublist _
  | some c =>
      by_cases hcd : c = d
      · subst hcd
        obtain rfl : u = w := (hw.registered u c hd).2.1.symm.trans (hw.own w c hc).2
        simp [WorkerSessionConnection.push, WorkerSessionConnection.deliveries,
          Pushed.delivery?]
      · simp [onConnection_of_ne _ _ hcd]

theorem incomingAcks_owe {k : RelayAck} (hw : n.Wired) (w : Nat) :
    ((n.owe c (.pairRelayAck k)).incomingAcks w).Sublist
      (n.incomingAcks w ++ if (n.connections c).workerId = w then [(c, k)] else []) := by
  simp only [Network.incomingAcks, owe, onConnection_workers]
  cases hd : (n.workers w).connection? with
  | none => exact List.nil_sublist _
  | some d =>
      by_cases hdc : d = c
      · subst hdc
        have hworker := (hw.own w d hd).2
        simp [WorkerSessionConnection.acks, DirectReply.ack?, hworker]
      · simp [onConnection_of_ne _ _ hdc]

theorem Quiet.push {d : Nat} {m : Pushed α β} (hm : m.delivery? = none) :
    Quiet n (n.pushWorkerRelay d m) :=
  Quiet.onConnection ⟨.refl _, by
    simp [WorkerSessionConnection.deliveries, WorkerSessionConnection.push, hm], .refl _⟩

theorem Quiet.pushPairCellMessage (w : Nat) (message : β) :
    Quiet n (n.pushPairCellMessage w message) := by
  unfold Network.pushPairCellMessage
  split
  · exact .push rfl
  · exact .refl n

theorem Quiet.notify (notices : List (Nat × β)) : Quiet n (n.notify notices) := by
  unfold Network.notify
  induction notices generalizing n with
  | nil => exact .refl n
  | cons x notices ih => exact (Quiet.pushPairCellMessage x.1 x.2).trans ih

theorem Quiet.perform (op : ControlLedger.Op) : Quiet n (n.perform op) :=
  ⟨fun _ => rfl, rfl, fun _ => rfl, fun _ => rfl, fun _ => .refl _, fun _ => .refl _,
    fun _ => .refl _⟩

/-- An envelope is taken off the wire, perhaps queued for the peer, and its answer due. -/
theorem record_moves {n₁ n₂ : Network α β} {x : ServedRelay α} (hw : n₂.Wired)
    (hgenuine : n.Serves x) (hworkers : n₂.workers = n.workers)
    (hserved : n₂.served = n.served)
    (hown : (n₂.connections x.connection).workerId = x.workerId)
    (hpop : ∀ v, n.outgoing v =
      (if x.workerId = v then [(x.requestId, x.envelope)] else []) ++ n₁.outgoing v)
    (hout : ∀ v, (n₂.outgoing v).Sublist (n₁.outgoing v))
    (hin : ∀ w, (n₂.incoming w).Sublist (n.incoming w ++ (x.forward? w).toList))
    (hacks : ∀ w, (n₂.incomingAcks w).Sublist (n.incomingAcks w)) :
    Moves n (n₂.record x) (fun _ => []) [x] (fun _ => []) fun _ => [] where
  genuine y hy := by
    obtain rfl := List.mem_singleton.1 hy
    exact hgenuine
  sent v := by rw [List.append_nil, ← hworkers]; rfl
  served := congrArg (· ++ [x]) hserved
  drained w := by rw [List.append_nil, ← hworkers]; rfl
  drainedAcks w := by rw [List.append_nil, ← hworkers]; rfl
  outgoing v := by
    refine ⟨n₁.outgoing v, ?_, ?_⟩
    · have howe := outgoing_onConnection (n := n₂) (c := x.connection)
        (f := fun k => { k with owed := some (.pairRelayAck x.ack) }) (.refl _) v
      exact howe.trans (hout v)
    · rw [hpop v]
      by_cases hv : x.workerId = v <;> simp [hv]
  incoming w := by
    refine ⟨_, ?_, List.nil_append _⟩
    have howe := incoming_onConnection (n := n₂) (c := x.connection)
      (f := fun k => { k with owed := some (.pairRelayAck x.ack) }) (.refl _) w
    refine (howe.trans (hin w)).trans ?_
    cases hx : x.forward? w <;> simp [hx]
  incomingAcks w := by
    refine ⟨_, ?_, List.nil_append _⟩
    refine (incomingAcks_owe hw w).trans ?_
    rw [hown]
    by_cases hv : x.workerId = w <;> simp [hv, hacks w]

theorem serve_moves {x : Handling β} (hw : n.Wired)
    (hstep : n.step (.serve c x) = some n') :
    ∃ serves, Moves n n' (fun _ => []) serves (fun _ => []) fun _ => [] := by
  obtain ⟨f, rest, hstage, hup, hcase⟩ := serve_some hstep
  have hpop : Quiet n (n.onConnection c fun k => { k with up := rest }) := by
    refine .onConnection ⟨?_, .refl _, .refl _⟩
    simp only [WorkerSessionConnection.relays, hup]
    exact (List.sublist_cons_self f rest).filterMap _
  obtain ⟨hauth, hhandle⟩ | rfl := hcase
  · cases f with
    | request r =>
        obtain ⟨y, -, rfl⟩ := Option.map_eq_some_iff.1 hhandle
        refine ⟨[], (hpop.trans ?_).moves⟩
        exact .onConnection ⟨.refl _, .refl _,
          by simp [WorkerSessionConnection.acks, DirectReply.ack?]⟩
    | control message =>
        obtain ⟨m, -, rfl⟩ := Option.map_eq_some_iff.1 hhandle
        refine ⟨[], (hpop.trans (Quiet.trans ?_ (Quiet.notify _))).moves⟩
        cases x.op with
        | none => exact .push rfl
        | some op => exact (Quiet.perform op).trans (.push rfl)
    | pairRelay requestId e =>
        have hwired : (n.onConnection c fun k => { k with up := rest }).Wired :=
          hw.onBusy rfl rfl (WorkerSessionConnection.not_waits_of_serving hstage)
        have hworker :
            ((n.onConnection c fun k => { k with up := rest }).connections c).workerId =
            (n.connections c).workerId := by simp
        have hframe : (n.connections c).up.head? = some (.pairRelay requestId e) := by
          rw [hup]; rfl
        obtain ⟨target, hcarries, hfrom, htarget, rfl⟩ | ⟨reason, hrefused, rfl⟩ :=
          serveRelay_some hhandle
        · rw [hworker] at hfrom ⊢
          refine ⟨_, record_moves (hwired.push (hwired.registered _ _ htarget).2.2)
            ⟨hauth, rfl, hframe, ?_, fun _ hd => nomatch hd⟩ rfl rfl
              (workerId_push.trans hworker)
            (outgoing_pop hup hauth hw)
              (fun v => outgoing_onConnection (.refl _) v) (fun w => ?_)
            fun w => (incomingAcks_onConnection (.refl _) w).trans (hpop.incomingAcks w)⟩
          · intro d hd
            obtain rfl := Except.ok.inj hd
            exact ⟨hcarries, hfrom, htarget⟩
          · refine ((incoming_push hwired htarget w).trans
              ((hpop.incoming w).append (.refl _))).trans ?_
            by_cases hv : e.toWorkerId = w <;> simp [ServedRelay.forward?, hv]
        · rw [hworker] at hrefused ⊢
          refine ⟨_, record_moves hwired
            ⟨hauth, rfl, hframe, fun _ hd => (nomatch hd), fun _ _ => hrefused⟩ rfl rfl
            hworker (outgoing_pop hup hauth hw) (fun _ => .refl _)
            (fun w => ?_) hpop.incomingAcks⟩
          exact (hpop.incoming w).trans (List.sublist_append_left _ _)
  · exact ⟨[], hpop.moves⟩

theorem incoming_withWorker {p : WorkerProcess α β} {gone : List (PairCellRelayEnvelope α)}
    (hold : (n.workers w).connection? = some c) (hnew : p.connection? = some c)
    (hinbox : (n.workers w).inbox = gone ++ p.inbox) (v : Nat) :
    n.incoming v = (if w = v then gone.map (Prod.mk c) else []) ++
      (n.withWorker w p).incoming v := by
  by_cases hv : w = v
  · subst hv
    simp [Network.incoming, hold, hnew, hinbox]
  · simp [Network.incoming, withWorker_of_ne _ _ (Ne.symm hv), hv]

theorem incomingAcks_withWorker {p : WorkerProcess α β} {gone : List RelayAck}
    (hold : (n.workers w).connection? = some c) (hnew : p.connection? = some c)
    (hinbox : (n.workers w).ackInbox = gone ++ p.ackInbox) (v : Nat) :
    n.incomingAcks v =
      (if w = v then gone.map (Prod.mk c) else []) ++
      (n.withWorker w p).incomingAcks v := by
  by_cases hv : w = v
  · subst hv
    simp [Network.incomingAcks, hold, hnew, hinbox]
  · simp [Network.incomingAcks, withWorker_of_ne _ _ (Ne.symm hv), hv]

theorem outgoing_send {requestId : Nat} {e : PairCellRelayEnvelope α} (hw : n.Wired)
    (hown : (n.connections c).workerId = w) (v : Nat) :
    ((n.onConnection c fun k => k.send (.pairRelay requestId e)).outgoing v).Sublist
      (n.outgoing v ++ if w = v then [(requestId, e)] else []) := by
  simp only [Network.outgoing, onConnection_workerConnections]
  cases hd : n.workerConnections v with
  | none => exact List.nil_sublist _
  | some d =>
      by_cases hdc : d = c
      · subst hdc
        obtain rfl : w = v := hown.symm.trans (hw.registered v d hd).2.1
        simp only [Option.elim_some, onConnection_self, if_true]
        unfold WorkerSessionConnection.send
        split
        · simp [WorkerSessionConnection.relays, Upward.relay?]
        · exact List.sublist_append_left _ _
      · simp [onConnection_of_ne _ _ hdc]

/-- A step of one Worker, after it has touched a connection. -/
theorem worker_moves {n₁ : Network α β} {p : WorkerProcess α β}
    {sends drains : List (Nat × PairCellRelayEnvelope α)}
    {ackDrains : List (Nat × RelayAck)} (hworkers : n₁.workers = n.workers)
    (hserved : n₁.served = n.served) (hsent : p.sent = (n.workers w).sent ++ sends)
    (hdrained : p.drained = (n.workers w).drained ++ drains)
    (hdrainedAcks : p.drainedAcks = (n.workers w).drainedAcks ++ ackDrains)
    (hout : ∀ v, (n₁.outgoing v).Sublist (n.outgoing v ++ if w = v then sends else []))
    (hin : ∀ v, ∃ rest, ((n₁.withWorker w p).incoming v).Sublist rest ∧
      n.incoming v = (if w = v then drains else []) ++ rest)
    (hacks : ∀ v, ∃ rest, ((n₁.withWorker w p).incomingAcks v).Sublist rest ∧
      n.incomingAcks v = (if w = v then ackDrains else []) ++ rest) :
    Moves n (n₁.withWorker w p) (fun v => if w = v then sends else []) []
      (fun v => if w = v then drains else []) fun v =>
        if w = v then ackDrains else [] := by
  have grow : ∀ {γ : Type} (g : WorkerProcess α β → List γ) (ms : List γ),
      g p = g (n.workers w) ++ ms → ∀ v, g ((n₁.withWorker w p).workers v) =
        g (n.workers v) ++ if w = v then ms else [] := by
    intro γ g ms h v
    by_cases hv : w = v
    · subst hv
      simp [h]
    · simp [withWorker_of_ne _ _ (Ne.symm hv), hv, hworkers]
  refine ⟨fun _ hx => (nomatch hx), grow _ _ hsent, ?_, grow _ _ hdrained,
    grow _ _ hdrainedAcks,
    fun v => ⟨_, hout v, rfl⟩, fun v => ?_, fun v => ?_⟩
  · rw [List.append_nil]
    exact hserved
  · simpa using hin v
  · simpa using hacks v

theorem send_shrinks (k : WorkerSessionConnection α β) (f : Upward α β) :
    (k.send f).deliveries = k.deliveries ∧ (k.send f).acks = k.acks := by
  unfold WorkerSessionConnection.send
  split <;> exact ⟨rfl, rfl⟩

theorem send_moves {requestId : Nat} {e : PairCellRelayEnvelope α} (hw : n.Wired)
    (hstep : n.step (.sendPairRelay w requestId e) = some n') :
    ∃ sends drains ackDrains, Moves n n' sends [] drains ackDrains := by
  obtain ⟨a, ha, -, rfl⟩ := idle_some hstep
  have hc := WorkerProcess.connection?_of_session ha
  refine ⟨_, _, _, worker_moves rfl rfl rfl (List.append_nil _).symm
    (List.append_nil _).symm
    (outgoing_send hw (hw.own w _ hc).2) (fun v => ⟨n.incoming v, ?_, by simp⟩)
    fun v => ⟨n.incomingAcks v, ?_, by simp⟩⟩
  · refine (incoming_kept ?_ (.inl ?_) v).trans (incoming_onConnection ?_ v)
    · exact .refl _
    · rfl
    · rw [(send_shrinks ..).1]
  · refine (incomingAcks_kept ?_ (.inl ?_) v).trans (incomingAcks_onConnection ?_ v)
    · exact .refl _
    · rfl
    · rw [(send_shrinks ..).2]

theorem drain_moves {inbox : Inbox} (hstep : n.step (.drain w inbox) = some n') :
    ∃ sends drains ackDrains, Moves n n' sends [] drains ackDrains := by
  obtain ⟨a, ha, -, rfl⟩ := idle_some hstep
  have hc := WorkerProcess.connection?_of_session ha
  have hinbox : (n.workers w).inbox = a.pairRelayInbox := by simp [WorkerProcess.inbox, ha]
  have hackInbox : (n.workers w).ackInbox = a.pairRelayAckInbox := by
    simp [WorkerProcess.ackInbox, ha]
  have hnil : ∀ {γ : Type} (ms : List γ), ms = ms ++ [] :=
    fun ms => (List.append_nil ms).symm
  cases inbox with
  | pairRelayEnvelopes =>
      refine ⟨_, _, _, worker_moves (rfl : n.workers = n.workers) rfl (hnil _) rfl (hnil _)
        (fun v => List.sublist_append_left _ _)
        (fun v => ⟨_, .refl _, incoming_withWorker hc rfl (hinbox.trans (hnil _)) v⟩)
        fun v => ⟨n.incomingAcks v, incomingAcks_kept ?_ ?_ v, by simp⟩⟩
      · rw [hackInbox]
        exact .refl _
      · exact .inl hc.symm
  | pairRelayAcks =>
      refine ⟨_, _, _, worker_moves (rfl : n.workers = n.workers) rfl (hnil _) (hnil _) rfl
        (fun v => List.sublist_append_left _ _)
        (fun v => ⟨n.incoming v, incoming_kept ?_ ?_ v, by simp⟩)
        fun v => ⟨_, .refl _, incomingAcks_withWorker hc rfl (hackInbox.trans (hnil _)) v⟩⟩
      · rw [hinbox]
        exact .refl _
      · exact .inl hc.symm
  | pairCellResults | pairCellPushes =>
      refine ⟨_, _, _, Quiet.moves ?_⟩
      refine .withWorker rfl rfl rfl ?_ ?_ (.inl hc.symm)
      · rw [hinbox]
        exact .refl _
      · rw [hackInbox]
        exact .refl _

theorem Quiet.receive (hstep : n.step (.receive w) = some n') : Quiet n n' := by
  obtain ⟨c, m, rest, hc, hdown, rfl⟩ := receive_some hstep
  obtain ⟨hsent, hdrained, hdrainedAcks⟩ := WorkerProcess.receive_kept (p := n.workers w) m
  obtain ⟨hinbox, hackInbox⟩ := WorkerProcess.receive_inbox (p := n.workers w) m
  have hdeliveries := (n.connections c).deliveries_cons hdown
  have hacks := (n.connections c).acks_cons hdown
  have hpop : Quiet n (n.onConnection c fun k => { k with down := rest }) := by
    refine .onConnection ⟨.refl _, ?_, ?_⟩
    · rw [hdeliveries]
      exact List.sublist_append_right _ _
    · rw [hacks]
      exact List.sublist_append_right _ _
  refine ⟨same_withWorker _ hsent, rfl, same_withWorker _ hdrained,
    same_withWorker _ hdrainedAcks, hpop.outgoing, fun v => ?_, fun v => ?_⟩
  · by_cases hv : v = w
    · subst hv
      simp only [Network.incoming, withWorker_self, withWorker_connections, hc]
      obtain hsame | hnone := WorkerProcess.receive_connection? hc m
      · simp only [hsame, Option.elim_some, onConnection_self]
        rw [hdeliveries, ← List.append_assoc]
        exact (hinbox.append (.refl _)).map _
      · rw [hnone]
        exact List.nil_sublist _
    · simp only [Network.incoming, withWorker_of_ne _ _ hv, withWorker_connections]
      exact hpop.incoming v
  · by_cases hv : v = w
    · subst hv
      simp only [Network.incomingAcks, withWorker_self, withWorker_connections, hc]
      obtain hsame | hnone := WorkerProcess.receive_connection? hc m
      · simp only [hsame, Option.elim_some, onConnection_self]
        rw [hacks, ← List.append_assoc]
        exact (hackInbox.append (.refl _)).map _
      · rw [hnone]
        exact List.nil_sublist _
    · simp only [Network.incomingAcks, withWorker_of_ne _ _ hv, withWorker_connections]
      exact hpop.incomingAcks v

/-- The Worker waits for a reply, or no longer does. -/
theorem Quiet.await {a : AuthenticatedWorkerSession α β}
    (ha : (n.workers w).session = some a)
    (r : Option SessionRequest) : Quiet n
      (n.withWorker w { n.workers w with session := some { a with awaiting := r } }) := by
  obtain ⟨hinbox, hackInbox⟩ := WorkerProcess.inbox_of_session ha
  refine .withWorker rfl rfl rfl ?_ ?_
    (.inl (WorkerProcess.connection?_of_session ha).symm)
  · rw [hinbox]
    exact .refl _
  · rw [hackInbox]
    exact .refl _

theorem Quiet.connect (hw : n.Wired)
    (hstep : n.step (.connect w) = some n') : Quiet n n' := by
  obtain ⟨hnone, hstep⟩ := Option.ite_none_right_eq_some.1 hstep
  obtain rfl := Option.some.inj hstep
  have hsame : ∀ d, d < n.opened →
      Function.update n.connections n.opened { workerId := w } d = n.connections d :=
    fun d hd => Function.update_of_ne (Nat.ne_of_lt hd) ..
  have hsession : (n.workers w).session = none := by
    cases hs : (n.workers w).session with
    | none => rfl
    | some a => simp [WorkerProcess.connection?, hs] at hnone
  refine ⟨same_withWorker _ rfl, rfl, same_withWorker _ rfl,
    same_withWorker _ rfl, fun v => ?_,
    fun v => ?_, fun v => ?_⟩
  · simp only [Network.outgoing, withWorker_workerConnections]
    cases hd : n.workerConnections v with
    | none => exact .refl _
    | some d =>
        simp only [Option.elim_some, hsame d (hw.registered v d hd).1]
        exact .refl _
  · by_cases hv : v = w
    · subst hv
      simp [Network.incoming, WorkerProcess.connection?, hsession, WorkerProcess.inbox,
        WorkerSessionConnection.deliveries]
    · simp only [Network.incoming, withWorker_of_ne _ _ hv]
      cases hd : (n.workers v).connection? with
      | none => exact .refl _
      | some d =>
          simp only [Option.elim_some, hsame d (hw.own v d hd).1]
          exact .refl _
  · by_cases hv : v = w
    · subst hv
      simp [Network.incomingAcks, WorkerProcess.connection?, hsession,
        WorkerProcess.ackInbox, WorkerSessionConnection.acks]
    · simp only [Network.incomingAcks, withWorker_of_ne _ _ hv]
      cases hd : (n.workers v).connection? with
      | none => exact .refl _
      | some d =>
          simp only [Option.elim_some, hsame d (hw.own v d hd).1]
          exact .refl _

theorem Quiet.restart : Quiet n n.restart := by
  refine ⟨fun _ => rfl, rfl, fun _ => rfl, fun _ => rfl,
    fun v => List.nil_sublist _, fun w => ?_,
    fun w => ?_⟩
  · simp only [Network.incoming, Network.restart]
    cases (n.workers w).connection? with
    | none => exact .refl _
    | some c =>
        exact ((List.Sublist.refl _).append
          ((List.Sublist.refl _).append (List.nil_sublist _))).map _
  · simp only [Network.incomingAcks, Network.restart]
    cases (n.workers w).connection? with
    | none => exact .refl _
    | some c =>
        exact ((List.Sublist.refl _).append
          ((List.Sublist.refl _).append (List.nil_sublist _))).map _

theorem answer_shrinks {k : WorkerSessionConnection α β} {d : DirectReply}
    (h : k.owed = some d) :
    k.Shrinks { k.transmit (.direct d) with owed := none } := by
  unfold WorkerSessionConnection.transmit
  split
  · refine ⟨.refl _, ?_, ?_⟩
    · simp [WorkerSessionConnection.deliveries, Downward.delivery?]
    · cases hd : d.ack? <;> simp [WorkerSessionConnection.acks, h, Downward.ack?, hd]
  · exact ⟨.refl _, .refl _, (List.Sublist.refl _).append (List.nil_sublist _)⟩

theorem write_shrinks {k : WorkerSessionConnection α β} {m : Pushed α β}
    {rest : List (Pushed α β)} (h : k.outbound = m :: rest) :
    k.Shrinks { k.transmit (.pushed m) with outbound := rest } := by
  unfold WorkerSessionConnection.transmit
  split
  · refine ⟨.refl _, ?_, ?_⟩
    · cases hm : m.delivery? <;>
        simp [WorkerSessionConnection.deliveries, h, Downward.delivery?, hm]
    · simp [WorkerSessionConnection.acks, Downward.ack?]
  · refine ⟨.refl _, ?_, .refl _⟩
    simp only [WorkerSessionConnection.deliveries, h]
    exact (List.Sublist.refl _).append ((List.sublist_cons_self m rest).filterMap _)

theorem send_shrinks_other {k : WorkerSessionConnection α β} {f : Upward α β}
    (hf : f.relay? = none) :
    k.Shrinks (k.send f) := by
  unfold WorkerSessionConnection.send
  split
  · exact ⟨by simp [WorkerSessionConnection.relays, hf], .refl _, .refl _⟩
  · exact ⟨.refl _, .refl _, .refl _⟩

/-- A step of the controller on one connection that serves no frame. -/
theorem Quiet.handler (hw : n.Wired) {l : Label α β} (hstep : Step n l n')
    (hl : l = .authenticate c ∨ (∃ cursor, l = .replace c cursor) ∨ l = .answer c ∨
      l = .write c ∨
      l = .finish c ∨ l = .discard c) : Quiet n n' := by
  unfold Step at hstep
  obtain rfl | ⟨cursor, rfl⟩ | rfl | rfl | rfl | rfl := hl
  · obtain ⟨-, hstep⟩ := Option.ite_none_right_eq_some.1 hstep
    obtain rfl := Option.some.inj hstep
    refine Quiet.trans ?_ (.onConnection ⟨.refl _, .refl _, .refl _⟩)
    cases n.workerConnections (n.connections c).workerId with
    | none => exact .refl n
    | some d =>
        simp only [supersede]
        exact .onConnection ⟨.refl _, .refl _, .refl _⟩
  · obtain ⟨⟨-, hstage⟩, hstep⟩ := Option.ite_none_right_eq_some.1 hstep
    obtain rfl := Option.some.inj hstep
    have hempty := hw.waiting c (.inr hstage)
    refine (Quiet.register fun d hd => ?_).trans (.onConnection ⟨.refl _, .refl _, ?_⟩)
    · obtain rfl := Option.some.inj hd
      simp [WorkerSessionConnection.relays, hempty.up]
    · exact (List.Sublist.refl _).append (List.nil_sublist _)
  · obtain ⟨d, howed, -, rfl⟩ := answer_some hstep
    exact .onConnection (answer_shrinks howed)
  · obtain ⟨m, rest, hout, -, rfl⟩ := write_some hstep
    exact .onConnection (write_shrinks hout)
  · obtain ⟨-, hstep⟩ := Option.ite_none_right_eq_some.1 hstep
    obtain rfl := Option.some.inj hstep
    exact .onConnection ⟨.refl _, .refl _,
      (List.Sublist.refl _).append (List.nil_sublist _)⟩
  · obtain ⟨-, hstep⟩ := Option.ite_none_right_eq_some.1 hstep
    obtain rfl := Option.some.inj hstep
    have hended : Quiet n (n.onConnection c fun k => { k with stage := .ended }) :=
      .onConnection ⟨.refl _, .refl _, .refl _⟩
    split
    · exact hended.trans (.register fun d hd => by cases hd)
    · exact hended

theorem step_moves (hw : n.Wired) {l : Label α β} (hstep : Step n l n') :
    ∃ sends serves drains ackDrains, Moves n n' sends serves drains ackDrains := by
  have hquiet : Quiet n n' →
      ∃ sends serves drains ackDrains, Moves n n' sends serves drains ackDrains :=
    fun h => ⟨_, _, _, _, h.moves⟩
  cases l with
  | serve c x =>
      obtain ⟨serves, h⟩ := serve_moves hw hstep
      exact ⟨_, serves, _, _, h⟩
  | sendPairRelay w requestId e =>
      obtain ⟨sends, drains, ackDrains, h⟩ := send_moves hw hstep
      exact ⟨sends, [], drains, ackDrains, h⟩
  | drain w inbox =>
      obtain ⟨sends, drains, ackDrains, h⟩ := drain_moves hstep
      exact ⟨sends, [], drains, ackDrains, h⟩
  | receive w => exact hquiet (.receive hstep)
  | connect w => exact hquiet (.connect hw hstep)
  | authenticate c => exact hquiet (.handler hw hstep (.inl rfl))
  | replace c cursor => exact hquiet (.handler hw hstep (.inr (.inl ⟨cursor, rfl⟩)))
  | answer c => exact hquiet (.handler hw hstep (.inr (.inr (.inl rfl))))
  | write c => exact hquiet (.handler hw hstep (.inr (.inr (.inr (.inl rfl)))))
  | finish c => exact hquiet (.handler hw hstep (.inr (.inr (.inr (.inr (.inl rfl))))))
  | discard c => exact hquiet (.handler hw hstep (.inr (.inr (.inr (.inr (.inr rfl))))))
  | ledger op =>
      obtain rfl := Option.some.inj hstep
      exact hquiet (.perform op)
  | notice w message =>
      obtain rfl := Option.some.inj hstep
      exact hquiet (.pushPairCellMessage w message)
  | forget w =>
      obtain rfl := Option.some.inj hstep
      exact hquiet (.register fun _ hc => nomatch hc)
  | restart =>
      obtain rfl := Option.some.inj hstep
      exact hquiet .restart
  | cut c up down =>
      obtain rfl := Option.some.inj hstep
      refine hquiet (.onConnection ⟨?_, ?_, ?_⟩)
      · exact (List.take_sublist _ _).filterMap _
      · exact ((List.take_sublist _ _).filterMap _).append (.refl _)
      · exact ((List.take_sublist _ _).filterMap _).append (.refl _)
  | sendPairCellControl w message =>
      obtain ⟨a, ha, -, rfl⟩ := idle_some hstep
      exact hquiet (.onConnection (send_shrinks_other rfl))
  | request w r =>
      obtain ⟨a, ha, -, rfl⟩ := idle_some hstep
      have hsend : Quiet n (n.onConnection a.connection fun k => k.send (.request r)) :=
        .onConnection (send_shrinks_other rfl)
      refine hquiet (hsend.trans (.await ?_ (some r)))
      exact ha
  | interrupt w =>
      obtain ⟨a, ha, rfl⟩ := interrupt_some hstep
      exact hquiet (.await ha none)
  | abandon w =>
      obtain rfl := Option.some.inj hstep
      exact hquiet (.withWorker rfl rfl rfl (List.nil_sublist _)
        (List.nil_sublist _) (.inr rfl))

end Network

end PairCell
