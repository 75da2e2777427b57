import PairCell.Lib.Channel
import PairCell.Session.Moves

/-!
# The sessions keep the order of envelopes

A Worker, the controller and the peer are joined by two channels with losses,
and the acknowledgements come back over a third.  So the envelopes a cell takes
from its peer are some of those the peer sent, in their order, however often
either side connects anew.
-/

namespace PairCell

open Lib

namespace Network

variable {α β : Type}

section Channels

variable (n : Network α β)

/-- From a Worker to the controller. -/
def upward (v : Nat) : Channel (Nat × PairCellRelayEnvelope α) where
  sent := (n.workers v).sent
  inFlight := n.outgoing v
  received := (n.served.filter fun x => decide (x.workerId = v)).map fun x =>
    (x.requestId, x.envelope)

/-- From the controller to the cell of a Worker; a message names its connection. -/
def downward (w : Nat) : Channel (Nat × PairCellRelayEnvelope α) where
  sent := n.served.filterMap (ServedRelay.forward? w)
  inFlight := n.incoming w
  received := (n.workers w).drained

/-- The acknowledgements to a Worker. -/
def acknowledged (w : Nat) : Channel (Nat × RelayAck) where
  sent := (n.served.filter fun x => decide (x.workerId = w)).map fun x =>
    (x.connection, x.ack)
  inFlight := n.incomingAcks w
  received := (n.workers w).drainedAcks

end Channels

variable {n n' : Network α β}

theorem Moves.upward {sends drains : Nat → List (Nat × PairCellRelayEnvelope α)}
    {serves : List (ServedRelay α)} {ackDrains : Nat → List (Nat × RelayAck)}
    (h : Moves n n' sends serves drains ackDrains) (v : Nat) :
    Channel.Run (n.upward v) (n'.upward v) := by
  obtain ⟨rest, hrest, hflight⟩ := h.outgoing v
  refine Channel.run_of_moves (h.sent v) ?_ hflight hrest
  simp [Network.upward, h.served]

theorem Moves.downward {sends drains : Nat → List (Nat × PairCellRelayEnvelope α)}
    {serves : List (ServedRelay α)} {ackDrains : Nat → List (Nat × RelayAck)}
    (h : Moves n n' sends serves drains ackDrains) (w : Nat) :
    Channel.Run (n.downward w) (n'.downward w) := by
  obtain ⟨rest, hrest, hflight⟩ := h.incoming w
  refine Channel.run_of_moves ?_ (h.drained w) hflight hrest
  simp [Network.downward, h.served]

theorem Moves.acknowledged {sends drains : Nat → List (Nat × PairCellRelayEnvelope α)}
    {serves : List (ServedRelay α)} {ackDrains : Nat → List (Nat × RelayAck)}
    (h : Moves n n' sends serves drains ackDrains) (w : Nat) :
    Channel.Run (n.acknowledged w) (n'.acknowledged w) := by
  obtain ⟨rest, hrest, hflight⟩ := h.incomingAcks w
  refine Channel.run_of_moves ?_ (h.drainedAcks w) hflight hrest
  simp [Network.acknowledged, h.served]

/-- The three channels of every Worker. -/
structure Carried (n n' : Network α β) : Prop where
  upward : ∀ w, Channel.Run (n.upward w) (n'.upward w)
  downward : ∀ w, Channel.Run (n.downward w) (n'.downward w)
  acknowledged : ∀ w, Channel.Run (n.acknowledged w) (n'.acknowledged w)

theorem Carried.trans {n'' : Network α β} (h : Carried n n')
    (h' : Carried n' n'') : Carried n n'' :=
  ⟨fun w => (h.upward w).trans (h'.upward w),
    fun w => (h.downward w).trans (h'.downward w),
    fun w => (h.acknowledged w).trans (h'.acknowledged w)⟩

/--
Whatever connects, ends or fails, the envelopes of a Worker to the controller,
those of the controller to the cell of a Worker and the acknowledgements to a
Worker go over channels that lose some and keep the order of the rest.
-/
theorem sessions_refine_channels {l : ControlLedger} (h : Run (Network.start l) n)
    (h' : Run n n') :
    Carried (Network.start l) n ∧ Carried n n' := by
  have hrun : ∀ {t u : Network α β}, Run (Network.start l) t → Run t u → Carried t u := by
    intro t u ht hu
    induction hu with
    | refl => exact ⟨fun _ => .refl, fun _ => .refl, fun _ => .refl⟩
    | tail _ hu _ hstep ih =>
        obtain ⟨_, _, _, _, hmoves⟩ := step_moves (Wired.run (ht.trans hu)) hstep
        exact ih.trans ⟨hmoves.upward, hmoves.downward, hmoves.acknowledged⟩
  exact ⟨hrun .refl h, hrun h h'⟩

/-- Whatever the log says was served was served so in an earlier state. -/
theorem served_genuine {l : ControlLedger} (h : Run (Network.start l) n) :
    ∀ x ∈ n.served, ∃ u, Run (Network.start l) u ∧ Run u n ∧ u.Serves x := by
  induction h with
  | refl => exact fun _ hx => nomatch hx
  | tail label h hok hstep ih =>
      intro x hx
      obtain ⟨_, _, _, _, hmoves⟩ := step_moves (Wired.run h) hstep
      have hlast := Reach.tail label .refl hok hstep
      rw [hmoves.served] at hx
      obtain hx | hx := List.mem_append.1 hx
      · obtain ⟨u, hu, hrest, hserves⟩ := ih x hx
        exact ⟨u, hu, hrest.trans hlast, hserves⟩
      · exact ⟨_, h, hlast, hmoves.genuine x hx⟩

theorem drained_sublist {l : ControlLedger} (h : Run (Network.start l) n) (w : Nat) :
    (n.workers w).drained.Sublist (n.served.filterMap (ServedRelay.forward? w)) :=
  Channel.run_received ((sessions_refine_channels h .refl).1.downward w)

theorem served_sublist {l : ControlLedger} (h : Run (Network.start l) n) (v : Nat) :
    ((n.served.filter fun x => decide (x.workerId = v)).map fun x =>
      (x.requestId, x.envelope)).Sublist
      (n.workers v).sent :=
  Channel.run_received ((sessions_refine_channels h .refl).1.upward v)

theorem forward?_some {x : ServedRelay α} {w c : Nat} {e : PairCellRelayEnvelope α}
    (h : x.forward? w = some (c, e)) : x.outcome = .ok c ∧ x.envelope = e ∧
    e.toWorkerId = w := by
  unfold ServedRelay.forward? at h
  split at h
  · next d hd =>
      obtain ⟨hto, h⟩ := Option.ite_none_right_eq_some.1 h
      obtain ⟨rfl, rfl⟩ := Prod.mk.inj (Option.some.inj h)
      exact ⟨hd, rfl, hto⟩
  · cases h

/-- Of the log, what goes from `v` to `w` was sent by `v` to `w`. -/
theorem forwarded_sublist {xs : List (ServedRelay α)} {v w : Nat}
    (h : ∀ x ∈ xs, ∀ c, x.outcome = .ok c → x.envelope.fromWorkerId = x.workerId) :
    (((xs.filterMap (ServedRelay.forward? w)).map Prod.snd).filter fun e =>
        decide (e.fromWorkerId = v)).Sublist
      (((xs.filter fun x => decide (x.workerId = v)).map fun x =>
        x.envelope).filter fun e =>
        decide (e.toWorkerId = w)) := by
  induction xs with
  | nil => exact .refl _
  | cons x xs ih =>
      have hrest := ih fun y hy => h y (List.mem_cons_of_mem _ hy)
      cases hx : x.forward? w with
      | none =>
          rw [List.filterMap_cons_none hx]
          exact hrest.trans (((List.sublist_cons_self x xs).filter _).map _ |>.filter _)
      | some m =>
          obtain ⟨c, e⟩ := m
          obtain ⟨houtcome, rfl, hto⟩ := forward?_some hx
          have hfrom := h x List.mem_cons_self c houtcome
          rw [List.filterMap_cons_some hx]
          by_cases hv : x.workerId = v
          · simpa [hv, hto, hfrom] using hrest
          · simpa [hv, hfrom] using hrest

/--
The envelopes that the cell of `w` has taken from `v` are some of those that `v`
sent to `w`, in their order and none twice, over all the sessions of both.
-/
theorem relay_keeps_order {l : ControlLedger} (h : Run (Network.start l) n) (v w : Nat) :
    (((n.workers w).drained.map Prod.snd).filter fun e =>
      decide (e.fromWorkerId = v)).Sublist
      (((n.workers v).sent.map Prod.snd).filter fun e => decide (e.toWorkerId = w)) := by
  have hhonest : ∀ x ∈ n.served, ∀ c, x.outcome = .ok c →
      x.envelope.fromWorkerId = x.workerId := by
    intro x hx c hc
    obtain ⟨u, -, -, hserves⟩ := served_genuine h x hx
    exact (hserves.forwarded c hc).2.1
  have hforwarded := (((drained_sublist h w).map Prod.snd).filter fun e =>
    decide (e.fromWorkerId = v)).trans (forwarded_sublist hhonest)
  have hsent := ((served_sublist h v).map Prod.snd).filter fun e =>
    decide (e.toWorkerId = w)
  rw [List.map_map] at hsent
  exact hforwarded.trans hsent

theorem relay_keeps_order_relayed : ∃ n : Network Nat Unit, Run (start Sample.ledger) n ∧
    (n.workers 2).drained = [(1, Sample.envelope 10), (2, Sample.envelope 12)] ∧
    ((n.workers 1).sent.map Prod.fst) = [10, 11, 12] ∧
    (((n.workers 2).drained.map Prod.snd).filter fun e =>
      decide (e.fromWorkerId = 1)).Sublist
      (((n.workers 1).sent.map Prod.snd).filter fun e => decide (e.toWorkerId = 2)) := by
  obtain ⟨n, hrun, hn⟩ := plays_any anyLabel (start Sample.ledger) Sample.relayed
    (fun n =>
      decide ((n.workers 2).drained = [(1, Sample.envelope 10), (2, Sample.envelope 12)] ∧
      ((n.workers 1).sent.map Prod.fst) = [10, 11, 12])) (by decide +kernel)
  obtain ⟨hdrained, hsent⟩ := of_decide_eq_true hn
  exact ⟨n, hrun, hdrained, hsent, relay_keeps_order hrun 1 2⟩

/--
An envelope that a cell takes is one the controller served in an earlier state:
it was at the head of what the live session of the Worker it names had sent, the
ledger had both Workers on the route it claims, and it was forwarded to the very
connection it came through, which was the live session of its receiver then.
-/
theorem drained_was_authorized {l : ControlLedger}
    (h : Run (Network.start l) n) {w c : Nat} {e : PairCellRelayEnvelope α}
    (hdrained : (c, e) ∈ (n.workers w).drained) :
    ∃ u x, Run (Network.start l) u ∧ Run u n ∧ u.Serves x ∧ x ∈ n.served ∧ x.envelope = e ∧
      x.outcome = .ok c ∧ e.toWorkerId = w ∧ u.workerConnections w = some c ∧
      x.workerId = e.fromWorkerId ∧
      u.workerConnections e.fromWorkerId = some x.connection ∧
      (x.requestId, e) ∈ (n.workers e.fromWorkerId).sent ∧ u.ledger.Carries e := by
  obtain ⟨x, hx, hforward⟩ := List.mem_filterMap.1 ((drained_sublist h w).subset hdrained)
  obtain ⟨houtcome, rfl, hto⟩ := forward?_some hforward
  obtain ⟨u, hu, hrest, hserves⟩ := served_genuine h x hx
  obtain ⟨hcarries, hfrom, htarget⟩ := hserves.forwarded c houtcome
  rw [hto] at htarget
  have hlive : u.workerConnections x.envelope.fromWorkerId = some x.connection := by
    have hauthoritative := hserves.authoritative
    rw [isAuthoritativeWorkerSession, hserves.worker, ← hfrom] at hauthoritative
    exact of_decide_eq_true (Bool.and_eq_true_iff.1 hauthoritative).2
  have hsent : (x.requestId, x.envelope) ∈ (n.workers x.envelope.fromWorkerId).sent := by
    refine (served_sublist h _).subset (List.mem_map.2 ⟨x, ?_, rfl⟩)
    exact List.mem_filter.2 ⟨hx, decide_eq_true hfrom.symm⟩
  exact ⟨u, x, hu, hrest, hserves, hx, rfl, houtcome, hto, htarget,
    hfrom.symm, hlive, hsent, hcarries⟩

theorem drained_was_authorized_relayed : ∃ n :
    Network Nat Unit, Run (start Sample.ledger) n ∧
    ∃ u x, Run (start Sample.ledger) u ∧ Run u n ∧ u.Serves x ∧ x ∈ n.served ∧
      x.envelope = Sample.envelope 12 ∧ x.outcome = .ok 2 ∧
      (Sample.envelope 12).toWorkerId = 2 ∧
      u.workerConnections 2 = some 2 ∧ x.workerId = (Sample.envelope 12).fromWorkerId ∧
      u.workerConnections (Sample.envelope 12).fromWorkerId = some x.connection ∧
      (x.requestId, Sample.envelope 12) ∈
      (n.workers (Sample.envelope 12).fromWorkerId).sent ∧
      u.ledger.Carries (Sample.envelope 12) := by
  obtain ⟨n, hrun, hn⟩ := plays_any anyLabel (start Sample.ledger) Sample.relayed
    (fun n => decide ((2, Sample.envelope 12) ∈ (n.workers 2).drained)) (by decide +kernel)
  exact ⟨n, hrun, drained_was_authorized hrun (of_decide_eq_true hn)⟩

theorem Serves.accepted_iff {x : ServedRelay α} (h : n.Serves x) :
    x.ack.accepted = true ↔ n.ledger.Carries x.envelope ∧
      x.envelope.fromWorkerId = x.workerId ∧
      (n.workerConnections x.envelope.toWorkerId).isSome = true := by
  cases houtcome : x.outcome with
  | ok c =>
      obtain ⟨hcarries, hfrom, htarget⟩ := h.forwarded c houtcome
      simp [ServedRelay.ack, houtcome, hcarries, hfrom, htarget]
  | error reason =>
      refine ⟨fun haccepted => ?_, fun ⟨hcarries, hfrom, hpeer⟩ => ?_⟩
      · simp [ServedRelay.ack, houtcome] at haccepted
      · simp [h.refused reason houtcome hcarries hfrom] at hpeer

/--
The acknowledgements that a cell takes are those of some of the envelopes its
Worker sent, one for each and in their order, and an envelope was accepted just
if the ledger allowed it and the peer had a live session when it was served.
-/
theorem acks_are_true {l : ControlLedger} (h : Run (Network.start l) n) (w : Nat) :
    ∃ xs : List (ServedRelay α), (n.workers w).drainedAcks =
      (xs.map fun x => (x.connection, x.ack)) ∧
      (xs.map fun x => (x.requestId, x.envelope)).Sublist (n.workers w).sent ∧
      ∀ x ∈ xs, ∃ u, Run (Network.start l) u ∧ Run u n ∧ u.Serves x ∧
        (x.ack.accepted = true ↔ u.ledger.Carries x.envelope ∧
          x.envelope.fromWorkerId = w ∧
          (u.workerConnections x.envelope.toWorkerId).isSome = true) := by
  have hacks := Channel.run_received ((sessions_refine_channels h .refl).1.acknowledged w)
  obtain ⟨xs, hxs, heq⟩ := List.sublist_map_iff.1 hacks
  refine ⟨xs, heq, (hxs.map _).trans (served_sublist h w), fun x hx => ?_⟩
  obtain ⟨hserved, hworker⟩ := List.mem_filter.1 (hxs.subset hx)
  obtain ⟨u, hu, hrest, hserves⟩ := served_genuine h x hserved
  refine ⟨u, hu, hrest, hserves, ?_⟩
  rw [← of_decide_eq_true hworker]
  exact hserves.accepted_iff

theorem acks_are_true_relayed : ∃ n : Network Nat Unit, Run (start Sample.ledger) n ∧
    (n.workers 1).drainedAcks = [(0, ⟨10, true, none⟩)] ∧
    ∃ xs : List (ServedRelay Nat), (n.workers 1).drainedAcks =
    (xs.map fun x => (x.connection, x.ack)) ∧
      (xs.map fun x => (x.requestId, x.envelope)).Sublist (n.workers 1).sent ∧
      ∀ x ∈ xs, ∃ u, Run (start Sample.ledger) u ∧ Run u n ∧ u.Serves x ∧
        (x.ack.accepted = true ↔ u.ledger.Carries x.envelope ∧
          x.envelope.fromWorkerId = 1 ∧
          (u.workerConnections x.envelope.toWorkerId).isSome = true) := by
  obtain ⟨n, hrun, hn⟩ := plays_any anyLabel (start Sample.ledger) Sample.relayed
    (fun n => decide ((n.workers 1).drainedAcks = [(0, ⟨10, true, none⟩)]))
      (by decide +kernel)
  exact ⟨n, hrun, of_decide_eq_true hn, acks_are_true hrun 1⟩

end Network

end PairCell
