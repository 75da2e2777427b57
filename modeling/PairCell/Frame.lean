import PairCell.World

/-!
# What an action changes

One equation for each field of the state that the proofs about runs follow: the
actions that change it, and nothing else.
-/

namespace PairCell

open Lib World

variable {w : World}

/-! ## Journal rows -/

/-- Moving a journal row touches nothing else. -/
theorem moveJournal_eq (e : EffectId) (state : EffectState) (retcode : Option Int) :
    ∃ j, w.moveJournal e state retcode =
      { w with disk := { w.disk with journal := j } } := by
  unfold moveJournal setJournal
  split
  · exact ⟨_, rfl⟩
  · exact ⟨w.disk.journal, rfl⟩

@[simp] theorem moveJournal_mem (e : EffectId) (state : EffectState)
    (retcode : Option Int) :
    (w.moveJournal e state retcode).mem = w.mem := by
  obtain ⟨j, hj⟩ := moveJournal_eq (w := w) e state retcode
  rw [hj]

@[simp] theorem moveJournal_cfg (e : EffectId) (state : EffectState)
    (retcode : Option Int) :
    (w.moveJournal e state retcode).cfg = w.cfg := by
  obtain ⟨j, hj⟩ := moveJournal_eq (w := w) e state retcode
  rw [hj]

@[simp] theorem moveJournal_script (e : EffectId) (state : EffectState)
    (retcode : Option Int) :
    (w.moveJournal e state retcode).script = w.script := by
  obtain ⟨j, hj⟩ := moveJournal_eq (w := w) e state retcode
  rw [hj]

@[simp] theorem moveJournal_attempts (e : EffectId) (state : EffectState)
    (retcode : Option Int) :
    (w.moveJournal e state retcode).disk.attempts = w.disk.attempts := by
  obtain ⟨j, hj⟩ := moveJournal_eq (w := w) e state retcode
  rw [hj]

@[simp] theorem moveJournal_legs (e : EffectId) (state : EffectState)
    (retcode : Option Int) :
    (w.moveJournal e state retcode).disk.legs = w.disk.legs := by
  obtain ⟨j, hj⟩ := moveJournal_eq (w := w) e state retcode
  rw [hj]

@[simp] theorem moveJournal_peerLegs (e : EffectId) (state : EffectState)
    (retcode : Option Int) :
    (w.moveJournal e state retcode).disk.peerLegs = w.disk.peerLegs := by
  obtain ⟨j, hj⟩ := moveJournal_eq (w := w) e state retcode
  rw [hj]

@[simp] theorem moveJournal_desired (e : EffectId) (state : EffectState)
    (retcode : Option Int) :
    (w.moveJournal e state retcode).disk.desired = w.disk.desired := by
  obtain ⟨j, hj⟩ := moveJournal_eq (w := w) e state retcode
  rw [hj]

@[simp] theorem moveJournal_sent (e : EffectId) (state : EffectState)
    (retcode : Option Int) :
    (w.moveJournal e state retcode).disk.sent = w.disk.sent := by
  obtain ⟨j, hj⟩ := moveJournal_eq (w := w) e state retcode
  rw [hj]

@[simp] theorem moveJournal_relayed (e : EffectId) (state : EffectState)
    (retcode : Option Int) :
    (w.moveJournal e state retcode).disk.relayed = w.disk.relayed := by
  obtain ⟨j, hj⟩ := moveJournal_eq (w := w) e state retcode
  rw [hj]

@[simp] theorem moveJournal_active (e : EffectId) (state : EffectState)
    (retcode : Option Int) :
    (w.moveJournal e state retcode).disk.active = w.disk.active := by
  obtain ⟨j, hj⟩ := moveJournal_eq (w := w) e state retcode
  rw [hj]

@[simp] theorem moveJournal_policy (e : EffectId) (state : EffectState)
    (retcode : Option Int) :
    (w.moveJournal e state retcode).disk.policy = w.disk.policy := by
  obtain ⟨j, hj⟩ := moveJournal_eq (w := w) e state retcode
  rw [hj]

@[simp] theorem moveJournal_transitions (e : EffectId) (state : EffectState)
    (retcode : Option Int) :
    (w.moveJournal e state retcode).disk.transitions = w.disk.transitions := by
  obtain ⟨j, hj⟩ := moveJournal_eq (w := w) e state retcode
  rw [hj]

theorem moveJournal_get (e x : EffectId) (state : EffectState) (retcode : Option Int) :
    (w.moveJournal e state retcode).disk.journal.get x =
      if x = e then (w.disk.journal.get e).map
        fun r => { r with state := state, retcode := retcode }
      else w.disk.journal.get x := by
  unfold moveJournal setJournal
  cases hget : w.disk.journal.get e with
  | none =>
      by_cases hx : x = e
      · simp [hx, hget]
      · simp [hx]
  | some r => simp only [Table.get_set, Option.map_some]

/-! ## The database -/

theorem act_sent (a : Action) :
    (w.act a).disk.sent = w.disk.sent ++
      match a with
      | .orderSend e p r => [⟨e, p, r⟩]
      | _ => [] := by
  cases a <;>
    simp [act, setJournal, addTransition, forgetAttempt, endWrite, endOwed,
      apply_ite World.disk]

theorem act_attempts (a : Action) :
    (w.act a).disk.attempts =
      match a with
      | .adopt a => w.disk.attempts ++ [⟨a, w.mem.aux.now, none⟩]
      | .refuse a reason =>
          w.disk.attempts ++ [⟨a, w.mem.aux.now, some (.admissionRejected reason)⟩]
      | .terminate reason => w.disk.attempts.map (terminateRow w.attemptId? reason)
      | _ => w.disk.attempts := by
  cases a <;>
    simp [act, setJournal, addTransition, forgetAttempt, endWrite, endOwed,
      apply_ite World.disk]

theorem act_legs (a : Action) :
    (w.act a).disk.legs =
      match a, w.mem.attempt with
      | .saveLeg l, some a => w.disk.legs.set a.attemptId l
      | _, _ => w.disk.legs := by
  cases h : w.mem.attempt <;> cases a <;>
    simp [act, h, setJournal, addTransition, forgetAttempt, endWrite, endOwed,
      apply_ite World.disk]

theorem act_peerLegs (a : Action) :
    (w.act a).disk.peerLegs =
      match a, w.mem.attempt with
      | .savePeerLeg v, some a => w.disk.peerLegs.set a.attemptId (.view v)
      | .latePeerLeg p, _ => w.disk.peerLegs.set p.attemptId (.raw p)
      | _, _ => w.disk.peerLegs := by
  cases h : w.mem.attempt <;> cases a <;>
    simp [act, h, setJournal, addTransition, forgetAttempt, endWrite, endOwed,
      apply_ite World.disk]

theorem act_desired (a : Action) :
    (w.act a).disk.desired =
      match a with
      | .saveDesired desired confirmed => some ⟨desired, w.attemptId?, confirmed⟩
      | _ => w.disk.desired := by
  cases a <;>
    simp [act, setJournal, addTransition, forgetAttempt, endWrite, endOwed,
      apply_ite World.disk]

theorem act_relayed (a : Action) :
    (w.act a).disk.relayed = w.disk.relayed ++
      match a with
      | .relay m => [m]
      | _ => [] := by
  cases a <;>
    simp [act, setJournal, addTransition, forgetAttempt, endWrite, endOwed,
      apply_ite World.disk]

theorem act_diskPolicy (a : Action) :
    (w.act a).disk.policy =
      match a with
      | .savePolicy p => some p
      | _ => w.disk.policy := by
  cases a <;>
    simp [act, setJournal, addTransition, forgetAttempt, endWrite, endOwed,
      apply_ite World.disk]

theorem act_active (a : Action) :
    (w.act a).disk.active =
      match a, w.mem.attempt with
      | .saveActive since, some a => w.disk.active.set a.attemptId since
      | _, _ => w.disk.active := by
  cases h : w.mem.attempt <;> cases a <;>
    simp [act, h, setJournal, addTransition, forgetAttempt, endWrite, endOwed,
      apply_ite World.disk]

/-! ## Memory -/

theorem act_cfg (w : World) (a : Action) : (w.act a).cfg = w.cfg := by
  cases a <;>
    simp [act, setJournal, addTransition, forgetAttempt, endWrite, endOwed,
      apply_ite World.cfg]

theorem act_armed (a : Action) :
    (w.act a).mem.armed =
      match a with
      | .markSendStarted e => some e
      | .orderSend .. => none
      | _ => w.mem.armed := by
  cases a <;>
    simp [act, setJournal, addTransition, forgetAttempt, endWrite, endOwed,
      apply_ite World.mem, apply_ite Mem.armed]

theorem act_attempt (a : Action) :
    (w.act a).mem.attempt =
      match a with
      | .adopt a => some a
      | .terminate _ => none
      | _ => w.mem.attempt := by
  cases a <;>
    simp [act, setJournal, addTransition, forgetAttempt, endWrite, endOwed,
      apply_ite World.mem, apply_ite Mem.attempt]

theorem act_leg (a : Action) :
    (w.act a).mem.leg =
      match a with
      | .saveLeg l => some l
      | .memLeg l => some l
      | .terminate _ => none
      | _ => w.mem.leg := by
  cases a <;>
    simp [act, setJournal, addTransition, forgetAttempt, endWrite, endOwed,
      apply_ite World.mem, apply_ite Mem.leg]

theorem act_policy (a : Action) :
    (w.act a).mem.policy =
      match a with
      | .savePolicy p => some p
      | _ => w.mem.policy := by
  cases a <;>
    simp [act, setJournal, addTransition, forgetAttempt, endWrite, endOwed,
      apply_ite World.mem, apply_ite Mem.policy]

theorem act_needsHuman (a : Action) :
    (w.act a).mem.needsHuman =
      match a with
      | .latch stop => some stop
      | .unlatch .. => none
      | _ => w.mem.needsHuman := by
  cases a <;>
    simp [act, setJournal, addTransition, forgetAttempt, endWrite, endOwed,
      apply_ite World.mem, apply_ite Mem.needsHuman]

theorem act_memDesired (a : Action) :
    (w.act a).mem.desired =
      match a with
      | .saveDesired desired _ => desired
      | .terminate _ => .none
      | _ => w.mem.desired := by
  cases a <;>
    simp [act, setJournal, addTransition, forgetAttempt, endWrite, endOwed,
      apply_ite World.mem, apply_ite Mem.desired]

theorem act_state (a : Action) :
    (w.act a).mem.state =
      match a with
      | .adopt _ => .entering
      | .terminate _ => .empty
      | .unlatch toEmpty _ => if toEmpty then .empty else w.mem.state
      | .setState s => s
      | _ => w.mem.state := by
  cases a <;>
    simp [act, setJournal, addTransition, forgetAttempt, endWrite, endOwed,
      apply_ite World.mem, apply_ite Mem.state]

theorem act_pairConfirmed (a : Action) :
    (w.act a).mem.pairConfirmed =
      match a with
      | .saveDesired _ confirmed => confirmed
      | .terminate _ => false
      | _ => w.mem.pairConfirmed := by
  cases a <;>
    simp [act, setJournal, addTransition, forgetAttempt, endWrite, endOwed,
      apply_ite World.mem, apply_ite Mem.pairConfirmed]

theorem act_recovering (a : Action) :
    (w.act a).mem.recovering =
      match a with
      | .setRecovering b => b
      | _ => w.mem.recovering := by
  cases a <;>
    simp [act, setJournal, addTransition, forgetAttempt, endWrite, endOwed,
      apply_ite World.mem, apply_ite Mem.recovering]

theorem act_peerLeg (a : Action) :
    (w.act a).mem.peerLeg =
      match a with
      | .savePeerLeg v => v
      | .terminate _ => {}
      | _ => w.mem.peerLeg := by
  cases a <;>
    simp [act, setJournal, addTransition, forgetAttempt, endWrite, endOwed,
      apply_ite World.mem, apply_ite Mem.peerLeg]

theorem act_delivered (a : Action) : (w.act a).script.delivered = w.script.delivered := by
  cases a <;>
    simp [act, setJournal, addTransition, forgetAttempt, endWrite, endOwed,
      apply_ite World.script]

theorem act_blackout (a : Action) : (w.act a).script.blackout = w.script.blackout := by
  cases a <;>
    simp [act, setJournal, addTransition, forgetAttempt, endWrite, endOwed,
      apply_ite World.script]

theorem act_writing (a : Action) :
    (w.act a).mem.writing =
      match a with
      | .prepare e _ true => some e
      | .recordReceipt e _ => w.mem.writing.filter fun x => decide (x ≠ e)
      | .recordObservation e => w.mem.writing.filter fun x => decide (x ≠ e)
      | .orderSend e _ r =>
          if isReceipt r.response then w.mem.writing
          else w.mem.writing.filter fun x => decide (x ≠ e)
      | .turn e true => w.mem.writing.filter fun x => decide (x ≠ e)
      | _ => w.mem.writing := by
  cases a with
  | prepare e p own => cases own <;> simp [act, setJournal]
  | turn e exhausted => cases exhausted <;> simp [act, endWrite]
  | orderSend e p r => cases h : isReceipt r.response <;> simp [act, h, endWrite]
  | _ => simp [act, addTransition, forgetAttempt, endWrite, endOwed]

theorem act_owed (a : Action) :
    (w.act a).mem.owed =
      match a with
      | .saveLeg l => w.owes l
      | .recordObservation e => w.mem.owed.filter fun x => decide (x ≠ e)
      | _ => w.mem.owed := by
  cases a <;>
    simp [act, setJournal, addTransition, forgetAttempt, endWrite, endOwed,
      apply_ite World.mem, apply_ite Mem.owed]

end PairCell
