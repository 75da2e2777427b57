import PairCell.Play

/-!
# An attempt of another route

A cell that opens a database with an unresolved attempt of another route parks:
it follows no attempt, the operator stop stays latched, and what its calls still
do leaves the foreign rows alone.
-/

namespace PairCell

open Lib World

/-- The cell follows nothing, the stop for a foreign attempt is latched and the row `r`,
still open, is in the database. -/
structure Parked (r : AttemptRow) (w : World) : Prop where
  attempt : w.mem.attempt = none
  leg : w.mem.leg = none
  stop : ∃ i, w.mem.needsHuman = some (.foreignRoute i)
  deferred : w.mem.aux.replayDeferred = []
  row : w.disk.rowOf r.attempt.attemptId = some r
  unresolved : r.terminal = none

/-- What a parked cell may still do.  A leg status that names the foreign attempt leaves
only when `reused` holds. -/
def Apart (r : AttemptRow) (reused : Prop) (w : World) : Action → Prop
  | .refuse a _ => w.disk.rowOf a.attemptId = none
  | .setAux x => x.replayDeferred = []
  | .relay (.legStatus l) => l.attemptId = r.attempt.attemptId → reused
  | .latePeerLeg _ | .savePolicy _ | .transition _ | .bump | .setState _ | .setRecovering _
  | .brokerRead _ | .tick => True
  | _ => False

section Parked

variable {r : AttemptRow} {reused : Prop} {w : World}

theorem rowOf_append {rows : List AttemptRow} {i : Nat} {q x : AttemptRow}
    (h : rows.find? (fun r => decide (r.attempt.attemptId = i)) = some q) :
    (rows ++ [x]).find? (fun r => decide (r.attempt.attemptId = i)) = some q := by
  rw [List.find?_append, h]
  rfl

theorem Parked.act (h : Parked r w) {a : Action} (ha : Apart r reused w a) :
    Parked r (w.act a) := by
  cases a with
  | refuse a reason =>
      exact ⟨h.attempt, h.leg, h.stop, h.deferred, rowOf_append h.row, h.unresolved⟩
  | setAux x => exact ⟨h.attempt, h.leg, h.stop, ha, h.row, h.unresolved⟩
  | relay m => exact ⟨h.attempt, h.leg, h.stop, h.deferred, h.row, h.unresolved⟩
  | latePeerLeg l => exact ⟨h.attempt, h.leg, h.stop, h.deferred, h.row, h.unresolved⟩
  | savePolicy p => exact ⟨h.attempt, h.leg, h.stop, h.deferred, h.row, h.unresolved⟩
  | transition e => exact ⟨h.attempt, h.leg, h.stop, h.deferred, h.row, h.unresolved⟩
  | bump => exact ⟨h.attempt, h.leg, h.stop, h.deferred, h.row, h.unresolved⟩
  | setState s => exact ⟨h.attempt, h.leg, h.stop, h.deferred, h.row, h.unresolved⟩
  | setRecovering b => exact ⟨h.attempt, h.leg, h.stop, h.deferred, h.row, h.unresolved⟩
  | brokerRead s => exact ⟨h.attempt, h.leg, h.stop, h.deferred, h.row, h.unresolved⟩
  | tick => exact ⟨h.attempt, h.leg, h.stop, h.deferred, h.row, h.unresolved⟩
  | _ => exact ha.elim

theorem Parked.stopped (h : Parked r w) : w.mem.needsHuman ≠ none := by
  obtain ⟨i, hi⟩ := h.stop
  simp [hi]

theorem Parked.noId (h : Parked r w) : w.attemptId? = none := by
  simp [attemptId?, h.attempt]

theorem Parked.unready (h : Parked r w) : localReady w ≠ none := by
  obtain ⟨i, hi⟩ := h.stop
  simp [localReady, firstRefusal, refuseIf, hi]

theorem Parked.refuses (h : Parked r w) (a : Attempt) :
    attemptAdmissionReason w a ≠ none := by
  intro hnone
  have hready : (localReady w).map ("follower not ready: " ++ ·) = none :=
    firstRefusal_eq_none.1 hnone _ (by simp)
  exact h.unready (Option.map_eq_none_iff.1 hready)

end Parked

/-! ## Every call of a parked cell -/

section Calls

variable {r : AttemptRow} {reused : Prop} {α β : Type}

/-- From a parked cell the handler only does what is harmless, and leaves a parked cell. -/
def Idles (r : AttemptRow) (reused : Prop) (m : M α) : Prop :=
  ∀ w, Parked r w → wp (Apart r reused) m (fun _ w' => Parked r w') w

theorem idles_pure (a : α) : Idles r reused (pure a) := by
  intro w hw
  rwa [wp_pure]

theorem idles_emit {a : Action} (h : ∀ w, Parked r w → Apart r reused w a) :
    Idles r reused (emit a) := by
  intro w hw
  rw [wp_emit]
  exact ⟨h w hw, hw.act (h w hw)⟩

theorem idles_bind {m : M α} {f : α → M β} (hm : Idles r reused m)
    (hf : ∀ a, Idles r reused (f a)) : Idles r reused (m >>= f) := by
  intro w hw
  exact wp_then (hm w hw) (fun a w' hw' => hf a w' hw') fun _ _ hw' => hw'

theorem idles_get {f : World → M α}
    (h : ∀ w, Parked r w → wp (Apart r reused) (f w) (fun _ w' => Parked r w') w) :
    Idles r reused (get >>= f) := by
  intro w hw
  rw [wp_bind, wp_get, next_ok]
  exact h w hw

theorem idles_note (event : String) : Idles r reused (note event) :=
  idles_emit fun _ _ => trivial

theorem idles_modifyAux {f : Aux → Aux}
    (h : ∀ x, (f x).replayDeferred = x.replayDeferred) :
    Idles r reused (modifyAux f) := by
  refine idles_get fun w hw => ?_
  rw [wp_emit]
  have hx : Apart r reused w (.setAux (f w.mem.aux)) := (h _).trans hw.deferred
  exact ⟨hx, hw.act hx⟩

/-- A report about another attempt. -/
theorem wp_report {w : World} {s : StatusReport} {i : Nat} (hw : Parked r w)
    (hs : s.attemptId = some i) (hi : i = r.attempt.attemptId → reused) :
    wp (Apart r reused) (reportLegStatus s) (fun _ w' => Parked r w') w := by
  unfold reportLegStatus
  rw [wp_bind, wp_get, next_ok, hs, Option.some_or, wp_emit]
  have hrelay : Apart r reused w (.relay (.legStatus (s.payload w i))) := hi
  exact ⟨hrelay, hw.act hrelay⟩

theorem idles_recoverStops : Idles r reused recoverStops := by
  refine idles_bind ?_ fun _ => idles_bind ?_ fun _ => ?_
  · refine idles_get fun w hw => ?_
    obtain ⟨i, hi⟩ := hw.stop
    rw [hi]
    exact idles_pure () w hw
  · refine idles_get fun w hw => ?_
    obtain ⟨i, hi⟩ := hw.stop
    rw [hi]
    exact idles_pure () w hw
  · refine idles_get fun w hw => ?_
    obtain ⟨i, hi⟩ := hw.stop
    rw [hi]
    exact idles_pure () w hw

theorem idles_awaitPeerTerminalProof : Idles r reused awaitPeerTerminalProof := by
  refine idles_get fun w hw => ?_
  rw [hw.attempt]
  exact idles_modifyAux (by simp) w hw

theorem idles_maybeFinalizeEmpty : Idles r reused maybeFinalizeEmpty := by
  refine idles_get fun w hw => ?_
  rw [hw.attempt]
  exact idles_pure () w hw

theorem idles_progress : Idles r reused progress := by
  refine idles_bind ?_ fun _ => idles_get fun w hw => ?_
  · refine idles_get fun w hw => ?_
    rw [if_pos hw.deferred]
    exact idles_pure () w hw
  · rw [if_pos hw.stopped]
    refine idles_bind (idles_emit (by intros; trivial)) (fun _ =>
      idles_bind idles_maybeFinalizeEmpty fun _ => idles_get fun w hw => ?_) w hw
    rw [if_pos hw.stopped]
    exact idles_awaitPeerTerminalProof w hw

theorem idles_readAndProgress : Idles r reused readAndProgress := by
  refine idles_get fun w hw => ?_
  rw [if_pos hw.attempt]
  exact idles_pure () w hw

theorem idles_beginClose (reason : Reason) : Idles r reused (beginClose reason) := by
  refine idles_get fun w hw => ?_
  rw [hw.attempt]
  exact idles_pure () w hw

/-- An answer names the attempt asked for, and the foreign one is not over. -/
theorem idles_answerLegStatus (i : Nat) (allow : Bool) :
    Idles r reused (answerLegStatus i allow) := by
  refine idles_get fun w hw => ?_
  rw [hw.noId, if_neg (by simp)]
  split
  · next hrow =>
      split
      · refine wp_report hw rfl fun hi => ?_
        rw [hi, hw.row] at hrow
        cases hrow
      · exact idles_pure () w hw
  · next row hrow =>
      split
      · next reason hterm =>
          refine wp_report hw rfl fun hi => ?_
          rw [hi, hw.row] at hrow
          obtain rfl := Option.some.inj hrow
          rw [hw.unresolved] at hterm
          cases hterm
      · exact idles_pure () w hw

theorem idles_recordLatePeerLegStatus (p : LegStatus) :
    Idles r reused (recordLatePeerLegStatus p) := by
  refine idles_bind (idles_emit (by intros; trivial)) fun _ => ?_
  split
  · exact idles_pure ()
  · exact idles_answerLegStatus _ _

theorem idles_handlePeerLegStatus (p : LegStatus) :
    Idles r reused (handlePeerLegStatus p) := by
  -- every status is late for a cell that follows no attempt
  have late : ∀ f : World → M Unit, Idles r reused (get >>= fun w =>
      if w.attemptId? ≠ some p.attemptId then recordLatePeerLegStatus p else f w) := by
    intro f
    refine idles_get fun w hw => ?_
    rw [hw.noId, if_pos (by simp)]
    exact idles_recordLatePeerLegStatus p w hw
  unfold handlePeerLegStatus
  dsimp only
  split
  · exact idles_bind (idles_note _) fun _ => late _
  · exact late _

/-- The delivered attempt carries the foreign identifier over other content. -/
def Attempt.Reuses (a : Attempt) (r : AttemptRow) : Prop :=
  a.attemptId = r.attempt.attemptId ∧ a ≠ r.attempt

instance (a : Attempt) (r : AttemptRow) : Decidable (a.Reuses r) :=
  inferInstanceAs (Decidable (_ ∧ _))

theorem idles_handleAttempt (a : Attempt) (h : a.Reuses r → reused) :
    Idles r reused (handleAttempt a) := by
  refine idles_get fun w hw => ?_
  split
  · exact idles_pure () w hw
  · split
    · next row hrow =>
        have same : a.attemptId = r.attempt.attemptId → row = r := by
          intro hi
          rw [hi, hw.row] at hrow
          exact (Option.some.inj hrow).symm
        split
        · next hne =>
            refine idles_bind (idles_note _) (fun _ w hw => ?_) w hw
            refine wp_report hw rfl fun hi => h ⟨hi, ?_⟩
            rintro rfl
            exact hne (by rw [same hi])
        · refine idles_bind (idles_note _) (fun _ => idles_get fun w hw => ?_) w hw
          rw [hw.leg, if_neg (by simp)]
          split
          · next reason hterm =>
              refine wp_report hw rfl fun hi => ?_
              rw [hi, hw.row] at hterm
              simp [hw.unresolved] at hterm
          · exact idles_pure () w hw
    · next hrow =>
        split
        · next reason hreason =>
            have hfree : Apart r reused w (.refuse a reason) := hrow
            have hne : a.attemptId ≠ r.attempt.attemptId := by
              intro hi
              rw [hi, hw.row] at hrow
              cases hrow
            rw [wp_bind, wp_emit, next_ok]
            refine ⟨hfree, idles_bind (idles_note _) (fun _ w hw => ?_) _ (hw.act hfree)⟩
            exact wp_report hw rfl fun hi => absurd hi hne
        · next hadmit => exact absurd hadmit (hw.refuses a)

theorem idles_acceptRelayEnvelope {m : Message}
    (h : ∀ a, m = .attempt a → a.Reuses r → reused) :
    Idles r reused (acceptRelayEnvelope m) := by
  refine idles_bind (idles_modifyAux (by simp)) fun _ => ?_
  cases m with
  | attempt a => exact idles_handleAttempt a (h a rfl)
  | legStatus p => exact idles_handlePeerLegStatus p
  | legStatusRequest i => exact idles_answerLegStatus i true
  | pairEntryConfirmed i =>
      refine idles_get fun w hw => ?_
      rw [hw.attempt]
      exact idles_pure () w hw
  | pairEntryFailed i reason =>
      refine idles_get fun w hw => ?_
      rw [hw.noId, if_neg (by simp)]
      exact idles_pure () w hw
  | other k => exact idles_pure ()

theorem idles_observeTime (now : Nat) : Idles r reused (observeTime now) :=
  idles_modifyAux (by simp)

theorem idles_acceptPolicy (p : Policy) : Idles r reused (acceptPolicy p) := by
  refine idles_get fun w hw => ?_
  split
  · exact idles_pure () w hw
  · split
    · exact idles_note _ w hw
    · exact idles_bind (idles_emit (by intros; trivial)) (fun _ => idles_note _) w hw

theorem idles_observedSnapshot : Idles r reused observedSnapshot := by
  refine idles_get fun w hw => ?_
  refine idles_bind (idles_emit (by intros; trivial)) (fun _ => ?_) w hw
  refine idles_bind ?_ fun _ => idles_recoverStops
  unfold applyBrokerSnapshot
  split
  · exact idles_pure ()
  · refine idles_bind (idles_modifyAux (by simp)) fun _ => idles_get fun w hw => ?_
    rw [hw.attempt]
    exact idles_pure () w hw

theorem idles_peerSessionChanged (connected : Bool) :
    Idles r reused (peerSessionChanged connected) := by
  refine idles_get fun w hw => idles_bind (idles_modifyAux (by simp)) (fun _ => ?_) w hw
  split
  · exact idles_note _
  · split
    · exact idles_pure ()
    · refine idles_bind (idles_get fun w hw => ?_) fun _ => idles_recoverStops
      rw [hw.attempt]
      exact idles_pure () w hw

theorem idles_dispatchEvent {ev : Event}
    (h : ∀ a, ev = .envelope (.attempt a) → a.Reuses r → reused) :
    Idles r reused (dispatchEvent ev) := by
  cases ev with
  | clockTick now => exact idles_observeTime now
  | readinessFacts now facts =>
      exact idles_bind (idles_observeTime now) fun _ => idles_modifyAux (by simp)
  | brokerSnapshot now => exact idles_bind (idles_observeTime now) fun _ =>
      idles_observedSnapshot
  | peerSession now connected =>
      exact idles_bind (idles_observeTime now) fun _ => idles_peerSessionChanged connected
  | routeMetadata now unpairing disagreement =>
      exact idles_bind (idles_observeTime now) fun _ => idles_modifyAux (by simp)
  | envelope m => exact idles_acceptRelayEnvelope fun a hm => h a (hm ▸ rfl)
  | policy p => exact idles_acceptPolicy p
  | other => exact idles_pure ()

theorem idles_recover : Idles r reused recover := by
  refine idles_bind (idles_emit (by intros; trivial)) fun _ => idles_bind ?_ fun _ =>
    idles_bind (idles_note _) fun _ =>
      idles_bind (idles_emit (by intros; trivial)) fun _ =>
    idles_bind idles_recoverStops fun _ => idles_readAndProgress
  refine idles_get fun w hw => ?_
  rw [hw.attempt]
  exact idles_pure () w hw

/-- The call delivers an attempt that reuses the foreign identifier. -/
def Call.Reuses (call : Call) (r : AttemptRow) : Prop :=
  match call.message? with
  | some (.attempt a) => a.Reuses r
  | _ => False

theorem idles_call (call : Call) : Idles r (call.Reuses r) call.run := by
  cases call with
  | event ev =>
      refine idles_bind (idles_dispatchEvent ?_) fun _ => idles_progress
      rintro a rfl ha
      exact ha
  | recover => exact idles_recover
  | requestClose reason =>
      exact idles_bind (idles_beginClose reason) fun _ => idles_readAndProgress

end Calls

/-! ## Items of other clients -/

/-- What serving another client's item does. -/
def Serves : Action → Prop
  | .prepare _ _ own => own = false
  | .markSendStarted _ | .orderSend .. | .recordReceipt .. => True
  | _ => False

theorem emits_serve (item : ForeignItem) :
    Emits Serves (dispatchScheduledTraderRpc item) := by
  have prepare : Emits Serves (Journal.prepare item.effect item.payload false) := by
    refine emits_bind emits_get fun w => ?_
    split
    · split
      · exact emits_pure _
      · exact emits_pure _
    · exact emits_bind (emits_emit rfl) fun _ => emits_pure _
  have started : Emits Serves (Journal.markSendStarted item.effect) := by
    refine emits_bind emits_get fun w => ?_
    split
    · exact emits_pure _
    · split
      · exact emits_pure _
      · exact emits_bind (emits_emit trivial) fun _ => emits_pure _
  have receipt : ∀ retcode,
      Emits Serves (Journal.recordReceipt item.effect retcode true) := by
    intro retcode
    refine emits_bind emits_get fun w => ?_
    split
    · exact emits_pure _
    · split
      · exact emits_pure _
      · exact emits_bind (emits_emit trivial) fun _ => emits_pure _
  have send : Emits Serves (orderSend item.effect item.payload) :=
    emits_bind emits_get fun w => emits_bind (emits_emit trivial) fun _ => emits_pure _
  refine emits_bind prepare fun state => ?_
  split
  · split
    · refine emits_bind started fun marked => ?_
      split
      · exact emits_pure _
      · refine emits_bind send fun reply => ?_
        split
        · exact emits_bind (receipt _) fun _ => emits_pure _
        · exact emits_pure _
    · exact emits_pure _
  · exact emits_pure _

/-- What happens on a parked worker. -/
def Distant (r : AttemptRow) (w : World) (a : Action) : Prop :=
  Apart r False w a ∨ Serves a

section Distant

variable {r : AttemptRow} {w : World} {a : Action}

theorem Parked.serves (h : Parked r w) (ha : Serves a) : Parked r (w.act a) := by
  have moved : ∀ e st code, Parked r (w.moveJournal e st code) := by
    intro e st code
    unfold moveJournal
    split
    · exact ⟨h.attempt, h.leg, h.stop, h.deferred, h.row, h.unresolved⟩
    · exact h
  cases a with
  | prepare e p own =>
      obtain rfl : own = false := ha
      exact ⟨h.attempt, h.leg, h.stop, h.deferred, h.row, h.unresolved⟩
  | markSendStarted e =>
      have hm := moved e .sendStarted none
      exact ⟨hm.attempt, hm.leg, hm.stop, hm.deferred, hm.row, hm.unresolved⟩
  | orderSend e p y =>
      simp only [World.act]
      split
      · exact ⟨h.attempt, h.leg, h.stop, h.deferred, h.row, h.unresolved⟩
      · exact ⟨h.attempt, h.leg, h.stop, h.deferred, h.row, h.unresolved⟩
  | recordReceipt e code =>
      have hm := moved e .receipt code
      exact ⟨hm.attempt, hm.leg, hm.stop, hm.deferred, hm.row, hm.unresolved⟩
  | _ => exact ha.elim

theorem Parked.distant (h : Parked r w) (ha : Distant r w a) : Parked r (w.act a) := by
  obtain ha | ha := ha
  · exact h.act ha
  · exact h.serves ha

end Distant

/-! ## The rows -/

/-- The envelope is a leg status of the attempt. -/
def Message.reportsOn (i : Nat) : Message → Bool
  | .legStatus l => l.attemptId == i
  | _ => false

/-- The row `r` is there, nothing was written to the leg, active and desired rows, no
attempt was adopted and no leg status of `r` has left. -/
structure Untouched (r : AttemptRow) (d₀ d : Disk) : Prop where
  row : d.rowOf r.attempt.attemptId = some r
  legs : d.legs = d₀.legs
  active : d.active = d₀.active
  desired : d.desired = d₀.desired
  attempts : ∃ more, d.attempts = d₀.attempts ++ more ∧
    ∀ q ∈ more, ∃ reason, q.terminal = some (.admissionRejected reason)
  statuses : d.relayed.filter (Message.reportsOn r.attempt.attemptId) =
    d₀.relayed.filter (Message.reportsOn r.attempt.attemptId)

section Untouched

variable {r : AttemptRow} {d₀ : Disk} {w : World} {a : Action}

/-- Nothing that these rows depend on changed. -/
theorem Untouched.of_eq {d d' : Disk} (h : Untouched r d₀ d)
    (hattempts : d'.attempts = d.attempts) (hlegs : d'.legs = d.legs)
    (hactive : d'.active = d.active) (hdesired : d'.desired = d.desired)
    (hrelayed : d'.relayed = d.relayed) : Untouched r d₀ d' := by
  constructor
  · rw [Disk.rowOf, hattempts]
    exact h.row
  · exact hlegs.trans h.legs
  · exact hactive.trans h.active
  · exact hdesired.trans h.desired
  · rw [hattempts]
    exact h.attempts
  · rw [hrelayed]
    exact h.statuses

theorem Untouched.apart (h : Untouched r d₀ w.disk) (ha : Apart r False w a) :
    Untouched r d₀ (w.act a).disk := by
  cases a with
  | refuse b reason =>
      obtain ⟨more, hmore, hrefused⟩ := h.attempts
      refine ⟨rowOf_append h.row, h.legs, h.active, h.desired,
        ⟨more ++ [⟨b, w.mem.aux.now, some (.admissionRejected reason)⟩], ?_, ?_⟩,
        h.statuses⟩
      · simp only [World.act, hmore, List.append_assoc]
      · intro q hq
        obtain hq | hq := List.mem_append.1 hq
        · exact hrefused q hq
        · obtain rfl := List.mem_singleton.1 hq
          exact ⟨reason, rfl⟩
  | relay m =>
      refine ⟨h.row, h.legs, h.active, h.desired, h.attempts, ?_⟩
      have hm : m.reportsOn r.attempt.attemptId = false := by
        cases m with
        | legStatus l => exact beq_eq_false_iff_ne.2 ha
        | _ => rfl
      simp only [World.act, List.filter_append, List.filter_singleton, hm]
      simpa using h.statuses
  | setAux _ => exact h.of_eq rfl rfl rfl rfl rfl
  | latePeerLeg _ => exact h.of_eq rfl rfl rfl rfl rfl
  | savePolicy _ => exact h.of_eq rfl rfl rfl rfl rfl
  | transition _ => exact h.of_eq rfl rfl rfl rfl rfl
  | bump => exact h.of_eq rfl rfl rfl rfl rfl
  | setState _ => exact h.of_eq rfl rfl rfl rfl rfl
  | setRecovering _ => exact h.of_eq rfl rfl rfl rfl rfl
  | brokerRead _ => exact h.of_eq rfl rfl rfl rfl rfl
  | tick => exact h.of_eq rfl rfl rfl rfl rfl
  | _ => exact ha.elim

theorem Untouched.serves (h : Untouched r d₀ w.disk) (ha : Serves a) :
    Untouched r d₀ (w.act a).disk := by
  have moved : ∀ e st code, Untouched r d₀ (w.moveJournal e st code).disk := by
    intro e st code
    unfold moveJournal
    split
    · exact h.of_eq rfl rfl rfl rfl rfl
    · exact h
  cases a with
  | prepare e p own =>
      obtain rfl : own = false := ha
      exact h.of_eq rfl rfl rfl rfl rfl
  | markSendStarted e => exact moved e .sendStarted none
  | orderSend e p y =>
      simp only [World.act]
      split
      · exact h.of_eq rfl rfl rfl rfl rfl
      · exact h.of_eq rfl rfl rfl rfl rfl
  | recordReceipt e code => exact moved e .receipt code
  | _ => exact ha.elim

theorem Untouched.distant (h : Untouched r d₀ w.disk) (ha : Distant r w a) :
    Untouched r d₀ (w.act a).disk := by
  obtain ha | ha := ha
  · exact h.apart ha
  · exact h.serves ha

end Untouched

/-! ## Reopening -/

section Reopening

variable {r : AttemptRow} {c : Config} {d₀ d : Disk} {w : World}

theorem newestRow_isSome {rows : List AttemptRow} {q : AttemptRow} (h : q ∈ rows) :
    ∃ best, newestRow rows = some best := by
  induction rows using List.reverseRecOn with
  | nil => cases h
  | append_singleton rows x ih =>
      rw [newestRow_append]
      cases newestRow rows with
      | none => exact ⟨x, rfl⟩
      | some b =>
          simp only [newerRow]
          split
          · exact ⟨x, rfl⟩
          · exact ⟨b, rfl⟩

/-- Refused rows hide the attempt to follow, they never are one. -/
theorem loadedAttempt_append {more : List AttemptRow}
    (hattempts : d.attempts = d₀.attempts ++ more) (hmore : ∀ q ∈ more, q.terminal ≠ none)
    (h : loadedAttempt c d₀ = none) :
    loadedAttempt c d = none := by
  have closed : ∀ q, newestRow (routeRows c d) = some q → q.terminal ≠ none := by
    intro q hq
    have hrows : routeRows c d = routeRows c d₀ ++
        more.filter fun q => decide (q.attempt.routeId = c.routeId) := by
      simp only [routeRows, hattempts, List.filter_append]
    rw [hrows] at hq
    have hrest : ∀ q ∈ more.filter fun q => decide (q.attempt.routeId = c.routeId),
        q.terminal ≠ none := fun q hq => hmore q (List.mem_filter.1 hq).1
    revert hq hrest
    generalize more.filter (fun q => decide (q.attempt.routeId = c.routeId)) = tail
    intro hq hrest
    induction tail using List.reverseRecOn generalizing q with
    | nil =>
        rw [List.append_nil] at hq
        simpa [loadedAttempt, hq] using h
    | append_singleton tail x ih =>
        rw [← List.append_assoc, newestRow_append] at hq
        obtain rfl | hbest := newerRow_eq_some hq
        · exact hrest q (by simp)
        · exact ih q hbest fun y hy => hrest y (by simp [hy])
  rw [loadedAttempt]
  split
  · next q hq => exact if_neg (closed q hq)
  · rfl

/-- The constructor parks. -/
theorem parked_load (h : Untouched r d₀ d) (hown : loadedAttempt c d₀ = none)
    (hopen : r.terminal = none) (hroute : r.attempt.routeId ≠ c.routeId)
    (hload : load c d = some w) : w.cfg = c ∧ Parked r w ∧ Untouched r d₀ w.disk := by
  obtain ⟨more, hattempts, hmore⟩ := h.attempts
  have hown : loadedAttempt c d = none := by
    refine loadedAttempt_append hattempts (fun q hq => ?_) hown
    obtain ⟨reason, hreason⟩ := hmore q hq
    simp [hreason]
  have hmem : r ∈ d.attempts := List.mem_of_find?_eq_some h.row
  obtain ⟨foreign, hforeign⟩ : ∃ q, foreignAttempt c d = some q :=
    newestRow_isSome (List.mem_filter.2 ⟨hmem, by simp [hopen, hroute]⟩)
  simp only [load, hforeign, hown, Option.some.injEq] at hload
  subst hload
  split
  · next hstop =>
      exact ⟨rfl, ⟨rfl, rfl, ⟨_, hstop⟩, rfl, h.row, hopen⟩, h⟩
  · exact ⟨rfl, ⟨rfl, rfl, ⟨_, rfl⟩, rfl, h.row, hopen⟩, h.of_eq rfl rfl rfl rfl rfl⟩

end Reopening

/-! ## Whole runs -/

section Runs

variable {r : AttemptRow} {c : Config} {d₀ : Disk}

/-- No delivered attempt carries the foreign identifier over other content. -/
def Unreused (r : AttemptRow) : Proc → Label → Prop
  | _, .begin call _ => ¬call.Reuses r
  | _, _ => True

instance (call : Call) (r : AttemptRow) : Decidable (call.Reuses r) := by
  unfold Call.Reuses
  split <;> infer_instance

instance (r : AttemptRow) (p : Proc) : ∀ l : Label, Decidable (Unreused r p l)
  | .begin call _ => inferInstanceAs (Decidable (¬call.Reuses r))
  | .serve _ _ | .exec _ | .crash | .reopen => isTrue trivial

/-- A worker whose cell is parked, whatever is left of its running call. -/
inductive Isolated (r : AttemptRow) (c : Config) (d₀ : Disk) : Proc → Prop where
  | up {w : World} {todo : List Action} (hc : w.cfg = c) (hp : Parked r w)
      (hd : Untouched r d₀ w.disk) (htodo : Allowed (Distant r) w todo) :
          Isolated r c d₀ (.up w todo)
  | down {d : Disk} (hd : Untouched r d₀ d) : Isolated r c d₀ (.down c d)

theorem Isolated.step {p p' : Proc} {l : Label} (hown : loadedAttempt c d₀ = none)
    (hopen : r.terminal = none) (hroute : r.attempt.routeId ≠ c.routeId)
    (h : Isolated r c d₀ p) (hl : Unreused r p l) (hstep : Proc.Step p l p') :
    Isolated r c d₀ p' := by
  cases hstep with
  | @begin w call script hfresh =>
      cases h with
      | up hc hp hd _ =>
          have hgiven : Parked r (w.given call script) :=
            ⟨hp.attempt, hp.leg, hp.stop, hp.deferred, hp.row, hp.unresolved⟩
          refine .up hc hgiven hd ?_
          have hcall := (idles_call call _ hgiven).1
          rw [eq_false hl] at hcall
          exact hcall.mono fun _ _ ha => .inl ha
  | @serve w item script =>
      cases h with
      | up hc hp hd _ =>
          have hlent : Parked r (w.lent script) :=
            ⟨hp.attempt, hp.leg, hp.stop, hp.deferred, hp.row, hp.unresolved⟩
          exact .up hc hlent hd
            (allowed_of_forall (fun a ha _ => .inr (emits_serve item _ a ha)) _)
  | exec a todo =>
      cases h with
      | up hc hp hd htodo =>
          exact .up ((act_cfg _ _).trans hc) (hp.distant htodo.1)
            (hd.distant htodo.1) htodo.2
  | crash =>
      cases h with
      | up hc hp hd _ => exact hc ▸ .down hd
  | reopen hload =>
      cases h with
      | down hd =>
          obtain ⟨hc, hp, hd'⟩ := parked_load hd hown hopen hroute hload
          exact .up hc hp hd' trivial

/--
A worker opened on any database with an unresolved attempt `r` of another route, none of
its own route being taken up, and whose peer sends no other attempt under `r`'s identifier.
In every state reached the row of `r` and the leg, active and desired rows are what they
were, no attempt was adopted and no leg status of `r` was relayed; the cell is not ready,
and no call it may handle next sends anything to the broker.
-/
theorem foreign_attempt_isolated
    (hkeys : (d₀.attempts.map fun q => q.attempt.attemptId).Nodup) (hr : r ∈ d₀.attempts)
    (hopen : r.terminal = none) (hroute : r.attempt.routeId ≠ c.routeId)
    (hown : loadedAttempt c d₀ = none) {p : Proc}
    (h : Reach Proc.Step (Unreused r) (.down c d₀) p) :
    Untouched r d₀ p.disk ∧
    ∀ w todo, p = .up w todo → w.mem.attempt = none ∧ localReady w ≠ none ∧
      ∀ (call : Call) script e q y,
        .orderSend e q y ∉ (call.run (w.given call script)).2 := by
  have hstart : Isolated r c d₀ (.down c d₀) :=
    .down ⟨rowOf_eq_some hkeys hr, rfl, rfl, rfl, ⟨[], by simp, by simp⟩, rfl⟩
  have hp : Isolated r c d₀ p := h.invariant hstart fun _ _ _ hp hl hstep =>
    hp.step hown hopen hroute hl hstep
  refine ⟨?_, ?_⟩
  · cases hp with
    | up _ _ hd _ => exact hd
    | down hd => exact hd
  · rintro w todo rfl
    cases hp with
    | up _ hp _ _ =>
        refine ⟨hp.attempt, hp.unready, fun call script e q y hmem => ?_⟩
        have hgiven : Parked r (w.given call script) :=
          ⟨hp.attempt, hp.leg, hp.stop, hp.deferred, hp.row, hp.unresolved⟩
        obtain ⟨_, hno⟩ := (idles_call call _ hgiven).1.mem hmem
        exact hno

end Runs

namespace Sample

/-- An unresolved attempt of route 6. -/
def foreign : AttemptRow := ⟨{ attempt 100 with routeId := 6 }, 0, none⟩

def foreignDisk : Disk :=
  { attempts := [foreign], desired := some ⟨.active, some 100, false⟩ }

/-- The peer reports on the foreign attempt, asks for it and sends an attempt of the new
route; the worker restarts. -/
def onNewRoute : List Move :=
  ready ++ deliver (.legStatus { attemptId := 100, status := .filled }) {} ++
    deliver (.legStatusRequest 100) {} ++ deliver (.attempt (attempt 101)) {} ++ restart

end Sample

theorem foreign_attempt_isolated_follower :
    ∃ p, Reach Proc.Step (Unreused Sample.foreign)
      (.down Sample.follower Sample.foreignDisk) p ∧
      p.disk.attempts.length = 2 ∧ Untouched Sample.foreign Sample.foreignDisk p.disk := by
  obtain ⟨p, hreach, hp⟩ := Proc.play_any (Unreused Sample.foreign)
    (.down Sample.follower Sample.foreignDisk) Sample.onNewRoute
    (fun p => decide (p.disk.attempts.length = 2)) (by decide +kernel)
  refine ⟨p, hreach, of_decide_eq_true hp, ?_⟩
  exact (foreign_attempt_isolated (by decide) (by decide) rfl (by decide)
    (by decide) hreach).1

/-- The peer sends another attempt under the foreign identifier and is told that the
foreign attempt is rejected.  Where the database also holds an unresolved attempt of the
cell's own route, the cell takes that one up
and overwrites the desired row of the foreign one. -/
theorem foreign_attempt_disturbed :
    (∃ p, Reach Proc.Step anyStep (.down Sample.follower Sample.foreignDisk) p ∧
      ¬Untouched Sample.foreign Sample.foreignDisk p.disk) ∧
    ∃ p, Reach Proc.Step anyStep (.down Sample.follower { Sample.foreignDisk with
        attempts := [Sample.foreign, ⟨Sample.attempt 101, 1, none⟩]
        legs := Table.empty.set 101 (firstLeg Sample.follower (Sample.attempt 101)) }) p ∧
      p.disk.desired ≠ Sample.foreignDisk.desired := by
  constructor
  · obtain ⟨p, hreach, hp⟩ :=
      Proc.play_any anyStep (.down Sample.follower Sample.foreignDisk)
      (Sample.ready ++ Sample.deliver (.attempt (Sample.attempt 100)) {})
      (fun p => decide (p.disk.relayed.filter (Message.reportsOn 100) ≠ []))
        (by decide +kernel)
    exact ⟨p, hreach, fun h => of_decide_eq_true hp h.statuses⟩
  · obtain ⟨p, hreach, hp⟩ := Proc.play_any anyStep
      (.down Sample.follower { Sample.foreignDisk with
        attempts := [Sample.foreign, ⟨Sample.attempt 101, 1, none⟩]
        legs := Table.empty.set 101 (firstLeg Sample.follower (Sample.attempt 101)) })
      ([.reopen] ++ Sample.run .recover { depth := 5 })
      (fun p => decide (p.disk.desired ≠ Sample.foreignDisk.desired)) (by decide +kernel)
    exact ⟨p, hreach, of_decide_eq_true hp⟩

end PairCell
