import PairCell.Gate.Frame
import PairCell.Gate.Play

/-!
# The quiet window after a reconnect

Every trigger of the window is a transition in the database.  The instant the
cell holds in memory is never before any of them, and a proof it holds is the
time of a handshake that was received.
-/

namespace PairCell.Gate

open Lib

variable {c c' : Cell} {x : Inputs} {a : Attempt} {ok : Cell → Allowance → Prop}

/-- The history is dated in order and not after the cell's time. -/
structure Dated (c : Cell) : Prop where
  past : ∀ t ∈ c.disk.transitions, t.at_ ≤ c.now
  last : ∀ t ∈ c.disk.transitions, ∀ u ∈ c.disk.transitions.getLast?, t.at_ ≤ u.at_

/-- The window in memory is not before any trigger, and its proof was received. -/
structure Windowed (c : Cell) : Prop extends Dated c where
  flap : ∀ f ∈ c.triggers, ∃ row, c.cooldown = some row ∧ f ≤ row.flapAt
  proof : ∀ row, c.cooldown = some row → ∀ p, row.proofAt = some p → p ∈ c.handshakes

theorem Dated.congr (h : Dated c) (ht : c'.disk.transitions = c.disk.transitions)
    (hn : c.now ≤ c'.now) : Dated c' := by
  refine ⟨?_, ?_⟩
  · rw [ht]
    exact fun t hmem => (h.past t hmem).trans hn
  · rw [ht]
    exact h.last

theorem Dated.transition (h : Dated c) (e : Noted) : Dated (c.transition e) where
  past := by
    intro t ht
    rcases List.mem_append.1 ht with ht | ht
    · exact h.past t ht
    · rw [List.mem_singleton.1 ht]
      exact le_rfl
  last := by
    intro t ht u hu
    obtain rfl : u = ⟨e, c.now⟩ := by simpa [Cell.transition, eq_comm] using hu
    rcases List.mem_append.1 ht with ht | ht
    · exact h.past t ht
    · rw [List.mem_singleton.1 ht]

theorem Dated.aside (h : Dated c) (ha : Aside c c') : Dated c' := by
  obtain ⟨n, hn⟩ := ha.history
  induction n generalizing c' with
  | zero => exact h.congr (by simpa using hn) ha.now.ge
  | succ n ih =>
      -- one transition after `n` of them
      let m : Cell := { c with disk := { c.disk with
        transitions := c.disk.transitions ++ List.replicate n ⟨.other, c.now⟩ } }
      have hm : Dated m := ih ⟨rfl, rfl, rfl, rfl, rfl, rfl, rfl, rfl, n, rfl⟩ rfl
      refine (hm.transition .other).congr ?_ ha.now.ge
      rw [hn, List.replicate_succ']
      exact (List.append_assoc ..).symm

theorem Dated.trigger (h : Dated c) : Dated c.noteCooldownTrigger := by
  have hrow : Dated { c with cooldown := some ⟨c.now, none⟩
                             disk := { c.disk with cooldown := some ⟨c.now, none⟩ } } :=
    h.congr rfl le_rfl
  exact hrow.transition _

/-- A trigger restores the window whatever it was before. -/
theorem Dated.windowed (h : Dated c) : Windowed c.noteCooldownTrigger where
  toDated := h.trigger
  flap := by
    intro f hf
    obtain ⟨t, ht, rfl⟩ := List.mem_map.1 hf
    exact ⟨_, rfl, h.trigger.past t (List.mem_of_mem_filter ht)⟩
  proof := by
    intro row hrow p hp
    obtain rfl : Cooldown.mk c.now none = row := Option.some.inj hrow
    cases hp

theorem Windowed.congr (h : Windowed c) (hd : Dated c') (ht : c'.triggers = c.triggers)
    (hc : c'.cooldown = c.cooldown) (hh : c'.handshakes = c.handshakes) : Windowed c' := by
  refine ⟨hd, ?_, ?_⟩
  · rw [ht, hc]
    exact h.flap
  · rw [hc, hh]
    exact h.proof

theorem Windowed.aside (h : Windowed c) (ha : Aside c c') : Windowed c' :=
  h.congr (h.toDated.aside ha) ha.triggers ha.cooldown ha.handshakes

theorem Windowed.transition (h : Windowed c) : Windowed (c.transition .other) :=
  h.aside (aside_transition c)

/-- A proof moves only the proof of the window, to a handshake that is being received. -/
theorem noteCooldownProof_cooldown (c : Cell) :
    c.noteCooldownProof.cooldown = c.cooldown.map fun row =>
      { row with proofAt := some c.now } := by
  unfold Cell.noteCooldownProof
  split
  · next h => rw [h]; rfl
  · next row h =>
    rw [h]
    dsimp only
    split <;> rfl

theorem noteCooldownProof_handshakes (c : Cell) :
    c.noteCooldownProof.handshakes = c.handshakes := by
  unfold Cell.noteCooldownProof
  split
  · rfl
  · dsimp only
    split <;> rfl

theorem Windowed.handshake (h : Windowed c) :
    Windowed c.handshake := by
  generalize hc' : c.handshake = c'
  have ht : c'.disk.transitions = c.disk.transitions := by
    rw [← hc']
    exact transitions_proof _
  have hcool : c'.cooldown = c.cooldown.map fun row =>
      { row with proofAt := some c.now } := by
    rw [← hc']
    exact noteCooldownProof_cooldown _
  have hframe : c'.now = c.now ∧ c'.handshakes = c.now :: c.handshakes := by
    rw [← hc']
    unfold Cell.handshake Cell.noteCooldownProof
    split
    · exact ⟨rfl, rfl⟩
    · dsimp only
      split <;> exact ⟨rfl, rfl⟩
  refine ⟨h.toDated.congr ht hframe.1.ge, ?_, ?_⟩
  · intro f hf
    rw [Cell.triggers, ht] at hf
    obtain ⟨row, hrow, hle⟩ := h.flap f hf
    exact ⟨{ row with proofAt := some c.now }, by rw [hcool, hrow]; rfl, hle⟩
  · intro row hrow p hp
    rw [hcool] at hrow
    obtain ⟨old, -, rfl⟩ := Option.map_eq_some_iff.1 hrow
    obtain rfl : c.now = p := Option.some.inj hp
    rw [hframe.2]
    exact List.mem_cons_self ..

theorem Windowed.epoch (h : Windowed c) (epoch : Nat) :
    Windowed (c.notePeerPublisherEpoch epoch) := by
  have hsaw : Windowed (c.sawEpoch epoch) :=
    h.congr (h.toDated.congr rfl le_rfl) rfl rfl rfl
  have hadv : Windowed ((c.sawEpoch epoch).advanceEpoch epoch) :=
    hsaw.congr (hsaw.toDated.congr rfl le_rfl) rfl rfl rfl
  unfold Cell.notePeerPublisherEpoch
  dsimp only
  split_ifs
  · exact hsaw
  · exact hadv.transition
  · exact hadv.transition.toDated.windowed.transition

theorem Windowed.allowance (h : Windowed c) (s : Allowance) :
    Windowed (c.acceptPeerAllowance s) := by
  have hepoch := h.epoch s.publisherEpoch
  unfold Cell.acceptPeerAllowance Cell.takeAllowance
  split_ifs
  · exact h
  · exact hepoch.congr (hepoch.toDated.congr rfl le_rfl) rfl rfl rfl
  · exact hepoch.congr (hepoch.toDated.congr rfl le_rfl) rfl rfl rfl

/-- Reopening goes back to the last transition, which is not before any other. -/
theorem Dated.reopen (h : Dated c) (m : Market) : Dated (c.reopen m) where
  past := by
    intro t ht
    change t.at_ ≤ (c.disk.transitions.getLast?.map Transition.at_).getD 0
    cases hlast : c.disk.transitions.getLast? with
    | none =>
        have hnil : c.disk.transitions = [] := List.getLast?_eq_none_iff.1 hlast
        have ht' : t ∈ c.disk.transitions := ht
        rw [hnil] at ht'
        cases ht'
    | some u => exact h.last t ht u hlast
  last := h.last

theorem Windowed.move (h : Windowed c) (hm : Move ok c c') : Windowed c' := by
  cases hm with
  | aside ha => exact h.aside ha
  | tick now => exact h.congr (h.toDated.congr rfl (le_max_left _ _)) rfl rfl rfl
  | handshake => exact h.handshake
  | trigger => exact h.toDated.windowed
  | epoch e => exact h.epoch e
  | allowance s _ => exact h.allowance s
  | lost =>
      have hdrop : Dated c.loseSession := h.toDated.congr rfl le_rfl
      exact (hdrop.transition .other).windowed
  | restarted m w =>
      have hopen := (h.toDated.reopen m).aside (aside_worked w)
      have hset : Dated { (c.reopen m).worked w with recovering := false } :=
        hopen.congr rfl le_rfl
      exact (hset.transition .other).windowed.transition

theorem Windowed.moves (h : Windowed c) (hm : Moves ok c c') : Windowed c' := by
  induction hm with
  | refl => exact h
  | tail _ hstep ih => exact ih.move hstep

theorem Windowed.openAttempt (h : Windowed c) (a : Attempt) {e : Noted}
    (he : e.isEntry = true) :
    Windowed (c.openAttempt a e) := by
  have hfollow : Dated (c.follow a) := h.toDated.congr rfl le_rfl
  refine h.congr (hfollow.transition e) (triggers_transition (c.follow a) ?_) rfl rfl
  rintro rfl
  cases he

theorem Windowed.opened (h : Windowed c) (ho : Opened c x a c') : Windowed c' := by
  cases ho with
  | created => exact h.openAttempt a rfl
  | admitted => exact h.openAttempt a rfl

theorem Windowed.advance (h : Windowed c) (ha : Advance ok c c') : Windowed c' := by
  cases ha with
  | moves hm => exact h.moves hm
  | opened cm x a hm ho => exact (h.moves hm).opened ho

theorem windowed_fresh (cfg : Config) : Windowed (fresh cfg) where
  past := by simp [fresh]
  last := by simp [fresh]
  flap := by simp [fresh, Cell.triggers]
  proof := by simp [fresh]

/-! ## Entries -/

/-- The window has run out since every trigger, and a handshake came after it. -/
def QuietSince (c : Cell) (length f : Nat) : Prop :=
  f + length ≤ c.now ∧ ∃ p ∈ c.handshakes, f < p

theorem ready_cooldown (h : c.localReady x = none) : c.reconnectCooldownReason = none := by
  simp only [Cell.localReady, firstRefusal_eq_none] at h
  exact h _ (by simp)

theorem opened_ready (h : Opened c x a c') : c.localReady x = none := by
  cases h with
  | created _ h =>
      simp only [Cell.decideAttempt, Option.bind_eq_bind, Option.bind_eq_some_iff,
        Option.ite_none_left_eq_some, not_or, not_not] at h
      obtain ⟨policy, -, u, -, -, hgate, -⟩ := h
      exact hgate.1
  | admitted _ h =>
      simp only [Cell.attemptAdmissionReason, firstRefusal_eq_none] at h
      have hready := h ((c.localReady x).map ("follower not ready: " ++ ·)) (by simp)
      exact Option.map_eq_none_iff.1 hready

theorem Windowed.quiet (h : Windowed c) (hready : c.localReady x = none) {p : Policy}
    (hp : c.policy = some p) (hpos : 0 < p.postReconnectCooldown) {f : Nat}
    (hf : f ∈ c.triggers) :
    QuietSince c p.postReconnectCooldown f := by
  obtain ⟨row, hrow, hle⟩ := h.flap f hf
  have hcool := ready_cooldown hready
  have hlength : c.cooldownLength = p.postReconnectCooldown := by
    simp [Cell.cooldownLength, hp]
  simp only [Cell.reconnectCooldownReason, hrow, hlength, if_neg hpos.ne'] at hcool
  split_ifs at hcool with hnow
  split at hcool
  · cases hcool
  · next proofAt hproof =>
    rw [refuseIf_eq_none, decide_eq_false_iff_not] at hcool
    refine ⟨by omega, proofAt, h.proof row hrow proofAt hproof, by omega⟩

theorem advance_any (c : Cell) (l : Label) : Advance (fun _ _ => True) c (next c l) :=
  advance_next c l fun _ _ => trivial

theorem windowed_next (h : Windowed c) (l : Label) : Windowed (next c l) :=
  h.advance (advance_any c l)

theorem Windowed.entry (h : Windowed c) {l : Label}
    (hentry : (next c l).entries ≠ c.entries) {p : Policy}
    (hp : (next c l).policy = some p) (hpos : 0 < p.postReconnectCooldown) :
    ∀ f ∈ (next c l).triggers, QuietSince (next c l) p.postReconnectCooldown f := by
  cases advance_any c l with
  | moves hm => exact absurd hm.entries hentry
  | opened cm x a hm ho =>
      have hcm := h.moves hm
      have hready := opened_ready ho
      intro f hf
      generalize next c l = c' at ho hp hf ⊢
      cases ho with
      | created | admitted =>
          rw [Cell.openAttempt, triggers_transition _ (by simp)] at hf
          exact hcm.quiet hready hp hpos hf

/-! ## What happens in a run -/

/-- The cell after the labels of a run. -/
def run (cfg : Config) (ls : List Label) : Cell := ls.foldl next (fresh cfg)

@[simp] theorem run_concat (cfg : Config) (ls : List Label) (l : Label) :
    run cfg (ls ++ [l]) = next (run cfg ls) l := by
  simp [run]

/-- The epoch of the peer that an envelope names. -/
def Message.peerEpoch (cfg : Config) : Message → Option Nat
  | .catalogSummary workerId epoch =>
      if workerId = cfg.peerWorkerId then some epoch else none
  | .remainingAllowance s =>
      if s.workerId = cfg.peerWorkerId ∧ s.publisherEpoch ≠ 0 ∧ s.version ≠ 0 then
        some s.publisherEpoch
      else none
  | _ => none

/--
The label is one of the five triggers, at this time of the cell: the peer's
session is lost or regained, its publisher epoch advances past the one this
process knows, it requests a reseed that was not served yet, or the worker
recovers after a restart.
-/
inductive Trigger (c : Cell) : Label → Nat → Prop where
  | sessionLost (x : Inputs) (now : Nat) :
      Trigger c (.event x (.peerSession now false)) (max c.now now)
  | sessionReconnected (x : Inputs) (now : Nat) (h : c.peerSession = false) :
      Trigger c (.event x (.peerSession now true)) (max c.now now)
  | epochAdvanced (x : Inputs) (e : Envelope) (epoch : Nat) (hpeer : c.authentic e = true)
      (hepoch : e.message.peerEpoch c.cfg = some epoch) (hknown : c.peerPublisherEpoch ≠ 0)
      (h : c.peerPublisherEpoch < epoch) : Trigger c (.event x (.envelope e)) c.now
  | reseedRequested (x : Inputs) (e : Envelope) (nonce : Nat)
      (hpeer : c.authentic e = true)
      (hmessage : e.message = .reseedRequest nonce) (h : nonce ∉ c.servedReseedNonces) :
      Trigger c (.event x (.envelope e)) c.now
  | recovered (x : Inputs) (m : Market) (w : Work) :
      Trigger c (.restart x m w) (c.reopen m).now

/-- The label brings a handshake of the peer, at this time of the cell. -/
inductive Handshake (c : Cell) : Label → Nat → Prop where
  | received (x : Inputs) (e : Envelope) (hpeer : c.authentic e = true)
      (hkind : e.message.kind ∈ cooldownProofRelayKinds) :
      Handshake c (.event x (.envelope e)) c.now

/-- Somewhere in the run this happens at the time `t`. -/
def Happens (cfg : Config) (ls : List Label) (what : Cell → Label → Nat → Prop)
    (t : Nat) : Prop :=
  ∃ before l after, ls = before ++ l :: after ∧ what (run cfg before) l t

theorem Happens.concat {cfg : Config} {ls : List Label}
    {what : Cell → Label → Nat → Prop} {t : Nat} (h : Happens cfg ls what t) (l : Label) :
    Happens cfg (ls ++ [l]) what t := by
  obtain ⟨before, l', after, rfl, hwhat⟩ := h
  exact ⟨before, l', after ++ [l], by simp, hwhat⟩

theorem happens_last {cfg : Config} {ls : List Label}
    {what : Cell → Label → Nat → Prop} {t : Nat} {l : Label} (h : what (run cfg ls) l t) :
    Happens cfg (ls ++ [l]) what t :=
  ⟨ls, l, [], rfl, h⟩

/-- What happens in a run happened before its last label or with it. -/
theorem happens_concat {cfg : Config} {ls : List Label}
    {what : Cell → Label → Nat → Prop} {t : Nat} {l : Label}
    (h : Happens cfg (ls ++ [l]) what t) :
    Happens cfg ls what t ∨ what (run cfg ls) l t := by
  obtain ⟨before, l', after, heq, hwhat⟩ := h
  obtain rfl | ⟨rest, last, rfl⟩ := after.eq_nil_or_concat'
  · obtain ⟨rfl, hl⟩ := List.append_inj' heq rfl
    obtain rfl := List.singleton_inj.1 hl
    exact .inr hwhat
  · rw [← List.cons_append, ← List.append_assoc] at heq
    obtain ⟨rfl, -⟩ := List.append_inj' heq rfl
    exact .inl ⟨before, l', rest, rfl, hwhat⟩

/-! ## Triggers -/

/-- The history keeps what it has. -/
def Keeps (c c' : Cell) : Prop := ∀ t ∈ c.triggers, t ∈ c'.triggers

theorem keeps_transition (c : Cell) (e : Noted) : Keeps c (c.transition e) := by
  intro t ht
  rw [Cell.triggers, Cell.transition, List.filter_append, List.map_append]
  exact List.mem_append_left _ ht

theorem keeps_trigger (c : Cell) : Keeps c c.noteCooldownTrigger :=
  keeps_transition { c with cooldown := some ⟨c.now, none⟩
                            disk := { c.disk with cooldown := some ⟨c.now, none⟩ } } _

theorem trigger_recorded (c : Cell) : c.now ∈ c.noteCooldownTrigger.triggers := by
  simp [Cell.triggers, Cell.noteCooldownTrigger, Cell.transition]

theorem keeps_epoch (c : Cell) (epoch : Nat) :
    Keeps c (c.notePeerPublisherEpoch epoch) := by
  unfold Cell.notePeerPublisherEpoch
  dsimp only
  split_ifs
  · exact fun _ ht => ht
  · exact keeps_transition _ _
  · intro t ht
    exact keeps_transition _ _ t (keeps_trigger _ t (keeps_transition _ _ t ht))

theorem keeps_allowance (c : Cell) (s : Allowance) :
    Keeps c (c.acceptPeerAllowance s) := by
  have hepoch := keeps_epoch c s.publisherEpoch
  unfold Cell.acceptPeerAllowance Cell.takeAllowance
  split_ifs
  · exact fun _ ht => ht
  · exact hepoch
  · exact hepoch

theorem Move.keeps (h : Move ok c c') : Keeps c c' := by
  cases h with
  | aside h =>
      rw [Keeps, h.triggers]
      exact fun _ ht => ht
  | tick now => exact fun _ ht => ht
  | handshake =>
      intro t ht
      rwa [Cell.triggers, Cell.handshake, transitions_proof]
  | trigger => exact keeps_trigger c
  | epoch e => exact keeps_epoch c e
  | allowance s _ => exact keeps_allowance c s
  | lost => exact fun t ht => keeps_trigger _ t (keeps_transition _ _ t ht)
  | restarted m w =>
      intro t ht
      refine keeps_transition _ _ t (keeps_trigger _ t (keeps_transition _ _ t ?_))
      exact (aside_worked (c := c.reopen m) w).triggers.symm ▸ ht

theorem Moves.keeps (h : Moves ok c c') : Keeps c c' := by
  induction h with
  | refl => exact fun _ ht => ht
  | tail _ hm ih => exact fun t ht => hm.keeps t (ih t ht)

theorem Advance.keeps (h : Advance ok c c') : Keeps c c' := by
  cases h with
  | moves hm => exact hm.keeps
  | opened cm x a hm ho =>
      intro t ht
      cases ho with
      | created => exact keeps_transition _ _ t (hm.keeps t ht)
      | admitted => exact keeps_transition _ _ t (hm.keeps t ht)

theorem keeps_progress (c : Cell) (x : Inputs) : Keeps c (c.progress x) := by
  have hadvance : Advance (fun _ _ => True) c (c.progress x) := advance_progress c x
  exact hadvance.keeps

theorem epoch_recorded {epoch : Nat} (hknown : c.peerPublisherEpoch ≠ 0)
    (h : c.peerPublisherEpoch < epoch) :
    c.now ∈ (c.notePeerPublisherEpoch epoch).triggers := by
  rw [Cell.notePeerPublisherEpoch, if_neg (Nat.not_le.2 h), if_neg hknown]
  exact keeps_transition _ _ _
    (trigger_recorded (((c.sawEpoch epoch).advanceEpoch epoch).transition
    .other))

/-- An envelope about an epoch of the peer makes the cell note that epoch. -/
theorem message_epoch {m : Message} {epoch : Nat} (hepoch : m.peerEpoch c.cfg = some epoch)
    (x : Inputs) : Keeps (c.notePeerPublisherEpoch epoch) (c.dispatchMessage x m) := by
  unfold Message.peerEpoch at hepoch
  split at hepoch
  · next workerId e =>
    obtain ⟨hpeer, heq⟩ := Option.ite_none_right_eq_some.1 hepoch
    obtain rfl := Option.some.inj heq
    rw [Cell.dispatchMessage, Cell.acceptPeerCatalog, if_neg (not_not.2 hpeer)]
    exact fun _ ht => ht
  · next s =>
    obtain ⟨⟨hpeer, hpositive, hversion⟩, heq⟩ := Option.ite_none_right_eq_some.1 hepoch
    obtain rfl := Option.some.inj heq
    rw [Cell.dispatchMessage, Cell.acceptPeerAllowance, if_neg (by tauto)]
    unfold Cell.takeAllowance
    split <;> exact fun _ ht => ht
  · cases hepoch

theorem reseed_recorded {nonce : Nat} (h : nonce ∉ c.servedReseedNonces) :
    c.now ∈ (c.acceptReseedRequest nonce).triggers := by
  rw [Cell.acceptReseedRequest, if_neg h]
  exact trigger_recorded _

/-- The part of the handling of an envelope before its message is dispatched. -/
theorem accept_authentic {e : Envelope} (hpeer : c.authentic e = true) (x : Inputs) :
    ∃ d : Cell, c.acceptRelayEnvelope x e = d.dispatchMessage x e.message ∧ d.cfg = c.cfg ∧
      d.now = c.now ∧ d.peerPublisherEpoch = c.peerPublisherEpoch ∧
      d.servedReseedNonces = c.servedReseedNonces := by
  have hroute : e.routeId = c.cfg.routeId := (of_decide_eq_true hpeer).1
  rw [Cell.acceptRelayEnvelope, if_neg (not_not.2 hroute), if_neg (by simp [hpeer])]
  refine ⟨_, rfl, ?_⟩
  split
  · unfold Cell.handshake Cell.noteCooldownProof
    dsimp only
    split
    · exact ⟨rfl, rfl, rfl, rfl⟩
    · split <;> exact ⟨rfl, rfl, rfl, rfl⟩
  · exact ⟨rfl, rfl, rfl, rfl⟩

/-- Each of the five triggers is written to the history at its time. -/
theorem Trigger.recorded {l : Label} {f : Nat} (h : Trigger c l f) :
    f ∈ (next c l).triggers := by
  cases h with
  | sessionLost x now =>
      exact keeps_progress _ x _
        (trigger_recorded ((c.observeTime now).loseSession.transition .other))
  | sessionReconnected x now hlost =>
      refine keeps_progress _ x _ ?_
      have hsession : (c.observeTime now).peerSession = false := hlost
      simp only [Cell.dispatchEvent, Cell.peerSessionChanged, hsession]
      exact trigger_recorded
        ({ c.observeTime now with peerSession := true }.transition .other)
  | epochAdvanced x e epoch hpeer hepoch hknown hlt =>
      refine keeps_progress _ x _ ?_
      obtain ⟨d, heq, hcfg, hnow, hpeerEpoch, -⟩ := accept_authentic hpeer x
      rw [Cell.dispatchEvent, heq, ← hnow]
      rw [← hcfg] at hepoch
      rw [← hpeerEpoch] at hknown hlt
      exact message_epoch hepoch x _ (epoch_recorded hknown hlt)
  | reseedRequested x e nonce hpeer hmessage hnew =>
      refine keeps_progress _ x _ ?_
      obtain ⟨d, heq, -, hnow, -, hserved⟩ := accept_authentic hpeer x
      rw [Cell.dispatchEvent, heq, ← hnow, hmessage]
      exact reseed_recorded (by rwa [hserved])
  | recovered x m w =>
      have hnow : ((c.reopen m).worked w).now = (c.reopen m).now := (aside_worked w).now
      have hrecovered : (c.reopen m).now ∈ ((c.reopen m).recovered w).triggers := by
        rw [← hnow]
        exact keeps_transition _ _ _
          (trigger_recorded
            ({ (c.reopen m).worked w with recovering := false }.transition .other))
      show _ ∈ ((c.reopen m).recover x w).triggers
      unfold Cell.recover
      dsimp only
      split
      · exact keeps_progress _ x _ hrecovered
      · exact hrecovered

/-- Every trigger of a run is in the history at its end. -/
theorem Happens.recorded {cfg : Config} {ls : List Label} {f : Nat}
    (h : Happens cfg ls Trigger f) : f ∈ (run cfg ls).triggers := by
  induction ls using List.reverseRecOn with
  | nil =>
      obtain ⟨before, l, after, heq, -⟩ := h
      simp at heq
  | append_singleton ls l ih =>
      rw [run_concat]
      obtain hold | hlast := happens_concat h
      · exact (advance_any _ l).keeps f (ih hold)
      · exact hlast.recorded

/-! ## Handshakes -/

theorem handshakes_progress (c : Cell) (x : Inputs) :
    (c.progress x).handshakes = c.handshakes := by
  unfold Cell.progress Cell.maybeCreateAttempt
  split_ifs
  · rfl
  · split <;> rfl
  · rfl

theorem handshakes_session (c : Cell) (connected : Bool) :
    (c.peerSessionChanged connected).handshakes = c.handshakes := by
  unfold Cell.peerSessionChanged
  split_ifs <;> rfl

theorem handshakes_epoch (c : Cell) (epoch : Nat) :
    (c.notePeerPublisherEpoch epoch).handshakes = c.handshakes := by
  unfold Cell.notePeerPublisherEpoch
  dsimp only
  split_ifs <;> rfl

theorem handshakes_attempt (c : Cell) (x : Inputs) (a : Attempt) :
    (c.handleAttempt x a).handshakes = c.handshakes := by
  unfold Cell.handleAttempt
  split_ifs
  · rfl
  · rfl
  · split <;> rfl

theorem handshakes_message (c : Cell) (x : Inputs) (m : Message) :
    (c.dispatchMessage x m).handshakes = c.handshakes := by
  cases m with
  | catalogSummary workerId epoch =>
      rw [Cell.dispatchMessage, Cell.acceptPeerCatalog]
      split
      · rfl
      · exact handshakes_epoch c epoch
  | remainingAllowance s =>
      rw [Cell.dispatchMessage, Cell.acceptPeerAllowance]
      split
      · rfl
      · unfold Cell.takeAllowance
        split <;> exact handshakes_epoch c s.publisherEpoch
  | reseedRequest nonce =>
      rw [Cell.dispatchMessage, Cell.acceptReseedRequest]
      split <;> rfl
  | readiness r => rfl
  | policyAck h accepted reason => exact (aside_policyAck h accepted reason).handshakes
  | policy p empty => exact (aside_acceptLeaderPolicy p empty).handshakes
  | pairingAcceptance workerId risk =>
      exact (aside_pairingAcceptance workerId risk).handshakes
  | attempt a => exact handshakes_attempt c x a
  | other kind => rfl

/-- A handshake on record is an old one or the one the label brings. -/
theorem handshake_received {l : Label} {t : Nat} (h : t ∈ (next c l).handshakes) :
    t ∈ c.handshakes ∨ Handshake c l t := by
  cases l with
  | restart x m w =>
      have hrecovered : ((c.reopen m).recovered w).handshakes = c.handshakes :=
        (aside_worked (c := c.reopen m) w).handshakes
      change t ∈ ((c.reopen m).recover x w).handshakes at h
      unfold Cell.recover at h
      dsimp only at h
      split at h
      · rw [handshakes_progress, hrecovered] at h
        exact .inl h
      · rw [hrecovered] at h
        exact .inl h
  | event x ev =>
      change t ∈ ((c.dispatchEvent x ev).progress x).handshakes at h
      rw [handshakes_progress] at h
      cases ev with
      | envelope e =>
          change t ∈ (c.acceptRelayEnvelope x e).handshakes at h
          unfold Cell.acceptRelayEnvelope at h
          dsimp only at h
          split_ifs at h with hroute hpeer hkind
          · exact .inl h
          · exact .inl h
          · rw [handshakes_message, Cell.handshake, noteCooldownProof_handshakes] at h
            obtain rfl | h := List.mem_cons.1 h
            · exact .inr (.received x e (by simpa using hpeer) hkind)
            · exact .inl h
          · rw [handshakes_message] at h
            exact .inl h
      | peerSession now connected =>
          exact .inl (handshakes_session (c.observeTime now) connected ▸ h)
      | acceptPolicy p => exact .inl ((aside_acceptPolicy p).handshakes ▸ h)
      | freezePairingAcceptance => exact .inl (aside_freeze.handshakes ▸ h)
      | worked w => exact .inl ((aside_worked w).handshakes ▸ h)
      | _ => exact .inl h

theorem happens_handshake {cfg : Config} {ls : List Label} {t : Nat}
    (h : t ∈ (run cfg ls).handshakes) : Happens cfg ls Handshake t := by
  induction ls using List.reverseRecOn with
  | nil => simp [run, fresh] at h
  | append_singleton ls l ih =>
      rw [run_concat] at h
      obtain hold | hlast := handshake_received h
      · exact (ih hold).concat l
      · exact happens_last hlast

/-! ## Every run -/

theorem windowed_run (cfg : Config) (ls : List Label) : Windowed (run cfg ls) := by
  induction ls using List.reverseRecOn with
  | nil => exact windowed_fresh cfg
  | append_singleton ls l ih =>
      rw [run_concat]
      exact windowed_next ih l

/-- The session is lost at 10 and back at 20; the peer publishes its
allowance again at 30. -/
def Sample.reconnected : List Label :=
  ready .leader ++ [published 1 1 20, on (.peerSession 10 false),
    on (.peerSession 20 true), on (.clockTick 30), published 1 2 20,
    on (heard .leader (.readiness ⟨true, some 1, true, true⟩))]

/-- One tick earlier the leader still waits. -/
example : (run (Sample.cfg .leader) (Sample.reconnected ++ [Sample.decides 119])).attempt =
    none := by
  decide +kernel

end PairCell.Gate
