import Mathlib.Logic.Relation
import PairCell.Gate.Steps

/-!
# What a step of the gate does

Most events leave the peer's session data and the quiet window alone.  The rest
is a handful of moves, and an attempt is opened at the end of a step or not at
all.
-/

namespace PairCell.Gate

open Lib

variable {c c' c'' : Cell} {x : Inputs}

/-! ## Events that leave the gate alone -/

/-- The same gate, with transitions of other kinds written. -/
structure Aside (c c' : Cell) : Prop where
  cfg : c'.cfg = c.cfg
  now : c'.now = c.now
  cooldown : c'.cooldown = c.cooldown
  handshakes : c'.handshakes = c.handshakes
  peerAllowance : c'.peerAllowance = c.peerAllowance
  peerPublisherEpoch : c'.peerPublisherEpoch = c.peerPublisherEpoch
  received : c'.received = c.received
  epochsSeen : c'.epochsSeen = c.epochsSeen
  history : ∃ n, c'.disk.transitions = c.disk.transitions ++
      List.replicate n ⟨.other, c.now⟩

theorem Aside.refl (c : Cell) : Aside c c :=
  ⟨rfl, rfl, rfl, rfl, rfl, rfl, rfl, rfl, 0, by simp⟩

theorem aside_transition (c : Cell) : Aside c (c.transition .other) :=
  ⟨rfl, rfl, rfl, rfl, rfl, rfl, rfl, rfl, 1, rfl⟩

theorem aside_readiness (r : Readiness) : Aside c (c.acceptPeerReadiness r) :=
  ⟨rfl, rfl, rfl, rfl, rfl, rfl, rfl, rfl, 0, by simp [Cell.acceptPeerReadiness]⟩

theorem aside_policyAck (policyHash : Nat) (accepted : Bool) (reason : String) :
    Aside c (c.acceptPolicyAck policyHash accepted reason) := by
  unfold Cell.acceptPolicyAck
  dsimp only
  split_ifs <;> exact ⟨rfl, rfl, rfl, rfl, rfl, rfl, rfl, rfl, 0, by simp⟩

theorem aside_persistPolicy (p : Policy) : Aside c (c.persistPolicy p) :=
  ⟨rfl, rfl, rfl, rfl, rfl, rfl, rfl, rfl, 1, rfl⟩

theorem aside_acceptPolicy (p : Policy) : Aside c (c.acceptPolicy p) := by
  unfold Cell.acceptPolicy
  dsimp only
  split_ifs
  · exact .refl c
  · exact .refl c
  · exact aside_persistPolicy p

theorem aside_acceptLeaderPolicy (p : Policy) (empty : Bool) :
    Aside c (c.acceptLeaderPolicy p empty) := by
  unfold Cell.acceptLeaderPolicy
  dsimp only
  split_ifs
  · exact .refl c
  · exact .refl c
  · exact aside_persistPolicy p

theorem aside_pairingAcceptance (workerId : Nat) (risk : Limits) :
    Aside c (c.acceptPairingAcceptance workerId risk) := by
  unfold Cell.acceptPairingAcceptance
  split_ifs
  · exact .refl c
  · exact aside_transition c
  · exact ⟨rfl, rfl, rfl, rfl, rfl, rfl, rfl, rfl, 1, rfl⟩

theorem aside_freeze : Aside c c.freezePairingAcceptance := by
  unfold Cell.freezePairingAcceptance
  split_ifs
  · exact .refl c
  · exact ⟨rfl, rfl, rfl, rfl, rfl, rfl, rfl, rfl, 1, rfl⟩

theorem aside_worked (w : Work) : Aside c (c.worked w) := by
  unfold Cell.worked
  dsimp only
  split
  · exact ⟨rfl, rfl, rfl, rfl, rfl, rfl, rfl, rfl, 1, rfl⟩
  · exact ⟨rfl, rfl, rfl, rfl, rfl, rfl, rfl, rfl, 0, by simp⟩

/-! ## Moves -/

/-- `ok` says which allowance summaries arrive. -/
inductive Move (ok : Cell → Allowance → Prop) : Cell → Cell → Prop where
  | aside {c c' : Cell} (h : Aside c c') : Move ok c c'
  | tick (c : Cell) (now : Nat) : Move ok c (c.observeTime now)
  | handshake (c : Cell) : Move ok c c.handshake
  | trigger (c : Cell) : Move ok c c.noteCooldownTrigger
  | epoch (c : Cell) (epoch : Nat) : Move ok c (c.notePeerPublisherEpoch epoch)
  | allowance (c : Cell) (s : Allowance) (h : ok c s) : Move ok c (c.acceptPeerAllowance s)
  | lost (c : Cell) : Move ok c (c.peerSessionChanged false)
  | restarted (c : Cell) (m : Market) (w : Work) : Move ok c ((c.reopen m).recovered w)

abbrev Moves (ok : Cell → Allowance → Prop) : Cell → Cell → Prop :=
  Relation.ReflTransGen (Move ok)

variable {ok : Cell → Allowance → Prop}

theorem Move.moves (h : Move ok c c') : Moves ok c c' := .single h

theorem Aside.moves (h : Aside c c') : Moves ok c c' := .single (.aside h)

/-- The transitions that record an opened attempt. -/
def Noted.isEntry : Noted → Bool
  | .attemptCreated _ | .attemptAdmitted _ => true
  | _ => false

def Cell.entries (c : Cell) : List Transition := c.disk.transitions.filter fun t =>
  t.event.isEntry

/-- The instants at which the quiet window was started over. -/
def Cell.triggers (c : Cell) : List Nat :=
  (c.disk.transitions.filter fun t => decide (t.event = .cooldownStarted)).map
    Transition.at_

theorem entries_transition (c : Cell) {e : Noted} (h : e.isEntry = false) :
    (c.transition e).entries = c.entries := by
  simp [Cell.entries, Cell.transition, List.filter_append, h]

theorem triggers_transition (c : Cell) {e : Noted} (h : e ≠ .cooldownStarted) :
    (c.transition e).triggers = c.triggers := by
  simp [Cell.triggers, Cell.transition, List.filter_append, h]

theorem Aside.entries (h : Aside c c') : c'.entries = c.entries := by
  obtain ⟨n, hn⟩ := h.history
  simp [Cell.entries, hn, List.filter_append, Noted.isEntry]

theorem Aside.triggers (h : Aside c c') : c'.triggers = c.triggers := by
  obtain ⟨n, hn⟩ := h.history
  simp [Cell.triggers, hn, List.filter_append]

theorem entries_trigger (c : Cell) : c.noteCooldownTrigger.entries = c.entries :=
  entries_transition { c with cooldown := some ⟨c.now, none⟩
                              disk := { c.disk with cooldown := some ⟨c.now, none⟩ } } rfl

theorem transitions_proof (c : Cell) :
    c.noteCooldownProof.disk.transitions = c.disk.transitions := by
  unfold Cell.noteCooldownProof
  split
  · rfl
  · dsimp only
    split <;> rfl

theorem entries_epoch (c : Cell) (epoch : Nat) :
    (c.notePeerPublisherEpoch epoch).entries = c.entries := by
  unfold Cell.notePeerPublisherEpoch
  dsimp only
  split_ifs
  · rfl
  · exact entries_transition _ rfl
  · refine (entries_transition _ rfl).trans ((entries_trigger _).trans ?_)
    exact entries_transition _ rfl

theorem entries_allowance (c : Cell) (s : Allowance) :
    (c.acceptPeerAllowance s).entries = c.entries := by
  have hepoch := entries_epoch c s.publisherEpoch
  unfold Cell.acceptPeerAllowance Cell.takeAllowance
  split_ifs
  · rfl
  · exact hepoch
  · exact hepoch

theorem Move.entries (h : Move ok c c') : c'.entries = c.entries := by
  cases h with
  | aside h => exact h.entries
  | tick now => rfl
  | handshake =>
      exact congrArg (List.filter fun t => t.event.isEntry) (transitions_proof _)
  | trigger => exact entries_trigger c
  | epoch e => exact entries_epoch c e
  | allowance s _ => exact entries_allowance c s
  | lost => exact (entries_trigger _).trans (entries_transition _ rfl)
  | restarted m w =>
      refine (entries_transition _ rfl).trans ((entries_trigger _).trans ?_)
      refine (entries_transition _ rfl).trans ?_
      exact (aside_worked w).entries

theorem Moves.entries (h : Moves ok c c') : c'.entries = c.entries := by
  induction h with
  | refl => rfl
  | tail _ hm ih => exact hm.entries.trans ih

/-! ## Steps -/

/-- An attempt is opened, by the leader's decision or by the follower's admission. -/
inductive Opened (c : Cell) (x : Inputs) (a : Attempt) : Cell → Prop where
  | created (hrole : c.cfg.role = .leader) (h : c.decideAttempt x = some a) :
      Opened c x a (c.openAttempt a (.attemptCreated a.attemptId))
  | admitted (hrole : c.cfg.role = .follower) (h : c.attemptAdmissionReason x a = none) :
      Opened c x a (c.openAttempt a (.attemptAdmitted a.attemptId))

/-- The cell moves, and opens an attempt at the end of the step or not at all. -/
inductive Advance (ok : Cell → Allowance → Prop) (c : Cell) (c' : Cell) : Prop where
  | moves (h : Moves ok c c')
  | opened (cm : Cell) (x : Inputs) (a : Attempt) (h : Moves ok c cm)
      (ho : Opened cm x a c')

theorem Advance.after (h : Moves ok c c') (h' : Advance ok c' c'') : Advance ok c c'' := by
  cases h' with
  | moves h' => exact .moves (h.trans h')
  | opened cm x a h' ho => exact .opened cm x a (h.trans h') ho

theorem advance_progress (c : Cell) (x : Inputs) : Advance ok c (c.progress x) := by
  unfold Cell.progress
  split_ifs with hstop hgate
  · exact .moves (Aside.moves ⟨rfl, rfl, rfl, rfl, rfl, rfl, rfl, rfl, 0, by simp⟩)
  · unfold Cell.maybeCreateAttempt
    cases hd : c.decideAttempt x with
    | none => exact .moves .refl
    | some a => exact .opened c x a .refl (.created hgate.1 hd)
  · exact .moves .refl

theorem progress_gate (c : Cell) (x : Inputs) :
    (c.progress x).peerAllowance = c.peerAllowance ∧
    (c.progress x).cooldown = c.cooldown := by
  unfold Cell.progress Cell.maybeCreateAttempt
  split_ifs
  · exact ⟨rfl, rfl⟩
  · split <;> exact ⟨rfl, rfl⟩
  · exact ⟨rfl, rfl⟩

theorem moves_session (c : Cell) (connected : Bool) :
    Moves ok c (c.peerSessionChanged connected) := by
  cases connected with
  | false => exact (Move.lost c).moves
  | true =>
      unfold Cell.peerSessionChanged
      split_ifs
      · contradiction
      · exact .refl
      · refine .tail (Aside.moves ?_) (.trigger _)
        exact ⟨rfl, rfl, rfl, rfl, rfl, rfl, rfl, rfl, 1, rfl⟩

theorem moves_reseed (c : Cell) (nonce : Nat) :
    Moves ok c (c.acceptReseedRequest nonce) := by
  unfold Cell.acceptReseedRequest
  dsimp only
  split_ifs
  · exact .refl
  · refine .tail (Aside.moves ?_) (.trigger _)
    exact ⟨rfl, rfl, rfl, rfl, rfl, rfl, rfl, rfl, 1, rfl⟩

theorem moves_catalog (c : Cell) (workerId epoch : Nat) :
    Moves ok c (c.acceptPeerCatalog workerId epoch) := by
  unfold Cell.acceptPeerCatalog
  split_ifs
  · exact .refl
  · exact (Move.epoch c epoch).moves

/-- A follower that has just admitted an attempt creates none. -/
theorem progress_admitted {a : Attempt} (h : c.attemptAdmissionReason x a = none)
    (y : Inputs) :
    (c.openAttempt a (.attemptAdmitted a.attemptId)).progress y =
      c.openAttempt a (.attemptAdmitted a.attemptId) := by
  simp only [Cell.attemptAdmissionReason, firstRefusal_eq_none, List.mem_cons,
    List.not_mem_nil, or_false, forall_eq_or_imp, forall_eq, Option.map_eq_none_iff] at h
  obtain ⟨-, -, -, -, -, -, -, hready, -⟩ := h
  simp only [Cell.localReady, firstRefusal_eq_none, List.mem_cons, forall_eq_or_imp,
    refuseIf_eq_none] at hready
  have hstop :
      (c.openAttempt a (.attemptAdmitted a.attemptId)).needsHuman.isSome = false :=
    hready.1
  have hfollows : (c.openAttempt a (.attemptAdmitted a.attemptId)).attempt = some a := rfl
  simp [Cell.progress, hstop, hfollows]

theorem advance_attempt (c : Cell) (x : Inputs) (a : Attempt) :
    Advance ok c ((c.handleAttempt x a).progress x) := by
  have quiet (c' : Cell) (h : Aside c c') : Advance ok c (c'.progress x) :=
    .after h.moves (advance_progress c' x)
  unfold Cell.handleAttempt
  split_ifs with hrole
  · exact quiet _ (.refl c)
  · exact quiet _ (aside_transition c)
  · split
    · refine quiet _ ?_
      exact ⟨rfl, rfl, rfl, rfl, rfl, rfl, rfl, rfl, 1, rfl⟩
    · next hadmit =>
      have hfollower : c.cfg.role = .follower := not_not.1 hrole
      rw [progress_admitted hadmit]
      exact .opened c x a .refl (.admitted hfollower hadmit)

theorem advance_message (c : Cell) (x : Inputs) (m : Message)
    (hok : ∀ s, m = .remainingAllowance s → ok c s) :
    Advance ok c ((c.dispatchMessage x m).progress x) := by
  have quiet {c' : Cell} (h : Moves ok c c') : Advance ok c (c'.progress x) :=
    .after h (advance_progress c' x)
  cases m with
  | catalogSummary workerId epoch => exact quiet (moves_catalog c workerId epoch)
  | remainingAllowance s => exact quiet (Move.allowance c s (hok s rfl)).moves
  | reseedRequest nonce => exact quiet (moves_reseed c nonce)
  | readiness r => exact quiet (aside_readiness r).moves
  | policyAck h accepted reason => exact quiet (aside_policyAck h accepted reason).moves
  | policy p empty => exact quiet (aside_acceptLeaderPolicy p empty).moves
  | pairingAcceptance workerId risk =>
      exact quiet (aside_pairingAcceptance workerId risk).moves
  | attempt a => exact advance_attempt c x a
  | other kind => exact quiet .refl

theorem advance_envelope (c : Cell) (x : Inputs) (e : Envelope)
    (hok : ∀ s, c.authentic e = true → e.message = .remainingAllowance s →
      ok c.handshake s) :
    Advance ok c ((c.acceptRelayEnvelope x e).progress x) := by
  unfold Cell.acceptRelayEnvelope
  dsimp only
  split_ifs with _ hauth hproof
  · exact .after (aside_transition c).moves (advance_progress _ x)
  · exact advance_progress c x
  · refine .after (Move.handshake c).moves (advance_message _ x e.message ?_)
    exact fun s hs => hok s (by simpa using hauth) hs
  · refine advance_message c x e.message ?_
    intro s hs
    -- a summary is a handshake
    exact absurd (by simp [hs, Message.kind, cooldownProofRelayKinds]) hproof

/-- The summary an authentic envelope brings. -/
def Cell.delivered (c : Cell) : Label → Option Allowance
  | .event _ (.envelope e) =>
      match c.authentic e, e.message with
      | true, .remainingAllowance s => some s
      | _, _ => none
  | _ => none

/-- Every summary that the label delivers to the cell meets `ok`. -/
def Delivers (ok : Cell → Allowance → Prop) (c : Cell) (l : Label) : Prop :=
  ∀ s ∈ c.delivered l, ok c.handshake s

instance [∀ c s, Decidable (ok c s)] (c : Cell) (l : Label) :
    Decidable (Delivers ok c l) :=
  inferInstanceAs (Decidable (∀ s ∈ c.delivered l, ok c.handshake s))

theorem advance_event (c : Cell) (x : Inputs) (ev : Event)
    (hok : Delivers ok c (.event x ev)) :
    Advance ok c (c.handleEvent x ev) := by
  have quiet {c' : Cell} (h : Moves ok c c') : Advance ok c (c'.progress x) :=
    .after h (advance_progress c' x)
  have ticked (now : Nat) : Moves ok c (c.observeTime now) := (Move.tick c now).moves
  cases ev with
  | clockTick now => exact quiet (ticked now)
  | readinessFacts now facts =>
      refine quiet (.tail (ticked now) (.aside ?_))
      exact ⟨rfl, rfl, rfl, rfl, rfl, rfl, rfl, rfl, 0, (List.append_nil _).symm⟩
  | peerSession now connected =>
      exact quiet ((ticked now).trans (moves_session _ connected))
  | realizedPnl now day amount =>
      refine quiet (.tail (ticked now) (.aside ?_))
      exact ⟨rfl, rfl, rfl, rfl, rfl, rfl, rfl, rfl, 1, rfl⟩
  | routeMetadata now unpairing disagreement =>
      refine quiet (.tail (ticked now) (.aside ?_))
      exact ⟨rfl, rfl, rfl, rfl, rfl, rfl, rfl, rfl, 0, (List.append_nil _).symm⟩
  | market m =>
      exact quiet (Aside.moves ⟨rfl, rfl, rfl, rfl, rfl, rfl, rfl, rfl, 0,
        (List.append_nil _).symm⟩)
  | quarantine products symbols =>
      exact quiet (Aside.moves ⟨rfl, rfl, rfl, rfl, rfl, rfl, rfl, rfl, 0,
        (List.append_nil _).symm⟩)
  | acceptPolicy p => exact quiet (aside_acceptPolicy p).moves
  | freezePairingAcceptance => exact quiet aside_freeze.moves
  | worked w => exact quiet (aside_worked w).moves
  | noted => exact quiet (aside_transition c).moves
  | envelope e =>
      refine advance_envelope c x e fun s hauth hs => hok s ?_
      simp [Cell.delivered, hauth, hs]

theorem advance_next (c : Cell) (l : Label) (hok : Delivers ok c l) :
    Advance ok c (next c l) := by
  cases l with
  | event x ev => exact advance_event c x ev hok
  | restart x m w =>
      have hmove : Moves ok c ((c.reopen m).recovered w) := (Move.restarted c m w).moves
      show Advance ok c ((c.reopen m).recover x w)
      unfold Cell.recover
      dsimp only
      split_ifs
      · exact .after hmove (advance_progress _ x)
      · exact .moves hmove

end PairCell.Gate
