import PairCell.Gate.Frame
import PairCell.Gate.Play

/-!
# The peer's remaining allowance

The summary a leader holds is the greatest it received since the last reset.
The greatest peer epoch is kept in memory only, so a restarted leader takes a
summary of an older epoch when that is the first one it is given.
-/

namespace PairCell.Gate

open Lib

variable {c c' : Cell} {x : Inputs} {a : Attempt} {s t : Allowance}

theorem Allowance.notAfter_refl (s : Allowance) : s.notAfter s = true := by
  simp [Allowance.notAfter]

theorem Allowance.notAfter_of_not (h : s.notAfter t = false) : t.notAfter s = true := by
  simp only [Allowance.notAfter, Bool.or_eq_false_iff, Bool.and_eq_false_iff,
    decide_eq_false_iff_not, Bool.or_eq_true, Bool.and_eq_true, decide_eq_true_eq] at h ⊢
  omega

theorem Allowance.notAfter_trans {u : Allowance} (h : s.notAfter t = true)
    (h' : t.notAfter u = true) : s.notAfter u = true := by
  simp only [Allowance.notAfter, Bool.or_eq_true, Bool.and_eq_true,
    decide_eq_true_eq] at h h' ⊢
  omega

/-- The held summary is the greatest received since the last reset. -/
structure Held (c : Cell) : Prop where
  greatest : ∀ a, c.peerAllowance = some a →
    a ∈ c.received ∧ ∀ s ∈ c.received, s.notAfter a = true
  empty : c.peerAllowance = none → c.received = []
  known : ∀ a, c.peerAllowance = some a → a.publisherEpoch ≤ c.peerPublisherEpoch

/-- Every epoch ever seen is known since the last restart, or no summary is held. -/
def Known (c : Cell) : Prop :=
  (∀ e ∈ c.epochsSeen, e ≤ c.peerPublisherEpoch) ∨ c.peerAllowance = none

/--
A summary of an epoch older than one the leader has ever seen comes only after
the newest of them was seen again.
-/
def Reseeded (c : Cell) (s : Allowance) : Prop :=
  (∀ e ∈ c.epochsSeen, e ≤ c.peerPublisherEpoch) ∨ ∀ e ∈ c.epochsSeen, e ≤ s.publisherEpoch

instance (c : Cell) (s : Allowance) : Decidable (Reseeded c s) :=
  inferInstanceAs (Decidable (_ ∨ _))

theorem Held.congr (h : Held c) (ha : c'.peerAllowance = c.peerAllowance)
    (hr : c'.received = c.received) (he : c'.peerPublisherEpoch = c.peerPublisherEpoch) :
    Held c' := by
  refine ⟨?_, ?_, ?_⟩
  · rw [ha, hr]
    exact h.greatest
  · rw [ha, hr]
    exact h.empty
  · rw [ha, he]
    exact h.known

theorem Known.congr (h : Known c) (ha : c'.peerAllowance = c.peerAllowance)
    (hs : c'.epochsSeen = c.epochsSeen)
    (he : c'.peerPublisherEpoch = c.peerPublisherEpoch) :
    Known c' := by
  unfold Known
  rw [ha, hs, he]
  exact h

theorem held_none (ha : c.peerAllowance = none) (hr : c.received = []) : Held c := by
  refine ⟨?_, fun _ => hr, ?_⟩
  · intro a h
    rw [ha] at h
    cases h
  · intro a h
    rw [ha] at h
    cases h

/-- What the quiet window is told leaves the held summary alone. -/
theorem handshake_peer (c : Cell) :
    c.handshake.peerAllowance = c.peerAllowance ∧ c.handshake.received = c.received ∧
      c.handshake.peerPublisherEpoch = c.peerPublisherEpoch ∧
      c.handshake.epochsSeen = c.epochsSeen := by
  unfold Cell.handshake Cell.noteCooldownProof
  split
  · exact ⟨rfl, rfl, rfl, rfl⟩
  · dsimp only
    split <;> exact ⟨rfl, rfl, rfl, rfl⟩

/-! ## Epochs -/

/-- What the cell knows of the peer's session after a message of the epoch. -/
theorem epoch_spec (h : Held c) (epoch : Nat) :
    (c.notePeerPublisherEpoch epoch).peerPublisherEpoch = max epoch c.peerPublisherEpoch ∧
    (c.notePeerPublisherEpoch epoch).epochsSeen = epoch :: c.epochsSeen ∧
    (epoch ≤ c.peerPublisherEpoch →
      (c.notePeerPublisherEpoch epoch).peerAllowance = c.peerAllowance ∧
      (c.notePeerPublisherEpoch epoch).received = c.received) ∧
    (c.peerPublisherEpoch < epoch →
      (c.notePeerPublisherEpoch epoch).peerAllowance = none ∧
      (c.notePeerPublisherEpoch epoch).received = []) := by
  have hdrop : c.peerPublisherEpoch < epoch →
      c.peerAllowance.filter (fun a => !decide (a.publisherEpoch < epoch)) = none := by
    intro hlt
    rw [Option.filter_eq_none_iff]
    intro a ha
    have hle := h.known a ha
    simp only [Bool.not_eq_true', decide_eq_false_iff_not, not_lt, not_le]
    omega
  unfold Cell.notePeerPublisherEpoch
  dsimp only
  split_ifs with hle hzero
  · exact ⟨(max_eq_right hle).symm, rfl, fun _ => ⟨rfl, rfl⟩,
      fun hlt => absurd hle (by omega)⟩
  · have hlt : c.peerPublisherEpoch < epoch := by omega
    exact ⟨(max_eq_left hlt.le).symm, rfl, fun h => absurd h hle,
      fun _ => ⟨hdrop hlt, rfl⟩⟩
  · have hlt : c.peerPublisherEpoch < epoch := by omega
    exact ⟨(max_eq_left hlt.le).symm, rfl, fun h => absurd h hle,
      fun _ => ⟨hdrop hlt, rfl⟩⟩

theorem Held.epoch (h : Held c) (epoch : Nat) : Held (c.notePeerPublisherEpoch epoch) := by
  obtain ⟨hpub, -, hold, hnew⟩ := epoch_spec h epoch
  rcases le_or_gt epoch c.peerPublisherEpoch with hle | hlt
  · obtain ⟨ha, hr⟩ := hold hle
    exact h.congr ha hr (hpub.trans (max_eq_right hle))
  · obtain ⟨ha, hr⟩ := hnew hlt
    exact held_none ha hr

theorem Known.epoch (hk : Known c) (h : Held c) (epoch : Nat) :
    Known (c.notePeerPublisherEpoch epoch) := by
  obtain ⟨hpub, hseen, hold, hnew⟩ := epoch_spec h epoch
  unfold Known
  rw [hpub, hseen]
  rcases le_or_gt epoch c.peerPublisherEpoch with hle | hlt
  · rcases hk with hall | hnone
    · left
      simp only [List.mem_cons, forall_eq_or_imp]
      exact ⟨le_max_left _ _, fun e he => (hall e he).trans (le_max_right _ _)⟩
    · exact .inr ((hold hle).1.trans hnone)
  · exact .inr (hnew hlt).1

/-- After a summary that came in order, every epoch ever seen is known. -/
theorem reseeded_epoch (h : Held c) (hs : Reseeded c s) :
    ∀ e ∈ (c.notePeerPublisherEpoch s.publisherEpoch).epochsSeen,
      e ≤ (c.notePeerPublisherEpoch s.publisherEpoch).peerPublisherEpoch := by
  obtain ⟨hpub, hseen, -⟩ := epoch_spec h s.publisherEpoch
  rw [hpub, hseen]
  simp only [List.mem_cons, forall_eq_or_imp]
  refine ⟨le_max_left _ _, fun e he => ?_⟩
  rcases hs with hall | hall
  · exact (hall e he).trans (le_max_right _ _)
  · exact (hall e he).trans (le_max_left _ _)

/-! ## Summaries -/

/-- An ignored summary is not after the held one. -/
theorem Held.ignore (h : Held c)
    (hany : c.peerAllowance.any (fun held => s.notAfter held) = true) :
    Held (c.hear s) := by
  obtain ⟨held, hheld, hle⟩ := (Option.any_eq_true ..).1 hany
  refine ⟨?_, ?_, h.known⟩
  · intro a ha
    obtain rfl : held = a := Option.some.inj (hheld.symm.trans ha)
    obtain ⟨hmem, hmax⟩ := h.greatest held hheld
    refine ⟨List.mem_cons_of_mem _ hmem, ?_⟩
    simp only [Cell.hear, List.mem_cons, forall_eq_or_imp]
    exact ⟨hle, hmax⟩
  · intro hnone
    rw [show (c.hear s).peerAllowance = some held from hheld] at hnone
    cases hnone

theorem Held.take (h : Held c)
    (hany : c.peerAllowance.any (fun held => s.notAfter held) = false)
    (hpub : s.publisherEpoch ≤ c.peerPublisherEpoch) :
    Held { c.hear s with peerAllowance := some s } := by
  refine ⟨?_, (nomatch ·), ?_⟩
  · intro a ha
    obtain rfl : s = a := Option.some.inj ha
    refine ⟨List.mem_cons_self .., ?_⟩
    simp only [Cell.hear, List.mem_cons, forall_eq_or_imp]
    refine ⟨s.notAfter_refl, fun t ht => ?_⟩
    cases hheld : c.peerAllowance with
    | none =>
        rw [h.empty hheld] at ht
        cases ht
    | some held =>
        have hnot : s.notAfter held = false := by simpa [hheld] using hany
        exact Allowance.notAfter_trans ((h.greatest held hheld).2 t ht)
          (Allowance.notAfter_of_not hnot)
  · intro a ha
    obtain rfl : s = a := Option.some.inj ha
    exact hpub

theorem Held.allowance (h : Held c) (s : Allowance) : Held (c.acceptPeerAllowance s) := by
  have hepoch := h.epoch s.publisherEpoch
  have hpub : s.publisherEpoch ≤
      (c.notePeerPublisherEpoch s.publisherEpoch).peerPublisherEpoch := by
    rw [(epoch_spec h s.publisherEpoch).1]
    exact le_max_left _ _
  unfold Cell.acceptPeerAllowance Cell.takeAllowance
  split_ifs with _ hany
  · exact h
  · exact hepoch.ignore hany
  · exact hepoch.take (by simpa using hany) hpub

theorem Known.allowance (hk : Known c) (h : Held c) (hs : Reseeded c s) :
    Known (c.acceptPeerAllowance s) := by
  have hall := reseeded_epoch h hs
  unfold Cell.acceptPeerAllowance Cell.takeAllowance
  split_ifs
  · exact hk
  · exact .inl hall
  · exact .inl hall

/-! ## Runs -/

theorem Held.move {ok : Cell → Allowance → Prop} (h : Held c)
    (hm : Move ok c c') : Held c' := by
  cases hm with
  | aside ha => exact h.congr ha.peerAllowance ha.received ha.peerPublisherEpoch
  | tick now => exact h.congr rfl rfl rfl
  | handshake =>
      obtain ⟨ha, hr, he, -⟩ := handshake_peer c
      exact h.congr ha hr he
  | trigger => exact h.congr rfl rfl rfl
  | epoch e => exact h.epoch e
  | allowance s _ => exact h.allowance s
  | lost => exact held_none rfl rfl
  | restarted m w =>
      have ha := aside_worked (c := c.reopen m) w
      exact held_none ha.peerAllowance ha.received

theorem Known.move (hk : Known c) (h : Held c) (hm : Move Reseeded c c') : Known c' := by
  cases hm with
  | aside ha => exact hk.congr ha.peerAllowance ha.epochsSeen ha.peerPublisherEpoch
  | tick now => exact hk.congr rfl rfl rfl
  | handshake =>
      obtain ⟨ha, -, he, hs⟩ := handshake_peer c
      exact hk.congr ha hs he
  | trigger => exact hk.congr rfl rfl rfl
  | epoch e => exact hk.epoch h e
  | allowance s hs => exact hk.allowance h hs
  | lost => exact .inr rfl
  | restarted m w => exact .inr (aside_worked (c := c.reopen m) w).peerAllowance

theorem held_known_moves (h : Held c ∧ Known c) (hm : Moves Reseeded c c') :
    Held c' ∧ Known c' := by
  induction hm with
  | refl => exact h
  | tail _ hstep ih => exact ⟨ih.1.move hstep, ih.2.move ih.1 hstep⟩

theorem openAttempt_keeps (h : Held c) (hk : Known c) (a : Attempt) (e : Noted) :
    Held (c.openAttempt a e) ∧ Known (c.openAttempt a e) :=
  ⟨h.congr rfl rfl rfl, hk.congr rfl rfl rfl⟩

/-- Every summary delivered by the label comes in order. -/
def InOrder : Cell → Label → Prop := Delivers Reseeded

instance (c : Cell) (l : Label) : Decidable (InOrder c l) :=
  inferInstanceAs (Decidable (Delivers Reseeded c l))

theorem held_known_step {l : Label} (h : Held c ∧ Known c) (hok : InOrder c l)
    (hstep : Step c l c') : Held c' ∧ Known c' := by
  obtain rfl := hstep
  cases advance_next c l hok with
  | moves hm => exact held_known_moves h hm
  | opened cm x a hm ho =>
      obtain ⟨hheld, hknown⟩ := held_known_moves h hm
      generalize next c l = c' at ho
      cases ho with
      | created => exact openAttempt_keeps hheld hknown ..
      | admitted => exact openAttempt_keeps hheld hknown ..

theorem held_fresh (cfg : Config) : Held (fresh cfg) ∧ Known (fresh cfg) :=
  ⟨held_none rfl rfl, .inr rfl⟩

/-- What the leader assigns to the two legs, against what each side may lose. -/
structure Assigned (c : Cell) (a : Attempt) (held : Allowance)
    (policy : Policy) : Prop where
  holds : c.peerAllowance = some held
  accepted : c.policy = some policy
  follower : ∃ usd, a.followerAllowedLossUsd = some usd ∧ usd ≤ held.allowedLegLossUsd ∧
    usd ≤ policy.followerRisk.legLossCapUsd
  leader : ∃ usd, a.leaderAllowedLossUsd = some usd ∧ usd ≤ c.allowedLegLossUsd ∧
    usd ≤ c.remainingDailyLossAllowanceUsd

theorem allowedLegLoss_le (h : 0 < c.allowedLegLossUsd) :
    c.allowedLegLossUsd ≤ c.remainingDailyLossAllowanceUsd := by
  unfold Cell.allowedLegLossUsd at h ⊢
  split
  · exact min_le_right _ _
  · next hnone =>
    split at h
    · next hsome hdrift => exact absurd hdrift (hnone _ hsome)
    · exact absurd h (lt_irrefl 0)

theorem decideAttempt_assigned (h : c.decideAttempt x = some a) :
    ∃ held policy, Assigned c a held policy ∧
      c.peerPublisherEpoch ≤ held.publisherEpoch := by
  simp only [Cell.decideAttempt, Option.bind_eq_bind, Option.bind_eq_some_iff,
    Option.ite_none_left_eq_some, not_or, not_not, not_lt, not_le] at h
  obtain ⟨policy, hpolicy, u, -, -, -, -, held, hheld, hepoch, k, -, sized, -,
      hpos, lr, -, fr, -,
    ha⟩ := h
  obtain rfl := Option.some.inj ha
  refine ⟨held, policy, ⟨hheld, hpolicy, ?_, ?_⟩, hepoch⟩
  · exact ⟨_, rfl, min_le_left _ _, min_le_right _ _⟩
  · exact ⟨_, rfl, le_rfl, allowedLegLoss_le hpos.1⟩

/--
In every run in which summaries come in order, the leader holds the greatest
summary since the last reset, a lost session and a rebuilt peer leave it with
none, and an attempt is created only on a summary of the newest epoch ever seen
and within what both sides may lose.
-/
theorem loss_assignment_current (cfg : Config) (c c' : Cell) (l : Label)
    (hreach : Reach Step InOrder (fresh cfg) c) (hok : InOrder c l) (hstep : Step c l c') :
    (∀ held, c.peerAllowance = some held →
      held ∈ c.received ∧ ∀ s ∈ c.received, s.notAfter held = true) ∧
    (∀ x now, (next c (.event x (.peerSession now false))).peerAllowance = none) ∧
    (∀ epoch, c.peerPublisherEpoch < epoch →
      (c.notePeerPublisherEpoch epoch).peerAllowance = none) ∧
    (c'.entries ≠ c.entries → c'.cfg.role = .leader →
      ∃ a held policy, c'.attempt = some a ∧ Assigned c' a held policy ∧
        held ∈ c'.received ∧
        (∀ s ∈ c'.received, s.notAfter held = true) ∧
        ∀ e ∈ c'.epochsSeen, e ≤ held.publisherEpoch) := by
  have hinv : Held c ∧ Known c :=
    hreach.invariant (held_fresh cfg) fun _ _ _ h hok hstep => held_known_step h hok hstep
  refine ⟨hinv.1.greatest, ?_, ?_, ?_⟩
  · intro x now
    exact (progress_gate ((c.observeTime now).peerSessionChanged false) x).1
  · intro epoch hlt
    exact ((epoch_spec hinv.1 epoch).2.2.2 hlt).1
  intro hentry hrole
  have hadv : Advance Reseeded c c' := by
    rw [hstep]
    exact advance_next c l hok
  cases hadv with
  | moves hm => exact absurd hm.entries hentry
  | opened cm x a hm ho =>
      obtain ⟨hheld, hknown⟩ := held_known_moves hinv hm
      cases ho with
      | admitted hfollower =>
          rw [show cm.cfg.role = .leader from hrole] at hfollower
          cases hfollower
      | created _ hd =>
          obtain ⟨held, policy, hassigned, hepoch⟩ := decideAttempt_assigned hd
          obtain ⟨hmem, hmax⟩ := hheld.greatest held hassigned.holds
          refine ⟨a, held, policy, rfl,
            ⟨hassigned.holds, hassigned.accepted, hassigned.follower, hassigned.leader⟩,
            hmem, hmax, ?_⟩
          rcases hknown with hall | hnone
          · exact fun e he => (hall e he).trans hepoch
          · rw [hassigned.holds] at hnone
            cases hnone

theorem loss_assignment_sample :
    ∃ c c', Reach Step InOrder (fresh (Sample.cfg .leader)) c ∧
      Step c (Sample.decides 5) c' ∧
      c'.entries ≠ c.entries ∧
      ∃ a held policy, c'.attempt = some a ∧ Assigned c' a held policy ∧
        held ∈ c'.received ∧
        (∀ s ∈ c'.received, s.notAfter held = true) ∧
        ∀ e ∈ c'.epochsSeen, e ≤ held.publisherEpoch := by
  have hrun : Along next InOrder (fresh (Sample.cfg .leader))
      (Sample.ready .leader ++ [Sample.published 1 1 20]) := by decide +kernel
  refine ⟨_, _, hrun.reach, rfl, by decide +kernel, ?_⟩
  exact (loss_assignment_current _ _ _ _ hrun.reach (by decide +kernel) rfl).2.2.2
    (by decide +kernel) (by decide +kernel)

/-- The leader sees epoch 2, restarts, and is given a summary of epoch 1. -/
def Sample.restartedOnStale : List Label :=
  ready .leader ++ [published 2 1 5, .restart {} market ⟨.idle, false, none⟩,
    on (.readinessFacts 10 facts), published 1 1 20,
    on (heard .leader (.readiness ⟨true, some 1, true, true⟩))]

theorem restarted_leader_takes_stale_allowance :
    ∃ c c' held e, Reach Step (fun _ _ => True) (fresh (Sample.cfg .leader)) c ∧
      Step c (Sample.decides 200) c' ∧ c'.entries ≠ c.entries ∧
      c'.peerAllowance = some held ∧
      e ∈ c'.epochsSeen ∧ held.publisherEpoch < e := by
  refine ⟨Sample.play .leader Sample.restartedOnStale,
    next (Sample.play .leader Sample.restartedOnStale) (Sample.decides 200),
    ⟨2, 1, 1, 20⟩, 2, Sample.reach_play .leader _, rfl, ?_⟩
  decide +kernel

end PairCell.Gate
