import PairCell.Ends.Latched

/-!
# A shadow cell that shows a target

A read that finds a target answers its write with another read.  So a call that
reads once without a stop reads as deep as the stack is, and a call that lifts
the stop of a shown target before it reads does the same.
-/

namespace PairCell

open Lib World

variable {w w₀ : World} {s : Snapshot} {a : Attempt} {verified : Bool}

def Spins (m : M Unit) (w : World) : Prop :=
  wp freely m (fun r _ => r = .error .recursion) w

theorem spins_bind {m : M Unit} {f : Unit → M Unit} (h : Spins m w) :
    Spins (m >>= f) w := by
  unfold Spins
  rw [wp_bind]
  refine wp_mono h fun r w' hr => ?_
  rw [hr, next_error]

/-- A shadow policy answers a containment write with the next read. -/
theorem journaledEmergencyWrite_spins {r : M Unit} {e : EffectId} {p : Payload}
    (h : Spins r w) (hshadow : w.shadow = true) :
    Spins (journaledEmergencyWrite r e p) w := by
  unfold Spins
  rw [journaledEmergencyWrite, wp_bind, wp_get, next_ok, if_pos hshadow]
  exact h

/-- With reads for a stack of `n` and no stop that keeps the target from being written. -/
structure Endless (a : Attempt) (s : Snapshot) (verified : Bool) (n : Nat)
    (w : World) : Prop
    extends Pressed a s verified w where
  enough : n ≤ w.script.reads.length
  stop : w.mem.needsHuman = none ∨ ∃ o ∈ s.orders, o.symbol = a.symbol

theorem Endless.read {n : Nat} (h : Endless a s verified (n + 1) w) :
    w.script.reads.headD none = some s ∧
      Endless a s verified n (w.act (.brokerRead (some s))) := by
  have henough := h.enough
  cases hreads : w.script.reads with
  | nil => simp [hreads] at henough
  | cons r rest =>
      refine ⟨h.simulates.reads r (by simp [hreads]),
        h.toPressed.passing (.inr ⟨_, rfl⟩), ?_, h.stop⟩
      rw [act_reads, List.length_tail]
      omega

theorem advanceConvergence_spins {r : M Unit} {n : Nat}
    (hr : ∀ w, Endless a s verified n w → Spins r w)
    (h : Facing a s (fun _ => seenLeg a s verified) w₀ w) (hbusy : w₀.mem.attempt = some a)
    (hdesired : w₀.mem.desired = .empty) (henough : n ≤ w₀.script.reads.length)
    (hstop : w₀.mem.needsHuman = none ∨ ∃ o ∈ s.orders, o.symbol = a.symbol) :
    Spins (advanceConvergence r s) w := by
  have hendless : Endless a s verified n w :=
    ⟨(h.imp fun _ hl => hl.target).pressed hbusy hdesired, h.reads ▸ henough,
      h.undisturbed.stop ▸ hstop⟩
  obtain ⟨l, hl, hseen⟩ := h.leg
  simp only [Spins, advanceConvergence, wp_bind, wp_get, next_ok, hendless.attempt, hl]
  cases horder : s.orders.find? fun o => decide (o.symbol = a.symbol) with
  | some o =>
      simp only [cancelOwned, wp_bind, wp_get, next_ok]
      exact journaledEmergencyWrite_spins (hr w hendless) h.simulates.shadow
  | none =>
      have hnone : ¬ ∃ o ∈ s.orders, o.symbol = a.symbol := by
        rintro ⟨o, ho, hsymbol⟩
        simpa [hsymbol] using List.find?_eq_none.1 horder o ho
      obtain ⟨p, hp, hticket⟩ := hseen.1.resolve_left hnone
      have howned : (ownedPosition l s).isSome = true := by
        simp only [ownedPosition, hticket, List.find?_isSome]
        exact ⟨p, hp, by simp⟩
      obtain ⟨q, hq⟩ := Option.isSome_iff_exists.1 howned
      have hnamed : Endless a s verified n
          (w.act (.memLeg
            { l with closeEffectId := some (w.cfg.effect a (.close q.text)) })) :=
        ⟨⟨h.simulates.act trivial, hendless.attempt, hendless.desired, _, rfl,
          ⟨hseen.1.imp_right .inl, hseen.2⟩⟩, hendless.enough, hendless.stop⟩
      simp only [hq, hendless.stop.resolve_right hnone, ne_eq, not_true_eq_false, if_false,
        closeOwned, wp_bind, wp_get, next_ok, wp_emit, true_and]
      exact journaledEmergencyWrite_spins (hr _ hnamed) hnamed.simulates.shadow

/-- However deep the stack, the reads fill it. -/
theorem requestBrokerRead_spins (depth : Nat) :
    ∀ w, Endless a s verified depth w → Spins (requestBrokerRead depth) w := by
  induction depth with
  | zero =>
      intro w _
      simp [Spins, requestBrokerRead]
  | succ depth ih =>
      intro w h
      obtain ⟨hhead, hread⟩ := h.read
      have hsees := hread.toPressed.sees
      obtain ⟨l, hl, -⟩ := hread.leg
      simp only [Spins, requestBrokerRead, wp_bind, wp_get, next_ok, h.attempt,
        wp_emit, true_and, hhead]
      refine wp_snapshot_of_leg hread.attempt hl ?_
      refine wp_done (facing_evidence hsees.facing hsees.attempt) fun w' h' => ?_
      rw [wp_bind, wp_get, next_ok, if_pos (h'.undisturbed.desired hsees.desired)]
      exact advanceConvergence_spins ih h' hsees.attempt hsees.desired
        hread.enough hread.stop

theorem readBroker_spins (h : Endless a s verified w.script.depth w) :
    Spins readBroker w := by
  simp only [Spins, readBroker, wp_bind, wp_get, next_ok]
  exact requestBrokerRead_spins _ w h

theorem readAndProgress_spins (h : Endless a s verified w.script.depth w) :
    Spins readAndProgress w := by
  simp only [Spins, readAndProgress, wp_bind, wp_get, next_ok]
  rw [if_neg (by simp [h.attempt])]
  exact spins_bind (readBroker_spins h)

theorem requestClose_spins (h : Endless a s verified w.script.depth w) :
    Spins (requestClose ⟨"", false⟩) w := by
  have hclose : beginClose ⟨"", false⟩ w = (.ok (), []) := by
    simp [beginClose, get_bind_run, h.attempt, h.desired, pure_run]
  have hread := readAndProgress_spins h
  refine ⟨Allowed.of_true _ _, ?_⟩
  rw [requestClose, silent_bind hclose]
  exact hread.2

/-! ## Lifting the stop first -/

theorem target_calm : Calm (Facing a s (targetLeg a s verified) w₀) :=
  facing_calm fun h hjournal => h.congr hjournal

theorem target_recoverAttempt (h : Facing a s (targetLeg a s verified) w₀ w)
    (hbusy : w₀.mem.attempt = some a) :
    wp freely recoverAttempt (Done (Facing a s (targetLeg a s verified) w₀)) w := by
  have hcalm : Calm (Facing a s (targetLeg a s verified) w₀) := target_calm
  obtain ⟨l, hl, -⟩ := h.leg
  rw [recoverAttempt, wp_bind, wp_get, next_ok]
  simp only [h.undisturbed.attempt, hbusy, hl]
  refine wp_done (done_of fun exn => facing_reconcile exn h) fun w' h' => ?_
  refine done_ends (fun exn => ends_get fun w _ => ?_) (h'.imp fun _ hl => hl.target)
  split
  · exact ends_pure _
  · exact ends_bind (hcalm.note _) fun _ => hcalm.beginClose _

/-- The state after the stop is lifted. -/
theorem Facing.lifted {n : Nat} (h : Facing a s (targetLeg a s verified) w₀ w)
    (hbusy : w₀.mem.attempt = some a) (hdesired : w₀.mem.desired = .empty)
    (henough : n ≤ w₀.script.reads.length) :
    Endless a s verified n (w.act (.unlatch false "containment_receipt_recovered")) := by
  have hpressed := h.pressed hbusy hdesired
  obtain ⟨l, hl, htarget⟩ := hpressed.leg
  exact ⟨⟨h.simulates.act trivial, hpressed.attempt, hpressed.desired, l, hl,
    htarget.congr rfl⟩, h.reads ▸ henough, .inl rfl⟩

theorem recoverStops_lifts {stop : Stop} (h : Undisturbed w₀ w) (hs : Standing a w₀)
    (hstop : w₀.mem.needsHuman = some stop) (hlift : liftable w₀ stop = true) :
    recoverStops w = (.ok (), [.unlatch false "containment_receipt_recovered"]) := by
  rw [recoverStops_run (h.standing hs), h.stop, hstop, Option.any_some,
    h.liftable_eq, hlift]
  simp

theorem recover_spins {stop : Stop} (h : Pressed a s verified w) (hs : Standing a w)
    (hstop : w.mem.needsHuman = some stop) (hlift : liftable w stop = true)
    (henough : w.script.depth ≤ w.script.reads.length) : Spins recover w := by
  have hcalm : Calm (Facing a s (targetLeg a s verified) w) := target_calm
  have hrecovering : ∀ b exn, Ends exn (Facing a s (targetLeg a s verified) w)
      (emit (.setRecovering b) : M Unit) := fun _ _ => hcalm.emit trivial
  refine wp_done (done_ends (hrecovering true) h.facing) fun w₁ h₁ => ?_
  refine wp_done (target_recoverAttempt h₁ hs.attempt) fun w₂ h₂ => ?_
  refine wp_done (done_ends (fun _ => hcalm.note _) h₂) fun w₃ h₃ => ?_
  refine wp_done (done_ends (hrecovering false) h₃) fun w₄ h₄ => ?_
  have hlifted := h₄.lifted h.attempt h.desired henough
  have hread :=
    readAndProgress_spins (w := w₄.act (.unlatch false "containment_receipt_recovered"))
    (by rw [act_depth, h₄.depth]; exact hlifted)
  refine ⟨Allowed.of_true _ _, ?_⟩
  rw [bind_run, recoverStops_lifts h₄.undisturbed hs hstop hlift]
  exact hread.2

/-- Without a stop, a due deferral or an unverified leg makes the cell read. -/
theorem progress_spins (h : Endless a s verified w.script.depth w)
    (hnone : w.mem.needsHuman = none)
    (hdue : ∀ e due rest, w.mem.aux.replayDeferred = (e, due) :: rest →
      containmentReplaySettleSeconds ≤ w.script.ticks.headD 0 - due)
    (hopen : w.mem.aux.replayDeferred = [] → verified = false) : Spins progress w := by
  obtain ⟨l, hl, -, hverified⟩ := h.leg
  cases hdeferred : w.mem.aux.replayDeferred with
  | nil =>
      have hconverging :
          Endless a s verified (w.act (.setState .convergingEmpty)).script.depth
          (w.act (.setState .convergingEmpty)) :=
        ⟨⟨h.simulates.act trivial, h.attempt, h.desired, h.leg⟩, h.enough, h.stop⟩
      have hconverge : Spins maybeProgressConvergence w := by
        simp only [Spins, maybeProgressConvergence, wp_bind, wp_get, next_ok,
          h.attempt, hl, h.desired, ne_eq, not_true_eq_false, if_false, wp_emit, true_and,
          hverified, hopen hdeferred, Bool.false_eq_true]
        exact readBroker_spins hconverging
      have hend : Spins progressEmptying w := spins_bind hconverge
      refine ⟨Allowed.of_true _ _, ?_⟩
      rw [progress_emptying h.attempt hl h.desired hnone hdeferred]
      exact hend.2
  | cons item rest =>
      obtain ⟨e, due⟩ := item
      have hticked : Endless a s verified (w.act .tick).script.depth (w.act .tick) :=
        ⟨⟨h.simulates.act trivial, h.attempt, h.desired, h.leg⟩, h.enough, h.stop⟩
      refine spins_bind ?_
      simp only [Spins, maybeResolveDeferredContainment, monotonic, wp_bind, wp_get,
        next_ok, hdeferred]
      rw [if_neg (by simp)]
      simp only [wp_bind, wp_emit, wp_get, next_ok, true_and, wp_pure, settleDeferred]
      rw [if_neg (Nat.not_lt.2 (hdue e due rest hdeferred))]
      exact spins_bind (readBroker_spins hticked)

theorem brokerSnapshot_spins {stop : Stop} (h : Pressed a s verified w) (hs : Standing a w)
    (horders : ∀ o ∈ s.orders, o.symbol ≠ a.symbol) (hstop : w.mem.needsHuman = some stop)
    (hlift : liftable (w.sees s) stop = true)
    (henough : w.script.depth < w.script.reads.length)
    (hdue : ∀ e due rest, w.mem.aux.replayDeferred = (e, due) :: rest →
      containmentReplaySettleSeconds ≤ w.script.ticks.headD 0 - due)
    (hopen : w.mem.aux.replayDeferred = [] → verified = false) :
    Spins (handleEvent (.brokerSnapshot 0)) w := by
  have hundisturbed := undisturbed_observing w 0
  have hstanding := hundisturbed.standing hs
  refine wp_brokerSnapshot ?_
  rcases hreads : w.script.reads with _ | ⟨r, rest⟩
  · simp [hreads] at henough
  · obtain rfl : r = some s := h.simulates.reads r (by simp [hreads])
    refine wp_done (applyBrokerSnapshot_stopped (h.observing 0) horders ?_) fun w' h' => ?_
    · rw [hundisturbed.stop, hstop]
      simp
    have hsees : Standing a ((observing w 0).sees s) :=
      ⟨hstanding.attempt, hstanding.row, hstanding.transition, hstanding.stop⟩
    have hliftable : liftable ((observing w 0).sees s) stop = true :=
      (liftable_congr rfl stop).trans hlift
    have hrest : ((observing w 0).sees s).script.reads = rest := by
      have htail : (observing w 0).script.reads = w.script.reads.tail := rfl
      exact htail.trans (by rw [hreads, List.tail_cons])
    have hlifted :=
      (h'.imp fun _ hl => hl.target).lifted (n := w.script.depth) h.attempt h.desired
      (by rw [hrest]; simpa [hreads, Nat.lt_succ_iff] using henough)
    have hevidence := congrArg Prod.fst h'.undisturbed.evidence
    have hprogress := progress_spins
      (w := w'.act (.unlatch false "containment_receipt_recovered"))
      (by rw [act_depth, h'.depth]; exact hlifted) rfl
      (fun e due rest hdeferred => by
        rw [act_ticks, h'.ticks]
        exact hdue e due rest (hevidence.symm.trans hdeferred))
      (fun hdeferred => hopen (hevidence.symm.trans hdeferred))
    refine ⟨Allowed.of_true _ _, ?_⟩
    rw [bind_run, recoverStops_lifts h'.undisturbed hsees hstop hliftable]
    exact hprogress.2

end PairCell
