import PairCell.Safe.Entry

/-!
# Every call keeps to the discipline

Protection, the peer's statuses, progress and the entry points.  The module
ends with the statement the rest of the development uses: a call of the cell
object only performs permitted actions, and leaves a sound, idle cell.
-/

namespace PairCell

open Lib World

variable {w : World} {a : Attempt} {l : Leg} {e : EffectId} {p : Payload}

/-! ## Protection -/

section Protection

/-- A write of its own whose effect is prepared right before it. -/
theorem wp_prepareAndWrite {failed : M Unit}
    {rest : BrokerWriteResult → M Unit} (hw : Good w) (hp : p.isEntry = false)
    (hask : Asks w p) (hown : PrepareOwn w e)
    (hfailed : wp Permits failed (fun _ w' => Good w' ∧ Later w w') w)
    (hrest : ∀ out w', Good w' → Steady w w' →
      (out.category = .completed → w'.disk.unresolved e = false) →
      wp Permits (rest out) (fun _ w'' => Good w'' ∧ Later w' w'') w') :
    wp Permits (do
      match ← Journal.prepare e p true with
      | .error _ => failed
      | .ok _ => do
          let out ← runBrokerWrite e p
          rest out) (fun _ w' => Good w' ∧ Later w w') w := by
  have hwrite : ∀ w₁, Sound w₁ → MidWrite e w₁ → Steady w w₁ →
      w₁.disk.journaledAs e p → Asks w₁ p → wp Permits (do
        let out ← runBrokerWrite e p
        rest out) (fun _ w' => Good w' ∧ Later w w') w₁ := by
    intro w₁ hs hm hsteady hpay hask
    refine wp_write_bind hs hm hsteady hpay hask (by simp [hp])
      fun out w₂ hend hsteady₂ => ?_
    exact hrest out w₂ (hend.good (.inl hp)) hsteady₂ fun hc =>
      hend.resolved (by simp [hc])
  rw [wp_bind]
  apply wp_prepare
  · intro hnone
    have hperm : Permits w (.prepare e p true) := ⟨hnone, fun _ => ⟨hown, hask⟩⟩
    obtain ⟨hs, hm, hsteady, -⟩ := PrepareOwn.mid hw hperm
    rw [next_ok]
    exact ⟨hperm, hwrite _ hs hm hsteady (journaledAs_prepare w e p) hask⟩
  · rw [next_ok]
    exact hfailed
  · intro row hrow hpayload
    rw [next_ok]
    exact hwrite w hw.sound hw.idle.mid (Steady.refl w) ⟨row, hrow, hpayload⟩ hask

/-- A change of the leg that is not about its entry. -/
theorem wp_adjustLeg {l' : Leg} {rest : M Unit} (hw : Good w) (ha : w.mem.attempt = some a)
    (hl : w.mem.leg = some l) (hstep : LegStep w a l l')
    (hstatus : l'.entryStatus = l.entryStatus)
    (hrest : ∀ w', Good w' → w'.mem.attempt = some a → w'.mem.leg = some l' →
      wp Permits rest (fun _ w'' => Good w'' ∧ Later w' w'') w') :
    wp Permits (do persistLeg l'; rest) (fun _ w' => Good w' ∧ Later w w') w := by
  have hp : Permits w (.saveLeg l') := by
    refine permits_saveLeg hw.idle.due ha hl ?_
    exact hstep
  rw [wp_bind]
  refine wp_persistLeg_good hw hp (owes_of_status fun old hold hopen => ?_)
    fun w₁ hw₁ hsaved => ?_
  · obtain rfl : l = old := Option.some.inj (hl.symm.trans hold)
    rw [hstatus]
    exact hopen
  · have hlater : Later w w₁ := .inl hsaved.attempt
    rw [next_ok]
    exact wp_mono (hrest w₁ hw₁ (hsaved.attempt.trans ha) hsaved.leg) fun _ _ hr =>
      ⟨hr.1, hlater.trans hr.2⟩

/-- The leg of `a` keeps its rough protection. -/
structure FallenBack (a : Attempt) (w : World) : Prop where
  sound : Sound w
  row : ∃ r ∈ w.disk.attempts, r.attempt.attemptId = a.attemptId
  leg : w.mem.attempt = some a → ∃ l, w.mem.leg = some l ∧ l.protectionStatus = .fallback

theorem ProtectionStep.fallback {old new : ProtectionStatus}
    (h : ProtectionStep w a old new) (hold : old = .fallback) : new = .fallback := by
  cases h with
  | kept hsame => exact hsame.trans hold
  | decided hrough _ => exact absurd (hold.symm.trans hrough) (by decide)
  | followed _ hprecise => exact absurd (hold.symm.trans hprecise) (by decide)

theorem FallenBack.act {x : Action} (h : FallenBack a w) (hp : Permits w x) :
    FallenBack a (w.act x) := by
  obtain ⟨r, hr, hid⟩ := h.row
  refine ⟨h.sound.act hp, ?_, fun ha => ?_⟩
  · rw [act_attempts]
    cases x with
    | adopt b => exact ⟨r, List.mem_append_left _ hr, hid⟩
    | refuse b reason => exact ⟨r, List.mem_append_left _ hr, hid⟩
    | terminate reason =>
        exact ⟨_, List.mem_map_of_mem hr, by rw [terminateRow_attempt]; exact hid⟩
    | _ => exact ⟨r, hr, hid⟩
  · rw [act_attempt] at ha
    rw [act_leg]
    cases x with
    | adopt b =>
        obtain rfl := Option.some.inj ha
        have hrow : (w.disk.rowOf b.attemptId).isSome = true := by
          simp only [Disk.rowOf, List.find?_isSome]
          exact ⟨r, hr, by simpa using hid⟩
        rw [hp.2.2.1] at hrow
        cases hrow
    | terminate reason => cases ha
    | saveLeg l =>
        obtain ⟨old, hold, hstatus⟩ := h.leg ha
        obtain ⟨-, b, hb, hstep⟩ := hp
        rw [hold] at hstep
        exact ⟨l, rfl, hstep.protectionStatus.fallback hstatus⟩
    | memLeg l =>
        obtain ⟨old, hold, hstatus⟩ := h.leg ha
        obtain ⟨b, q, -, hq, hnames⟩ := hp
        obtain rfl := Option.some.inj (hold.symm.trans hq)
        rcases hnames with ⟨rfl, -⟩ | ⟨t, -, rfl⟩ <;> exact ⟨_, rfl, hstatus⟩
    | _ => exact h.leg ha

/-- A leg that fell back before a permitted part of the code is so after it. -/
theorem wp_fallenBack {m : M Unit} (hw : Good w)
    (ha : w.mem.attempt = some a) (hl : w.mem.leg = some l)
    (hstatus : l.protectionStatus = .fallback)
    (hm : wp Permits m (fun _ w' => Good w' ∧ Later w w') w) :
    wp Permits m (fun _ w' => (Good w' ∧ Later w w') ∧ ∀ b, w'.mem.attempt = some b →
      ∃ l', w'.mem.leg = some l' ∧ l'.protectionStatus = .fallback) w := by
  obtain ⟨r, hr, rfl, -⟩ := hw.sound.mem.live a ha
  have hback : FallenBack r.attempt w :=
    ⟨hw.sound, ⟨r, hr, rfl⟩, fun _ => ⟨l, hl, hstatus⟩⟩
  have hafter : FallenBack r.attempt (after w (m w).2) :=
    hm.1.preserve (fun _ _ h hp => h.act hp) hback
  refine ⟨hm.1, hm.2, fun b hb => hafter.leg ?_⟩
  rcases hm.2.2 with hsame | hnone
  · exact hsame.trans ha
  · rw [hnone] at hb
    cases hb

theorem wp_freezeOrFallback {reason : String} (hw : Good w) (ha : w.mem.attempt = some a)
    (hl : w.mem.leg = some l) (hrough : l.protectionStatus = .rough) :
    wp Permits (freezeOrFallbackProtection l reason)
      (fun _ w' => Good w' ∧ Later w w') w := by
  have hok := hw.sound.legOk ha hl
  simp only [freezeOrFallbackProtection, hrough, reduceCtorEq, decide_false,
    Bool.false_eq_true, if_false]
  refine wp_adjustLeg hw ha hl ?_ rfl fun w₁ hw₁ ha₁ hl₁ => ?_
  · exact { legStep_refl (w := w) (a := a) hok with
      entry := .inl rfl
      verified := .inl
      precise := fun h => by cases h
      protectionStatus := .decided hrough (.inr rfl)
      prices := .inl hrough
      observed := .inl hrough }
  · refine wp_frames_bind (frames_note _) hw₁ fun _ w₂ hw₂ hframe => ?_
    refine wp_mono (wp_reportProtection hw₂ _ rfl (by dsimp only; decide) fun b _ => ?_)
      fun _ _ hr => ⟨hr.1, hr.2.later⟩
    exact ⟨_, hframe.leg.trans hl₁, rfl⟩

theorem wp_restoreRoughProtection {q : LegStatus} (reason : String) (hw : Good w)
    (hasked : w.script.delivered = some (.legStatus q))
    (hown : ∀ a, w.mem.attempt = some a → q.attemptId = a.attemptId)
    (hq : q.status = .protectionRoughFallback) :
    wp Permits (restoreRoughProtection reason) (fun _ w' => Good w' ∧ Later w w') w := by
  simp only [restoreRoughProtection]
  rw [wp_bind, wp_get, next_ok]
  split
  · next a l ha hl =>
      split
      · exact keeps_pure () w hw
      · next hprecise =>
          have hprecise' : l.protectionStatus = .precise := by simpa using hprecise
          refine wp_prepareAndWrite hw rfl (fun t ht => .inl ⟨l, hl, ht⟩) ?_ ?_ ?_
          · exact ⟨hw.idle.writing, a, l, .rollback, ha, hl, rfl, trivial, fun _ => rfl⟩
          · exact Frames.keeps (frames_bind (frames_note _) fun _ =>
              frames_beginClose _) w hw
          · intro out w₁ hw₁ hsteady hres
            have ha₁ := hsteady.attempt.trans ha
            have hl₁ := hsteady.leg.trans hl
            have hok := hw₁.sound.legOk ha₁ hl₁
            split
            · exact Frames.keeps (frames_bind (frames_note _) fun _ =>
                frames_beginClose _) w₁ hw₁
            · next hdone =>
                refine wp_adjustLeg hw₁ ha₁ hl₁ ?_ rfl fun w₂ hw₂ ha₂ hl₂ => ?_
                · exact { legStep_refl (w := w₁) (a := a) hok with
                    entry := .inl rfl
                    verified := .inl
                    precise := fun h => by cases h
                    protection := .inr ⟨hprecise', fun e he => by
                      obtain rfl := Option.some.inj he
                      exact hres (by simpa using hdone)⟩
                    protectionStatus := .followed q hprecise' (.inl rfl)
                      (hsteady.delivered.trans hasked) (hown a ha) (by rw [hq]; rfl)
                    prices := .inr (.inl (by simp [hprecise']))
                    observed := .inr (.inr (.inl ⟨rfl, rfl⟩)) }
                · refine wp_frames_bind (frames_note _) hw₂ fun _ w₃ hw₃ hframe => ?_
                  have ha₃ := hframe.attempt.trans ha₂
                  have hl₃ := hframe.leg.trans hl₂
                  rw [wp_bind]
                  refine wp_mono
                    (wp_fallenBack hw₃ ha₃ hl₃ rfl (keeps_readBroker w₃ hw₃)) ?_
                  rintro (err | u) w₄ ⟨hw₄, hback⟩
                  · exact hw₄
                  rw [next_ok]
                  refine wp_mono (wp_reportProtection hw₄.1 _ rfl (by dsimp only; decide)
                    fun b hb => ?_) fun _ _ hr => ⟨hr.1, hw₄.2.trans hr.2.later⟩
                  obtain ⟨l', hl', hstatus⟩ := hback b hb
                  exact ⟨l', hl', by rw [hstatus]; rfl⟩
  · exact keeps_pure () w hw

/-- The precise protection is saved once its write is done, or pretended. -/
theorem legStep_precise (box : Rat × Rat) (now : Nat) (hok : LegOk w.cfg a.attemptId l)
    (hrough : l.protectionStatus = .rough) (hticket : l.ticket ≠ none)
    (hres : w.shadow = true ∨ ∀ e, l.protectionEffectId = some e →
      w.disk.unresolved e = false) :
    LegStep w a l (preciseApplied l box now) :=
  { legStep_refl (w := w) (a := a) hok with
    entry := .inl rfl
    verified := .inl
    precise := fun _ => ⟨hticket, .inr hres⟩
    protectionStatus := .decided hrough (.inl rfl)
    prices := .inl hrough
    observed := .inl hrough }

theorem wp_applyMirroredBox {box : Rat × Rat} (hw : Good w) (ha : w.mem.attempt = some a)
    (hl : w.mem.leg = some l) (hrough : l.protectionStatus = .rough)
    (hticket : l.ticket ≠ none) :
    wp Permits (applyMirroredBox a l box) (fun _ w' => Good w' ∧ Later w w') w := by
  have hp : Permits w (.memLeg { l with
      protectionEffectId := some (w.cfg.effect a .protection) }) :=
    ⟨a, l, ha, hl, .inl ⟨rfl, hticket, hrough⟩⟩
  simp only [applyMirroredBox]
  rw [wp_bind, wp_get, next_ok, wp_bind, wp_emit, next_ok]
  have hw₁ : Good (w.act (.memLeg { l with
      protectionEffectId := some (w.cfg.effect a .protection) })) :=
    ⟨hw.sound.act hp, idle_same hw.idle rfl rfl rfl rfl⟩
  have hok₁ := hw₁.sound.legOk (a := a) ha rfl
  refine ⟨hp, ?_⟩
  split
  · next hshadow =>
      refine wp_mono (wp_adjustLeg (a := a) hw₁ ha rfl ?_ rfl fun w₂ hw₂ ha₂ hl₂ => ?_)
        fun _ _ hr => ⟨hr.1, hr.2⟩
      · exact { legStep_precise box w.mem.aux.now hok₁ hrough hticket (.inl hshadow) with
          entry := .inl rfl
          verified := .inl
          observed := .inl hrough }
      · exact wp_mono (wp_reportProtection hw₂ _ rfl (by dsimp only; decide) fun b _ =>
          ⟨_, hl₂, rfl⟩) fun _ _ hr => ⟨hr.1, hr.2.later⟩
  · next hlive =>
      refine wp_mono (wp_prepareAndWrite hw₁ rfl ?_ ?_ ?_ ?_) fun _ _ hr => ⟨hr.1, hr.2⟩
      · exact fun t ht => .inl ⟨_, rfl, ht⟩
      · exact ⟨hw.idle.writing, a, _, .protection, ha, rfl, rfl, ⟨rfl, hrough⟩,
          fun h => absurd h hlive⟩
      · exact wp_freezeOrFallback (a := a) hw₁ ha rfl hrough
      · intro out w₂ hw₂ hsteady hres
        have ha₂ := hsteady.attempt.trans ha
        have hl₂ := hsteady.leg
        have hok₂ := hw₂.sound.legOk ha₂ hl₂
        split
        · next hdone =>
            refine wp_adjustLeg hw₂ ha₂ hl₂
              (legStep_precise _ _ hok₂ hrough hticket (.inr ?_)) rfl
              fun w₃ hw₃ ha₃ hl₃ => ?_
            · intro e he
              obtain rfl := Option.some.inj he
              exact hres hdone
            · have hp₃ : Permits w₃ (.setState .protecting) :=
                ⟨by decide, by decide, (nomatch ·)⟩
              have hw₄ : Good (w₃.act (.setState .protecting)) :=
                ⟨hw₃.sound.act hp₃, idle_same hw₃.idle rfl rfl rfl rfl⟩
              rw [wp_bind, wp_emit, next_ok]
              refine ⟨hp₃,
                wp_mono (wp_frames_bind (frames_note _) hw₄ fun _ w₅ hw₅ hframe₅ => ?_)
                fun _ _ hr => hr⟩
              refine wp_frames_bind (frames_note _) hw₅ fun _ w₆ hw₆ hframe₆ => ?_
              refine wp_keeps_bind ?_ fun _ w₇ hw₇ _ => keeps_readBroker w₇ hw₇
              refine wp_mono (wp_reportProtection hw₆ _ rfl (by dsimp only; decide)
                fun b _ => ?_)
                fun _ _ hr => ⟨hr.1, hr.2.later⟩
              exact ⟨_, (hframe₆.leg.trans hframe₅.leg).trans hl₃, rfl⟩
        · exact wp_freezeOrFallback hw₂ ha₂ hl₂ hrough

theorem keeps_maybeApplyPreciseProtection : Keeps maybeApplyPreciseProtection := by
  intro w hw
  simp only [maybeApplyPreciseProtection]
  rw [wp_bind, wp_get, next_ok]
  split
  · next a l ha hl =>
      split
      · exact keeps_pure () w hw
      · next hguard =>
        push Not at hguard
        split
        · exact wp_freezeOrFallback hw ha hl hguard.2.2
        · next box hbox =>
            unfold mirroredPreciseProtection at hbox
            split at hbox
            · next hguard =>
                have hok := hw.sound.legOk ha hl
                exact wp_applyMirroredBox hw ha hl hguard.1
                  (hok.fill.resolve_left hguard.2.2.1)
            · cases hbox
  · exact keeps_pure () w hw

/-- A cell that has just confirmed the pair. -/
structure Confirming (w w' : World) : Prop where
  good : Good w'
  frame : Frame w w'
  confirmed : w'.mem.pairConfirmed = true

theorem Confirming.refl (hw : Good w) (h : w.mem.pairConfirmed = true) : Confirming w w :=
  ⟨hw, Frame.refl w, h⟩

theorem Confirming.note {w' : World} (h : Confirming w w') (event : String) :
    wp Permits (note event) (onOk fun _ w'' => Confirming w w'') w' := by
  have hp : Permits w' (.transition (.note event)) := trivial
  have hframe : Frame w' (w'.act (.transition (.note event))) :=
    ⟨⟨rfl, rfl, rfl, rfl, rfl, rfl, rfl, rfl⟩, rfl, rfl, fun _ h => h⟩
  rw [PairCell.note, wp_emit]
  exact ⟨hp, ⟨h.good.sound.act hp, idle_same h.good.idle rfl rfl rfl rfl⟩,
    h.frame.trans hframe, h.confirmed⟩

/-- The durable part of a pair confirmation, on either side. -/
theorem wp_confirmPair {desired : DesiredState} {rest : M Unit} (hw : Good w)
    (ha : w.mem.attempt = some a) (hground : ConfirmGround w)
    (hdesired : desired = w.mem.desired)
    (hrest : ∀ w', Confirming w w' →
      wp Permits rest (fun _ w'' => Good w'' ∧ Frame w' w'') w') :
    wp Permits (do
      modifyAux fun x => { x with timerDeadline := none }
      emit (.saveDesired desired true)
      note "pair_entry_confirmed"
      rest) (fun _ w' => Good w' ∧ Frame w w') w := by
  refine wp_modifyAux_bind (fun _ => le_rfl) (fun _ _ hr => hr) hw fun hw₁ => ?_
  generalize haux : { w.mem.aux with timerDeadline := none } = aux at hw₁ ⊢
  have hground₁ : ConfirmGround (w.act (.setAux aux)) := by
    cases hground with
    | evidence hrole hown hpeer => exact .evidence hrole hown hpeer
    | told b hrole hb hasked => exact .told b hrole hb hasked
  have hp : Permits (w.act (.setAux aux)) (.saveDesired desired true) :=
    ⟨fun hnone => absurd (ha.symm.trans hnone) (by simp), fun _ => .inr hground₁,
      fun h => .inl (hdesired.symm.trans h)⟩
  have hconf : Confirming (w.act (.setAux aux))
      ((w.act (.setAux aux)).act (.saveDesired desired true)) :=
    ⟨⟨hw₁.sound.act hp, idle_same hw₁.idle rfl rfl rfl rfl⟩,
      ⟨⟨rfl, rfl, rfl, rfl, rfl, rfl, rfl, rfl⟩, rfl, rfl, fun _ h => h⟩, rfl⟩
  rw [wp_bind, wp_emit, next_ok]
  refine ⟨hp, wp_seq (hconf.note _) fun _ w₂ h₂ => ?_⟩
  have hframe : Frame w (w.act (.setAux aux)) :=
    ⟨⟨rfl, rfl, rfl, rfl, rfl, rfl, rfl, rfl⟩, rfl, rfl, fun _ h => h⟩
  exact wp_mono (hrest w₂ ⟨h₂.good, hframe.trans h₂.frame, h₂.confirmed⟩) fun _ _ hr =>
    ⟨hr.1, h₂.frame.trans hr.2⟩

theorem keeps_maybeEmitPairConfirmation : Keeps maybeEmitPairConfirmation := by
  refine Frames.keeps fun w hw => ?_
  simp only [maybeEmitPairConfirmation]
  rw [wp_bind, wp_get, next_ok]
  split
  · next a l ha hl =>
      split
      · exact frames_pure () w hw
      · next hguard =>
        push Not at hguard
        split
        · exact frames_pure () w hw
        · next hown =>
          split
          · refine frames_bind (frames_note _) (fun _ => ?_) w hw
            exact frames_bind (frames_notifyEntryFailed _) fun _ => frames_beginClose _
          · exact frames_pure () w hw
          · next hpeer =>
              refine wp_confirmPair hw ha (.evidence hguard.1 (not_not.1 hown) hpeer) rfl
                fun w₁ h₁ => ?_
              have hconf := Confirming.refl h₁.good h₁.confirmed
              refine wp_seq (hconf.note _) fun _ w₂ h₂ => ?_
              have hframe := h₁.frame.trans h₂.frame
              have hp : Permits w₂ (.relay (.pairEntryConfirmed a.attemptId)) := by
                refine ⟨hframe.cfg ▸ hguard.1, ?_, h₂.confirmed, ?_⟩
                · rw [attemptId?, hframe.attempt, ha]
                  rfl
                · rw [hframe.leg, hl]
                  simp
              rw [wp_emit]
              exact ⟨hp, ⟨h₂.good.sound.act hp, idle_same h₂.good.idle rfl rfl rfl rfl⟩,
                h₂.frame.trans ⟨⟨rfl, rfl, rfl, rfl, rfl, rfl, rfl, rfl⟩, rfl, rfl,
                  fun _ h => h⟩⟩
  · exact frames_pure () w hw

theorem wp_handlePairEntryConfirmed {attemptId : Nat} (hw : Good w)
    (hasked : w.script.delivered = some (.pairEntryConfirmed attemptId)) :
    wp Permits (handlePairEntryConfirmed attemptId)
      (fun _ w' => Good w' ∧ Frame w w') w := by
  simp only [handlePairEntryConfirmed]
  rw [wp_bind, wp_get, next_ok]
  split
  · next a l ha hl =>
      have hjudge : w.cfg.role = .follower → attemptId = a.attemptId →
          ∀ (late : Bool) w', Good w' → Frame w w' → w'.mem.desired = w.mem.desired →
            wp Permits (if late then do
                note "pair_confirmation_rejected"
                beginClose ⟨"pair_confirmation_after_timer", false⟩
              else do
                modifyAux fun x => { x with timerDeadline := none }
                emit (.saveDesired w.mem.desired true)
                note "pair_entry_confirmed"
                note "timing:pair_entry_confirmed")
                  (fun _ w'' => Good w'' ∧ Frame w' w'') w' := by
        rintro hrole rfl late w' hw' hframe hdesired
        cases late with
        | true => exact frames_bind (frames_note _) (fun _ => frames_beginClose _) w' hw'
        | false =>
            have ha' := hframe.attempt.trans ha
            exact wp_confirmPair hw' ha' (.told a (hframe.cfg ▸ hrole) ha'
              (hframe.delivered.trans hasked)) hdesired.symm fun w'' h =>
                frames_note _ w'' h.good
      split
      · exact frames_pure () w hw
      · next hguard =>
        push Not at hguard
        obtain ⟨hrole, hid⟩ := hguard
        split
        · exact frames_note _ w hw
        · split
          · rw [wp_bind, wp_pure, next_ok]
            exact hjudge hrole hid _ w hw (Frame.refl w) rfl
          · have htick : Frame w (w.act .tick) :=
              ⟨⟨rfl, rfl, rfl, rfl, rfl, rfl, rfl, rfl⟩, rfl, rfl, fun _ h => h⟩
            have hgood : Good (w.act .tick) :=
              ⟨hw.sound.act trivial, idle_same hw.idle rfl rfl rfl rfl⟩
            simp only [monotonic, wp_bind, wp_get, next_ok, wp_emit, wp_pure]
            refine ⟨trivial, wp_mono (hjudge hrole hid _ _ hgood htick rfl) fun _ _ hr =>
              ⟨hr.1, htick.trans hr.2⟩⟩
  · exact frames_pure () w hw

theorem keeps_handlePairEntryFailed (attemptId : Nat) :
    Keeps (handlePairEntryFailed attemptId) := by
  refine Frames.keeps (frames_get fun w => ?_)
  split
  · exact frames_bind (frames_note _) fun _ => frames_beginClose _
  · exact frames_pure ()

theorem wp_declareActive (hw : Good w) (hground : ActiveGround w a l) :
    wp Permits (do
      emit (.setState .active)
      if w.mem.activeSince = none then do
        emit (.saveActive w.mem.aux.now)
        note "active_verified"
        note "timing:active_verified"
      else pure ()) (fun _ w' => Good w' ∧ Later w w') w := by
  have hp : Permits w (.setState .active) :=
    ⟨by decide, by decide, fun _ => ⟨a, l, hground⟩⟩
  have hw₁ : Good (w.act (.setState .active)) :=
    ⟨hw.sound.act hp, idle_same hw.idle rfl rfl rfl rfl⟩
  rw [wp_bind, wp_emit, next_ok]
  refine ⟨hp, ?_⟩
  split
  · have hp₁ : Permits (w.act (.setState .active)) (.saveActive w.mem.aux.now) := rfl
    have hw₂ : Good ((w.act (.setState .active)).act (.saveActive w.mem.aux.now)) :=
      ⟨hw₁.sound.act hp₁, idle_same hw₁.idle rfl rfl rfl rfl⟩
    rw [wp_bind, wp_emit, next_ok]
    exact ⟨hp₁, (frames_bind (frames_note _) fun _ => frames_note _).keeps.from
      hw₂ (.inl rfl)⟩
  · exact (keeps_pure ()).from hw₁ (.inl rfl)

theorem keeps_maybeDeclareActive : Keeps maybeDeclareActive := by
  intro w hw
  simp only [maybeDeclareActive]
  rw [wp_bind, wp_get, next_ok]
  split
  · next a l ha hl =>
      split
      · exact keeps_pure () w hw
      · next hguard =>
        push Not at hguard
        obtain ⟨hconfirmed, -, hagreed⟩ := hguard
        split
        · next hsame =>
            exact wp_declareActive hw ⟨ha, hl, by simpa using hconfirmed, hagreed,
              Bool.and_eq_true_iff.1 hsame⟩
        · exact keeps_pure () w hw
  · exact keeps_pure () w hw

end Protection

/-! ## The peer -/

section Peer

theorem wp_answerLegStatus {i : Nat} {allowNoRecord : Bool} (hw : Good w)
    (hasked : allowNoRecord = true → w.script.delivered = some (.legStatusRequest i)) :
    wp Permits (answerLegStatus i allowNoRecord) (fun _ w' => Good w' ∧ Frame w w') w := by
  simp only [answerLegStatus, wp_bind, wp_get, next_ok]
  split
  · exact frames_reportCurrentLegStatus w hw
  · cases hrow : w.disk.rowOf i with
    | none =>
        dsimp only
        split
        · next hallow =>
            refine wp_reportLegStatus hw _ (by dsimp only; decide) fun j hj => ?_
            obtain rfl : i = j := by simpa using hj
            exact .noRecord hrow (hasked hallow) rfl
        · exact frames_pure () w hw
    | some row =>
        dsimp only
        cases hterm : row.terminal with
        | some reason =>
            exact wp_reportTerminal hw rfl (terminalStatusFor_plain _) hrow
              (by simp [hterm])
        | none => exact frames_pure () w hw

theorem wp_recordLatePeerLegStatus {q : LegStatus} (hw : Good w)
    (hasked : w.script.delivered = some (.legStatus q))
    (hother : w.attemptId? ≠ some q.attemptId) :
    wp Permits (recordLatePeerLegStatus q) (fun _ w' => Good w' ∧ Later w w') w := by
  have hp : Permits w (.latePeerLeg q) := ⟨hasked, hother⟩
  have hw₁ : Good (w.act (.latePeerLeg q)) :=
    ⟨hw.sound.act hp, idle_same hw.idle rfl rfl rfl rfl⟩
  have hanswer : wp Permits (if q.status ∈ peerTerminalStatuses then pure ()
      else answerLegStatus q.attemptId false) (fun _ w' => Good w' ∧ Later w w')
      (w.act (.latePeerLeg q)) := by
    split
    · exact (wp_pure _ _ _).2 ⟨hw₁, .inl rfl⟩
    · exact wp_mono (wp_answerLegStatus hw₁ (by simp)) fun _ _ hr =>
        ⟨hr.1, .inl hr.2.attempt⟩
  unfold recordLatePeerLegStatus
  rw [wp_bind, wp_emit, next_ok]
  exact ⟨hp, hanswer⟩

theorem keeps_closeAfterPeer (reason : Reason) : Keeps (closeAfterPeer reason) :=
  keeps_bind (frames_beginClose _).keeps fun _ => keeps_maybeFinalizeEmpty

theorem keeps_peerLegEmpty (q : LegStatus) : Keeps (peerLegEmpty q) := by
  refine keeps_get fun w => ?_
  split
  · exact keeps_bind (frames_note _).keeps fun _ => keeps_closeAfterPeer _
  · dsimp only
    split
    · exact keeps_bind (frames_note _).keeps fun _ => keeps_closeAfterPeer _
    · exact keeps_closeAfterPeer _

theorem wp_freezeWithPeer {q : LegStatus} (hw : Good w) (hl : w.mem.leg = some l)
    (hprecise : l.protectionStatus = .precise)
    (hasked : w.script.delivered = some (.legStatus q))
    (hown : ∀ a, w.mem.attempt = some a → q.attemptId = a.attemptId)
    (hq : q.status = .protectionFrozen) :
    wp Permits (freezeWithPeer l) (fun _ w' => Good w' ∧ Later w w') w := by
  obtain ⟨a, ha⟩ := hw.sound.attempt hl
  have hok := hw.sound.legOk ha hl
  refine wp_adjustLeg hw ha hl ?_ rfl fun w₁ hw₁ ha₁ hl₁ => ?_
  · exact { legStep_refl (w := w) (a := a) hok with
      entry := .inl rfl
      verified := .inl
      precise := fun h => by cases h
      protectionStatus :=
        .followed q hprecise (.inr rfl) hasked (hown a ha) (by rw [hq]; rfl)
      prices := .inr (.inl (by simp [hprecise]))
      observed := .inr (.inr (.inl ⟨rfl, rfl⟩)) }
  · refine wp_frames_bind (frames_note _) hw₁ fun _ w₂ hw₂ hframe => ?_
    refine wp_mono (wp_reportProtection hw₂ _ rfl (by dsimp only; decide) fun b _ => ?_)
      fun _ _ hr => ⟨hr.1, hr.2.later⟩
    exact ⟨_, hframe.leg.trans hl₁, rfl⟩

theorem wp_followPeerStatus {q : LegStatus} (hw : Good w)
    (hasked : w.script.delivered = some (.legStatus q))
    (hown : ∀ a, w.mem.attempt = some a → q.attemptId = a.attemptId) :
    wp Permits (followPeerStatus q) (fun _ w' => Good w' ∧ Later w w') w := by
  simp only [followPeerStatus, wp_bind, wp_get, next_ok]
  split
  · next hq =>
      split
      · exact wp_restoreRoughProtection _ hw hasked hown hq
      · exact keeps_pure () w hw
  · next hq =>
      split
      · next l hl =>
          split
          · next hprecise => exact wp_freezeWithPeer hw hl hprecise hasked hown hq
          · exact keeps_pure () w hw
      · exact keeps_pure () w hw
  · exact keeps_closeAfterPeer _ w hw
  · exact keeps_closeAfterPeer _ w hw
  · exact keeps_closeAfterPeer _ w hw
  · exact keeps_closeAfterPeer _ w hw
  · exact keeps_closeAfterPeer _ w hw
  · exact keeps_peerLegEmpty q w hw
  · exact keeps_pure () w hw

/-- The part of the handler that concerns the attempt in memory. -/
theorem wp_acceptPeerLeg {q : LegStatus} {v : PeerLegView} (reset : Bool) (hw : Good w)
    (hasked : w.script.delivered = some (.legStatus q))
    (hown : ∀ a, w.mem.attempt = some a → q.attemptId = a.attemptId)
    (hp : Permits w (.savePeerLeg v)) :
    wp Permits (do
      emit (.savePeerLeg v)
      note "peer_leg_status"
      if reset then
        modifyAux fun x => { x with proofWaitStarted := none, proofLastProbe := none }
      else pure ()
      followPeerStatus q) (fun _ w' => Good w' ∧ Later w w') w := by
  have hw₁ : Good (w.act (.savePeerLeg v)) :=
    ⟨hw.sound.act hp, idle_same hw.idle rfl rfl rfl rfl⟩
  have hfollow : ∀ w', Good w' → Frame (w.act (.savePeerLeg v)) w' →
      wp Permits (followPeerStatus q) (fun _ w'' => Good w'' ∧ Later w' w'') w' := by
    intro w' hw' hframe
    refine wp_followPeerStatus hw' (hframe.delivered.trans hasked) fun a ha => hown a ?_
    exact hframe.attempt.symm.trans ha
  rw [wp_bind, wp_emit, next_ok]
  refine ⟨hp, wp_mono (wp_frames_bind (frames_note _) hw₁ fun _ w₂ hw₂ hframe => ?_)
    fun _ _ hr => hr⟩
  dsimp only
  split
  · refine wp_frames_bind (frames_modifyAux (fun _ => le_rfl) fun _ _ hr => hr) hw₂
      fun _ w₃ hw₃ hframe₃ => ?_
    exact hfollow w₃ hw₃ (hframe.trans hframe₃)
  · exact hfollow w₂ hw₂ hframe

theorem permits_savePeerLeg {q : LegStatus}
    (hasked : w.script.delivered = some (.legStatus q))
    (hown : w.attemptId? = some q.attemptId) :
    Permits w (.savePeerLeg (w.mem.peerLeg.update q)) := by
  obtain ⟨a, ha, hid⟩ := Option.map_eq_some_iff.1 hown
  exact ⟨a, q, ha, hasked, hid.symm, rfl⟩

theorem wp_handlePeerLegStatus {q : LegStatus} (hw : Good w)
    (hasked : w.script.delivered = some (.legStatus q)) :
    wp Permits (handlePeerLegStatus q) (fun _ w' => Good w' ∧ Later w w') w := by
  have hbody : ∀ w₁, Good w₁ → w₁.script.delivered = some (.legStatus q) →
      wp Permits (do
        let w ← get
        if w.attemptId? ≠ some q.attemptId then recordLatePeerLegStatus q
        else if q.status = .noAttemptRecord ∧ w.mem.aux.proofProbesSent = 0 then
          note "unsolicited_no_attempt_record_ignored"
        else do
          emit (.savePeerLeg (w.mem.peerLeg.update q))
          note "peer_leg_status"
          if q.status ≠ w.mem.peerLeg.status then
            modifyAux fun x => { x with proofWaitStarted := none, proofLastProbe := none }
          else pure ()
          followPeerStatus q) (fun _ w' => Good w' ∧ Later w₁ w') w₁ := by
    intro w₁ hw₁ hasked₁
    rw [wp_bind, wp_get, next_ok]
    split
    · next hother => exact wp_recordLatePeerLegStatus hw₁ hasked₁ hother
    · next hown =>
        split
        · exact (frames_note _).keeps w₁ hw₁
        · have hown' : w₁.attemptId? = some q.attemptId := by simpa using hown
          have hp := permits_savePeerLeg hasked₁ hown'
          have hsame : ∀ a, w₁.mem.attempt = some a → q.attemptId = a.attemptId := by
            intro a ha
            exact Option.some.inj (hown'.symm.trans (by rw [attemptId?, ha]; rfl))
          have haccept := wp_acceptPeerLeg
            (decide (q.status ≠ w₁.mem.peerLeg.status)) hw₁ hasked₁ hsame hp
          simpa only [decide_eq_true_eq] using haccept
  unfold handlePeerLegStatus
  dsimp only
  split
  · refine wp_frames_bind (frames_note _) hw fun _ w₁ hw₁ hframe => ?_
    exact hbody w₁ hw₁ (hframe.delivered.trans hasked)
  · exact hbody w hw hasked

/-- A probe is sent only once the local leg is verified empty. -/
theorem wp_sendProofProbe (hw : Good w) (ha : w.mem.attempt = some a)
    (hl : w.mem.leg = some l) (hempty : l.emptyVerified = true) :
    wp Permits (sendProofProbe a) (fun _ w' => Good w' ∧ Later w w') w := by
  unfold sendProofProbe
  refine wp_frames_bind frames_monotonic hw fun now w₁ hw₁ hframe₁ => ?_
  refine wp_frames_bind (frames_modifyAux (fun _ => le_rfl) fun _ _ hr => hr) hw₁
    fun _ w₂ hw₂ hframe₂ => ?_
  have hframe := hframe₁.trans hframe₂
  have hl₂ := hframe.leg.trans hl
  rw [wp_bind]
  refine wp_mono (wp_reportEmpty hw₂ hl₂ hempty) ?_
  rintro (err | u) w₃ ⟨hw₃, hframe₃⟩
  · exact ⟨hw₃, hframe₃.later⟩
  have hp : Permits w₃ (.relay (.legStatusRequest a.attemptId)) :=
    ⟨a, l, hframe₃.attempt.trans (hframe.attempt.trans ha), rfl,
      hframe₃.leg.trans hl₂, hempty⟩
  have hw₄ : Good (w₃.act (.relay (.legStatusRequest a.attemptId))) :=
    ⟨hw₃.sound.act hp, idle_same hw₃.idle rfl rfl rfl rfl⟩
  rw [next_ok, wp_bind, wp_emit, next_ok]
  exact ⟨hp, (frames_note _).keeps.from hw₄ hframe₃.later⟩

theorem awaitsPeerProof_empty (ha : w.mem.attempt = some a)
    (h : awaitsPeerProof w = true) :
    ∃ l, w.mem.leg = some l ∧ l.emptyVerified = true := by
  unfold awaitsPeerProof at h
  rw [ha] at h
  cases hl : w.mem.leg with
  | none => simp [hl] at h
  | some l =>
      simp only [hl, Bool.and_eq_true] at h
      exact ⟨l, rfl, h.1.1⟩

theorem wp_escalateOrProbe {started now : Nat} (hw : Good w) (ha : w.mem.attempt = some a)
    (hl : w.mem.leg = some l) (hempty : l.emptyVerified = true) :
    wp Permits (escalateOrProbe a started now) (fun _ w' => Good w' ∧ Later w w') w := by
  simp only [escalateOrProbe, wp_bind, wp_get, next_ok]
  split
  · refine wp_setNeedsHuman hw fun i hi b hb => ?_
    obtain rfl : a = b := Option.some.inj (ha.symm.trans hb)
    exact Option.some.inj hi
  · split
    · exact wp_sendProofProbe hw ha hl hempty
    · exact keeps_pure () w hw

theorem keeps_awaitPeerTerminalProof : Keeps awaitPeerTerminalProof := by
  intro w hw
  have hreset : Keeps (modifyAux fun x => { x with
      proofWaitStarted := none, proofLastProbe := none }) :=
    Frames.keeps (frames_modifyAux (fun _ => le_rfl) fun _ _ hr => hr)
  simp only [awaitPeerTerminalProof]
  rw [wp_bind, wp_get, next_ok]
  split
  · next a l ha hl =>
      split
      · exact hreset w hw
      · next hempty =>
          split
          · exact keeps_pure () w hw
          · refine wp_frames_bind frames_monotonic hw fun now w₁ hw₁ hframe => ?_
            split
            · refine Frames.keeps ?_ w₁ hw₁
              exact frames_modifyAux (fun _ => le_rfl) fun _ _ hr => hr
            · exact wp_escalateOrProbe hw₁ (hframe.attempt.trans ha) (hframe.leg.trans hl)
                (by simpa using hempty)
  · exact hreset w hw

theorem keeps_probePeerTerminalProofNow : Keeps probePeerTerminalProofNow := by
  intro w hw
  simp only [probePeerTerminalProofNow]
  rw [wp_bind, wp_get, next_ok]
  split
  · next a ha =>
      split
      · next hguard =>
          obtain ⟨l, hl, hempty⟩ :=
            awaitsPeerProof_empty ha (Bool.and_eq_true _ _ ▸ hguard).1
          refine wp_frames_bind (frames_modifyAux (fun _ => le_rfl) fun _ _ hr => hr) hw
            fun _ w₁ hw₁ hframe => ?_
          exact wp_sendProofProbe hw₁ (hframe.attempt.trans ha)
            (hframe.leg.trans hl) hempty
      · exact keeps_pure () w hw
  · exact keeps_pure () w hw

end Peer

/-! ## Progress -/

section Progress

/-- A deferred effect belongs to the attempt, or the attempt is over. -/
theorem wp_settleDeferred (now : Nat) (rs : List (EffectId × Nat))
    {w₀ : World} (hw : Good w)
    (hrs : ∀ r ∈ rs, ∃ i, r.1.attempt? = some i ∧ w₀.attemptId? = some i)
    (hlater : Later w₀ w) :
    wp Permits (settleDeferred now rs) (fun _ w' => Good w' ∧ Later w w') w := by
  induction rs generalizing w with
  | nil => exact keeps_pure () w hw
  | cons r rs ih =>
      obtain ⟨e, deferredAt⟩ := r
      have hrest : ∀ w', Good w' → Later w w' →
          wp Permits (settleDeferred now rs) (fun _ w'' => Good w'' ∧ Later w' w'') w' :=
        fun w' hw' h => ih hw' (fun r hr => hrs r (List.mem_cons_of_mem _ hr))
          (hlater.trans h)
      simp only [settleDeferred]
      split
      · exact hrest w hw (Later.refl w)
      · refine wp_keeps_bind (keeps_readBroker w hw) fun _ w₁ hw₁ hlater₁ => ?_
        refine wp_frames_bind (frames_modifyAux (fun _ => le_rfl)
          fun _ _ hr => (List.mem_filter.1 hr).1) hw₁ fun _ w₂ hw₂ hframe => ?_
        rw [wp_bind, wp_get, next_ok]
        have hlater' := hlater₁.trans hframe.later
        split
        · refine wp_keeps_bind ((frames_note _).keeps w₂ hw₂) fun _ w₃ hw₃ hlater₃ => ?_
          exact hrest w₃ hw₃ (hlater'.trans hlater₃)
        · refine wp_keeps_bind (wp_setNeedsHuman hw₂ fun i hi b hb => ?_)
            fun _ w₃ hw₃ hlater₃ => hrest w₃ hw₃ (hlater'.trans hlater₃)
          obtain ⟨j, hj, hown⟩ := hrs (e, deferredAt) (by simp)
          obtain rfl : j = i := Option.some.inj (hj.symm.trans hi)
          rcases hlater.trans hlater' with h | h
          · rw [World.attemptId?, ← h, hb] at hown
            exact Option.some.inj hown
          · rw [h] at hb
            cases hb

theorem keeps_maybeResolveDeferredContainment : Keeps maybeResolveDeferredContainment := by
  intro w hw
  simp only [maybeResolveDeferredContainment]
  rw [wp_bind, wp_get, next_ok]
  split
  · exact keeps_pure () w hw
  · refine wp_frames_bind frames_monotonic hw fun now w₁ hw₁ hframe => ?_
    exact wp_settleDeferred now _ hw₁ hw.sound.mem.deferred hframe.later

theorem keeps_enforceExitPolicy : Keeps enforceExitPolicy := by
  refine Frames.keeps (frames_get fun w => ?_)
  split
  · split
    · exact frames_pure ()
    · split
      · exact frames_beginClose _
      · split
        · exact frames_beginClose _
        · exact frames_pure ()
  · exact frames_pure ()

theorem frames_confirmationTimeout : Frames confirmationTimeout := by
  refine frames_get fun w => ?_
  refine frames_bind (frames_modifyAux (fun _ => le_rfl) fun _ _ hr => hr) fun _ => ?_
  split
  · refine frames_bind (frames_note _) fun _ => ?_
    exact frames_bind (frames_notifyEntryFailed _) fun _ => frames_beginClose _
  · exact frames_bind (frames_note _) fun _ => frames_beginClose _

theorem keeps_enforceTimers : Keeps enforceTimers := by
  refine Frames.keeps (frames_get fun w => ?_)
  split
  · split
    · exact frames_pure ()
    · refine frames_bind frames_monotonic fun now => ?_
      split
      · exact frames_pure ()
      · exact frames_confirmationTimeout
  · exact frames_pure ()

theorem keeps_maybeProgressConvergence : Keeps maybeProgressConvergence := by
  refine keeps_get fun w => ?_
  split
  · split
    · exact keeps_pure ()
    · refine keeps_bind (sights_setState (by decide)).keeps fun _ => ?_
      split
      · exact keeps_pure ()
      · exact keeps_readBroker
  · exact keeps_pure ()

theorem keeps_progressStopped : Keeps progressStopped := by
  refine keeps_bind (sights_setState (by decide)).keeps fun _ => ?_
  refine keeps_bind keeps_maybeFinalizeEmpty fun _ => keeps_get fun w => ?_
  split
  · exact keeps_awaitPeerTerminalProof
  · exact keeps_pure ()

theorem keeps_progressAttempt : Keeps progressAttempt := by
  refine keeps_bind keeps_maybeEmitPairConfirmation fun _ => ?_
  refine keeps_bind keeps_maybeApplyPreciseProtection fun _ => ?_
  refine keeps_bind keeps_maybeProgressConvergence fun _ => ?_
  refine keeps_bind keeps_maybeFinalizeEmpty fun _ => ?_
  exact keeps_bind keeps_awaitPeerTerminalProof fun _ => keeps_maybeDeclareActive

theorem wp_good_seq {α β : Type} {m : M α} {f : α → M β}
    (hm : wp Permits m (fun _ w' => Good w') w)
    (hf : ∀ x w', Good w' → wp Permits (f x) (fun _ w'' => Good w'') w') :
    wp Permits (m >>= f) (fun _ w'' => Good w'') w := by
  rw [wp_bind]
  refine wp_mono hm ?_
  rintro (err | x) w' hw'
  · exact hw'
  · exact hf x w' hw'

/-- The progress of an attempt after the exit policy. -/
theorem wp_progressRest (hw : Good w) :
    wp Permits (do
      enforceTimers
      let w ← get
      if mayCreate w then maybeCreateAttempt else pure ()
      progressAttempt) (fun _ w' => Good w') w := by
  refine wp_good_seq (wp_good keeps_enforceTimers hw) fun _ w₁ hw₁ => ?_
  rw [wp_bind, wp_get, next_ok]
  dsimp only
  split
  · next hmay =>
      refine wp_good_seq (wp_maybeCreateAttempt hw₁ hmay) fun _ w₂ hw₂ => ?_
      exact wp_good keeps_progressAttempt hw₂
  · exact wp_good keeps_progressAttempt hw₁

theorem wp_progress (hw : Good w) : wp Permits progress (fun _ w' => Good w') w := by
  unfold progress
  refine wp_good_seq (wp_good keeps_maybeResolveDeferredContainment hw) fun _ w₁ hw₁ => ?_
  rw [wp_bind, wp_get, next_ok]
  split
  · exact wp_good keeps_progressStopped hw₁
  · exact wp_good_seq (wp_good keeps_enforceExitPolicy hw₁) fun _ _ hw₂ =>
      wp_progressRest hw₂

end Progress

/-! ## Entry points -/

section Calls

theorem frames_observeTime (now : Nat) : Frames (observeTime now) :=
  frames_modifyAux (fun _ => le_max_left _ _) fun _ _ hr => hr

theorem keeps_recoverStops : Keeps recoverStops :=
  keeps_bind keeps_recoverTerminalProofStop fun _ =>
    keeps_bind keeps_recoverTerminalizedContainmentStop fun _ =>
      keeps_recoverLatchedContainmentReplayStop

theorem keeps_peerSessionChanged (connected : Bool) :
    Keeps (peerSessionChanged connected) := by
  refine keeps_get fun w => ?_
  refine keeps_bind (Frames.keeps (frames_modifyAux (fun _ => le_rfl) fun _ _ hr => hr))
    fun _ => ?_
  split
  · exact (frames_note _).keeps
  · split
    · exact keeps_pure ()
    · exact keeps_bind keeps_probePeerTerminalProofNow fun _ => keeps_recoverStops

/-- The envelope a handler is called with is the one that was delivered. -/
theorem wp_acceptRelayEnvelope {m : Message} (hw : Good w)
    (hasked : w.script.delivered = some m) :
    wp Permits (acceptRelayEnvelope m) (fun _ w' => Good w') w := by
  unfold acceptRelayEnvelope
  refine wp_good_bind (frames_modifyAux (fun _ => le_rfl) fun _ _ hr => hr) hw
    fun _ w₁ hw₁ hframe => ?_
  have hasked₁ := hframe.delivered.trans hasked
  cases m with
  | attempt a => exact wp_handleAttempt hw₁ hasked₁
  | legStatus q => exact wp_mono (wp_handlePeerLegStatus hw₁ hasked₁) fun _ _ hr => hr.1
  | legStatusRequest i =>
      exact wp_mono (wp_answerLegStatus hw₁ fun _ => hasked₁) fun _ _ hr => hr.1
  | pairEntryConfirmed i =>
      exact wp_mono (wp_handlePairEntryConfirmed hw₁ hasked₁) fun _ _ hr => hr.1
  | pairEntryFailed i reason => exact wp_good (keeps_handlePairEntryFailed i) hw₁
  | other kind => exact (wp_pure _ _ _).2 hw₁

/-- A policy is only replaced while no attempt holds a leg, or by a cell yet to recover. -/
theorem Booked.permits_savePolicy (h : Booked w) (hun : w.attemptUnresolved = false)
    (policy : Policy) : Permits w (.savePolicy policy) := by
  cases ha : w.mem.attempt with
  | none => exact ⟨h.mem.leg_none ha, .inl ha⟩
  | some a =>
      rcases h.mem.busy (by simp [ha]) with ⟨hempty, hidle⟩ | ⟨hleg, hrec⟩
      · simp [World.attemptUnresolved, ha, hempty, hidle] at hun
      · exact ⟨hleg, .inr hrec⟩

theorem keeps_acceptPolicy (policy : Policy) : Keeps (acceptPolicy policy) := by
  intro w hw
  simp only [acceptPolicy]
  rw [wp_bind, wp_get, next_ok]
  split
  · exact keeps_pure () w hw
  · split
    · exact (frames_note _).keeps w hw
    · next hblocked =>
        have hun : w.attemptUnresolved = false := by
          cases hu : w.attemptUnresolved with
          | false => rfl
          | true => simp [policyChangeBlocked, hu] at hblocked
        have hp := hw.sound.permits_savePolicy hun policy
        have hw₁ : Good (w.act (.savePolicy policy)) :=
          ⟨hw.sound.act hp, idle_same hw.idle rfl rfl rfl rfl⟩
        rw [wp_bind, wp_emit, next_ok]
        exact ⟨hp, (frames_note _).keeps.from hw₁ (.inl rfl)⟩

theorem keeps_observedSnapshot : Keeps observedSnapshot := by
  intro w hw
  have hp : Permits w (.brokerRead (w.script.reads.headD none)) := rfl
  have hw₁ : Good (w.act (.brokerRead (w.script.reads.headD none))) :=
    ⟨hw.sound.act hp, idle_same hw.idle rfl rfl rfl rfl⟩
  simp only [observedSnapshot]
  rw [wp_bind, wp_get, next_ok, wp_bind, wp_emit, next_ok]
  refine ⟨hp, wp_mono (wp_keeps_bind (w := w.act (.brokerRead (w.script.reads.headD none)))
    (wp_applyBrokerSnapshot (keeps_requestBrokerRead w.script.depth) hw₁ rfl)
    fun _ w₂ hw₂ _ => keeps_recoverStops w₂ hw₂) ?_⟩
  exact fun _ _ hr => ⟨hr.1, hr.2⟩

/-- The envelope of an event is the one the script delivers. -/
def Event.Delivers (ev : Event) (w : World) : Prop :=
  ∀ m, ev = .envelope m → w.script.delivered = some m

theorem wp_dispatchEvent {ev : Event} (hw : Good w) (hev : ev.Delivers w) :
    wp Permits (dispatchEvent ev) (fun _ w' => Good w') w := by
  have hfacts : ∀ f : Aux → Aux, (∀ x, x.now ≤ (f x).now) →
      (∀ x, ∀ r ∈ (f x).replayDeferred, r ∈ x.replayDeferred) → Keeps (modifyAux f) :=
    fun f hn hd => Frames.keeps (frames_modifyAux hn hd)
  cases ev with
  | clockTick now => exact wp_good (frames_observeTime now).keeps hw
  | readinessFacts now facts =>
      exact wp_good (keeps_bind (frames_observeTime now).keeps fun _ =>
        hfacts _ (fun _ => le_rfl) fun _ _ hr => hr) hw
  | brokerSnapshot now =>
      exact wp_good (keeps_bind (frames_observeTime now).keeps fun _ =>
        keeps_observedSnapshot) hw
  | peerSession now connected =>
      exact wp_good (keeps_bind (frames_observeTime now).keeps fun _ =>
        keeps_peerSessionChanged connected) hw
  | routeMetadata now unpairing disagreement =>
      exact wp_good (keeps_bind (frames_observeTime now).keeps fun _ =>
        hfacts _ (fun _ => le_rfl) fun _ _ hr => hr) hw
  | envelope m => exact wp_acceptRelayEnvelope hw (hev m rfl)
  | policy policy => exact wp_good (keeps_acceptPolicy policy) hw
  | other => exact (wp_pure _ _ _).2 hw

theorem wp_handleEvent {ev : Event} (hw : Good w) (hev : ev.Delivers w) :
    wp Permits (handleEvent ev) (fun _ w' => Good w') w :=
  wp_good_seq (wp_dispatchEvent hw hev) fun _ _ hw₁ => wp_progress hw₁

/-- `_recover` leaves an attempt only with a leg. -/
theorem wp_recoverAttempt (hw : Good w) :
    wp Permits recoverAttempt
      (fun r w' => Good w' ∧
        (r = .ok () → w'.mem.attempt ≠ none → w'.mem.leg ≠ none)) w := by
  simp only [recoverAttempt]
  rw [wp_bind, wp_get, next_ok]
  split
  · next a ha hl =>
      rw [wp_bind]
      refine wp_mono (frames_note _ w hw) ?_
      rintro (err | u) w₁ ⟨hw₁, hframe⟩
      · exact ⟨hw₁, by simp⟩
      have hp : Permits w₁ (.terminate .noLocalEffectWasEverPrepared) :=
        ⟨hw₁.idle, by simp [hframe.attempt, ha], hframe.leg.trans hl⟩
      rw [next_ok]
      refine wp_mono (wp_terminateAttempt hw₁ hp) ?_
      rintro r w₂ ⟨hw₂, hnone⟩
      exact ⟨hw₂, fun _ h => absurd hnone h⟩
  · next a l ha hl =>
      rw [wp_bind]
      refine wp_mono (wp_reconcileEntryEffectState hw) ?_
      rintro (err | u) w₁ ⟨hw₁, -, -, hleg⟩
      · exact ⟨hw₁, by simp⟩
      have hl₁ : w₁.mem.leg ≠ none := hleg (by simp [hl])
      rw [next_ok, wp_bind, wp_get, next_ok]
      split
      · exact (wp_pure _ _ _).2 ⟨hw₁, fun _ _ => hl₁⟩
      · refine wp_mono
          ((frames_bind (frames_note _) fun _ => frames_beginClose _) w₁ hw₁) ?_
        rintro r w₂ ⟨hw₂, hframe⟩
        exact ⟨hw₂, fun _ _ => by rw [hframe.leg]; exact hl₁⟩
  · next hnone => exact (wp_pure _ _ _).2 ⟨hw, fun _ h => absurd hnone h⟩

theorem wp_readAndProgress (hw : Good w) :
    wp Permits readAndProgress (fun _ w' => Good w') w := by
  simp only [readAndProgress]
  rw [wp_bind, wp_get, next_ok]
  split
  · exact (wp_pure _ _ _).2 hw
  · exact wp_good_seq (wp_good keeps_readBroker hw) fun _ _ hw₁ => wp_progress hw₁

theorem wp_setRecovering {b : Bool} {rest : M Unit} (hw : Good w)
    (hb : b = false → w.mem.attempt ≠ none → w.mem.leg ≠ none)
    (hrest : ∀ w', Good w' → wp Permits rest (fun _ w'' => Good w'') w') :
    wp Permits (do emit (.setRecovering b); rest) (fun _ w' => Good w') w := by
  have hp : Permits w (.setRecovering b) := hb
  rw [wp_bind, wp_emit, next_ok]
  exact ⟨hp, hrest _ ⟨hw.sound.act hp, idle_same hw.idle rfl rfl rfl rfl⟩⟩

theorem wp_recover (hw : Good w) : wp Permits recover (fun _ w' => Good w') w := by
  refine wp_setRecovering hw (by simp) fun w₁ hw₁ => ?_
  rw [wp_bind]
  refine wp_mono (wp_recoverAttempt hw₁) ?_
  rintro (err | u) w₂ ⟨hw₂, hleg⟩
  · exact hw₂
  rw [next_ok]
  refine wp_good_bind (frames_note _) hw₂ fun _ w₃ hw₃ hframe => ?_
  refine wp_setRecovering hw₃ (fun _ => ?_) fun w₄ hw₄ => ?_
  · rw [hframe.attempt, hframe.leg]
    exact hleg rfl
  · exact wp_good_seq (wp_good keeps_recoverStops hw₄) fun _ _ hw₅ =>
      wp_readAndProgress hw₅

theorem wp_requestClose (reason : Reason) (hw : Good w) :
    wp Permits (requestClose reason) (fun _ w' => Good w') w :=
  wp_good_seq (wp_good (frames_beginClose reason).keeps hw) fun _ _ hw₁ =>
    wp_readAndProgress hw₁

def Call.Delivers (call : Call) (w : World) : Prop :=
  ∀ m, call = .event (.envelope m) → w.script.delivered = some m

/-- Every call of the cell object only performs permitted actions. -/
theorem wp_call {call : Call} (hw : Good w) (hcall : call.Delivers w) :
    wp Permits call.run (fun _ w' => Good w') w := by
  cases call with
  | event ev => exact wp_handleEvent hw fun m hm => hcall m (by rw [hm])
  | recover => exact wp_recover hw
  | requestClose reason => exact wp_requestClose reason hw

/-- An item of another client, served while the cell is idle. -/
theorem wp_serveItem (item : ForeignItem) (hw : Good w) :
    wp Permits (dispatchScheduledTraderRpc item) (fun _ w' => Good w') w := by
  refine wp_mono (wp_dispatch item hw.sound (hw.idle.mid (e := item.effect))) ?_
  rintro (err | u) w' h
  · exact h.elim
  · exact ⟨h.sound, h.mid.armed, h.ended hw.idle.writing, h.mid.owed, h.mid.due⟩

end Calls

end PairCell
