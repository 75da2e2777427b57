import PairCell.Sound

/-!
# Every handler keeps to the discipline

`Keeps m` is the triple proved of every part of the code: from a sound, idle
cell `m` only performs permitted actions, and it leaves a sound, idle cell that
follows the same attempt or none, whether it returns or raises.
-/

namespace PairCell

open Lib World

/-- Between two calls. -/
structure Good (w : World) : Prop where
  sound : Sound w
  idle : Idle w

/-- The cell follows the same attempt, or none. -/
def Later (w w' : World) : Prop := w'.mem.attempt = w.mem.attempt ∨ w'.mem.attempt = none

theorem Later.refl (w : World) : Later w w := .inl rfl

theorem Later.trans {w w' w'' : World} (h : Later w w')
    (h' : Later w' w'') : Later w w'' := by
  rcases h' with h' | h'
  · rcases h with h | h
    · exact .inl (h'.trans h)
    · exact .inr (h'.trans h)
  · exact .inr h'

/-- What a broker write leaves alone. -/
structure Steady (w w' : World) : Prop where
  cfg : w'.cfg = w.cfg
  delivered : w'.script.delivered = w.script.delivered
  attempt : w'.mem.attempt = w.mem.attempt
  leg : w'.mem.leg = w.mem.leg
  state : w'.mem.state = w.mem.state
  peerLeg : w'.mem.peerLeg = w.mem.peerLeg
  policy : w'.mem.policy = w.mem.policy
  attempts : w'.disk.attempts = w.disk.attempts

/-- What a step that is not about the leg leaves alone. -/
structure Frame (w w' : World) : Prop extends Steady w w' where
  read : w'.mem.read = w.mem.read
  sent : w'.disk.sent = w.disk.sent
  quiet : ∀ x, w'.disk.unresolved x = true → w.disk.unresolved x = true

theorem Steady.refl (w : World) : Steady w w := ⟨rfl, rfl, rfl, rfl, rfl, rfl, rfl, rfl⟩

theorem Steady.trans {w w' w'' : World} (h : Steady w w') (h' : Steady w' w'') :
    Steady w w'' where
  cfg := h'.cfg.trans h.cfg
  delivered := h'.delivered.trans h.delivered
  attempt := h'.attempt.trans h.attempt
  leg := h'.leg.trans h.leg
  state := h'.state.trans h.state
  peerLeg := h'.peerLeg.trans h.peerLeg
  policy := h'.policy.trans h.policy
  attempts := h'.attempts.trans h.attempts

theorem Steady.later {w w' : World} (h : Steady w w') : Later w w' := .inl h.attempt

theorem Frame.refl (w : World) : Frame w w := ⟨Steady.refl w, rfl, rfl, fun _ h => h⟩

theorem Frame.trans {w w' w'' : World} (h : Frame w w')
    (h' : Frame w' w'') : Frame w w'' :=
  ⟨h.toSteady.trans h'.toSteady, h'.read.trans h.read, h'.sent.trans h.sent,
    fun x hx => h.quiet x (h'.quiet x hx)⟩

section Rules

variable {α β : Type}

def Keeps (m : M α) : Prop :=
  ∀ w, Good w → wp Permits m (fun _ w' => Good w' ∧ Later w w') w

def Frames (m : M α) : Prop :=
  ∀ w, Good w → wp Permits m (fun _ w' => Good w' ∧ Frame w w') w

theorem Frames.keeps {m : M α} (h : Frames m) : Keeps m :=
  fun w hw => wp_mono (h w hw) fun _ _ hr => ⟨hr.1, hr.2.toSteady.later⟩

theorem keeps_pure (a : α) : Keeps (pure a) := by
  intro w hw
  rw [wp_pure]
  exact ⟨hw, Later.refl w⟩

theorem frames_pure (a : α) : Frames (pure a) := by
  intro w hw
  rw [wp_pure]
  exact ⟨hw, Frame.refl w⟩

theorem keeps_bind {m : M α} {f : α → M β} (hm : Keeps m) (hf : ∀ a, Keeps (f a)) :
    Keeps (m >>= f) := by
  intro w hw
  rw [wp_bind]
  refine wp_mono (hm w hw) ?_
  rintro r w' ⟨hw', hlater⟩
  cases r with
  | error e => exact ⟨hw', hlater⟩
  | ok a =>
      rw [next_ok]
      exact wp_mono (hf a w' hw') fun _ _ hr => ⟨hr.1, hlater.trans hr.2⟩

theorem frames_bind {m : M α} {f : α → M β} (hm : Frames m) (hf : ∀ a, Frames (f a)) :
    Frames (m >>= f) := by
  intro w hw
  rw [wp_bind]
  refine wp_mono (hm w hw) ?_
  rintro r w' ⟨hw', hframe⟩
  cases r with
  | error e => exact ⟨hw', hframe⟩
  | ok a =>
      rw [next_ok]
      exact wp_mono (hf a w' hw') fun _ _ hr => ⟨hr.1, hframe.trans hr.2⟩

theorem keeps_get {f : World → M α} (h : ∀ w, Keeps (f w)) : Keeps (get >>= f) := by
  intro w hw
  simp only [wp_bind, wp_get, next_ok]
  exact h w w hw

theorem frames_get {f : World → M α} (h : ∀ w, Frames (f w)) : Frames (get >>= f) := by
  intro w hw
  simp only [wp_bind, wp_get, next_ok]
  exact h w w hw

/-- The rest of a handler from an intermediate state it keeps. -/
theorem Keeps.from {m : M α} (hm : Keeps m) {w w' : World} (hw' : Good w')
    (hlater : Later w w') :
    wp Permits m (fun _ w'' => Good w'' ∧ Later w w'') w' :=
  wp_mono (hm w' hw') fun _ _ hr => ⟨hr.1, hlater.trans hr.2⟩

/-- Sequencing when the second part depends on where the first one ends. -/
theorem wp_keeps_bind {m : M α} {f : α → M β} {w : World}
    (hm : wp Permits m (fun _ w' => Good w' ∧ Later w w') w)
    (hf : ∀ a w', Good w' → Later w w' →
      wp Permits (f a) (fun _ w'' => Good w'' ∧ Later w' w'') w') :
    wp Permits (m >>= f) (fun _ w'' => Good w'' ∧ Later w w'') w := by
  rw [wp_bind]
  refine wp_mono hm ?_
  rintro (e | a) w' ⟨hw', hlater⟩
  · exact ⟨hw', hlater⟩
  · rw [next_ok]
    exact wp_mono (hf a w' hw' hlater) fun _ _ hr => ⟨hr.1, hlater.trans hr.2⟩

theorem wp_frames_bind {m : M α} {f : α → M β} {w : World} (hm : Frames m) (hw : Good w)
    (hf : ∀ a w', Good w' → Frame w w' →
      wp Permits (f a) (fun _ w'' => Good w'' ∧ Later w' w'') w') :
    wp Permits (m >>= f) (fun _ w'' => Good w'' ∧ Later w w'') w := by
  rw [wp_bind]
  refine wp_mono (hm w hw) ?_
  rintro (e | a) w' ⟨hw', hframe⟩
  · exact ⟨hw', hframe.later⟩
  · rw [next_ok]
    exact wp_mono (hf a w' hw' hframe) fun _ _ hr => ⟨hr.1, hframe.later.trans hr.2⟩

theorem wp_frame_bind {m : M α} {f : α → M β} {w : World}
    (hm : wp Permits m (fun _ w' => Good w' ∧ Frame w w') w)
    (hf : ∀ a w', Good w' → Frame w w' →
      wp Permits (f a) (fun _ w'' => Good w'' ∧ Frame w' w'') w') :
    wp Permits (m >>= f) (fun _ w'' => Good w'' ∧ Frame w w'') w := by
  rw [wp_bind]
  refine wp_mono hm ?_
  rintro (e | a) w' ⟨hw', hframe⟩
  · exact ⟨hw', hframe⟩
  · rw [next_ok]
    exact wp_mono (hf a w' hw' hframe) fun _ _ hr => ⟨hr.1, hframe.trans hr.2⟩

theorem wp_framed_bind {m : M α} {f : α → M β} {w : World} (hm : Frames m) (hw : Good w)
    (hf : ∀ a w', Good w' → Frame w w' →
      wp Permits (f a) (fun _ w'' => Good w'' ∧ Frame w' w'') w') :
    wp Permits (m >>= f) (fun _ w'' => Good w'' ∧ Frame w w'') w :=
  wp_frame_bind (hm w hw) hf

/-- A postcondition for handlers that return. -/
def onOk (Q : α → World → Prop) : Except Exn α → World → Prop
  | .ok a, w => Q a w
  | .error _, _ => False

theorem wp_seq {m : M α} {f : α → M β} {Q : α → World → Prop}
    {R : Except Exn β → World → Prop} {w : World} (hm : wp Permits m (onOk Q) w)
    (hf : ∀ a w', Q a w' → wp Permits (f a) R w') :
    wp Permits (m >>= f) R w := by
  rw [wp_bind]
  refine wp_mono hm ?_
  rintro (e | a) w' h
  · exact h.elim
  · exact hf a w' h

/-- A single action that is always permitted and changes nothing a frame lists. -/
theorem frames_emit {a : Action} (h : ∀ w, Good w → Permits w a)
    (hidle : ∀ w, Idle w → Idle (w.act a)) (hframe : ∀ w, Frame w (w.act a)) :
    Frames (emit a) := by
  intro w hw
  rw [wp_emit]
  exact ⟨h w hw, ⟨hw.sound.act (h w hw), hidle w hw.idle⟩, hframe w⟩

end Rules

/-! ## Small steps -/

theorem idle_same {w w' : World} (h : Idle w) (harmed : w'.mem.armed = w.mem.armed)
    (hwriting : w'.mem.writing = w.mem.writing) (howed : w'.mem.owed = w.mem.owed)
    (hdue : w'.mem.due = w.mem.due) : Idle w' :=
  ⟨harmed.trans h.armed, hwriting.trans h.writing, howed.trans h.owed, hdue.trans h.due⟩

theorem frames_note (event : String) : Frames (note event) :=
  frames_emit (fun _ _ => trivial) (fun _ h => idle_same h rfl rfl rfl rfl)
    (fun _ => ⟨⟨rfl, rfl, rfl, rfl, rfl, rfl, rfl, rfl⟩, rfl, rfl, fun _ h => h⟩)

theorem frames_bump : Frames bumpStateVersion :=
  frames_emit (fun _ _ => trivial) (fun _ h => idle_same h rfl rfl rfl rfl)
    (fun _ => ⟨⟨rfl, rfl, rfl, rfl, rfl, rfl, rfl, rfl⟩, rfl, rfl, fun _ h => h⟩)

theorem frames_clearDesired : Frames (emit (.saveDesired .none false)) :=
  frames_emit (fun _ _ => ⟨fun _ => ⟨rfl, rfl⟩, (nomatch ·), (nomatch ·)⟩)
    (fun _ h => idle_same h rfl rfl rfl rfl)
    (fun _ => ⟨⟨rfl, rfl, rfl, rfl, rfl, rfl, rfl, rfl⟩, rfl, rfl, fun _ h => h⟩)

/-- What is wanted of the attempt in memory; a pair is confirmed only on its ground. -/
theorem wp_saveDesired {w : World} {desired : DesiredState}
    {confirmed : Bool} (hw : Good w) (ha : w.mem.attempt ≠ none)
    (hconf : confirmed = true → w.mem.pairConfirmed = true ∨ ConfirmGround w)
    (hactive : desired = .active → w.mem.desired = .active ∨ w.script.blackout = none) :
    wp Permits (emit (.saveDesired desired confirmed) : M Unit)
      (fun _ w' => Good w' ∧ Frame w w') w := by
  have hp : Permits w (.saveDesired desired confirmed) :=
    ⟨fun hnone => absurd hnone ha, hconf, hactive⟩
  rw [wp_emit]
  exact ⟨hp, ⟨hw.sound.act hp, idle_same hw.idle rfl rfl rfl rfl⟩,
    ⟨⟨rfl, rfl, rfl, rfl, rfl, rfl, rfl, rfl⟩, rfl, rfl, fun _ h => h⟩⟩

theorem frames_closeRequested (reason : Reason) :
    Frames (emit (.transition (.closeRequested reason))) :=
  frames_emit (fun _ _ => trivial) (fun _ h => idle_same h rfl rfl rfl rfl)
    (fun _ => ⟨⟨rfl, rfl, rfl, rfl, rfl, rfl, rfl, rfl⟩, rfl, rfl, fun _ h => h⟩)

theorem frames_monotonic : Frames monotonic := by
  intro w hw
  simp only [monotonic, wp_bind, wp_get, next_ok, wp_emit, wp_pure]
  exact ⟨trivial, ⟨hw.sound.act trivial, idle_same hw.idle rfl rfl rfl rfl⟩,
    ⟨⟨rfl, rfl, rfl, rfl, rfl, rfl, rfl, rfl⟩, rfl, rfl, fun _ h => h⟩⟩

theorem frames_modifyAux {f : Aux → Aux} (hnow : ∀ x, x.now ≤ (f x).now)
    (hdeferred : ∀ x, ∀ r ∈ (f x).replayDeferred, r ∈ x.replayDeferred) :
    Frames (modifyAux f) := by
  intro w hw
  have hp : Permits w (.setAux (f w.mem.aux)) :=
    ⟨hnow _, fun r hr => hw.sound.mem.deferred r (hdeferred _ r hr)⟩
  simp only [modifyAux, wp_bind, wp_get, next_ok, wp_emit]
  exact ⟨hp, ⟨hw.sound.act hp, idle_same hw.idle rfl rfl rfl rfl⟩,
    ⟨⟨rfl, rfl, rfl, rfl, rfl, rfl, rfl, rfl⟩, rfl, rfl, fun _ h => h⟩⟩

/-- `modifyAux` in front of a part that reads what it does not change. -/
theorem wp_modifyAux_bind {α : Type} {f : Aux → Aux} {rest : M α} {w : World}
    (hnow : ∀ x, x.now ≤ (f x).now)
    (hdeferred : ∀ x, ∀ r ∈ (f x).replayDeferred, r ∈ x.replayDeferred) (hw : Good w)
    (hrest : Good (w.act (.setAux (f w.mem.aux))) →
      wp Permits rest (fun _ w' => Good w' ∧ Frame (w.act (.setAux (f w.mem.aux))) w')
        (w.act (.setAux (f w.mem.aux)))) :
    wp Permits (do modifyAux f; rest) (fun _ w' => Good w' ∧ Frame w w') w := by
  have hp : Permits w (.setAux (f w.mem.aux)) :=
    ⟨hnow _, fun r hr => hw.sound.mem.deferred r (hdeferred _ r hr)⟩
  have hw₁ : Good (w.act (.setAux (f w.mem.aux))) :=
    ⟨hw.sound.act hp, idle_same hw.idle rfl rfl rfl rfl⟩
  have hframe : Frame w (w.act (.setAux (f w.mem.aux))) :=
    ⟨⟨rfl, rfl, rfl, rfl, rfl, rfl, rfl, rfl⟩, rfl, rfl, fun _ h => h⟩
  simp only [modifyAux, wp_bind, wp_get, next_ok, wp_emit]
  exact ⟨hp, wp_mono (hrest hw₁) fun _ _ hr => ⟨hr.1, hframe.trans hr.2⟩⟩

theorem frames_relay {m : Message} (h : ∀ w, Good w → Permits w (.relay m)) :
    Frames (emit (.relay m)) :=
  frames_emit h (fun _ h => idle_same h rfl rfl rfl rfl)
    (fun _ => ⟨⟨rfl, rfl, rfl, rfl, rfl, rfl, rfl, rfl⟩, rfl, rfl, fun _ h => h⟩)

theorem frames_notifyEntryFailed (reason : String) :
    Frames (notifyEntryFailed reason) := by
  intro w hw
  simp only [notifyEntryFailed, wp_bind, wp_get, next_ok]
  cases w.mem.attempt with
  | none => exact frames_pure () w hw
  | some a =>
      exact frames_relay (m := .pairEntryFailed a.attemptId reason)
        (fun _ _ => trivial) w hw

/-- A report that is neither terminal nor about the fill or the protection needs no
ground. -/
theorem frames_reportLegStatus (r : StatusReport)
    (h : r.status ∉ peerTerminalStatuses ∧ r.status ∉ .filled :: protectionStatuses) :
    Frames (reportLegStatus r) := by
  intro w hw
  simp only [reportLegStatus, wp_bind, wp_get, next_ok]
  cases r.attemptId.or w.attemptId? with
  | none => exact frames_pure () w hw
  | some i =>
      exact frames_relay (m := .legStatus (r.payload w i))
        (fun _ _ => ⟨fun ht => absurd ht h.1,
          fun ht => absurd (List.mem_cons_of_mem _ ht) h.2,
          fun hfilled => absurd hfilled (List.ne_of_not_mem_cons h.2)⟩) w hw

/-- A terminal report on one of its grounds. -/
theorem wp_reportLegStatus {w : World} (hw : Good w) (r : StatusReport)
    (hplain : r.status ∉ .filled :: protectionStatuses)
    (h : ∀ i, r.attemptId.or w.attemptId? = some i → ReportGround w (r.payload w i)) :
    wp Permits (reportLegStatus r) (fun _ w' => Good w' ∧ Frame w w') w := by
  simp only [reportLegStatus, wp_bind, wp_get, next_ok]
  cases hi : r.attemptId.or w.attemptId? with
  | none => exact frames_pure () w hw
  | some i =>
      have hp : Permits w (.relay (.legStatus (r.payload w i))) :=
        ⟨fun _ => h i hi, fun ht => absurd (List.mem_cons_of_mem _ ht) hplain,
          fun hfilled => absurd hfilled (List.ne_of_not_mem_cons hplain)⟩
      rw [wp_emit]
      exact ⟨hp, ⟨hw.sound.act hp, idle_same hw.idle rfl rfl rfl rfl⟩,
        ⟨⟨rfl, rfl, rfl, rfl, rfl, rfl, rfl, rfl⟩, rfl, rfl, fun _ h => h⟩⟩

theorem accepted_not_filled {s : ProtectionStatus} :
    acceptedPeerStatus s ≠ some .filled := by
  cases s <;> simp [acceptedPeerStatus]

/-- A report of the protection the leg in memory has, or of nothing. -/
theorem wp_reportProtection {w : World} (hw : Good w) (r : StatusReport)
    (hown : r.attemptId = none) (hplain : r.status ∉ peerTerminalStatuses)
    (h : ∀ a, w.mem.attempt = some a → ∃ l, w.mem.leg = some l ∧
      acceptedPeerStatus l.protectionStatus = some r.status) :
    wp Permits (reportLegStatus r) (fun _ w' => Good w' ∧ Frame w w') w := by
  simp only [reportLegStatus, wp_bind, wp_get, next_ok, hown, Option.none_or]
  cases ha : w.mem.attempt with
  | none => simpa [attemptId?, ha] using frames_pure () w hw
  | some a =>
      obtain ⟨l, hl, hstatus⟩ := h a ha
      have hp : Permits w (.relay (.legStatus (r.payload w a.attemptId))) :=
        ⟨fun ht => absurd ht hplain, fun _ => ⟨a, l, ha, rfl, hl, hstatus⟩,
          fun hfilled => absurd (hstatus.trans (congrArg some hfilled))
            accepted_not_filled⟩
      simp only [attemptId?, ha, Option.map_some]
      rw [wp_emit]
      exact ⟨hp, ⟨hw.sound.act hp, idle_same hw.idle rfl rfl rfl rfl⟩,
        ⟨⟨rfl, rfl, rfl, rfl, rfl, rfl, rfl, rfl⟩, rfl, rfl, fun _ h => h⟩⟩

/-- A report of the fill of the leg in memory. -/
theorem wp_reportFilled {w : World} (hw : Good w) (r : StatusReport) {l : Leg}
    (hown : r.attemptId = none) (hstatus : r.status = .filled) (hl : w.mem.leg = some l)
    (hfilled : l.entryStatus = .filled) :
    wp Permits (reportLegStatus r) (fun _ w' => Good w' ∧ Frame w w') w := by
  simp only [reportLegStatus, wp_bind, wp_get, next_ok, hown, Option.none_or]
  cases ha : w.mem.attempt with
  | none => simpa [attemptId?, ha] using frames_pure () w hw
  | some a =>
      have hplain : (r.payload w a.attemptId).status ∉ peerTerminalStatuses ++
          protectionStatuses := by
        rw [show (r.payload w a.attemptId).status = .filled from hstatus]
        decide
      rw [List.mem_append, not_or] at hplain
      have hp : Permits w (.relay (.legStatus (r.payload w a.attemptId))) :=
        ⟨fun ht => absurd ht hplain.1, fun ht => absurd ht hplain.2,
          fun _ => ⟨a, l, ha, rfl, hl, hfilled⟩⟩
      simp only [attemptId?, ha, Option.map_some]
      rw [wp_emit]
      exact ⟨hp, ⟨hw.sound.act hp, idle_same hw.idle rfl rfl rfl rfl⟩,
        ⟨⟨rfl, rfl, rfl, rfl, rfl, rfl, rfl, rfl⟩, rfl, rfl, fun _ h => h⟩⟩

theorem wp_desireEmpty {w : World} (reason : Reason) (hw : Good w)
    (ha : w.mem.attempt ≠ none) :
    wp Permits (desireEmpty reason) (fun _ w' => Good w' ∧ Frame w w') w := by
  unfold desireEmpty
  rw [wp_bind, wp_get, next_ok]
  refine wp_modifyAux_bind (fun _ => le_rfl) (fun _ _ hr => hr) hw fun hw₁ => ?_
  refine wp_frame_bind (wp_saveDesired hw₁ ha .inl (nomatch ·)) fun _ w₂ hw₂ _ => ?_
  exact frames_bind (frames_closeRequested reason) (fun _ => frames_note _) w₂ hw₂

theorem frames_beginClose (reason : Reason) : Frames (beginClose reason) := by
  intro w hw
  unfold beginClose
  rw [wp_bind, wp_get, next_ok]
  cases ha : w.mem.attempt with
  | none => exact frames_pure () w hw
  | some a =>
      have hrest : ∀ w', Good w' → Frame w w' →
          wp Permits (if w.mem.desired = .empty then pure () else desireEmpty reason)
            (fun _ w'' => Good w'' ∧ Frame w' w'') w' := by
        intro w' hw' hframe
        split
        · exact frames_pure () w' hw'
        · exact wp_desireEmpty reason hw' (by simp [hframe.attempt, ha])
      dsimp only
      split
      · exact wp_framed_bind (frames_modifyAux (fun _ => le_rfl) fun _ _ hr => hr) hw
          fun _ => hrest
      · exact hrest w hw (Frame.refl w)

end PairCell
