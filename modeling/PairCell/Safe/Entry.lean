import PairCell.Safe.Snapshot

/-!
# Entries keep to the discipline

Between `prepare` and the write of its entry the cell is `Opened`: the effect
is prepared and nothing has been sent for the attempt.
-/

namespace PairCell

open Lib World

variable {w : World} {c : Config} {a : Attempt} {l : Leg}

/-! ## Status reports from the leg -/

theorem entryReport_closed
    (h : l.entryStatus.report ∈ peerTerminalStatuses) : ClosedLeg l := by
  cases hst : l.entryStatus with
  | rejected => exact .inr (.inl hst)
  | expiredNotStarted => exact .inr (.inr hst)
  | pending => rw [hst] at h; exact absurd h (by decide)
  | sent => rw [hst] at h; exact absurd h (by decide)
  | unknownAfterSend => rw [hst] at h; exact absurd h (by decide)
  | filled => rw [hst] at h; exact absurd h (by decide)

theorem entryReport_plain {s : EntryStatus} (h : s ≠ .filled) :
    s.report ∉ .noAttemptRecord :: .filled :: protectionStatuses := by
  cases s with
  | filled => exact absurd rfl h
  | _ => decide

theorem frames_reportCurrentLegStatus : Frames reportCurrentLegStatus := by
  intro w hw
  simp only [reportCurrentLegStatus, wp_bind, wp_get, next_ok]
  split
  · next l a hl ha =>
      split
      · next hempty => exact wp_reportEmpty hw hl hempty
      · split
        · next hprecise =>
            exact wp_reportProtection hw _ rfl (by dsimp only; decide) fun b _ =>
              ⟨l, hl, by rw [hprecise]; rfl⟩
        · split
          · next hfilled => exact wp_reportFilled hw _ rfl rfl hl hfilled
          · next hother =>
              by_cases hterm : l.entryStatus.report ∈ peerTerminalStatuses
              · exact wp_reportClosed hw hl (entryReport_closed hterm) rfl
                  (entryReport_plain hother)
              · have hplain := List.not_mem_of_not_mem_cons (entryReport_plain hother)
                exact frames_reportLegStatus _ ⟨hterm, hplain⟩ w hw
  · exact frames_pure () w hw

theorem terminalStatusFor_plain (reason : TerminalReason) :
    terminalStatusFor reason ∉ .noAttemptRecord :: .filled :: protectionStatuses := by
  cases reason <;> simp [terminalStatusFor, protectionStatuses]

/-- A report about an attempt whose row is terminal. -/
theorem wp_reportTerminal {r : StatusReport} {i : Nat} {q : AttemptRow} (hw : Good w)
    (hr : r.attemptId = some i)
    (hplain : r.status ∉ .noAttemptRecord :: .filled :: protectionStatuses)
    (hq : w.disk.rowOf i = some q) (hterm : q.terminal ≠ none) :
    wp Permits (reportLegStatus r) (fun _ w' => Good w' ∧ Frame w w') w := by
  rw [List.mem_cons, not_or] at hplain
  refine wp_reportLegStatus hw r hplain.2 fun j hj => ?_
  obtain rfl : i = j := by simpa [hr] using hj
  exact .terminal q hq hterm hplain.1

theorem frames_replayLegStatus (a : Attempt) : Frames (replayLegStatus a) := by
  intro w hw
  simp only [replayLegStatus, wp_bind, wp_get, next_ok]
  split
  · exact frames_reportCurrentLegStatus w hw
  · cases hrow : w.disk.rowOf a.attemptId with
    | none => exact frames_pure () w hw
    | some q =>
        simp only [Option.bind_some]
        cases hterm : q.terminal with
        | none => exact frames_pure () w hw
        | some reason =>
            exact wp_reportTerminal hw rfl (terminalStatusFor_plain _) hrow
              (by simp [hterm])

/-! ## The cell between prepare and write -/

/-- What the steps between prepare and write leave alone. -/
structure Plain (w w' : World) : Prop where
  cfg : w'.cfg = w.cfg
  attempt : w'.mem.attempt = w.mem.attempt
  leg : w'.mem.leg = w.mem.leg
  armed : w'.mem.armed = w.mem.armed
  owed : w'.mem.owed = w.mem.owed
  writing : w'.mem.writing = w.mem.writing
  due : w'.mem.due = w.mem.due
  policy : w'.mem.policy = w.mem.policy
  journal : w'.disk.journal = w.disk.journal

structure Opened (c : Config) (a : Attempt) (l : Leg) (w : World) : Prop where
  sound : Sound w
  mid : MidWrite (entryEffectId c a) w
  cfg : w.cfg = c
  attempt : w.mem.attempt = some a
  leg : w.mem.leg = some l
  pending : l.entryStatus = .pending
  held : l.emptyVerified = false
  undispatched : l.entryDispatched = false
  simulated : w.shadow = true →
    w.mem.writing = none ∧ w.disk.ownEffect (entryEffectId c a) = false
  payload : w.shadow = false →
    w.disk.journaledAs (entryEffectId c a) (entryPayload a c.role)

theorem shadow_policy {w' : World} (h : w'.mem.policy = w.mem.policy) :
    w'.shadow = w.shadow := by
  simp [World.shadow, h]

theorem ownEffect_journal {d d' : Disk} (h : d'.journal = d.journal) (e : EffectId) :
    d'.ownEffect e = d.ownEffect e := by
  simp [Disk.ownEffect, h]

theorem journaledAs_journal {d d' : Disk} {e : EffectId} {p : Payload}
    (h : d'.journal = d.journal) (hpay : d.journaledAs e p) : d'.journaledAs e p := by
  unfold Disk.journaledAs
  rw [h]
  exact hpay

theorem MidWrite.same {e : EffectId} {w' : World} (h : MidWrite e w)
    (harmed : w'.mem.armed = w.mem.armed) (howed : w'.mem.owed = w.mem.owed)
    (hwriting : w'.mem.writing = w.mem.writing) (hdue : w'.mem.due = w.mem.due)
    (hjournal : w'.disk.journal = w.disk.journal) : MidWrite e w' := by
  refine ⟨harmed.trans h.armed, howed.trans h.owed, ?_, hdue.trans h.due⟩
  rw [hwriting]
  exact h.writing.imp_right fun hw =>
    ⟨hw.1, preparedAt_get (congrArg (Table.get · e) hjournal) hw.2⟩

theorem Opened.plain {w' : World} (h : Opened c a l w) (hs : Sound w') (hp : Plain w w') :
    Opened c a l w' where
  sound := hs
  mid := h.mid.same hp.armed hp.owed hp.writing hp.due hp.journal
  cfg := hp.cfg.trans h.cfg
  attempt := hp.attempt.trans h.attempt
  leg := hp.leg.trans h.leg
  pending := h.pending
  held := h.held
  undispatched := h.undispatched
  simulated := fun hsh => by
    rw [shadow_policy hp.policy] at hsh
    rw [hp.writing, ownEffect_journal hp.journal]
    exact h.simulated hsh
  payload := fun hlive => by
    rw [shadow_policy hp.policy] at hlive
    exact journaledAs_journal hp.journal (h.payload hlive)

theorem wp_opened_emit {x : Action} (h : Opened c a l w) (hp : Permits w x)
    (hplain : Plain w (w.act x)) :
    wp Permits (emit x : M Unit) (onOk fun _ w' => Opened c a l w') w := by
  rw [wp_emit]
  exact ⟨hp, h.plain (h.sound.act hp) hplain⟩

theorem wp_opened_note (event : String) (h : Opened c a l w) :
    wp Permits (note event) (onOk fun _ w' => Opened c a l w') w :=
  wp_opened_emit h trivial ⟨rfl, rfl, rfl, rfl, rfl, rfl, rfl, rfl, rfl⟩

/-- Nothing was sent for an attempt whose leg is not marked as dispatched. -/
theorem Booked.not_dispatched (h : Booked w) (ha : w.mem.attempt = some a)
    (hl : w.mem.leg = some l) (hd : l.entryDispatched = false) :
    ¬ w.disk.entrySent (entryEffectId w.cfg a) := by
  rintro ⟨s, hs, he, hentry⟩
  obtain ⟨i, d, hget, hdisp, hs'⟩ := h.disk.sent s hs hentry
  obtain rfl : a.attemptId = i := by
    have hsame := he.symm.trans hs'
    simpa [entryEffectId, Config.effect] using hsame
  obtain ⟨d', hget', hsync⟩ := h.stored ha hl
  obtain rfl : d = d' := Option.some.inj (hget.symm.trans hget')
  rw [hsync] at hd
  exact absurd (hd.symm.trans hdisp) (by decide)

theorem Opened.legOk (h : Opened c a l w) : LegOk w.cfg a.attemptId l :=
  h.sound.legOk h.attempt h.leg

/-- The leg is saved again with other bookkeeping. -/
theorem wp_opened_persist {l' : Leg} (h : Opened c a l w) (hstep : LegStep w a l l')
    (hpending : l'.entryStatus = .pending) (hheld : l'.emptyVerified = false)
    (hdisp : l'.entryDispatched = false) :
    wp Permits (persistLeg l') (onOk fun _ w' => Opened c a l' w') w := by
  have hp : Permits w (.saveLeg l') := by
    exact permits_saveLeg h.mid.due h.attempt h.leg hstep
  apply wp_persistLeg h.sound hp
  intro w' hs hsaved harmed hwriting howed hdue hjournal
  have howes : w.owes l' = w.mem.owed := owes_of_status fun _ _ _ => by rw [hpending]; rfl
  exact {
    sound := hs
    mid := h.mid.same harmed (howed.trans howes) hwriting
      (hdue.trans h.mid.due.symm) hjournal
    cfg := hsaved.cfg.trans h.cfg
    attempt := hsaved.attempt.trans h.attempt
    leg := hsaved.leg
    pending := hpending
    held := hheld
    undispatched := hdisp
    simulated := fun hsh => by
      rw [shadow_policy hsaved.policy] at hsh
      rw [hwriting, ownEffect_journal hjournal]
      exact h.simulated hsh
    payload := fun hlive => by
      rw [shadow_policy hsaved.policy] at hlive
      exact journaledAs_journal hjournal (h.payload hlive) }

theorem wp_opened_monotonic (h : Opened c a l w) :
    wp Permits monotonic (onOk fun _ w' => Opened c a l w') w := by
  simp only [monotonic, wp_bind, wp_get, next_ok, wp_emit, wp_pure]
  exact ⟨trivial, h.plain (h.sound.act (a := .tick) trivial) ⟨rfl, rfl, rfl, rfl, rfl, rfl,
    rfl, rfl, rfl⟩⟩

theorem wp_opened_deadline (deadline : Nat) (h : Opened c a l w) :
    wp Permits (modifyAux fun x => { x with timerDeadline := some deadline })
      (onOk fun _ w' => Opened c a l w') w := by
  have hp : Permits w (.setAux { w.mem.aux with timerDeadline := some deadline }) :=
    ⟨le_rfl, h.sound.mem.deferred⟩
  simp only [modifyAux, wp_bind, wp_get, next_ok]
  exact wp_opened_emit h hp ⟨rfl, rfl, rfl, rfl, rfl, rfl, rfl, rfl, rfl⟩

theorem wp_startTimer (h : Opened c a l w) :
    wp Permits (startTimer a l)
      (onOk fun l' w' => Opened c a l' w' ∧
        l' = { l with timerStartedAt := l'.timerStartedAt }) w := by
  unfold startTimer
  refine wp_seq (wp_opened_monotonic h) fun now w₁ h₁ => ?_
  refine wp_seq (wp_opened_deadline _ h₁) fun _ w₂ h₂ => ?_
  rw [wp_bind, wp_get, next_ok]
  have hstep : LegStep w₂ a l { l with timerStartedAt := some w₂.mem.aux.now } :=
    { legStep_refl (w := w₂) (a := a) h₂.legOk with entry := .inl rfl, verified := .inl }
  refine wp_seq (wp_opened_persist h₂ hstep h.pending h.held h.undispatched)
    fun _ w₃ h₃ => ?_
  refine wp_seq (wp_opened_note _ h₃) fun _ w₄ h₄ => ?_
  rw [wp_pure]
  exact ⟨h₄, rfl⟩

/-! ## The dispatch -/

section Dispatch

/-- An entry that is answered, or never sent: the cell is idle and its leg still
pending. -/
structure Dispatched (a : Attempt) (l : Leg) (w : World) : Prop where
  sound : Sound w
  armed : w.mem.armed = none
  writing : w.mem.writing = none
  owed : w.mem.owed = none
  attempt : w.mem.attempt = some a
  leg : w.mem.leg = some l
  pending : l.entryStatus = .pending

theorem Dispatched.legOk (h : Dispatched a l w) : LegOk w.cfg a.attemptId l :=
  h.sound.legOk h.attempt h.leg

/-- The leg of a dispatched entry is saved with its outcome. -/
theorem wp_outcome {st : EntryStatus} {rest : M Unit} (h : Dispatched a l w)
    (hstep : EntryStep w a l { l with entryStatus := st })
    (howes : w.owes { l with entryStatus := st } = none)
    (hdue : w.mem.due = true → st = .sent)
    (hrest : ∀ w', Good w' → w'.mem.leg = some { l with entryStatus := st } →
      wp Permits rest (fun _ w'' => Good w'') w') :
    wp Permits (do persistLeg { l with entryStatus := st }; rest)
      (fun _ w' => Good w') w := by
  have hp : Permits w (.saveLeg { l with entryStatus := st }) := by
    refine ⟨hdue, a, h.attempt, ?_⟩
    simp only [h.leg]
    exact legStep_status h.legOk (by simp [h.pending]) hstep
  rw [wp_bind]
  refine wp_persistLeg h.sound hp fun w' hs hsaved harmed hwriting howed hdue' _ => ?_
  exact hrest w' ⟨hs, harmed.trans h.armed, hwriting.trans h.writing,
    howed.trans howes, hdue'⟩
    hsaved.leg

/-- A resolved entry effect owes no observation. -/
theorem Dispatched.owes (h : Dispatched a l w) (st : EntryStatus)
    (hres : w.disk.unresolved (entryEffectId w.cfg a) = false) :
    w.owes { l with entryStatus := st } = none := by
  have he : ({ l with entryStatus := st } : Leg).entryEffectId =
      some (entryEffectId w.cfg a) :=
    h.legOk.entryEffectId
  rcases owes_settled _ he h.owed with hnone | ⟨-, hu⟩
  · exact hnone
  · rw [hres] at hu
    cases hu

theorem wp_good {α : Type} {m : M α} (h : Keeps m) (hw : Good w) :
    wp Permits m (fun _ w' => Good w') w :=
  wp_mono (h w hw) fun _ _ hr => hr.1

theorem wp_good_bind {α β : Type} {m : M α} {f : α → M β} (hm : Frames m) (hw : Good w)
    (hf : ∀ x w', Good w' → Frame w w' → wp Permits (f x) (fun _ w'' => Good w'') w') :
    wp Permits (m >>= f) (fun _ w'' => Good w'') w := by
  rw [wp_bind]
  refine wp_mono (hm w hw) ?_
  rintro (e | x) w' ⟨hw', hframe⟩
  · exact hw'
  · exact hf x w' hw' hframe

/-- The report and the close that follow an entry which came to nothing. -/
theorem wp_failed {r : StatusReport} {why : String} {reason : Reason} (hw : Good w)
    (hl : w.mem.leg = some l) (hclosed : ClosedLeg l) (hr : r.attemptId = none)
    (hplain : r.status ∉ .noAttemptRecord :: .filled :: protectionStatuses) :
    wp Permits (do
      reportLegStatus r
      notifyEntryFailed why
      beginClose reason) (fun _ w' => Good w') w := by
  rw [wp_bind]
  refine wp_mono (wp_reportClosed hw hl hclosed hr hplain) ?_
  rintro (e | u) w' ⟨hw', -⟩
  · exact hw'
  · exact wp_good (Frames.keeps
      (frames_bind (frames_notifyEntryFailed _) fun _ => frames_beginClose _)) hw'

theorem wp_entryRejected {receipt : Option (Option Int)} (h : Dispatched a l w)
    (hdue : w.mem.due = false)
    (hsent : ¬ w.disk.entrySent (entryEffectId w.cfg a) ∨
      w.disk.entryRefused (entryEffectId w.cfg a))
    (hres : w.disk.unresolved (entryEffectId w.cfg a) = false) :
    wp Permits (entryRejected l receipt) (fun _ w' => Good w') w := by
  refine wp_outcome h (.refused h.pending rfl hsent) (h.owes _ hres) (by simp [hdue])
    fun w₁ hw₁ hl₁ => ?_
  refine wp_good_bind (frames_note _) hw₁ fun _ w₂ hw₂ hframe₂ => ?_
  have hl₂ := hframe₂.leg.trans hl₁
  dsimp only
  split
  · refine wp_good_bind (frames_note _) hw₂ fun _ w₃ hw₃ hframe₃ => ?_
    exact wp_failed hw₃ (hframe₃.leg.trans hl₂) (.inr (.inl rfl)) rfl
      (by dsimp only; decide)
  · exact wp_failed hw₂ hl₂ (.inr (.inl rfl)) rfl (by dsimp only; decide)

theorem wp_entryExpired (h : Dispatched a l w) (hdue : w.mem.due = false)
    (hsent : ¬ w.disk.entrySent (entryEffectId w.cfg a))
    (hres : w.disk.unresolved (entryEffectId w.cfg a) = false) :
    wp Permits (entryExpired l) (fun _ w' => Good w') w := by
  refine wp_outcome h (.expired h.pending rfl hsent) (h.owes _ hres) (by simp [hdue])
    fun w₁ hw₁ hl₁ => ?_
  refine wp_good_bind (frames_note _) hw₁ fun _ w₂ hw₂ hframe₂ => ?_
  exact wp_failed hw₂ (hframe₂.leg.trans hl₁) (.inr (.inr rfl)) rfl (by dsimp only; decide)

theorem wp_entryUnknown (h : Dispatched a l w) (hdue : w.mem.due = false) :
    wp Permits (entryUnknown l) (fun _ w' => Good w') w := by
  refine wp_outcome h (.unknown h.pending rfl) ?_ (by simp [hdue]) fun w₁ hw₁ hl₁ => ?_
  · exact (owes_of_status fun _ _ _ => rfl).trans h.owed
  · exact wp_good (keeps_bind (sights_setState (by decide)).keeps fun _ =>
      keeps_bind (frames_note _).keeps fun _ => keeps_readBroker) hw₁

theorem wp_entrySent (h : Dispatched a l w)
    (hres : w.disk.unresolved (entryEffectId w.cfg a) = false) :
    wp Permits (entrySent l) (fun _ w' => Good w') w := by
  refine wp_outcome h (.sent h.pending rfl) (h.owes _ hres) (fun _ => rfl)
    fun w₁ hw₁ hl₁ => ?_
  exact wp_good (keeps_bind (frames_note _).keeps fun _ => keeps_bind
    (frames_reportLegStatus _ (by dsimp only; decide)).keeps fun _ => keeps_readBroker) hw₁

/-- The leg saved just before the write. -/
theorem legStep_dispatch (h : LegOk w.cfg a.attemptId l) :
    LegStep w a l { l with entryDispatched := true } :=
  { legStep_refl (w := w) (a := a) h with
    dispatched := fun _ => rfl, entry := .inl rfl, verified := .inl }

theorem wp_simulateEntry (hw : Good w) (ha : w.mem.attempt = some a)
    (hl : w.mem.leg = some l) (hpending : l.entryStatus = .pending)
    (hshadow : w.shadow = true) (hown : w.disk.ownEffect (entryEffectId w.cfg a) = false) :
    wp Permits (simulateEntry a l) (fun _ w' => Good w') w := by
  have hok := hw.sound.legOk ha hl
  have hticket := hok.ticket_none (by simp [hpending])
  simp only [simulateEntry]
  rw [wp_bind, wp_get, next_ok, wp_bind]
  refine wp_persistLeg_good hw ?_ ?_ fun w₁ hw₁ hsaved => ?_
  · refine permits_saveLeg hw.idle.due ha hl ?_
    exact { legStep_refl (w := w) (a := a) hok with
      ticket := .simulated hticket rfl
      ticketed := fun _ => rfl
      fill := .inr (by simp)
      entry := .inr (.simulated hpending rfl hshadow)
      verified := .inl
      precise := fun h => absurd h (hok.unticketed hticket).2.2.2
      observed := .inr (.inl (by simp [hpending])) }
  · rw [hw.idle.owed, owes, hok.entryEffectId]
    have hown' : w.disk.ownEffect (.cell a.attemptId w.cfg.workerId .entry) = false := hown
    split
    · simp [hown']
    · exact hw.idle.owed
  · rw [next_ok]
    refine wp_setState_bind (by decide) hw₁ fun w₂ hw₂ _ hleg => ?_
    refine wp_good_bind (frames_note _) hw₂ fun _ w₃ hw₃ hframe => ?_
    have hl₃ := hframe.leg.trans (hleg.trans hsaved.leg)
    exact wp_mono (wp_reportFilled hw₃ _ rfl rfl hl₃ rfl) fun _ _ hr => hr.1

theorem wp_sendEntry (h : Opened c a l w) :
    wp Permits (sendEntry a l) (fun _ w' => Good w') w := by
  have hok := h.legOk
  have hp : Permits w (.saveLeg { l with entryDispatched := true }) := by
    exact permits_saveLeg h.mid.due h.attempt h.leg (legStep_dispatch hok)
  have hunsent := h.sound.not_dispatched h.attempt h.leg h.undispatched
  simp only [sendEntry]
  rw [wp_bind, wp_get, next_ok, wp_bind]
  apply wp_persistLeg h.sound hp
  intro w₁ hs hsaved harmed hwriting howed hdue hjournal
  have hcfg : w₁.cfg = w.cfg := hsaved.cfg
  have howes : w.owes { l with entryDispatched := true } = w.mem.owed :=
    owes_of_status fun _ _ _ => by dsimp only; rw [h.pending]; rfl
  have hmid : MidWrite (entryEffectId c a) w₁ :=
    h.mid.same harmed (howed.trans howes) hwriting (hdue.trans h.mid.due.symm) hjournal
  rw [next_ok]
  split
  · next hshadow =>
      obtain ⟨hnone, hown⟩ := h.simulated hshadow
      refine wp_simulateEntry ⟨hs, hmid.armed, hwriting.trans hnone, hmid.owed, hmid.due⟩
        (hsaved.attempt.trans h.attempt) hsaved.leg h.pending
        ((shadow_policy hsaved.policy).trans hshadow) ?_
      rw [ownEffect_journal hjournal, hcfg, h.cfg]
      exact hown
  · next hlive =>
    have he : ({ l with entryDispatched := true } : Leg).entryEffectId.getD
        (entryEffectId w.cfg a) = entryEffectId c a := by
      rw [hok.entryEffectId, h.cfg]
      rfl
    rw [he, wp_bind]
    have hdispatch : EntryDispatch w₁ (entryEffectId c a) (entryPayload a w.cfg.role) :=
      ⟨a, _, hsaved.attempt.trans h.attempt, hsaved.leg, by rw [hcfg, h.cfg],
        by rw [hcfg], h.pending, rfl, h.held⟩
    have hpay : w₁.disk.journaledAs (entryEffectId c a) (entryPayload a w.cfg.role) := by
      rw [h.cfg]
      exact journaledAs_journal hjournal (h.payload (by simpa using hlive))
    have hask : Asks w₁ (entryPayload a w.cfg.role) := fun t ht => nomatch ht
    refine wp_mono (wp_runBrokerWrite hs hmid hpay (permits_turn hpay hask)
      fun _ => hdispatch) ?_
    rintro (err | out) w₂ hend
    · exact hend.1
    have hd : Dispatched a { l with entryDispatched := true } w₂ :=
      ⟨hend.sound, hend.armed, hend.writing, hend.owed,
        hend.steady.attempt.trans (hsaved.attempt.trans h.attempt),
        hend.steady.leg.trans hsaved.leg, h.pending⟩
    have hcfg₂ : entryEffectId c a = entryEffectId w₂.cfg a := by
      rw [hend.steady.cfg, hcfg, h.cfg]
    have hunsent₂ : SameEntries w₁ w₂ → ¬ w₂.disk.entrySent (entryEffectId w₂.cfg a) := by
      intro hsame hsent
      refine hunsent ?_
      rw [← hcfg₂, ← h.cfg] at hsent
      obtain ⟨s, hs', hrest⟩ := hsame.entrySent hsent
      exact ⟨s, hsaved.sent ▸ hs', hrest⟩
    have hdue₂ : out.category ≠ .completed → w₂.mem.due = false := fun hne =>
      (hend.good (.inr hne)).idle.due
    rw [next_ok]
    cases hcat : out.category with
    | rejected =>
        have hres := hend.resolved (by simp [hcat])
        refine wp_entryRejected hd (hdue₂ (by simp [hcat])) ?_ (hcfg₂ ▸ hres)
        rcases hend.refused hcat with hsame | hrefused
        · exact .inl (hunsent₂ hsame)
        · exact .inr (hcfg₂ ▸ hrefused rfl)
    | expiredNotStarted =>
        have hres := hend.resolved (by simp [hcat])
        exact wp_entryExpired hd (hdue₂ (by simp [hcat])) (hunsent₂ (hend.unsent hcat))
          (hcfg₂ ▸ hres)
    | unknownAfterSend => exact wp_entryUnknown hd (hdue₂ (by simp [hcat]))
    | completed =>
        have hres := hend.resolved (by simp [hcat])
        exact wp_entrySent hd (hcfg₂ ▸ hres)

end Dispatch

/-! ## Opening an attempt -/

/-- The cell holds the attempt's first leg, and the effect of its entry is
not the cell's yet. -/
structure Adopted (c : Config) (a : Attempt) (w : World) : Prop where
  good : Good w
  cfg : w.cfg = c
  attempt : w.mem.attempt = some a
  leg : w.mem.leg = some (firstLeg c a)
  foreign : w.disk.ownEffect (entryEffectId c a) = false

def openPost (c : Config) (a : Attempt) : Except Exn Bool → World → Prop
  | .ok true, w => Opened c a (firstLeg c a) w
  | _, w => Good w

theorem Adopted.dispatched (h : Adopted c a w) : Dispatched a (firstLeg c a) w :=
  ⟨h.good.sound, h.good.idle.armed, h.good.idle.writing, h.good.idle.owed,
    h.attempt, h.leg, rfl⟩

theorem wp_entryReused (h : Adopted c a w) :
    wp Permits (entryReused (firstLeg c a)) (fun _ w' => Good w') w := by
  refine wp_outcome h.dispatched (.refused rfl rfl (.inl ?_)) ?_
    (by simp [h.good.idle.due])
    fun w₁ hw₁ hl₁ => ?_
  · exact h.good.sound.not_dispatched h.attempt h.leg rfl
  · rw [owes]
    split
    · simp [firstLeg, h.foreign]
    · exact h.good.idle.owed
  · refine wp_good_bind (frames_note _) hw₁ fun _ w₂ hw₂ hframe => ?_
    rw [wp_bind]
    refine wp_mono (wp_reportClosed hw₂ (hframe.leg.trans hl₁) (.inr (.inl rfl)) rfl
      (by dsimp only; decide)) ?_
    rintro (err | u) w₃ ⟨hw₃, -⟩
    · exact hw₃
    · exact wp_good (frames_beginClose _).keeps hw₃

theorem opened_prepared (h : Adopted c a w)
    (hp : Permits w (.prepare (entryEffectId c a) (entryPayload a c.role) true))
    (hlive : w.shadow = false) :
    Opened c a (firstLeg c a)
      (w.act (.prepare (entryEffectId c a) (entryPayload a c.role) true)) := by
  obtain ⟨hs, hm, hsteady, -⟩ := PrepareOwn.mid h.good hp
  refine ⟨hs, hm, h.cfg, h.attempt, h.leg, rfl, rfl, rfl, fun hsh => ?_,
    fun _ => journaledAs_prepare w _ _⟩
  have hsame : (w.act (.prepare (entryEffectId c a) (entryPayload a c.role) true)).shadow =
      w.shadow :=
    shadow_policy hsteady.policy
  rw [hsame, hlive] at hsh
  cases hsh

theorem opened_idle (h : Adopted c a w)
    (hpay : w.shadow = false →
      w.disk.journaledAs (entryEffectId c a) (entryPayload a c.role)) :
    Opened c a (firstLeg c a) w :=
  ⟨h.good.sound, h.good.idle.mid, h.cfg, h.attempt, h.leg, rfl, rfl, rfl,
    fun _ => ⟨h.good.idle.writing, h.foreign⟩, hpay⟩

theorem wp_prepareEntryEffect (h : Adopted c a w) :
    wp Permits (prepareEntryEffect (entryEffectId c a) a (firstLeg c a))
      (openPost c a) w := by
  simp only [prepareEntryEffect]
  rw [wp_bind, wp_get, next_ok]
  split
  · next hshadow =>
      rw [wp_pure]
      exact opened_idle h fun hlive => by rw [hlive] at hshadow; cases hshadow
  · next hlive =>
      rw [wp_bind, h.cfg]
      apply wp_prepare
      · intro hnone
        have hp : Permits w (.prepare (entryEffectId c a) (entryPayload a c.role) true) :=
          ⟨hnone, fun _ => ⟨⟨h.good.idle.writing, a, firstLeg c a, .entry,
            h.attempt, h.leg,
            by rw [h.cfg]; rfl, rfl, fun h => absurd h hlive⟩, fun t ht => nomatch ht⟩⟩
        rw [next_ok, wp_pure]
        exact ⟨hp, opened_prepared h hp (by simpa using hlive)⟩
      · rw [next_ok, wp_bind]
        refine wp_mono (wp_entryReused h) ?_
        rintro (err | u) w' hw'
        · exact hw'
        · exact (wp_pure _ _ _).2 hw'
      · intro row hrow hpayload
        rw [next_ok, wp_pure]
        exact opened_idle h fun _ => ⟨row, hrow, hpayload⟩

theorem Sound.rowless_foreign (h : Sound w) (hrow : w.disk.rowOf a.attemptId = none) :
    w.disk.ownEffect (entryEffectId c a) = false := by
  unfold Disk.ownEffect
  cases hget : w.disk.journal.get (entryEffectId c a) with
  | none => rfl
  | some r =>
      cases hown : r.own with
      | false => exact hown
      | true =>
          obtain ⟨i, l, hi, hl⟩ := h.journal.own _ r hget hown
          have hid : a.attemptId = i := Option.some.inj hi
          rw [← hid, h.leg_row_none hrow] at hl
          cases hl

/-- The cell just after it has stored the attempt, before it stores a leg. -/
structure Following (c : Config) (a : Attempt) (w : World) : Prop where
  good : Good w
  cfg : w.cfg = c
  attempt : w.mem.attempt = some a
  leg : w.mem.leg = none
  state : w.mem.state = .entering
  read : w.mem.read = none
  foreign : w.disk.ownEffect (entryEffectId c a) = false

theorem Following.emit {x : Action} (h : Following c a w) (hp : Permits w x)
    (hplain : Plain w (w.act x)) (hstate : (w.act x).mem.state = w.mem.state)
    (hread : (w.act x).mem.read = w.mem.read) : Following c a (w.act x) where
  good :=
    ⟨h.good.sound.act hp, idle_same h.good.idle hplain.armed hplain.writing hplain.owed
    hplain.due⟩
  cfg := hplain.cfg.trans h.cfg
  attempt := hplain.attempt.trans h.attempt
  leg := hplain.leg.trans h.leg
  state := hstate.trans h.state
  read := hread.trans h.read
  foreign := (ownEffect_journal hplain.journal _).trans h.foreign

/-- What the readiness checks say about the bookkeeping and the calendar. -/
theorem localReady_none (h : localReady w = none) :
    w.mem.needsHuman = none ∧ w.mem.recovering = false ∧ w.attemptUnresolved = false ∧
      w.script.blackout = none := by
  rw [localReady, firstRefusal_eq_none] at h
  refine ⟨?_, ?_, ?_, ?_⟩
  · simpa using refuseIf_eq_none.1 (h _ (List.mem_of_getElem? (i := 0) rfl))
  · exact refuseIf_eq_none.1 (h _ (List.mem_of_getElem? (i := 1) rfl))
  · exact refuseIf_eq_none.1 (h _ (List.mem_of_getElem? (i := 13) rfl))
  · exact Option.map_eq_none_iff.1 (h _ (List.mem_of_getElem? (i := 8) rfl))

theorem following_adopt (hw : Good w) (hp : Permits w (.adopt a)) :
    Following w.cfg a (w.act (.adopt a)) :=
  ⟨⟨hw.sound.act hp, idle_same hw.idle rfl rfl rfl rfl⟩, rfl, rfl,
    hw.sound.mem.leg_none hp.1, rfl, rfl, hw.sound.rowless_foreign hp.2.2.1⟩

theorem wp_firstLeg (h : Following c a w)
    (hrecovering : w.mem.recovering = false)
    (hintent : w.disk.desired = some ⟨w.mem.desired, some a.attemptId,
      w.mem.pairConfirmed⟩) :
    wp Permits (persistLeg (firstLeg c a)) (onOk fun _ w' => Adopted c a w') w := by
  have hp : Permits w (.saveLeg (firstLeg c a)) := by
    refine ⟨fun hdue => absurd (hdue.symm.trans h.good.idle.due) (by decide), a,
      h.attempt, ?_⟩
    simp only [h.leg]
    exact ⟨by rw [h.cfg], h.state, h.read, hrecovering, hintent⟩
  apply wp_persistLeg h.good.sound hp
  intro w' hs hsaved harmed hwriting howed hdue hjournal
  have howes : w.owes (firstLeg c a) = w.mem.owed :=
    owes_of_status fun old hold => by simp [h.leg] at hold
  exact ⟨⟨hs, idle_same h.good.idle harmed hwriting (howed.trans howes)
      (hdue.trans h.good.idle.due.symm)⟩,
    hsaved.cfg.trans h.cfg, hsaved.attempt.trans h.attempt, hsaved.leg,
    (ownEffect_journal hjournal _).trans h.foreign⟩

theorem wp_openAttempt (hw : Good w) (hp : Permits w (.adopt a)) (event : String) :
    wp Permits (openAttempt a event) (openPost w.cfg a) w := by
  simp only [openAttempt, bumpStateVersion, note]
  rw [wp_bind, wp_emit, next_ok, wp_bind, wp_emit, next_ok, wp_bind, wp_emit,
    next_ok, wp_bind, wp_get, next_ok, wp_bind, wp_emit, next_ok, wp_bind,
    wp_emit, next_ok]
  have h₁ := following_adopt hw hp
  have h₂ :=
    h₁.emit (x := .bump) trivial ⟨rfl, rfl, rfl, rfl, rfl, rfl, rfl, rfl, rfl⟩ rfl rfl
  have h₃ := h₂.emit (x := .transition (.note "timing:attempt_persisted")) trivial
    ⟨rfl, rfl, rfl, rfl, rfl, rfl, rfl, rfl, rfl⟩ rfl rfl
  have hactive : Permits _ (.saveDesired .active w.mem.pairConfirmed) :=
    ⟨fun hnone => absurd (h₃.attempt.symm.trans hnone) (by simp), .inl,
      fun _ => .inr (localReady_none hp.2.2.2.2.2.2).2.2.2⟩
  have h₄ := h₃.emit hactive
    ⟨rfl, rfl, rfl, rfl, rfl, rfl, rfl, rfl, rfl⟩ rfl rfl
  have h₅ := h₄.emit (x := .transition (.note event)) trivial
    ⟨rfl, rfl, rfl, rfl, rfl, rfl, rfl, rfl, rfl⟩ rfl rfl
  refine ⟨hp, trivial, trivial, hactive, trivial, ?_⟩
  refine wp_seq (wp_firstLeg h₅ (localReady_none hp.2.2.2.2.2.2).2.1 rfl) fun _ w₆ h₆ => ?_
  rw [wp_bind]
  refine wp_mono (wp_prepareEntryEffect h₆) ?_
  rintro (err | ready) w₇ h₇
  · exact h₇
  rw [next_ok]
  cases ready with
  | false => exact (wp_pure _ _ _).2 h₇
  | true =>
      have hopened : Opened w.cfg a (firstLeg w.cfg a) w₇ := h₇
      refine wp_seq (wp_opened_persist hopened (legStep_refl hopened.legOk) rfl rfl rfl)
        fun _ w₈ h₈ => ?_
      exact (wp_pure _ _ _).2 h₈

/-! ## The leader's decision -/

theorem permits_relayAttempt (h : Opened c a l w) (hrole : c.role = .leader)
    (hrelayed : l.attemptRelayed = true) : Permits w (.relay (.attempt a)) :=
  ⟨h.cfg ▸ hrole, h.attempt, l, h.leg, hrelayed, h.undispatched, h.held⟩

/-- From the prepared entry to its write, on the leader. -/
theorem wp_launch (h : Opened c a (firstLeg c a) w) (hrole : c.role = .leader) :
    wp Permits (do
      let l ← startTimer a (firstLeg c a)
      let l := { l with attemptRelayed := true }
      persistLeg l
      note "attempt_relay_intent"
      emit (.relay (.attempt a))
      note "timing:attempt_dispatched"
      sendEntry a l) (fun _ w' => Good w') w := by
  refine wp_seq (wp_startTimer h) ?_
  rintro l w₁ ⟨h₁, hl⟩
  have hstep : LegStep w₁ a l { l with attemptRelayed := true } :=
    { legStep_refl (w := w₁) (a := a) h₁.legOk with
      relayed := fun _ => rfl, entry := .inl rfl, verified := .inl }
  refine wp_seq (wp_opened_persist h₁ hstep h₁.pending h₁.held h₁.undispatched)
    fun _ w₂ h₂ => ?_
  refine wp_seq (wp_opened_note _ h₂) fun _ w₃ h₃ => ?_
  have hplain : Plain w₃ (w₃.act (.relay (.attempt a))) :=
    ⟨rfl, rfl, rfl, rfl, rfl, rfl, rfl, rfl, rfl⟩
  refine wp_seq (wp_opened_emit h₃ (permits_relayAttempt h₃ hrole rfl) hplain)
    fun _ w₄ h₄ => ?_
  refine wp_seq (wp_opened_note _ h₄) fun _ w₅ h₅ => ?_
  exact wp_sendEntry h₅

theorem wp_maybeCreateAttempt (hw : Good w) (hmay : mayCreate w = true) :
    wp Permits maybeCreateAttempt (fun _ w' => Good w') w := by
  simp only [mayCreate, Bool.and_eq_true, decide_eq_true_eq,
    Option.isNone_iff_eq_none] at hmay
  obtain ⟨⟨⟨hrole, -⟩, hnone⟩, -⟩ := hmay
  simp only [maybeCreateAttempt]
  rw [wp_bind, wp_get, next_ok]
  split
  · next decided policy hdecision hpolicy =>
      split
      · exact (wp_pure _ _ _).2 hw
      · next hready =>
          push Not at hready
          obtain ⟨hhuman, -, -, -⟩ := localReady_none hready
          have hp : Permits w (.adopt { decided with
              routeId := w.cfg.routeId, policyHash := policy.hash }) := by
            refine ⟨hnone, hhuman, hw.sound.mem.fresh decided hdecision hrole, rfl, ?_,
              ⟨policy, hpolicy, rfl⟩, hready⟩
            intro hfollower
            simp [hrole] at hfollower
          rw [wp_bind]
          refine wp_mono (wp_openAttempt hw hp _) ?_
          rintro (err | ready) w₁ h₁
          · exact h₁
          rw [next_ok]
          cases ready with
          | false => exact (wp_pure _ _ _).2 h₁
          | true => exact wp_launch h₁ hrole
  · exact (wp_pure _ _ _).2 hw

/-! ## The follower's admission -/

theorem policyRefusal_none (h : policyRefusal w a = none) :
    ∃ policy, w.mem.policy = some policy ∧ a.policyHash = policy.hash := by
  unfold policyRefusal at h
  cases hp : w.mem.policy with
  | none => simp [hp] at h
  | some policy => exact ⟨policy, rfl, by simpa [hp, refuseIf] using h⟩

theorem admission_none (hs : Sound w) (h : attemptAdmissionReason w a = none) :
    w.mem.attempt = none ∧ w.mem.needsHuman = none ∧ a.routeId = w.cfg.routeId ∧
      (∃ policy, w.mem.policy = some policy ∧ a.policyHash = policy.hash) ∧
      localReady w = none := by
  rw [attemptAdmissionReason, firstRefusal_eq_none] at h
  have hroute : a.routeId = w.cfg.routeId := by
    simpa using refuseIf_eq_none.1 (h _ (List.mem_of_getElem? (i := 0) rfl))
  have hready : localReady w = none := by
    simpa using h _ (List.mem_of_getElem? (i := 7) rfl)
  have hpolicy : policyRefusal w a = none := h _ (List.mem_of_getElem? (i := 4) rfl)
  obtain ⟨hhuman, hrec, hun, -⟩ := localReady_none hready
  refine ⟨?_, hhuman, hroute, policyRefusal_none hpolicy, hready⟩
  by_contra hsome
  rcases hs.mem.busy hsome with ⟨hempty, hidle⟩ | ⟨-, hrec'⟩
  · obtain ⟨b, hb⟩ := Option.ne_none_iff_exists'.1 hsome
    simp [World.attemptUnresolved, hb, hempty, hidle] at hun
  · rw [hrec] at hrec'
    cases hrec'

theorem rowOf_refuse (hw : Good w) {reason : String} (hp : Permits w (.refuse a reason)) :
    (w.act (.refuse a reason)).disk.rowOf a.attemptId =
      some ⟨a, w.mem.aux.now, some (.admissionRejected reason)⟩ := by
  exact rowOf_eq_some (hw.sound.act hp).disk.ids
    (List.mem_append_right _ (List.mem_singleton.2 rfl))

theorem wp_refuse (hw : Good w) {reason : String} (hp : Permits w (.refuse a reason)) :
    wp Permits (do
      emit (.refuse a reason)
      note "attempt_rejected"
      reportLegStatus { status := .rejected, attemptId := some a.attemptId,
                        reason := ⟨reason, false⟩ }) (fun _ w' => Good w') w := by
  rw [wp_bind, wp_emit, next_ok]
  refine ⟨hp, wp_good_bind (w := w.act (.refuse a reason)) (frames_note _)
    ⟨hw.sound.act hp, idle_same hw.idle rfl rfl rfl rfl⟩ fun _ w₂ hw₂ hframe => ?_⟩
  have hrow : w₂.disk.rowOf a.attemptId =
      some ⟨a, w.mem.aux.now, some (.admissionRejected reason)⟩ := by
    rw [Disk.rowOf, hframe.attempts]
    exact rowOf_refuse hw hp
  exact wp_mono (wp_reportTerminal hw₂ rfl (by dsimp only; decide) hrow (by simp))
    fun _ _ hr => hr.1

/-- A known attempt id is answered, never opened. -/
theorem wp_known {q : AttemptRow} (hw : Good w)
    (hasked : w.script.delivered = some (.attempt a))
    (hq : w.disk.rowOf a.attemptId = some q) :
    wp Permits (if q.attempt ≠ a then do
        note "attempt_rejected"
        reportLegStatus { status := .rejected, attemptId := some a.attemptId,
                          reason := ⟨"attempt ID reused with different content", false⟩ }
      else do
        note "attempt_duplicate_ignored"
        replayLegStatus a) (fun _ w' => Good w' ∧ Frame w w') w := by
  split
  · next hne =>
      rw [wp_bind]
      refine wp_mono (frames_note _ w hw) ?_
      rintro (err | u) w₁ ⟨hw₁, hframe⟩
      · exact ⟨hw₁, hframe⟩
      rw [next_ok]
      refine wp_mono (wp_reportLegStatus hw₁ _ (by dsimp only; decide) fun i hi => ?_)
        fun _ _ hr =>
        ⟨hr.1, hframe.trans hr.2⟩
      have hi' : a.attemptId = i := by simpa using hi
      refine .reused a q (hframe.delivered.trans hasked) hi' ?_ hne
        (by simp [StatusReport.payload])
      show w₁.disk.rowOf i = some q
      rw [Disk.rowOf, hframe.attempts, ← hi']
      exact hq
  · exact frames_bind (frames_note _) (fun _ => frames_replayLegStatus a) w hw

theorem wp_handleAttempt (hw : Good w) (hasked : w.script.delivered = some (.attempt a)) :
    wp Permits (handleAttempt a) (fun _ w' => Good w') w := by
  simp only [handleAttempt]
  rw [wp_bind, wp_get, next_ok]
  split
  · exact (wp_pure _ _ _).2 hw
  · next hrole =>
      have hfollower : w.cfg.role = .follower := by simpa using hrole
      cases hrow : w.disk.rowOf a.attemptId with
      | some q => exact wp_mono (wp_known hw hasked hrow) fun _ _ hr => hr.1
      | none =>
          dsimp only
          cases hreason : attemptAdmissionReason w a with
          | some reason => exact wp_refuse hw ⟨hfollower, hrow, hasked⟩
          | none =>
              obtain ⟨hnone, hhuman, hroute, hpolicy, hready⟩ :=
                admission_none hw.sound hreason
              have hp : Permits w (.adopt a) :=
                ⟨hnone, hhuman, hrow, hroute, fun _ => hasked, hpolicy, hready⟩
              dsimp only
              rw [wp_bind]
              refine wp_mono (wp_openAttempt hw hp _) ?_
              rintro (err | ready) w₁ h₁
              · exact h₁
              rw [next_ok]
              cases ready with
              | false => exact (wp_pure _ _ _).2 h₁
              | true =>
                  refine wp_seq (wp_startTimer h₁) ?_
                  rintro l w₂ ⟨h₂, -⟩
                  exact wp_sendEntry h₂

end PairCell
