import PairCell.Safe.Containment

/-!
# Broker reads keep to the discipline

A read, the snapshot it applies and the containment writes that snapshot asks
for call each other; the induction is on the nesting the interpreter allows.
-/

namespace PairCell

open Lib World

variable {w : World} {a : Attempt} {l : Leg} {s : Snapshot} {e : EffectId} {p : Payload}

/-! ## The effects the leg names -/

/-- Every effect the leg names besides the entry is resolved. -/
def NamesResolved (w : World) (l : Leg) : Prop :=
  ∀ e, l.protectionEffectId = some e ∨ l.closeEffectId = some e →
    w.disk.unresolved e = false

theorem NamesResolved.quiet {w' : World} (h : NamesResolved w l)
    (hq : ∀ x, w'.disk.unresolved x = true → w.disk.unresolved x = true) :
    NamesResolved w' l := by
  intro e he
  cases hu : w'.disk.unresolved e with
  | false => rfl
  | true => exact (hq e hu).symm.trans (h e he)

theorem wp_observeName (e? : Option EffectId) (hw : Good w) :
    wp Permits (recordEffectObservation e?)
      (onOk fun _ w' => Good w' ∧ Frame w w' ∧ ∀ e, e? = some e →
        w'.disk.unresolved e = false)
      w := by
  cases e? with
  | none => exact (wp_pure _ _ _).2 ⟨hw, Frame.refl w, by simp⟩
  | some e =>
      refine wp_mono (wp_recordEffectObservation hw.sound (hw.idle.owing e)) ?_
      rintro (err | u) w' h
      · exact h.elim
      · exact ⟨h.1, h.2.1, fun x hx => Option.some.inj hx ▸ h.2.2⟩

/-- The leg's own position, or the account has none at all. -/
def LegSettled (s : Snapshot) (w : World) : Prop :=
  s.positions = [] → ∀ l, w.mem.leg = some l →
    openStatus l.entryStatus = false ∧ NamesResolved w l

theorem ownedPosition_nil (h : s.positions = []) : ownedPosition l s = none := by
  unfold ownedPosition
  cases l.ticket <;> simp [h]

theorem wp_applyTicketEvidence {verified : Bool} (hw : Good w)
    (ha : w.mem.attempt = some a) (hl : w.mem.leg = some l) (hsettled : EntrySettled s w) :
    wp Permits (applyTicketEvidence a l verified s)
      (fun _ w' => Good w' ∧ Sighted w w' ∧ LegSettled s w') w := by
  unfold applyTicketEvidence
  cases hown : ownedPosition l s with
  | some p =>
      have hpos : s.positions ≠ [] := by
        intro hnil
        simp [ownedPosition_nil hnil] at hown
      have hok := hw.sound.legOk ha hl
      suffices h : wp Permits _ (fun _ w' => Good w' ∧ Sighted w w') w from
        wp_mono h fun _ _ hr => ⟨hr.1, hr.2, fun h => absurd h hpos⟩
      dsimp only
      refine wp_seq (wp_observeName _ hw) ?_
      rintro u w₁ ⟨hw₁, hframe, -⟩
      split
      · simp only [wp_bind, wp_get, next_ok]
        split
        · next hsame =>
            have hok₁ : LegOk w₁.cfg a.attemptId l := hframe.cfg ▸ hok
            have hp :
                Permits w₁
                  (.saveLeg { l with observedSl := p.sl, observedTp := p.tp }) := by
              refine permits_saveLeg hw₁.idle.due (hframe.attempt.trans ha)
                (hframe.leg.trans hl) ?_
              exact { legStep_refl (w := w₁) (a := a) hok₁ with
                verified := .inl
                entry := .inl rfl
                observed := .inr (.inr (.inr (Bool.and_eq_true_iff.1 hsame))) }
            refine wp_persistLeg_good hw₁ hp (owes_of_status fun old hold hopen => ?_)
              fun w₂ hw₂ hsaved => ⟨hw₂, hframe.sighted.trans hsaved.sighted⟩
            obtain rfl : l = old := Option.some.inj ((hframe.leg.trans hl).symm.trans hold)
            exact hopen
        · exact (Frames.sights (frames_bind (frames_note _) fun _ =>
            frames_beginClose _)).from
            hw₁ hframe.sighted
      · exact (frames_pure ()).sights.from hw₁ hframe.sighted
  | none =>
      dsimp only
      have hend : ∀ w', Good w' → Frame w w' → NamesResolved w' l →
          Good w' ∧ Sighted w w' ∧ LegSettled s w' := by
        intro w' hw' hframe hres
        refine ⟨hw', hframe.sighted, fun hpos l' hl' => ?_⟩
        obtain rfl : l = l' := Option.some.inj (hl.symm.trans (hframe.leg.symm.trans hl'))
        exact ⟨hsettled hpos l hl, hres⟩
      refine wp_seq (wp_observeName l.protectionEffectId hw) ?_
      rintro u w₁ ⟨hw₁, hframe₁, hprotection⟩
      refine wp_seq (wp_observeName l.closeEffectId hw₁) ?_
      rintro u w₂ ⟨hw₂, hframe₂, hclose⟩
      have hres : NamesResolved w₂ l := by
        intro e he
        rcases he with he | he
        · cases hu : w₂.disk.unresolved e with
          | false => rfl
          | true => exact (hframe₂.quiet e hu).symm.trans (hprotection e he)
        · exact hclose e he
      have hrest : Frames (if l.entryStatus = .filled ∧ l.emptyVerified = false then
          beginClose ⟨"owned_ticket_disappeared", false⟩ else pure ()) := by
        split
        · exact frames_beginClose _
        · exact frames_pure ()
      refine wp_mono (hrest w₂ hw₂) ?_
      rintro r w₃ ⟨hw₃, hframe₃⟩
      exact hend w₃ hw₃ ((hframe₁.trans hframe₂).trans hframe₃) (hres.quiet hframe₃.quiet)

/-- What the leg's part of a snapshot leaves, also when it raises. -/
def evidencePost (s : Snapshot) (w : World) : Except Exn Unit → World → Prop
  | .ok _, w' => Good w' ∧ Sighted w w' ∧ LegSettled s w'
  | .error _, w' => Good w' ∧ Sighted w w'

theorem evidencePost.after {r : Except Exn Unit} {w' w'' : World} (h : Sighted w w')
    (hr : Good w'' ∧ Sighted w' w'' ∧ LegSettled s w'') : evidencePost s w r w'' := by
  cases r with
  | error err => exact ⟨hr.1, h.trans hr.2.1⟩
  | ok u => exact ⟨hr.1, h.trans hr.2.1, hr.2.2⟩

theorem wp_applyLegEvidence (hw : Good w) (hread : w.mem.read = some s) :
    wp Permits (applyLegEvidence s) (evidencePost s w) w := by
  unfold applyLegEvidence
  rw [wp_bind]
  refine wp_mono (wp_reconcileEntryEffectState hw) ?_
  rintro (err | u) w₁ ⟨hw₁, hsight₁, hdecided, -⟩
  · exact ⟨hw₁, hsight₁⟩
  have hvacuous : w₁.mem.leg = none → evidencePost s w (.ok ()) w₁ := fun hnone =>
    ⟨hw₁, hsight₁, fun _ l hl => by simp [hnone] at hl⟩
  simp only [next_ok, wp_bind, wp_get]
  cases ha : w₁.mem.attempt with
  | none => exact (wp_pure _ _ _).2 (hvacuous (hw₁.sound.mem.leg_none ha))
  | some a =>
      cases hl : w₁.mem.leg with
      | none => exact (wp_pure _ _ _).2 (hvacuous hl)
      | some l =>
          dsimp only
          rw [wp_bind]
          refine wp_mono (wp_applyEntryEvidence hw₁ ha hl (hsight₁.read.trans hread)
            (hdecided l hl)) ?_
          rintro (err | u) w₂ ⟨hw₂, hsight₂, hsettled⟩
          · exact ⟨hw₂, hsight₁.trans hsight₂⟩
          have ha₂ : w₂.mem.attempt = some a := hsight₂.attempt.trans ha
          simp only [next_ok, wp_bind, wp_get]
          cases hl₂ : w₂.mem.leg with
          | none =>
              exact (wp_pure _ _ _).2 ⟨hw₂, hsight₁.trans hsight₂,
                fun _ l' h => by simp [hl₂] at h⟩
          | some l₂ =>
              dsimp only
              split
              · next hticket =>
                  rw [wp_pure]
                  refine evidencePost.after (hsight₁.trans hsight₂)
                    ⟨hw₂, Sighted.refl w₂, fun hpos l' hl' => ⟨hsettled hpos l' hl', ?_⟩⟩
                  obtain rfl : l₂ = l' := Option.some.inj (hl₂.symm.trans hl')
                  obtain ⟨hprot, hclose, -⟩ := (hw₂.sound.legOk ha₂ hl₂).unticketed hticket
                  intro e he
                  simp [hprot, hclose] at he
              · refine wp_mono (wp_applyTicketEvidence hw₂ ha₂ hl₂ hsettled) ?_
                exact fun _ _ hr => evidencePost.after (hsight₁.trans hsight₂) hr

/-! ## Containment writes -/

theorem PrepareOwn.mid (hw : Good w) (hp : Permits w (.prepare e p true)) :
    Sound (w.act (.prepare e p true)) ∧ MidWrite e (w.act (.prepare e p true)) ∧
      Steady w (w.act (.prepare e p true)) ∧
      SameEntries w (w.act (.prepare e p true)) := by
  refine ⟨hw.sound.act hp, ⟨hw.idle.armed, hw.idle.owed,
    .inr ⟨rfl, ⟨p, .prepared, none, true⟩, ?_, rfl⟩, hw.idle.due⟩,
    ⟨rfl, rfl, rfl, rfl, rfl, rfl, rfl, rfl⟩, sameEntries_of_sent rfl⟩
  show (w.disk.journal.set e _).get e = _
  rw [Table.get_set_self]

/-- The scheduler may be asked for the request that was journaled. -/
theorem permits_turn (hpay : w.disk.journaledAs e p) (hask : Asks w p) (exhausted : Bool) :
    Permits w (.turn e exhausted) := ⟨p, hpay, hask⟩

theorem journaledAs_prepare (w : World) (e : EffectId) (p : Payload) :
    (w.act (.prepare e p true)).disk.journaledAs e p :=
  ⟨_, Table.get_set_self _ _ _, rfl⟩

theorem Idle.mid (h : Idle w) : MidWrite e w := ⟨h.armed, h.owed, .inl h.writing, h.due⟩

/-- A stop about an effect of the attempt in memory. -/
theorem wp_stopEffect {why : ContainmentStop} (hw : Good w) (ha : w.mem.attempt = some a)
    (he : e.attempt? = some a.attemptId) :
    wp Permits (setNeedsHuman (.containment e why))
      (fun _ w' => Good w' ∧ Later w w') w := by
  refine wp_setNeedsHuman hw fun i hi b hb => ?_
  obtain rfl : a = b := Option.some.inj (ha.symm.trans hb)
  exact Option.some.inj (he.symm.trans hi)

theorem wp_defer {now : Nat} (hw : Good w) (ha : w.mem.attempt = some a)
    (he : e.attempt? = some a.attemptId) :
    wp Permits (modifyAux fun x =>
      { x with replayDeferred := x.replayDeferred ++ [(e, now)] })
        (fun _ w' => Good w' ∧ Later w w') w := by
  have hp : Permits w (.setAux { w.mem.aux with
      replayDeferred := w.mem.aux.replayDeferred ++ [(e, now)] }) := by
    refine ⟨le_rfl, fun r hr => ?_⟩
    rcases List.mem_append.1 hr with hr | hr
    · exact hw.sound.mem.deferred r hr
    · obtain rfl := List.mem_singleton.1 hr
      exact ⟨a.attemptId, he, by simp [attemptId?, ha]⟩
  simp only [modifyAux, wp_bind, wp_get, next_ok, wp_emit]
  exact ⟨hp, ⟨hw.sound.act hp, idle_same hw.idle rfl rfl rfl rfl⟩, .inl rfl⟩

/-- A write of the cell, and what follows once it has returned. -/
theorem wp_write_bind {f : BrokerWriteResult → M Unit} {w₀ : World} (hs : Sound w)
    (hm : MidWrite e w) (hsteady : Steady w₀ w) (hpay : w.disk.journaledAs e p)
    (hask : Asks w p) (hentry : p.isEntry = true → EntryDispatch w e p)
    (hf : ∀ out w', WriteEnd e p w out w' → Steady w₀ w' →
      wp Permits (f out) (fun _ w'' => Good w'' ∧ Later w' w'') w') :
    wp Permits (runBrokerWrite e p >>= f) (fun _ w'' => Good w'' ∧ Later w₀ w'') w := by
  rw [wp_bind]
  refine wp_mono (wp_runBrokerWrite hs hm hpay (permits_turn hpay hask) hentry) ?_
  rintro (err | out) w' h
  · exact ⟨h.1, (hsteady.trans h.2).later⟩
  · have hsteady' := hsteady.trans h.steady
    rw [next_ok]
    exact wp_mono (hf out w' h hsteady') fun _ _ hr => ⟨hr.1, hsteady'.later.trans hr.2⟩

/-- The replay of a receipt that was recorded earlier. -/
theorem wp_replay {read : M Unit} (hread : Keeps read) (hw : Good w)
    (ha : w.mem.attempt = some a) (he : e.attempt? = some a.attemptId) :
    wp Permits (do
      let w ← get
      match Journal.evidence w.disk e with
      | .error _ => setNeedsHuman (.containment e .invalidReplayEvidence)
      | .ok retcode =>
          if successRetcode retcode then do
            note "containment_receipt_recovered"
            modifyAux fun x => { x with
              replayDeferred := x.replayDeferred.filter fun r => decide (r.1 ≠ e) }
          else if (w.mem.aux.replayDeferred.map Prod.fst).contains e then pure ()
          else do
            let now ← monotonic
            modifyAux fun x => { x with replayDeferred := x.replayDeferred ++ [(e, now)] }
            note "containment_receipt_reconciliation_pending"
            read) (fun _ w' => Good w' ∧ Later w w') w := by
  simp only [wp_bind, wp_get, next_ok]
  split
  · exact wp_stopEffect hw ha he
  · split
    · refine (Frames.keeps (frames_bind (frames_note _) fun _ => ?_)) w hw
      exact frames_modifyAux (fun _ => le_rfl) fun _ _ hr => (List.mem_filter.1 hr).1
    · split
      · exact keeps_pure () w hw
      · refine wp_frames_bind frames_monotonic hw fun now w₁ hw₁ hframe => ?_
        refine wp_keeps_bind (wp_defer hw₁ (hframe.attempt.trans ha) he)
          fun _ w₂ hw₂ _ => ?_
        exact keeps_bind (frames_note _).keeps (fun _ => hread) w₂ hw₂

/-- The write itself, from a state in which its effect is prepared or
nothing waits for it. -/
theorem wp_emergencyWrite {read : M Unit} {w₀ : World} (hread : Keeps read) (hs : Sound w)
    (hm : MidWrite e w) (hsteady : Steady w₀ w) (ha : w₀.mem.attempt = some a)
    (he : e.attempt? = some a.attemptId) (hp : p.isEntry = false)
    (hpay : w.disk.journaledAs e p) (hask : Asks w p) :
    wp Permits (do
      let out ← runBrokerWrite e p
      if awaitPostFailureContainmentObservation out then
        note "containment_receipt_reconciliation_pending"
      else if out.category ≠ .completed then
        setNeedsHuman (.containment e (.ended out.category))
      else read) (fun _ w' => Good w' ∧ Later w₀ w') w := by
  refine wp_write_bind hs hm hsteady hpay hask (by simp [hp])
    fun out w₂ hend hsteady₂ => ?_
  have hw₂ := hend.good (.inl hp)
  split
  · exact (frames_note _).keeps w₂ hw₂
  · split
    · exact wp_stopEffect hw₂ (hsteady₂.attempt.trans ha) he
    · exact hread w₂ hw₂

theorem wp_journaledEmergencyWrite {read : M Unit} (kind : EffectKind) (hread : Keeps read)
    (hw : Good w) (ha : w.mem.attempt = some a) (hl : w.mem.leg = some l)
    (he : e = w.cfg.effect a kind) (hnamed : EffectNamed l e kind) (hp : p.isEntry = false)
    (hask : Asks w p) :
    wp Permits (journaledEmergencyWrite read e p)
      (fun _ w' => Good w' ∧ Later w w') w := by
  have hid : e.attempt? = some a.attemptId := by rw [he]; rfl
  simp only [journaledEmergencyWrite, wp_bind, wp_get, next_ok]
  split
  · exact hread w hw
  · next hlive =>
    rw [wp_bind]
    apply wp_prepare
    · intro hnone
      have hperm : Permits w (.prepare e p true) :=
        ⟨hnone, fun _ => ⟨⟨hw.idle.writing, a, l, kind, ha, hl, he, hnamed,
          fun h => absurd h hlive⟩, hask⟩⟩
      obtain ⟨hs, hm, hsteady, -⟩ := PrepareOwn.mid hw hperm
      refine ⟨hperm, ?_⟩
      rw [next_ok, bumpStateVersion, wp_bind, wp_emit, next_ok]
      exact ⟨trivial, wp_emergencyWrite hread (hs.act (a := .bump) trivial)
        ⟨hm.armed, hm.owed, hm.writing, hm.due⟩
        (hsteady.trans ⟨rfl, rfl, rfl, rfl, rfl, rfl, rfl, rfl⟩) ha hid hp
        (journaledAs_prepare w e p) hask⟩
    · exact wp_stopEffect hw ha hid
    · intro row hrow hpayload
      rw [next_ok, bumpStateVersion, wp_bind, wp_emit, next_ok]
      have hw₁ : Good (w.act .bump) :=
        ⟨hw.sound.act (a := .bump) trivial, idle_same hw.idle rfl rfl rfl rfl⟩
      have ha₁ : (w.act .bump).mem.attempt = some a := ha
      refine ⟨trivial, ?_⟩
      cases row.state with
      | prepared =>
          exact wp_emergencyWrite hread hw₁.sound hw₁.idle.mid
            ⟨rfl, rfl, rfl, rfl, rfl, rfl, rfl, rfl⟩ ha hid hp
            ⟨row, hrow, hpayload⟩ hask
      | sendStarted => exact wp_stopEffect hw₁ ha₁ hid
      | receipt => exact wp_replay hread hw₁ ha₁ hid
      | observed => exact wp_replay hread hw₁ ha₁ hid

/-! ## Convergence -/

theorem ownedPosition_ticket {q : Position} (h : ownedPosition l s = some q) :
    l.ticket = some q.text := by
  unfold ownedPosition at h
  cases ht : l.ticket with
  | none => simp [ht] at h
  | some t =>
      simp only [ht] at h
      have hfound := List.find?_some h
      rw [of_decide_eq_true hfound]

theorem wp_closeOwned {read : M Unit} {q : Position} (hread : Keeps read) (hw : Good w)
    (ha : w.mem.attempt = some a) (hl : w.mem.leg = some l)
    (hq : ownedPosition l s = some q) :
    wp Permits (closeOwned read a l q) (fun _ w' => Good w' ∧ Later w w') w := by
  have hp : Permits w (.memLeg { l with
      closeEffectId := some (w.cfg.effect a (.close q.text)) }) :=
    ⟨a, l, ha, hl, .inr ⟨q.text, ownedPosition_ticket hq, rfl⟩⟩
  simp only [closeOwned]
  rw [wp_bind, wp_get, next_ok, wp_bind, wp_emit, next_ok]
  refine ⟨hp, wp_mono (wp_journaledEmergencyWrite (a := a) (.close q.text) hread
    ⟨hw.sound.act hp, idle_same hw.idle rfl rfl rfl rfl⟩ ha rfl rfl rfl rfl ?_) ?_⟩
  · rintro t ⟨⟩
    exact .inl ⟨_, rfl, ownedPosition_ticket hq⟩
  exact fun _ _ hr => ⟨hr.1, hr.2⟩

theorem wp_reportEmpty (hw : Good w) (hl : w.mem.leg = some l)
    (hempty : l.emptyVerified = true) :
    wp Permits (reportEmpty a) (fun _ w' => Good w' ∧ Frame w w') w := by
  simp only [reportEmpty, wp_bind, wp_get, next_ok]
  exact wp_reportClosed hw hl (.inl hempty) rfl (by dsimp only; decide)

theorem wp_verifyEmpty (hw : Good w) (ha : w.mem.attempt = some a)
    (hl : w.mem.leg = some l) (hread : w.mem.read = some s) (hpos : s.positions = [])
    (hord : s.orders = []) (hsettled : LegSettled s w) :
    wp Permits (verifyEmpty a l) (fun _ w' => Good w' ∧ Later w w') w := by
  obtain ⟨hopen, hres⟩ := hsettled hpos l hl
  have hok := hw.sound.legOk ha hl
  unfold verifyEmpty
  split
  · exact keeps_pure () w hw
  · have hp : Permits w (.saveLeg { l with emptyVerified := true }) := by
      refine permits_saveLeg hw.idle.due ha hl ?_
      exact { legStep_refl (w := w) (a := a) hok with
        empty := fun _ => rfl
        entry := .inl rfl
        verified := fun _ => .inr ⟨hopen, ⟨s, hread, hpos, hord⟩, hres⟩ }
    rw [wp_bind]
    refine wp_persistLeg_good hw hp (owes_of_status fun old hold h => ?_) fun w₁
      hw₁ hsaved => ?_
    · obtain rfl : l = old := Option.some.inj (hl.symm.trans hold)
      exact h
    · have hrest : wp Permits (do
          note "empty_verified"
          emit (.setState .convergingEmpty)
          reportEmpty a
          maybeFinalizeEmpty) (fun _ w' => Good w' ∧ Later w₁ w') w₁ := by
        refine wp_frames_bind (frames_note _) hw₁ fun _ w₂ hw₂ hframe => ?_
        have hstate : Permits w₂ (.setState .convergingEmpty) :=
          ⟨by decide, by decide, (nomatch ·)⟩
        rw [wp_bind, wp_emit, next_ok]
        refine ⟨hstate, ?_⟩
        have hw₃ : Good (w₂.act (.setState .convergingEmpty)) :=
          ⟨hw₂.sound.act hstate, idle_same hw₂.idle rfl rfl rfl rfl⟩
        have hl₃ : (w₂.act (.setState .convergingEmpty)).mem.leg =
            some { l with emptyVerified := true } := hframe.leg.trans hsaved.leg
        refine wp_mono (wp_keeps_bind (w := w₂.act (.setState .convergingEmpty))
          (wp_mono (wp_reportEmpty hw₃ hl₃ rfl) fun _ _ hr => ⟨hr.1, hr.2.later⟩)
          fun _ w' hw' _ => keeps_maybeFinalizeEmpty w' hw') ?_
        exact fun _ _ hr => ⟨hr.1, hr.2⟩
      rw [next_ok]
      exact wp_mono hrest fun _ _ hr => ⟨hr.1, Later.trans (.inl hsaved.attempt) hr.2⟩

theorem wp_advanceConvergence {read : M Unit} (hread : Keeps read) (hw : Good w)
    (hsnap : w.mem.read = some s) (hsettled : LegSettled s w) :
    wp Permits (advanceConvergence read s) (fun _ w' => Good w' ∧ Later w w') w := by
  simp only [advanceConvergence, wp_bind, wp_get, next_ok]
  split
  · next a l ha hl =>
      split
      · next o ho =>
          simp only [cancelOwned, wp_bind, wp_get, next_ok]
          refine wp_journaledEmergencyWrite (.cancel o.text) hread hw ha hl rfl
            trivial rfl ?_
          have hsymbol := List.find?_some ho
          rintro t ⟨⟩
          exact .inr ⟨a, s, o, ha, hsnap, List.mem_of_find?_eq_some ho,
            of_decide_eq_true hsymbol, rfl⟩
      · split
        · next q hq =>
            split
            · exact keeps_pure () w hw
            · exact wp_closeOwned hread hw ha hl hq
        · split
          · refine wp_setNeedsHuman hw fun i hi b hb => ?_
            obtain rfl : a = b := Option.some.inj (ha.symm.trans hb)
            exact Option.some.inj hi
          · next hnone =>
              push Not at hnone
              exact wp_verifyEmpty hw ha hl hsnap hnone.1 hnone.2 hsettled
  · exact keeps_pure () w hw

/-! ## Reads -/

theorem wp_applyBrokerSnapshot {read : M Unit} {s? : Option Snapshot} (hread : Keeps read)
    (hw : Good w) (hsnap : w.mem.read = s?) :
    wp Permits (applyBrokerSnapshot read s?) (fun _ w' => Good w' ∧ Later w w') w := by
  unfold applyBrokerSnapshot
  cases s? with
  | none => exact keeps_pure () w hw
  | some s =>
      refine wp_frames_bind (frames_modifyAux (fun _ => le_rfl) fun _ _ hr => hr) hw
        fun _ w₁ hw₁ hframe => ?_
      simp only [wp_bind, wp_get, next_ok]
      split
      · rw [wp_bind]
        refine wp_mono (wp_applyLegEvidence hw₁ (hframe.read.trans hsnap)) ?_
        rintro (err | u) w₂ h
        · exact ⟨h.1, .inl h.2.attempt⟩
        · obtain ⟨hw₂, hsight, hsettled⟩ := h
          have hlater : Later w₁ w₂ := .inl hsight.attempt
          simp only [next_ok, wp_bind, wp_get]
          split
          · refine wp_mono (wp_advanceConvergence hread hw₂
              (hsight.read.trans (hframe.read.trans hsnap)) hsettled) ?_
            exact fun _ _ hr => ⟨hr.1, hlater.trans hr.2⟩
          · exact (keeps_pure ()).from hw₂ hlater
      · exact keeps_pure () w₁ hw₁

theorem wp_brokerRead {read : M Unit} (hread : Keeps read) (hw : Good w) :
    wp Permits (do
      emit (.brokerRead (w.script.reads.headD none))
      applyBrokerSnapshot read (w.script.reads.headD none))
      (fun _ w' => Good w' ∧ Later w w') w := by
  have hp : Permits w (.brokerRead (w.script.reads.headD none)) := rfl
  rw [wp_bind, wp_emit, next_ok]
  refine ⟨hp, wp_mono (wp_applyBrokerSnapshot hread
    ⟨hw.sound.act hp, idle_same hw.idle rfl rfl rfl rfl⟩ rfl) ?_⟩
  exact fun _ _ hr => ⟨hr.1, hr.2⟩

theorem keeps_requestBrokerRead (depth : Nat) : Keeps (requestBrokerRead depth) := by
  induction depth with
  | zero =>
      intro w hw
      exact (wp_raise _ _ _).2 ⟨hw, Later.refl w⟩
  | succ depth ih =>
      intro w hw
      simp only [requestBrokerRead]
      rw [wp_bind, wp_get, next_ok]
      split
      · exact keeps_pure () w hw
      · exact wp_brokerRead ih hw

theorem keeps_readBroker : Keeps readBroker := keeps_get fun _ => keeps_requestBrokerRead _

end PairCell
