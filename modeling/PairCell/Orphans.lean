import PairCell.Stored

/-!
# No orphaned effects

An effect that is still open when its write ends is resolved later only through
the leg: by the entry status, or by the protection or close effect id the leg
remembers.  The invariant says that every open effect of the followed attempt is
being written, is about to be observed, or is one the leg leads back to.
-/

namespace PairCell

open Lib World

variable {w : World} {x : Action} {a : Attempt} {l : Leg} {e : EffectId} {i : Nat}

/-! ## The condition -/

/-- A later snapshot resolves the effect through this leg. -/
def Traceable (l : Leg) : EffectId → Bool
  | .cell _ _ .entry => openStatus l.entryStatus
  | .cell i v .protection => decide (l.protectionEffectId = some (.cell i v .protection))
  | .cell i v (.close t) => decide (l.closeEffectId = some (.cell i v (.close t)))
  | _ => false

/-- The effect can be left open: the leg still has to be emptied and leads back to it. -/
def LeadsBack (l : Leg) (e : EffectId) : Prop := l.emptyVerified = false ∧
  Traceable l e = true

instance (l : Leg) (e : EffectId) : Decidable (LeadsBack l e) :=
  inferInstanceAs (Decidable (_ ∧ _))

/-- A write of the cell that ends without a receipt leaves an effect
the leg leads back to. -/
def LeavesTrace (w : World) : Action → Prop
  | .prepare e _ false => e.attempt? = none
  | .orderSend e _ r =>
      isReceipt r.response = true ∨ e.attempt? = none ∨ ∃ l ∈ w.mem.leg, LeadsBack l e
  | .turn e true => ∃ l ∈ w.mem.leg, LeadsBack l e
  | _ => True

/-- The stored leg leads back to every open effect of the attempt it belongs to. -/
def StoredTrace (w : World) : Prop :=
  ∀ a ∈ w.mem.attempt, ∀ l ∈ w.disk.legs.get a.attemptId,
    w.disk.journal.any (fun e r =>
      r.unresolved && decide (e.attempt? = some a.attemptId) &&
        !decide (LeadsBack l e)) = false

/-- Writes leave a trace, and the process dies only with the trace on disk. -/
def Traces : Proc → Label → Prop
  | .up w _, .exec x => LeavesTrace w x
  | .up w _, .crash => StoredTrace w
  | _, _ => True

instance (w : World) (x : Action) : Decidable (LeavesTrace w x) :=
  match x with
  | .prepare e _ false => inferInstanceAs (Decidable (e.attempt? = none))
  | .orderSend e _ r => inferInstanceAs (Decidable
      (isReceipt r.response = true ∨ e.attempt? = none ∨ ∃ l ∈ w.mem.leg, LeadsBack l e))
  | .turn e true => inferInstanceAs (Decidable (∃ l ∈ w.mem.leg, LeadsBack l e))
  | .prepare _ _ true | .turn _ false => isTrue trivial
  | .adopt _ | .refuse .. | .terminate _ | .saveLeg _ | .memLeg _ | .savePeerLeg _
  | .latePeerLeg _ | .saveDesired .. | .saveActive _ | .savePolicy _ | .latch
      _ | .unlatch ..
  | .transition _ | .bump | .setState _ | .setRecovering _ | .setAux _ | .markSendStarted _
  | .recordReceipt .. | .recordObservation _ | .brokerRead _ | .complete _ | .tick
  | .relay _ => isTrue trivial

instance (w : World) : Decidable (StoredTrace w) := by
  unfold StoredTrace
  infer_instance

instance (p : Proc) (lab : Label) : Decidable (Traces p lab) :=
  match p, lab with
  | .up w _, .exec x => inferInstanceAs (Decidable (LeavesTrace w x))
  | .up w _, .crash => inferInstanceAs (Decidable (StoredTrace w))
  | .up .., .begin .. | .up .., .serve .. | .up .., .reopen | .down .., _ => isTrue trivial

/-! ## Open effects -/

/-- The write of the effect is under way, or its observation is about to be recorded. -/
def Busy (w : World) (e : EffectId) : Prop := w.mem.writing = some e ∨ w.mem.owed = some e

/-- The leg names the effect, where it has a field for its kind. -/
def NamedBy (l : Leg) : EffectId → Prop
  | .cell i v .protection => l.protectionEffectId = some (.cell i v .protection)
  | .cell i v (.close t) => l.closeEffectId = some (.cell i v (.close t))
  | _ => True

structure Tracked (w : World) : Prop where
  policy : w.mem.policy = w.disk.policy
  own : ∀ e r i, w.disk.journal.get e = some r → e.attempt? = some i →
    r.own = true ∧ ∃ kind, e = .cell i w.cfg.workerId kind
  mode : w.shadow = true → ∀ a, w.mem.attempt = some a →
      ∀ e r, w.disk.journal.get e = some r →
    e.attempt? = some a.attemptId → e = w.cfg.effect a .rollback
  live : ∀ e i, e.attempt? = some i → w.disk.unresolved e = true →
    ∃ r ∈ w.disk.attempts, r.attempt.attemptId = i ∧ r.terminal = none
  named : ∀ a l e, w.mem.attempt = some a → w.mem.leg = some l →
      e.attempt? = some a.attemptId →
    w.disk.unresolved e = true → NamedBy l e
  accounted : ∀ a l e, w.mem.attempt = some a → w.mem.leg = some l →
    e.attempt? = some a.attemptId → w.disk.unresolved e = true → Busy w e ∨ LeadsBack l e
  precise : ∀ a l, w.mem.attempt = some a → w.mem.leg = some l →
      l.protectionStatus = .precise →
    w.disk.unresolved (w.cfg.effect a .protection) = false
  settled : ∀ l, w.mem.leg = some l → l.emptyVerified = true →
      openStatus l.entryStatus = false
  owed : ∀ e, w.mem.owed = some e →
    ∃ l, w.mem.leg = some l ∧ openStatus l.entryStatus = false

/-- The action resolves the effect. -/
def Concludes (x : Action) (e : EffectId) : Prop :=
  (∃ retcode, x = .recordReceipt e retcode) ∨ x = .recordObservation e

theorem Concludes.resolved (h : Concludes x e) : (w.act x).disk.unresolved e = false := by
  rcases h with ⟨retcode, rfl⟩ | rfl
  · exact (moveJournal_unresolved e e retcode (.inl rfl)).trans (if_pos rfl)
  · exact (moveJournal_unresolved e e none (.inr rfl)).trans (if_pos rfl)

/-- An open effect was open before, or is prepared now. -/
theorem unresolved_act (hp : Permits w x) (h : (w.act x).disk.unresolved e = true) :
    w.disk.unresolved e = true ∧ ¬ Concludes x e ∨ ∃ p own, x = .prepare e p own := by
  have hopen : ¬ Concludes x e := fun hc => by simp [hc.resolved] at h
  obtain ⟨r', hr', hst'⟩ := unresolved_iff.1 h
  have hmove := act_journal hp e
  rw [hr'] at hmove
  generalize hold : w.disk.journal.get e = old at hmove
  cases hmove with
  | same => exact .inl ⟨unresolved_iff.2 ⟨r', hold, hst'⟩, hopen⟩
  | prepare p own => exact .inr ⟨p, own, rfl⟩
  | start r hst => exact .inl ⟨unresolved_iff.2 ⟨r, hold, .inl hst⟩, hopen⟩
  | receipt r retcode hst => simp at hst'
  | observe r hst => simp at hst'

theorem filter_ne_of_ne {o : Option EffectId} {e y : EffectId} (h : o = some e)
    (hne : y ≠ e) :
    o.filter (fun z => decide (z ≠ y)) = some e := by
  simp [h, hne.symm]

/-- A write under way stays so, or ends without a receipt on a leg
that leads back to it. -/
theorem busy_act (hp : Permits w x) (hok : LeavesTrace w x) (hi : e.attempt? = some i)
    (hopen : ¬ Concludes x e) (hsave : ∀ l, x ≠ .saveLeg l) (h : Busy w e) :
    Busy (w.act x) e ∨ ∃ l ∈ w.mem.leg, LeadsBack l e := by
  have hended : ∀ {y : EffectId}, w.mem.writing = some e →
      (y = e → ∃ l ∈ w.mem.leg, LeadsBack l e) →
      w.mem.writing.filter (fun z => decide (z ≠ y)) = some e ∨
      ∃ l ∈ w.mem.leg, LeadsBack l e := by
    intro y hw hy
    by_cases hye : y = e
    · exact .inr (hy hye)
    · exact .inl (filter_ne_of_ne hw hye)
  unfold Busy
  rw [act_writing, act_owed]
  cases x with
  | saveLeg l => exact absurd rfl (hsave l)
  | recordReceipt y retcode =>
      have hye : y ≠ e := fun hye => hopen (.inl ⟨retcode, by rw [hye]⟩)
      exact .inl (h.imp_left fun hw => filter_ne_of_ne hw hye)
  | recordObservation y =>
      have hye : y ≠ e := fun hye => hopen (.inr (by rw [hye]))
      exact .inl (h.imp (fun hw => filter_ne_of_ne hw hye) fun ho =>
        filter_ne_of_ne ho hye)
  | prepare y p own =>
      rcases h with hw | ho
      · cases own with
        | false => exact .inl (.inl hw)
        | true =>
            have hnone := (hp.2 rfl).1.1
            rw [hw] at hnone
            cases hnone
      · exact .inl (.inr ho)
  | turn y exhausted =>
      rcases h with hw | ho
      · cases exhausted with
        | false => exact .inl (.inl hw)
        | true => exact (hended hw fun hy => hy ▸ hok).imp_left .inl
      · exact .inl (.inr ho)
  | orderSend y p r =>
      rcases h with hw | ho
      · cases hr : isReceipt r.response with
        | true => exact .inl (.inl (by simpa [hr] using hw))
        | false =>
            have hback : y = e → ∃ l ∈ w.mem.leg, LeadsBack l e := by
              rintro rfl
              rcases hok with h | h | h
              · simp [hr] at h
              · simp [h] at hi
              · exact h
            simpa [hr] using (hended hw hback).imp_left Or.inl
      · exact .inl (.inr ho)
  | _ => exact .inl h

/-! ## One action -/

theorem Tracked.no_row (h : Tracked w) (hs : Sound w) (hl : w.disk.legs.get i = none)
    (hi : e.attempt? = some i) : w.disk.journal.get e = none := by
  cases hr : w.disk.journal.get e with
  | none => rfl
  | some r =>
      obtain ⟨j, l, hj, hstored⟩ := hs.journal.own e r hr (h.own e r i hr hi).1
      obtain rfl := Option.some.inj (hi.symm.trans hj)
      rw [hl] at hstored
      cases hstored

theorem Tracked.resolved_of_no_leg (h : Tracked w) (hs : Sound w)
    (hl : w.disk.legs.get i = none) (hi : e.attempt? = some i) :
    w.disk.unresolved e = false := by
  simp [Disk.unresolved, h.no_row hs hl hi]

/-- Nothing of the attempt is open when it is terminated. -/
theorem Tracked.terminate {reason : TerminalReason} (h : Tracked w) (hs : Sound w)
    (hp : Permits w (.terminate reason)) (ha : w.mem.attempt = some a)
    (hi : e.attempt? = some a.attemptId) : w.disk.unresolved e = false := by
  cases reason with
  | bothEmptyVerified =>
      obtain ⟨hidle, b, l, -, hl, hempty, -⟩ := hp
      by_contra hopen
      rcases h.accounted a l e ha hl hi (by simpa using hopen) with (hw | ho) | hback
      · simp [hidle.writing] at hw
      · simp [hidle.owed] at ho
      · simp [hback.1] at hempty
  | noLocalEffectWasEverPrepared =>
      exact h.resolved_of_no_leg hs (hs.toBooked.leg_row ha hp.2.2) hi
  | admissionRejected text => exact hp.elim

theorem Tracked.own_act (h : Tracked w) (hp : Permits w x) (hok : LeavesTrace w x)
    {r : JournalRow} (hr : (w.act x).disk.journal.get e = some r)
    (hi : e.attempt? = some i) :
    r.own = true ∧ ∃ kind, e = .cell i w.cfg.workerId kind := by
  have hmove := act_journal hp e
  rw [hr] at hmove
  generalize hold : w.disk.journal.get e = old at hmove
  cases hmove with
  | same => exact h.own e r i hold hi
  | prepare p own =>
      cases own with
      | false => exact absurd (hi.symm.trans hok) (by simp)
      | true =>
          obtain ⟨-, a, l, kind, -, -, rfl, -⟩ := (hp.2 rfl).1
          obtain rfl := Option.some.inj hi
          exact ⟨rfl, kind, rfl⟩
  | start q _ => exact h.own e q i hold hi
  | receipt q _ _ => exact h.own e q i hold hi
  | observe q _ => exact h.own e q i hold hi

theorem Tracked.mode_act (h : Tracked w) (hs : Sound w) (hp : Permits w x)
    (hok : LeavesTrace w x) (hshadow : (w.act x).shadow = true)
    (ha : (w.act x).mem.attempt = some a) {r : JournalRow}
    (hr : (w.act x).disk.journal.get e = some r) (hi : e.attempt? = some a.attemptId) :
    e = w.cfg.effect a .rollback := by
  rw [act_shadow] at hshadow
  rw [act_attempt] at ha
  have hmove := act_journal hp e
  rw [hr] at hmove
  generalize hold : w.disk.journal.get e = old at hmove
  have hkept : ∀ q, w.disk.journal.get e = some q → e = w.cfg.effect a .rollback := by
    intro q hq
    cases x with
    | adopt b =>
        obtain rfl := Option.some.inj ha
        rw [h.no_row hs (hs.toBooked.leg_row_none hp.2.2.1) hi] at hq
        cases hq
    | savePolicy p =>
        rw [h.no_row hs (hs.toBooked.leg_row ha hp.1) hi] at hq
        cases hq
    | terminate reason => cases ha
    | _ => exact h.mode hshadow a ha e q hq hi
  cases hmove with
  | same => exact hkept r hold
  | prepare p own =>
      cases own with
      | false => exact absurd (hi.symm.trans hok) (by simp)
      | true =>
          obtain ⟨-, b, l, kind, hb, -, rfl, -, hmode⟩ := (hp.2 rfl).1
          obtain rfl : a = b := Option.some.inj (ha.symm.trans hb)
          rw [hmode hshadow]
  | start q _ => exact hkept q hold
  | receipt q _ _ => exact hkept q hold
  | observe q _ => exact hkept q hold

theorem Tracked.live_act (h : Tracked w) (hs : Sound w) (hp : Permits w x)
    (hok : LeavesTrace w x) (hi : e.attempt? = some i)
    (hopen : (w.act x).disk.unresolved e = true) :
    ∃ r ∈ (w.act x).disk.attempts, r.attempt.attemptId = i ∧ r.terminal = none := by
  rw [act_attempts]
  rcases unresolved_act hp hopen with ⟨hold, -⟩ | ⟨p, own, rfl⟩
  · obtain ⟨r, hr, hid, hlive⟩ := h.live e i hi hold
    cases x with
    | adopt b => exact ⟨r, List.mem_append_left _ hr, hid, hlive⟩
    | refuse b reason => exact ⟨r, List.mem_append_left _ hr, hid, hlive⟩
    | terminate reason =>
        have hne : some r.attempt.attemptId ≠ w.attemptId? := by
          intro heq
          obtain ⟨a, ha, haid⟩ := Option.map_eq_some_iff.1 heq.symm
          have hres := h.terminate hs hp ha (e := e) (by rw [haid, hid]; exact hi)
          rw [hold] at hres
          cases hres
        refine ⟨r, List.mem_map.2 ⟨r, hr, ?_⟩, hid, hlive⟩
        rw [terminateRow, if_neg hne]
    | _ => exact ⟨r, hr, hid, hlive⟩
  · cases own with
    | false => exact absurd (hi.symm.trans hok) (by simp)
    | true =>
        obtain ⟨-, a, l, kind, ha, -, rfl, -⟩ := (hp.2 rfl).1
        obtain rfl := Option.some.inj hi
        obtain ⟨r, hr, rfl, hlive⟩ := hs.mem.live a ha
        exact ⟨r, hr, rfl, hlive⟩

/-! ### The leg -/

/-- Where the leg of the followed attempt comes from. -/
inductive LegFrom (w : World) (a : Attempt) (x : Action) (l : Leg) : Prop where
  | kept (ha : w.mem.attempt = some a) (hl : w.mem.leg = some l)
      (hsave : ∀ l', x ≠ .saveLeg l')
  | first (hx : x = .saveLeg l) (hl : l = firstLeg w.cfg a) (ha : w.mem.attempt = some a)
      (hnone : w.mem.leg = none)
  | saved (hx : x = .saveLeg l) (ha : w.mem.attempt = some a) (old : Leg)
      (hold : w.mem.leg = some old) (hstep : LegStep w a old l)
  | ahead (hx : x = .memLeg l) (ha : w.mem.attempt = some a) (old : Leg)
      (hold : w.mem.leg = some old) (hnames : LegNames w a old l)

theorem leg_from (hs : Sound w) (hp : Permits w x) (ha : (w.act x).mem.attempt = some a)
    (hl : (w.act x).mem.leg = some l) : LegFrom w a x l := by
  rw [act_attempt] at ha
  rw [act_leg] at hl
  cases x with
  | adopt b =>
      rw [hs.mem.leg_none hp.1] at hl
      cases hl
  | terminate reason => cases ha
  | saveLeg l' =>
      obtain rfl := Option.some.inj hl
      obtain ⟨-, b, hb, hleg⟩ := hp
      obtain rfl := Option.some.inj (ha.symm.trans hb)
      cases hmem : w.mem.leg with
      | none =>
          simp only [hmem] at hleg
          exact .first rfl hleg.1 ha hmem
      | some old =>
          simp only [hmem] at hleg
          exact .saved rfl ha old hmem hleg
  | memLeg l' =>
      obtain rfl := Option.some.inj hl
      obtain ⟨b, old, hb, hold, hnames⟩ := hp
      obtain rfl := Option.some.inj (ha.symm.trans hb)
      exact .ahead rfl ha old hold hnames
  | _ => exact .kept ha hl (by simp)

/-- A settled entry stays settled. -/
theorem LegStep.stays_settled {old : Leg} (h : LegStep w a old l)
    (hold : openStatus old.entryStatus = false) : openStatus l.entryStatus = false := by
  rcases h.entry with hsame | hstep
  · rwa [hsame]
  · cases hstep with
    | expired _ hnew => simp [hnew, openStatus]
    | refused _ hnew => simp [hnew, openStatus]
    | unknown h _ => simp [h, openStatus] at hold
    | sent _ hnew => simp [hnew, openStatus]
    | simulated _ hnew => simp [hnew, openStatus]
    | absent _ hnew => simp [hnew, openStatus]
    | observed _ hnew => simp [hnew, openStatus]

theorem NamedBy.save {old : Leg} {kind : EffectKind} (hstep : LegStep w a old l)
    (h : NamedBy old (w.cfg.effect a kind))
    (hprecise : old.protectionStatus = .precise → kind ≠ .protection) :
    NamedBy l (w.cfg.effect a kind) := by
  cases kind with
  | protection =>
      rcases hstep.protection with hsame | ⟨hp, -⟩
      · exact hsame.trans h
      · exact absurd rfl (hprecise hp)
  | close t => exact hstep.close.trans h
  | _ => trivial

theorem NamedBy.ahead {old : Leg} {kind : EffectKind} (hnames : LegNames w a old l)
    (hok : LegOk w.cfg a.attemptId old) (h : NamedBy old (w.cfg.effect a kind)) :
    NamedBy l (w.cfg.effect a kind) := by
  rcases hnames with ⟨rfl, -⟩ | ⟨t, ht, rfl⟩
  · cases kind with
    | protection => rfl
    | close t => exact h
    | _ => trivial
  · cases kind with
    | protection => exact h
    | close t' =>
        obtain ⟨t'', ht'', heq⟩ := hok.closing _ h
        obtain rfl := Option.some.inj (ht.symm.trans ht'')
        exact congrArg some heq.symm
    | _ => trivial

theorem EffectNamed.namedBy {kind : EffectKind}
    (h : EffectNamed l (w.cfg.effect a kind) kind) : NamedBy l (w.cfg.effect a kind) := by
  cases kind with
  | protection => exact h.1
  | close t => exact h
  | _ => trivial

/-- The open effects of the followed attempt are effects of this worker. -/
theorem Tracked.kind (h : Tracked w) (hi : e.attempt? = some a.attemptId)
    (hopen : w.disk.unresolved e = true) : ∃ kind, e = w.cfg.effect a kind := by
  obtain ⟨r, hr, -⟩ := unresolved_iff.1 hopen
  exact (h.own e r _ hr hi).2

theorem Tracked.named_act (h : Tracked w) (hs : Sound w) (hp : Permits w x)
    (hok : LeavesTrace w x) (ha : (w.act x).mem.attempt = some a)
    (hl : (w.act x).mem.leg = some l) (hi : e.attempt? = some a.attemptId)
    (hopen : (w.act x).disk.unresolved e = true) : NamedBy l e := by
  rcases unresolved_act hp hopen with ⟨hold, -⟩ | ⟨p, own, rfl⟩
  · cases leg_from hs hp ha hl with
    | kept ha hl _ => exact h.named a l e ha hl hi hold
    | first _ _ ha hnone =>
        rw [h.resolved_of_no_leg hs (hs.toBooked.leg_row ha hnone) hi] at hold
        cases hold
    | saved _ ha old hleg hstep =>
        obtain ⟨kind, rfl⟩ := h.kind hi hold
        refine (h.named a old _ ha hleg hi hold).save hstep ?_
        rintro hprecise rfl
        rw [h.precise a old ha hleg hprecise] at hold
        cases hold
    | ahead _ ha old hleg hnames =>
        obtain ⟨kind, rfl⟩ := h.kind hi hold
        obtain ⟨b, hb, hlegok⟩ := hs.mem.leg old hleg
        obtain rfl := Option.some.inj (ha.symm.trans hb)
        exact (h.named a old _ ha hleg hi hold).ahead hnames hlegok
  · cases own with
    | false => exact absurd (hi.symm.trans hok) (by simp)
    | true =>
        obtain ⟨-, b, l', kind, -, hl', rfl, hnamed, -⟩ := (hp.2 rfl).1
        rw [act_leg] at hl
        obtain rfl := Option.some.inj (hl.symm.trans hl')
        exact hnamed.namedBy

/-- Settling the entry makes its open effect the one to be observed. -/
theorem owes_entry (h : Tracked w) {old : Leg} (hleg : w.mem.leg = some old)
    (he : l.entryEffectId = some e) (hi : e.attempt? = some i)
    (hold : openStatus old.entryStatus = true) (hnew : openStatus l.entryStatus = false)
    (hopen : w.disk.unresolved e = true) : w.owes l = some e := by
  obtain ⟨r, hr, -⟩ := unresolved_iff.1 hopen
  have hown : w.disk.ownEffect e = true := by
    simp [Disk.ownEffect, hr, (h.own e r i hr hi).1]
  simp [owes, settlesEntry, hleg, hold, hnew, he, hopen, hown]

theorem not_emptied {old : Leg} (hstep : LegStep w a old l)
    (hold : old.emptyVerified = false) (hno : ¬ VerifiedEmpty w l) :
    l.emptyVerified = false := by
  by_contra hne
  rcases hstep.verified (by simpa using hne) with h | h
  · simp [hold] at h
  · exact hno h

theorem accounted_save {old : Leg} (h : Tracked w) (hs : Sound w)
    (ha : w.mem.attempt = some a) (hleg : w.mem.leg = some old) (hstep : LegStep w a old l)
    (hi : e.attempt? = some a.attemptId) (hopen : w.disk.unresolved e = true)
    (hnamed : NamedBy l e) :
    Busy (w.act (.saveLeg l)) e ∨ LeadsBack l e := by
  have hbusy : w.mem.writing = some e ∨ w.owes l = some e →
      Busy (w.act (.saveLeg l)) e := by
    unfold Busy
    rw [act_writing, act_owed]
    exact id
  rcases h.accounted a old e ha hleg hi hopen with (hw | ho) | ⟨hempty, htrace⟩
  · exact .inl (hbusy (.inl hw))
  · obtain ⟨l', hl', hsettled⟩ := h.owed e ho
    obtain rfl := Option.some.inj (hleg.symm.trans hl')
    exact .inl (hbusy (.inr (by simp [owes, settlesEntry, hleg, hsettled, ho])))
  · obtain ⟨kind, rfl⟩ := h.kind hi hopen
    cases kind with
    | entry =>
        obtain ⟨b, hb, hok⟩ := hs.mem.leg old hleg
        obtain rfl := Option.some.inj (ha.symm.trans hb)
        have he := hstep.entryEffectId.trans hok.entryEffectId
        cases hnew : openStatus l.entryStatus with
        | true =>
            refine .inr ⟨not_emptied hstep hempty fun hv => ?_, hnew⟩
            simp [hv.settled] at hnew
        | false => exact .inl (hbusy (.inr (owes_entry h hleg he hi htrace hnew hopen)))
    | protection =>
        refine .inr ⟨not_emptied hstep hempty fun hv => ?_, decide_eq_true hnamed⟩
        exact Bool.false_ne_true ((hv.resolved _ (.inl hnamed)).symm.trans hopen)
    | close t =>
        refine .inr ⟨not_emptied hstep hempty fun hv => ?_, decide_eq_true hnamed⟩
        exact Bool.false_ne_true ((hv.resolved _ (.inr hnamed)).symm.trans hopen)
    | rollback => cases htrace
    | cancel t => cases htrace

theorem LeadsBack.ahead {old : Leg} {kind : EffectKind} (hnames : LegNames w a old l)
    (hnamed : NamedBy l (w.cfg.effect a kind)) (h : LeadsBack old (w.cfg.effect a kind)) :
    LeadsBack l (w.cfg.effect a kind) := by
  obtain ⟨hempty, htrace⟩ := h
  have hkept : l.emptyVerified = old.emptyVerified ∧ l.entryStatus = old.entryStatus := by
    rcases hnames with ⟨rfl, -⟩ | ⟨t, -, rfl⟩ <;> exact ⟨rfl, rfl⟩
  refine ⟨hkept.1.trans hempty, ?_⟩
  cases kind with
  | entry =>
      show openStatus l.entryStatus = true
      rw [hkept.2]
      exact htrace
  | protection => exact decide_eq_true hnamed
  | close t => exact decide_eq_true hnamed
  | rollback => cases htrace
  | cancel t => cases htrace

theorem Tracked.accounted_act (h : Tracked w) (hs : Sound w) (hp : Permits w x)
    (hok : LeavesTrace w x) (ha : (w.act x).mem.attempt = some a)
    (hl : (w.act x).mem.leg = some l) (hi : e.attempt? = some a.attemptId)
    (hopen : (w.act x).disk.unresolved e = true) : Busy (w.act x) e ∨ LeadsBack l e := by
  have hnamed := h.named_act hs hp hok ha hl hi hopen
  rcases unresolved_act hp hopen with ⟨hold, hconc⟩ | ⟨p, own, rfl⟩
  · cases leg_from hs hp ha hl with
    | kept ha hl hsave =>
        rcases h.accounted a l e ha hl hi hold with hbusy | hback
        · refine (busy_act hp hok hi hconc hsave hbusy).imp_right ?_
          rintro ⟨l', hl', hback⟩
          obtain rfl := Option.some.inj (hl.symm.trans hl')
          exact hback
        · exact .inr hback
    | first _ _ ha hnone =>
        rw [h.resolved_of_no_leg hs (hs.toBooked.leg_row ha hnone) hi] at hold
        cases hold
    | saved hx ha old hleg hstep =>
        subst hx
        exact accounted_save h hs ha hleg hstep hi hold hnamed
    | ahead hx ha old hleg hnames =>
        subst hx
        rcases h.accounted a old e ha hleg hi hold with hbusy | hback
        · exact .inl hbusy
        · obtain ⟨kind, rfl⟩ := h.kind hi hold
          exact .inr (hback.ahead hnames hnamed)
  · cases own with
    | false => exact absurd (hi.symm.trans hok) (by simp)
    | true => exact .inl (.inl (act_writing _))

theorem Tracked.precise_act (h : Tracked w) (hs : Sound w) (hp : Permits w x)
    (hok : LeavesTrace w x) (ha : (w.act x).mem.attempt = some a)
    (hl : (w.act x).mem.leg = some l) (hprecise : l.protectionStatus = .precise) :
    (w.act x).disk.unresolved (w.cfg.effect a .protection) = false := by
  by_contra hne
  have hopen : (w.act x).disk.unresolved (w.cfg.effect a .protection) = true := by
    simpa using hne
  have hnamed := h.named_act hs hp hok ha hl rfl hopen
  rcases unresolved_act hp hopen with ⟨hold, -⟩ | ⟨p, own, rfl⟩
  · have hbefore : ∀ old, w.mem.attempt = some a → w.mem.leg = some old →
        old.protectionStatus ≠ .precise := by
      intro old ha hleg hprec
      rw [h.precise a old ha hleg hprec] at hold
      cases hold
    cases leg_from hs hp ha hl with
    | kept ha hl _ => exact hbefore l ha hl hprecise
    | first _ hfirst _ _ =>
        rw [hfirst] at hprecise
        cases hprecise
    | saved _ ha old hleg hstep =>
        rcases (hstep.precise hprecise).2 with hprec | hshadow | hres
        · exact hbefore old ha hleg hprec
        · -- a simulated protection has no effect in the journal
          obtain ⟨r, hr, -⟩ := unresolved_iff.1 hold
          have := h.mode hshadow a ha _ r hr rfl
          simp [Config.effect] at this
        · exact Bool.false_ne_true ((hres _ hnamed).symm.trans hold)
    | ahead _ ha old hleg hnames =>
        refine hbefore old ha hleg ?_
        rcases hnames with ⟨rfl, -⟩ | ⟨t, -, rfl⟩ <;> exact hprecise
  · cases own with
    | false => exact absurd hok (by simp [LeavesTrace, Config.effect, EffectId.attempt?])
    | true =>
        obtain ⟨-, b, l', kind, -, hl', heq, hrough, -⟩ := (hp.2 rfl).1
        simp only [Config.effect, EffectId.cell.injEq] at heq
        obtain ⟨-, -, rfl⟩ := heq
        rw [act_leg] at hl
        obtain rfl := Option.some.inj (hl.symm.trans hl')
        rw [hrough.2] at hprecise
        cases hprecise

theorem Tracked.settled_act (h : Tracked w) (hs : Sound w) (hp : Permits w x)
    (hl : (w.act x).mem.leg = some l) (hempty : l.emptyVerified = true) :
    openStatus l.entryStatus = false := by
  obtain ⟨a, ha, -⟩ := (hs.act hp).mem.leg l hl
  cases leg_from hs hp ha hl with
  | kept _ hl _ => exact h.settled l hl hempty
  | first _ hfirst _ _ =>
      rw [hfirst] at hempty
      cases hempty
  | saved _ _ old hleg hstep =>
      rcases hstep.verified hempty with hold | hv
      · exact hstep.stays_settled (h.settled old hleg hold)
      · exact hv.settled
  | ahead _ _ old hleg hnames =>
      rcases hnames with ⟨rfl, -⟩ | ⟨t, -, rfl⟩ <;> exact h.settled old hleg hempty

theorem Tracked.owed_act (h : Tracked w) (hp : Permits w x)
    (ho : (w.act x).mem.owed = some e) :
    ∃ l, (w.act x).mem.leg = some l ∧ openStatus l.entryStatus = false := by
  rw [act_leg]
  rw [act_owed] at ho
  cases x with
  | saveLeg l =>
      refine ⟨l, rfl, ?_⟩
      simp only [owes] at ho
      split at ho
      · next hsettles =>
          simp only [settlesEntry] at hsettles
          split at hsettles
          · rw [Bool.and_eq_true] at hsettles
            simpa using hsettles.2
          · cases hsettles
      · obtain ⟨old, hleg, hsettled⟩ := h.owed e ho
        obtain ⟨-, a, -, hstep⟩ := hp
        simp only [hleg] at hstep
        exact hstep.stays_settled hsettled
  | memLeg l =>
      obtain ⟨old, hleg, hsettled⟩ := h.owed e ho
      obtain ⟨a, old', -, hleg', hnames⟩ := hp
      obtain rfl := Option.some.inj (hleg.symm.trans hleg')
      refine ⟨l, rfl, ?_⟩
      rcases hnames with ⟨rfl, -⟩ | ⟨t, -, rfl⟩ <;> exact hsettled
  | terminate reason =>
      have hidle : Idle w := by
        cases reason with
        | bothEmptyVerified => exact hp.1
        | noLocalEffectWasEverPrepared => exact hp.1
        | admissionRejected text => exact hp.elim
      simp [hidle.owed] at ho
  | recordObservation y => exact h.owed e (Option.filter_eq_some_iff.1 ho).1
  | _ => exact h.owed e ho

theorem Tracked.act (h : Tracked w) (hs : Sound w) (hp : Permits w x)
    (hok : LeavesTrace w x) :
    Tracked (w.act x) where
  policy := by
    rw [act_policy, act_diskPolicy]
    cases x with
    | savePolicy p => rfl
    | _ => exact h.policy
  own := by
    rw [act_cfg]
    exact fun e r i hr hi => h.own_act hp hok hr hi
  mode := by
    rw [act_cfg]
    exact fun hshadow a ha e r hr hi => h.mode_act hs hp hok hshadow ha hr hi
  live := fun e i hi hopen => h.live_act hs hp hok hi hopen
  named := fun a l e ha hl hi hopen => h.named_act hs hp hok ha hl hi hopen
  accounted := fun a l e ha hl hi hopen => h.accounted_act hs hp hok ha hl hi hopen
  precise := by
    rw [act_cfg]
    exact fun a l ha hl hprecise => h.precise_act hs hp hok ha hl hprecise
  settled := fun l hl hempty => h.settled_act hs hp hl hempty
  owed := fun e ho => h.owed_act hp ho

/-! ## Runs -/

theorem LeadsBack.namedBy (h : LeadsBack l e) : NamedBy l e := by
  obtain ⟨-, htrace⟩ := h
  cases e with
  | other n => trivial
  | cell i v kind =>
      cases kind with
      | protection => simpa [Traceable, NamedBy] using htrace
      | close t => simpa [Traceable, NamedBy] using htrace
      | _ => trivial

theorem StoredTrace.leadsBack (h : StoredTrace w) (ha : w.mem.attempt = some a)
    (hl : w.disk.legs.get a.attemptId = some l) (hi : e.attempt? = some a.attemptId)
    (hopen : w.disk.unresolved e = true) : LeadsBack l e := by
  obtain ⟨r, hr, hst⟩ := unresolved_iff.1 hopen
  have hun : r.unresolved = true := by
    rcases hst with hst | hst <;> simp [JournalRow.unresolved, hst]
  by_contra hno
  have hall := h a ha l hl
  rw [Bool.eq_false_iff] at hall
  refine hall ((Table.any_iff _ _).2 ⟨e, r, hr, ?_⟩)
  simp [hun, hi, hno]

/-- What is stored is enough to go on from. -/
theorem Tracked.load {w' : World} (h : Tracked w) (hs : Sound w) (hcrash : StoredTrace w)
    (hload : PairCell.load w.cfg w.disk = some w') : Tracked w' := by
  rw [load_eq hs.disk] at hload
  cases hat : loadedAttempt w.cfg w.disk with
  | none =>
      simp only [hat, Option.some.injEq] at hload
      subst hload
      exact {
        policy := rfl
        own := h.own
        mode := fun _ a ha => nomatch ha
        live := h.live
        named := fun a l e ha => nomatch ha
        accounted := fun a l e ha => nomatch ha
        precise := fun a l ha => nomatch ha
        settled := fun l hl => nomatch hl
        owed := fun e ho => nomatch ho }
  | some a =>
      simp only [hat, Option.map_eq_some_iff] at hload
      obtain ⟨peer, -, rfl⟩ := hload
      have ha := hs.mem.newest a hat
      -- the leg the dead process held, up to the ids it had only in memory
      have hmem : ∀ l, w.disk.legs.get a.attemptId = some l →
          ∃ l', w.mem.leg = some l' ∧ LegSync l' l := by
        intro l hl
        have hsync := hs.mem.sync a ha
        cases hleg : w.mem.leg with
        | none => simp [hleg, hl] at hsync
        | some l' =>
            simp only [hleg, hl] at hsync
            exact ⟨l', rfl, hsync⟩
      have hback : ∀ b l e, some a = some b → w.disk.legs.get a.attemptId = some l →
          e.attempt? = some b.attemptId → w.disk.unresolved e = true → LeadsBack l e := by
        rintro b l e hb hl hi hopen
        obtain rfl := Option.some.inj hb
        exact hcrash.leadsBack ha hl hi hopen
      exact {
        policy := rfl
        own := h.own
        mode := by
          rintro hshadow b hb e r hr hi
          obtain rfl : a = b := Option.some.inj hb
          refine h.mode ?_ a ha e r hr hi
          have hpolicy : w.shadow = World.shadow
              { cfg := w.cfg, disk := w.disk, mem := loadAttempt w.disk a peer } := by
            simp only [World.shadow, h.policy]
            rfl
          rw [hpolicy]
          exact hshadow
        live := h.live
        named := fun b l e hb hl hi hopen => (hback b l e hb hl hi hopen).namedBy
        accounted := fun b l e hb hl hi hopen => .inr (hback b l e hb hl hi hopen)
        precise := by
          rintro b l hb hl hprecise
          obtain rfl : a = b := Option.some.inj hb
          obtain ⟨l', hl', hsync⟩ := hmem l hl
          exact h.precise a l' ha hl' (by rw [hsync]; exact hprecise)
        settled := by
          rintro l hl hempty
          obtain ⟨l', hl', hsync⟩ := hmem l hl
          rw [← hsync.entryStatus]
          exact h.settled l' hl' (by rw [hsync.emptyVerified]; exact hempty)
        owed := fun e ho => nomatch ho }

/-- The effects still open belong to unresolved attempts. -/
def OpenEffectsLive (d : Disk) : Prop :=
  ∀ e i, e.attempt? = some i → d.unresolved e = true →
    ∃ r ∈ d.attempts, r.attempt.attemptId = i ∧ r.terminal = none

inductive Proc.Tracked : Proc → Prop where
  | up {w : World} {todo : List Action} (h : PairCell.Tracked w) : Tracked (.up w todo)
  | down {c : Config} {d : Disk} (hlive : OpenEffectsLive d)
      (hload : ∀ w, load c d = some w → PairCell.Tracked w) : Tracked (.down c d)

theorem Proc.Tracked.live {p : Proc} (h : p.Tracked) : OpenEffectsLive p.disk := by
  cases h with
  | up h => exact h.live
  | down hlive _ => exact hlive

theorem Proc.Tracked.step {p p' : Proc} {lab : Label} (hs : p.Sound) (h : p.Tracked)
    (hok : Traces p lab) (hstep : Proc.Step p lab p') : p'.Tracked := by
  cases hstep with
  | begin call script hfresh =>
      cases h with
      | up h =>
          exact .up ⟨h.policy, h.own, h.mode, h.live, h.named, h.accounted,
            h.precise, h.settled, h.owed⟩
  | serve item script =>
      cases h with
      | up h =>
          exact .up ⟨h.policy, h.own, h.mode, h.live, h.named, h.accounted,
            h.precise, h.settled, h.owed⟩
  | exec x todo =>
      cases h with
      | up h =>
          cases hs with
          | up hsound htodo _ => exact .up (h.act hsound htodo.1 hok)
  | crash =>
      cases h with
      | up h =>
          cases hs with
          | up hsound _ _ => exact .down h.live fun w' hload => h.load hsound hok hload
  | reopen hload =>
      cases h with
      | down _ h => exact .up (h _ hload)

theorem Proc.tracked_init (c : Config) : (Proc.init c).Tracked := by
  refine .down (fun e i _ hopen => by simp [Disk.unresolved] at hopen) fun w hload => ?_
  have hw : PairCell.Tracked { cfg := c, disk := {}, mem := loadCommon {} } :=
    { policy := rfl
      own := fun e r i hr => by simp at hr
      mode := fun _ a ha => by cases ha
      live := fun e i _ hopen => by simp [Disk.unresolved] at hopen
      named := fun a l e ha => by cases ha
      accounted := fun a l e ha => by cases ha
      precise := fun a l ha => by cases ha
      settled := fun l hl => by cases hl
      owed := fun e ho => by cases ho }
  have heq : load c {} = some { cfg := c, disk := {}, mem := loadCommon {} } := rfl
  rw [heq] at hload
  exact Option.some.inj hload ▸ hw

theorem reach_tracked {c : Config} {p : Proc} (h : Reach Proc.Step Traces (.init c) p) :
    p.Sound ∧ p.Tracked :=
  h.invariant (I := fun p => p.Sound ∧ p.Tracked) ⟨Proc.sound_init c, Proc.tracked_init c⟩
    fun _ _ _ hi hok hstep => ⟨hi.1.step hstep, hi.2.step hi.1 hok hstep⟩

/--
In every run in which each write leaves a trace on the leg and the process only
dies with that trace on disk, no effect of an attempt is open when the attempt
is terminated, and the effects that are open at any time belong to unresolved
attempts: once all attempts are terminal, no effect of the cell is open.
-/
theorem no_orphaned_effects (c : Config) (p : Proc)
    (h : Reach Proc.Step Traces (.init c) p) :
    (∀ w reason todo, p = .up w (.terminate reason :: todo) → ∀ a, w.mem.attempt = some a →
      ∀ e, e.attempt? = some a.attemptId → w.disk.unresolved e = false) ∧
    OpenEffectsLive p.disk := by
  obtain ⟨hs, ht⟩ := reach_tracked h
  refine ⟨?_, ht.live⟩
  rintro w reason todo rfl a ha e hi
  cases ht with
  | up ht =>
      cases hs with
      | up hsound htodo _ => exact ht.terminate hsound htodo.1 ha hi

/-- The call is about to terminate the attempt `a`, both legs verified empty. -/
def Proc.terminating (a : Attempt) : Proc → Bool
  | .up w (.terminate .bothEmptyVerified :: _) => decide (w.mem.attempt = some a)
  | _ => false

theorem Proc.terminating_iff {p : Proc} :
    p.terminating a = true ↔
      ∃ w todo, p = .up w (.terminate .bothEmptyVerified :: todo) ∧
        w.mem.attempt = some a := by
  unfold Proc.terminating
  split
  · next w todo =>
      rw [decide_eq_true_iff]
      exact ⟨fun h => ⟨w, todo, rfl, h⟩, fun ⟨w', todo', hp, ha⟩ => by cases hp; exact ha⟩
  · next hno =>
      constructor
      · intro h
        cases h
      · rintro ⟨w, todo, rfl, -⟩
        exact absurd rfl (hno w todo)

/-- Both entries are refused; the leader terminates with its journal resolved. -/
theorem no_orphaned_effects_refused :
    ∃ w todo, Reach Proc.Step Traces (.init Sample.leader)
        (.up w (.terminate .bothEmptyVerified :: todo)) ∧
      w.disk.wasSent (.cell 100 1 .entry) ∧
      ∀ e, e.attempt? = some 100 → w.disk.unresolved e = false := by
  obtain ⟨p, hreach, hp⟩ := Proc.play_any Traces (.init Sample.leader)
    (Sample.ready ++
      Sample.facts 2 { decision := some (Sample.attempt 100), replies := [Sample.refused]
                       reads := [some Sample.emptyAccount], depth := 5 } ++
      [.call (.event (.envelope (.legStatus { attemptId := 100, status := .rejected })))
        {}, .next 5])
    (fun p => p.terminating (Sample.attempt 100) &&
      decide (p.disk.wasSent (.cell 100 1 .entry)))
    (by decide +kernel)
  rw [Bool.and_eq_true] at hp
  obtain ⟨w, todo, rfl, ha⟩ := Proc.terminating_iff.1 hp.1
  exact ⟨w, todo, hreach, of_decide_eq_true hp.2,
    (no_orphaned_effects _ _ hreach).1 w _ todo rfl _ ha⟩

/-- The cancel of a pending order raises; nothing on the leg leads back to it. -/
theorem cancel_orphaned :
    ¬ ∀ c w todo, Reach Proc.Step anyStep (.init c)
        (.up w (.terminate .bothEmptyVerified :: todo)) →
      ∀ a, w.mem.attempt = some a →
        ∀ e, e.attempt? = some a.attemptId → w.disk.unresolved e = false := by
  intro h
  obtain ⟨p, hreach, hp⟩ := Proc.play_any anyStep (.init Sample.leader)
    (Sample.ready ++
      Sample.facts 2 { decision := some (Sample.attempt 100)
                       replies := [Sample.refused, { response := .raised }]
                       reads := [some ⟨[⟨9, "EURUSD"⟩], []⟩], depth := 5 } ++
      Sample.run (.event (.brokerSnapshot 3))
        { reads := [some Sample.emptyAccount], depth := 5 } ++
      [.call (.event (.envelope (.legStatus { attemptId := 100, status := .rejected })))
        {}, .next 5])
    (fun p => p.terminating (Sample.attempt 100) &&
      p.disk.unresolved (.cell 100 1 (.cancel (.broker 9)))) (by decide +kernel)
  rw [Bool.and_eq_true] at hp
  obtain ⟨w, todo, rfl, ha⟩ := Proc.terminating_iff.1 hp.1
  have hres := h _ w todo hreach _ ha (.cell 100 1 (.cancel (.broker 9))) rfl
  exact Bool.false_ne_true (hres.symm.trans hp.2)

end PairCell
