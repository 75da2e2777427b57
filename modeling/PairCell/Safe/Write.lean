import PairCell.Safe.Rules

/-!
# Broker writes keep to the discipline

A write begins with its effect prepared and ends with the effect resolved, or
unknown with nothing half done.  The items of other clients that it drains
leave the cell's own effect prepared, or end the write.
-/

namespace PairCell

open Lib World

/-! ## Journal rows -/

section Journal

variable {w : World}

theorem unresolved_get {d d' : Disk} {e : EffectId}
    (h : d'.journal.get e = d.journal.get e) :
    d'.unresolved e = d.unresolved e := by
  simp [Disk.unresolved, h]

/-- A conclusive move resolves the effect and leaves the others alone. -/
theorem moveJournal_unresolved (e x : EffectId) {state : EffectState}
    (retcode : Option Int) (hstate : state = .receipt ∨ state = .observed) :
    (w.moveJournal e state retcode).disk.unresolved x =
      if x = e then false else w.disk.unresolved x := by
  unfold Disk.unresolved
  rw [moveJournal_get]
  by_cases hx : x = e
  · rw [if_pos hx, if_pos hx]
    cases w.disk.journal.get e with
    | none => rfl
    | some r => rcases hstate with rfl | rfl <;> rfl
  · rw [if_neg hx, if_neg hx]

end Journal

/-- The journal holds the effect as prepared. -/
def PreparedAt (d : Disk) (e : EffectId) : Prop :=
  ∃ r, d.journal.get e = some r ∧ r.state = .prepared

theorem PreparedAt.unresolved {d : Disk} {e : EffectId} (h : PreparedAt d e) :
    d.unresolved e = true := by
  obtain ⟨r, hr, hs⟩ := h
  exact unresolved_iff.2 ⟨r, hr, .inl hs⟩

/-! ## Observations -/

/-- At most the observation of `e` is due. -/
structure Owing (e : EffectId) (w : World) : Prop where
  armed : w.mem.armed = none
  writing : w.mem.writing = none ∨ w.mem.writing = some e ∧ w.disk.unresolved e = true
  owed : w.mem.owed = none ∨ w.mem.owed = some e ∧ w.disk.unresolved e = true
  due : w.mem.due = false

theorem Idle.owing {w : World} (h : Idle w) (e : EffectId) : Owing e w :=
  ⟨h.armed, .inl h.writing, .inl h.owed, h.due⟩

theorem Owing.idle {w : World} {e : EffectId} (h : Owing e w)
    (hres : w.disk.unresolved e = false) :
    Idle w := by
  refine ⟨h.armed, ?_, ?_, h.due⟩
  · rcases h.writing with hw | ⟨-, hu⟩
    · exact hw
    · simp [hres] at hu
  · rcases h.owed with hw | ⟨-, hu⟩
    · exact hw
    · simp [hres] at hu

theorem filter_ne_self {e : EffectId} {x : Option EffectId} (h : x = none ∨ x = some e) :
    x.filter (fun y => decide (y ≠ e)) = none := by
  rcases h with rfl | rfl <;> simp

theorem Owing.observed {w : World} {e : EffectId} (h : Owing e w) :
    Idle (w.act (.recordObservation e)) := by
  refine ⟨?_, ?_, ?_, ?_⟩
  · simpa [act, endOwed, endWrite] using h.armed
  · have hw : w.mem.writing = none ∨ w.mem.writing = some e := h.writing.imp_right And.left
    simpa [act, endOwed, endWrite] using filter_ne_self hw
  · have hw : w.mem.owed = none ∨ w.mem.owed = some e := h.owed.imp_right And.left
    simpa [act, endOwed, endWrite] using filter_ne_self hw
  · simpa [act, endOwed, endWrite] using h.due

theorem act_recordObservation_unresolved (w : World) (e x : EffectId) :
    (w.act (.recordObservation e)).disk.unresolved x =
      if x = e then false else w.disk.unresolved x :=
  moveJournal_unresolved e x none (.inr rfl)

theorem frame_recordObservation (w : World) (e : EffectId) :
    Frame w (w.act (.recordObservation e)) := by
  constructor
  · constructor <;> simp [act, endOwed, endWrite]
  · simp [act, endOwed, endWrite]
  · simp [act, endOwed, endWrite]
  · intro x hx
    rw [act_recordObservation_unresolved] at hx
    split at hx
    · cases hx
    · exact hx

theorem wp_recordEffectObservation {w : World} {e : EffectId} (hs : Sound w)
    (h : Owing e w) :
    wp Permits (recordEffectObservation (some e))
      (onOk fun _ w' => Good w' ∧ Frame w w' ∧ w'.disk.unresolved e = false) w := by
  simp only [recordEffectObservation, wp_bind, wp_get, next_ok]
  cases hu : w.disk.unresolved e with
  | false => simpa [hu, onOk] using ⟨⟨hs, h.idle hu⟩, Frame.refl w⟩
  | true =>
      obtain ⟨row, hrow, hstate⟩ := unresolved_iff.1 hu
      have hne : row.state ≠ .receipt := by
        rcases hstate with hst | hst <;> rw [hst] <;> decide
      have hp : Permits w (.recordObservation e) := hu
      have hgood : Good (w.act (.recordObservation e)) := ⟨hs.act hp, h.observed⟩
      simp only [if_true, Journal.recordObservation, wp_bind, wp_get, next_ok,
        hrow, hne, if_false, wp_emit, wp_pure, note, bumpStateVersion]
      refine ⟨hp, trivial, trivial, ⟨?_, idle_same hgood.idle rfl rfl rfl rfl⟩, ?_, ?_⟩
      · exact ((hgood.sound.act (a := .transition (.note _)) trivial).act
          (a := .bump) trivial)
      · exact (frame_recordObservation w e).trans
          ⟨⟨rfl, rfl, rfl, rfl, rfl, rfl, rfl, rfl⟩, rfl, rfl, fun _ h => h⟩
      · exact (act_recordObservation_unresolved w e e).trans (by simp)

/-! ## Journal calls -/

section Calls

variable {w : World} {e : EffectId}

theorem wp_prepare {p : Payload} {own : Bool}
    {R : Except Exn (Except JournalError EffectState) → World → Prop}
    (hnew : w.disk.journal.get e = none → Permits w (.prepare e p own) ∧
      R (.ok (.ok .prepared)) (w.act (.prepare e p own)))
    (hreused : R (.ok (.error .reused)) w)
    (hold : ∀ row, w.disk.journal.get e = some row → row.payload = p →
      R (.ok (.ok row.state)) w) :
    wp Permits (Journal.prepare e p own) R w := by
  simp only [Journal.prepare, wp_bind, wp_get, next_ok]
  cases hrow : w.disk.journal.get e with
  | none =>
      simp only [wp_bind, wp_emit, wp_pure, next_ok]
      exact hnew hrow
  | some row =>
      dsimp only
      split
      · rw [wp_pure]
        exact hreused
      · next hpayload =>
          rw [wp_pure]
          exact hold row hrow (not_not.1 hpayload)

theorem wp_markSendStarted {R : Except Exn (Except JournalError Unit) → World → Prop}
    (harmed : w.mem.armed = none)
    (hsome : PreparedAt w.disk e → R (.ok (.ok ())) (w.act (.markSendStarted e)))
    (hnone : ¬ PreparedAt w.disk e → ∀ err, R (.ok (.error err)) w) :
    wp Permits (Journal.markSendStarted e) R w := by
  simp only [Journal.markSendStarted, wp_bind, wp_get, next_ok]
  cases hrow : w.disk.journal.get e with
  | none =>
      rw [wp_pure]
      refine hnone ?_ _
      rintro ⟨row, hrow', -⟩
      simp [hrow] at hrow'
  | some row =>
      by_cases hst : row.state = .prepared
      · simp only [hst, ne_eq, not_true_eq_false, if_false, wp_bind, wp_emit,
          wp_pure, next_ok]
        exact ⟨⟨harmed, row, hrow, hst⟩, hsome ⟨row, hrow, hst⟩⟩
      · simp only [hst, ne_eq, not_false_eq_true, if_true, wp_pure]
        refine hnone ?_ _
        rintro ⟨row', hrow', hst'⟩
        rw [hrow] at hrow'
        exact hst (Option.some.inj hrow' ▸ hst')

theorem wp_recordReceipt {retcode : Option Int}
    {R : Except Exn (Except JournalError Unit) → World → Prop}
    (hrow : ∃ r, w.disk.journal.get e = some r ∧ r.state = .sendStarted)
    (hanswer : w.disk.answered e retcode)
    (h : R (.ok (.ok ())) (w.act (.recordReceipt e retcode))) :
    wp Permits (Journal.recordReceipt e retcode true) R w := by
  obtain ⟨row, hrow, hst⟩ := hrow
  have hne : row.state ≠ .observed := by rw [hst]; decide
  simp only [Journal.recordReceipt, wp_bind, wp_get, next_ok, hrow, hne, if_false, if_true,
    wp_emit, wp_pure]
  exact ⟨⟨⟨row, hrow, .inl hst⟩, hanswer⟩, h⟩

end Calls

/-! ## A send -/

section Send

variable {w : World} {e : EffectId}

/-- Nothing but entry orders that were there before. -/
def SameEntries (w w' : World) : Prop :=
  ∀ s ∈ w'.disk.sent, s.payload.isEntry = true → s ∈ w.disk.sent

theorem SameEntries.trans {w w' w'' : World} (h : SameEntries w w')
    (h' : SameEntries w' w'') :
    SameEntries w w'' :=
  fun s hs he => h s (h' s hs he) he

theorem SameEntries.entrySent {w w' : World} (h : SameEntries w w') {x : EffectId}
    (hs : w'.disk.entrySent x) : w.disk.entrySent x := by
  obtain ⟨s, hs, hx, he⟩ := hs
  exact ⟨s, h s hs he, hx, he⟩

theorem sameEntries_of_sent {w w' : World} (h : w'.disk.sent = w.disk.sent) :
    SameEntries w w' :=
  fun _ hs _ => h ▸ hs

theorem act_orderSend_sent (p : Payload) (r : Reply) :
    (w.act (.orderSend e p r)).disk.sent = w.disk.sent ++ [⟨e, p, r⟩] := by
  cases h : isReceipt r.response <;> simp [act, h, endWrite]

theorem act_orderSend_journal (p : Payload) (r : Reply) :
    (w.act (.orderSend e p r)).disk.journal = w.disk.journal := by
  cases h : isReceipt r.response <;> simp [act, h, endWrite]

theorem act_orderSend_writing (p : Payload) (r : Reply) :
    (w.act (.orderSend e p r)).mem.writing =
      if isReceipt r.response then w.mem.writing
      else w.mem.writing.filter fun x => decide (x ≠ e) := by
  cases h : isReceipt r.response <;> simp [act, h, endWrite]

theorem act_orderSend_armed (p : Payload) (r : Reply) :
    (w.act (.orderSend e p r)).mem.armed = none := by
  cases h : isReceipt r.response <;> simp [act, h]

theorem act_orderSend_owed (p : Payload) (r : Reply) :
    (w.act (.orderSend e p r)).mem.owed = w.mem.owed := by
  cases h : isReceipt r.response <;> simp [act, h, endWrite]

theorem act_orderSend_due (p : Payload) (r : Reply) :
    (w.act (.orderSend e p r)).mem.due = (p.isEntry && succeeded r.response) := by
  cases h : isReceipt r.response <;> simp [act, h]

theorem steady_orderSend (p : Payload) (r : Reply) :
    Steady w (w.act (.orderSend e p r)) := by
  constructor <;> cases h : isReceipt r.response <;> simp [act, h, endWrite]

theorem steady_markSendStarted : Steady w (w.act (.markSendStarted e)) := by
  constructor <;> simp [act]

theorem steady_recordReceipt (retcode : Option Int) :
    Steady w (w.act (.recordReceipt e retcode)) := by
  constructor <;> simp [act, endWrite]

theorem act_markSendStarted_get (x : EffectId) :
    (w.act (.markSendStarted e)).disk.journal.get x =
      if x = e then (w.disk.journal.get e).map
        fun r => { r with state := .sendStarted, retcode := none }
      else w.disk.journal.get x :=
  moveJournal_get e x .sendStarted none

theorem act_markSendStarted_started (h : PreparedAt w.disk e) :
    ∃ r, (w.act (.markSendStarted e)).disk.journal.get e = some r ∧
      r.state = .sendStarted := by
  obtain ⟨r, hr, -⟩ := h
  exact ⟨{ r with state := .sendStarted, retcode := none }, by
    rw [act_markSendStarted_get, if_pos rfl, hr]; rfl, rfl⟩

theorem act_recordReceipt_get_ne {x : EffectId} (retcode : Option Int) (h : x ≠ e) :
    (w.act (.recordReceipt e retcode)).disk.journal.get x = w.disk.journal.get x := by
  have hget := moveJournal_get (w := w) e x .receipt retcode
  rw [if_neg h] at hget
  exact hget

theorem act_recordReceipt_writing (retcode : Option Int) :
    (w.act (.recordReceipt e retcode)).mem.writing =
      w.mem.writing.filter fun x => decide (x ≠ e) := by
  simp [act, endWrite]

end Send

/-! ## Items of other clients -/

section Foreign

variable {w : World} {e : EffectId}

/-- The write of `e` has not started, and `e` is still prepared unless
nothing waits for it. -/
structure MidWrite (e : EffectId) (w : World) : Prop where
  armed : w.mem.armed = none
  owed : w.mem.owed = none
  writing : w.mem.writing = none ∨ w.mem.writing = some e ∧ PreparedAt w.disk e
  due : w.mem.due = false

theorem MidWrite.owing (h : MidWrite e w) : Owing e w :=
  ⟨h.armed, h.writing.imp_right fun hw => ⟨hw.1, hw.2.unresolved⟩, .inl h.owed, h.due⟩

/-- Serving another client's item keeps the write where it is, or ends it. -/
structure Served (e : EffectId) (w w' : World) : Prop where
  sound : Sound w'
  mid : MidWrite e w'
  steady : Steady w w'
  entries : SameEntries w w'
  ended : w.mem.writing = none → w'.mem.writing = none
  payloads : ∀ x p, w.disk.journaledAs x p → w'.disk.journaledAs x p

theorem Served.refl (hs : Sound w) (hm : MidWrite e w) : Served e w w :=
  ⟨hs, hm, Steady.refl w, sameEntries_of_sent rfl, id, fun _ _ => id⟩

theorem Served.trans {w' w'' : World} (h : Served e w w') (h' : Served e w' w'') :
    Served e w w'' :=
  ⟨h'.sound, h'.mid, h.steady.trans h'.steady, h.entries.trans h'.entries,
    h'.ended ∘ h.ended, fun x p hx => h'.payloads x p (h.payloads x p hx)⟩

/-- The effect of the item is not the one being written, so that one stays prepared. -/
theorem preparedAt_get {d d' : Disk} {x : EffectId}
    (h : d'.journal.get x = d.journal.get x) (hp : PreparedAt d x) : PreparedAt d' x := by
  obtain ⟨r, hr, hst⟩ := hp
  exact ⟨r, h.trans hr, hst⟩

theorem served_prepare {x : EffectId} {p : Payload} (hs : Sound w) (hm : MidWrite e w)
    (hx : w.disk.journal.get x = none) :
    Permits w (.prepare x p false) ∧ Served e w (w.act (.prepare x p false)) ∧
      PreparedAt (w.act (.prepare x p false)).disk x := by
  have hp : Permits w (.prepare x p false) := ⟨hx, by simp⟩
  have hset : (w.act (.prepare x p false)).disk.journal =
      w.disk.journal.set x ⟨p, .prepared, none, false⟩ :=
    rfl
  refine ⟨hp, ⟨hs.act hp, ⟨hm.armed, hm.owed, ?_, hm.due⟩,
    ⟨rfl, rfl, rfl, rfl, rfl, rfl, rfl, rfl⟩, sameEntries_of_sent rfl, id, fun _ _ hx =>
      hx.act hp⟩, ⟨⟨p, .prepared, none, false⟩, by rw [hset, Table.get_set_self], rfl⟩⟩
  rcases hm.writing with hw | ⟨hw, hprep⟩
  · exact .inl hw
  · refine .inr ⟨hw, preparedAt_get ?_ hprep⟩
    have hne : e ≠ x := by
      rintro rfl
      obtain ⟨r, hr, -⟩ := hprep
      simp [hx] at hr
    rw [hset, Table.get_set_ne _ _ hne]

/-- The state after the terminal answered an item. -/
theorem served_send {x : EffectId} {p : Payload} (hs : Sound w) (hm : MidWrite e w)
    (hprep : PreparedAt w.disk x) (hp : p.isEntry = false)
    (hpay : w.disk.journaledAs x p) :
    let w₁ := w.act (.markSendStarted x)
    let r := w₁.script.replies.headD { response := .raised }
    let w₂ := w₁.act (.orderSend x p r)
    Permits w₁ (.orderSend x p r) ∧
      (isReceipt r.response = false → Served e w w₂) ∧
      (∀ retcode, r.response = .receipt retcode true →
        (∃ row, w₂.disk.journal.get x = some row ∧ row.state = .sendStarted) ∧
        w₂.disk.answered x retcode ∧ Served e w (w₂.act (.recordReceipt x retcode))) := by
  intro w₁ r w₂
  obtain ⟨row, hrow, hst⟩ := hprep
  have hp₁ : Permits w (.markSendStarted x) := ⟨hm.armed, row, hrow, hst⟩
  have hp₂ : Permits w₁ (.orderSend x p r) :=
    ⟨rfl, rfl, by simp [hp], hpay.act hp₁, by simp [w₁, act, hm.due]⟩
  have hs₂ : Sound w₂ := (hs.act hp₁).act hp₂
  have hsteady : Steady w w₂ := steady_markSendStarted.trans (steady_orderSend p r)
  have hw₁ : w₁.mem.writing = w.mem.writing := by simp [w₁, act]
  have howed : w₂.mem.owed = none := by
    rw [show w₂.mem.owed = w₁.mem.owed from act_orderSend_owed p r,
      show w₁.mem.owed = w.mem.owed by simp [w₁, act]]
    exact hm.owed
  have hdue : w₂.mem.due = false := by
    rw [show w₂.mem.due = _ from act_orderSend_due p r, hp, Bool.false_and]
  have hentries : SameEntries w w₂ := by
    intro s hsent hentry
    rw [show w₂.disk.sent = _ from act_orderSend_sent p r, List.mem_append] at hsent
    rcases hsent with hsent | hsent
    · simpa [w₁, act] using hsent
    · rw [List.mem_singleton.1 hsent] at hentry
      simp [hp] at hentry
  have hother : e ≠ x → w₂.disk.journal.get e = w.disk.journal.get e := by
    intro hne
    rw [show w₂.disk.journal = w₁.disk.journal from act_orderSend_journal p r,
      show w₁.disk.journal.get e = _ from act_markSendStarted_get e, if_neg hne]
  have hstarted : ∃ row, w₂.disk.journal.get x = some row ∧ row.state = .sendStarted := by
    rw [show w₂.disk.journal = w₁.disk.journal from act_orderSend_journal p r]
    exact act_markSendStarted_started ⟨row, hrow, hst⟩
  refine ⟨hp₂, ?_, ?_⟩
  · intro hno
    have hwriting : w₂.mem.writing = w.mem.writing.filter fun y => decide (y ≠ x) := by
      rw [show w₂.mem.writing = _ from act_orderSend_writing p r, hw₁, hno]
      rfl
    refine ⟨hs₂, ⟨act_orderSend_armed p r, howed, ?_, hdue⟩, hsteady, hentries,
      fun hw => by simp [hwriting, hw], fun _ _ hx => (hx.act hp₁).act hp₂⟩
    rw [hwriting]
    rcases hm.writing with hw | ⟨hw, hprep⟩
    · simp [hw]
    · by_cases hx : e = x
      · simp [hw, hx]
      · exact .inr ⟨by simp [hw, hx], preparedAt_get (hother hx) hprep⟩
  · intro retcode hreceipt
    have hyes : isReceipt r.response = true := by rw [hreceipt]; rfl
    have hanswer : w₂.disk.answered x retcode := by
      refine ⟨⟨x, p, r⟩, ?_, rfl, hreceipt⟩
      rw [show w₂.disk.sent = _ from act_orderSend_sent p r]
      exact List.mem_append_right _ (by simp)
    have hp₃ : Permits w₂ (.recordReceipt x retcode) := by
      obtain ⟨row, hrow, hst⟩ := hstarted
      exact ⟨⟨row, hrow, .inl hst⟩, hanswer⟩
    have hwriting : (w₂.act (.recordReceipt x retcode)).mem.writing =
        w.mem.writing.filter fun y => decide (y ≠ x) := by
      rw [act_recordReceipt_writing,
        show w₂.mem.writing = _ from act_orderSend_writing p r, hyes, if_pos rfl, hw₁]
    refine ⟨hstarted, hanswer, hs₂.act hp₃, ⟨?_, ?_, ?_, ?_⟩,
      hsteady.trans (steady_recordReceipt retcode), ?_,
      fun hw => by simp [hwriting, hw], fun _ _ hx => ((hx.act hp₁).act hp₂).act hp₃⟩
    · rw [show (w₂.act (.recordReceipt x retcode)).mem.armed =
        w₂.mem.armed by simp [act, endWrite]]
      exact act_orderSend_armed p r
    · rw [show (w₂.act (.recordReceipt x retcode)).mem.owed =
        w₂.mem.owed by simp [act, endWrite]]
      exact howed
    · rw [hwriting]
      rcases hm.writing with hw | ⟨hw, hprep⟩
      · simp [hw]
      · by_cases hx : e = x
        · simp [hw, hx]
        · refine .inr ⟨by simp [hw, hx], preparedAt_get ?_ hprep⟩
          rw [act_recordReceipt_get_ne _ hx, hother hx]
    · rw [show (w₂.act (.recordReceipt x retcode)).mem.due =
        w₂.mem.due by simp [act, endWrite]]
      exact hdue
    · refine hentries.trans (sameEntries_of_sent ?_)
      simp [act, endWrite]

theorem servable_isEntry {p : Payload} (h : servable p = true) : p.isEntry = false := by
  cases p <;> simp_all [servable, Payload.isEntry]

/-- The part of the dispatcher after the item's effect is found prepared. -/
theorem wp_serve (item : ForeignItem) (hs : Sound w) (hm : MidWrite e w)
    (hprep : PreparedAt w.disk item.effect)
    (hpay : w.disk.journaledAs item.effect item.payload) :
    wp Permits (if servable item.payload && item.allowed then do
        match ← Journal.markSendStarted item.effect with
        | .error _ => pure ()
        | .ok _ => do
            let r ← orderSend item.effect item.payload
            match r.response with
            | .receipt retcode true => do
                let _ ← Journal.recordReceipt item.effect retcode true
                pure ()
            | _ => pure ()
      else pure ()) (onOk fun _ w' => Served e w w') w := by
  split
  · next hguard =>
      rw [Bool.and_eq_true] at hguard
      obtain ⟨hperm, hplain, hreceipt⟩ :=
        served_send hs hm hprep (servable_isEntry hguard.1) hpay
      rw [wp_bind]
      apply wp_markSendStarted hm.armed
      · intro _
        simp only [next_ok, orderSend, wp_bind, wp_get, wp_emit, wp_pure]
        refine ⟨hperm, ?_⟩
        split
        · next retcode heq =>
            obtain ⟨hrow, hanswer, hserved⟩ := hreceipt retcode heq
            rw [wp_bind]
            apply wp_recordReceipt hrow hanswer
            rw [next_ok, wp_pure]
            exact hserved
        · next hno =>
            rw [wp_pure]
            refine hplain ?_
            cases hresp : ((w.act (.markSendStarted item.effect)).script.replies.headD
                { response := .raised }).response with
            | raised => rfl
            | nothing => rfl
            | receipt retcode encodable =>
                cases encodable with
                | false => rfl
                | true => exact absurd hresp (hno retcode)
      · intro hnot
        exact absurd hprep hnot
  · rw [wp_pure]
    exact Served.refl hs hm

theorem wp_dispatch (item : ForeignItem) (hs : Sound w) (hm : MidWrite e w) :
    wp Permits (dispatchScheduledTraderRpc item) (onOk fun _ w' => Served e w w') w := by
  unfold dispatchScheduledTraderRpc
  rw [wp_bind]
  apply wp_prepare
  · intro hnone
    obtain ⟨hp, hserved, hprep⟩ := served_prepare (p := item.payload) hs hm hnone
    refine ⟨hp, ?_⟩
    rw [next_ok]
    have hpay :
        (w.act (.prepare item.effect item.payload false)).disk.journaledAs item.effect
        item.payload := ⟨_, Table.get_set_self _ _ _, rfl⟩
    refine wp_mono (wp_serve item hserved.sound hserved.mid hprep hpay) ?_
    rintro (err | u) w' h
    · exact h.elim
    · exact hserved.trans h
  · rw [next_ok, wp_pure]
    exact Served.refl hs hm
  · intro row hrow hpayload
    rw [next_ok]
    cases hst : row.state with
    | prepared => exact wp_serve item hs hm ⟨row, hrow, hst⟩ ⟨row, hrow, hpayload⟩
    | sendStarted => exact (wp_pure _ _ _).2 (Served.refl hs hm)
    | receipt => exact (wp_pure _ _ _).2 (Served.refl hs hm)
    | observed => exact (wp_pure _ _ _).2 (Served.refl hs hm)

theorem wp_drain (items : List ForeignItem) (hs : Sound w) (hm : MidWrite e w) :
    wp Permits (drain items) (onOk fun _ w' => Served e w w') w := by
  induction items generalizing w with
  | nil => exact (wp_pure _ _ _).2 (Served.refl hs hm)
  | cons item items ih =>
      unfold drain
      refine wp_seq (wp_dispatch item hs hm) ?_
      intro _ w' hserved
      refine wp_mono (ih hserved.sound hserved.mid) ?_
      rintro (err | u) w'' h
      · exact h.elim
      · exact hserved.trans h

end Foreign

/-! ## A write of the cell -/

section Own

variable {w : World} {e : EffectId} {p : Payload}

/-- How a write that returned ended. -/
structure WriteEnd (e : EffectId) (p : Payload) (w : World) (out : BrokerWriteResult)
    (w' : World) : Prop where
  sound : Sound w'
  armed : w'.mem.armed = none
  writing : w'.mem.writing = none
  owed : w'.mem.owed = none
  due : w'.mem.due = true → p.isEntry = true ∧ out.category = .completed
  steady : Steady w w'
  resolved : out.category ≠ .unknownAfterSend → w'.disk.unresolved e = false
  unsent : out.category = .expiredNotStarted → SameEntries w w'
  refused : out.category = .rejected →
    SameEntries w w' ∨ (p.isEntry = true → w'.disk.entryRefused e)

/-- A write that raised leaves nothing half done either. -/
def writePost (e : EffectId) (p : Payload) (w : World) :
    Except Exn BrokerWriteResult → World → Prop
  | .ok out, w' => WriteEnd e p w out w'
  | .error _, w' => Good w' ∧ Steady w w'

theorem WriteEnd.trans {w' w'' : World} {out : BrokerWriteResult} (hsteady : Steady w w')
    (hentries : SameEntries w w') (h : WriteEnd e p w' out w'') :
    WriteEnd e p w out w'' where
  sound := h.sound
  armed := h.armed
  writing := h.writing
  owed := h.owed
  due := h.due
  steady := hsteady.trans h.steady
  resolved := h.resolved
  unsent := fun hc => hentries.trans (h.unsent hc)
  refused := fun hc => (h.refused hc).imp_left hentries.trans

/-- Only a completed entry leaves something to do: its leg has to be saved. -/
theorem WriteEnd.good {w' : World} {out : BrokerWriteResult} (h : WriteEnd e p w out w')
    (hno : p.isEntry = false ∨ out.category ≠ .completed) : Good w' := by
  refine ⟨h.sound, h.armed, h.writing, h.owed, ?_⟩
  by_contra hdue
  obtain ⟨hentry, hdone⟩ := h.due (by simpa using hdue)
  rcases hno with hno | hno
  · rw [hentry] at hno
    cases hno
  · exact hno hdone

/-- What was served before the write counts as part of it. -/
theorem writePost.after {r : Except Exn BrokerWriteResult} {w' w'' : World}
    (h : writePost e p w' r w'') (hserved : Served e w w') : writePost e p w r w'' := by
  cases r with
  | error err => exact ⟨h.1, hserved.steady.trans h.2⟩
  | ok out => exact WriteEnd.trans hserved.steady hserved.entries h

theorem EntryDispatch.steady {w' : World} (h : EntryDispatch w e p) (hs : Steady w w') :
    EntryDispatch w' e p := by
  obtain ⟨a, l, ha, hl, he, hp, hrest⟩ := h
  exact ⟨a, l, hs.attempt.trans ha, hs.leg.trans hl, by rw [hs.cfg]; exact he,
    by rw [hs.cfg]; exact hp, hrest⟩

theorem writeEnd_good {w' : World} {out : BrokerWriteResult} (hgood : Good w')
    (hsteady : Steady w w')
    (hres : out.category ≠ .unknownAfterSend → w'.disk.unresolved e = false)
    (hunsent : out.category = .expiredNotStarted → SameEntries w w')
    (hrefused : out.category = .rejected →
      SameEntries w w' ∨ (p.isEntry = true → w'.disk.entryRefused e)) :
    WriteEnd e p w out w' :=
  ⟨hgood.sound, hgood.idle.armed, hgood.idle.writing, hgood.idle.owed,
    fun h => absurd (h.symm.trans hgood.idle.due) (by decide), hsteady, hres,
      hunsent, hrefused⟩

theorem wp_notStarted (category : OutcomeCategory) (hs : Sound w) (hm : MidWrite e w) :
    wp Permits (notStarted e category) (writePost e p w) w := by
  unfold notStarted
  refine wp_seq (wp_recordEffectObservation hs hm.owing) ?_
  rintro u w' ⟨hgood, hframe, hres⟩
  rw [wp_pure]
  exact writeEnd_good hgood hframe.toSteady (fun _ => hres)
    (fun _ => sameEntries_of_sent hframe.sent) fun _ =>
      .inl (sameEntries_of_sent hframe.sent)

theorem MidWrite.idle (h : MidWrite e w) (hno : ¬ PreparedAt w.disk e) : Idle w := by
  refine ⟨h.armed, ?_, h.owed, h.due⟩
  rcases h.writing with hw | ⟨-, hprep⟩
  · exact hw
  · exact absurd hprep hno

/-- The result is unknown: nothing is claimed but that nothing is half done. -/
theorem writeEnd_unknown {w' : World} (hgood : Good w') (hsteady : Steady w w') :
    WriteEnd e p w { category := .unknownAfterSend } w' :=
  writeEnd_good hgood hsteady (fun hc => absurd rfl hc) (fun hc => (by cases hc))
    fun hc => (by cases hc)

theorem steady_note (event : String) : Steady w (w.act (.transition (.note event))) :=
  ⟨rfl, rfl, rfl, rfl, rfl, rfl, rfl, rfl⟩

/-- The cell at the moment its own write has been answered. -/
structure Answered (e : EffectId) (p : Payload) (w : World) (r : Reply)
    (w' : World) : Prop where
  sound : Sound w'
  steady : Steady w w'
  armed : w'.mem.armed = none
  owed : w'.mem.owed = none
  writing : w'.mem.writing = none ∨ w'.mem.writing = some e
  ended : isReceipt r.response = false → w'.mem.writing = none
  started : ∃ row, w'.disk.journal.get e = some row ∧ row.state = .sendStarted
  sent : ⟨e, p, r⟩ ∈ w'.disk.sent
  due : w'.mem.due = (p.isEntry && succeeded r.response)

theorem succeeded_isReceipt {r : Response} (h : isReceipt r = false) :
    succeeded r = false := by
  unfold succeeded
  split
  · cases h
  · rfl

theorem Answered.good {r : Reply} {w' : World} (h : Answered e p w r w')
    (hno : isReceipt r.response = false) : Good w' :=
  ⟨h.sound, h.armed, h.ended hno, h.owed,
    by rw [h.due, succeeded_isReceipt hno, Bool.and_false]⟩

/-- The effect goes through `send_started` to the terminal without a step in between. -/
theorem answered_send (event : String) (r : Reply) (hs : Sound w) (hm : MidWrite e w)
    (hprep : PreparedAt w.disk e) (hpay : w.disk.journaledAs e p)
    (hentry : p.isEntry = true → EntryDispatch w e p) :
    let w₁ := (w.act (.markSendStarted e)).act (.transition (.note event))
    r = w₁.script.replies.headD { response := .raised } →
      Permits w₁ (.orderSend e p r) ∧ Answered e p w r (w₁.act (.orderSend e p r)) := by
  intro w₁ hr
  have hp₁ : Permits w (.markSendStarted e) := ⟨hm.armed, hprep⟩
  have hs₁ : Sound w₁ := (hs.act hp₁).act (a := .transition (.note _)) trivial
  have hsteady₁ : Steady w w₁ := steady_markSendStarted.trans (steady_note _)
  have hp₂ : Permits w₁ (.orderSend e p r) :=
    ⟨rfl, hr, fun he => (hentry he).steady hsteady₁, hpay.act hp₁, by
      simp [w₁, act, addTransition, hm.due]⟩
  have hwriting : w₁.mem.writing = w.mem.writing := by simp [w₁, act, addTransition]
  have howed : w₁.mem.owed = w.mem.owed := by simp [w₁, act, addTransition]
  refine ⟨hp₂, hs₁.act hp₂, hsteady₁.trans (steady_orderSend p r), act_orderSend_armed p r,
    ?_, ?_, ?_, ?_, ?_, act_orderSend_due p r⟩
  · rw [act_orderSend_owed, howed]
    exact hm.owed
  · rw [act_orderSend_writing, hwriting]
    rcases hm.writing with hw | ⟨hw, -⟩
    · simp [hw]
    · cases isReceipt r.response <;> simp [hw]
  · intro hno
    rw [act_orderSend_writing, hwriting, hno]
    rcases hm.writing with hw | ⟨hw, -⟩ <;> simp [hw]
  · rw [act_orderSend_journal]
    exact act_markSendStarted_started hprep
  · rw [act_orderSend_sent]
    exact List.mem_append_right _ (by simp)

theorem wp_send (hs : Sound w) (hm : MidWrite e w) (hprep : PreparedAt w.disk e)
    (hpay : w.disk.journaledAs e p) (hentry : p.isEntry = true → EntryDispatch w e p) :
    wp Permits (do note "timing:mt5_send_started"; orderSend e p)
      (onOk fun r w' => Answered e p w r w') (w.act (.markSendStarted e)) := by
  simp only [note, orderSend, wp_bind, wp_emit, wp_get, next_ok, wp_pure]
  exact ⟨trivial, answered_send _ _ hs hm hprep hpay hentry rfl⟩

/-- The receipt of the answered write goes to the journal. -/
theorem Answered.recorded {r : Reply} {w' : World} (h : Answered e p w r w')
    {retcode : Option Int} (hresp : r.response = .receipt retcode true)
    {out : BrokerWriteResult}
    (hdue : p.isEntry = true → succeeded r.response = true → out.category = .completed)
    (hunsent : out.category ≠ .expiredNotStarted)
    (hrefused : out.category = .rejected → p.isEntry = true →
      ∃ code, r.response = .receipt code true ∧ successRetcode code = false) :
    WriteEnd e p w out (w'.act (.recordReceipt e retcode)) := by
  obtain ⟨row, hrow, hst⟩ := h.started
  have hp : Permits w' (.recordReceipt e retcode) :=
    ⟨⟨row, hrow, .inl hst⟩, _, h.sent, rfl, hresp⟩
  have hsent : (w'.act (.recordReceipt e retcode)).disk.sent = w'.disk.sent := by
    simp [act, endWrite]
  have hdue' : (w'.act (.recordReceipt e retcode)).mem.due = w'.mem.due := by
    simp [act, endWrite]
  refine ⟨h.sound.act hp, ?_, ?_, ?_, ?_,
    h.steady.trans (steady_recordReceipt retcode), ?_,
    fun hc => absurd hc hunsent, ?_⟩
  · simpa [act, endWrite] using h.armed
  · rw [act_recordReceipt_writing]
    rcases h.writing with hw | hw <;> simp [hw]
  · simpa [act, endWrite] using h.owed
  · intro hd
    rw [hdue', h.due, Bool.and_eq_true] at hd
    exact ⟨hd.1, hdue hd.1 hd.2⟩
  · intro _
    have hres := moveJournal_unresolved (w := w') e e retcode (.inl rfl)
    rw [if_pos rfl] at hres
    exact hres
  · intro hc
    refine .inr fun hentry => ?_
    obtain ⟨code, hcode, hfail⟩ := hrefused hc hentry
    exact ⟨⟨e, p, r⟩, hsent ▸ h.sent, rfl, hentry, code, hcode, hfail⟩

theorem WriteEnd.note {w' : World} {out : BrokerWriteResult} (h : WriteEnd e p w out w')
    (event : String) : WriteEnd e p w out (w'.act (.transition (.note event))) where
  sound := h.sound.act (a := .transition (.note event)) trivial
  armed := h.armed
  writing := h.writing
  owed := h.owed
  due := h.due
  steady := h.steady.trans (steady_note event)
  resolved := h.resolved
  unsent := h.unsent
  refused := h.refused

theorem successRetcode_of_refused {retcode : Option Int}
    (h : successfulBrokerWrite p.operation retcode = false) :
    successRetcode retcode = false := by
  cases retcode with
  | none => rfl
  | some code => simp_all [successfulBrokerWrite, successRetcode]

theorem wp_classify {r : Reply} {w' : World} (h : Answered e p w r w') :
    wp Permits
      (match r.response with
        | .raised => do
            note "mt5_call_raised"
            emit (.complete e)
            pure { category := .unknownAfterSend }
        | .nothing => do
            note "mt5_returned_no_receipt"
            emit (.complete e)
            pure { category := .unknownAfterSend }
        | .receipt _ false => do
            emit (.complete e)
            raise .encode
        | .receipt retcode true => do
            match ← Journal.recordReceipt e retcode true with
            | .error _ => do
                note "effect_journal_refused_receipt"
                emit (.complete e)
                pure { category := .unknownAfterSend }
            | .ok _ => do
                note "timing:broker_response"
                emit (.complete e)
                if successfulBrokerWrite p.operation retcode then
                  pure { category := .completed, receipt := some retcode }
                else
                  pure { category := .rejected, receipt := some retcode })
      (writePost e p w) w' := by
  have hnoted : ∀ event : String, isReceipt r.response = false →
      WriteEnd e p w { category := .unknownAfterSend }
        (w'.act (.transition (.note event))) := by
    intro event hno
    have hg := h.good hno
    exact writeEnd_unknown ⟨hg.sound.act (a := .transition (.note event)) trivial,
      idle_same hg.idle rfl rfl rfl rfl⟩ (h.steady.trans (steady_note event))
  cases hresp : r.response with
  | raised =>
      simp only [note, wp_bind, wp_emit, next_ok, wp_pure]
      exact ⟨trivial, trivial, hnoted _ (by rw [hresp]; rfl)⟩
  | nothing =>
      simp only [note, wp_bind, wp_emit, next_ok, wp_pure]
      exact ⟨trivial, trivial, hnoted _ (by rw [hresp]; rfl)⟩
  | receipt retcode encodable =>
      cases encodable with
      | false =>
          simp only [wp_bind, wp_emit, next_ok, wp_raise]
          exact ⟨trivial, h.good (by rw [hresp]; rfl), h.steady⟩
      | true =>
          simp only [wp_bind]
          apply wp_recordReceipt h.started ⟨_, h.sent, rfl, hresp⟩
          simp only [next_ok, note, wp_bind, wp_emit]
          refine ⟨trivial, trivial, ?_⟩
          split
          · rw [wp_pure]
            exact (h.recorded hresp (fun _ _ => rfl) (by simp) (by simp)).note _
          · next hfail =>
              have hfail' : successRetcode retcode = false :=
                successRetcode_of_refused (by simpa using hfail)
              rw [wp_pure]
              refine (h.recorded hresp (fun _ hs => ?_) (by simp) fun _ _ => ?_).note _
              · rw [hresp] at hs
                exact absurd (hs.symm.trans hfail') (by decide)
              · exact ⟨retcode, hresp, hfail'⟩

theorem wp_sendAndClassify (hs : Sound w) (hm : MidWrite e w)
    (hpay : w.disk.journaledAs e p) (hentry : p.isEntry = true → EntryDispatch w e p) :
    wp Permits (sendAndClassify e p) (writePost e p w) w := by
  unfold sendAndClassify
  rw [wp_bind]
  apply wp_markSendStarted hm.armed
  · intro hprep
    rw [next_ok]
    have hsend := wp_send hs hm hprep hpay hentry
    simp only [wp_bind] at hsend ⊢
    refine wp_mono hsend ?_
    rintro (err | u) w₁ h
    · exact h.elim
    · simp only [next_ok] at h ⊢
      rw [wp_bind]
      refine wp_mono h ?_
      rintro (err | r) w₂ h
      · exact h.elim
      · exact wp_classify h
  · intro hno err
    have hidle := hm.idle hno
    simp only [next_ok, note, wp_bind, wp_emit, wp_pure]
    exact ⟨trivial, trivial, writeEnd_unknown
      ⟨hs.act (a := .transition (.note _)) trivial, idle_same hidle rfl rfl rfl rfl⟩
        (steady_note _)⟩

theorem served_turn (exhausted : Bool) (hs : Sound w) (hm : MidWrite e w)
    (hask : Permits w (.turn e exhausted)) : Served e w (w.act (.turn e exhausted)) := by
  refine ⟨hs.act (a := .turn e exhausted) hask, ?_, ?_, ?_, ?_, ?_⟩
  · cases exhausted with
    | false => exact ⟨hm.armed, hm.owed, hm.writing, hm.due⟩
    | true =>
        refine ⟨hm.armed, hm.owed, .inl ?_, hm.due⟩
        rcases hm.writing with hw | ⟨hw, -⟩ <;> simp [act, endWrite, hw]
  · cases exhausted <;> exact ⟨rfl, rfl, rfl, rfl, rfl, rfl, rfl, rfl⟩
  · exact sameEntries_of_sent (by cases exhausted <;> rfl)
  · intro hw
    cases exhausted <;> simp [act, endWrite, hw]
  · exact fun _ _ hx => hx.act hask

theorem turn_exhausted (hm : MidWrite e w) :
    (w.act (.turn e true)).mem.writing = none := by
  rcases hm.writing with hw | ⟨hw, -⟩ <;> simp [act, endWrite, hw]

theorem wp_runBrokerWrite (hs : Sound w) (hm : MidWrite e w)
    (hpay : w.disk.journaledAs e p) (hask : ∀ exhausted, Permits w (.turn e exhausted))
    (hentry : p.isEntry = true → EntryDispatch w e p) :
    wp Permits (runBrokerWrite e p) (writePost e p w) w := by
  simp only [runBrokerWrite, nextTurn, wp_bind, wp_get, next_ok, wp_emit, wp_pure]
  refine ⟨hask _, ?_⟩
  generalize w.script.turns.headD {} = t
  have hturn :=
    served_turn (decide (t.refused = none ∧ t.surfaced = .exhausted)) hs hm (hask _)
  have hnotStarted : ∀ (category : OutcomeCategory) (w' : World), Served e w w' →
      wp Permits (notStarted e category) (writePost e p w) w' := fun category w' h =>
    wp_mono (wp_notStarted category h.sound h.mid) fun r w'' hr => hr.after h
  cases hrefused : t.refused with
  | some category => exact hnotStarted category _ (hrefused ▸ hturn)
  | none =>
      rw [hrefused] at hturn
      refine wp_seq (wp_drain t.drained hturn.sound hturn.mid) ?_
      intro _ w₂ hdrained
      have hserved := hturn.trans hdrained
      cases hsurfaced : t.surfaced with
      | outcome category => exact hnotStarted category w₂ hserved
      | exhausted =>
          -- the scheduler gave the slot up, so the write has ended without a send
          have hended : (w.act (.turn e (decide ((none : Option OutcomeCategory) = none ∧
              t.surfaced = .exhausted)))).mem.writing = none := by
            rw [hsurfaced]
            exact turn_exhausted hm
          rw [wp_pure]
          exact writeEnd_unknown ⟨hserved.sound, hserved.mid.armed, hdrained.ended hended,
            hserved.mid.owed, hserved.mid.due⟩ hserved.steady
      | own =>
          dsimp only
          cases t.expired with
          | some category => exact hnotStarted category w₂ hserved
          | none =>
              exact wp_mono (wp_sendAndClassify hserved.sound hserved.mid
                (hserved.payloads e p hpay) fun he => (hentry he).steady hserved.steady)
                fun r w' hr => hr.after hserved

end Own

end PairCell
