import PairCell.Ends.Live

/-!
# A shadow cell with nothing to contain

A shadow policy answers a containment write with the next read, so it has to be
shown nothing: no pending order on the symbol, no position under the leg's
ticket, and no single match for an entry that may have been sent.
-/

namespace PairCell

open Lib World

variable {w : World} {s : Snapshot} {a : Attempt}

/-- A shadow cell that follows `a` or nothing, and reads `s`. -/
structure Simulates (a : Attempt) (s : Snapshot) (w : World) : Prop where
  shadow : w.shadow = true
  reads : ∀ r ∈ w.script.reads, r = some s
  depth : 0 < w.script.depth
  attempt : ∀ b, w.mem.attempt = some b → b = a
  peer : w.mem.attempt = none → w.mem.peerLeg.status ≠ .filled

/-- An action that leaves what a simulation follows as it is, or forgets the attempt. -/
def Passive : Action → Prop
  | .adopt _ | .savePolicy _ | .savePeerLeg _ => False
  | _ => True

theorem Simulates.act (h : Simulates a s w) {x : Action} (hx : Passive x) :
    Simulates a s (w.act x) where
  shadow := (act_shadow_same (by rintro p rfl; exact hx)).trans h.shadow
  reads := by
    rw [act_reads]
    cases x with
    | brokerRead r => exact fun r hr => h.reads r (List.mem_of_mem_tail hr)
    | _ => exact h.reads
  depth := by
    rw [act_depth]
    exact h.depth
  attempt := by
    rw [act_attempt]
    cases x with
    | adopt b => exact hx.elim
    | terminate reason => simp
    | _ => exact h.attempt
  peer := by
    rw [act_attempt, act_peerLeg]
    cases x with
    | adopt b => exact hx.elim
    | savePeerLeg v => exact hx.elim
    | terminate reason => simp
    | _ => exact h.peer

theorem Simulates.peerLeg (h : Simulates a s w) {v : PeerLegView}
    (ha : w.mem.attempt ≠ none) :
    Simulates a s (w.act (.savePeerLeg v)) where
  shadow := (act_shadow_same (by simp)).trans h.shadow
  reads := by
    rw [act_reads]
    exact h.reads
  depth := by
    rw [act_depth]
    exact h.depth
  attempt := by
    rw [act_attempt]
    exact h.attempt
  peer := by
    rw [act_attempt]
    exact fun hnone => absurd hnone ha

/-! ## Reading without containing -/

theorem ownedPosition_eq_none {l : Leg} (h : ∀ p ∈ s.positions, l.ticket ≠ some p.text) :
    ownedPosition l s = none := by
  unfold ownedPosition
  split
  · next t ht =>
      rw [List.find?_eq_none]
      intro p hp heq
      exact h p hp (ht.trans (congrArg some (of_decide_eq_true heq).symm))
  · rfl

/-- Neither an order on the symbol, nor a position of the leg without a stop. -/
def Shields (s : Snapshot) (w : World) : Prop :=
  ∀ a l, w.mem.attempt = some a → w.mem.leg = some l →
    (∀ o ∈ s.orders, o.symbol ≠ a.symbol) ∧
      (ownedPosition l s ≠ none → w.mem.needsHuman ≠ none)

section Settled

variable {I : World → Prop} {C : Leg → Prop} (h : Lasting s I C)
  (hshields : ∀ w, I w → Shields s w)
include h hshields

theorem settled_advance (r : M Unit) :
    Ends Exn.recursion I (advanceConvergence r s) := by
  refine ends_get fun w hw => ?_
  split
  · next b l hb hl =>
      obtain ⟨horders, howned⟩ := hshields w hw b l hb hl
      have hnone : (s.orders.find? fun o => decide (o.symbol = b.symbol)) = none := by
        rw [List.find?_eq_none]
        intro o ho heq
        exact horders o ho (of_decide_eq_true heq)
      rw [hnone]
      dsimp only
      split
      · next p hp =>
          rw [if_pos (howned (by simp [hp]))]
          exact ends_pure _
      · split
        · exact h.setNeedsHuman _
        · exact h.verifyEmpty b (h.held hw hl)
  · exact ends_pure _

/-- What follows the evidence. -/
theorem settled_convergence (r : M Unit) : Ends Exn.recursion I (do
    let w ← get
    if w.mem.desired = .empty then advanceConvergence r s else pure () : M Unit) := by
  refine ends_get fun w _ => ?_
  split
  · exact settled_advance h hshields r
  · exact ends_pure _

theorem settled_snapshot (r : M Unit) :
    Ends Exn.recursion I (applyBrokerSnapshot r (some s)) := by
  refine ends_bind (h.setAux _) fun _ => ends_get fun w _ => ?_
  split
  · exact ends_bind h.applyLegEvidence fun _ => settled_convergence h hshields r
  · exact ends_pure _

end Settled

/-- A read is as deep as its snapshot. -/
theorem simulated_read {I : World → Prop} (h : Plainly I) (hI : ∀ w, I w → Simulates a s w)
    (hsnapshot : ∀ r, Ends Exn.recursion I (applyBrokerSnapshot r (some s))) :
    Ends Exn.recursion I readBroker := by
  refine ends_get fun w hw => ?_
  obtain ⟨depth, hdepth⟩ := Nat.exists_eq_succ_of_ne_zero (Nat.ne_of_gt (hI w hw).depth)
  rw [hdepth]
  refine ends_get fun w hw => ?_
  split
  · exact ends_pure _
  · have hread : Ends Exn.recursion I
        (emit (.brokerRead (w.script.reads.headD none)) : M Unit) := h.step trivial
    refine ends_bind hread fun _ => ?_
    cases hreads : w.script.reads with
    | nil => exact ends_pure _
    | cons r rest =>
        obtain rfl : r = some s := (hI w hw).reads r (by simp [hreads])
        exact hsnapshot _

theorem simulated_snapshot {I : World → Prop} (hI : ∀ w, I w → Simulates a s w)
    (hsnapshot : ∀ r, Ends Exn.recursion I (applyBrokerSnapshot r (some s))) (hw : I w) :
    Ends Exn.recursion I
      (applyBrokerSnapshot (requestBrokerRead w.script.depth)
        (w.script.reads.headD none)) := by
  cases hreads : w.script.reads with
  | nil => exact ends_pure _
  | cons r rest =>
      obtain rfl : r = some s := (hI w hw).reads r (by simp [hreads])
      exact hsnapshot _

/-! ## A leg that is not shown -/

/-- The snapshot shows nothing to contain of the leg. -/
structure Unseen (a : Attempt) (s : Snapshot) (l : Leg) : Prop where
  orders : ∀ o ∈ s.orders, o.symbol ≠ a.symbol
  ticket : ∀ p ∈ s.positions, l.ticket ≠ some p.text
  entry : l.unsettled = true → ∀ p, attemptMatches a l.role s ≠ [p]

structure Still (a : Attempt) (s : Snapshot) (w : World) :
    Prop extends Simulates a s w where
  leg : ∀ l, w.mem.leg = some l → Unseen a s l

theorem Still.act (h : Still a s w) {x : Action} (hx : Passive x)
    (hleg : ∀ l, x ≠ .saveLeg l ∧ x ≠ .memLeg l) : Still a s (w.act x) where
  toSimulates := h.toSimulates.act hx
  leg := by
    rw [act_leg]
    cases x with
    | saveLeg l => exact absurd rfl (hleg l).1
    | memLeg l => exact absurd rfl (hleg l).2
    | terminate reason => simp
    | _ => exact h.leg

theorem Simulates.withLeg (h : Simulates a s w) {l : Leg} (hl : Unseen a s l) {x : Action}
    (hx : x = .saveLeg l ∨ x = .memLeg l) : Still a s (w.act x) where
  toSimulates := h.act (by rcases hx with rfl | rfl <;> trivial)
  leg := by
    rw [act_leg]
    rcases hx with rfl | rfl <;> exact fun l' hl' => Option.some.inj hl' ▸ hl

theorem still_lasting : Lasting s (Still a s) (Unseen a s) where
  quiet {w x} h hx :=
    h.act (by cases x <;> trivial) (by rintro l; cases x <;> simp_all [Quiet])
  aux h _ := h.act trivial (by simp)
  book {w x} h hx :=
    h.act (by cases x <;> trivial) (by rintro l; cases x <;> simp_all [Booking])
  prepare h _ := h.act trivial (by simp)
  held h hl := h.leg _ hl
  save h hl := h.toSimulates.withLeg hl (.inl rfl)
  name h hl := h.toSimulates.withLeg hl (.inr rfl)
  like {l l'} hl hlike := by
    refine ⟨hl.orders, fun p hp => ?_, fun hopen => ?_⟩
    · rw [hlike.ticket]
      exact hl.ticket p hp
    · rw [hlike.role]
      exact hl.entry (hlike.status hopen)
  fill {w b l p} h hb hl hopen hmatch := by
    obtain rfl := h.attempt b hb
    refine absurd hmatch (hl.entry ?_ p)
    rcases hopen with hopen | hopen <;> simp [Leg.unsettled, undecided, hopen]
  plain {w x} h hx :=
    h.act (by cases x <;> trivial) (by rintro l; cases x <;> simp_all [Routine])
  gone h _ := h.act trivial (by simp)
  verified hl := ⟨hl.orders, hl.ticket, hl.entry⟩

theorem Still.shields (h : Still a s w) : Shields s w := by
  intro b l hb hl
  obtain rfl := h.attempt b hb
  exact ⟨(h.leg l hl).orders,
    fun hne => absurd (ownedPosition_eq_none (h.leg l hl).ticket) hne⟩

theorem still_snapshot (r : M Unit) :
    Ends Exn.recursion (Still a s) (applyBrokerSnapshot r (some s)) :=
  settled_snapshot still_lasting (fun _ h => h.shields) r

theorem still_parts : Parts (Still a s) := by
  refine still_lasting.parts
    (simulated_read still_lasting.toPlainly (fun _ h => h.toSimulates)
    still_snapshot) (fun h ha => ?_)
      (simulated_snapshot (fun _ h => h.toSimulates) still_snapshot)
  exact ⟨h.toSimulates.peerLeg ha, by rw [act_leg]; exact h.leg⟩

/-! ## An entry that was never started -/

/-- The journal says that the pending entry was never handed to the terminal. -/
structure Waiting (w : World) (l : Leg) : Prop where
  status : l.entryStatus = .pending
  ticket : l.ticket = none
  fillPrice : l.fillPrice = none
  protection : l.protectionStatus ≠ .precise
  effect : ∃ e, l.entryEffectId = some e ∧ unsent w e = true

structure Untried (a : Attempt) (s : Snapshot) (w : World) :
    Prop extends Simulates a s w where
  orders : ∀ o ∈ s.orders, o.symbol ≠ a.symbol
  leg : ∀ l, w.mem.leg = some l → Waiting w l

theorem act_journal_same {x : Action} (hbook : ¬ Booking x)
    (hprepare : ∀ e p own, x ≠ .prepare e p own) :
    (w.act x).disk.journal = w.disk.journal := by
  cases x with
  | prepare e p own => exact absurd rfl (hprepare e p own)
  | markSendStarted e => exact absurd trivial hbook
  | recordReceipt e retcode => exact absurd trivial hbook
  | recordObservation e => exact absurd trivial hbook
  | orderSend e p r => exact absurd trivial hbook
  | turn e exhausted => exact absurd trivial hbook
  | _ => rfl

theorem Waiting.act (h : Waiting w l) {x : Action} (hbook : ¬ Booking x)
    (hprepare : ∀ e p own, x ≠ .prepare e p own) : Waiting (w.act x) l := by
  refine ⟨h.status, h.ticket, h.fillPrice, h.protection, ?_⟩
  unfold unsent
  rw [act_journal_same hbook hprepare]
  exact h.effect

theorem Untried.act (h : Untried a s w) {x : Action} (hx : Passive x) (hbook : ¬ Booking x)
    (hprepare : ∀ e p own, x ≠ .prepare e p own)
    (hleg : ∀ l, x ≠ .saveLeg l ∧ x ≠ .memLeg l) :
    Untried a s (w.act x) where
  toSimulates := h.toSimulates.act hx
  orders := h.orders
  leg := by
    rw [act_leg]
    cases x with
    | saveLeg l => exact absurd rfl (hleg l).1
    | memLeg l => exact absurd rfl (hleg l).2
    | terminate reason => simp
    | _ => exact fun l hl => (h.leg l hl).act hbook hprepare

/-- Nothing to contain, perhaps because the entry was never started. -/
def Unshown (a : Attempt) (s : Snapshot) (w : World) : Prop := Untried a s w ∨ Still a s w

theorem Unshown.simulates (h : Unshown a s w) : Simulates a s w :=
  h.elim Untried.toSimulates Still.toSimulates

theorem unshown_plainly : Plainly (Unshown a s) where
  quiet {w x} h hx := h.imp
    (fun h => h.act (by cases x <;> trivial) (by cases x <;> simp_all [Quiet, Booking])
      (by rintro e p own rfl; exact hx) (by rintro l; cases x <;> simp_all [Quiet]))
    fun h => still_lasting.quiet h hx
  aux h hx := h.imp (fun h => h.act trivial id (by simp) (by simp)) fun h =>
    still_lasting.aux h hx
  plain {w x} h hx := h.imp
    (fun h => h.act (by cases x <;> trivial) (by cases x <;> simp_all [Routine, Booking])
      (by rintro e p own rfl; exact hx) (by rintro l; cases x <;> simp_all [Routine]))
    fun h => still_lasting.plain h hx
  gone h hgone := h.imp (fun h => h.act trivial id (by simp) (by simp))
    fun h => still_lasting.gone h hgone

/-- The journal settles an entry that was never started. -/
theorem unshown_reconcile (exn : Exn) (h : Unshown a s w) :
    (reconcileEntryEffectState w).1 ≠ .error exn ∧
      Still a s (after w (reconcileEntryEffectState w).2) := by
  have hst := still_lasting (a := a) (s := s)
  rcases h with h | h
  · simp only [reconcileEntryEffectState, get_bind_run]
    cases hl : w.mem.leg with
    | none => exact ⟨by simp [pure_run], h.toSimulates, by simp [pure_run, hl]⟩
    | some l =>
        obtain ⟨hstatus, hticket, -, -, e, he, hunsent⟩ := h.leg l hl
        have hnever : ∀ b, (markEntryNeverStarted l e b w).1 ≠ .error exn ∧
            Still a s (after w (markEntryNeverStarted l e b w).2) := by
          intro b
          have hsaved : Still a s (after w
              (persistLeg { l with entryStatus := .expiredNotStarted } w).2) := by
            refine hst.quiet (x := .bump) (h.toSimulates.withLeg ?_ (.inl rfl)) trivial
            exact ⟨h.orders, by simp [hticket], by simp [Leg.unsettled, undecided]⟩
          refine ends_bind_at
            ⟨by simp [persistLeg, bumpStateVersion, bind_run, emit], hsaved⟩ fun _ _ => ?_
          cases b with
          | true =>
              exact ends_bind (hst.recordEffectObservation _) (fun _ => hst.note _) _
                hsaved
          | false => exact hst.note _ _ hsaved
        simp only [hstatus, he]
        cases hrow : w.disk.journal.get e with
        | none => exact hnever false
        | some row =>
            have hprepared : row.state = .prepared := by simpa [unsent, hrow] using hunsent
            simp only [hprepared]
            exact hnever true
  · exact hst.reconcileEntryEffectState w h

theorem unshown_evidence (exn : Exn) (h : Unshown a s w) :
    (applyLegEvidence s w).1 ≠ .error exn ∧
    Still a s (after w (applyLegEvidence s w).2) := by
  rw [applyLegEvidence_eq]
  exact ends_bind_at (unshown_reconcile exn h) fun _ _ =>
    still_lasting.applyRecoveredEvidence _ (unshown_reconcile exn h).2

theorem unshown_snapshot (r : M Unit) :
    Ends Exn.recursion (Unshown a s) (applyBrokerSnapshot r (some s)) := by
  refine ends_bind (unshown_plainly.setAux _) fun _ => ends_get fun w _ => ?_
  split
  · intro w hw
    have hevidence := unshown_evidence .recursion hw
    have hend := ends_bind_at hevidence fun _ _ =>
      settled_convergence still_lasting (fun _ h => h.shields) r _ hevidence.2
    exact ⟨hend.1, .inr hend.2⟩
  · exact ends_pure _

theorem still_unshown {m : M Unit} (h : Ends Exn.recursion (Still a s) m)
    (hw : Still a s w) : (m w).1 ≠ .error .recursion ∧ Unshown a s (after w (m w).2) :=
  ⟨(h w hw).1, .inr (h w hw).2⟩

/-- A pending leg gets no precise protection. -/
theorem unshown_protect :
    Ends Exn.recursion (Unshown a s) maybeApplyPreciseProtection := by
  rintro w (h | h)
  · simp only [maybeApplyPreciseProtection, get_bind_run]
    cases hb : w.mem.attempt with
    | none => exact ends_pure _ w (.inl h)
    | some b =>
        cases hl : w.mem.leg with
        | none => exact ends_pure _ w (.inl h)
        | some l =>
            have hwait := h.leg l hl
            have hmirror : mirroredPreciseProtection w l = none := by
              rw [mirroredPreciseProtection, if_neg (by simp [hwait.fillPrice])]
            dsimp only
            split
            · exact ends_pure _ w (.inl h)
            · rw [hmirror]
              have hsaved : Unshown a s (after w (persistLeg { l with
                  protectionStatus :=
                    if decide (l.protectionStatus = .precise) then .frozen
                    else .fallback } w).2) := by
                refine unshown_plainly.quiet (x := .bump) (.inl ?_) trivial
                refine ⟨h.toSimulates.act trivial, h.orders, ?_⟩
                rintro l' ⟨⟩
                refine ⟨hwait.status, hwait.ticket, hwait.fillPrice, ?_, hwait.effect⟩
                simp [hwait.protection]
              refine ends_bind_at
                ⟨by simp [persistLeg, bumpStateVersion, bind_run, emit], hsaved⟩
                fun _ _ => ?_
              exact ends_bind (unshown_plainly.note _)
                (fun _ => unshown_plainly.reportLegStatus _) _ hsaved
  · exact still_unshown still_parts.protect h

theorem unshown_restore (reason : String) :
    Ends Exn.recursion (Unshown a s) (restoreRoughProtection reason) := by
  rintro w (h | h)
  · simp only [restoreRoughProtection, get_bind_run]
    cases hb : w.mem.attempt with
    | none => exact ends_pure _ w (.inl h)
    | some b =>
        cases hl : w.mem.leg with
        | none => exact ends_pure _ w (.inl h)
        | some l =>
            dsimp only
            rw [if_pos (h.leg l hl).protection]
            exact ends_pure _ w (.inl h)
  · exact still_unshown (still_parts.restore reason) h

theorem unshown_freeze {l : Leg} (h : Unshown a s w) (hl : w.mem.leg = some l)
    (hprecise : l.protectionStatus = .precise) :
    Ends Exn.recursion (Unshown a s) (freezeWithPeer l) := by
  have hseen : Unseen a s l := by
    rcases h with h | h
    · exact absurd hprecise (h.leg l hl).protection
    · exact h.leg l hl
  have hfrozen : Unseen a s { l with protectionStatus := .frozen } :=
    still_lasting.like hseen ⟨rfl, rfl, rfl, id⟩
  have hsave : Ends Exn.recursion (Unshown a s)
      (emit (.saveLeg { l with protectionStatus := .frozen }) : M Unit) :=
    ends_emit fun w hw => .inr (hw.simulates.withLeg hfrozen (.inl rfl))
  exact ends_bind (ends_bind hsave fun _ => unshown_plainly.bump) fun _ =>
    ends_bind (unshown_plainly.note _) fun _ => unshown_plainly.reportLegStatus _

theorem unshown_freed : Freed (Unshown a s) where
  toPlainly := unshown_plainly
  peer h ha := h.imp
    (fun h => ⟨h.toSimulates.peerLeg ha, h.orders, by
      rw [act_leg]
      exact fun l hl => (h.leg l hl).act id (by simp)⟩)
    fun h => still_parts.peer h ha
  reconcile w h :=
    ⟨(unshown_reconcile .recursion h).1, .inr (unshown_reconcile .recursion h).2⟩
  protect := unshown_protect
  restore := unshown_restore
  freeze := unshown_freeze
  read := simulated_read unshown_plainly (fun _ h => h.simulates) unshown_snapshot
  snapshot := simulated_snapshot (fun _ h => h.simulates) unshown_snapshot
  free h := h.imp (fun h => h.act trivial id (by simp) (by simp)) fun h =>
    h.act trivial (by simp)

/-! ## A new shadow attempt -/

/-- A shadow cell that wants its attempt and has not heard of a fill. -/
structure Opening (w : World) : Prop where
  shadow : w.shadow = true
  desired : w.mem.desired = .active
  peer : w.mem.peerLeg.status ≠ .filled

/-- An action of opening a shadow attempt once it is wanted. -/
def Opens : Action → Prop
  | .saveLeg _ | .memLeg _ | .bump | .transition _ | .setAux _ | .tick | .relay
      _ | .setState _ => True
  | _ => False

theorem Opening.act (h : Opening w) {x : Action} (hx : Opens x) : Opening (w.act x) := by
  cases x <;> first | exact hx.elim | exact ⟨h.shadow, h.desired, h.peer⟩

theorem opening_emit {x : Action} (hx : Opens x) :
    Ends Exn.recursion Opening (emit x : M Unit) := ends_emit fun _ h => h.act hx

theorem opening_note (event : String) : Ends Exn.recursion Opening (note event) :=
  opening_emit trivial

theorem opening_persist (l : Leg) : Ends Exn.recursion Opening (persistLeg l) :=
  ends_bind (opening_emit (x := .saveLeg l) trivial) fun _ => opening_emit trivial

theorem opening_report (r : StatusReport) :
    Ends Exn.recursion Opening (reportLegStatus r) := by
  refine ends_get fun w _ => ?_
  cases r.attemptId.or w.attemptId? with
  | none => exact ends_pure _
  | some i => exact opening_emit trivial

theorem opening_sendEntry (a : Attempt) (l : Leg) :
    Ends Exn.recursion Opening (sendEntry a l) := by
  refine ends_get fun w hw => ends_bind (opening_persist _) fun _ => ?_
  rw [if_pos hw.shadow]
  refine ends_get fun w _ => ends_bind (opening_persist _) fun _ => ?_
  have hstate :
      Ends Exn.recursion Opening (emit (.setState .awaitingPairConfirmation) : M Unit) :=
    opening_emit trivial
  exact ends_bind hstate fun _ => ends_bind (opening_note _) fun _ => opening_report _

theorem opening_startTimer (a : Attempt) (l : Leg) :
    Ends Exn.recursion Opening (startTimer a l) := by
  have htick : Ends Exn.recursion Opening monotonic :=
    ends_get fun _ _ => ends_bind (opening_emit trivial) fun _ => ends_pure _
  refine ends_bind htick fun _ =>
    ends_bind (ends_get fun _ _ => opening_emit trivial) fun _ => ?_
  refine ends_get fun w _ => ends_bind (opening_persist _) fun _ => ?_
  exact ends_bind (opening_note _) fun _ => ends_pure _

/-- The cell wants the attempt it has just adopted. -/
theorem simulated_openAttempt (h : Simulates a s w)
    (hnone : w.mem.attempt = none) (b : Attempt) (event : String) :
    (openAttempt b event w).1 ≠ .error .recursion ∧
    Opening (after w (openAttempt b event w).2) := by
  have hrun : wp freely (openAttempt b event)
      (fun r w' => r ≠ .error .recursion ∧ Opening w') w := by
    simp only [openAttempt, bumpStateVersion, note, wp_bind, wp_emit, wp_get,
      next_ok, true_and]
    rw [← wp_bind]
    refine wp_of_ends (I := Opening) (e := Exn.recursion) ?_
      ⟨h.shadow, rfl, h.peer hnone⟩ fun _ _ hr hw => ⟨hr, hw⟩
    refine ends_bind (opening_persist _) fun _ =>
      ends_bind (ends_get fun w hw => ?_) fun ok => ?_
    · rw [if_pos hw.shadow]
      exact ends_pure _
    · split
      · exact ends_bind (opening_persist _) fun _ => ends_pure _
      · exact ends_pure _
  exact hrun.2

theorem opening_protection : Ends Exn.recursion Opening maybeApplyPreciseProtection := by
  have hfreeze : ∀ l reason,
      Ends Exn.recursion Opening (freezeOrFallbackProtection l reason) :=
    fun l reason => ends_bind (opening_persist _) fun _ =>
      ends_bind (opening_note _) fun _ => opening_report _
  refine ends_get fun w _ => ?_
  split
  · split
    · exact ends_pure _
    · split
      · exact hfreeze _ _
      · refine ends_get fun w hw => ?_
        have hname : ∀ l, Ends Exn.recursion Opening (emit (.memLeg l) : M Unit) :=
          fun _ => opening_emit trivial
        refine ends_bind (hname _) fun _ => ?_
        rw [if_pos hw.shadow]
        exact ends_bind (opening_persist _) fun _ => opening_report _
  · exact ends_pure _

theorem opening_confirmation : Ends Exn.recursion Opening maybeEmitPairConfirmation := by
  refine ends_get fun w hw => ?_
  split
  · split
    · exact ends_pure _
    · split
      · exact ends_pure _
      · have hpeer : peerEvidenceState w = (false, none) := by
          unfold peerEvidenceState
          cases w.mem.attempt with
          | none => rfl
          | some b => simp [hw.peer]
        rw [hpeer]
        exact ends_pure _
  · exact ends_pure _

/-- No part of the cell but the broker read fails to end. -/
theorem everything_lasting : Lasting ⟨[], []⟩ (fun _ => True) (fun _ => True) where
  toStable := stable_of_act fun _ _ _ _ => trivial
  plain _ _ := trivial
  gone _ _ := trivial
  verified _ := trivial

theorem opening_progress (hw : Opening w) : (progressAttempt w).1 ≠ .error .recursion := by
  have hidle : Ends Exn.recursion Opening maybeProgressConvergence := by
    refine ends_get fun w hw => ?_
    split
    · rw [if_pos (by simp [hw.desired])]
      exact ends_pure _
    · exact ends_pure _
  have h := everything_lasting
  refine ends_then opening_confirmation (fun _ w hw => ?_) hw
  refine ends_then opening_protection (fun _ w hw => ?_) hw
  refine ends_then hidle (fun _ w _ => ?_) hw
  refine ends_then h.maybeFinalizeEmpty (fun _ w _ => ?_) (s := w) trivial
  exact ends_then h.awaitPeerTerminalProof
    (fun _ w _ => (h.maybeDeclareActive w trivial).1) trivial

theorem simulated_create (h : Simulates a s w)
    (hidle : (progressAttempt w).1 ≠ .error .recursion) (hnew : mayCreate w = true) :
    ((do maybeCreateAttempt; progressAttempt : M Unit) w).1 ≠ .error .recursion := by
  have hnone : w.mem.attempt = none := by
    simp only [mayCreate, Bool.and_eq_true, Option.isNone_iff_eq_none] at hnew
    exact hnew.1.2
  have hcreate : (maybeCreateAttempt w).1 ≠ .error .recursion ∧
      (progressAttempt (after w (maybeCreateAttempt w).2)).1 ≠ .error .recursion := by
    simp only [maybeCreateAttempt, get_bind_run]
    cases w.script.decision with
    | none => exact ⟨by simp [pure_run], hidle⟩
    | some decided =>
        cases w.mem.policy with
        | none => exact ⟨by simp [pure_run], hidle⟩
        | some policy =>
            dsimp only
            split
            · exact ⟨by simp [pure_run], hidle⟩
            · have hopening := simulated_openAttempt h hnone
              refine (fun hend => ⟨hend.1, opening_progress hend.2⟩)
                (ends_bind_at (hopening _ "attempt_created") fun ok _ => ?_)
              refine (?_ : Ends Exn.recursion Opening _) _ (hopening _ _).2
              split
              · refine ends_bind (opening_startTimer _ _) fun l => ?_
                refine ends_bind (opening_persist _) fun _ =>
                  ends_bind (opening_note _) fun _ => ?_
                refine ends_bind (opening_emit trivial) fun _ =>
                  ends_bind (opening_note _) fun _ => ?_
                exact opening_sendEntry _ _
              · exact ends_pure _
  exact (ends_bind_at (I := fun _ => True) ⟨hcreate.1, trivial⟩
    fun _ _ => ⟨hcreate.2, trivial⟩).1

theorem unshown_call (h : Unshown a s w) (hopen : w.attemptUnresolved = true) (c : Call) :
    (c.run w).1 ≠ .error .recursion :=
  unshown_freed.call (fun w hw hnew =>
    simulated_create hw.simulates (unshown_freed.progressAttempt w hw).1 hnew) h hopen c

end PairCell
