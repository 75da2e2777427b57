import Mathlib.Algebra.Order.BigOperators.Group.List
import Mathlib.Algebra.Order.Ring.Nat
import PairCell.Ends.Calls
import PairCell.Run

/-!
# Containment returns

A containment write ends by reading the broker again, and the read may ask for
the next write.  In live mode each such read is paid for by a step of the
journal: a target's effect is sent once and deferred once.  A shadow policy
writes nothing, so a target that a read shows is shown again by the next one.
-/

namespace PairCell

open Lib World

variable {w : World} {s : Snapshot}

/-! ## What an action does to the inputs -/

theorem act_reads (x : Action) :
    (w.act x).script.reads =
      match x with
      | .brokerRead _ => w.script.reads.tail
      | _ => w.script.reads := by
  cases x <;>
    simp [act, setJournal, addTransition, forgetAttempt, endWrite, endOwed,
      apply_ite World.script]

theorem act_depth (x : Action) : (w.act x).script.depth = w.script.depth := by
  cases x <;>
    simp [act, setJournal, addTransition, forgetAttempt, endWrite, endOwed,
      apply_ite World.script]

theorem act_replayDeferred (x : Action) :
    (w.act x).mem.aux.replayDeferred =
      match x with
      | .setAux y => y.replayDeferred
      | .terminate _ => []
      | _ => w.mem.aux.replayDeferred := by
  cases x <;>
    simp [act, setJournal, addTransition, forgetAttempt, endWrite, endOwed,
      apply_ite World.mem, apply_ite Mem.aux]

theorem act_shadow_same {x : Action} (hx : ∀ p, x ≠ .savePolicy p) :
    (w.act x).shadow = w.shadow := by
  rw [act_shadow]
  cases x with
  | savePolicy p => exact absurd rfl (hx p)
  | _ => rfl

/-! ## Live containment -/

/-- The effect has not been sent. -/
def unsent (w : World) (e : EffectId) : Bool :=
  match w.disk.journal.get e with
  | none => true
  | some row => decide (row.state = .prepared)

/-- How often the effect can still make containment read the broker. -/
def readsOf (w : World) (e : EffectId) : Nat :=
  if unsent w e then 2
  else if (w.mem.aux.replayDeferred.map Prod.fst).contains e then 0
  else 1

/-- The effects containment can ask for. -/
def targets (c : Config) (a : Attempt) (s : Snapshot) : List EffectId :=
  s.orders.map (fun o => c.effect a (.cancel o.text)) ++
    s.positions.map fun p => c.effect a (.close p.text)

def readsLeft (s : Snapshot) (w : World) : Nat :=
  match w.mem.attempt with
  | some a => ((targets w.cfg a s).map (readsOf w)).sum
  | none => 0

def budget (s : Snapshot) : Nat := 2 * (s.orders.length + s.positions.length)

theorem readsOf_le_two (w : World) (e : EffectId) : readsOf w e ≤ 2 := by
  unfold readsOf
  split
  · exact Nat.le_refl 2
  · split <;> omega

theorem readsLeft_le_budget (s : Snapshot) (w : World) : readsLeft s w ≤ budget s := by
  unfold readsLeft
  split
  · next a _ =>
      have hle : ∀ n ∈ (targets w.cfg a s).map (readsOf w), n ≤ 2 := by
        simp only [List.mem_map, forall_exists_index, and_imp]
        rintro n e - rfl
        exact readsOf_le_two w e
      have hlen : ((targets w.cfg a s).map (readsOf w)).length =
          s.orders.length + s.positions.length := by simp [targets]
      have hsum := List.sum_le_card_nsmul _ 2 hle
      rw [hlen, nsmul_eq_mul] at hsum
      simp only [Nat.cast_id] at hsum
      unfold budget
      omega
  · exact Nat.zero_le _

theorem unsent_act {x : Action} {e : EffectId}
    (hx : ∀ e' p own, x = .prepare e' p own → w.disk.journal.get e' = none)
    (h : unsent (w.act x) e = true) : unsent w e = true := by
  have hmove : ∀ (e' : EffectId) (state : EffectState) (retcode : Option Int),
      state ≠ .prepared →
      unsent (w.moveJournal e' state retcode) e = true → unsent w e = true := by
    intro e' state retcode hstate hmoved
    unfold unsent at hmoved ⊢
    rw [moveJournal_get] at hmoved
    by_cases he : e = e'
    · subst he
      cases hrow : w.disk.journal.get e with
      | none => rfl
      | some row => simp [hrow, hstate] at hmoved
    · simpa [he] using hmoved
  cases x with
  | prepare e' p own =>
      by_cases he : e = e'
      · subst he
        simp [unsent, hx e p own rfl]
      · have hrow : (w.act (.prepare e' p own)).disk.journal.get e =
            w.disk.journal.get e := by
          cases own <;> simp [act, setJournal, Table.get_set, he]
        simpa [unsent, hrow] using h
  | markSendStarted e' => exact hmove e' .sendStarted none (by decide) h
  | recordReceipt e' retcode => exact hmove e' .receipt retcode (by decide) h
  | recordObservation e' => exact hmove e' .observed none (by decide) h
  | orderSend e' p r =>
      have hjournal : (w.act (.orderSend e' p r)).disk.journal = w.disk.journal := by
        simp only [act, endWrite]
        split <;> rfl
      simpa [unsent, hjournal] using h
  | turn e' exhausted => cases exhausted <;> exact h
  | _ => exact h

/-- A cell that sends its writes, reads `s`, and has room for every read of the containment
of `s`. -/
structure Direct (s : Snapshot) (w : World) : Prop where
  live : w.shadow = false
  reads : ∀ r ∈ w.script.reads, r = some s
  depth : budget s < w.script.depth

theorem Direct.act (h : Direct s w) {x : Action} (hx : ∀ p, x ≠ .savePolicy p) :
    Direct s (w.act x) where
  live := (act_shadow_same hx).trans h.live
  reads := by
    rw [act_reads]
    cases x with
    | brokerRead r => exact fun r hr => h.reads r (List.mem_of_mem_tail hr)
    | _ => exact h.reads
  depth := by
    rw [act_depth]
    exact h.depth

/-- The cell follows `a`, and no effect can cause more reads than `limit` says. -/
structure Spends (s : Snapshot) (c : Config) (a : Attempt)
    (limit : EffectId → Nat) (w : World) :
    Prop where
  direct : Direct s w
  cfg : w.cfg = c
  attempt : w.mem.attempt = some a
  limit (e : EffectId) : readsOf w e ≤ limit e

theorem readsOf_act {x : Action} {e : EffectId}
    (hx : ∀ e' p own, x = .prepare e' p own → w.disk.journal.get e' = none)
    (hdeferred : (w.act x).mem.aux.replayDeferred = w.mem.aux.replayDeferred) :
    readsOf (w.act x) e ≤ readsOf w e := by
  unfold readsOf
  rw [hdeferred]
  by_cases hnew : unsent (w.act x) e = true
  · rw [if_pos hnew, if_pos (unsent_act hx hnew)]
  · rw [if_neg hnew]
    split <;> split <;> omega

variable {c : Config} {a : Attempt} {limit : EffectId → Nat}

theorem Spends.act (h : Spends s c a limit w) {x : Action}
    (hpolicy : ∀ p, x ≠ .savePolicy p) (hattempt : (w.act x).mem.attempt = w.mem.attempt)
    (hx : ∀ e' p own, x = .prepare e' p own → w.disk.journal.get e' = none)
    (hdeferred : (w.act x).mem.aux.replayDeferred = w.mem.aux.replayDeferred) :
    Spends s c a limit (w.act x) where
  direct := h.direct.act hpolicy
  cfg := (act_cfg w x).trans h.cfg
  attempt := hattempt.trans h.attempt
  limit e := (readsOf_act hx hdeferred).trans (h.limit e)

theorem Spends.keeps (h : Spends s c a limit w) {x : Action} (hx : Quiet x ∨ Booking x) :
    Spends s c a limit (w.act x) := by
  refine h.act ?_ ?_ ?_ ?_
  · rintro p rfl
    exact hx.elim id id
  · rw [act_attempt]
    cases x <;> first | rfl | exact (hx.elim id id).elim
  · rintro e p own rfl
    exact (hx.elim id id).elim
  · rw [act_replayDeferred]
    cases x <;> first | rfl | exact (hx.elim id id).elim

theorem spends_stable : Stable s (Spends s c a limit) (fun _ => True) where
  quiet {w x} h hx := h.keeps (.inl hx)
  aux {w x} h hx := by
    refine h.act (by simp) ?_ (by simp) ?_
    · rw [act_attempt]
    · exact (act_replayDeferred _).trans (congrArg Prod.fst hx)
  book {w x} h hx := h.keeps (.inr hx)
  prepare {w e p own} h hnone := by
    refine h.act (by simp) ?_ ?_ ?_
    · rw [act_attempt]
    · intro e' p' own' heq
      cases heq
      exact hnone
    · rw [act_replayDeferred]
  held _ _ := trivial
  save {w l} h _ :=
    h.act (by simp) (by rw [act_attempt]) (by simp) (by rw [act_replayDeferred])
  name {w l} h _ :=
    h.act (by simp) (by rw [act_attempt]) (by simp) (by rw [act_replayDeferred])
  like _ _ := trivial
  fill _ _ _ _ _ := trivial

/-! ### One write -/

theorem present_stable (e : EffectId) :
    Stable s (fun w => w.disk.journal.get e ≠ none) (fun _ => True) := by
  refine stable_of_act fun w x hw hx => ?_
  have hmove : ∀ (e' : EffectId) (state : EffectState) (retcode : Option Int),
      (w.moveJournal e' state retcode).disk.journal.get e ≠ none := by
    intro e' state retcode
    rw [moveJournal_get]
    split
    · next he =>
        subst he
        simpa using hw
    · exact hw
  cases x with
  | prepare e' p own =>
      by_cases he : e = e'
      · subst he
        exact absurd (hx e p own rfl) hw
      · cases own <;> simpa [act, setJournal, Table.get_set, he] using hw
  | markSendStarted e' => exact hmove e' _ _
  | recordReceipt e' retcode => exact hmove e' _ _
  | recordObservation e' => exact hmove e' _ _
  | orderSend e' p r =>
      simp only [act, endWrite]
      split <;> exact hw
  | turn e' exhausted => cases exhausted <;> exact hw
  | _ => exact hw

theorem sent_stable (e : EffectId) :
    Stable s (fun w => unsent w e = false) (fun _ => True) := by
  refine stable_of_act fun w x hw hx => ?_
  by_contra hnew
  rw [Bool.not_eq_false] at hnew
  simp [unsent_act hx hnew] at hw

theorem unsent_moveJournal {e : EffectId} {state : EffectState} {retcode : Option Int}
    (hrow : w.disk.journal.get e ≠ none) (hstate : state ≠ .prepared) :
    unsent (w.moveJournal e state retcode) e = false := by
  obtain ⟨row, hrow⟩ := Option.ne_none_iff_exists'.1 hrow
  simp [unsent, moveJournal_get, hrow, hstate]

/-- Nothing is demanded of the actions themselves. -/
abbrev freely : World → Action → Prop := fun _ _ => True

theorem observation_sent {e : EffectId} (hrow : w.disk.journal.get e ≠ none) :
    wp freely (recordEffectObservation (some e)) (fun _ w' => unsent w' e = false) w := by
  obtain ⟨row, hrow⟩ := Option.ne_none_iff_exists'.1 hrow
  simp only [recordEffectObservation, Journal.recordObservation, wp_bind, wp_get, next_ok]
  by_cases hopen : w.disk.unresolved e = true
  · have hstate : row.state ≠ .receipt := by
      intro hreceipt
      simp [Disk.unresolved, hrow, JournalRow.unresolved, hreceipt] at hopen
    rw [if_pos hopen]
    simp only [wp_bind, wp_get, next_ok, hrow, if_neg hstate, wp_emit, wp_pure]
    have hsent : unsent (w.act (.recordObservation e)) e = false :=
      unsent_moveJournal (w := w) (by simp [hrow]) (by decide)
    have hst := sent_stable (s := ⟨[], []⟩) e
    rw [← wp_bind]
    exact ⟨trivial, wp_of_ends (e := Exn.recursion)
      (ends_bind (hst.note _) fun _ => hst.bump) hsent
      fun _ _ _ hw => hw⟩
  · rw [if_neg hopen, wp_pure]
    cases hstate : row.state <;>
      simp_all [unsent, Disk.unresolved, JournalRow.unresolved]

theorem notStarted_sent {e : EffectId} {category : OutcomeCategory}
    (hrow : w.disk.journal.get e ≠ none) :
    wp freely (notStarted e category) (fun _ w' => unsent w' e = false) w := by
  simp only [notStarted, wp_bind]
  refine wp_mono (observation_sent hrow) fun r w' hw' => ?_
  cases r with
  | error _ => exact hw'
  | ok _ =>
      rw [next_ok, wp_pure]
      exact hw'

/-- What a completed write leaves. -/
def Completed (e : EffectId) : Except Exn BrokerWriteResult → World → Prop
  | .ok out, w => out.category = .completed → unsent w e = false
  | .error _, _ => True

theorem sendAndClassify_sent {e : EffectId} {p : Payload}
    (hrow : w.disk.journal.get e ≠ none) :
    wp freely (sendAndClassify e p) (Completed e) w := by
  obtain ⟨row, hget⟩ := Option.ne_none_iff_exists'.1 hrow
  simp only [sendAndClassify, Journal.markSendStarted, wp_bind, wp_get, next_ok, hget]
  split
  · simp only [wp_pure, next_ok, wp_bind, note, wp_emit, true_and, Completed]
    simp
  · simp only [wp_bind, wp_emit, true_and, next_ok, wp_pure]
    have hsent : unsent (w.act (.markSendStarted e)) e = false :=
      unsent_moveJournal (w := w) hrow (by decide)
    have hst := sent_stable (s := ⟨[], []⟩) e
    refine wp_of_ends (e := Exn.recursion) (hst.note _) hsent fun r w₁ _ hw₁ => ?_
    cases r with
    | error _ => trivial
    | ok _ =>
        rw [next_ok]
        refine wp_of_ends (I := fun w => unsent w e = false) (e := Exn.recursion) ?_ hw₁ ?_
        · refine ends_bind (hst.orderSend e p) fun r => ?_
          split
          · exact ends_bind (hst.note _) fun _ =>
              ends_bind (hst.emit trivial) fun _ => ends_pure _
          · exact ends_bind (hst.note _) fun _ =>
              ends_bind (hst.emit trivial) fun _ => ends_pure _
          · exact ends_bind (hst.emit trivial) fun _ => ends_raise (by decide)
          · refine ends_bind (hst.recordReceipt _ _ _) fun r => ?_
            cases r with
            | error _ =>
                exact ends_bind (hst.note _) fun _ =>
                  ends_bind (hst.emit trivial) fun _ => ends_pure _
            | ok _ =>
                refine ends_bind (hst.note _) fun _ =>
                  ends_bind (hst.emit trivial) fun _ => ?_
                split <;> exact ends_pure _
        · intro r w' _ hw'
          cases r with
          | error _ => trivial
          | ok _ => exact fun _ => hw'

theorem Completed.of_sent {e : EffectId} {r : Except Exn BrokerWriteResult} {w : World}
    (h : unsent w e = false) : Completed e r w := by
  cases r with
  | error _ => trivial
  | ok _ => exact fun _ => h

theorem runBrokerWrite_sent {e : EffectId} {p : Payload}
    (hrow : w.disk.journal.get e ≠ none) :
    wp freely (runBrokerWrite e p) (Completed e) w := by
  have hst := present_stable (s := ⟨[], []⟩) e
  have hnot : ∀ category (w : World), w.disk.journal.get e ≠ none →
      wp freely (notStarted e category) (Completed e) w := fun category w hw =>
    wp_mono (notStarted_sent hw) fun _ _ h => .of_sent h
  simp only [runBrokerWrite, wp_bind]
  refine wp_of_ends (e := Exn.recursion) (hst.nextTurn e) hrow fun r w₁ _ hw₁ => ?_
  cases r with
  | error _ => trivial
  | ok t =>
      rw [next_ok]
      cases t.refused with
      | some category => exact hnot category w₁ hw₁
      | none =>
          simp only [wp_bind]
          refine wp_of_ends (hst.drain _) hw₁ fun r w₂ _ hw₂ => ?_
          cases r with
          | error _ => trivial
          | ok _ =>
              rw [next_ok]
              cases t.surfaced with
              | outcome category => exact hnot category w₂ hw₂
              | exhausted => simp [Completed]
              | own =>
                  cases t.expired with
                  | some category => exact hnot category w₂ hw₂
                  | none => exact sendAndClassify_sent hw₂

/-! ### Every read is paid for -/

theorem readsLeft_lt {w' : World} {e : EffectId} (ha : w.mem.attempt = some a)
    (he : e ∈ targets w.cfg a s) (hw' : Spends s w.cfg a (readsOf w) w')
    (hlt : readsOf w' e < readsOf w e) : readsLeft s w' < readsLeft s w := by
  simp only [readsLeft, ha, hw'.attempt, hw'.cfg]
  exact List.sum_lt_sum _ _ (fun x _ => hw'.limit x) ⟨e, he, hlt⟩

theorem Direct.spends (h : Direct s w) (ha : w.mem.attempt = some a) :
    Spends s w.cfg a (readsOf w) w := ⟨h, rfl, ha, fun _ => Nat.le_refl _⟩

/-- The handler ends in a live cell. -/
def EndsDirect (s : Snapshot) (r : Except Exn Unit) (w : World) : Prop :=
  r ≠ .error .recursion ∧ Direct s w

/-- `m` ends from every state in which fewer than `n` reads are left. -/
def EndsBelow (s : Snapshot) (n : Nat) (m : M Unit) : Prop :=
  ∀ w, Direct s w → readsLeft s w < n → wp freely m (EndsDirect s) w

theorem direct_lasting : Lasting s (Direct s) (fun _ => True) where
  quiet {w x} h hx := h.act (by rintro p rfl; exact hx)
  aux h _ := h.act (by simp)
  book {w x} h hx := h.act (by rintro p rfl; exact hx)
  prepare h _ := h.act (by simp)
  held _ _ := trivial
  save h _ := h.act (by simp)
  name h _ := h.act (by simp)
  like _ _ := trivial
  fill _ _ _ _ _ := trivial
  plain {w x} h hx := h.act (by rintro p rfl; exact hx)
  gone h _ := h.act (by simp)
  verified _ := trivial

theorem wp_direct {m : M Unit} (h : Ends Exn.recursion (Direct s) m) (hw : Direct s w) :
    wp freely m (EndsDirect s) w := wp_of_ends h hw fun _ _ hr hw => ⟨hr, hw⟩

/-- The write of an effect that was not sent is the end of its first turn. -/
theorem preparedWrite_ends {r : M Unit} {n : Nat} {e : EffectId} {p : Payload} {w₀ : World}
    (hr : EndsBelow s n r) (hn : readsLeft s w₀ ≤ n) (ha : w₀.mem.attempt = some a)
    (he : e ∈ targets w₀.cfg a s) (hunsent : unsent w₀ e = true)
    (hw : Spends s w₀.cfg a (readsOf w₀) w) (hrow : w.disk.journal.get e ≠ none) :
    wp freely (do
      let out ← runBrokerWrite e p
      if awaitPostFailureContainmentObservation out then
        note "containment_receipt_reconciliation_pending"
      else if out.category ≠ .completed then
        setNeedsHuman (.containment e (.ended out.category))
      else r) (EndsDirect s) w := by
  rw [wp_bind]
  have hend := spends_stable.runBrokerWrite e p w hw
  have hsent := (runBrokerWrite_sent (p := p) hrow).2
  refine ⟨Allowed.of_true _ _, ?_⟩
  generalize (runBrokerWrite e p w).1 = result at hend hsent
  generalize after w (runBrokerWrite e p w).2 = w₁ at hend hsent
  obtain ⟨hresult, hw₁⟩ := hend
  cases result with
  | error x => exact ⟨fun heq => hresult (by simpa using heq), hw₁.direct⟩
  | ok out =>
      rw [next_ok]
      split
      · exact wp_direct (direct_lasting.note _) hw₁.direct
      · split
        · exact wp_direct (direct_lasting.setNeedsHuman _) hw₁.direct
        · next hcompleted =>
            have hdone : unsent w₁ e = false := hsent (not_not.1 hcompleted)
            have hlt : readsOf w₁ e < readsOf w₀ e := by
              simp only [readsOf, hdone, hunsent, if_true, Bool.false_eq_true, if_false]
              split <;> omega
            exact hr w₁ hw₁.direct (Nat.lt_of_lt_of_le (readsLeft_lt ha he hw₁ hlt) hn)

def deferring (w : World) (e : EffectId) (now : Nat) : World :=
  w.act (.setAux { w.mem.aux with
    replayDeferred := w.mem.aux.replayDeferred ++ [(e, now)] })

theorem readsOf_deferring (e x : EffectId) (now : Nat) :
    readsOf (deferring w e now) x ≤ readsOf w x ∧
      (unsent w e = false → readsOf (deferring w e now) e = 0) := by
  have hunsent : ∀ x, unsent (deferring w e now) x = unsent w x := fun _ => rfl
  have hlist : (deferring w e now).mem.aux.replayDeferred =
      w.mem.aux.replayDeferred ++ [(e, now)] := rfl
  constructor
  · unfold readsOf
    rw [hunsent, hlist]
    split
    · exact Nat.le_refl 2
    · split
      · omega
      · next hnot =>
          rw [if_neg]
          intro hmem
          simp only [List.map_append, List.contains_eq_mem, List.mem_append,
            decide_eq_true_eq] at hnot
          simp only [List.contains_eq_mem, decide_eq_true_eq] at hmem
          exact hnot (.inl hmem)
  · intro hsent
    unfold readsOf
    rw [hunsent, hlist, hsent]
    simp

/-- A refused effect is deferred once. -/
theorem deferral_ends {r : M Unit} {n : Nat} {e : EffectId} {w₀ : World}
    (hr : EndsBelow s n r) (hn : readsLeft s w₀ ≤ n) (ha : w₀.mem.attempt = some a)
    (he : e ∈ targets w₀.cfg a s) (hfirst : readsOf w₀ e = 1)
    (hw : Spends s w₀.cfg a (readsOf w₀) w) (hsent : unsent w e = false) :
    wp freely (do
      let now ← monotonic
      modifyAux fun x => { x with replayDeferred := x.replayDeferred ++ [(e, now)] }
      note "containment_receipt_reconciliation_pending"
      r) (EndsDirect s) w := by
  simp only [monotonic, modifyAux, note, wp_bind, wp_get, next_ok, wp_emit,
    true_and, wp_pure]
  have htick : Spends s w₀.cfg a (readsOf w₀) (w.act .tick) :=
    hw.act (by simp) (by rw [act_attempt]) (by simp) (by rw [act_replayDeferred])
  have hreads := fun x => readsOf_deferring (w := w.act .tick) e x (w.script.ticks.headD 0)
  have hdeferred : Spends s w₀.cfg a (readsOf w₀)
      (deferring (w.act .tick) e (w.script.ticks.headD 0)) :=
    ⟨htick.direct.act (by simp), htick.cfg, htick.attempt,
      fun x => (hreads x).1.trans (htick.limit x)⟩
  have hnoted := spends_stable.quiet hdeferred
    (x := .transition (.note "containment_receipt_reconciliation_pending"))
      (by simp [Quiet])
  refine hr _ hnoted.direct (Nat.lt_of_lt_of_le (readsLeft_lt ha he hnoted ?_) hn)
  calc readsOf _ e = readsOf (deferring (w.act .tick) e (w.script.ticks.headD 0)) e := rfl
    _ = 0 := (hreads e).2 hsent
    _ < readsOf w₀ e := by omega

theorem journaledEmergencyWrite_ends {r : M Unit} {n : Nat} {e : EffectId} {p : Payload}
    (hr : EndsBelow s n r) (hn : readsLeft s w ≤ n) (hw : Direct s w)
    (ha : w.mem.attempt = some a) (he : e ∈ targets w.cfg a s) :
    wp freely (journaledEmergencyWrite r e p) (EndsDirect s) w := by
  have hspends := hw.spends ha
  simp only [journaledEmergencyWrite, Journal.prepare, bumpStateVersion, wp_bind,
    wp_get, next_ok, hw.live, Bool.false_eq_true, if_false]
  cases hrow : w.disk.journal.get e with
  | none =>
      simp only [wp_bind, wp_emit, true_and, next_ok, wp_pure]
      rw [← wp_bind]
      refine preparedWrite_ends hr hn ha he (by simp [unsent, hrow])
        (spends_stable.quiet (x := .bump) (spends_stable.prepare hspends hrow) trivial) ?_
      have hget : (w.act (.prepare e p true)).disk.journal.get e ≠ none := by
        simp [act, setJournal]
      exact hget
  | some row =>
      dsimp only
      split
      · simp only [wp_pure, next_ok]
        exact wp_direct (direct_lasting.setNeedsHuman _) hw
      · simp only [wp_pure, next_ok, wp_bind, wp_emit, true_and]
        have hbumped : Spends s w.cfg a (readsOf w) (w.act .bump) :=
          spends_stable.quiet hspends trivial
        cases hstate : row.state with
        | prepared =>
            have hpresent : w.disk.journal.get e ≠ none := by simp [hrow]
            exact preparedWrite_ends hr hn ha he (by simp [unsent, hrow, hstate])
              hbumped hpresent
        | sendStarted => exact wp_direct (direct_lasting.setNeedsHuman _) hbumped.direct
        | receipt | observed =>
            have hsent : unsent w e = false := by simp [unsent, hrow, hstate]
            simp only [wp_bind, wp_get, next_ok]
            split
            · exact wp_direct (direct_lasting.setNeedsHuman _) hbumped.direct
            · split
              · exact wp_direct (ends_bind (direct_lasting.note _) fun _ =>
                  direct_lasting.setAux _)
                  hbumped.direct
              · split
                · exact wp_direct (ends_pure _) hbumped.direct
                · next hnew =>
                    refine deferral_ends hr hn ha he ?_ hbumped hsent
                    have hfirst :
                        ¬ (w.mem.aux.replayDeferred.map Prod.fst).contains e = true := hnew
                    rw [readsOf, hsent, if_neg (by simp), if_neg hfirst]

theorem readsLeft_le {w' : World} (ha : w.mem.attempt = some a)
    (hw' : Spends s w.cfg a (readsOf w) w') : readsLeft s w' ≤ readsLeft s w := by
  simp only [readsLeft, ha, hw'.attempt, hw'.cfg]
  exact List.sum_le_sum fun x _ => hw'.limit x

theorem advanceConvergence_ends {r : M Unit} {n : Nat} (hr : EndsBelow s n r)
    (hn : readsLeft s w ≤ n) (hw : Direct s w) :
    wp freely (advanceConvergence r s) (EndsDirect s) w := by
  simp only [advanceConvergence, wp_bind, wp_get, next_ok]
  split
  · next a l ha hl =>
      split
      · next o ho =>
          simp only [cancelOwned, wp_bind, wp_get, next_ok]
          refine journaledEmergencyWrite_ends hr hn hw ha (List.mem_append_left _ ?_)
          exact List.mem_map_of_mem (List.mem_of_find?_eq_some ho)
      · split
        · next p hp =>
            split
            · exact wp_direct (ends_pure _) hw
            · have hmem : p ∈ s.positions := by
                unfold ownedPosition at hp
                split at hp
                · exact List.mem_of_find?_eq_some hp
                · cases hp
              simp only [closeOwned, wp_bind, wp_get, next_ok, wp_emit, true_and]
              have hnamed := spends_stable.name (hw.spends ha)
                (l := { l with closeEffectId := some (w.cfg.effect a (.close p.text)) })
                  trivial
              refine journaledEmergencyWrite_ends hr ((readsLeft_le ha hnamed).trans hn)
                hnamed.direct ha (List.mem_append_right _ ?_)
              exact List.mem_map_of_mem hmem
        · split
          · exact wp_direct (direct_lasting.setNeedsHuman _) hw
          · exact wp_direct (direct_lasting.verifyEmpty a trivial) hw
  · exact wp_direct (ends_pure _) hw

theorem applyBrokerSnapshot_ends {r : M Unit} {n : Nat} (hr : EndsBelow s n r)
    (hn : readsLeft s w ≤ n) (hw : Direct s w) :
    wp freely (applyBrokerSnapshot r (some s)) (EndsDirect s) w := by
  let aux : Aux :=
    { w.mem.aux with lastOrders := some s.orders, lastPositions := some s.positions }
  simp only [applyBrokerSnapshot, modifyAux, wp_bind, wp_get, next_ok, wp_emit, true_and]
  have hw₁ : Direct s (w.act (.setAux aux)) := hw.act (by simp)
  split
  · next a l ha hl =>
      have hspends : Spends s w.cfg a (readsOf w) (w.act (.setAux aux)) :=
        (hw.spends ha).act (by simp) (by rw [act_attempt]) (by simp)
          ((act_replayDeferred _).trans rfl)
      rw [wp_bind]
      refine wp_of_ends (e := Exn.recursion) spends_stable.applyLegEvidence hspends fun r'
        w₂ hr' hw₂ => ?_
      cases r' with
      | error x => exact ⟨fun heq => hr' (by simpa using heq), hw₂.direct⟩
      | ok _ =>
          simp only [next_ok, wp_bind, wp_get]
          split
          · exact advanceConvergence_ends hr ((readsLeft_le ha hw₂).trans hn) hw₂.direct
          · exact wp_direct (ends_pure _) hw₂.direct
  · exact wp_direct (ends_pure _) hw₁

/-- The measure of the containment recursion is the number of reads left. -/
theorem requestBrokerRead_ends (depth : Nat) :
    EndsBelow s depth (requestBrokerRead depth) := by
  induction depth with
  | zero => exact fun _ _ h => absurd h (Nat.not_lt_zero _)
  | succ depth ih =>
      intro w hw hleft
      simp only [requestBrokerRead, wp_bind, wp_get, next_ok]
      cases ha : w.mem.attempt with
      | none => exact wp_direct (ends_pure _) hw
      | some a =>
          simp only [wp_bind, wp_emit, true_and, next_ok]
          have hread : Direct s (w.act (.brokerRead (w.script.reads.headD none))) :=
            hw.act (by simp)
          cases hreads : w.script.reads with
          | nil =>
              rw [hreads] at hread
              exact wp_direct (ends_pure _) hread
          | cons r rest =>
              obtain rfl : r = some s := hw.reads r (by simp [hreads])
              rw [hreads] at hread
              exact applyBrokerSnapshot_ends ih (Nat.le_of_lt_succ hleft) hread

theorem direct_read : Ends Exn.recursion (Direct s) readBroker := by
  refine ends_get fun w hw w' hw' => ?_
  have hend := requestBrokerRead_ends w.script.depth w' hw'
    (Nat.lt_of_le_of_lt (readsLeft_le_budget s w') hw.depth)
  exact hend.2

theorem direct_snapshot (hw : Direct s w) : Ends Exn.recursion (Direct s)
    (applyBrokerSnapshot (requestBrokerRead w.script.depth)
      (w.script.reads.headD none)) := by
  intro w' hw'
  have hbelow := requestBrokerRead_ends (s := s) w.script.depth
  have hleft := Nat.le_of_lt (Nat.lt_of_le_of_lt (readsLeft_le_budget s w') hw.depth)
  cases hreads : w.script.reads with
  | nil => exact ends_pure _ w' hw'
  | cons r rest =>
      obtain rfl : r = some s := hw.reads r (by simp [hreads])
      exact (applyBrokerSnapshot_ends hbelow hleft hw').2

theorem direct_freed : Freed (Direct s) where
  toParts :=
    direct_lasting.parts direct_read (fun hw _ => hw.act (by simp)) direct_snapshot
  free h := h.act (by simp)

/-! ### A new attempt -/

theorem direct_sendEntry (a : Attempt) (l : Leg) :
    Ends Exn.recursion (Direct s) (sendEntry a l) := by
  have h := direct_lasting (s := s)
  have hstate : ∀ x, Ends Exn.recursion (Direct s) (emit (.setState x) : M Unit) :=
    fun _ => h.step trivial
  refine ends_get fun w _ => ends_bind (h.persist trivial) fun _ => ?_
  split
  · refine ends_get fun w _ => ends_bind (h.persist trivial) fun _ => ?_
    exact ends_bind (hstate _) fun _ => ends_bind (h.note _) fun _ => h.reportLegStatus _
  · refine ends_bind (h.runBrokerWrite _ _) fun out => ?_
    cases out.category with
    | rejected =>
        refine ends_bind (h.persist trivial) fun _ => ends_bind (h.note _) fun _ => ?_
        have hrest : Ends Exn.recursion (Direct s) (do
            reportLegStatus { status := .rejected, receiptRetcode := out.receipt.join }
            notifyEntryFailed "the local entry was rejected by the broker"
            beginClose ⟨"entry_rejected", false⟩) :=
          ends_bind (h.reportLegStatus _) fun _ =>
            ends_bind (h.notifyEntryFailed _) fun _ => h.beginClose _
        split
        · exact ends_bind (h.note _) fun _ => hrest
        · exact hrest
    | expiredNotStarted =>
        refine ends_bind (h.persist trivial) fun _ => ends_bind (h.note _) fun _ => ?_
        refine ends_bind (h.reportLegStatus _) fun _ => ?_
        exact ends_bind (h.notifyEntryFailed _) fun _ => h.beginClose _
    | unknownAfterSend =>
        refine ends_bind (h.persist trivial) fun _ => ends_bind (hstate _) fun _ => ?_
        exact ends_bind (h.note _) fun _ => direct_read
    | completed =>
        refine ends_bind (h.persist trivial) fun _ => ends_bind (h.note _) fun _ => ?_
        exact ends_bind (h.reportLegStatus _) fun _ => direct_read

theorem direct_openAttempt (a : Attempt) (event : String) :
    Ends Exn.recursion (Direct s) (openAttempt a event) := by
  have h := direct_lasting (s := s)
  have hadopt : Ends Exn.recursion (Direct s) (emit (.adopt a) : M Unit) :=
    ends_emit fun _ hw => hw.act (by simp)
  refine ends_bind hadopt fun _ => ends_bind h.bump fun _ =>
    ends_bind (h.note _) fun _ => ?_
  refine ends_get fun w _ => ?_
  have hdesire : Ends Exn.recursion (Direct s)
      (emit (.saveDesired .active w.mem.pairConfirmed) : M Unit) := h.step trivial
  refine ends_bind hdesire fun _ => ends_bind (h.note _) fun _ => ?_
  refine ends_bind (h.persist trivial) fun _ =>
    ends_bind (ends_get fun w _ => ?_) fun ok => ?_
  · split
    · exact ends_pure _
    · refine ends_bind (h.journalPrepare _ _ _) fun r => ?_
      cases r with
      | ok _ => exact ends_pure _
      | error _ =>
          refine ends_bind (ends_bind (h.persist trivial) fun _ => ?_) fun _ => ends_pure _
          refine ends_bind (h.note _) fun _ => ends_bind (h.reportLegStatus _) fun _ => ?_
          exact h.beginClose _
  · split
    · exact ends_bind (h.persist trivial) fun _ => ends_pure _
    · exact ends_pure _

theorem direct_maybeCreateAttempt : Ends Exn.recursion (Direct s) maybeCreateAttempt := by
  have h := direct_lasting (s := s)
  refine ends_get fun w _ => ?_
  split
  · split
    · exact ends_pure _
    · refine ends_bind (direct_openAttempt _ _) fun ok => ?_
      split
      · refine ends_bind ?_ fun l => ?_
        · refine ends_bind h.monotonic fun _ => ends_bind (h.setAux _) fun _ => ?_
          refine ends_get fun w _ => ends_bind (h.persist trivial) fun _ => ?_
          exact ends_bind (h.note _) fun _ => ends_pure _
        · refine ends_bind (h.persist trivial) fun _ => ends_bind (h.note _) fun _ => ?_
          refine ends_bind (h.step trivial) fun _ => ends_bind (h.note _) fun _ => ?_
          exact direct_sendEntry _ _
      · exact ends_pure _
  · exact ends_pure _

theorem direct_call (hw : Direct s w) (hopen : w.attemptUnresolved = true) (c : Call) :
    (c.run w).1 ≠ .error .recursion := by
  refine direct_freed.call (fun w hw _ => ?_) hw hopen c
  exact (ends_bind direct_maybeCreateAttempt
    (fun _ => direct_freed.progressAttempt) w hw).1

end PairCell
