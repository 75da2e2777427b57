import PairCell.Ends.Stops

/-!
# A shadow cell that a stop holds

While a stop is latched a shown position is not closed, so a call reads once.
The stop may only be lifted where nothing reads after it: by the broker evidence
of a snapshot, when the leg was verified empty before and no effect is deferred.
-/

namespace PairCell

open Lib World

variable {w w₀ : World} {s : Snapshot} {a : Attempt} {verified : Bool}

structure Latched (a : Attempt) (s : Snapshot) (w : World) :
    Prop extends Simulates a s w where
  orders : ∀ o ∈ s.orders, o.symbol ≠ a.symbol
  stop : w.mem.attempt ≠ none → w.mem.needsHuman ≠ none

theorem Latched.act (h : Latched a s w) {x : Action} (hx : Passive x)
    (hstop : ∀ b event, x = .unlatch b event → w.mem.attempt = none) :
    Latched a s (w.act x) where
  toSimulates := h.toSimulates.act hx
  orders := h.orders
  stop := by
    rw [act_attempt, act_needsHuman]
    cases x with
    | adopt b => exact hx.elim
    | unlatch b event => exact fun hbusy => absurd (hstop b event rfl) hbusy
    | latch stop => simp
    | terminate reason => simp
    | _ => exact h.stop

theorem latched_lasting : Lasting s (Latched a s) (fun _ => True) where
  quiet {w x} h hx := h.act (by cases x <;> trivial) (by rintro b event rfl; exact hx.elim)
  aux h _ := h.act trivial (by simp)
  book {w x} h hx := h.act (by cases x <;> trivial) (by rintro b event rfl; exact hx.elim)
  prepare h _ := h.act trivial (by simp)
  held _ _ := trivial
  save h _ := h.act trivial (by simp)
  name h _ := h.act trivial (by simp)
  like _ _ := trivial
  fill _ _ _ _ _ := trivial
  plain {w x} h hx := h.act (by cases x <;> trivial) (by rintro b event rfl; exact hx.elim)
  gone h hgone := h.act trivial fun _ _ _ => hgone
  verified _ := trivial

theorem Latched.shields (h : Latched a s w) : Shields s w := by
  intro b l hb _
  obtain rfl := h.attempt b hb
  exact ⟨h.orders, fun _ => h.stop (by simp [hb])⟩

theorem latched_snapshot (r : M Unit) :
    Ends Exn.recursion (Latched a s) (applyBrokerSnapshot r (some s)) :=
  settled_snapshot latched_lasting (fun _ h => h.shields) r

theorem latched_parts : Parts (Latched a s) := by
  refine latched_lasting.parts (simulated_read latched_lasting.toPlainly
      (fun _ h => h.toSimulates) latched_snapshot) (fun h ha => ?_)
    (simulated_snapshot (fun _ h => h.toSimulates) latched_snapshot)
  refine ⟨h.toSimulates.peerLeg ha, h.orders, ?_⟩
  rw [act_attempt, act_needsHuman]
  exact h.stop

theorem latched_create (h : Latched a s w) (hnew : mayCreate w = true) :
    ((do maybeCreateAttempt; progressAttempt : M Unit) w).1 ≠ .error .recursion :=
  simulated_create h.toSimulates (latched_parts.progressAttempt w h).1 hnew

/-! ## An attempt to be emptied without a stop -/

/-- What is left of `_progress` for an attempt that is to be emptied. -/
def progressEmptying : M Unit := do
  maybeProgressConvergence
  maybeFinalizeEmpty
  awaitPeerTerminalProof
  maybeDeclareActive

theorem silent_bind {m : M Unit} {f : Unit → M Unit} (hm : m w = (.ok (), [])) :
    (m >>= f) w = f () w := by simp [bind_run, hm]

theorem progress_emptying {l : Leg} (ha : w.mem.attempt = some a) (hl : w.mem.leg = some l)
    (hdesired : w.mem.desired = .empty) (hstop : w.mem.needsHuman = none)
    (hdeferred : w.mem.aux.replayDeferred = []) : progress w = progressEmptying w := by
  have hresolve : maybeResolveDeferredContainment w = (.ok (), []) := by
    simp [maybeResolveDeferredContainment, get_bind_run, hdeferred, pure_run]
  have hexit : enforceExitPolicy w = (.ok (), []) := by
    simp only [enforceExitPolicy, get_bind_run, ha]
    cases w.mem.policy with
    | none => rfl
    | some p => simp [hdesired, pure_run]
  have htimers : enforceTimers w = (.ok (), []) := by
    simp only [enforceTimers, get_bind_run, ha, hl]
    cases w.mem.aux.timerDeadline with
    | none => rfl
    | some deadline => simp [hdesired, pure_run]
  have hbusy : mayCreate w = false := by simp [mayCreate, ha]
  have hconfirm : maybeEmitPairConfirmation w = (.ok (), []) := by
    simp [maybeEmitPairConfirmation, get_bind_run, ha, hl, hdesired, pure_run]
  have hprotect : maybeApplyPreciseProtection w = (.ok (), []) := by
    simp [maybeApplyPreciseProtection, get_bind_run, ha, hl, hdesired, pure_run]
  rw [progress, silent_bind hresolve, get_bind_run, if_neg (by simp [hstop]),
    silent_bind hexit, silent_bind htimers, get_bind_run]
  simp only [hbusy, Bool.false_eq_true, if_false]
  rw [progressAttempt, silent_bind hconfirm, silent_bind hprotect]
  rfl

/-- A leg that was verified empty is not read again. -/
theorem emptying_verified {l : Leg} (ha : w.mem.attempt = some a) (hl : w.mem.leg = some l)
    (hverified : l.emptyVerified = true) : (progressEmptying w).1 ≠ .error .recursion := by
  have h := everything_lasting
  have hconverge : (maybeProgressConvergence w).1 ≠ .error .recursion := by
    simp only [maybeProgressConvergence, get_bind_run, ha, hl, hverified, if_true]
    split <;> simp [pure_run, emit, bind_run]
  exact (ends_bind_at (I := fun _ => True) ⟨hconverge, trivial⟩ fun _ _ =>
    ends_bind h.maybeFinalizeEmpty (fun _ => ends_bind h.awaitPeerTerminalProof
      fun _ => h.maybeDeclareActive) _ trivial).1

/-! ## Every call under the stop -/

/--
A stop is latched that nothing lifts before a read: not the evidence of `w`, nor
that of `s`, unless the cell has no reason to read after it.
-/
def Held (w : World) (s : Snapshot) (l : Leg) : Prop :=
  ∃ stop, w.mem.needsHuman = some stop ∧ liftable w stop = false ∧
    (liftable (w.sees s) stop = true → w.mem.aux.replayDeferred = [] ∧
      l.emptyVerified = true)

/-- A shadow cell whose stop is held although the snapshot shows a target. -/
structure Braced (a : Attempt) (s : Snapshot) (w : World) : Prop where
  open_ : w.attemptUnresolved = true
  latched : Latched a s w
  standing : Standing a w
  desired : w.mem.desired = .empty
  leg : ∃ l, w.mem.leg = some l ∧ Visible w a s l ∧ Held w s l

theorem Simulates.latched (h : Simulates a s w) (hu : Undisturbed w₀ w)
    (horders : ∀ o ∈ s.orders, o.symbol ≠ a.symbol) (hstop : w₀.mem.needsHuman ≠ none) :
    Latched a s w := by
  refine ⟨h, horders, fun _ => ?_⟩
  rw [hu.stop]
  exact hstop

/-- The cell still stands as in `w₀`, with a leg. -/
structure Trails (a : Attempt) (s : Snapshot) (w₀ w : World) : Prop where
  simulates : Simulates a s w
  undisturbed : Undisturbed w₀ w
  leg : w.mem.leg ≠ none

theorem Trails.act (h : Trails a s w₀ w) {x : Action} (hx : Bystander w x)
    (hpeer : ∀ v, x ≠ .savePeerLeg v) : Trails a s w₀ (w.act x) where
  simulates := h.simulates.act (by
    cases x <;> first | exact hx.elim | exact hpeer _ rfl | trivial)
  undisturbed := h.undisturbed.act hx
  leg := by
    rw [act_leg]
    cases x <;> first | exact hx.elim | exact h.leg | simp

theorem trails_stable : Stable s (Trails a s w₀) (fun _ => True) where
  quiet {w x} h hx := h.act hx.inward.1 (by rintro v rfl; exact hx)
  aux h hx := h.act hx (by simp)
  book {w x} h hx := h.act hx.inward.1 (by rintro v rfl; exact hx)
  prepare h _ := h.act trivial (by simp)
  held _ _ := trivial
  save h _ := h.act trivial (by simp)
  name h _ := h.act trivial (by simp)
  like _ _ := trivial
  fill _ _ _ _ _ := trivial

/-- A stop that is not lifted is still there. -/
theorem trails_recoverStops {stop : Stop} (hs : Standing a w₀)
    (hstop : w₀.mem.needsHuman = some stop) (hlift : liftable w₀ stop = false) :
    Ends Exn.recursion (Trails a s w₀) recoverStops := by
  intro w hw
  have hrun : recoverStops w = (.ok (), []) := by
    rw [recoverStops_run (hw.undisturbed.standing hs), hw.undisturbed.stop, hstop,
      Option.any_some, hw.undisturbed.liftable_eq, hlift]
    simp
  rw [hrun]
  exact ⟨by simp, hw⟩

theorem trails_recoverAttempt (hbusy : w₀.mem.attempt = some a) :
    Ends Exn.recursion (Trails a s w₀) recoverAttempt := by
  have hst : Stable s (Trails a s w₀) (fun _ => True) := trails_stable
  refine ends_get fun w hw => ?_
  obtain ⟨l, hl⟩ := Option.ne_none_iff_exists'.1 hw.leg
  simp only [hw.undisturbed.attempt, hbusy, hl]
  refine ends_bind hst.reconcileEntryEffectState fun _ => ends_get fun w _ => ?_
  split
  · exact ends_pure _
  · exact ends_bind (hst.note _) fun _ => hst.beginClose _

theorem Braced.trails (h : Braced a s w) : Trails a s w w := by
  obtain ⟨l, hl, -⟩ := h.leg
  exact ⟨h.latched.toSimulates, .refl w, by simp [hl]⟩

theorem braced_recover (h : Braced a s w) : (recover w).1 ≠ .error .recursion := by
  obtain ⟨l, hl, -, stop, hstop, hlift, -⟩ := h.leg
  have hst : Stable s (Trails a s w) (fun _ => True) := trails_stable
  have hrecovering :
      ∀ b, Ends Exn.recursion (Trails a s w) (emit (.setRecovering b) : M Unit) :=
    fun _ => hst.emit trivial
  refine ends_then (hrecovering true) (fun _ w' hw' => ?_) h.trails
  refine ends_then (trails_recoverAttempt h.standing.attempt) (fun _ w' hw' => ?_) hw'
  refine ends_then (hst.note _) (fun _ w' hw' => ?_) hw'
  refine ends_then (hrecovering false) (fun _ w' hw' => ?_) hw'
  refine ends_then (trails_recoverStops h.standing hstop hlift) (fun _ w' hw' => ?_) hw'
  exact latched_parts.readAndProgress (fun _ h hnew => latched_create h hnew)
    (hw'.simulates.latched hw'.undisturbed h.latched.orders (by simp [hstop]))

theorem braced_session (h : Braced a s w) (now : Nat) (connected : Bool) :
    (handleEvent (.peerSession now connected) w).1 ≠ .error .recursion := by
  obtain ⟨l, hl, -, stop, hstop, hlift, -⟩ := h.leg
  have hst : Stable s (Trails a s w) (fun _ => True) := trails_stable
  have hchanged : Ends Exn.recursion (Trails a s w) (peerSessionChanged connected) := by
    refine ends_get fun w' _ => ends_bind (hst.modifyAux fun _ => rfl) fun _ => ?_
    split
    · exact hst.note _
    · split
      · exact ends_pure _
      · exact ends_bind (hst.probePeerTerminalProofNow fun _ h =>
          h.act trivial (by simp)) fun _ =>
          trails_recoverStops h.standing hstop hlift
  have hdispatch : Ends Exn.recursion (Trails a s w)
      (dispatchEvent (.peerSession now connected)) :=
    ends_bind (hst.modifyAux fun _ => rfl) fun _ => hchanged
  refine ends_then hdispatch (fun _ w' hw' => ?_) h.trails
  exact latched_parts.progress (fun _ h hnew => latched_create h hnew)
    (hw'.simulates.latched hw'.undisturbed h.latched.orders (by simp [hstop]))

/-- What a snapshot that shows the target leads to. -/
theorem stopped_progress {stop : Stop}
    (h : Facing a s (fun _ => seenLeg a s verified) w₀ w) (hs : Standing a w₀)
    (hdesired : w₀.mem.desired = .empty) (horders : ∀ o ∈ s.orders, o.symbol ≠ a.symbol)
    (hstop : w₀.mem.needsHuman = some stop)
    (hlift : liftable w₀ stop = true → w₀.mem.aux.replayDeferred = [] ∧ verified = true) :
    wp freely (do recoverStops; progress) (fun r _ => r ≠ .error .recursion) w := by
  have hstanding := h.undisturbed.standing hs
  refine ⟨Allowed.of_true _ _, ?_⟩
  rw [bind_run, recoverStops_run hstanding, h.undisturbed.stop, hstop, Option.any_some,
    h.undisturbed.liftable_eq]
  cases hlifted : liftable w₀ stop with
  | false =>
      simp only [Bool.false_eq_true, if_false, after_nil]
      exact latched_parts.progress (fun _ h hnew => latched_create h hnew)
        (h.simulates.latched h.undisturbed horders (by simp [hstop]))
  | true =>
      obtain ⟨hdeferred, rfl⟩ := hlift hlifted
      obtain ⟨l, hl, -, hverified⟩ := h.leg
      have hempty : w.mem.aux.replayDeferred = [] :=
        (congrArg Prod.fst h.undisturbed.evidence).trans hdeferred
      simp only [if_true]
      have hrun : progress (w.act (.unlatch false "containment_receipt_recovered")) =
          progressEmptying (w.act (.unlatch false "containment_receipt_recovered")) :=
        progress_emptying hstanding.attempt hl (h.undisturbed.desired hdesired) rfl hempty
      have hend : (progress (w.act (.unlatch false "containment_receipt_recovered"))).1 ≠
          .error .recursion := by
        rw [hrun]
        exact emptying_verified hstanding.attempt hl hverified
      exact hend

/-- The state in which the snapshot of the event is applied. -/
def observing (w : World) (now : Nat) : World :=
  (w.act (.setAux { w.mem.aux with now := max w.mem.aux.now now })).act
    (.brokerRead (w.script.reads.headD none))

theorem undisturbed_observing (w : World) (now : Nat) :
    Undisturbed w (observing w now) := by
  have htimed : Undisturbed w
      (w.act (.setAux { w.mem.aux with now := max w.mem.aux.now now })) :=
    (Undisturbed.refl w).act rfl
  exact htimed.act (x := .brokerRead _) trivial

theorem Pressed.observing (h : Pressed a s verified w) (now : Nat) :
    Pressed a s verified (observing w now) :=
  (h.passing (.inl ⟨_, rfl⟩)).passing (.inr ⟨_, rfl⟩)

theorem wp_brokerSnapshot {now : Nat} {R : Except Exn Unit → World → Prop}
    (h : wp freely (do
      applyBrokerSnapshot (requestBrokerRead w.script.depth) (w.script.reads.headD none)
      recoverStops
      progress) R (observing w now)) :
        wp freely (handleEvent (.brokerSnapshot now)) R w := by
  simp only [wp_bind] at h
  simp only [handleEvent, dispatchEvent, observeTime, modifyAux, observedSnapshot,
    wp_bind, wp_get, next_ok, wp_emit, true_and]
  refine wp_mono h fun r w' h' => ?_
  cases r with
  | error exn => exact h'
  | ok _ => simpa using h'

theorem braced_snapshot (h : Braced a s w) (now : Nat) :
    (handleEvent (.brokerSnapshot now) w).1 ≠ .error .recursion := by
  obtain ⟨l, hl, hshown, stop, hstop, hlift, hsees⟩ := h.leg
  have hpressed : Pressed a s l.emptyVerified w :=
    ⟨h.latched.toSimulates, h.standing.attempt, h.desired, l, hl, .inr hshown, rfl⟩
  have hundisturbed := undisturbed_observing w now
  have hstanding := hundisturbed.standing h.standing
  refine (wp_brokerSnapshot (R := fun r _ => r ≠ .error .recursion) ?_).2
  rcases hreads : w.script.reads with _ | ⟨r, rest⟩
  · have hheld : recoverStops (observing w now) = (.ok (), []) := by
      rw [recoverStops_run hstanding, hundisturbed.stop, hstop, Option.any_some,
        hundisturbed.liftable_eq, hlift]
      simp
    have hlatched : Latched a s (observing w now) :=
      (h.latched.act (x := .setAux _) trivial (by simp)).act (x := .brokerRead _)
        trivial (by simp)
    refine wp_done (P := fun w' => w' = observing w now)
      (by simp [applyBrokerSnapshot, Done]) ?_
    rintro _ rfl
    refine ⟨Allowed.of_true _ _, ?_⟩
    rw [silent_bind hheld]
    exact latched_parts.progress (fun _ h hnew => latched_create h hnew) hlatched
  · obtain rfl : r = some s := h.latched.reads r (by simp [hreads])
    refine wp_done (applyBrokerSnapshot_stopped (hpressed.observing now)
      h.latched.orders ?_)
      fun w' h' => ?_
    · rw [hundisturbed.stop, hstop]
      simp
    · refine stopped_progress h' ?_ h.desired h.latched.orders hstop fun hlifted => ?_
      · exact ⟨hstanding.attempt, hstanding.row, hstanding.transition, hstanding.stop⟩
      · exact hsees ((liftable_congr rfl stop).symm.trans hlifted)

/-- While the stop holds, every call returns. -/
theorem braced_call (h : Braced a s w) (c : Call) : (c.run w).1 ≠ .error .recursion := by
  have hnew := fun w (h : Latched a s w) (hnew : mayCreate w = true) =>
    latched_create h hnew
  cases c with
  | event ev =>
      by_cases hsession : ∃ now b, ev = .peerSession now b
      · obtain ⟨now, b, rfl⟩ := hsession
        exact braced_session h now b
      · by_cases hsnapshot : ∃ now, ev = .brokerSnapshot now
        · obtain ⟨now, rfl⟩ := hsnapshot
          exact braced_snapshot h now
        · refine latched_parts.handleEvent hnew h.latched h.open_ ?_ ?_
          · rintro now b rfl
            exact hsession ⟨now, b, rfl⟩
          · rintro now rfl
            exact hsnapshot ⟨now, rfl⟩
  | requestClose reason => exact latched_parts.requestClose hnew h.latched reason
  | recover => exact braced_recover h

end PairCell
