import PairCell.Runtime.Play

/-!
# What the controller can take from a runtime

While an attempt is not terminal or an effect is open, the cell has to stay.
Most messages only reach the cell as metadata.  A route that is absent from
the controller is given up on fresh evidence alone; a removed route is given
up on the word of the controller.
-/

namespace PairCell

open Lib World

/-! ## A cell carried on -/

/-- `q` is the cell `p` after some of its own steps; it has been neither closed nor
rebuilt. -/
inductive Carries (p : Proc) : Proc → Prop where
  | refl : Carries p p
  | step {q q' : Proc} {l : Label} (h : Carries p q) (hl : l.running = true)
      (hstep : Proc.Step q l q') : Carries p q'
  | note {w : World} {todo : List Action} (h : Carries p (.up w todo)) (event : String) :
      Carries p (.up (w.act (.transition (.note event))) todo)

theorem Carries.trans {p q q' : Proc} (h : Carries p q)
    (h' : Carries q q') : Carries p q' := by
  induction h' with
  | refl => exact h
  | step _ hl hstep ih => exact .step ih hl hstep
  | note _ event ih => exact .note ih event

/-- The rows of an attempt, its legs and the policy stay in the database. -/
structure RowsKept (d d' : Disk) : Prop where
  attempts : ∀ r ∈ d.attempts, ∃ r' ∈ d'.attempts, r'.attempt = r.attempt
  legs : ∀ i, d.legs.get i ≠ none → d'.legs.get i ≠ none
  policy : d.policy ≠ none → d'.policy ≠ none

theorem RowsKept.refl (d : Disk) : RowsKept d d :=
  ⟨fun r hr => ⟨r, hr, rfl⟩, fun _ h => h, id⟩

theorem RowsKept.trans {d d' d'' : Disk} (h : RowsKept d d') (h' : RowsKept d' d'') :
    RowsKept d d'' where
  attempts := by
    intro r hr
    obtain ⟨r', hr', he⟩ := h.attempts r hr
    obtain ⟨r'', hr'', he'⟩ := h'.attempts r' hr'
    exact ⟨r'', hr'', he'.trans he⟩
  legs := fun i hi => h'.legs i (h.legs i hi)
  policy := fun hp => h'.policy (h.policy hp)

theorem rowsKept_act (w : World) (x : Action) : RowsKept w.disk (w.act x).disk where
  attempts := by
    intro r hr
    rw [act_attempts]
    cases x with
    | adopt a => exact ⟨r, List.mem_append_left _ hr, rfl⟩
    | refuse a reason => exact ⟨r, List.mem_append_left _ hr, rfl⟩
    | terminate reason => exact ⟨_, List.mem_map_of_mem hr, terminateRow_attempt ..⟩
    | _ => exact ⟨r, hr, rfl⟩
  legs := by
    intro i hi
    obtain ⟨l, hl⟩ := Option.ne_none_iff_exists'.1 hi
    obtain ⟨l', hl'⟩ := act_leg_stays x ⟨l, hl⟩
    simp [hl']
  policy := by
    intro hp
    rw [act_diskPolicy]
    cases x with
    | savePolicy p => simp
    | _ => exact hp

theorem Carries.rows {p q : Proc} (h : Carries p q) : RowsKept p.disk q.disk := by
  induction h with
  | refl => exact .refl _
  | step _ hl hstep ih =>
      refine ih.trans ?_
      cases hstep with
      | begin call script hfresh => exact .refl _
      | serve item script => exact .refl _
      | exec a todo => exact rowsKept_act _ a
      | crash => cases hl
      | reopen hload => cases hl
  | note _ event ih => exact ih.trans (rowsKept_act _ _)

theorem Carries.up {p q : Proc} (h : Carries p q) (hp : ∃ w todo, p = .up w todo) :
    ∃ w todo, q = .up w todo := by
  induction h with
  | refl => exact hp
  | step _ hl hstep ih =>
      cases hstep with
      | begin call script hfresh => exact ⟨_, _, rfl⟩
      | serve item script => exact ⟨_, _, rfl⟩
      | exec a todo => exact ⟨_, _, rfl⟩
      | crash => cases hl
      | reopen hload => cases hl
  | note _ event ih => exact ⟨_, _, rfl⟩

namespace Runtime

/-! ## What a step keeps -/

/-- The route without the state that the controller moves. -/
def routeOf (r : Runtime) : Option DurableRoute :=
  r.route.map fun d => { d with state := .active }

/-- The runtime still has its cell, goes on pumping it, and has kept what
belongs to its work. -/
structure Kept (r r' : Runtime) : Prop where
  cell : r'.hasCell = true
  carries : Carries r.proc r'.proc
  rows : RowsKept r.proc.disk r'.proc.disk
  route : r'.routeOf = r.routeOf
  tables : r'.tables = r.tables
  pumped : r'.exitAfterSafeUnpair = r.exitAfterSafeUnpair

theorem hasCell_iff {r : Runtime} : r.hasCell = true ↔ ∃ w todo, r.proc = .up w todo := by
  unfold hasCell
  cases r.proc <;> simp

theorem kept_of_carries {r r' : Runtime} (hcell : r.hasCell = true)
    (hc : Carries r.proc r'.proc) (hroute : r'.routeOf = r.routeOf)
    (htables : r'.tables = r.tables)
    (hexit : r'.exitAfterSafeUnpair = r.exitAfterSafeUnpair) : Kept r r' :=
  ⟨hasCell_iff.2 (hc.up (hasCell_iff.1 hcell)), hc, hc.rows, hroute, htables, hexit⟩

theorem Kept.trans {r r' r'' : Runtime} (h : Kept r r') (h' : Kept r' r'') : Kept r r'' :=
  ⟨h'.cell, h.carries.trans h'.carries, h.rows.trans h'.rows, h'.route.trans h.route,
    h'.tables.trans h.tables, h'.pumped.trans h.pumped⟩

/-- Nothing has been charged, forgotten or put on the agenda to be charged. -/
structure Calm (r r' : Runtime) : Prop where
  pnl : r'.pnl = r.pnl
  books : r'.books = r.books
  records : ∀ f day, Task.record f day ∈ r'.agenda → Task.record f day ∈ r.agenda

theorem Calm.refl (r : Runtime) : Calm r r := ⟨rfl, rfl, fun _ _ h => h⟩

theorem Calm.trans {r r' r'' : Runtime} (h : Calm r r') (h' : Calm r' r'') : Calm r r'' :=
  ⟨h'.pnl.trans h.pnl, h'.books.trans h.books,
    fun f day hf => h.records f day (h'.records f day hf)⟩

/-- Only what no cell depends on has changed. -/
structure Same (r r' : Runtime) : Prop where
  proc : r'.proc = r.proc
  route : r'.route = r.route
  tables : r'.tables = r.tables
  exit : r'.exitAfterSafeUnpair = r.exitAfterSafeUnpair
  calm : Calm r r'

theorem Same.refl (r : Runtime) : Same r r := ⟨rfl, rfl, rfl, rfl, .refl r⟩

theorem Same.trans {r r' r'' : Runtime} (h : Same r r') (h' : Same r' r'') : Same r r'' :=
  ⟨h'.proc.trans h.proc, h'.route.trans h.route, h'.tables.trans h.tables,
    h'.exit.trans h.exit, h.calm.trans h'.calm⟩

theorem Same.kept {r r' : Runtime} (h : Same r r')
    (hcell : r.hasCell = true) : Kept r r' := by
  refine kept_of_carries hcell ?_ ?_ h.tables h.exit
  · rw [h.proc]
    exact .refl
  · rw [routeOf, routeOf, h.route]

/-! ## The handlers -/

section Handlers

variable (r : Runtime) (x : Answers)

theorem same_pairingConflict : Same r r.pairingConflict := by
  unfold pairingConflict
  dsimp only
  split <;> exact ⟨rfl, rfl, rfl, rfl, ⟨rfl, rfl, fun _ _ h => h⟩⟩

theorem same_propose (follower : Nat) : Same r (r.propose x follower) := by
  unfold propose
  split
  · exact ⟨rfl, rfl, rfl, rfl, ⟨rfl, rfl, fun _ _ h => h⟩⟩
  · dsimp only
    repeat' split
    all_goals exact ⟨rfl, rfl, rfl, rfl, ⟨rfl, rfl, fun _ _ h => h⟩⟩

theorem same_beginSelection : Same r (r.beginSelection x) := by
  unfold beginSelection
  split
  · split
    · exact ⟨rfl, rfl, rfl, rfl, ⟨rfl, rfl, fun _ _ h => h⟩⟩
    · exact same_propose r x _
  · repeat' split
    all_goals exact ⟨rfl, rfl, rfl, rfl, ⟨rfl, rfl, fun _ _ h => h⟩⟩

theorem same_selectFromListing : Same r (r.selectFromListing x) := by
  unfold selectFromListing
  split
  · exact ⟨rfl, rfl, rfl, rfl, ⟨rfl, rfl, fun _ _ h => h⟩⟩
  · exact same_propose r x _

theorem same_answerPairingProposal (proposalId leader : Option Nat) :
    Same r (r.answerPairingProposal x proposalId leader) := by
  unfold answerPairingProposal
  split
  · dsimp only
    split <;> exact ⟨rfl, rfl, rfl, rfl, ⟨rfl, rfl, fun _ _ h => h⟩⟩
  · exact .refl r

theorem same_feedRouteMetadata (view : Option RouteView) :
    Same r (r.feedRouteMetadata x view) := by
  unfold feedRouteMetadata
  split
  · refine ⟨rfl, rfl, rfl, rfl, ⟨rfl, rfl, fun f day hf => ?_⟩⟩
    cases view <;> simp at hf
  · exact .refl r

theorem same_adopt (v : RouteView) (proposalId : Option Nat) (hcell : r.hasCell = true) :
    Same r (r.adoptControllerRoute x v proposalId) := by
  unfold adoptControllerRoute
  split
  · rw [if_pos hcell]
    exact same_feedRouteMetadata r x _
  · exact .refl r

end Handlers

/-- The absent route is given up only when nothing is open. -/
theorem kept_reconcileAbsent {r : Runtime} (x : Answers) (hcell : r.hasCell = true)
    (hopen : r.proc.disk.openWork = true) :
    Kept r (r.reconcileAbsentControllerRoute x) := by
  unfold reconcileAbsentControllerRoute
  split
  · next w d hw hd =>
      have hproc := cell_proc hw
      split
      · exact (same_feedRouteMetadata r x none).kept hcell
      · dsimp only
        have hnoted : Kept r (r.noteAssertion w) := by
          refine kept_of_carries hcell ?_ rfl rfl rfl
          rw [hproc]
          exact .note .refl _
        rw [if_pos]
        · exact hnoted.trans ((same_feedRouteMetadata _ x none).kept hnoted.cell)
        · have hwork : w.disk.openWork = true := by rwa [hproc] at hopen
          simp [safeUnpairAssertion, unresolvedLocalWork, hwork]
  · exact (Same.refl r).kept hcell

/-- The messages that do not make the runtime give up its cell. -/
def Spares (r : Runtime) : Control → Prop
  | .routeRemoved routeId _ => ∀ d ∈ r.route, routeId ≠ some d.routeId
  | .unpairAssertionResult accepted removed => (accepted && removed) = false
  | .roleResult accepted route _ => accepted = true → route = none →
      r.options.unpair = false
  | _ => True

instance (r : Runtime) (m : Control) : Decidable (r.Spares m) := by
  unfold Spares
  split <;> infer_instance

theorem kept_result {r : Runtime} (x : Answers) {m : Control} (hcell : r.hasCell = true)
    (hopen : r.proc.disk.openWork = true) (hm : r.Spares m) :
    Kept r (r.handleControlResult x m) := by
  have hrefl : Kept r r := (Same.refl r).kept hcell
  cases m with
  | roleResult accepted route resolved =>
      simp only [handleControlResult]
      split
      · exact Same.kept ⟨rfl, rfl, rfl, rfl, ⟨rfl, rfl, fun _ _ h => h⟩⟩ hcell
      · next haccepted =>
          split
          · exact (same_adopt r x _ none hcell).kept hcell
          · have hunpair : r.options.unpair = false := hm (by simpa using haccepted) rfl
            simp only [hunpair, Bool.false_eq_true, if_false]
            split
            · refine Same.kept (.trans ?_ (same_beginSelection _ x)) hcell
              exact ⟨rfl, rfl, rfl, rfl, ⟨rfl, rfl, fun _ _ h => h⟩⟩
            · exact Same.kept ⟨rfl, rfl, rfl, rfl, ⟨rfl, rfl, fun _ _ h => h⟩⟩ hcell
  | availableFollowersResult accepted =>
      simp only [handleControlResult]
      split
      · exact (same_selectFromListing r x).kept hcell
      · exact Same.kept ⟨rfl, rfl, rfl, rfl, ⟨rfl, rfl, fun _ _ h => h⟩⟩ hcell
  | pairingProposalResult accepted proposalId =>
      simp only [handleControlResult]
      split
      · exact (same_pairingConflict r).kept hcell
      · split <;> exact Same.kept ⟨rfl, rfl, rfl, rfl, ⟨rfl, rfl, fun _ _ h => h⟩⟩ hcell
  | pairingDecisionResult accepted paired route =>
      simp only [handleControlResult]
      split
      · exact Same.kept ⟨rfl, rfl, rfl, rfl, ⟨rfl, rfl, fun _ _ h => h⟩⟩ hcell
      · split
        · exact (same_adopt r x _ _ hcell).kept hcell
        · exact Same.kept ⟨rfl, rfl, rfl, rfl, ⟨rfl, rfl, fun _ _ h => h⟩⟩ hcell
  | routeSyncResult accepted route =>
      simp only [handleControlResult]
      split
      · exact hrefl
      · split
        · exact (same_adopt r x _ none hcell).kept hcell
        · exact kept_reconcileAbsent x hcell hopen
  | unpairResult accepted route =>
      simp only [handleControlResult]
      split
      · exact (same_feedRouteMetadata r x _).kept hcell
      · exact hrefl
  | unpairAssertionResult accepted removed =>
      simp only [handleControlResult]
      rw [if_neg (by rw [show (accepted && removed) = false from hm]; decide)]
      split
      · exact Same.kept ⟨rfl, rfl, rfl, rfl, ⟨rfl, rfl, fun _ _ h => h⟩⟩ hcell
      · exact hrefl
  | stateVersionResult accepted =>
      simp only [handleControlResult]
      split
      · exact hrefl
      · exact Same.kept ⟨rfl, rfl, rfl, rfl, ⟨rfl, rfl, fun _ _ h => h⟩⟩ hcell
  | _ => exact hrefl

theorem kept_push {r : Runtime} (x : Answers) {m : Control} (hcell : r.hasCell = true)
    (hm : r.Spares m) : Kept r (r.handleControlPush x m) := by
  have hrefl : Kept r r := (Same.refl r).kept hcell
  cases m with
  | pairingProposed proposalId leader =>
      exact (same_answerPairingProposal r x proposalId leader).kept hcell
  | pairingEnded =>
      simp only [handleControlPush, hcell, if_true]
      exact hrefl
  | routeEstablished route acceptance =>
      simp only [handleControlPush]
      split
      · next v =>
          have hsame := same_adopt r x v r.proposalId hcell
          split
          · exact kept_of_carries hcell (hsame.kept hcell).carries
              (hsame.kept hcell).route hsame.tables
              hsame.exit
          · exact hsame.kept hcell
      · exact hrefl
  | routeStateChanged route =>
      simp only [handleControlPush]
      split
      · exact (same_feedRouteMetadata r x _).kept hcell
      · exact hrefl
  | routeRemoved routeId safeUnpair =>
      simp only [handleControlPush]
      split
      · next d hd =>
          rw [if_neg (hm d hd)]
          exact hrefl
      · exact hrefl
  | _ => exact hrefl

theorem kept_control {r : Runtime} (x : Answers) {m : Control} (hcell : r.hasCell = true)
    (hopen : r.proc.disk.openWork = true) (hm : r.Spares m) : Kept r (r.control x m) := by
  unfold control
  split
  · exact kept_result x hcell hopen hm
  · exact kept_push x hcell hm

/-! ## Runs -/

/-- The condition on a step of a run, all of whose states have open work. -/
def Spared (r : Runtime) (l : RuntimeLabel) : Prop :=
  r.proc.disk.openWork = true ∧
    match l with
    | .control _ m => r.Spares m
    | .rebuild _ => False
    | _ => True

theorem kept_keepRouteState {r : Runtime} (w : World) (hcell : r.hasCell = true) :
    Kept r (r.keepRouteState w) := by
  have hrefl : Kept r r := (Same.refl r).kept hcell
  unfold keepRouteState
  split
  · exact hrefl
  · next d hd =>
      dsimp only
      generalize (if w.mem.aux.unpairing = true then RouteState.unpairing
        else .active) = state
      split
      · have hroute :
            ({ r with route := some { d with state := state } } : Runtime).routeOf =
            r.routeOf := by
          rw [routeOf, routeOf, hd]
          rfl
        split <;> exact kept_of_carries hcell .refl hroute rfl rfl
      · exact hrefl

theorem kept_work {r : Runtime} {w : World} (hw : r.cell = some w)
    (script : Script) (task : Task) (rest : List Task) (hfresh : script.Fresh w.disk)
    (hcell : r.hasCell = true) :
    Kept r (r.work w script task rest) := by
  cases task with
  | call c =>
      refine kept_of_carries hcell ?_ rfl rfl rfl
      rw [cell_proc hw]
      exact .step .refl rfl (.begin c script hfresh)
  | keepState =>
      obtain ⟨hc, hcarries, hrows, hroute, htables, hexit⟩ := kept_keepRouteState w hcell
      exact ⟨hc, hcarries, hrows, hroute, htables, hexit⟩
  | realized day positions deals => exact kept_of_carries hcell .refl rfl rfl rfl
  | record fact day => exact kept_of_carries hcell .refl rfl rfl rfl

theorem kept_step {r r' : Runtime} {l : RuntimeLabel} (hok : Spared r l)
    (hstep : Step r l r') (hcell : r.hasCell = true) : Kept r r' := by
  obtain ⟨hopen, hl⟩ := hok
  cases hstep with
  | cell hrunning hturn hp =>
      exact kept_of_carries hcell (.step .refl hrunning hp) rfl rfl rfl
  | snapshot now day script s deals hw hagenda hread hfresh =>
      refine kept_of_carries hcell ?_ rfl rfl rfl
      rw [cell_proc hw]
      exact .step .refl rfl (.begin _ script hfresh)
  | work script hw hagenda hfresh => exact kept_work hw script _ _ hfresh hcell
  | control x m hidle => exact kept_control x hcell hopen hl
  | rebuild x => exact hl.elim

theorem kept_reach {r r' : Runtime} (h : Reach Step Spared r r')
    (hcell : r.hasCell = true) :
    Kept r r' := by
  refine h.invariant ((Same.refl r).kept hcell) ?_
  intro q l q' hq hok hstep
  exact hq.trans (kept_step hok hstep hq.cell)

/-- A message that is not spared closes the cell, or ends the pumping. -/
theorem not_kept_control {r : Runtime} (x : Answers) {m : Control}
    (hexit : r.exitAfterSafeUnpair = false) (hm : ¬ r.Spares m) :
    ¬ Kept r (r.control x m) := by
  intro h
  cases m with
  | roleResult accepted route resolved =>
      simp only [Spares, Classical.not_imp, Bool.not_eq_false] at hm
      obtain ⟨rfl, rfl, hunpair⟩ := hm
      have hpumped := h.pumped
      simp [control, isResult, handleControlResult, hunpair, hexit] at hpumped
  | unpairAssertionResult accepted removed =>
      have hboth : (accepted && removed) = true := by simpa [Spares] using hm
      have hc := h.cell
      simp [control, isResult, handleControlResult, hboth, routeRemoved, hasCell] at hc
  | routeRemoved routeId safeUnpair =>
      simp only [Spares, not_forall, not_not] at hm
      obtain ⟨d, hd, hid⟩ := hm
      have hc := h.cell
      simp [control, isResult, handleControlPush, Option.mem_def.1 hd, hid, routeRemoved,
        hasCell] at hc
  | _ => exact hm trivial

/--
As long as an attempt is not terminal or an effect is open, the runtime keeps
its cell, its route and their rows through every message that is no removal of
the route, whatever else happens; and of the messages of the controller just
those that remove the route, or end the run, make it give them up.
-/
theorem control_keeps_exposure (r : Runtime) (hcell : r.hasCell = true) :
    (∀ r', Reach Step Spared r r' → Kept r r') ∧
      (r.proc.disk.openWork = true → r.exitAfterSafeUnpair = false →
        ∀ x m, Kept r (r.control x m) ↔ r.Spares m) := by
  refine ⟨fun r' h => kept_reach h hcell, fun hopen hexit x m => ⟨fun h => ?_, ?_⟩⟩
  · by_contra hm
    exact not_kept_control x hexit hm h
  · exact fun hm => kept_control x hcell hopen hm

/-- Between two messages, with a cell that has open work on route 7. -/
def working (r : Runtime) : Bool :=
  r.idle && r.hasCell && r.proc.disk.openWork && !r.exitAfterSafeUnpair &&
    r.route.any fun d => decide (d.routeId = 7)

theorem working_reached : ∃ r, Reach Step anyStep (init 1 Sample.leaderOptions) r ∧
    r.idle = true ∧ r.hasCell = true ∧ r.proc.disk.openWork = true ∧
    r.exitAfterSafeUnpair = false ∧ ∃ d ∈ r.route, d.routeId = 7 := by
  obtain ⟨r, hreach, hr⟩ :=
    plays anyStep (init 1 Sample.leaderOptions) Sample.entered working
    (by decide +kernel)
  simp only [working, Bool.and_eq_true, Bool.not_eq_true', Option.any_eq_true,
    decide_eq_true_eq] at hr
  obtain ⟨⟨⟨⟨hidle, hcell⟩, hopen⟩, hexit⟩, d, hd, hid⟩ := hr
  exact ⟨r, hreach, hidle, hcell, hopen, hexit, d, hd, hid⟩

/-- A leader whose entry is under way is told that the controller has no route for it. -/
theorem control_keeps_leader_entry :
    ∃ r, Reach Step anyStep (init 1 Sample.leaderOptions) r ∧ r.proc.disk.openWork = true ∧
      Kept r (r.control {} (.routeSyncResult true none)) := by
  obtain ⟨r, hreach, -, hcell, hopen, hexit, -⟩ := working_reached
  exact ⟨r, hreach, hopen,
    ((control_keeps_exposure r hcell).2 hopen hexit {}
      (.routeSyncResult true none)).2 trivial⟩

/-- The controller's notice that the route was deleted closes the cell
of a running entry. -/
theorem removed_route_closes_cell :
    ¬ ∀ workerId options r, Reach Step anyStep (init workerId options) r → r.idle = true →
      r.hasCell = true → r.proc.disk.openWork = true → ∀ x m, Kept r (r.control x m) := by
  intro h
  obtain ⟨r, hreach, hidle, hcell, hopen, hexit, d, hd, hid⟩ := working_reached
  refine not_kept_control {} hexit ?_ (h _ _ r hreach hidle hcell hopen {}
    (.routeRemoved (some 7) false))
  intro hspares
  exact hspares d hd (by rw [hid])

end Runtime

end PairCell
