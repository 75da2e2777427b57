import PairCell.Runtime

/-!
# Playing a run of a runtime

`Runtime.next` is the step a move stands for, when it is possible.  It computes
the runs that the examples about runtimes are about.
-/

namespace PairCell

open Lib World

inductive RuntimeMove where
  | call (call : Call) (script : Script)
  | serve (item : ForeignItem) (script : Script)
  | snapshot (now day : Nat) (script : Script) (deals : Ticket → Option (List Deal))
  | work (script : Script)
  | control (x : Answers) (m : Control)
  | rebuild (x : Answers)
  /-- Carry out the next action of the running call. -/
  | exec

def RuntimeMove.optional : RuntimeMove → Bool
  | .exec | .work _ => true
  | _ => false

namespace Runtime

/-- The first action of the running call. -/
def execute (r : Runtime) : Option (RuntimeLabel × Runtime) :=
  match r.proc with
  | .up w (a :: todo) =>
      some (.cell (.exec a),
        { r with proc := .up (w.act a) todo, books := r.noted (.exec a) })
  | _ => none

/-- The label and the state a move leads to. -/
def next (r : Runtime) : RuntimeMove → Option (RuntimeLabel × Runtime)
  | .call call script =>
      match r.cell, r.agenda with
      | some w, [] =>
          if script.Fresh w.disk then
            some (.cell (.begin call script), r.begin w call script)
          else none
      | _, _ => none
  | .serve item script =>
      match r.cell, r.agenda with
      | some w, [] =>
          some (.cell (.serve item script),
            { r with
              proc :=
                .up (w.lent script) (dispatchScheduledTraderRpc item (w.lent script)).2 })
      | _, _ => none
  | .snapshot now day script deals =>
      match r.cell, r.agenda, script.reads.head? with
      | some w, [], some (some s) =>
          if script.Fresh w.disk then
            some (.snapshot now day script s deals,
              { r.begin w (.event (.brokerSnapshot now)) script with
                agenda := [.realized day s.positions deals] })
          else none
      | _, _, _ => none
  | .work script =>
      match r.cell, r.agenda with
      | some w, task :: rest =>
          if script.Fresh w.disk then
            some (.work script, r.work w script task rest) else none
      | _, _ => none
  | .control x m => if r.idle then some (.control x m, r.control x m) else none
  | .rebuild x => some (.rebuild x, r.rebuild x)
  | .exec => r.execute

theorem cell_proc {r : Runtime} {w : World} (h : r.cell = some w) : r.proc = .up w [] := by
  unfold cell at h
  split at h
  · next w' hp => rw [hp, Option.some.inj h]
  · cases h

theorem execute_step {r : Runtime} {l : RuntimeLabel} {r' : Runtime}
    (h : r.execute = some (l, r')) : Step r l r' := by
  unfold execute at h
  split at h
  · next w a todo hp =>
      cases h
      refine .cell rfl (.inr rfl) ?_
      rw [hp]
      exact .exec a todo
  · cases h

theorem next_step {r : Runtime} {m : RuntimeMove} {l : RuntimeLabel} {r' : Runtime}
    (h : r.next m = some (l, r')) : Step r l r' := by
  cases m with
  | call call script =>
      simp only [next] at h
      split at h
      · next w hw hagenda =>
          split at h
          · next hfresh =>
              cases h
              refine .cell rfl (.inl hagenda) ?_
              rw [cell_proc hw]
              exact .begin call script hfresh
          · cases h
      · cases h
  | serve item script =>
      simp only [next] at h
      split at h
      · next w hw hagenda =>
          cases h
          refine .cell rfl (.inl hagenda) ?_
          rw [cell_proc hw]
          exact .serve item script
      · cases h
  | snapshot now day script deals =>
      simp only [next] at h
      split at h
      · next w s hw hagenda hread =>
          split at h
          · next hfresh =>
              cases h
              exact .snapshot now day script s deals hw hagenda hread hfresh
          · cases h
      · cases h
  | work script =>
      simp only [next] at h
      split at h
      · next w task rest hw hagenda =>
          split at h
          · next hfresh =>
              cases h
              exact .work script hw hagenda hfresh
          · cases h
      · cases h
  | control x m =>
      simp only [next] at h
      split at h
      · next hidle =>
          cases h
          exact .control x m hidle
      · cases h
  | rebuild x =>
      cases h
      exact .rebuild x
  | exec => exact execute_step h

/-- Every step is allowed. -/
def anyStep : Runtime → RuntimeLabel → Prop := fun _ _ => True

instance (r : Runtime) (l : RuntimeLabel) : Decidable (anyStep r l) := isTrue trivial

/-- A run whose last state has a property that can be decided. -/
theorem plays (ok : Runtime → RuntimeLabel → Prop)
    [∀ r l, Decidable (ok r l)] (r : Runtime) (ms : List RuntimeMove) (P : Runtime → Bool)
    (h : (play ok next RuntimeMove.optional r ms).any P = true) :
    ∃ r', Reach Step ok r r' ∧ P r' = true := by
  have hnext : ∀ r m l r', next r m = some (l, r') → Step r l r' :=
    fun _ _ _ _ h => next_step h
  exact play_any hnext P h

/-- A runtime that has never been paired. -/
def init (workerId : Nat) (options : Options) : Runtime :=
  { workerId := workerId, options := options, proc := .down ⟨workerId, .follower, 0⟩ {} }

end Runtime

namespace Sample

def route : RouteView :=
  { routeId := some 7, leaderWorkerId := some 1, followerWorkerId := some 2,
    state := some .active }

def leaderOptions : Options := { role := some .leader, followerWorkerId := some 2 }

def executed : List RuntimeMove := List.replicate 60 .exec

/-- A call of the cell, carried out to its end. -/
def called (call : Call) (script : Script) : List RuntimeMove :=
  [.call call script] ++ executed

/-- A task of the agenda and the call it may begin. -/
def worked : List RuntimeMove := [.work {}] ++ executed

/-- The leader proposes to Worker 2, is paired, and its cell is constructed and
recovered. -/
def paired : List RuntimeMove :=
  [.control { startupBalance := some 1000 } (.roleResult true none (some .leader)),
    .control {} (.pairingProposalResult true (some 9)),
    .control {} (.routeEstablished (some route) false)] ++ worked ++ worked

/-- The policy is accepted and the entry of the attempt 100 sent. -/
def entered : List RuntimeMove :=
  paired ++ called (.event (.readinessFacts 1 emptyFacts)) {} ++
    called (.event (.policy policy)) {} ++
    called (.event (.readinessFacts 2 emptyFacts))
      { decision := some (attempt 100), replies := [filled] }

end Sample

end PairCell
