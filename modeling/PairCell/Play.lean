import PairCell.Run

/-!
# Playing a run

`Proc.play` carries out a list of moves and answers with the process they lead
to, when each of them is possible.  It computes the runs that the examples of
the later modules are about.
-/

namespace PairCell

open Lib World

inductive Move where
  | call (call : Call) (script : Script)
  | serve (item : ForeignItem) (script : Script)
  | next (n : Nat)
  | finish
  | crash
  | reopen

instance (script : Script) (d : Disk) : Decidable (script.Fresh d) :=
  match h : script.decision with
  | none => isTrue fun a ha => by simp [h] at ha
  | some a =>
      if hrow : d.rowOf a.attemptId = none then
        isTrue fun b hb => by
          obtain rfl : a = b := Option.some.inj (h.symm.trans hb)
          exact hrow
      else isFalse fun hf => hrow (hf a h)

instance (p : Proc) (l : Label) : Decidable (anyStep p l) := isTrue trivial

namespace Proc

section Guarded

variable (ok : Proc → Label → Prop) [∀ p l, Decidable (ok p l)]

def advance : Nat → Proc → Option Proc
  | n + 1, .up w (a :: todo) =>
      if ok (.up w (a :: todo)) (.exec a) then advance n (.up (w.act a) todo) else none
  | _, p => some p

def start (p : Proc) : Move → Option (Label × Proc)
  | .call call script =>
      match p with
      | .up w [] =>
          if script.Fresh w.disk then
            some (.begin call script,
              .up (w.given call script) (call.run (w.given call script)).2)
          else none
      | _ => none
  | .serve item script =>
      match p with
      | .up w [] =>
          some (.serve item script,
            .up (w.lent script) (dispatchScheduledTraderRpc item (w.lent script)).2)
      | _ => none
  | .crash =>
      match p with
      | .up w _ => some (.crash, .down w.cfg w.disk)
      | .down _ _ => none
  | .reopen =>
      match p with
      | .down c d => (load c d).map fun w => (.reopen, .up w [])
      | .up _ _ => none
  | .next _ => none
  | .finish => none

def move (p : Proc) (m : Move) : Option Proc :=
  match m with
  | .next n => p.advance ok n
  | .finish =>
      match p with
      | .up _ todo => p.advance ok todo.length
      | .down _ _ => none
  | m => (p.start m).bind fun r => if ok p r.1 then some r.2 else none

def play (p : Proc) : List Move → Option Proc
  | [] => some p
  | m :: ms => (p.move ok m).bind fun p' => p'.play ms

variable {ok}

theorem advance_reach {n : Nat} {p p' : Proc} (h : p.advance ok n = some p') :
    Reach Proc.Step ok p p' := by
  fun_induction advance ok n p with
  | case1 n w a todo hok ih =>
      exact (Reach.tail (.exec a) .refl hok (.exec a todo)).trans (ih h)
  | case2 => cases h
  | case3 =>
      obtain rfl := Option.some.inj h
      exact .refl

theorem start_step {p p' : Proc} {m : Move} {l : Label} (h : p.start m = some (l, p')) :
    Proc.Step p l p' := by
  cases m with
  | call call script =>
      simp only [start] at h
      split at h
      · split at h
        · next hfresh =>
            cases h
            exact .begin call script hfresh
        · cases h
      · cases h
  | serve item script =>
      simp only [start] at h
      split at h
      · cases h
        exact .serve item script
      · cases h
  | crash =>
      cases p with
      | up w todo =>
          cases h
          exact .crash
      | down c d => cases h
  | reopen =>
      cases p with
      | up w todo => cases h
      | down c d =>
          obtain ⟨w, hload, hw⟩ := Option.map_eq_some_iff.1 h
          cases hw
          exact .reopen hload
  | next n => cases h
  | finish => cases h

theorem move_reach {p p' : Proc} {m : Move} (h : p.move ok m = some p') :
    Reach Proc.Step ok p p' := by
  unfold move at h
  split at h
  · exact advance_reach h
  · split at h
    · exact advance_reach h
    · cases h
  · obtain ⟨⟨l, q⟩, hstart, hq⟩ := Option.bind_eq_some_iff.1 h
    split at hq
    · next hok =>
        obtain rfl := Option.some.inj hq
        exact .tail l .refl hok (start_step hstart)
    · cases hq

theorem play_reach {p p' : Proc} {ms : List Move} (h : p.play ok ms = some p') :
    Reach Proc.Step ok p p' := by
  induction ms generalizing p with
  | nil =>
      obtain rfl := Option.some.inj h
      exact .refl
  | cons m ms ih =>
      obtain ⟨q, hq, hrest⟩ := Option.bind_eq_some_iff.1 h
      exact (move_reach hq).trans (ih hrest)

/-- A run whose last state has a property that can be decided. -/
theorem play_any (ok : Proc → Label → Prop) [∀ p l, Decidable (ok p l)] (p : Proc)
    (ms : List Move) (P : Proc → Bool) (h : (p.play ok ms).any P = true) :
    ∃ p', Reach Proc.Step ok p p' ∧ P p' = true := by
  cases hplay : p.play ok ms with
  | none => simp [hplay] at h
  | some p' => exact ⟨p', play_reach hplay, by simpa [hplay] using h⟩

end Guarded

end Proc

/-! ## A route to play on -/

namespace Sample

def leader : Config := ⟨1, .leader, 7⟩

def follower : Config := ⟨2, .follower, 7⟩

/-- One lot, the leader long. -/
def attempt (attemptId : Nat) : Attempt :=
  { attemptId := attemptId, policyHash := 5, routeId := 7, universeGeneration := 1,
    productId := 3
    symbol := "EURUSD", leaderDirection := .long, followerDirection := .short, lots := 1
    leaderQuote := ⟨1, 1⟩, followerQuote := ⟨1, 1⟩,
    leaderPlanVersion := 1, followerPlanVersion := 1
    leaderRough := (1, 2), followerRough := (2, 1), fillingMode := 0
    confirmationTimeoutSeconds := 10 }

def policy : Policy := ⟨5, .live, none⟩

def emptyFacts : Facts := ⟨some [], some [], true, true⟩

def filled : Reply := ⟨.receipt (some 10009) true, 1, 55⟩

def refused : Reply := ⟨.receipt (some 10006) true, 0, 0⟩

def emptyAccount : Snapshot := ⟨[], []⟩

/-- The position of the leader's filled entry. -/
def entryHeld : Position := ⟨55, "EURUSD", some .long, some 1, some 1, some 1, some 2⟩

def run (call : Call) (script : Script) : List Move := [.call call script, .finish]

def restart : List Move := [.crash, .reopen] ++ run .recover {}

/-- Readiness facts of the time `now`. -/
def facts (now : Nat) (script : Script) : List Move :=
  run (.event (.readinessFacts now emptyFacts)) script

def deliver (m : Message) (script : Script) : List Move :=
  run (.event (.envelope m)) script

/-- A started cell that has accepted the policy and is ready. -/
def ready : List Move :=
  [.reopen] ++ run .recover {} ++ facts 1 {} ++ run (.event (.policy policy)) {}

end Sample

end PairCell
