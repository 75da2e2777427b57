import PairCell.Market.System

/-!
# Runs on concrete catalogs

Inputs and schedules from which runs of a pair are put together.  A move that is
not possible in a state is left out.
-/

namespace PairCell.Market

open Lib

namespace Sample

/-- Catalog entries that both sides have word for word are compatible products. -/
def discover : Discover := fun l f =>
  let common := l.entries.filter (· ∈ f.entries)
  ⟨common.map fun e => ⟨e, e⟩, if common.isEmpty then "no compatible product" else ""⟩

def size : SizingPlan → Nat := fun _ => 100

/-- A call at second `t` on an empty account with nothing else to do. -/
def at' (t : Nat) : Inputs where
  now := seconds t
  facts := ⟨true, true, false, false, 10, false⟩
  finishedFirst := false
  finishedLast := false
  stopped := false
  built := none
  candidate := none

def called (r : Role) (event : Event) (i : Inputs) : List Label :=
  .call r event i :: i.progress.map fun _ => .perform r

def delivered (r : Role) (i : Inputs) : List Label :=
  .deliver r i :: i.progress.map fun _ => .perform r

/-- Both relays are emptied, one envelope after the other. -/
def drained (t : Nat) : List Label :=
  (List.replicate 8 (delivered .leader (at' t) ++ delivered .follower (at' t))).flatten

def moves (s : Pair) (l : Label) : Option (Label × Pair) :=
  (next discover size s l).map (l, ·)

def discovered : List Label :=
  called .leader (.localCatalog ["EURUSD"]) (at' 1) ++
    called .follower (.localCatalog ["EURUSD"]) (at' 1) ++ drained 1

variable (ok : Pair → Label → Prop) [∀ s l, Decidable (ok s l)]

/-- The state after the moves of a list that are possible. -/
def plays (ms : List Label) : Option Pair := play ok moves (fun _ => true) .fresh ms

theorem plays_any (ms : List Label) (P : Pair → Bool) (h : (plays ok ms).any P = true) :
    ∃ s, Reach (Step discover size) ok .fresh s ∧ P s = true := by
  refine play_any (fun s l l' t hl => ?_) P h
  obtain ⟨t', ht, heq⟩ := Option.map_eq_some_iff.1 hl
  cases heq
  exact ht

end Sample

end PairCell.Market
