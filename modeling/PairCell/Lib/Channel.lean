import Mathlib.Data.List.Basic
import PairCell.Lib.Runs

/-!
# Channels with losses

A channel carries messages one way.  It may lose any of them, but it makes none
up, repeats none and lets none overtake another.
-/

namespace PairCell.Lib

/-- A channel with all that was ever sent and received on it, oldest first. -/
structure Channel (μ : Type) where
  sent : List μ := []
  inFlight : List μ := []
  received : List μ := []

namespace Channel

variable {μ : Type} {c c' : Channel μ}

inductive Event where
  | send | lose | receive

inductive Step : Channel μ → Event → Channel μ → Prop where
  | send {c : Channel μ} (m : μ) :
      Step c .send { c with sent := c.sent ++ [m], inFlight := c.inFlight ++ [m] }
  | lose {c : Channel μ} {rest : List μ} (h : rest.Sublist c.inFlight) :
      Step c .lose { c with inFlight := rest }
  | receive {c : Channel μ} {m : μ} {rest : List μ} (h : c.inFlight = m :: rest) :
      Step c .receive { c with inFlight := rest, received := c.received ++ [m] }

abbrev Run (c c' : Channel μ) : Prop := Reach Step (fun _ _ => True) c c'

theorem run_send (c : Channel μ) (ms : List μ) :
    Run c { c with sent := c.sent ++ ms, inFlight := c.inFlight ++ ms } := by
  induction ms generalizing c with
  | nil => simpa using Reach.refl
  | cons m ms ih =>
      have first : Run c { c with sent := c.sent ++ [m], inFlight := c.inFlight ++ [m] } :=
        .tail _ .refl trivial (.send m)
      simpa using first.trans (ih _)

theorem run_receive (c : Channel μ) {ms rest : List μ} (h : c.inFlight = ms ++ rest) :
    Run c { c with inFlight := rest, received := c.received ++ ms } := by
  induction ms generalizing c with
  | nil =>
      obtain rfl : c.inFlight = rest := h
      simpa using Reach.refl
  | cons m ms ih =>
      have first :
          Run c { c with inFlight := ms ++ rest, received := c.received ++ [m] } :=
        .tail _ .refl trivial (.receive h)
      simpa using first.trans
        (ih { c with inFlight := ms ++ rest, received := c.received ++ [m] } rfl)

/-- Messages are sent, then the first ones received, and some of the rest lost. -/
theorem run_of_moves {new gone rest : List μ} (hsent : c'.sent = c.sent ++ new)
    (hreceived : c'.received = c.received ++ gone)
    (hflight : c.inFlight ++ new = gone ++ rest)
    (hrest : c'.inFlight.Sublist rest) : Run c c' := by
  have hnew := run_send c new
  have hgone := hnew.trans (run_receive _ hflight)
  refine hgone.trans (.tail .lose .refl trivial ?_)
  obtain ⟨sent, inFlight, received⟩ := c'
  obtain rfl : sent = c.sent ++ new := hsent
  obtain rfl : received = c.received ++ gone := hreceived
  exact .lose hrest

/-- What was received and what may still arrive was sent, in this order. -/
theorem run_sublist (h : Run {} c) : (c.received ++ c.inFlight).Sublist c.sent := by
  refine h.invariant (I := fun c => (c.received ++ c.inFlight).Sublist c.sent)
    (List.Sublist.refl _) ?_
  intro c _ c' hc _ hstep
  cases hstep with
  | send m =>
      rw [← List.append_assoc]
      exact hc.append (List.Sublist.refl [m])
  | lose hrest => exact ((List.Sublist.refl _).append hrest).trans hc
  | receive hfirst =>
      rw [hfirst] at hc
      simpa using hc

theorem run_received (h : Run {} c) : c.received.Sublist c.sent :=
  (List.sublist_append_left _ _).trans (run_sublist h)

end Channel

end PairCell.Lib
