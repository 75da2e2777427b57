import Mathlib.Data.List.Basic
import Mathlib.Data.List.Induction

/-!
# The worker's relay outbox

`WorkerPairCellRelay` hands envelopes to the authenticated session.  A send
whose session call raises is retained in a bounded outbox and retried, oldest
first, by `flushPending`.  A session call is an input here: it succeeds or it
raises.
-/

namespace PairCell

inductive Kind where
  | quote | quoteBatch | catalogSummary | universe | rediscoveryRequest | rediscoveryResult
  | quarantineReleaseProposal | quarantineReleaseResponse | reseedRequest
      | pairingAcceptance
  | remainingAllowance | sizingPlans | readiness | policy | policyAck | attempt | legStatus
  | legStatusRequest | pairEntryConfirmed | pairEntryFailed
  deriving DecidableEq, Repr

/-- The kinds whose acknowledgements are logged. -/
def stateRelayKinds : List Kind :=
  [.attempt, .catalogSummary, .legStatus, .pairEntryConfirmed, .pairEntryFailed,
    .pairingAcceptance, .policy, .policyAck, .readiness, .remainingAllowance,
    .reseedRequest, .sizingPlans, .universe]

/-- An envelope on the wire: `requestId` is drawn once by `send` and
kept by every retry. -/
structure WireEnvelope (P : Type) where
  requestId : Nat
  kind : Kind
  payload : P
  deriving DecidableEq, Repr

structure WorkerPairCellRelay (P : Type) where
  pending : List (WireEnvelope P) := []
  lastSendFailed : Bool := false
  stateRelayRequestIds : List Nat := []
  sentOk : Nat := 0
  sendFailed : Nat := 0
  retriedOk : Nat := 0
  pendingDropped : Nat := 0
  deriving DecidableEq, Repr

def maxRelayPending : Nat := 256

namespace WorkerPairCellRelay

variable {P : Type}

def noteSent (r : WorkerPairCellRelay P) (e : WireEnvelope P) (retried : Bool) :
    WorkerPairCellRelay P :=
  { r with
    retriedOk := if retried then r.retriedOk + 1 else r.retriedOk
    sentOk := if retried then r.sentOk else r.sentOk + 1
    stateRelayRequestIds :=
      if e.kind ∈ stateRelayKinds then r.stateRelayRequestIds.insert e.requestId
      else r.stateRelayRequestIds }

def enqueuePending (r : WorkerPairCellRelay P) (e : WireEnvelope P) :
    WorkerPairCellRelay P :=
  if r.pending.length ≥ maxRelayPending then
    { r with pending := r.pending.tail ++ [e], pendingDropped := r.pendingDropped + 1 }
  else
    { r with pending := r.pending ++ [e] }

/-- One `send` call; `ok` says whether the session call returned. -/
def send (r : WorkerPairCellRelay P) (e : WireEnvelope P) (ok : Bool) :
    WorkerPairCellRelay P × List (WireEnvelope P) :=
  if ok then (r.noteSent e false, [e])
  else ({ ({ r with sendFailed := r.sendFailed + 1 }).enqueuePending e with
          lastSendFailed := true }, [])

/-- The retry loop over the retained envelopes; an absent outcome is a failure. -/
def flushLoop (r : WorkerPairCellRelay P) :
    List (WireEnvelope P) → List Bool → WorkerPairCellRelay P × List (WireEnvelope P)
  | [], _ => ({ r with pending := [] }, [])
  | e :: rest, true :: oks =>
      let (r', handed) := flushLoop (r.noteSent e true) rest oks
      (r', e :: handed)
  | e :: rest, _ => ({ r with pending := e :: rest, lastSendFailed := true }, [])

def flushPending (r : WorkerPairCellRelay P) (oks : List Bool) :
    WorkerPairCellRelay P × List (WireEnvelope P) :=
  flushLoop r r.pending oks

@[simp] theorem noteSent_pending (r : WorkerPairCellRelay P)
    (e : WireEnvelope P) (b : Bool) :
    (r.noteSent e b).pending = r.pending := rfl

theorem enqueuePending_pending (r : WorkerPairCellRelay P) (e : WireEnvelope P) :
    ∃ kept, kept.Sublist r.pending ∧ (r.enqueuePending e).pending = kept ++ [e] := by
  unfold enqueuePending
  split
  · exact ⟨r.pending.tail, List.tail_sublist _, rfl⟩
  · exact ⟨r.pending, List.Sublist.refl _, rfl⟩

/-- A flush hands over a first part of the retained envelopes and keeps the rest. -/
theorem flushLoop_split (r : WorkerPairCellRelay P) (es : List (WireEnvelope P))
    (oks : List Bool) :
    (flushLoop r es oks).2 ++ (flushLoop r es oks).1.pending = es := by
  fun_induction flushLoop r es oks with
  | case1 => rfl
  | case2 r e rest oks r' handed heq ih =>
      rw [heq] at ih
      simpa using ih
  | case3 => rfl

end WorkerPairCellRelay

/-! ## Runs of calls -/

inductive RelayCall (P : Type) where
  | send (e : WireEnvelope P) (ok : Bool)
  | flush (oks : List Bool)
  deriving DecidableEq, Repr

/-- A relay with what was asked of it and what it handed to the session, oldest first. -/
structure RelayLine (P : Type) where
  relay : WorkerPairCellRelay P := {}
  sends : List (WireEnvelope P) := []
  handed : List (WireEnvelope P) := []
  deriving DecidableEq, Repr

namespace RelayLine

variable {P : Type}

def step (s : RelayLine P) : RelayCall P → RelayLine P
  | .send e ok =>
      { relay := (s.relay.send e ok).1
        sends := s.sends ++ [e]
        handed := s.handed ++ (s.relay.send e ok).2 }
  | .flush oks =>
      { s with
        relay := (s.relay.flushPending oks).1
        handed := s.handed ++ (s.relay.flushPending oks).2 }

def run (calls : List (RelayCall P)) : RelayLine P := calls.foldl step {}

def Before (sends : List (WireEnvelope P)) (a b : WireEnvelope P) : Prop :=
  [a, b].Sublist sends

/--
The envelopes handed over are a subsequence of the sends, and nothing handed
over was sent after an envelope that is still retained.
-/
def InOrder (s : RelayLine P) : Prop :=
  s.handed.Sublist s.sends ∧
    ∀ e ∈ s.handed, ∀ p ∈ s.relay.pending, Before s.sends e p

/-- The call does not hand a new envelope over past retained ones. -/
def Waits (s : RelayLine P) : RelayCall P → Prop
  | .send _ true => s.relay.pending = []
  | _ => True

/-- Handed envelopes followed by retained ones are a subsequence of the sends. -/
def Ordered (s : RelayLine P) : Prop := (s.handed ++ s.relay.pending).Sublist s.sends

theorem Ordered.inOrder {s : RelayLine P} (h : Ordered s) : InOrder s := by
  refine ⟨(List.sublist_append_left _ _).trans h, ?_⟩
  intro e he p hp
  have hpair : [e, p].Sublist (s.handed ++ s.relay.pending) :=
    (List.singleton_sublist.2 he).append (List.singleton_sublist.2 hp)
  exact hpair.trans h

theorem ordered_step {s : RelayLine P} {c : RelayCall P} (hs : Ordered s)
    (hc : Waits s c) :
    Ordered (s.step c) := by
  cases c with
  | flush oks =>
      have hsplit := WorkerPairCellRelay.flushLoop_split s.relay s.relay.pending oks
      simpa only [Ordered, step, WorkerPairCellRelay.flushPending,
        List.append_assoc, hsplit]
        using hs
  | send e ok =>
      cases ok with
      | true =>
          have hempty : s.relay.pending = [] := hc
          have hh : s.handed.Sublist s.sends := by simpa [Ordered, hempty] using hs
          simpa [Ordered, step, WorkerPairCellRelay.send, hempty] using hh
      | false =>
          obtain ⟨kept, hkept, hpending⟩ := WorkerPairCellRelay.enqueuePending_pending
            { s.relay with sendFailed := s.relay.sendFailed + 1 } e
          have hold : (s.handed ++ kept).Sublist s.sends :=
            ((List.Sublist.refl _).append hkept).trans hs
          have hnew := hold.append (List.Sublist.refl [e])
          simpa only [Ordered, step, WorkerPairCellRelay.send, hpending, List.append_nil,
            List.append_assoc, Bool.false_eq_true, if_false] using hnew

theorem run_append (calls more : List (RelayCall P)) :
    run (calls ++ more) = more.foldl step (run calls) := by
  simp [run, List.foldl_append]

theorem ordered_run {calls : List (RelayCall P)}
    (h : ∀ before c after, calls = before ++ c :: after → Waits (run before) c) :
    Ordered (run calls) := by
  induction calls using List.reverseRecOn with
  | nil => exact List.Sublist.refl _
  | append_singleton calls c ih =>
      have hprev : Ordered (run calls) := by
        apply ih
        intro before d after hd
        exact h before d (after ++ [c]) (by simp [hd])
      rw [run_append]
      exact ordered_step hprev (h calls c [] rfl)

/-- In a list of distinct envelopes nothing comes after the last one. -/
private theorem not_before_last {sends : List (WireEnvelope P)} {e p : WireEnvelope P}
    (hnodup : (sends ++ [e]).Nodup) : ¬ Before (sends ++ [e]) e p := by
  intro h
  have hmem : e ∉ sends := by
    rw [List.nodup_append] at hnodup
    intro he
    exact hnodup.2.2 e he e (by simp) rfl
  obtain ⟨l₁, l₂, heq, h₁, h₂⟩ := List.sublist_append_iff.1 h
  cases l₁ with
  | nil =>
      have hlen := h₂.length_le
      simp only [List.nil_append] at heq
      simp [← heq] at hlen
  | cons a l₁ =>
      simp only [List.cons_append, List.cons.injEq] at heq
      exact hmem (h₁.subset (by simp [heq.1]))

private theorem waits_of_inOrder {s : RelayLine P} {c : RelayCall P}
    (hnodup : (s.step c).sends.Nodup) (h : InOrder (s.step c)) : Waits s c := by
  cases c with
  | flush oks => trivial
  | send e ok =>
      cases ok with
      | false => trivial
      | true =>
          by_contra hne
          obtain ⟨p, hp⟩ := List.exists_mem_of_ne_nil _ hne
          have hbefore : Before (s.sends ++ [e]) e p :=
            h.2 e (by simp [step, WorkerPairCellRelay.send]) p
              (by simpa [step, WorkerPairCellRelay.send] using hp)
          exact not_before_last hnodup hbefore

theorem sends_sublist_run (calls more : List (RelayCall P)) :
    (run calls).sends.Sublist (run (calls ++ more)).sends := by
  induction more using List.reverseRecOn with
  | nil => simp
  | append_singleton more c ih =>
      rw [← List.append_assoc, run_append]
      refine ih.trans ?_
      cases c with
      | flush oks => exact List.Sublist.refl _
      | send e ok => exact List.sublist_append_left _ _

/--
A run hands its envelopes over in the order they were sent, at every instant,
exactly when no send succeeds while an earlier envelope is retained.
-/
theorem run_inOrder_iff (calls : List (RelayCall P)) (hfresh : (run calls).sends.Nodup) :
    (∀ done, done <+: calls → InOrder (run done)) ↔
      ∀ done c, done ++ [c] <+: calls → Waits (run done) c := by
  constructor
  · intro h done c hpre
    obtain ⟨more, rfl⟩ := hpre
    have hstep : run (done ++ [c]) = (run done).step c := run_append done [c]
    have hnodup : (run (done ++ [c])).sends.Nodup :=
      hfresh.sublist (sends_sublist_run (done ++ [c]) more)
    have horder := h (done ++ [c]) ⟨more, rfl⟩
    rw [hstep] at hnodup horder
    exact waits_of_inOrder hnodup horder
  · intro h done hdone
    apply Ordered.inOrder
    apply ordered_run
    intro before c after heq
    apply h before c
    obtain ⟨more, rfl⟩ := hdone
    exact ⟨after ++ more, by simp [heq]⟩

/-- Two envelopes, the first of which waits in the outbox until a flush succeeds. -/
theorem run_inOrder_iff_flushed :
    (∀ done, done <+: [RelayCall.send (P := Unit) ⟨0, .attempt, ()⟩ false, .flush [true],
        .send ⟨1, .legStatusRequest, ()⟩ true] → InOrder (run done)) ↔
      ∀ done c, done ++ [c] <+: [RelayCall.send (P := Unit) ⟨0, .attempt, ()⟩ false,
        .flush [true], .send ⟨1, .legStatusRequest, ()⟩ true] → Waits (run done) c :=
  run_inOrder_iff _ (by decide)

/--
The second envelope is handed over while the first is retained, and the first
follows it at the next flush.
-/
theorem run_overtakes :
    let calls : List (RelayCall Unit) :=
      [.send ⟨0, .attempt, ()⟩ false, .send ⟨1, .legStatusRequest, ()⟩ true, .flush [true]]
    (run calls).sends.map WireEnvelope.requestId = [0, 1] ∧
      (run calls).handed.map WireEnvelope.requestId = [1, 0] ∧
      ¬ (run calls).handed.Sublist (run calls).sends := by
  decide

end RelayLine

end PairCell
