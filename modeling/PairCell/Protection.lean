import PairCell.Entry

/-!
# Pair confirmation and protection

The pair is confirmed once, from exact evidence of both legs; each worker then
writes its half of the mirrored box once, or keeps the rough protection.
-/

namespace PairCell

open Lib

/-! ## Pair confirmation -/

def maybeEmitPairConfirmation : M Unit := do
  let w ← get
  match w.mem.attempt, w.mem.leg with
  | some a, some _ =>
      if w.cfg.role ≠ .leader ∨ w.mem.pairConfirmed ∨ w.mem.desired ≠ .active then pure ()
      else if ownEvidenceInconsistency w ≠ none then pure ()
      else
        match peerEvidenceState w with
        | (_, some why) => do
            note "inconsistent_peer_evidence"
            notifyEntryFailed why
            beginClose ⟨"inconsistent_peer_evidence", false⟩
        | (false, none) => pure ()
        | (true, none) => do
            modifyAux fun x => { x with timerDeadline := none }
            emit (.saveDesired w.mem.desired true)
            note "pair_entry_confirmed"
            note "timing:pair_entry_confirmed"
            emit (.relay (.pairEntryConfirmed a.attemptId))
  | _, _ => pure ()

def handlePairEntryConfirmed (attemptId : Nat) : M Unit := do
  let w ← get
  match w.mem.attempt, w.mem.leg with
  | some a, some _ =>
      if w.cfg.role ≠ .follower ∨ attemptId ≠ a.attemptId then pure ()
      else if w.mem.desired ≠ .active ∨
          w.mem.state ∈ [PairState.convergingEmpty, .empty, .needsHuman] then
        note "pair_confirmation_rejected"
      else do
        let late ← match w.mem.aux.timerDeadline with
          | none => pure true
          | some deadline => do
              let now ← monotonic
              pure (decide (deadline ≤ now))
        if late then do
          note "pair_confirmation_rejected"
          beginClose ⟨"pair_confirmation_after_timer", false⟩
        else do
          modifyAux fun x => { x with timerDeadline := none }
          emit (.saveDesired w.mem.desired true)
          note "pair_entry_confirmed"
          note "timing:pair_entry_confirmed"
  | _, _ => pure ()

def handlePairEntryFailed (attemptId : Nat) : M Unit := do
  let w ← get
  if w.attemptId? = some attemptId then do
    note "peer_reported_entry_failed"
    beginClose ⟨"peer_reported_entry_failed", false⟩
  else pure ()

/-! ## Protection -/

def freezeOrFallbackProtection (l : Leg) (reason : String) : M Unit := do
  let frozen := decide (l.protectionStatus = .precise)
  let l := { l with protectionStatus := if frozen then .frozen else .fallback }
  persistLeg l
  note (if frozen then "protection_frozen" else "protection_rough_fallback")
  reportLegStatus
    { status := if frozen then .protectionFrozen else .protectionRoughFallback,
                    sl := l.observedSl, tp := l.observedTp, reason := ⟨reason, false⟩ }

/-- Roll an accepted precise write back when the peer kept its rough protection. -/
def restoreRoughProtection (reason : String) : M Unit := do
  let w ← get
  match w.mem.attempt, w.mem.leg with
  | some a, some l =>
      if l.protectionStatus ≠ .precise then pure ()
      else do
        let rough := a.roughOf l.role
        let e := w.cfg.effect a .rollback
        let p := Payload.modifySlTp a.symbol l.ticket rough.1 rough.2
        match ← Journal.prepare e p true with
        | .error _ => do
            note "rough_protection_rollback_failed"
            beginClose ⟨"rough_protection_rollback_prepare_failed", false⟩
        | .ok _ => do
            let out ← runBrokerWrite e p
            if out.category ≠ .completed then do
              note "rough_protection_rollback_failed"
              beginClose ⟨"rough_protection_rollback_failed", false⟩
            else do
              -- the leg names the rollback effect only now
              persistLeg { l with
                protectionEffectId := some e, protectionStatus := .fallback
                preciseSl := none, preciseTp := none, lastProtectionUpdateAt := none }
              note "rough_protection_rollback_applied"
              readBroker
              reportLegStatus { status := .protectionRoughFallback, sl := some rough.1,
                                tp := some rough.2, reason := ⟨reason, false⟩ }
  | _, _ => pure ()

/-- This worker's half of the box; the box itself is computed elsewhere. -/
def mirroredPreciseProtection (w : World) (l : Leg) : Option (Rat × Rat) :=
  if l.protectionStatus = .rough ∧ w.mem.policy ≠ none ∧ l.fillPrice ≠ none ∧
      w.mem.peerLeg.fillPrice ≠ none ∧ w.script.leaderTick ≠ none ∧
      w.script.followerTick ≠ none then
    w.script.mirror
  else none

def preciseApplied (l : Leg) (box : Rat × Rat) (now : Nat) : Leg :=
  { l with preciseSl := some box.1, preciseTp := some box.2, protectionStatus := .precise
           lastProtectionUpdateAt := some now }

def applyMirroredBox (a : Attempt) (l : Leg) (box : Rat × Rat) : M Unit := do
  let w ← get
  let e := w.cfg.effect a .protection
  let p := Payload.modifySlTp a.symbol l.ticket box.1 box.2
  let l := { l with protectionEffectId := some e }
  emit (.memLeg l)
  if w.shadow then do
    persistLeg { preciseApplied l box w.mem.aux.now with
      observedSl := some box.1, observedTp := some box.2 }
    reportLegStatus { status := .protectionPrecise, sl := some box.1, tp := some box.2 }
  else
    match ← Journal.prepare e p true with
    | .error _ => freezeOrFallbackProtection l "mirrored protection could not be journaled"
    | .ok _ => do
        let out ← runBrokerWrite e p
        if out.category = .completed then do
          persistLeg (preciseApplied l box w.mem.aux.now)
          emit (.setState .protecting)
          note "mirrored_protection_applied"
          note "timing:mirrored_protection_applied"
          reportLegStatus { status := .protectionPrecise, sl := some box.1,
                            tp := some box.2 }
          readBroker
        else freezeOrFallbackProtection l "mirrored protection broker result"

def maybeApplyPreciseProtection : M Unit := do
  let w ← get
  match w.mem.attempt, w.mem.leg with
  | some a, some l =>
      if w.mem.pairConfirmed = false ∨ w.mem.desired ≠ .active ∨
        l.protectionStatus ≠ .rough then
        pure ()
      else
        match mirroredPreciseProtection w l with
        | none => freezeOrFallbackProtection l "no executable mirrored protection exists"
        | some box => applyMirroredBox a l box
  | _, _ => pure ()

/-- The peer status that answers a protection status of this side. -/
def acceptedPeerStatus : ProtectionStatus → Option Status
  | .rough => none
  | .precise => some .protectionPrecise
  | .fallback => some .protectionRoughFallback
  | .frozen => some .protectionFrozen

def maybeDeclareActive : M Unit := do
  let w ← get
  match w.mem.attempt, w.mem.leg with
  | some a, some l =>
      let expected := expectedProtection a l
      let tick := w.script.tickOf l.role
      if w.mem.pairConfirmed = false ∨ w.mem.desired ≠ .active ∨
          acceptedPeerStatus l.protectionStatus ≠ some w.mem.peerLeg.status then pure ()
      else if sameProtectionPrice expected.1 l.observedSl tick &&
          sameProtectionPrice expected.2 l.observedTp tick then do
        emit (.setState .active)
        if w.mem.activeSince = none then do
          emit (.saveActive w.mem.aux.now)
          note "active_verified"
          note "timing:active_verified"
        else pure ()
      else pure ()
  | _, _ => pure ()

end PairCell
