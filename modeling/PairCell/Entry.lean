import PairCell.Containment

/-!
# Entry

The leader's decision, the follower's admission, and the one dispatch of the
entry order each of them makes.
-/

namespace PairCell

open Lib

/-- `_request_broker_read` from an event handler. -/
def readBroker : M Unit := do
  let w ← get
  requestBrokerRead w.script.depth

/-! ## Readiness and admission -/

/-- The reason, when the check fails. -/
def refuseIf (failed : Bool) (reason : String) : Option String :=
  if failed then some reason else none

/-- The first check that fails, in the order they are made. -/
def firstRefusal (checks : List (Option String)) : Option String := checks.findSome? id

theorem firstRefusal_eq_none {checks : List (Option String)} :
    firstRefusal checks = none ↔ ∀ c ∈ checks, c = none := by
  simp [firstRefusal]

theorem refuseIf_eq_none {failed : Bool} {reason : String} :
    refuseIf failed reason = none ↔ failed = false := by
  cases failed <;> simp [refuseIf]

/-- Exposure that is not the exact leg of the current attempt. -/
def unownedExposureReason (w : World) (orders : List Order) (positions : List Position) :
    Option String :=
  let owned := match w.mem.attempt, w.mem.leg with
    | some _, some l =>
        !l.emptyVerified && decide (l.entryStatus = .filled) &&
          match l.ticket with
          | some t => !positions.isEmpty && positions.all fun p => decide (p.text = t)
          | none => false
    | _, _ => false
  refuseIf (!(orders.isEmpty && (positions.isEmpty || owned))) "existing exposure present"

/-- An attempt that is not over, by memory and by the state label. -/
def World.attemptUnresolved (w : World) : Bool :=
  w.mem.attempt.isSome && decide (w.mem.state ≠ .empty ∧ w.mem.state ≠ .idle)

/-- The checks on the latest readiness facts. -/
def factsRefusal (w : World) : Option String :=
  match w.mem.aux.localFacts with
  | none => some "no local readiness facts observed yet"
  | some facts =>
      match facts.terminalConnected, facts.orders, facts.positions with
      | false, _, _ => some "terminal disconnected"
      | true, some orders, some positions =>
          firstRefusal [unownedExposureReason w orders positions,
            refuseIf (!facts.marginHeadroomOk) "insufficient margin headroom"]
      | true, _, _ => some "broker order/position read unavailable"

def metadataRefusal (w : World) : Option String :=
  w.mem.aux.metadataReconciliation.map ("route metadata reconciliation: " ++ ·)

/-- Why this worker is not ready for an entry. -/
def localReady (w : World) : Option String :=
  firstRefusal
    [ refuseIf w.mem.needsHuman.isSome "operator intervention is required",
      refuseIf w.mem.recovering "recovering durable state after restart",
      metadataRefusal w,
      refuseIf w.mem.aux.unpairing "the route is UNPAIRING",
      refuseIf (!w.mem.aux.peerSession) "authenticated peer session lost",
      w.script.notReadyUniverse,
      refuseIf w.mem.policy.isNone "no canonical strategy policy is accepted",
      w.script.notReadyRisk,
      w.script.blackout.map Prod.snd,
      w.script.notReadyAllowance,
      factsRefusal w,
      refuseIf w.disk.anyUnresolved "effect journal has unresolved effects",
      w.script.notReadyPlans,
      refuseIf w.attemptUnresolved "an attempt is unresolved",
      w.script.notReadyCooldown ]

def policyRefusal (w : World) (a : Attempt) : Option String :=
  match w.mem.policy with
  | none => some "no canonical strategy policy is accepted"
  | some policy =>
      refuseIf (decide (a.policyHash ≠ policy.hash))
        "policy hash is not the exact locally accepted hash"

/-- Why the follower does not admit the attempt. -/
def attemptAdmissionReason (w : World) (a : Attempt) : Option String :=
  firstRefusal
    [ refuseIf (decide (a.routeId ≠ w.cfg.routeId)) "the attempt names another route",
      refuseIf w.mem.aux.unpairing "the route is UNPAIRING",
      metadataRefusal w,
      w.script.notAdmittedUniverse,
      policyRefusal w a,
      refuseIf w.attemptUnresolved "an earlier attempt is still unresolved",
      w.script.notAdmittedQuarantine,
      (localReady w).map ("follower not ready: " ++ ·),
      refuseIf (!brokerVerifiedEmpty w) "follower is not broker-verified empty",
      w.script.notAdmittedPlan ]

/-! ## The dispatch -/

/-- The fill a shadow policy pretends. -/
def simulateEntry (a : Attempt) (l : Leg) : M Unit := do
  let w ← get
  let role := w.cfg.role
  let rough := a.roughOf role
  let l' := { l with
    entryStatus := .filled, ticket := some (.shadow a.attemptId w.cfg.workerId)
    fillPrice := some (a.entryOf role), observedVolume := some a.lots
    observedSl := some rough.1, observedTp := some rough.2 }
  persistLeg l'
  emit (.setState .awaitingPairConfirmation)
  note "shadow_entry_simulated"
  reportLegStatus { status := .filled, ticket := l'.ticket, fillPrice := l'.fillPrice,
                    sl := l'.observedSl, tp := l'.observedTp }

def entryRejected (l : Leg) (receipt : Option (Option Int)) : M Unit := do
  persistLeg { l with entryStatus := .rejected }
  note "entry_rejected"
  if receipt.join = some priceOffRetcode then note "product_quarantined" else pure ()
  reportLegStatus { status := .rejected, receiptRetcode := receipt.join }
  notifyEntryFailed "the local entry was rejected by the broker"
  beginClose ⟨"entry_rejected", false⟩

def entryExpired (l : Leg) : M Unit := do
  persistLeg { l with entryStatus := .expiredNotStarted }
  note "entry_expired_not_started"
  reportLegStatus { status := .expiredNotStarted }
  notifyEntryFailed "the local entry never started"
  beginClose ⟨"entry_expired_not_started", false⟩

def entryUnknown (l : Leg) : M Unit := do
  persistLeg { l with entryStatus := .unknownAfterSend }
  emit (.setState .entryUncertain)
  note "entry_unknown_after_send"
  readBroker

def entrySent (l : Leg) : M Unit := do
  persistLeg { l with entryStatus := .sent }
  note "entry_sent"
  reportLegStatus { status := .sent }
  readBroker

def sendEntry (a : Attempt) (l : Leg) : M Unit := do
  let w ← get
  let l := { l with entryDispatched := true }
  persistLeg l
  if w.shadow then simulateEntry a l
  else do
    let out ← runBrokerWrite (l.entryEffectId.getD (entryEffectId w.cfg a))
      (entryPayload a w.cfg.role)
    match out.category with
    | .rejected => entryRejected l out.receipt
    | .expiredNotStarted => entryExpired l
    | .unknownAfterSend => entryUnknown l
    | .completed => entrySent l

/-! ## Opening an attempt -/

/-- The journal knows the effect id with another payload. -/
def entryReused (l : Leg) : M Unit := do
  persistLeg { l with entryStatus := .rejected }
  note "entry_rejected_preflight"
  reportLegStatus { status := .rejected,
                    reason :=
                      ⟨"Broker effect ID was reused with a different payload.", false⟩ }
  beginClose ⟨"entry_effect_prepare_failed", false⟩

def prepareEntryEffect (e : EffectId) (a : Attempt) (l : Leg) : M Bool := do
  let w ← get
  if w.shadow then pure true
  else
    match ← Journal.prepare e (entryPayload a w.cfg.role) true with
    | .ok _ => pure true
    | .error _ => do
        entryReused l
        pure false

/-- `_start_timer`; the leg it returns carries the start time. -/
def startTimer (a : Attempt) (l : Leg) : M Leg := do
  let now ← monotonic
  modifyAux fun x => { x with timerDeadline := some (now + a.confirmationTimeoutSeconds) }
  let w ← get
  let l := { l with timerStartedAt := some w.mem.aux.now }
  persistLeg l
  note (if w.cfg.role = .leader then "timing:leader_timer_started"
    else "timing:follower_timer_started")
  pure l

/-- The leg row names the entry effect before the effect exists. -/
def firstLeg (c : Config) (a : Attempt) : Leg :=
  { attemptId := a.attemptId, role := c.role, rough := some (a.roughOf c.role)
    entryEffectId := some (entryEffectId c a) }

/-- Persist the attempt, the intent to hold it, its leg and its prepared effect. -/
def openAttempt (a : Attempt) (event : String) : M Bool := do
  emit (.adopt a)
  bumpStateVersion
  note "timing:attempt_persisted"
  let w ← get
  emit (.saveDesired .active w.mem.pairConfirmed)
  note event
  let l := firstLeg w.cfg a
  persistLeg l
  if ← prepareEntryEffect (entryEffectId w.cfg a) a l then do
    persistLeg l
    pure true
  else pure false

def maybeCreateAttempt : M Unit := do
  let w ← get
  match w.script.decision, w.mem.policy with
  | some decided, some policy =>
      if localReady w ≠ none then pure ()
      else do
        let a := { decided with routeId := w.cfg.routeId, policyHash := policy.hash }
        if ← openAttempt a "attempt_created" then do
          let l ← startTimer a (firstLeg w.cfg a)
          -- the relay intent is durable before the envelope can leave
          let l := { l with attemptRelayed := true }
          persistLeg l
          note "attempt_relay_intent"
          emit (.relay (.attempt a))
          note "timing:attempt_dispatched"
          sendEntry a l
        else pure ()
  | _, _ => pure ()

/-- Answer a same-content duplicate from the durable outcome only. -/
def replayLegStatus (a : Attempt) : M Unit := do
  let w ← get
  if (w.mem.leg.map Leg.attemptId) = some a.attemptId then reportCurrentLegStatus
  else
    match (w.disk.rowOf a.attemptId).bind AttemptRow.terminal with
    | some reason =>
        reportLegStatus { status := terminalStatusFor reason,
                          attemptId := some a.attemptId, reason := ⟨reason.text, false⟩ }
    | none => pure ()

def handleAttempt (a : Attempt) : M Unit := do
  let w ← get
  if w.cfg.role ≠ .follower then pure ()
  else
    match w.disk.rowOf a.attemptId with
    | some row =>
        if row.attempt ≠ a then do
          note "attempt_rejected"
          reportLegStatus { status := .rejected, attemptId := some a.attemptId,
                            reason := ⟨"attempt ID reused with different content", false⟩ }
        else do
          note "attempt_duplicate_ignored"
          replayLegStatus a
    | none =>
        match attemptAdmissionReason w a with
        | some reason => do
            emit (.refuse a reason)
            note "attempt_rejected"
            reportLegStatus { status := .rejected, attemptId := some a.attemptId,
                              reason := ⟨reason, false⟩ }
        | none => do
            if ← openAttempt a "attempt_admitted" then do
              let l ← startTimer a (firstLeg w.cfg a)
              sendEntry a l
            else pure ()

end PairCell
