import PairCell.World

/-!
# Broker writes

The effect journal, the dispatcher that serves other clients' scheduled items,
and `_run_broker_write`, the one path on which a cell reaches `order_send`.
-/

namespace PairCell

open Lib

def note (event : String) : M Unit := emit (.transition (.note event))

def bumpStateVersion : M Unit := emit .bump

def modifyAux (f : Aux → Aux) : M Unit := do
  let w ← get
  emit (.setAux (f w.mem.aux))

/-- A reading of the monotonic clock. -/
def monotonic : M Nat := do
  let w ← get
  emit .tick
  pure (w.script.ticks.headD 0)

/-! ## The effect journal -/

inductive JournalError where
  | reused | notPrepared | sentAgain | conflicting | noEvidence
  deriving DecidableEq, Repr

namespace Journal

def prepare (e : EffectId) (p : Payload) (own : Bool) :
    M (Except JournalError EffectState) := do
  let w ← get
  match w.disk.journal.get e with
  | some row => if row.payload ≠ p then pure (.error .reused) else pure (.ok row.state)
  | none => do
      emit (.prepare e p own)
      pure (.ok .prepared)

def markSendStarted (e : EffectId) : M (Except JournalError Unit) := do
  let w ← get
  match w.disk.journal.get e with
  | none => pure (.error .notPrepared)
  | some row =>
      if row.state ≠ .prepared then pure (.error .sentAgain)
      else do
        emit (.markSendStarted e)
        pure (.ok ())

/-- `json.dumps` of the receipt raises after the state check. -/
def recordReceipt (e : EffectId) (retcode : Option Int) (encodable : Bool) :
    M (Except JournalError Unit) := do
  let w ← get
  match w.disk.journal.get e with
  | none => pure (.error .notPrepared)
  | some row =>
      if row.state = .observed then pure (.error .conflicting)
      else if encodable then do
        emit (.recordReceipt e retcode)
        pure (.ok ())
      else raise .encode

def recordObservation (e : EffectId) : M (Except JournalError Unit) := do
  let w ← get
  match w.disk.journal.get e with
  | none => pure (.error .notPrepared)
  | some row =>
      if row.state = .receipt then pure (.error .conflicting)
      else do
        emit (.recordObservation e)
        pure (.ok ())

/-- The retcode in the recorded evidence. -/
def evidence (d : Disk) (e : EffectId) : Except JournalError (Option Int) :=
  match d.journal.get e with
  | some row => if row.unresolved then .error .noEvidence else .ok row.retcode
  | none => .error .noEvidence

end Journal

/-- Resolve an effect that is still open, and nothing else. -/
def recordEffectObservation (e? : Option EffectId) : M Unit := do
  match e? with
  | none => pure ()
  | some e => do
      let w ← get
      if w.disk.unresolved e then do
        match ← Journal.recordObservation e with
        | .error _ => note "effect_observation_refused"
        | .ok _ => do
            note "effect_resolved_by_observation"
            bumpStateVersion
      else pure ()

/-! ## The terminal -/

def orderSend (e : EffectId) (p : Payload) : M Reply := do
  let w ← get
  let r := w.script.replies.headD { response := .raised }
  emit (.orderSend e p r)
  pure r

/-! ## Items of other clients -/

/-- Whether `_trader_order` and its siblings accept the request. -/
def servable : Payload → Bool
  | .market .. => false
  | _ => true

/-- `_dispatch_scheduled_trader_rpc`: every exception ends the item, not the drain. -/
def dispatchScheduledTraderRpc (item : ForeignItem) : M Unit := do
  match ← Journal.prepare item.effect item.payload false with
  | .ok .prepared =>
      if servable item.payload && item.allowed then do
        match ← Journal.markSendStarted item.effect with
        | .error _ => pure ()
        | .ok _ => do
            let r ← orderSend item.effect item.payload
            match r.response with
            | .receipt retcode true => do
                let _ ← Journal.recordReceipt item.effect retcode true
                pure ()
            | _ => pure ()
      else pure ()
  | _ => pure ()

def drain : List ForeignItem → M Unit
  | [] => pure ()
  | item :: items => do
      dispatchScheduledTraderRpc item
      drain items

/-! ## A write of the cell -/

def mapSchedulerCategory : OutcomeCategory → Category
  | .completed => .completed
  | .expiredNotStarted => .expiredNotStarted
  | .rejectedPreflight | .rejectedWorkerState => .rejected
  | .unknownAfterSend => .unknownAfterSend

/-- A terminal outcome decided before MT5 was called. -/
def notStarted (e : EffectId) (category : OutcomeCategory) : M BrokerWriteResult := do
  recordEffectObservation (some e)
  pure { category := mapSchedulerCategory category }

def nextTurn (e : EffectId) : M Turn := do
  let w ← get
  let t := w.script.turns.headD {}
  emit (.turn e (decide (t.refused = none ∧ t.surfaced = .exhausted)))
  pure t

/-- From `mark_send_started` to the classified receipt. -/
def sendAndClassify (e : EffectId) (p : Payload) : M BrokerWriteResult := do
  match ← Journal.markSendStarted e with
  | .error _ => do
      note "effect_journal_refused_send_started"
      emit (.complete e)
      pure { category := .unknownAfterSend }
  | .ok _ => do
      note "timing:mt5_send_started"
      let r ← orderSend e p
      match r.response with
      | .raised => do
          note "mt5_call_raised"
          emit (.complete e)
          pure { category := .unknownAfterSend }
      | .nothing => do
          note "mt5_returned_no_receipt"
          emit (.complete e)
          pure { category := .unknownAfterSend }
      | .receipt _ false => do
          -- `json.dumps` raises past the handlers; `finally` still frees the slot
          emit (.complete e)
          raise .encode
      | .receipt retcode true => do
          match ← Journal.recordReceipt e retcode true with
          | .error _ => do
              note "effect_journal_refused_receipt"
              emit (.complete e)
              pure { category := .unknownAfterSend }
          | .ok _ => do
              note "timing:broker_response"
              emit (.complete e)
              if successfulBrokerWrite p.operation retcode then
                pure { category := .completed, receipt := some retcode }
              else
                pure { category := .rejected, receipt := some retcode }

def runBrokerWrite (e : EffectId) (p : Payload) : M BrokerWriteResult := do
  let t ← nextTurn e
  match t.refused with
  | some category => notStarted e category
  | none => do
      drain t.drained
      match t.surfaced with
      | .outcome category => notStarted e category
      | .exhausted => pure { category := .unknownAfterSend }
      | .own =>
          match t.expired with
          | some category => notStarted e category
          | none => sendAndClassify e p

end PairCell
