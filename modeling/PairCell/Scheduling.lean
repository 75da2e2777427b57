import Mathlib.Data.List.Perm.Basic
import Mathlib.Data.List.Nodup
import PairCell.Lib.Runs
import PairCell.Lib.Table

/-!
# The scheduler of serialized requests

One Worker sends its requests to MT5 one at a time.  A request is admitted into
the queue of its priority, selected by `next`, and completed with an outcome
that is remembered for a while.  Background requests with the same payload
share one queued item.
-/

namespace PairCell.Scheduling

open Lib

inductive Priority where
  | emergency
  | execution
  | protection
  | normal
  | background
  deriving DecidableEq, Repr

def Priority.all : List Priority :=
  [.emergency, .execution, .protection, .normal, .background]

inductive Category where
  | completed
  | rejectedPreflight
  | expiredNotStarted
  | unknownAfterSend
  | rejectedWorkerState
  deriving DecidableEq, Repr

/-- The payloads of requests, up to the order of their keys. -/
structure Payloads (P H : Type) where
  /-- Nothing for a payload that is no canonical JSON. -/
  hash : P → Option H
  /-- Two payloads with one hash are the same. -/
  faithful : ∀ {p q : P} {h : H}, hash p = some h → hash q = some h → p = q
  operation : P → Option String

/-- Texts that are their own hashes and types. -/
def Payloads.texts : Payloads String String :=
  ⟨some, fun h h' => Option.some.inj (h.trans h'.symm), some⟩

/-- An optional field of a request, which may hold something that cannot be read. -/
inductive Given (α : Type) where
  | absent
  | value (a : α)
  | invalid
  deriving DecidableEq, Repr

/-- Instants are in microseconds. -/
abbrev Instant := Int

structure Request (P H : Type) where
  requestId : String
  kind : String
  payload : P
  commandId : Given String := .absent
  payloadHash : Given H := .absent
  priority : Given Priority := .absent
  expiresAt : Given Instant := .absent
  effectId : Option String := none
  workerRequestType : Option String := none
  workerRequest : Option P := none
  deriving DecidableEq, Repr

structure Telemetry where
  admittedAt : Option Instant := none
  queueDepths : Option (List Nat) := none
  dequeuedAt : Option Instant := none
  queueWait : Option Int := none
  deadlineRemaining : Option Int := none
  actionStartedAt : Option Instant := none
  completedAt : Option Instant := none
  finalCategory : Option Category := none
  deriving DecidableEq, Repr

structure Outcome (P : Type) where
  requestId : String
  category : Category
  reason : String
  telemetry : Telemetry
  kind : String
  terminal : Bool := true
  workerRequestType : Option String := none
  workerRequest : Option P := none
  deriving DecidableEq, Repr

namespace Request

variable {P H : Type} (r : Request P H)

/-- `raw.get("command_id", request_id)` -/
def command : Option String :=
  match r.commandId with
  | .absent => some r.requestId
  | .value c => some c
  | .invalid => none

def expiry : Option Instant :=
  match r.expiresAt with
  | .value t => some t
  | _ => none

def durable : Bool := r.effectId.any (· ≠ "")

/-- `_priority`; nothing for an invalid one. -/
def priorityOf (ps : Payloads P H) : Option Priority :=
  match r.priority with
  | .value p => some p
  | .invalid => none
  | .absent =>
      match ps.operation r.payload with
      | some op =>
          if op ∈ ["market", "pending"] then some .execution
          else if op ∈ ["cancel", "close", "modify_sl_tp"] then some .protection
          else if op ∈ ["calc_margin", "calc_margin_batch", "symbols",
            "historical_ticks"] then
            some .background
          else some .normal
      | none => some .normal

end Request

structure Item (P H : Type) where
  serial : Nat
  request : Request P H
  coalesced : List (Request P H)
  commandId : String
  payloadHash : H
  priority : Priority
  expiresAt : Option Instant
  telemetry : Telemetry
  deriving DecidableEq, Repr

def Item.requests {P H : Type} (i : Item P H) : List (Request P H) :=
  i.request :: i.coalesced

def Item.join {P H : Type} (serial : Nat) (r : Request P H) (i : Item P H) : Item P H :=
  if i.serial = serial then { i with coalesced := i.coalesced ++ [r] } else i

/-- The depths of the queues are counted for the item of this serial number. -/
def Item.count {P H : Type} (serial : Nat) (depths : List Nat) (i : Item P H) : Item P H :=
  if i.serial = serial then
    { i with telemetry := { i.telemetry with queueDepths := some depths } }
  else i

/-- What is known of a command: it is in progress as some item, or it has an outcome. -/
inductive Known (P : Type) where
  | pending (serial : Nat)
  | settled (outcome : Outcome P)
  deriving DecidableEq, Repr

def Known.isSettled {P : Type} : Known P → Bool
  | .pending _ => false
  | .settled _ => true

inductive Event (P H : Type) where
  | admitted (command : String) (r : Request P H)
  -- refused at admission, with an outcome that is remembered
  | refused (r : Request P H) (o : Outcome P) (time : Instant)
  | selected (i : Item P H) (time : Instant)
  | completed (serial : Nat)
  -- the outcome of one request of a completed item
  | recorded (command : String) (r : Request P H) (o : Outcome P) (time : Instant)
  deriving DecidableEq, Repr

structure Scheduler (P H : Type) where
  capacity : Nat
  queues : Priority → List (Item P H)
  known : Table String (H × Known P)
  /-- The remembered outcomes, the oldest first. -/
  completed : List (String × Outcome P)
  frozen : Bool
  active : Option Nat
  /-- The items that were handed out by `next`. -/
  handed : List (Item P H)
  issued : Nat
  log : List (Event P H)

namespace Scheduler

variable {P H : Type} [DecidableEq H]

def fresh (capacity : Nat) : Scheduler P H :=
  ⟨capacity, fun _ => [], .empty, [], false, none, [], 0, []⟩

variable (s : Scheduler P H)

def note (e : Event P H) : Scheduler P H := { s with log := s.log ++ [e] }

def queued : List (Item P H) := Priority.all.flatMap s.queues

def queuedCount : Nat := s.queued.length

def queueDepths : List Nat := Priority.all.map fun p => (s.queues p).length

def setQueue (p : Priority) (items : List (Item P H)) : Scheduler P H :=
  { s with queues := fun q => if q = p then items else s.queues q }

def find (serial : Nat) : Option (Item P H) :=
  (s.queued ++ s.handed).find? (·.serial = serial)

/-! ## Outcomes -/

/-- Forget the oldest outcomes while there are more than the capacity. -/
def evict (capacity : Nat) (known : Table String (H × Known P)) :
    List (String × Outcome P) → Table String (H × Known P) × List (String × Outcome P)
  | [] => (known, [])
  | (stale, o) :: rest =>
      if capacity < rest.length + 1 then
        evict capacity (known.delete fun c v => decide (c = stale) && v.2.isSettled) rest
      else (known, (stale, o) :: rest)

def remember (command : String) (payloadHash : H) (o : Outcome P) : Scheduler P H :=
  let kept := evict s.capacity (s.known.set command (payloadHash, .settled o))
    (s.completed.filter (·.1 ≠ command) ++ [(command, o)])
  { s with known := kept.1, completed := kept.2 }

/-- The outcome of one request of a completed item, under the request's own identifier. -/
def settle (i : Item P H) (o : Outcome P) (time : Instant)
    (r : Request P H) : Scheduler P H :=
  let o := { o with requestId := r.requestId, kind := r.kind }
  match r.command with
  | some command => (s.remember command i.payloadHash o).note (.recorded command r o time)
  | none => s

def complete (i : Item P H) (category : Category) (reason : String) (time : Instant) :
    Scheduler P H × Outcome P :=
  let o : Outcome P :=
    { requestId := i.request.requestId
      category := category
      reason := reason
      telemetry :=
        { i.telemetry with completedAt := some time, finalCategory := some category }
      kind := i.request.kind
      workerRequestType := i.request.workerRequestType.filter (· ≠ "")
      workerRequest := i.request.workerRequest }
  let s := (i.requests.foldl (fun s r => s.settle i o time r) s).note (.completed i.serial)
  ({ s with active := if s.active = some i.serial then none else s.active }, o)

/-! ## Admission -/

def equivalentBackground (payloadHash : H) : Option (Item P H) :=
  (s.queues .background).find? (·.payloadHash = payloadHash)

def rejected (r : Request P H) (reason : String) : Outcome P :=
  { requestId := r.requestId, category := .rejectedPreflight, reason := reason,
    telemetry := {}
    kind := r.kind }

def refuse (r : Request P H) (command : String) (payloadHash : H) (category : Category)
    (reason : String) (time : Instant) : Scheduler P H × Option (Outcome P) :=
  let o : Outcome P :=
    { requestId := r.requestId
      category := category
      reason := reason
      telemetry := { admittedAt := some time, queueDepths := some s.queueDepths }
      kind := r.kind }
  ((s.remember command payloadHash o).note (.refused r o time), some o)

/-- The request joins an item that is queued already. -/
def coalesce (i : Item P H) (r : Request P H) (command : String) (payloadHash : H) :
    Scheduler P H :=
  let s := s.setQueue .background ((s.queues .background).map (Item.join i.serial r))
  { s with known := s.known.set command (payloadHash, .pending i.serial) }.note
    (.admitted command r)

def newItem (r : Request P H) (command : String) (payloadHash : H) (priority : Priority)
    (time : Instant) : Item P H :=
  { serial := s.issued
    request := r
    coalesced := []
    commandId := command
    payloadHash := payloadHash
    priority := priority
    expiresAt := r.expiry
    telemetry := { admittedAt := some time } }

def enqueue (r : Request P H) (command : String) (payloadHash : H) (priority : Priority)
    (time : Instant) : Scheduler P H :=
  let i := s.newItem r command payloadHash priority time
  let s := s.setQueue priority (s.queues priority ++ [i])
  -- the depths are counted again once the item is queued
  let s :=
    s.setQueue priority ((s.queues priority).map (Item.count i.serial s.queueDepths))
  { s with
    known := s.known.set command (payloadHash, .pending i.serial)
    issued := s.issued + 1 }.note (.admitted command r)

/-- What `admit` does with a request for a command that is not known. -/
def admitNew (r : Request P H) (command : String) (payloadHash : H) (priority : Priority)
    (time : Instant) : Scheduler P H × Option (Outcome P) :=
  if s.frozen ∧ priority ≠ .emergency then
    s.refuse r command payloadHash .rejectedWorkerState
      "The Worker is frozen and only emergency recovery work is admissible." time
  else if r.expiry.any (· ≤ time) ∧ !r.durable then
    s.refuse r command payloadHash .expiredNotStarted
      "The controller-issued expiry elapsed before queue admission." time
  else
    match if priority = .background then s.equivalentBackground payloadHash else none with
    | some i => (s.coalesce i r command payloadHash, none)
    | none =>
        if s.capacity ≤ s.queuedCount then
          s.refuse r command payloadHash .rejectedPreflight
            "rejected_queue_full: the Worker Trader RPC queue is full." time
        else (s.enqueue r command payloadHash priority time, none)

/-- The answer to a request for a command that is known already. -/
def readmitted (r : Request P H) (payloadHash : H) (known : H × Known P) : Outcome P :=
  if known.1 ≠ payloadHash then
    rejected r "The Trader command ID was reused with a different payload."
  else
    match known.2 with
    | .settled o => o
    | .pending serial =>
        { rejected r "The Trader command is already in progress." with
          telemetry := ((s.find serial).map (·.telemetry)).getD {}
          terminal := false }

def admitRpc (ps : Payloads P H) (r : Request P H) (time : Instant) :
    Scheduler P H × Option (Outcome P) :=
  if r.requestId = "" then
    (s, some (rejected r "The Trader RPC request is invalid before MT5 execution."))
  else
    match r.command, ps.hash r.payload with
    | some command, payloadHash =>
        if command = "" then (s, some (rejected r "The Trader command ID is invalid."))
        else
          match payloadHash with
          | none => (s, some (rejected r "The Trader RPC payload is not canonical JSON."))
          | some payloadHash =>
              if r.payloadHash ≠ .absent ∧ r.payloadHash ≠ .value payloadHash then
                (s, some (rejected r "The Trader RPC payload hash does not match."))
              else
                match s.known.get command with
                | some known => (s, some (s.readmitted r payloadHash known))
                | none =>
                    match r.priorityOf ps, r.expiresAt with
                    | none, _ =>
                        (s, some (rejected r "The Trader RPC priority is invalid."))
                    | some _, .invalid =>
                        (s, some (rejected r
                          "The controller-issued Trader RPC expiry is invalid."))
                    | some priority, _ => s.admitNew r command payloadHash priority time
    | none, _ => (s, some (rejected r "The Trader command ID is invalid."))

/-! ## Selection -/

inductive Next (P H : Type) where
  | idle
  | selected (i : Item P H)
  | outcome (o : Outcome P)
  deriving DecidableEq, Repr

def dequeued (i : Item P H) (time : Instant) : Item P H :=
  { i with
    telemetry :=
      { i.telemetry with
        dequeuedAt := some time
        queueWait := i.telemetry.admittedAt.map (time - ·)
        deadlineRemaining := i.expiresAt.map (· - time) } }

/-- What `next` does with the item it took from its queue. -/
def start (i : Item P H) (time done : Instant) : Scheduler P H × Next P H :=
  if i.expiresAt.any (· ≤ time) ∧ !i.request.durable then
    let r := s.complete i .expiredNotStarted
      "The controller-issued expiry elapsed before MT5 execution began." done
    (r.1, .outcome r.2)
  else if s.frozen ∧ i.priority ≠ .emergency then
    let r := s.complete i .rejectedWorkerState
      "The Worker is frozen and ordinary queued work cannot execute." done
    (r.1, .outcome r.2)
  else
    ({ s with active := some i.serial, handed := i :: s.handed }.note (.selected i time),
      .selected i)

/-- `done` is the clock at the completion of an item that may not start. -/
def next (time done : Instant) : Scheduler P H × Next P H :=
  match s.active with
  | some _ => (s, .idle)
  | none =>
      match Priority.all.find? fun p => !(s.queues p).isEmpty with
      | none => (s, .idle)
      | some p =>
          match s.queues p with
          | [] => (s, .idle)
          | i :: rest => (s.setQueue p rest).start (dequeued i time) time done

/-- `_before_broker_send`; nothing if the item may begin its action. -/
def beforeBrokerSend (i : Item P H) (time done : Instant) :
    Scheduler P H × Option (Outcome P) :=
  if s.frozen ∧ i.priority ≠ .emergency then
    let r := s.complete i .rejectedWorkerState
      "The Worker is frozen and ordinary work cannot begin an MT5 action." done
    (r.1, some r.2)
  else if i.expiresAt.any (· ≤ time) then
    let r := s.complete i .expiredNotStarted
      "The controller-issued expiry elapsed before the MT5 action began." done
    (r.1, some r.2)
  else
    ({ s with
        handed := s.handed.map fun j =>
          if j.serial = i.serial then
            { j with telemetry := { j.telemetry with actionStartedAt := some time } }
          else j }, none)

end Scheduler

/-! ## Runs -/

/-- A call, with what it reads from the clock. The last two name an item
that was handed out. -/
inductive Call (P H : Type) where
  | admitRpc (r : Request P H) (time : Instant)
  | next (time done : Instant)
  | freeze
  | release
  | beforeBrokerSend (serial : Nat) (time done : Instant)
  | complete (serial : Nat) (category : Category) (reason : String) (time : Instant)
  deriving DecidableEq, Repr

def Call.readings {P H : Type} : Call P H → List Instant
  | .admitRpc _ time => [time]
  | .next time done => [time, done]
  | .beforeBrokerSend _ time done => [time, done]
  | .complete _ _ _ time => [time]
  | _ => []

namespace Scheduler

variable {P H : Type} [DecidableEq H] (ps : Payloads P H)

def handedItem (s : Scheduler P H) (serial : Nat) : Option (Item P H) :=
  s.handed.find? (·.serial = serial)

def perform (s : Scheduler P H) : Call P H → Scheduler P H
  | .admitRpc r time => (s.admitRpc ps r time).1
  | .next time done => (s.next time done).1
  | .freeze => { s with frozen := true }
  | .release => { s with frozen := false }
  | .beforeBrokerSend serial time done =>
      match s.handedItem serial with
      | some i => (s.beforeBrokerSend i time done).1
      | none => s
  | .complete serial category reason time =>
      match s.handedItem serial with
      | some i => (s.complete i category reason time).1
      | none => s

def run (capacity : Nat) (calls : List (Call P H)) : Scheduler P H :=
  calls.foldl (perform ps) (fresh capacity)

end Scheduler

/-! ## What the operations change -/

namespace Scheduler

variable {P H : Type}

structure SameStock (s s' : Scheduler P H) : Prop where
  capacity : s'.capacity = s.capacity
  queues : s'.queues = s.queues
  frozen : s'.frozen = s.frozen
  handed : s'.handed = s.handed
  issued : s'.issued = s.issued

theorem SameStock.refl (s : Scheduler P H) : SameStock s s := ⟨rfl, rfl, rfl, rfl, rfl⟩

theorem SameStock.trans {s t u : Scheduler P H} (h : SameStock s t) (h' : SameStock t u) :
    SameStock s u :=
  ⟨h'.capacity.trans h.capacity, h'.queues.trans h.queues, h'.frozen.trans h.frozen,
    h'.handed.trans h.handed, h'.issued.trans h.issued⟩

/-- What the completion of an item records. -/
def records (o : Outcome P) (time : Instant) (rs : List (Request P H)) :
    List (Event P H) :=
  rs.filterMap fun r => r.command.map fun c =>
    .recorded c r { o with requestId := r.requestId, kind := r.kind } time

theorem settle_frame (s : Scheduler P H) (i : Item P H) (o : Outcome P) (time : Instant)
    (r : Request P H) : SameStock s (s.settle i o time r) ∧
    (s.settle i o time r).active = s.active ∧
      (s.settle i o time r).log = s.log ++ records o time [r] := by
  unfold settle
  cases hc : r.command with
  | none => exact ⟨.refl s, rfl, by simp [records, hc]⟩
  | some c => exact ⟨⟨rfl, rfl, rfl, rfl, rfl⟩, rfl, by simp [records, hc, note, remember]⟩

theorem settles_frame (s : Scheduler P H) (i : Item P H) (o : Outcome P) (time : Instant)
    (rs : List (Request P H)) :
    let s' := rs.foldl (fun s r => s.settle i o time r) s
    SameStock s s' ∧ s'.active = s.active ∧ s'.log = s.log ++ records o time rs := by
  induction rs generalizing s with
  | nil => exact ⟨.refl s, rfl, (List.append_nil _).symm⟩
  | cons r rs ih =>
      obtain ⟨hstock, hactive, hlog⟩ := settle_frame s i o time r
      obtain ⟨hstock', hactive', hlog'⟩ := ih (s.settle i o time r)
      refine ⟨hstock.trans hstock', hactive'.trans hactive, hlog'.trans ?_⟩
      rw [hlog, List.append_assoc]
      congr 1
      exact (List.filterMap_append (l := [r])).symm

theorem complete_frame (s : Scheduler P H) (i : Item P H) (category : Category)
    (reason : String) (time : Instant) :
    let s' := (s.complete i category reason time).1
    SameStock s s' ∧ s'.active = (if s.active = some i.serial then none else s.active) ∧
      s'.log = s.log ++ (records (s.complete i category reason time).2 time i.requests ++
        [.completed i.serial]) := by
  obtain ⟨hstock, hactive, hlog⟩ :=
    settles_frame s i (s.complete i category reason time).2 time i.requests
  refine ⟨⟨hstock.capacity, hstock.queues, hstock.frozen, hstock.handed,
    hstock.issued⟩, ?_, ?_⟩
  · simp only [complete, note]
    exact hactive ▸ rfl
  · rw [← List.append_assoc]
    exact congrArg (· ++ [.completed i.serial]) hlog

def Withholds (s : Scheduler P H) (i : Item P H) (time : Instant) : Prop :=
  (i.expiresAt.any (· ≤ time) = true ∧ i.request.durable = false) ∨
    (s.frozen = true ∧ i.priority ≠ .emergency)

instance (s : Scheduler P H) (i : Item P H) (time : Instant) :
    Decidable (s.Withholds i time) :=
  inferInstanceAs (Decidable (_ ∨ _))

/-- What `next` does: nothing, or it takes the first item of the first
queue that has one. -/
theorem next_cases (s : Scheduler P H) (time done : Instant) :
    (s.next time done = (s, .idle) ∧ (s.active ≠ none ∨ s.queued = [])) ∨
      ∃ p i rest, s.active = none ∧
      (Priority.all.find? fun p => !(s.queues p).isEmpty) = some p ∧
        s.queues p = i :: rest ∧
        s.next time done = (s.setQueue p rest).start (dequeued i time) time done := by
  unfold next
  cases hactive : s.active with
  | some n => exact .inl ⟨rfl, .inl (by simp)⟩
  | none =>
      cases hp : Priority.all.find? fun p => !(s.queues p).isEmpty with
      | none =>
          refine .inl ⟨rfl, .inr ?_⟩
          rw [List.find?_eq_none] at hp
          exact List.flatMap_eq_nil_iff.2 fun p hmem => by simpa using hp p hmem
      | some p =>
          have hne := List.find?_some hp
          cases hq : s.queues p with
          | nil => simp [hq] at hne
          | cons i rest =>
              refine .inr ⟨p, i, rest, rfl, rfl, hq, ?_⟩
              simp only [hq]

/-- The item that `next` takes is given up, or handed out. -/
theorem start_cases (s : Scheduler P H) (i : Item P H) (time done : Instant) :
    (s.Withholds i time ∧ ∃ category reason, s.start i time done =
        ((s.complete i category reason done).1,
          .outcome (s.complete i category reason done).2)) ∨
      ¬s.Withholds i time ∧ s.start i time done =
        ({ s with active := some i.serial, handed := i :: s.handed }.note
          (.selected i time), .selected i) := by
  unfold start Withholds
  split
  · next hexpired => exact .inl ⟨.inl (by simpa using hexpired), _, _, rfl⟩
  · next hlive =>
    split
    · next hfrozen => exact .inl ⟨.inr hfrozen, _, _, rfl⟩
    · next hordinary =>
      exact .inr ⟨fun h => h.elim (fun h => hlive (by simpa using h)) hordinary, rfl⟩

variable [DecidableEq H]

/-- The ways an admission of a command that is not known can end. -/
inductive Admission (s : Scheduler P H) (r : Request P H) (command : String)
    (payloadHash : H) (priority : Priority) (time : Instant) :
    Scheduler P H × Option (Outcome P) → Prop where
  | refused (category : Category) (reason : String)
      (hexpired : category = .expiredNotStarted → r.expiry.any (· ≤ time) = true) :
      Admission s r command payloadHash priority time
        (s.refuse r command payloadHash category reason time)
  | coalesced (i : Item P H) (hpriority : priority = .background)
      (hfrozen : s.frozen = false)
      (hfresh : ¬(r.expiry.any (· ≤ time) = true ∧ r.durable = false))
      (hfound : s.equivalentBackground payloadHash = some i) :
      Admission s r command payloadHash priority time
          (s.coalesce i r command payloadHash, none)
  | enqueued (hroom : s.queuedCount < s.capacity)
      (hnone : priority = .background → s.equivalentBackground payloadHash = none) :
      Admission s r command payloadHash priority time
        (s.enqueue r command payloadHash priority time, none)

theorem admitNew_cases (s : Scheduler P H) (r : Request P H) (command : String)
    (payloadHash : H) (priority : Priority) (time : Instant) :
    Admission s r command payloadHash priority time
      (s.admitNew r command payloadHash priority time) := by
  unfold admitNew
  split
  · exact .refused _ _ fun h => nomatch h
  · next hfrozen =>
      split
      · next hexpired => exact .refused _ _ fun _ => hexpired.1
      · next hfresh =>
          by_cases hbackground : priority = .background
          · rw [if_pos hbackground]
            cases hfound : s.equivalentBackground payloadHash with
            | some i =>
                refine .coalesced i hbackground ?_ (by simpa using hfresh) hfound
                simpa [hbackground] using hfrozen
            | none =>
                dsimp only
                split
                · exact .refused _ _ fun h => nomatch h
                · next hroom => exact .enqueued (Nat.lt_of_not_le hroom) fun _ => hfound
          · rw [if_neg hbackground]
            dsimp only
            split
            · exact .refused _ _ fun h => nomatch h
            · next hroom =>
                exact .enqueued (Nat.lt_of_not_le hroom) fun h => absurd h hbackground

/-- An admission changes nothing, or the request is new under a
command that is not known. -/
theorem admit_cases (ps : Payloads P H) (s : Scheduler P H) (r : Request P H)
    (time : Instant) :
    (∃ o, s.admitRpc ps r time = (s, some o)) ∨
      ∃ command payloadHash priority, r.command = some command ∧ command ≠ "" ∧
        ps.hash r.payload = some payloadHash ∧ s.known.get command = none ∧
        r.priorityOf ps = some priority ∧
        Admission s r command payloadHash priority time (s.admitRpc ps r time) := by
  unfold admitRpc
  split
  · exact .inl ⟨_, rfl⟩
  · cases hc : r.command with
    | none => exact .inl ⟨_, rfl⟩
    | some command =>
        dsimp only
        split
        · exact .inl ⟨_, rfl⟩
        · next hnamed =>
            cases hh : ps.hash r.payload with
            | none => exact .inl ⟨_, rfl⟩
            | some payloadHash =>
                dsimp only
                split
                · exact .inl ⟨_, rfl⟩
                · cases hk : s.known.get command with
                  | some known => exact .inl ⟨_, rfl⟩
                  | none =>
                      cases hp : r.priorityOf ps with
                      | none => exact .inl ⟨_, rfl⟩
                      | some priority =>
                          cases he : r.expiresAt with
                          | invalid => exact .inl ⟨_, rfl⟩
                          | absent | value =>
                              exact .inr ⟨command, payloadHash, priority, rfl,
                                hnamed, rfl, hk, rfl, admitNew_cases s r command
                                  payloadHash priority time⟩

/-! ## The queues -/

def rest (s : Scheduler P H) (p : Priority) : List (Item P H) :=
  (Priority.all.erase p).flatMap s.queues

omit [DecidableEq H]

theorem queued_perm (s : Scheduler P H) (p : Priority) :
    s.queued.Perm (s.queues p ++ s.rest p) := by
  have hall : Priority.all.Perm (p :: Priority.all.erase p) :=
    List.perm_cons_erase (by cases p <;> decide)
  simpa [queued, rest] using hall.flatMap_right s.queues

theorem setQueue_queued (s : Scheduler P H) (p : Priority) (items : List (Item P H)) :
    (s.setQueue p items).queued.Perm (items ++ s.rest p) := by
  have hrest : (s.setQueue p items).rest p = s.rest p := by
    refine List.flatMap_congr fun q hq => if_neg ?_
    rintro rfl
    revert hq
    cases q <;> decide
  have hperm := (s.setQueue p items).queued_perm p
  rwa [hrest, show (s.setQueue p items).queues p = items from if_pos rfl] at hperm

theorem mem_queued {s : Scheduler P H} {i : Item P H} : i ∈ s.queued ↔
    ∃ p, i ∈ s.queues p := by
  refine ⟨fun h => ?_, fun ⟨p, h⟩ => ?_⟩
  · obtain ⟨p, -, h⟩ := List.mem_flatMap.1 h
    exact ⟨p, h⟩
  · exact List.mem_flatMap.2 ⟨p, by cases p <;> decide, h⟩

structure Numbered (s : Scheduler P H) : Prop where
  nodup : ((s.queued ++ s.handed).map (·.serial)).Nodup
  issued : ∀ i ∈ s.queued ++ s.handed, i.serial < s.issued

variable {s s' : Scheduler P H}

theorem join_serial (n : Nat) (r : Request P H) (i : Item P H) :
    (i.join n r).serial = i.serial ∧ (i.join n r).payloadHash = i.payloadHash := by
  unfold Item.join
  split <;> exact ⟨rfl, rfl⟩

theorem count_same (n : Nat) (depths : List Nat) (i : Item P H) :
    (i.count n depths).serial = i.serial ∧ (i.count n depths).payloadHash = i.payloadHash ∧
      (i.count n depths).requests = i.requests := by
  unfold Item.count
  split <;> exact ⟨rfl, rfl, rfl⟩

def serials (s : Scheduler P H) : List Nat := (s.queued ++ s.handed).map (·.serial)

theorem Numbered.of_subperm (h : Numbered s) (hserials : s'.serials.Subperm s.serials)
    (hissued : s'.issued = s.issued) : Numbered s' := by
  refine ⟨?_, fun i hi => ?_⟩
  · obtain ⟨l, hperm, hsub⟩ := hserials
    exact hperm.nodup_iff.1 (h.nodup.sublist hsub)
  · obtain ⟨j, hj, hserial⟩ := List.mem_map.1 (hserials.subset (List.mem_map_of_mem hi))
    rw [hissued, ← hserial]
    exact h.issued j hj

theorem Numbered.unique (h : Numbered s) {i j : Item P H} (hi : i ∈ s.queued)
    (hj : j ∈ s.queued) (hserial : i.serial = j.serial) : i = j :=
  List.inj_on_of_nodup_map h.nodup (List.mem_append_left _ hi)
    (List.mem_append_left _ hj) hserial

theorem Numbered.of_stock (h : Numbered s) (hstock : SameStock s s') : Numbered s' := by
  refine h.of_subperm ?_ hstock.issued
  rw [serials, queued, hstock.queues, hstock.handed]
  exact .refl _

theorem setQueue_serials (s : Scheduler P H) (p : Priority) (items : List (Item P H)) :
    (s.setQueue p items).serials.Perm
      (items.map (·.serial) ++ (s.rest p ++ s.handed).map (·.serial)) := by
  rw [← List.map_append, ← List.append_assoc]
  exact ((s.setQueue_queued p items).append_right s.handed).map _

theorem serials_perm (s : Scheduler P H) (p : Priority) :
    s.serials.Perm ((s.queues p).map (·.serial) ++
      (s.rest p ++ s.handed).map (·.serial)) := by
  rw [← List.map_append, ← List.append_assoc]
  exact ((s.queued_perm p).append_right s.handed).map _

/-- The items of one queue are changed without a change of their serial numbers. -/
theorem Numbered.mapQueue (h : Numbered s) (p : Priority) {f : Item P H → Item P H}
    (hf : ∀ i, (f i).serial = i.serial) :
    Numbered (s.setQueue p ((s.queues p).map f)) := by
  refine h.of_subperm ?_ rfl
  have hmap : ((s.queues p).map f).map (·.serial) = (s.queues p).map (·.serial) := by
    simp [hf]
  have hnew := s.setQueue_serials p ((s.queues p).map f)
  rw [hmap] at hnew
  exact (hnew.trans (s.serials_perm p).symm).subperm

theorem Numbered.pop (h : Numbered s) {p : Priority} {i : Item P H}
    {tail : List (Item P H)} (hqueue : s.queues p = i :: tail) {j : Item P H}
    (hserial : j.serial = i.serial) :
    Numbered (s.setQueue p tail) ∧
      Numbered { s.setQueue p tail with handed := j :: s.handed } := by
  have hnew := s.setQueue_serials p tail
  have hold := s.serials_perm p
  rw [hqueue] at hold
  refine ⟨h.of_subperm ?_ rfl, h.of_subperm ?_ rfl⟩
  · refine hnew.subperm.trans (.trans ?_ hold.symm.subperm)
    exact (List.sublist_cons_self _ _).subperm
  · have hmove :
        ({ s.setQueue p tail with handed := j :: s.handed } : Scheduler P H).serials.Perm
        (i.serial :: (s.setQueue p tail).serials) := by
      simp only [serials, List.map_append, List.map_cons, hserial]
      exact List.perm_middle
    exact (hmove.trans ((hnew.cons _).trans hold.symm)).subperm

theorem Numbered.push (h : Numbered s) (p : Priority) {i : Item P H}
    (hserial : i.serial = s.issued) :
    Numbered { s.setQueue p (s.queues p ++ [i]) with issued := s.issued + 1 } := by
  have hnew : ({ s.setQueue p (s.queues p ++ [i]) with issued := s.issued + 1 } :
      Scheduler P H).serials.Perm (i.serial :: s.serials) := by
    refine (s.setQueue_serials p _).trans (.trans ?_ ((s.serials_perm p).symm.cons _))
    simp only [List.map_append, List.map_cons, List.map_nil, List.append_assoc]
    exact List.perm_middle
  refine ⟨hnew.nodup_iff.2 (List.nodup_cons.2 ⟨fun hmem => ?_, h.nodup⟩), fun j hj => ?_⟩
  · obtain ⟨j, hj, heq⟩ := List.mem_map.1 hmem
    exact absurd (h.issued j hj) (by omega)
  · obtain hj | hj := List.mem_cons.1 (hnew.subset (List.mem_map_of_mem hj))
    · exact hj ▸ hserial ▸ Nat.lt_succ_self _
    · obtain ⟨k, hk, heq⟩ := List.mem_map.1 hj
      exact Nat.lt_succ_of_lt (heq ▸ h.issued k hk)

theorem Numbered.start (h : Numbered s) {p : Priority} {i : Item P H}
    {tail : List (Item P H)} (hqueue : s.queues p = i :: tail) (time done : Instant) :
    Numbered ((s.setQueue p tail).start (dequeued i time) time done).1 := by
  obtain ⟨hdropped, hhanded⟩ := h.pop hqueue (j := dequeued i time) rfl
  unfold Scheduler.start
  split
  · exact hdropped.of_stock (complete_frame _ _ _ _ _).1
  · split
    · exact hdropped.of_stock (complete_frame _ _ _ _ _).1
    · exact hhanded.of_stock ⟨rfl, rfl, rfl, rfl, rfl⟩

theorem Numbered.next (h : Numbered s) (time done : Instant) :
    Numbered (s.next time done).1 := by
  obtain ⟨heq, -⟩ | ⟨p, i, tail, -, -, hqueue, heq⟩ := s.next_cases time done
  · rwa [heq]
  · rw [heq]
    exact h.start hqueue time done

theorem Numbered.beforeBrokerSend (h : Numbered s) (i : Item P H) (time done : Instant) :
    Numbered (s.beforeBrokerSend i time done).1 := by
  unfold Scheduler.beforeBrokerSend
  split
  · exact h.of_stock (complete_frame _ _ _ _ _).1
  · split
    · exact h.of_stock (complete_frame _ _ _ _ _).1
    · refine h.of_subperm (List.Perm.subperm ?_) rfl
      simp only [serials, List.map_append, List.map_map]
      refine List.Perm.append_left _ (List.Perm.of_eq (List.map_congr_left fun j _ => ?_))
      simp only [Function.comp_apply]
      split <;> rfl

theorem Numbered.coalesce (h : Numbered s) (i : Item P H) (r : Request P H)
    (command : String) (payloadHash : H) : Numbered (s.coalesce i r command payloadHash) :=
  (h.mapQueue .background fun j => (join_serial _ _ j).1).of_stock ⟨rfl, rfl,
    rfl, rfl, rfl⟩

theorem Numbered.enqueue (h : Numbered s) (r : Request P H) (command : String)
    (payloadHash : H) (priority : Priority) (time : Instant) :
    Numbered (s.enqueue r command payloadHash priority time) := by
  have hpushed := h.push priority (i := s.newItem r command payloadHash priority time) rfl
  exact (hpushed.mapQueue priority fun j => (count_same _ _ j).1).of_stock ⟨rfl, rfl,
    rfl, rfl, rfl⟩

variable [DecidableEq H] {ps : Payloads P H}

theorem Numbered.admission (h : Numbered s) {r : Request P H} {command : String}
    {payloadHash : H} {priority : Priority} {time : Instant}
    {result : Scheduler P H × Option (Outcome P)}
    (hresult : Admission s r command payloadHash priority time result) :
    Numbered result.1 := by
  cases hresult with
  | refused => exact h.of_stock ⟨rfl, rfl, rfl, rfl, rfl⟩
  | coalesced i => exact h.coalesce i r command payloadHash
  | enqueued => exact h.enqueue r command payloadHash priority time

theorem Numbered.perform (h : Numbered s) (call : Call P H) :
    Numbered (s.perform ps call) := by
  cases call with
  | admitRpc r time =>
      obtain ⟨o, hsame⟩ | ⟨_, _, _, -, -, -, -, -, hcase⟩ := admit_cases ps s r time
      · rwa [Scheduler.perform, hsame]
      · exact h.admission hcase
  | next time done => exact h.next time done
  | freeze | release => exact h.of_subperm (.refl _) rfl
  | beforeBrokerSend serial time done =>
      simp only [Scheduler.perform]
      split
      · exact h.beforeBrokerSend _ time done
      · exact h
  | complete serial category reason time =>
      simp only [Scheduler.perform]
      split
      · exact h.of_stock (complete_frame _ _ _ _ _).1
      · exact h

end Scheduler

end PairCell.Scheduling
