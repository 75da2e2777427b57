import PairCell.Canonical.Survive
import PairCell.Play

/-!
# The trading calendar

The hours of the policy in which New York does not trade, and what they do to a
worker: no attempt is opened in them, and an open pair is to be closed.  The
local time of an instant is given.
-/

namespace PairCell

open Lib World

/-! ## Blackouts -/

inductive Weekday where
  | monday | tuesday | wednesday | thursday | friday | saturday | sunday
  deriving DecidableEq, Repr

structure LocalTime where
  weekday : Weekday
  /-- Microseconds since midnight. -/
  time : Int

def microsecondsPerMinute : Int := 60000000

/-- `_trading_blackout`, for the texts of the policy: the reason and the text of the
blackout. -/
def tradingBlackout {F : Type} (startNy endNy : Json F) (here : LocalTime) :
    Except Canonical.PyError (Option (String × String)) := do
  if here.weekday = .saturday then
    return some ("new_york_weekend", "New York weekend trading blackout")
  let start ← Canonical.parseNyTime startNy "trading_blackout_start_ny"
  let stop ← Canonical.parseNyTime endNy "trading_blackout_end_ny"
  if start * microsecondsPerMinute ≤ here.time ∧
      here.time < stop * microsecondsPerMinute then
    return some ("new_york_trading_blackout", "New York trading blackout")
  return none

/-- The hours of a valid policy, in minutes of the day. -/
structure BlackoutHours where
  start : Int
  stop : Int
  nonempty : start < stop

namespace BlackoutHours

variable (h : BlackoutHours) (here : LocalTime)

/-- The time is in `[start, stop)`. -/
def Within : Prop :=
  h.start * microsecondsPerMinute ≤ here.time ∧ here.time < h.stop * microsecondsPerMinute

instance : Decidable (h.Within here) := by
  unfold Within
  infer_instance

def blackout : Option (String × String) :=
  if here.weekday = .saturday then
    some ("new_york_weekend", "New York weekend trading blackout")
  else if h.Within here then
    some ("new_york_trading_blackout", "New York trading blackout")
  else none

/-- New York does not trade: on Saturdays, and from Monday to Friday in the hours. -/
def Closed : Prop :=
  here.weekday = .saturday ∨ here.weekday ≠ .saturday ∧
    here.weekday ≠ .sunday ∧ h.Within here

/-- A Sunday, in the hours of the other days. -/
def OnSunday : Prop := here.weekday = .sunday ∧ h.Within here

variable {h here}

theorem blackout_eq_none : h.blackout here = none ↔ ¬h.Closed here ∧ ¬h.OnSunday here := by
  unfold blackout Closed OnSunday
  by_cases hsaturday : here.weekday = .saturday
  · simp [hsaturday]
  · by_cases hwithin : h.Within here
    · simp only [hsaturday, if_false, hwithin, if_true]
      by_cases hsunday : here.weekday = .sunday <;> simp [hsunday, hsaturday]
    · simp [hsaturday, hwithin]

end BlackoutHours

/-- The hours that a policy passes its own checks with are those its
blackouts are computed from. -/
theorem checked_hours {F : Type} {py : Canonical.Host F} {p : Canonical.PolicyFields F}
    (h : p.check py = .ok ()) : ∃ hours : BlackoutHours, ∀ here,
      tradingBlackout p.tradingBlackoutStartNy p.tradingBlackoutEndNy here =
        .ok (hours.blackout here) := by
  simp only [Canonical.PolicyFields.check, Canonical.throw_bind, Canonical.if_error_eq_ok,
    Canonical.bind_eq_ok] at h
  obtain ⟨-, -, _, -, _, -, _, -, _, -, _, -, _, -, _, -, -, _, -, start, hstart, stop,
      hstop, hempty, -⟩ := h
  refine ⟨⟨start, stop, not_le.1 hempty⟩, fun here => ?_⟩
  unfold tradingBlackout BlackoutHours.blackout
  by_cases hsaturday : here.weekday = .saturday
  · rw [if_pos hsaturday, if_pos hsaturday]
    rfl
  · rw [if_neg hsaturday, if_neg hsaturday]
    simp only [hstart, hstop, bind, Except.bind]
    by_cases hwithin : start * microsecondsPerMinute ≤ here.time ∧
      here.time < stop * microsecondsPerMinute
    · rw [if_pos hwithin]
      exact (congrArg Except.ok (if_pos hwithin)).symm
    · rw [if_neg hwithin]
      exact (congrArg Except.ok (if_neg hwithin)).symm

/-! ## The calendar of a worker -/

section Worker

-- the hours of a policy, and the local time of an instant
variable (hours : Policy → BlackoutHours) (newYork : Nat → LocalTime)

def Event.observedAt : Event → Option Nat
  | .clockTick now | .readinessFacts now _ | .brokerSnapshot now | .peerSession now _ |
    .routeMetadata now _ _ => some now
  | .envelope _ | .policy _ | .other => none

/-- The instant a call works with: the latest that an event was observed at. -/
def Call.now (w : World) : Call → Nat
  | .event ev => max w.mem.aux.now (ev.observedAt.getD 0)
  | _ => w.mem.aux.now

/-- The policy a call works with: a policy event may replace it. -/
def Call.policy (w : World) : Call → Option Policy
  | .event (.policy p) => (after w (acceptPolicy p w).2).mem.policy
  | _ => w.mem.policy

/-- What `_trading_blackout` returns while the call is handled. -/
def Call.blackout (w : World) (call : Call) : Option (String × String) :=
  (call.policy w).bind fun p => (hours p).blackout (newYork (call.now w))

/-- Every call finds the blackout of its policy and its instant. -/
def OnCalendar : Proc → Label → Prop
  | .up w _, .begin call script => script.blackout = call.blackout hours newYork w
  | _, _ => True

/-- No call is handled on a Sunday in the hours of the other days. -/
def OffSunday : Proc → Label → Prop
  | .up w _, .begin call _ =>
      ∀ p, call.policy w = some p → ¬(hours p).OnSunday (newYork (call.now w))
  | _, _ => True

end Worker

/-! ## A policy for every live attempt -/

/-- The policy in memory is the one on disk, and there is one while an attempt is live. -/
structure Policed (w : World) : Prop where
  same : w.mem.policy = w.disk.policy
  live : ∀ r ∈ w.disk.attempts, r.terminal = none → w.disk.policy ≠ none

theorem Policed.act {w : World} {x : Action} (h : Policed w) (hp : Permits w x) :
    Policed (w.act x) := by
  refine ⟨?_, ?_⟩
  · rw [act_policy, act_diskPolicy]
    cases x <;> first | rfl | exact h.same
  · rw [act_attempts, act_diskPolicy]
    cases x with
    | adopt a =>
        obtain ⟨policy, hpolicy, -⟩ := hp.2.2.2.2.2.1
        intro _ _ _
        rw [← h.same, hpolicy]
        simp
    | refuse a reason =>
        intro r hr hlive
        obtain hr | hr := List.mem_append.1 hr
        · exact h.live r hr hlive
        · rw [List.mem_singleton.1 hr] at hlive
          cases hlive
    | terminate reason =>
        intro r hr hlive
        obtain ⟨q, hq, rfl⟩ := List.mem_map.1 hr
        exact h.live q hq (terminateRow_live hlive).2
    | savePolicy p =>
        intro _ _ _
        simp
    | _ => exact h.live

theorem Policed.load {c : Config} {d : Disk} {w : World} (hd : DiskSound c d)
    (hlive : ∀ r ∈ d.attempts, r.terminal = none → d.policy ≠ none)
    (h : load c d = some w) :
    Policed w := by
  rw [load_eq hd] at h
  cases hat : loadedAttempt c d with
  | none =>
      simp only [hat, Option.some.injEq] at h
      subst h
      exact ⟨rfl, hlive⟩
  | some a =>
      simp only [hat, Option.map_eq_some_iff] at h
      obtain ⟨peer, -, rfl⟩ := h
      exact ⟨rfl, hlive⟩

theorem Policed.attempt {w : World} (h : Policed w) (hs : Sound w)
    (ha : w.mem.attempt ≠ none) :
    w.mem.policy ≠ none := by
  obtain ⟨a, ha⟩ := Option.ne_none_iff_exists'.1 ha
  obtain ⟨r, hr, -, hterminal⟩ := hs.mem.live a ha
  rw [h.same]
  exact h.live r hr hterminal

/-- A sound worker whose live attempts have a policy. -/
inductive Proc.Policed : Proc → Prop where
  | up {w : World} {todo : List Action} (h : PairCell.Policed w) : Policed (.up w todo)
  | down {c : Config} {d : Disk} (h : ∀ r ∈ d.attempts, r.terminal = none →
      d.policy ≠ none) :
      Policed (.down c d)

theorem Proc.reach_policed {ok : Proc → Label → Prop} {c : Config} {p : Proc}
    (h : Reach Proc.Step ok (.init c) p) : p.Sound ∧ p.Policed := by
  refine h.invariant (I := fun p => p.Sound ∧ p.Policed)
    ⟨Proc.sound_init c, .down fun _ hr => nomatch hr⟩ ?_
  rintro p l p' ⟨hs, hp⟩ - hstep
  refine ⟨hs.step hstep, ?_⟩
  cases hstep with
  | begin call script hfresh =>
      cases hp with
      | up hw => exact .up ⟨hw.same, hw.live⟩
  | serve item script =>
      cases hp with
      | up hw => exact .up ⟨hw.same, hw.live⟩
  | exec a todo =>
      cases hp with
      | up hw =>
          cases hs with
          | up _ htodo _ => exact .up (hw.act htodo.1)
  | crash =>
      cases hp with
      | up hw => exact .down hw.live
  | reopen hload =>
      cases hp with
      | down hlive =>
          cases hs with
          | down hd _ => exact .up (PairCell.Policed.load hd hlive hload)

/-! ## Calls during a blackout -/

variable {w : World}

theorem blackout_after (w : World) (t : List Action) :
    (after w t).script.blackout = w.script.blackout := by
  induction t generalizing w with
  | nil => rfl
  | cons a t ih => rw [after_cons, ih]; exact act_blackout a

/-- No attempt is opened. -/
theorem no_adopt {t : List Action} (hblackout : w.script.blackout ≠ none)
    (h : Allowed Permits w t) (a : Attempt) : Action.adopt a ∉ t := by
  induction t generalizing w with
  | nil => simp
  | cons x t ih =>
      rw [List.mem_cons, not_or]
      refine ⟨?_,
        ih (by rwa [show (Acts.act w x).script.blackout = _ from act_blackout x]) h.2⟩
      rintro rfl
      have hready : localReady w = none := h.1.2.2.2.2.2.2
      exact hblackout (localReady_none hready).2.2.2

/-- During a blackout the worker follows no attempt that it wants active. -/
structure Shut (w : World) : Prop where
  blackout : w.script.blackout ≠ none
  unwanted : w.mem.attempt ≠ none → w.mem.desired ≠ .active

theorem Shut.act {x : Action} (h : Shut w) (hp : Permits w x) : Shut (w.act x) := by
  refine ⟨by rw [act_blackout]; exact h.blackout, ?_⟩
  rw [act_attempt, act_memDesired]
  cases x with
  | adopt a => exact absurd (localReady_none hp.2.2.2.2.2.2).2.2.2 h.blackout
  | terminate reason => exact fun hnone => absurd rfl hnone
  | saveDesired desired confirmed =>
      intro ha hactive
      obtain hwas | hopen := hp.2.2 hactive
      · exact h.unwanted ha hwas
      · exact h.blackout hopen
  | _ => exact h.unwanted

theorem Shut.after {t : List Action} (h : Shut w) (ht : Allowed Permits w t) :
    Shut (after w t) :=
  ht.preserve (fun _ _ hs hp => hs.act hp) h

/-! ## A stopped worker -/

/-- The action lifts a stop only with the attempt it is about. -/
def KeepsStops : Action → Prop
  | .unlatch toEmpty _ => toEmpty = true
  | _ => True

theorem emits_modifyAux (f : Aux → Aux) : Emits KeepsStops (modifyAux f) :=
  emits_bind emits_get fun _ => emits_emit trivial

theorem emits_monotonic : Emits KeepsStops monotonic :=
  emits_bind emits_get fun _ => emits_bind (emits_emit trivial) fun _ => emits_pure _

theorem emits_stoppedNote (event : String) : Emits KeepsStops (note event) :=
  emits_emit trivial

theorem emits_reportEmpty (a : Attempt) : Emits KeepsStops (reportEmpty a) := by
  refine emits_bind emits_get fun w => emits_bind emits_get fun w' => ?_
  split
  · exact emits_pure _
  · exact emits_emit trivial

theorem emits_sendProofProbe (a : Attempt) : Emits KeepsStops (sendProofProbe a) := by
  refine emits_bind emits_monotonic fun _ => emits_bind (emits_modifyAux _) fun _ => ?_
  refine emits_bind (emits_reportEmpty a) fun _ =>
    emits_bind (emits_emit trivial) fun _ => ?_
  exact emits_stoppedNote _

theorem emits_awaitPeerTerminalProof : Emits KeepsStops awaitPeerTerminalProof := by
  refine emits_bind emits_get fun w => ?_
  split
  · split
    · exact emits_modifyAux _
    · split
      · exact emits_pure _
      · refine emits_bind emits_monotonic fun now => ?_
        split
        · exact emits_modifyAux _
        · refine emits_bind emits_get fun w => ?_
          split
          · refine emits_bind emits_get fun w => ?_
            split
            · exact emits_pure _
            · exact emits_emit trivial
          · split
            · exact emits_sendProofProbe _
            · exact emits_pure _
  · exact emits_modifyAux _

theorem emits_maybeFinalizeEmpty : Emits KeepsStops maybeFinalizeEmpty := by
  refine emits_bind emits_get fun w => ?_
  split
  · split
    · exact emits_pure _
    · split
      · exact emits_pure _
      · refine emits_bind (emits_stoppedNote _) fun _ => ?_
        refine emits_bind (emits_bind (emits_emit trivial) fun _ => ?_) fun _ => ?_
        · refine emits_bind (emits_emit trivial) fun _ => ?_
          exact emits_bind (emits_emit trivial) fun _ => emits_emit trivial
        · refine emits_bind emits_get fun w => ?_
          split
          · exact emits_pure _
          · exact emits_emit rfl
  · exact emits_pure _

theorem emits_progressStopped : Emits KeepsStops progressStopped := by
  refine emits_bind (emits_emit trivial) fun _ =>
    emits_bind emits_maybeFinalizeEmpty fun _ => ?_
  refine emits_bind emits_get fun w => ?_
  split
  · exact emits_awaitPeerTerminalProof
  · exact emits_pure _

/-- During a blackout the worker is stopped, or follows no attempt. -/
structure Stopped (w : World) : Prop where
  blackout : w.script.blackout ≠ none
  stop : w.mem.attempt ≠ none → w.mem.needsHuman ≠ none

theorem Stopped.act {x : Action} (h : Stopped w) (hp : Permits w x) (hx : KeepsStops x) :
    Stopped (w.act x) := by
  refine ⟨by rw [act_blackout]; exact h.blackout, ?_⟩
  rw [act_attempt, act_needsHuman]
  cases x with
  | adopt a => exact absurd (localReady_none hp.2.2.2.2.2.2).2.2.2 h.blackout
  | terminate reason => exact fun hnone => absurd rfl hnone
  | unlatch toEmpty event => exact fun ha => absurd (hp hx) ha
  | latch stop => simp
  | _ => exact h.stop

/-! ## Progress during a blackout -/

/-- An attempt of a worker that is not stopped is not wanted active. -/
def Unwanted (w : World) : Prop :=
  w.mem.needsHuman = none → w.mem.attempt ≠ none → w.mem.desired ≠ .active

theorem Stopped.leaves (h : Stopped w) : Unwanted w :=
  fun hnone ha => absurd hnone (h.stop ha)

theorem shut_desireEmpty (reason : Reason) (hblackout : w.script.blackout ≠ none) :
    Shut (after w (desireEmpty reason w).2) :=
  ⟨by rw [blackout_after]; exact hblackout, fun _ hactive => nomatch hactive⟩

theorem shut_beginClose (reason : String) (hblackout : w.script.blackout ≠ none) :
    Shut (after w (beginClose ⟨reason, false⟩ w).2) := by
  unfold beginClose
  rw [get_bind_run]
  cases ha : w.mem.attempt with
  | none => exact ⟨hblackout, fun h => absurd ha h⟩
  | some a =>
      simp only [Bool.false_eq_true, if_false]
      by_cases hdesired : w.mem.desired = .empty
      · rw [if_pos hdesired]
        exact ⟨hblackout, fun _ hactive => nomatch hdesired.symm.trans hactive⟩
      · rw [if_neg hdesired]
        exact shut_desireEmpty _ hblackout

theorem shut_enforceExitPolicy (hblackout : w.script.blackout ≠ none)
    (hpolicy : w.mem.attempt ≠ none → w.mem.policy ≠ none) :
    Shut (after w (enforceExitPolicy w).2) := by
  obtain ⟨⟨reason, text⟩, hreason⟩ := Option.ne_none_iff_exists'.1 hblackout
  unfold enforceExitPolicy
  rw [get_bind_run]
  cases hat : w.mem.attempt with
  | none =>
      cases w.mem.policy with
      | none => exact ⟨hblackout, fun ha => absurd hat ha⟩
      | some p => exact ⟨hblackout, fun ha => absurd hat ha⟩
  | some a =>
      obtain ⟨p, hp⟩ := Option.ne_none_iff_exists'.1 (hpolicy (by simp [hat]))
      rw [hp]
      dsimp only
      by_cases hdesired : w.mem.desired = .empty
      · rw [if_pos hdesired]
        exact ⟨hblackout, fun _ hactive => nomatch hdesired.symm.trans hactive⟩
      · rw [if_neg hdesired, hreason]
        exact shut_beginClose reason hblackout

/-- What holds of a worker between two parts of its progress. -/
structure Paused (w : World) : Prop where
  good : Good w
  policed : Policed w
  blackout : w.script.blackout ≠ none

theorem Paused.seq {α β : Type} {m : M α} {f : α → M β} {R : Except Exn β → World → Prop}
    (hw : Paused w) (hm : Keeps m) (hf : ∀ a w', Paused w' → wp Permits (f a) R w')
    (herr : ∀ e w', R (.error e) w') : wp Permits (m >>= f) R w := by
  have hgood := wp_good hm hw.good
  refine wp_then (Q := fun _ w' => Paused w') ⟨hgood.1, hgood.2, ?_,
    ?_⟩ (fun a w' h => hf a w' h)
    fun e w' _ => herr e w'
  · exact hgood.1.preserve (fun _ _ h hp => h.act hp) hw.policed
  · rw [blackout_after]
    exact hw.blackout

theorem error_not_ok {e : Exn} : (.error e : Except Exn Unit) ≠ .ok () := nofun

theorem wp_pausedProgress (hw : Paused w) :
    wp Permits progress (fun r w' => r = .ok () → Unwanted w') w := by
  unfold progress
  refine hw.seq keeps_maybeResolveDeferredContainment (fun _ w₁ hw₁ => ?_)
    fun _ _ h => (error_not_ok h).elim
  rw [wp_bind, wp_get, next_ok]
  by_cases hstop : w₁.mem.needsHuman ≠ none
  · rw [if_pos hstop]
    have hgood := wp_good keeps_progressStopped hw₁.good
    have hstopped : Stopped (after w₁ (progressStopped w₁).2) :=
      (hgood.1.with (emits_progressStopped w₁)).preserve (fun _ _ h hp => h.act hp.1 hp.2)
        ⟨hw₁.blackout, fun _ => hstop⟩
    exact ⟨hgood.1, fun _ => hstopped.leaves⟩
  · rw [if_neg hstop]
    have hgood := wp_good keeps_enforceExitPolicy hw₁.good
    have hshut : Shut (after w₁ (enforceExitPolicy w₁).2) :=
      shut_enforceExitPolicy hw₁.blackout (hw₁.policed.attempt hw₁.good.sound)
    refine wp_then (Q := fun _ w' => Good w' ∧ Shut w') ⟨hgood.1, hgood.2, hshut⟩ ?_
      fun _ _ _ h => (error_not_ok h).elim
    rintro _ w₂ ⟨hgood₂, hshut₂⟩
    have hrest := wp_progressRest hgood₂
    exact ⟨hrest.1, fun _ _ => (hshut₂.after hrest.1).unwanted⟩

/-! ## The calendar is enforced -/

section Enforced

variable (hours : Policy → BlackoutHours) (newYork : Nat → LocalTime)

/-- New York does not trade while the call is handled. -/
def Call.Closed (w : World) (call : Call) : Prop :=
  ∃ p, call.policy w = some p ∧ (hours p).Closed (newYork (call.now w))

/-- What the calendar does to a call that starts in `w`. -/
structure Enforced (w : World) (call : Call) (script : Script) : Prop where
  noAttempt : call.Closed hours newYork w →
      ∀ a, .adopt a ∉ (call.run (w.given call script)).2
  unwanted : call.Closed hours newYork w → ∀ ev, call = .event ev →
    (call.run (w.given call script)).1 = .ok () →
    Unwanted (after (w.given call script) (call.run (w.given call script)).2)
  unaffected : ¬call.Closed hours newYork w →
    call.run (w.given call script) =
        call.run (w.given call { script with blackout := none })

variable {hours newYork}

/-- The calendar of the policy that a call works with, off Sundays. -/
theorem blackout_iff_closed {call : Call} (h : ∀ p, call.policy w = some p →
    ¬(hours p).OnSunday (newYork (call.now w))) :
    call.blackout hours newYork w ≠ none ↔ call.Closed hours newYork w := by
  unfold Call.blackout Call.Closed
  cases hp : call.policy w with
  | none => simp
  | some p =>
      have hsunday := h p hp
      rw [Option.bind_some, ne_eq, BlackoutHours.blackout_eq_none]
      simp [hsunday]

theorem reach_good {ok : Proc → Label → Prop} {c : Config}
    (h : Reach Proc.Step ok (.init c) (.up w [])) : Good w ∧ Policed w := by
  obtain ⟨hs, hp⟩ := Proc.reach_policed h
  cases hs with
  | up hs _ hidle =>
      cases hp with
      | up hp => exact ⟨⟨hs, hidle⟩, hp⟩

/-- Handling an event ends with progress, in a state that is still sound. -/
theorem wp_pausedEvent {ev : Event} (hw : Good w) (hp : Policed w)
    (hcall : Call.Delivers (.event ev) w) (hblackout : w.script.blackout ≠ none) :
    wp Permits (handleEvent ev) (fun r w' => r = .ok () → Unwanted w') w := by
  have hdispatch : wp Permits (dispatchEvent ev) (fun _ w' => Good w') w :=
    wp_dispatchEvent hw fun m hm => hcall m (by rw [hm])
  unfold handleEvent
  refine wp_then (Q := fun _ w' => Paused w') ⟨hdispatch.1, hdispatch.2, ?_, ?_⟩
    (fun _ _ h => wp_pausedProgress h) fun _ _ _ h => (error_not_ok h).elim
  · exact hdispatch.1.preserve (fun _ _ h hx => h.act hx) hp
  · rw [blackout_after]
    exact hblackout

theorem trading_calendar_enforced (hours : Policy → BlackoutHours)
    (newYork : Nat → LocalTime) {c : Config} {call : Call} {script : Script}
    (hrun : Reach Proc.Step (fun p l => OnCalendar hours newYork p l ∧
      OffSunday hours newYork p l)
      (.init c) (.up w []))
    (hfresh : script.Fresh w.disk)
    (hcalendar : OnCalendar hours newYork (.up w []) (.begin call script))
    (hsunday : OffSunday hours newYork (.up w []) (.begin call script)) :
    Enforced hours newYork w call script := by
  obtain ⟨hgood, hpoliced⟩ := reach_good hrun
  have hgiven := good_given hgood call script hfresh
  have hdelivers := delivers_given w call script
  have hcloses : (w.given call script).script.blackout ≠ none ↔
      call.Closed hours newYork w :=
    hcalendar ▸ blackout_iff_closed hsunday
  refine ⟨fun hclosed a => ?_, ?_, fun hopen => ?_⟩
  · exact no_adopt (hcloses.2 hclosed) (wp_call hgiven hdelivers).1 a
  · rintro hclosed ev rfl hok
    have hpoliced' : Policed (w.given (.event ev) script) := ⟨hpoliced.same, hpoliced.live⟩
    exact (wp_pausedEvent hgiven hpoliced' hdelivers (hcloses.2 hclosed)).2 hok
  · have hnone : script.blackout = none := not_not.1 fun h => hopen (hcloses.1 h)
    rw [← hnone]

end Enforced

/-! ## A pair opened on the afternoon of a day -/

namespace Sample

/-- From 16:30 to 18:30. -/
def closingHours : Policy → BlackoutHours := fun _ => ⟨990, 1110, by decide⟩

/-- Seconds since 16:00 of the day. -/
def afternoon (day : Weekday) (t : Nat) : LocalTime :=
  ⟨day, 960 * microsecondsPerMinute + 1000000 * t⟩

def opened : List Move := ready ++ facts 2 { decision := some (attempt 100) }

def halfPastFour : Call := .event (.clockTick 1800)

def closing : Script :=
  { blackout := some ("new_york_trading_blackout", "New York trading blackout") }

end Sample

instance (hours : Policy → BlackoutHours) (newYork : Nat → LocalTime)
    (p : Proc) (l : Label) :
    Decidable (OnCalendar hours newYork p l) :=
  match p, l with
  | .up w _, .begin call script =>
      inferInstanceAs (Decidable (script.blackout = call.blackout hours newYork w))
  | .up .., .serve .. | .up .., .exec _ | .up .., .crash | .up .., .reopen =>
      isTrue trivial
  | .down .., _ => isTrue trivial

instance (hours : Policy → BlackoutHours) (newYork : Nat → LocalTime)
    (p : Proc) (l : Label) :
    Decidable (OffSunday hours newYork p l) :=
  match p, l with
  | .up w _, .begin call _ => inferInstanceAs (Decidable (∀ p ∈ call.policy w,
      ¬((newYork (call.now w)).weekday = .sunday ∧
        (hours p).Within (newYork (call.now w)))))
  | .up .., .serve .. | .up .., .exec _ | .up .., .crash | .up .., .reopen =>
      isTrue trivial
  | .down .., _ => isTrue trivial

namespace Sample

/-- An open pair whose worker is asked for the time at half past four. -/
def opensBefore (ok : Proc → Label → Prop) [∀ p l, Decidable (ok p l)] : Proc → Bool
  | .up w [] =>
      decide (ok (.up w []) (.begin halfPastFour closing)) &&
        decide (w.mem.attempt ≠ none ∧ w.mem.desired = .active)
  | _ => false

def empties : Action → Bool
  | .saveDesired .empty _ => true
  | _ => false

/-- Whether the call closes the pair follows from the calendar alone. -/
def closesByCalendar : Proc → Bool
  | .up w _ =>
      (halfPastFour.run (w.given halfPastFour closing)).2.any empties &&
        !(halfPastFour.run (w.given halfPastFour { closing with blackout := none })).2.any
          empties
  | .down _ _ => false

end Sample

open Sample in
theorem monday_pair_closed :
    ∃ w, Enforced closingHours (afternoon .monday) w halfPastFour closing ∧
      halfPastFour.Closed closingHours (afternoon .monday) w ∧
      w.mem.attempt ≠ none ∧ w.mem.desired = .active := by
  obtain ⟨p, hrun, hp⟩ := Proc.play_any
    (fun p l => OnCalendar closingHours (afternoon .monday) p l ∧
      OffSunday closingHours (afternoon .monday) p l) (.init leader) opened
    (opensBefore fun p l => OnCalendar closingHours (afternoon .monday) p l ∧
      OffSunday closingHours (afternoon .monday) p l) (by decide +kernel)
  match p with
  | .down c d => cases hp
  | .up w (x :: todo) => cases hp
  | .up w [] =>
      obtain ⟨hok, hopen⟩ := Bool.and_eq_true_iff.1 hp
      obtain ⟨hcalendar, hsunday⟩ := of_decide_eq_true hok
      refine ⟨w, trading_calendar_enforced _ _ hrun (fun _ h => nomatch h)
        hcalendar hsunday, ?_, of_decide_eq_true hopen⟩
      refine (blackout_iff_closed hsunday).1 ?_
      rw [show halfPastFour.blackout closingHours (afternoon .monday) w =
        closing.blackout from
        hcalendar.symm]
      simp [closing]

/-- On a Sunday a pair is closed by the hours of the other days. -/
theorem sunday_pair_closed :
    ¬ ∀ (hours : Policy → BlackoutHours) (newYork : Nat → LocalTime)
      (c : Config) (w : World) (call : Call) (script : Script),
      Reach Proc.Step (OnCalendar hours newYork) (.init c) (.up w []) →
      script.Fresh w.disk →
      OnCalendar hours newYork (.up w []) (.begin call script) →
      Enforced hours newYork w call script := by
  intro h
  obtain ⟨p, hrun, hp⟩ :=
    Proc.play_any (OnCalendar Sample.closingHours (Sample.afternoon .sunday))
    (.init Sample.leader) Sample.opened
    (fun p => Sample.opensBefore
      (OnCalendar Sample.closingHours (Sample.afternoon .sunday)) p &&
      Sample.closesByCalendar p) (by decide +kernel)
  obtain ⟨hopens, hcloses⟩ := Bool.and_eq_true_iff.1 hp
  match p with
  | .down c d => cases hopens
  | .up w (x :: todo) => cases hopens
  | .up w [] =>
      obtain ⟨hok, -⟩ := Bool.and_eq_true_iff.1 hopens
      have henforced :=
        h _ _ _ w Sample.halfPastFour Sample.closing hrun (fun _ ha => nomatch ha)
        (of_decide_eq_true hok)
      have hopen : ¬Sample.halfPastFour.Closed Sample.closingHours
          (Sample.afternoon .sunday) w := by
        rintro ⟨p, -, hsaturday | ⟨-, hday, -⟩⟩
        · cases hsaturday
        · exact hday rfl
      obtain ⟨hwith, hwithout⟩ := Bool.and_eq_true_iff.1 hcloses
      rw [henforced.unaffected hopen] at hwith
      rw [hwith] at hwithout
      cases hwithout

end PairCell
