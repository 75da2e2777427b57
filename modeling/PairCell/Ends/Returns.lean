import PairCell.Ends.Spins
import PairCell.Play

/-!
# Which containment returns

A live policy returns from containment whatever is shown.  A shadow policy does
exactly when no order is on the symbol, and either no target of the leg is shown
or a stop keeps the cell from writing it in every call.
-/

namespace PairCell

open Lib World

variable {w : World} {s : Snapshot} {a : Attempt}

/-- With a stack that is deep enough, every call returns when every read shows `s`. -/
def World.Returns (w : World) (s : Snapshot) : Prop :=
  ∃ depth, ∀ (c : Call) (script : Script), (∀ r ∈ script.reads, r = some s) →
    depth < script.depth → (c.run (w.given c script)).1 ≠ .error .recursion

/-- A shadow policy has nothing to contain in `s`, or a stop keeps it from it. -/
def Contained (w : World) (s : Snapshot) : Prop :=
  w.shadow = true → ∀ a l, w.mem.attempt = some a → w.mem.leg = some l →
    (∀ o ∈ s.orders, o.symbol ≠ a.symbol) ∧ (Visible w a s l → Held w s l)

/-! ## Calls that return -/

/-- A leg whose target is not shown. -/
theorem unshown_of_invisible {l : Leg} (h : Simulates a s w) (hl : w.mem.leg = some l)
    (hok : LegOk w.cfg a.attemptId l) (horders : ∀ o ∈ s.orders, o.symbol ≠ a.symbol)
    (hvisible : ¬ Visible w a s l) : Unshown a s w := by
  have honly : ∀ l', w.mem.leg = some l' → l' = l := fun l' hl' =>
    Option.some.inj (hl'.symm.trans hl)
  by_cases hsent : l.unsettled = true → MaySent w l
  · refine .inr ⟨h, fun l' hl' => honly l' hl' ▸ ⟨horders, fun p hp hticket => ?_, ?_⟩⟩
    · exact hvisible (.inl ⟨p, hp, hticket⟩)
    · exact fun hopen p hp => hvisible (.inr ⟨hsent hopen, p, hp⟩)
  · rw [Classical.not_imp] at hsent
    obtain ⟨hopen, hnever⟩ := hsent
    have hstatus : l.entryStatus = .pending := by
      cases hstatus : l.entryStatus with
      | pending => rfl
      | sent => exact absurd (.inl hstatus) hnever
      | unknownAfterSend => exact absurd (.inr (.inl hstatus)) hnever
      | rejected | expiredNotStarted | filled =>
          simp [Leg.unsettled, undecided, hstatus] at hopen
    have hticket : l.ticket = none := by
      by_contra hne
      simp [hok.ticketed hne] at hstatus
    obtain ⟨-, -, hprice, hprecise⟩ := hok.unticketed hticket
    refine .inl ⟨h, horders,
      fun l' hl' => honly l' hl' ▸ ⟨hstatus, hticket, hprice, hprecise, ?_⟩⟩
    refine ⟨_, hok.entryEffectId, ?_⟩
    by_contra hmoved
    exact hnever (.inr (.inr ⟨hstatus, _, hok.entryEffectId, by simpa using hmoved⟩))

theorem Contained.returns (h : Contained w s) (hsound : Sound w)
    (hopen : w.attemptUnresolved = true)
    (hdesired : w.mem.desired = .empty) : w.Returns s := by
  refine ⟨budget s, fun c script hreads hdepth => ?_⟩
  cases hshadow : w.shadow with
  | false => exact direct_call (w := w.given c script) ⟨hshadow, hreads, hdepth⟩ hopen c
  | true =>
      obtain ⟨a, ha⟩ : ∃ a, w.mem.attempt = some a := by
        simp only [attemptUnresolved, Bool.and_eq_true, Option.isSome_iff_exists] at hopen
        exact hopen.1
      have hsim : Simulates a s (w.given c script) :=
        ⟨hshadow, hreads, Nat.zero_lt_of_lt hdepth,
          fun b hb => Option.some.inj (hb.symm.trans ha),
          fun hnone => absurd (ha.symm.trans hnone) (by simp)⟩
      cases hl : w.mem.leg with
      | none =>
          refine unshown_call (.inr ⟨hsim, fun l hl' => ?_⟩) hopen c
          exact absurd (hl.symm.trans hl') (by simp)
      | some l =>
          obtain ⟨horders, hheld⟩ := h hshadow a l ha hl
          by_cases hvisible : Visible w a s l
          · have hlatched : Latched a s (w.given c script) := by
              obtain ⟨stop, hstop, -⟩ := hheld hvisible
              exact ⟨hsim, horders, fun _ hnone => by simp [World.given, hstop] at hnone⟩
            have hs := hsound.standing ha
            have hstanding : Standing a (w.given c script) :=
              ⟨hs.attempt, hs.row, hs.transition, hs.stop⟩
            exact braced_call (w := w.given c script)
              ⟨hopen, hlatched, hstanding, hdesired, l, hl, hvisible, hheld hvisible⟩ c
          · obtain ⟨b, hb, hok⟩ := hsound.mem.leg l hl
            obtain rfl : a = b := Option.some.inj (ha.symm.trans hb)
            exact unshown_call (unshown_of_invisible hsim hl hok horders hvisible) hopen c

/-! ## Calls that do not -/

/-- Enough reads for every depth of the stack, and a clock at `tick`. -/
def Script.deep (s : Snapshot) (depth tick : Nat) : Script :=
  { reads := List.replicate (depth + 1) (some s), ticks := [tick], depth := depth }

theorem not_returns (tick : Nat) (c : Call)
    (h : ∀ depth, 0 < depth → Spins c.run (w.given c (.deep s depth tick))) :
    ¬ w.Returns s := by
  rintro ⟨depth, hreturns⟩
  refine hreturns c (.deep s (depth + 1) tick) ?_ (Nat.lt_succ_self depth)
    (h (depth + 1) (Nat.succ_pos depth)).2
  exact fun r hr => List.eq_of_mem_replicate hr

section Spinning

variable {l : Leg} (hshadow : w.shadow = true) (ha : w.mem.attempt = some a)
  (hdesired : w.mem.desired = .empty) (hl : w.mem.leg = some l)
  (htarget : (∃ o ∈ s.orders, o.symbol = a.symbol) ∨ Visible w a s l)
include hshadow ha hdesired hl htarget

theorem pressed_given (c : Call) (tick : Nat) {depth : Nat} (hdepth : 0 < depth) :
    Pressed a s l.emptyVerified (w.given c (.deep s depth tick)) := by
  refine ⟨⟨hshadow, fun r hr => List.eq_of_mem_replicate hr, hdepth, ?_, ?_⟩, ha,
    hdesired, l, hl, htarget, rfl⟩
  · exact fun b hb => Option.some.inj (hb.symm.trans ha)
  · exact fun hnone => absurd (ha.symm.trans hnone) (by simp)

/-- Nothing stands between a close request and the target. -/
theorem close_spins
    (hstop : w.mem.needsHuman = none ∨ ∃ o ∈ s.orders, o.symbol = a.symbol) :
    ¬ w.Returns s := by
  refine not_returns 0 (.requestClose ⟨"", false⟩) fun depth hdepth => ?_
  have hpressed := pressed_given hshadow ha hdesired hl htarget
    (.requestClose ⟨"", false⟩) 0 hdepth
  exact requestClose_spins ⟨hpressed, by simp [World.given, Script.deep], hstop⟩

theorem recovery_spins {stop : Stop} (hs : Standing a w)
    (hstop : w.mem.needsHuman = some stop)
    (hlift : liftable w stop = true) : ¬ w.Returns s := by
  refine not_returns 0 .recover fun depth hdepth => ?_
  refine recover_spins (pressed_given hshadow ha hdesired hl htarget _ _ hdepth)
    ⟨hs.attempt, hs.row, hs.transition, hs.stop⟩ hstop hlift ?_
  simp [World.given, Script.deep]

theorem observation_spins {stop : Stop} (hs : Standing a w)
    (horders : ∀ o ∈ s.orders, o.symbol ≠ a.symbol) (hstop : w.mem.needsHuman = some stop)
    (hlift : liftable (w.sees s) stop = true)
    (hreason : ¬ (w.mem.aux.replayDeferred = [] ∧ l.emptyVerified = true)) :
    ¬ w.Returns s := by
  let due := (w.mem.aux.replayDeferred.head?.map Prod.snd).getD 0
  refine not_returns (due + containmentReplaySettleSeconds) (.event (.brokerSnapshot 0))
    fun depth hdepth => ?_
  refine brokerSnapshot_spins (pressed_given hshadow ha hdesired hl htarget _ _ hdepth)
    ⟨hs.attempt, hs.row, hs.transition, hs.stop⟩ horders hstop hlift ?_ ?_ fun hnone => ?_
  · simp [World.given, Script.deep]
  · intro e at_ rest hdeferred
    have hdue : due = at_ := by
      have hhead : w.mem.aux.replayDeferred = (e, at_) :: rest := hdeferred
      simp [due, hhead]
    simp [World.given, Script.deep, hdue]
  · cases hverified : l.emptyVerified with
    | false => rfl
    | true => exact absurd ⟨hnone, hverified⟩ hreason

end Spinning

theorem contained_of_returns (h : w.Returns s) (hsound : Sound w)
    (hdesired : w.mem.desired = .empty) : Contained w s := by
  intro hshadow a l ha hl
  have hs := hsound.standing ha
  have horders : ∀ o ∈ s.orders, o.symbol ≠ a.symbol := fun o ho hsymbol =>
    close_spins hshadow ha hdesired hl (.inl ⟨o, ho, hsymbol⟩) (.inr ⟨o, ho, hsymbol⟩) h
  refine ⟨horders, fun hvisible => ?_⟩
  cases hstop : w.mem.needsHuman with
  | none =>
      exact absurd h (close_spins hshadow ha hdesired hl (.inr hvisible) (.inl hstop))
  | some stop =>
      refine ⟨stop, hstop, ?_, fun hlift => ?_⟩
      · rw [← Bool.not_eq_true]
        exact fun hlift => recovery_spins hshadow ha hdesired hl (.inr hvisible)
          hs hstop hlift h
      · by_contra hreason
        exact observation_spins hshadow ha hdesired hl (.inr hvisible) hs
          horders hstop hlift
          hreason h

/-- Between two calls, the calls return exactly when the snapshot is contained. -/
theorem containment_returns {c : Config}
    (h : Reach Proc.Step anyStep (.init c) (.up w [])) (hopen : w.attemptUnresolved = true)
    (hdesired : w.mem.desired = .empty) : w.Returns s ↔ Contained w s := by
  have hsound : Sound w := by
    cases Proc.reach_sound h with
    | up hs _ _ => exact hs
  exact ⟨fun h => contained_of_returns h hsound hdesired,
    fun h => h.returns hsound hopen hdesired⟩

/-! ## A shadow attempt -/

/-- A leader that simulates has decided an attempt and was asked to close it. -/
def shadowClosing : List Move :=
  [.reopen] ++ Sample.run .recover {} ++ Sample.facts 1 {} ++
    Sample.run (.event (.policy ⟨5, .shadow, none⟩)) {} ++
    Sample.facts 2 { decision := some (Sample.attempt 100) } ++
    Sample.run (.requestClose ⟨"operator", false⟩) { depth := 1 }

/-- Between two calls, with an open attempt that is to be emptied under a shadow policy. -/
def shadowEmptying (p : Proc) : Bool :=
  match p with
  | .up w [] => w.attemptUnresolved && decide (w.mem.desired = .empty) && w.shadow &&
      decide (w.mem.attempt = some (Sample.attempt 100)) && w.mem.leg.isSome
  | _ => false

theorem shadow_closing_reached :
    ∃ w, Reach Proc.Step anyStep (.init Sample.leader) (.up w []) ∧
    w.attemptUnresolved = true ∧ w.mem.desired = .empty ∧ w.shadow = true ∧
    w.mem.attempt = some (Sample.attempt 100) ∧ ∃ l, w.mem.leg = some l := by
  obtain ⟨p, hreach, hp⟩ := Proc.play_any anyStep (.init Sample.leader) shadowClosing
    shadowEmptying (by decide +kernel)
  cases p with
  | down c d => cases hp
  | up w todo =>
      cases todo with
      | cons x todo => cases hp
      | nil =>
          simp only [shadowEmptying, Bool.and_eq_true, decide_eq_true_eq,
            Option.isSome_iff_exists] at hp
          obtain ⟨⟨⟨⟨hopen, hdesired⟩, hshadow⟩, ha⟩, hl⟩ := hp
          exact ⟨w, hreach, hopen, hdesired, hshadow, ha, hl⟩

/-- The account shows no order and no position. -/
theorem containment_returns_empty :
    ∃ w, Reach Proc.Step anyStep (.init Sample.leader) (.up w []) ∧
    w.attemptUnresolved = true ∧ w.mem.desired = .empty ∧ w.shadow = true ∧
    w.Returns Sample.emptyAccount := by
  obtain ⟨w, hreach, hopen, hdesired, hshadow, -⟩ := shadow_closing_reached
  refine ⟨w, hreach, hopen, hdesired, hshadow,
    (containment_returns hreach hopen hdesired).2 fun _ a l _ _ =>
      ⟨?_, fun hvisible => ?_⟩⟩
  · simp [Sample.emptyAccount]
  · simp [Visible, Sample.emptyAccount, attemptMatches] at hvisible

/-- Somebody has left a pending order on the symbol of a simulated attempt. -/
theorem shadow_containment_spins :
    ¬ ∀ c w, Reach Proc.Step anyStep (.init c) (.up w []) → w.attemptUnresolved = true →
      w.mem.desired = .empty → ∀ s, w.Returns s := by
  intro h
  obtain ⟨w, hreach, hopen, hdesired, hshadow, ha, l, hl⟩ := shadow_closing_reached
  have horder : ∃ o ∈ [Order.mk 9 "EURUSD"], o.symbol = (Sample.attempt 100).symbol :=
    ⟨⟨9, "EURUSD"⟩, by simp, rfl⟩
  exact close_spins hshadow ha hdesired hl (.inl horder) (.inr horder)
    (h _ w hreach hopen hdesired ⟨[⟨9, "EURUSD"⟩], []⟩)

end PairCell
