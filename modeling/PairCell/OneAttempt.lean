import PairCell.Reopen

/-!
# One unresolved attempt

A row is only added without a verdict while the cell follows no attempt.  As
long as the cell follows the unresolved attempt of its route, that leaves at
most one.  The envelope of an attempt the database already knows changes
neither the rows nor the journal.
-/

namespace PairCell

open Lib World

variable {w : World}

/-! ## A known attempt is answered from the database -/

/-- An action that only reports. -/
def Reports : Action → Prop
  | .transition _ => True
  | .setAux _ => True
  | .relay _ => True
  | _ => False

theorem emits_note (event : String) : Emits Reports (note event) := emits_emit trivial

theorem emits_reportLegStatus (r : StatusReport) : Emits Reports (reportLegStatus r) := by
  refine emits_bind emits_get fun w => ?_
  cases r.attemptId.or w.attemptId? with
  | none => exact emits_pure _
  | some i => exact emits_emit trivial

theorem emits_reportCurrentLegStatus : Emits Reports reportCurrentLegStatus := by
  refine emits_bind emits_get fun w => ?_
  split
  · split
    · exact emits_bind emits_get fun _ => emits_reportLegStatus _
    · split
      · exact emits_reportLegStatus _
      · split <;> exact emits_reportLegStatus _
  · exact emits_pure _

theorem emits_replayLegStatus (a : Attempt) : Emits Reports (replayLegStatus a) := by
  refine emits_bind emits_get fun w => ?_
  split
  · exact emits_reportCurrentLegStatus
  · split
    · exact emits_reportLegStatus _
    · exact emits_pure _

theorem handleAttempt_known {a : Attempt} (h : w.disk.rowOf a.attemptId ≠ none) :
    ∀ x ∈ (handleAttempt a w).2, Reports x := by
  obtain ⟨row, hrow⟩ := Option.ne_none_iff_exists'.1 h
  simp only [handleAttempt, get_bind_run, hrow]
  by_cases hrole : w.cfg.role ≠ .follower
  · rw [if_pos hrole]
    exact emits_pure _ w
  · rw [if_neg hrole]
    split
    · exact emits_bind (emits_note _) (fun _ => emits_reportLegStatus _) w
    · exact emits_bind (emits_note _) (fun _ => emits_replayLegStatus a) w

theorem acceptAttempt_known {a : Attempt} (h : w.disk.rowOf a.attemptId ≠ none) :
    ∀ x ∈ (acceptRelayEnvelope (.attempt a) w).2, Reports x := by
  intro x hx
  let aux : Aux := { w.mem.aux with proofWaitStarted := none }
  have hrun : (acceptRelayEnvelope (.attempt a) w).2 =
      .setAux aux :: (handleAttempt a (w.act (.setAux aux))).2 := by
    simp only [acceptRelayEnvelope, modifyAux, bind_run, emit]
    rfl
  rw [hrun] at hx
  rcases List.mem_cons.1 hx with rfl | hx
  · trivial
  · exact handleAttempt_known (w := w.act (.setAux aux)) h x hx

/-- The rows, the journal and the orders sent are as before. -/
structure SameBooks (d d' : Disk) : Prop where
  attempts : d'.attempts = d.attempts
  journal : d'.journal = d.journal
  sent : d'.sent = d.sent

theorem sameBooks_after {t : List Action} (h : ∀ x ∈ t, Reports x) (w : World) :
    SameBooks w.disk (after w t).disk := by
  induction t generalizing w with
  | nil => exact ⟨rfl, rfl, rfl⟩
  | cons x t ih =>
      obtain ⟨h1, h2, h3⟩ := ih (fun y hy => h y (by simp [hy])) (w.act x)
      have hx := h x (by simp)
      cases x with
      | transition event => exact ⟨h1, h2, h3⟩
      | setAux y => exact ⟨h1, h2, h3⟩
      | relay m => exact ⟨h1, h2, h3⟩
      | _ => cases hx

/-! ## New rows -/

/-- Where a row without a verdict comes from. -/
structure NewlyOpened (c : Config) (p : Proc) (r : AttemptRow) : Prop where
  /-- No attempt is unresolved. -/
  alone : ∀ q ∈ p.disk.attempts, ¬ Live c q
  /-- A follower only takes over an attempt it was sent. -/
  admitted : c.role = .follower →
    ∃ w todo, p = .up w todo ∧ w.script.delivered = some (.attempt r.attempt)

theorem newlyOpened_step {p p' : Proc} {l : Label} (hs : p.Sound)
    (hn : LiveNewest p.cfg p.disk) (hstep : Proc.Step p l p') {r : AttemptRow}
    (hr : r ∈ p'.disk.attempts) (hlive : Live p.cfg r) (hnew : r ∉ p.disk.attempts) :
    NewlyOpened p.cfg p r := by
  cases hs.moves hstep with
  | exec hp hl hp' hsound hperm =>
      subst hp hl hp'
      rcases live_before hr hlive with hold | ⟨b, rfl, rfl⟩
      · exact absurd hold hnew
      · exact ⟨fun q hq => hn.no_live hsound hperm.1 hq,
          fun hrole => ⟨_, _, rfl, hperm.2.2.2.2.1 hrole⟩⟩
  | still hdisk _ _ _ =>
      rw [hdisk] at hr
      exact absurd hr hnew

theorem reach_liveNewest {c : Config} {p : Proc}
    (h : Reach Proc.Step (onExec Unhidden) (.init c) p) :
    LiveNewest c p.disk ∧ p.cfg = c ∧ p.Sound := by
  refine Proc.reach_disk (I := LiveNewest c) h (fun r hr => absurd hr (by simp)) ?_
  rintro w a todo hs rfl hn hp hok
  exact hn.act hs hp hok

/--
In every run in which no new row hides the unresolved attempt, a route has at
most one unresolved attempt and no two rows of one id.  A row without a verdict
is added only while there is none, by a leader or for an attempt a follower was
sent, and handling the envelope of a known id adds no row, no effect and no
order at any of its steps.
-/
theorem one_unresolved_attempt (c : Config) (p : Proc)
    (h : Reach Proc.Step (onExec Unhidden) (.init c) p) :
    (∀ r ∈ p.disk.attempts, ∀ q ∈ p.disk.attempts, Live c r → Live c q → r = q) ∧
      (p.disk.attempts.map fun r => r.attempt.attemptId).Nodup ∧
      (∀ l p', Proc.Step p l p' → ∀ r ∈ p'.disk.attempts, Live c r → r ∉ p.disk.attempts →
        NewlyOpened c p r) ∧
      ∀ w, p = .up w [] → ∀ script a, w.disk.rowOf a.attemptId ≠ none →
        ∀ t, t <+: (acceptRelayEnvelope (.attempt a)
            (w.given (.event (.envelope (.attempt a))) script)).2 →
          SameBooks w.disk
          (after (w.given (.event (.envelope (.attempt a))) script) t).disk := by
  obtain ⟨hn, rfl, hs⟩ := reach_liveNewest h
  refine ⟨fun r hr q hq hlr hlq => hn.unique hr hq hlr hlq, hs.diskSound.ids,
    fun l p' hstep r hr hlive hnew => newlyOpened_step hs hn hstep hr hlive hnew, ?_⟩
  rintro w rfl script a hknown t ht
  have hquiet := acceptAttempt_known
    (w := w.given (.event (.envelope (.attempt a))) script) hknown
  exact sameBooks_after (fun x hx => hquiet x (ht.subset hx))
    (w.given (.event (.envelope (.attempt a))) script)

/-- A follower holds the one attempt it admitted, and answers the same envelope from it. -/
theorem one_unresolved_attempt_follower :
    ∃ p, Reach Proc.Step (onExec Unhidden) (.init Sample.follower) p ∧
      (∃ r ∈ p.disk.attempts, Live Sample.follower r) ∧
      ∀ r ∈ p.disk.attempts, ∀ q ∈ p.disk.attempts,
        Live Sample.follower r → Live Sample.follower q → r = q := by
  obtain ⟨p, hreach, hlive⟩ := Proc.play_any (onExec Unhidden) (.init Sample.follower)
    (Sample.ready ++ Sample.facts 2 {} ++
      Sample.deliver (.attempt (Sample.attempt 100))
        { replies := [Sample.filled], depth := 5 } ++
      Sample.deliver (.attempt (Sample.attempt 100)) {})
    (fun p => decide (∃ r ∈ p.disk.attempts, Live Sample.follower r)) (by decide +kernel)
  exact ⟨p, hreach, of_decide_eq_true hlive, (one_unresolved_attempt _ p hreach).1⟩

/--
The follower refuses a second attempt while it holds the first, restarts without
the first, and admits a third.
-/
theorem two_unresolved_attempts :
    ¬ ∀ c p, Reach Proc.Step anyStep (.init c) p →
      ∀ r ∈ p.disk.attempts, ∀ q ∈ p.disk.attempts, Live c r → Live c q → r = q := by
  intro h
  obtain ⟨p, hreach, hp⟩ := Proc.play_any anyStep (.init Sample.follower)
    (Sample.ready ++ Sample.facts 2 {} ++
      Sample.deliver (.attempt (Sample.attempt 100))
        { replies := [Sample.filled], depth := 5 } ++
      Sample.deliver (.attempt (Sample.attempt 101)) {} ++ Sample.restart ++
      Sample.facts 3 {} ++
      Sample.deliver (.attempt (Sample.attempt 102))
        { replies := [Sample.filled], depth := 5 })
    (fun p => decide (∃ r ∈ p.disk.attempts, ∃ q ∈ p.disk.attempts,
      Live Sample.follower r ∧ Live Sample.follower q ∧ r ≠ q)) (by decide +kernel)
  obtain ⟨r, hr, q, hq, hlr, hlq, hne⟩ := of_decide_eq_true hp
  exact hne (h _ p hreach r hr q hq hlr hlq)

end PairCell
