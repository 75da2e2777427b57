import PairCell.Play

/-!
# Every effect is sent at most once

The journal is the only guard: an effect is handed to the terminal right after
its own `send_started`, and `send_started` is only ever recorded for an effect
that is still `prepared`.  The invariant counts the sends of every effect.
-/

namespace PairCell

open Lib World

/-- The `order_send` calls made under one effect id. -/
def Disk.sends (d : Disk) (e : EffectId) : List Sent :=
  d.sent.filter fun s => decide (s.effect = e)

def Disk.stateOf (d : Disk) (e : EffectId) : Option EffectState :=
  (d.journal.get e).map JournalRow.state

/-- The ways a journal row moves. -/
inductive Forward : Option EffectState → Option EffectState → Prop where
  | stay (s : Option EffectState) : Forward s s
  | prepare : Forward none (some .prepared)
  | start : Forward (some .prepared) (some .sendStarted)
  | conclude {s t : EffectState} (hs : s = .prepared ∨ s = .sendStarted)
      (ht : t = .receipt ∨ t = .observed) : Forward (some s) (some t)

theorem JournalStep.forward {x : EffectId} {a : Action} {old new : Option JournalRow}
    (h : JournalStep x a old new) :
    Forward (old.map JournalRow.state) (new.map JournalRow.state) := by
  cases h with
  | same => exact .stay _
  | prepare p own => exact .prepare
  | start r h =>
      simp only [Option.map_some, h]
      exact .start
  | receipt r retcode h =>
      rcases h with h | h
      · simp only [Option.map_some, h]
        exact .conclude (.inr rfl) (.inl rfl)
      · simp only [Option.map_some, h]
        exact .stay _
  | observe r h => exact .conclude h (.inr rfl)

theorem act_sends (w : World) (a : Action) (e : EffectId) :
    (w.act a).disk.sends e = w.disk.sends e ++
      match a with
      | .orderSend x p r => if x = e then [⟨x, p, r⟩] else []
      | _ => [] := by
  unfold Disk.sends
  rw [act_sent, List.filter_append]
  cases a with
  | orderSend x p r => by_cases hx : x = e <;> simp [hx]
  | _ => simp

/-- Nothing was sent under `e`, or once and `e` is not armed. -/
def SentOnce (d : Disk) (armed : Option EffectId) (e : EffectId) : Prop :=
  (d.sends e).length ≤ 1 ∧ (armed = some e → d.sends e = [])

theorem sends_nil {d : Disk} {armed : Option EffectId} (h : JournalSound d armed)
    {e : EffectId} (hno : ¬ StartedAt d e) : d.sends e = [] := by
  rw [Disk.sends, List.filter_eq_nil_iff]
  intro s hs he
  exact hno (of_decide_eq_true he ▸ h.sent s hs)

theorem SentOnce.act {w : World} {a : Action} {e : EffectId} (hs : Sound w)
    (hp : Permits w a) (h : SentOnce w.disk w.mem.armed e) :
    SentOnce (w.act a).disk (w.act a).mem.armed e := by
  unfold SentOnce
  rw [act_sends, act_armed]
  cases a with
  | orderSend x p r =>
      by_cases hx : x = e
      · have hnil := h.2 (hx ▸ hp.1)
        simp [hx, hnil]
      · simpa [hx] using h.1
  | markSendStarted x =>
      refine ⟨by simpa using h.1, fun hx => ?_⟩
      obtain rfl := Option.some.inj hx
      obtain ⟨-, r, hr, hst⟩ := hp
      have hno : ¬ StartedAt w.disk x := by
        rintro ⟨q, hq, hne⟩
        obtain rfl : r = q := Option.some.inj (hr.symm.trans hq)
        exact hne hst
      simpa using sends_nil hs.journal hno
  | _ => simpa [SentOnce] using h

/-- The invariant of a run. -/
def Proc.SendsOnce (p : Proc) : Prop := ∀ e, SentOnce p.disk p.armed e

theorem Proc.SendsOnce.step {p p' : Proc} {l : Label} (hs : p.Sound) (h : p.SendsOnce)
    (hstep : Proc.Step p l p') : p'.SendsOnce := by
  intro e
  cases hstep with
  | begin call script hfresh => exact h e
  | serve item script => exact h e
  | exec a todo =>
      cases hs with
      | up hsound htodo _ => exact (h e).act hsound htodo.1
  | crash => exact ⟨(h e).1, fun he => nomatch he⟩
  | reopen hload =>
      cases hs with
      | down hd hj =>
          obtain ⟨hidle, -, hdisk⟩ := load_idle hd hload
          refine ⟨?_, fun he => ?_⟩
          · show (Disk.sends _ e).length ≤ 1
            rw [show (Proc.up _ []).disk = _ from hdisk]
            exact (h e).1
          · exact absurd (hidle.armed.symm.trans he) (by simp)

theorem Proc.reach_sendsOnce {c : Config} {p : Proc}
    (h : Reach Proc.Step anyStep (.init c) p) : p.Sound ∧ p.SendsOnce := by
  refine h.invariant (I := fun p => p.Sound ∧ p.SendsOnce) ⟨Proc.sound_init c, ?_⟩ ?_
  · exact fun e => ⟨by simp [Proc.init, Proc.disk, Disk.sends], fun he => nomatch he⟩
  · exact fun p l p' hi _ hstep => ⟨hi.1.step hstep, hi.2.step hi.1 hstep⟩

/-! ## Started effects -/

/-- The effect is past `prepared` and no send of it is under way. -/
def Proc.Spent (p : Proc) (e : EffectId) : Prop := StartedAt p.disk e ∧ p.armed ≠ some e

theorem Proc.Spent.step {p p' : Proc} {l : Label} {e : EffectId} (hs : p.Sound)
    (h : p.Spent e) (hstep : Proc.Step p l p') : p'.Spent e ∧
    p'.disk.sends e = p.disk.sends e := by
  obtain ⟨hstarted, harmed⟩ := h
  cases hs.moves hstep with
  | exec hp hl hp' hsound hperm =>
      subst hp hl hp'
      rename_i w a todo
      refine ⟨⟨hstarted.act hperm, ?_⟩, ?_⟩
      · show (w.act a).mem.armed ≠ some e
        rw [act_armed]
        cases a with
        | markSendStarted x =>
            rintro hx
            obtain rfl := Option.some.inj hx
            obtain ⟨-, r, hr, hst⟩ := hperm
            obtain ⟨q, hq, hne⟩ := hstarted
            obtain rfl : r = q := Option.some.inj (hr.symm.trans hq)
            exact hne hst
        | orderSend x p r => simp
        | _ => exact harmed
      · show (w.act a).disk.sends e = w.disk.sends e
        rw [act_sends]
        cases a with
        | orderSend x p r =>
            have hx : x ≠ e := by
              rintro rfl
              exact harmed hperm.1
            simp [hx]
        | _ => simp
  | still hdisk _ harmed' _ =>
      rw [Proc.Spent, hdisk]
      refine ⟨⟨hstarted, ?_⟩, rfl⟩
      rcases harmed' with h | h
      · rw [h]
        exact harmed
      · rw [h]
        simp

theorem Proc.Spent.reach {p p' : Proc} {e : EffectId} (hs : p.Sound) (h : p.Spent e)
    (hreach : Reach Proc.Step anyStep p p') : p'.disk.sends e = p.disk.sends e := by
  have hinv : p'.Sound ∧ p'.Spent e ∧ p'.disk.sends e = p.disk.sends e := by
    refine hreach.invariant (I := fun q => q.Sound ∧ q.Spent e ∧
      q.disk.sends e = p.disk.sends e)
      ⟨hs, h, rfl⟩ ?_
    rintro q l q' ⟨hq, hspent, hsame⟩ _ hstep
    obtain ⟨hspent', hsame'⟩ := hspent.step hq hstep
    exact ⟨hq.step hstep, hspent', hsame'.trans hsame⟩
  exact hinv.2.2

theorem forward_step {p p' : Proc} {l : Label} (hs : p.Sound) (hstep : Proc.Step p l p')
    (e : EffectId) : Forward (p.disk.stateOf e) (p'.disk.stateOf e) := by
  cases hs.moves hstep with
  | exec hp hl hp' _ hperm =>
      subst hp hl hp'
      exact (act_journal hperm e).forward
  | still hdisk _ _ _ =>
      rw [hdisk]
      exact .stay _

/--
In every run, through every crash and reopening, each effect id reaches
`order_send` at most once, its journal row only moves forward, and once that row
is past `prepared` and its send is not under way, the effect is never sent.
-/
theorem order_send_at_most_once (c : Config) (p : Proc)
    (h : Reach Proc.Step anyStep (.init c) p) (e : EffectId) :
    (p.disk.sends e).length ≤ 1 ∧
      (∀ l p', Proc.Step p l p' → Forward (p.disk.stateOf e) (p'.disk.stateOf e)) ∧
      (p.Spent e → ∀ p', Reach Proc.Step anyStep p p' →
        p'.disk.sends e = p.disk.sends e) := by
  obtain ⟨hs, honce⟩ := Proc.reach_sendsOnce h
  exact ⟨(honce e).1, fun l p' hstep => forward_step hs hstep e,
    fun hspent p' hreach => hspent.reach hs hreach⟩

/-- The leader's entry is sent, and a restart does not send it again. -/
theorem order_send_of_leader_once :
    ∃ p, Reach Proc.Step anyStep (.init Sample.leader) p ∧
      (p.disk.sends (.cell 100 1 .entry)).length = 1 ∧
      ∀ p', Reach Proc.Step anyStep p p' →
        p'.disk.sends (.cell 100 1 .entry) = p.disk.sends (.cell 100 1 .entry) := by
  obtain ⟨p, hreach, hp⟩ := Proc.play_any anyStep (.init Sample.leader)
    (Sample.ready ++
      Sample.facts 2 { decision := some (Sample.attempt 100), replies := [Sample.filled],
                       depth := 5 } ++
      Sample.restart)
    (fun p => decide ((p.disk.sends (.cell 100 1 .entry)).length = 1) &&
      decide (p.disk.stateOf (.cell 100 1 .entry) = some .receipt) &&
      decide (p.armed = none))
    (by decide +kernel)
  simp only [Bool.and_eq_true, decide_eq_true_eq] at hp
  obtain ⟨⟨hsent, hstate⟩, harmed⟩ := hp
  have hspent : p.Spent (.cell 100 1 .entry) := by
    obtain ⟨r, hr, hst⟩ := Option.map_eq_some_iff.1 hstate
    exact ⟨⟨r, hr, by simp [hst]⟩, by simp [harmed]⟩
  exact ⟨p, hreach, hsent, (order_send_at_most_once _ p hreach _).2.2 hspent⟩

end PairCell
