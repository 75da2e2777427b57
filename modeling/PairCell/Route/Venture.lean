import PairCell.Lib.Venture
import PairCell.Route.Finality
import PairCell.Route.Active
import PairCell.SendOnce

/-!
# A route is a venture of two

Seen from one attempt, the two databases are a venture that the leader leads:
the follower enters it on the leader's terms, each side places one order at
most, none once its part is over, and counts the pair as active only when both
entries are filled.
-/

namespace PairCell

open Lib World

variable {w : World} {x : Action} {n : Nat}

instance (d : Disk) (n : Nat) : Decidable (Filled d n) :=
  inferInstanceAs (Decidable (∃ l, l ∈ d.legs.get n ∧ l.entryStatus = .filled))

instance (l : Leg) : Decidable (ClosedLeg l) :=
  inferInstanceAs (Decidable (_ ∨ _ ∨ _))

instance (d : Disk) (n : Nat) : Decidable (Over d n) :=
  inferInstanceAs (Decidable ((∃ l, l ∈ d.legs.get n ∧ ClosedLeg l) ∨
    ∃ row ∈ d.attempts, row.attempt.attemptId = n ∧ row.terminal ≠ none))

/-- What a side has done about the attempt. -/
def Disk.stake (c : Config) (n : Nat) (d : Disk) : Stake Attempt where
  terms := (d.rowOf n).map AttemptRow.attempt
  orders := (d.entrySends (.cell n c.workerId .entry)).length
  filled := decide (Filled d n)
  active := (d.active.get n).isSome
  ended := decide (Over d n)

/-! ## One action -/

/-- The row of an id is new, or its attempt is as before. -/
theorem terms_act (hw : Sound w) (hx : Permits w x) :
    ((w.act x).disk.rowOf n).map AttemptRow.attempt =
    (w.disk.rowOf n).map AttemptRow.attempt ∨
      w.disk.rowOf n = none ∧ ∃ row ∈ (w.act x).disk.attempts,
        row.attempt.attemptId = n := by
  cases hrow : w.disk.rowOf n with
  | some old =>
      obtain ⟨hold, hid⟩ := rowOf_mem hrow
      obtain ⟨row, hnew, heq⟩ := act_row_stays x ⟨old, hold, rfl⟩
      have hids := (hw.act hx).disk.ids
      have hfound := rowOf_eq_some hids hnew
      rw [heq, hid] at hfound
      exact .inl (by rw [hfound, Option.map_some, Option.map_some, heq])
  | none =>
      cases hnew : (w.act x).disk.rowOf n with
      | none => exact .inl rfl
      | some row => exact .inr ⟨rfl, row, rowOf_mem hnew⟩

theorem leg_row {c : Config} {d : Disk} (hd : DiskSound c d) {l : Leg}
    (hl : d.legs.get n = some l) : d.rowOf n ≠ none := by
  obtain ⟨-, row, hrow, hid⟩ := hd.legs n l hl
  exact fun hnone => rowOf_eq_none.1 hnone row hrow hid

theorem Over.row {c : Config} {d : Disk} (hd : DiskSound c d) (h : Over d n) :
    d.rowOf n ≠ none := by
  obtain ⟨l, hl, -⟩ | ⟨row, hrow, hid, -⟩ := h
  · exact leg_row hd hl
  · exact fun hnone => rowOf_eq_none.1 hnone row hrow hid

/-- An order is added only for the attempt in hand, and only while it is not over. -/
theorem orders_act (hw : Sound w) (hx : Permits w x) :
    (w.act x).disk.entrySends (.cell n w.cfg.workerId .entry) =
        w.disk.entrySends (.cell n w.cfg.workerId .entry) ∨
      (∃ q, (w.act x).disk.entrySends (.cell n w.cfg.workerId .entry) =
        w.disk.entrySends (.cell n w.cfg.workerId .entry) ++ [q]) ∧
        ¬Over w.disk n ∧ w.disk.rowOf n ≠ none := by
  by_cases hover : Over w.disk n
  · exact .inl (hover.entrySends_act hw hx)
  · unfold Disk.entrySends
    rw [act_sent, List.filter_append]
    cases x with
    | orderSend e p r =>
        by_cases hentry : (decide (e = .cell n w.cfg.workerId .entry) && p.isEntry) = true
        · obtain ⟨he, hmarket⟩ := Bool.and_eq_true_iff.1 hentry
          obtain rfl := of_decide_eq_true he
          obtain ⟨a, l, ha, hl, heffect, -⟩ := hx.2.2.1 hmarket
          obtain rfl : n = a.attemptId := by
            simpa [entryEffectId, Config.effect] using heffect
          obtain ⟨d, hd, -⟩ := hw.toBooked.stored ha hl
          exact .inr ⟨⟨⟨.cell a.attemptId w.cfg.workerId .entry, p, r⟩, by simp [hmarket]⟩,
            hover, leg_row hw.disk hd⟩
        · exact .inl (by simp [hentry])
    | _ => exact .inl (by simp)

theorem entrySends_sublist (d : Disk) (e : EffectId) :
    (d.entrySends e).Sublist (d.sends e) := by
  refine List.monotone_filter_right d.sent fun q hq => ?_
  exact (Bool.and_eq_true_iff.1 hq).1

/-- An attempt is marked as active only while the cell counts its pair so. -/
theorem active_act {todo : List Action} (hx : Permits w x) :
    (w.act x).disk.active.get n = w.disk.active.get n ∨
      ((w.act x).disk.active.get n).isSome = true ∧ (Proc.up w todo).Marks n := by
  rw [act_active]
  split
  · next since a ha =>
    rw [Table.get_set]
    split
    · next hid => exact .inr ⟨rfl, .held a ha hid.symm hx⟩
    · exact .inl rfl
  · exact .inl rfl

namespace Route

variable {s s' : Route} {r : Role} {leaderId followerId routeId : Nat}

/-- The venture of an attempt. -/
def venture (n : Nat) (s : Route) : Role → Stake Attempt :=
  fun r => (s.proc r).disk.stake (s.proc r).cfg n

theorem venture_init : (init leaderId followerId routeId).venture n = Venture.start := by
  funext r
  cases r <;> rfl

/-- The follower's new row is that of an attempt the leader has. -/
theorem terms_of_leader (h : Reach Step anyLabel (init leaderId followerId routeId) s)
    {row : AttemptRow} (hrow : row ∈ s.follower.disk.attempts) :
    (s.leader.disk.rowOf row.attempt.attemptId).map AttemptRow.attempt =
      some row.attempt := by
  obtain ⟨-, row', hrow', heq⟩ := follower_follows_leader h row hrow
  have hfound := rowOf_eq_some ((reach_joined h).sound .leader).diskSound.ids hrow'
  rw [heq] at hfound
  change s.leader.disk.rowOf row.attempt.attemptId = some row' at hfound
  rw [hfound, Option.map_some, heq]

theorem reach_side (h : Reach Step anyLabel (init leaderId followerId routeId) s)
    (r : Role) :
    Reach Proc.Step anyStep (.init (config leaderId followerId routeId r)) (s.proc r) := by
  have hside := reach_proc h r
  cases r <;> exact hside

/-- What one action of a side makes of its stake. -/
theorem venture_move (h : Reach Step anyLabel (init leaderId followerId routeId) s)
    (h' : Reach Step anyLabel (init leaderId followerId routeId) s') {todo : List Action}
    (hp : s.proc r = .up w (x :: todo)) (hp' : s'.proc r = .up (w.act x) todo)
    (hother : s'.proc r.peer = s.proc r.peer) (hw : PairCell.Sound w) (hx : Permits w x) :
    Venture.Move .leader (s.venture n) r ((w.act x).disk.stake w.cfg n) := by
  have hown : s.venture n r = w.disk.stake w.cfg n := by
    unfold venture
    rw [hp]
    rfl
  have hdisk' := (hw.act hx).disk
  have hmono : Filled w.disk n → Filled (w.act x).disk n := fun hf => hf.act hw hx
  have hterms : (w.act x).disk.rowOf n ≠ none →
      ((w.act x).disk.stake w.cfg n).terms ≠ none := by
    intro hrow hnone
    exact hrow (Option.map_eq_none_iff.1 hnone)
  refine ⟨?_, ?_, ?_, ?_, ?_⟩ <;> rw [hown] <;> dsimp only [Disk.stake]
  · obtain hsame | ⟨hnone, row, hrow, hid⟩ := terms_act (n := n) hw hx
    · exact .inl hsame
    · have hfound : (w.act x).disk.rowOf n = some row := by
        rw [← hid]
        exact rowOf_eq_some hdisk'.ids hrow
      refine .inr ⟨by rw [hnone]; rfl, by simp [hfound], fun hr => ?_⟩
      obtain rfl : r = .follower := by cases r <;> simp_all
      have hrow' : row ∈ s'.follower.disk.attempts := by
        have : s'.follower = .up (w.act x) todo := hp'
        rw [this]
        exact hrow
      have hleader := terms_of_leader h' hrow'
      have hkept : s'.leader = s.leader := hother
      rw [hid, hkept] at hleader
      rw [hfound]
      exact hleader.symm
  · obtain hsame | ⟨⟨q, hq⟩, hopen, hrow⟩ := orders_act (n := n) hw hx
    · exact .inl (by rw [hsame])
    · have honce :=
        ((Proc.reach_sendsOnce (reach_side h' r)).2 (.cell n w.cfg.workerId .entry)).1
      rw [hp'] at honce
      have hlength := (entrySends_sublist (w.act x).disk _).length_le.trans honce
      rw [hq, List.length_append, List.length_singleton] at hlength
      refine .inr ⟨by omega, by rw [hq, List.length_append, List.length_singleton]; omega,
        decide_eq_false hopen, ?_⟩
      obtain hsame | ⟨hnone, -⟩ := terms_act (n := n) hw hx
      · exact fun hnone => hrow (Option.map_eq_none_iff.1 (hsame.symm.trans hnone))
      · exact absurd hnone hrow
  · by_cases hold : Filled w.disk n
    · exact .inl (by simp [hold, hmono hold])
    · by_cases hnew : Filled (w.act x).disk n
      · obtain ⟨l, hl, -⟩ := id hnew
        exact .inr ⟨decide_eq_true hnew, hterms (leg_row hdisk' hl)⟩
      · exact .inl (by simp [hold, hnew])
  · obtain hsame | ⟨hnew, hmarks⟩ : (w.act x).disk.active.get n = w.disk.active.get n ∨
        ((w.act x).disk.active.get n).isSome = true ∧
        (Proc.up w (x :: todo)).Marks n := active_act hx
    · exact .inl (by rw [hsame])
    · refine .inr ⟨hnew, fun q => ?_⟩
      have hboth := active_is_filled h r (n := n) (by rw [hp]; exact hmarks)
      obtain rfl | rfl := eq_or_peer q r
      · exact decide_eq_true hboth.1
      · exact decide_eq_true hboth.2
  · by_cases hold : Over w.disk n
    · exact .inl (by simp [hold, hold.act hw hx])
    · by_cases hnew : Over (w.act x).disk n
      · exact .inr ⟨decide_eq_true hnew, hterms (hnew.row hdisk')⟩
      · exact .inl (by simp [hold, hnew])

/-- A step in which a cell carries out an action; every other label is a loss, a retry, a
crash, a restart or the start of a call. -/
def Label.acts : Label → Bool
  | .cell _ (.exec _) _ _ => true
  | _ => false

/-- A step without an action of a cell leaves the venture as it is. -/
theorem venture_still (h : Reach Step anyLabel (init leaderId followerId routeId) s)
    {l : Label} (hstep : Step s l s') (hl : l.acts = false) :
    s'.venture n = s.venture n := by
  have h' : Reach Step anyLabel (init leaderId followerId routeId) s' :=
    .tail l h trivial hstep
  funext r
  have hcfg : (s'.proc r).cfg = (s.proc r).cfg := by
    rw [(reach_joined h').cfg, (reach_joined h).cfg]
  rw [venture, venture, hcfg]
  obtain hsame | ⟨l₀, requestId, ok, rfl, hproc⟩ := hstep.proc r
  · rw [hsame]
  · cases ((reach_joined h).sound r).moves hproc with
    | exec hp hexec hp' hw hx =>
        subst hexec
        cases hl
    | still hdisk _ _ _ => rw [hdisk]

theorem venture_step (h : Reach Step anyLabel (init leaderId followerId routeId) s)
    {l : Label} (hstep : Step s l s') :
    Reach (Venture.Step .leader) (fun _ _ => True) (s.venture n) (s'.venture n) := by
  have h' : Reach Step anyLabel (init leaderId followerId routeId) s' :=
    .tail l h trivial hstep
  have hcfg : ∀ r, (s'.proc r).cfg = (s.proc r).cfg := fun r => by
    rw [(reach_joined h').cfg, (reach_joined h).cfg]
  cases hstep.moves (reach_joined h).sound with
  | still hdisk =>
      have hsame : s'.venture n = s.venture n := by
        funext r
        rw [venture, venture, hdisk, hcfg]
      rw [hsame]
      exact .refl
  | act r w x todo hp hp' hother hw hx =>
      have hupdate : s'.venture n =
          Function.update (s.venture n) r ((w.act x).disk.stake w.cfg n) := by
        funext q
        by_cases hq : q = r
        · subst hq
          rw [Function.update_self, venture, hcfg, hp', hp]
          rfl
        · obtain rfl := (eq_or_peer q r).resolve_left hq
          rw [Function.update_of_ne hq, venture, venture, hother]
      rw [hupdate]
      exact .tail r .refl trivial (.move r _ (venture_move h h' hp hp' hother hw hx))

/--
Every run of the two cells is, for every attempt, a run of a venture that the
leader leads; losses, retries, crashes and restarts leave the venture as it is.
-/
theorem route_refines_venture
    (h : Reach Step anyLabel (init leaderId followerId routeId) s)
    (h' : Reach Step anyLabel s s') (n : Nat) :
    Reach (Venture.Step .leader) (fun _ _ => True) Venture.start (s.venture n) ∧
      Reach (Venture.Step .leader) (fun _ _ => True) (s.venture n) (s'.venture n) ∧
      ∀ l u, Step s l u → l.acts = false → u.venture n = s.venture n := by
  refine ⟨?_, ?_, fun l u hstep hl => venture_still h hstep hl⟩
  · have hinit : (init leaderId followerId routeId).venture n = Venture.start :=
      venture_init
    rw [← hinit]
    exact h.simulate fun t l u ht hstep => venture_step ht hstep
  · exact h'.simulate fun t l u ht hstep => venture_step (h.trans ht) hstep

theorem route_refines_venture_entered : ∃ s, Reach Step anyLabel Sample.both s ∧
    (s.venture 100 .follower).orders = 1 ∧
    Reach (Venture.Step .leader) (fun _ _ => True) Venture.start (s.venture 100) := by
  obtain ⟨s, hrun, hs⟩ := plays_any anyLabel Sample.both Sample.entered
    (fun s => decide ((s.venture 100 .follower).orders = 1)) (by decide +kernel)
  exact ⟨s, hrun, of_decide_eq_true hs, (route_refines_venture hrun .refl 100).1⟩

/-- So the two sides agree on the terms, order once, and are active only with both entries
filled. -/
theorem route_is_fair (h : Reach Step anyLabel (init leaderId followerId routeId) s)
    (n : Nat) :
    Venture.Fair .leader (s.venture n) :=
  Venture.reach_fair (route_refines_venture h .refl n).1

end Route

end PairCell
