import PairCell.Route.Agreement
import PairCell.Route.Probes

/-!
# An attempt that is over stays over

A terminal report rests on a durable fact of the reporting side: a closed leg or
a terminal row.  Neither is ever undone, and under either no entry order of the
attempt is handed to the terminal.
-/

namespace PairCell

open Lib World

variable {w : World} {x : Action} {i : Nat}

/-! ## One side -/

/-- No entry order of the attempt can follow. -/
def Over (d : Disk) (i : Nat) : Prop :=
  (∃ l, d.legs.get i = some l ∧ ClosedLeg l) ∨
    ∃ row ∈ d.attempts, row.attempt.attemptId = i ∧ row.terminal ≠ none

theorem LegStep.closed {a : Attempt} {old l : Leg} (h : LegStep w a old l)
    (hold : ClosedLeg old) :
    ClosedLeg l := by
  obtain hempty | hentry := hold
  · exact .inl (h.empty hempty)
  · obtain hsame | hstep := h.entry
    · rw [← hsame] at hentry
      exact .inr hentry
    · -- a rejected or expired entry takes no further step
      exfalso
      cases hstep with
      | expired hold => simp [hold] at hentry
      | refused hold => simp [hold] at hentry
      | unknown hold => simp [hold] at hentry
      | sent hold => simp [hold] at hentry
      | simulated hold => simp [hold] at hentry
      | absent hold => simp [hold] at hentry
      | observed hold => obtain hold | hold := hold <;> simp [hold] at hentry

theorem LegSync.closed {l d : Leg} (h : LegSync l d) : ClosedLeg l ↔ ClosedLeg d := by
  unfold ClosedLeg
  rw [h.emptyVerified, h.entryStatus]

theorem Over.act (hw : Sound w) (hx : Permits w x) (h : Over w.disk i) :
    Over (w.act x).disk i := by
  obtain ⟨l, hl, hclosed⟩ | ⟨row, hrow, hid, hterm⟩ := h
  · have hmove := act_leg_move hw hx i
    rw [hl] at hmove
    generalize hl' : (w.act x).disk.legs.get i = l'? at hmove
    cases hmove with
    | same => exact .inl ⟨l, hl', hclosed⟩
    | save a old stored l' ha hi hmem hsync hstep =>
        exact .inl ⟨l', hl', hstep.closed (hsync.closed.2 hclosed)⟩
  · refine .inr ?_
    rw [act_attempts]
    cases x with
    | adopt a => exact ⟨row, List.mem_append_left _ hrow, hid, hterm⟩
    | refuse a reason => exact ⟨row, List.mem_append_left _ hrow, hid, hterm⟩
    | terminate reason =>
        exact ⟨_, List.mem_map_of_mem hrow, by rw [terminateRow_attempt]; exact hid,
          terminateRow_terminal hterm⟩
    | _ => exact ⟨row, hrow, hid, hterm⟩

/-- The attempt that is dispatched is not over. -/
theorem Over.not_dispatched (hw : Sound w) (h : Over w.disk i) {p : Payload} :
    ¬EntryDispatch w (.cell i w.cfg.workerId .entry) p := by
  rintro ⟨a, l, ha, hl, he, -, hpending, -, hopen⟩
  obtain rfl : i = a.attemptId := by
    simpa [entryEffectId, Config.effect] using he
  obtain ⟨d, hd, hclosed⟩ | ⟨row, hrow, hid, hterm⟩ := h
  · obtain ⟨d', hd', hsync⟩ := hw.toBooked.stored ha hl
    obtain rfl := Option.some.inj (hd.symm.trans hd')
    obtain hempty | hentry := hsync.closed.2 hclosed
    · rw [hopen] at hempty
      cases hempty
    · rw [hpending] at hentry
      obtain h | h := hentry <;> cases h
  · obtain ⟨live, hlive, heq, hnone⟩ := hw.mem.live a ha
    rw [← heq] at hid
    rw [row_unique hw.disk.ids hrow hlive hid] at hterm
    exact hterm hnone

/-- The entry orders handed to the terminal under one effect id. -/
def Disk.entrySends (d : Disk) (e : EffectId) : List Sent :=
  d.sent.filter fun q => decide (q.effect = e) && q.payload.isEntry

theorem Over.entrySends_act (hw : Sound w) (hx : Permits w x) (h : Over w.disk i) :
    (w.act x).disk.entrySends (.cell i w.cfg.workerId .entry) =
      w.disk.entrySends (.cell i w.cfg.workerId .entry) := by
  unfold Disk.entrySends
  rw [act_sent, List.filter_append]
  cases x with
  | orderSend e p r =>
      have hno : (decide (e = .cell i w.cfg.workerId .entry) && p.isEntry) = false := by
        rw [Bool.and_eq_false_iff]
        by_contra hboth
        push Not at hboth
        obtain ⟨he, hentry⟩ := hboth
        obtain rfl := of_decide_eq_true (Bool.of_not_eq_false he)
        exact h.not_dispatched hw (hx.2.2.1 (Bool.of_not_eq_false hentry))
      simp [hno]
  | _ => simp

/-- Once the attempt is over on a worker, it is over in every later state of the worker. -/
theorem Proc.reach_over {p p' : Proc} (h : Reach Proc.Step anyStep p p') (hs : p.Sound)
    (hover : Over p.disk i) : Over p'.disk i ∧
      p'.disk.entrySends (.cell i p.cfg.workerId .entry) =
        p.disk.entrySends (.cell i p.cfg.workerId .entry) := by
  have hinv := h.invariant (I := fun q => q.Sound ∧ q.cfg = p.cfg ∧ Over q.disk i ∧
    q.disk.entrySends (.cell i p.cfg.workerId .entry) =
      p.disk.entrySends (.cell i p.cfg.workerId .entry)) ⟨hs, rfl, hover, rfl⟩ ?_
  · exact hinv.2.2
  · rintro q l q' ⟨hq, hcfg, hi, hsame⟩ _ hstep
    refine ⟨hq.step hstep, ?_⟩
    cases hq.moves hstep with
    | exec hp hl hp' hw hx =>
        subst hp hp'
        refine ⟨(act_cfg _ _).trans hcfg, hi.act hw hx, Eq.trans ?_ hsame⟩
        rw [← hcfg]
        exact hi.entrySends_act hw hx
    | still hdisk hcfg' _ _ =>
        rw [hdisk, hcfg']
        exact ⟨hcfg, hi, hsame⟩

namespace Route

variable {s s' : Route} {r : Role} {ok : Route → Label → Prop}
    {leaderId followerId routeId : Nat}

/-! ## Terminal reports -/

/-- Terminal reports are true; only the follower says that it has no record. -/
structure Reported (r : Role) (own : Disk) : Prop where
  ended : ∀ p, .legStatus p ∈ own.relayed → p.status ∈ peerTerminalStatuses →
    p.status ≠ .noAttemptRecord → Over own p.attemptId
  record : r = .leader → ∀ p, .legStatus p ∈ own.relayed → p.status ≠ .noAttemptRecord

/-- The follower is never sent two contents under one id. -/
theorem not_reused (h : Reach Step ok (init leaderId followerId routeId) s)
    {todo : List Action} (hp : s.proc r = .up w todo) {a : Attempt} {row : AttemptRow}
    (hasked : w.script.delivered = some (.attempt a))
    (hrow : w.disk.rowOf a.attemptId = some row) :
    row.attempt = a := by
  have hjoined := reach_joined h
  have hcopied := reach_copied h r
  have hpeer := reach_copied h r.peer
  have hsent := hjoined.delivered hp hasked fun _ hk => nomatch hk
  obtain ⟨hrole, row', hrow', rfl⟩ := hpeer.relayed a hsent
  have hfollower : r = .follower := by
    cases r with
    | leader => cases hrole
    | follower => rfl
  obtain ⟨hmem, hid⟩ := rowOf_mem hrow
  rw [hp] at hcopied
  obtain ⟨-, row'', hrow'', heq⟩ := hpeer.relayed _ (hcopied.rows hfollower row hmem)
  rw [← heq] at hid ⊢
  rw [row_unique (hjoined.sound r.peer).diskSound.ids hrow'' hrow' hid]

theorem terminal_ground (h : Reach Step ok (init leaderId followerId routeId) s)
    {todo : List Action} (hp : s.proc r = .up w todo) (hw : PairCell.Sound w)
    {p : LegStatus} (hground : ReportGround w p) (hne : p.status ≠ .noAttemptRecord) :
    Over w.disk p.attemptId := by
  cases hground with
  | leg a l ha hid hl hclosed _ =>
      obtain ⟨d, hd, hsync⟩ := hw.toBooked.stored ha hl
      rw [← hid]
      exact .inl ⟨d, hd, hsync.closed.1 hclosed⟩
  | terminal row hrow hterm _ =>
      obtain ⟨hmem, hid⟩ := rowOf_mem hrow
      exact .inr ⟨row, hmem, hid, hterm⟩
  | noRecord _ _ hstatus => exact absurd hstatus hne
  | reused a row hasked hid hrow hdiffers _ =>
      rw [← hid] at hrow
      exact absurd (not_reused h hp hasked hrow) hdiffers

/-- Whoever asks for the status of an attempt has a row of it, and so has the leader. -/
theorem leader_has_record (h : Reach Step ok (init leaderId followerId routeId) s)
    (hasked : .legStatusRequest i ∈ s.follower.disk.relayed) :
    s.leader.disk.rowOf i ≠ none := by
  intro hnone
  have hjoined := reach_joined h
  obtain ⟨l, hl, -⟩ := (hjoined.history .follower).asked i hasked
  obtain ⟨-, row, hrow, hid⟩ := (hjoined.sound .follower).diskSound.legs i l hl
  have hsent := (reach_copied h .follower).rows rfl row hrow
  obtain ⟨-, row', hrow', heq⟩ := (reach_copied h .leader).relayed _ hsent
  exact rowOf_eq_none.1 hnone row' hrow' (by rw [heq, hid])

theorem reach_reported (h : Reach Step ok (init leaderId followerId routeId) s)
    (r : Role) :
    Reported r (s.proc r).disk := by
  refine reach_both (P := fun r own _ => Reported r own) h ?_ ?_ r
  · exact fun r => ⟨fun p hp => (nomatch hp), fun _ p hp => nomatch hp⟩
  · intro t r w x todo ht hp hw hx ih
    have hown := ih r
    rw [hp] at hown
    refine ⟨⟨?_, ?_⟩, ih r.peer⟩
    · intro p hsent hterm hne
      obtain hold | rfl := relayed_act hsent
      · exact (hown.ended p hold hterm hne).act hw hx
      · exact (terminal_ground ht hp hw (hx.1 hterm) hne).act hw hx
    · intro hr p hsent hstatus
      obtain hold | rfl := relayed_act hsent
      · exact hown.record hr p hold hstatus
      · subst hr
        obtain ⟨hrow, hasked⟩ := no_record_ground hx hstatus
        have hleader : t.leader.disk = w.disk := congrArg Proc.disk hp
        have hrequest := (reach_joined ht).delivered hp hasked fun _ hk => nomatch hk
        exact leader_has_record ht hrequest (by rw [hleader]; exact hrow)

/--
Once a cell has reported an attempt as rejected, expired or empty, no entry order
of the attempt is handed to its terminal any more, whatever is lost, overtaken or
restarted.  An attempt whose id the receiving cell has a row of has the content
of that row, so none is rejected for a reused id.
-/
theorem terminal_report_is_final
    (h : Reach Step anyLabel (init leaderId followerId routeId) s) (r : Role) :
    (∀ p, .legStatus p ∈ (s.proc r).disk.relayed → p.status ∈ peerTerminalStatuses →
      p.status ≠ .noAttemptRecord → ∀ s', Reach Step anyLabel s s' →
        (s'.proc r).disk.entrySends (.cell p.attemptId (s.proc r).cfg.workerId .entry) =
          (s.proc r).disk.entrySends (.cell p.attemptId (s.proc r).cfg.workerId .entry)) ∧
    ∀ w todo a row, s.proc r = .up w todo → w.script.delivered = some (.attempt a) →
      w.disk.rowOf a.attemptId = some row → row.attempt = a := by
  refine ⟨?_, fun w todo a row hp hasked hrow => not_reused h hp hasked hrow⟩
  intro p hsent hterm hne s' h'
  have hover := (reach_reported h r).ended p hsent hterm hne
  exact (Proc.reach_over (reach_proc h' r) ((reach_joined h).sound r) hover).2

namespace Sample

/-- A rejection of the attempt 100. -/
def refusal : Message → Bool
  | .legStatus p => decide (p.attemptId = 100 ∧ p.status = .rejected)
  | _ => false

end Sample

theorem terminal_report_is_final_decided : ∃ s, Reach Step anyLabel Sample.both s ∧
    ∀ s', Reach Step anyLabel s s' → s'.leader.disk.entrySends (.cell 100 1 .entry) =
      s.leader.disk.entrySends (.cell 100 1 .entry) := by
  obtain ⟨s, hrun, hs⟩ := plays_any anyLabel Sample.both
    (Sample.ready .leader ++ Sample.ready .follower ++ Sample.decided true)
    (fun s => s.leader.disk.relayed.any Sample.refusal) (by decide +kernel)
  obtain ⟨m, hm, hrefusal⟩ := List.any_eq_true.1 hs
  unfold Sample.refusal at hrefusal
  split at hrefusal
  · next p =>
    obtain ⟨hid, hstatus⟩ := of_decide_eq_true hrefusal
    have hcfg := (reach_joined hrun).cfg .leader
    refine ⟨s, hrun, fun s' h' => ?_⟩
    have hfinal := (terminal_report_is_final hrun .leader).1 p hm
      (by rw [hstatus]; decide) (by rw [hstatus]; decide) s' h'
    rw [hid, hcfg] at hfinal
    exact hfinal
  · cases hrefusal

/-! ## Finalised attempts -/

/-- The leader's leg is verified empty and the attempt was never sent. -/
structure Withheld (d : Disk) (i : Nat) : Prop where
  leg : ∃ l, d.legs.get i = some l ∧ l.emptyVerified = true
  unsent : ∀ a, .attempt a ∈ d.relayed → a.attemptId ≠ i

theorem Withheld.act (hw : PairCell.Sound w) (hx : Permits w x) (h : Withheld w.disk i) :
    Withheld (w.act x).disk i := by
  obtain ⟨⟨l, hl, hempty⟩, hunsent⟩ := h
  obtain ⟨l', hl', hkeeps⟩ := act_leg_keeps hw hx hl
  refine ⟨⟨l', hl', hkeeps.empty hempty⟩, ?_⟩
  rintro a ha rfl
  obtain hold | rfl := relayed_act ha
  · exact hunsent a hold rfl
  · obtain ⟨-, hattempt, leg, hleg, -, -, hopen⟩ := hx
    obtain ⟨d, hd, hsync⟩ := hw.toBooked.stored hattempt hleg
    obtain rfl := Option.some.inj (hl.symm.trans hd)
    rw [hsync.emptyVerified, hempty] at hopen
    cases hopen

theorem Withheld.reach {p p' : Proc} (h : Reach Proc.Step anyStep p p') (hs : p.Sound)
    (hwithheld : Withheld p.disk i) : Withheld p'.disk i := by
  refine (h.invariant (I := fun q => q.Sound ∧ Withheld q.disk i) ⟨hs, hwithheld⟩ ?_).2
  rintro q l q' ⟨hq, hi⟩ _ hstep
  refine ⟨hq.step hstep, ?_⟩
  cases hq.moves hstep with
  | exec hp hl hp' hw hx =>
      subst hp hp'
      exact hi.act hw hx
  | still hdisk _ _ _ => rwa [hdisk]

/-- Of an attempt the leader has not sent, the follower has no row. -/
theorem Withheld.no_row (h : Reach Step ok (init leaderId followerId routeId) s)
    (hwithheld : Withheld s.leader.disk i) : s.follower.disk.rowOf i = none := by
  refine rowOf_eq_none.2 fun row hrow => ?_
  exact hwithheld.unsent _ ((reach_copied h .follower).rows rfl row hrow)

theorem entrySends_nil {c : Config} {d : Disk} (hd : DiskSound c d)
    (hrow : d.rowOf i = none) :
    d.entrySends (.cell i c.workerId .entry) = [] := by
  refine List.filter_eq_nil_iff.2 fun q hq hsent => ?_
  obtain ⟨heffect, hentry⟩ := Bool.and_eq_true_iff.1 hsent
  exact unsent_of_row hd hrow ⟨q, hq, of_decide_eq_true heffect, hentry⟩

/-- Why no entry order of the attempt can follow on the peer of the side
that terminates it. -/
inductive PeerOver (s : Route) (r : Role) (i : Nat) : Prop where
  | ended (h : Over (s.proc r.peer).disk i)
  | withheld (hr : r = .leader) (h : Withheld s.leader.disk i)
  | denied (hr : r = .leader) (p : LegStatus)
      (hsent : .legStatus p ∈ (s.wire .follower).sends)
      (hid : p.attemptId = i) (hstatus : p.status = .noAttemptRecord)

theorem peer_over (h : Reach Step ok (init leaderId followerId routeId) s)
    {todo : List Action} (hp : s.proc r = .up w todo) (hw : PairCell.Sound w)
    {a : Attempt} {l : Leg} (ha : w.mem.attempt = some a) (hl : w.mem.leg = some l)
    (hempty : l.emptyVerified = true) (hproof : PeerProof w l) :
    PeerOver s r a.attemptId := by
  have hjoined := reach_joined h
  have hrole := hjoined.roleOf hp
  obtain hterm | ⟨-, hleader, hunsent⟩ := hproof
  · obtain hunknown | ⟨p, harrived, hid, hstatus⟩ := (hjoined.heardIn hp).held a ha
    · rw [hunknown] at hterm
      exact absurd hterm (by decide)
    · have hsent := hjoined.arrived harrived fun _ hk => nomatch hk
      by_cases hnone : p.status = .noAttemptRecord
      · cases r with
        | leader =>
            exact .denied rfl p
              (arrived_genuine (hjoined.genuine .follower) harrived) hid hnone
        | follower => exact absurd hnone ((reach_reported h .leader).record rfl p hsent)
      · refine .ended ?_
        rw [← hid]
        exact (reach_reported h r.peer).ended p hsent (by rw [hstatus]; exact hterm) hnone
  · obtain rfl : r = .leader := hrole.symm.trans hleader
    obtain ⟨d, hd, hsync⟩ := hw.toBooked.stored ha hl
    have hdisk : s.leader.disk = w.disk := congrArg Proc.disk hp
    refine .withheld rfl ⟨⟨d, ?_, ?_⟩, ?_⟩
    · rw [hdisk]
      exact hd
    · rw [← hsync.emptyVerified]
      exact hempty
    · rintro b hb hid
      obtain ⟨l', hl', hrelayed⟩ := (hjoined.history .leader).relayed b hb
      rw [hid, show (s.proc .leader).disk = w.disk from hdisk] at hl'
      obtain rfl := Option.some.inj (hd.symm.trans hl')
      rw [← hsync.attemptRelayed, hunsent] at hrelayed
      cases hrelayed

/--
When no envelope overtakes another, an attempt that either cell terminates with
both legs verified empty is over on both: neither terminal is handed an entry
order of it any more.
-/
theorem finalised_attempt_is_over
    (h : Reach Step Queued (init leaderId followerId routeId) s) {todo : List Action}
    (hp : s.proc r = .up w (.terminate .bothEmptyVerified :: todo)) {a : Attempt}
    (ha : w.mem.attempt = some a) (h' : Reach Step Queued s s') (side : Role) :
    (s'.proc side).disk.entrySends (.cell a.attemptId (s.proc side).cfg.workerId .entry) =
      (s.proc side).disk.entrySends
      (.cell a.attemptId (s.proc side).cfg.workerId .entry) := by
  have hjoined := reach_joined h
  have hjoined' := reach_joined (h.trans h')
  obtain ⟨hw, a', l, ha', hl, hempty, hproof⟩ : PairCell.Sound w ∧
      ∃ a l, w.mem.attempt = some a ∧
      w.mem.leg = some l ∧ l.emptyVerified = true ∧ PeerProof w l := by
    have hsound := hjoined.sound r
    rw [hp] at hsound
    cases hsound with
    | up hw htodo _ => exact ⟨hw, htodo.1.2⟩
  obtain rfl := Option.some.inj (ha.symm.trans ha')
  have hover : ∀ q, Over (s.proc q).disk a.attemptId →
      (s'.proc q).disk.entrySends (.cell a.attemptId (s.proc q).cfg.workerId .entry) =
        (s.proc q).disk.entrySends (.cell a.attemptId (s.proc q).cfg.workerId .entry) :=
    fun q hq => (Proc.reach_over (reach_proc h' q) (hjoined.sound q) hq).2
  have hnone : s.follower.disk.rowOf a.attemptId = none →
      s'.follower.disk.rowOf a.attemptId = none →
      (s'.proc .follower).disk.entrySends
          (.cell a.attemptId (s.proc .follower).cfg.workerId .entry) =
        (s.proc .follower).disk.entrySends
          (.cell a.attemptId (s.proc .follower).cfg.workerId .entry) := by
    intro hrow hrow'
    have hd := entrySends_nil (hjoined.sound .follower).diskSound hrow
    have hd' := entrySends_nil (hjoined'.sound .follower).diskSound hrow'
    rw [hjoined'.cfg, ← hjoined.cfg] at hd'
    exact hd'.trans hd.symm
  obtain rfl | rfl := eq_or_peer side r
  · refine hover side (.inl ?_)
    obtain ⟨d, hd, hsync⟩ := hw.toBooked.stored ha hl
    rw [hp]
    exact ⟨d, hd, hsync.closed.1 (.inl hempty)⟩
  · cases peer_over h hp hw ha hl hempty hproof with
    | ended h => exact hover _ h
    | withheld hr hwithheld =>
        subst hr
        exact hnone (hwithheld.no_row h) <|
          (Withheld.reach (reach_proc h' .leader) (hjoined.sound .leader) hwithheld).no_row
            (h.trans h')
    | denied hr p hsent hid hstatus =>
        subst hr
        have hdenied := (reach_timely h).truthful p hsent hstatus
        have hdenied' :=
          (reach_timely (h.trans h')).truthful p (reach_sends h' _ hsent) hstatus
        rw [hid] at hdenied hdenied'
        exact hnone hdenied.row hdenied'.row

theorem finalised_attempt_is_over_lost : ∃ s, Reach Step Queued Sample.both s ∧
    Sample.finalising s = true ∧ ∀ s', Reach Step Queued s s' →
      s'.follower.disk.entrySends (.cell 100 2 .entry) =
        s.follower.disk.entrySends (.cell 100 2 .entry) := by
  obtain ⟨s, hrun, hs⟩ := plays_any Queued Sample.both Sample.lost Sample.finalising
    (by decide +kernel)
  obtain ⟨w, todo, hleader, ha, -⟩ := Sample.finalising_up hs
  have hcfg := (reach_joined hrun).cfg .follower
  refine ⟨s, hrun, hs, fun s' h' => ?_⟩
  have hover := finalised_attempt_is_over (r := .leader) hrun hleader ha h' .follower
  rw [hcfg] at hover
  exact hover

end Route

end PairCell
