import PairCell.Reopen
import PairCell.SendOnce
import PairCell.Stored

/-!
# Crashes around the entry

Whatever the process was doing when it died, the journal and the leg row decide
together: an entry called never started was never handed to the terminal, and
one that may have been handed over is unknown until the broker is read.
-/

namespace PairCell

open Lib World

variable {c : Config} {d : Disk} {w : World}

/-! ## The verdict of recovery -/

/-- The attempt is recorded as one whose entry never started. -/
def NeverStarted (d : Disk) (r : AttemptRow) : Prop :=
  r.terminal = some .noLocalEffectWasEverPrepared ∨
    ∃ l, d.legs.get r.attempt.attemptId = some l ∧ l.entryStatus = .expiredNotStarted

theorem History.neverStarted (h : History c d) (hd : DiskSound c d) {r : AttemptRow}
    (hr : r ∈ d.attempts) (hnever : NeverStarted d r) :
    ¬ d.entrySent (entryEffectId c r.attempt) := by
  rcases hnever with hterm | ⟨l, hl, hexp⟩
  · rintro ⟨s, hs, he, hentry⟩
    obtain ⟨i, l, hl, -, he'⟩ := hd.sent s hs hentry
    simp only [he, entryEffectId, Config.effect, EffectId.cell.injEq] at he'
    rw [← he'.1, h.noLocal r hr hterm] at hl
    cases hl
  · exact h.expired _ l hl hexp

/-- The entry status a started entry has once recovery has looked at the journal. -/
def statusAfterCrash : EntryStatus → EntryStatus
  | .pending => .unknownAfterSend
  | status => status

theorem statusAfterCrash_ne_pending (status : EntryStatus) :
    statusAfterCrash status ≠ .pending := by
  cases status <;> simp [statusAfterCrash]

/-- Every change of the entry status that `p` can make next rests on a broker snapshot. -/
def SnapshotOnly (p : Proc) (a : Attempt) : Prop :=
  ∀ lab p', Proc.Step p lab p' → ∀ l l', p.disk.legs.get a.attemptId = some l →
    p'.disk.legs.get a.attemptId = some l' → l'.entryStatus ≠ l.entryStatus →
    ∃ w todo s, p = .up w (.saveLeg l' :: todo) ∧ w.mem.read = some s ∧
      (attemptMatches a p.cfg.role s = [] ∧ l'.entryStatus = .rejected ∨
        ∃ q, attemptMatches a p.cfg.role s = [q] ∧ l'.entryStatus = .filled)

/--
The cell can be constructed over `d`, and `recover` first gives the leg `l` of a
started entry its verdict.  From there on only a snapshot changes the verdict
and no entry order of the attempt is sent.
-/
def Recovers (c : Config) (d : Disk) (a : Attempt) (l : Leg) : Prop :=
  ∃ w, load c d = some w ∧ ∀ script : Script, script.Fresh d →
    ∃ t u, (Call.recover.run (w.given .recover script)).2 = t ++ u ∧
      let w' := after (w.given .recover script) t
      (∃ l', w'.disk.legs.get a.attemptId = some l' ∧
        l'.entryStatus = statusAfterCrash l.entryStatus) ∧
      ∀ p, Reach Proc.Step anyStep (.up w' u) p → SnapshotOnly p a ∧
        ∀ s ∈ p.disk.sent, s.effect = entryEffectId c a →
          s.payload.isEntry = true → s ∈ d.sent

/-! ## After the verdict -/

/-- The attempt `a` has its verdict, and `sent` holds the entry orders made for it. -/
structure Judged (c : Config) (a : Attempt) (sent : List Sent) (p : Proc) : Prop where
  sound : p.Sound
  cfg : p.cfg = c
  row : ∃ r ∈ p.disk.attempts, r.attempt = a
  leg : ∃ l, p.disk.legs.get a.attemptId = some l ∧ l.entryStatus ≠ .pending
  orders : ∀ s ∈ p.disk.sent, s.effect = entryEffectId c a →
      s.payload.isEntry = true → s ∈ sent

theorem Judged.act {a : Attempt} {sent : List Sent} {x : Action} {todo : List Action}
    (h : Judged c a sent (.up w (x :: todo))) (hs : Sound w) (hp : Permits w x)
    (hs' : (Proc.up (w.act x) todo).Sound) : Judged c a sent (.up (w.act x) todo) where
  sound := hs'
  cfg := (act_cfg w x).trans h.cfg
  row := act_row_stays x h.row
  leg := by
    obtain ⟨l, hl, hne⟩ := h.leg
    obtain ⟨l', hl', hkeeps⟩ := act_leg_keeps hs hp hl
    exact ⟨l', hl', hkeeps.pending hne⟩
  orders := by
    intro s hmem he hentry
    have hc : w.cfg = c := h.cfg
    simp only [Proc.disk, act_sent] at hmem
    rcases List.mem_append.1 hmem with hold | hnew
    · exact h.orders s hold he hentry
    · cases x with
      | orderSend e p r =>
          -- an entry order needs a pending leg
          obtain rfl := List.mem_singleton.1 hnew
          obtain rfl : e = entryEffectId c a := he
          obtain ⟨l, hl, hne⟩ := h.leg
          rw [← hc] at hp
          obtain ⟨l', hl', hpending⟩ := entryDispatch_stored hs (hp.2.2.1 hentry)
          obtain rfl := Option.some.inj (hl.symm.trans hl')
          exact absurd hpending hne
      | _ => simp at hnew

theorem Judged.step {a : Attempt} {sent : List Sent} {p p' : Proc} {lab : Label}
    (h : Judged c a sent p) (hstep : Proc.Step p lab p') : Judged c a sent p' := by
  have hs' := h.sound.step hstep
  cases h.sound.moves hstep with
  | exec hp hl hp' hsound hperm =>
      subst hp hl hp'
      exact h.act hsound hperm hs'
  | still hdisk hcfg _ _ =>
      exact ⟨hs', hcfg.trans h.cfg, hdisk ▸ h.row, hdisk ▸ h.leg, hdisk ▸ h.orders⟩

theorem Judged.snapshotOnly {a : Attempt} {sent : List Sent} {p : Proc}
    (h : Judged c a sent p) :
    SnapshotOnly p a := by
  intro lab p' hstep l l' hl hl' hne
  cases h.sound.moves hstep with
  | still hdisk _ _ _ =>
      rw [hdisk, hl] at hl'
      exact absurd (Option.some.inj hl' ▸ rfl) hne
  | exec hp hlab hp' hsound hperm =>
      subst hp hlab hp'
      rename_i w x todo
      have hmove := act_leg_move hsound hperm a.attemptId
      rw [show w.disk.legs.get _ = _ from hl,
        show (w.act x).disk.legs.get _ = _ from hl'] at hmove
      cases hmove with
      | same => exact absurd rfl hne
      | save b old _ _ hb hid hleg hsync hlegstep =>
          obtain ⟨stored, hstored, hpending⟩ := h.leg
          obtain rfl := Option.some.inj (hl.symm.trans hstored)
          -- the attempt followed is the one judged
          obtain ⟨r, hr, rfl⟩ := h.row
          obtain ⟨q, hq, rfl, -⟩ := hsound.mem.live b hb
          have hrow : q = r := row_unique hsound.disk.ids hq hr hid
          subst hrow
          have hrole : old.role = w.cfg.role := by
            obtain ⟨_, _, hok⟩ := hsound.mem.leg old hleg
            exact hok.role
          rw [← hsync.entryStatus] at hne hpending
          rcases hlegstep.entry with hsame | hchange
          · exact absurd hsame hne
          · cases hchange with
            | expired hold _ _ => exact absurd hold hpending
            | refused hold _ _ => exact absurd hold hpending
            | unknown hold _ => exact absurd hold hpending
            | sent hold _ => exact absurd hold hpending
            | simulated hold _ _ => exact absurd hold hpending
            | absent _ hnew s hread hnone =>
                rw [hrole] at hnone
                exact ⟨w, todo, s, rfl, hread, .inl ⟨hnone, hnew⟩⟩
            | observed _ hnew s pos hread hone =>
                rw [hrole] at hone
                exact ⟨w, todo, s, rfl, hread, .inr ⟨pos, hone, hnew⟩⟩

theorem Judged.reach {a : Attempt} {sent : List Sent} {p p' : Proc} (h : Judged c a sent p)
    (hreach : Reach Proc.Step anyStep p p') : Judged c a sent p' :=
  hreach.invariant h fun _ _ _ hi _ hstep => hi.step hstep

/-! ## Recovery of a started entry -/

theorem exec_reach (w : World) (t u : List Action) :
    Reach Proc.Step anyStep (.up w (t ++ u)) (.up (after w t) u) := by
  induction t generalizing w with
  | nil => exact .refl
  | cons x t ih =>
      exact (Reach.tail (.exec x) .refl trivial (.exec x (t ++ u))).trans (ih (w.act x))

/-- `recover` begins with the verdict on the entry. -/
theorem recover_begins {a : Attempt} {l : Leg} (ha : w.mem.attempt = some a)
    (hl : w.mem.leg = some l) :
    ∃ u, (recover w).2 = .setRecovering true ::
      ((reconcileEntryEffectState (w.act (.setRecovering true))).2 ++ u) := by
  have hattempt : ∃ u, (recoverAttempt (w.act (.setRecovering true))).2 =
      (reconcileEntryEffectState (w.act (.setRecovering true))).2 ++ u := by
    have ha' : (w.act (.setRecovering true)).mem.attempt = some a := ha
    have hl' : (w.act (.setRecovering true)).mem.leg = some l := hl
    simp only [recoverAttempt, get_bind_run, ha', hl']
    exact bind_emits _ _ _
  obtain ⟨u, hu⟩ := hattempt
  obtain ⟨v, hv⟩ := bind_emits (m := recoverAttempt) (fun _ => do
    note "recovered"
    emit (.setRecovering false)
    recoverStops
    readAndProgress) (w.act (.setRecovering true))
  refine ⟨u ++ v, ?_⟩
  rw [← List.append_assoc, ← hu, ← hv]
  rfl

/-- The leg of an entry that may have been sent. -/
def Leg.mayHaveSent (l : Leg) : Leg :=
  { l with entryStatus := .unknownAfterSend, entryDispatched := true }

theorem reconcile_started {l : Leg} {e : EffectId} (hl : w.mem.leg = some l)
    (he : l.entryEffectId = some e) (hstarted : StartedAt w.disk e) :
    (reconcileEntryEffectState w).2 =
      if l.entryStatus = .pending then
        [.saveLeg l.mayHaveSent, .bump, .transition (.note "entry_effect_may_have_sent")]
      else [] := by
  obtain ⟨r, hr, hst⟩ := hstarted
  simp only [reconcileEntryEffectState, get_bind_run, hl, he]
  cases hstatus : l.entryStatus with
  | pending =>
      simp only [hr, if_true]
      cases hrow : r.state with
      | prepared => exact absurd hrow hst
      | _ => rfl
  | _ => rfl

/-- The state in which the verdict is stored. -/
theorem after_reconcile {a : Attempt} {l : Leg} {e : EffectId}
    (ha : w.mem.attempt = some a) (hl : w.mem.leg = some l)
    (hstored : w.disk.legs.get a.attemptId = some l) (he : l.entryEffectId = some e)
    (hstarted : StartedAt w.disk e) :
    let w' := after w (reconcileEntryEffectState w).2
    (∃ l', w'.disk.legs.get a.attemptId = some l' ∧
      l'.entryStatus = statusAfterCrash l.entryStatus) ∧
      w'.cfg = w.cfg ∧ w'.disk.attempts = w.disk.attempts ∧
      w'.disk.sent = w.disk.sent := by
  rw [reconcile_started hl he hstarted]
  split
  · next hpending =>
      refine ⟨⟨l.mayHaveSent, ?_, ?_⟩, rfl, rfl, rfl⟩
      · show (w.act (.saveLeg l.mayHaveSent)).disk.legs.get a.attemptId = _
        rw [act_legs]
        simp only [ha, Table.get_set_self]
      · rw [hpending]
        rfl
  · next hpending =>
      refine ⟨⟨l, hstored, ?_⟩, rfl, rfl, rfl⟩
      cases hstatus : l.entryStatus with
      | pending => exact absurd hstatus hpending
      | _ => rfl

theorem recover_judges {r : AttemptRow} {l : Leg} (hn : LiveNewest c d) (ho : OwnRows c d)
    (hs : (Proc.down c d).Sound) (hr : r ∈ d.attempts) (hlive : Live c r)
    (hl : d.legs.get r.attempt.attemptId = some l)
    (hstarted : StartedAt d (entryEffectId c r.attempt)) : Recovers c d r.attempt l := by
  have hd : DiskSound c d := hs.diskSound
  have hload : load c d =
      some { cfg := c, disk := d,
             mem := loadAttempt d r.attempt (ownPeer d r.attempt) } := by
    rw [load_eq hd, hn.loaded hr hlive]
    simp only [loadPeer_own (ho.peer r hr hlive), Option.map_some]
  refine ⟨_, hload, fun script hfresh => ?_⟩
  generalize hw : World.given _ .recover script = w
  have hdisk : w.disk = d := by rw [← hw]; rfl
  have ha : w.mem.attempt = some r.attempt := by rw [← hw]; rfl
  have hleg : w.mem.leg = some l := by rw [← hw]; exact hl
  have hcfg : w.cfg = c := by rw [← hw]; rfl
  obtain ⟨u, hrun⟩ := recover_begins ha hleg
  obtain ⟨⟨l', hl', hstatus⟩, hcfg', hattempts, hsent⟩ :=
    after_reconcile (w := w.act (.setRecovering true)) ha hleg
      (hdisk ▸ hl) (hd.legs _ l hl).1.entryEffectId (hdisk ▸ hstarted)
  refine ⟨.setRecovering true :: _, u, hrun, ⟨l', hl', hstatus⟩, fun p hreach => ?_⟩
  have hrestart : Reach Proc.Step anyStep (.down c d) (.up w (recover w).2) := by
    refine .tail (.begin .recover script)
      (.tail .reopen .refl trivial (.reopen hload)) trivial ?_
    rw [← hw]
    exact .begin .recover script hfresh
  rw [hrun] at hrestart
  have hverdict := hrestart.trans (exec_reach w (.setRecovering true :: _) u)
  have hjudged : Judged c r.attempt d.sent _ :=
    { sound := hverdict.invariant hs fun _ _ _ h _ hstep => h.step hstep
      cfg := hcfg'.trans hcfg
      row := ⟨r, by rw [Proc.disk, after_cons]; exact hattempts ▸ hdisk ▸ hr, rfl⟩
      leg := ⟨l', hl', by rw [hstatus]; exact statusAfterCrash_ne_pending _⟩
      orders := fun s hmem _ _ => by
        rw [Proc.disk, after_cons] at hmem
        exact hdisk ▸ hsent ▸ hmem }
  have hp := hjudged.reach hreach
  exact ⟨hp.snapshotOnly, hp.orders⟩

/-! ## Every crash -/

/-- A leader gives up an attempt without the peer's word only if it never left. -/
theorem History.unproved {a : Attempt} {reason : TerminalReason} (h : History w.cfg w.disk)
    (hs : Sound w) (hp : Permits w (.terminate reason)) (ha : w.mem.attempt = some a)
    (hpeer : w.mem.peerLeg.status ∉ peerTerminalStatuses) :
    ∀ b, b.attemptId = a.attemptId → .attempt b ∉ w.disk.relayed := by
  intro b hid hrelayed
  obtain ⟨stored, hstored, hsent⟩ := h.relayed b hrelayed
  rw [hid] at hstored
  cases reason with
  | bothEmptyVerified =>
      obtain ⟨-, a', l, ha', hl, -, hproof⟩ := hp
      rcases hproof with hterm | ⟨-, -, hkept⟩
      · exact hpeer hterm
      · obtain rfl := Option.some.inj (ha.symm.trans ha')
        obtain ⟨d, hd, hsync⟩ := hs.toBooked.stored ha hl
        obtain rfl := Option.some.inj (hstored.symm.trans hd)
        rw [← hsync.attemptRelayed, hkept] at hsent
        cases hsent
  | noLocalEffectWasEverPrepared =>
      rw [hs.toBooked.leg_row ha hp.2.2] at hstored
      cases hstored
  | admissionRejected text => exact hp

/--
In every run without such an obstruction: an entry recorded as never started was
never sent; over the database of a dead process the cell can be constructed, and
the leg of a started entry becomes unknown, or keeps a later status, until a
snapshot decides; an attempt is given up without a terminal status of the peer
only if its envelope never reached the relay; and no entry is sent twice.
-/
theorem entry_crash_consistency (c : Config) (p : Proc)
    (h : Reach Proc.Step Unobstructed (.init c) p) :
    (∀ r ∈ p.disk.attempts, NeverStarted p.disk r →
      ¬ p.disk.entrySent (entryEffectId c r.attempt)) ∧
    (∀ d, p = .down c d → ∀ r ∈ d.attempts, Live c r →
      ∀ l, d.legs.get r.attempt.attemptId = some l →
        StartedAt d (entryEffectId c r.attempt) → Recovers c d r.attempt l) ∧
    (∀ w reason todo, p = .up w (.terminate reason :: todo) →
      ∀ a, w.mem.attempt = some a → w.mem.peerLeg.status ∉ peerTerminalStatuses →
        ∀ b, b.attemptId = a.attemptId → .attempt b ∉ w.disk.relayed) ∧
    ∀ a, (p.disk.sends (entryEffectId c a)).length ≤ 1 := by
  obtain ⟨⟨hn, ho⟩, hcfg, hs⟩ := reach_ownRows h
  obtain ⟨hist, -, -⟩ := reach_history h
  have honce := (Proc.reach_sendsOnce (h.mono fun _ _ _ => trivial)).2
  refine ⟨fun r hr hnever => hist.neverStarted (hcfg ▸ hs.diskSound) hr hnever, ?_, ?_,
    fun a => (honce _).1⟩
  · rintro d rfl r hr hlive l hl hstarted
    exact recover_judges hn ho hs hr hlive hl hstarted
  · rintro w reason todo rfl a ha hpeer
    obtain rfl : w.cfg = c := hcfg
    cases hs with
    | up hsound htodo _ => exact hist.unproved hsound htodo.1 ha hpeer

/-- The process died after the entry order of an unresolved attempt,
before its leg showed it. -/
def Proc.diedSending (c : Config) (a : Attempt) : Proc → Bool
  | .down c' d =>
      decide (c' = c) && decide (∃ r ∈ d.attempts, Live c r ∧ r.attempt = a) &&
        (d.legs.get a.attemptId).any (fun l => decide (l.entryStatus = .pending)) &&
        decide (d.wasSent (entryEffectId c a))
  | .up _ _ => false

theorem Proc.Sound.diedSending {p : Proc} {a : Attempt} (hs : p.Sound)
    (h : p.diedSending c a = true) :
    ∃ d r l, p = .down c d ∧ r ∈ d.attempts ∧ Live c r ∧ r.attempt = a ∧
      d.legs.get a.attemptId = some l ∧ l.entryStatus = .pending ∧
      StartedAt d (entryEffectId c a) := by
  cases hs with
  | up _ _ _ => cases h
  | down hd hj =>
      simp only [Proc.diedSending, Bool.and_eq_true, decide_eq_true_eq,
        Option.any_eq_true] at h
      obtain ⟨⟨⟨rfl, r, hr, hlive, ha⟩, l, hl, hpending⟩, s, hsent, he⟩ := h
      exact ⟨_, r, l, rfl, hr, hlive, ha, hl, hpending, he ▸ hj.sent s hsent⟩

/-- A leader that dies between its order and the leg row recovers. -/
theorem entry_crash_after_order :
    ∃ d l, Reach Proc.Step Unobstructed (.init Sample.leader) (.down Sample.leader d) ∧
      l.entryStatus = .pending ∧ d.wasSent (.cell 100 1 .entry) ∧
      Recovers Sample.leader d (Sample.attempt 100) l := by
  obtain ⟨p, hreach, hp⟩ := Proc.play_any Unobstructed (.init Sample.leader)
    (Sample.ready ++ [.call (.event (.readinessFacts 2 Sample.emptyFacts))
      { decision := some (Sample.attempt 100), depth := 5 }, .next 28, .crash])
    (fun p => p.diedSending Sample.leader (Sample.attempt 100) &&
      decide (p.disk.wasSent (.cell 100 1 .entry))) (by decide +kernel)
  rw [Bool.and_eq_true] at hp
  obtain ⟨d, r, l, rfl, hr, hlive, ha, hl, hpending, hstarted⟩ :=
    (reach_ownRows hreach).2.2.diedSending hp.1
  refine ⟨d, l, hreach, hpending, of_decide_eq_true hp.2, ?_⟩
  rw [← ha] at hl hstarted ⊢
  exact (entry_crash_consistency _ _ hreach).2.1 d rfl r hr hlive l hl hstarted

/--
A status of the peer reached the follower before the attempt itself.  The
follower dies after its order, and its database can no longer be opened.
-/
theorem entry_crash_unopenable :
    ¬ ∀ c d, Reach Proc.Step anyStep (.init c) (.down c d) → ∀ r ∈ d.attempts, Live c r →
      ∀ l, d.legs.get r.attempt.attemptId = some l →
        StartedAt d (entryEffectId c r.attempt) → Recovers c d r.attempt l := by
  intro h
  obtain ⟨p, hreach, hp⟩ := Proc.play_any anyStep (.init Sample.follower)
    (Sample.ready ++ Sample.facts 2 {} ++
      Sample.deliver (.legStatus { attemptId := 100, status := .sent }) {} ++
      [.call (.event (.envelope (.attempt (Sample.attempt 100)))) { depth := 5 },
        .next 22, .crash])
    (fun p => p.diedSending Sample.follower (Sample.attempt 100) &&
      (load Sample.follower p.disk).isNone) (by decide +kernel)
  rw [Bool.and_eq_true] at hp
  obtain ⟨d, r, l, rfl, hr, hlive, ha, hl, -, hstarted⟩ :=
    (Proc.reach_sound hreach).diedSending hp.1
  rw [← ha] at hl hstarted
  obtain ⟨w, hload, -⟩ := h _ d hreach r hr hlive l hl hstarted
  have hnone : (load Sample.follower d).isNone = true := hp.2
  simp [hload] at hnone

end PairCell
