import PairCell.Route.Agreement

/-!
# Confirmed and active pairs

A pair is confirmed, and counted as active, only when the entries of both legs
are filled.  The databases of the two cells show it, then and in every later
state, whatever is lost, overtaken or restarted.
-/

namespace PairCell

open Lib World

variable {w : World} {x : Action} {i : Nat}

/-! ## Stored legs -/

/-- A stored leg stays as it is or takes a permitted step. -/
theorem act_leg_step (hw : Sound w) (hx : Permits w x) {d : Leg}
    (hd : w.disk.legs.get i = some d) : ∃ l, (w.act x).disk.legs.get i = some l ∧
      (l = d ∨ ∃ a old, w.mem.attempt = some a ∧ a.attemptId = i ∧ LegSync old d ∧
        LegStep w a old l) := by
  have hmove := act_leg_move hw hx i
  rw [hd] at hmove
  generalize (w.act x).disk.legs.get i = l? at hmove
  cases hmove with
  | same => exact ⟨d, rfl, .inl rfl⟩
  | save a old stored l ha hi hl hsync hstep =>
      exact ⟨l, rfl, .inr ⟨a, old, ha, hi, hsync, hstep⟩⟩

/-- The entry of the attempt is filled on this side. -/
def Filled (d : Disk) (i : Nat) : Prop := ∃ l, d.legs.get i = some l ∧
  l.entryStatus = .filled

theorem LegStep.filled {a : Attempt} {old l : Leg} (h : LegStep w a old l)
    (hold : old.entryStatus = .filled) : l.entryStatus = .filled := by
  obtain hsame | hstep := h.entry
  · rw [hsame, hold]
  · cases hstep with
    | expired h => simp [hold] at h
    | refused h => simp [hold] at h
    | unknown h => simp [hold] at h
    | sent h => simp [hold] at h
    | simulated h => simp [hold] at h
    | absent h => simp [hold] at h
    | observed h => simp [hold] at h

theorem Filled.act (hw : Sound w) (hx : Permits w x) (h : Filled w.disk i) :
    Filled (w.act x).disk i := by
  obtain ⟨d, hd, hfilled⟩ := h
  obtain ⟨l, hl, rfl | ⟨a, old, -, -, hsync, hstep⟩⟩ := act_leg_step hw hx hd
  · exact ⟨l, hl, hfilled⟩
  · exact ⟨l, hl, hstep.filled (by rw [hsync.entryStatus]; exact hfilled)⟩

theorem Booked.filled (h : Booked w) {a : Attempt} {l : Leg} (ha : w.mem.attempt = some a)
    (hl : w.mem.leg = some l) (hfilled : l.entryStatus = .filled) :
    Filled w.disk a.attemptId := by
  obtain ⟨d, hd, hsync⟩ := h.stored ha hl
  exact ⟨d, hd, by rw [← hsync.entryStatus]; exact hfilled⟩

/-- The entries of both legs are filled. -/
def BothFilled (own peer : Disk) (i : Nat) : Prop := Filled own i ∧ Filled peer i

theorem ownEvidence_filled (h : ownEvidenceInconsistency w = none) :
    ∃ a l, w.mem.attempt = some a ∧ w.mem.leg = some l ∧ l.entryStatus = .filled := by
  unfold ownEvidenceInconsistency at h
  split at h
  · next a l ha hl =>
    split at h
    · cases h
    · next hfilled => exact ⟨a, l, ha, hl, not_not.1 hfilled⟩
  · cases h

theorem peerEvidence_filled (h : peerEvidenceState w = (true, none)) :
    w.mem.peerLeg.status = .filled := by
  unfold peerEvidenceState at h
  dsimp only at h
  split at h
  · cases h
  · split at h
    · cases h
    · next hfilled => exact not_not.1 hfilled

/-! ## What a process knows of its pair -/

/-- The intent and the confirmation of a running cell. -/
structure Intended (peer : Disk) (w : World) : Prop where
  intent : ∀ a, w.mem.attempt = some a → w.mem.leg ≠ none →
    ∃ desired, w.disk.desired = some ⟨desired, some a.attemptId, w.mem.pairConfirmed⟩
  confirmed : ∀ a, w.mem.attempt = some a → w.mem.pairConfirmed = true →
    w.mem.leg ≠ none ∨ w.mem.recovering = false → BothFilled w.disk peer a.attemptId
  idle : w.mem.attempt = none → w.mem.pairConfirmed = false

/-- The intent and the confirmation that a database keeps. -/
def IntendedOn (peer : Disk) (c : Config) (d : Disk) : Prop :=
  ∀ a, loadedAttempt c d = some a → d.legs.get a.attemptId ≠ none →
    ∃ q, d.desired = some q ∧ q.attemptId = some a.attemptId ∧
      (q.pairConfirmed = true → BothFilled d peer a.attemptId)

theorem intended_saveLeg {peer : Disk} {l : Leg} (hx : Permits w (.saveLeg l))
    (h : Intended peer w) {a : Attempt} (ha : w.mem.attempt = some a) :
    (∃ desired, w.disk.desired = some ⟨desired, some a.attemptId, w.mem.pairConfirmed⟩) ∧
      (w.mem.pairConfirmed = true → BothFilled w.disk peer a.attemptId) := by
  obtain ⟨-, a', ha', hleg⟩ := hx
  obtain rfl := Option.some.inj (ha.symm.trans ha')
  cases hl : w.mem.leg with
  | none =>
      simp only [hl] at hleg
      obtain ⟨-, -, -, hrecovering, hdesired⟩ := hleg
      exact ⟨⟨_, hdesired⟩, fun hconf => h.confirmed a ha hconf (.inr hrecovering)⟩
  | some old =>
      have hsome : w.mem.leg ≠ none := by simp [hl]
      exact ⟨h.intent a ha hsome, fun hconf => h.confirmed a ha hconf (.inl hsome)⟩

theorem Intended.act {peer : Disk} (hw : Sound w) (hx : Permits w x) (h : Intended peer w)
    (hground : ConfirmGround w → ∀ a, w.mem.attempt = some a →
      BothFilled w.disk peer a.attemptId) : Intended peer (w.act x) := by
  have hkept : ∀ {n}, BothFilled w.disk peer n → BothFilled (w.act x).disk peer n :=
    fun hb => ⟨hb.1.act hw hx, hb.2⟩
  refine ⟨?_, ?_, ?_⟩
  · rw [act_attempt, act_leg, act_desired, act_pairConfirmed]
    intro a ha hleg
    cases x with
    | adopt b => exact absurd (hw.mem.leg_none hx.1) hleg
    | terminate reason => cases ha
    | saveLeg l => exact (intended_saveLeg hx h ha).1
    | memLeg l =>
        obtain ⟨a', old, -, hold, -⟩ := hx
        exact h.intent a ha (by simp [hold])
    | saveDesired desired confirmed =>
        have ha' : w.mem.attempt = some a := ha
        exact ⟨desired, by simp [attemptId?, ha']⟩
    | _ => exact h.intent a ha hleg
  · rw [act_attempt, act_leg, act_pairConfirmed, act_recovering]
    intro a ha hconf hready
    cases x with
    | adopt b => exact absurd ((h.idle hx.1).symm.trans hconf) (by decide)
    | terminate reason => cases ha
    | saveLeg l => exact hkept ((intended_saveLeg hx h ha).2 hconf)
    | memLeg l =>
        obtain ⟨a', old, -, hold, -⟩ := hx
        exact hkept (h.confirmed a ha hconf (.inl (by simp [hold])))
    | saveDesired desired confirmed =>
        obtain hold | hnew := hx.2.1 hconf
        · exact hkept (h.confirmed a ha hold hready)
        · exact hkept (hground hnew a ha)
    | setRecovering b =>
        have hleg : w.mem.leg ≠ none := by
          obtain hleg | hdone := hready
          · exact hleg
          · exact hx hdone (by rw [show w.mem.attempt = some a from ha]; simp)
        exact hkept (h.confirmed a ha hconf (.inl hleg))
    | _ => exact hkept (h.confirmed a ha hconf hready)
  · rw [act_attempt, act_pairConfirmed]
    intro ha
    cases x with
    | adopt b => cases ha
    | terminate reason => rfl
    | saveDesired desired confirmed => exact (hx.1 ha).2
    | _ => exact h.idle ha

theorem Intended.load {peer : Disk} {c : Config} {d : Disk} (hd : DiskSound c d)
    (h : IntendedOn peer c d) (hload : load c d = some w) : Intended peer w := by
  rw [load_eq hd] at hload
  cases hat : loadedAttempt c d with
  | none =>
      simp only [hat, Option.some.injEq] at hload
      subst hload
      exact ⟨(fun _ ha => nomatch ha), (fun _ ha => nomatch ha), fun _ => rfl⟩
  | some a =>
      simp only [hat, Option.map_eq_some_iff] at hload
      obtain ⟨view, -, rfl⟩ := hload
      have hq := h a hat
      refine ⟨?_, ?_, fun hnone => nomatch hnone⟩
      · rintro b hb hleg
        obtain rfl : a = b := Option.some.inj hb
        obtain ⟨q, hdesired, hid, -⟩ := hq hleg
        refine ⟨q.desired, ?_⟩
        show d.desired = some ⟨q.desired, some a.attemptId,
          (d.desired.map DesiredRow.pairConfirmed).getD false⟩
        rw [hdesired, ← hid]
        rfl
      · rintro b hb hconf hready
        obtain rfl : a = b := Option.some.inj hb
        obtain hleg | hrecovering := hready
        · obtain ⟨q, hdesired, -, hboth⟩ := hq hleg
          refine hboth ?_
          change (d.desired.map DesiredRow.pairConfirmed).getD false = true at hconf
          rw [hdesired] at hconf
          exact hconf
        · cases hrecovering

theorem Intended.stored {peer : Disk} (hw : Sound w) (h : Intended peer w) :
    IntendedOn peer w.cfg w.disk := by
  intro a hloaded hleg
  have ha := hw.mem.newest a hloaded
  have hmem : w.mem.leg ≠ none := fun hnone => hleg (hw.toBooked.leg_row ha hnone)
  obtain ⟨desired, hdesired⟩ := h.intent a ha hmem
  exact ⟨_, hdesired, rfl, fun hconf => h.confirmed a ha hconf (.inl hmem)⟩

inductive Proc.Intended (peer : Disk) : Proc → Prop where
  | up {w : World} {todo : List Action} (h : PairCell.Intended peer w) :
      Intended peer (.up w todo)
  | down {c : Config} {d : Disk} (h : IntendedOn peer c d) : Intended peer (.down c d)

theorem Proc.Intended.step {peer : Disk} {p p' : Proc} {l : Label} (hs : p.Sound)
    (h : p.Intended peer) (hstep : Proc.Step p l p')
    (hground : ∀ w todo, p = .up w todo → ConfirmGround w → ∀ a, w.mem.attempt = some a →
      BothFilled w.disk peer a.attemptId) : p'.Intended peer := by
  cases hstep with
  | begin call script hfresh =>
      cases h with
      | up h => exact .up ⟨h.intent, h.confirmed, h.idle⟩
  | serve item script =>
      cases h with
      | up h => exact .up ⟨h.intent, h.confirmed, h.idle⟩
  | exec x todo =>
      cases h with
      | up h =>
          cases hs with
          | up hw htodo _ => exact .up (h.act hw htodo.1 (hground _ _ rfl))
  | crash =>
      cases h with
      | up h =>
          cases hs with
          | up hw _ _ => exact .down (h.stored hw)
  | reopen hload =>
      cases h with
      | down h =>
          cases hs with
          | down hd _ => exact .up (PairCell.Intended.load hd h hload)

theorem Proc.Intended.mono {peer peer' : Disk} {p : Proc} (h : p.Intended peer)
    (hpeer : ∀ n, Filled peer n → Filled peer' n) : p.Intended peer' := by
  have hboth : ∀ {d n}, BothFilled d peer n → BothFilled d peer' n :=
    fun hb => ⟨hb.1, hpeer _ hb.2⟩
  cases h with
  | up h => exact .up ⟨h.intent, fun a ha hc hr => hboth (h.confirmed a ha hc hr), h.idle⟩
  | down h =>
      refine .down fun a ha hleg => ?_
      obtain ⟨q, hq, hid, hconf⟩ := h a ha hleg
      exact ⟨q, hq, hid, fun hc => hboth (hconf hc)⟩

/-! ## Active pairs -/

/-- The process counts its pair of the attempt `n` as active, or has
recorded that it did. -/
inductive Proc.Marks (n : Nat) : Proc → Prop where
  | stored {p : Proc} (since : Nat) (h : p.disk.active.get n = some since) : Marks n p
  | held {w : World} {todo : List Action} (a : Attempt) (ha : w.mem.attempt = some a)
      (hid : a.attemptId = n) (h : w.mem.state = .active) : Marks n (.up w todo)

/-- The action declares the pair of the attempt active. -/
def Declares (w : World) (n : Nat) (x : Action) : Prop :=
  x = .setState .active ∧ ∃ a l, ActiveGround w a l ∧ a.attemptId = n

theorem marks_act {todo : List Action} {n : Nat} (hx : Permits w x)
    (h : (Proc.up (w.act x) todo).Marks n) :
    (Proc.up w (x :: todo)).Marks n ∨ Declares w n x := by
  cases h with
  | stored since h =>
      change (w.act x).disk.active.get n = some since at h
      rw [act_active] at h
      split at h
      · next t a ha =>
        rw [Table.get_set] at h
        split at h
        · next hid => exact .inl (.held a ha hid.symm hx)
        · exact .inl (.stored since h)
      · exact .inl (.stored since h)
  | held a ha hid h =>
      rw [act_attempt] at ha
      rw [act_state] at h
      cases x with
      | adopt b => cases h
      | terminate reason => cases ha
      | unlatch toEmpty event =>
          cases toEmpty with
          | true => cases h
          | false => exact .inl (.held a ha hid h)
      | setState s =>
          obtain rfl : s = .active := h
          obtain ⟨b, l, hground⟩ := hx.2.2 rfl
          obtain rfl : b = a := Option.some.inj (hground.attempt.symm.trans ha)
          exact .inr ⟨rfl, b, l, hground, hid⟩
      | _ => exact .inl (.held a ha hid h)

theorem recoveredState_unmarked (l : Leg) (desired : DesiredState) :
    recoveredState l desired none ≠ .active := by
  unfold recoveredState
  split_ifs <;> simp_all

theorem marks_load {n : Nat} {c : Config} {d : Disk} (hd : DiskSound c d)
    (hload : load c d = some w) (h : (Proc.up w []).Marks n) :
    (Proc.down c d).Marks n := by
  have hdisk := (load_idle hd hload).2.2
  cases h with
  | stored since h =>
      change w.disk.active.get n = some since at h
      rw [hdisk] at h
      exact .stored since h
  | held a ha hid h =>
      rw [load_eq hd] at hload
      cases hat : loadedAttempt c d with
      | none =>
          simp only [hat, Option.some.injEq] at hload
          subst hload
          cases ha
      | some b =>
          simp only [hat, Option.map_eq_some_iff] at hload
          obtain ⟨view, -, rfl⟩ := hload
          obtain rfl : b = a := Option.some.inj ha
          cases hsince : d.active.get b.attemptId with
          | some since => exact .stored since (by rw [← hid]; exact hsince)
          | none =>
              exfalso
              simp only [loadAttempt, hsince] at h
              split at h
              · exact recoveredState_unmarked _ _ h
              · cases h

theorem Proc.Marks.step {p p' : Proc} {l : Label} {n : Nat} (hs : p.Sound)
    (hstep : Proc.Step p l p') (h : p'.Marks n) :
    p.Marks n ∨ ∃ w x todo, p = .up w (x :: todo) ∧ Declares w n x := by
  cases hstep with
  | begin call script hfresh =>
      cases h with
      | stored since h => exact .inl (.stored since h)
      | held a ha hid h => exact .inl (.held a ha hid h)
  | serve item script =>
      cases h with
      | stored since h => exact .inl (.stored since h)
      | held a ha hid h => exact .inl (.held a ha hid h)
  | exec x todo =>
      cases hs with
      | up hw htodo _ => exact (marks_act htodo.1 h).imp_right fun hd => ⟨_, _, _, rfl, hd⟩
  | crash =>
      cases h with
      | stored since h => exact .inl (.stored since h)
  | reopen hload =>
      cases hs with
      | down hd _ => exact .inl (marks_load hd hload h)

namespace Route

variable {s s' : Route} {l : Label} {r : Role} {c : Role → Config}
  {ok : Route → Label → Prop} {leaderId followerId routeId : Nat}

/-- At most one process takes a step of its own. -/
inductive Turns (s s' : Route) : Prop where
  | none (h : ∀ r, s'.proc r = s.proc r)
  | one (r : Role) (l : PairCell.Label) (h : Proc.Step (s.proc r) l (s'.proc r))
      (hother : s'.proc r.peer = s.proc r.peer)

theorem Step.turns (h : Step s l s') : Turns s s' := by
  cases h with
  | @cell r l₀ p requestId ok hstep _ =>
      refine .one r l₀ ?_ ?_
      · rw [proc_onWires, proc_withProc, if_pos rfl]
        exact hstep
      · rw [proc_onWires, proc_withProc, if_neg (by cases r <;> simp [Role.peer])]
  | publish => exact .none fun r => proc_onWires ..
  | flush => exact .none fun r => proc_onWires ..
  | lose => exact .none fun r => proc_onWires ..

/-! ## Confirmation -/

/-- Reports of fills and confirmations are true, and the cells hold no others. -/
structure Paired (s : Route) : Prop where
  reported : ∀ r p, .legStatus p ∈ (s.proc r).disk.relayed → p.status = .filled →
    Filled (s.proc r).disk p.attemptId
  announced : ∀ r n, .pairEntryConfirmed n ∈ (s.proc r).disk.relayed →
    BothFilled (s.proc r).disk (s.proc r.peer).disk n
  intended : ∀ r, (s.proc r).Intended (s.proc r.peer).disk

theorem confirm_ground (hj : Joined c s) (h : Paired s) {todo : List Action}
    (hp : s.proc r = .up w todo) (hw : PairCell.Sound w)
    (hground : ConfirmGround w) {a : Attempt} (ha : w.mem.attempt = some a) :
    BothFilled w.disk (s.proc r.peer).disk a.attemptId := by
  cases hground with
  | evidence hrole hown hpeer =>
      obtain ⟨b, leg, hb, hleg, hfilled⟩ := ownEvidence_filled hown
      obtain rfl := Option.some.inj (hb.symm.trans ha)
      have hstatus := peerEvidence_filled hpeer
      obtain ⟨p, hsent, hid, htold⟩ := hj.told hp ha (by simp [hstatus])
      refine ⟨hw.toBooked.filled ha hleg hfilled, ?_⟩
      rw [← hid]
      exact h.reported r.peer p hsent (htold.trans hstatus)
  | told b hrole hb hasked =>
      obtain rfl := Option.some.inj (hb.symm.trans ha)
      have hsent := hj.delivered hp hasked fun _ hk => nomatch hk
      have hboth := h.announced r.peer b.attemptId hsent
      rw [peer_peer, hp] at hboth
      exact ⟨hboth.2, hboth.1⟩

/-- What one action of a side does to the reports and confirmations of both. -/
theorem Paired.act (h : Paired s) {todo : List Action}
    (hp : s.proc r = .up w (x :: todo)) (hp' : s'.proc r = .up (w.act x) todo)
    (hother : s'.proc r.peer = s.proc r.peer) (hw : PairCell.Sound w) (hx : Permits w x)
    (hnext : (s'.proc r).Intended (s.proc r.peer).disk) : Paired s' := by
  have hdisk : (s.proc r).disk = w.disk := by rw [hp]; rfl
  have hdisk' : (s'.proc r).disk = (w.act x).disk := by rw [hp']; rfl
  have hfilled : ∀ n, Filled (s.proc r).disk n → Filled (s'.proc r).disk n := by
    intro n hn
    rw [hdisk] at hn
    rw [hdisk']
    exact hn.act hw hx
  have hintended : PairCell.Intended (s.proc r.peer).disk w := by
    have := h.intended r
    rw [hp] at this
    cases this with
    | up h => exact h
  refine ⟨?_, ?_, ?_⟩
  · intro q p hsent hstatus
    obtain rfl | rfl := eq_or_peer q r
    · rw [hdisk'] at hsent
      obtain hold | rfl := relayed_act hsent
      · exact hfilled _ (h.reported q p (by rw [hdisk]; exact hold) hstatus)
      · obtain ⟨a, leg, ha, hid, hleg, hfill⟩ := hx.2.2 hstatus
        refine hfilled _ ?_
        rw [hdisk, ← hid]
        exact hw.toBooked.filled ha hleg hfill
    · rw [hother] at hsent ⊢
      exact h.reported r.peer p hsent hstatus
  · intro q n hsent
    obtain rfl | rfl := eq_or_peer q r
    · rw [hother]
      rw [hdisk'] at hsent
      obtain hold | rfl := relayed_act hsent
      · have hboth := h.announced q n (by rw [hdisk]; exact hold)
        exact ⟨hfilled _ hboth.1, hboth.2⟩
      · obtain ⟨-, hid, hconf, hleg⟩ := hx
        obtain ⟨a, ha, rfl⟩ := Option.map_eq_some_iff.1 hid
        have hboth := hintended.confirmed a ha hconf (.inl hleg)
        refine ⟨hfilled _ ?_, hboth.2⟩
        rw [hdisk]
        exact hboth.1
    · rw [hother] at hsent ⊢
      have hboth := h.announced r.peer n hsent
      rw [peer_peer] at hboth ⊢
      exact ⟨hboth.1, hfilled _ hboth.2⟩
  · intro q
    obtain rfl | rfl := eq_or_peer q r
    · rw [hother]
      exact hnext
    · rw [hother, peer_peer]
      have hpeer := h.intended r.peer
      rw [peer_peer] at hpeer
      exact hpeer.mono hfilled

theorem Paired.step (h : Paired s) (hj : Joined c s)
    (hstep : Step s l s') : Paired s' := by
  cases hstep.turns with
  | none hsame =>
      refine ⟨?_, ?_, ?_⟩
      · intro q
        rw [hsame]
        exact h.reported q
      · intro q
        rw [hsame, hsame]
        exact h.announced q
      · intro q
        rw [hsame, hsame]
        exact h.intended q
  | one r l₀ hproc hother =>
      have hnext := (h.intended r).step (hj.sound r) hproc fun w todo hp hground a ha => by
        have hsound := hj.sound r
        rw [hp] at hsound
        cases hsound with
        | up hw _ _ => exact confirm_ground hj h hp hw hground ha
      cases (hj.sound r).moves hproc with
      | exec hp hl hp' hw hx => exact h.act hp hp' hother hw hx hnext
      | still hdisk _ _ _ =>
          have hdisks : ∀ q, (s'.proc q).disk = (s.proc q).disk := by
            intro q
            obtain rfl | rfl := eq_or_peer q r
            · exact hdisk
            · rw [hother]
          refine ⟨?_, ?_, ?_⟩
          · intro q
            rw [hdisks]
            exact h.reported q
          · intro q
            rw [hdisks, hdisks]
            exact h.announced q
          · intro q
            rw [hdisks]
            obtain rfl | rfl := eq_or_peer q r
            · exact hnext
            · rw [hother]
              exact h.intended r.peer

theorem reach_paired
    (h : Reach Step ok (init leaderId followerId routeId) s) : Paired s := by
  induction h with
  | refl =>
      refine ⟨?_, ?_, ?_⟩
      · intro r p hsent
        cases r <;> cases hsent
      · intro r n hsent
        cases r <;> cases hsent
      · intro r
        cases r <;> exact .down fun a ha => by
          simp [loadedAttempt, newestRow, routeRows] at ha
  | tail l h _ hstep ih => exact ih.step (reach_joined h) hstep

/-! ## Activity -/

/--
What holds between the databases of two cells when one of them declares its pair
active, and what no permitted action of either breaks, holds as long as a cell
counts the pair as active.
-/
theorem reach_active {F : Disk → Disk → Nat → Prop}
    (hown : ∀ {t r w x todo n}, Reach Step ok (init leaderId followerId routeId) t →
      t.proc r = .up w (x :: todo) → PairCell.Sound w → Permits w x →
      F w.disk (t.proc r.peer).disk n → F (w.act x).disk (t.proc r.peer).disk n)
    (hpeer : ∀ {t r w x todo n}, Reach Step ok (init leaderId followerId routeId) t →
      t.proc r = .up w (x :: todo) → PairCell.Sound w → Permits w x →
      F (t.proc r.peer).disk w.disk n → F (t.proc r.peer).disk (w.act x).disk n)
    (hground : ∀ {t r w todo a leg}, Reach Step ok (init leaderId followerId routeId) t →
      t.proc r = .up w todo → PairCell.Sound w → ActiveGround w a leg →
      F w.disk (t.proc r.peer).disk a.attemptId)
    (h : Reach Step ok (init leaderId followerId routeId) s) :
    ∀ r n, (s.proc r).Marks n → F (s.proc r).disk (s.proc r.peer).disk n := by
  induction h with
  | refl =>
      intro r n hmarks
      cases hp : (init leaderId followerId routeId).proc r with
      | up w todo => cases r <;> cases hp
      | down c d =>
          rw [hp] at hmarks
          cases hmarks with
          | stored since hsince => cases r <;> cases hp <;> simp [Proc.disk] at hsince
  | @tail t u l h _ hstep ih =>
      have hj := reach_joined h
      intro r n hmarks
      cases hstep.turns with
      | none hsame =>
          rw [hsame] at hmarks ⊢
          rw [hsame]
          exact ih r n hmarks
      | one q l₀ hproc hother =>
          have hmoves := (hj.sound q).moves hproc
          obtain rfl | rfl := eq_or_peer r q
          · rw [hother]
            have hF : F (t.proc r).disk (t.proc r.peer).disk n := by
              obtain hold | ⟨w, x, todo, hp, -, a, leg, hactive, rfl⟩ :=
                hmarks.step (hj.sound r) hproc
              · exact ih r n hold
              · have hsound := hj.sound r
                rw [hp] at hsound ⊢
                cases hsound with
                | up hw _ _ => exact hground h hp hw hactive
            cases hmoves with
            | exec hp hl hp' hw hx =>
                rw [hp']
                rw [hp] at hF
                exact hown h hp hw hx hF
            | still hdisk _ _ _ =>
                rw [hdisk]
                exact hF
          · rw [hother] at hmarks ⊢
            have hF := ih q.peer n hmarks
            rw [peer_peer] at hF ⊢
            cases hmoves with
            | exec hp hl hp' hw hx =>
                rw [hp']
                rw [hp] at hF
                exact hpeer h hp hw hx hF
            | still hdisk _ _ _ =>
                rw [hdisk]
                exact hF

/-- A filled entry stays filled in every later state of the worker. -/
theorem Proc.reach_filled {p p' : Proc} (h : Reach Proc.Step anyStep p p') (hs : p.Sound)
    (hfilled : Filled p.disk n) : Filled p'.disk n := by
  refine (h.invariant (I := fun q => q.Sound ∧ Filled q.disk n) ⟨hs, hfilled⟩ ?_).2
  rintro q l q' ⟨hq, hi⟩ _ hstep
  refine ⟨hq.step hstep, ?_⟩
  cases hq.moves hstep with
  | exec hp hl hp' hw hx =>
      subst hp hp'
      exact hi.act hw hx
  | still hdisk _ _ _ => rwa [hdisk]

theorem BothFilled.reach (h : Reach Step anyLabel (init leaderId followerId routeId) s)
    (hboth : BothFilled (s.proc r).disk (s.proc r.peer).disk n)
    (h' : Reach Step anyLabel s s') :
    BothFilled (s'.proc r).disk (s'.proc r.peer).disk n :=
  ⟨Proc.reach_filled (reach_proc h' r) ((reach_joined h).sound r) hboth.1,
    Proc.reach_filled (reach_proc h' r.peer) ((reach_joined h).sound r.peer) hboth.2⟩

theorem active_is_filled (h : Reach Step anyLabel (init leaderId followerId routeId) s)
    (r : Role) (hmarks : (s.proc r).Marks n) :
    BothFilled (s.proc r).disk (s.proc r.peer).disk n := by
  refine reach_active (F := BothFilled) ?_ ?_ ?_ h r n hmarks
  · exact fun _ _ hw hx hb => ⟨hb.1.act hw hx, hb.2⟩
  · exact fun _ _ hw hx hb => ⟨hb.1, hb.2.act hw hx⟩
  · intro t q w todo a leg ht hp hw hactive
    have hintended := (reach_paired ht).intended q
    rw [hp] at hintended
    cases hintended with
    | up hi =>
        exact hi.confirmed a hactive.attempt hactive.confirmed
          (.inl (by simp [hactive.leg]))

/--
A cell counts its pair as active only when the entries of both legs are filled,
and once it has a leg it takes the pair as confirmed only then; filled they stay.
-/
theorem confirmed_pair_is_filled
    (h : Reach Step anyLabel (init leaderId followerId routeId) s) (r : Role) :
    (∀ n, (s.proc r).Marks n → ∀ s', Reach Step anyLabel s s' →
      BothFilled (s'.proc r).disk (s'.proc r.peer).disk n) ∧
    ∀ w todo a, s.proc r = .up w todo → w.mem.attempt = some a →
      w.mem.pairConfirmed = true →
      w.mem.leg ≠ none → ∀ s', Reach Step anyLabel s s' →
        BothFilled (s'.proc r).disk (s'.proc r.peer).disk a.attemptId := by
  refine ⟨fun n hmarks s' h' => BothFilled.reach h (active_is_filled h r hmarks) h', ?_⟩
  intro w todo a hp ha hconf hleg s' h'
  refine BothFilled.reach h ?_ h'
  have hintended := (reach_paired h).intended r
  rw [hp] at hintended ⊢
  cases hintended with
  | up hi => exact hi.confirmed a ha hconf (.inl hleg)

namespace Sample

def active (p : Proc) : Bool :=
  match p with
  | .up w _ => decide (w.mem.state = .active ∧ w.attemptId? = some 100)
  | .down .. => false

theorem active_marks {p : Proc} (h : active p = true) : p.Marks 100 := by
  unfold active at h
  split at h
  · obtain ⟨hstate, hid⟩ := of_decide_eq_true h
    obtain ⟨a, ha, hid⟩ := Option.map_eq_some_iff.1 hid
    exact .held a ha hid hstate
  · cases h

theorem paired_active : ∃ s, Reach Step anyLabel both s ∧ ∀ r, (s.proc r).Marks 100 := by
  obtain ⟨s, hrun, hs⟩ := plays_any anyLabel both paired
    (fun s => active s.leader && active s.follower) (by decide +kernel)
  obtain ⟨hleader, hfollower⟩ := Bool.and_eq_true_iff.1 hs
  refine ⟨s, hrun, fun r => ?_⟩
  cases r with
  | leader => exact active_marks hleader
  | follower => exact active_marks hfollower

end Sample

theorem confirmed_pair_is_filled_paired : ∃ s, Reach Step anyLabel Sample.both s ∧
    ∀ r s', Reach Step anyLabel s s' →
      BothFilled (s'.proc r).disk (s'.proc r.peer).disk 100 := by
  obtain ⟨s, hrun, hmarks⟩ := Sample.paired_active
  exact ⟨s, hrun, fun r s' h' => (confirmed_pair_is_filled hrun r).1 100 (hmarks r) s' h'⟩

end Route

end PairCell
