import PairCell.Play

/-!
# Stored legs along a run

The leg row of an attempt is what recovery and the peer rely on.  `LegMove` says
how one permitted action changes it; `History` says what a stored leg tells
about the orders and envelopes that have left the worker.
-/

namespace PairCell

open Lib World

variable {w : World} {x : Action} {i : Nat}

/-! ## One action -/

theorem LegSync.entryStatus {l d : Leg} (h : LegSync l d) :
    l.entryStatus = d.entryStatus := by
  rw [h]

theorem LegSync.emptyVerified {l d : Leg} (h : LegSync l d) :
    l.emptyVerified = d.emptyVerified := by
  rw [h]

theorem LegSync.attemptRelayed {l d : Leg} (h : LegSync l d) :
    l.attemptRelayed = d.attemptRelayed := by
  rw [h]

/-- How a permitted action changes the stored leg of the attempt `i`. -/
inductive LegMove (w : World) (i : Nat) : Action → Option Leg → Option Leg → Prop where
  | same (x : Action) (l? : Option Leg) : LegMove w i x l? l?
  | first (a : Attempt) (ha : w.mem.attempt = some a) (hi : a.attemptId = i) :
      LegMove w i (.saveLeg (firstLeg w.cfg a)) none (some (firstLeg w.cfg a))
  | save (a : Attempt) (old stored l : Leg) (ha : w.mem.attempt = some a)
      (hi : a.attemptId = i)
      (hl : w.mem.leg = some old) (hsync : LegSync old stored)
          (hstep : LegStep w a old l) :
      LegMove w i (.saveLeg l) (some stored) (some l)

theorem act_leg_move (hs : Sound w) (hp : Permits w x) (i : Nat) :
    LegMove w i x (w.disk.legs.get i) ((w.act x).disk.legs.get i) := by
  cases x with
  | saveLeg l =>
      obtain ⟨-, a, ha, hleg⟩ := hp
      have hsync := hs.mem.sync a ha
      rw [act_legs]
      simp only [ha, Table.get_set]
      by_cases hi : i = a.attemptId
      · subst hi
        rw [if_pos rfl]
        cases hmem : w.mem.leg with
        | none =>
            simp only [hmem] at hleg hsync
            cases hdisk : w.disk.legs.get a.attemptId with
            | none =>
                rw [hleg.1]
                exact .first a ha rfl
            | some d => simp [hdisk] at hsync
        | some old =>
            simp only [hmem] at hleg hsync
            cases hdisk : w.disk.legs.get a.attemptId with
            | none => simp [hdisk] at hsync
            | some d =>
                simp only [hdisk] at hsync
                exact .save a old d l ha rfl hmem hsync hleg
      · rw [if_neg hi]
        exact .same _ _
  | _ =>
      rw [act_legs]
      exact .same _ _

/-- A settled entry is never pending again. -/
theorem LegStep.not_pending {a : Attempt} {old l : Leg} (h : LegStep w a old l)
    (hold : old.entryStatus ≠ .pending) : l.entryStatus ≠ .pending := by
  rcases h.entry with hsame | hstep
  · rwa [hsame]
  · cases hstep with
    | expired h _ _ => exact absurd h hold
    | refused h _ _ => exact absurd h hold
    | unknown h _ => exact absurd h hold
    | sent h _ => exact absurd h hold
    | simulated h _ _ => exact absurd h hold
    | absent _ hnew => simp [hnew]
    | observed _ hnew => simp [hnew]

/-- What a stored leg once showed. -/
structure LegKeeps (l l' : Leg) : Prop where
  pending : l.entryStatus ≠ .pending → l'.entryStatus ≠ .pending
  relayed : l.attemptRelayed = true → l'.attemptRelayed = true
  empty : l.emptyVerified = true → l'.emptyVerified = true

theorem LegMove.keeps {l : Leg} {l'? : Option Leg} (h : LegMove w i x (some l) l'?) :
    ∃ l', l'? = some l' ∧ LegKeeps l l' := by
  cases h with
  | same => exact ⟨l, rfl, id, id, id⟩
  | save a old stored l' _ _ _ hsync hstep =>
      refine ⟨l', rfl, ?_, ?_, ?_⟩
      · rw [← hsync.entryStatus]
        exact hstep.not_pending
      · rw [← hsync.attemptRelayed]
        exact hstep.relayed
      · rw [← hsync.emptyVerified]
        exact hstep.empty

theorem act_leg_keeps (hs : Sound w) (hp : Permits w x) {l : Leg}
    (hl : w.disk.legs.get i = some l) :
    ∃ l', (w.act x).disk.legs.get i = some l' ∧ LegKeeps l l' := by
  have hmove := act_leg_move hs hp i
  rw [hl] at hmove
  exact hmove.keeps

/-! ## What has left the worker -/

structure History (c : Config) (d : Disk) : Prop where
  expired : ∀ i l, d.legs.get i = some l → l.entryStatus = .expiredNotStarted →
    ¬ d.entrySent (.cell i c.workerId .entry)
  noLocal : ∀ r ∈ d.attempts, r.terminal = some .noLocalEffectWasEverPrepared →
    d.legs.get r.attempt.attemptId = none
  relayed : ∀ a, .attempt a ∈ d.relayed →
    ∃ l, d.legs.get a.attemptId = some l ∧ l.attemptRelayed = true
  asked : ∀ i, .legStatusRequest i ∈ d.relayed →
    ∃ l, d.legs.get i = some l ∧ l.emptyVerified = true

theorem entrySent_act {e : EffectId} (h : (w.act x).disk.entrySent e) :
    w.disk.entrySent e ∨ ∃ p r, x = .orderSend e p r ∧ p.isEntry = true := by
  obtain ⟨s, hs, he, hp⟩ := h
  rw [act_sent] at hs
  rcases List.mem_append.1 hs with hold | hnew
  · exact .inl ⟨s, hold, he, hp⟩
  · cases x with
    | orderSend e' p r =>
        obtain rfl := List.mem_singleton.1 hnew
        subst he
        exact .inr ⟨p, r, rfl, hp⟩
    | _ => simp at hnew

/-- The entry order of an attempt leaves while its stored leg is pending. -/
theorem entryDispatch_stored (hs : Sound w)
    {p : Payload} (h : EntryDispatch w (.cell i w.cfg.workerId .entry) p) :
    ∃ l, w.disk.legs.get i = some l ∧ l.entryStatus = .pending := by
  obtain ⟨a, l, ha, hl, he, -, hpending, -⟩ := h
  obtain ⟨d, hd, hsync⟩ := hs.toBooked.stored ha hl
  obtain rfl : i = a.attemptId := by
    simp only [entryEffectId, Config.effect, EffectId.cell.injEq] at he
    exact he.1
  exact ⟨d, hd, by rw [← hsync.entryStatus]; exact hpending⟩

theorem history_expired (hs : Sound w) (h : History w.cfg w.disk)
    (hp : Permits w x) {l : Leg} (hl : (w.act x).disk.legs.get i = some l)
    (hexp : l.entryStatus = .expiredNotStarted) :
    ¬ (w.act x).disk.entrySent (.cell i w.cfg.workerId .entry) := by
  intro hsent
  rcases entrySent_act hsent with hold | ⟨p, r, rfl, hentry⟩
  · have hmove := act_leg_move hs hp i
    rw [hl] at hmove
    generalize hstored : w.disk.legs.get i = l? at hmove
    cases hmove with
    | same => exact h.expired i l hstored hexp hold
    | first a ha hi => cases hexp
    | save a old stored _ ha hi hleg hsync hstep =>
        rcases hstep.entry with hsame | hchange
        · exact h.expired i stored hstored
            (by rw [← hsync.entryStatus, ← hsame, hexp]) hold
        · cases hchange with
          | expired _ _ hno =>
              subst hi
              exact hno hold
          | refused _ hnew _ => simp [hnew] at hexp
          | unknown _ hnew => simp [hnew] at hexp
          | sent _ hnew => simp [hnew] at hexp
          | simulated _ hnew _ => simp [hnew] at hexp
          | absent _ hnew => simp [hnew] at hexp
          | observed _ hnew => simp [hnew] at hexp
  · obtain ⟨d, hd, hpending⟩ := entryDispatch_stored hs (hp.2.2.1 hentry)
    rw [act_legs] at hl
    obtain rfl := Option.some.inj (hd.symm.trans hl)
    simp [hpending] at hexp

/-- The leg of an attempt can only be stored while the attempt is unresolved. -/
theorem leg_none_act (hs : Sound w) (hp : Permits w x) {r : AttemptRow}
    (hr : r ∈ w.disk.attempts) (hterm : r.terminal ≠ none)
    (hl : w.disk.legs.get r.attempt.attemptId = none) :
    (w.act x).disk.legs.get r.attempt.attemptId = none := by
  have hmove := act_leg_move hs hp r.attempt.attemptId
  rw [hl] at hmove
  generalize (w.act x).disk.legs.get r.attempt.attemptId = l? at hmove ⊢
  cases hmove with
  | same => rfl
  | first a ha hi =>
      obtain ⟨q, hq, rfl, hlive⟩ := hs.mem.live a ha
      rw [row_unique hs.disk.ids hq hr hi] at hlive
      exact absurd hlive hterm

theorem Booked.leg_row (h : Booked w) {a : Attempt} (ha : w.mem.attempt = some a)
    (hl : w.mem.leg = none) : w.disk.legs.get a.attemptId = none := by
  have hsync := h.mem.sync a ha
  cases hd : w.disk.legs.get a.attemptId with
  | none => rfl
  | some d => simp [hl, hd] at hsync

theorem history_noLocal (hs : Sound w) (h : History w.cfg w.disk) (hp : Permits w x)
    {r : AttemptRow} (hr : r ∈ (w.act x).disk.attempts)
    (hterm : r.terminal = some .noLocalEffectWasEverPrepared) :
    (w.act x).disk.legs.get r.attempt.attemptId = none := by
  have hold : r ∈ w.disk.attempts → (w.act x).disk.legs.get r.attempt.attemptId = none :=
    fun hr => leg_none_act hs hp hr (by simp [hterm]) (h.noLocal r hr hterm)
  rw [act_attempts] at hr
  cases x with
  | adopt a =>
      rcases List.mem_append.1 hr with hr | hr
      · exact hold hr
      · obtain rfl := List.mem_singleton.1 hr
        cases hterm
  | refuse a reason =>
      rcases List.mem_append.1 hr with hr | hr
      · exact hold hr
      · obtain rfl := List.mem_singleton.1 hr
        cases hterm
  | terminate reason =>
      obtain ⟨q, hq, rfl⟩ := List.mem_map.1 hr
      by_cases hid : some q.attempt.attemptId = w.attemptId?
      · -- the row terminated now: its reason is the one of the action, so there is no leg
        rw [terminateRow, if_pos hid] at hterm ⊢
        obtain rfl := Option.some.inj hterm
        obtain ⟨a, ha, heq⟩ := Option.map_eq_some_iff.1 hid.symm
        rw [act_legs]
        show w.disk.legs.get q.attempt.attemptId = none
        rw [← heq]
        exact hs.toBooked.leg_row ha hp.2.2
      · rw [terminateRow, if_neg hid] at hterm ⊢
        exact leg_none_act hs hp hq (by simp [hterm]) (h.noLocal q hq hterm)
  | _ => exact hold hr

theorem relayed_act {m : Message} (h : m ∈ (w.act x).disk.relayed) :
    m ∈ w.disk.relayed ∨ x = .relay m := by
  rw [act_relayed] at h
  rcases List.mem_append.1 h with hold | hnew
  · exact .inl hold
  · cases x with
    | relay m' =>
        obtain rfl := List.mem_singleton.1 hnew
        exact .inr rfl
    | _ => simp at hnew

theorem History.act (hs : Sound w) (h : History w.cfg w.disk) (hp : Permits w x) :
    History w.cfg (w.act x).disk where
  expired := fun _ _ hl hexp => history_expired hs h hp hl hexp
  noLocal := fun _ hr hterm => history_noLocal hs h hp hr hterm
  relayed := by
    intro a hm
    rcases relayed_act hm with hold | rfl
    · obtain ⟨l, hl, hrelayed⟩ := h.relayed a hold
      obtain ⟨l', hl', hkeeps⟩ := act_leg_keeps hs hp hl
      exact ⟨l', hl', hkeeps.relayed hrelayed⟩
    · obtain ⟨-, ha, l, hl, hrelayed, -⟩ := hp
      obtain ⟨d, hd, hsync⟩ := hs.toBooked.stored ha hl
      rw [act_legs]
      exact ⟨d, hd, by rw [← hsync.attemptRelayed]; exact hrelayed⟩
  asked := by
    intro i hm
    rcases relayed_act hm with hold | rfl
    · obtain ⟨l, hl, hempty⟩ := h.asked i hold
      obtain ⟨l', hl', hkeeps⟩ := act_leg_keeps hs hp hl
      exact ⟨l', hl', hkeeps.empty hempty⟩
    · obtain ⟨a, l, ha, rfl, hl, hempty⟩ := hp
      obtain ⟨d, hd, hsync⟩ := hs.toBooked.stored ha hl
      rw [act_legs]
      exact ⟨d, hd, by rw [← hsync.emptyVerified]; exact hempty⟩

theorem history_init (c : Config) : History c {} where
  expired := fun i l hl => by simp at hl
  noLocal := by simp
  relayed := by simp
  asked := by simp

theorem reach_history {ok : Proc → Label → Prop} {c : Config} {p : Proc}
    (h : Reach Proc.Step ok (.init c) p) : History c p.disk ∧ p.cfg = c ∧ p.Sound := by
  refine Proc.reach_disk (I := History c) h (history_init c) ?_
  rintro w a todo hs rfl hist hp _
  exact hist.act hs hp

end PairCell
