import PairCell.Play

/-!
# Reopening and the unresolved attempt

The constructor follows the newest row of the route and loads the stored rows
of that attempt.  It finds the unresolved attempt as long as no later row of
the route hides it, and its own rows as long as none of another attempt was
left under them.
-/

namespace PairCell

open Lib World

variable {c : Config} {d : Disk} {w : World}

/-- The row is an unresolved attempt of the route. -/
def Live (c : Config) (r : AttemptRow) : Prop :=
  r.attempt.routeId = c.routeId ∧ r.terminal = none

instance (c : Config) (r : AttemptRow) : Decidable (Live c r) :=
  inferInstanceAs (Decidable (_ ∧ _))

/-! ## The newest row -/

/-- An unresolved attempt is the newest row of its route. -/
def LiveNewest (c : Config) (d : Disk) : Prop :=
  ∀ r ∈ d.attempts, Live c r → newestRow (routeRows c d) = some r

theorem LiveNewest.unique (h : LiveNewest c d) {r q : AttemptRow} (hr : r ∈ d.attempts)
    (hq : q ∈ d.attempts) (hlr : Live c r) (hlq : Live c q) : r = q :=
  Option.some.inj ((h r hr hlr).symm.trans (h q hq hlq))

theorem LiveNewest.loaded (h : LiveNewest c d) {r : AttemptRow} (hr : r ∈ d.attempts)
    (hlive : Live c r) : loadedAttempt c d = some r.attempt := by
  rw [loadedAttempt, h r hr hlive]
  simp [hlive.2]

/-- A loaded attempt is live. -/
theorem loadedAttempt_live {a : Attempt} (h : loadedAttempt c d = some a) :
    ∃ r ∈ d.attempts, r.attempt = a ∧ Live c r := by
  obtain ⟨r, hr, hterm, ha⟩ := loadedAttempt_eq_some.1 h
  obtain ⟨hmem, hroute⟩ := List.mem_filter.1 (newestRow_mem hr)
  exact ⟨r, hmem, ha, of_decide_eq_true hroute, hterm⟩

/-- The memory follows the live attempt. -/
theorem LiveNewest.attempt (h : LiveNewest w.cfg w.disk) (hs : Sound w) {r : AttemptRow}
    (hr : r ∈ w.disk.attempts) (hlive : Live w.cfg r) : w.mem.attempt = some r.attempt :=
  hs.mem.newest _ (h.loaded hr hlive)

/-! ## Conditions on a step -/

/-- The new row does not hide the attempt the cell follows, nor is it hidden itself. -/
def Unhidden (w : World) : Action → Prop
  | .adopt _ => ∀ r ∈ routeRows w.cfg w.disk, r.createdAt ≤ w.mem.aux.now
  | .refuse a _ =>
      a.routeId = w.cfg.routeId → ∀ r ∈ w.disk.attempts, Live w.cfg r →
        w.mem.aux.now < r.createdAt
  | _ => True

def PeerRow.isRaw : PeerRow → Bool
  | .view _ => false
  | .raw _ => true

/-- No row of another attempt is left where the rows of the new attempt go. -/
def Uncovered (w : World) : Action → Prop
  | .adopt a =>
      (w.disk.peerLegs.get a.attemptId).all (fun q => !q.isRaw) = true ∧
        w.disk.desired.all (fun row => decide (row.attemptId = none)) = true
  | _ => True

instance (w : World) (a : Action) : Decidable (Unhidden w a) := by
  cases a <;> unfold Unhidden <;> infer_instance

instance (w : World) (a : Action) : Decidable (Uncovered w a) := by
  cases a <;> unfold Uncovered <;> infer_instance

/-- The condition `g` on every action carried out. -/
def onExec (g : World → Action → Prop) : Proc → Label → Prop
  | .up w _, .exec a => g w a
  | _, _ => True

instance (g : World → Action → Prop) [∀ w a, Decidable (g w a)] (p : Proc) (l : Label) :
    Decidable (onExec g p l) := by
  cases p <;> cases l <;> unfold onExec <;> infer_instance

/-! ## The live row stays the newest -/

theorem LiveNewest.no_live (h : LiveNewest w.cfg w.disk) (hs : Sound w)
    (ha : w.mem.attempt = none) {r : AttemptRow} (hr : r ∈ w.disk.attempts) :
    ¬ Live w.cfg r := by
  intro hlive
  have := h.attempt hs hr hlive
  rw [ha] at this
  cases this

theorem routeRows_append {d' : Disk} {r : AttemptRow}
    (h : d'.attempts = d.attempts ++ [r]) :
    routeRows c d' = routeRows c d ++
      if r.attempt.routeId = c.routeId then [r] else [] := by
  by_cases hroute : r.attempt.routeId = c.routeId <;> simp [routeRows, h, hroute]

theorem routeRows_congr {d' : Disk} (h : d'.attempts = d.attempts) :
    routeRows c d' = routeRows c d := by
  simp [routeRows, h]

theorem newestRow_latest {rows : List AttemptRow} {r : AttemptRow}
    (h : ∀ q ∈ rows, q.createdAt ≤ r.createdAt) : newestRow (rows ++ [r]) = some r := by
  rw [newestRow_append]
  cases hbest : newestRow rows with
  | none => rfl
  | some b => simp [newerRow, h b (newestRow_mem hbest)]

theorem liveNewest_adopt {a : Attempt} (h : LiveNewest w.cfg w.disk) (hs : Sound w)
    (hp : Permits w (.adopt a)) (hok : Unhidden w (.adopt a)) :
    LiveNewest w.cfg (w.act (.adopt a)).disk := by
  intro r hr hlive
  rw [routeRows_append (act_attempts (.adopt a)), if_pos hp.2.2.2.1]
  rw [act_attempts] at hr
  rcases List.mem_append.1 hr with hold | hnew
  · exact absurd hlive (h.no_live hs hp.1 hold)
  · obtain rfl := List.mem_singleton.1 hnew
    exact newestRow_latest hok

theorem liveNewest_refuse {a : Attempt} {reason : String} (h : LiveNewest w.cfg w.disk)
    (hok : Unhidden w (.refuse a reason)) :
    LiveNewest w.cfg (w.act (.refuse a reason)).disk := by
  intro r hr hlive
  rw [routeRows_append (act_attempts (.refuse a reason))]
  rw [act_attempts] at hr
  rcases List.mem_append.1 hr with hold | hnew
  · have hnewest := h r hold hlive
    split
    · next hroute =>
        -- the refusal is older than the row it must not hide
        have hlt := hok hroute r hold hlive
        rw [newestRow_append, hnewest]
        simp [newerRow, Nat.not_le.2 hlt]
    · rwa [List.append_nil]
  · obtain rfl := List.mem_singleton.1 hnew
    exact absurd hlive.2 (by simp)

theorem terminate_no_live {reason : TerminalReason} (h : LiveNewest w.cfg w.disk)
    (hs : Sound w) {r : AttemptRow} (hr : r ∈ (w.act (.terminate reason)).disk.attempts) :
    ¬ Live w.cfg r := by
  intro hlive
  rw [act_attempts] at hr
  obtain ⟨q, hq, rfl⟩ := List.mem_map.1 hr
  obtain ⟨hne, hterm⟩ := terminateRow_live hlive.2
  have hroute : q.attempt.routeId = w.cfg.routeId := by
    have := hlive.1
    rwa [terminateRow_attempt] at this
  have hat := h.attempt hs hq ⟨hroute, hterm⟩
  exact hne (by simp [attemptId?, hat])

theorem LiveNewest.act {a : Action} (h : LiveNewest w.cfg w.disk) (hs : Sound w)
    (hp : Permits w a) (hok : Unhidden w a) : LiveNewest w.cfg (w.act a).disk := by
  cases a with
  | adopt a => exact liveNewest_adopt h hs hp hok
  | refuse a reason => exact liveNewest_refuse h hok
  | terminate reason => exact fun r hr hlive => absurd hlive (terminate_no_live h hs hr)
  | _ =>
      intro r hr hlive
      rw [routeRows_congr (act_attempts _)]
      rw [act_attempts] at hr
      exact h r hr hlive

/-! ## The rows of the live attempt -/

/-- The rows stored under a live attempt are its own. -/
structure OwnRows (c : Config) (d : Disk) : Prop where
  peer : ∀ r ∈ d.attempts, Live c r →
      ∀ q, d.peerLegs.get r.attempt.attemptId ≠ some (.raw q)
  cleared : ∀ row, d.desired = some row → row.attemptId = none →
    row.desired = .none ∧ row.pairConfirmed = false
  desired : ∀ r ∈ d.attempts, Live c r → ∀ row, d.desired = some row →
    row.attemptId = none ∨ row.attemptId = some r.attempt.attemptId

/-- A row that is live after an action was live before it, but for the adopted one. -/
theorem live_before {a : Action} {r : AttemptRow} (hr : r ∈ (w.act a).disk.attempts)
    (hlive : Live w.cfg r) :
    r ∈ w.disk.attempts ∨ ∃ b, a = .adopt b ∧ r.attempt = b := by
  rw [act_attempts] at hr
  cases a with
  | adopt b =>
      rcases List.mem_append.1 hr with hold | hnew
      · exact .inl hold
      · obtain rfl := List.mem_singleton.1 hnew
        exact .inr ⟨b, rfl, rfl⟩
  | refuse b reason =>
      rcases List.mem_append.1 hr with hold | hnew
      · exact .inl hold
      · obtain rfl := List.mem_singleton.1 hnew
        exact absurd hlive.2 (by simp)
  | terminate reason =>
      obtain ⟨q, hq, rfl⟩ := List.mem_map.1 hr
      obtain ⟨hne, -⟩ := terminateRow_live hlive.2
      rw [terminateRow, if_neg hne]
      exact .inl hq
  | _ => exact .inl hr

theorem ownRows_peer {a : Action} (hn : LiveNewest w.cfg w.disk) (h : OwnRows w.cfg w.disk)
    (hs : Sound w) (hp : Permits w a) (hok : Uncovered w a) {r : AttemptRow}
    (hr : r ∈ (w.act a).disk.attempts) (hlive : Live w.cfg r) (q : LegStatus) :
    (w.act a).disk.peerLegs.get r.attempt.attemptId ≠ some (.raw q) := by
  rw [act_peerLegs]
  rcases live_before hr hlive with hold | ⟨b, rfl, rfl⟩
  · have hold' := h.peer r hold hlive q
    cases a with
    | savePeerLeg v =>
        cases w.mem.attempt with
        | none => exact hold'
        | some b =>
            rw [Table.get_set]
            split
            · simp
            · exact hold'
    | latePeerLeg p =>
        have hat := hn.attempt hs hold hlive
        have hne : r.attempt.attemptId ≠ p.attemptId := by
          intro he
          exact hp.2 (by simp [attemptId?, hat, he])
        rw [Table.get_set, if_neg hne]
        exact hold'
    | _ => exact hold'
  · intro hraw
    have hnone := hok.1
    rw [hraw] at hnone
    simp [PeerRow.isRaw] at hnone

theorem ownRows_desired {a : Action} (hn : LiveNewest w.cfg w.disk)
    (h : OwnRows w.cfg w.disk) (hs : Sound w) (hok : Uncovered w a) {r : AttemptRow}
    (hr : r ∈ (w.act a).disk.attempts) (hlive : Live w.cfg r) {row : DesiredRow}
    (hrow : (w.act a).disk.desired = some row) :
    row.attemptId = none ∨ row.attemptId = some r.attempt.attemptId := by
  rw [act_desired] at hrow
  rcases live_before hr hlive with hold | ⟨b, rfl, rfl⟩
  · cases a with
    | saveDesired desired confirmed =>
        obtain rfl := Option.some.inj hrow
        have hat := hn.attempt hs hold hlive
        exact .inr (by simp [attemptId?, hat])
    | _ => exact h.desired r hold hlive row hrow
  · have hnone := hok.2
    rw [show w.disk.desired = some row from hrow] at hnone
    exact .inl (by simpa using hnone)

theorem OwnRows.act {a : Action} (hn : LiveNewest w.cfg w.disk) (h : OwnRows w.cfg w.disk)
    (hs : Sound w) (hp : Permits w a) (hok : Uncovered w a) :
    OwnRows w.cfg (w.act a).disk where
  peer := fun _ hr hlive q => ownRows_peer hn h hs hp hok hr hlive q
  cleared := by
    intro row hrow hnone
    rw [act_desired] at hrow
    cases a with
    | saveDesired desired confirmed =>
        obtain rfl := Option.some.inj hrow
        exact hp.1 (Option.map_eq_none_iff.1 hnone)
    | _ => exact h.cleared row hrow hnone
  desired := fun _ hr hlive _ hrow => ownRows_desired hn h hs hok hr hlive hrow

/-! ## Reopening -/

/-- The view the attempt's own row holds. -/
def ownPeer (d : Disk) (a : Attempt) : PeerLegView :=
  match d.peerLegs.get a.attemptId with
  | some (.view v) => v
  | _ => {}

/-- The intent the attempt's own row holds. -/
def ownDesired (d : Disk) (a : Attempt) : DesiredState × Bool :=
  match d.desired with
  | some row =>
      if row.attemptId = some a.attemptId then (row.desired, row.pairConfirmed)
      else (.none, false)
  | none => (.none, false)

/--
Constructing a cell over the database returns, and the cell follows the
unresolved attempt of its route, with that attempt's rows, when there is one.
-/
def Reopens (c : Config) (d : Disk) : Prop :=
  ∃ w, load c d = some w ∧
    (∀ a, w.mem.attempt = some a ↔ ∃ r ∈ d.attempts, r.attempt = a ∧ Live c r) ∧
    ∀ a, w.mem.attempt = some a → w.mem.leg = d.legs.get a.attemptId ∧
      w.mem.peerLeg = ownPeer d a ∧ (w.mem.desired, w.mem.pairConfirmed) = ownDesired d a

theorem loadPeer_own {a : Attempt} (h : ∀ q, d.peerLegs.get a.attemptId ≠ some (.raw q)) :
    loadPeer d a = some (ownPeer d a) := by
  unfold loadPeer ownPeer
  cases hrow : d.peerLegs.get a.attemptId with
  | none => rfl
  | some row =>
      cases row with
      | view v => rfl
      | raw q => exact absurd hrow (h q)

theorem OwnRows.loadDesired (h : OwnRows c d) {r : AttemptRow} (hr : r ∈ d.attempts)
    (hlive : Live c r) :
    ((d.desired.map DesiredRow.desired).getD .none,
      (d.desired.map DesiredRow.pairConfirmed).getD false) = ownDesired d r.attempt := by
  unfold ownDesired
  cases hrow : d.desired with
  | none => rfl
  | some row =>
      rcases h.desired r hr hlive row hrow with hnone | hown
      · obtain ⟨hd, hc⟩ := h.cleared row hrow hnone
        simp [hnone, hd, hc]
      · simp [hown]

theorem reopens_of_ownRows (hd : DiskSound c d) (hn : LiveNewest c d) (h : OwnRows c d) :
    Reopens c d := by
  unfold Reopens
  rw [load_eq hd]
  cases hat : loadedAttempt c d with
  | none =>
      refine ⟨_, rfl, fun a => ⟨(fun ha => by cases ha), ?_⟩, (fun a ha => by cases ha)⟩
      rintro ⟨r, hr, -, hlive⟩
      rw [hn.loaded hr hlive] at hat
      cases hat
  | some a =>
      obtain ⟨r, hr, rfl, hlive⟩ := loadedAttempt_live hat
      simp only [loadPeer_own (h.peer r hr hlive), Option.map_some]
      refine ⟨_, rfl, fun b => ⟨?_, ?_⟩, ?_⟩
      · intro hb
        obtain rfl := Option.some.inj hb
        exact ⟨r, hr, rfl, hlive⟩
      · rintro ⟨q, hq, rfl, hlq⟩
        rw [hn.unique hq hr hlq hlive]
        rfl
      · intro b hb
        obtain rfl := Option.some.inj hb
        exact ⟨rfl, rfl, h.loadDesired hr hlive⟩

/-- Both conditions on every action carried out. -/
def Unobstructed : Proc → Label → Prop := onExec fun w a => Unhidden w a ∧ Uncovered w a

instance (p : Proc) (l : Label) : Decidable (Unobstructed p l) :=
  inferInstanceAs (Decidable (onExec _ p l))

theorem reach_ownRows {p : Proc} (h : Reach Proc.Step Unobstructed (.init c) p) :
    (LiveNewest c p.disk ∧ OwnRows c p.disk) ∧ p.cfg = c ∧ p.Sound := by
  refine Proc.reach_disk (I := fun d => LiveNewest c d ∧ OwnRows c d) h ⟨?_, ?_⟩ ?_
  · exact fun r hr => absurd hr (by simp)
  · exact ⟨(fun r hr => by simp at hr), (fun row hrow => by simp at hrow),
      (fun r hr => by simp at hr)⟩
  · rintro w a todo hs rfl ⟨hn, ho⟩ hp ⟨hunhidden, huncovered⟩
    exact ⟨hn.act hs hp hunhidden, ho.act hn hs hp huncovered⟩

/--
In every run in which no new row hides the unresolved attempt and none of
another attempt's rows is left where the new attempt's go, the cell can be
reopened at any point and then follows exactly the unresolved attempt.
-/
theorem reopening_adopts_unresolved (c : Config) (p : Proc)
    (h : Reach Proc.Step Unobstructed (.init c) p) : Reopens c p.disk := by
  obtain ⟨⟨hn, ho⟩, rfl, hs⟩ := reach_ownRows h
  exact reopens_of_ownRows hs.diskSound hn ho

/-- A leader that stopped in the middle of an entry is reopened with its attempt. -/
theorem reopening_adopts_leader_attempt :
    ∃ p, Reach Proc.Step Unobstructed (.init Sample.leader) p ∧
      (∃ r ∈ p.disk.attempts, Live Sample.leader r) ∧ Reopens Sample.leader p.disk := by
  obtain ⟨p, hreach, hlive⟩ := Proc.play_any Unobstructed (.init Sample.leader)
    (Sample.ready ++ [.call (.event (.readinessFacts 2 Sample.emptyFacts))
      { decision := some (Sample.attempt 100), depth := 5 }, .next 12, .crash])
    (fun p => decide (∃ r ∈ p.disk.attempts, Live Sample.leader r)) (by decide +kernel)
  exact ⟨p, hreach, of_decide_eq_true hlive, reopening_adopts_unresolved _ p hreach⟩

/-- An unresolved attempt of the route that the constructor does not follow. -/
def forgotten (c : Config) (d : Disk) : Bool :=
  (load c d).all (fun w => decide (w.mem.attempt = none)) &&
    decide (∃ r ∈ d.attempts, Live c r)

theorem not_reopens_of_forgotten (h : forgotten c d = true) : ¬ Reopens c d := by
  rintro ⟨w, hload, hiff, -⟩
  simp only [forgotten, hload, Option.all_some, Bool.and_eq_true, decide_eq_true_eq] at h
  obtain ⟨hnone, r, hr, hlive⟩ := h
  have hat := (hiff r.attempt).2 ⟨r, hr, rfl, hlive⟩
  rw [hnone] at hat
  cases hat

/-- A follower that refuses a second attempt while it holds the first forgets the first. -/
theorem refusal_hides_unresolved :
    ¬ ∀ c p, Reach Proc.Step anyStep (.init c) p → Reopens c p.disk := by
  intro h
  obtain ⟨p, hreach, hp⟩ := Proc.play_any anyStep (.init Sample.follower)
    (Sample.ready ++ Sample.facts 2 {} ++
      Sample.deliver (.attempt (Sample.attempt 100))
        { replies := [Sample.filled], depth := 5 } ++
      Sample.deliver (.attempt (Sample.attempt 101)) {})
    (fun p => forgotten Sample.follower p.disk) (by decide +kernel)
  exact not_reopens_of_forgotten hp (h _ p hreach)

end PairCell
