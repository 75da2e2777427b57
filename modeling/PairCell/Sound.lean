import PairCell.Discipline
import PairCell.Frame

/-!
# Permitted actions keep the bookkeeping

One lemma for each kind of action, and one for loading a cell from a database.
-/

namespace PairCell

open Lib World

variable {w : World}

theorem act_shadow (x : Action) :
    (w.act x).shadow =
      match x with
      | .savePolicy p => decide (p.mode = .shadow)
      | _ => w.shadow := by
  unfold World.shadow
  rw [act_policy]
  cases x <;> rfl

/-! ## Rows -/

theorem newestRow_append (rows : List AttemptRow) (r : AttemptRow) :
    newestRow (rows ++ [r]) = newerRow (newestRow rows) r := by
  simp [newestRow, List.foldl_append]

theorem newerRow_map {f : AttemptRow → AttemptRow}
    (hf : ∀ r, (f r).createdAt = r.createdAt) (best : Option AttemptRow) (r : AttemptRow) :
    newerRow (best.map f) (f r) = (newerRow best r).map f := by
  cases best with
  | none => rfl
  | some b =>
      simp only [newerRow, Option.map_some, hf]
      split <;> rfl

theorem newestRow_map {f : AttemptRow → AttemptRow}
    (hf : ∀ r, (f r).createdAt = r.createdAt) (rows : List AttemptRow) :
    newestRow (rows.map f) = (newestRow rows).map f := by
  induction rows using List.reverseRecOn with
  | nil => rfl
  | append_singleton rows r ih =>
      rw [List.map_append, List.map_singleton, newestRow_append, newestRow_append, ih,
        newerRow_map hf]

theorem newerRow_eq_some {best : Option AttemptRow} {r q : AttemptRow}
    (h : newerRow best r = some q) : q = r ∨ best = some q := by
  cases best with
  | none => exact .inl (Option.some.inj h).symm
  | some b =>
      simp only [newerRow] at h
      split at h
      · exact .inl (Option.some.inj h).symm
      · exact .inr h

theorem newestRow_mem {rows : List AttemptRow} {r : AttemptRow}
    (h : newestRow rows = some r) :
    r ∈ rows := by
  induction rows using List.reverseRecOn generalizing r with
  | nil => simp [newestRow] at h
  | append_singleton rows q ih =>
      rw [newestRow_append] at h
      rcases newerRow_eq_some h with rfl | hbest
      · simp
      · exact List.mem_append_left _ (ih hbest)

theorem loadedAttempt_eq_some {c : Config} {d : Disk} {a : Attempt} :
    loadedAttempt c d = some a ↔
      ∃ r, newestRow (routeRows c d) = some r ∧ r.terminal = none ∧ r.attempt = a := by
  unfold loadedAttempt
  cases newestRow (routeRows c d) with
  | none => simp
  | some r => by_cases h : r.terminal = none <;> simp [h]

theorem loadedAttempt_row {c : Config} {d : Disk} {a : Attempt}
    (h : loadedAttempt c d = some a) :
    ∃ r ∈ d.attempts, r.attempt = a ∧ r.terminal = none := by
  obtain ⟨r, hr, ht, rfl⟩ := loadedAttempt_eq_some.1 h
  exact ⟨r, (List.mem_filter.1 (newestRow_mem hr)).1, rfl, ht⟩

theorem rowOf_eq_none {d : Disk} {i : Nat} :
    d.rowOf i = none ↔ ∀ r ∈ d.attempts, r.attempt.attemptId ≠ i := by
  simp [Disk.rowOf]

theorem rowOf_mem {d : Disk} {i : Nat} {r : AttemptRow} (h : d.rowOf i = some r) :
    r ∈ d.attempts ∧ r.attempt.attemptId = i :=
  ⟨List.mem_of_find?_eq_some h, by simpa using List.find?_some h⟩

/-- Rows with distinct ids: the row of an id is the only one. -/
theorem row_unique {d : Disk} (h : (d.attempts.map fun r => r.attempt.attemptId).Nodup)
    {r q : AttemptRow} (hr : r ∈ d.attempts) (hq : q ∈ d.attempts)
    (hid : r.attempt.attemptId = q.attempt.attemptId) : r = q :=
  List.inj_on_of_nodup_map h hr hq hid

theorem rowOf_eq_some {d : Disk} (h : (d.attempts.map fun r => r.attempt.attemptId).Nodup)
    {r : AttemptRow} (hr : r ∈ d.attempts) : d.rowOf r.attempt.attemptId = some r := by
  cases hrow : d.rowOf r.attempt.attemptId with
  | none => exact absurd rfl (rowOf_eq_none.1 hrow r hr)
  | some q =>
      obtain ⟨hq, hid⟩ := rowOf_mem hrow
      rw [row_unique h hq hr hid]

@[simp] theorem terminateRow_attempt (id? : Option Nat) (reason : TerminalReason)
    (r : AttemptRow) :
    (terminateRow id? reason r).attempt = r.attempt := by
  unfold terminateRow
  split <;> rfl

@[simp] theorem terminateRow_createdAt (id? : Option Nat) (reason : TerminalReason)
    (r : AttemptRow) : (terminateRow id? reason r).createdAt = r.createdAt := by
  unfold terminateRow
  split <;> rfl

theorem terminateRow_live {id? : Option Nat} {reason : TerminalReason} {r : AttemptRow}
    (h : (terminateRow id? reason r).terminal = none) :
    some r.attempt.attemptId ≠ id? ∧ r.terminal = none := by
  unfold terminateRow at h
  split at h
  · simp at h
  · exact ⟨by assumption, h⟩

theorem terminateRow_terminal {id? : Option Nat} {reason : TerminalReason} {r : AttemptRow}
    (h : r.terminal ≠ none) : (terminateRow id? reason r).terminal ≠ none := by
  unfold terminateRow
  split
  · simp
  · exact h

/-! ## Actions that leave the books alone -/

theorem loadedAttempt_congr {c : Config} {d d' : Disk} (h : d'.attempts = d.attempts) :
    loadedAttempt c d' = loadedAttempt c d := by
  simp [loadedAttempt, routeRows, h]

/-- A transition that terminates nothing. -/
def Harmless (t : Transition) : Prop := ∀ reason, t.event ≠ .terminated reason

theorem DiskSound.congr {c : Config} {d d' : Disk} (h : DiskSound c d)
    (hattempts : d'.attempts = d.attempts) (hlegs : d'.legs = d.legs)
    (hsent : d'.sent = d.sent)
    (htransitions : ∀ t ∈ d'.transitions, t ∈ d.transitions ∨ Harmless t)
    (hstop : ∀ stop, d'.stop = some stop → d.stop = some stop) : DiskSound c d' where
  ids := hattempts ▸ h.ids
  route := hattempts ▸ h.route
  legs := by rw [hattempts, hlegs]; exact h.legs
  sent := by rw [hsent, hlegs]; exact h.sent
  terminated := by
    intro t ht reason hreason
    rw [hattempts]
    rcases htransitions t ht with hold | hharmless
    · exact h.terminated t hold reason hreason
    · exact absurd hreason (hharmless reason)
  stop := by
    intro stop i hstop' hi a ha
    rw [loadedAttempt_congr hattempts] at ha
    exact h.stop stop i (hstop stop hstop') hi a ha

/-! ## Actions on the books -/

section Acts

theorem loadedAttempt_adopt (c : Config) (d : Disk) (a : Attempt) (now : Nat)
    {b : Attempt}
    (h : loadedAttempt c { d with attempts := d.attempts ++ [⟨a, now, none⟩] } = some b) :
    b = a ∨ loadedAttempt c d = some b := by
  obtain ⟨r, hr, ht, rfl⟩ := loadedAttempt_eq_some.1 h
  simp only [routeRows, List.filter_append] at hr
  by_cases hroute : a.routeId = c.routeId
  · simp only [List.filter_cons, List.filter_nil, hroute, decide_true, if_true] at hr
    rw [newestRow_append] at hr
    rcases newerRow_eq_some hr with rfl | hbest
    · exact .inl rfl
    · exact .inr (loadedAttempt_eq_some.2 ⟨r, hbest, ht, rfl⟩)
  · simp only [List.filter_cons, List.filter_nil, hroute, decide_false, Bool.false_eq_true,
      if_false, List.append_nil] at hr
    exact .inr (loadedAttempt_eq_some.2 ⟨r, hr, ht, rfl⟩)

theorem loadedAttempt_refuse (c : Config) (d : Disk) (a : Attempt) (now : Nat)
    (reason : TerminalReason) {b : Attempt}
    (h : loadedAttempt c
      { d with attempts := d.attempts ++ [⟨a, now, some reason⟩] } = some b) :
    loadedAttempt c d = some b := by
  obtain ⟨r, hr, ht, rfl⟩ := loadedAttempt_eq_some.1 h
  simp only [routeRows, List.filter_append] at hr
  by_cases hroute : a.routeId = c.routeId
  · simp only [List.filter_cons, List.filter_nil, hroute, decide_true, if_true] at hr
    rw [newestRow_append] at hr
    rcases newerRow_eq_some hr with rfl | hbest
    · simp at ht
    · exact loadedAttempt_eq_some.2 ⟨r, hbest, ht, rfl⟩
  · simp only [List.filter_cons, List.filter_nil, hroute, decide_false, Bool.false_eq_true,
      if_false, List.append_nil] at hr
    exact loadedAttempt_eq_some.2 ⟨r, hr, ht, rfl⟩

theorem loadedAttempt_terminate (c : Config) (d : Disk) (id? : Option Nat)
    (reason : TerminalReason) {b : Attempt}
    (h : loadedAttempt c
      { d with attempts := d.attempts.map (terminateRow id? reason) } = some b) :
    some b.attemptId ≠ id? ∧ loadedAttempt c d = some b := by
  obtain ⟨r, hr, ht, rfl⟩ := loadedAttempt_eq_some.1 h
  have hrows :
      routeRows c { d with attempts := d.attempts.map (terminateRow id? reason) } =
      (routeRows c d).map (terminateRow id? reason) := by
    simp only [routeRows, List.filter_map]
    congr 1
    exact List.filter_congr fun q _ => by simp
  rw [hrows, newestRow_map (fun q => terminateRow_createdAt id? reason q)] at hr
  obtain ⟨q, hq, rfl⟩ := Option.map_eq_some_iff.1 hr
  obtain ⟨hne, hlive⟩ := terminateRow_live ht
  rw [terminateRow_attempt]
  exact ⟨hne, loadedAttempt_eq_some.2 ⟨q, hq, hlive, rfl⟩⟩

theorem DiskSound.add_row {c : Config} {d : Disk} (h : DiskSound c d) (r : AttemptRow)
    (hid : d.rowOf r.attempt.attemptId = none)
    (hroute : r.terminal = none → r.attempt.routeId = c.routeId)
    (hstop : ∀ stop i, d.stop = some stop → stop.attempt? = some i →
      ∀ a, loadedAttempt c { d with attempts := d.attempts ++ [r] } = some a →
        a.attemptId = i) :
    DiskSound c { d with attempts := d.attempts ++ [r] } where
  ids := by
    rw [List.map_append, List.map_singleton, List.nodup_append]
    refine ⟨h.ids, by simp, ?_⟩
    rintro x hx y hy rfl
    obtain ⟨q, hq, rfl⟩ := List.mem_map.1 hx
    rw [List.mem_singleton] at hy
    exact rowOf_eq_none.1 hid q hq hy
  route := by
    intro q hq hlive
    rcases List.mem_append.1 hq with hq | hq
    · exact h.route q hq hlive
    · rw [List.mem_singleton] at hq
      exact hq ▸ hroute (hq ▸ hlive)
  legs := by
    intro i l hl
    obtain ⟨hok, q, hq, hqi⟩ := h.legs i l hl
    exact ⟨hok, q, List.mem_append_left _ hq, hqi⟩
  sent := h.sent
  terminated := by
    intro t ht reason hreason
    obtain ⟨q, hq, hqt⟩ := h.terminated t ht reason hreason
    exact ⟨q, List.mem_append_left _ hq, hqt⟩
  stop := hstop

theorem MemSound.leg_none (h : MemSound w) (ha : w.mem.attempt = none) :
    w.mem.leg = none := by
  cases hl : w.mem.leg with
  | none => rfl
  | some l =>
      obtain ⟨a, hsome, -⟩ := h.leg l hl
      rw [ha] at hsome
      cases hsome

theorem Booked.leg_row_none (h : Booked w) {i : Nat} (hrow : w.disk.rowOf i = none) :
    w.disk.legs.get i = none := by
  cases hl : w.disk.legs.get i with
  | none => rfl
  | some l =>
      obtain ⟨-, r, hr, hri⟩ := h.disk.legs i l hl
      exact absurd hri (rowOf_eq_none.1 hrow r hr)

theorem sound_adopt (h : Booked w) {a : Attempt} (hp : Permits w (.adopt a)) :
    Booked (w.act (.adopt a)) := by
  obtain ⟨hnone, hhuman, hrow, hroute, -⟩ := hp
  have hleg : w.mem.leg = none := h.mem.leg_none hnone
  have hstop : w.disk.stop = none := h.mem.stop ▸ hhuman
  constructor
  · apply h.disk.add_row ⟨a, w.mem.aux.now, none⟩ hrow (fun _ => hroute)
    intro stop i hs
    rw [hstop] at hs
    cases hs
  · exact {
      stop := h.mem.stop
      live := by
        rintro b hb
        obtain rfl : a = b := Option.some.inj hb
        exact ⟨⟨a, w.mem.aux.now, none⟩, List.mem_append_right _ (by simp), rfl, rfl⟩
      newest := by
        intro b hb
        rcases loadedAttempt_adopt _ _ _ _ hb with rfl | hold
        · rfl
        · have := h.mem.newest b hold
          rw [hnone] at this
          cases this
      busy := fun _ => .inl ⟨by simp [act], by simp [act]⟩
      leg := by
        intro l hl
        have hl' : w.mem.leg = some l := hl
        rw [hleg] at hl'
        cases hl'
      sync := by
        rintro b hb
        obtain rfl : a = b := Option.some.inj hb
        simp [act, hleg, h.leg_row_none hrow]
      stopOwn := by
        intro stop i hs
        have hs' : w.mem.needsHuman = some stop := hs
        rw [hhuman] at hs'
        cases hs'
      deferred := by
        intro r hr
        obtain ⟨i, -, hi⟩ := h.mem.deferred r hr
        simp [attemptId?, hnone] at hi
      peer := fun hb => absurd hb (by simp [act])
      fresh := fun b hb => absurd hb (by simp [act]) }

theorem sound_refuse (h : Booked w) {a : Attempt} {reason : String}
    (hp : Permits w (.refuse a reason)) : Booked (w.act (.refuse a reason)) := by
  obtain ⟨hrole, hrow, -⟩ := hp
  constructor
  · apply h.disk.add_row ⟨a, w.mem.aux.now, some (.admissionRejected reason)⟩
      hrow (by simp)
    intro stop i hs hi b hb
    exact h.disk.stop stop i hs hi b (loadedAttempt_refuse _ _ _ _ _ hb)
  · exact {
      stop := h.mem.stop
      live := by
        intro b hb
        obtain ⟨r, hr, hrb⟩ := h.mem.live b hb
        exact ⟨r, List.mem_append_left _ hr, hrb⟩
      newest := fun b hb => h.mem.newest b (loadedAttempt_refuse _ _ _ _ _ hb)
      busy := h.mem.busy
      leg := h.mem.leg
      sync := h.mem.sync
      stopOwn := h.mem.stopOwn
      deferred := h.mem.deferred
      peer := h.mem.peer
      fresh := fun b _ hb => by
        have hb' : w.cfg.role = .leader := hb
        rw [hrole] at hb'
        cases hb' }

theorem sound_terminate (h : Booked w) {reason : TerminalReason}
    (ha : w.mem.attempt ≠ none) :
    Booked (w.act (.terminate reason)) := by
  obtain ⟨a, ha⟩ := Option.ne_none_iff_exists'.1 ha
  have hid : w.attemptId? = some a.attemptId := by simp [attemptId?, ha]
  obtain ⟨r, hr, hra, hlive⟩ := h.mem.live a ha
  constructor
  · exact {
      ids := by
        have hmap : ((w.disk.attempts.map (terminateRow w.attemptId? reason)).map
            fun r => r.attempt.attemptId) = w.disk.attempts.map fun r =>
              r.attempt.attemptId := by
          simp [List.map_map, Function.comp_def]
        exact hmap ▸ h.disk.ids
      route := by
        intro q hq hqlive
        obtain ⟨q', hq', rfl⟩ := List.mem_map.1 hq
        rw [terminateRow_attempt]
        exact h.disk.route q' hq' (terminateRow_live hqlive).2
      legs := by
        intro i l hl
        obtain ⟨hok, q, hq, hqi⟩ := h.disk.legs i l hl
        exact ⟨hok, _, List.mem_map_of_mem hq, by rwa [terminateRow_attempt]⟩
      sent := h.disk.sent
      terminated := by
        intro t ht why hwhy
        rcases List.mem_append.1 ht with ht | ht
        · obtain ⟨q, hq, hqi, hqt⟩ := h.disk.terminated t ht why hwhy
          exact ⟨_, List.mem_map_of_mem hq, by rwa [terminateRow_attempt],
            terminateRow_terminal hqt⟩
        · obtain rfl := List.mem_singleton.1 ht
          refine ⟨_, List.mem_map_of_mem hr, by simp [hid, hra], ?_⟩
          simp [terminateRow, hid, hra]
      stop := by
        intro stop i hs hi b hb
        exact h.disk.stop stop i hs hi b (loadedAttempt_terminate _ _ _ _ hb).2 }
  · exact {
      stop := h.mem.stop
      live := fun b hb => absurd hb (by simp [act, forgetAttempt])
      newest := by
        intro b hb
        obtain ⟨hne, hold⟩ := loadedAttempt_terminate _ _ _ _ hb
        have hsame := h.mem.newest b hold
        rw [ha] at hsame
        rw [hid, ← Option.some.inj hsame] at hne
        exact absurd rfl hne
      busy := fun hb => absurd rfl hb
      leg := fun l hl => absurd hl (by simp [act, forgetAttempt])
      sync := fun b hb => absurd hb (by simp [act, forgetAttempt])
      stopOwn := fun stop i _ _ b hb => absurd hb (by simp [act, forgetAttempt])
      deferred := fun q hq => absurd hq (by simp [act, forgetAttempt])
      peer := fun _ => rfl
      fresh := by
        intro b hb hrole
        have hold := h.mem.fresh b hb hrole
        rw [rowOf_eq_none] at hold ⊢
        intro q hq
        obtain ⟨q', hq', rfl⟩ := List.mem_map.1 hq
        rw [terminateRow_attempt]
        exact hold q' hq' }

theorem legOk_first (c : Config) (a : Attempt) : LegOk c a.attemptId (firstLeg c a) where
  attemptId := rfl
  role := rfl
  entryEffectId := rfl
  unticketed := fun _ => ⟨rfl, rfl, rfl, by simp [firstLeg]⟩
  ticketed := fun hne => absurd rfl hne
  closing := fun _ he => nomatch he

theorem LegStep.same_ticket {a : Attempt} {old l : Leg} (h : LegStep w a old l) :
    old.ticket = none ∨ l.ticket = old.ticket := by
  cases h.ticket with
  | kept hsame => exact .inr hsame
  | simulated hold => exact .inl hold
  | observed hold => exact .inl hold

theorem LegStep.legOk {a : Attempt} {old l : Leg} {i : Nat} (h : LegStep w a old l)
    (hold : LegOk w.cfg i old) : LegOk w.cfg i l where
  attemptId := h.attemptId.trans hold.attemptId
  role := h.role.trans hold.role
  entryEffectId := h.entryEffectId.trans hold.entryEffectId
  unticketed := by
    intro hnone
    have holdTicket : old.ticket = none := by
      rcases h.same_ticket with ht | ht
      · exact ht
      · rw [← ht, hnone]
    obtain ⟨hprot, hclose, -, hprecise⟩ := hold.unticketed holdTicket
    refine ⟨?_, h.close.trans hclose, ?_, ?_⟩
    · rcases h.protection with hp | ⟨hp, -⟩
      · exact hp.trans hprot
      · exact absurd hp hprecise
    · rcases h.fill with hf | hf
      · exact hf
      · exact absurd hnone hf
    · intro hp
      exact (h.precise hp).1 hnone
  ticketed := h.ticketed
  closing := by
    intro e he
    obtain ⟨t, ht, rfl⟩ := hold.closing e (h.close ▸ he)
    rcases h.same_ticket with hnone | hsame
    · rw [ht] at hnone
      cases hnone
    · exact ⟨t, hsame.trans ht, rfl⟩

theorem LegNames.legOk {a : Attempt} {old l : Leg} (h : LegNames w a old l)
    (hold : LegOk w.cfg a.attemptId old) : LegOk w.cfg a.attemptId l := by
  rcases h with ⟨rfl, hticket, -⟩ | ⟨t, hticket, rfl⟩
  · exact ⟨hold.attemptId, hold.role, hold.entryEffectId, fun hn => absurd hn hticket,
      hold.ticketed, hold.closing⟩
  · exact ⟨hold.attemptId, hold.role, hold.entryEffectId,
      fun hn => by
        simp [hticket] at hn, hold.ticketed, fun e he =>
          ⟨t, hticket, (Option.some.inj he).symm⟩⟩

/-- The saved leg is one of the attempt's. -/
theorem legOk_save (h : Booked w) {a : Attempt} {l : Leg} (ha : w.mem.attempt = some a)
    (hp : Permits w (.saveLeg l)) : LegOk w.cfg a.attemptId l := by
  obtain ⟨-, b, hb, hstep⟩ := hp
  obtain rfl : a = b := Option.some.inj (ha.symm.trans hb)
  cases hleg : w.mem.leg with
  | none =>
      simp only [hleg] at hstep
      exact hstep.1 ▸ legOk_first w.cfg a
  | some old =>
      simp only [hleg] at hstep
      obtain ⟨b, hb', hold⟩ := h.mem.leg old hleg
      obtain rfl : a = b := Option.some.inj (ha.symm.trans hb')
      exact hstep.legOk hold

theorem dispatched_save (h : Booked w) {a : Attempt} {l d : Leg}
    (ha : w.mem.attempt = some a) (hp : Permits w (.saveLeg l))
    (hd : w.disk.legs.get a.attemptId = some d) (hdisp : d.entryDispatched = true) :
    l.entryDispatched = true := by
  obtain ⟨-, b, hb, hstep⟩ := hp
  have hsync := h.mem.sync a ha
  cases hleg : w.mem.leg with
  | none => simp [hleg, hd] at hsync
  | some old =>
      simp only [hleg, hd] at hsync hstep
      apply hstep.dispatched
      rw [hsync]
      exact hdisp

theorem sound_saveLeg (h : Booked w) {l : Leg} (hp : Permits w (.saveLeg l)) :
    Booked (w.act (.saveLeg l)) := by
  obtain ⟨a, ha⟩ : ∃ a, w.mem.attempt = some a := ⟨hp.2.choose, hp.2.choose_spec.1⟩
  have hok := legOk_save h ha hp
  have hlegs : (w.act (.saveLeg l)).disk.legs = w.disk.legs.set a.attemptId l := by
    simp [act, ha]
  constructor
  · exact {
      ids := h.disk.ids
      route := h.disk.route
      legs := by
        intro i d hd
        rw [hlegs, Table.get_set] at hd
        split at hd
        · rename_i hi
          obtain rfl := Option.some.inj hd
          obtain ⟨r, hr, hra, -⟩ := h.mem.live a ha
          exact ⟨hi ▸ hok, r, hr, by rw [hra, hi]⟩
        · exact h.disk.legs i d hd
      sent := by
        intro s hs hentry
        obtain ⟨i, d, hd, hdisp, he⟩ := h.disk.sent s hs hentry
        by_cases hi : i = a.attemptId
        · subst hi
          exact ⟨a.attemptId, l, by rw [hlegs, Table.get_set_self],
            dispatched_save h ha hp hd hdisp, he⟩
        · exact ⟨i, d, by rw [hlegs, Table.get_set_ne _ _ hi]; exact hd, hdisp, he⟩
      terminated := h.disk.terminated
      stop := h.disk.stop }
  · exact {
      stop := h.mem.stop
      live := h.mem.live
      newest := h.mem.newest
      busy := by
        intro hne
        rcases h.mem.busy hne with hbusy | ⟨hleg, hrec⟩
        · exact .inl hbusy
        · obtain ⟨-, b, hb, hstep⟩ := hp
          simp only [hleg] at hstep
          exact .inl ⟨by simp [act, hstep.2], by simp [act, hstep.2]⟩
      leg := by
        rintro d hd
        obtain rfl : l = d := Option.some.inj hd
        exact ⟨a, ha, hok⟩
      sync := by
        intro b hb
        obtain rfl : a = b := Option.some.inj (ha.symm.trans hb)
        rw [hlegs, Table.get_set_self]
        exact rfl
      stopOwn := h.mem.stopOwn
      deferred := h.mem.deferred
      peer := h.mem.peer
      fresh := h.mem.fresh }

theorem sound_memLeg (h : Booked w) {l : Leg} (hp : Permits w (.memLeg l)) :
    Booked (w.act (.memLeg l)) := by
  obtain ⟨a, old, ha, hold, hnames⟩ := hp
  obtain ⟨b, hb, hok⟩ := h.mem.leg old hold
  obtain rfl : a = b := Option.some.inj (ha.symm.trans hb)
  refine ⟨h.disk, ?_⟩
  exact {
    stop := h.mem.stop
    live := h.mem.live
    newest := h.mem.newest
    busy := by
      intro hne
      rcases h.mem.busy hne with hbusy | ⟨hleg, -⟩
      · exact .inl hbusy
      · rw [hold] at hleg
        cases hleg
    leg := by
      rintro d hd
      obtain rfl : l = d := Option.some.inj hd
      exact ⟨a, ha, hnames.legOk hok⟩
    sync := by
      intro b hb
      obtain rfl : a = b := Option.some.inj (ha.symm.trans hb)
      have hsync := h.mem.sync a ha
      cases hd : w.disk.legs.get a.attemptId with
      | none => simp [hold, hd] at hsync
      | some d =>
          simp only [hold, hd] at hsync
          have hlegs : (w.act (.memLeg l)).disk.legs.get a.attemptId = some d := hd
          simp only [hlegs]
          show LegSync l d
          rcases hnames with ⟨rfl, -⟩ | ⟨t, -, rfl⟩
          · rw [LegSync, hsync]
          · rw [LegSync, hsync]
    stopOwn := h.mem.stopOwn
    deferred := h.mem.deferred
    peer := h.mem.peer
    fresh := h.mem.fresh }

theorem harmless_append {ts : List Transition} {id? : Option Nat}
    {event : TransitionEvent} {now : Nat} (h : ∀ reason, event ≠ .terminated reason) :
    ∀ t ∈ ts ++ [⟨id?, event, now⟩], t ∈ ts ∨ Harmless t := by
  intro t ht
  rcases List.mem_append.1 ht with ht | ht
  · exact .inl ht
  · obtain rfl := List.mem_singleton.1 ht
    exact .inr h

theorem sound_latch (h : Booked w) {stop : Stop} (hp : Permits w (.latch stop)) :
    Booked (w.act (.latch stop)) := by
  constructor
  · exact {
      ids := h.disk.ids
      route := h.disk.route
      legs := h.disk.legs
      sent := h.disk.sent
      terminated := by
        intro t ht reason hreason
        rcases harmless_append (by simp) t ht with ht | ht
        · exact h.disk.terminated t ht reason hreason
        · exact absurd hreason (ht reason)
      stop := by
        rintro s i hs hi b hb
        obtain rfl : stop = s := Option.some.inj hs
        exact hp i hi b (h.mem.newest b hb) }
  · exact {
      stop := rfl
      live := h.mem.live
      newest := h.mem.newest
      busy := h.mem.busy
      leg := h.mem.leg
      sync := h.mem.sync
      stopOwn := by
        rintro s i hs hi b hb
        obtain rfl : stop = s := Option.some.inj hs
        exact hp i hi b hb
      deferred := h.mem.deferred
      peer := h.mem.peer
      fresh := h.mem.fresh }

theorem sound_unlatch (h : Booked w) {toEmpty : Bool} {event : String}
    (hp : Permits w (.unlatch toEmpty event)) :
    Booked (w.act (.unlatch toEmpty event)) := by
  constructor
  · exact h.disk.congr rfl rfl rfl (harmless_append (by simp)) (fun stop hs => by
      have hs' : (none : Option Stop) = some stop := hs
      cases hs')
  · exact {
      stop := rfl
      live := h.mem.live
      newest := h.mem.newest
      busy := by
        intro hne
        cases toEmpty with
        | true => exact absurd (hp rfl) hne
        | false => exact h.mem.busy hne
      leg := h.mem.leg
      sync := h.mem.sync
      stopOwn := by
        intro s i hs
        have hs' : (none : Option Stop) = some s := hs
        cases hs'
      deferred := h.mem.deferred
      peer := h.mem.peer
      fresh := h.mem.fresh }

theorem sound_setState (h : Booked w) {s : PairState} (hp : Permits w (.setState s)) :
    Booked (w.act (.setState s)) :=
  ⟨h.disk, { h.mem with busy := fun _ => .inl ⟨hp.1, hp.2.1⟩ }⟩

theorem sound_setRecovering (h : Booked w) {b : Bool} (hp : Permits w (.setRecovering b)) :
    Booked (w.act (.setRecovering b)) := by
  refine ⟨h.disk, { h.mem with busy := ?_ }⟩
  intro hne
  rcases h.mem.busy hne with hbusy | ⟨hleg, -⟩
  · exact .inl hbusy
  · cases b with
    | true => exact .inr ⟨hleg, rfl⟩
    | false => exact absurd hleg (hp rfl hne)

theorem sound_setAux (h : Booked w) {x : Aux} (hp : Permits w (.setAux x)) :
    Booked (w.act (.setAux x)) :=
  ⟨h.disk, { h.mem with deferred := hp.2 }⟩

theorem sound_savePeerLeg (h : Booked w) {v : PeerLegView}
    (hp : Permits w (.savePeerLeg v)) :
    Booked (w.act (.savePeerLeg v)) := by
  obtain ⟨a, p, ha, -⟩ := hp
  constructor
  · exact h.disk.congr rfl rfl rfl (fun t ht => .inl ht) (fun stop hs => hs)
  · refine { h.mem with peer := ?_ }
    intro hnone
    have hnone' : w.mem.attempt = none := hnone
    rw [ha] at hnone'
    cases hnone'

/-- The stored leg agrees with the one in memory on everything but the effect ids. -/
theorem Booked.stored (h : Booked w) {a : Attempt} {l : Leg} (ha : w.mem.attempt = some a)
    (hl : w.mem.leg = some l) : ∃ d, w.disk.legs.get a.attemptId =
      some d ∧ LegSync l d := by
  have hsync := h.mem.sync a ha
  cases hd : w.disk.legs.get a.attemptId with
  | none => simp [hl, hd] at hsync
  | some d =>
      simp only [hl, hd] at hsync
      exact ⟨d, rfl, hsync⟩

theorem DiskSound.add_sent {c : Config} {d : Disk} (h : DiskSound c d) (s : Sent)
    (hs : s.payload.isEntry = true → ∃ i l, d.legs.get i = some l ∧
      l.entryDispatched = true ∧
      s.effect = .cell i c.workerId .entry) :
    DiskSound c { d with sent := d.sent ++ [s] } where
  ids := h.ids
  route := h.route
  legs := h.legs
  sent := by
    intro q hq hentry
    rcases List.mem_append.1 hq with hq | hq
    · exact h.sent q hq hentry
    · obtain rfl := List.mem_singleton.1 hq
      exact hs hentry
  terminated := h.terminated
  stop := h.stop

theorem sound_orderSend (h : Booked w) {e : EffectId} {p : Payload} {r : Reply}
    (hp : Permits w (.orderSend e p r)) : Booked (w.act (.orderSend e p r)) := by
  obtain ⟨-, -, hentry, -⟩ := hp
  have hdisk : DiskSound w.cfg { w.disk with sent := w.disk.sent ++ [⟨e, p, r⟩] } := by
    apply h.disk.add_sent
    intro he
    obtain ⟨a, l, ha, hl, heff, -, -, hdisp, -⟩ := hentry he
    obtain ⟨d, hd, hsync⟩ := h.stored ha hl
    refine ⟨a.attemptId, d, hd, ?_, heff⟩
    rw [hsync] at hdisp
    exact hdisp
  cases hr : isReceipt r.response with
  | true =>
      simp only [act, hr, if_true]
      exact ⟨hdisk, { h.mem with }⟩
  | false =>
      simp only [act, hr, Bool.false_eq_true, if_false]
      exact ⟨hdisk, { h.mem with }⟩

theorem Booked.journal (h : Booked w) (j : Table EffectId JournalRow) :
    Booked { w with disk := { w.disk with journal := j } } :=
  ⟨h.disk.congr rfl rfl rfl (fun _ ht => .inl ht) (fun _ hs => hs), { h.mem with }⟩

theorem Booked.act (h : Booked w) {a : Action} (hp : Permits w a) : Booked (w.act a) := by
  cases a with
  | adopt a => exact sound_adopt h hp
  | refuse a reason => exact sound_refuse h hp
  | terminate reason =>
      apply sound_terminate h
      cases reason with
      | bothEmptyVerified =>
          obtain ⟨-, a, l, ha, -⟩ := hp
          simp [ha]
      | noLocalEffectWasEverPrepared => exact hp.2.1
      | admissionRejected _ => exact hp.elim
  | saveLeg l => exact sound_saveLeg h hp
  | memLeg l => exact sound_memLeg h hp
  | savePeerLeg v => exact sound_savePeerLeg h hp
  | latePeerLeg p =>
      exact ⟨h.disk.congr rfl rfl rfl (harmless_append (by simp)) (fun _ hs => hs),
        { h.mem with }⟩
  | saveDesired desired confirmed =>
      exact ⟨h.disk.congr rfl rfl rfl (fun _ ht => .inl ht) (fun _ hs => hs),
        { h.mem with }⟩
  | saveActive since =>
      exact ⟨h.disk.congr rfl rfl rfl (fun _ ht => .inl ht) (fun _ hs => hs),
        { h.mem with }⟩
  | savePolicy p =>
      exact ⟨h.disk.congr rfl rfl rfl (fun _ ht => .inl ht) (fun _ hs => hs),
        { h.mem with }⟩
  | latch stop => exact sound_latch h hp
  | unlatch toEmpty event => exact sound_unlatch h hp
  | transition event =>
      refine ⟨h.disk.congr rfl rfl rfl (harmless_append ?_) (fun _ hs => hs),
        { h.mem with }⟩
      rintro reason rfl
      exact hp
  | bump =>
      exact ⟨h.disk.congr rfl rfl rfl (fun _ ht => .inl ht) (fun _ hs => hs),
        { h.mem with }⟩
  | setState s => exact sound_setState h hp
  | setRecovering b => exact sound_setRecovering h hp
  | setAux x => exact sound_setAux h hp
  | prepare e p own =>
      cases own with
      | true =>
          exact ⟨h.disk.congr rfl rfl rfl (fun _ ht => .inl ht) (fun _ hs => hs),
            { h.mem with }⟩
      | false => exact h.journal _
  | markSendStarted e =>
      obtain ⟨j, hj⟩ := moveJournal_eq (w := w) e .sendStarted none
      simp only [World.act, hj]
      exact ⟨(h.journal j).disk, { (h.journal j).mem with }⟩
  | recordReceipt e retcode =>
      obtain ⟨j, hj⟩ := moveJournal_eq (w := w) e .receipt retcode
      simp only [World.act, hj]
      exact ⟨(h.journal j).disk, { (h.journal j).mem with }⟩
  | recordObservation e =>
      obtain ⟨j, hj⟩ := moveJournal_eq (w := w) e .observed none
      simp only [World.act, hj]
      exact ⟨(h.journal j).disk, { (h.journal j).mem with }⟩
  | orderSend e p r => exact sound_orderSend h hp
  | brokerRead s => exact ⟨h.disk, { h.mem with }⟩
  | turn e exhausted =>
      cases exhausted with
      | true => exact ⟨h.disk, { h.mem with }⟩
      | false => exact ⟨h.disk, { h.mem with }⟩
  | complete e => exact h
  | tick => exact ⟨h.disk, { h.mem with }⟩
  | relay m =>
      exact ⟨h.disk.congr rfl rfl rfl (fun _ ht => .inl ht) (fun _ hs => hs),
        { h.mem with }⟩

/-! ## The journal -/

theorem unresolved_iff {d : Disk} {e : EffectId} :
    d.unresolved e = true ↔
      ∃ r, d.journal.get e = some r ∧ (r.state = .prepared ∨ r.state = .sendStarted) := by
  unfold Disk.unresolved
  cases d.journal.get e with
  | none => simp
  | some r => cases hs : r.state <;> simp [JournalRow.unresolved, hs]

/-- How a permitted action moves the journal row of the effect `x`. -/
inductive JournalStep (x : EffectId) : Action → Option JournalRow →
    Option JournalRow → Prop where
  | same (a : Action) (row? : Option JournalRow) : JournalStep x a row? row?
  | prepare (p : Payload) (own : Bool) :
      JournalStep x (.prepare x p own) none (some ⟨p, .prepared, none, own⟩)
  | start (r : JournalRow) (h : r.state = .prepared) :
      JournalStep x (.markSendStarted x) (some r)
        (some { r with state := .sendStarted, retcode := none })
  | receipt (r : JournalRow) (retcode : Option Int)
      (h : r.state = .sendStarted ∨ r.state = .receipt) :
      JournalStep x (.recordReceipt x retcode) (some r)
        (some { r with state := .receipt, retcode := retcode })
  | observe (r : JournalRow) (h : r.state = .prepared ∨ r.state = .sendStarted) :
      JournalStep x (.recordObservation x) (some r)
        (some { r with state := .observed, retcode := none })

theorem journalStep_move {e x : EffectId} {state : EffectState}
    {retcode : Option Int} {a : Action} {r : JournalRow}
    (hr : w.disk.journal.get e = some r)
    (h : JournalStep e a (some r) (some { r with state := state, retcode := retcode })) :
    JournalStep x a (w.disk.journal.get x)
      ((w.moveJournal e state retcode).disk.journal.get x) := by
  rw [moveJournal_get]
  split
  · next hx =>
      subst hx
      rw [hr]
      exact h
  · exact .same _ _

/-- The actions on the journal are the only ones that change it. -/
theorem act_journal {a : Action} (hp : Permits w a) (x : EffectId) :
    JournalStep x a (w.disk.journal.get x) ((w.act a).disk.journal.get x) := by
  cases a with
  | prepare e p own =>
      have hset : (w.act (.prepare e p own)).disk.journal =
          w.disk.journal.set e ⟨p, .prepared, none, own⟩ := by
        cases own <;> rfl
      rw [hset, Table.get_set]
      split
      · next hx =>
          subst hx
          rw [hp.1]
          exact .prepare p own
      · exact .same _ _
  | markSendStarted e =>
      obtain ⟨-, r, hr, hst⟩ := hp
      exact journalStep_move hr (.start r hst)
  | recordReceipt e retcode =>
      obtain ⟨⟨r, hr, hst⟩, -⟩ := hp
      exact journalStep_move hr (.receipt r retcode hst)
  | recordObservation e =>
      obtain ⟨r, hr, hst⟩ := unresolved_iff.1 hp
      exact journalStep_move hr (.observe r hst)
  | orderSend e p r =>
      have hsame : (w.act (.orderSend e p r)).disk.journal = w.disk.journal := by
        cases h : isReceipt r.response <;> simp [act, h, endWrite]
      rw [hsame]
      exact .same _ _
  | turn e exhausted => cases exhausted <;> exact .same _ _
  | _ => exact .same _ _

/-- The payload of an effect is what it was prepared with. -/
theorem Disk.journaledAs.act {a : Action} {e : EffectId} {p : Payload}
    (h : w.disk.journaledAs e p) (hp : Permits w a) : (w.act a).disk.journaledAs e p := by
  obtain ⟨row, hrow, hpayload⟩ := h
  have hstep := act_journal hp e
  unfold Disk.journaledAs
  rw [hrow] at hstep
  generalize (w.act a).disk.journal.get e = new at hstep
  cases hstep with
  | same => exact ⟨row, rfl, hpayload⟩
  | start | receipt | observe => exact ⟨_, rfl, hpayload⟩

theorem JournalStep.started {x : EffectId} {a : Action} {old new : Option JournalRow}
    (h : JournalStep x a old new)
    (hold : ∃ r, old = some r ∧ r.state ≠ .prepared) :
    ∃ r, new = some r ∧ r.state ≠ .prepared := by
  obtain ⟨q, hq, hst⟩ := hold
  cases h with
  | same => exact ⟨q, hq, hst⟩
  | prepare p own => cases hq
  | start r h => exact ⟨_, rfl, by simp⟩
  | receipt r retcode h => exact ⟨_, rfl, by simp⟩
  | observe r h => exact ⟨_, rfl, by simp⟩

theorem StartedAt.act {a : Action} {e : EffectId} (h : StartedAt w.disk e)
    (hp : Permits w a) :
    StartedAt (w.act a).disk e :=
  (act_journal hp e).started h

/-- A stored leg is replaced, never removed. -/
theorem act_leg_stays (a : Action) {i : Nat} (h : ∃ l, w.disk.legs.get i = some l) :
    ∃ l, (w.act a).disk.legs.get i = some l := by
  rw [act_legs]
  split
  · next l b _ =>
      rw [Table.get_set]
      split
      · exact ⟨l, rfl⟩
      · exact h
  · exact h

/-- The ids of the stored attempts only grow. -/
theorem act_row_stays (x : Action) {a : Attempt}
    (h : ∃ r ∈ w.disk.attempts, r.attempt = a) :
    ∃ r ∈ (w.act x).disk.attempts, r.attempt = a := by
  obtain ⟨r, hr, ha⟩ := h
  rw [act_attempts]
  cases x with
  | adopt b => exact ⟨r, List.mem_append_left _ hr, ha⟩
  | refuse b reason => exact ⟨r, List.mem_append_left _ hr, ha⟩
  | terminate reason =>
      exact ⟨_, List.mem_map_of_mem hr, by rw [terminateRow_attempt]; exact ha⟩
  | _ => exact ⟨r, hr, ha⟩

/-- Only the cell's own prepare makes a row its own. -/
theorem JournalStep.own {x : EffectId} {a : Action} {old : Option JournalRow}
    {r : JournalRow} (h : JournalStep x a old (some r)) (hown : r.own = true) :
    (∃ p, a = .prepare x p true) ∨ ∃ q, old = some q ∧ q.own = true := by
  cases h with
  | same => exact .inr ⟨r, rfl, hown⟩
  | prepare p own => exact .inl ⟨p, by simp_all⟩
  | start q h => exact .inr ⟨q, rfl, hown⟩
  | receipt q retcode h => exact .inr ⟨q, rfl, hown⟩
  | observe q h => exact .inr ⟨q, rfl, hown⟩

theorem JournalSound.act (hw : Booked w) (h : JournalSound w.disk w.mem.armed) {a : Action}
    (hp : Permits w a) : JournalSound (w.act a).disk (w.act a).mem.armed := by
  refine ⟨?_, ?_, ?_⟩
  · intro s hs
    rw [act_sent, List.mem_append] at hs
    rcases hs with hs | hs
    · exact (h.sent s hs).act hp
    · cases a with
      | orderSend e p r =>
          obtain rfl := List.mem_singleton.1 hs
          exact (h.armed e hp.1).act hp
      | _ => cases hs
  · intro e he
    rw [act_armed] at he
    cases a with
    | markSendStarted x =>
        obtain rfl := Option.some.inj he
        obtain ⟨-, r, hr, hst⟩ := id hp
        have hget := moveJournal_get (w := w) x x .sendStarted none
        rw [if_pos rfl, hr] at hget
        exact ⟨_, hget, by simp⟩
    | orderSend x p r => cases he
    | _ => exact (h.armed e he).act hp
  · intro e r hr hown
    have hstep := act_journal hp e
    rw [hr] at hstep
    rcases hstep.own hown with ⟨p, rfl⟩ | ⟨q, hq, hqown⟩
    · obtain ⟨-, b, l, kind, hb, hl, he, -⟩ := (hp.2 rfl).1
      obtain ⟨d, hd, -⟩ := hw.stored hb hl
      obtain ⟨l', hl'⟩ := act_leg_stays (.prepare e p true) ⟨d, hd⟩
      exact ⟨b.attemptId, l', by rw [he]; rfl, hl'⟩
    · obtain ⟨i, d, hi, hd⟩ := h.own e q hq hqown
      obtain ⟨l', hl'⟩ := act_leg_stays a ⟨d, hd⟩
      exact ⟨i, l', hi, hl'⟩

theorem Sound.act (h : Sound w) {a : Action} (hp : Permits w a) : Sound (w.act a) :=
  ⟨h.toBooked.act hp, h.journal.act h.toBooked hp⟩

end Acts

/-! ## Loading -/

theorem foreignAttempt_none {c : Config} {d : Disk} (h : DiskSound c d) :
    foreignAttempt c d = none := by
  have hrows : (d.attempts.filter fun r =>
      r.terminal.isNone && decide (r.attempt.routeId ≠ c.routeId)) = [] := by
    rw [List.filter_eq_nil_iff]
    intro r hr
    cases ht : r.terminal with
    | some reason => simp
    | none => simp [h.route r hr ht]
  rw [foreignAttempt, hrows]
  rfl

/-- The loaded world, when the constructor returns. -/
theorem load_eq {c : Config} {d : Disk} (h : DiskSound c d) :
    load c d =
      match loadedAttempt c d with
      | none => some { cfg := c, disk := d, mem := loadCommon d }
      | some a => (loadPeer d a).map fun peer =>
          { cfg := c, disk := d, mem := loadAttempt d a peer } := by
  unfold load
  rw [foreignAttempt_none h]
  rfl

theorem recoveredState_busy (l : Leg) (desired : DesiredState) (active : Option Nat) :
    recoveredState l desired active ≠ .empty ∧
      recoveredState l desired active ≠ .idle := by
  unfold recoveredState
  repeat' split
  all_goals exact ⟨by decide, by decide⟩

theorem booked_load {c : Config} {d : Disk} {w : World} (h : DiskSound c d)
    (hload : load c d = some w) : Booked w := by
  rw [load_eq h] at hload
  cases hat : loadedAttempt c d with
  | none =>
      simp only [hat, Option.some.injEq] at hload
      subst hload
      refine ⟨h, ?_⟩
      exact {
        stop := rfl
        live := fun a ha => by cases ha
        newest := fun a ha => by rw [hat] at ha; cases ha
        busy := fun hne => absurd rfl hne
        leg := fun l hl => by cases hl
        sync := fun a ha => by cases ha
        stopOwn := fun _ _ _ _ a ha => by cases ha
        deferred := fun r hr => by cases hr
        peer := fun _ => rfl
        fresh := fun a ha => by cases ha }
  | some a =>
      simp only [hat, Option.map_eq_some_iff] at hload
      obtain ⟨peer, -, rfl⟩ := hload
      refine ⟨h, ?_⟩
      exact {
        stop := rfl
        live := by
          rintro b hb
          obtain rfl : a = b := Option.some.inj hb
          exact loadedAttempt_row hat
        newest := fun b hb => by rw [hat] at hb; exact hb
        busy := by
          intro _
          cases hl : d.legs.get a.attemptId with
          | none => exact .inr ⟨hl, rfl⟩
          | some l =>
              left
              simp only [loadAttempt, hl]
              exact recoveredState_busy _ _ _
        leg := fun l hl => ⟨a, rfl, (h.legs a.attemptId l hl).1⟩
        sync := by
          rintro b hb
          obtain rfl : a = b := Option.some.inj hb
          cases hl : d.legs.get a.attemptId with
          | none => simp [loadAttempt, hl]
          | some l =>
              simp only [loadAttempt, hl]
              rfl
        stopOwn := by
          rintro stop i hs hi b hb
          obtain rfl : a = b := Option.some.inj hb
          exact h.stop stop i hs hi a hat
        deferred := fun r hr => by cases hr
        peer := fun hnone => by cases hnone
        fresh := fun b hb => by cases hb }

theorem Sound.load {c : Config} {d : Disk} {w : World} (h : DiskSound c d)
    (hj : JournalSound d none) (hload : load c d = some w) : Sound w := by
  refine ⟨booked_load h hload, ?_⟩
  rw [load_eq h] at hload
  cases hat : loadedAttempt c d with
  | none =>
      simp only [hat, Option.some.injEq] at hload
      subst hload
      exact hj
  | some a =>
      simp only [hat, Option.map_eq_some_iff] at hload
      obtain ⟨peer, -, rfl⟩ := hload
      exact hj

end PairCell
