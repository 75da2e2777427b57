import PairCell.Ends
import PairCell.Reopen
import PairCell.Stored

/-!
# Whose exposure a cell touches

A cell knows its own exposure by symbol, side and volume.  A position is taken
for the entry's when it is the only exact match, and any pending order on the
symbol is taken for one of the attempt's.  That is right as long as whatever a
read shows of that kind was created by an order of the attempt.
-/

namespace PairCell

open Lib World

variable {w : World} {x : Action} {i : Nat} {t : Ticket}

/-- The effect of this attempt and this worker. -/
def EffectId.isOf (attemptId workerId : Nat) : EffectId → Bool
  | .cell a v _ => decide (a = attemptId) && decide (v = workerId)
  | .other _ => false

/-- The ticket was created by an order of the attempt, or simulated for it. -/
def Disk.created (c : Config) (d : Disk) (attemptId : Nat) (t : Ticket) : Prop :=
  t = .shadow attemptId c.workerId ∨
    ∃ s ∈ d.sent, s.effect.isOf attemptId c.workerId = true ∧ t = .broker s.reply.ticket

instance (c : Config) (d : Disk) (attemptId : Nat) (t : Ticket) :
    Decidable (d.created c attemptId t) :=
  inferInstanceAs (Decidable (_ ∨ _))

theorem created_act (x : Action) (h : w.disk.created w.cfg i t) :
    (w.act x).disk.created w.cfg i t := by
  rcases h with h | ⟨s, hs, hrest⟩
  · exact .inl h
  · refine .inr ⟨s, ?_, hrest⟩
    rw [act_sent]
    exact List.mem_append_left _ hs

/-! ## What a read may show -/

/-- The pending orders on the symbol, and the position that would be taken for the
entry's. -/
structure Attributed (w : World) (a : Attempt) (s : Snapshot) : Prop where
  orders : ∀ o ∈ s.orders, o.symbol = a.symbol → w.disk.created w.cfg a.attemptId o.text
  entry : ∀ l ∈ w.mem.leg, undecided l.entryStatus = true →
    ∀ p ∈ s.positions, attemptMatches a l.role s = [p] →
        w.disk.created w.cfg a.attemptId p.text

instance (w : World) (a : Attempt) (s : Snapshot) : Decidable (Attributed w a s) :=
  decidable_of_iff (_ ∧ _) ⟨fun h => ⟨h.1, h.2⟩, fun h => ⟨h.orders, h.entry⟩⟩

/-- The condition on a step: a read shows only what can be attributed. -/
def Attributable (w : World) : Action → Prop
  | .brokerRead (some s) => ∀ a ∈ w.mem.attempt, Attributed w a s
  | _ => True

instance (w : World) (x : Action) : Decidable (Attributable w x) := by
  unfold Attributable
  split <;> infer_instance

/-! ## Tickets along a run -/

/-- Every stored ticket belongs to its attempt. -/
def TicketsOwned (c : Config) (d : Disk) : Prop :=
  ∀ i l t, d.legs.get i = some l → l.ticket = some t → d.created c i t

/-- The snapshot just read shows only what can be attributed. -/
def ReadAttributed (w : World) : Prop :=
  ∀ a s, w.mem.attempt = some a → w.mem.read = some s → Attributed w a s

theorem act_read (x : Action) :
    (w.act x).mem.read =
      match x with
      | .adopt _ => none
      | .orderSend .. => none
      | .brokerRead s => s
      | _ => w.mem.read := by
  cases x <;>
    simp [act, setJournal, addTransition, forgetAttempt, endWrite, endOwed,
      apply_ite World.mem, apply_ite Mem.read]

/-- An entry that is decided stays so. -/
theorem LegStep.undecided {a : Attempt} {old l : Leg} (h : LegStep w a old l)
    (hopen : undecided l.entryStatus = true) : undecided old.entryStatus = true := by
  rcases h.entry with hsame | hstep
  · rwa [← hsame]
  · cases hstep with
    | expired hold _ _ => rw [hold]; rfl
    | refused hold _ _ => rw [hold]; rfl
    | unknown hold _ => rw [hold]; rfl
    | sent hold _ => rw [hold]; rfl
    | simulated hold _ _ => rw [hold]; rfl
    | absent hold _ => rw [hold]; rfl
    | observed hold _ => rcases hold with hold | hold <;> rw [hold] <;> rfl

/-- Once something has been read, the leg in memory is an older one carried on. -/
theorem leg_before (hp : Permits w x) {l : Leg} (hl : (w.act x).mem.leg = some l)
    (hread : w.mem.read ≠ none) :
    ∃ old, w.mem.leg = some old ∧ l.role = old.role ∧
      (undecided l.entryStatus = true → undecided old.entryStatus = true) := by
  rw [act_leg] at hl
  cases x with
  | saveLeg l' =>
      obtain rfl := Option.some.inj hl
      obtain ⟨-, a, -, hleg⟩ := hp
      cases hold : w.mem.leg with
      | none =>
          simp only [hold] at hleg
          exact absurd hleg.2.2.1 hread
      | some old =>
          simp only [hold] at hleg
          exact ⟨old, rfl, hleg.role, hleg.undecided⟩
  | memLeg l' =>
      obtain rfl := Option.some.inj hl
      obtain ⟨a, old, -, hold, ⟨rfl, -⟩ | ⟨t, -, rfl⟩⟩ := hp
      · exact ⟨old, hold, rfl, id⟩
      · exact ⟨old, hold, rfl, id⟩
  | terminate reason => cases hl
  | _ => exact ⟨l, hl, rfl, id⟩

theorem Attributed.act {a : Attempt} {s : Snapshot} (h : Attributed w a s)
    (hp : Permits w x) (hread : w.mem.read ≠ none) : Attributed (w.act x) a s where
  orders := by
    intro o ho hsym
    rw [act_cfg]
    exact created_act x (h.orders o ho hsym)
  entry := by
    intro l hl hopen p hp' hone
    obtain ⟨old, hold, hrole, hundecided⟩ := leg_before hp hl hread
    rw [act_cfg]
    exact created_act x
      (h.entry old hold (hundecided hopen) p hp' (by rw [← hrole]; exact hone))

theorem ReadAttributed.act (h : ReadAttributed w) (hp : Permits w x)
    (hok : Attributable w x) :
    ReadAttributed (w.act x) := by
  intro a s ha hs
  rw [act_read] at hs
  rw [act_attempt] at ha
  have keep (ha : w.mem.attempt = some a) (hs : w.mem.read = some s) :
      Attributed (w.act x) a s := by
    refine (h a s ha hs).act hp ?_
    simp [hs]
  cases x with
  | adopt b => cases hs
  | orderSend e p r => cases hs
  | terminate reason => cases ha
  | brokerRead s' =>
      obtain rfl : s' = some s := hs
      obtain ⟨horders, hentry⟩ := hok a ha
      exact ⟨horders, hentry⟩
  | _ => exact keep ha hs

theorem TicketsOwned.act (hs : Sound w) (h : TicketsOwned w.cfg w.disk)
    (hread : ReadAttributed w) (hp : Permits w x) : TicketsOwned w.cfg (w.act x).disk := by
  intro i l t hl ht
  apply created_act x
  have hmove := act_leg_move hs hp i
  rw [hl] at hmove
  generalize hstored : w.disk.legs.get i = l? at hmove
  cases hmove with
  | same => exact h i l t hstored ht
  | first a ha hi => cases ht
  | save a old stored _ ha hi hleg hsync hstep =>
      subst hi
      cases hstep.ticket with
      | kept hsame =>
          refine h a.attemptId stored t hstored ?_
          rw [hsync] at hsame
          rw [← hsame, ht]
      | simulated _ hnew => exact .inl (Option.some.inj (ht.symm.trans hnew))
      | observed _ hopen s p hs hone hnew =>
          obtain rfl := Option.some.inj (ht.symm.trans hnew)
          have hmem : p ∈ attemptMatches a old.role s := by simp [hone]
          refine (hread a s ha hs).entry old hleg ?_ p (List.mem_of_mem_filter hmem) hone
          rcases hopen with hopen | hopen <;> rw [hopen] <;> rfl

/-- Every request the cell has prepared is about a ticket of the
attempt its effect names. -/
def RequestsOwned (c : Config) (d : Disk) : Prop :=
  ∀ e row t, d.journal.get e = some row → row.own = true → row.payload.target = some t →
    ∃ i kind, e = .cell i c.workerId kind ∧ d.created c i t

theorem Reaches.created (hs : Sound w) (h : TicketsOwned w.cfg w.disk)
    (hread : ReadAttributed w) (ht : Reaches w t) : ∃ a, w.mem.attempt = some a ∧
      w.disk.created w.cfg a.attemptId t := by
  rcases ht with ⟨l, hl, ht⟩ | ⟨a, s, o, ha, hs', ho, hsym, rfl⟩
  · obtain ⟨a, ha, -⟩ := hs.mem.leg l hl
    obtain ⟨d, hd, hsync⟩ := hs.toBooked.stored ha hl
    refine ⟨a, ha, h a.attemptId d t hd ?_⟩
    rw [hsync] at ht
    exact ht
  · exact ⟨a, ha, (hread a s ha hs').orders o ho hsym⟩

theorem RequestsOwned.act (hs : Sound w) (h : RequestsOwned w.cfg w.disk)
    (ht : TicketsOwned w.cfg w.disk) (hread : ReadAttributed w) (hp : Permits w x) :
    RequestsOwned w.cfg (w.act x).disk := by
  intro e row t hrow hown htarget
  have hstep := act_journal hp e
  rw [hrow] at hstep
  have keep {old : JournalRow} (hold : w.disk.journal.get e = some old)
      (ho : old.own = true)
      (hpay : old.payload.target = some t) :
      ∃ i kind, e = .cell i w.cfg.workerId kind ∧ (w.act x).disk.created w.cfg i t := by
    obtain ⟨i, kind, he, hcreated⟩ := h e old t hold ho hpay
    exact ⟨i, kind, he, created_act x hcreated⟩
  generalize hold : w.disk.journal.get e = old at hstep
  cases hstep with
  | same => exact keep hold hown htarget
  | prepare p own =>
      obtain ⟨⟨-, a, l, kind, ha, -, he, -⟩, hask⟩ := hp.2 hown
      obtain ⟨b, hb, hcreated⟩ := (hask t htarget).created hs ht hread
      obtain rfl := Option.some.inj (ha.symm.trans hb)
      exact ⟨a.attemptId, kind, he, created_act _ hcreated⟩
  | start r _ => exact keep hold hown htarget
  | receipt r retcode _ => exact keep hold hown htarget
  | observe r _ => exact keep hold hown htarget

/-! ## Runs -/

structure OwnedRun (c : Config) (p : Proc) : Prop where
  cfg : p.cfg = c
  sound : p.Sound
  tickets : TicketsOwned c p.disk
  requests : RequestsOwned c p.disk
  read : ∀ w todo, p = .up w todo → ReadAttributed w

theorem readAttributed_load {c : Config} {d : Disk} (hd : DiskSound c d)
    (hload : load c d = some w) : ReadAttributed w := by
  intro a s _ hs
  rw [load_eq hd] at hload
  cases hat : loadedAttempt c d with
  | none =>
      simp only [hat, Option.some.injEq] at hload
      subst hload
      cases hs
  | some a =>
      simp only [hat, Option.map_eq_some_iff] at hload
      obtain ⟨peer, -, rfl⟩ := hload
      cases hs

theorem OwnedRun.step {c : Config} {p p' : Proc} {l : Label} (h : OwnedRun c p)
    (hok : onExec Attributable p l) (hstep : Proc.Step p l p') : OwnedRun c p' := by
  have hs' := h.sound.step hstep
  cases hstep with
  | begin call script hfresh =>
      refine ⟨h.cfg, hs', h.tickets, h.requests, ?_⟩
      rintro w' todo ⟨⟩
      intro a s ha hs
      obtain ⟨horders, hentry⟩ := h.read _ _ rfl a s ha hs
      exact ⟨horders, hentry⟩
  | serve item script =>
      refine ⟨h.cfg, hs', h.tickets, h.requests, ?_⟩
      rintro w' todo ⟨⟩
      intro a s ha hs
      obtain ⟨horders, hentry⟩ := h.read _ _ rfl a s ha hs
      exact ⟨horders, hentry⟩
  | @exec w x todo =>
      obtain ⟨rfl, hs, ht, hr, hread⟩ := h
      cases hs with
      | up hs htodo _ =>
          have hread := hread _ _ rfl
          refine ⟨act_cfg w x, hs', ht.act hs hread htodo.1,
            hr.act hs ht hread htodo.1, ?_⟩
          rintro w' todo' ⟨⟩
          exact hread.act htodo.1 hok
  | crash => exact ⟨h.cfg, hs', h.tickets, h.requests, fun _ _ hp => nomatch hp⟩
  | reopen hload =>
      cases h.sound with
      | down hd _ =>
          obtain ⟨-, hcfg, hdisk⟩ := load_idle hd hload
          refine ⟨hcfg.trans h.cfg, hs', ?_, ?_, ?_⟩
          · rw [show (Proc.up _ []).disk = _ from hdisk]
            exact h.tickets
          · rw [show (Proc.up _ []).disk = _ from hdisk]
            exact h.requests
          · rintro w' todo ⟨⟩
            exact readAttributed_load hd hload

theorem reach_owned {c : Config} {p : Proc}
    (h : Reach Proc.Step (onExec Attributable) (.init c) p) : OwnedRun c p := by
  refine h.invariant ⟨rfl, Proc.sound_init c, ?_, ?_, ?_⟩ fun _ _ _ hp hok hstep =>
    hp.step hok hstep
  · intro i l t hl
    simp [Proc.init, Proc.disk] at hl
  · intro e row t hrow
    simp [Proc.init, Proc.disk] at hrow
  · rintro w todo ⟨⟩

/--
What the worker is about to do touches only exposure of the attempt.  The
scheduler is asked for a request about a ticket of the attempt that is
followed; what goes to the terminal is the request that was journaled, and one
the cell prepared is about a ticket of the attempt its effect names; and a leg
turns verified empty only on a snapshot without any order or position.
-/
structure TouchesOwn (p : Proc) : Prop where
  asked : ∀ w todo e exhausted, p = .up w (.turn e exhausted :: todo) →
    ∃ q, w.disk.journaledAs e q ∧ ∀ t, q.target = some t →
      ∃ a, w.mem.attempt = some a ∧ w.disk.created w.cfg a.attemptId t
  sent : ∀ w todo e q r, p = .up w (.orderSend e q r :: todo) →
    w.disk.journaledAs e q ∧ (w.disk.ownEffect e = true → ∀ t, q.target = some t →
      ∃ i kind, e = .cell i w.cfg.workerId kind ∧ w.disk.created w.cfg i t)
  empty : ∀ w todo l, p = .up w (.saveLeg l :: todo) → l.emptyVerified = true →
    (∃ old, w.mem.leg = some old ∧ old.emptyVerified = true) ∨
      ∃ s, w.mem.read = some s ∧ s.positions = [] ∧ s.orders = []

theorem ownEffect_row {d : Disk} {e : EffectId} (h : d.ownEffect e = true) :
    ∃ row, d.journal.get e = some row ∧ row.own = true := by
  unfold Disk.ownEffect at h
  cases hrow : d.journal.get e with
  | none => simp [hrow] at h
  | some row =>
      simp only [hrow] at h
      exact ⟨row, rfl, h⟩

theorem RequestsOwned.sent {c : Config} {d : Disk} {e : EffectId} {q : Payload}
    (h : RequestsOwned c d) (hq : d.journaledAs e q) (hown : d.ownEffect e = true)
    (ht : q.target = some t) : ∃ i kind, e = .cell i c.workerId kind ∧
      d.created c i t := by
  obtain ⟨row, hrow, rfl⟩ := hq
  obtain ⟨row', hrow', ho⟩ := ownEffect_row hown
  obtain rfl := Option.some.inj (hrow.symm.trans hrow')
  exact h e row t hrow ho ht

theorem saveLeg_verified {l : Leg} (hp : Permits w (.saveLeg l))
    (he : l.emptyVerified = true) :
    (∃ old, w.mem.leg = some old ∧ old.emptyVerified = true) ∨
      ∃ s, w.mem.read = some s ∧ s.positions = [] ∧ s.orders = [] := by
  obtain ⟨-, a, -, hleg⟩ := hp
  cases hold : w.mem.leg with
  | none =>
      simp only [hold] at hleg
      rw [hleg.1] at he
      cases he
  | some old =>
      simp only [hold] at hleg
      rcases hleg.verified he with hbefore | hverified
      · exact .inl ⟨old, rfl, hbefore⟩
      · exact .inr hverified.snapshot

/--
In every run in which each broker read shows, on the attempt's symbol, only
pending orders the attempt's own sends created, and no single position that
looks like the entry without being it, the cell touches only its own exposure.
-/
theorem containment_touches_own (c : Config) (p : Proc)
    (h : Reach Proc.Step (onExec Attributable) (.init c) p) : TouchesOwn p := by
  obtain ⟨hc, hs, ht, hr, hread⟩ := reach_owned h
  cases hs with
  | down hd hj =>
      exact ⟨(fun _ _ _ _ hp => nomatch hp), (fun _ _ _ _ _ hp => nomatch hp),
        fun _ _ _ hp => nomatch hp⟩
  | @up w todo hs htodo hidle =>
      subst hc
      refine ⟨?_, ?_, ?_⟩
      · rintro w' todo' e exhausted ⟨⟩
        obtain ⟨q, hq, hask⟩ := htodo.1
        exact ⟨q, hq, fun t htarget => (hask t htarget).created hs ht (hread _ _ rfl)⟩
      · rintro w' todo' e q r ⟨⟩
        have hq := htodo.1.2.2.2.1
        exact ⟨hq, fun hown t htarget => hr.sent hq hown htarget⟩
      · rintro w' todo' l ⟨⟩ he
        exact saveLeg_verified htodo.1 he

/-- The leader's entry is filled under the ticket 55, and it is asked to close. -/
def askedToClose (s : Snapshot) : List Move :=
  Sample.ready ++ Sample.facts 2
    { decision := some (Sample.attempt 100), replies := [Sample.filled] } ++
    [.call (.requestClose ⟨"operator", false⟩) { reads := [some s], depth := 5 }]

/-- The next action is an order about the ticket, of an effect the cell prepared. -/
def orders (t : Ticket) (p : Proc) : Bool :=
  match p with
  | .up w (.orderSend e q _ :: _) => decide (q.target = some t) && w.disk.ownEffect e
  | _ => false

theorem orders_cases {p : Proc} (h : orders t p = true) :
    ∃ w e q r todo, p = .up w (.orderSend e q r :: todo) ∧ q.target = some t ∧
      w.disk.ownEffect e = true := by
  unfold orders at h
  split at h
  · rw [Bool.and_eq_true, decide_eq_true_eq] at h
    exact ⟨_, _, _, _, _, rfl, h.1, h.2⟩
  · cases h

/-- The position of the entry is closed. -/
theorem containment_touches_entry :
    ∃ p, Reach Proc.Step (onExec Attributable) (.init Sample.leader) p ∧
      orders (.broker 55) p = true ∧ TouchesOwn p := by
  obtain ⟨p, hreach, hp⟩ := Proc.play_any (onExec Attributable) (.init Sample.leader)
    (askedToClose ⟨[], [Sample.entryHeld]⟩ ++ [.next 20]) (orders (.broker 55))
      (by decide +kernel)
  exact ⟨p, hreach, hp, containment_touches_own _ p hreach⟩

/-- Nothing the worker has sent created the ticket. -/
def unknownTo (t : Ticket) (p : Proc) : Bool :=
  decide (∀ s ∈ p.disk.sent, t ≠ .broker s.reply.ticket)

/-- A pending order that somebody else placed on the symbol is cancelled. -/
theorem foreign_order_cancelled :
    ¬ ∀ c p, Reach Proc.Step anyStep (.init c) p → TouchesOwn p := by
  intro h
  obtain ⟨p, hreach, hp⟩ := Proc.play_any anyStep (.init Sample.leader)
    (askedToClose ⟨[⟨9, "EURUSD"⟩], [Sample.entryHeld]⟩ ++ [.next 19])
    (fun p => orders (.broker 9) p && unknownTo (.broker 9) p) (by decide +kernel)
  rw [Bool.and_eq_true] at hp
  obtain ⟨w, e, q, r, todo, rfl, ht, hown⟩ := orders_cases hp.1
  obtain ⟨i, kind, -, hcreated⟩ := ((h _ _ hreach).sent _ _ _ _ _ rfl).2 hown _ ht
  rcases hcreated with hshadow | ⟨s, hs, -, hs'⟩
  · cases hshadow
  · exact of_decide_eq_true hp.2 s hs hs'

end PairCell
