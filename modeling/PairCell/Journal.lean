import PairCell.SendOnce

/-!
# The effect journal is true

Whatever is handed to the terminal is what the journal holds under its effect
id, and the journal holds no receipt that the broker has not given.  What it has
once concluded it never changes.
-/

namespace PairCell

open Lib World

variable {w : World} {x : Action} {e : EffectId}

/-- The rows of the journal tell what has happened to their effects. -/
structure JournalTrue (d : Disk) : Prop where
  sent : ∀ q ∈ d.sent, d.journaledAs q.effect q.payload
  unsent : ∀ e row, d.journal.get e = some row → row.state = .prepared → d.sends e = []
  receipt : ∀ e row, d.journal.get e = some row → row.state = .receipt →
    ∃ q, d.sends e = [q] ∧ q.reply.response = .receipt row.retcode true
  bare : ∀ e row, d.journal.get e = some row → row.state ≠ .receipt → row.retcode = none

/-! ## Receipts -/

theorem answered_act {retcode : Option Int} (h : w.disk.answered e retcode) :
    (w.act x).disk.answered e retcode := by
  obtain ⟨q, hq, heffect, hreply⟩ := h
  refine ⟨q, ?_, heffect, hreply⟩
  rw [act_sent]
  exact List.mem_append_left _ hq

/-- The one answer to an effect that is sent at most once. -/
theorem sends_answered {d : Disk} {retcode : Option Int} (honce : (d.sends e).length ≤ 1)
    (h : d.answered e retcode) :
    ∃ q, d.sends e = [q] ∧ q.reply.response = .receipt retcode true := by
  obtain ⟨q, hq, heffect, hreply⟩ := h
  have hmem : q ∈ d.sends e := List.mem_filter.2 ⟨hq, decide_eq_true heffect⟩
  obtain ⟨q', hsends⟩ := List.length_eq_one_iff.1
    (Nat.le_antisymm honce (List.length_pos_of_mem hmem))
  rw [hsends, List.mem_singleton] at hmem
  exact ⟨q, by rw [hsends, hmem], hreply⟩

/-- Every receipt in the journal is an answer of the broker, and only
receipts have a code. -/
structure Receipted (d : Disk) : Prop where
  receipt : ∀ e row, d.journal.get e = some row → row.state = .receipt →
      d.answered e row.retcode
  bare : ∀ e row, d.journal.get e = some row → row.state ≠ .receipt → row.retcode = none

theorem Receipted.act (h : Receipted w.disk) (hx : Permits w x) :
    Receipted (w.act x).disk := by
  have hrow : ∀ e row, (w.act x).disk.journal.get e = some row →
      (row.state = .receipt → (w.act x).disk.answered e row.retcode) ∧
        (row.state ≠ .receipt → row.retcode = none) := by
    intro e row hnew
    have hstep := act_journal hx e
    rw [hnew] at hstep
    generalize hold : w.disk.journal.get e = old at hstep
    cases hstep with
    | same => exact ⟨fun hst => answered_act (h.receipt e row hold hst), h.bare e row hold⟩
    | prepare p own => exact ⟨fun hst => (nomatch hst), fun _ => rfl⟩
    | start r hst => exact ⟨fun hst => (nomatch hst), fun _ => rfl⟩
    | receipt r retcode hst =>
        exact ⟨fun _ => answered_act hx.2, fun hne => absurd rfl hne⟩
    | observe r hst => exact ⟨fun hst => (nomatch hst), fun _ => rfl⟩
  exact ⟨fun e row hnew => (hrow e row hnew).1, fun e row hnew => (hrow e row hnew).2⟩

/-- What was handed to the terminal is in the journal. -/
theorem journaled_act (hx : Permits w x)
    (h : ∀ q ∈ w.disk.sent, w.disk.journaledAs q.effect q.payload) :
    ∀ q ∈ (w.act x).disk.sent, (w.act x).disk.journaledAs q.effect q.payload := by
  intro q hq
  rw [act_sent] at hq
  obtain hold | hnew := List.mem_append.1 hq
  · exact (h q hold).act hx
  · cases x with
    | orderSend e p r =>
        obtain rfl := List.mem_singleton.1 hnew
        exact Disk.journaledAs.act hx.2.2.2.1 hx
    | _ => cases hnew

variable {c : Config} {p : Proc}

theorem Proc.reach_journalTrue (h : Reach Proc.Step anyStep (.init c) p) :
    JournalTrue p.disk := by
  obtain ⟨hs, honce⟩ := Proc.reach_sendsOnce h
  have hreceipted : Receipted p.disk := by
    refine (Proc.reach_disk (I := Receipted) h ⟨?_, ?_⟩ ?_).1
    · exact fun e row hrow => by simp at hrow
    · exact fun e row hrow => by simp at hrow
    · exact fun w a todo _ _ hi hx _ => hi.act hx
  have hjournaled : ∀ q ∈ p.disk.sent, p.disk.journaledAs q.effect q.payload := by
    refine (Proc.reach_disk (I :=
      fun d => ∀ q ∈ d.sent, d.journaledAs q.effect q.payload) h
      (fun q hq => nomatch hq) ?_).1
    exact fun w a todo _ _ hi hx _ => journaled_act hx hi
  have hjournal : ∃ armed, JournalSound p.disk armed := by
    cases hs with
    | up hw _ _ => exact ⟨_, hw.journal⟩
    | down _ hj => exact ⟨_, hj⟩
  obtain ⟨armed, hjournal⟩ := hjournal
  refine ⟨hjournaled, fun e row hrow hst => ?_, fun e row hrow hst => ?_, hreceipted.bare⟩
  · refine sends_nil hjournal ?_
    rintro ⟨row', hrow', hne⟩
    obtain rfl := Option.some.inj (hrow.symm.trans hrow')
    exact hne hst
  · exact sends_answered (honce e).1 (hreceipted.receipt e row hrow hst)

/-! ## What is concluded stays -/

/-- What a later row keeps of an earlier one. -/
def Continues (row row' : JournalRow) : Prop :=
  row'.payload = row.payload ∧ (row.unresolved = false → row' = row)

theorem Continues.refl (row : JournalRow) : Continues row row := ⟨rfl, fun _ => rfl⟩

theorem Continues.trans {row row' row'' : JournalRow} (h : Continues row row')
    (h' : Continues row' row'') : Continues row row'' := by
  refine ⟨h'.1.trans h.1, fun hdone => ?_⟩
  obtain rfl := h.2 hdone
  exact h'.2 hdone

theorem JournalStep.continues {row : JournalRow} {new : Option JournalRow}
    (h : JournalStep e x (some row) new)
    (hsame : ∀ retcode, x = .recordReceipt e retcode → row.state = .receipt →
      retcode = row.retcode) : ∃ row', new = some row' ∧ Continues row row' := by
  cases h with
  | same => exact ⟨row, rfl, .refl row⟩
  | start _ hst =>
      exact ⟨_, rfl, rfl, fun hdone => by simp [JournalRow.unresolved, hst] at hdone⟩
  | receipt _ retcode hst =>
      refine ⟨_, rfl, rfl, fun hdone => ?_⟩
      obtain hst | hst := hst
      · simp [JournalRow.unresolved, hst] at hdone
      · rw [hsame retcode rfl hst, ← hst]
  | observe _ hst =>
      refine ⟨_, rfl, rfl, fun hdone => ?_⟩
      obtain hst | hst := hst <;> simp [JournalRow.unresolved, hst] at hdone

theorem continues_step {p p' : Proc} {l : Label} (h : Reach Proc.Step anyStep (.init c) p)
    (hstep : Proc.Step p l p') {row : JournalRow}
    (hrow : p.disk.journal.get e = some row) :
    ∃ row', p'.disk.journal.get e = some row' ∧ Continues row row' := by
  obtain ⟨hs, honce⟩ := Proc.reach_sendsOnce h
  have htrue := Proc.reach_journalTrue h
  cases hs.moves hstep with
  | exec hp hl hp' hw hx =>
      subst hp hl hp'
      rename_i w a todo
      have hmove := act_journal hx e
      rw [show w.disk.journal.get e = some row from hrow] at hmove
      refine hmove.continues fun retcode hreceipt hst => ?_
      subst hreceipt
      obtain ⟨q, hq, hreply⟩ := htrue.receipt e row hrow hst
      obtain ⟨q', hq', hreply'⟩ := sends_answered (honce e).1 hx.2
      obtain rfl : q = q' := by simpa using hq.symm.trans hq'
      simpa using hreply'.symm.trans hreply
  | still hdisk _ _ _ =>
      rw [hdisk]
      exact ⟨row, hrow, .refl row⟩

/--
In every run, through every crash and reopening, with the cell's own writes and
those of other clients, the journal is true: each order handed to the terminal
is the one journaled under its effect id, an effect that is only prepared was
not handed over, and a receipt is the broker's answer to the one order of its
effect.  A later journal keeps every payload and every conclusion.
-/
theorem journal_is_true (h : Reach Proc.Step anyStep (.init c) p) :
    JournalTrue p.disk ∧ ∀ p', Reach Proc.Step anyStep p p' → ∀ e row,
      p.disk.journal.get e = some row →
        ∃ row', p'.disk.journal.get e = some row' ∧ Continues row row' := by
  refine ⟨Proc.reach_journalTrue h, fun p' h' e row hrow => ?_⟩
  induction h' with
  | refl => exact ⟨row, hrow, .refl row⟩
  | tail l h' _ hstep ih =>
      obtain ⟨row', hrow', hkept⟩ := ih
      obtain ⟨row'', hrow'', hkept'⟩ := continues_step (h.trans h') hstep hrow'
      exact ⟨row'', hrow'', hkept.trans hkept'⟩

/-- The leader's entry, sent and answered. -/
theorem journal_is_true_of_leader : ∃ p, Reach Proc.Step anyStep (.init Sample.leader) p ∧
    (∃ row, p.disk.journal.get (.cell 100 1 .entry) = some row ∧ row.state = .receipt) ∧
    JournalTrue p.disk := by
  obtain ⟨p, hreach, hp⟩ := Proc.play_any anyStep (.init Sample.leader)
    (Sample.ready ++
      Sample.facts 2 { decision := some (Sample.attempt 100),
                       replies := [Sample.filled], depth := 5 })
    (fun p => decide (p.disk.stateOf (.cell 100 1 .entry) = some .receipt))
      (by decide +kernel)
  exact ⟨p, hreach, Option.map_eq_some_iff.1 (of_decide_eq_true hp),
    (journal_is_true hreach).1⟩

end PairCell
