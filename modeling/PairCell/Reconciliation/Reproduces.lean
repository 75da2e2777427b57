import PairCell.Reconciliation

/-!
# What the deltas reproduce

A poll compares with the last poll whose deltas were all emitted, but the
receiver may have accepted some deltas of a poll that was interrupted.  Such a
ticket stays different until a delta or a snapshot concerns it again; every
other ticket is as the last completed poll read it.
-/

namespace PairCell.Reconciliation

open Lib

/-! ## Equal records -/

theorem Value.same_symm {a b : Value} (h : a.same b = true) : b.same a = true := by
  simp only [Value.same, Bool.and_eq_true, decide_eq_true_eq] at h ⊢
  exact ⟨h.2 ▸ h.1, h.2.symm⟩

theorem Value.same_trans {a b c : Value} (h : a.same b = true) (h' : b.same c = true) :
    a.same c = true := by
  simp only [Value.same, Bool.and_eq_true, decide_eq_true_eq] at h h' ⊢
  exact ⟨h.1, h.2.trans h'.2⟩

/-- Equal, or one and the same value; a NaN is only the latter. -/
abbrev Equal (a b : Value) : Prop := a = b ∨ a.same b = true

theorem Equal.trans_same {a b c : Value} (h : Equal a b)
    (h' : b.same c = true) : Equal a c := by
  obtain rfl | h := h
  · exact .inr h'
  · exact .inr (Value.same_trans h h')

/-- State, volume and the relevant fields are equal. -/
def Alike (e : Entity) (a b : Fields) : Prop :=
  Equal (fieldOf a "state") (fieldOf b "state") ∧ Equal (volume a) (volume b) ∧
    ∀ f ∈ relevantFields e, Equal (fieldOf a f) (fieldOf b f)

instance (e : Entity) (a b : Fields) : Decidable (Alike e a b) :=
  inferInstanceAs (Decidable (_ ∧ _ ∧ _))

/-- Neither side has the ticket, or both have it alike. -/
def Agree (e : Entity) : Option Fields → Option Fields → Prop
  | none, none => True
  | some a, some b => Alike e a b
  | _, _ => False

instance (e : Entity) : ∀ a b, Decidable (Agree e a b)
  | none, none => inferInstanceAs (Decidable True)
  | some a, some b => inferInstanceAs (Decidable (Alike e a b))
  | none, some _ => inferInstanceAs (Decidable False)
  | some _, none => inferInstanceAs (Decidable False)

theorem agree_refl (e : Entity) (a : Option Fields) : Agree e a a := by
  cases a with
  | none => trivial
  | some a => exact ⟨.inl rfl, .inl rfl, fun _ _ => .inl rfl⟩

/-- No change is found from the first to the second. -/
def Unchanged (e : Entity) : Option Fields → Option Fields → Prop
  | none, none => True
  | some a, some b => change? e (some a) b = none
  | _, _ => False

theorem change?_eq_none {e : Entity} {a b : Fields} (h : change? e (some a) b = none) :
    (fieldOf a "state").same (fieldOf b "state") = true ∧
    (volume a).same (volume b) = true ∧
      ∀ f ∈ relevantFields e, (fieldOf a f).same (fieldOf b f) = true := by
  unfold change? at h
  simp only at h
  split at h
  · cases h
  · next hstate =>
      split at h
      · cases h
      · next hvolume =>
          split at h
          · cases h
          · next hfields =>
              refine ⟨by simpa using hstate, by simpa using hvolume, fun f hf => ?_⟩
              by_contra hsame
              exact hfields (List.any_eq_true.2 ⟨f, hf, by simpa using hsame⟩)

/-- What has not changed agrees with the same records. -/
theorem Unchanged.agree_iff {e : Entity} {held old new : Option Fields}
    (h : Unchanged e old new) :
    Agree e held new ↔ Agree e held old := by
  match old, new, h with
  | none, none, _ => exact Iff.rfl
  | some a, some b, h =>
      obtain ⟨hstate, hvolume, hfields⟩ := change?_eq_none h
      cases held with
      | none => exact Iff.rfl
      | some r =>
          refine ⟨fun ⟨hs, hv, hf⟩ => ?_, fun ⟨hs, hv, hf⟩ => ?_⟩
          · exact ⟨hs.trans_same (Value.same_symm hstate),
              hv.trans_same (Value.same_symm hvolume),
              fun f hmem => (hf f hmem).trans_same (Value.same_symm (hfields f hmem))⟩
          · exact ⟨hs.trans_same hstate, hv.trans_same hvolume,
              fun f hmem => (hf f hmem).trans_same (hfields f hmem)⟩

/-! ## The deltas of a poll -/

abbrev Key := Entity × Int

def Account.at (a : Account) (k : Key) : Option Fields := (a.of k.1).get k.2

namespace Delta

def key (d : Delta) : Key := (d.entity, d.ticket)

/-- What the receiver holds of the ticket after the delta. -/
def result (d : Delta) : Option Fields :=
  if d.change = .closed then none else some d.record

/-- The delta sets its ticket to what was polled. -/
structure To (current : Account) (d : Delta) : Prop where
  filed : ticketOf d.record = some d.ticket
  result : d.result = current.at d.key

end Delta

/-- Every record is kept under its own ticket. -/
def Filed (t : Table Int Fields) : Prop := ∀ ticket record, t.get ticket = some record →
  ticketOf record = some ticket

theorem records_filed {answer : Answer} {e : Entity} {t : Table Int Fields}
    (h : records answer e = .ok t) :
    Filed t := by
  cases answer with
  | nothing => cases h
  | invalid => cases h
  | items items =>
      have hempty : Filed .empty := fun ticket record hget => by simp at hget
      unfold records at h
      simp only at h
      generalize (Table.empty : Table Int Fields) = read at h hempty
      induction items generalizing read with
      | nil =>
          cases h
          exact hempty
      | cons item items ih =>
          rw [List.foldlM_cons] at h
          cases hitem : evidence item e.text with
          | error reason =>
              rw [hitem] at h
              cases h
          | ok fields =>
              rw [hitem] at h
              cases hticket : ticketOf (withCommandId fields) with
              | none =>
                  simp [bind, Except.bind, hticket] at h
              | some ticket =>
                  simp only [bind, Except.bind, hticket] at h
                  refine ih _ h ?_
                  intro other record hget
                  rw [Table.get_assign] at hget
                  split at hget
                  · next hsame =>
                      cases hget
                      rw [hsame]
                      exact hticket
                  · exact hempty _ _ hget

theorem changes_to {e : Entity} {previous : Table Int Fields} {current : Account}
    (hprevious : Filed previous) (hcurrent : Filed (current.of e)) :
    ∀ d ∈ changes e previous (current.of e), d.To current := by
  intro d hd
  obtain hd | hd := List.mem_append.1 hd
  · obtain ⟨⟨ticket, record⟩, hrow, hchange⟩ := List.mem_filterMap.1 hd
    have hget := (Table.get_eq_some_iff _ _ _).2 hrow
    obtain ⟨c, hc, rfl⟩ := Option.map_eq_some_iff.1 hchange
    have hopen : c ≠ .closed := by
      rintro rfl
      revert hc
      unfold change?
      repeat' split
      all_goals simp
    refine ⟨hcurrent _ _ hget, ?_⟩
    show (if c = .closed then none else some record) = (current.of e).get ticket
    rw [if_neg hopen, hget]
  · obtain ⟨⟨ticket, record⟩, hrow, hchange⟩ := List.mem_filterMap.1 hd
    have hget := (Table.get_eq_some_iff _ _ _).2 hrow
    simp only at hchange
    split at hchange
    · next hgone =>
        cases hchange
        exact ⟨hprevious _ _ hget, (Option.isNone_iff_eq_none.1 hgone).symm⟩
    · cases hchange

theorem unchanged_of_no_delta {e : Entity} {previous current : Table Int Fields}
    {ticket : Int} (h : (e, ticket) ∉ (changes e previous current).map Delta.key) :
    Unchanged e (previous.get ticket) (current.get ticket) := by
  have hdelta : ∀ d ∈ changes e previous current, d.entity = e → d.ticket ≠ ticket := by
    intro d hd he hticket
    exact h (List.mem_map.2 ⟨d, hd, by rw [Delta.key, he, hticket]⟩)
  cases hcurrent : current.get ticket with
  | none =>
      cases hprevious : previous.get ticket with
      | none => trivial
      | some old =>
          have hrow := (Table.get_eq_some_iff _ _ _).1 hprevious
          have hmem : (⟨e, ticket, .closed, old⟩ : Delta) ∈ changes e previous current :=
            List.mem_append_right _ (List.mem_filterMap.2 ⟨_, hrow, by simp [hcurrent]⟩)
          exact absurd rfl (hdelta _ hmem rfl)
  | some record =>
      have hrow := (Table.get_eq_some_iff _ _ _).1 hcurrent
      have hnone : change? e (previous.get ticket) record = none := by
        cases hchange : change? e (previous.get ticket) record with
        | none => rfl
        | some c =>
            have hmem : (⟨e, ticket, c, record⟩ : Delta) ∈ changes e previous current :=
              List.mem_append_left _ (List.mem_filterMap.2 ⟨_, hrow, by simp [hchange]⟩)
            exact absurd rfl (hdelta _ hmem rfl)
      cases hprevious : previous.get ticket with
      | none =>
          rw [hprevious] at hnone
          cases hnone
      | some old =>
          rw [hprevious] at hnone
          exact hnone

/-! ## Folding -/

theorem at_update (a : Account) (e : Entity)
    (f : Table Int Fields → Table Int Fields) (k : Key) :
    (a.update e f).at k = if k.1 = e then (f (a.of e)).get k.2 else a.at k := by
  obtain ⟨e', ticket⟩ := k
  cases e <;> cases e' <;> rfl

/-- A delta sets its own ticket. -/
theorem at_apply_delta {cursor : Nat} {observedAt : Int} {d : Delta}
    (hfiled : ticketOf d.record = some d.ticket) (a : Account) (k : Key) :
    (a.apply (envelope (.delta cursor observedAt d))).at k =
      if k = d.key then d.result else a.at k := by
  obtain ⟨e, ticket⟩ := k
  show (a.update d.entity _).at (e, ticket) = _
  rw [at_update]
  by_cases he : e = d.entity
  · subst he
    rw [if_pos rfl]
    by_cases hclosed : d.change = .closed
    · simp only [hclosed, decide_true, if_true, Delta.result]
      unfold Account.remove
      by_cases hticket : ticket = d.ticket
      · subst hticket
        rw [if_pos (show (d.entity, d.ticket) = d.key from rfl)]
        exact Table.get_delete_gone fun _ => by simp [hfiled]
      · rw [if_neg fun heq => hticket (congrArg Prod.snd heq)]
        exact Table.get_delete_keep fun _ => by simpa [hfiled] using Ne.symm hticket
    · simp only [hclosed, decide_false, Bool.false_eq_true, if_false, Delta.result,
        Account.upsert, hfiled, Table.get_assign]
      by_cases hticket : ticket = d.ticket
      · simp [hticket, Delta.key]
      · rw [if_neg hticket, if_neg fun heq => hticket (congrArg Prod.snd heq)]
        rfl
  · rw [if_neg he, if_neg fun heq => he (congrArg Prod.fst heq)]

theorem get_upserts {rows : List (Int × Fields)}
    (hfiled : ∀ row ∈ rows, ticketOf row.2 = some row.1)
    (hdistinct : (rows.map Prod.fst).Nodup) (t : Table Int Fields) (ticket : Int)
    (record : Fields) :
    ((rows.map Prod.snd).foldl Account.upsert t).get ticket = some record ↔
      (ticket, record) ∈ rows ∨ ticket ∉ rows.map Prod.fst ∧
      t.get ticket = some record := by
  induction rows generalizing t with
  | nil => simp
  | cons row rows ih =>
      obtain ⟨other, first⟩ := row
      rw [List.map_cons, List.nodup_cons] at hdistinct
      have hupsert : Account.upsert t first = t.assign other first := by
        rw [Account.upsert, hfiled _ List.mem_cons_self]
      rw [List.map_cons, List.foldl_cons, hupsert,
        ih (fun row hrow => hfiled row (List.mem_cons_of_mem _ hrow)) hdistinct.2,
        Table.get_assign]
      by_cases hticket : ticket = other
      · subst hticket
        have hnew : ticket ∉ rows.map Prod.fst := hdistinct.1
        have hgone : (ticket, record) ∉ rows :=
          fun hmem => hnew (List.mem_map.2 ⟨_, hmem, rfl⟩)
        simp only [hgone, hnew, List.mem_cons, Prod.mk.injEq, if_true,
          Option.some.injEq, List.map_cons, not_false_eq_true, true_and, false_or,
          or_false, not_true_eq_false, false_and]
        exact eq_comm
      · simp [hticket]

theorem get_snapshot {t : Table Int Fields} (hfiled : Filed t) (ticket : Int) :
    ((t.rows.map Prod.snd).foldl Account.upsert .empty).get ticket = t.get ticket := by
  ext record
  have hrows : ∀ row ∈ t.rows, ticketOf row.2 = some row.1 := fun row hrow =>
    hfiled _ _ ((Table.get_eq_some_iff _ _ _).2 hrow)
  rw [get_upserts hrows t.distinct, Table.get_empty, ← Table.get_eq_some_iff]
  simp

structure Account.Filed (a : Account) : Prop where
  orders : Reconciliation.Filed a.orders
  positions : Reconciliation.Filed a.positions

/-- A snapshot sets everything. -/
theorem at_apply_snapshot {cursor : Nat} {observedAt : Int} {account terminal : Fields}
    {current : Account} (h : current.Filed) (a : Account)
    (k : Key) : (a.apply
      (envelope (.snapshot cursor observedAt account terminal
        (current.orders.rows.map Prod.snd) (current.positions.rows.map Prod.snd)))).at
          k = current.at k := by
  obtain ⟨e, ticket⟩ := k
  cases e with
  | order => exact get_snapshot h.orders ticket
  | position => exact get_snapshot h.positions ticket

theorem read_filed {p : Poll} {account terminal : Fields} {current : Account}
    (h : p.read = .ok (account, terminal, current)) : current.Filed := by
  unfold Poll.read at h
  cases haccount : evidence p.account "account" with
  | error reason => simp [haccount, bind, Except.bind] at h
  | ok a =>
  cases hterminal : evidence p.terminal "terminal" with
  | error reason => simp [haccount, hterminal, bind, Except.bind] at h
  | ok b =>
  cases horders : records p.orders .order with
  | error reason => simp [haccount, hterminal, horders, bind, Except.bind] at h
  | ok orders =>
  cases hpositions : records p.positions .position with
  | error reason => simp [haccount, hterminal, horders, hpositions, bind, Except.bind] at h
  | ok positions =>
  simp only [haccount, hterminal, horders, hpositions, bind, Except.bind, pure,
    Except.pure, Except.ok.injEq, Prod.mk.injEq] at h
  obtain ⟨-, -, rfl⟩ := h
  exact ⟨records_filed horders, records_filed hpositions⟩

/-! ## What was accepted -/

namespace System

theorem received_emit (s : System) (message : Nat → Message) (outcome : Outcome) :
    (s.emit message outcome).1.received =
      if outcome = .refused then s.received
      else s.received.apply (envelope (message (s.adapter.cursor + 1))) := by
  unfold emit received
  cases outcome <;> simp

/-- The deltas that the receiver accepts before one is refused or lost. -/
def delivered : List Delta → List Outcome → List Delta
  | [], _ => []
  | d :: ds, outcomes =>
      match outcomes.headD .accepted with
      | .accepted => d :: delivered ds outcomes.tail
      | .lost => [d]
      | .refused => []

/-- Whether all deltas are emitted, and what becomes of the messages after them. -/
def passed : List Delta → List Outcome → Option (List Outcome)
  | [], outcomes => some outcomes
  | _ :: ds, outcomes => if outcomes.headD .accepted = .accepted then
      passed ds outcomes.tail else none

theorem delivered_of_passed {ds : List Delta} {outcomes rest : List Outcome}
    (h : passed ds outcomes = some rest) :
    delivered ds outcomes = ds := by
  induction ds generalizing outcomes with
  | nil => rfl
  | cons d ds ih =>
      unfold passed at h
      split at h
      · next haccepted =>
          unfold delivered
          rw [haccepted, ih h]
      · cases h

theorem emitDeltas_spec {current : Account} {ds : List Delta}
    (hto : ∀ d ∈ ds, d.To current) (observedAt : Int) (outcomes : List Outcome)
    (s : System) :
    (s.emitDeltas observedAt ds outcomes).2 = passed ds outcomes ∧
      (s.emitDeltas observedAt ds outcomes).1.adapter.polled = s.adapter.polled ∧
      (s.emitDeltas observedAt ds outcomes).1.adapter.lastSnapshotAt =
        s.adapter.lastSnapshotAt ∧
      ∀ k, (s.emitDeltas observedAt ds outcomes).1.received.at k =
        if k ∈ (delivered ds outcomes).map Delta.key then current.at k
        else s.received.at k := by
  induction ds generalizing outcomes s with
  | nil => exact ⟨rfl, rfl, rfl, fun k => by simp [emitDeltas, delivered]⟩
  | cons d ds ih =>
      have hd := hto d List.mem_cons_self
      have hone : ∀ k, (s.emit (.delta · observedAt d) .accepted).1.received.at k =
          if k = d.key then current.at k else s.received.at k := by
        intro k
        rw [received_emit, if_neg (by decide), at_apply_delta hd.filed, hd.result]
        split
        · next hk => rw [hk]
        · rfl
      unfold emitDeltas passed delivered
      cases outcomes.headD .accepted with
      | accepted =>
          obtain ⟨hpassed, hpolled, hlast, hreceived⟩ :=
            ih (fun d' hd' => hto d' (List.mem_cons_of_mem _ hd'))
            outcomes.tail (s.emit (.delta · observedAt d) .accepted).1
          refine ⟨hpassed, hpolled, hlast, fun k => ?_⟩
          refine (hreceived k).trans ?_
          rw [hone, List.map_cons]
          by_cases hrest : k ∈ (delivered ds outcomes.tail).map Delta.key <;>
            by_cases hk : k = d.key <;>
            simp [hrest, hk]
      | refused => exact ⟨rfl, rfl, rfl, fun k => by simp [emit, received]⟩
      | lost =>
          refine ⟨rfl, rfl, rfl, fun k => ?_⟩
          have hlost : (s.emit (.delta · observedAt d) .lost).1.received =
              (s.emit (.delta · observedAt d) .accepted).1.received := by
            rw [received_emit, received_emit, if_neg (by decide), if_neg (by decide)]
          show (s.emit (.delta · observedAt d) .lost).1.received.at k = _
          rw [hlost, hone]
          simp

theorem changesOf_to {a : Adapter} {current : Account} (hpolled : a.polled.Filed)
    (hcurrent : current.Filed) :
    ∀ d ∈ changesOf a current, d.To current := by
  unfold changesOf
  split
  · intro d hd
    obtain hd | hd := List.mem_append.1 hd
    · exact changes_to (e := .order) hpolled.orders hcurrent.orders d hd
    · exact changes_to (e := .position) hpolled.positions hcurrent.positions d hd
  · intro d hd
    cases hd

theorem unchanged_of_no_change {a : Adapter} {current : Account}
    (hsome : a.lastSnapshotAt.isSome) {k : Key}
    (h : k ∉ (changesOf a current).map Delta.key) :
    Unchanged k.1 (a.polled.at k) (current.at k) := by
  obtain ⟨e, ticket⟩ := k
  rw [changesOf, if_pos hsome, List.map_append, List.mem_append, not_or] at h
  cases e with
  | order => exact unchanged_of_no_delta h.1
  | position => exact unchanged_of_no_delta h.2

/-- The tickets that are different at the receiver because a poll was interrupted after
their delta: those of this poll, and those of earlier ones that no accepted message
concerned. -/
def leftBy (s : System) (p : Poll) (left : List Key) : List Key :=
  match p.read with
  | .error _ => left
  | .ok (_, _, current) =>
      let ds := changesOf s.adapter current
      match passed ds p.outcomes with
      | none =>
          let keys := (delivered ds p.outcomes).map Delta.key
          (keys.filter fun k => decide
            (¬ Agree k.1 (current.at k) (s.adapter.polled.at k))) ++
            left.filter fun k => decide (k ∉ keys)
      | some outcomes =>
          if snapshotDue s.adapter p.observedAt ∧
            outcomes.headD .accepted ≠ .refused then []
          else left.filter fun k => decide (k ∉ ds.map Delta.key)

structure Sound (s : System) (left : List Key) : Prop where
  filed : s.adapter.polled.Filed
  held : s.adapter.lastSnapshotAt.isSome →
      ∀ k, Agree k.1 (s.received.at k) (s.adapter.polled.at k) ↔ k ∉ left

theorem poll_sound {s : System} {left : List Key} (h : s.Sound left) (p : Poll) :
    (s.poll p).1.Sound (s.leftBy p left) ∧
      ((s.poll p).2 = true → (s.poll p).1.adapter.lastSnapshotAt.isSome ∧
        ∃ account terminal, p.read =
          .ok (account, terminal, (s.poll p).1.adapter.polled)) := by
  unfold poll leftBy
  cases hread : p.read with
  | error reason => exact ⟨h, by simp⟩
  | ok read =>
      obtain ⟨account, terminal, current⟩ := read
      have hcurrent := read_filed hread
      obtain ⟨hpassed, hpolled, hlast, hreceived⟩ :=
        emitDeltas_spec (changesOf_to h.filed hcurrent) p.observedAt p.outcomes s
      simp only
      generalize s.emitDeltas p.observedAt (changesOf s.adapter current) p.outcomes =
        after at *
      obtain ⟨s', rest⟩ := after
      simp only at hpassed hpolled hlast hreceived
      subst hpassed
      cases hrest : passed (changesOf s.adapter current) p.outcomes with
      | none =>
          -- interrupted: the adapter keeps what it compares with
          refine ⟨⟨hpolled ▸ h.filed, fun hsome k => ?_⟩, by simp⟩
          rw [hreceived, hpolled, List.mem_append, List.mem_filter, List.mem_filter]
          by_cases hk :
            k ∈ (delivered (changesOf s.adapter current) p.outcomes).map Delta.key
          · simp [hk]
          · simpa [hk] using h.held (hlast ▸ hsome) k
      | some outcomes =>
          rw [delivered_of_passed hrest] at hreceived
          have hheld : s.adapter.lastSnapshotAt.isSome →
              ∀ k, Agree k.1 (s'.received.at k) (current.at k) ↔
              k ∉ left.filter fun k =>
                decide (k ∉ (changesOf s.adapter current).map Delta.key) := by
            intro hsome k
            rw [hreceived]
            by_cases hk : k ∈ (changesOf s.adapter current).map Delta.key
            · rw [if_pos hk]
              refine iff_of_true (agree_refl _ _) fun hmem => ?_
              exact of_decide_eq_true (List.mem_filter.1 hmem).2 hk
            · rw [if_neg hk, (unchanged_of_no_change hsome hk).agree_iff, h.held hsome k,
                List.mem_filter]
              exact not_congr ⟨fun hmem => ⟨hmem, decide_eq_true hk⟩, And.left⟩
          have hdue : snapshotDue { s'.adapter with polled := current } p.observedAt =
              snapshotDue s.adapter p.observedAt := by
            unfold snapshotDue
            rw [hlast]
          simp only [hdue]
          by_cases hsnapshot : snapshotDue s.adapter p.observedAt = true
          · rw [if_pos hsnapshot]
            simp only [hsnapshot, true_and]
            have htaken (outcome : Outcome) (hout : outcome ≠ .refused) (k : Key) :
                Agree k.1
                  ((System.emit
                    { s' with adapter := { s'.adapter with polled := current } }
                  (.snapshot · p.observedAt account terminal
                    (current.orders.rows.map Prod.snd)
                    (current.positions.rows.map Prod.snd)) outcome).1.received.at k)
                      (current.at k) ↔ k ∉ [] := by
              rw [received_emit, if_neg hout, at_apply_snapshot hcurrent]
              exact iff_of_true (agree_refl _ _) List.not_mem_nil
            cases outcomes.headD .accepted with
            | accepted =>
                exact ⟨⟨hcurrent, fun _ => htaken .accepted (by decide)⟩,
                  fun _ => ⟨rfl, account, terminal, rfl⟩⟩
            | refused =>
                refine ⟨⟨hcurrent, fun hsome k => ?_⟩, by simp [emit]⟩
                have hsame :=
                  received_emit
                    { s' with adapter := { s'.adapter with polled := current } }
                  (.snapshot · p.observedAt account terminal
                    (current.orders.rows.map Prod.snd)
                    (current.positions.rows.map Prod.snd)) .refused
                rw [if_pos rfl] at hsame
                exact (congrArg (fun a => Agree k.1 (a.at k) (current.at k))
                  hsame).to_iff.trans
                  (hheld (hlast ▸ hsome) k)
            | lost => exact ⟨⟨hcurrent, fun _ => htaken .lost (by decide)⟩, by simp [emit]⟩
          · rw [if_neg hsnapshot]
            have hsome : s.adapter.lastSnapshotAt.isSome := by
              by_contra hnone
              rw [Option.not_isSome_iff_eq_none] at hnone
              exact hsnapshot (by simp [snapshotDue, hnone])
            simp only [hsnapshot, Bool.false_eq_true, false_and, if_false]
            refine ⟨⟨hcurrent, fun _ => hheld hsome⟩,
              fun _ => ⟨?_, account, terminal, rfl⟩⟩
            exact hlast ▸ hsome

/-! ## Runs -/

/-- A poll, and the tickets that it leaves different. -/
def traced (r : System × List Key) (p : Poll) : System × List Key :=
  ((r.1.poll p).1, r.1.leftBy p r.2)

theorem traced_sound (polls : List Poll) {r : System × List Key} (h : r.1.Sound r.2) :
    (polls.foldl traced r).1.Sound (polls.foldl traced r).2 := by
  induction polls generalizing r with
  | nil => exact h
  | cons p polls ih => exact ih (poll_sound h p).1

theorem start_sound (initialCursor : Nat) : (start initialCursor).Sound [] where
  filed := by constructor <;> intro ticket record h <;> cases h
  held := by simp [start]

structure Increasing (s : System) : Prop where
  increasing : (s.log.map fun m => m.1.cursor).Pairwise (· < ·)
  bounded : ∀ m ∈ s.log, m.1.cursor ≤ s.adapter.cursor

theorem Increasing.emit {s : System} (h : s.Increasing) (message : Nat → Message)
    (hmessage : ∀ cursor, (message cursor).cursor = cursor) (outcome : Outcome) :
    (s.emit message outcome).1.Increasing := by
  refine ⟨?_, fun m hm => ?_⟩
  · unfold System.emit
    rw [List.map_append, List.pairwise_append]
    refine ⟨h.increasing, by simp, fun a ha b hb => ?_⟩
    obtain ⟨m, hm, rfl⟩ := List.mem_map.1 ha
    rw [List.map_singleton, List.mem_singleton] at hb
    rw [hb, hmessage]
    exact Nat.lt_succ_of_le (h.bounded m hm)
  · obtain hm | hm := List.mem_append.1 hm
    · exact (h.bounded m hm).trans (Nat.le_succ _)
    · rw [List.mem_singleton.1 hm]
      exact (hmessage _).le

theorem Increasing.emitDeltas {s : System} (h : s.Increasing) (observedAt : Int)
    (ds : List Delta) (outcomes : List Outcome) :
    (s.emitDeltas observedAt ds outcomes).1.Increasing := by
  induction ds generalizing outcomes s with
  | nil => exact h
  | cons d ds ih =>
      have hone : ∀ outcome, (s.emit (.delta · observedAt d) outcome).1.Increasing :=
        h.emit _ fun _ => rfl
      unfold System.emitDeltas
      cases outcomes.headD .accepted with
      | accepted => exact ih (hone .accepted) outcomes.tail
      | refused => exact hone .refused
      | lost => exact hone .lost

theorem Increasing.poll {s : System} (h : s.Increasing) (p : Poll) :
    (s.poll p).1.Increasing := by
  unfold System.poll
  cases p.read with
  | error reason => exact h
  | ok read =>
      obtain ⟨account, terminal, current⟩ := read
      have hdeltas := h.emitDeltas p.observedAt (changesOf s.adapter current) p.outcomes
      simp only
      generalize s.emitDeltas p.observedAt (changesOf s.adapter current) p.outcomes =
        after at *
      obtain ⟨s', _ | outcomes⟩ := after
      · exact hdeltas
      · have hpolled :
            Increasing { s' with adapter := { s'.adapter with polled := current } } :=
          ⟨hdeltas.increasing, hdeltas.bounded⟩
        simp only
        split
        · have hsnapshot := hpolled.emit (.snapshot · p.observedAt account terminal
            (current.orders.rows.map Prod.snd) (current.positions.rows.map Prod.snd))
              fun _ => rfl
          cases outcomes.headD .accepted with
          | accepted =>
              exact ⟨(hsnapshot .accepted).increasing, (hsnapshot .accepted).bounded⟩
          | refused => exact hsnapshot .refused
          | lost => exact hsnapshot .lost
        · exact hpolled

theorem traced_increasing (polls : List Poll) {r : System × List Key}
    (h : r.1.Increasing) :
    (polls.foldl traced r).1.Increasing := by
  induction polls generalizing r with
  | nil => exact h
  | cons p polls ih => exact ih (h.poll p)

end System

namespace Sample

def position (ticket : Int) : Fields := Table.empty.assign "ticket" (.int ticket)

def poll (observedAt : Int) (tickets : List Int) (outcomes : List Outcome) : Poll :=
  { observedAt := observedAt, account := some .empty, terminal := some .empty,
    orders := .items []
    positions := .items (tickets.map fun ticket => some (position ticket)),
      outcomes := outcomes }

/-- The first of two new positions is accepted and the second refused; both are gone a
minute later. -/
def interrupted : List Poll := [poll 0 [] [], poll 60000000 [7, 8] [.accepted, .refused]]

end Sample

end PairCell.Reconciliation
