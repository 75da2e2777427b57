import PairCell.Runtime.Wire

/-!
# Requests served by the controller

Proposals, decisions and assertions, and the operations of the other Workers,
keep the invariant.
-/

namespace PairCell

open Lib

namespace Pairing

variable {s : Pairing}

/-! ## The ledger -/

theorem Bound.steady (h : Bound s) {l : ControlLedger}
    (hl : ControlLedger.Steady s.ledger l) :
    Bound { s with ledger := l } := by
  refine ⟨?_, h.mail, h.files, ?_, ?_, ?_, ?_, h.prepared, h.down⟩
  · refine ⟨h.history.ids, fun p row hp =>
      h.history.reserved p row (hl.reservations p row hp),
      fun r row hr => ?_, fun r p hr => hl.identifiers ▸ h.history.issued r p hr⟩
    obtain ⟨st, hr⟩ := hl.routes r row hr
    exact h.history.routed r { row with state := st } hr
  · refine ⟨fun p row hp hw => h.leads.reserved p row (hl.reservations p row hp) hw,
      fun r row p hr ho hw => ?_, h.leads.viewed⟩
    obtain ⟨st, hr⟩ := hl.routes r row hr
    exact h.leads.routed r { row with state := st } p hr ho hw
  · refine ⟨fun p row hp hw => h.follows.reserved p row (hl.reservations p row hp) hw,
      fun p row hp hw hd => h.follows.decided p row (hl.reservations p row hp) hw hd,
      fun r row p hr ho hw => ?_, h.follows.viewed, h.follows.behind⟩
    obtain ⟨st, hr⟩ := hl.routes r row hr
    exact h.follows.routed r { row with state := st } p hr ho hw
  · refine ⟨fun m hm r hr => ?_, h.notices.after, h.notices.first, h.notices.unseen⟩
    obtain ⟨⟨row, hrow, hw⟩, hnone, hasked⟩ := h.notices.stands m hm r hr
    obtain ⟨st, hrow⟩ := hl.kept r row hrow
    refine ⟨⟨_, hrow, hw⟩, ?_, hasked⟩
    by_contra hne
    exact hl.assertions _ hne hnone
  · exact ⟨h.asked.decides, fun r v hv => hl.identifiers ▸ h.asked.asserts r v hv,
      fun r hr => hl.identifiers ▸ h.asked.asserted r (hl.assertions _ hr)⟩

/-- A proposal is noted before anything is made of it. -/
theorem Bound.noted (h : Bound s) {o : Offer} (ho : s.Unused o.proposalId) :
    Bound { s with proposals := o :: s.proposals } := by
  refine ⟨⟨?_, fun p row hp => .tail _ (h.history.reserved p row hp), fun r row hr => ?_,
    h.history.issued⟩, ⟨fun m hm v hv => ?_, fun p hp => ?_,
      fun m hm p hp => ?_, h.mail.fresh⟩,
    ⟨fun b hb => ?_, h.files.kept, h.files.own⟩, h.leads, h.follows, h.notices,
    ⟨fun p hp => ?_, h.asked.asserts, h.asked.asserted⟩, h.prepared, h.down⟩
  · refine List.nodup_cons.2 ⟨fun hmem => ?_, h.history.ids⟩
    obtain ⟨o', ho', he⟩ := List.mem_map.1 hmem
    exact ho o' ho' he
  · obtain ⟨p, horigin, hos⟩ := h.history.routed r row hr
    exact ⟨p, horigin, .tail _ hos⟩
  · obtain ⟨r, p, a, b, hb, hos, hw⟩ := h.mail.viewed m hm v hv
    exact ⟨r, p, a, b, hb, .tail _ hos, hw⟩
  · obtain ⟨b, hb⟩ := h.mail.replied p hp
    exact ⟨b, .tail _ hb⟩
  · obtain ⟨a, ha, hos⟩ := h.mail.offered m hm p hp
    exact ⟨a, ha, .tail _ hos⟩
  · obtain ⟨o', ho', he⟩ := h.files.known b hb
    exact ⟨o', .tail _ ho', he⟩
  · obtain ⟨o', ho', he⟩ := h.asked.decides p hp
    exact ⟨o', .tail _ ho', he⟩

/-- No message, record or route is of a proposal that has just been noted. -/
structure New (s : Pairing) (p : Nat) : Prop where
  carried : p ∉ replies s.flight ++ offers s.flight ++ s.frozen.map FrozenBudget.proposalId
  decided : .decide p true ∉ s.asked
  origin : ∀ r row, s.ledger.pairRoutes.get r = some row → s.origins.get r ≠ some p

theorem Bound.new (h : Bound s) {p : Nat} (hp : s.Unused p) : s.New p := by
  refine ⟨fun hmem => ?_, fun hd => ?_, fun r row hr ho => ?_⟩
  · obtain hmem | hmem := List.mem_append.1 hmem
    · obtain hmem | hmem := List.mem_append.1 hmem
      · obtain ⟨b, hb⟩ := h.mail.replied p hmem
        exact hp _ hb rfl
      · obtain ⟨m, hm, hoffer⟩ := List.mem_filterMap.1 hmem
        obtain ⟨a, -, hos⟩ := h.mail.offered m hm p hoffer
        exact hp _ hos rfl
    · obtain ⟨b, hb, rfl⟩ := List.mem_map.1 hmem
      obtain ⟨o, ho, he⟩ := h.files.known b hb
      exact hp o ho he
  · obtain ⟨o, ho, he⟩ := h.asked.decides p hd
    exact hp o ho he
  · obtain ⟨q, ho', hos⟩ := h.history.routed r row hr
    obtain rfl := Option.some.inj (ho'.symm.trans ho)
    exact hp _ hos rfl

theorem nodup_insert {xs ys zs : List Nat} {p : Nat} (h : (xs ++ ys ++ zs).Nodup)
    (hp : p ∉ xs ++ ys ++ zs) : (xs ++ p :: ys ++ zs).Nodup := by
  rw [List.append_assoc] at h hp ⊢
  exact List.perm_middle.nodup_iff.2 (List.nodup_cons.2 ⟨hp, h⟩)

/-- The reply to a proposal is written when this Worker leads nothing else. -/
theorem Bound.reply (h : Bound s) {p f : Nat} (hos : ⟨p, s.workerId, f⟩ ∈ s.proposals)
    (hnew : s.New p)
    (hreserved : ∀ q row, s.ledger.pairRouteReservations.get q = some row →
      row.leaderWorkerId ≠ s.workerId)
    (hrouted : ∀ r row, s.ledger.pairRoutes.get r = some row →
      row.leaderWorkerId ≠ s.workerId)
    (hprepared : s.live = true → ∀ b, s.runtime.budget = some b → b.role = .leader →
      s.runtime.pendingBudget.isSome = true) :
    Bound (s.send [.pairingProposalResult true (some p)]) := by
  refine h.send fun hlive => ?_
  have hflight :
      ({ s with wire := s.wire ++ [.pairingProposalResult true (some p)] } :
        Pairing).flight =
      s.flight ++ [.pairingProposalResult true (some p)] := (List.append_assoc ..).symm
  refine ⟨h.history, ?_, h.files, ?_, ?_, ?_, h.asked, fun _ _ => hprepared hlive, ?_⟩
  · rw [hflight]
    refine ⟨fun m hm v hv => ?_, fun q hq => ?_, fun m hm q hq => ?_, ?_⟩
    · obtain hm | hm := List.mem_append.1 hm
      · exact h.mail.viewed m hm v hv
      · rw [List.mem_singleton.1 hm] at hv
        cases hv
    · rw [replies_append] at hq
      obtain hq | hq := List.mem_append.1 hq
      · exact h.mail.replied q hq
      · obtain rfl : q = p := by simpa [replies, Control.reply?] using hq
        exact ⟨f, hos⟩
    · obtain hm | hm := List.mem_append.1 hm
      · exact h.mail.offered m hm q hq
      · rw [List.mem_singleton.1 hm] at hq
        cases hq
    · rw [replies_append, offers_append_none rfl, List.append_assoc (replies s.flight)]
      exact nodup_insert h.mail.fresh hnew.carried
  · rw [hflight]
    exact h.leads.appendReply rfl hreserved hrouted
  · rw [hflight]
    exact h.follows.append rfl fun v hv => by cases hv
  · refine h.notices.append (fun r hr => hr) fun q hq n hn r hr ho => ?_
    obtain rfl := Option.some.inj hq
    obtain ⟨⟨row, hrow, -⟩, -⟩ := h.notices.stands n hn r hr
    exact hnew.origin r row hrow ho
  · intro hdown
    exact absurd (hlive.symm.trans hdown) (by decide)

/-- A proposal is offered to this Worker when it follows nothing else. -/
theorem Bound.offer (h : Bound s) {p a : Nat} (hos : ⟨p, a, s.workerId⟩ ∈ s.proposals)
    (hnew : s.New p)
    (hreserved : ∀ q row, s.ledger.pairRouteReservations.get q = some row →
      row.followerWorkerId ≠ s.workerId)
    (hrouted : ∀ r row, s.ledger.pairRoutes.get r = some row →
      row.followerWorkerId ≠ s.workerId) :
    Bound (s.send [.pairingProposed (some p) (some a)]) := by
  refine h.send fun hlive => ?_
  have hflight :
      ({ s with wire := s.wire ++ [.pairingProposed (some p) (some a)] } :
        Pairing).flight =
      s.flight ++ [.pairingProposed (some p) (some a)] := (List.append_assoc ..).symm
  refine ⟨h.history, ?_, h.files, ?_, ?_, ?_, h.asked, ?_, ?_⟩
  · rw [hflight]
    refine ⟨fun m hm v hv => ?_, ?_, fun m hm q hq => ?_, ?_⟩
    · obtain hm | hm := List.mem_append.1 hm
      · exact h.mail.viewed m hm v hv
      · rw [List.mem_singleton.1 hm] at hv
        cases hv
    · rw [replies_append_none rfl]
      exact h.mail.replied
    · obtain hm | hm := List.mem_append.1 hm
      · exact h.mail.offered m hm q hq
      · rw [List.mem_singleton.1 hm] at hq ⊢
        obtain rfl := Option.some.inj hq
        exact ⟨a, rfl, hos⟩
    · have hoffers : offers (s.flight ++ [.pairingProposed (some p) (some a)]) =
          offers s.flight ++ [p] := offers_append ..
      rw [replies_append_none rfl, hoffers, ← List.append_assoc, List.append_assoc _ [p]]
      exact List.perm_middle.nodup_iff.2 (List.nodup_cons.2 ⟨hnew.carried, h.mail.fresh⟩)
  · rw [hflight]
    exact h.leads.append rfl fun v r q b hv => by cases hv
  · rw [hflight]
    exact h.follows.appendOffer rfl hreserved hrouted
  · exact h.notices.append (fun r hr => hr) fun q hq => by cases hq
  · intro hl hwaiting
    rw [hflight, replies_append_none rfl] at hwaiting
    exact h.prepared hl hwaiting
  · intro hdown
    exact absurd (hlive.symm.trans hdown) (by decide)

/-- The reservation is inserted once its reply or its offer is on the way. -/
theorem Bound.insert (h : Bound s) (p : Nat) (row : Reservation)
    (owners : Table (PairKey × ExecutionMode) Unit) {l : ControlLedger}
    (hl : l = { s.ledger with
      pairExecutionOwners := owners
      pairRouteReservations := s.ledger.pairRouteReservations.set p row })
    (hos : ⟨p, row.leaderWorkerId, row.followerWorkerId⟩ ∈ s.proposals)
    (hdecided : .decide p true ∉ s.asked)
    (hlead : row.leaderWorkerId = s.workerId →
      Settled s.runtime.budget (replies s.flight) row.followerWorkerId p)
    (hfollow : row.followerWorkerId = s.workerId →
      (offers s.flight).getLast? = some p ∨ offers s.flight = []) :
    Bound { s with ledger := l } := by
  subst hl
  have hcases : ∀ {q : Nat} {row' : Reservation},
      (s.ledger.pairRouteReservations.set p row).get q = some row' →
      q = p ∧ row' = row ∨ s.ledger.pairRouteReservations.get q = some row' := by
    intro q row' hq
    rw [Table.get_set] at hq
    split at hq
    · next he => exact .inl ⟨he, (Option.some.inj hq).symm⟩
    · exact .inr hq
  refine ⟨⟨h.history.ids, fun q row' hq => ?_, h.history.routed, h.history.issued⟩,
    h.mail, h.files, ⟨fun q row' hq hw => ?_, h.leads.routed, h.leads.viewed⟩,
    ⟨fun q row' hq hw => ?_, fun q row' hq hw hd => ?_, h.follows.routed, h.follows.viewed,
      h.follows.behind⟩,
    ⟨h.notices.stands, h.notices.after, h.notices.first, h.notices.unseen⟩,
    ⟨h.asked.decides, h.asked.asserts, h.asked.asserted⟩, h.prepared, h.down⟩
  · obtain ⟨rfl, rfl⟩ | hq := hcases hq
    · exact hos
    · exact h.history.reserved q row' hq
  · obtain ⟨rfl, rfl⟩ | hq := hcases hq
    · exact hlead hw
    · exact h.leads.reserved q row' hq hw
  · obtain ⟨rfl, rfl⟩ | hq := hcases hq
    · exact hfollow hw
    · exact h.follows.reserved q row' hq hw
  · obtain ⟨rfl, rfl⟩ | hq := hcases hq
    · exact absurd hd hdecided
    · exact h.follows.decided q row' hq hw hd

/-- The reservation becomes a route; this Worker has decided when it follows. -/
theorem Bound.establish (h : Bound s) {p : Nat} {res : Reservation}
    {r : ControlLedger.RouteRecord} (hp : s.ledger.pairRouteReservations.get p = some res)
    (hr : r.routeId ∉ s.ledger.pairRouteIdentifiers)
    (hdecided : res.followerWorkerId = s.workerId →
      offers s.flight = [] ∧ Agrees s.runtime.budget .follower res.leaderWorkerId p) :
    Bound (s.establish (s.ledger.created p r.routeId res) p r) := by
  have hissued : ∀ q q', s.origins.get q = some q' → q ≠ r.routeId := by
    rintro q q' hq rfl
    exact hr (h.history.issued _ q' hq)
  have horigin : ∀ q q', s.origins.get q = some q' →
      (s.origins.set r.routeId p).get q = some q' :=
    fun q q' hq => (Table.get_set_ne _ _ (hissued q q' hq)).trans hq
  -- what is on its way is about older routes
  have hbond : ∀ m ∈ s.flight, ∀ v, m.view? = some v → ∀ q q' a b,
      Bond (s.origins.set r.routeId p) v q q' a b → Bond s.origins v q q' a b := by
    intro m hm v hv q q' a b hb
    obtain ⟨q'', p', a', b', hb', -, -⟩ := h.mail.viewed m hm v hv
    have hq : q'' = q := Option.some.inj (hb'.routeId.symm.trans hb.routeId)
    have ho := hb.origin
    rw [Table.get_set_ne _ _ (hissued q p' (hq ▸ hb'.origin))] at ho
    exact ⟨hb.routeId, hb.leader, hb.follower, ho⟩
  have hroutes : ∀ {q : Nat} {row : RouteRow},
      (s.ledger.created p r.routeId res).pairRoutes.get q = some row →
      q = r.routeId ∧ row.leaderWorkerId = res.leaderWorkerId ∧
          row.followerWorkerId = res.followerWorkerId ∨
          s.ledger.pairRoutes.get q = some row := by
    intro q row hq
    simp only [ControlLedger.created, Table.get_set] at hq
    split at hq
    · next he =>
        cases hq
        exact .inl ⟨he, rfl, rfl⟩
    · exact .inr hq
  have hreservations : ∀ {q : Nat} {row : Reservation},
      (s.ledger.created p r.routeId res).pairRouteReservations.get q = some row →
      s.ledger.pairRouteReservations.get q = some row :=
    fun hq => ((Table.get_delete_eq_some ..).1 hq).1
  have hnew : (s.origins.set r.routeId p).get r.routeId = some p := Table.get_set_self ..
  have hcurrent : ∀ {q q' : Nat} {row : RouteRow}, s.ledger.pairRoutes.get q = some row →
      (s.origins.set r.routeId p).get q = some q' → s.origins.get q = some q' := by
    intro q q' row hq ho
    obtain ⟨q'', ho', -⟩ := h.history.routed q row hq
    rwa [Table.get_set_ne _ _ (hissued q q'' ho')] at ho
  refine ⟨⟨h.history.ids, fun q row hq => h.history.reserved q row (hreservations hq), ?_,
    ?_⟩, ⟨?_, h.mail.replied, h.mail.offered, h.mail.fresh⟩,
    ⟨h.files.known, h.files.kept, ?_⟩,
    ⟨fun q row hq hw => h.leads.reserved q row (hreservations hq) hw, ?_, ?_⟩,
    ⟨fun q row hq hw => h.follows.reserved q row (hreservations hq) hw,
      fun q row hq hw hd => h.follows.decided q row (hreservations hq) hw hd, ?_, ?_,
      h.follows.behind⟩, ⟨?_, ?_, h.notices.first, h.notices.unseen⟩,
    ⟨h.asked.decides, fun q v hv => .tail _ (h.asked.asserts q v hv),
      fun q hq => .tail _ (h.asked.asserted q hq)⟩, h.prepared, h.down⟩
  · intro q row hq
    obtain ⟨rfl, hl, hf⟩ | hq := hroutes hq
    · refine ⟨p, hnew, ?_⟩
      rw [hl, hf]
      exact h.history.reserved p res hp
    · obtain ⟨q', ho, hos⟩ := h.history.routed q row hq
      exact ⟨q', horigin q q' ho, hos⟩
  · intro q q' hq
    by_cases he : q = r.routeId
    · rw [he]
      exact List.mem_cons_self ..
    · rw [show (s.establish (s.ledger.created p r.routeId res) p r).origins.get q =
        s.origins.get q
        from Table.get_set_ne _ _ he] at hq
      exact .tail _ (h.history.issued q q' hq)
  · intro m hm v hv
    obtain ⟨q, q', a, b, hb, hos, hw⟩ := h.mail.viewed m hm v hv
    exact ⟨q, q', a, b, ⟨hb.routeId, hb.leader, hb.follower,
      horigin q q' hb.origin⟩, hos, hw⟩
  · intro d hd
    obtain ⟨q, b, hb, ho, hrest⟩ := h.files.own d hd
    exact ⟨q, b, hb, horigin _ q ho, hrest⟩
  · intro q row q' hq ho hw
    obtain ⟨rfl, hl, hf⟩ | hq := hroutes hq
    · obtain rfl := Option.some.inj (hnew.symm.trans ho)
      rw [hf]
      exact h.leads.reserved p res hp (hl ▸ hw)
    · exact h.leads.routed q row q' hq (hcurrent hq ho) hw
  · intro before m after v q q' b hms hv hb
    have hm : m ∈ s.flight := by
      have : m ∈ s.flight.filter Runtime.isResult := by
        rw [show s.flight.filter Runtime.isResult = before ++ m :: after from hms]
        simp
      exact (List.mem_filter.1 this).1
    exact h.leads.viewed before m after v q q' b hms hv (hbond m hm v hv q q' _ b hb)
  · intro q row q' hq ho hw
    obtain ⟨rfl, hl, hf⟩ | hq := hroutes hq
    · obtain rfl := Option.some.inj (hnew.symm.trans ho)
      rw [hl]
      exact hdecided (hf ▸ hw)
    · exact h.follows.routed q row q' hq (hcurrent hq ho) hw
  · intro m hm v q q' a b hv hb ha
    exact h.follows.viewed m hm v q q' a b hv (hbond m hm v hv q q' a b hb) ha
  · intro m hm q hq
    obtain ⟨⟨row, hrow, hw⟩, hrest⟩ := h.notices.stands m hm q hq
    obtain ⟨q', ho, -⟩ := h.history.routed q row hrow
    refine ⟨⟨row, ?_, hw⟩, hrest⟩
    exact (Table.get_set_ne _ _ (hissued q q' ho)).trans hrow
  · refine h.notices.after.imp_of_mem fun hm _ hold q q' hq ho => ?_
    obtain ⟨⟨row, hrow, -⟩, -⟩ := h.notices.stands _ hm q hq
    exact hold q q' hq (hcurrent hrow ho)

/-- The leader is told of a route whose identifier is new. -/
theorem Bound.notice (h : Bound s) {r : Nat} {row : RouteRow} {v : RouteView}
    {acceptance : Bool} (hrow : s.ledger.pairRoutes.get r = some row)
    (hw : row.leaderWorkerId = s.workerId) (hid : v.routeId = some r)
    (hl : v.leaderWorkerId = some row.leaderWorkerId)
    (hf : v.followerWorkerId = some row.followerWorkerId)
    (hassert : s.ledger.unpairAssertions.get (r, s.workerId) = none)
    (hasked : ∀ x, .assertion r x ∉ s.asked)
    (hroute : ∀ d, s.runtime.route = some d → d.routeId ≠ r)
    (hviews : ∀ n ∈ s.flight, ∀ u, n.view? = some u → u.routeId ≠ some r) :
    Bound (s.send [.routeEstablished (some v) acceptance]) := by
  refine h.send fun hlive => ?_
  have hnew :
      ({ s with wire := s.wire ++ [.routeEstablished (some v) acceptance] } :
        Pairing).flight =
      s.flight ++ [.routeEstablished (some v) acceptance] := (List.append_assoc ..).symm
  obtain ⟨p, ho, hos⟩ := h.history.routed r row hrow
  refine ⟨h.history, ?_, h.files, ?_, ?_, ?_, h.asked, ?_, ?_⟩
  · rw [hnew]
    refine h.mail.append (fun u hu => ?_) rfl rfl
    obtain rfl := Option.some.inj hu
    exact ⟨r, p, _, _, ⟨hid, hl, hf, ho⟩, hos, .inl hw⟩
  · rw [hnew]
    refine h.leads.append rfl fun u q q' b hu hb => ?_
    obtain rfl := Option.some.inj hu
    obtain ⟨rfl, rfl, -, rfl⟩ := Bond.unique ⟨hid, hl, hf, ho⟩ hb
    exact h.leads.routed q row q' hrow hb.origin hw
  · rw [hnew]
    refine h.follows.append rfl fun u hu hne => ?_
    obtain rfl := Option.some.inj hu
    exact absurd (hl.trans (congrArg some hw)) hne
  · refine h.notices.appendNotice (r := r) (fun q hq => ?_) rfl ⟨row, hrow,
      hw⟩ hassert hasked hroute hviews
    exact Option.some.inj (hq.2.symm.trans hid)
  · intro hll hwaiting
    rw [hnew, replies_append_none rfl] at hwaiting
    exact h.prepared hll hwaiting
  · intro hdown
    exact absurd (hlive.symm.trans hdown) (by decide)

/-- An assertion of `x` for the route `r`; this Worker asserts no route whose notice is on
the way. -/
theorem Bound.asserted (h : Bound s) {r x : Nat} {v : Int}
    {reply : ControlLedger.AssertionRecord} {l : ControlLedger}
    (hl : s.ledger.recordPairUnpairAssertion r x v = (.ok reply, l))
    (hx : x = s.workerId → ∀ m ∈ s.flight, ¬m.establishes s.workerId r) :
    Bound { s with ledger := l } := by
  obtain ⟨row, assertions, hr, -, hassertions, hcases⟩ := ControlLedger.assertion_steady hl
  have hroutes : ∀ q row', l.pairRoutes.get q = some row' →
      s.ledger.pairRoutes.get q = some row' := by
    intro q row' hq
    obtain he | ⟨-, he⟩ := hcases
    · rwa [he] at hq
    · rw [he] at hq
      exact ((Table.get_delete_eq_some ..).1 hq).1
  have hreservations : l.pairRouteReservations = s.ledger.pairRouteReservations := by
    obtain he | ⟨-, he⟩ := hcases
    · rw [he]
    · rw [he]
      rfl
  have hids : l.pairRouteIdentifiers = s.ledger.pairRouteIdentifiers := by
    obtain he | ⟨-, he⟩ := hcases
    · rw [he]
    · rw [he]
      rfl
  have hkeys : ∀ k, l.unpairAssertions.get k ≠ none →
      k = (r, x) ∨ s.ledger.unpairAssertions.get k ≠ none := by
    intro k hk
    obtain he | ⟨-, he⟩ := hcases
    · rw [he] at hk
      exact hassertions k hk
    · rw [he] at hk
      exact hassertions k (ControlLedger.deleted_assertion hk)
  have hstays : ∀ m ∈ s.flight, ∀ q, m.establishes s.workerId q → ∀ row',
      s.ledger.pairRoutes.get q = some row' → row'.leaderWorkerId = s.workerId →
      l.pairRoutes.get q = some row' := by
    intro m hm q hq row' hrow hw
    obtain he | ⟨hall, he⟩ := hcases
    · rwa [he]
    · rw [he]
      refine (Table.get_delete_eq_some ..).2 ⟨hrow, ?_⟩
      -- a route goes only with an assertion of this Worker
      simp only [beq_eq_false_iff_ne, ne_eq]
      rintro rfl
      obtain rfl := Option.some.inj (hr.symm.trans hrow)
      obtain hk | hk := hassertions _ (hall s.workerId (by simp [RouteRow.has, hw]))
      · exact hx (Prod.mk.inj hk).2.symm m hm hq
      · exact hk (h.notices.stands m hm q hq).2.1
  refine ⟨⟨h.history.ids, hreservations ▸ h.history.reserved,
      fun q row' hq => h.history.routed q row' (hroutes q row' hq),
        hids ▸ h.history.issued⟩,
    h.mail, h.files,
    ⟨hreservations ▸ h.leads.reserved,
      fun q row' p hq => h.leads.routed q row' p (hroutes q row' hq), h.leads.viewed⟩,
    ⟨hreservations ▸ h.follows.reserved, hreservations ▸ h.follows.decided,
      fun q row' p hq => h.follows.routed q row' p (hroutes q row' hq), h.follows.viewed,
      h.follows.behind⟩,
    ⟨fun m hm q hq => ?_, h.notices.after, h.notices.first, h.notices.unseen⟩,
    ⟨h.asked.decides, hids ▸ h.asked.asserts, fun q hq => ?_⟩, h.prepared, h.down⟩
  · obtain ⟨⟨row', hrow, hw⟩, hnone, hasked⟩ := h.notices.stands m hm q hq
    refine ⟨⟨row', hstays m hm q hq row' hrow hw, hw⟩, ?_, hasked⟩
    by_contra hne
    obtain hk | hk := hkeys _ hne
    · obtain ⟨rfl, he⟩ := Prod.mk.inj hk
      exact hx he.symm m hm hq
    · exact hk hnone
  · rw [show ({ s with ledger := l } : Pairing).ledger.pairRouteIdentifiers =
      s.ledger.pairRouteIdentifiers from hids]
    obtain hk | hk := hkeys _ hq
    · obtain ⟨rfl, -⟩ := Prod.mk.inj hk
      obtain ⟨p, ho, -⟩ := h.history.routed q row hr
      exact h.history.issued q p ho
    · exact h.asked.asserted q hk

/-! ## Requests and operations -/

theorem reserve_send (s : Pairing) (o : Offer) (ms : List Control) (l l' : ControlLedger) :
    (s.reserve l o).send ms = { (s.reserve l' o).send ms with ledger := l } := by
  unfold send
  split
  · next hlive => exact (if_pos hlive).symm ▸ rfl
  · next hlive => exact (if_neg hlive).symm ▸ rfl

theorem send_cons (s : Pairing) (m : Control) (ms : List Control) :
    s.send (m :: ms) = (s.send [m]).send ms := by
  unfold send
  split
  · next hlive => simp [hlive]
  · rfl

@[simp] theorem send_nil (s : Pairing) : s.send [] = s := by
  unfold send
  split
  · rw [List.append_nil]
  · rfl

@[simp] theorem send_workerId (s : Pairing) (ms : List Control) :
    (s.send ms).workerId = s.workerId := by
  unfold send
  split <;> rfl

@[simp] theorem ledger_send (s : Pairing) (ms : List Control) :
    (s.send ms).ledger = s.ledger := by
  unfold send
  split <;> rfl

@[simp] theorem runtime_send (s : Pairing) (ms : List Control) :
    (s.send ms).runtime = s.runtime := by
  unfold send
  split <;> rfl

@[simp] theorem asked_send (s : Pairing) (ms : List Control) :
    (s.send ms).asked = s.asked := by
  unfold send
  split <;> rfl

@[simp] theorem proposals_send (s : Pairing) (ms : List Control) :
    (s.send ms).proposals = s.proposals := by
  unfold send
  split <;> rfl

theorem flight_send (s : Pairing) (m : Control) :
    (s.send [m]).flight = if s.live = true then s.flight ++ [m] else s.flight := by
  unfold send
  split
  · exact (List.append_assoc ..).symm
  · rfl

/-- A message that says nothing of a pairing. -/
theorem Bound.plain (h : Bound s) {m : Control} (hreply : m.reply? = none)
    (hoffer : m.offer? = none) (hview : m.view? = none) : Bound (s.send [m]) := by
  refine h.tell hreply hoffer (fun r hr => ?_) fun v hv => by simp [hview] at hv
  unfold Control.establishes at hr
  split at hr
  · cases hview
  · exact hr

/-- No reservation or route but the new one names this Worker. -/
theorem alone {l : ControlLedger} (hl : l.Exclusive) {w p : Nat} {row : Reservation}
    (hp : l.pairRouteReservations.get p = some row) (hw : row.has w = true) :
    (∀ q row', l.pairRouteReservations.get q = some row' → q ≠ p →
        row'.leaderWorkerId ≠ w ∧ row'.followerWorkerId ≠ w) ∧
      ∀ r row', l.pairRoutes.get r = some row' → row'.leaderWorkerId ≠ w ∧
        row'.followerWorkerId ≠ w := by
  have hres : ∀ q row', l.pairRouteReservations.get q = some row' →
      row'.has w = true → q = p := by
    intro q row' hq hhas
    simpa using hl.one (.reservation q) (.reservation p) w ⟨row', hq, hhas⟩ ⟨row, hp, hw⟩
  have hroutes : ∀ r row', l.pairRoutes.get r = some row' → row'.has w ≠ true := by
    intro r row' hr hhas
    cases hl.one (.route r) (.reservation p) w ⟨row', hr, hhas⟩ ⟨row, hp, hw⟩
  refine ⟨fun q row' hq hne => ⟨fun he => hne ?_, fun he => hne ?_⟩,
    fun r row' hr => ⟨fun he => ?_, fun he => ?_⟩⟩
  · exact hres q row' hq (by simp [Reservation.has, he])
  · exact hres q row' hq (by simp [Reservation.has, he])
  · exact hroutes r row' hr (by simp [RouteRow.has, he])
  · exact hroutes r row' hr (by simp [RouteRow.has, he])

/-- A new reservation, with the reply or the offer that this Worker gets of it. -/
theorem Bound.reserve (h : Bound s) {a b uuid : Nat} {row : Reservation}
    {l : ControlLedger} {owners : Table (PairKey × ExecutionMode) Unit}
    (hunused : s.Unused uuid) (hsteady : ControlLedger.Steady s.ledger l)
    (ha : row.leaderWorkerId = a) (hb : row.followerWorkerId = b)
    (hx : ControlLedger.Exclusive { l with
      pairExecutionOwners := owners
      pairRouteReservations := l.pairRouteReservations.set uuid row })
    (hlead : a = s.workerId → (s.live = true ∨ s.runtime.holds b = false) ∧
      (s.live = true → ∀ c, s.runtime.budget = some c → c.role = .leader →
        s.runtime.pendingBudget.isSome = true)) :
    Bound ((s.reserve { l with
      pairExecutionOwners := owners
      pairRouteReservations := l.pairRouteReservations.set uuid row } ⟨uuid, a, b⟩).send
        (if a = s.workerId then [.pairingProposalResult true (some uuid)]
          else if b = s.workerId then
          [.pairingProposed (some uuid) (some a)] else [])) := by
  subst ha hb
  have hnew := (h.steady hsteady).new hunused
  have hnoted : Bound (s.reserve l ⟨uuid, row.leaderWorkerId, row.followerWorkerId⟩) :=
    (h.steady hsteady).noted hunused
  have hold : ∀ q row', l.pairRouteReservations.get q = some row' → q ≠ uuid := by
    rintro q row' hq rfl
    exact hunused _ (h.history.reserved q row' (hsteady.reservations q row' hq)) rfl
  have hget : ∀ q row', l.pairRouteReservations.get q = some row' →
      (l.pairRouteReservations.set uuid row).get q = some row' :=
    fun q row' hq => (Table.get_set_ne _ _ (hold q row' hq)).trans hq
  have halone : row.has s.workerId = true →
      (∀ q row', l.pairRouteReservations.get q = some row' →
          row'.leaderWorkerId ≠ s.workerId ∧ row'.followerWorkerId ≠ s.workerId) ∧
        ∀ r row', l.pairRoutes.get r = some row' →
          row'.leaderWorkerId ≠ s.workerId ∧ row'.followerWorkerId ≠ s.workerId := by
    intro hw
    obtain ⟨hres, hroutes⟩ := alone hx (Table.get_set_self ..) hw
    exact ⟨fun q row' hq => hres q row' (hget q row' hq) (hold q row' hq), hroutes⟩
  have hdistinct : row.leaderWorkerId ≠ row.followerWorkerId :=
    hx.reservation uuid row (Table.get_set_self ..)
  rw [reserve_send _ _ _ _ l]
  by_cases hl : row.leaderWorkerId = s.workerId
  · obtain ⟨hres, hroutes⟩ := halone (by simp [Reservation.has, hl])
    obtain ⟨hanswered, hprepared⟩ := hlead hl
    rw [if_pos hl]
    have hos : ⟨uuid, s.workerId, row.followerWorkerId⟩ ∈
        (s.reserve l ⟨uuid, row.leaderWorkerId, row.followerWorkerId⟩).proposals := by
      simp [Pairing.reserve, hl]
    have hreply := hnoted.reply hos ⟨hnew.carried, hnew.decided, hnew.origin⟩
      (fun q row' hq => (hres q row' hq).1)
        (fun r row' hr => (hroutes r row' hr).1) hprepared
    refine hreply.insert uuid row owners (by rw [ledger_send]; rfl)
      (by simp [Pairing.reserve]) (by rw [asked_send]; exact hnew.decided)
      (fun _ => ?_) fun hf => ?_
    · rw [flight_send, runtime_send]
      split
      · exact .inl (by rw [replies_append]; simp [replies, Control.reply?])
      · next hdown =>
          have hnil := h.down (Bool.eq_false_iff.2 hdown)
          refine .inr ⟨?_, Runtime.agrees_of_not_holds (hanswered.resolve_left hdown) uuid⟩
          rw [show (s.reserve l ⟨uuid, row.leaderWorkerId,
            row.followerWorkerId⟩).flight = s.flight
            from rfl, hnil]
          rfl
    · rw [send_workerId] at hf
      exact absurd (hl.trans hf.symm) hdistinct
  · rw [if_neg hl]
    by_cases hf : row.followerWorkerId = s.workerId
    · obtain ⟨hres, hroutes⟩ := halone (by simp [Reservation.has, hf])
      rw [if_pos hf]
      have hos : ⟨uuid, row.leaderWorkerId, s.workerId⟩ ∈
          (s.reserve l ⟨uuid, row.leaderWorkerId, row.followerWorkerId⟩).proposals := by
        simp [Pairing.reserve, hf]
      have hoffer := hnoted.offer hos ⟨hnew.carried, hnew.decided, hnew.origin⟩
        (fun q row' hq => (hres q row' hq).2) (fun r row' hr => (hroutes r row' hr).2)
      refine hoffer.insert uuid row owners (by rw [ledger_send]; rfl)
        (by simp [Pairing.reserve]) (by rw [asked_send]; exact hnew.decided)
        (fun he => ?_) fun _ => ?_
      · rw [send_workerId] at he
        exact absurd he hl
      · rw [flight_send]
        split
        · exact .inl (by rw [offers_append]; simp [offers, Control.offer?])
        · next hdown =>
            have hnil := h.down (Bool.eq_false_iff.2 hdown)
            refine .inr ?_
            rw [show (s.reserve l ⟨uuid, row.leaderWorkerId,
              row.followerWorkerId⟩).flight = s.flight
              from rfl, hnil]
            rfl
    · rw [if_neg hf, send_nil]
      refine hnoted.insert uuid row owners rfl (by simp [Pairing.reserve]) hnew.decided
        (fun he => absurd he hl) fun he => absurd he hf

/-- The view of a route that the controller has just created. -/
theorem shows_created {l : ControlLedger} {p : Nat} {res : Reservation}
    {r : ControlLedger.RouteRecord} (hl : res.leaderWorkerId = r.leaderWorkerId)
    (hf : res.followerWorkerId = r.followerWorkerId) (hw : res.has s.workerId = true) :
    (s.establish (l.created p r.routeId res) p r).Shows (some r.view) := by
  refine ⟨r.routeId, ⟨_, res.leaderWorkerId, res.followerWorkerId, .active⟩,
    Table.get_set_self .., hw, rfl, ?_, ?_⟩
  · rw [hl]
    rfl
  · rw [hf]
    rfl

theorem Shows.send {v : Option RouteView} (h : s.Shows v) (ms : List Control) :
    (s.send ms).Shows v := by
  unfold Pairing.send
  split
  · cases v <;> exact h
  · exact h

theorem not_establishes {w r : Nat} {v : RouteView} {acceptance : Bool}
    (h : v.leaderWorkerId ≠ some w) :
    ¬(Control.routeEstablished (some v) acceptance).establishes w r :=
  fun he => h he.1

theorem Bound.serve_propose (h : Bound s) (hx : s.ledger.Exclusive) {e : Draws} {f : Nat}
    (hunused : s.Unused e.uuid) (hok : s.live = true ∨ s.runtime.holds f = false)
    (hprepared : s.live = true → ∀ c, s.runtime.budget = some c → c.role = .leader →
      s.runtime.pendingBudget.isSome = true) : Bound (s.serve e (.propose f)) := by
  have hxl := ControlLedger.perform_keeps
    (.reservePairRouteProposal s.workerId f e.connected e.uuid e.now) hx
  simp only [ControlLedger.perform, ControlLedger.answer] at hxl
  simp only [Pairing.serve]
  split
  · next p l hl =>
      rw [hl] at hxl
      obtain ⟨m, row, owners, hsteady, ha, hb, rfl⟩ := ControlLedger.reserve_ok hl
      have := h.reserve hunused hsteady ha hb hxl fun _ => ⟨hok, hprepared⟩
      rwa [if_pos rfl] at this
  · next l hl =>
      obtain rfl := ControlLedger.reserve_error hl
      exact h.plain rfl rfl rfl

theorem Bound.serve_decide (h : Bound s) (hx : s.ledger.Exclusive) {e : Draws} {p : Nat}
    {accepted : Bool}
    (hdecided : accepted = true → ∀ row, s.ledger.pairRouteReservations.get p = some row →
      row.followerWorkerId = s.workerId →
      offers s.flight = [] ∧ Agrees s.runtime.budget .follower row.leaderWorkerId p) :
    Bound (s.serve e (.decide p accepted)) := by
  have hrefused : Bound (s.send refused) := h.plain rfl rfl rfl
  have hxl :=
    ControlLedger.perform_keeps (.createPairRoute p e.connected e.routeIds e.now) hx
  simp only [ControlLedger.perform, ControlLedger.answer] at hxl
  simp only [Pairing.serve]
  split
  · exact hrefused
  · next row hrow =>
      split
      · exact hrefused
      · next hfollower =>
          have hfollower : row.followerWorkerId = s.workerId := by simpa using hfollower
          split
          · exact (h.steady (ControlLedger.release_keeps p)).plain rfl rfl rfl
          · next haccepted =>
              split
              · next r l hl =>
                  rw [hl] at hxl
                  obtain ⟨m, res, hsteady, hres, hnew, hl', hf', rfl⟩ :=
                    ControlLedger.create_ok hl
                  obtain rfl : row = res :=
                    Option.some.inj (hrow.symm.trans (hsteady.reservations p res hres))
                  have hmade := (h.steady hsteady).establish hres hnew fun _ =>
                    hdecided (by simpa using haccepted) row hrow hfollower
                  have hshows :
                      (s.establish (m.created p r.routeId row) p r).Shows (some r.view) :=
                    shows_created hl' hf' (by simp [Reservation.has, hfollower])
                  -- this Worker follows, so the notice is not one for a leader
                  have hleader : r.view.leaderWorkerId ≠ some s.workerId := by
                    intro he
                    refine (hxl.route r.routeId _ (Table.get_set_self ..)).1 ?_
                    change row.leaderWorkerId = row.followerWorkerId
                    rw [hfollower, hl']
                    exact Option.some.inj he
                  rw [send_cons]
                  refine Bound.tell (Bound.tell hmade rfl rfl (fun _ => id)
                    fun v hv => ?_) rfl rfl
                    (fun r' => not_establishes ?_) fun v hv => ?_
                  · obtain rfl := Option.some.inj hv
                    exact hshows
                  · rw [send_workerId]
                    exact hleader
                  · obtain rfl := Option.some.inj hv
                    exact hshows.send _
              · next l hl =>
                  exact (h.steady (ControlLedger.create_fails hl)).plain rfl rfl rfl

theorem Bound.serve_assertion (h : Bound s) {e : Draws} {r : Nat} {v : Int}
    (hnotice : ∀ m ∈ s.flight, ¬m.establishes s.workerId r) :
    Bound (s.serve e (.assertion r v)) := by
  simp only [Pairing.serve]
  split
  · next reply l hl =>
      have hbound := h.asserted hl fun _ => hnotice
      rw [send_cons]
      split
      · exact (hbound.plain rfl rfl rfl).plain rfl rfl rfl
      · rw [send_nil]
        exact hbound.plain rfl rfl rfl
  · next l hl =>
      obtain ⟨-, rfl⟩ := Tx.commit_error.1 hl
      exact h.plain rfl rfl rfl

theorem Bound.serve (h : Bound s) (hx : s.ledger.Exclusive) {q : Request}
    {rest : List Request} (hasked : s.asked = q :: rest) {e : Draws}
    (hunused : s.Unused e.uuid) (hok : s.Answered (.serve e)) :
    Bound ({ s with asked := rest }.serve e q) := by
  have hq : q ∈ s.asked := by simp [hasked]
  have hrest : Bound { s with asked := rest } :=
    h.served fun r hr => by rw [hasked]; exact .tail _ hr
  cases q with
  | propose f =>
      simp only [Answered, hasked] at hok
      exact hrest.serve_propose hx hunused hok fun hlive => h.prepared hlive (.inr ⟨f, hq⟩)
  | decide p accepted =>
      refine hrest.serve_decide hx fun haccepted row hrow hw => ?_
      exact h.follows.decided p row hrow hw (haccepted ▸ hq)
  | assertion r v =>
      exact hrest.serve_assertion fun m hm hest => (h.notices.stands m hm r hest).2.2 v hq

theorem serve_exclusive (hx : s.ledger.Exclusive) (e : Draws) (q : Request) :
    (s.serve e q).ledger.Exclusive := by
  cases q with
  | propose f =>
      have hxl := ControlLedger.perform_keeps
        (.reservePairRouteProposal s.workerId f e.connected e.uuid e.now) hx
      simp only [ControlLedger.perform, ControlLedger.answer] at hxl
      simp only [Pairing.serve]
      split
      · next hl =>
          rw [ledger_send]
          rwa [hl] at hxl
      · next hl =>
          rw [ledger_send]
          rwa [hl] at hxl
  | decide p accepted =>
      have hxl :=
        ControlLedger.perform_keeps (.createPairRoute p e.connected e.routeIds e.now) hx
      have hxr := ControlLedger.perform_keeps (.releasePairRouteReservation p) hx
      simp only [ControlLedger.perform, ControlLedger.answer] at hxl hxr
      simp only [Pairing.serve]
      split
      · rwa [ledger_send]
      · split
        · rwa [ledger_send]
        · split
          · rwa [ledger_send]
          · split
            · next hl =>
                rw [ledger_send]
                rwa [hl] at hxl
            · next hl =>
                rw [ledger_send]
                rwa [hl] at hxl
  | assertion r v =>
      have hxl :=
        ControlLedger.perform_keeps (.recordPairUnpairAssertion r s.workerId v) hx
      simp only [ControlLedger.perform, ControlLedger.answer] at hxl
      simp only [Pairing.serve]
      split
      · next hl =>
          rw [ledger_send]
          rwa [hl] at hxl
      · next hl =>
          rw [ledger_send]
          rwa [hl] at hxl

theorem operate_ledger (s : Pairing) (op : ControlLedger.Op) :
    (s.operate op).ledger = (s.ledger.perform op).2 := by
  unfold operate
  split
  · next h => rw [ledger_send, h]; rfl
  · next h => rw [ledger_send, h]; rfl
  · next h => rw [h]

/-- A route made for others, of which this Worker is told when it leads. -/
theorem Bound.created (h : Bound s) {p : Nat} {res : Reservation} {l : ControlLedger}
    {r : ControlLedger.RouteRecord} (hsteady : ControlLedger.Steady s.ledger l)
    (hres : l.pairRouteReservations.get p = some res)
    (hnew : r.routeId ∉ l.pairRouteIdentifiers)
    (hl : res.leaderWorkerId = r.leaderWorkerId)
    (hf : res.followerWorkerId = r.followerWorkerId)
    (hw : res.followerWorkerId ≠ s.workerId) :
    Bound ((s.establish (l.created p r.routeId res) p r).send
      (if r.leaderWorkerId = s.workerId then
        [.routeEstablished (some r.view) true] else [])) := by
  have hm := h.steady hsteady
  have hmade : Bound (s.establish (l.created p r.routeId res) p r) :=
    hm.establish hres hnew fun he => absurd he hw
  have hissued : ∀ q q', s.origins.get q = some q' → q ≠ r.routeId := by
    rintro q q' hq rfl
    exact hnew (hm.history.issued _ q' hq)
  split
  · next hleader =>
      refine hmade.notice (Table.get_set_self ..) (hl.trans hleader) rfl
        (congrArg some hl.symm)
        (congrArg some hf.symm) ?_ (fun x hx => hnew (hm.asked.asserts _ x hx))
          (fun d hd => ?_) ?_
      · by_contra hne
        exact hnew (hm.asked.asserted _ hne)
      · obtain ⟨q, b, -, ho, -⟩ := h.files.own d hd
        exact hissued _ q ho
      · intro n hn u hu he
        obtain ⟨q, q', a, b, hb, -, -⟩ := h.mail.viewed n hn u hu
        exact hissued q q' hb.origin (Option.some.inj (hb.routeId.symm.trans he))
  · rw [send_nil]
    exact hmade

theorem Bound.operate (h : Bound s) (hx : s.ledger.Exclusive) {op : ControlLedger.Op}
    (hop : s.Others op) : Bound (s.operate op) := by
  by_cases hd : op.Decisive
  · have hxl := ControlLedger.perform_keeps op hx
    cases op with
    | reservePairRouteProposal a b connected uuid now =>
        obtain ⟨ha, hunused⟩ := hop
        cases hc : s.ledger.reservePairRouteProposal a b connected uuid now with
        | mk out l =>
            simp only [ControlLedger.perform, ControlLedger.answer, hc] at hxl
            cases out with
            | error e =>
                obtain rfl := ControlLedger.reserve_error hc
                simp only [Pairing.operate, ControlLedger.perform,
                  ControlLedger.answer, hc]
                exact h
            | ok p =>
                obtain ⟨m, row, owners, hsteady, hl, hf, rfl⟩ :=
                  ControlLedger.reserve_ok hc
                have := h.reserve hunused hsteady hl hf hxl fun he => absurd he ha
                rw [if_neg ha] at this
                simp only [Pairing.operate, ControlLedger.perform,
                  ControlLedger.answer, hc]
                exact this
    | createPairRoute p connected draw now =>
        cases hc : s.ledger.createPairRoute p connected draw now with
        | mk out l =>
            cases out with
            | error e =>
                simp only [Pairing.operate, ControlLedger.perform,
                  ControlLedger.answer, hc]
                exact h.steady (ControlLedger.create_fails hc)
            | ok r =>
                obtain ⟨m, res, hsteady, hres, hnew, hl, hf, rfl⟩ :=
                  ControlLedger.create_ok hc
                have := h.created hsteady hres hnew hl hf
                  (hop res (hsteady.reservations p res hres))
                simp only [Pairing.operate, ControlLedger.perform,
                  ControlLedger.answer, hc]
                exact this
    | recordPairUnpairAssertion r w v =>
        cases hc : s.ledger.recordPairUnpairAssertion r w v with
        | mk out l =>
            simp only [Pairing.operate, ControlLedger.perform, ControlLedger.answer, hc]
            cases out with
            | error e =>
                obtain ⟨-, rfl⟩ := Tx.commit_error.1 hc
                exact h
            | ok reply => exact h.asserted hc fun he => absurd he hop
    | deleteWorker w => exact hop.elim
    | _ => exact hd.elim
  · have hs : s.operate op = { s with ledger := (s.ledger.perform op).2 } := by
      cases op <;> first | rfl | exact absurd trivial hd
    rw [hs]
    exact h.steady (ControlLedger.perform_steady op hd)

end Pairing

end PairCell
