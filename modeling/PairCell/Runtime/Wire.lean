import PairCell.Runtime.Budget

/-!
# Messages between a Worker and the controller

A Worker's own steps, and messages written, delivered or lost, keep the
invariant, as long as no reply to a proposal is lost while the record of an
earlier proposal to the same follower is held.
-/

namespace PairCell

open Lib

/-- The record is a leader's, for this follower. -/
def Runtime.holds (r : Runtime) (follower : Nat) : Bool :=
  r.budget.any fun b => decide (b.role = .leader) &&
    decide (b.counterpartyWorkerId = follower)

theorem Runtime.agrees_of_not_holds {r : Runtime} {f : Nat}
    (h : r.holds f = false) (p : Nat) :
    Agrees r.budget .leader f p := by
  intro b hb hrole hpeer
  simp [holds, hb, hrole, hpeer] at h

namespace Pairing

/-- The Worker holds the record of another proposal to the follower of its proposal `p`. -/
def Shadowed (s : Pairing) (p : Nat) : Prop :=
  ∃ o ∈ s.proposals, o.proposalId = p ∧ o.leaderWorkerId = s.workerId ∧
    s.runtime.holds o.followerWorkerId = true

instance (s : Pairing) (p : Nat) : Decidable (s.Shadowed p) :=
  inferInstanceAs (Decidable (∃ o ∈ s.proposals, _))

/-- No reply is lost while its proposal is shadowed: not from a full inbox, not with the
session, and not because the session was over when the proposal was served. -/
def Answered (s : Pairing) : PairingLabel → Prop
  | .lose m => ∀ p ∈ m.reply?, ¬s.Shadowed p
  | .hangup => ∀ p ∈ replies s.flight, ¬s.Shadowed p
  | .torn _ => ∀ p ∈ replies s.flight, ¬s.Shadowed p
  | .serve _ =>
      match s.asked with
      | .propose f :: _ => s.live = true ∨ s.runtime.holds f = false
      | _ => True
  | _ => True

instance (s : Pairing) (l : PairingLabel) : Decidable (s.Answered l) := by
  unfold Answered
  split <;> try infer_instance
  split <;> infer_instance

variable {s : Pairing}

theorem agrees_of_not_shadowed {p f : Nat} (h : ¬s.Shadowed p)
    (hp : ⟨p, s.workerId, f⟩ ∈ s.proposals) (q : Nat) :
    Agrees s.runtime.budget .leader f q := by
  refine Runtime.agrees_of_not_holds ?_ q
  cases hholds : s.runtime.holds f with
  | false => rfl
  | true => exact absurd ⟨_, hp, rfl, rfl, hholds⟩ h

/-! ## Steps of the Worker -/

theorem Bound.keep (h : Bound s) {r : Runtime} (hk : Runtime.Keeps s.runtime r)
    (hroute : r.route = s.runtime.route ∨
      ∃ d st, s.runtime.route = some d ∧ r.route = some { d with state := st }) :
    Bound { s with runtime := r } := by
  have hsame : ({ s with runtime := r } : Pairing).workerId = s.workerId := hk.workerId
  have hold : ∀ d, r.route = some d → ∃ d', s.runtime.route = some d' ∧
      d'.routeId = d.routeId ∧
      d'.balance = d.balance := by
    intro d hd
    obtain he | ⟨d', st, hd', hr⟩ := hroute
    · exact ⟨d, he ▸ hd, rfl, rfl⟩
    · rw [hr] at hd
      cases hd
      exact ⟨d', hd', rfl, rfl⟩
  refine ⟨h.history, hsame ▸ h.mail, ?_, ?_, ?_, ?_, hsame ▸ h.asked, ?_, h.down⟩
  · refine ⟨h.files.known, fun b hb => h.files.kept b (hk.budget ▸ hb), fun d hd => ?_⟩
    obtain ⟨d', hd', hid, hbalance⟩ := hold d hd
    rw [← hid, ← hbalance]
    exact h.files.own d' hd'
  · rw [hsame]
    exact h.leads.mono fun _ _ ha => by rwa [hk.budget]
  · rw [hsame]
    exact h.follows.mono fun _ _ ha => by rwa [hk.budget]
  · rw [hsame]
    refine ⟨h.notices.stands, h.notices.after, h.notices.first, fun m hm r hr => ?_⟩
    obtain ⟨hids, hturn⟩ := h.notices.unseen m hm r hr
    refine ⟨fun d hd => ?_, hturn⟩
    obtain ⟨d', hd', hid, -⟩ := hold d hd
    exact hid ▸ hids d' hd'
  · intro hlive hwaiting b hb hrole
    exact hk.pending (h.prepared hlive hwaiting b (hk.budget ▸ hb) hrole)

theorem Bound.ask (h : Bound s) {more : List Request}
    (hpropose : ∀ f, .propose f ∈ more → s.runtime.pendingBudget.isSome = true)
    (hdecide : ∀ p, .decide p true ∉ more)
    (hassert : ∀ r v, .assertion r v ∈ more → r ∈ s.ledger.pairRouteIdentifiers ∧
      ∀ m ∈ s.flight, ¬m.establishes s.workerId r) :
    Bound { s with asked := s.asked ++ more } := by
  refine ⟨h.history, h.mail, h.files, h.leads, h.follows.ask hdecide, ?_, ?_, ?_,
    h.down⟩
  · refine ⟨fun m hm r hr => ?_, h.notices.after, h.notices.first, h.notices.unseen⟩
    obtain ⟨hrow, hnone, hold⟩ := h.notices.stands m hm r hr
    refine ⟨hrow, hnone, fun v hv => ?_⟩
    obtain hv | hv := List.mem_append.1 hv
    · exact hold v hv
    · exact (hassert r v hv).2 m hm hr
  · refine ⟨fun p hp => ?_, fun r v hv => ?_, h.asked.asserted⟩
    · exact h.asked.decides p ((List.mem_append.1 hp).resolve_right (hdecide p))
    · exact (List.mem_append.1 hv).elim (h.asked.asserts r v) fun hv => (hassert r v hv).1
  · intro hlive hwaiting b hb hrole
    by_cases hnew : ∃ f, Request.propose f ∈ more
    · obtain ⟨f, hf⟩ := hnew
      exact hpropose f hf
    · refine h.prepared hlive (hwaiting.imp_right fun ⟨f, hf⟩ => ⟨f, ?_⟩) b hb hrole
      exact (List.mem_append.1 hf).resolve_right fun hf => hnew ⟨f, hf⟩

theorem Bound.served (h : Bound s) {rest : List Request}
    (hrest : ∀ q ∈ rest, q ∈ s.asked) :
    Bound { s with asked := rest } := by
  refine ⟨h.history, h.mail, h.files, h.leads, ?_, ?_, ?_, ?_, h.down⟩
  · exact ⟨h.follows.reserved,
      fun p row hp hw hd => h.follows.decided p row hp hw (hrest _ hd), h.follows.routed,
        h.follows.viewed, h.follows.behind⟩
  · refine ⟨fun m hm r hr => ?_, h.notices.after, h.notices.first, h.notices.unseen⟩
    obtain ⟨hrow, hnone, hold⟩ := h.notices.stands m hm r hr
    exact ⟨hrow, hnone, fun v hv => hold v (hrest _ hv)⟩
  · exact ⟨fun p hp => h.asked.decides p (hrest _ hp),
      fun r v hv => h.asked.asserts r v (hrest _ hv), h.asked.asserted⟩
  · intro hlive hwaiting
    exact h.prepared hlive (hwaiting.imp_right fun ⟨f, hf⟩ => ⟨f, hrest _ hf⟩)

/-! ## The wire -/

/-- What is handled in its own order stays as it is when messages are
taken off the wire. -/
theorem Bound.drain (h : Bound s) (hturn : s.turn = []) (n : Nat) :
    Bound (s.drained n) := by
  have hflight : s.flight = s.wire.take n ++ s.wire.drop n := by
    rw [List.take_append_drop, flight, hturn, List.nil_append]
  have hnew : (s.drained n).flight = sorted (s.wire.take n) ++ s.wire.drop n := rfl
  have hmem : ∀ m, m ∈ (s.drained n).flight ↔ m ∈ s.flight := by
    intro m
    rw [hnew, hflight, List.mem_append, List.mem_append, mem_sorted]
  have hreplies : replies (s.drained n).flight = replies s.flight := by
    rw [hnew, hflight, replies_append, replies_append, replies_sorted]
  have hoffers : offers (s.drained n).flight = offers s.flight := by
    rw [hnew, hflight, offers_append, offers_append, offers_sorted]
  have hresults : (s.drained n).flight.filter Runtime.isResult =
      s.flight.filter Runtime.isResult := by
    rw [hnew, hflight, List.filter_append, List.filter_append, results_sorted]
  -- an order that every reply has with a later notification
  have hpairwise : ∀ {R : Control → Control → Prop}, s.flight.Pairwise R →
      (∀ m n, Runtime.isResult m = true → Runtime.isResult n = false → R m n) →
      (s.drained n).flight.Pairwise R := by
    intro R hR hcross
    rw [hflight] at hR
    obtain ⟨htake, hdrop, hboth⟩ := List.pairwise_append.1 hR
    rw [hnew]
    refine List.pairwise_append.2 ⟨pairwise_sorted htake hcross, hdrop,
      fun a ha b hb => ?_⟩
    exact hboth a (mem_sorted.1 ha) b hb
  refine ⟨h.history, ?_, h.files, ?_, ?_, ?_, h.asked, ?_, ?_⟩
  · refine ⟨fun m hm => h.mail.viewed m ((hmem m).1 hm), ?_,
      fun m hm => h.mail.offered m ((hmem m).1 hm), ?_⟩
    · rw [hreplies]
      exact h.mail.replied
    · rw [hreplies, hoffers]
      exact h.mail.fresh
  · refine ⟨?_, ?_, ?_⟩
    · rw [hreplies]
      exact h.leads.reserved
    · rw [hreplies]
      exact h.leads.routed
    · rw [hresults]
      exact h.leads.viewed
  · refine ⟨?_, ?_, ?_, fun m hm => h.follows.viewed m ((hmem m).1 hm),
      hpairwise h.follows.behind ?_⟩
    · rw [hoffers]
      exact h.follows.reserved
    · rw [hoffers]
      exact h.follows.decided
    · rw [hoffers]
      exact h.follows.routed
    · intro m n hm _ hoffer
      obtain ⟨p, hp⟩ := Option.ne_none_iff_exists'.1 hoffer
      rw [isResult_of_offer hp] at hm
      cases hm
  · have hfirst := h.notices.first
    rw [← List.take_append_drop n s.wire] at hfirst
    obtain ⟨-, hdrop, hboth⟩ := List.pairwise_append.1 hfirst
    refine ⟨fun m hm => h.notices.stands m ((hmem m).1 hm),
      hpairwise h.notices.after ?_, hdrop, ?_⟩
    · intro m n hm hn r p hest _ hreply
      rw [isResult_of_reply hreply] at hn
      cases hn
    · intro m hm r hr
      refine ⟨(h.notices.unseen m (List.mem_of_mem_drop hm) r hr).1,
        fun k hk v hv hid => ?_⟩
      exact hboth k (mem_sorted.1 hk) m hm v r hv hid hr
  · intro hlive hwaiting
    rw [hreplies] at hwaiting
    exact h.prepared hlive hwaiting
  · intro hdown
    have hnil := h.down hdown
    rw [List.eq_nil_iff_forall_not_mem] at hnil ⊢
    exact fun m hm => hnil m ((hmem m).1 hm)

theorem leads_congr {w : Nat} {l : ControlLedger} {origins : Table Nat Nat}
    {budget : Option FrozenBudget} {ms ns : List Control} (h : Leads w l origins budget ms)
    (hns : ns.filter Runtime.isResult = ms.filter Runtime.isResult) :
    Leads w l origins budget ns := by
  have hreplies : replies ns = replies ms := by
    rw [← replies_results, hns, replies_results]
  refine ⟨?_, ?_, ?_⟩
  · rw [hreplies]
    exact h.reserved
  · rw [hreplies]
    exact h.routed
  · rw [hns]
    exact h.viewed

theorem leads_lost (h : Bound s) {m : Control} {ms : List Control}
    (hm : ∀ p ∈ m.reply?, ¬s.Shadowed p) (hms : ∀ n ∈ ms, n ∈ s.flight)
    (hleads : Leads s.workerId s.ledger s.origins s.runtime.budget (m :: ms)) :
    Leads s.workerId s.ledger s.origins s.runtime.budget ms := by
  cases hreply : m.reply? with
  | none => exact hleads.pop hreply
  | some q =>
      have hq := hm q hreply
      refine hleads.popReply hreply (fun row hp hw => ?_) (fun r row hr ho hw => ?_) ?_
      · have hos := h.history.reserved q row hp
        rw [hw] at hos
        exact agrees_of_not_shadowed hq hos q
      · obtain ⟨p, ho', hos⟩ := h.history.routed r row hr
        obtain rfl := Option.some.inj (ho'.symm.trans ho)
        rw [hw] at hos
        exact agrees_of_not_shadowed hq hos p
      · intro n hn v r b hv hbond
        obtain ⟨r', p', a', b', hbond', hos, -⟩ := h.mail.viewed n (hms n hn) v hv
        obtain ⟨rfl, rfl, rfl, rfl⟩ := hbond'.unique hbond
        exact agrees_of_not_shadowed hq hos _

theorem follows_lost {w : Nat} {l : ControlLedger} {origins : Table Nat Nat}
    {budget : Option FrozenBudget} {asked : List Request} {ms ns : List Control}
    (h : Follows w l origins budget asked ms) (hsub : ns.Sublist ms)
    (hlast : offers ns = offers ms ∨ ∃ q, offers ms = q :: offers ns) :
    Follows w l origins budget asked ns := by
  have hnil : offers ms = [] → offers ns = [] := by
    intro hms
    have := hsub.filterMap Control.offer?
    rw [show ms.filterMap Control.offer? = [] from hms] at this
    exact List.sublist_nil.1 this
  refine ⟨fun p row hp hw => ?_, fun p row hp hw hd => ?_, fun r row p hr ho hw => ?_,
    fun n hn => h.viewed n (hsub.subset hn), h.behind.sublist hsub⟩
  · have hold := h.reserved p row hp hw
    obtain he | ⟨q, hq⟩ := hlast
    · rwa [he]
    · rw [hq] at hold
      cases hrest : offers ns with
      | nil => exact .inr rfl
      | cons a rest =>
          obtain hold | hold := hold
          · exact .inl (by simpa [hrest] using hold)
          · cases hold
  · exact (h.decided p row hp hw hd).imp_left hnil
  · exact (h.routed r row p hr ho hw).imp_left hnil

/-- The oldest reply, or the oldest notification, is lost. -/
theorem Bound.lose (h : Bound s) {m : Control} {before after : List Control}
    (hturn : s.turn = []) (hwire : s.wire = before ++ m :: after)
    (hfirst : ∀ b ∈ before, Runtime.isResult b ≠ Runtime.isResult m)
    (hm : ∀ p ∈ m.reply?, ¬s.Shadowed p) : Bound { s with wire := before ++ after } := by
  have hflight : s.flight = before ++ m :: after := by
    rw [flight, hturn, hwire, List.nil_append]
  have hnew : ({ s with wire := before ++ after } : Pairing).flight = before ++ after := by
    simp [flight, hturn]
  have hsub : (before ++ after).Sublist s.flight := by
    rw [hflight]
    exact (List.Sublist.refl before).append (List.sublist_cons_self m after)
  have hwiresub : (before ++ after).Sublist s.wire := by
    rw [hwire]
    exact (List.Sublist.refl before).append (List.sublist_cons_self m after)
  refine ⟨h.history, ?_, h.files, ?_, ?_, ?_, h.asked, ?_, ?_⟩
  · rw [hnew]
    refine ⟨fun n hn => h.mail.viewed n (hsub.subset hn), fun p hp => ?_,
      fun n hn => h.mail.offered n (hsub.subset hn), ?_⟩
    · exact h.mail.replied p ((hsub.filterMap _).subset hp)
    · exact h.mail.fresh.sublist
        (((hsub.filterMap _).append (hsub.filterMap _)).append (List.Sublist.refl _))
  · rw [hnew]
    by_cases hres : Runtime.isResult m = true
    · have hnone : before.filter Runtime.isResult = [] := by
        rw [List.filter_eq_nil_iff]
        exact fun b hb hr => hfirst b hb (hr.trans hres.symm)
      have hleads : Leads s.workerId s.ledger s.origins s.runtime.budget (m :: after) := by
        refine leads_congr h.leads ?_
        rw [hflight, List.filter_append, hnone, List.nil_append]
      refine leads_congr (leads_lost h hm (fun n hn => ?_) hleads) ?_
      · simp [hflight, hn]
      · rw [List.filter_append, hnone, List.nil_append]
    · refine leads_congr h.leads ?_
      rw [hflight, List.filter_append, List.filter_append, List.filter_cons_of_neg hres]
  · rw [hnew]
    refine follows_lost h.follows hsub ?_
    rw [hflight, offers_append, offers_append]
    cases hoffer : m.offer? with
    | none => exact .inl (by rw [offers_cons_none hoffer])
    | some q =>
        refine .inr ⟨q, ?_⟩
        have hnone : offers before = [] := by
          rw [offers, List.filterMap_eq_nil_iff]
          intro b hb
          cases hb' : b.offer? with
          | none => rfl
          | some p =>
              exact absurd ((isResult_of_offer hb').trans (isResult_of_offer hoffer).symm)
                (hfirst b hb)
        rw [hnone, List.nil_append, List.nil_append]
        exact List.filterMap_cons_some hoffer
  · have hafter := h.notices.after
    have hstands := h.notices.stands
    have hunseen := h.notices.unseen
    rw [hturn] at hafter hstands hunseen
    change Notices s.workerId s.ledger s.origins s.asked s.runtime.route s.turn
      (before ++ after)
    rw [hturn]
    exact ⟨fun n hn => hstands n (hwiresub.subset hn), hafter.sublist hwiresub,
      h.notices.first.sublist hwiresub, fun n hn => hunseen n (hwiresub.subset hn)⟩
  · intro hlive hwaiting
    rw [hnew] at hwaiting
    refine h.prepared hlive (hwaiting.imp_left fun hne hnil => hne ?_)
    have := hsub.filterMap Control.reply?
    rw [show s.flight.filterMap Control.reply? = [] from hnil] at this
    exact List.sublist_nil.1 this
  · intro hdown
    rw [hnew]
    have := hsub
    rw [h.down hdown] at this
    exact List.sublist_nil.1 this

theorem notices_nil (w : Nat) (l : ControlLedger) (origins : Table Nat Nat)
    (asked : List Request) (route : Option DurableRoute) :
    Notices w l origins asked route [] [] where
  stands m hm := by cases hm
  after := .nil
  first := .nil
  unseen m hm := by cases hm

/-- The session is lost with everything it carried. -/
theorem Bound.hangup (h : Bound s) (hlost : ∀ p ∈ replies s.flight, ¬s.Shadowed p) :
    Bound s.hangup := by
  have hnew : s.hangup.flight = [] := rfl
  have hsettled : ∀ f p, Settled s.runtime.budget (replies s.flight) f p →
      ⟨p, s.workerId, f⟩ ∈ s.proposals → Settled s.runtime.budget [] f p := by
    rintro f p (hlast | ⟨-, ha⟩) hos
    · exact .inr ⟨rfl, agrees_of_not_shadowed (hlost p (List.mem_of_getLast? hlast)) hos p⟩
    · exact .inr ⟨rfl, ha⟩
  refine ⟨h.history, ?_, h.files, ?_, ?_, ?_, h.asked, ?_, fun _ => rfl⟩
  · rw [hnew]
    refine ⟨by simp, by simp [replies], by simp, ?_⟩
    exact h.mail.fresh.sublist (List.sublist_append_right _ _)
  · rw [hnew]
    refine ⟨fun p row hp hw => ?_, fun r row p hr ho hw => ?_, by simp⟩
    · have hos := h.history.reserved p row hp
      rw [hw] at hos
      exact hsettled _ p (h.leads.reserved p row hp hw) hos
    · obtain ⟨q, ho', hos⟩ := h.history.routed r row hr
      obtain rfl := Option.some.inj (ho'.symm.trans ho)
      rw [hw] at hos
      exact hsettled _ q (h.leads.routed r row q hr ho hw) hos
  · rw [hnew]
    exact ⟨fun _ _ _ _ => .inr rfl,
      fun p row hp hw hd => ⟨rfl, (h.follows.decided p row hp hw hd).2⟩,
      fun r row p hr ho hw => ⟨rfl, (h.follows.routed r row p hr ho hw).2⟩, by simp, .nil⟩
  · exact notices_nil _ _ _ _ _
  · intro hlive
    cases hlive

/-- The crash comes in a handler that has written the file of the route. -/
theorem Bound.torn (h : Bound s) {m : Control} {rest : List Control}
    (hturn : s.turn = m :: rest) (x : Answers)
    (hlost : ∀ p ∈ replies s.flight, ¬s.Shadowed p) :
    Bound ({ s with runtime := s.runtime.torn x m }).hangup := by
  have hh := h.hangup hlost
  refine ⟨hh.history, hh.mail, ⟨hh.files.known, hh.files.kept, fun d hd => ?_⟩,
    hh.leads, hh.follows, ?_, hh.asked, ?_, hh.down⟩
  · exact h.own_handled hturn x hd
  · exact notices_nil _ _ _ _ _
  · intro hlive
    cases hlive

theorem Bound.reconnect (h : Bound s) (hlive : s.live = false) (x : Answers) :
    Bound { s with runtime := s.runtime.rebuild x, live := true, asked := [] } := by
  obtain ⟨hworker, hbudget, hroute⟩ := Runtime.keeps_rebuild s.runtime x
  have hs := h.served (fun _ => List.not_mem_nil.elim)
  have hnil := h.down hlive
  obtain ⟨hturn, hwire⟩ := List.append_eq_nil_iff.1 hnil
  have hsame :
      ({ s with runtime := s.runtime.rebuild x, live := true, asked := [] } :
        Pairing).workerId =
      s.workerId := hworker
  refine ⟨h.history, hsame ▸ hs.mail, ?_, ?_, ?_, ?_, hsame ▸ hs.asked, ?_, ?_⟩
  · change Files s.proposals s.origins s.frozen (s.runtime.rebuild x).budget
      (s.runtime.rebuild x).route
    rw [hbudget, hroute]
    exact h.files
  · rw [hsame]
    exact h.leads.mono fun _ _ ha => by rwa [hbudget]
  · rw [hsame]
    exact hs.follows.mono fun _ _ ha => by rwa [hbudget]
  · rw [hsame]
    change Notices s.workerId s.ledger s.origins []
      (s.runtime.rebuild x).route s.turn s.wire
    rw [hroute]
    exact hs.notices
  · rintro - (hne | ⟨f, hf⟩)
    · exact absurd (show replies s.flight = [] by rw [hnil]; rfl) hne
    · cases hf
  · intro hdown
    cases hdown

end Pairing

/-! ## The controller writes -/

section Append

variable {w : Nat} {l : ControlLedger} {os : List Offer} {origins : Table Nat Nat}
  {frozen : List FrozenBudget} {budget : Option FrozenBudget} {asked : List Request}
  {route : Option DurableRoute} {m : Control} {ms turn wire : List Control}

theorem results_append_split {before after : List Control} {n : Control}
    (h : (ms ++ [m]).filter Runtime.isResult = before ++ n :: after) :
    (n = m ∧ before = ms.filter Runtime.isResult) ∨
      ∃ rest, ms.filter Runtime.isResult = before ++ n :: rest := by
  rw [List.filter_append] at h
  by_cases hm : Runtime.isResult m = true
  · rw [List.filter_cons_of_pos hm, List.filter_nil] at h
    obtain ⟨rest, hrest, hn⟩ | ⟨rest, hrest, hn⟩ := List.append_eq_append_iff.1 h
    · cases rest with
      | nil =>
          rw [List.nil_append] at hn
          cases hn
          exact .inl ⟨rfl, by simpa using hrest⟩
      | cons a rest => simp at hn
    · cases rest with
      | nil =>
          rw [List.nil_append] at hn
          cases hn
          exact .inl ⟨rfl, by simpa using hrest.symm⟩
      | cons a rest =>
          rw [List.cons_append] at hn
          cases hn
          exact .inr ⟨rest, hrest⟩
  · rw [List.filter_cons_of_neg hm, List.filter_nil, List.append_nil] at h
    exact .inr ⟨after, h⟩

theorem replies_append_none (hm : m.reply? = none) : replies (ms ++ [m]) = replies ms := by
  rw [replies_append]
  simp [replies, hm]

theorem offers_append_none (hm : m.offer? = none) : offers (ms ++ [m]) = offers ms := by
  rw [offers_append]
  simp [offers, hm]

theorem Leads.append (h : Leads w l origins budget ms) (hm : m.reply? = none)
    (hview : ∀ v r p b, m.view? = some v → Bond origins v r p w b →
      Settled budget (replies ms) b p) : Leads w l origins budget (ms ++ [m]) := by
  refine ⟨?_, ?_, ?_⟩
  · rw [replies_append_none hm]
    exact h.reserved
  · rw [replies_append_none hm]
    exact h.routed
  · intro before n after v r p b hms hv hbond
    obtain ⟨rfl, rfl⟩ | ⟨rest, hrest⟩ := results_append_split hms
    · rw [replies_results]
      exact hview v r p b hv hbond
    · exact h.viewed before n rest v r p b hrest hv hbond

/-- A reply is written when nothing else of this Worker's is under way. -/
theorem Leads.appendReply {q : Nat} (h : Leads w l origins budget ms)
    (hm : m.reply? = some q)
    (hreserved : ∀ p row, l.pairRouteReservations.get p = some row → row.leaderWorkerId ≠
      w) (hrouted : ∀ r row, l.pairRoutes.get r = some row → row.leaderWorkerId ≠ w) :
    Leads w l origins budget (ms ++ [m]) := by
  refine ⟨fun p row hp hw => absurd hw (hreserved p row hp),
    fun r row p hr _ hw => absurd hw (hrouted r row hr), ?_⟩
  intro before n after v r p b hms hv hbond
  obtain ⟨rfl, rfl⟩ | ⟨rest, hrest⟩ := results_append_split hms
  · rw [eq_of_reply hm] at hv
    cases hv
  · exact h.viewed before n rest v r p b hrest hv hbond

theorem Follows.append (h : Follows w l origins budget asked ms) (hm : m.offer? = none)
    (hview : ∀ v, m.view? = some v → v.leaderWorkerId ≠ some w → offers ms = [] ∧
      ∀ r p a b, Bond origins v r p a b → Agrees budget .follower a p) :
    Follows w l origins budget asked (ms ++ [m]) := by
  refine ⟨?_, ?_, ?_, ?_, ?_⟩
  · rw [offers_append_none hm]
    exact h.reserved
  · rw [offers_append_none hm]
    exact h.decided
  · rw [offers_append_none hm]
    exact h.routed
  · intro n hn v r p a b hv hbond ha
    obtain hn | hn := List.mem_append.1 hn
    · exact h.viewed n hn v r p a b hv hbond ha
    · obtain rfl := List.mem_singleton.1 hn
      refine (hview v hv ?_).2 r p a b hbond
      rw [hbond.leader]
      exact fun he => ha (Option.some.inj he)
  · refine List.pairwise_append.2 ⟨h.behind, List.pairwise_singleton _ _,
      fun n hn k hk => ?_⟩
    obtain rfl := List.mem_singleton.1 hk
    intro hoffer v hv
    by_contra hne
    have hnil := (hview v hv hne).1
    rw [offers, List.filterMap_eq_nil_iff] at hnil
    exact hoffer (hnil n hn)

/-- An offer is written when nothing else of this Worker's is under way. -/
theorem Follows.appendOffer {q : Nat} (h : Follows w l origins budget asked ms)
    (hm : m.offer? = some q)
    (hreserved : ∀ p row, l.pairRouteReservations.get p = some row →
      row.followerWorkerId ≠ w)
    (hrouted : ∀ r row, l.pairRoutes.get r = some row → row.followerWorkerId ≠ w) :
    Follows w l origins budget asked (ms ++ [m]) := by
  have hview : ∀ v, m.view? ≠ some v := by
    intro v hv
    cases m <;> first | cases hm | cases hv
  refine ⟨fun p row hp hw => absurd hw (hreserved p row hp),
    fun p row hp hw => absurd hw (hreserved p row hp),
    fun r row p hr _ hw => absurd hw (hrouted r row hr), ?_, ?_⟩
  · intro n hn v r p a b hv hbond ha
    obtain hn | hn := List.mem_append.1 hn
    · exact h.viewed n hn v r p a b hv hbond ha
    · obtain rfl := List.mem_singleton.1 hn
      exact absurd hv (hview v)
  · refine List.pairwise_append.2 ⟨h.behind, List.pairwise_singleton _ _,
      fun n hn k hk => ?_⟩
    obtain rfl := List.mem_singleton.1 hk
    exact fun _ v hv => absurd hv (hview v)

theorem Notices.append (h : Notices w l origins asked route turn wire)
    (hest : ∀ r, ¬m.establishes w r)
    (hreply : ∀ q, m.reply? = some q → ∀ n ∈ turn ++ wire, ∀ r, n.establishes w r →
      origins.get r ≠ some q) : Notices w l origins asked route turn (wire ++ [m]) := by
  have hold : ∀ n, n ∈ turn ++ (wire ++ [m]) → ∀ r, n.establishes w r →
      n ∈ turn ++ wire := by
    intro n hn r hr
    rw [← List.append_assoc] at hn
    refine (List.mem_append.1 hn).resolve_right fun hn => ?_
    exact hest r (List.mem_singleton.1 hn ▸ hr)
  refine ⟨fun n hn r hr => h.stands n (hold n hn r hr) r hr, ?_, ?_, fun n hn r hr => ?_⟩
  · rw [← List.append_assoc]
    refine List.pairwise_append.2 ⟨h.after, List.pairwise_singleton _ _,
      fun n hn k hk => ?_⟩
    obtain rfl := List.mem_singleton.1 hk
    exact fun r p hr ho hp => hreply p hp n hn r hr ho
  · refine List.pairwise_append.2 ⟨h.first, List.pairwise_singleton _ _,
      fun n hn k hk => ?_⟩
    obtain rfl := List.mem_singleton.1 hk
    exact fun v r _ _ => hest r
  · obtain hn | hn := List.mem_append.1 hn
    · exact h.unseen n hn r hr
    · exact absurd (List.mem_singleton.1 hn ▸ hr) (hest r)

/-- The notice of a route that this Worker has not heard of. -/
theorem Notices.appendNotice {r : Nat} (h : Notices w l origins asked route turn wire)
    (hest : ∀ q, m.establishes w q → q = r) (hreply : m.reply? = none)
    (hrow : ∃ row, l.pairRoutes.get r = some row ∧ row.leaderWorkerId = w)
    (hassert : l.unpairAssertions.get (r, w) = none) (hasked : ∀ v, .assertion r v ∉ asked)
    (hroute : ∀ d, route = some d → d.routeId ≠ r)
    (hviews : ∀ n ∈ turn ++ wire, ∀ v, n.view? = some v → v.routeId ≠ some r) :
    Notices w l origins asked route turn (wire ++ [m]) := by
  refine ⟨fun n hn q hq => ?_, ?_, ?_, fun n hn q hq => ?_⟩
  · rw [← List.append_assoc] at hn
    obtain hn | hn := List.mem_append.1 hn
    · exact h.stands n hn q hq
    · obtain rfl := List.mem_singleton.1 hn
      obtain rfl := hest q hq
      exact ⟨hrow, hassert, hasked⟩
  · rw [← List.append_assoc]
    refine List.pairwise_append.2 ⟨h.after, List.pairwise_singleton _ _,
      fun n hn k hk => ?_⟩
    obtain rfl := List.mem_singleton.1 hk
    intro q p hq ho
    simp [hreply]
  · refine List.pairwise_append.2 ⟨h.first, List.pairwise_singleton _ _,
      fun n hn k hk => ?_⟩
    obtain rfl := List.mem_singleton.1 hk
    intro v q hv hid hq
    exact hviews n (List.mem_append_right _ hn) v hv (hest q hq ▸ hid)
  · obtain hn | hn := List.mem_append.1 hn
    · exact h.unseen n hn q hq
    · obtain rfl := List.mem_singleton.1 hn
      obtain rfl := hest q hq
      exact ⟨hroute, fun k hk => hviews k (List.mem_append_left _ hk)⟩

theorem Mail.append (h : Mail w os origins frozen ms)
    (hview : ∀ v, m.view? = some v →
      ∃ r p a b, Bond origins v r p a b ∧ ⟨p, a, b⟩ ∈ os ∧ (a = w ∨ b = w))
    (hreply : m.reply? = none) (hoffer : m.offer? = none) :
    Mail w os origins frozen (ms ++ [m]) where
  viewed n hn := by
    obtain hn | hn := List.mem_append.1 hn
    · exact h.viewed n hn
    · obtain rfl := List.mem_singleton.1 hn
      exact hview
  replied := by
    rw [replies_append_none hreply]
    exact h.replied
  offered n hn p hp := by
    obtain hn | hn := List.mem_append.1 hn
    · exact h.offered n hn p hp
    · rw [List.mem_singleton.1 hn, hoffer] at hp
      cases hp
  fresh := by
    rw [replies_append_none hreply, offers_append_none hoffer]
    exact h.fresh

end Append

namespace Pairing

variable {s : Pairing}

theorem Bound.send (h : Bound s) {m : Control}
    (hm : s.live = true → Bound { s with wire := s.wire ++ [m] }) :
    Bound (s.send [m]) := by
  unfold Pairing.send
  split
  · next hlive => exact hm hlive
  · exact h

/-- A message without a proposal, and with the view of a route that stands if with any. -/
theorem Bound.tell (h : Bound s) {m : Control} (hreply : m.reply? = none)
    (hoffer : m.offer? = none) (hest : ∀ r, ¬m.establishes s.workerId r)
    (hview : ∀ v, m.view? = some v → s.Shows (some v)) : Bound (s.send [m]) := by
  refine h.send fun hlive => ?_
  have hnew : ({ s with wire := s.wire ++ [m] } : Pairing).flight = s.flight ++ [m] :=
    (List.append_assoc ..).symm
  have hbond : ∀ v, m.view? = some v → ∃ r p row, Bond s.origins v r p row.leaderWorkerId
      row.followerWorkerId ∧ s.ledger.pairRoutes.get r = some row ∧
      row.has s.workerId = true ∧
      ⟨p, row.leaderWorkerId, row.followerWorkerId⟩ ∈ s.proposals := by
    intro v hv
    obtain ⟨r, row, hrow, hw, hid, hl, hf⟩ := hview v hv
    obtain ⟨p, ho, hos⟩ := h.history.routed r row hrow
    exact ⟨r, p, row, ⟨hid, hl, hf, ho⟩, hrow, hw, hos⟩
  refine ⟨h.history, ?_, h.files, ?_, ?_, ?_, h.asked, ?_, ?_⟩
  · rw [hnew]
    refine h.mail.append (fun v hv => ?_) hreply hoffer
    obtain ⟨r, p, row, hb, -, hw, hos⟩ := hbond v hv
    exact ⟨r, p, _, _, hb, hos, by simpa [RouteRow.has] using hw⟩
  · rw [hnew]
    refine h.leads.append hreply fun v r p b hv hb => ?_
    obtain ⟨r', p', row, hb', hrow, -, -⟩ := hbond v hv
    obtain ⟨rfl, rfl, hl, rfl⟩ := hb'.unique hb
    exact h.leads.routed r row p hrow hb.origin hl.symm
  · rw [hnew]
    refine h.follows.append hoffer fun v hv hne => ?_
    obtain ⟨r, p, row, hb, hrow, hw, -⟩ := hbond v hv
    have hfollower : row.followerWorkerId = s.workerId := by
      have hw : row.leaderWorkerId = s.workerId ∨ row.followerWorkerId = s.workerId := by
        simpa [RouteRow.has] using hw
      refine hw.resolve_left fun he => hne ?_
      rw [hb.leader, he]
    obtain ⟨hnil, hagrees⟩ := h.follows.routed r row p hrow hb.origin hfollower
    refine ⟨hnil, fun r' p' a b hb' => ?_⟩
    obtain ⟨rfl, rfl, rfl, rfl⟩ := hb.unique hb'
    exact hagrees
  · exact h.notices.append hest fun q hq => by simp [hreply] at hq
  · intro hl hwaiting
    rw [hnew, replies_append_none hreply] at hwaiting
    exact h.prepared hl hwaiting
  · intro hdown
    exact absurd (hlive.symm.trans hdown) (by decide)

end Pairing

end PairCell
