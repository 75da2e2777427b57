import PairCell.Ledger.Changes
import PairCell.Runtime.Files

/-!
# A frozen budget and its pairing

A Worker that adopts a route on its own looks for a record with the right role
and counterparty.  That record is the route's as long as no reply to a proposal
is lost while an earlier record for the same follower is held.  The invariant
follows the messages: as long as the reply that freezes the record of a pairing
is on its way, nothing that adopts the route of this pairing comes before it.
-/

namespace PairCell

open Lib

/-! ## Messages in the order in which they are handled -/

/-- Replies first. -/
def sorted (ms : List Control) : List Control :=
  ms.filter Runtime.isResult ++ ms.filter fun m => !Runtime.isResult m

theorem mem_sorted {m : Control} {ms : List Control} : m ∈ sorted ms ↔ m ∈ ms := by
  cases h : Runtime.isResult m <;> simp [sorted, h]

theorem eq_of_reply {m : Control} {p : Nat} (h : m.reply? = some p) :
    m = .pairingProposalResult true (some p) := by
  unfold Control.reply? at h
  split at h
  · rw [Option.some.inj h]
  · cases h

theorem isResult_of_reply {m : Control} {p : Nat} (h : m.reply? = some p) :
    Runtime.isResult m = true := by
  rw [eq_of_reply h]
  rfl

theorem isResult_of_offer {m : Control} {p : Nat} (h : m.offer? = some p) :
    Runtime.isResult m = false := by
  cases m <;> first | rfl | cases h

theorem replies_append (ms ns : List Control) :
    replies (ms ++ ns) = replies ms ++ replies ns :=
  List.filterMap_append

theorem offers_append (ms ns : List Control) :
    offers (ms ++ ns) = offers ms ++ offers ns :=
  List.filterMap_append

theorem replies_results (ms : List Control) :
    replies (ms.filter Runtime.isResult) = replies ms := by
  rw [replies, replies, List.filterMap_filter]
  refine List.filterMap_congr fun m _ => ?_
  cases h : m.reply? with
  | none => simp
  | some p => simp [isResult_of_reply h]

theorem offers_pushes (ms : List Control) :
    offers (ms.filter fun m => !Runtime.isResult m) = offers ms := by
  rw [offers, offers, List.filterMap_filter]
  refine List.filterMap_congr fun m _ => ?_
  cases h : m.offer? with
  | none => simp
  | some p => simp [isResult_of_offer h]

theorem replies_pushes (ms : List Control) :
    replies (ms.filter fun m => !Runtime.isResult m) = [] := by
  rw [replies, List.filterMap_eq_nil_iff]
  intro m hm
  cases h : m.reply? with
  | none => rfl
  | some p =>
      have := (List.mem_filter.1 hm).2
      simp [isResult_of_reply h] at this

theorem offers_results (ms : List Control) : offers (ms.filter Runtime.isResult) = [] := by
  rw [offers, List.filterMap_eq_nil_iff]
  intro m hm
  cases h : m.offer? with
  | none => rfl
  | some p =>
      have := (List.mem_filter.1 hm).2
      simp [isResult_of_offer h] at this

theorem replies_sorted (ms : List Control) : replies (sorted ms) = replies ms := by
  rw [sorted, replies_append, replies_results, replies_pushes, List.append_nil]

theorem offers_sorted (ms : List Control) : offers (sorted ms) = offers ms := by
  rw [sorted, offers_append, offers_results, offers_pushes, List.nil_append]

theorem results_sorted (ms : List Control) :
    (sorted ms).filter Runtime.isResult = ms.filter Runtime.isResult := by
  simp [sorted, List.filter_filter]

/-- Sorting keeps an order that a reply and a later notification always have. -/
theorem pairwise_sorted {R : Control → Control → Prop} {ms : List Control}
    (h : ms.Pairwise R) (hR : ∀ m n, Runtime.isResult m = true →
      Runtime.isResult n = false → R m n) :
    (sorted ms).Pairwise R := by
  refine List.pairwise_append.2 ⟨h.sublist List.filter_sublist,
    h.sublist List.filter_sublist, ?_⟩
  intro m hm n hn
  have hn := (List.mem_filter.1 hn).2
  exact hR m n (List.mem_filter.1 hm).2 (by simpa using hn)

/-! ## The invariant -/

/-- A record for this role and counterparty is that of the proposal `p`. -/
def Agrees (budget : Option FrozenBudget) (role : Role) (peer p : Nat) : Prop :=
  ∀ b, budget = some b → b.role = role → b.counterpartyWorkerId = peer → b.proposalId = p

/-- The reply for `p` is the last on its way, or it is handled and the record agrees. -/
def Settled (budget : Option FrozenBudget) (awaited : List Nat) (peer p : Nat) : Prop :=
  awaited.getLast? = some p ∨ awaited = [] ∧ Agrees budget .leader peer p

/-- The view is of the route `r`, which the proposal `p` became. -/
structure Bond (origins : Table Nat Nat) (v : RouteView) (r p a b : Nat) : Prop where
  routeId : v.routeId = some r
  leader : v.leaderWorkerId = some a
  follower : v.followerWorkerId = some b
  origin : origins.get r = some p

structure Recorded (l : ControlLedger) (os : List Offer)
    (origins : Table Nat Nat) : Prop where
  ids : (os.map Offer.proposalId).Nodup
  reserved : ∀ p row, l.pairRouteReservations.get p = some row →
    ⟨p, row.leaderWorkerId, row.followerWorkerId⟩ ∈ os
  routed : ∀ r row, l.pairRoutes.get r = some row → ∃ p, origins.get r = some p ∧
    ⟨p, row.leaderWorkerId, row.followerWorkerId⟩ ∈ os
  issued : ∀ r p, origins.get r = some p → r ∈ l.pairRouteIdentifiers

structure Mail (w : Nat) (os : List Offer) (origins : Table Nat Nat)
    (frozen : List FrozenBudget) (ms : List Control) : Prop where
  viewed : ∀ m ∈ ms, ∀ v, m.view? = some v →
    ∃ r p a b, Bond origins v r p a b ∧ ⟨p, a, b⟩ ∈ os ∧ (a = w ∨ b = w)
  replied : ∀ p ∈ replies ms, ∃ b, ⟨p, w, b⟩ ∈ os
  offered : ∀ m ∈ ms, ∀ p, m.offer? = some p →
    ∃ a, m = .pairingProposed (some p) (some a) ∧ ⟨p, a, w⟩ ∈ os
  fresh : (replies ms ++ offers ms ++ frozen.map FrozenBudget.proposalId).Nodup

structure Files (os : List Offer) (origins : Table Nat Nat) (frozen : List FrozenBudget)
    (budget : Option FrozenBudget) (route : Option DurableRoute) : Prop where
  known : ∀ b ∈ frozen, ∃ o ∈ os, o.proposalId = b.proposalId
  kept : ∀ b, budget = some b → b ∈ frozen
  own : ∀ d, route = some d → ∃ p, ∃ b ∈ frozen, origins.get d.routeId = some p ∧
    b.proposalId = p ∧ b.balance = d.balance

/-- What holds of the pairings that this Worker leads. -/
structure Leads (w : Nat) (l : ControlLedger) (origins : Table Nat Nat)
    (budget : Option FrozenBudget) (ms : List Control) : Prop where
  reserved : ∀ p row, l.pairRouteReservations.get p = some row → row.leaderWorkerId = w →
    Settled budget (replies ms) row.followerWorkerId p
  routed : ∀ r row p, l.pairRoutes.get r = some row → origins.get r = some p →
    row.leaderWorkerId = w → Settled budget (replies ms) row.followerWorkerId p
  viewed : ∀ before m after v r p b, ms.filter Runtime.isResult = before ++ m :: after →
    m.view? = some v → Bond origins v r p w b → Settled budget (replies before) b p

/-- What holds of the pairings that this Worker follows. -/
structure Follows (w : Nat) (l : ControlLedger) (origins : Table Nat Nat)
    (budget : Option FrozenBudget) (asked : List Request) (ms : List Control) : Prop where
  reserved : ∀ p row, l.pairRouteReservations.get p = some row → row.followerWorkerId = w →
    (offers ms).getLast? = some p ∨ offers ms = []
  decided : ∀ p row, l.pairRouteReservations.get p = some row → row.followerWorkerId = w →
    .decide p true ∈ asked → offers ms = [] ∧ Agrees budget .follower row.leaderWorkerId p
  routed : ∀ r row p, l.pairRoutes.get r = some row → origins.get r = some p →
    row.followerWorkerId = w → offers ms = [] ∧
    Agrees budget .follower row.leaderWorkerId p
  viewed : ∀ m ∈ ms, ∀ v r p a b, m.view? = some v → Bond origins v r p a b → a ≠ w →
    Agrees budget .follower a p
  behind : ms.Pairwise fun m n => m.offer? ≠ none →
    ∀ v, n.view? = some v → v.leaderWorkerId = some w

/-- The notice that the route `r`, which `w` leads, is established. -/
def Control.establishes (w r : Nat) : Control → Prop
  | .routeEstablished (some v) _ => v.leaderWorkerId = some w ∧ v.routeId = some r
  | _ => False

/-- A route is not given up before its leader has taken the notice of it. -/
structure Notices (w : Nat) (l : ControlLedger) (origins : Table Nat Nat)
    (asked : List Request) (route : Option DurableRoute)
    (turn wire : List Control) : Prop where
  stands : ∀ m ∈ turn ++ wire, ∀ r, m.establishes w r →
    (∃ row, l.pairRoutes.get r = some row ∧ row.leaderWorkerId = w) ∧
      l.unpairAssertions.get (r, w) = none ∧ ∀ v, Request.assertion r v ∉ asked
  after : (turn ++ wire).Pairwise fun m n => ∀ r p, m.establishes w r →
      origins.get r = some p →
    n.reply? ≠ some p
  first : wire.Pairwise fun m n => ∀ v r, m.view? = some v → v.routeId = some r →
    ¬n.establishes w r
  unseen : ∀ m ∈ wire, ∀ r, m.establishes w r → (∀ d, route = some d → d.routeId ≠ r) ∧
    ∀ n ∈ turn, ∀ v, n.view? = some v → v.routeId ≠ some r

/-- The requests on their way and the assertions made are about what the
controller has made. -/
structure Asked (w : Nat) (l : ControlLedger) (os : List Offer)
    (asked : List Request) : Prop where
  decides : ∀ p, .decide p true ∈ asked → ∃ o ∈ os, o.proposalId = p
  asserts : ∀ r v, .assertion r v ∈ asked → r ∈ l.pairRouteIdentifiers
  asserted : ∀ r, l.unpairAssertions.get (r, w) ≠ none → r ∈ l.pairRouteIdentifiers

namespace Pairing

/-- A proposal or its accepted reply is on its way: who leads knows what to freeze. -/
def Prepared (s : Pairing) : Prop :=
  s.live = true → replies s.flight ≠ [] ∨ (∃ f, Request.propose f ∈ s.asked) →
    ∀ b, s.runtime.budget = some b → b.role = .leader →
      s.runtime.pendingBudget.isSome = true

structure Bound (s : Pairing) : Prop where
  history : Recorded s.ledger s.proposals s.origins
  mail : Mail s.workerId s.proposals s.origins s.frozen s.flight
  files : Files s.proposals s.origins s.frozen s.runtime.budget s.runtime.route
  leads : Leads s.workerId s.ledger s.origins s.runtime.budget s.flight
  follows : Follows s.workerId s.ledger s.origins s.runtime.budget s.asked s.flight
  notices : Notices s.workerId s.ledger s.origins s.asked s.runtime.route s.turn s.wire
  asked : Asked s.workerId s.ledger s.proposals s.asked
  prepared : s.Prepared
  down : s.live = false → s.flight = []

end Pairing

/-! ## The parts under a change of the record -/

section Record

variable {budget budget' : Option FrozenBudget} {w : Nat} {l : ControlLedger}
  {origins : Table Nat Nat} {asked : List Request} {m : Control} {ms : List Control}

theorem Bond.unique {v : RouteView} {r p a b r' p' a' b' : Nat}
    (h : Bond origins v r p a b) (h' : Bond origins v r' p' a' b') : r' = r ∧ p' = p ∧
    a' = a ∧ b' = b := by
  have hr := Option.some.inj (h'.routeId.symm.trans h.routeId)
  have hp := h'.origin
  rw [hr] at hp
  exact ⟨hr, Option.some.inj (hp.symm.trans h.origin),
    Option.some.inj (h'.leader.symm.trans h.leader),
    Option.some.inj (h'.follower.symm.trans h.follower)⟩

theorem Settled.mono {awaited : List Nat} {peer p : Nat}
    (h : Settled budget awaited peer p)
    (hb : Agrees budget .leader peer p → Agrees budget' .leader peer p) :
    Settled budget' awaited peer p :=
  h.imp_right fun ⟨hnil, ha⟩ => ⟨hnil, hb ha⟩

/-- Once the first reply awaited is handled or lost, the record must agree
when it was the last. -/
theorem Settled.tail {q : Nat} {awaited : List Nat} {peer p : Nat}
    (h : Settled budget (q :: awaited) peer p)
    (hq : q = p → Agrees budget' .leader peer p) :
    Settled budget' awaited peer p := by
  obtain h | ⟨hnil, -⟩ := h
  · cases awaited with
    | nil => exact .inr ⟨rfl, hq (by simpa using h)⟩
    | cons a rest => exact .inl (by simpa using h)
  · cases hnil

theorem agrees_none (role : Role) (peer p : Nat) : Agrees none role peer p := by
  intro b hb
  cases hb

theorem Leads.mono (h : Leads w l origins budget ms)
    (hb : ∀ peer p, Agrees budget .leader peer p → Agrees budget' .leader peer p) :
    Leads w l origins budget' ms where
  reserved p row hp hw := (h.reserved p row hp hw).mono (hb _ _)
  routed r row p hr ho hw := (h.routed r row p hr ho hw).mono (hb _ _)
  viewed before n after v r p b hms hv hbond :=
    (h.viewed before n after v r p b hms hv hbond).mono (hb _ _)

theorem Follows.mono (h : Follows w l origins budget asked ms)
    (hb : ∀ peer p, Agrees budget .follower peer p → Agrees budget' .follower peer p) :
    Follows w l origins budget' asked ms where
  reserved := h.reserved
  decided p row hp hw hd := (h.decided p row hp hw hd).imp_right (hb _ _)
  routed r row p hr ho hw := (h.routed r row p hr ho hw).imp_right (hb _ _)
  viewed m hm v r p a b hv hbond ha := hb _ _ (h.viewed m hm v r p a b hv hbond ha)
  behind := h.behind

/-- A message that is no reply leaves the front. -/
theorem Leads.pop (h : Leads w l origins budget (m :: ms)) (hm : m.reply? = none) :
    Leads w l origins budget ms := by
  have hreplies : replies (m :: ms) = replies ms := List.filterMap_cons_none hm
  refine ⟨fun p row hp hw => hreplies ▸ h.reserved p row hp hw,
    fun r row p hr ho hw => hreplies ▸ h.routed r row p hr ho hw, ?_⟩
  intro before n after v r p b hms hv hbond
  by_cases hres : Runtime.isResult m = true
  · have := h.viewed (m :: before) n after v r p b (by simp [hres, hms]) hv hbond
    rwa [show replies (m :: before) =
      replies before from List.filterMap_cons_none hm] at this
  · exact h.viewed before n after v r p b (by simp [hres, hms]) hv hbond

/-- The first reply leaves the front, and the record agrees with its proposal. -/
theorem Leads.popReply {q : Nat} (h : Leads w l origins budget (m :: ms))
    (hm : m.reply? = some q)
    (hreserved : ∀ row, l.pairRouteReservations.get q = some row → row.leaderWorkerId = w →
      Agrees budget' .leader row.followerWorkerId q)
    (hrouted : ∀ r row, l.pairRoutes.get r = some row → origins.get r = some q →
      row.leaderWorkerId = w → Agrees budget' .leader row.followerWorkerId q)
    (hviewed : ∀ n ∈ ms, ∀ v r b, n.view? = some v → Bond origins v r q w b →
      Agrees budget' .leader b q) : Leads w l origins budget' ms := by
  have hreplies : ∀ ns, replies (m :: ns) = q :: replies ns :=
    fun ns => List.filterMap_cons_some hm
  refine ⟨fun p row hp hw => ?_, fun r row p hr ho hw => ?_, ?_⟩
  · have := h.reserved p row hp hw
    rw [hreplies] at this
    exact this.tail fun hq => hq ▸ hreserved row (hq ▸ hp) hw
  · have := h.routed r row p hr ho hw
    rw [hreplies] at this
    exact this.tail fun hq => hq ▸ hrouted r row hr (hq ▸ ho) hw
  · intro before n after v r p b hms hv hbond
    have := h.viewed (m :: before) n after v r p b
      (by simp [isResult_of_reply hm, hms]) hv hbond
    rw [hreplies] at this
    have hn : n ∈ ms := by
      have : n ∈ ms.filter Runtime.isResult := by simp [hms]
      exact (List.mem_filter.1 this).1
    exact this.tail fun hq => hq ▸ hviewed n hn v r b hv (hq ▸ hbond)

theorem offers_cons_none (hm : m.offer? = none) : offers (m :: ms) = offers ms :=
  List.filterMap_cons_none hm

theorem Follows.pop (h : Follows w l origins budget asked (m :: ms))
    (hm : m.offer? = none) :
    Follows w l origins budget asked ms where
  reserved p row hp hw := by
    rw [← offers_cons_none hm]
    exact h.reserved p row hp hw
  decided p row hp hw hd := by
    rw [← offers_cons_none hm]
    exact h.decided p row hp hw hd
  routed r row p hr ho hw := by
    rw [← offers_cons_none hm]
    exact h.routed r row p hr ho hw
  viewed n hn v r p a b := h.viewed n (List.mem_cons_of_mem m hn) v r p a b
  behind := (List.pairwise_cons.1 h.behind).2

/-- An offer leaves the front; who accepts it holds its record. -/
theorem Follows.popOffer {q : Nat} {more : List Request}
    (h : Follows w l origins budget asked (m :: ms)) (hm : m.offer? = some q)
    (hnodup : (offers (m :: ms)).Nodup)
    (hmore : ∀ p, .decide p true ∈ more → p = q ∧
      ∀ peer, Agrees budget' .follower peer q) :
    Follows w l origins budget' (asked ++ more) ms := by
  have hoffers : offers (m :: ms) = q :: offers ms := List.filterMap_cons_some hm
  have hne : offers (m :: ms) ≠ [] := by simp [hoffers]
  have hlast : ∀ p row, l.pairRouteReservations.get p = some row →
      row.followerWorkerId = w →
      (q :: offers ms).getLast? = some p :=
    fun p row hp hw => hoffers ▸ (h.reserved p row hp hw).resolve_right hne
  refine ⟨fun p row hp hw => ?_, fun p row hp hw hd => ?_,
    fun r row p hr ho hw => ?_, ?_, ?_⟩
  · have hl := hlast p row hp hw
    cases hrest : offers ms with
    | nil => exact .inr rfl
    | cons a rest => exact .inl (by simpa [hrest] using hl)
  · obtain hd | hd := List.mem_append.1 hd
    · exact absurd (h.decided p row hp hw hd).1 hne
    · obtain ⟨rfl, hagrees⟩ := hmore p hd
      refine ⟨?_, hagrees _⟩
      have hl := hlast p row hp hw
      rw [hoffers] at hnodup
      cases hrest : offers ms with
      | nil => rfl
      | cons a rest =>
          -- the offer is the last one as well as the first
          rw [hrest, List.getLast?_cons_cons] at hl
          exact absurd (List.mem_of_getLast? hl) (hrest ▸ (List.nodup_cons.1 hnodup).1)
  · exact absurd (h.routed r row p hr ho hw).1 hne
  · intro n hn v r p a b hv hbond ha
    have hb := (List.pairwise_cons.1 h.behind).1 n hn (by simp [hm]) v hv
    exact absurd (Option.some.inj (hbond.leader.symm.trans hb)) ha
  · exact (List.pairwise_cons.1 h.behind).2

theorem Follows.ask {more : List Request} (h : Follows w l origins budget asked ms)
    (hmore : ∀ p, .decide p true ∉ more) :
    Follows w l origins budget (asked ++ more) ms where
  reserved := h.reserved
  decided p row hp hw hd :=
    h.decided p row hp hw ((List.mem_append.1 hd).resolve_right (hmore p))
  routed := h.routed
  viewed := h.viewed
  behind := h.behind

end Record

section Post

variable {w : Nat} {os : List Offer} {origins : Table Nat Nat} {frozen : List FrozenBudget}
  {m : Control} {ms : List Control}

/-- The first message is handled; its record, when it freezes one, is logged. -/
theorem Mail.pop {r : Runtime} {x : Answers} (h : Mail w os origins frozen (m :: ms)) :
    Mail w os origins (frozen ++ (r.freezes x m).toList) ms where
  viewed n hn := h.viewed n (List.mem_cons_of_mem m hn)
  replied p hp := by
    refine h.replied p ?_
    rw [show m :: ms = [m] ++ ms from rfl, replies_append]
    exact List.mem_append_right _ hp
  offered n hn := h.offered n (List.mem_cons_of_mem m hn)
  fresh := by
    have hf := h.fresh
    have hcons :
        ∀ p, (p :: (replies ms ++ offers ms ++ frozen.map FrozenBudget.proposalId)).Nodup →
        (replies ms ++ offers ms ++
          (frozen.map FrozenBudget.proposalId ++ [p])).Nodup := by
      intro p hp
      rw [← List.append_assoc]
      exact (List.perm_append_singleton p _).nodup_iff.2 hp
    cases hfreeze : r.freezes x m with
    | none =>
        rw [Option.toList_none, List.append_nil]
        refine hf.sublist (((List.Sublist.append ?_ ?_)).append (List.Sublist.refl _))
        · exact (List.sublist_cons_self m ms).filterMap _
        · exact (List.sublist_cons_self m ms).filterMap _
    | some b =>
        rw [Option.toList_some, List.map_append, List.map_singleton]
        refine hcons _ ?_
        -- only a reply or an offer freezes, and the record is of its proposal
        unfold Runtime.freezes at hfreeze
        split at hfreeze
        · next p =>
            obtain ⟨pending, -, rfl⟩ := Option.map_eq_some_iff.1 hfreeze
            exact hf
        · next p leader =>
            obtain ⟨balance, -, rfl⟩ := Option.map_eq_some_iff.1 hfreeze
            rw [show replies (.pairingProposed (some p) leader :: ms) =
              replies ms from rfl, show offers (.pairingProposed (some p) leader :: ms) =
                p :: offers ms from rfl,
              List.append_assoc] at hf
            rw [List.append_assoc]
            exact (List.perm_middle.nodup_iff).1 hf
        · cases hfreeze

theorem Notices.pop {l : ControlLedger} {asked more : List Request}
    {route route' : Option DurableRoute} {turn wire : List Control}
    (h : Notices w l origins asked route (m :: turn) wire)
    (hmore : ∀ r v, .assertion r v ∉ more)
    (hroute : ∀ d, route' = some d → route = some d ∨ ∃ v, m.view? = some v ∧
      v.routeId = some d.routeId) :
    Notices w l origins (asked ++ more) route' turn wire where
  stands n hn r hr := by
    obtain ⟨hrow, hassert, hasked⟩ := h.stands n (List.mem_cons_of_mem m hn) r hr
    refine ⟨hrow, hassert, fun v hv => ?_⟩
    exact (List.mem_append.1 hv).elim (hasked v) (hmore r v)
  after := (List.pairwise_cons.1 h.after).2
  first := h.first
  unseen n hn r hr := by
    obtain ⟨hold, hturn⟩ := h.unseen n hn r hr
    refine ⟨fun d hd => ?_, fun k hk => hturn k (List.mem_cons_of_mem m hk)⟩
    obtain hd | ⟨v, hv, hid⟩ := hroute d hd
    · exact hold d hd
    · rintro rfl
      exact hturn m (List.mem_cons_self ..) v hv hid

end Post

namespace Runtime

theorem asks_decides {r : Runtime} {x : Answers} {m : Control} {p : Nat}
    (h : Request.decide p true ∈ r.asks x m) :
    m.offer? = some p ∧ ∃ b, r.freezes x m = some b ∧ b.proposalId = p := by
  have hpropose : ∀ f, Request.decide p true ∉ r.proposeAsks x f := by
    intro f hf
    unfold proposeAsks at hf
    split at hf <;> simp at hf
  unfold asks at h
  split at h
  · split at h
    · cases h
    · unfold selectionAsks at h
      repeat' split at h
      · cases h
      · exact absurd h (hpropose _)
      · cases h
  · split at h
    · exact absurd h (hpropose _)
    · cases h
  · next q leader =>
      split at h
      · simp only [List.mem_singleton, Request.decide.injEq] at h
        obtain ⟨rfl, haccepts⟩ := h
        obtain ⟨balance, hb⟩ := Option.isSome_iff_exists.1 haccepts.symm
        exact ⟨rfl, ⟨p, .follower, leader.getD 0, balance⟩, by simp [freezes, hb], rfl⟩
      · cases h
  · cases h

theorem asks_assertion (r : Runtime) (x : Answers) (m : Control) (i : Nat) (v : Int) :
    Request.assertion i v ∉ r.asks x m := by
  have hpropose : ∀ f, Request.assertion i v ∉ r.proposeAsks x f := by
    intro f hf
    unfold proposeAsks at hf
    split at hf <;> simp at hf
  intro h
  unfold asks at h
  split at h
  · split at h
    · cases h
    · unfold selectionAsks at h
      repeat' split at h
      · cases h
      · exact hpropose _ h
      · cases h
  · split at h
    · exact hpropose _ h
    · cases h
  · split at h <;> simp at h
  · cases h

/-- The balance found for a route is that of its durable copy, or of a
record that is bound. -/
theorem frozenBalanceFor_cases {r : Runtime} {routeId : Nat} {role : Role} {peer : Nat}
    {proposal : Option Nat} {balance : Rat}
    (h : r.frozenBalanceFor routeId role peer proposal = some balance) :
    (∃ d, r.route = some d ∧ d.routeId = routeId ∧ d.balance = balance) ∨
      ∃ b, r.budget = some b ∧ b.role = role ∧ b.counterpartyWorkerId = peer ∧
        b.balance = balance := by
  unfold frozenBalanceFor at h
  split at h
  · next d hd =>
      obtain ⟨hd, hid⟩ := Option.filter_eq_some_iff.1 hd
      exact .inl ⟨d, hd, by simpa using hid, Option.some.inj h⟩
  · obtain ⟨b, hb, rfl⟩ := Option.map_eq_some_iff.1 h
    obtain ⟨hb, hbound⟩ := Option.filter_eq_some_iff.1 hb
    simp only [FrozenBudget.boundTo, Bool.and_eq_true, decide_eq_true_eq] at hbound
    exact .inr ⟨b, hb, hbound.1.1, hbound.1.2, rfl⟩

end Runtime

namespace Pairing

variable {s : Pairing}

theorem Bound.parties (h : Bound s) {p a b a' b' : Nat} (hp : ⟨p, a, b⟩ ∈ s.proposals)
    (hp' : ⟨p, a', b'⟩ ∈ s.proposals) : a' = a ∧ b' = b := by
  have := List.inj_on_of_nodup_map h.history.ids hp' hp rfl
  cases this
  exact ⟨rfl, rfl⟩

/-- When a view is handled, a record for its role and counterparty is that of its
proposal. -/
theorem Bound.view_agrees (h : Bound s) {m : Control} {rest : List Control}
    (hturn : s.turn = m :: rest) {v : RouteView} (hv : m.view? = some v) {r p a b : Nat}
    (hbond : Bond s.origins v r p a b) (hos : ⟨p, a, b⟩ ∈ s.proposals) :
    if a = s.workerId then Agrees s.runtime.budget .leader b p
    else Agrees s.runtime.budget .follower a p := by
  have hflight : s.flight = m :: (rest ++ s.wire) := by simp [flight, hturn]
  have hm : m ∈ s.flight := by simp [hflight]
  split
  · next ha =>
      subst ha
      by_cases hres : Runtime.isResult m = true
      · have hs := h.leads.viewed [] m _ v r p b
          (by rw [hflight, List.filter_cons_of_pos hres]; rfl) hv hbond
        obtain hs | ⟨-, hs⟩ := hs
        · simp [replies] at hs
        · exact hs
      · -- a notice: its route stands, so the reply of its proposal could only be behind it
        obtain ⟨acceptance, rfl⟩ :
            ∃ acceptance, m = .routeEstablished (some v) acceptance := by
          cases m with
          | routeEstablished route acceptance =>
              cases route with
              | none => cases hv
              | some u =>
                  cases hv
                  exact ⟨acceptance, rfl⟩
          | _ => first | exact absurd rfl hres | cases hv
        have hest :
            (Control.routeEstablished (some v) acceptance).establishes s.workerId r :=
          ⟨hbond.leader, hbond.routeId⟩
        obtain ⟨⟨row, hrow, hw⟩, -, -⟩ := h.notices.stands _ hm r hest
        obtain ⟨q, ho, hq⟩ := h.history.routed r row hrow
        obtain rfl : p = q := Option.some.inj (hbond.origin.symm.trans ho)
        obtain ⟨-, hb⟩ := h.parties hos hq
        have hs := h.leads.routed r row p hrow ho hw
        obtain hs | ⟨-, hs⟩ := hs
        · have hafter := h.notices.after
          rw [hturn, List.cons_append] at hafter
          have hp : p ∈ replies (rest ++ s.wire) := by
            have := List.mem_of_getLast? hs
            rwa [hflight] at this
          obtain ⟨n, hn, hnp⟩ := List.mem_filterMap.1 hp
          exact absurd hnp ((List.pairwise_cons.1 hafter).1 n hn r p hest ho)
        · exact hb ▸ hs
  · next ha => exact h.follows.viewed m hm v r p a b hv hbond ha

/-- A route that is adopted has the balance frozen for its proposal. -/
theorem Bound.adopted (h : Bound s) {m : Control} {rest : List Control}
    (hturn : s.turn = m :: rest) {v : RouteView} (hv : m.view? = some v) {d : DurableRoute}
    (hd : Runtime.Adopts s.runtime v d) : ∃ p, ∃ b ∈ s.frozen,
      s.origins.get d.routeId = some p ∧ b.proposalId = p ∧ b.balance = d.balance := by
  have hm : m ∈ s.flight := by simp [flight, hturn]
  obtain ⟨r, p, a, b, hbond, hos, -⟩ := h.mail.viewed m hm v hv
  obtain rfl : d.routeId = r := Option.some.inj (hd.routeId.symm.trans hbond.routeId)
  obtain rfl : d.leaderWorkerId = a := Option.some.inj (hd.leader.symm.trans hbond.leader)
  obtain rfl : d.followerWorkerId = b :=
    Option.some.inj (hd.follower.symm.trans hbond.follower)
  obtain ⟨proposal, hbalance⟩ := hd.balance
  obtain ⟨d', hd', hid, hb⟩ | ⟨budget, hbudget, hrole, hpeer, hb⟩ :=
    Runtime.frozenBalanceFor_cases hbalance
  · obtain ⟨q, c, hc, ho, hq, hcb⟩ := h.files.own d' hd'
    exact ⟨q, c, hc, hid ▸ ho, hq, hcb.trans hb⟩
  · refine ⟨p, budget, h.files.kept budget hbudget, hbond.origin, ?_, hb⟩
    have hagrees := h.view_agrees hturn hv hbond hos
    split at hagrees
    · next ha =>
        have hl : d.role = .leader := hd.role.trans (if_pos ha.symm)
        exact hagrees budget hbudget (hrole.trans hl) (by rw [hpeer, if_pos hl])
    · next ha =>
        have hf : d.role = .follower := hd.role.trans (if_neg fun e => ha e.symm)
        exact hagrees budget hbudget (hrole.trans hf)
          (by rw [hpeer, if_neg (by rw [hf]; decide)])

/-- After a handler the durable route has the balance frozen for its proposal. -/
theorem Bound.own_handled (h : Bound s) {m : Control} {rest : List Control}
    (hturn : s.turn = m :: rest) (x : Answers) {d : DurableRoute}
    (hd : (s.runtime.control x m).route = some d) : ∃ p, ∃ b ∈ s.frozen,
      s.origins.get d.routeId = some p ∧ b.proposalId = p ∧ b.balance = d.balance := by
  obtain hsame | hnone | ⟨v, d', hv, hadopts, hroute⟩ :=
    (Runtime.handles_control s.runtime x m).route
  · exact h.files.own d (hsame ▸ hd)
  · rw [hnone] at hd
    cases hd
  · obtain rfl : d' = d := Option.some.inj (hroute.symm.trans hd)
    exact h.adopted hturn hv hadopts

theorem Bound.files_handled (h : Bound s) {m : Control} {rest : List Control}
    (hturn : s.turn = m :: rest) (x : Answers) :
    Files s.proposals s.origins (s.frozen ++ (s.runtime.freezes x m).toList)
      (s.runtime.control x m).budget (s.runtime.control x m).route := by
  have hm : m ∈ s.flight := by simp [flight, hturn]
  have hknown : ∀ b, s.runtime.freezes x m = some b →
      ∃ o ∈ s.proposals, o.proposalId = b.proposalId := by
    intro b hb
    unfold Runtime.freezes at hb
    split at hb
    · next p =>
        obtain ⟨pending, -, rfl⟩ := Option.map_eq_some_iff.1 hb
        obtain ⟨f, hf⟩ := h.mail.replied p (List.mem_filterMap.2 ⟨_, hm, rfl⟩)
        exact ⟨_, hf, rfl⟩
    · next p leader =>
        obtain ⟨balance, -, rfl⟩ := Option.map_eq_some_iff.1 hb
        obtain ⟨a, -, ha⟩ := h.mail.offered _ hm p rfl
        exact ⟨_, ha, rfl⟩
    · cases hb
  refine ⟨fun b hb => ?_, fun b hb => ?_, fun d hd => ?_⟩
  · obtain hb | hb := List.mem_append.1 hb
    · exact h.files.known b hb
    · exact hknown b (by simpa using hb)
  · obtain ⟨hf, hk | hd⟩ | ⟨c, hf, -, hc, -⟩ :=
      (Runtime.handles_control s.runtime x m).budget
    · exact List.mem_append_left _ (h.files.kept b (hk.budget ▸ hb))
    · rw [hd.budget] at hb
      cases hb
    · obtain rfl : c = b := Option.some.inj (hc.symm.trans hb)
      simp [hf]
  · obtain ⟨p, b, hb, rest⟩ := h.own_handled hturn x hd
    exact ⟨p, b, List.mem_append_left _ hb, rest⟩

theorem Bound.leads_handled (h : Bound s) {m : Control} {rest : List Control}
    (hlive : s.live = true) (hturn : s.turn = m :: rest) (x : Answers) :
    Leads s.workerId s.ledger s.origins (s.runtime.control x m).budget
      (rest ++ s.wire) := by
  have hflight : s.flight = m :: (rest ++ s.wire) := by simp [flight, hturn]
  have hleads := h.leads
  rw [hflight] at hleads
  cases hm : m.reply? with
  | none =>
      refine (hleads.pop hm).mono fun peer p ha => ?_
      obtain ⟨-, hk | hd⟩ | ⟨c, hf, -, hc, -⟩ :=
        (Runtime.handles_control s.runtime x m).budget
      · rwa [hk.budget]
      · rw [hd.budget]
        exact agrees_none _ _ _
      · -- a record frozen without a reply is a follower's
        intro b hb hrole
        obtain rfl : c = b := Option.some.inj (hc.symm.trans hb)
        unfold Runtime.freezes at hf
        split at hf
        · cases hm
        · obtain ⟨balance, -, rfl⟩ := Option.map_eq_some_iff.1 hf
          cases hrole
        · cases hf
  | some q =>
      have hagrees : ∀ peer, Agrees (s.runtime.control x m).budget .leader peer q := by
        intro peer b hb hrole _
        obtain ⟨hf, hk | hd⟩ | ⟨c, hf, -, hc, -⟩ :=
          (Runtime.handles_control s.runtime x m).budget
        · -- nothing was pending, so the record held is not a leader's
          have hp : s.runtime.pendingBudget = none := by
            obtain rfl := eq_of_reply hm
            exact Option.map_eq_none_iff.1 hf
          have hne : replies s.flight ≠ [] := by
            rw [hflight]
            simp [replies, hm]
          have := h.prepared hlive (.inl hne) b (hk.budget ▸ hb) hrole
          simp [hp] at this
        · rw [hd.budget] at hb
          cases hb
        · obtain rfl : c = b := Option.some.inj (hc.symm.trans hb)
          unfold Runtime.freezes at hf
          split at hf
          · obtain ⟨pending, -, rfl⟩ := Option.map_eq_some_iff.1 hf
            exact Option.some.inj hm
          · cases hm
          · cases hf
      exact hleads.popReply hm (fun _ _ _ => hagrees _) (fun _ _ _ _ _ => hagrees _)
        fun _ _ _ _ _ _ _ => hagrees _

theorem Bound.follows_handled (h : Bound s) {m : Control} {rest : List Control}
    (hturn : s.turn = m :: rest) (x : Answers) :
    Follows s.workerId s.ledger s.origins (s.runtime.control x m).budget
      (s.asked ++ s.runtime.asks x m) (rest ++ s.wire) := by
  have hflight : s.flight = m :: (rest ++ s.wire) := by simp [flight, hturn]
  have hfollows := h.follows
  rw [hflight] at hfollows
  cases hm : m.offer? with
  | none =>
      refine ((hfollows.pop hm).ask fun p hp => ?_).mono fun peer p ha => ?_
      · rw [(Runtime.asks_decides hp).1] at hm
        cases hm
      · obtain ⟨-, hk | hd⟩ | ⟨c, hf, -, hc, -⟩ :=
          (Runtime.handles_control s.runtime x m).budget
        · rwa [hk.budget]
        · rw [hd.budget]
          exact agrees_none _ _ _
        · intro b hb hrole
          obtain rfl : c = b := Option.some.inj (hc.symm.trans hb)
          unfold Runtime.freezes at hf
          split at hf
          · obtain ⟨pending, -, rfl⟩ := Option.map_eq_some_iff.1 hf
            cases hrole
          · cases hm
          · cases hf
  | some q =>
      have hnodup : (offers (m :: (rest ++ s.wire))).Nodup := by
        have hf := h.mail.fresh
        rw [hflight] at hf
        exact (hf.sublist (List.sublist_append_left _ _)).sublist
          (List.sublist_append_right _ _)
      refine hfollows.popOffer hm hnodup fun p hp => ?_
      obtain ⟨hoffer, b, hb, rfl⟩ := Runtime.asks_decides hp
      obtain rfl : b.proposalId = q := Option.some.inj (hoffer.symm.trans hm)
      refine ⟨rfl, fun peer c hc _ _ => ?_⟩
      obtain ⟨hf, -⟩ | ⟨c', hf, -, hc', -⟩ :=
        (Runtime.handles_control s.runtime x m).budget
      · rw [hf] at hb
        cases hb
      · obtain rfl : c' = c := Option.some.inj (hc'.symm.trans hc)
        obtain rfl : c' = b := Option.some.inj (hf.symm.trans hb)
        rfl

theorem Bound.handle (h : Bound s) {m : Control} {rest : List Control}
    (hlive : s.live = true) (hturn : s.turn = m :: rest) (x : Answers) :
    Bound (s.handled x m rest) := by
  have hflight : s.flight = m :: (rest ++ s.wire) := by simp [flight, hturn]
  have hspec := Runtime.handles_control s.runtime x m
  have hworker : (s.runtime.control x m).workerId = s.runtime.workerId := by
    obtain ⟨-, hk | hd⟩ | ⟨c, -, hw, -⟩ := hspec.budget
    · exact hk.workerId
    · exact hd.workerId
    · exact hw
  have hsame : (s.handled x m rest).workerId = s.workerId := hworker
  refine ⟨h.history, ?_, h.files_handled hturn x, ?_, ?_, ?_, ?_, ?_, ?_⟩
  · have hmail := h.mail
    rw [hflight] at hmail
    rw [hsame]
    exact hmail.pop
  · rw [hsame]
    exact h.leads_handled hlive hturn x
  · rw [hsame]
    exact h.follows_handled hturn x
  · have hnotices := h.notices
    rw [hturn] at hnotices
    rw [hsame]
    refine hnotices.pop (Runtime.asks_assertion _ x m) fun d hd => ?_
    obtain hs | hnone | ⟨v, d', hv, hadopts, hroute⟩ := hspec.route
    · exact .inl (hs ▸ hd)
    · rw [show (s.handled x m rest).runtime.route = none from hnone] at hd
      cases hd
    · obtain rfl : d' = d := Option.some.inj (hroute.symm.trans hd)
      exact .inr ⟨v, hv, hadopts.routeId⟩
  · rw [hsame]
    refine ⟨fun p hp => ?_, fun r v hv => ?_, h.asked.asserted⟩
    · obtain hp | hp := List.mem_append.1 hp
      · exact h.asked.decides p hp
      · obtain ⟨hoffer, -⟩ := Runtime.asks_decides hp
        obtain ⟨a, -, ha⟩ := h.mail.offered m (by simp [hflight]) p hoffer
        exact ⟨_, ha, rfl⟩
    · obtain hv | hv := List.mem_append.1 hv
      · exact h.asked.asserts r v hv
      · exact absurd hv (Runtime.asks_assertion _ x m r v)
  · intro _ hwaiting b hb hrole
    change (s.runtime.control x m).budget = some b at hb
    change (s.runtime.control x m).pendingBudget.isSome = true
    obtain ⟨-, hk | hd⟩ | ⟨c, hf, -, hc, hpending⟩ := hspec.budget
    · by_cases hnew : ∃ f, Request.propose f ∈ s.runtime.asks x m
      · obtain ⟨f, hf⟩ := hnew
        exact Runtime.asks_pending hf
      · refine hk.pending (h.prepared hlive ?_ b (hk.budget ▸ hb) hrole)
        obtain hw | ⟨f, hf⟩ := hwaiting
        · refine .inl fun hnil => hw ?_
          rw [hflight, show m :: (rest ++ s.wire) = [m] ++ (rest ++ s.wire) from rfl,
            replies_append] at hnil
          exact (List.append_eq_nil_iff.1 hnil).2
        · refine .inr ⟨f, (List.mem_append.1 hf).resolve_right fun hf => hnew ⟨f, hf⟩⟩
    · rw [hd.budget] at hb
      cases hb
    · rw [hpending]
      unfold Runtime.freezes at hf
      split at hf
      · obtain ⟨pending, hp, -⟩ := Option.map_eq_some_iff.1 hf
        simp [hp]
      · obtain ⟨balance, -, rfl⟩ := Option.map_eq_some_iff.1 hf
        obtain rfl := Option.some.inj (hc.symm.trans hb)
        cases hrole
      · cases hf
  · intro hdown
    exact absurd (hlive.symm.trans hdown) (by decide)

end Pairing

end PairCell
