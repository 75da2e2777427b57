import Mathlib.Data.Int.Order.Basic
import PairCell.Quotes

/-!
# One attempt for each pair of quote revisions

The quotes that a cell stores of one product go forward, and so do those that a
leader stores of its peer, whatever the relay repeats or loses.  A pair of
revisions that was left never comes back, so the last decision is enough to
remember.
-/

namespace PairCell.Quotes

open Lib

variable {Rest : Type}

/-- The quotes of one product. -/
def of (productId : String) (l : List (Quote Rest)) : List (Quote Rest) :=
  l.filter fun q => decide (q.productId = productId)

theorem mem_of {p : String} {l : List (Quote Rest)} {q : Quote Rest} :
    q ∈ of p l ↔ q ∈ l ∧ q.productId = p := by
  simp [of]

theorem of_append (p : String) (l l' : List (Quote Rest)) :
    of p (l ++ l') = of p l ++ of p l' :=
  List.filter_append ..

theorem of_cons_self {p : String} {q : Quote Rest} (h : q.productId = p)
    (l : List (Quote Rest)) :
    of p (q :: l) = q :: of p l := by
  simp [of, h]

theorem of_cons_other {p : String} {q : Quote Rest} (h : q.productId ≠ p)
    (l : List (Quote Rest)) :
    of p (q :: l) = of p l := by
  simp [of, h]

abbrev Onward (l : List (Quote Rest)) : Prop :=
  @Forward _ _ _ Int.instLinearOrder.toPreorder Quote.recoveryEpoch Quote.sequence l

abbrev Unmixed (l : List (Quote Rest)) : Prop := Unbroken Quote.recoveryEpoch l

/-- A quote that goes on from the log: a later one of its newest epoch or
one of a new epoch. -/
def Continues (log : List (Quote Rest)) (q : Quote Rest) : Prop :=
  (∃ r ∈ log.head?, r.recoveryEpoch = q.recoveryEpoch ∧ r.sequence < q.sequence) ∨
    ∀ r ∈ log, r.recoveryEpoch ≠ q.recoveryEpoch

theorem Continues.unmixed {log : List (Quote Rest)} {q : Quote Rest} (h : Continues log q)
    (hlog : Unmixed log) : Unmixed (q :: log) :=
  ⟨hlog, h.imp_left fun ⟨r, hr, hsame, _⟩ => ⟨r, hr, hsame⟩⟩

/-! ## The own quotes of a cell -/

/-- What the stored quote and the noted epochs say of all quotes stored before. -/
structure Tracked (retired : List String) (f : Feed Rest) (log : List (Quote Rest))
    (p : String) :
    Prop where
  unmixed : Unmixed (of p log)
  current : ∀ q, f.localQuotes.get p = some q → (of p log).head? = some q
  noted : ∀ q ∈ of p log, q.recoveryEpoch ∈ f.seen p ∨ q.recoveryEpoch ∈ retired
  last : ∀ q, f.localQuotes.get p = some q → (f.seen p).getLast? = some q.recoveryEpoch ∨
    ∀ r ∈ of p log, (f.seen p).getLast? ≠ some r.recoveryEpoch
  fresh : f.localQuotes.get p = none →
    (∀ q ∈ of p log, q.recoveryEpoch ∈ retired) ∧ (of p log = [] ∨ f.seen p = [])

section Feed

variable {known : String → Bool} {retired : List String} {f : Feed Rest}
    {log : List (Quote Rest)}
  {q : Quote Rest} {p : String}

theorem seen_store_self : (f.store q).seen q.productId =
    if q.recoveryEpoch ∈ f.seen q.productId then f.seen q.productId
    else f.seen q.productId ++ [q.recoveryEpoch] := by
  unfold Feed.store Feed.noteEpoch
  split
  · rfl
  · simp [Feed.seen]

theorem seen_store_other (h : q.productId ≠ p) : (f.store q).seen p = f.seen p := by
  unfold Feed.store Feed.noteEpoch
  split
  · rfl
  · simp [Feed.seen, Table.get_set_ne _ _ h.symm]

theorem get_store :
    (f.store q).localQuotes.get p =
      if p = q.productId then some q else f.localQuotes.get p := by
  have hsame : (f.store q).localQuotes = f.localQuotes.set q.productId q := by
    unfold Feed.store Feed.noteEpoch
    split <;> rfl
  rw [hsame, Table.get_set]

/-- A quote that is taken goes forward from all stored before it. -/
theorem Tracked.takes (h : Tracked retired f log q.productId)
    (htakes : f.takes known q = true) (hfresh : q.recoveryEpoch ∉ retired) :
    Continues (of q.productId log) q ∧
      (q.recoveryEpoch ∈ f.seen q.productId →
        (f.seen q.productId).getLast? = some q.recoveryEpoch ∨
        of q.productId log = []) := by
  unfold Feed.takes at htakes
  rw [Bool.and_eq_true] at htakes
  obtain ⟨-, htakes⟩ := htakes
  cases hexisting : f.localQuotes.get q.productId with
  | none =>
      obtain ⟨hretired, hempty⟩ := h.fresh hexisting
      refine ⟨.inr fun r hr heq => hfresh (heq ▸ hretired r hr), fun hseen => .inr ?_⟩
      obtain hempty | hunseen := hempty
      · exact hempty
      · rw [hunseen] at hseen
        cases hseen
  | some existing =>
      rw [hexisting] at htakes
      simp only [Bool.not_eq_true', Bool.or_eq_false_iff, decide_eq_false_iff_not,
        not_and, not_le, Feed.isPreviousEpoch, ne_eq, not_not] at htakes
      obtain ⟨hsequence, hprevious⟩ := htakes
      refine ⟨?_, fun hseen => .inl (hprevious hseen)⟩
      by_cases hsame : existing.recoveryEpoch = q.recoveryEpoch
      · exact .inl ⟨existing, h.current _ hexisting, hsame, hsequence hsame⟩
      · right
        intro r hr heq
        by_cases hseen : q.recoveryEpoch ∈ f.seen q.productId
        · have hlast := hprevious hseen
          obtain hcurrent | hother := h.last _ hexisting
          · rw [hlast] at hcurrent
            exact hsame (Option.some.inj hcurrent).symm
          · exact hother r hr (by rw [hlast, heq])
        · obtain hnoted | hretired := h.noted r hr
          · exact hseen (heq ▸ hnoted)
          · exact hfresh (heq ▸ hretired)

theorem Tracked.store (h : ∀ p, Tracked retired f log p) (htakes : f.takes known q = true)
    (hfresh : q.recoveryEpoch ∉ retired) (p : String) :
    Tracked retired (f.store q) (q :: log) p := by
  by_cases hp : q.productId = p
  · subst hp
    obtain ⟨hcontinues, hseen⟩ := (h q.productId).takes htakes hfresh
    have hmember : q.recoveryEpoch ∈ (f.store q).seen q.productId := by
      rw [seen_store_self]
      split
      · assumption
      · simp
    have hkept : ∀ e ∈ f.seen q.productId, e ∈ (f.store q).seen q.productId := by
      intro e he
      rw [seen_store_self]
      split
      · exact he
      · simp [he]
    have hget : (f.store q).localQuotes.get q.productId = some q := by simp [get_store]
    refine ⟨?_, ?_, ?_, ?_, ?_⟩
    · rw [of_cons_self rfl]
      exact hcontinues.unmixed (h q.productId).unmixed
    · intro r hr
      rw [hget] at hr
      rw [of_cons_self rfl]
      exact hr
    · intro r hr
      rw [of_cons_self rfl] at hr
      obtain rfl | hr := List.mem_cons.1 hr
      · exact .inl hmember
      · exact ((h q.productId).noted r hr).imp_left (hkept _)
    · intro r hr
      rw [hget] at hr
      cases hr
      rw [seen_store_self]
      split
      · next hknown =>
          obtain hlast | hempty := hseen hknown
          · exact .inl hlast
          · by_cases hlast : (f.seen q.productId).getLast? = some q.recoveryEpoch
            · exact .inl hlast
            · right
              intro r hr
              rw [of_cons_self rfl, hempty] at hr
              rw [List.mem_singleton.1 hr]
              exact hlast
      · exact .inl (by simp)
    · intro hnone
      rw [hget] at hnone
      cases hnone
  · have hget : (f.store q).localQuotes.get p = f.localQuotes.get p := by
      rw [get_store, if_neg fun heq => hp heq.symm]
    obtain ⟨hunmixed, hcurrent, hnoted, hlast, hnone⟩ := h p
    refine ⟨?_, ?_, ?_, ?_, ?_⟩ <;>
      simp only [of_cons_other hp, hget, seen_store_other hp] <;> assumption

theorem Tracked.batch {batch : List (Quote Rest)} (h : ∀ p, Tracked retired f log p)
    (hfresh : ∀ q ∈ batch, q.recoveryEpoch ∉ retired) (p : String) :
    Tracked retired (f.acceptBatch known batch).1
      ((f.acceptBatch known batch).2 ++ log) p := by
  induction batch generalizing f log with
  | nil => exact h p
  | cons q batch ih =>
      have hrest : ∀ r ∈ batch, r.recoveryEpoch ∉ retired := fun r hr =>
        hfresh r (List.mem_cons_of_mem _ hr)
      unfold Feed.acceptBatch Feed.acceptLocalQuote
      simp only
      split
      · next htakes =>
          have hstored := Tracked.store h htakes (hfresh q List.mem_cons_self)
          have hbatch := ih hstored hrest
          simpa using hbatch
      · exact ih h hrest

/-- A cell that was not built again keeps quotes that go forward. -/
theorem Tracked.onward {batch : List (Quote Rest)} (h : ∀ p, Tracked [] f log p)
    (hlog : ∀ p, Onward (of p log)) (p : String) :
    Onward (of p ((f.acceptBatch known batch).2 ++ log)) := by
  induction batch generalizing f log with
  | nil => exact hlog p
  | cons q batch ih =>
      unfold Feed.acceptBatch Feed.acceptLocalQuote
      simp only
      split
      · next htakes =>
          have hfresh : q.recoveryEpoch ∉ ([] : List String) := List.not_mem_nil
          have hstored : ∀ p, Onward (of p (q :: log)) := by
            intro p
            by_cases hp : q.productId = p
            · subst hp
              rw [of_cons_self rfl]
              exact ⟨hlog _, ((h q.productId).takes htakes hfresh).1⟩
            · rw [of_cons_other hp]
              exact hlog p
          have hbatch := ih (Tracked.store h htakes hfresh) hstored
          simpa using hbatch
      · exact ih h hlog

/-! ## A cell of one session -/

/-- What the stored quote and the session's epoch say of all quotes stored before. -/
structure InSession (epoch : String) (f : Feed Rest) (log : List (Quote Rest))
    (p : String) :
    Prop where
  unmixed : Unmixed (of p log)
  current : ∀ q, f.localQuotes.get p = some q → (of p log).head? = some q
  newest : ∀ r ∈ of p log, r.recoveryEpoch = epoch →
    ∃ q ∈ (of p log).head?, q.recoveryEpoch = epoch

theorem InSession.store {epoch : String} (h : ∀ p, InSession epoch f log p)
    (hepoch : q.recoveryEpoch = epoch) (p : String) :
    InSession epoch (f.store q) (q :: log) p := by
  by_cases hp : q.productId = p
  · subst hp
    have hget : (f.store q).localQuotes.get q.productId = some q := by simp [get_store]
    refine ⟨?_, ?_, ?_⟩
    · rw [of_cons_self rfl]
      refine ⟨(h q.productId).unmixed, ?_⟩
      by_cases hold : ∃ r ∈ of q.productId log, r.recoveryEpoch = epoch
      · obtain ⟨r, hr, hsame⟩ := hold
        obtain ⟨newest, hnewest, hsame⟩ := (h q.productId).newest r hr hsame
        exact .inl ⟨newest, hnewest, hsame.trans hepoch.symm⟩
      · exact .inr fun r hr hsame => hold ⟨r, hr, hsame.trans hepoch⟩
    · intro r hr
      rw [hget] at hr
      rw [of_cons_self rfl]
      exact hr
    · intro _ _ _
      rw [of_cons_self rfl]
      exact ⟨q, rfl, hepoch⟩
  · have hget : (f.store q).localQuotes.get p = f.localQuotes.get p := by
      rw [get_store, if_neg fun heq => hp heq.symm]
    obtain ⟨hunmixed, hcurrent, hnewest⟩ := h p
    refine ⟨?_, ?_, ?_⟩ <;> simp only [of_cons_other hp, hget] <;> assumption

theorem InSession.batch {epoch : String} {batch : List (Quote Rest)}
    (h : ∀ p, InSession epoch f log p) (hbatch : ∀ q ∈ batch, q.recoveryEpoch = epoch)
    (p : String) :
    InSession epoch (f.acceptBatch known batch).1
      ((f.acceptBatch known batch).2 ++ log) p := by
  induction batch generalizing f log with
  | nil => exact h p
  | cons q batch ih =>
      have hrest : ∀ r ∈ batch, r.recoveryEpoch = epoch := fun r hr =>
        hbatch r (List.mem_cons_of_mem _ hr)
      unfold Feed.acceptBatch Feed.acceptLocalQuote
      simp only
      split
      · have hmore := ih (InSession.store h (hbatch q List.mem_cons_self)) hrest
        simpa using hmore
      · exact ih h hrest

end Feed

theorem Tracked.nothing {epochs : Table String (List String)} {p : String} :
    Tracked [] (⟨.empty, epochs⟩ : Feed Rest) [] p := by
  constructor <;> simp [of, Unbroken]

theorem Tracked.restart {retired : List String} {log : List (Quote Rest)} {p : String}
    (h : Unmixed (of p log)) :
    Tracked (log.map Quote.recoveryEpoch ++ retired) ⟨.empty, .empty⟩ log p := by
  have hretired : ∀ q ∈ of p log,
      q.recoveryEpoch ∈ log.map Quote.recoveryEpoch ++ retired :=
    fun q hq => List.mem_append_left _ (List.mem_map_of_mem (mem_of.1 hq).1)
  exact ⟨h, by simp, fun q hq => .inr (hretired q hq), by simp,
    fun _ => ⟨hretired, .inr rfl⟩⟩

/-! ## The quotes of the peer -/

/-- The quotes of a product that were taken from the relay and those that are
in it, oldest first. -/
def trail (p : String) (l : Leader Rest) (pending : List (Quote Rest)) :
    List (Quote Rest) :=
  (of p l.storedPeer).reverse ++ of p pending

/-- The relay keeps the order in which the peer stored its quotes. -/
structure Line (log pending : List (Quote Rest)) (l : Leader Rest)
    (p : String) : Prop where
  sent : ∀ q ∈ trail p l pending, q ∈ of p log
  order : (trail p l pending).Pairwise (Older (of p log))
  current : l.peerQuotes.get p = (of p l.storedPeer).head?
  onward : Onward (of p l.storedPeer)

section Line

variable {known : String → Bool} {usable : Quote Rest → Bool}
    {log pending : List (Quote Rest)}
  {l : Leader Rest} {q : Quote Rest}

/-- A quote comes after all that were stored and before all that are in the relay. -/
structure Due (log pending : List (Quote Rest)) (l : Leader Rest)
    (q : Quote Rest) : Prop where
  sent : q ∈ of q.productId log
  after : ∀ a ∈ of q.productId l.storedPeer, Older (of q.productId log) a q
  before : ∀ b ∈ of q.productId pending, Older (of q.productId log) q b

theorem acceptPeerQuote_cases (known : String → Bool) (usable : Quote Rest → Bool)
    (l : Leader Rest) (q : Quote Rest) :
    l.acceptPeerQuote known usable q = l ∨
      (∀ e, l.peerQuotes.get q.productId = some e → e.recoveryEpoch = q.recoveryEpoch →
        e.sequence < q.sequence) ∧
        l.acceptPeerQuote known usable q =
          { l with peerQuotes := l.peerQuotes.set q.productId q,
                   storedPeer := q :: l.storedPeer } := by
  unfold Leader.acceptPeerQuote
  split
  · split
    · next existing hexisting =>
        split
        · exact .inl rfl
        · next hnewer =>
            refine .inr ⟨fun e he hepoch => ?_, rfl⟩
            rw [hexisting] at he
            cases he
            exact not_le.1 fun hle => hnewer ⟨hepoch, hle⟩
    · next hnone =>
        refine .inr ⟨fun e he => ?_, rfl⟩
        rw [hnone] at he
        cases he
  · exact .inl rfl

theorem Line.accept (hlog : ∀ p, Unmixed (of p log)) (h : ∀ p, Line log pending l p)
    (hdue : Due log pending l q) (p : String) :
    Line log pending (l.acceptPeerQuote known usable q) p := by
  obtain heq | ⟨hnewer, heq⟩ := acceptPeerQuote_cases known usable l q
  · rw [heq]
    exact h p
  rw [heq]
  obtain ⟨hsent, horder, hcurrent, honward⟩ := h p
  by_cases hp : q.productId = p
  · subst hp
    have htrail : trail q.productId
          { l with peerQuotes := l.peerQuotes.set q.productId q,
                   storedPeer := q :: l.storedPeer } pending =
        (of q.productId l.storedPeer).reverse ++ q :: of q.productId pending := by
      unfold trail
      rw [of_cons_self rfl, List.reverse_cons, List.append_assoc, List.singleton_append]
    refine ⟨?_, ?_, ?_, ?_⟩
    · rw [htrail]
      intro r hr
      obtain hr | hr := List.mem_append.1 hr
      · exact hsent r (List.mem_append_left _ hr)
      · obtain rfl | hr := List.mem_cons.1 hr
        · exact hdue.sent
        · exact hsent r (List.mem_append_right _ hr)
    · rw [htrail]
      obtain ⟨hstored, hpending, hcross⟩ := List.pairwise_append.1 horder
      refine List.pairwise_append.2 ⟨hstored,
        List.pairwise_cons.2 ⟨hdue.before, hpending⟩, ?_⟩
      intro a ha b hb
      obtain rfl | hb := List.mem_cons.1 hb
      · exact hdue.after a (List.mem_reverse.1 ha)
      · exact hcross a ha b hb
    · simp [of_cons_self rfl]
    · show Onward (of q.productId (q :: l.storedPeer))
      rw [of_cons_self rfl]
      refine Forward.take (hlog q.productId) honward ?_ hdue.after ?_
      · have hstored := (List.pairwise_append.1 horder).1
        exact List.pairwise_reverse.1 hstored
      · intro a ha
        exact hnewer a (hcurrent.trans ha)
  · have hstored : of p (q :: l.storedPeer) = of p l.storedPeer := of_cons_other hp _
    refine ⟨?_, ?_, ?_, ?_⟩
    · simpa only [trail, hstored] using hsent
    · simpa only [trail, hstored] using horder
    · simpa only [hstored, Table.get_set_ne _ _ (fun heq => hp heq.symm)] using hcurrent
    · simpa only [hstored] using honward

/-- Another copy of what was stored of its product is due with the others. -/
theorem Due.accept {r : Quote Rest} (h : Due log pending l q)
    (halike : r.productId = q.productId → r = q) :
    Due log pending (l.acceptPeerQuote known usable r) q := by
  obtain heq | ⟨-, heq⟩ := acceptPeerQuote_cases known usable l r
  · rw [heq]
    exact h
  rw [heq]
  refine ⟨h.sent, fun a ha => ?_, h.before⟩
  by_cases hp : r.productId = q.productId
  · rw [of_cons_self hp] at ha
    obtain rfl | ha := List.mem_cons.1 ha
    · rw [halike hp]
      exact Older.refl h.sent
    · exact h.after a ha
  · rw [of_cons_other hp] at ha
    exact h.after a ha

theorem Line.congr {l' : Leader Rest} {p : String} (h : Line log pending l p)
    (hstored : l'.storedPeer = l.storedPeer) (hquotes : l'.peerQuotes = l.peerQuotes) :
    Line log pending l' p := by
  have htrail : trail p l' pending = trail p l pending := by
    unfold trail
    rw [hstored]
  exact ⟨htrail ▸ h.sent, htrail ▸ h.order, by rw [hquotes, hstored, h.current],
    hstored ▸ h.onward⟩

@[simp] theorem acceptPeerQuote_feed (l : Leader Rest) (q : Quote Rest) :
    (l.acceptPeerQuote known usable q).feed = l.feed ∧
    (l.acceptPeerQuote known usable q).stored = l.stored := by
  obtain heq | ⟨-, heq⟩ := acceptPeerQuote_cases known usable l q <;> simp [heq]

theorem deliver_feed (known : String → Bool) (usable : Quote Rest → Bool) (l : Leader Rest)
    (envelope : List (Quote Rest)) :
    (envelope.foldl (Leader.acceptPeerQuote known usable) l).feed = l.feed ∧
      (envelope.foldl (Leader.acceptPeerQuote known usable) l).stored = l.stored := by
  induction envelope generalizing l with
  | nil => exact ⟨rfl, rfl⟩
  | cons r envelope ih =>
      obtain ⟨hfeed, hstored⟩ := ih (l.acceptPeerQuote known usable r)
      exact ⟨hfeed.trans (acceptPeerQuote_feed l r).1,
        hstored.trans (acceptPeerQuote_feed l r).2⟩

theorem trail_append (p : String) (l : Leader Rest) (pending more : List (Quote Rest)) :
    trail p l (pending ++ more) = trail p l pending ++ of p more := by
  simp [trail, of_append]

theorem Line.due {envelope : List (Quote Rest)} {rest : List (List (Quote Rest))}
    (h : ∀ p, Line log (envelope :: rest).flatten l p)
    (halike : ∀ q ∈ envelope, ∀ r ∈ envelope, r.productId = q.productId → r = q)
    (hq : q ∈ envelope) :
    Due log (envelope :: rest).flatten l q := by
  obtain ⟨hsent, horder, -, -⟩ := h q.productId
  have henvelope : q ∈ of q.productId envelope := mem_of.2 ⟨hq, rfl⟩
  have hpending : of q.productId (envelope :: rest).flatten = of q.productId envelope ++
      of q.productId rest.flatten := by
    rw [List.flatten_cons, of_append]
  have hmember : q ∈ of q.productId (envelope :: rest).flatten := by
    rw [hpending]
    exact List.mem_append_left _ henvelope
  have hlogged : q ∈ of q.productId log := hsent q (List.mem_append_right _ hmember)
  obtain ⟨-, hrelay, hcross⟩ := List.pairwise_append.1 horder
  refine ⟨hlogged, fun a ha => hcross a (List.mem_reverse.2 ha) q hmember, fun b hb => ?_⟩
  rw [hpending] at hb hrelay
  obtain hb | hb := List.mem_append.1 hb
  · obtain ⟨hb, hp⟩ := mem_of.1 hb
    rw [halike q hq b hb hp]
    exact Older.refl hlogged
  · exact (List.pairwise_append.1 hrelay).2.2 q henvelope b hb

theorem Line.mono {p : String} (h : Line log pending l p) (more : List (Quote Rest)) :
    Line (more ++ log) pending l p where
  sent := fun q hq => by
    rw [of_append]
    exact List.mem_append_right _ (h.sent q hq)
  order := h.order.imp fun hab => by
    rw [of_append]
    exact hab.mono _
  current := h.current
  onward := h.onward

theorem Line.publish {envelope : List (Quote Rest)} {p : String} (h : Line log pending l p)
    (hnewest : ∀ e ∈ envelope, (of e.productId log).head? = some e) :
    Line log (pending ++ envelope) l p := by
  have hnewest : ∀ e ∈ of p envelope, ∃ older, of p log = e :: older := by
    intro e he
    obtain ⟨hmem, rfl⟩ := mem_of.1 he
    exact List.head?_eq_some_iff.1 (hnewest e hmem)
  have holder : ∀ a ∈ of p log, ∀ e ∈ of p envelope, Older (of p log) a e := by
    intro a ha e he
    obtain ⟨older, hlog⟩ := hnewest e he
    rw [hlog] at ha ⊢
    exact Older.newest ha
  have hlogged : ∀ e ∈ of p envelope, e ∈ of p log := by
    intro e he
    obtain ⟨older, hlog⟩ := hnewest e he
    rw [hlog]
    exact List.mem_cons_self
  refine ⟨?_, ?_, h.current, h.onward⟩
  · rw [trail_append]
    intro a ha
    exact (List.mem_append.1 ha).elim (h.sent a) (hlogged a)
  · rw [trail_append]
    refine List.pairwise_append.2 ⟨h.order, ?_,
      fun a ha e he => holder a (h.sent a ha) e he⟩
    exact List.pairwise_of_forall_mem_list fun a ha e he => holder a (hlogged a ha) e he

theorem Line.drop {envelope : List (Quote Rest)} {p : String}
    (h : Line log (envelope ++ pending) l p) :
    Line log pending l p := by
  have hless : (trail p l pending).Sublist (trail p l (envelope ++ pending)) := by
    unfold trail
    rw [of_append]
    exact (List.Sublist.refl _).append (List.sublist_append_right _ _)
  exact ⟨fun q hq => h.sent q (hless.subset hq), h.order.sublist hless,
    h.current, h.onward⟩

end Line

/-! ## The decisions -/

/-- The last decision of a product is enough to tell its attempts on the current quotes. -/
structure Decided (l : Leader Rest) : Prop where
  onStored : ∀ p k, (p, k) ∈ l.attempts → ∃ a ∈ of p l.stored, ∃ b ∈ of p l.storedPeer,
      k = quoteKey a b
  remembered : ∀ p own peer, l.feed.localQuotes.get p = some own →
      l.peerQuotes.get p = some peer →
    (p, quoteKey own peer) ∈ l.attempts → l.decidedQuotes.get p = some (quoteKey own peer)
  nodup : l.attempts.Nodup

section Decided

variable {known : String → Bool} {usable : Quote Rest → Bool} {l : Leader Rest}
    {q : Quote Rest}

theorem Decided.store (h : Decided l) (honward : Onward (q :: of q.productId l.stored)) :
    Decided { l with feed := l.feed.store q, stored := q :: l.stored } := by
  refine ⟨fun p k hk => ?_, fun p own peer hown hpeer hattempt => ?_, h.nodup⟩
  · obtain ⟨a, ha, hb⟩ := h.onStored p k hk
    obtain ⟨ha, hp⟩ := mem_of.1 ha
    exact ⟨a, mem_of.2 ⟨List.mem_cons_of_mem _ ha, hp⟩, hb⟩
  · simp only [get_store] at hown
    split at hown
    · next hp =>
        -- an attempt on the new quote would be on one stored before
        cases hown
        subst hp
        obtain ⟨a, ha, b, -, hkey⟩ := h.onStored _ _ hattempt
        obtain ⟨hepoch, hsequence, -⟩ := by simpa only [quoteKey, Prod.mk.injEq] using hkey
        have hlt := honward.lt ha hepoch.symm
        omega
    · exact h.remembered p own peer hown hpeer hattempt

theorem Decided.batch {batch : List (Quote Rest)} (h : Decided l)
    (htracked : ∀ p, Tracked [] l.feed l.stored p) (hlog : ∀ p, Onward (of p l.stored)) :
    Decided { l with
      feed := (l.feed.acceptBatch known batch).1
      stored := (l.feed.acceptBatch known batch).2 ++ l.stored } := by
  induction batch generalizing l with
  | nil => exact h
  | cons q batch ih =>
      unfold Feed.acceptBatch Feed.acceptLocalQuote
      simp only
      split
      · next htakes =>
          have hfresh : q.recoveryEpoch ∉ ([] : List String) := List.not_mem_nil
          have hstored := h.store ⟨hlog _, ((htracked q.productId).takes htakes hfresh).1⟩
          have honward : ∀ p, Onward (of p (q :: l.stored)) := by
            have hone :
                ∀ p, Onward (of p ((l.feed.acceptBatch known [q]).2 ++ l.stored)) :=
              Tracked.onward htracked hlog
            simpa [Feed.acceptBatch, htakes] using hone
          have hbatch := ih hstored (Tracked.store htracked htakes hfresh) honward
          simpa using hbatch
      · exact ih h htracked hlog

theorem Decided.accept {log pending : List (Quote Rest)} (h : Decided l)
    (hline : Line log pending (l.acceptPeerQuote known usable q) q.productId) :
    Decided (l.acceptPeerQuote known usable q) := by
  obtain heq | ⟨-, heq⟩ := acceptPeerQuote_cases known usable l q
  · rw [heq]
    exact h
  rw [heq] at hline ⊢
  have honward : Onward (of q.productId (q :: l.storedPeer)) := hline.onward
  rw [of_cons_self rfl] at honward
  refine ⟨fun p k hk => ?_, fun p own peer hown hpeer hattempt => ?_, h.nodup⟩
  · obtain ⟨a, ha, b, hb, hkey⟩ := h.onStored p k hk
    obtain ⟨hb, hp⟩ := mem_of.1 hb
    exact ⟨a, ha, b, mem_of.2 ⟨List.mem_cons_of_mem _ hb, hp⟩, hkey⟩
  · simp only [Table.get_set] at hpeer
    split at hpeer
    · next hp =>
        cases hpeer
        subst hp
        obtain ⟨a, -, b, hb, hkey⟩ := h.onStored _ _ hattempt
        obtain ⟨-, -, hepoch, hsequence⟩ := by
          simpa only [quoteKey, Prod.mk.injEq] using hkey
        have hlt := honward.lt hb hepoch.symm
        omega
    · exact h.remembered p own peer hown hpeer hattempt

theorem deliver_sound (known : String → Bool) (usable : Quote Rest → Bool)
    {log pending envelope : List (Quote Rest)} (hlog : ∀ p, Unmixed (of p log))
    (hline : ∀ p, Line log pending l p) (h : Decided l)
    (hdue : ∀ q ∈ envelope, Due log pending l q)
    (halike : ∀ q ∈ envelope, ∀ r ∈ envelope, r.productId = q.productId → r = q) :
    (∀ p, Line log pending (envelope.foldl (Leader.acceptPeerQuote known usable) l) p) ∧
      Decided (envelope.foldl (Leader.acceptPeerQuote known usable) l) := by
  induction envelope generalizing l with
  | nil => exact ⟨hline, h⟩
  | cons r envelope ih =>
      have haccepted : ∀ p, Line log pending (l.acceptPeerQuote known usable r) p :=
        Line.accept hlog hline (hdue r List.mem_cons_self)
      refine ih haccepted (h.accept (haccepted r.productId)) ?_ ?_
      · intro q hq
        exact (hdue q (List.mem_cons_of_mem _ hq)).accept
          (halike q (List.mem_cons_of_mem _ hq) r List.mem_cons_self)
      · intro q hq s hs
        exact halike q (List.mem_cons_of_mem _ hq) s (List.mem_cons_of_mem _ hs)

theorem decideOn_quotes (l : Leader Rest) (productId : String) (created : Bool) :
    (l.decideOn productId created).feed = l.feed ∧
    (l.decideOn productId created).stored = l.stored ∧
      (l.decideOn productId created).storedPeer = l.storedPeer ∧
      (l.decideOn productId created).peerQuotes = l.peerQuotes := by
  unfold Leader.decideOn
  split
  · split <;> exact ⟨rfl, rfl, rfl, rfl⟩
  · exact ⟨rfl, rfl, rfl, rfl⟩

theorem Decided.decideOn {log pending : List (Quote Rest)} (h : Decided l)
    (htracked : ∀ p, Tracked [] l.feed l.stored p) (hline : ∀ p, Line log pending l p)
    (productId : String) (created : Bool) : Decided (l.decideOn productId created) := by
  unfold Leader.decideOn
  split
  · next own peer hown hpeer =>
      split
      · exact h
      · next hundecided =>
          have hnew : (productId, quoteKey own peer) ∉ l.attempts := fun hattempt =>
            hundecided (h.remembered _ _ _ hown hpeer hattempt)
          refine ⟨fun p k hk => ?_, fun p own' peer' hown' hpeer' hattempt => ?_, ?_⟩
          · have hattempt : (p, k) = (productId, quoteKey own peer) ∨
                (p, k) ∈ l.attempts := by
              cases created
              · exact .inr hk
              · exact List.mem_cons.1 hk
            obtain heq | hattempt := hattempt
            · cases heq
              have hstored := List.mem_of_mem_head? ((htracked productId).current own hown)
              have hstoredPeer :=
                List.mem_of_mem_head? ((hline productId).current.symm.trans hpeer)
              exact ⟨own, hstored, peer, hstoredPeer, rfl⟩
            · exact h.onStored p k hattempt
          · by_cases hp : p = productId
            · subst hp
              rw [hown] at hown'
              rw [hpeer] at hpeer'
              cases hown'
              cases hpeer'
              exact Table.get_set_self ..
            · have hother := h.remembered p own' peer' hown' hpeer' (by
                cases created
                · exact hattempt
                · refine (List.mem_cons.1 hattempt).resolve_left fun heq =>
                    hp (congrArg Prod.fst heq))
              simpa only [Table.get_set_ne _ _ hp] using hother
          · cases created
            · exact h.nodup
            · exact List.nodup_cons.2 ⟨hnew, h.nodup⟩
  · exact h

end Decided

/-! ## Runs -/

/-- The peer's quotes, in a session or without one. -/
def System.Published (s : System Rest) (p : String) : Prop :=
  match s.session with
  | some epoch => InSession epoch s.peer s.published p
  | none => Tracked s.retired s.peer s.published p

structure System.Sound (s : System Rest) : Prop where
  own : ∀ p, Tracked [] s.leader.feed s.leader.stored p
  onward : ∀ p, Onward (of p s.leader.stored)
  peer : ∀ p, s.Published p
  line : ∀ p, Line s.published s.relay.flatten s.leader p
  alike : ∀ envelope ∈ s.relay, ∀ q ∈ envelope, ∀ r ∈ envelope, r.productId =
      q.productId → r = q
  decided : Decided s.leader

namespace System

variable {known : String → Bool} {usable : Quote Rest → Bool} {s : System Rest}

theorem Published.unmixed {p : String} (h : s.Published p) :
    Unmixed (of p s.published) := by
  unfold Published at h
  split at h
  · exact h.unmixed
  · exact h.unmixed

theorem Published.current {p : String} (h : s.Published p) {q : Quote Rest}
    (hq : s.peer.localQuotes.get p = some q) : (of p s.published).head? = some q := by
  unfold Published at h
  split at h
  · exact h.current q hq
  · exact h.current q hq

theorem Published.batch (h : ∀ p, s.Published p) (batch : List (Quote Rest)) (p : String) :
    Published { s with
      peer := (s.peer.acceptBatch known (s.stamped batch)).1
      published := (s.peer.acceptBatch known (s.stamped batch)).2 ++ s.published } p := by
  unfold Published at h ⊢
  unfold stamped
  cases hsession : s.session with
  | none =>
      simp only [hsession] at h ⊢
      exact Tracked.batch h (fun q hq => by simpa using (List.mem_filter.1 hq).2) p
  | some epoch =>
      simp only [hsession] at h ⊢
      refine InSession.batch h (fun q hq => ?_) p
      obtain ⟨_, -, rfl⟩ := List.mem_map.1 hq
      rfl

theorem find_of (p : String) (l : List (Quote Rest)) :
    l.find? (·.productId = p) = (of p l).head? := by
  rw [of, List.head?_filter]

/-- The cell that is built again on a session takes no epoch that a product left. -/
theorem Published.restart {session : Option String} (h : ∀ p, s.Published p)
    (hsession : ¬session.any s.left = true) (p : String) :
    (s.restartPeer session).Published p := by
  have hunmixed := (h p).unmixed
  unfold Published restartPeer
  cases session with
  | none => exact Tracked.restart hunmixed
  | some epoch =>
      refine ⟨hunmixed, by simp, fun r hr hepoch => ?_⟩
      obtain ⟨hmem, hp⟩ := mem_of.1 hr
      by_contra hother
      refine hsession (List.any_eq_true.2 ⟨r, hmem, ?_⟩)
      simp only [hepoch, decide_true, Bool.true_and, decide_eq_true_eq, find_of, hp]
      intro hhead
      obtain ⟨q, hq, hsame⟩ := Option.map_eq_some_iff.1 hhead
      exact hother ⟨q, hq, hsame⟩

theorem start_sound (leaderEpochs peerEpochs : Table String (List String)) :
    (start leaderEpochs peerEpochs : System Rest).Sound where
  own := fun _ => Tracked.nothing
  onward := fun _ => trivial
  peer := fun _ => Tracked.nothing
  line := fun p => ⟨by simp [start, trail, of], by simp [start, trail, of], rfl, trivial⟩
  alike := by simp [start]
  decided := ⟨by simp [start], by simp [start], by simp [start]⟩

theorem publish_sound (h : s.Sound) {batch : List (Quote Rest)}
    (hbatch : ∀ p, Published { s with
      peer := (s.peer.acceptBatch known batch).1
      published := (s.peer.acceptBatch known batch).2 ++ s.published } p) :
    (s.publish known batch).Sound := by
  set accepted := (s.peer.acceptBatch known batch).2 with haccepted
  set peer := (s.peer.acceptBatch known batch).1 with hpeerState
  have hnewest : ∀ e ∈ accepted.reverse.filterMap fun q =>
      peer.localQuotes.get q.productId,
        (of e.productId (accepted ++ s.published)).head? = some e := by
    intro e he
    obtain ⟨q, -, hget⟩ := List.mem_filterMap.1 he
    have hhead := (hbatch q.productId).current hget
    have hp : e.productId = q.productId := (mem_of.1 (List.mem_of_mem_head? hhead)).2
    rw [hp]
    exact hhead
  have hline := fun p => (h.line p).mono accepted
  refine ⟨h.own, h.onward, hbatch, fun p => ?_, ?_, h.decided⟩
  · unfold publish
    simp only
    split
    · exact hline p
    · rw [List.flatten_append, List.flatten_singleton]
      exact (hline p).publish hnewest
  · unfold publish
    simp only
    split
    · exact h.alike
    · intro envelope henvelope q hq r hr hp
      obtain henvelope | henvelope := List.mem_append.1 henvelope
      · exact h.alike envelope henvelope q hq r hr hp
      · rw [List.mem_singleton.1 henvelope] at hq hr
        have hr := hnewest r hr
        rw [hp, hnewest q hq] at hr
        exact (Option.some.inj hr).symm

theorem deliver_step (h : s.Sound) : (s.next known usable .deliver).Sound := by
  obtain ⟨hown, honward, hpeer, hline, halike, hdecided⟩ := h
  cases hrelay : s.relay with
  | nil => simpa only [next,
      hrelay] using (⟨hown, honward, hpeer, hline, halike, hdecided⟩ : s.Sound)
  | cons envelope rest =>
      have hone := halike envelope (hrelay ▸ List.mem_cons_self)
      have hdue : ∀ q ∈ envelope, Due s.published s.relay.flatten s.leader q := by
        intro q hq
        rw [hrelay] at hline ⊢
        exact Line.due hline hone hq
      have hdelivered :=
        deliver_sound known usable (fun p => (hpeer p).unmixed) hline hdecided hdue hone
      obtain ⟨hfeed, hstored⟩ := deliver_feed known usable s.leader envelope
      simp only [next, hrelay]
      refine ⟨fun p => ?_, fun p => ?_, hpeer, ?_, ?_, hdelivered.2⟩
      · rw [hfeed, hstored]
        exact hown p
      · rw [hstored]
        exact honward p
      · simpa only [hrelay] using hdelivered.1
      · simpa only [hrelay] using halike

theorem next_sound (h : s.Sound) (step : Step Rest) :
    (s.next known usable step).Sound := by
  obtain ⟨hown, honward, hpeer, hline, halike, hdecided⟩ := id h
  cases step with
  | deliver => exact deliver_step h
  | peerQuotes batch => exact publish_sound h (Published.batch hpeer batch)
  | localQuotes batch =>
      have hnone : ∀ q ∈ batch, q.recoveryEpoch ∉ ([] : List String) :=
        fun _ _ => List.not_mem_nil
      refine ⟨Tracked.batch hown hnone, Tracked.onward hown honward, hpeer,
        fun p => ?_, halike, hdecided.batch hown honward⟩
      exact (hline p).congr rfl rfl
  | drop =>
      refine ⟨hown, honward, hpeer, fun p => ?_,
        fun envelope h => halike envelope (List.mem_of_mem_tail h), hdecided⟩
      cases hrelay : s.relay with
      | nil => simpa [next, hrelay] using hline p
      | cons envelope rest =>
          have hp := hline p
          rw [hrelay, List.flatten_cons] at hp
          simpa [next, hrelay] using hp.drop
  | peerRestart session =>
      show (if session.any s.left then s else s.restartPeer session).Sound
      split
      · exact h
      · next hsession =>
          exact ⟨hown, honward, Published.restart hpeer hsession, hline, halike, hdecided⟩
  | decideOn productId created =>
      obtain ⟨hfeed, hstored, hstoredPeer, hquotes⟩ :=
        decideOn_quotes s.leader productId created
      refine ⟨fun p => ?_, fun p => ?_, hpeer,
        fun p => (hline p).congr hstoredPeer hquotes, halike,
          hdecided.decideOn hown hline productId created⟩
      · simp only [next, hfeed, hstored]
        exact hown p
      · simp only [next, hstored]
        exact honward p
  | adoptUniverse =>
      refine ⟨hown, honward, hpeer, fun p => (hline p).congr rfl rfl, halike, ?_⟩
      constructor <;> simp [next, Leader.adoptUniverse]

theorem run_sound (known : String → Bool) (usable : Quote Rest → Bool) (h : s.Sound)
    (steps : List (Step Rest)) : (s.run known usable steps).Sound := by
  induction steps generalizing s with
  | nil => exact h
  | cons step steps ih => exact ih (next_sound h step)

/-- In every run no two attempts under one universe are on the same pair of quote revisions
of a product, and the stored quote of a product is the newest of a log that goes
forward. -/
theorem one_attempt_per_revision (known : String → Bool) (usable : Quote Rest → Bool)
    (leaderEpochs peerEpochs : Table String (List String)) (steps : List (Step Rest)) :
    let l : Leader Rest := ((start leaderEpochs peerEpochs).run known usable steps).leader
    l.attempts.Nodup ∧ ∀ p, l.feed.localQuotes.get p = (of p l.stored).head? ∧
      Onward (of p l.stored) := by
  intro l
  have hsound := run_sound known usable (start_sound leaderEpochs peerEpochs) steps
  refine ⟨hsound.decided.nodup, fun p => ⟨?_, hsound.onward p⟩⟩
  obtain ⟨-, hcurrent, -, -, hfresh⟩ := hsound.own p
  cases hget : l.feed.localQuotes.get p with
  | some q => exact (hcurrent q hget).symm
  | none =>
      obtain ⟨hnone, -⟩ := hfresh hget
      cases hstored : of p l.stored with
      | nil => rfl
      | cons q older =>
          rw [hstored] at hnone
          exact absurd (hnone q List.mem_cons_self) List.not_mem_nil

end System

end PairCell.Quotes
