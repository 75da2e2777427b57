import PairCell.Release

/-!
# Where the release markers go

A proposer that applies its acknowledged proposal overwrites a later marker it
holds by then, so two releases that cross leave the Workers with different
markers.  As long as no acknowledged proposal meets a later marker, the two
converge to the newest.
-/

namespace PairCell.Release

open Lib

/-! ## What a release writes -/

section Cell

variable (c : Cell) (marker : Nat)

theorem releaseAll_frame (ps : List String) :
    (c.releaseAll marker ps).1.blocked = c.blocked ∧
      (c.releaseAll marker ps).1.releaseProposals = c.releaseProposals ∧
      (c.releaseAll marker ps).1.outcomes = c.outcomes := by
  induction ps generalizing c with
  | nil => exact ⟨rfl, rfl, rfl⟩
  | cons p ps ih =>
      obtain ⟨h1, h2, h3⟩ := ih (c.releaseProductQuarantine p marker)
      have hone : (c.releaseProductQuarantine p marker).blocked = c.blocked ∧
          (c.releaseProductQuarantine p marker).releaseProposals = c.releaseProposals ∧
          (c.releaseProductQuarantine p marker).outcomes = c.outcomes := by
        unfold Cell.releaseProductQuarantine
        split <;> exact ⟨rfl, rfl, rfl⟩
      simp only [Cell.releaseAll]
      split <;> exact ⟨h1.trans hone.1, h2.trans hone.2.1, h3.trans hone.2.2⟩

theorem releaseAll_marker (hc : c.blocked = false) (ps : List String) (q : String) :
    (c.releaseAll marker ps).1.releaseMarker.get q =
      if q ∈ ps then some marker else c.releaseMarker.get q := by
  induction ps generalizing c with
  | nil => rfl
  | cons p ps ih =>
      have hone : (c.releaseProductQuarantine p marker).blocked = false ∧
          (c.releaseProductQuarantine p marker).releaseMarker =
            c.releaseMarker.set p marker := by
        simp [Cell.releaseProductQuarantine, hc]
      have hrest := ih (c.releaseProductQuarantine p marker) hone.1
      have hfst : (c.releaseAll marker (p :: ps)).1 =
          ((c.releaseProductQuarantine p marker).releaseAll marker ps).1 := by
        simp only [Cell.releaseAll]
        split <;> rfl
      rw [hfst, hrest, hone.2, Table.get_set]
      by_cases hq : q ∈ ps
      · simp [hq]
      · by_cases hp : q = p <;> simp [hq, hp]

/-- Markers only move forward from `c` to `d`. -/
def Forward (c d : Cell) : Prop :=
  ∀ q m, c.releaseMarker.get q = some m → ∃ m', d.releaseMarker.get q = some m' ∧ m ≤ m'

theorem Forward.refl : Forward c c := fun _ m h => ⟨m, h, Nat.le_refl m⟩

/-- Every product of the proposal has a marker at least as late. -/
def Covered (c : Cell) (p : Proposal) : Prop :=
  ∀ q ∈ p.productIds, ∃ m, c.releaseMarker.get q = some m ∧ p.marker ≤ m

theorem Covered.forward {c d : Cell} {p : Proposal} (h : Covered c p) (hf : Forward c d) :
    Covered d p := by
  intro q hq
  obtain ⟨m, hm, hle⟩ := h q hq
  obtain ⟨m', hm', hle'⟩ := hf q m hm
  exact ⟨m', hm', Nat.le_trans hle hle'⟩

/-- Every new marker of `d` is `marker` on one of these products. -/
def Wrote (d : Cell) (marker : Nat) (ps : List String) : Prop :=
  ∀ q m, d.releaseMarker.get q = some m →
    c.releaseMarker.get q = some m ∨ (q ∈ ps ∧ m = marker)

/-- An accepted proposal leaves no product of the symbol with an earlier marker. -/
theorem acceptProposal_spec {id : Nat} {symbol : String} (hc : c.blocked = false) :
    let d := (c.acceptReleaseProposal id symbol marker).1
    Forward c d ∧ Wrote c d marker (c.releaseTargetProductIds symbol) ∧
      (∀ q ∈ c.releaseTargetProductIds symbol, ∃ m, d.releaseMarker.get q =
        some m ∧ marker ≤ m) ∧
      d.releaseProposals = c.releaseProposals ∧ d.outcomes = c.outcomes ∧
      ∃ applied, (c.acceptReleaseProposal id symbol marker).2 =
        .response id true "" applied := by
  intro d
  let fresh := (c.releaseTargetProductIds symbol).filter fun p => !c.stale marker p
  have hd : c.acceptReleaseProposal id symbol marker =
      ((c.releaseAll marker fresh).1,
        .response id true "" (c.releaseAll marker fresh).2) := by
    simp [Cell.acceptReleaseProposal, hc, fresh]
  have hmark : ∀ q, d.releaseMarker.get q =
      if q ∈ fresh then some marker else c.releaseMarker.get q := by
    intro q
    change (c.acceptReleaseProposal id symbol marker).1.releaseMarker.get q = _
    rw [hd]
    exact releaseAll_marker c marker hc fresh q
  have hfresh : ∀ q m, q ∈ fresh → c.releaseMarker.get q = some m → m ≤ marker := by
    intro q m hq hm
    have hp := (List.mem_filter.1 hq).2
    have : ¬marker ≤ m := by simpa [Cell.stale, hm] using hp
    omega
  obtain ⟨-, hprop, hout⟩ := releaseAll_frame c marker fresh
  refine ⟨?_, ?_, ?_, ?_, ?_, (c.releaseAll marker fresh).2, by rw [hd]⟩
  · intro q m hm
    rw [hmark]
    by_cases hq : q ∈ fresh
    · exact ⟨marker, by simp [hq], hfresh q m hq hm⟩
    · exact ⟨m, by simp [hq, hm], Nat.le_refl m⟩
  · intro q m hm
    rw [hmark] at hm
    split at hm
    · next hq => exact .inr ⟨(List.mem_filter.1 hq).1, (Option.some.inj hm).symm⟩
    · exact .inl hm
  · intro q hq
    rw [hmark]
    by_cases hqf : q ∈ fresh
    · exact ⟨marker, by simp [hqf], Nat.le_refl marker⟩
    · cases hm : c.releaseMarker.get q with
      | none => exact absurd (List.mem_filter.2 ⟨hq, by simp [Cell.stale, hm]⟩) hqf
      | some m =>
          refine ⟨m, by simp [hqf], ?_⟩
          by_contra hlt
          exact hqf (List.mem_filter.2 ⟨hq, by simpa [Cell.stale, hm] using hlt⟩)
  · change (c.acceptReleaseProposal id symbol marker).1.releaseProposals = _
    rw [hd]
    exact hprop
  · change (c.acceptReleaseProposal id symbol marker).1.outcomes = _
    rw [hd]
    exact hout

/-- The pending proposals of `d` were pending in `c`, perhaps sent at another time. -/
def Pending (c d : Cell) : Prop :=
  ∀ p t, (p, t) ∈ d.releaseProposals → ∃ t', (p, t') ∈ c.releaseProposals

/-- The markers stay, no proposal becomes pending and none ends as applied. -/
structure Plain (c d : Cell) : Prop where
  marker : d.releaseMarker = c.releaseMarker
  pending : Pending c d
  outcomes : ∀ o ∈ d.outcomes, o ∈ c.outcomes ∨ o.state = .rejected

theorem Plain.refl : Plain c c := ⟨rfl, fun _ t h => ⟨t, h⟩, fun _ h => .inl h⟩

theorem Plain.trans {c d e : Cell} (h : Plain c d) (h' : Plain d e) : Plain c e where
  marker := h'.marker.trans h.marker
  pending p t hp := by
    obtain ⟨t', hp'⟩ := h'.pending p t hp
    exact h.pending p t' hp'
  outcomes o ho := (h'.outcomes o ho).elim (h.outcomes o) .inr

theorem plain_rejected (p : Proposal) (reason : String) (peerApplied : List String) :
    Plain c (c.recordReleaseOutcome p .rejected reason [] peerApplied) where
  marker := rfl
  pending q t hq := ⟨t, (List.mem_filter.1 hq).1⟩
  outcomes o ho := by
    obtain ho | ho := List.mem_append.1 ho
    · exact .inl ho
    · rw [List.mem_singleton.1 ho]
      exact .inr rfl

theorem enforce_plain (ps : List (Proposal × Nat)) :
    Plain c (c.enforceReleaseProposalDeadline ps).1 ∧
      ∀ m ∈ (c.enforceReleaseProposalDeadline ps).2, ∃ p t, (p, t) ∈ ps ∧
        m = Cell.proposalMessage p := by
  induction ps generalizing c with
  | nil => exact ⟨Plain.refl c, by simp [Cell.enforceReleaseProposalDeadline]⟩
  | cons entry ps ih =>
      obtain ⟨p, lastSentAt⟩ := entry
      have later : ∀ m, (∃ q t, (q, t) ∈ ps ∧ m = Cell.proposalMessage q) →
          ∃ q t, (q, t) ∈ (p, lastSentAt) :: ps ∧ m = Cell.proposalMessage q := by
        rintro m ⟨q, t, hq, rfl⟩
        exact ⟨q, t, List.mem_cons_of_mem _ hq, rfl⟩
      unfold Cell.enforceReleaseProposalDeadline
      split
      · obtain ⟨hp, hm⟩ := ih (c.recordReleaseOutcome p .rejected
          "the peer did not answer before the deadline" [] [])
        exact ⟨(plain_rejected c p _ _).trans hp, fun m h => later m (hm m h)⟩
      · split
        · obtain ⟨hp, hm⟩ := ih c
          exact ⟨hp, fun m h => later m (hm m h)⟩
        · have hsent : Plain c { c with releaseProposals := c.releaseProposals.map fun q =>
              if q.1.proposalId = p.proposalId then (q.1, c.now) else q } := by
            refine ⟨rfl, fun q t hq => ?_, fun o ho => .inl ho⟩
            obtain ⟨⟨r, u⟩, hr, heq⟩ := List.mem_map.1 hq
            refine ⟨u, ?_⟩
            split at heq <;> cases heq <;> exact hr
          obtain ⟨hp, hm⟩ :=
            ih { c with releaseProposals := c.releaseProposals.map fun q =>
              if q.1.proposalId = p.proposalId then (q.1, c.now) else q }
          refine ⟨hsent.trans hp, fun m h => ?_⟩
          obtain rfl | h := List.mem_cons.1 h
          · exact ⟨p, lastSentAt, List.mem_cons_self .., rfl⟩
          · exact later m (hm m h)

theorem quarantine_plain (productId : String) (w : Role) (attemptId : Nat) (m : Option Nat)
    (e : Bool) : Plain c (c.quarantineProduct productId w attemptId m e).1 := by
  unfold Cell.quarantineProduct
  simp only
  split
  · exact Plain.refl c
  · split
    · exact Plain.refl c
    · split
      · exact Plain.refl c
      · exact ⟨rfl, fun _ t h => ⟨t, h⟩, fun _ h => .inl h⟩

/-- An acknowledgement that finds its proposal pending, the cell free, the products of the
proposal and no later marker on any of them. -/
theorem acceptResponse_spec {id t : Nat} {reason : String} {peerApplied : List String}
    {p : Proposal}
    (hfind : c.releaseProposals.find? (fun q => q.1.proposalId == id) = some (p, t))
    (hc : c.blocked = false) (hps : c.releaseTargetProductIds p.symbol = p.productIds)
    (hle : ∀ q ∈ p.productIds, ∀ m ∈ c.releaseMarker.get q, m ≤ p.marker) :
    let d := c.acceptReleaseResponse id true reason peerApplied
    Forward c d ∧ Wrote c d p.marker p.productIds ∧ Covered d p ∧ Pending c d ∧
      ∀ o ∈ d.outcomes, o ∈ c.outcomes ∨ o.proposalId = p.proposalId := by
  intro d
  have hd : d = (c.releaseAll p.marker p.productIds).1.recordReleaseOutcome p .applied ""
      (c.releaseAll p.marker p.productIds).2 peerApplied := by
    simp [d, Cell.acceptReleaseResponse, hfind, hps]
  have hmark : ∀ q, d.releaseMarker.get q =
      if q ∈ p.productIds then some p.marker else c.releaseMarker.get q := by
    intro q
    rw [hd]
    exact releaseAll_marker c p.marker hc p.productIds q
  obtain ⟨-, hprop, hout⟩ := releaseAll_frame c p.marker p.productIds
  refine ⟨?_, ?_, ?_, ?_, ?_⟩
  · intro q m hm
    rw [hmark]
    by_cases hq : q ∈ p.productIds
    · exact ⟨p.marker, by simp [hq], hle q hq m hm⟩
    · exact ⟨m, by simp [hq, hm], Nat.le_refl m⟩
  · intro q m hm
    rw [hmark] at hm
    split at hm
    · next hq => exact .inr ⟨hq, (Option.some.inj hm).symm⟩
    · exact .inl hm
  · intro q hq
    exact ⟨p.marker, by rw [hmark, if_pos hq], Nat.le_refl _⟩
  · intro q u hq
    rw [hd] at hq
    have hq := (List.mem_filter.1 hq).1
    rw [hprop] at hq
    exact ⟨u, hq⟩
  · intro o ho
    rw [hd] at ho
    obtain ho | ho := List.mem_append.1 ho
    · exact .inl (hout ▸ ho)
    · rw [List.mem_singleton.1 ho]
      exact .inr rfl

/-- Any other response ends nothing as applied. -/
theorem acceptResponse_plain {id : Nat} {ok : Bool} {reason : String}
    {peerApplied : List String}
    (h : c.releaseProposals.find? (fun q => q.1.proposalId == id) = none ∨ ok = false) :
    Plain c (c.acceptReleaseResponse id ok reason peerApplied) := by
  unfold Cell.acceptReleaseResponse
  split
  · exact Plain.refl c
  · next p t hfind =>
      obtain h | rfl := h
      · simp [hfind] at h
      · exact plain_rejected c p _ _

end Cell

/-! ## The invariant of the two cells -/

def MessageOk (s : World) (c : Role) : Message → Prop
  | .proposal id symbol marker _ _ => ∃ p ∈ s.requested, p.proposalId = id ∧
      p.symbol = symbol ∧
      p.marker = marker ∧ p.actor = peerOf c
  | .response id ok _ _ => ok = true →
      ∃ p ∈ s.requested, p.proposalId = id ∧ Covered (s.cell (peerOf c)) p

structure Sound (s : World) : Prop where
  unique : ∀ p ∈ s.requested, ∀ p' ∈ s.requested, p.proposalId = p'.proposalId → p = p'
  pending : ∀ c p t, (p, t) ∈ (s.cell c).releaseProposals → p ∈ s.requested ∧ p.actor = c
  flight : ∀ c, ∀ m ∈ s.inFlight c, MessageOk s c m
  ended : ∀ c, ∀ o ∈ (s.cell c).outcomes, o.state = .applied →
    ∃ p ∈ s.requested, p.proposalId = o.proposalId ∧ ∀ d, Covered (s.cell d) p
  origin : ∀ c q m, (s.cell c).releaseMarker.get q = some m →
    ∃ p ∈ s.requested, q ∈ p.productIds ∧ p.marker = m

theorem sound_start : Sound World.start where
  unique p hp := by simp [World.start] at hp
  pending c p t h := by simp [World.start, Cell.empty] at h
  flight c m h := by simp [World.start] at h
  ended c o h := by simp [World.start, Cell.empty] at h
  origin c q m h := by simp [World.start, Cell.empty] at h

/-- One cell changes: its markers move forward, new ones come from a proposal, what is
newly pending was requested and what ended as applied is covered on both sides. -/
theorem Sound.setCell {s : World} {c : Role} {x : Cell} (h : Sound s)
    (hf : Forward (s.cell c) x) (hp : ∀ p t, (p, t) ∈ x.releaseProposals →
      (∃ t', (p, t') ∈ (s.cell c).releaseProposals) ∨ (p ∈ s.requested ∧ p.actor = c))
    (ho : ∀ o ∈ x.outcomes, o ∈ (s.cell c).outcomes ∨ o.state = .rejected ∨
      ∃ p ∈ s.requested, p.proposalId = o.proposalId ∧ Covered x p ∧
        Covered (s.cell (peerOf c)) p)
    (horigin : ∀ q m, x.releaseMarker.get q = some m →
      (s.cell c).releaseMarker.get q = some m ∨ ∃ p ∈ s.requested, q ∈ p.productIds ∧
        p.marker = m) :
    Sound (s.setCell c x) := by
  have forward : ∀ d, Forward (s.cell d) ((s.setCell c x).cell d) := by
    intro d
    by_cases hd : d = c
    · subst hd
      simpa [World.setCell] using hf
    · simpa [World.setCell, hd] using Forward.refl (s.cell d)
  constructor
  · exact h.unique
  · intro d p t hpt
    by_cases hd : d = c
    · subst hd
      obtain ⟨t', hpt'⟩ | hnew := hp p t (by simpa [World.setCell] using hpt)
      · exact h.pending d p t' hpt'
      · exact hnew
    · exact h.pending d p t (by simpa [World.setCell, hd] using hpt)
  · intro d m hm
    have hok := h.flight d m hm
    cases m with
    | proposal id symbol marker actor reason => exact hok
    | response id ok reason applied =>
        intro htrue
        obtain ⟨p, hpr, hid, hcov⟩ := hok htrue
        exact ⟨p, hpr, hid, hcov.forward (forward _)⟩
  · intro d o hod happlied
    have both :
        (∃ p ∈ s.requested, p.proposalId = o.proposalId ∧ ∀ d, Covered (s.cell d) p) →
        ∃ p ∈ s.requested, p.proposalId = o.proposalId ∧
          ∀ d, Covered ((s.setCell c x).cell d) p := by
      rintro ⟨p, hpr, hid, hcov⟩
      exact ⟨p, hpr, hid, fun d => (hcov d).forward (forward d)⟩
    by_cases hd : d = c
    · subst hd
      obtain hold | hrej | ⟨p, hpr, hid, hx, hpeer⟩ :=
        ho o (by simpa [World.setCell] using hod)
      · exact both (h.ended d o hold happlied)
      · rw [hrej] at happlied
        cases happlied
      · refine ⟨p, hpr, hid, fun e => ?_⟩
        obtain rfl | rfl := eq_or_peer d e
        · simpa [World.setCell] using hx
        · exact hpeer.forward (forward _)
    · exact both (h.ended d o (by simpa [World.setCell, hd] using hod) happlied)
  · intro d q m hm
    by_cases hd : d = c
    · subst hd
      obtain hold | hnew := horigin q m (by simpa [World.setCell] using hm)
      · exact h.origin d q m hold
      · exact hnew
    · exact h.origin d q m (by simpa [World.setCell, hd] using hm)

theorem Sound.plain {s : World} {c : Role} {x : Cell} (h : Sound s)
    (hx : Plain (s.cell c) x) :
    Sound (s.setCell c x) := by
  refine h.setCell ?_ (fun p t hp => .inl (hx.pending p t hp))
    (fun o ho => (hx.outcomes o ho).imp_right .inl) ?_
  · intro q m hm
    exact ⟨m, hx.marker ▸ hm, Nat.le_refl m⟩
  · intro q m hm
    exact .inl (hx.marker ▸ hm)

theorem Sound.send {s : World} {c : Role} {ms : List Message} (h : Sound s)
    (hms : ∀ m ∈ ms, MessageOk s c m) : Sound (s.send c ms) := by
  refine ⟨h.unique, h.pending, ?_, h.ended, h.origin⟩
  intro d m hm
  have hok : MessageOk s d m := by
    by_cases hd : d = c
    · subst hd
      have hm : m ∈ s.inFlight d ∨ m ∈ ms := by simpa [World.send] using hm
      exact hm.elim (h.flight d m) (hms m)
    · exact h.flight d m (by simpa [World.send, hd] using hm)
  cases m with
  | proposal id symbol marker actor reason => exact hok
  | response id ok reason applied => exact hok

theorem Sound.drop {s : World} (h : Sound s) (c : Role) (m : Message) :
    Sound (s.drop c m) := by
  refine ⟨h.unique, h.pending, ?_, h.ended, h.origin⟩
  intro d m' hm
  have hmem : m' ∈ s.inFlight d := by
    by_cases hd : d = c
    · subst hd
      exact List.mem_of_mem_erase (by simpa [World.drop] using hm)
    · simpa [World.drop, hd] using hm
  have hok := h.flight d m' hmem
  cases m' with
  | proposal id symbol marker actor reason => exact hok
  | response id ok reason applied => exact hok

/-! ## Steps -/

/-- A proposal identifier is drawn once. -/
def Fresh (s : World) : Label → Prop
  | .request _ _ _ uuid => ∀ p ∈ s.requested, p.proposalId ≠ uuid
  | _ => True

/-- A proposal finds the products it was made for, and so does the acknowledgement of one
still pending, which also finds its cell free and no marker later than its own. -/
def Orderly (s : World) : Label → Prop
  | .deliver c (.proposal id symbol _ _ _) _ => (s.cell c).blocked = false →
      ∀ p ∈ s.requested, p.proposalId = id →
        (s.cell c).releaseTargetProductIds symbol = p.productIds
  | .deliver c (.response id true _ _) _ => ∀ e ∈ (s.cell c).releaseProposals,
      e.1.proposalId = id → (s.cell c).blocked = false ∧
        (s.cell c).releaseTargetProductIds e.1.symbol = e.1.productIds ∧
        ∀ q ∈ e.1.productIds, ∀ m ∈ (s.cell c).releaseMarker.get q, m ≤ e.1.marker
  | _ => True

instance (s : World) (l : Label) : Decidable (Orderly s l) := by
  unfold Orderly
  split <;> infer_instance

/-- What a step of one cell must show: the markers of that cell move forward, and the
invariant holds after it. -/
def Good (s t : World) : Prop := Sound t ∧ ∀ c, Forward (s.cell c) (t.cell c)

theorem forward_setCell {s : World} {c : Role} {x : Cell}
    (hf : Forward (s.cell c) x) (d : Role) :
    Forward (s.cell d) ((s.setCell c x).cell d) := by
  by_cases hd : d = c
  · subst hd
    simpa [World.setCell] using hf
  · simpa [World.setCell, hd] using Forward.refl (s.cell d)

theorem Plain.forward {c d : Cell} (h : Plain c d) : Forward c d :=
  fun _ m hm => ⟨m, h.marker ▸ hm, Nat.le_refl m⟩

theorem Sound.good_plain {s : World} {c : Role} {x : Cell} (h : Sound s)
    (hx : Plain (s.cell c) x) : Good s (s.setCell c x) :=
  ⟨h.plain hx, forward_setCell hx.forward⟩

/-- A new proposal under an identifier never drawn. -/
theorem Sound.requested {s : World} {p : Proposal} (h : Sound s)
    (hfresh : ∀ p' ∈ s.requested, p'.proposalId ≠ p.proposalId) :
    Sound { s with requested := s.requested ++ [p] } := by
  have old : ∀ {p' : Proposal}, p' ∈ s.requested → p' ∈ s.requested ++ [p] :=
    fun hp' => List.mem_append_left _ hp'
  constructor
  · intro a ha b hb hid
    obtain ha | ha := List.mem_append.1 ha <;> obtain hb | hb := List.mem_append.1 hb
    · exact h.unique a ha b hb hid
    · rw [List.mem_singleton.1 hb] at hid
      exact absurd hid (hfresh a ha)
    · rw [List.mem_singleton.1 ha] at hid
      exact absurd hid.symm (hfresh b hb)
    · rw [List.mem_singleton.1 ha, List.mem_singleton.1 hb]
  · intro c a t hat
    obtain ⟨hr, hactor⟩ := h.pending c a t hat
    exact ⟨old hr, hactor⟩
  · intro c m hm
    have hok := h.flight c m hm
    cases m with
    | proposal id symbol marker actor reason =>
        obtain ⟨a, ha, hrest⟩ := hok
        exact ⟨a, old ha, hrest⟩
    | response id ok reason applied =>
        intro htrue
        obtain ⟨a, ha, hrest⟩ := hok htrue
        exact ⟨a, old ha, hrest⟩
  · intro c o ho happlied
    obtain ⟨a, ha, hrest⟩ := h.ended c o ho happlied
    exact ⟨a, old ha, hrest⟩
  · intro c q m hm
    obtain ⟨a, ha, hrest⟩ := h.origin c q m hm
    exact ⟨a, old ha, hrest⟩

theorem Sound.request {s : World} {c : Role} {symbol reason : String}
    {uuid : Nat} (h : Sound s) (hfresh : ∀ p ∈ s.requested, p.proposalId ≠ uuid) :
    Good s (s.next (.request c symbol reason uuid)) := by
  by_cases hc : (s.cell c).blocked = true
  · simp only [World.next, Cell.requestQuarantineRelease, if_pos hc]
    exact ⟨h, fun d => Forward.refl _⟩
  · let p : Proposal :=
      ⟨uuid, symbol, (s.cell c).releaseTargetProductIds symbol, (s.cell c).now, c, reason,
        (s.cell c).now⟩
    let x : Cell := { s.cell c with
      releaseProposals := (s.cell c).releaseProposals ++ [(p, (s.cell c).now)] }
    have heq : s.next (.request c symbol reason uuid) =
        (World.setCell { s with requested := s.requested ++ [p] } c x).send (peerOf c)
          [Cell.proposalMessage p] := by
      simp only [World.next, Cell.requestQuarantineRelease, if_neg hc]
      rfl
    rw [heq]
    have hr : Sound { s with requested := s.requested ++ [p] } := h.requested hfresh
    have hp : p ∈ s.requested ++ [p] := List.mem_append_right _ (List.mem_singleton.2 rfl)
    have hx : Forward (s.cell c) x := fun q m hm => ⟨m, hm, Nat.le_refl m⟩
    refine ⟨(hr.setCell hx ?_ (fun o ho => .inl ho) (fun q m hm => .inl hm)).send ?_,
      forward_setCell hx⟩
    · intro a t hat
      obtain hat | hat := List.mem_append.1 hat
      · exact .inl ⟨t, hat⟩
      · obtain ⟨rfl, -⟩ := Prod.mk.inj (List.mem_singleton.1 hat)
        exact .inr ⟨hp, rfl⟩
    · intro m hm
      rw [List.mem_singleton.1 hm]
      exact ⟨p, hp, rfl, rfl, rfl, by simp [p]⟩

theorem Sound.deadline {s : World} (h : Sound s) (c : Role) :
    Good s (s.next (.deadline c)) := by
  obtain ⟨hplain, hms⟩ := enforce_plain (s.cell c) (s.cell c).releaseProposals
  refine ⟨(h.plain hplain).send ?_, forward_setCell hplain.forward⟩
  intro m hm
  obtain ⟨p, t, hp, rfl⟩ := hms m hm
  obtain ⟨hr, ha⟩ := h.pending c p t hp
  exact ⟨p, hr, rfl, rfl, rfl, by simp [ha]⟩

theorem Sound.proposal {s : World} {c actor : Role} {id marker : Nat}
    {symbol reason : String} (h : Sound s)
    (hm : MessageOk s c (.proposal id symbol marker actor reason))
    (hord : (s.cell c).blocked = false → ∀ p ∈ s.requested, p.proposalId = id →
      (s.cell c).releaseTargetProductIds symbol = p.productIds) :
    Good s (s.handle c (.proposal id symbol marker actor reason)) := by
  obtain ⟨p, hp, hid, hsym, hmark, hactor⟩ := hm
  by_cases hc : (s.cell c).blocked = true
  · have heq : (s.cell c).acceptReleaseProposal id symbol marker =
        (s.cell c, .response id false "unresolved attempt" []) := by
      simp [Cell.acceptReleaseProposal, hc]
    simp only [World.handle, heq]
    refine ⟨(h.plain (Plain.refl _)).send ?_, forward_setCell (Forward.refl _)⟩
    intro m hm
    rw [List.mem_singleton.1 hm]
    intro hfalse
    cases hfalse
  · have hc : (s.cell c).blocked = false := by simpa using hc
    obtain ⟨hf, hwrote, hcov, hprop, hout, applied, hreply⟩ :=
      @acceptProposal_spec (s.cell c) marker id symbol hc
    have hps := hord hc p hp hid
    rw [hps] at hwrote hcov
    have hs :
        Sound (s.setCell c ((s.cell c).acceptReleaseProposal id symbol marker).1) := by
      refine h.setCell hf (fun q t hq => .inl ⟨t, hprop ▸ hq⟩)
        (fun o ho => .inl (hout ▸ ho)) ?_
      intro q m hm
      exact (hwrote q m hm).imp_right fun ⟨hq, hmq⟩ => ⟨p, hp, hq, hmark.trans hmq.symm⟩
    have heq : s.handle c (.proposal id symbol marker actor reason) =
        (s.setCell c ((s.cell c).acceptReleaseProposal id symbol marker).1).send (peerOf c)
          [((s.cell c).acceptReleaseProposal id symbol marker).2] := rfl
    rw [heq, hreply]
    refine ⟨hs.send ?_, forward_setCell hf⟩
    intro m hm
    rw [List.mem_singleton.1 hm]
    intro _
    refine ⟨p, hp, hid, ?_⟩
    intro q hq
    obtain ⟨m, hm, hle⟩ := hcov q hq
    exact ⟨m, by simpa [World.setCell] using hm, hmark ▸ hle⟩

theorem Sound.response {s : World} {c : Role} {id : Nat} {ok : Bool} {reason : String}
    {applied : List String} (h : Sound s)
    (hm : MessageOk s c (.response id ok reason applied))
    (hord : ok = true → ∀ e ∈ (s.cell c).releaseProposals, e.1.proposalId = id →
      (s.cell c).blocked = false ∧
        (s.cell c).releaseTargetProductIds e.1.symbol = e.1.productIds ∧
        ∀ q ∈ e.1.productIds, ∀ m ∈ (s.cell c).releaseMarker.get q, m ≤ e.1.marker) :
    Good s (s.handle c (.response id ok reason applied)) := by
  cases hfind : (s.cell c).releaseProposals.find? (fun q => q.1.proposalId == id) with
  | none => exact h.good_plain (acceptResponse_plain _ (.inl hfind))
  | some entry =>
      obtain ⟨p, t⟩ := entry
      cases ok with
      | false => exact h.good_plain (acceptResponse_plain _ (.inr rfl))
      | true =>
          have hin := List.mem_of_find?_eq_some hfind
          have hpid : p.proposalId = id := by simpa using List.find?_some hfind
          obtain ⟨hc, hps, hle⟩ := hord rfl (p, t) hin hpid
          obtain ⟨hf, hwrote, hcov, hpend, hout⟩ :=
            acceptResponse_spec (s.cell c) hfind hc hps hle
          obtain ⟨hreq, -⟩ := h.pending c p t hin
          obtain ⟨p', hp', hid', hpeer⟩ := hm rfl
          -- the proposal acknowledged is the one pending
          obtain rfl := h.unique p hreq p' hp' (hpid.trans hid'.symm)
          refine ⟨h.setCell hf (fun a u ha => .inl (hpend a u ha)) ?_ ?_,
            forward_setCell hf⟩
          · intro o ho
            exact (hout o ho).imp_right fun hop => .inr ⟨p, hreq, hop.symm, hcov, hpeer⟩
          · intro q m hmq
            exact (hwrote q m hmq).imp_right fun ⟨hq, hmm⟩ => ⟨p, hreq, hq, hmm.symm⟩

theorem Sound.next {s : World} (h : Sound s) (l : Label) (hfresh : Fresh s l)
    (hord : Orderly s l) : Good s (s.next l) := by
  cases l with
  | request c symbol reason uuid => exact h.request hfresh
  | deadline c => exact h.deadline c
  | deliver c m again =>
      simp only [World.next]
      split
      · next hm =>
          have hok := h.flight c m hm
          -- taking the message out of flight changes neither cell
          have hs : Sound (if again = true then s else s.drop c m) := by
            split
            · exact h
            · exact h.drop c m
          have hcell :
              ∀ d, (if again = true then s else s.drop c m).cell d = s.cell d := by
            intro d
            split <;> rfl
          have hreq :
              (if again = true then s else s.drop c m).requested = s.requested := by
            split <;> rfl
          suffices hgood : Good (if again = true then s else s.drop c m)
              ((if again = true then s else s.drop c m).handle c m) from
            ⟨hgood.1, fun d => hcell d ▸ hgood.2 d⟩
          cases m with
          | proposal id symbol marker actor reason =>
              refine hs.proposal ?_ ?_
              · obtain ⟨p, hp, hrest⟩ := hok
                exact ⟨p, hreq ▸ hp, hrest⟩
              · rw [hcell, hreq]
                exact hord
          | response id ok reason applied =>
              refine hs.response ?_ ?_
              · intro htrue
                obtain ⟨p, hp, hid, hcov⟩ := hok htrue
                exact ⟨p, hreq ▸ hp, hid, hcell _ ▸ hcov⟩
              · rintro rfl
                rw [hcell]
                exact hord
      · exact ⟨h, fun d => Forward.refl _⟩
  | lose c m => exact ⟨h.drop c m, fun d => Forward.refl _⟩
  | clock c now => exact h.good_plain ⟨rfl, fun _ t hp => ⟨t, hp⟩, fun _ ho => .inl ho⟩
  | settle c blocked => exact h.good_plain ⟨rfl, fun _ t hp => ⟨t, hp⟩,
      fun _ ho => .inl ho⟩
  | install c products => exact h.good_plain ⟨rfl, fun _ t hp => ⟨t, hp⟩,
      fun _ ho => .inl ho⟩
  | quarantine c productId attemptId => exact h.good_plain (quarantine_plain ..)
  | propagated c productId attemptId releaseMarker =>
      exact h.good_plain (quarantine_plain ..)
  | restart c => exact h.good_plain ⟨rfl, fun _ _ hp => (List.not_mem_nil hp).elim,
      fun _ ho => .inl ho⟩

theorem reach_sound {s : World}
    (h : Reach World.Step (fun s l => Fresh s l ∧ Orderly s l)
      World.start s) : Sound s := by
  refine h.invariant sound_start ?_
  rintro t l u ht ⟨hfresh, hord⟩ rfl
  exact (ht.next l hfresh hord).1

/-! ## Convergence -/

/-- Every proposal ever made ended as applied, and nothing is in flight. -/
def Settled (s : World) : Prop :=
  (∀ p ∈ s.requested, ∃ o ∈ (s.cell p.actor).outcomes,
    o.proposalId = p.proposalId ∧ o.state = .applied) ∧ ∀ c, s.inFlight c = []

theorem Sound.covered {s : World} (h : Sound s) (hs : Settled s) {p : Proposal}
    (hp : p ∈ s.requested) (c : Role) : Covered (s.cell c) p := by
  obtain ⟨o, ho, hid, happlied⟩ := hs.1 p hp
  obtain ⟨p', hp', hid', hcov⟩ := h.ended p.actor o ho happlied
  rw [h.unique p hp p' hp' (hid.symm.trans hid'.symm)]
  exact hcov c

/-- A marker on either side is a proposal's, so the other side has one at least as late. -/
theorem Sound.newest {s : World} (h : Sound s) (hs : Settled s) {p : Proposal} {q : String}
    (hp : p ∈ s.requested) (hq : q ∈ p.productIds) :
    ∃ m, (∀ c, (s.cell c).releaseMarker.get q = some m) ∧
      (∃ p' ∈ s.requested, q ∈ p'.productIds ∧ p'.marker = m) ∧
      ∀ p' ∈ s.requested, q ∈ p'.productIds → p'.marker ≤ m := by
  obtain ⟨m, hm, -⟩ := h.covered hs hp .leader q hq
  have above : ∀ c n, (s.cell c).releaseMarker.get q = some n →
      ∀ d, ∃ k, (s.cell d).releaseMarker.get q = some k ∧ n ≤ k := by
    intro c n hn d
    obtain ⟨p', hp', hq', rfl⟩ := h.origin c q n hn
    exact h.covered hs hp' d q hq'
  have same : ∀ c, (s.cell c).releaseMarker.get q = some m := by
    intro c
    obtain ⟨k, hk, hle⟩ := above .leader m hm c
    obtain ⟨m', hm', hle'⟩ := above c k hk .leader
    have hmm : m' = m := Option.some.inj (hm'.symm.trans hm)
    rw [hk, show k = m by omega]
  refine ⟨m, same, h.origin .leader q m hm, ?_⟩
  intro p' hp' hq'
  obtain ⟨k, hk, hle⟩ := h.covered hs hp' .leader q hq'
  have hkm : k = m := Option.some.inj (hk.symm.trans hm)
  omega

/-- In every run whose deliveries are orderly, markers only move forward; and once every
proposal ended as applied with nothing in flight, both cells hold the newest proposed
marker of every product covered, and accept each other's next quarantine of it. -/
theorem orderly_markers_converge {s : World}
    (h : Reach World.Step (fun s l => Fresh s l ∧ Orderly s l) World.start s) :
    (∀ l, Fresh s l → Orderly s l → ∀ c, Forward (s.cell c) ((s.next l).cell c)) ∧
    (Settled s → ∀ p ∈ s.requested, ∀ q ∈ p.productIds,
      ∃ m, (∀ c, (s.cell c).releaseMarker.get q = some m) ∧
        (∃ p' ∈ s.requested, q ∈ p'.productIds ∧ p'.marker = m) ∧
        (∀ p' ∈ s.requested, q ∈ p'.productIds → p'.marker ≤ m) ∧
        ∀ c attemptId, (s.cell (peerOf c)).quarantine.get q = none →
          (q, c, attemptId) ∉ (s.cell (peerOf c)).quarantineRelease →
          ((s.cell (peerOf c)).quarantineProduct q c attemptId
            ((s.cell c).releaseMarker.get q) false).2 = true) := by
  have hs := reach_sound h
  refine ⟨fun l hf ho c => (hs.next l hf ho).2 c, fun hset p hp q hq => ?_⟩
  obtain ⟨m, hsame, hfrom, hmax⟩ := hs.newest hset hp hq
  refine ⟨m, hsame, hfrom, hmax, fun c attemptId hnone hnew => ?_⟩
  simp [Cell.quarantineProduct, hsame, hnone, hnew]

instance (s : World) (l : Label) : Decidable (Fresh s l) := by
  cases l <;> unfold Fresh <;> infer_instance

/-- Both Workers have the product and release it, the leader at 10 and the follower at 12;
each applies the other's proposal, and the follower its own. -/
def crossing : List Label :=
  [.install .leader [("EURUSD:1", "EURUSD")], .install .follower [("EURUSD:1", "EURUSD")],
    .clock .leader 10, .request .leader "EURUSD" "fixed" 1,
    .clock .follower 12, .request .follower "EURUSD" "fixed" 2,
    .deliver .follower (.proposal 1 "EURUSD" 10 .leader "fixed") false,
    .deliver .leader (.proposal 2 "EURUSD" 12 .follower "fixed") false,
    .deliver .follower (.response 2 true "" ["EURUSD:1"]) false]

/-- The leader's own acknowledgement takes its marker back from 12 to 10,
and so it stays. -/
theorem crossing_markers_diverge : ∃ s t : World,
    Reach World.Step Fresh World.start s ∧
    t = s.next (.deliver .leader (.response 1 true "" ["EURUSD:1"]) false) ∧ Settled t ∧
    (∃ p ∈ t.requested, "EURUSD:1" ∈ p.productIds) ∧
    (s.cell .leader).releaseMarker.get "EURUSD:1" = some 12 ∧
    (t.cell .leader).releaseMarker.get "EURUSD:1" = some 10 ∧
    (t.cell .follower).releaseMarker.get "EURUSD:1" = some 12 := by
  refine ⟨crossing.foldl World.next World.start, _, Along.reach (by decide +kernel), rfl,
    ⟨by decide +kernel, ?_⟩, by decide +kernel, by decide +kernel, by decide +kernel,
    by decide +kernel⟩
  intro c
  cases c <;> decide +kernel

/-- One release proposed, accepted and acknowledged. -/
theorem orderly_markers_converge_single : ∃ s : World, Settled s ∧
    (∃ p ∈ s.requested, "EURUSD:1" ∈ p.productIds) ∧
    ∃ m, ∀ c, (s.cell c).releaseMarker.get "EURUSD:1" = some m := by
  let ls : List Label :=
    [.install .leader [("EURUSD:1", "EURUSD")],
      .install .follower [("EURUSD:1", "EURUSD")], .clock .leader 10,
      .request .leader "EURUSD" "fixed" 1,
      .deliver .follower (.proposal 1 "EURUSD" 10 .leader "fixed") false,
      .deliver .leader (.response 1 true "" ["EURUSD:1"]) false]
  have hrun : Reach World.Step (fun s l => Fresh s l ∧ Orderly s l) World.start
      (ls.foldl World.next World.start) := Along.reach (by decide +kernel)
  have hset : Settled (ls.foldl World.next World.start) := by
    refine ⟨by decide +kernel, ?_⟩
    intro c
    cases c <;> decide +kernel
  obtain ⟨p, hp, hq⟩ : ∃ p ∈ (ls.foldl World.next World.start).requested,
      "EURUSD:1" ∈ p.productIds := by decide +kernel
  obtain ⟨m, hsame, -⟩ := (orderly_markers_converge hrun).2 hset p hp "EURUSD:1" hq
  exact ⟨_, hset, ⟨p, hp, hq⟩, m, hsame⟩

end PairCell.Release
