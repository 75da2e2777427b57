import PairCell.Runtime.Control

/-!
# Every closed leg is charged once

The runtime charges a ticket that it owns, is gone from a snapshot and closed
in the broker's history.  It owns the tickets its cell has reported since the
runtime was built, and those a snapshot has shown while an attempt was
unresolved.  `Watched` adds the history of a run: the tickets the cell has
recorded, those its runtime has noticed, and those a processed snapshot has
shown to be closed.
-/

namespace PairCell

open Lib World

/-! ## The books -/

namespace Books

variable {b : Books} {t : Ticket}

theorem owns_iff : b.owns t = true ↔ ∃ i, (t, i) ∈ b.owned := by
  simp [owns]

theorem markOpen_owned (u : Ticket) : (b.markOpen u).owned = b.owned := by
  unfold markOpen
  split <;> rfl

theorem markOpen_reported (u : Ticket) : (b.markOpen u).reported = b.reported := by
  unfold markOpen
  split <;> rfl

theorem own_reported (u : Ticket) (i : Nat) : (b.own u i).reported = b.reported := by
  unfold own
  split <;> rfl

theorem own_owns (u : Ticket) (i : Nat) (h : b.owns t = true) :
    (b.own u i).owns t = true := by
  unfold own
  split
  · exact h
  · obtain ⟨j, hj⟩ := owns_iff.1 h
    exact owns_iff.2 ⟨j, List.mem_append_left _ hj⟩

theorem own_self (t : Ticket) (i : Nat) : (b.own t i).owns t = true ∨ t ∈ b.reported := by
  unfold own
  split
  · next hold => exact hold.symm
  · exact .inl (owns_iff.2 ⟨i, List.mem_append_right _ (List.mem_singleton.2 rfl)⟩)

theorem observe_reported (m : Message) : (b.observe m).reported = b.reported := by
  unfold observe
  split
  · split
    · exact own_reported _ _
    · rfl
  · rfl

theorem observe_owns (m : Message) (h : b.owns t = true) :
    (b.observe m).owns t = true := by
  unfold observe
  split
  · split
    · exact own_owns _ _ h
    · exact h
  · exact h

/-- A ticket the cell reports is owned from then on, unless it has been charged. -/
theorem observe_noticed {p : LegStatus} (h : p.ticket = some t) :
    (b.observe (.legStatus p)).owns t = true ∨ t ∈ b.reported := by
  simp only [observe, h]
  exact own_self t _

theorem see_reported (i? : Option Nat) (p : Position) :
    (see i? b p).reported = b.reported := by
  cases i? with
  | none => exact markOpen_reported _
  | some i => exact (own_reported _ _).trans (markOpen_reported _)

theorem see_owns (i? : Option Nat) (p : Position) (h : b.owns t = true) :
    (see i? b p).owns t = true := by
  have hopen : (b.markOpen p.text).owns t = true := by
    rw [owns, markOpen_owned]
    exact h
  cases i? with
  | none => exact hopen
  | some i => exact own_owns _ _ hopen

/-- A position that is shown while an attempt is unresolved is owned, unless charged. -/
theorem see_noticed (i : Nat) (p : Position) :
    (see (some i) b p).owns p.text = true ∨ p.text ∈ b.reported := by
  rw [← markOpen_reported p.text]
  exact own_self _ _

theorem foldl_see_reported (i? : Option Nat) (ps : List Position) (b : Books) :
    (ps.foldl (see i?) b).reported = b.reported := by
  induction ps generalizing b with
  | nil => rfl
  | cons p ps ih => rw [List.foldl_cons, ih, see_reported]

theorem foldl_see_owns (i? : Option Nat) (ps : List Position) {b : Books}
    (h : b.owns t = true) :
    (ps.foldl (see i?) b).owns t = true := by
  induction ps generalizing b with
  | nil => exact h
  | cons p ps ih => exact ih (see_owns i? p h)

theorem foldl_see_noticed (i : Nat) {ps : List Position} {p : Position}
    (hp : p ∈ ps) (b : Books) :
    (ps.foldl (see (some i)) b).owns p.text = true ∨ p.text ∈ b.reported := by
  induction ps generalizing b with
  | nil => cases hp
  | cons q ps ih =>
      rw [List.foldl_cons]
      rcases List.mem_cons.1 hp with rfl | hp
      · exact (see_noticed i p).imp_left (foldl_see_owns _ ps)
      · rw [← see_reported (some i) q]
        exact ih hp _

theorem charge_owns {u : Ticket} (h : b.owns t = true) (hne : t ≠ u) :
    (b.charge u).owns t = true := by
  obtain ⟨i, hi⟩ := owns_iff.1 h
  exact owns_iff.2 ⟨i, List.mem_filter.2 ⟨hi, by simpa using hne⟩⟩

theorem charge_reported {u : Ticket} (h : t ∈ (b.charge u).reported) :
    t ∈ b.reported ∨ t = u := by
  unfold charge at h
  dsimp only at h
  generalize maxRememberedClosedTickets = bound at h
  have hmem := List.mem_of_mem_drop h
  split at hmem
  · exact .inl hmem
  · rcases List.mem_append.1 hmem with h | h
    · exact .inl h
    · exact .inr (List.mem_singleton.1 h)

/-! ### Settling -/

/-- The history proves the position closed, however it is looked at. -/
def Reports (deals : Ticket → Option (List Deal)) (t : Ticket) : Prop :=
  ∀ seen, (readClosedRealizedUsd (deals t) seen).isSome = true

instance (deals : Ticket → Option (List Deal)) (t : Ticket) :
    Decidable (Reports deals t) :=
  inferInstanceAs (Decidable (∀ _ : Bool, _))

/-- The tickets of some facts. -/
def tickets (facts : List Realized) : List Ticket := facts.map Realized.ticket

variable {deals : Ticket → Option (List Deal)}

theorem settle_owns (due : List (Ticket × Nat)) {b : Books} (h : b.owns t = true) :
    (settle deals due b).1.owns t = true ∨ t ∈ tickets (settle deals due b).2 := by
  fun_induction settle deals due b with
  | case1 b => exact .inl h
  | case2 u i rest b hread ih => exact ih h
  | case3 u i rest b amount hread b' facts hsettle ih =>
      by_cases htu : t = u
      · exact .inr (by simp [tickets, htu])
      · rw [hsettle] at ih
        exact (ih (charge_owns h htu)).imp_right (List.mem_cons_of_mem _)

theorem settle_reported (due : List (Ticket × Nat)) {b : Books}
    (h : t ∈ (settle deals due b).1.reported) :
    t ∈ b.reported ∨ t ∈ tickets (settle deals due b).2 := by
  fun_induction settle deals due b with
  | case1 b => exact .inl h
  | case2 u i rest b hread ih => exact ih h
  | case3 u i rest b amount hread b' facts hsettle ih =>
      rw [hsettle] at ih
      rcases ih h with hold | hnew
      · exact (charge_reported hold).imp_right fun htu => by simp [tickets, htu]
      · exact .inr (List.mem_cons_of_mem _ hnew)

theorem settle_due {due : List (Ticket × Nat)} {i : Nat} (hi : (t, i) ∈ due)
    (h : Reports deals t) (b : Books) : t ∈ tickets (settle deals due b).2 := by
  fun_induction settle deals due b with
  | case1 b => cases hi
  | case2 u j rest b hread ih =>
      rcases List.mem_cons.1 hi with heq | hi
      · cases heq
        have hsome := h (decide (t ∈ b.observedOpen))
        rw [hread] at hsome
        cases hsome
      · exact ih hi
  | case3 u j rest b amount hread b' facts hsettle ih =>
      rcases List.mem_cons.1 hi with heq | hi
      · cases heq
        simp [tickets]
      · rw [hsettle] at ih
        exact List.mem_cons_of_mem _ (ih hi)

section Facts

variable {positions : List Position} {i? : Option Nat}

theorem facts_owns (h : b.owns t = true) :
    (b.realizedLossFacts positions i? deals).1.owns t = true ∨
      t ∈ tickets (b.realizedLossFacts positions i? deals).2 :=
  settle_owns _ (foldl_see_owns i? positions h)

theorem facts_shown {i : Nat} {p : Position} (hp : p ∈ positions) :
    ((b.realizedLossFacts positions (some i) deals).1.owns p.text = true ∨
        p.text ∈ tickets (b.realizedLossFacts positions (some i) deals).2) ∨
      p.text ∈ b.reported :=
  (foldl_see_noticed i hp b).imp_left (settle_owns _)

theorem facts_reported (h : t ∈ (b.realizedLossFacts positions i? deals).1.reported) :
    t ∈ b.reported ∨ t ∈ tickets (b.realizedLossFacts positions i? deals).2 :=
  (settle_reported _ h).imp_left fun h => by rwa [foldl_see_reported] at h

theorem facts_closed (h : b.owns t = true) (hgone : ∀ p ∈ positions, p.text ≠ t)
    (hreports : Reports deals t) :
    t ∈ tickets (b.realizedLossFacts positions i? deals).2 := by
  obtain ⟨i, hi⟩ := owns_iff.1 (foldl_see_owns i? positions h)
  exact settle_due (List.mem_filter.2 ⟨hi, by simpa using hgone⟩) hreports _

end Facts

end Books

/-! ## What a step does to the books -/

namespace Runtime

/-- The route is gone, and with it what was still owned. -/
structure Dropped (r r' : Runtime) : Prop where
  pnl : r'.pnl = r.pnl
  reported : r'.books.reported = r.books.reported
  agenda : r'.agenda = r.agenda
  cell : r'.hasCell = false

theorem dropped_routeRemoved (r : Runtime) (safeUnpair : Bool) :
    Dropped r (r.routeRemoved safeUnpair) := ⟨rfl, rfl, rfl, rfl⟩

theorem calm_constructCell (r : Runtime) (x : Answers) (route : DurableRoute) :
    Calm r (r.constructCell x route) := by
  unfold constructCell
  split
  · exact ⟨rfl, rfl, fun _ _ h => h⟩
  · split
    · exact ⟨rfl, rfl, fun _ _ h => h⟩
    · exact ⟨rfl, rfl, fun f day h => by simp at h⟩

theorem calm_adopt (r : Runtime) (x : Answers) (v : RouteView) (proposalId : Option Nat) :
    Calm r (r.adoptControllerRoute x v proposalId) := by
  unfold adoptControllerRoute
  split
  · split
    · exact (same_feedRouteMetadata r x _).calm
    · split
      · exact ⟨rfl, rfl, fun _ _ h => h⟩
      · dsimp only
        split
        · exact ⟨rfl, rfl, fun _ _ h => h⟩
        · exact calm_constructCell r x _
  · exact .refl r

theorem calm_reconcileAbsentPairing (r : Runtime) (x : Answers) :
    Calm r (r.reconcileAbsentPairing x) := by
  unfold reconcileAbsentPairing
  split
  · exact .refl r
  · split
    · exact .refl r
    · dsimp only
      split
      · exact ⟨rfl, rfl, fun _ _ h => h⟩
      · refine Calm.trans ?_ (same_pairingConflict _).calm
        exact ⟨rfl, rfl, fun _ _ h => h⟩

theorem reconcileAbsent_effect (r : Runtime) (x : Answers) :
    Calm r (r.reconcileAbsentControllerRoute x) ∨
      Dropped r (r.reconcileAbsentControllerRoute x) := by
  unfold reconcileAbsentControllerRoute
  split
  · next w d _ _ =>
      split
      · exact .inl (same_feedRouteMetadata r x none).calm
      · dsimp only
        have hnote : Calm r (r.noteAssertion w) := ⟨rfl, rfl, fun _ _ h => h⟩
        split
        · exact .inl (hnote.trans (same_feedRouteMetadata _ x none).calm)
        · exact .inr ⟨rfl, rfl, rfl, rfl⟩
  · exact .inl (.refl r)

theorem result_effect (r : Runtime) (x : Answers) (m : Control) :
    Calm r (r.handleControlResult x m) ∨ Dropped r (r.handleControlResult x m) := by
  have quiet : ∀ r' : Runtime, r'.pnl = r.pnl → r'.books = r.books → r'.agenda = r.agenda →
      Calm r r' ∨ Dropped r r' :=
        fun r' h₁ h₂ h₃ => .inl ⟨h₁, h₂, fun f day h => by rwa [h₃] at h⟩
  cases m with
  | roleResult accepted route resolved =>
      simp only [handleControlResult]
      split
      · exact quiet _ rfl rfl rfl
      · split
        · exact .inl (calm_adopt r x _ none)
        · split
          · exact quiet _ rfl rfl rfl
          · split
            · refine .inl (.trans ?_ (same_beginSelection _ x).calm)
              exact ⟨rfl, rfl, fun _ _ h => h⟩
            · exact quiet _ rfl rfl rfl
  | availableFollowersResult accepted =>
      simp only [handleControlResult]
      split
      · exact .inl (same_selectFromListing r x).calm
      · exact quiet _ rfl rfl rfl
  | pairingProposalResult accepted proposalId =>
      simp only [handleControlResult]
      split
      · exact .inl (same_pairingConflict r).calm
      · split <;> exact quiet _ rfl rfl rfl
  | pairingDecisionResult accepted paired route =>
      simp only [handleControlResult]
      split
      · exact quiet _ rfl rfl rfl
      · split
        · exact .inl (calm_adopt r x _ _)
        · exact quiet _ rfl rfl rfl
  | routeSyncResult accepted route =>
      simp only [handleControlResult]
      split
      · exact quiet _ rfl rfl rfl
      · split
        · exact .inl (calm_adopt r x _ none)
        · split
          · exact reconcileAbsent_effect r x
          · exact .inl (calm_reconcileAbsentPairing r x)
  | unpairResult accepted route =>
      simp only [handleControlResult]
      split
      · exact .inl (same_feedRouteMetadata r x _).calm
      · exact quiet _ rfl rfl rfl
  | unpairAssertionResult accepted removed =>
      simp only [handleControlResult]
      split
      · exact .inr (dropped_routeRemoved r true)
      · split <;> exact quiet _ rfl rfl rfl
  | stateVersionResult accepted =>
      simp only [handleControlResult]
      split <;> exact quiet _ rfl rfl rfl
  | _ => exact quiet _ rfl rfl rfl

theorem push_effect (r : Runtime) (x : Answers) (m : Control) :
    Calm r (r.handleControlPush x m) ∨ Dropped r (r.handleControlPush x m) := by
  cases m with
  | pairingProposed proposalId leader =>
      exact .inl (same_answerPairingProposal r x proposalId leader).calm
  | pairingEnded =>
      simp only [handleControlPush]
      split
      · exact .inl (.refl r)
      · split
        · exact .inl ⟨rfl, rfl, fun _ _ h => h⟩
        · refine .inl (.trans ?_ (same_pairingConflict _).calm)
          exact ⟨rfl, rfl, fun _ _ h => h⟩
  | routeEstablished route acceptance =>
      simp only [handleControlPush]
      split
      · next v =>
          have hcalm := calm_adopt r x v r.proposalId
          split
          · refine .inl ⟨hcalm.pnl, hcalm.books, fun f day h => hcalm.records f day ?_⟩
            simpa using h
          · exact .inl hcalm
      · exact .inl (.refl r)
  | routeStateChanged route =>
      simp only [handleControlPush]
      split
      · exact .inl (same_feedRouteMetadata r x _).calm
      · exact .inl (.refl r)
  | routeRemoved routeId safeUnpair =>
      simp only [handleControlPush]
      split
      · split
        · exact .inr (dropped_routeRemoved r safeUnpair)
        · exact .inl (.refl r)
      · exact .inl (.refl r)
  | _ => exact .inl (.refl r)

theorem control_effect (r : Runtime) (x : Answers) (m : Control) :
    Calm r (r.control x m) ∨ Dropped r (r.control x m) := by
  unfold control
  split
  · exact result_effect r x m
  · exact push_effect r x m

end Runtime

/-! ## The history of a run -/

structure Watched where
  rt : Runtime
  /-- Tickets the cell has stored as the position of its leg. -/
  recorded : List Ticket := []
  /-- Tickets the runtime has been shown since it was built or last unpaired. -/
  noticed : List Ticket := []
  /-- Recorded tickets that a processed snapshot has shown to be closed. -/
  closed : List Ticket := []

namespace Watched

def recordedBy : RuntimeLabel → List Ticket
  | .cell (.exec (.saveLeg l)) => l.ticket.toList
  | _ => []

/-- The tickets a `leg_status` names, or a snapshot shows while an attempt is
unresolved. -/
def noticedBy (r : Runtime) : RuntimeLabel → List Ticket
  | .cell (.exec (.relay (.legStatus p))) => p.ticket.toList
  | .work _ =>
      match r.cell, r.agenda with
      | some w, .realized _ positions _ :: _ =>
          if w.attemptId?.isSome then positions.map Position.text else []
      | _, _ => []
  | _ => []

def closedBy (s : Watched) : RuntimeLabel → List Ticket
  | .work _ =>
      match s.rt.agenda with
      | .realized _ positions deals :: _ =>
          s.recorded.filter fun t =>
            decide (∀ p ∈ positions, p.text ≠ t) && decide (Books.Reports deals t)
      | _ => []
  | _ => []

/-- The memory of the runtime is gone, or belongs to no route. -/
def forgets (r' : Runtime) : RuntimeLabel → Bool
  | .rebuild _ => true
  | .control _ _ => !r'.hasCell
  | _ => false

def after (s : Watched) (l : RuntimeLabel) (r' : Runtime) : Watched where
  rt := r'
  recorded := s.recorded ++ recordedBy l
  noticed := if forgets r' l then [] else s.noticed ++ noticedBy s.rt l
  closed := s.closed ++ s.closedBy l

inductive Step (s : Watched) (l : RuntimeLabel) : Watched → Prop where
  | mk {r' : Runtime} (h : Runtime.Step s.rt l r') : Step s l (s.after l r')

def init (workerId : Nat) (options : Options) : Watched := { rt := .init workerId options }

/-- The ticket has its row. -/
def Charged (r : Runtime) (t : Ticket) : Prop := ∃ row ∈ r.pnl, row.ticket = t

/-- The ticket has its row, or the row is about to be stored. -/
def Due (r : Runtime) (t : Ticket) : Prop :=
  Charged r t ∨ ∃ f day, Task.record f day ∈ r.agenda ∧ f.ticket = t

instance (r : Runtime) (t : Ticket) : Decidable (Charged r t) :=
  inferInstanceAs (Decidable (∃ row ∈ r.pnl, row.ticket = t))

def recording (r : Runtime) : Bool :=
  r.agenda.any fun task => match task with
    | .record .. => true
    | _ => false

/--
The condition on a step: a ticket that a snapshot shows to be closed has been
noticed, and no charge is lost between its computation and its row.
-/
def Attended (s : Watched) : RuntimeLabel → Prop
  | .work script => ∀ t ∈ s.closedBy (.work script), Charged s.rt t ∨ t ∈ s.noticed
  | .rebuild _ => recording s.rt = false
  | _ => True

instance (s : Watched) (l : RuntimeLabel) : Decidable (s.Attended l) := by
  unfold Attended
  split <;> infer_instance

structure Balanced (s : Watched) : Prop where
  once : (s.rt.pnl.map PnlRow.ticket).Nodup
  noticed : ∀ t ∈ s.noticed, s.rt.books.owns t = true ∨ Due s.rt t
  reported : ∀ t ∈ s.rt.books.reported, Due s.rt t
  closed : ∀ t ∈ s.closed, Due s.rt t

theorem recording_false {r : Runtime} (h : recording r = false) {t : Ticket}
    (hd : Due r t) :
    Charged r t := by
  rcases hd with hd | ⟨f, day, hf, -⟩
  · exact hd
  · rw [recording, List.any_eq_false] at h
    exact absurd rfl (h _ hf)

theorem Due.mono {r r' : Runtime} {t : Ticket} (h : Due r t) (hpnl : r'.pnl = r.pnl)
    (hagenda : ∀ f day, Task.record f day ∈ r.agenda → Task.record f day ∈ r'.agenda) :
    Due r' t := by
  rcases h with ⟨row, hrow, ht⟩ | ⟨f, day, hf, ht⟩
  · exact .inl ⟨row, by rwa [hpnl], ht⟩
  · exact .inr ⟨f, day, hagenda f day hf, ht⟩

/-- A step that leaves the books, the rows and the agenda alone. -/
theorem Balanced.quiet {s : Watched} {l : RuntimeLabel} {r' : Runtime} (h : Balanced s)
    (hpnl : r'.pnl = s.rt.pnl) (hbooks : r'.books = s.rt.books)
    (hagenda : ∀ f day, Task.record f day ∈ s.rt.agenda → Task.record f day ∈ r'.agenda)
    (hnoticed : noticedBy s.rt l = []) (hclosed : s.closedBy l = []) :
    Balanced (s.after l r') where
  once := by
    show (r'.pnl.map _).Nodup
    rw [hpnl]
    exact h.once
  noticed := by
    intro t ht
    rw [after, hnoticed, List.append_nil] at ht
    dsimp only at ht
    split at ht
    · cases ht
    · refine (h.noticed t ht).imp (fun howns => ?_) fun hdue => hdue.mono hpnl hagenda
      show r'.books.owns t = true
      rwa [hbooks]
  reported := by
    intro t ht
    have ht' : t ∈ s.rt.books.reported := by rwa [← hbooks]
    exact (h.reported t ht').mono hpnl hagenda
  closed := by
    intro t ht
    rw [after, hclosed, List.append_nil] at ht
    exact (h.closed t ht).mono hpnl hagenda

theorem not_recorded {r : Runtime} (h : r.agenda = []) {t : Ticket} (hd : Due r t) :
    Charged r t :=
  recording_false (by simp [recording, h]) hd

theorem Balanced.cell {s : Watched} {l : Label} {p : Proc} (h : Balanced s) :
    Balanced (s.after (.cell l) { s.rt with proc := p, books := s.rt.noted l }) := by
  have other (hnoted : s.rt.noted l = s.rt.books) (hn : noticedBy s.rt (.cell l) = []) :
      Balanced (s.after (.cell l) { s.rt with proc := p, books := s.rt.noted l }) :=
    h.quiet rfl hnoted (fun _ _ hf => hf) hn rfl
  cases l with
  | exec a =>
      cases a with
      | relay m =>
          refine ⟨h.once, ?_, ?_, ?_⟩
          · intro t ht
            rcases List.mem_append.1 (show t ∈ s.noticed ++ _ from ht) with hold | hnew
            · exact (h.noticed t hold).imp_left (Books.observe_owns m)
            · cases m with
              | legStatus q =>
                  have hq : q.ticket = some t := by simpa [noticedBy] using hnew
                  exact (Books.observe_noticed hq).imp_right (h.reported t)
              | _ => cases hnew
          · intro t ht
            exact h.reported t (by rwa [← Books.observe_reported m])
          · intro t ht
            refine h.closed t ?_
            rcases List.mem_append.1 (show t ∈ s.closed ++ _ from ht) with hold | hnew
            · exact hold
            · cases hnew
      | _ => exact other rfl rfl
  | _ => exact other rfl rfl

theorem insertRealized_mem (rows : List PnlRow) (row : PnlRow) :
    ∃ r ∈ insertRealized rows row, r.ticket = row.ticket := by
  unfold insertRealized
  split
  · next hold =>
      obtain ⟨r, hr, ht⟩ := List.any_eq_true.1 hold
      exact ⟨r, hr, of_decide_eq_true ht⟩
  · exact ⟨row, List.mem_append_right _ (List.mem_singleton.2 rfl), rfl⟩

theorem insertRealized_keeps {rows : List PnlRow} {r : PnlRow} (h : r ∈ rows)
    (row : PnlRow) :
    r ∈ insertRealized rows row := by
  unfold insertRealized
  split
  · exact h
  · exact List.mem_append_left _ h

theorem insertRealized_nodup {rows : List PnlRow} (h : (rows.map PnlRow.ticket).Nodup)
    (row : PnlRow) : ((insertRealized rows row).map PnlRow.ticket).Nodup := by
  unfold insertRealized
  split
  · exact h
  · next hnew =>
      rw [List.map_append, List.nodup_append]
      refine ⟨h, List.nodup_singleton _, ?_⟩
      rintro t ht _ hu rfl
      obtain ⟨r, hr, rfl⟩ := List.mem_map.1 ht
      exact hnew (List.any_eq_true.2 ⟨r, hr, by simpa using List.mem_singleton.1 hu⟩)

theorem Balanced.record {s : Watched} {w : World} {f : Realized} {day : Nat}
    {rest : List Task} {script : Script} (h : Balanced s)
    (hagenda : s.rt.agenda = .record f day :: rest) :
    Balanced (s.after (.work script) (s.rt.work w script (.record f day) rest)) := by
  have keep : ∀ t, Due s.rt t → Due (s.rt.work w script (.record f day) rest) t := by
    rintro t (⟨row, hrow, ht⟩ | ⟨f', day', hf, ht⟩)
    · exact .inl ⟨row, insertRealized_keeps hrow _, ht⟩
    · rw [hagenda] at hf
      rcases List.mem_cons.1 hf with heq | hf
      · cases heq
        obtain ⟨row, hrow, hrt⟩ := insertRealized_mem s.rt.pnl ⟨f.ticket, day, f.amount⟩
        exact .inl ⟨row, hrow, hrt.trans ht⟩
      · exact .inr ⟨f', day', List.mem_cons_of_mem _ hf, ht⟩
  have hnoticed : noticedBy s.rt (.work script) = [] := by
    simp only [noticedBy, hagenda]
    split <;> simp_all
  have hclosed : s.closedBy (.work script) = [] := by simp [closedBy, hagenda]
  refine ⟨insertRealized_nodup h.once _, ?_, fun t ht => keep t (h.reported t ht), ?_⟩
  · intro t ht
    rw [after, hnoticed, List.append_nil] at ht
    exact (h.noticed t ht).imp_right (keep t)
  · intro t ht
    rw [after, hclosed, List.append_nil] at ht
    exact keep t (h.closed t ht)

theorem Balanced.realized {s : Watched} {w : World} {day : Nat} {positions : List Position}
    {deals : Ticket → Option (List Deal)} {rest : List Task} {script : Script}
    (h : Balanced s) (hw : s.rt.cell = some w)
    (hagenda : s.rt.agenda = .realized day positions deals :: rest)
    (hok : s.Attended (.work script)) :
    Balanced (s.after (.work script)
      (s.rt.work w script (.realized day positions deals) rest)) := by
  have keep : ∀ t, Due s.rt t →
      Due (s.rt.work w script (.realized day positions deals) rest) t := by
    refine fun t ht => ht.mono rfl fun f day' hf => ?_
    rw [hagenda] at hf
    exact List.mem_append_right _ (by simpa using hf)
  have fact : ∀ t, t ∈ Books.tickets
      (s.rt.books.realizedLossFacts positions w.attemptId? deals).2 →
      Due (s.rt.work w script (.realized day positions deals) rest) t := by
    intro t ht
    obtain ⟨f, hf, rfl⟩ := List.mem_map.1 ht
    exact .inr ⟨f, day, List.mem_append_left _ (List.mem_map.2 ⟨f, hf, rfl⟩), rfl⟩
  refine ⟨h.once, ?_, ?_, ?_⟩
  · intro t ht
    rcases List.mem_append.1 (show t ∈ s.noticed ++ _ from ht) with hold | hnew
    · rcases h.noticed t hold with howns | hdue
      · exact (Books.facts_owns howns).imp_right (fact t)
      · exact .inr (keep t hdue)
    · simp only [noticedBy, hw, hagenda] at hnew
      split at hnew
      · next hattempt =>
          obtain ⟨p, hp, rfl⟩ := List.mem_map.1 hnew
          obtain ⟨i, hi⟩ := Option.isSome_iff_exists.1 hattempt
          show (s.rt.books.realizedLossFacts positions w.attemptId?
              deals).1.owns _ = true ∨ _
          have hfact := fact p.text
          rw [hi] at hfact ⊢
          rcases @Books.facts_shown s.rt.books deals _ i _ hp with h' | h'
          · exact h'.imp_right hfact
          · exact .inr (keep _ (h.reported _ h'))
      · cases hnew
  · intro t ht
    rcases Books.facts_reported ht with hold | hnew
    · exact keep t (h.reported t hold)
    · exact fact t hnew
  · intro t ht
    rcases List.mem_append.1 (show t ∈ s.closed ++ _ from ht) with hold | hnew
    · exact keep t (h.closed t hold)
    · rcases hok t hnew with hcharged | hnoticed
      · exact keep t (.inl hcharged)
      · simp only [closedBy, hagenda, List.mem_filter, Bool.and_eq_true,
          decide_eq_true_eq] at hnew
        rcases h.noticed t hnoticed with howns | hdue
        · exact fact t (Books.facts_closed howns hnew.2.1 hnew.2.2)
        · exact keep t hdue

theorem Balanced.control {s : Watched} (h : Balanced s) (x : Answers) (m : Control)
    (hidle : s.rt.idle = true) : Balanced (s.after (.control x m) (s.rt.control x m)) := by
  have hagenda : s.rt.agenda = [] := by
    rw [Runtime.idle, Bool.and_eq_true] at hidle
    exact List.isEmpty_iff.1 hidle.1
  have none (f : Realized) (day : Nat) (hf : Task.record f day ∈ s.rt.agenda) :
      Task.record f day ∈ (s.rt.control x m).agenda := by
    rw [hagenda] at hf
    cases hf
  rcases s.rt.control_effect x m with hcalm | hdrop
  · exact h.quiet hcalm.pnl hcalm.books none rfl rfl
  · refine ⟨?_, ?_, ?_, ?_⟩
    · show ((s.rt.control x m).pnl.map _).Nodup
      rw [hdrop.pnl]
      exact h.once
    · intro t ht
      simp [after, forgets, hdrop.cell] at ht
    · intro t ht
      have ht' : t ∈ s.rt.books.reported := by rw [← hdrop.reported]; exact ht
      exact (h.reported t ht').mono hdrop.pnl none
    · intro t ht
      rcases List.mem_append.1 (show t ∈ s.closed ++ _ from ht) with hold | hnew
      · exact (h.closed t hold).mono hdrop.pnl none
      · cases hnew

theorem rebuild_fresh (r : Runtime) (x : Answers) :
    (r.rebuild x).pnl = r.pnl ∧ (r.rebuild x).books = {} := by
  unfold Runtime.rebuild
  dsimp only
  split
  · exact ⟨rfl, rfl⟩
  · obtain ⟨hpnl, hbooks, -⟩ := Runtime.calm_constructCell _ x _
    exact ⟨hpnl, hbooks⟩

theorem Balanced.rebuild {s : Watched} (h : Balanced s) (x : Answers)
    (hok : recording s.rt = false) : Balanced (s.after (.rebuild x) (s.rt.rebuild x)) := by
  obtain ⟨hpnl, hbooks⟩ := rebuild_fresh s.rt x
  refine ⟨?_, ?_, ?_, ?_⟩
  · show ((s.rt.rebuild x).pnl.map _).Nodup
    rw [hpnl]
    exact h.once
  · intro t ht
    cases ht
  · intro t ht
    have ht' : t ∈ (s.rt.rebuild x).books.reported := ht
    rw [hbooks] at ht'
    cases ht'
  · intro t ht
    rcases List.mem_append.1 (show t ∈ s.closed ++ _ from ht) with hold | hnew
    · obtain ⟨row, hrow, ht⟩ := recording_false hok (h.closed t hold)
      exact .inl ⟨row, by show row ∈ (s.rt.rebuild x).pnl; rwa [hpnl], ht⟩
    · cases hnew

theorem keepRouteState_books (r : Runtime) (w : World) :
    (r.keepRouteState w).pnl = r.pnl ∧ (r.keepRouteState w).books = r.books := by
  unfold Runtime.keepRouteState
  split
  · exact ⟨rfl, rfl⟩
  · dsimp only
    generalize (if w.mem.aux.unpairing = true then RouteState.unpairing
      else .active) = state
    split
    · split <;> exact ⟨rfl, rfl⟩
    · exact ⟨rfl, rfl⟩

/-- A task that has nothing to do with the books. -/
theorem Balanced.task {s : Watched} {w : World} {task : Task} {rest : List Task}
    {script : Script} (h : Balanced s) (hagenda : s.rt.agenda = task :: rest)
    (htask : (∃ c, task = .call c) ∨ task = .keepState) :
    Balanced (s.after (.work script) (s.rt.work w script task rest)) := by
  have hrest : ∀ f day, Task.record f day ∈ s.rt.agenda → Task.record f day ∈ rest := by
    intro f day hf
    rw [hagenda] at hf
    rcases htask with ⟨c, rfl⟩ | rfl <;> simpa using hf
  have hnoticed : noticedBy s.rt (.work script) = [] := by
    simp only [noticedBy, hagenda]
    rcases htask with ⟨c, rfl⟩ | rfl <;> split <;> simp_all
  have hclosed : s.closedBy (.work script) = [] := by
    rcases htask with ⟨c, rfl⟩ | rfl <;> simp [closedBy, hagenda]
  rcases htask with ⟨c, rfl⟩ | rfl
  · exact h.quiet rfl rfl hrest hnoticed hclosed
  · obtain ⟨hpnl, hbooks⟩ := keepRouteState_books s.rt w
    exact h.quiet hpnl hbooks hrest hnoticed hclosed

theorem Balanced.step {s s' : Watched} {l : RuntimeLabel} (h : Balanced s)
    (hok : s.Attended l) (hstep : Step s l s') : Balanced s' := by
  obtain ⟨hstep⟩ := hstep
  cases hstep with
  | cell hl hturn hp => exact h.cell
  | snapshot now day script v deals hw hagenda hread hfresh =>
      refine h.quiet rfl rfl (fun f day' hf => ?_) rfl rfl
      rw [hagenda] at hf
      cases hf
  | @work w task rest script hw hagenda hfresh =>
      cases task with
      | call c => exact h.task hagenda (.inl ⟨c, rfl⟩)
      | keepState => exact h.task hagenda (.inr rfl)
      | realized day positions deals => exact h.realized hw hagenda hok
      | record f day => exact h.record hagenda
  | control x m hidle => exact h.control x m hidle
  | rebuild x => exact h.rebuild x hok

theorem balanced_init (workerId : Nat) (options : Options) :
    Balanced (init workerId options) :=
  ⟨List.nodup_nil, (fun _ h => by cases h), (fun _ h => by cases h), fun _ h => by cases h⟩

/-- The rows a ticket has. -/
def rowsOf (r : Runtime) (t : Ticket) : List PnlRow := r.pnl.filter fun row =>
  decide (row.ticket = t)

theorem rowsOf_le_one {r : Runtime} (h : (r.pnl.map PnlRow.ticket).Nodup) (t : Ticket) :
    (rowsOf r t).length ≤ 1 := by
  have hle := List.nodup_iff_count_le_one.1 h t
  rw [List.count, List.countP_map, List.countP_eq_length_filter] at hle
  calc (rowsOf r t).length = (r.pnl.filter ((· == t) ∘ PnlRow.ticket)).length := by
        simp [rowsOf, Function.comp_def, beq_eq_decide]
    _ ≤ 1 := hle

/--
In every run in which each closed ticket has been noticed and no charge is
lost on its way to its row, no ticket is charged twice, and once a snapshot
that shows a recorded ticket closed has been processed the ticket has exactly
one row.
-/
theorem closed_leg_charged_once (workerId : Nat) (options : Options) (s : Watched)
    (h : Reach Step Attended (init workerId options) s) :
    (∀ t, (rowsOf s.rt t).length ≤ 1) ∧
      (s.rt.agenda = [] → ∀ t ∈ s.closed, (rowsOf s.rt t).length = 1) := by
  have hbalanced : Balanced s :=
    h.invariant (balanced_init workerId options) fun _ _ _ hs hok hstep =>
      hs.step hok hstep
  refine ⟨rowsOf_le_one hbalanced.once, fun hagenda t ht => ?_⟩
  obtain ⟨row, hrow, hrt⟩ := not_recorded hagenda (hbalanced.closed t ht)
  have hmem : row ∈ rowsOf s.rt t := List.mem_filter.2 ⟨hrow, by simpa using hrt⟩
  have hpos := List.length_pos_of_mem hmem
  have hle := rowsOf_le_one hbalanced.once t
  omega

/-! ### A closed leg -/

def next (s : Watched) (m : RuntimeMove) : Option (RuntimeLabel × Watched) :=
  (s.rt.next m).map fun p => (p.1, s.after p.1 p.2)

theorem next_step {s s' : Watched} {m : RuntimeMove} {l : RuntimeLabel}
    (h : s.next m = some (l, s')) : Step s l s' := by
  obtain ⟨⟨l', r'⟩, hr, heq⟩ := Option.map_eq_some_iff.1 h
  cases heq
  exact .mk (Runtime.next_step hr)

theorem plays (ok : Watched → RuntimeLabel → Prop)
    [∀ s l, Decidable (ok s l)] (s : Watched) (ms : List RuntimeMove) (P : Watched → Bool)
    (h : (play ok next RuntimeMove.optional s ms).any P = true) :
    ∃ s', Reach Step ok s s' ∧ P s' = true := by
  have hnext : ∀ s m l s', next s m = some (l, s') → Step s l s' :=
    fun _ _ _ _ h => next_step h
  exact play_any hnext P h

/-- A snapshot is handled, and then what it means for the books. -/
def snapshots (now : Nat) (positions : List Position)
    (deals : Ticket → Option (List Deal)) :
    List RuntimeMove :=
  [.snapshot now 0 { reads := [some ⟨[], positions⟩], leaderTick := some 1,
                     followerTick := some 1 }
      deals] ++ Sample.executed ++ Sample.worked ++ Sample.worked ++ Sample.worked

/-- The history holds an exit of the position 55 at a loss. -/
def closedAtLoss (t : Ticket) : Option (List Deal) :=
  if t = .broker 55 then some [⟨some 0, [0]⟩, ⟨some 1, [-20]⟩] else none

/-- The books are settled with the ticket 55 closed, and it has `n` rows. -/
def settledWith (n : Nat) (s : Watched) : Bool :=
  s.rt.agenda.isEmpty && decide (Ticket.broker 55 ∈ s.closed) &&
    decide ((rowsOf s.rt (.broker 55)).length = n)

theorem settledWith_iff {n : Nat} {s : Watched} :
    settledWith n s = true ↔
      s.rt.agenda = [] ∧ .broker 55 ∈ s.closed ∧
      (rowsOf s.rt (.broker 55)).length = n := by
  simp [settledWith, and_assoc]

/-- The position of the entry is shown, then closed and gone. -/
theorem closed_entry_charged_once :
    ∃ s, Reach Step Attended (init 1 Sample.leaderOptions) s ∧ s.rt.agenda = [] ∧
      .broker 55 ∈ s.closed ∧ (rowsOf s.rt (.broker 55)).length = 1 := by
  obtain ⟨s, hreach, hs⟩ := plays Attended (init 1 Sample.leaderOptions)
    (Sample.entered ++ snapshots 3 [Sample.entryHeld] (fun _ => none) ++
      snapshots 4 [] closedAtLoss) (settledWith 1) (by decide +kernel)
  obtain ⟨hagenda, hclosed, -⟩ := settledWith_iff.1 hs
  exact ⟨s, hreach, hagenda, hclosed,
    (closed_leg_charged_once 1 Sample.leaderOptions s hreach).2 hagenda _ hclosed⟩

/-- The session is lost while the position is open, and the position closes before the
runtime that is built again sees it. -/
theorem reconnect_loses_charge :
    ¬ ∀ workerId options s, Reach Step (fun _ _ => True) (init workerId options) s →
      s.rt.agenda = [] → ∀ t ∈ s.closed, (rowsOf s.rt t).length = 1 := by
  intro h
  obtain ⟨s, hreach, hs⟩ := plays (fun _ _ => True) (init 1 Sample.leaderOptions)
    (Sample.entered ++ snapshots 3 [Sample.entryHeld] (fun _ => none) ++ [.rebuild {}] ++
      Sample.worked ++ Sample.worked ++ snapshots 4 [] closedAtLoss)
    (settledWith 0) (by decide +kernel)
  obtain ⟨hagenda, hclosed, hzero⟩ := settledWith_iff.1 hs
  have hone := h _ _ s hreach hagenda _ hclosed
  omega

end Watched

end PairCell
