import PairCell.Lib.Runs
import PairCell.Market.Batches

/-!
# Retention of superseded plans

The rows of `cell_sizing_plans` under refreshes, purges and restarts within one
universe generation and under one policy: the functions of a cell's own plans,
on the part of the cell they read and write and the time of its last transition.
Times are whole microseconds, the retention is a number of seconds: a purge
rounds it, the validation does not.
-/

namespace PairCell.Market

open Lib Cell

/-- The plan store of one Worker. -/
structure Shelf where
  role : Role
  generation : Nat
  policyHash : Nat
  /-- `plan_retention_seconds` -/
  retention : Rat
  now : Nat
  lastTransition : Nat
  planRows : List PlanRow
  plans : List SizingPlan
  planIndex : List SizingPlan
  planSetVersion : PlanSetVersion
  suspendedProducts : List String
  plansPolicyHash : Option Nat
  attempts : List AttemptRow
  attempt : Option Attempt
  -- no state of the Worker: the plans superseded and not installed again, with the time
  superseded : List (SizingPlan × Nat)

namespace Shelf

/-- The retention in microseconds. -/
def window (s : Shelf) : Rat := retentionWindow s.retention

def cutoff (s : Shelf) : Int := purgeCutoff s.window s.now

def expired (s : Shelf) (row : PlanRow) : Bool :=
  expiredRow (s.attempt.map (·.planVersionOf s.role)) s.cutoff row

def purgeExpiredPlanVersions (s : Shelf) : Shelf :=
  { s with
    planRows := s.planRows.filter fun row => !s.expired row
    planIndex := s.planIndex.filter fun p =>
      !(s.planRows.filter s.expired).any (·.plan = p) }

def unchangedPlans (s : Shelf) (plans : List SizingPlan)
    (suspended : List String) : Bool :=
  samePlanSet s.planSetVersion s.plansPolicyHash s.suspendedProducts plans
    s.policyHash suspended

/-- The new plan set before the purge. -/
def installed (s : Shelf) (plans : List SizingPlan) (suspended : List String) : Shelf :=
  { s with
    planRows := refreshedRows s.planRows s.generation s.now plans
    planIndex := plans.foldl (fun index p => index.insert p) s.planIndex
    plans := plans
    suspendedProducts := suspended
    plansPolicyHash := some s.policyHash
    superseded := ((s.plans.filter (· ∉ plans)).map fun p => (p, s.now)) ++
      s.superseded.filter (·.1 ∉ plans) }

/-- The transition of the refresh is recorded last. -/
def installPlans (s : Shelf) (plans : List SizingPlan) (suspended : List String) : Shelf :=
  if s.unchangedPlans plans suspended then s
  else
    { (s.installed plans suspended).purgeExpiredPlanVersions with
      planSetVersion := planSetVersionOf (sortedPlans plans)
      lastTransition := s.now }

def refreshSizingPlans (s : Shelf) (built : BuiltPlans) : Shelf :=
  s.installPlans (built.plans.map fun p => { p with universeGeneration := s.generation })
    built.suspended

def retainedPlan (s : Shelf) (version : PlanVersion) : Option SizingPlan :=
  retainedOf s.planRows s.window s.now version

def planForValidation (s : Shelf) (productId : String) (direction : Direction)
    (version : PlanVersion) : Option SizingPlan :=
  validPlan s.plans (s.retainedPlan version) productId direction version

/-! ## Attempts -/

/-- Whether the own plan that the attempt names is one it may name: the current one for a
leader, also a retained one for a follower. -/
def sizes (s : Shelf) (a : Attempt) : Bool :=
  match s.role with
  | .leader =>
      decide (planOf s.plans a.productId a.leaderDirection = some a.leaderPlanVersion)
  | .follower =>
      (s.planForValidation a.productId a.followerDirection a.followerPlanVersion).isSome

def openAttempt (s : Shelf) (a : Attempt) : Shelf :=
  if s.attempt.isNone ∧ s.sizes a ∧
    ¬s.attempts.any (·.attempt.attemptId = a.attemptId) then
    { s with attempt := some a, attempts := ⟨a, s.now, false⟩ :: s.attempts,
             lastTransition := s.now }
  else s

/-- `_persist_rejected_attempt` -/
def refuseAttempt (s : Shelf) (a : Attempt) : Shelf :=
  if s.attempts.any (·.attempt.attemptId = a.attemptId) then s
  else { s with attempts := ⟨a, s.now, true⟩ :: s.attempts, lastTransition := s.now }

def terminateAttempt (s : Shelf) : Shelf :=
  match s.attempt with
  | none => s
  | some a =>
      { s with
        attempt := none
        attempts := terminatedRows s.attempts a }

/-! ## Runs -/

/-- A Worker built again over the database; its time is that of the last transition. -/
def reopen (s : Shelf) : Shelf :=
  { s with
    now := s.lastTransition
    plans := loadedPlans s.planRows s.generation
    planIndex := (s.planRows.filter (·.generation = s.generation)).map (·.plan)
    planSetVersion := planSetVersionOf (sortedPlans (loadedPlans s.planRows s.generation))
    suspendedProducts := []
    plansPolicyHash := none
    attempt := (newestAttempt s.attempts).bind fun row =>
      if row.terminal then none else some row.attempt }

inductive Step where
  | observe (now : Nat)
  -- any other transition that is recorded
  | transition
  | refresh (built : BuiltPlans)
  | restart
  | opens (a : Attempt)
  | refuse (a : Attempt)
  | terminate

def next (s : Shelf) : Step → Shelf
  | .observe now => { s with now := max s.now now }
  | .transition => { s with lastTransition := s.now }
  | .refresh built => s.refreshSizingPlans built
  | .restart => s.reopen
  | .opens a => s.openAttempt a
  | .refuse a => s.refuseAttempt a
  | .terminate => s.terminateAttempt

def run (s : Shelf) (steps : List Step) : Shelf := steps.foldl next s

/-- Right after the universe of this generation is installed. -/
structure Fresh (s : Shelf) : Prop where
  stamped : s.lastTransition ≤ s.now
  distinct : (s.planRows.map (·.plan)).Nodup
  built : ∀ row ∈ s.planRows, row.generation = row.plan.universeGeneration
  earlier : ∀ row ∈ s.planRows, row.generation ≠ s.generation
  plans : s.plans = []
  superseded : s.superseded = []
  /-- An open attempt names a plan that has a row. -/
  followed : ∀ row ∈ s.attempts, row.terminal = false → s.attempt = some row.attempt
  named : ∀ a, s.attempt = some a →
      ∃ own ∈ s.planRows, own.plan.version = a.planVersionOf s.role

/-- What retention promises. -/
structure Retains (s : Shelf) : Prop where
  accepted : ∀ p t, (p, t) ∈ s.superseded → (s.now : Rat) < t + s.window →
    s.planForValidation p.productId p.direction p.version = some p
  refused : ∀ p t, (p, t) ∈ s.superseded → t + s.window < s.now →
    s.planForValidation p.productId p.direction p.version = none
  unused : ∀ p t, (p, t) ∈ s.superseded → ∀ productId direction,
    planOf s.plans productId direction ≠ some p
  referenced : ∀ row ∈ s.attempts, row.terminal = false →
    ∃ own ∈ s.planRows, own.plan.version = row.attempt.planVersionOf s.role

/-- No plan is superseded for as long as the rounded retention but not for the
retention. -/
def PurgesInTime (s : Shelf) : Prop :=
  ∀ t ∈ s.now :: s.planRows.filterMap (·.supersededAt),
    (t : Int) ≤ s.cutoff → (t : Rat) + s.window ≤ s.now

instance (s : Shelf) : Decidable s.PurgesInTime := by
  unfold PurgesInTime
  infer_instance

/-- The unresolved attempt is the newest one on record. -/
def Unhidden (s : Shelf) : Prop :=
  ∀ row ∈ s.attempts, row.terminal = false → newestAttempt s.attempts = some row

instance (s : Shelf) : Decidable s.Unhidden := by
  unfold Unhidden
  infer_instance

def Fair (s : Shelf) : Step → Prop
  | .refresh _ => s.PurgesInTime
  | .restart => s.Unhidden
  | _ => True

instance (s : Shelf) (step : Step) : Decidable (s.Fair step) := by
  cases step <;> unfold Fair <;> infer_instance

/-! ## Rows -/

section Rows

variable {rows : List PlanRow} {generation now : Nat} {plans new : List SizingPlan}
    {p : SizingPlan}
  {row : PlanRow}

def Built (rows : List PlanRow) : Prop :=
  ∀ row ∈ rows, row.generation = row.plan.universeGeneration

theorem mem_upsertPlanRow (hrows : Built rows) (hp : p.universeGeneration = generation) :
    row ∈ upsertPlanRow rows generation p ↔ (row ∈ rows ∧ row.plan ≠ p) ∨
      row = ⟨p, generation, none⟩ := by
  unfold upsertPlanRow
  split
  · next hany =>
      obtain ⟨known, hknown, hplan⟩ := List.any_eq_true.1 hany
      have hplan : known.plan = p := of_decide_eq_true hplan
      have hgeneration : known.generation = generation :=
        (hrows known hknown).trans (hplan ▸ hp)
      rw [List.mem_map]
      constructor
      · rintro ⟨old, hold, rfl⟩
        by_cases hsame : old.plan = p
        · right
          rw [if_pos hsame, ← hsame, hrows old hold, hsame, hp]
        · left
          rw [if_neg hsame]
          exact ⟨hold, hsame⟩
      · rintro (⟨hold, hne⟩ | rfl)
        · exact ⟨row, hold, if_neg hne⟩
        · exact ⟨known, hknown, by rw [if_pos hplan, hplan, hgeneration]⟩
  · next hany =>
      have hnone : ∀ known ∈ rows, known.plan ≠ p := by
        intro known hknown hplan
        exact hany (List.any_eq_true.2 ⟨known, hknown, decide_eq_true hplan⟩)
      rw [List.mem_append, List.mem_singleton]
      constructor
      · rintro (hold | rfl)
        · exact .inl ⟨hold, hnone row hold⟩
        · exact .inr rfl
      · rintro (⟨hold, -⟩ | rfl)
        · exact .inl hold
        · exact .inr rfl

theorem built_upsertPlanRow (hrows : Built rows) (hp : p.universeGeneration = generation) :
    Built (upsertPlanRow rows generation p) := by
  intro row hrow
  obtain ⟨hold, -⟩ | rfl := (mem_upsertPlanRow hrows hp).1 hrow
  · exact hrows row hold
  · exact hp.symm

theorem distinct_upsertPlanRow (h : (rows.map (·.plan)).Nodup) :
    ((upsertPlanRow rows generation p).map (·.plan)).Nodup := by
  unfold upsertPlanRow
  split
  · have hsame :
        (rows.map fun row => if row.plan = p then
          { row with supersededAt := none } else row).map
        (·.plan) = rows.map (·.plan) := by
      rw [List.map_map]
      refine List.map_congr_left fun row _ => ?_
      simp only [Function.comp_apply]
      split <;> rfl
    rw [hsame]
    exact h
  · next hany =>
      rw [List.map_append, List.nodup_append]
      refine ⟨h, by simp, ?_⟩
      intro q hq q' hq' heq
      obtain ⟨row, hrow, rfl⟩ := List.mem_map.1 hq
      obtain rfl : q' = p := by simpa using hq'
      exact hany (List.any_eq_true.2 ⟨row, hrow, decide_eq_true heq⟩)

theorem built_foldl_upsert (hrows : Built rows)
    (hplans : ∀ p ∈ plans, p.universeGeneration = generation) :
    Built (plans.foldl (upsertPlanRow · generation) rows) := by
  induction plans generalizing rows with
  | nil => exact hrows
  | cons p plans ih =>
      exact ih (built_upsertPlanRow hrows (hplans p List.mem_cons_self)) fun q hq =>
        hplans q (List.mem_cons_of_mem _ hq)

theorem mem_foldl_upsert (hrows : Built rows)
    (hplans : ∀ p ∈ plans, p.universeGeneration = generation) :
    row ∈ plans.foldl (upsertPlanRow · generation) rows ↔
      (row ∈ rows ∧ row.plan ∉ plans) ∨ ∃ p ∈ plans, row = ⟨p, generation, none⟩ := by
  induction plans generalizing rows with
  | nil => simp
  | cons p plans ih =>
      have hp := hplans p List.mem_cons_self
      rw [List.foldl_cons, ih (built_upsertPlanRow hrows hp) fun q hq =>
        hplans q (List.mem_cons_of_mem _ hq), mem_upsertPlanRow hrows hp]
      constructor
      · rintro (⟨⟨hold, hne⟩ | rfl, hnot⟩ | ⟨q, hq, rfl⟩)
        · exact .inl ⟨hold, by simp [hne, hnot]⟩
        · exact .inr ⟨p, List.mem_cons_self, rfl⟩
        · exact .inr ⟨q, List.mem_cons_of_mem _ hq, rfl⟩
      · rintro (⟨hold, hnot⟩ | ⟨q, hq, rfl⟩)
        · rw [List.mem_cons, not_or] at hnot
          exact .inl ⟨.inl ⟨hold, hnot.1⟩, hnot.2⟩
        · by_cases hq' : q ∈ plans
          · exact .inr ⟨q, hq', rfl⟩
          · obtain rfl | hq := List.mem_cons.1 hq
            · exact .inl ⟨.inr rfl, hq'⟩
            · exact absurd hq hq'

theorem distinct_foldl_upsert (h : (rows.map (·.plan)).Nodup) :
    ((plans.foldl (upsertPlanRow · generation) rows).map (·.plan)).Nodup := by
  induction plans generalizing rows with
  | nil => exact h
  | cons p plans ih => exact ih (distinct_upsertPlanRow h)

theorem mem_supersede : row ∈ supersede rows generation now new ↔
    ∃ old ∈ rows, row = if old.generation = generation ∧ old.supersededAt = none ∧
      old.plan ∉ new then
      { old with supersededAt := some now } else old := by
  simp only [supersede, List.mem_map, eq_comm]

theorem plans_supersede : (supersede rows generation now new).map (·.plan) =
    rows.map (·.plan) := by
  rw [supersede, List.map_map]
  refine List.map_congr_left fun row _ => ?_
  simp only [Function.comp_apply]
  split <;> rfl

theorem built_supersede (h : Built rows) : Built (supersede rows generation now new) := by
  intro row hrow
  obtain ⟨old, hold, rfl⟩ := mem_supersede.1 hrow
  split
  · exact h old hold
  · exact h old hold

theorem row_unique (h : (rows.map (·.plan)).Nodup) {row row' : PlanRow} (hrow : row ∈ rows)
    (hrow' : row' ∈ rows) (heq : row.plan = row'.plan) : row = row' :=
  List.inj_on_of_nodup_map h hrow hrow' heq

end Rows

/-! ## Validation -/

section Validation

variable {s : Shelf} {p : SizingPlan} {t generation : Nat} {row : PlanRow}

theorem find_row (h : (s.planRows.map (·.plan)).Nodup) (hrow : row ∈ s.planRows) :
    s.planRows.find? (·.plan.version = row.plan.version) = some row := by
  cases hfind : s.planRows.find? (·.plan.version = row.plan.version) with
  | none => exact absurd (List.find?_eq_none.1 hfind row hrow) (by simp)
  | some found =>
      have hfound := List.find?_some hfind
      have hplan : found.plan = row.plan := of_decide_eq_true hfound
      rw [row_unique h (List.mem_of_find?_eq_some hfind) hrow hplan]

/-- A plan that is not current is validated as a retained one. -/
theorem planForValidation_superseded (h : p ∉ s.plans) :
    s.planForValidation p.productId p.direction p.version =
      (s.retainedPlan p.version).filter fun q => q.key = (p.productId, p.direction) := by
  unfold planForValidation validPlan
  cases hcurrent : planOf s.plans p.productId p.direction with
  | none => rfl
  | some current =>
      have hne : current.version ≠ p.version := by
        intro heq
        have hmem := List.mem_of_find?_eq_some hcurrent
        rw [show current = p from heq] at hmem
        exact h hmem
      simp only [hne, if_false]

theorem retainedPlan_row (h : (s.planRows.map (·.plan)).Nodup)
    (hrow : ⟨p, generation, some t⟩ ∈ s.planRows) :
    s.retainedPlan p.version = if s.window < (s.now : Rat) - t then none else some p := by
  have hfind := find_row h hrow
  simp only [retainedPlan, retainedOf, hfind]

theorem retainedPlan_none (h : ∀ row ∈ s.planRows, row.plan ≠ p) :
    s.retainedPlan p.version = none := by
  have hfind : s.planRows.find? (·.plan.version = p.version) = none :=
    List.find?_eq_none.2 fun row hrow hversion => h row hrow (of_decide_eq_true hversion)
  simp only [retainedPlan, retainedOf, hfind]

/-- The named plan has a row, current or superseded. -/
theorem planForValidation_row
    (h : s.planForValidation productId direction version = some p)
    (hcurrent : ∀ q ∈ s.plans, ⟨q, s.generation, none⟩ ∈ s.planRows) :
    ∃ row ∈ s.planRows, row.plan.version = version := by
  have hretained : ∀ q, s.retainedPlan version = some q →
      ∃ row ∈ s.planRows, row.plan.version = version := by
    intro q hq
    unfold retainedPlan retainedOf at hq
    split at hq
    · next row hfind =>
        have hfound := List.find?_some hfind
        exact ⟨row, List.mem_of_find?_eq_some hfind, of_decide_eq_true hfound⟩
    · cases hq
  unfold planForValidation validPlan at h
  split at h
  · next current hplan =>
      split at h
      · next hversion => exact ⟨_,
          hcurrent current (List.mem_of_find?_eq_some hplan), hversion⟩
      · exact hretained p (Option.filter_eq_some_iff.1 h).1
  · exact hretained p (Option.filter_eq_some_iff.1 h).1

end Validation

/-! ## The invariant -/

structure Shelved (s : Shelf) : Prop where
  stamped : s.lastTransition ≤ s.now
  distinct : (s.planRows.map (·.plan)).Nodup
  built : Built s.planRows
  current : ∀ p, p ∈ s.plans ↔ ⟨p, s.generation, none⟩ ∈ s.planRows
  keys : (s.plans.map SizingPlan.key).Nodup
  apart : ∀ p t, (p, t) ∈ s.superseded → p ∉ s.plans
  /-- A superseded plan keeps its row until the retention is over. -/
  retained : ∀ p t, (p, t) ∈ s.superseded → ⟨p, s.generation, some t⟩ ∈ s.planRows ∨
    (∀ row ∈ s.planRows, row.plan ≠ p) ∧ t + s.window ≤ s.lastTransition
  followed : ∀ row ∈ s.attempts, row.terminal = false → s.attempt = some row.attempt
  named : ∀ a, s.attempt = some a →
      ∃ own ∈ s.planRows, own.plan.version = a.planVersionOf s.role

theorem Fresh.shelved {s : Shelf} (h : s.Fresh) : s.Shelved where
  stamped := h.stamped
  distinct := h.distinct
  built := h.built
  current p := by
    constructor
    · intro hp
      rw [h.plans] at hp
      cases hp
    · intro hrow
      exact absurd rfl (h.earlier _ hrow)
  keys := by simp [h.plans]
  apart p t hp := by
    rw [h.superseded] at hp
    cases hp
  retained p t hp := by
    rw [h.superseded] at hp
    cases hp
  followed := h.followed
  named := h.named

theorem Shelved.retains {s : Shelf} (h : s.Shelved) : s.Retains where
  accepted p t hp hbefore := by
    have hstamped : (s.lastTransition : Rat) ≤ s.now := by exact_mod_cast h.stamped
    obtain hrow | ⟨-, hover⟩ := h.retained p t hp
    · have hwithin : ¬s.window < (s.now : Rat) - t := by linarith
      rw [planForValidation_superseded (h.apart p t hp), retainedPlan_row h.distinct hrow,
        if_neg hwithin]
      simp [SizingPlan.key]
    · linarith
  refused p t hp hafter := by
    rw [planForValidation_superseded (h.apart p t hp)]
    obtain hrow | ⟨hgone, -⟩ := h.retained p t hp
    · have hover : s.window < (s.now : Rat) - t := by linarith
      rw [retainedPlan_row h.distinct hrow, if_pos hover]
      rfl
    · rw [retainedPlan_none hgone]
      rfl
  unused p t hp productId direction hcurrent :=
    h.apart p t hp (List.mem_of_find?_eq_some hcurrent)
  referenced row hrow hopen := h.named _ (h.followed row hrow hopen)

/-! ## The steps -/

section Steps

variable {s : Shelf} {plans : List SizingPlan} {suspended : List String} {row : PlanRow}

theorem mem_installed (h : s.Shelved)
    (hplans : ∀ p ∈ plans, p.universeGeneration = s.generation) :
    row ∈ (s.installed plans suspended).planRows ↔
      (∃ old ∈ s.planRows, old.plan ∉ plans ∧
        row = if old.generation = s.generation ∧ old.supersededAt = none then
          { old with supersededAt := some s.now } else old) ∨
      ∃ p ∈ plans, row = ⟨p, s.generation, none⟩ := by
  have hnew : plans.map (·.version) = plans := List.map_id plans
  simp only [installed, refreshedRows, hnew]
  rw [mem_foldl_upsert (built_supersede h.built) hplans]
  refine or_congr ?_ .rfl
  constructor
  · rintro ⟨hrow, hnot⟩
    obtain ⟨old, hold, rfl⟩ := mem_supersede.1 hrow
    have hold' : old.plan ∉ plans := by
      split at hnot
      · exact hnot
      · exact hnot
    exact ⟨old, hold, hold', by simp [hold']⟩
  · rintro ⟨old, hold, hnot, rfl⟩
    constructor
    · exact mem_supersede.2 ⟨old, hold, by simp [hnot]⟩
    · split
      · exact hnot
      · exact hnot

theorem distinct_installed (h : s.Shelved) :
    ((s.installed plans suspended).planRows.map (·.plan)).Nodup := by
  refine distinct_foldl_upsert ?_
  rw [plans_supersede]
  exact h.distinct

theorem built_installed (h : s.Shelved)
    (hplans : ∀ p ∈ plans, p.universeGeneration = s.generation) :
    Built (s.installed plans suspended).planRows := by
  have hnew : plans.map (·.version) = plans := List.map_id plans
  simp only [installed, refreshedRows, hnew]
  exact built_foldl_upsert (built_supersede h.built) hplans

theorem expired_iff : s.expired row = true ↔
    ∃ t, row.supersededAt = some t ∧
      s.attempt.map (·.planVersionOf s.role) ≠ some row.plan.version ∧
      (t : Int) ≤ s.cutoff := by
  unfold expired expiredRow
  cases row.supersededAt with
  | none => simp
  | some t => simp

/-- The rows after the purge: what is not expired. -/
theorem mem_purged : row ∈ s.purgeExpiredPlanVersions.planRows ↔
    row ∈ s.planRows ∧ s.expired row = false := by
  simp [purgeExpiredPlanVersions]

/-- What has been superseded keeps its row or is purged after its retention. -/
theorem kept_or_purged {p : SizingPlan} {generation t : Nat}
    (hdistinct : (s.planRows.map (·.plan)).Nodup)
    (hrow : ⟨p, generation, some t⟩ ∈ s.planRows)
    (hfair : (t : Int) ≤ s.cutoff → t + s.window ≤ s.now) :
    ⟨p, generation, some t⟩ ∈ s.purgeExpiredPlanVersions.planRows ∨
      (∀ row ∈ s.purgeExpiredPlanVersions.planRows, row.plan ≠ p) ∧
        t + s.window ≤ s.now := by
  cases hexpired : s.expired ⟨p, generation, some t⟩ with
  | false => exact .inl (mem_purged.2 ⟨hrow, hexpired⟩)
  | true =>
      right
      obtain ⟨t', ht', -, hcutoff⟩ := expired_iff.1 hexpired
      cases ht'
      refine ⟨fun row hrow' heq => ?_, hfair hcutoff⟩
      obtain ⟨hrow', hlives⟩ := mem_purged.1 hrow'
      rw [row_unique hdistinct hrow' hrow heq, hexpired] at hlives
      cases hlives

theorem Shelved.install (h : s.Shelved) (hfair : s.PurgesInTime)
    (hplans : ∀ p ∈ plans, p.universeGeneration = s.generation)
    (hkeys : (plans.map SizingPlan.key).Nodup) :
    (s.installPlans plans suspended).Shelved := by
  unfold installPlans
  split
  · exact h
  have hfresh : ∀ p ∈ plans, ⟨p, s.generation, none⟩ ∈
      (s.installed plans suspended).purgeExpiredPlanVersions.planRows := by
    intro p hp
    exact mem_purged.2 ⟨(mem_installed h hplans).2 (.inr ⟨p, hp, rfl⟩), rfl⟩
  exact
    { stamped := le_rfl
      distinct := (distinct_installed h).sublist (List.filter_sublist.map _)
      built := fun row hrow => built_installed h hplans row (mem_purged.1 hrow).1
      current := fun p => by
        constructor
        · exact hfresh p
        · intro hrow
          obtain ⟨old, hold, hnot, heq⟩ | ⟨q, hq, heq⟩ :=
            (mem_installed h hplans).1 (mem_purged.1 hrow).1
          · split at heq
            · exact absurd (congrArg PlanRow.supersededAt heq) (by simp)
            · next hold' =>
                rw [← heq] at hold'
                exact absurd ⟨rfl, rfl⟩ hold'
          · cases heq
            exact hq
      keys := hkeys
      apart := fun p t hp => by
        change p ∉ plans
        obtain hp | hp := List.mem_append.1 hp
        · obtain ⟨q, hq, heq⟩ := List.mem_map.1 hp
          cases heq
          simpa using (List.mem_filter.1 hq).2
        · simpa using (List.mem_filter.1 hp).2
      retained := fun p t hp => by
        obtain hp | hp := List.mem_append.1 hp
        · obtain ⟨q, hq, heq⟩ := List.mem_map.1 hp
          cases heq
          obtain ⟨hcurrent, hnot⟩ := List.mem_filter.1 hq
          have hnot : p ∉ plans := by simpa using hnot
          have hrow : ⟨p, s.generation, some s.now⟩ ∈
              (s.installed plans suspended).planRows :=
            (mem_installed h hplans).2 (.inl ⟨_, (h.current p).1 hcurrent, hnot, by simp⟩)
          exact kept_or_purged (distinct_installed h) hrow (hfair s.now List.mem_cons_self)
        · obtain ⟨hp, hnot⟩ := List.mem_filter.1 hp
          have hnot : p ∉ plans := by simpa using hnot
          obtain hrow | ⟨hgone, hover⟩ := h.retained p t hp
          · have hrow' : ⟨p, s.generation, some t⟩ ∈
                (s.installed plans suspended).planRows :=
              (mem_installed h hplans).2 (.inl ⟨_, hrow, hnot, by simp⟩)
            exact kept_or_purged (distinct_installed h) hrow'
              (hfair t (List.mem_cons_of_mem _ (List.mem_filterMap.2 ⟨_, hrow, rfl⟩)))
          · right
            constructor
            · intro row hrow heq
              obtain ⟨old, hold, -, heq'⟩ | ⟨q, hq, heq'⟩ :=
                (mem_installed h hplans).1 (mem_purged.1 hrow).1
              · refine hgone old hold ?_
                rw [← heq, heq']
                split <;> rfl
              · rw [heq'] at heq
                exact hnot (heq ▸ hq)
            · have hstamped : (s.lastTransition : Rat) ≤ s.now := by
                exact_mod_cast h.stamped
              exact hover.trans hstamped
      followed := h.followed
      named := fun a ha => by
        obtain ⟨own, hown, hversion⟩ := h.named a ha
        by_cases hnew : own.plan ∈ plans
        · exact ⟨_, hfresh _ hnew, hversion⟩
        · refine ⟨if own.generation = s.generation ∧ own.supersededAt = none then
            { own with supersededAt := some s.now } else own, mem_purged.2 ⟨?_, ?_⟩, ?_⟩
          · exact (mem_installed h hplans).2 (.inl ⟨own, hown, hnew, rfl⟩)
          · cases hexpired : (s.installed plans suspended).expired _ with
            | false => rfl
            | true =>
                obtain ⟨_, -, hother, -⟩ := expired_iff.1 hexpired
                refine absurd ?_ hother
                have hattempt : (s.installed plans suspended).attempt = some a := ha
                rw [hattempt, Option.map_some]
                split
                · exact congrArg some hversion.symm
                · exact congrArg some hversion.symm
          · split
            · exact hversion
            · exact hversion }

end Steps

section Runs

variable {s : Shelf}

theorem newestAttempt_mem {rows : List AttemptRow} {row : AttemptRow}
    (h : newestAttempt rows = some row) :
    row ∈ rows := by
  induction rows generalizing row with
  | nil => cases h
  | cons first rows ih =>
      unfold newestAttempt at h ih
      rw [List.foldr_cons] at h
      split at h
      · next best hbest =>
          split at h
          · cases h
            exact List.mem_cons_of_mem _ (ih hbest)
          · cases h
            exact List.mem_cons_self
      · cases h
        exact List.mem_cons_self

/-- The current plans as the rows give them. -/
def currentPlans (s : Shelf) : List SizingPlan :=
  (s.planRows.filter fun row => row.generation = s.generation ∧
    row.supersededAt = none).map (·.plan)

theorem mem_currentPlans (h : s.Shelved) {p : SizingPlan} :
    p ∈ s.currentPlans ↔ p ∈ s.plans := by
  rw [currentPlans, List.mem_map, h.current]
  constructor
  · rintro ⟨row, hrow, rfl⟩
    obtain ⟨hrow, hcurrent⟩ := List.mem_filter.1 hrow
    obtain ⟨hgeneration, hnone⟩ := of_decide_eq_true hcurrent
    rw [← hgeneration, ← hnone]
    exact hrow
  · intro hrow
    exact ⟨_, List.mem_filter.2 ⟨hrow, by simp⟩, rfl⟩

theorem currentPlans_keys (h : s.Shelved) : (s.currentPlans.map SizingPlan.key).Nodup := by
  refine List.Nodup.map_on ?_ (h.distinct.sublist (List.filter_sublist.map _))
  intro q hq q' hq' heq
  exact List.inj_on_of_nodup_map h.keys ((mem_currentPlans h).1 hq)
    ((mem_currentPlans h).1 hq') heq

theorem loadedPlans_eq (h : s.Shelved) : loadedPlans s.planRows s.generation =
    s.currentPlans :=
  keyed_of_nodup (currentPlans_keys h)

theorem Shelved.observe (h : s.Shelved) (now : Nat) :
    ({ s with now := max s.now now } : Shelf).Shelved :=
  { h with stamped := h.stamped.trans (le_max_left _ _) }

theorem Shelved.transition (h : s.Shelved) :
    ({ s with lastTransition := s.now } : Shelf).Shelved :=
  { h with
    stamped := le_rfl
    retained := fun p t hp => (h.retained p t hp).imp_right fun hgone =>
      ⟨hgone.1, hgone.2.trans (by exact_mod_cast h.stamped)⟩ }

theorem Shelved.refresh (h : s.Shelved) (hfair : s.PurgesInTime) (built : BuiltPlans) :
    (s.refreshSizingPlans built).Shelved := by
  refine h.install hfair ?_ ?_
  · intro p hp
    obtain ⟨q, -, rfl⟩ := List.mem_map.1 hp
    rfl
  · rw [List.map_map]
    exact built.distinct

/-- A restart loads the plans that were current. -/
theorem Shelved.restart (h : s.Shelved) (hfair : s.Unhidden) : s.reopen.Shelved where
  stamped := le_rfl
  distinct := h.distinct
  built := h.built
  current p := by
    rw [reopen, loadedPlans_eq h]
    exact (mem_currentPlans h).trans (h.current p)
  keys := by
    rw [reopen, loadedPlans_eq h]
    exact currentPlans_keys h
  apart p t hp hmem := by
    rw [reopen, loadedPlans_eq h] at hmem
    exact h.apart p t hp ((mem_currentPlans h).1 hmem)
  retained := h.retained
  followed row hrow hopen := by
    simp only [reopen, hfair row hrow hopen, Option.bind_some, hopen]
    rfl
  named a ha := by
    simp only [reopen, Option.bind_eq_some_iff] at ha
    obtain ⟨row, hnewest, hopen⟩ := ha
    split at hopen
    · cases hopen
    · next hlive =>
        cases hopen
        exact h.named _ (h.followed row (newestAttempt_mem hnewest) (by simpa using hlive))

theorem Shelved.opens (h : s.Shelved) (a : Attempt) : (s.openAttempt a).Shelved := by
  unfold openAttempt
  split
  · next hopens =>
      obtain ⟨hidle, hsizes, -⟩ := hopens
      refine
        { h.transition with
          followed := ?_
          named := ?_ }
      · intro row hrow hopen
        obtain rfl | hrow := List.mem_cons.1 hrow
        · rfl
        · have hfollowed := h.followed row hrow hopen
          rw [Option.isNone_iff_eq_none.1 hidle] at hfollowed
          cases hfollowed
      · intro b hb
        cases hb
        unfold sizes at hsizes
        cases hrole : s.role with
        | leader =>
            rw [hrole] at hsizes
            have hcurrent := List.mem_of_find?_eq_some (of_decide_eq_true hsizes)
            exact ⟨_, (h.current _).1 hcurrent, rfl⟩
        | follower =>
            rw [hrole] at hsizes
            obtain ⟨p, hp⟩ := Option.isSome_iff_exists.1 hsizes
            obtain ⟨own, hown, hversion⟩ := planForValidation_row hp fun q hq =>
              (h.current q).1 hq
            exact ⟨own, hown, by simpa [hrole, Attempt.planVersionOf] using hversion⟩
  · exact h

theorem Shelved.refuse (h : s.Shelved) (a : Attempt) : (s.refuseAttempt a).Shelved := by
  unfold refuseAttempt
  split
  · exact h
  · refine { h.transition with followed := ?_ }
    intro row hrow hopen
    obtain rfl | hrow := List.mem_cons.1 hrow
    · cases hopen
    · exact h.followed row hrow hopen

theorem Shelved.terminate (h : s.Shelved) : s.terminateAttempt.Shelved := by
  unfold terminateAttempt
  split
  · exact h
  · next a hattempt =>
      refine { h with followed := ?_, named := fun _ hb => by cases hb }
      intro row hrow hopen
      obtain ⟨old, hold, rfl⟩ := List.mem_map.1 hrow
      split at hopen
      · cases hopen
      · next hother =>
          have hfollowed := h.followed old hold hopen
          rw [hattempt] at hfollowed
          exact absurd (congrArg Attempt.attemptId (Option.some.inj hfollowed)).symm hother

theorem Shelved.next (h : s.Shelved) {step : Step} (hfair : s.Fair step) :
    (s.next step).Shelved := by
  cases step with
  | observe now => exact h.observe now
  | transition => exact h.transition
  | refresh built => exact h.refresh hfair built
  | restart => exact h.restart hfair
  | opens a => exact h.opens a
  | refuse a => exact h.refuse a
  | terminate => exact h.terminate

theorem Shelved.run (h : s.Shelved) {steps : List Step}
    (hfair : Along Shelf.next Fair s steps) :
    (s.run steps).Shelved := by
  induction steps generalizing s with
  | nil => exact h
  | cons step steps ih => exact ih (h.next hfair.1) hfair.2

/-- In every run in which no purge comes between the rounded retention and the retention,
and no restart finds the unresolved attempt behind a refused one, a superseded plan is
accepted until its retention is over and refused afterwards, is no current plan, and the
plan of the unresolved attempt is kept. -/
theorem retained_for_the_window (hfresh : s.Fresh) {steps : List Step}
    (hfair : Along Shelf.next Fair s steps) : (s.run steps).Retains :=
  (hfresh.shelved.run hfair).retains

end Runs

namespace Sample

def plan (productId : String) : SizingPlan :=
  { universeGeneration := 1
    productId := productId
    symbol := "EURUSD"
    direction := .long
    marginPerLot := "1000"
    localMaxLots := "1"
    canonicalPoint := "0.00001"
    point := "0.00001"
    tickSize := "0.00001"
    profitTickValue := "1"
    lossTickValue := "1"
    volumeMin := "0.01"
    volumeStep := "0.01"
    volumeMax := "50"
    fillingMode := "FOK"
    minimumStopDistance := "0"
    usdPerPointPerLot := "1" }

def built (productId : String) : BuiltPlans := ⟨[plan productId], [], by simp⟩

def shelf (retention : Rat) : Shelf :=
  { role := .follower
    generation := 1
    policyHash := 7
    retention := retention
    now := 0
    lastTransition := 0
    planRows := []
    plans := []
    planIndex := []
    planSetVersion := []
    suspendedProducts := []
    plansPolicyHash := none
    attempts := []
    attempt := none
    superseded := [] }

theorem shelf_fresh (retention : Rat) : (shelf retention).Fresh := by
  constructor <;> simp [shelf]

/-- The first plan is superseded after 100 seconds; another 90 seconds
later the second one is. -/
def steps : List Step :=
  [.refresh (built "one"), .observe (seconds 100), .refresh (built "two"),
    .observe (seconds 190), .refresh (built "three")]

end Sample

/-- A whole number of seconds is not rounded. -/
theorem sample_retained : ((Sample.shelf 90).run (Sample.steps ++ [.restart])).Retains :=
  retained_for_the_window (Sample.shelf_fresh 90) (by decide +kernel)

/-- The purge rounds 90.0000001 seconds down, and the plan is gone a moment too early. -/
theorem retention_rounded_down : ¬∀ (s : Shelf) (steps : List Step), s.Fresh →
    (s.run steps).Retains := by
  intro h
  have hretains := h (Sample.shelf (90 + 1 / 10000000)) Sample.steps (Sample.shelf_fresh _)
  have hsuperseded : (Sample.plan "one", seconds 100) ∈
      ((Sample.shelf (90 + 1 / 10000000)).run Sample.steps).superseded := by decide +kernel
  have hbefore : (((Sample.shelf (90 + 1 / 10000000)).run Sample.steps).now : Rat) <
      (seconds 100 : Nat) +
        ((Sample.shelf (90 + 1 / 10000000)).run Sample.steps).window := by
    decide +kernel
  have hgone :
      ((Sample.shelf (90 + 1 / 10000000)).run Sample.steps).planForValidation "one" .long
      (Sample.plan "one") = none := by decide +kernel
  have haccepted := hretains.accepted _ _ hsuperseded hbefore
  exact absurd (hgone.symm.trans haccepted) (by simp)

end Shelf

end PairCell.Market
