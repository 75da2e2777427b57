import PairCell.Pricing

/-!
# The margin budget of installed plans

A plan built by a refresh never needs more margin than the budget.  A plan
kept from an earlier refresh may: the lots are the old ones, the margin is
today's.
-/

namespace PairCell.Pricing

open Lib
open Gate (entryPrice floorToVolumeStep)

/-! ## Lots on the volume grid -/

section Lots

variable {raw low high step lots : Rat}

/-- What `floor_to_volume_step` has checked and computed when it answers. -/
structure OnVolumeGrid (raw low high step lots : Rat) : Prop where
  low_pos : 0 < low
  step_pos : 0 < step
  low_le : low ≤ lots
  le_high : lots ≤ high
  le_raw : lots ≤ raw
  grid : ∃ k : ℕ, lots = low + k * step

theorem floorToVolumeStep_onGrid (h : floorToVolumeStep raw low high step = some lots) :
    OnVolumeGrid raw low high step lots := by
  simp only [floorToVolumeStep, Option.ite_none_left_eq_some, not_or, not_le, not_lt,
    Option.some.injEq] at h
  obtain ⟨⟨hstep, hlow, hhigh, hraw⟩, ⟨hle, hge⟩, rfl⟩ := h
  have hcapped : 0 ≤ (min raw high - low) / step :=
    div_nonneg (sub_nonneg.2 (le_min hraw hhigh)) hstep.le
  have hsteps : 0 ≤ ⌊(min raw high - low) / step⌋ := Int.floor_nonneg.2 hcapped
  refine ⟨hlow, hstep, hle, hge, ?_, ⌊(min raw high - low) / step⌋.toNat, ?_⟩
  · have hfloor : (⌊(min raw high - low) / step⌋ : Rat) * step ≤ min raw high - low :=
      (le_div_iff₀ hstep).1 (Int.floor_le _)
    have hmin : min raw high ≤ raw := min_le_left _ _
    linarith
  · have hcast : ((⌊(min raw high - low) / step⌋.toNat : ℕ) : Rat) =
        (⌊(min raw high - low) / step⌋ : Rat) := by
      exact_mod_cast Int.toNat_of_nonneg hsteps
    rw [hcast]

/-- Lots exist whenever the smallest volume fits below both bounds. -/
theorem floorToVolumeStep_isSome (hstep : 0 < step) (hlow : 0 < low) (hhigh : low ≤ high)
    (hraw : low ≤ raw) : ∃ lots, floorToVolumeStep raw low high step = some lots := by
  have hcapped : 0 ≤ (min raw high - low) / step :=
    div_nonneg (sub_nonneg.2 (le_min hraw hhigh)) hstep.le
  have hsteps : (0 : Rat) ≤ (⌊(min raw high - low) / step⌋ : Rat) := by
    exact_mod_cast Int.floor_nonneg.2 hcapped
  have hfloor : (⌊(min raw high - low) / step⌋ : Rat) * step ≤ min raw high - low :=
    (le_div_iff₀ hstep).1 (Int.floor_le _)
  have hmin : min raw high ≤ high := min_le_right _ _
  have hmul := mul_nonneg hsteps hstep.le
  refine ⟨low + ⌊(min raw high - low) / step⌋ * step, ?_⟩
  rw [floorToVolumeStep, if_neg, if_neg]
  · simp only [not_or, not_lt]
    exact ⟨by linarith, by linarith⟩
  · simp only [not_or, not_le, not_lt]
    exact ⟨hstep, hlow, hhigh, hraw⟩

end Lots

/-! ## What a refresh reads of a product -/

/-- The quote and the facts a product is priced with. -/
def Readings.priced (x : Readings) (product : Product) :
    Option (Quote × LocalProductFacts) :=
  if compatibilityDrift (x.catalog product.symbol) product ≠ none then none
  else do
    let quote ← x.quote product.productId
    let facts ← x.facts product.symbol
    if facts.tradable = false ∨ ¬facts.usable then none else some (quote, facts)

/-- A margin the terminal answered with for one product and direction. -/
structure MarginRead (x : Readings) (product : Product) (direction : Direction)
    (facts : LocalProductFacts) (margin : Rat) : Prop where
  allowed : direction ∈ product.directions
  positive : 0 < margin
  read : ∃ quote, x.priced product = some (quote, facts) ∧
    x.orderCalcMargin product.symbol direction (entryPrice quote direction) = some margin

/-- The installed plans of the product and direction fit the budget at this margin. -/
def Fits (plans : List SizingPlan) (product : Product) (facts : LocalProductFacts)
    (direction : Direction) (margin budget : Rat) : Prop :=
  ∀ plan ∈ plans, plan.productId = product.productId → plan.direction = direction →
    ∃ lots, plan.localMaxLots = some lots ∧ lots * margin ≤ budget ∧
      lots ≤ min product.volumeMax facts.volumeMax ∧
      ∃ k : ℕ, lots = product.volumeMin + k * product.volumeStep

/-- After the refresh every installed plan whose margin was read fits the budget. -/
def WithinBudget (s : Desk) (x : Readings) : Prop :=
  ∀ u policy, s.universe? = some u → s.policy? = some policy →
    ∀ product ∈ u.products, ∀ direction facts margin,
      MarginRead x product direction facts margin →
      Fits (s.refreshSizingPlans x).plans product facts direction margin
        (marginBudgetUsd policy s.role)

/--
No plan of the last refresh would be kept for lots that no longer exist: where
one is there under the same policy, the smallest volume is within the budget at
today's margin and within today's largest volume.
-/
def Resizable (s : Desk) (x : Readings) : Prop :=
  ∀ u policy, s.universe? = some u → s.policy? = some policy →
    ∀ product ∈ u.products, ∀ direction facts margin,
      MarginRead x product direction facts margin →
      (s.prior policy product.productId direction).isSome →
        product.volumeMin ≤ marginBudgetUsd policy s.role / margin ∧
          product.volumeMin ≤ min product.volumeMax facts.volumeMax

/-! ## Where the plans of a refresh come from -/

section Origin

variable {s : Desk} {x : Readings} {u : Universe} {policy : Gate.Policy}
    {product : Product}
  {quote : Quote} {facts : LocalProductFacts} {direction : Direction} {plan : SizingPlan}

/-- A plan the last refresh installed, kept under the same policy. -/
structure Kept (s : Desk) (policy : Gate.Policy) (productId : Nat)
    (plan : SizingPlan) : Prop where
  mem : plan ∈ s.plans
  hash : s.plansPolicyHash = some policy.hash
  id_eq : plan.productId = productId

/-- A plan sized from the margin read at this refresh. -/
structure Sized (s : Desk) (x : Readings) (u : Universe) (policy : Gate.Policy)
    (product : Product) (quote : Quote) (facts : LocalProductFacts) (direction : Direction)
    (plan : SizingPlan) (margin lots : Rat) : Prop where
  read : x.orderCalcMargin product.symbol direction (entryPrice quote direction) =
      some margin
  positive : 0 < margin
  lots_eq : floorToVolumeStep (marginBudgetUsd policy s.role / margin) product.volumeMin
    (min product.volumeMax facts.volumeMax) product.volumeStep = some lots
  plan_eq : plan = buildPlan u.generation product facts direction margin lots

theorem retainPrior_hash (h : s.retainPrior policy = true) :
    s.plansPolicyHash = some policy.hash := by
  rw [Desk.retainPrior, Bool.and_eq_true, decide_eq_true_eq] at h
  exact h.2

theorem prior_kept {productId : Nat} (h : s.prior policy productId direction = some plan) :
    Kept s policy productId plan ∧ plan.direction = direction := by
  rw [Desk.prior, Option.ite_none_right_eq_some] at h
  obtain ⟨hretain, hfind⟩ := h
  have hkey := List.find?_some hfind
  rw [decide_eq_true_eq] at hkey
  exact ⟨⟨List.mem_of_find?_eq_some hfind, retainPrior_hash hretain, hkey.1⟩, hkey.2⟩

theorem directionPlan_origin
    (h : s.directionPlan x u policy product quote facts direction = some plan) :
    s.prior policy product.productId direction = some plan ∨
      ∃ margin lots, Sized s x u policy product quote facts direction
        plan margin lots := by
  unfold Desk.directionPlan at h
  split at h
  · exact .inl h
  · next margin hread =>
    split at h
    · exact .inl h
    · next hpos =>
      split at h
      · exact .inl h
      · next lots hlots =>
        exact .inr ⟨margin, lots, hread, not_le.1 hpos, hlots, (Option.some.inj h).symm⟩

theorem directionPlan_direction
    (h : s.directionPlan x u policy product quote facts direction = some plan) :
    plan.productId = product.productId ∧ plan.direction = direction := by
  obtain hprior | ⟨_, _, hsized⟩ := directionPlan_origin h
  · have hkept := prior_kept hprior
    exact ⟨hkept.1.id_eq, hkept.2⟩
  · rw [hsized.plan_eq]
    exact ⟨rfl, rfl⟩

theorem retainedOr_kept {reason : String}
    (h : plan ∈ (s.retainedOr policy product reason).1) :
    Kept s policy product.productId plan := by
  rw [Desk.retainedOr, orSuspend_fst] at h
  split at h
  · next hretain =>
    obtain ⟨hmem, hid⟩ := List.mem_filter.1 h
    exact ⟨hmem, retainPrior_hash hretain, of_decide_eq_true hid⟩
  · cases h

/-- A product that is priced has exactly the plans of its directions. -/
theorem productPlans_priced (h : x.priced product = some (quote, facts)) :
    (s.productPlans x u policy product).1 =
      ([Direction.long, .short].filter (· ∈ product.directions)).filterMap
        (s.directionPlan x u policy product quote facts) := by
  simp only [Readings.priced, Option.ite_none_left_eq_some, not_not, Option.bind_eq_bind,
    Option.bind_eq_some_iff, not_or, Option.some.injEq, Prod.mk.injEq] at h
  obtain ⟨hdrift, _, hquote, _, hfacts, ⟨htradable, husable⟩, rfl, rfl⟩ := h
  rw [Desk.productPlans, hdrift]
  simp only [hquote, hfacts, if_neg htradable, if_neg (not_not.2 husable), orSuspend_fst]

/-- Every plan of a refresh is kept from the last one or sized from today's margin. -/
theorem productPlans_origin (h : plan ∈ (s.productPlans x u policy product).1) :
    Kept s policy product.productId plan ∨
      ∃ quote facts direction margin lots,
        Sized s x u policy product quote facts direction plan margin lots := by
  unfold Desk.productPlans at h
  split at h
  · cases h
  · split at h
    · exact .inl (retainedOr_kept h)
    · next quote _ =>
      split at h
      · exact .inl (retainedOr_kept h)
      · next facts _ =>
        split at h
        · cases h
        · split at h
          · cases h
          · rw [orSuspend_fst] at h
            obtain ⟨direction, -, hplan⟩ := List.mem_filterMap.1 h
            obtain hprior | ⟨margin, lots, hsized⟩ := directionPlan_origin hplan
            · exact .inl (prior_kept hprior).1
            · exact .inr ⟨quote, facts, direction, margin, lots, hsized⟩

theorem productPlans_productId (h : plan ∈ (s.productPlans x u policy product).1) :
    plan.productId = product.productId := by
  obtain hkept | ⟨_, _, _, _, _, hsized⟩ := productPlans_origin h
  · exact hkept.id_eq
  · rw [hsized.plan_eq]
    rfl

/-- A plan of the rebuilt set with the identity of a product is one of its plans. -/
theorem mem_rebuilt (hproduct : product ∈ u.products) :
    plan ∈ s.rebuilt x u policy ∧ plan.productId = product.productId ↔
      plan ∈ (s.productPlans x u policy product).1 := by
  rw [Desk.rebuilt, List.mem_flatMap]
  constructor
  · rintro ⟨⟨other, hother, hplan⟩, hid⟩
    have heq : other = product := by
      apply List.inj_on_of_nodup_map u.distinct hother hproduct
      rw [← productPlans_productId hplan, hid]
    rwa [heq] at hplan
  · intro h
    exact ⟨⟨product, hproduct, h⟩, productPlans_productId h⟩

end Origin

/-! ## The installed set and the rebuilt one -/

section Installed

variable {s : Desk} {x : Readings} {u : Universe} {policy : Gate.Policy}
    {product : Product}
  {plan : SizingPlan}

theorem stripped_mem {plans others : List SizingPlan}
    (h : planSetVersionOf plans = planSetVersionOf others) (hmem : plan ∈ plans) :
    ∃ other ∈ others, stripped other = stripped plan := by
  have hsorted : stripped plan ∈ planSetVersionOf plans :=
    List.mem_map_of_mem ((List.perm_insertionSort keyLe plans).mem_iff.2 hmem)
  rw [h] at hsorted
  obtain ⟨other, hother, heq⟩ := List.mem_map.1 hsorted
  exact ⟨other, (List.perm_insertionSort keyLe others).mem_iff.1 hother, heq⟩

/-- The version of a plan set determines everything the budget bound reads. -/
theorem Fits.of_version {plans others : List SizingPlan} {facts : LocalProductFacts}
    {direction : Direction} {margin budget : Rat}
    (h : Fits plans product facts direction margin budget)
    (hversion : planSetVersionOf others = planSetVersionOf plans) :
    Fits others product facts direction margin budget := by
  intro plan hmem hid hdir
  obtain ⟨other, hother, heq⟩ := stripped_mem hversion hmem
  have hfields : other.productId = plan.productId ∧ other.direction = plan.direction ∧
      other.localMaxLots = plan.localMaxLots := by
    simp only [stripped, SizingPlan.mk.injEq, Gate.SizingPlan.mk.injEq] at heq
    tauto
  obtain ⟨hid', hdir', hlots'⟩ := hfields
  rw [← hlots']
  exact h other hother (hid'.trans hid) (hdir'.trans hdir)

/-- A plan whose lots are possible for the product. -/
structure FromProduct (product : Product) (plan : SizingPlan) : Prop where
  id_eq : plan.productId = product.productId
  low_pos : 0 < product.volumeMin
  step_pos : 0 < product.volumeStep
  lots : ∃ lots, plan.localMaxLots = some lots ∧ product.volumeMin ≤ lots

/-- The version names the installed set, and a set under a policy is from the universe. -/
structure Sound (s : Desk) : Prop where
  version : s.planSetVersion = planSetVersionOf s.plans
  sized : s.plansPolicyHash ≠ none → ∃ u, s.universe? = some u ∧
    ∀ plan ∈ s.plans, ∃ product ∈ u.products, FromProduct product plan

theorem Sound.kept (h : Sound s) (hu : s.universe? = some u)
    (hproduct : product ∈ u.products) (hkept : Kept s policy product.productId plan) :
    FromProduct product plan := by
  obtain ⟨v, hv, hsized⟩ := h.sized (by rw [hkept.hash]; exact Option.some_ne_none _)
  obtain rfl : v = u := Option.some.inj (hv.symm.trans hu)
  obtain ⟨other, hother, hfrom⟩ := hsized plan hkept.mem
  have heq : other = product := by
    apply List.inj_on_of_nodup_map v.distinct hother hproduct
    rw [← hfrom.id_eq, hkept.id_eq]
  exact heq ▸ hfrom

theorem Sound.rebuilt (h : Sound s) (hu : s.universe? = some u)
    (hplan : plan ∈ s.rebuilt x u policy) : ∃ product ∈ u.products,
      FromProduct product plan := by
  obtain ⟨product, hproduct, hmem⟩ := List.mem_flatMap.1 hplan
  refine ⟨product, hproduct, ?_⟩
  obtain hkept | ⟨_, _, _, _, lots, hsized⟩ := productPlans_origin hmem
  · exact h.kept hu hproduct hkept
  · have hgrid := floorToVolumeStep_onGrid hsized.lots_eq
    rw [hsized.plan_eq]
    exact ⟨rfl, hgrid.low_pos, hgrid.step_pos, lots, rfl, hgrid.low_le⟩

theorem installPlans_cases (s : Desk) (u : Universe) (policy : Gate.Policy)
    (plans : List SizingPlan) (suspended : List (Nat × String)) :
    (s.installPlans u policy plans suspended = s ∧
      planSetVersionOf plans = s.planSetVersion) ∨
      ((s.installPlans u policy plans suspended).plans = plans ∧
        (s.installPlans u policy plans suspended).planSetVersion = planSetVersionOf plans ∧
        (s.installPlans u policy plans suspended).universe? = s.universe?) := by
  unfold Desk.installPlans
  split
  · next hsame => exact .inl ⟨rfl, hsame.1⟩
  · exact .inr ⟨rfl, rfl, rfl⟩

theorem Sound.refresh (h : Sound s) (x : Readings) : Sound (s.refreshSizingPlans x) := by
  unfold Desk.refreshSizingPlans
  split
  · next u policy hu hp =>
    obtain ⟨heq, -⟩ | ⟨hplans, hversion, huniverse⟩ :=
      installPlans_cases s u policy (s.rebuilt x u policy) _
    · rw [heq]
      exact h
    · refine ⟨by rw [hversion, hplans], ?_⟩
      intro _
      refine ⟨u, by rw [huniverse, hu], ?_⟩
      intro plan hplan
      rw [hplans] at hplan
      exact h.rebuilt hu hplan
  · exact h

/-- A refresh touches neither the role nor the universe nor the policy. -/
theorem refresh_keeps (s : Desk) (x : Readings) :
    (s.refreshSizingPlans x).role = s.role ∧
    (s.refreshSizingPlans x).universe? = s.universe? ∧
      (s.refreshSizingPlans x).policy? = s.policy? := by
  unfold Desk.refreshSizingPlans Desk.installPlans
  split
  · split <;> exact ⟨rfl, rfl, rfl⟩
  · exact ⟨rfl, rfl, rfl⟩

theorem Sound.step {t : Desk} {l : Label} (h : Sound s)
    (hstep : Step s l t) : Sound t := by
  rw [show t = next s l from hstep]
  cases l with
  | refresh x => exact h.refresh x
  | acceptPolicy policy => exact ⟨h.version, h.sized⟩
  | installUniverse u => exact ⟨rfl, fun hne => absurd rfl hne⟩
  | restart => exact ⟨rfl, fun hne => absurd rfl hne⟩

/-- After a refresh the installed set has the version of the rebuilt one. -/
theorem Sound.refresh_version (h : Sound s) (hu : s.universe? = some u)
    (hp : s.policy? = some policy) :
    planSetVersionOf (s.refreshSizingPlans x).plans =
      planSetVersionOf (s.rebuilt x u policy) := by
  simp only [Desk.refreshSizingPlans, hu, hp]
  obtain ⟨heq, hversion⟩ | ⟨hplans, -⟩ :=
    installPlans_cases s u policy (s.rebuilt x u policy) _
  · rw [heq, hversion, h.version]
  · rw [hplans]

end Installed

/-! ## When the budget holds -/

section Refresh

variable {s : Desk} {x : Readings} {u : Universe} {policy : Gate.Policy}
    {product : Product}
  {facts : LocalProductFacts} {direction : Direction} {margin : Rat} {plan : SizingPlan}

/-- The rebuilt plan of a direction whose margin was read. -/
theorem mem_rebuilt_direction {quote : Quote} (hproduct : product ∈ u.products)
    (hallowed : direction ∈ product.directions)
    (hpriced : x.priced product = some (quote, facts)) :
    plan ∈ s.rebuilt x u policy ∧ plan.productId = product.productId ∧
      plan.direction = direction ↔
      s.directionPlan x u policy product quote facts direction = some plan := by
  constructor
  · rintro ⟨hmem, hid, hdir⟩
    have hplan := (mem_rebuilt hproduct).1 ⟨hmem, hid⟩
    rw [productPlans_priced hpriced] at hplan
    obtain ⟨other, -, hother⟩ := List.mem_filterMap.1 hplan
    rwa [← (directionPlan_direction hother).2, hdir] at hother
  · intro h
    have hplan : plan ∈ (s.productPlans x u policy product).1 := by
      rw [productPlans_priced hpriced]
      refine List.mem_filterMap.2 ⟨direction,
        List.mem_filter.2 ⟨?_, decide_eq_true hallowed⟩, h⟩
      cases direction <;> simp
    obtain ⟨hmem, hid⟩ := (mem_rebuilt hproduct).2 hplan
    exact ⟨hmem, hid, (directionPlan_direction h).2⟩

theorem Sized.fits {quote : Quote} {lots : Rat}
    (h : Sized s x u policy product quote facts direction plan margin lots) :
    plan.localMaxLots = some lots ∧ lots * margin ≤ marginBudgetUsd policy s.role ∧
      lots ≤ min product.volumeMax facts.volumeMax ∧
      ∃ k : ℕ, lots = product.volumeMin + k * product.volumeStep := by
  have hgrid := floorToVolumeStep_onGrid h.lots_eq
  refine ⟨by rw [h.plan_eq]; rfl, ?_, hgrid.le_high, hgrid.grid⟩
  exact (le_div_iff₀ h.positive).1 hgrid.le_raw

/-- Where the smallest volume fits, today's lots replace a kept plan. -/
theorem directionPlan_resized {quote : Quote}
    (hread : x.orderCalcMargin product.symbol direction (entryPrice quote direction) =
      some margin)
    (hpos : 0 < margin) (hstep : 0 < product.volumeStep) (hlow : 0 < product.volumeMin)
    (hraw : product.volumeMin ≤ marginBudgetUsd policy s.role / margin)
    (hhigh : product.volumeMin ≤ min product.volumeMax facts.volumeMax) :
    ∃ lots plan, Sized s x u policy product quote facts direction plan margin lots ∧
      s.directionPlan x u policy product quote facts direction = some plan := by
  obtain ⟨lots, hlots⟩ := floorToVolumeStep_isSome hstep hlow hhigh hraw
  refine ⟨lots, _, ⟨hread, hpos, hlots, rfl⟩, ?_⟩
  simp only [Desk.directionPlan, hread, if_neg (not_le.2 hpos), hlots]

/-- A kept plan has at least the smallest volume, which no longer fits. -/
theorem directionPlan_unsized {quote : Quote}
    (hread : x.orderCalcMargin product.symbol direction (entryPrice quote direction) =
      some margin)
    (hpos : 0 < margin)
    (h : ¬(product.volumeMin ≤ marginBudgetUsd policy s.role / margin ∧
      product.volumeMin ≤ min product.volumeMax facts.volumeMax)) :
    s.directionPlan x u policy product quote facts direction =
      s.prior policy product.productId direction := by
  have hnone : floorToVolumeStep (marginBudgetUsd policy s.role / margin) product.volumeMin
      (min product.volumeMax facts.volumeMax) product.volumeStep = none := by
    cases hlots : floorToVolumeStep (marginBudgetUsd policy s.role / margin)
      product.volumeMin
        (min product.volumeMax facts.volumeMax) product.volumeStep with
    | none => rfl
    | some lots =>
        have hgrid := floorToVolumeStep_onGrid hlots
        exact absurd ⟨hgrid.low_le.trans hgrid.le_raw, hgrid.low_le.trans hgrid.le_high⟩ h
  simp only [Desk.directionPlan, hread, if_neg (not_le.2 hpos), hnone]

theorem Sound.fits_iff (h : Sound s) (hu : s.universe? = some u)
    (hproduct : product ∈ u.products)
    (hread : MarginRead x product direction facts margin) :
    Fits (s.rebuilt x u policy) product facts direction margin
      (marginBudgetUsd policy s.role) ↔
      ((s.prior policy product.productId direction).isSome →
        product.volumeMin ≤ marginBudgetUsd policy s.role / margin ∧
          product.volumeMin ≤ min product.volumeMax facts.volumeMax) := by
  obtain ⟨hallowed, hpos, quote, hpriced, hmargin⟩ := hread
  constructor
  · intro hfits hsome
    obtain ⟨plan, hprior⟩ := Option.isSome_iff_exists.1 hsome
    by_contra hnot
    have hplan := directionPlan_unsized (u := u) hmargin hpos hnot
    rw [hprior] at hplan
    obtain ⟨hmem, hid, hdir⟩ := (mem_rebuilt_direction hproduct hallowed hpriced).2 hplan
    obtain ⟨lots, hlots, hbudget, hmax, -⟩ := hfits plan hmem hid hdir
    obtain ⟨_, hlots', hlow⟩ := (h.kept hu hproduct (prior_kept hprior).1).lots
    obtain rfl : lots = _ := Option.some.inj (hlots.symm.trans hlots')
    exact hnot ⟨hlow.trans ((le_div_iff₀ hpos).2 hbudget), hlow.trans hmax⟩
  · intro hresize plan hmem hid hdir
    have hplan := (mem_rebuilt_direction hproduct hallowed hpriced).1 ⟨hmem, hid, hdir⟩
    obtain hprior | ⟨margin', lots, hsized⟩ := directionPlan_origin hplan
    · have hfrom := h.kept hu hproduct (prior_kept hprior).1
      obtain ⟨hraw, hhigh⟩ := hresize (by rw [hprior]; rfl)
      obtain ⟨lots, resized, hsized, heq⟩ :=
        directionPlan_resized (s := s) (u := u) (x := x)
        hmargin hpos hfrom.step_pos hfrom.low_pos hraw hhigh
      obtain rfl : resized = plan := Option.some.inj (heq.symm.trans hplan)
      exact ⟨lots, hsized.fits⟩
    · obtain rfl : margin' = margin := Option.some.inj (hsized.read.symm.trans hmargin)
      exact ⟨lots, hsized.fits⟩

end Refresh

/--
In every state a desk can reach, the plans installed by a refresh fit the budget
at the margins it read exactly when it keeps no plan whose lots no longer exist.
-/
theorem refresh_within_budget_iff {role : Role} {s : Desk}
    (h : Reach Step (fun _ _ => True) (fresh role) s) (x : Readings) :
    WithinBudget s x ↔ Resizable s x := by
  have hsound : Sound s := by
    refine h.invariant ⟨rfl, fun hne => absurd rfl hne⟩ ?_
    intro t l v ht _ hstep
    exact ht.step hstep
  constructor
  · intro hfits u policy hu hp product hproduct direction facts margin hread
    rw [← hsound.fits_iff hu hproduct hread]
    exact (hfits u policy hu hp product hproduct direction facts margin hread).of_version
      (hsound.refresh_version hu hp).symm
  · intro hresize u policy hu hp product hproduct direction facts margin hread
    refine Fits.of_version ?_ (hsound.refresh_version hu hp)
    rw [hsound.fits_iff hu hproduct hread]
    exact hresize u policy hu hp product hproduct direction facts margin hread

namespace Sample

def market : Universe := ⟨1, [product], by decide⟩

def facts : LocalProductFacts :=
  { point := 1 / 10, tickSize := 1 / 10, profitTickValue := 1, lossTickValue := 1
    stopLevelPoints := 1, freezeLevelPoints := 0, volumeMax := 10, tradable := true }

def entry : CatalogEntry :=
  { tradeMode := some 4, tradeCalcMode := 0, contractSize := some 1, volumeMin := some 1
    volumeStep := some 1, allowedDirections := [.long, .short], fillingModes := [0] }

/-- Every reading is there, and one lot needs this margin. -/
def readingsAt (margin : Rat) : Readings :=
  { catalog := fun _ => some entry, quote := fun _ => some ⟨100, 100⟩,
    facts := fun _ => some facts
    orderCalcMargin := fun _ _ _ => some margin }

def limits : Gate.Limits :=
  { strategyBudgetUsd := 1000, maximumMarginFraction := 1 / 2, maximumLossPerTradeUsd := 40
    dailyLossFraction := 3 / 100, tradeLossFraction := 2 / 100 }

def policy : Gate.Policy :=
  { hash := 1, strategyBudgetUsd := 0, leaderRisk := limits, followerRisk := limits
    postReconnectCooldown := 100,
    planRetention := 1000, followerConfirmationTimeout := 10 }

/-- A leader that has priced the universe at 100 USD of margin a lot: five lots. -/
def priced : Desk :=
  [.installUniverse market, .acceptPolicy policy, .refresh (readingsAt 100)].foldl
    next (fresh .leader)

theorem reach_priced : Reach Step (fun _ _ => True) (fresh .leader) priced := by
  have run : Along next (fun _ _ => True) (fresh .leader)
      [.installUniverse market, .acceptPolicy policy, .refresh (readingsAt 100)] :=
    ⟨trivial, trivial, trivial, trivial⟩
  exact run.reach

end Sample

theorem sample_within_budget :
    Reach Step (fun _ _ => True) (fresh .leader) Sample.priced ∧
      (WithinBudget Sample.priced (Sample.readingsAt 200) ↔
        Resizable Sample.priced (Sample.readingsAt 200)) :=
  ⟨Sample.reach_priced, refresh_within_budget_iff Sample.reach_priced
    (Sample.readingsAt 200)⟩

/-- The margin of a lot rises above the whole budget, and five lots stay installed. -/
theorem refresh_exceeds_budget :
    ∃ s x, Reach Step (fun _ _ => True) (fresh .leader) s ∧ ¬WithinBudget s x := by
  refine ⟨Sample.priced, Sample.readingsAt 1000, Sample.reach_priced, ?_⟩
  intro h
  have hread : MarginRead (Sample.readingsAt 1000) Sample.product .long
      Sample.facts 1000 :=
    ⟨by decide, by norm_num, ⟨100, 100⟩, by decide +kernel, rfl⟩
  have hplan : buildPlan 1 Sample.product Sample.facts .long 100 5 ∈
      (Sample.priced.refreshSizingPlans (Sample.readingsAt 1000)).plans := by
    decide +kernel
  obtain ⟨hrole, huniverse, hpolicy⟩ := refresh_keeps
    (((fresh .leader).installUniverse Sample.market).acceptPolicy Sample.policy)
    (Sample.readingsAt 100)
  obtain ⟨lots, hlots, hbudget, -⟩ :=
    h Sample.market Sample.policy huniverse hpolicy Sample.product
    (List.mem_singleton.2 rfl) .long Sample.facts 1000 hread _ hplan rfl rfl
  obtain rfl : 5 = lots := Option.some.inj hlots
  have husd : marginBudgetUsd Sample.policy Sample.priced.role = 500 := by
    rw [show Sample.priced.role = .leader from hrole]
    norm_num [marginBudgetUsd, Sample.policy, Sample.limits, Gate.Policy.riskOf]
  rw [husd] at hbudget
  norm_num at hbudget

end PairCell.Pricing
