import PairCell.Canonical.Policy
import PairCell.Canonical.Records

/-!
# Records after a transport

Every record is read back from the JSON text of its canonical form.
-/

namespace PairCell.Canonical

open Lib

variable {F : Type} {py : Host F} {style : Style}

/-- The value that arrives: with sorted keys if it was written so. -/
def arrived (style : Style) (v : Json F) : Json F := if style.sortKeys then v.sorted else v

theorem loads_arrived {v : Json F} (h : v.Distinct) :
    loads py.floats (dumps py.floats style v) = some (arrived style v) :=
  loads_dumps style h

def arrivedFields (style : Style) (fields : Fields F) : Fields F :=
  if style.sortKeys then Json.byKey (fields.map fun f => (f.1, f.2.sorted)) else fields

theorem arrived_obj (fields : Fields F) :
    arrived style (.obj fields) = .obj (arrivedFields style fields) := by
  unfold arrived arrivedFields
  split
  · exact Json.sorted_obj fields
  · rfl

theorem arrived_arr (items : List (Json F)) :
    arrived style (.arr items) = .arr (items.map (arrived style)) := by
  unfold arrived
  split
  · exact Json.sorted_arr items
  · simp

theorem field?_arrived {fields : Fields F} (h : (fields.map Prod.fst).Nodup) (k : String) :
    Json.field? (arrivedFields style fields) k =
      (Json.field? fields k).map (arrived style) := by
  unfold arrivedFields arrived
  split
  · rw [Json.field?_byKey (by simpa [Function.comp_def] using h), Json.field?_map]
  · cases Json.field? fields k <;> rfl

@[simp] theorem arrived_null : arrived style (.null : Json F) = .null := by
  unfold arrived
  split <;> rfl

@[simp] theorem arrived_bool (b : Bool) : arrived style (.bool b : Json F) = .bool b := by
  unfold arrived
  split <;> rfl

@[simp] theorem arrived_int (n : Int) : arrived style (.int n : Json F) = .int n := by
  unfold arrived
  split <;> rfl

@[simp] theorem arrived_float (x : FloatValue F) :
    arrived style (.float x) = .float x := by
  unfold arrived
  split <;> rfl

@[simp] theorem arrived_str (s : String) : arrived style (.str s : Json F) = .str s := by
  unfold arrived
  split <;> rfl

@[simp] theorem arrived_scalar (s : Scalar F) : arrived style s.toJson = s.toJson := by
  cases s <;> simp [Scalar.toJson]

attribute [simp] arrived_obj arrived_arr

/-! ## Sizing plans -/

theorem planKeys (p : SizingPlan) : ((p.fields : Fields F).map Prod.fst).Nodup := by
  simp [SizingPlan.fields]

/-- Reading the fields of a record that arrived, one field at a time. -/
theorem planFromCanonical_arrived (p : SizingPlan) :
    planFromCanonical (arrivedFields style (p.fields : Fields F)) = .ok p := by
  have h := planKeys (F := F) p
  simp only [planFromCanonical, getText, getInt, get, field?_arrived h]
  simp [SizingPlan.fields, Json.field?, asText, asInt, bind, Except.bind,
    pure, Except.pure]

/-! ## Risk limits and the acceptance -/

theorem make_limits (w : WorkerRiskLimits) :
    WorkerRiskLimits.make w.toRiskFields = .ok w := by
  unfold WorkerRiskLimits.make
  split
  · rfl
  · next h => exact absurd (w.checked.symm.trans h) (by simp)

theorem make_acceptance (a : PairingAcceptance) :
    PairingAcceptance.make a.toAcceptanceFields = .ok a := by
  unfold PairingAcceptance.make
  split
  · rfl
  · next h => exact absurd (a.checked.symm.trans h) (by simp)

theorem make_policy (p : StrategyPolicy py) :
    StrategyPolicy.make py p.toPolicyFields = .ok p := by
  unfold StrategyPolicy.make
  split
  · rfl
  · next h => exact absurd (p.checked.symm.trans h) (by simp)

theorem riskFromCanonical_arrived (w : WorkerRiskLimits) :
    riskFromCanonical py (arrivedFields style (w.fields : Fields F)) = .ok w := by
  have h : ((w.fields : Fields F).map Prod.fst).Nodup := by simp [RiskFields.fields]
  simp only [riskFromCanonical, get, field?_arrived h]
  simp only [RiskFields.fields, Json.field?]
  simp [Host.str, bind, Except.bind]
  exact make_limits w

theorem acceptanceFromCanonical_arrived (a : PairingAcceptance) :
    acceptanceFromCanonical py (arrivedFields style (a.fields : Fields F)) = .ok a := by
  have h : ((a.fields : Fields F).map Prod.fst).Nodup := by simp [AcceptanceFields.fields]
  simp only [acceptanceFromCanonical, getText, get, field?_arrived h]
  simp [AcceptanceFields.fields, Json.field?, Host.str, asText, bind, Except.bind]
  exact make_acceptance a

/-! ## Quotes and attempts -/

/-- A character that `clean` keeps. -/
def IsClean (c : Char) : Prop := isBlank c = false ∧ c ≠ '_' ∧ Numeral.ascii c = c

instance (c : Char) : Decidable (IsClean c) := inferInstanceAs (Decidable (_ ∧ _))

theorem clean_id {s : List Char} (h : ∀ c ∈ s, IsClean c) : clean s = s := by
  have hkept : s.filter (fun c => c ≠ '_') = s :=
    List.filter_eq_self.2 fun c hc => by simpa using (h c hc).2.1
  rw [clean, Numeral.strip_id fun c hc => (h c hc).1, hkept,
    Numeral.map_ascii_id fun c hc => (h c hc).2.2]

theorem isClean_digit {c : Char} (h : c.isDigit = true) : IsClean c := by
  refine ⟨?_, ?_, Numeral.ascii_digit h⟩
  · rw [isBlank, Numeral.isSpace_digit h, Numeral.isSeparator_digit h, Bool.or_self]
  · rintro rfl
    cases h

theorem clean_text (d : Decimal) : clean d.text = d.text := by
  refine clean_id fun c hc => ?_
  obtain h | rfl | rfl | rfl | rfl := Decimal.mem_text hc
  · exact isClean_digit h
  all_goals decide

theorem decimalOf_text {d : Decimal} (h : d.Storable) :
    decimalOf (String.ofList d.text) = some d := by
  rw [decimalOf, String.toList_ofList, clean_text, Decimal.read?_text, Option.filter_some,
    if_pos (decide_eq_true h)]

theorem decimal_stored (d : Decimal.Stored) :
    py.decimal (.str (String.ofList d.val.text)) = .ok d := by
  rw [Host.decimal, decimalOf_text d.property]
  exact dif_pos d.property

theorem calibration_arrived (c : Calibration py) :
    calibrationFromCanonical py (some (.obj (arrivedFields style c.fields))) = c := by
  have h : (c.fields.map Prod.fst).Nodup := by simp [Calibration.fields]
  simp only [calibrationFromCanonical, field?_arrived h]
  simp [Calibration.fields, Json.field?, Host.float, asText, Calibration.make, c.nonneg]

/-- The time of receipt is not part of the canonical form. -/
theorem quoteFromCanonical_arrived (q : QuoteSnapshot py) :
    quoteFromCanonical py (arrivedFields style q.fields) =
      .ok { q with localReceiveTime := q.brokerTime } := by
  have h : (q.fields.map Prod.fst).Nodup := by simp [QuoteSnapshot.fields]
  simp only [quoteFromCanonical, getText, getInt, get, field?_arrived h]
  simp [QuoteSnapshot.fields, Json.field?, decimal_stored, parseUtc,
    Timestamp.read?_isoformat, asText, asInt, calibration_arrived, bind, Except.bind,
    pure, Except.pure]

theorem attemptFromCanonical_arrived (a : Attempt py) :
    attemptFromCanonical py (arrivedFields style a.fields) =
      .ok { a with
        leaderQuote := { a.leaderQuote with localReceiveTime := a.leaderQuote.brokerTime }
        followerQuote :=
          { a.followerQuote with localReceiveTime := a.followerQuote.brokerTime } } := by
  have h : (a.fields.map Prod.fst).Nodup := by simp [Attempt.fields]
  simp only [attemptFromCanonical, getText, getInt, getDict, get, field?_arrived h]
  simp [Attempt.fields, Json.field?, asText, asInt, asDict,
    quoteFromCanonical_arrived, parseUtc, Timestamp.read?_isoformat, Host.float, bind,
    Except.bind, pure, Except.pure]

/-! ## Products and the universe -/

theorem bind_eq_ok {α β : Type} {x : Except PyError α} {f : α → Except PyError β} {b : β} :
    x >>= f = .ok b ↔ ∃ a, x = .ok a ∧ f a = .ok b := by
  cases x <;> simp [bind, Except.bind]

theorem map_eq_ok {α β : Type} {x : Except PyError α} {f : α → β} {b : β} :
    x.map f = .ok b ↔ ∃ a, x = .ok a ∧ f a = b := by
  cases x <;> simp [Except.map]

theorem scalar_distinct (s : Scalar F) : s.toJson.Distinct := by
  cases s <;> trivial

theorem product_distinct (p : DiscoveredProduct F) (id : String) :
    (Json.obj (p.compatibilitySummary ++ [("product_id", .str id)])).Distinct := by
  simp [Json.Distinct, Json.DistinctFields, DiscoveredProduct.compatibilitySummary,
    scalar_distinct, Json.distinctItems_iff]

theorem mapM_ok {α : Type} (l : List α) :
    l.mapM (fun x => (Except.ok x : Except PyError α)) = .ok l := by
  induction l with
  | nil => rfl
  | cons x l ih =>
      rw [List.mapM_cons, ih]
      rfl

theorem sort_sort (l : List String) :
    (l.insertionSort (· ≤ ·)).insertionSort (· ≤ ·) = l.insertionSort (· ≤ ·) :=
  (List.pairwise_insertionSort (· ≤ ·) l).insertionSort_eq

/-- The product with its directions in order. -/
def DiscoveredProduct.ordered (p : DiscoveredProduct F) : DiscoveredProduct F :=
  { p with directions := p.directions.insertionSort (· ≤ ·) }

theorem ordered_summary (p : DiscoveredProduct F) :
    p.ordered.compatibilitySummary = p.compatibilitySummary := by
  simp [DiscoveredProduct.compatibilitySummary, DiscoveredProduct.ordered, sort_sort]

theorem ordered_productId (p : DiscoveredProduct F) :
    p.ordered.productId py = p.productId py := by
  simp only [DiscoveredProduct.productId, ordered_summary]
  rfl

theorem ordered_canonical (p : DiscoveredProduct F) :
    p.ordered.canonical py = p.canonical py := by
  simp only [DiscoveredProduct.canonical, ordered_summary, ordered_productId]

theorem asScalar_toJson (s : Scalar F) : asScalar s.toJson = .ok s := by
  cases s <;> rfl

theorem productFromCanonical_arrived {p : DiscoveredProduct F} {id : String}
    (h : p.productId py = .ok id) :
    productFromCanonical py
      (arrivedFields style (p.compatibilitySummary ++ [("product_id", .str id)])) =
        .ok p.ordered := by
  have hkeys :
      ((p.compatibilitySummary ++ [("product_id", .str id)] : Fields F).map
        Prod.fst).Nodup := by
    simp [DiscoveredProduct.compatibilitySummary]
  have hid := (ordered_productId p).trans h
  simp only [productFromCanonical, getText, get, field?_arrived hkeys]
  simp only [DiscoveredProduct.ordered] at hid ⊢
  simp [DiscoveredProduct.compatibilitySummary, Json.field?, asText, asScalar_toJson,
    asList, Host.str, Function.comp_def, mapM_ok, hid, bind, Except.bind,
    pure, Except.pure]

theorem universe_products {products : List (DiscoveredProduct F)} {forms : List (Json F)}
    (h : products.mapM (DiscoveredProduct.canonical py) = .ok forms) :
    (forms.map (arrived style)).mapM (fun p => do productFromCanonical py (← asDict p)) =
        .ok (products.map DiscoveredProduct.ordered) ∧
      (products.map DiscoveredProduct.ordered).mapM (DiscoveredProduct.canonical py) =
        .ok forms ∧
      ∀ v ∈ forms, v.Distinct := by
  induction products generalizing forms with
  | nil =>
      cases h
      exact ⟨rfl, rfl, by simp⟩
  | cons p products ih =>
      rw [List.mapM_cons] at h
      obtain ⟨form, hform, h⟩ := bind_eq_ok.1 h
      obtain ⟨rest, hrest, h⟩ := bind_eq_ok.1 h
      cases h
      obtain ⟨hread, hwritten, hdistinct⟩ := ih hrest
      obtain ⟨id, hid, rfl⟩ := map_eq_ok.1 hform
      have hform' := (ordered_canonical p).trans hform
      refine ⟨?_, ?_, ?_⟩
      · rw [List.map_cons, List.mapM_cons, hread, arrived_obj]
        simp only [asDict, bind, Except.bind, productFromCanonical_arrived hid]
        rfl
      · rw [List.map_cons, List.mapM_cons, hform', hwritten]
        rfl
      · intro v hv
        obtain rfl | hv := List.mem_cons.1 hv
        · exact product_distinct p id
        · exact hdistinct v hv

def DiscoveredUniverse.ordered (u : DiscoveredUniverse F) : DiscoveredUniverse F :=
  { u with products := u.products.map DiscoveredProduct.ordered }

theorem universeFromCanonical_arrived {u : DiscoveredUniverse F} {forms : List (Json F)}
    (h : u.products.mapM (DiscoveredProduct.canonical py) = .ok forms) :
    (Json.obj (u.fields forms)).Distinct ∧
      universeFromCanonical py (arrivedFields style (u.fields forms)) = .ok u.ordered ∧
      u.ordered.canonical py = .ok (.obj (u.fields forms)) := by
  obtain ⟨hread, hwritten, hdistinct⟩ :
      (forms.map (arrived style)).mapM
        (fun p => do productFromCanonical py (← asDict p)) = _ ∧ _ :=
    universe_products h
  have hkeys : ((u.fields forms).map Prod.fst).Nodup := by simp [DiscoveredUniverse.fields]
  refine ⟨?_, ?_, ?_⟩
  · simpa [Json.Distinct, Json.DistinctFields, DiscoveredUniverse.fields,
      Json.distinctItems_iff]
      using hdistinct
  · simp only [universeFromCanonical, getText, getInt, get, field?_arrived hkeys]
    simp only [DiscoveredUniverse.fields, Json.field?] at hread ⊢
    simp [asText, asInt, bind, Except.bind, pure, Except.pure] at hread ⊢
    rw [hread]
    rfl
  · simp only [DiscoveredUniverse.canonical, DiscoveredUniverse.ordered, hwritten]
    rfl

/-! ## Policies -/

theorem throw_bind {α β : Type} (e : PyError) (f : α → Except PyError β) :
    (throw e : Except PyError α) >>= f = .error e := rfl

theorem if_error_eq_ok {α : Type} {c : Prop} [Decidable c] {e : PyError}
    {x : Except PyError α} {a : α} :
    (if c then .error e else x) = .ok a ↔ ¬c ∧ x = .ok a := by
  by_cases h : c <;> simp [h]

/-- The values of a checked policy: its numbers are finite, and no field holds a list or a
dictionary. -/
structure Plain (p : PolicyFields F) : Prop where
  age : ∃ x, p.quoteMaxAgeSeconds = .finite x
  skew : ∃ x, p.quoteMaxSkewSeconds = .finite x
  confirmation : ∃ x, p.followerConfirmationTimeoutSeconds = .finite x
  sizing : ∃ x, p.sizingRefreshSeconds = .finite x
  relay : ∃ x, p.relayHandlingTimeoutSeconds = .finite x
  cooldown : ∃ x, p.postReconnectCooldownSeconds = .finite x
  holding : ∃ s : Scalar F, p.maximumHoldingSeconds = s.toJson ∧ s.toJson.special = false
  start : ∃ s, p.tradingBlackoutStartNy = .str s
  stop : ∃ s, p.tradingBlackoutEndNy = .str s
  mode : ∃ s, p.mode = .str s

theorem positiveSeconds_finite {name : String} {x : FloatValue F}
    (h : PolicyFields.positiveSeconds py name x = .ok ()) : ∃ y, x = .finite y := by
  cases x with
  | finite y => exact ⟨y, rfl⟩
  | nan => cases h
  | infinity neg => cases h

theorem cooldownSeconds_finite {x : FloatValue F}
    (h : PolicyFields.cooldownSeconds py x = .ok ()) :
    ∃ y, x = .finite y := by
  cases x with
  | finite y => exact ⟨y, rfl⟩
  | nan => cases h
  | infinity neg => cases h

theorem holdingSeconds_scalar {v : Json F}
    (h : PolicyFields.holdingSeconds py v = .ok ()) :
    ∃ s : Scalar F, v = s.toJson ∧ s.toJson.special = false := by
  match v with
  | .null => exact ⟨.null, rfl, rfl⟩
  | .bool b => exact ⟨.bool b, rfl, rfl⟩
  | .int n => exact ⟨.int n, rfl, rfl⟩
  | .float (.finite x) => exact ⟨.float (.finite x), rfl, rfl⟩
  | .float .nan => cases h
  | .float (.infinity neg) => cases h
  | .str s => cases h
  | .arr items => cases h
  | .obj fields => cases h

theorem parseNyTime_text {v : Json F} {name : String} {n : Int}
    (h : parseNyTime v name = .ok n) :
    ∃ s, v = .str s := by
  cases v with
  | str s => exact ⟨s, rfl⟩
  | _ => cases h

theorem isMode_text {v : Json F} (h : PolicyFields.isMode v = true) : ∃ s, v = .str s := by
  cases v with
  | str s => exact ⟨s, rfl⟩
  | _ => cases h

theorem plain_of_check {p : PolicyFields F} (h : p.check py = .ok ()) : Plain p := by
  simp only [PolicyFields.check, throw_bind, if_error_eq_ok, bind_eq_ok] at h
  obtain ⟨-, -, _, hage, _, hskew, _, hconfirmation, _, hsizing, _, hrelay, _,
      hcooldown, _, -, -, _,
    hholding, start, hstart, stop, hstop, -, hmode⟩ := h
  refine ⟨positiveSeconds_finite hage, positiveSeconds_finite hskew,
    positiveSeconds_finite hconfirmation, positiveSeconds_finite hsizing,
    positiveSeconds_finite hrelay, cooldownSeconds_finite hcooldown,
    holdingSeconds_scalar hholding, parseNyTime_text hstart, parseNyTime_text hstop,
    isMode_text ?_⟩
  cases hm : PolicyFields.isMode p.mode with
  | true => rfl
  | false =>
      rw [hm] at hmode
      cases hmode

theorem keys_arrived (fields : Fields F) :
    ((arrivedFields style fields).map Prod.fst).Perm (fields.map Prod.fst) := by
  unfold arrivedFields
  split
  · refine ((Json.byKey_perm _).map Prod.fst).trans ?_
    simp [Function.comp_def]
  · exact .refl _

theorem checkPolicyKeys_subset {keys : List String} (h : ∀ k ∈ keys, k ∈ policyKeys) :
    checkPolicyKeys keys = .ok () := by
  have hflatten : "flatten_at_ny" ∉ keys := fun hmem => absurd (h _ hmem) (by decide)
  have hremoved : removedPolicyKeys.find? (fun k => decide (k ∈ keys)) = none := by
    have hnone : ∀ k ∈ removedPolicyKeys, k ∉ policyKeys := by decide
    rw [List.find?_eq_none]
    intro k hk hmem
    exact hnone k hk (h k (by simpa using hmem))
  have hunknown : (keys.filter fun k => decide (k ∉ policyKeys)) = [] := by
    rw [List.filter_eq_nil_iff]
    intro k hk
    simpa using h k hk
  simp only [checkPolicyKeys, hflatten, if_false, hremoved, hunknown]
  rfl

theorem policyKeys_arrived {p : PolicyFields F} :
    checkPolicyKeys ((arrivedFields style p.fields).map Prod.fst) = .ok () := by
  have hkeys : ∀ k ∈ p.fields.map Prod.fst, k ∈ policyKeys := by
    simp only [PolicyFields.fields, List.map_cons, List.map_nil]
    decide
  exact checkPolicyKeys_subset fun k hk => hkeys k ((keys_arrived p.fields).mem_iff.1 hk)

theorem policyFromCanonical_arrived (p : StrategyPolicy py) :
    policyFromCanonical py (arrivedFields style p.fields) = .ok p := by
  have hplain := plain_of_check p.checked
  obtain ⟨holding, hholding, -⟩ := hplain.holding
  obtain ⟨start, hstart⟩ := hplain.start
  obtain ⟨stop, hstop⟩ := hplain.stop
  obtain ⟨mode, hmode⟩ := hplain.mode
  have hmake := make_policy p
  have h : (p.fields.map Prod.fst).Nodup := by simp [PolicyFields.fields]
  simp only [policyFromCanonical, policyKeys_arrived, getText, getDict, get, getOr,
    field?_arrived h]
  simp [PolicyFields.fields, Json.field?, asText, asDict, riskFromCanonical_arrived,
    Host.float, Host.str, RiskFields.canonical, hholding, hstart, hstop, hmode,
    bind, Except.bind]
  rw [← hholding, ← hstart, ← hstop, ← hmode]
  exact hmake

end PairCell.Canonical
