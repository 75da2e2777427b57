import PairCell.Canonical.Identities
import PairCell.Compatibility
import PairCell.Lib.DecimalValue

/-!
# Discovery from either side

A catalog passes validation iff all its entries are named with an integer mode
and no entry repeats the name of a tradable one before it.  The survey of two
validated catalogs depends on their entries only, not on their order.
-/

namespace PairCell.Canonical

open Lib

variable {F : Type} {py : Host F}

/-! ## Validation -/

def Listed (e : CatalogEntry F) : Prop :=
  e.name ≠ "" ∧ ∃ tradeMode, e.tradeMode = .int tradeMode

def tradable (e : CatalogEntry F) : Bool :=
  match e.tradeMode with
  | .int tradeMode => decide (tradeMode = fullTradingMode)
  | _ => false

def names (l : List (CatalogEntry F)) : List String := l.map CatalogEntry.name

theorem validate_eq_ok {workerId : String} {filtered l r : List (CatalogEntry F)} :
    validate workerId filtered l = .ok r ↔
      (∀ e ∈ l, Listed e) ∧ (∀ e ∈ l, e.name ∉ names filtered) ∧
        l.Pairwise (fun a b => tradable a = true → a.name ≠ b.name) ∧
        r = filtered ++ l.filter tradable := by
  induction l generalizing filtered with
  | nil =>
      have heq : r = filtered ↔ filtered = r := ⟨fun h => h.symm, fun h => h.symm⟩
      simp [validate, heq]
  | cons e l ih =>
      simp only [validate, List.mem_cons, forall_eq_or_imp, List.pairwise_cons]
      by_cases hname : e.name = ""
      · simp [hname, Listed]
      rw [if_neg hname]
      cases hmode : e.tradeMode with
      | int m =>
          have hlisted : Listed e := ⟨hname, m, hmode⟩
          by_cases hmem : e.name ∈ names filtered
          · have hmem' := hmem
            unfold names at hmem'
            simp [hmem, hmem']
          have hmem' := hmem
          unfold names at hmem'
          by_cases hfull : m = fullTradingMode
          · have htradable : tradable e = true := by simp [tradable, hmode, hfull]
            simp only [hmem', if_false, hfull, ne_eq, not_true_eq_false]
            rw [ih]
            simp only [names, List.map_append, List.mem_append,
              List.map_cons, List.map_nil, List.mem_singleton, not_or, htradable,
              List.filter_cons_of_pos, List.append_assoc, List.singleton_append,
              forall_const, hlisted, true_and]
            constructor
            · rintro ⟨hall, hnew, hpair, hr⟩
              exact ⟨hall, ⟨hmem', fun a ha => (hnew a ha).1⟩,
                ⟨fun a ha h => (hnew a ha).2 h.symm, hpair⟩, hr⟩
            · rintro ⟨hall, ⟨-, hnew⟩, ⟨hfirst, hpair⟩, hr⟩
              exact ⟨hall, fun a ha => ⟨hnew a ha, fun h => hfirst a ha h.symm⟩, hpair, hr⟩
          · have htradable : tradable e = false := by simp [tradable, hmode, hfull]
            simp only [hmem', if_false, hfull, ne_eq, not_false_eq_true, if_true]
            rw [ih]
            simp [names, hmem', htradable, hlisted]
      | null => simp [Listed, hmode]
      | bool b => simp [Listed, hmode]
      | float x => simp [Listed, hmode]
      | str s => simp [Listed, hmode]

theorem validate_reason {workerId reason : String} {filtered l : List (CatalogEntry F)}
    (h : validate workerId filtered l = .error reason) : reason ≠ "" := by
  have hnonempty : ∀ s t : String, t ≠ "" → s ++ t ≠ "" := by
    intro s t ht hst
    exact ht (String.append_eq_empty_iff.1 hst).2
  have hnonempty' : ∀ s t : String, s ≠ "" → s ++ t ≠ "" := by
    intro s t hs hst
    exact hs (String.append_eq_empty_iff.1 hst).1
  induction l generalizing filtered with
  | nil => cases h
  | cons e l ih =>
      simp only [validate] at h
      split at h
      · cases h
        exact hnonempty _ _ (by decide)
      · split at h
        · split at h
          · cases h
            exact hnonempty' _ _ (hnonempty _ _ (by decide))
          · split at h
            · exact ih h
            · exact ih h
        · cases h
          exact hnonempty _ _ (by decide)

/-- A repeated name is refused in every order if an entry is bad or two tradable entries
share it. -/
def Sound (c : CatalogSummary F) : Prop :=
  (names c.entries).Nodup ∨ (∃ e ∈ c.entries, ¬Listed e) ∨
    ¬(names (c.entries.filter tradable)).Nodup

theorem pairwise_of_nodup {l : List (CatalogEntry F)} (h : (names l).Nodup) :
    l.Pairwise (fun a b => tradable a = true → a.name ≠ b.name) := by
  refine (List.pairwise_map.1 h).imp ?_
  intro a b hne _
  exact hne

theorem nodup_of_pairwise {l : List (CatalogEntry F)}
    (h : l.Pairwise (fun a b => tradable a = true → a.name ≠ b.name)) :
    (names (l.filter tradable)).Nodup := by
  refine List.pairwise_map.2 (List.pairwise_filter.2 (h.imp ?_))
  intro a b hab ha _
  exact hab ha

theorem Sound.validated_iff {c : CatalogSummary F} (h : Sound c)
    {r : List (CatalogEntry F)} :
    validatedCatalog c = .ok r ↔
      (∀ e ∈ c.entries, Listed e) ∧ (names c.entries).Nodup ∧
      r = c.entries.filter tradable := by
  rw [validatedCatalog, validate_eq_ok]
  constructor
  · rintro ⟨hall, -, hpair, hr⟩
    refine ⟨hall, ?_, by simpa using hr⟩
    obtain hnodup | ⟨e, he, hbad⟩ | htwice := h
    · exact hnodup
    · exact absurd (hall e he) hbad
    · exact absurd (nodup_of_pairwise hpair) htwice
  · rintro ⟨hall, hnodup, hr⟩
    exact ⟨hall, by simp [names], pairwise_of_nodup hnodup, by simpa using hr⟩

theorem validated_nodup {c : CatalogSummary F} {r : List (CatalogEntry F)}
    (h : validatedCatalog c = .ok r) : (names r).Nodup := by
  obtain ⟨-, -, hpair, hr⟩ := validate_eq_ok.1 h
  rw [List.nil_append] at hr
  rw [hr]
  exact nodup_of_pairwise hpair

/-! ## The same entries in another order -/

/-- What the two Workers have to agree on about an entry is left as it is. -/
structure Harmless (py : Host F) (f : CatalogEntry F → CatalogEntry F) : Prop where
  name : ∀ e, (f e).name = e.name
  tradeMode : ∀ e, (f e).tradeMode = e.tradeMode
  judgeLeft : ∀ one two, judge py (f one) two = judge py one two
  judgeRight : ∀ one two, judge py one (f two) = judge py one two

theorem harmless_id : Harmless py id :=
  ⟨fun _ => rfl, fun _ => rfl, fun _ _ => rfl, fun _ _ => rfl⟩

/-- The catalog has the entries of another one, in any order and after `f`. -/
def Rearranged (f : CatalogEntry F → CatalogEntry F) (c c' : CatalogSummary F) : Prop :=
  ∃ l : List (CatalogEntry F), l.Perm c.entries ∧ c'.entries = l.map f

section Harmless

variable {f : CatalogEntry F → CatalogEntry F} (hf : Harmless py f)

include hf

theorem Harmless.listed (e : CatalogEntry F) : Listed (f e) ↔ Listed e := by
  rw [Listed, Listed, hf.name, hf.tradeMode]

theorem Harmless.tradable (e : CatalogEntry F) : tradable (f e) = tradable e := by
  rw [Canonical.tradable, Canonical.tradable, hf.tradeMode]

theorem Harmless.names (l : List (CatalogEntry F)) : names (l.map f) = names l := by
  simp [Canonical.names, hf.name]

theorem Harmless.filter (l : List (CatalogEntry F)) :
    (l.map f).filter Canonical.tradable = (l.filter Canonical.tradable).map f := by
  rw [List.filter_map]
  congr 1
  exact List.filter_congr fun e _ => hf.tradable e

theorem Harmless.listed_all {c c' : CatalogSummary F} (h : Rearranged f c c') :
    (∀ e ∈ c'.entries, Listed e) ↔ ∀ e ∈ c.entries, Listed e := by
  obtain ⟨l, hl, hc'⟩ := h
  simp [hc', hf.listed, hl.mem_iff]

theorem Harmless.nodup {c c' : CatalogSummary F} (h : Rearranged f c c') :
    (Canonical.names c'.entries).Nodup ↔ (Canonical.names c.entries).Nodup := by
  obtain ⟨l, hl, hc'⟩ := h
  rw [hc', hf.names]
  exact (hl.map _).nodup_iff

theorem Harmless.sound {c c' : CatalogSummary F} (h : Rearranged f c c') (hc : Sound c) :
    Sound c' := by
  obtain hnodup | hbad | htwice := hc
  · exact .inl ((hf.nodup h).2 hnodup)
  · refine .inr (.inl ?_)
    by_contra hgood
    push Not at hgood
    obtain ⟨e, he, hbad⟩ := hbad
    exact hbad ((hf.listed_all h).1 hgood e he)
  · refine .inr (.inr ?_)
    obtain ⟨l, hl, hc'⟩ := h
    rw [hc', hf.filter, hf.names]
    exact fun hnodup => htwice (((hl.filter _).map _).nodup_iff.1 hnodup)

/-- Validation keeps the same entries. -/
theorem Harmless.validated {c c' : CatalogSummary F} (h : Rearranged f c c')
    (hc : Sound c) :
    (∃ l r : List (CatalogEntry F), validatedCatalog c = .ok r ∧
        validatedCatalog c' = .ok (l.map f) ∧ l.Perm r ∧ (Canonical.names r).Nodup) ∨
      ∃ e e', validatedCatalog c = .error e ∧ validatedCatalog c' = .error e' := by
  have hc' := hf.sound h hc
  cases hr : validatedCatalog c with
  | ok r =>
      have hnodup := validated_nodup hr
      obtain ⟨hall, hnames, rfl⟩ := hc.validated_iff.1 hr
      have hlisted := (hf.listed_all h).2 hall
      have hunique := (hf.nodup h).2 hnames
      obtain ⟨l, hl, hl'⟩ := h
      refine .inl ⟨l.filter Canonical.tradable, _, rfl, ?_, hl.filter _, hnodup⟩
      exact hc'.validated_iff.2 ⟨hlisted, hunique, by rw [hl', hf.filter]⟩
  | error e =>
      cases hr' : validatedCatalog c' with
      | error e' => exact .inr ⟨e, e', rfl, rfl⟩
      | ok r' =>
          obtain ⟨hall, hnames, -⟩ := hc'.validated_iff.1 hr'
          have hok :=
            hc.validated_iff.2 ⟨(hf.listed_all h).1 hall, (hf.nodup h).1 hnames, rfl⟩
          rw [hok] at hr
          cases hr

end Harmless

theorem sortedTexts_perm {l l' : List String} (h : l.Perm l') :
    sortedTexts l = sortedTexts l' := by
  refine List.Perm.eq_of_pairwise ?_ (List.pairwise_insertionSort _ _)
    (List.pairwise_insertionSort _ _) ?_
  · intro a b _ _ hab hba
    exact le_antisymm hab hba
  · exact (List.perm_insertionSort _ _).trans (h.trans (List.perm_insertionSort _ _).symm)

theorem mem_sortedTexts {l : List String} {s : String} : s ∈ sortedTexts l ↔ s ∈ l :=
  (List.perm_insertionSort _ _).mem_iff

theorem sharedSymbols_perm {first first' second second' : List (CatalogEntry F)}
    (h : (names first).Perm (names first')) (h' : (names second).Perm (names second')) :
    sharedSymbols first second = sharedSymbols first' second' := by
  refine sortedTexts_perm ?_
  have hfilter : (fun s => decide (s ∈ names second)) = fun s =>
      decide (s ∈ names second') := by
    funext s
    simp [h'.mem_iff]
  unfold names at h hfilter
  rw [hfilter]
  exact h.filter _

theorem sharedSymbols_comm {first second : List (CatalogEntry F)} (h : (names first).Nodup)
    (h' : (names second).Nodup) :
    sharedSymbols first second = sharedSymbols second first := by
  refine sortedTexts_perm
    ((List.perm_ext_iff_of_nodup (h.filter _) (h'.filter _)).2 fun s => ?_)
  simp only [List.mem_filter, decide_eq_true_eq]
  exact and_comm

theorem entryNamed_eq_some {l : List (CatalogEntry F)} (h : (names l).Nodup) {s : String}
    {e : CatalogEntry F} : entryNamed l s = some e ↔ e ∈ l ∧ e.name = s := by
  constructor
  · intro hfind
    exact ⟨List.mem_of_find?_eq_some hfind, by simpa using List.find?_some hfind⟩
  · rintro ⟨he, hs⟩
    cases hfind : entryNamed l s with
    | none =>
        have hnone := List.find?_eq_none.1 hfind e he
        simp [hs] at hnone
    | some e' =>
        have he' := List.mem_of_find?_eq_some hfind
        have hs' : e'.name = s := by simpa using List.find?_some hfind
        rw [List.inj_on_of_nodup_map h he he' (hs.trans hs'.symm)]

theorem entryNamed_perm {l r : List (CatalogEntry F)} (h : l.Perm r) (hr : (names r).Nodup)
    (s : String) :
    entryNamed l s = entryNamed r s := by
  have hl : (names l).Nodup := (h.map _).nodup_iff.2 hr
  refine Option.ext fun e => ?_
  rw [entryNamed_eq_some hl, entryNamed_eq_some hr, h.mem_iff]

theorem Harmless.entryNamed {f : CatalogEntry F → CatalogEntry F} (hf : Harmless py f)
    (l : List (CatalogEntry F)) (s : String) :
    entryNamed (l.map f) s = (entryNamed l s).map f := by
  have hsame : (fun e => decide (e.name = s)) ∘ f = fun e => decide (e.name = s) := by
    funext e
    rw [Function.comp_apply, hf.name]
  rw [Canonical.entryNamed, List.find?_map, hsame, Canonical.entryNamed]

/-- The loop over the shared symbols. -/
def survey (py : Host F) (first second : List (CatalogEntry F)) :
    Except PyError (List (String × Verdict F)) :=
  (sharedSymbols first second).mapM (judgeSymbol py first second)

theorem survey_left {f : CatalogEntry F → CatalogEntry F} (hf : Harmless py f)
    {l first second : List (CatalogEntry F)} (h : l.Perm first)
    (hfirst : (names first).Nodup) :
    survey py (l.map f) second = survey py first second := by
  have hnames : (names (l.map f)).Perm (names first) := by
    rw [hf.names]
    exact h.map _
  have hjudge : judgeSymbol py (l.map f) second = judgeSymbol py first second := by
    funext s
    simp only [judgeSymbol, hf.entryNamed, entryNamed_perm h hfirst]
    cases hone : entryNamed first s <;> cases htwo : entryNamed second s <;>
      simp [hf.judgeLeft]
  rw [survey, survey, sharedSymbols_perm hnames (.refl _), hjudge]

theorem survey_right {f : CatalogEntry F → CatalogEntry F} (hf : Harmless py f)
    {l first second : List (CatalogEntry F)} (h : l.Perm second)
    (hsecond : (names second).Nodup) :
    survey py first (l.map f) = survey py first second := by
  have hnames : (names (l.map f)).Perm (names second) := by
    rw [hf.names]
    exact h.map _
  have hjudge : judgeSymbol py first (l.map f) = judgeSymbol py first second := by
    funext s
    simp only [judgeSymbol, hf.entryNamed, entryNamed_perm h hsecond]
    cases hone : entryNamed first s <;> cases htwo : entryNamed second s <;>
      simp [hf.judgeRight]
  rw [survey, survey, sharedSymbols_perm (.refl _) hnames, hjudge]

/-! ## The judgement of two entries -/

/-- The two runs return the same value, or both raise. -/
def SameValue {α : Type} (x y : Except PyError α) : Prop := ∀ a, x = .ok a ↔ y = .ok a

namespace SameValue

variable {α β : Type} {x y z : Except PyError α}

theorem refl (x : Except PyError α) : SameValue x x := fun _ => .rfl

theorem symm (h : SameValue x y) : SameValue y x := fun a => (h a).symm

theorem trans (h : SameValue x y) (h' : SameValue y z) : SameValue x z :=
  fun a => (h a).trans (h' a)

theorem andThen {f g : α → Except PyError β} (h : SameValue x y)
    (hfg : ∀ a, x = .ok a → SameValue (f a) (g a)) : SameValue (x >>= f) (y >>= g) := by
  intro b
  rw [bind_eq_ok, bind_eq_ok]
  constructor
  · rintro ⟨a, ha, hb⟩
    exact ⟨a, (h a).1 ha, (hfg a ha b).1 hb⟩
  · rintro ⟨a, ha, hb⟩
    have hx := (h a).2 ha
    exact ⟨a, hx, (hfg a hx b).2 hb⟩

theorem map (h : SameValue x y) (f : α → β) : SameValue (x.map f) (y.map f) := by
  intro b
  rw [map_eq_ok, map_eq_ok]
  exact exists_congr fun a => and_congr_left' (h a)

theorem swap {γ : Type} {w : Except PyError β} {f : α → β → Except PyError γ} :
    SameValue (do f (← x) (← w)) (do
      let b ← w
      let a ← x
      f a b) := by
  intro c
  simp only [bind_eq_ok]
  constructor
  · rintro ⟨a, ha, b, hb, hc⟩
    exact ⟨b, hb, a, ha, hc⟩
  · rintro ⟨b, hb, a, ha, hc⟩
    exact ⟨a, ha, b, hb, hc⟩

theorem mapM {f g : β → Except PyError α} {l : List β}
    (h : ∀ b ∈ l, SameValue (f b) (g b)) :
    SameValue (l.mapM f) (l.mapM g) := by
  induction l with
  | nil => exact .refl _
  | cons b l ih =>
      rw [List.mapM_cons, List.mapM_cons]
      refine (h b List.mem_cons_self).andThen fun a _ => ?_
      exact (ih fun c hc => h c (List.mem_cons_of_mem _ hc)).andThen fun _ _ => .refl _

end SameValue

theorem equal_comm (one two : Scalar F) : one.equal py two = two.equal py one := by
  cases one with
  | float x =>
      cases x <;> rcases two with _ | _ | _ | (_ | _ | _) | _ <;>
        simp [Scalar.equal, Scalar.number?, eq_comm]
  | _ =>
      rcases two with _ | _ | _ | (_ | _ | _) | _ <;>
        simp [Scalar.equal, Scalar.number?, eq_comm]

theorem sameTexts_comm (one two : List String) : sameTexts one two = sameTexts two one :=
  Bool.and_comm _ _

theorem sameTexts_iff {one two : List String} : sameTexts one two = true ↔
    ∀ s, s ∈ one ↔ s ∈ two := by
  simp only [sameTexts, Bool.and_eq_true, List.all_eq_true, decide_eq_true_eq]
  exact ⟨fun h s => ⟨h.1 s, h.2 s⟩, fun h => ⟨fun s => (h s).1, fun s => (h s).2⟩⟩

theorem textMismatch_comm (name one two : String) :
    SameValue (textMismatch name one two) (textMismatch name two one) := by
  refine SameValue.swap.trans ?_
  refine SameValue.andThen (.refl _) fun a _ => SameValue.andThen (.refl _) fun b _ => ?_
  have hiff : (b = none ∨ a = none ∨ b ≠ a) ↔ (a = none ∨ b = none ∨ a ≠ b) := by
    rw [ne_comm]
    tauto
  simp only [hiff]
  exact .refl _

theorem textMismatch_nil {name one two : String} (h : textMismatch name one two = .ok []) :
    decimalTextOf one = decimalTextOf two := by
  obtain ⟨a, ha, h⟩ := bind_eq_ok.1 h
  obtain ⟨b, hb, h⟩ := bind_eq_ok.1 h
  have hnil := Except.ok.inj h
  split at hnil
  · cases hnil
  · next hsame =>
      push Not at hsame
      rw [ha, hb, hsame.2.2]

theorem hardMismatches_comm (one two : CatalogEntry F) :
    SameValue (hardMismatches py one two) (hardMismatches py two one) := by
  simp only [hardMismatches, equal_comm one.tradeCalcMode,
    sameTexts_comm one.allowedDirections]
  refine (textMismatch_comm _ _ _).andThen fun _ _ => ?_
  refine (textMismatch_comm _ _ _).andThen fun _ _ => ?_
  exact (textMismatch_comm _ _ _).andThen fun _ _ => .refl _

/-- The entries that match agree on their texts and directions. -/
theorem hardMismatches_nil {one two : CatalogEntry F}
    (h : hardMismatches py one two = .ok []) :
    one.tradeCalcMode.equal py two.tradeCalcMode = true ∧
      decimalTextOf one.contractSize = decimalTextOf two.contractSize ∧
      decimalTextOf one.volumeMin = decimalTextOf two.volumeMin ∧
      decimalTextOf one.volumeStep = decimalTextOf two.volumeStep ∧
      ∀ s, s ∈ one.allowedDirections ↔ s ∈ two.allowedDirections := by
  obtain ⟨contract, hcontract, h⟩ := bind_eq_ok.1 h
  obtain ⟨least, hleast, h⟩ := bind_eq_ok.1 h
  obtain ⟨step, hstep, h⟩ := bind_eq_ok.1 h
  have hnil := Except.ok.inj h
  simp only [List.append_eq_nil_iff, ite_eq_left_iff, List.cons_ne_nil, imp_false,
    not_not] at hnil
  obtain ⟨⟨⟨⟨hmode, rfl⟩, rfl⟩, rfl⟩, hdirections⟩ := hnil
  exact ⟨hmode, textMismatch_nil hcontract, textMismatch_nil hleast,
    textMismatch_nil hstep, sameTexts_iff.1 hdirections⟩

theorem preferredSharedFillingMode_comm (first second : List String) :
    preferredSharedFillingMode first second = preferredSharedFillingMode second first := by
  simp only [preferredSharedFillingMode, and_comm]

theorem tradesBothWays_congr {one two : CatalogEntry F}
    (h : ∀ s, s ∈ one.allowedDirections ↔ s ∈ two.allowedDirections) :
    tradesBothWays one = tradesBothWays two := by
  simp only [tradesBothWays, h]

/-- Equal numbers have one plain spelling. -/
theorem decimalText_of_value {a b : Decimal} (ha : positive a = true)
    (hb : positive b = true) (h : a.value = b.value) : decimalText a = decimalText b := by
  simp only [positive, Bool.and_eq_true, Bool.not_eq_true', decide_eq_true_eq] at ha hb
  rw [decimalText, decimalText, Decimal.normalize_of_value ha.1 hb.1 ha.2 h]

theorem pickDecimalText_comm {pick : Decimal → Decimal → Decimal}
    (h : ∀ a b, pick a b = pick b a ∨ a.value = b.value ∧ pick a b = a ∧ pick b a = b)
    (first second : String) : pickDecimalText pick first second =
      pickDecimalText pick second first := by
  unfold pickDecimalText
  cases decimalOf first with
  | none => cases decimalOf second <;> rfl
  | some a =>
      cases decimalOf second with
      | none => rfl
      | some b =>
          simp only
          rw [Bool.and_comm]
          split
          · next hpositive =>
              obtain hpick | ⟨hvalue, hab, hba⟩ := h a b
              · rw [hpick]
              · obtain ⟨hb, ha⟩ := Bool.and_eq_true_iff.1 hpositive
                rw [hab, hba, decimalText_of_value ha hb hvalue]
          · rfl

theorem maxDecimalText_comm (first second : String) :
    maxDecimalText first second = maxDecimalText second first := by
  refine pickDecimalText_comm (fun a b => ?_) first second
  obtain h | h | h := lt_trichotomy a.value b.value
  · exact .inl (by rw [if_pos h, if_neg h.not_gt])
  · exact .inr ⟨h, by simp [h], by simp [h]⟩
  · exact .inl (by rw [if_pos h, if_neg h.not_gt])

theorem minDecimalText_comm (first second : String) :
    minDecimalText first second = minDecimalText second first := by
  refine pickDecimalText_comm (fun a b => ?_) first second
  obtain h | h | h := lt_trichotomy a.value b.value
  · exact .inl (by rw [if_pos h, if_neg h.not_gt])
  · exact .inr ⟨h, by simp [h], by simp [h]⟩
  · exact .inl (by rw [if_pos h, if_neg h.not_gt])

theorem economics_comm {one two : CatalogEntry F}
    (h : hardMismatches py one two = .ok []) :
    economics one two = economics two one := by
  obtain ⟨-, hcontract, hleast, hstep, -⟩ := hardMismatches_nil h
  simp only [economics, maxDecimalText_comm one.point,
    minDecimalText_comm one.volumeMax, hcontract, hleast, hstep]

/-- Every check on the two entries passes. -/
def Matches (py : Host F) (one two : CatalogEntry F) (filling : String)
    (e : Economics) : Prop :=
  hardMismatches py one two = .ok [] ∧ tradesBothWays one = true ∧
    preferredSharedFillingMode one.fillingModes two.fillingModes = some filling ∧
    economics one two = .ok (some e)

theorem judge_admitted {one two : CatalogEntry F} {p : DiscoveredProduct F} :
    judge py one two = .ok (.admitted p) ↔
      ∃ filling e, Matches py one two filling e ∧ p = productOf one filling e := by
  unfold judge Matches
  rw [bind_eq_ok]
  constructor
  · rintro ⟨mismatches, hmismatches, h⟩
    by_cases hnil : mismatches = []
    · rw [if_neg (by simp [hnil])] at h
      split at h
      · cases h
      · next hboth =>
          split at h
          · cases h
          · next filling hfilling =>
              obtain ⟨e, he, h⟩ := bind_eq_ok.1 h
              cases e with
              | none => cases h
              | some e =>
                  cases h
                  exact ⟨filling, e, ⟨hnil ▸ hmismatches, by simpa using hboth,
                    hfilling, he⟩, rfl⟩
    · rw [if_pos hnil] at h
      cases h
  · rintro ⟨filling, e, ⟨hmismatches, hboth, hfilling, he⟩, rfl⟩
    refine ⟨[], hmismatches, ?_⟩
    simp only [ne_eq, not_true_eq_false, if_false, hboth, Bool.not_true,
      Bool.false_eq_true, hfilling]
    rw [he]
    rfl

def Verdict.withMode (mode : Scalar F) : Verdict F → Verdict F
  | .admitted p => .admitted { p with tradeCalcMode := mode }
  | .excluded reason => .excluded reason

/-- The other side finds the same, but for the mode that it copies. -/
theorem judge_exchange {one two : CatalogEntry F} (hname : one.name = two.name) :
    SameValue (judge py one two)
      ((judge py two one).map (Verdict.withMode one.tradeCalcMode)) := by
  have hmap : ∀ {α : Type} (x : Except PyError α) (g : α → Except PyError (Verdict F))
      (k : Verdict F → Verdict F), (x >>= g).map k = x >>= fun a => (g a).map k := by
    intro α x g k
    cases x <;> rfl
  rw [judge, judge, hmap]
  refine (hardMismatches_comm one two).andThen fun mismatches hmismatches => ?_
  by_cases hnil : mismatches = []
  · subst hnil
    obtain ⟨-, -, -, -, hdirections⟩ := hardMismatches_nil hmismatches
    simp only [ne_eq, not_true_eq_false, if_false, tradesBothWays_congr hdirections,
      preferredSharedFillingMode_comm one.fillingModes, economics_comm hmismatches]
    split
    · exact .refl _
    · split
      · exact .refl _
      · rw [hmap]
        refine SameValue.andThen (.refl _) fun e _ => ?_
        cases e with
        | none => exact .refl _
        | some e =>
            simp only [productOf, hname]
            exact .refl _
  · rw [if_pos hnil, if_pos hnil]
    exact .refl _

theorem judge_total_comm {one two : CatalogEntry F} (hname : one.name = two.name)
    (h : ∃ verdict, judge py one two = .ok verdict) :
    ∃ verdict, judge py two one = .ok verdict := by
  obtain ⟨verdict, hverdict⟩ := h
  obtain ⟨other, hother, -⟩ := map_eq_ok.1 ((judge_exchange hname _).1 hverdict)
  exact ⟨other, hother⟩

theorem judge_same {one two : CatalogEntry F} (hname : one.name = two.name)
    (h : ∀ filling e, Matches py one two filling e →
      one.tradeCalcMode = two.tradeCalcMode) :
    SameValue (judge py one two) (judge py two one) := by
  have hsame : ∀ verdict, judge py two one = .ok verdict →
      judge py one two = .ok (verdict.withMode one.tradeCalcMode) →
      verdict.withMode one.tradeCalcMode = verdict := by
    intro verdict hother hverdict
    cases verdict with
    | excluded reason => rfl
    | admitted q =>
        obtain ⟨filling, e, hmatches, -⟩ := judge_admitted.1 hverdict
        obtain ⟨_, _, -, rfl⟩ := judge_admitted.1 hother
        simp only [Verdict.withMode, productOf, h filling e hmatches]
  intro verdict
  constructor
  · intro hverdict
    obtain ⟨other, hother, rfl⟩ := map_eq_ok.1 ((judge_exchange hname _).1 hverdict)
    rw [hsame other hother hverdict]
    exact hother
  · intro hother
    have hverdict := (judge_exchange hname _).2 (map_eq_ok.2 ⟨verdict, hother, rfl⟩)
    rwa [hsame verdict hother hverdict] at hverdict

/-! ## The decoded catalog -/

variable {style : Style}

/-- The entry with its directions and filling modes in order. -/
def CatalogEntry.ordered (e : CatalogEntry F) : CatalogEntry F :=
  { e with
    allowedDirections := sortedTexts e.allowedDirections
    fillingModes := sortedTexts e.fillingModes }

def CatalogSummary.ordered (c : CatalogSummary F) : CatalogSummary F :=
  { c with entries := (rank CatalogEntry.name c.entries).map CatalogEntry.ordered }

theorem entryFromCanonical_arrived (e : CatalogEntry F) :
    catalogEntryFromCanonical py (arrivedFields style e.fields) = .ok e.ordered := by
  have hkeys : ((e.fields : Fields F).map Prod.fst).Nodup := by simp [CatalogEntry.fields]
  simp only [catalogEntryFromCanonical, getText, getInt, getTexts, textOr, get,
    field?_arrived hkeys]
  simp [CatalogEntry.fields, CatalogEntry.ordered, Json.field?, asText, asInt,
    asScalar_toJson, asList, Host.str, Function.comp_def, mapM_ok, bind, Except.bind,
    pure, Except.pure]

theorem entry_distinct (e : CatalogEntry F) : e.canonical.Distinct := by
  simp [Json.Distinct, Json.DistinctFields, CatalogEntry.canonical, CatalogEntry.fields,
    scalar_distinct, Json.distinctItems_iff]

theorem catalog_distinct (c : CatalogSummary F) : c.canonical.Distinct := by
  simp [Json.Distinct, Json.DistinctFields, CatalogSummary.canonical,
    CatalogSummary.fields, Json.distinctItems_iff, entry_distinct]

theorem entries_arrived (l : List (CatalogEntry F)) :
    ((l.map CatalogEntry.canonical).map (arrived style)).mapM
        (fun e => do catalogEntryFromCanonical py (← asDict e)) =
          .ok (l.map CatalogEntry.ordered) := by
  induction l with
  | nil => rfl
  | cons e l ih =>
      simp only [List.map_cons, List.mapM_cons, ih]
      simp only [CatalogEntry.canonical, arrived_obj, asDict, bind, Except.bind,
        entryFromCanonical_arrived]
      rfl

theorem summaryFromCanonical_arrived {c c' : CatalogSummary F} :
    catalogSummaryFromCanonical py (arrivedFields style c.fields) = .ok c' ↔
      0 < c.publisherEpoch ∧ 0 < c.version ∧ c' = c.ordered := by
  have hkeys : ((c.fields : Fields F).map Prod.fst).Nodup := by
    simp [CatalogSummary.fields]
  have hentries : ((List.map _ _).map (arrived style)).mapM
      (fun e => do catalogEntryFromCanonical py (← asDict e)) = .ok _ :=
    entries_arrived (rank CatalogEntry.name c.entries)
  simp only [catalogSummaryFromCanonical, getText, get, field?_arrived hkeys]
  simp only [CatalogSummary.fields, Json.field?, bind, Except.bind] at hentries ⊢
  simp [positiveInt, asText, pure, Except.pure] at hentries ⊢
  rw [hentries]
  by_cases hepoch : c.publisherEpoch ≤ 0
  · simp [hepoch, Int.not_lt.2 hepoch]
  by_cases hversion : c.version ≤ 0
  · simp [hepoch, hversion, Int.not_lt.2 hversion]
  simp only [hepoch, hversion, if_false, Except.ok.injEq, Int.not_le.1 hepoch,
    Int.not_le.1 hversion, true_and, CatalogSummary.ordered]
  exact eq_comm

/-- The catalog is read back from the JSON text of the canonical form of another one. -/
def Decodes (py : Host F) (c c' : CatalogSummary F) : Prop :=
  ∃ styles fields, carried py styles c.canonical = some (.obj fields) ∧
    catalogSummaryFromCanonical py fields = .ok c'

theorem decodes_iff {c c' : CatalogSummary F} :
    Decodes py c c' ↔ 0 < c.publisherEpoch ∧ 0 < c.version ∧ c' = c.ordered := by
  constructor
  · rintro ⟨styles, fields, hcarried, hdecoded⟩
    obtain ⟨style, harrived⟩ : ∃ style, carried py styles c.canonical =
        some (arrived style _) :=
      carried_arrived styles (catalog_distinct c)
    rw [harrived, CatalogSummary.canonical, arrived_obj] at hcarried
    cases hcarried
    exact summaryFromCanonical_arrived.1 hdecoded
  · intro h
    have hplain :
        catalogSummaryFromCanonical py (arrivedFields ⟨true, false⟩ c.fields) = .ok c' :=
      summaryFromCanonical_arrived.2 h
    exact ⟨[], c.fields, rfl, hplain⟩

theorem mem_ordered_directions (e : CatalogEntry F) (s : String) :
    s ∈ e.ordered.allowedDirections ↔ s ∈ e.allowedDirections := mem_sortedTexts

theorem preferredSharedFillingMode_congr {first first' second second' : List String}
    (h : ∀ s, s ∈ first ↔ s ∈ first') (h' : ∀ s, s ∈ second ↔ s ∈ second') :
    preferredSharedFillingMode first second =
      preferredSharedFillingMode first' second' := by
  simp only [preferredSharedFillingMode, h, h']

theorem sameTexts_congr {one one' two two' : List String} (h : ∀ s, s ∈ one ↔ s ∈ one')
    (h' : ∀ s, s ∈ two ↔ s ∈ two') : sameTexts one two = sameTexts one' two' := by
  rw [Bool.eq_iff_iff, sameTexts_iff, sameTexts_iff]
  simp only [h, h']

theorem harmless_ordered :
    Harmless py (CatalogEntry.ordered : CatalogEntry F → CatalogEntry F) := by
  refine ⟨fun _ => rfl, fun _ => rfl, fun one two => ?_, fun one two => ?_⟩
  · have hmismatches : hardMismatches py one.ordered two = hardMismatches py one two := by
      simp only [hardMismatches,
        sameTexts_congr (mem_ordered_directions one) fun _ => .rfl]
      rfl
    have hfilling : preferredSharedFillingMode one.ordered.fillingModes two.fillingModes =
        preferredSharedFillingMode one.fillingModes two.fillingModes :=
      preferredSharedFillingMode_congr (fun _ => mem_sortedTexts) fun _ => .rfl
    simp only [judge, hmismatches,
      tradesBothWays_congr (mem_ordered_directions one), hfilling]
    rfl
  · have hmismatches : hardMismatches py one two.ordered = hardMismatches py one two := by
      have hdirections : sameTexts one.allowedDirections two.ordered.allowedDirections =
          sameTexts one.allowedDirections two.allowedDirections :=
        sameTexts_congr (fun _ => .rfl) (mem_ordered_directions two)
      simp only [hardMismatches, hdirections]
      rfl
    have hfilling : preferredSharedFillingMode one.fillingModes two.ordered.fillingModes =
        preferredSharedFillingMode one.fillingModes two.fillingModes :=
      preferredSharedFillingMode_congr (fun _ => .rfl) fun _ => mem_sortedTexts
    simp only [judge, hmismatches, hfilling]
    rfl

/-! ## The comparison of two catalogs -/

/-- What the Workers act on. -/
def DiscoveryOutcome.findings (o : DiscoveryOutcome F) :
    List (DiscoveredProduct F) × List (String × String) × Bool :=
  (o.products, o.excluded, o.admitted)

/-- The same products, exclusions and verdict, or both runs raise. -/
def SameFindings (x y : Except PyError (DiscoveryOutcome F)) : Prop :=
  SameValue (x.map DiscoveryOutcome.findings) (y.map DiscoveryOutcome.findings)

section Discover

variable {c c' d d' : CatalogSummary F}

theorem discover_validated {first second : List (CatalogEntry F)}
    (h : validatedCatalog c = .ok first) (h' : validatedCatalog d = .ok second) :
    discoverCompatibleProducts py c d = (survey py first second).map outcomeOf := by
  rw [discoverCompatibleProducts, h, h']
  rfl

theorem discover_refused
    (h : (∃ e, validatedCatalog c = .error e) ∨ ∃ e, validatedCatalog d = .error e) :
    (discoverCompatibleProducts py c d).map DiscoveryOutcome.findings =
      .ok ([], [], false) := by
  have hfindings : ∀ reason, reason ≠ "" →
      (⟨[], reason, []⟩ : DiscoveryOutcome F).findings = ([], [], false) := by
    intro reason hreason
    simp [DiscoveryOutcome.findings, DiscoveryOutcome.admitted, hreason]
  unfold discoverCompatibleProducts
  cases hc : validatedCatalog c with
  | error reason => simp only [Except.map, hfindings reason (validate_reason hc)]
  | ok first =>
      obtain ⟨e, he⟩ | ⟨e, he⟩ := h
      · rw [he] at hc
        cases hc
      · simp only [he, Except.map, hfindings e (validate_reason he)]

theorem SameFindings.of_survey {first first' second second' : List (CatalogEntry F)}
    (hc : validatedCatalog c = .ok first) (hd : validatedCatalog d = .ok second)
    (hc' : validatedCatalog c' = .ok first') (hd' : validatedCatalog d' = .ok second')
    (h : SameValue (survey py first second) (survey py first' second')) :
    SameFindings (discoverCompatibleProducts py c d)
      (discoverCompatibleProducts py c' d') := by
  unfold SameFindings
  rw [discover_validated hc hd, discover_validated hc' hd']
  exact (h.map _).map _

theorem SameFindings.of_refused
    (h : (∃ e, validatedCatalog c = .error e) ∨ ∃ e, validatedCatalog d = .error e)
    (h' : (∃ e, validatedCatalog c' = .error e) ∨ ∃ e, validatedCatalog d' = .error e) :
    SameFindings (discoverCompatibleProducts py c d)
      (discoverCompatibleProducts py c' d') := by
  unfold SameFindings
  rw [discover_refused h, discover_refused h']
  exact .refl _

variable {f : CatalogEntry F → CatalogEntry F}

theorem discover_left (hf : Harmless py f) (h : Rearranged f c c') (hc : Sound c) :
    SameFindings (discoverCompatibleProducts py c' d)
      (discoverCompatibleProducts py c d) := by
  cases hd : validatedCatalog d with
  | error e => exact .of_refused (.inr ⟨e, hd⟩) (.inr ⟨e, hd⟩)
  | ok second =>
      obtain ⟨l, first, hfirst, hmap, hperm, hnodup⟩ | ⟨e, e', he, he'⟩ :=
        hf.validated h hc
      · refine .of_survey hmap hd hfirst hd ?_
        rw [survey_left hf hperm hnodup]
        exact .refl _
      · exact .of_refused (.inl ⟨e', he'⟩) (.inl ⟨e, he⟩)

theorem discover_right (hf : Harmless py f) (h : Rearranged f d d') (hd : Sound d) :
    SameFindings (discoverCompatibleProducts py c d')
      (discoverCompatibleProducts py c d) := by
  cases hc : validatedCatalog c with
  | error e => exact .of_refused (.inl ⟨e, hc⟩) (.inl ⟨e, hc⟩)
  | ok first =>
      obtain ⟨l, second, hsecond, hmap, hperm, hnodup⟩ | ⟨e, e', he, he'⟩ :=
        hf.validated h hd
      · refine .of_survey hc hmap hc hsecond ?_
        rw [survey_right hf hperm hnodup]
        exact .refl _
      · exact .of_refused (.inr ⟨e', he'⟩) (.inr ⟨e, he⟩)

/-- Every two entries of one name that pass all checks give `trade_calc_mode` the same
value, not only an equal one; asked of two catalogs that pass validation, where every
number has a spelling. -/
def ModesAgree (py : Host F) (c d : CatalogSummary F) : Prop :=
  ∀ first second, validatedCatalog c = .ok first → validatedCatalog d = .ok second →
    (∀ one ∈ first, ∀ two ∈ second, one.name = two.name →
      ∃ verdict, judge py one two = .ok verdict) →
    ∀ one ∈ first, ∀ two ∈ second, one.name = two.name →
      ∀ filling e, Matches py one two filling e → one.tradeCalcMode = two.tradeCalcMode

theorem judgeSymbol_of {first second : List (CatalogEntry F)}
    (hfirst : (names first).Nodup) (hsecond : (names second).Nodup)
    {one two : CatalogEntry F} (hone : one ∈ first) (htwo : two ∈ second)
    (hname : one.name = two.name) :
    judgeSymbol py first second one.name = (judge py one two).map fun v =>
      (one.name, v) := by
  have hfound := (entryNamed_eq_some hfirst).2 ⟨hone, rfl⟩
  have hfound' := (entryNamed_eq_some hsecond).2 ⟨htwo, hname.symm⟩
  simp only [judgeSymbol, hfound, hfound']

theorem mem_sharedSymbols {first second : List (CatalogEntry F)} {s : String} :
    s ∈ sharedSymbols first second ↔
      (∃ one ∈ first, one.name = s) ∧ ∃ two ∈ second, two.name = s := by
  simp [sharedSymbols, mem_sortedTexts]

theorem mapM_eq_ok {α β : Type} {f : α → Except PyError β} {l : List α} {r : List β}
    (h : l.mapM f = .ok r) :
    (∀ a ∈ l, ∃ b ∈ r, f a = .ok b) ∧ ∀ b ∈ r, ∃ a ∈ l, f a = .ok b := by
  induction l generalizing r with
  | nil =>
      cases h
      exact ⟨by simp, by simp⟩
  | cons a l ih =>
      rw [List.mapM_cons] at h
      obtain ⟨b, hb, h⟩ := bind_eq_ok.1 h
      obtain ⟨rest, hrest, h⟩ := bind_eq_ok.1 h
      cases h
      obtain ⟨hall, hback⟩ := ih hrest
      constructor
      · intro a' ha'
        obtain rfl | ha' := List.mem_cons.1 ha'
        · exact ⟨b, List.mem_cons_self, hb⟩
        · obtain ⟨b', hb', h⟩ := hall a' ha'
          exact ⟨b', List.mem_cons_of_mem _ hb', h⟩
      · intro b' hb'
        obtain rfl | hb' := List.mem_cons.1 hb'
        · exact ⟨a, List.mem_cons_self, hb⟩
        · obtain ⟨a', ha', h⟩ := hback b' hb'
          exact ⟨a', List.mem_cons_of_mem _ ha', h⟩

theorem mapM_total {α β : Type} {f : α → Except PyError β} {l : List α}
    (h : ∀ a ∈ l, ∃ b, f a = .ok b) : ∃ r, l.mapM f = .ok r := by
  induction l with
  | nil => exact ⟨[], rfl⟩
  | cons a l ih =>
      obtain ⟨b, hb⟩ := h a List.mem_cons_self
      obtain ⟨r, hr⟩ := ih fun a' ha' => h a' (List.mem_cons_of_mem _ ha')
      exact ⟨b :: r, by rw [List.mapM_cons, hb, hr]; rfl⟩

theorem survey_exchange {first second : List (CatalogEntry F)}
    (hfirst : (names first).Nodup) (hsecond : (names second).Nodup)
    (h : ∀ one ∈ first, ∀ two ∈ second, one.name = two.name →
      SameValue (judge py one two) (judge py two one)) :
    SameValue (survey py second first) (survey py first second) := by
  unfold survey
  rw [sharedSymbols_comm hsecond hfirst]
  refine SameValue.mapM fun s hs => ?_
  obtain ⟨⟨one, hone, rfl⟩, two, htwo, hname⟩ := mem_sharedSymbols.1 hs
  have hright : judgeSymbol py second first two.name = _ :=
    judgeSymbol_of hsecond hfirst htwo hone hname
  rw [judgeSymbol_of hfirst hsecond hone htwo hname.symm, ← hname, hright, hname]
  exact ((h one hone two htwo hname.symm).map _).symm

theorem survey_total {first second : List (CatalogEntry F)} (hfirst : (names first).Nodup)
    (hsecond : (names second).Nodup)
    (h : ∀ one ∈ first, ∀ two ∈ second, one.name = two.name →
      ∃ verdict, judge py one two = .ok verdict) :
    ∃ verdicts, survey py first second = .ok verdicts := by
  refine mapM_total fun s hs => ?_
  obtain ⟨⟨one, hone, rfl⟩, two, htwo, hname⟩ := mem_sharedSymbols.1 hs
  obtain ⟨verdict, hverdict⟩ := h one hone two htwo hname.symm
  exact ⟨_, by rw [judgeSymbol_of hfirst hsecond hone htwo hname.symm, hverdict]; rfl⟩

theorem mem_products {verdicts : List (String × Verdict F)} {p : DiscoveredProduct F} :
    p ∈ (outcomeOf verdicts).products ↔ ∃ s, (s, .admitted p) ∈ verdicts := by
  have hmem : p ∈ verdicts.filterMap (fun v => v.2.product?) ↔
      ∃ s, (s, .admitted p) ∈ verdicts := by
    rw [List.mem_filterMap]
    constructor
    · rintro ⟨⟨s, verdict⟩, hv, hp⟩
      cases verdict with
      | excluded reason => cases hp
      | admitted q =>
          cases hp
          exact ⟨s, hv⟩
    · rintro ⟨s, hv⟩
      exact ⟨_, hv, rfl⟩
  unfold outcomeOf
  simp only
  split
  · next hempty =>
      rw [← hmem, List.isEmpty_iff.1 hempty]
  · exact hmem

theorem judge_of_survey {first second : List (CatalogEntry F)}
    (hfirst : (names first).Nodup) (hsecond : (names second).Nodup)
    {verdicts : List (String × Verdict F)} (h : survey py first second = .ok verdicts)
    {one two : CatalogEntry F} (hone : one ∈ first) (htwo : two ∈ second)
    (hname : one.name = two.name) :
    ∃ verdict, judge py one two = .ok verdict := by
  have hshared : one.name ∈ sharedSymbols first second :=
    mem_sharedSymbols.2 ⟨⟨one, hone, rfl⟩, two, htwo, hname.symm⟩
  obtain ⟨v, -, hfound⟩ := (mapM_eq_ok h).1 _ hshared
  rw [judgeSymbol_of hfirst hsecond hone htwo hname, map_eq_ok] at hfound
  obtain ⟨verdict, hverdict, -⟩ := hfound
  exact ⟨verdict, hverdict⟩

/-- The products of a survey are the ones its judgements admit. -/
theorem mem_survey {first second : List (CatalogEntry F)} (hfirst : (names first).Nodup)
    (hsecond : (names second).Nodup) {verdicts : List (String × Verdict F)}
    (h : survey py first second = .ok verdicts) {p : DiscoveredProduct F} :
    p ∈ (outcomeOf verdicts).products ↔
      ∃ one ∈ first, ∃ two ∈ second, one.name = two.name ∧
      judge py one two = .ok (.admitted p) := by
  obtain ⟨hall, hback⟩ := mapM_eq_ok h
  rw [mem_products]
  constructor
  · rintro ⟨s, hs⟩
    obtain ⟨t, ht, hjudge⟩ := hback _ hs
    obtain ⟨⟨one, hone, rfl⟩, two, htwo, hname⟩ := mem_sharedSymbols.1 ht
    rw [judgeSymbol_of hfirst hsecond hone htwo hname.symm, map_eq_ok] at hjudge
    obtain ⟨verdict, hverdict, heq⟩ := hjudge
    cases heq
    exact ⟨one, hone, two, htwo, hname.symm, hverdict⟩
  · rintro ⟨one, hone, two, htwo, hname, hjudge⟩
    have hshared : one.name ∈ sharedSymbols first second :=
      mem_sharedSymbols.2 ⟨⟨one, hone, rfl⟩, two, htwo, hname.symm⟩
    obtain ⟨v, hv, hfound⟩ := hall _ hshared
    rw [judgeSymbol_of hfirst hsecond hone htwo hname, hjudge] at hfound
    cases hfound
    exact ⟨_, hv⟩

theorem discover_exchanged (h : ModesAgree py c d) :
    SameFindings (discoverCompatibleProducts py d c)
      (discoverCompatibleProducts py c d) := by
  cases hc : validatedCatalog c with
  | error e => exact .of_refused (.inr ⟨e, hc⟩) (.inl ⟨e, hc⟩)
  | ok first =>
      cases hd : validatedCatalog d with
      | error e => exact .of_refused (.inl ⟨e, hd⟩) (.inr ⟨e, hd⟩)
      | ok second =>
          have hfirst := validated_nodup hc
          have hsecond := validated_nodup hd
          refine .of_survey hd hc hc hd ?_
          by_cases htotal : ∀ one ∈ first, ∀ two ∈ second, one.name = two.name →
              ∃ verdict, judge py one two = .ok verdict
          · exact survey_exchange hfirst hsecond fun one hone two htwo hname =>
              judge_same hname (h first second hc hd htotal one hone two htwo hname)
          · -- a number without a spelling stops the survey from either side
            intro verdicts
            constructor
            · intro hright
              refine absurd (fun one hone two htwo hname => ?_) htotal
              exact judge_total_comm hname.symm
                (judge_of_survey hsecond hfirst hright htwo hone hname.symm)
            · intro hleft
              exact absurd (fun one hone two htwo hname =>
                judge_of_survey hfirst hsecond hleft hone htwo hname)
                htotal

theorem modesAgree_of_exchanged
    (h : SameFindings (discoverCompatibleProducts py d c)
      (discoverCompatibleProducts py c d)) :
    ModesAgree py c d := by
  intro first second hc hd htotal one hone two htwo hname filling e hmatches
  have hfirst := validated_nodup hc
  have hsecond := validated_nodup hd
  obtain ⟨verdicts, hleft⟩ := survey_total hfirst hsecond htotal
  obtain ⟨others, hright⟩ := survey_total hsecond hfirst fun two htwo one hone hname =>
    judge_total_comm hname.symm (htotal one hone two htwo hname.symm)
  have hproducts : (outcomeOf others).products = (outcomeOf verdicts).products := by
    unfold SameFindings at h
    rw [discover_validated hd hc, discover_validated hc hd, hleft, hright] at h
    have heq := Except.ok.inj ((h _).1 rfl)
    exact (congrArg Prod.fst heq).symm
  have hadmitted : productOf one filling e ∈ (outcomeOf verdicts).products :=
    (mem_survey hfirst hsecond hleft).2
      ⟨one, hone, two, htwo, hname, judge_admitted.2 ⟨filling, e, hmatches, rfl⟩⟩
  rw [← hproducts, mem_survey hsecond hfirst hright] at hadmitted
  obtain ⟨two', htwo', one', -, -, hjudge⟩ := hadmitted
  obtain ⟨filling', e', -, heq⟩ := judge_admitted.1 hjudge
  have hsymbol : one.name = two'.name := congrArg DiscoveredProduct.symbol heq
  have hsame : two' = two :=
    List.inj_on_of_nodup_map hsecond htwo' htwo (hsymbol.symm.trans hname)
  have hmode := congrArg DiscoveredProduct.tradeCalcMode heq
  rw [hsame] at hmode
  exact hmode

end Discover

/-! ## Every order and either side -/

def Reordered (c c' : CatalogSummary F) : Prop :=
  ∃ entries : List (CatalogEntry F), entries.Perm c.entries ∧
    c' = { c with entries := entries }

/-- The catalog is refused in every order if it lists a name twice. -/
def RefusesTwice (c : CatalogSummary F) : Prop :=
  ¬(names c.entries).Nodup → ∀ c', Reordered c c' →
    ∃ reason, validatedCatalog c' = .error reason

/-- Discovery depends neither on the order of a catalog, nor on its spelling,
nor on the side. -/
structure SideFree (py : Host F) (own peer : CatalogSummary F) : Prop where
  reordered : ∀ c, Reordered own c →
    SameFindings (discoverCompatibleProducts py c peer)
        (discoverCompatibleProducts py own peer)
  reorderedPeer : ∀ c, Reordered peer c →
    SameFindings (discoverCompatibleProducts py own c)
        (discoverCompatibleProducts py own peer)
  decoded : ∀ c, Decodes py own c →
    SameFindings (discoverCompatibleProducts py c peer)
        (discoverCompatibleProducts py own peer)
  decodedPeer : ∀ c, Decodes py peer c →
    SameFindings (discoverCompatibleProducts py own c)
        (discoverCompatibleProducts py own peer)
  exchanged :
    SameFindings (discoverCompatibleProducts py peer own)
        (discoverCompatibleProducts py own peer)
  refused : RefusesTwice own
  refusedPeer : RefusesTwice peer

theorem refusesTwice_iff {c : CatalogSummary F} : RefusesTwice c ↔ Sound c := by
  constructor
  · intro h
    by_contra hsound
    unfold Sound at hsound
    push Not at hsound
    obtain ⟨htwice, hlisted, hnodup⟩ := hsound
    -- the entries that are not tradable first
    let entries := c.entries.filter (fun e => !tradable e) ++ c.entries.filter tradable
    have hperm : entries.Perm c.entries := by
      have hsplit := List.filter_append_perm (fun e => !tradable e) c.entries
      simpa using hsplit
    obtain ⟨reason, hreason⟩ :=
      h htwice { c with entries := entries } ⟨entries, hperm, rfl⟩
    have hpair : entries.Pairwise (fun a b => tradable a = true → a.name ≠ b.name) := by
      refine List.pairwise_append.2 ⟨?_, pairwise_of_nodup hnodup, ?_⟩
      · refine List.pairwise_of_forall_mem_list fun a ha b _ h => ?_
        simp [h] at ha
      · intro a ha b _ h
        simp [h] at ha
    have hok : validatedCatalog { c with entries := entries } = .ok _ :=
      validate_eq_ok.2 ⟨fun e he => hlisted e (hperm.mem_iff.1 he),
        by simp [names], hpair, rfl⟩
    rw [hok] at hreason
    cases hreason
  · rintro hsound htwice c' ⟨entries, hperm, rfl⟩
    cases hr : validatedCatalog { c with entries := entries } with
    | error reason => exact ⟨reason, rfl⟩
    | ok r =>
        obtain ⟨hall, -, hpair, -⟩ := validate_eq_ok.1 hr
        obtain hnodup | ⟨e, he, hbad⟩ | htradable := hsound
        · exact absurd hnodup htwice
        · exact absurd (hall e (hperm.mem_iff.2 he)) hbad
        · exact absurd
            (((hperm.filter _).map _).nodup_iff.1 (nodup_of_pairwise hpair)) htradable

/-- Discovery is free of order and side iff, in both catalogs, a repeated name is refused
in every order, and no two entries that pass every check give `trade_calc_mode` two equal
values that are not the same. -/
theorem discovery_is_side_free_iff (py : Host F) (own peer : CatalogSummary F) :
    SideFree py own peer ↔ Sound own ∧ Sound peer ∧ ModesAgree py own peer := by
  have hreordered : ∀ {c c' : CatalogSummary F}, Reordered c c' → Rearranged id c c' := by
    rintro c _ ⟨entries, hperm, rfl⟩
    exact ⟨entries, hperm, (List.map_id _).symm⟩
  have hdecoded : ∀ {c c' : CatalogSummary F}, Decodes py c c' →
      Rearranged CatalogEntry.ordered c c' := by
    intro c c' h
    obtain ⟨-, -, rfl⟩ := decodes_iff.1 h
    exact ⟨_, rank_perm _ _, rfl⟩
  constructor
  · intro h
    exact ⟨refusesTwice_iff.1 h.refused, refusesTwice_iff.1 h.refusedPeer,
      modesAgree_of_exchanged h.exchanged⟩
  · rintro ⟨hown, hpeer, hmodes⟩
    exact
      { reordered := fun c hc => discover_left harmless_id (hreordered hc) hown
        reorderedPeer := fun c hc => discover_right harmless_id (hreordered hc) hpeer
        decoded := fun c hc => discover_left harmless_ordered (hdecoded hc) hown
        decodedPeer := fun c hc => discover_right harmless_ordered (hdecoded hc) hpeer
        exchanged := discover_exchanged hmodes
        refused := refusesTwice_iff.2 hown
        refusedPeer := refusesTwice_iff.2 hpeer }

namespace Sample

def symbol (tradeMode : Int) : CatalogEntry Seconds :=
  { name := "EURUSD"
    tradeMode := .int tradeMode
    tradeCalcMode := .int 0
    digits := 5
    point := "0.00001"
    tradeTickSize := "0.00001"
    contractSize := "100000"
    volumeMin := "0.01"
    volumeStep := "0.01"
    volumeMax := "50"
    allowedDirections := ["LONG", "SHORT"]
    fillingModes := ["FOK"]
    baseCurrency := "EUR"
    profitCurrency := "USD" }

def catalog (workerId : String) (tradeModes : List Int) : CatalogSummary Seconds :=
  ⟨workerId, 1, 1, tradeModes.map symbol⟩

/-- The second listing of a name is seen only after a tradable first one. -/
theorem order_decides : ¬SideFree host (catalog "1" [4, 0]) (catalog "2" [4]) := by
  intro h
  have hrefused :
      ((discoverCompatibleProducts host (catalog "1" [4, 0]) (catalog "2" [4])).map
      DiscoveryOutcome.admitted).toOption = some false := by decide +kernel
  have hadmitted :
      ((discoverCompatibleProducts host (catalog "1" [0, 4]) (catalog "2" [4])).map
      DiscoveryOutcome.admitted).toOption = some true := by decide +kernel
  have hreordered : Reordered (catalog "1" [4, 0]) (catalog "1" [0, 4]) :=
    ⟨[symbol 0, symbol 4], .swap _ _ _, rfl⟩
  have hsame := h.reordered _ hreordered
  cases hleft : discoverCompatibleProducts host (catalog "1" [0, 4]) (catalog "2" [4]) with
  | error e => simp [hleft, Except.map, Except.toOption] at hadmitted
  | ok o =>
      obtain ⟨o', ho', heq⟩ := map_eq_ok.1 ((hsame _).1 (map_eq_ok.2 ⟨o, hleft, rfl⟩))
      have hverdict : o'.admitted = o.admitted := congrArg (fun f => f.2.2) heq
      rw [hleft] at hadmitted
      rw [ho'] at hrefused
      have htrue : o.admitted = true := Option.some.inj hadmitted
      have hfalse : o'.admitted = false := Option.some.inj hrefused
      rw [hverdict, htrue] at hfalse
      cases hfalse

end Sample

end PairCell.Canonical
