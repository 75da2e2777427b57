import PairCell.Canonical.Identities
import PairCell.Compatibility
import PairCell.Lib.DecimalPlain

/-!
# Plain spellings of numbers

The identity of a product is a hash over the plain spellings of its numbers.
The spelling is a canonical form of the numbers that fit the 28 digits of the
decimal context; zero has one spelling for each of its signs.
-/

namespace PairCell.Canonical

open Lib

variable {F : Type}

/-- What a caller passes as a number. -/
inductive Number (F : Type) where
  | decimal (d : Decimal)
  | value (v : Json F)

namespace Number

def toDecimal (py : Host F) : Number F → Option Decimal
  | .decimal d => some d
  | .value v => Canonical.toDecimal py v

/-- `decimal_text` -/
def decimalText (py : Host F) (v : Number F) : Except PyError (Option String) :=
  match v.toDecimal py with
  | none => .ok none
  | some d => (Canonical.decimalText d).map some

end Number

/-- The text stands for the number and is its own spelling. -/
def SpelledBy (py : Host F) (d : Decimal) (s : String) : Prop :=
  (∃ e, decimalOf s = some e ∧ e.value = d.value) ∧
    (Number.value (.str s)).decimalText py = .ok (some s)

/-- Both numbers have a spelling, and it is the same one exactly for equal numbers. -/
def CanonicalTexts (py : Host F) (v w : Number F) (a b : Decimal) : Prop :=
  ∃ s t, v.decimalText py = .ok (some s) ∧ w.decimalText py = .ok (some t) ∧
    (s = t ↔ a.value = b.value) ∧ SpelledBy py a s ∧ SpelledBy py b t

/-- The condition on two numbers: both fit, and they are not zeros of opposite signs. -/
def Comparable (a b : Decimal) : Prop :=
  Decimal.Short a.value ∧ Decimal.Short b.value ∧
    ¬(a.value = 0 ∧ b.value = 0 ∧ a.neg ≠ b.neg)

section Spelling

variable {py : Host F} {d e : Decimal}

theorem decimalOf_fixedText (hplain : e.Plain) (hfits : e.Fits) :
    decimalOf (String.ofList e.fixedText) = some e := by
  have hclean : clean e.fixedText = e.fixedText := by
    refine clean_id fun c hc => ?_
    obtain h | rfl | rfl := Decimal.mem_fixedText hplain.whole hc
    · exact isClean_digit h
    all_goals decide
  rw [decimalOf, String.toList_ofList, hclean, Decimal.read?_fixedText hplain.whole,
    Option.filter_some, if_pos (decide_eq_true (hfits.storable hplain.whole))]

/-- A number that fits is spelled as its plain decimal. -/
theorem decimalText_plain (hplain : e.Plain) (hfits : e.Fits) (hneg : d.neg = e.neg)
    (h : d.value = e.value) : decimalText d = .ok (String.ofList e.fixedText) := by
  obtain ⟨n, hnormalize, ⟨hexp, rfl⟩ | ⟨hexp, hwhole⟩⟩ :=
    Decimal.normalize_of_plain hplain hfits hneg h
  · simp only [decimalText, hnormalize, if_neg (not_lt.2 hexp)]
    rfl
  · simp only [decimalText, hnormalize, if_pos hexp, hwhole]
    rfl

/-- Every spelling is the one of some plain decimal. -/
theorem decimalText_ok {s : String} (h : decimalText d = .ok s) :
    ∃ e : Decimal, e.Plain ∧ e.Fits ∧ e.neg = d.neg ∧ s = String.ofList e.fixedText := by
  cases hnormalize : d.normalize with
  | none => simp [decimalText, hnormalize] at h
  | some n =>
      obtain ⟨hneg, hfits, hplain⟩ := Decimal.normalize_cases hnormalize
      by_cases hexp : 0 < n.exp
      · cases hwhole : n.toWhole with
        | none => simp [decimalText, hnormalize, hexp, hwhole] at h
        | some w =>
            simp only [decimalText, hnormalize, if_pos hexp, hwhole, pure, Except.pure,
              Except.ok.injEq] at h
            obtain ⟨hsign, hw, hwfits⟩ := Decimal.toWhole_spec hwhole
            exact ⟨w, hw, hwfits, hsign.trans hneg, h.symm⟩
      · simp only [decimalText, hnormalize, if_neg hexp, pure, Except.pure,
          Except.ok.injEq] at h
        exact ⟨n, hplain (not_lt.1 hexp), hfits, hneg, h.symm⟩

theorem number_decimalText {v : Number F} (hv : v.toDecimal py = some d) :
    v.decimalText py = (decimalText d).map some := by
  rw [Number.decimalText, hv]

theorem toDecimal_text (s : String) : (Number.value (.str s)).toDecimal py =
    decimalOf s := rfl

theorem spelledBy_plain (hplain : e.Plain) (hfits : e.Fits) (h : e.value = d.value) :
    SpelledBy py d (String.ofList e.fixedText) := by
  have hread := decimalOf_fixedText hplain hfits
  refine ⟨⟨e, hread, h⟩, ?_⟩
  rw [number_decimalText ((toDecimal_text _).trans hread),
    decimalText_plain hplain hfits rfl rfl]
  rfl

/-- A number with a spelling that stands for it fits. -/
theorem short_of_spelled {s : String} (htext : decimalText d = .ok s)
    (h : SpelledBy py d s) :
    ∃ e : Decimal, e.Plain ∧ e.Fits ∧ e.neg = d.neg ∧ e.value = d.value ∧
      s = String.ofList e.fixedText := by
  obtain ⟨e, hplain, hfits, hneg, rfl⟩ := decimalText_ok htext
  obtain ⟨⟨e', hread, hvalue⟩, -⟩ := h
  rw [decimalOf_fixedText hplain hfits] at hread
  cases hread
  exact ⟨e, hplain, hfits, hneg, hvalue, rfl⟩

theorem fixedText_inj (hd : d.Plain) (hdfits : d.Fits) (he : e.Plain) (hefits : e.Fits)
    (h : String.ofList d.fixedText = String.ofList e.fixedText) : d = e := by
  have hread := decimalOf_fixedText hd hdfits
  rw [h, decimalOf_fixedText he hefits] at hread
  exact (Option.some.inj hread).symm

end Spelling

theorem canonicalTexts_iff (py : Host F) {v w : Number F} {a b : Decimal}
    (hv : v.toDecimal py = some a) (hw : w.toDecimal py = some b) :
    CanonicalTexts py v w a b ↔ Comparable a b := by
  unfold CanonicalTexts
  rw [number_decimalText hv, number_decimalText hw]
  simp only [map_eq_ok]
  constructor
  · rintro ⟨s, t, ⟨s', hs, hs'⟩, ⟨t', ht, ht'⟩, hiff, hspelled, hspelled'⟩
    cases hs'
    cases ht'
    obtain ⟨e, he, hfits, hneg, hvalue, rfl⟩ := short_of_spelled hs hspelled
    obtain ⟨e', he', hfits', hneg', hvalue', rfl⟩ := short_of_spelled ht hspelled'
    refine ⟨(Decimal.short_iff a).2 ⟨e, he, hfits, hneg, hvalue⟩,
      (Decimal.short_iff b).2 ⟨e', he', hfits', hneg', hvalue'⟩, ?_⟩
    rintro ⟨hazero, hbzero, hsigns⟩
    have hsame := fixedText_inj he hfits he' hfits' (hiff.2 (hazero.trans hbzero.symm))
    exact hsigns (by rw [← hneg, ← hneg', hsame])
  · rintro ⟨ha, hb, hzeros⟩
    obtain ⟨e, he, hfits, hneg, hvalue⟩ := (Decimal.short_iff a).1 ha
    obtain ⟨e', he', hfits', hneg', hvalue'⟩ := (Decimal.short_iff b).1 hb
    refine ⟨_, _, ⟨_, decimalText_plain he hfits hneg.symm hvalue.symm, rfl⟩,
      ⟨_, decimalText_plain he' hfits' hneg'.symm hvalue'.symm, rfl⟩, ?_,
      spelledBy_plain he hfits hvalue, spelledBy_plain he' hfits' hvalue'⟩
    constructor
    · intro htext
      rw [← hvalue, ← hvalue', fixedText_inj he hfits he' hfits' htext]
    · intro heq
      have hsigns : a.neg = b.neg := by
        by_cases hzero : a.value = 0
        · by_contra hne
          exact hzeros ⟨hzero, heq ▸ hzero, hne⟩
        · exact Decimal.neg_eq_of_value heq hzero
      have hsame : e = e' := he.eq_of_value he' (by rw [hneg, hneg', hsigns])
        (by rw [hvalue, hvalue', heq])
      rw [hsame]

/-! ## Identities of products -/

/-- The five numbers of a product. -/
structure Contract (α : Type) where
  canonicalPoint : α
  volumeMax : α
  contractSize : α
  volumeMin : α
  volumeStep : α

/-- Number by number. -/
structure Contract.Both {α β : Type} (r : α → β → Prop) (c : Contract α)
    (d : Contract β) : Prop where
  canonicalPoint : r c.canonicalPoint d.canonicalPoint
  volumeMax : r c.volumeMax d.volumeMax
  contractSize : r c.contractSize d.contractSize
  volumeMin : r c.volumeMin d.volumeMin
  volumeStep : r c.volumeStep d.volumeStep

def Contract.economics (py : Host F) (c : Contract (Number F)) :
    Except PyError (Option Economics) := do
  let canonicalPoint ← c.canonicalPoint.decimalText py
  let volumeMax ← c.volumeMax.decimalText py
  let contractSize ← c.contractSize.decimalText py
  let volumeMin ← c.volumeMin.decimalText py
  let volumeStep ← c.volumeStep.decimalText py
  match canonicalPoint, volumeMax, contractSize, volumeMin, volumeStep with
  | some p, some v, some c, some m, some s => pure (some ⟨p, v, c, m, s⟩)
  | _, _, _, _, _ => pure none

def Reads (py : Host F) (v : Number F) (d : Decimal) : Prop := v.toDecimal py = some d

/-- The text that is hashed. -/
def hashed (py : Host F) (p : DiscoveredProduct F) : Except PyError (List Char) :=
  canonicalJson py (.obj p.compatibilitySummary)

/-- The hash has no collision between these two. -/
def ToldApart (py : Host F) (p q : DiscoveredProduct F) : Prop :=
  shortHash py (.obj p.compatibilitySummary) = shortHash py (.obj q.compatibilitySummary) →
    hashed py p = hashed py q

section Identity

variable {py : Host F} {c c' : Contract (Number F)} {n n' : Contract Decimal}

theorem economics_ok (h : c.Both (Reads py) n) (h' : c'.Both (Reads py) n')
    (hn : n.Both Comparable n') :
    ∃ e e', c.economics py = .ok (some e) ∧ c'.economics py = .ok (some e') ∧
      (e = e' ↔ n.Both (fun a b => a.value = b.value) n') := by
  obtain ⟨p, p', hp, hp', hpoint, -⟩ :=
    (canonicalTexts_iff py h.canonicalPoint h'.canonicalPoint).2 hn.canonicalPoint
  obtain ⟨v, v', hv, hv', hmax, -⟩ :=
    (canonicalTexts_iff py h.volumeMax h'.volumeMax).2 hn.volumeMax
  obtain ⟨k, k', hk, hk', hsize, -⟩ :=
    (canonicalTexts_iff py h.contractSize h'.contractSize).2 hn.contractSize
  obtain ⟨m, m', hm, hm', hmin, -⟩ :=
    (canonicalTexts_iff py h.volumeMin h'.volumeMin).2 hn.volumeMin
  obtain ⟨s, s', hs, hs', hstep, -⟩ :=
    (canonicalTexts_iff py h.volumeStep h'.volumeStep).2 hn.volumeStep
  refine ⟨⟨p, v, k, m, s⟩, ⟨p', v', k', m', s'⟩, ?_, ?_, ?_⟩
  · rw [Contract.economics, hp, hv, hk, hm, hs]
    rfl
  · rw [Contract.economics, hp', hv', hk', hm', hs']
    rfl
  · rw [Economics.mk.injEq, hpoint, hmax, hsize, hmin, hstep]
    exact ⟨fun ⟨h₁, h₂, h₃, h₄, h₅⟩ => ⟨h₁, h₂, h₃, h₄, h₅⟩,
      fun h => ⟨h.canonicalPoint, h.volumeMax, h.contractSize, h.volumeMin, h.volumeStep⟩⟩

variable {one : CatalogEntry F} {filling : String} {e e' : Economics}

theorem summary_plain (hmode : one.tradeCalcMode.toJson.special = false) :
    (Json.obj (productOf one filling e).compatibilitySummary).special = false := by
  simp [Json.special, Json.specialFields, Json.specialItems,
    DiscoveredProduct.compatibilitySummary, productOf, hmode, List.insertionSort]

theorem summary_distinct (p : DiscoveredProduct F) :
    (Json.obj p.compatibilitySummary).Distinct := by
  simp [Json.Distinct, Json.DistinctFields, DiscoveredProduct.compatibilitySummary,
    scalar_distinct, Json.distinctItems_iff]

/-- The hashed text determines the five numbers. -/
theorem hashed_inj (hmode : one.tradeCalcMode.toJson.special = false)
    (h : hashed py (productOf one filling e) =
      hashed py (productOf one filling e')) : e = e' := by
  simp only [hashed, canonicalJson, summary_plain hmode, Bool.false_eq_true, if_false,
    Except.ok.injEq] at h
  have hloads := congrArg (loads py.floats) h
  rw [loads_arrived (summary_distinct _), loads_arrived (summary_distinct _),
    Option.some_inj, arrived_obj, arrived_obj, Json.obj.injEq] at hloads
  have hkeys : ∀ e : Economics,
      (((productOf one filling e).compatibilitySummary).map Prod.fst).Nodup := by
    intro e
    simp [DiscoveredProduct.compatibilitySummary]
  have hfield : ∀ k,
      (Json.field? (productOf one filling e).compatibilitySummary k).map
          (arrived ⟨true, true⟩) =
        (Json.field? (productOf one filling e').compatibilitySummary k).map
          (arrived ⟨true, true⟩) := by
    intro k
    rw [← field?_arrived (hkeys e), ← field?_arrived (hkeys e'), hloads]
  have hpoint := hfield "canonical_point"
  have hmax := hfield "volume_max"
  have hsize := hfield "contract_size"
  have hmin := hfield "volume_min"
  have hstep := hfield "volume_step"
  simp [DiscoveredProduct.compatibilitySummary, productOf, Json.field?]
    at hpoint hmax hsize hmin hstep
  obtain ⟨p, v, k, m, s⟩ := e
  simp only at hpoint hmax hsize hmin hstep
  subst hpoint hmax hsize hmin hstep
  rfl

theorem productId_ok (hmode : one.tradeCalcMode.toJson.special = false) :
    ∃ id, (productOf one filling e).productId py = .ok id := by
  simp only [DiscoveredProduct.productId, shortHash, hash, canonicalJson,
    summary_plain hmode, Bool.false_eq_true, if_false, Except.map]
  exact ⟨_, rfl⟩

/-- Two identities of products of one symbol agree if their short hashes do. -/
theorem shortHash_of_productId (hmode : one.tradeCalcMode.toJson.special = false)
    (h : (productOf one filling e).productId py =
      (productOf one filling e').productId py) :
    shortHash py (.obj (productOf one filling e).compatibilitySummary) =
      shortHash py (.obj (productOf one filling e').compatibilitySummary) := by
  simp only [DiscoveredProduct.productId, shortHash, hash, canonicalJson,
    summary_plain hmode, Bool.false_eq_true, if_false, Except.map, Except.ok.injEq] at h ⊢
  have hlist := congrArg String.toList h
  simp only [String.toList_append] at hlist
  exact String.toList_injective (List.append_cancel_left hlist)

end Identity

/-- The spelling is a canonical form of two numbers exactly if they are comparable;
products of comparable numbers have one identity exactly if the numbers are equal,
collisions of the hash apart. -/
theorem decimal_text_is_canonical (py : Host F) :
    (∀ (v w : Number F) (a b : Decimal), Reads py v a → Reads py w b →
      (CanonicalTexts py v w a b ↔ Comparable a b)) ∧
    (∀ (one : CatalogEntry F) (filling : String) (c c' : Contract (Number F))
      (n n' : Contract Decimal), one.tradeCalcMode.toJson.special = false →
      c.Both (Reads py) n → c'.Both (Reads py) n' →
      n.Both Comparable n' →
        ∃ e e', c.economics py = .ok (some e) ∧ c'.economics py = .ok (some e') ∧
          let p := productOf one filling e
          let q := productOf one filling e'
          (∃ id, p.productId py = .ok id) ∧ (∃ id, q.productId py = .ok id) ∧
          (n.Both (fun a b => a.value = b.value) n' → p.productId py = q.productId py) ∧
          (ToldApart py p q → p.productId py = q.productId py →
            n.Both (fun a b => a.value = b.value) n')) := by
  refine ⟨fun v w a b hv hw => canonicalTexts_iff py hv hw, ?_⟩
  intro one filling c c' n n' hmode hc hc' hn
  obtain ⟨e, e', he, he', hiff⟩ := economics_ok hc hc' hn
  refine ⟨e, e', he, he', productId_ok hmode, productId_ok hmode, ?_, ?_⟩
  · intro hsame
    rw [hiff.2 hsame]
  · intro htold hid
    exact hiff.1 (hashed_inj hmode (htold (shortHash_of_productId hmode hid)))

namespace Sample

/-- One and a half, as a text in other digits and as a decimal with another exponent. -/
theorem one_and_a_half_is_canonical :
    CanonicalTexts host (.value (.str "\u3000+١.٥0\x1f")) (.decimal ⟨false, 15, -1⟩)
      ⟨false, 150, -2⟩ ⟨false, 15, -1⟩ :=
  ((decimal_text_is_canonical host).1 (.value (.str "\u3000+١.٥0\x1f"))
    (.decimal ⟨false, 15, -1⟩)
    ⟨false, 150, -2⟩ ⟨false, 15, -1⟩ (by unfold Reads; decide +kernel) rfl).2
    ⟨⟨15, 1, by decide, by decide, by norm_num [Decimal.value]⟩,
      ⟨15, 1, by decide, by decide, by norm_num [Decimal.value]⟩, fun h => h.2.2 rfl⟩

/-- Zero and minus zero are equal and have two texts, and the least number of 29 digits has
no text. -/
theorem zeros_have_two_texts :
    ¬(∀ (v w : Number Seconds) (a b : Decimal), Reads host v a → Reads host w b →
      CanonicalTexts host v w a b) ∧
    (Number.value (.int 0)).decimalText host = .ok (some "0") ∧
    (Number.value (.str "-0")).decimalText host = .ok (some "-0") ∧
    (Number.value (.int (10 ^ 28))).decimalText host = .error .invalidOperation := by
  have hzero : (Number.value (.int 0)).decimalText host = .ok (some "0") := by
    decide +kernel
  have hminus : (Number.value (.str "-0")).decimalText host = .ok (some "-0") := by
    decide +kernel
  refine ⟨?_, hzero, hminus, by decide +kernel⟩
  intro hall
  obtain ⟨s, t, hs, ht, hiff, -⟩ :=
    hall (.value (.int 0)) (.value (.str "-0")) ⟨false, 0, 0⟩
    ⟨true, 0, 0⟩ (by unfold Reads; decide +kernel) (by unfold Reads; decide +kernel)
  rw [hzero] at hs
  rw [hminus] at ht
  cases hs
  cases ht
  exact absurd (hiff.2 (by norm_num [Decimal.value])) (by decide)

end Sample

end PairCell.Canonical
