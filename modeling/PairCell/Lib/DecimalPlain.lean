import Mathlib.Algebra.Order.Ring.Rat
import PairCell.Lib.DecimalValue

/-!
# Plain notation

Every decimal has one spelling without an exponent that has no useless zero.
Reading undoes it, and the shortest form finds it for the numbers that fit the
28 digits.
-/

namespace PairCell.Lib.Decimal

/-- No exponent above zero, and no zero at the end of a fraction. -/
structure Plain (d : Decimal) : Prop where
  whole : d.exp ≤ 0
  trimmed : d.exp = 0 ∨ d.coeff % 10 ≠ 0

/-- The coefficient and the exponent are within the context. -/
structure Fits (d : Decimal) : Prop where
  short : d.coeff < 10 ^ precision
  fine : tiny ≤ d.exp

/-- A number of at most 28 digits with at most 1000026 of them after the point. -/
def Short (v : Rat) : Prop :=
  ∃ (n : Int) (k : Nat), n.natAbs < 10 ^ precision ∧ (k : Int) ≤ -tiny ∧
    v = n * 10 ^ (-k : Int)

def withSign (d : Decimal) (neg : Bool) : Decimal := { d with neg := neg }

section Sign

variable {d e f : Decimal}

theorem value_withSign (d : Decimal) (neg : Bool) :
    (d.withSign neg).value = (if neg then -1 else 1) * (d.withSign false).value := by
  cases neg <;> simp [value, withSign]

theorem withSign_self (d : Decimal) : d.withSign d.neg = d := rfl

theorem value_false_of_value (hneg : d.neg = e.neg) (h : d.value = e.value) :
    (d.withSign false).value = (e.withSign false).value := by
  rw [← d.withSign_self, ← e.withSign_self, value_withSign d, value_withSign e, hneg] at h
  split at h
  · exact mul_left_cancel₀ (by norm_num) h
  · exact mul_left_cancel₀ (by norm_num) h

theorem value_eq_zero (d : Decimal) : d.value = 0 ↔ d.coeff = 0 := by
  have hpow : (10 : Rat) ^ d.exp ≠ 0 := zpow_ne_zero _ (by norm_num)
  unfold value
  split <;> simp [hpow]

/-- Two numbers that are one number other than zero have one sign. -/
theorem neg_eq_of_value (h : d.value = e.value) (hne : d.value ≠ 0) : d.neg = e.neg := by
  have hpos : ∀ c : Decimal, c.value ≠ 0 → (c.neg = true ↔ c.value < 0) := by
    intro c hc
    have hcoeff : (0 : Rat) < c.coeff := by
      exact_mod_cast Nat.pos_of_ne_zero fun hzero => hc (c.value_eq_zero.2 hzero)
    have hpower : (0 : Rat) < c.coeff * 10 ^ c.exp :=
      mul_pos hcoeff (zpow_pos (by norm_num) _)
    cases hneg : c.neg with
    | true => simpa [value, hneg] using hpower
    | false => simpa [value, hneg] using hpower.le
  rw [Bool.eq_iff_iff, hpos d hne, hpos e (h ▸ hne), h]

end Sign

section Plain

variable {d e : Decimal}

/-- A number has one plain spelling of each sign. -/
theorem Plain.eq_of_value (hd : Plain d) (he : Plain e) (hneg : d.neg = e.neg)
    (h : d.value = e.value) : d = e := by
  wlog hle : e.exp ≤ d.exp generalizing d e with hswap
  · exact (hswap he hd hneg.symm h.symm (le_of_not_ge hle)).symm
  have hpad := pad_of_value rfl rfl (value_false_of_value hneg h) hle
  have hcoeff : e.coeff = d.coeff * 10 ^ (d.exp - e.exp).toNat :=
    congrArg Decimal.coeff hpad
  have hexp : d.exp = e.exp := by
    by_contra hne
    -- the one with the lower exponent would end with a zero
    have hlow : (d.exp - e.exp).toNat = (d.exp - e.exp).toNat - 1 + 1 := by omega
    rw [hlow, pow_succ, ← mul_assoc] at hcoeff
    have hexpd := hd.whole
    obtain hzero | hdigit := he.trimmed
    · omega
    · omega
  rw [hexp, Int.sub_self, Int.toNat_zero, pow_zero, mul_one] at hcoeff
  obtain ⟨neg, coeff, exp⟩ := d
  obtain ⟨neg', coeff', exp'⟩ := e
  simp only at hneg hcoeff hexp
  rw [hneg, hcoeff, hexp]

theorem left_le (h : d.exp ≤ 0) : d.left ≤ d.digits.length := by
  unfold left
  omega

theorem read?_fixedText (h : d.exp ≤ 0) : read? d.fixedText = some d := by
  have hread := read?_place d (left_le h)
  rw [sub_self, exponent, if_pos rfl, List.append_nil] at hread
  exact hread

theorem mem_fixedText (h : d.exp ≤ 0) {c : Char} (hc : c ∈ d.fixedText) :
    c.isDigit = true ∨ c = '.' ∨ c = '-' :=
  mem_signed_place (left_le h) hc

end Plain

/-! ## The context -/

section Context

variable {d e f : Decimal}

theorem length_le_precision (h : d.coeff < 10 ^ precision) : d.digits.length ≤ precision :=
  (Nat.length_toDigits_le_iff (by omega) (by decide)).2 h

theorem Fits.storable (hfits : Fits d) (h : d.exp ≤ 0) : d.Storable := by
  have hlength := length_le_precision hfits.short
  have hfine := hfits.fine
  have hlimits : precision = 28 ∧ tiny = -1000026 ∧ storedTiny = -1999999999999999997 ∧
      storedLargest = 999999999999999999 := ⟨rfl, rfl, rfl, rfl⟩
  unfold Storable left
  omega

theorem divHalfEven_le (n m : Nat) : divHalfEven n m ≤ n / m + 1 := by
  unfold divHalfEven
  simp only
  split <;> omega

theorem fix_fits (h : d.fix = some f) : f.neg = d.neg ∧ Fits f ∧
    (d.coeff = 0 → f.coeff = 0) := by
  have hlt := d.digits_lt
  have hleft : d.left = d.exp + d.digits.length := rfl
  have htiny : tiny ≤ largestExponent := by decide
  unfold fix at h
  split at h
  · next hzero =>
    cases h
    exact ⟨rfl, ⟨by simp [hzero], le_max_left _ _⟩, fun h => h⟩
  · next hcoeff =>
    simp only at h
    generalize hleast : max tiny (d.left - precision) = least at h
    split at h
    · cases h
    · split at h
      · next hroom =>
        cases h
        have hlength : d.digits.length ≤ precision := by omega
        exact ⟨rfl, ⟨hlt.trans_le (Nat.pow_le_pow_right (by omega) hlength), by omega⟩,
          fun h => h⟩
      · -- as many digits are rounded away as there are too many
        have hsplit : d.coeff < 10 ^ precision * 10 ^ (least - d.exp).toNat := by
          rw [← pow_add]
          exact hlt.trans_le (Nat.pow_le_pow_right (by omega) (by omega))
        have hquotient : d.coeff / 10 ^ (least - d.exp).toNat < 10 ^ precision :=
          Nat.div_lt_of_lt_mul (by rwa [mul_comm])
        have hrounded := divHalfEven_le d.coeff (10 ^ (least - d.exp).toNat)
        have hpower : 10 ^ precision = 10000000000000000000000000000 := by decide
        split at h
        · split at h
          · cases h
          · cases h
            exact ⟨rfl, ⟨by simp only; omega, by simp only; omega⟩,
              fun h => (hcoeff h).elim⟩
        · next hshort =>
          cases h
          exact ⟨rfl, ⟨by simp only; omega, by simp only; omega⟩, fun h => (hcoeff h).elim⟩

theorem fix_of_fits (hplain : Plain d) (hfits : Fits d) : d.fix = some d := by
  have hleft : d.left = d.exp + d.digits.length := rfl
  have hlength := length_le_precision hfits.short
  have hwhole := hplain.whole
  have hfine := hfits.fine
  have htop : top = 999972 := rfl
  unfold fix
  split
  · next hzero =>
    have hexp : d.exp = 0 := hplain.trimmed.resolve_right (by simp [hzero])
    obtain ⟨neg, coeff, exp⟩ := d
    simp only at hexp
    subst hexp
    rfl
  · simp only
    rw [if_neg (by omega), if_pos (by omega)]

/-- Enough steps remove every zero at the end, unless the exponent is the largest one. -/
theorem stripZeros_spec {n : Nat} (hn : d.coeff < 10 ^ n) (hcoeff : d.coeff ≠ 0) :
    (stripZeros n d).neg = d.neg ∧ (stripZeros n d).coeff ≤ d.coeff ∧
    d.exp ≤ (stripZeros n d).exp ∧
      (stripZeros n d).coeff ≠ 0 ∧
      ((stripZeros n d).coeff % 10 ≠ 0 ∨ largestExponent ≤ (stripZeros n d).exp) := by
  induction n generalizing d with
  | zero => omega
  | succ n ih =>
      rw [stripZeros]
      split
      · next hstrip =>
        obtain ⟨hzero, -⟩ := hstrip
        have hless : d.coeff / 10 < 10 ^ n := by
          rw [pow_succ] at hn
          exact Nat.div_lt_of_lt_mul (by rwa [mul_comm])
        obtain ⟨hneg, hle, hexp, hne, hlast⟩ :=
          ih (d := { d with coeff := d.coeff / 10, exp := d.exp + 1 }) hless
            (by simp only; omega)
        simp only at hle hexp
        exact ⟨hneg, by omega, by omega, hne, hlast⟩
      · next hstay =>
        exact ⟨rfl, le_rfl, le_rfl, hcoeff, by omega⟩

theorem normalize_cases {n : Decimal} (h : d.normalize = some n) :
    n.neg = d.neg ∧ Fits n ∧ (n.exp ≤ 0 → Plain n) := by
  rw [normalize, Option.map_eq_some_iff] at h
  obtain ⟨f, hfix, rfl⟩ := h
  obtain ⟨hneg, hfits, -⟩ := fix_fits hfix
  split
  · next hzero =>
    exact ⟨hneg, ⟨hfits.short, by simp [tiny, largestExponent, precision]⟩,
      fun _ => ⟨le_rfl, .inl rfl⟩⟩
  · next hcoeff =>
    obtain ⟨hsign, hle, hexp, -, hlast⟩ := stripZeros_spec f.digits_lt hcoeff
    have hlargest : largestExponent = 999999 := rfl
    refine ⟨hsign.trans hneg, ⟨hle.trans_lt hfits.short, hfits.fine.trans hexp⟩,
      fun hwhole => ?_⟩
    exact ⟨hwhole, .inr (hlast.resolve_right (by omega))⟩

theorem toWhole_spec {n w : Decimal} (h : n.toWhole = some w) :
    w.neg = n.neg ∧ Plain w ∧ Fits w := by
  unfold toWhole at h
  simp only at h
  split at h
  · next hshort =>
    cases h
    exact ⟨rfl, ⟨le_rfl, .inl rfl⟩, ⟨hshort, by simp [tiny, largestExponent, precision]⟩⟩
  · cases h

theorem value_whole {n : Decimal} (h : 0 ≤ n.exp) :
    (⟨n.neg, n.coeff * 10 ^ n.exp.toNat, 0⟩ : Decimal).value = n.value := by
  obtain ⟨k, hk⟩ := Int.eq_ofNat_of_zero_le h
  simp [value, hk]

/-- The sign takes no part in the rounding. -/
theorem fix_unsigned (hcoeff : e.coeff = d.coeff) (hexp : e.exp = d.exp) :
    e.fix = d.fix.map (withSign · e.neg) := by
  have hleft : e.left = d.left := by rw [left, left, digits, digits, hcoeff, hexp]
  have hself : d.withSign e.neg = e := by
    obtain ⟨neg, coeff, exp⟩ := e
    simp only at hcoeff hexp
    rw [withSign, ← hcoeff, ← hexp]
  unfold fix
  rw [hcoeff, hleft, hexp]
  by_cases hzero : d.coeff = 0
  · rw [if_pos hzero, if_pos hzero, ← hexp]
    rfl
  rw [if_neg hzero, if_neg hzero]
  simp only
  by_cases htop : top < d.left - precision
  · rw [if_pos htop, if_pos htop, Option.map_none]
  rw [if_neg htop, if_neg htop]
  by_cases hroom : max tiny (d.left - precision) ≤ d.exp
  · rw [if_pos hroom, if_pos hroom, Option.map_some, hself]
  rw [if_neg hroom, if_neg hroom, apply_ite (Option.map _), apply_ite (Option.map _)]
  rfl

theorem stripZeros_unsigned (n : Nat) (hcoeff : e.coeff = d.coeff) (hexp : e.exp = d.exp) :
    stripZeros n e = (stripZeros n d).withSign e.neg := by
  induction n generalizing d e with
  | zero =>
      obtain ⟨neg, coeff, exp⟩ := e
      simp only at hcoeff hexp
      rw [hcoeff, hexp]
      rfl
  | succ n ih =>
      rw [stripZeros, stripZeros, hcoeff, hexp, apply_ite (withSign · e.neg)]
      congr 1
      · exact ih rfl rfl
      · obtain ⟨neg, coeff, exp⟩ := e
        simp only at hcoeff hexp
        rw [hcoeff, hexp]
        rfl

theorem normalize_unsigned (hcoeff : e.coeff = d.coeff) (hexp : e.exp = d.exp) :
    e.normalize = d.normalize.map (withSign · e.neg) := by
  rw [normalize, fix_unsigned hcoeff hexp, normalize, Option.map_map, Option.map_map]
  congr 1
  funext f
  have hstrip : stripZeros f.digits.length (f.withSign e.neg) =
      (stripZeros f.digits.length f).withSign e.neg := stripZeros_unsigned _ rfl rfl
  simp only [Function.comp_apply]
  rw [apply_ite (withSign · e.neg), ← hstrip]
  rfl

/-- The shortest form depends on the sign and the value only. -/
theorem normalize_congr (hneg : d.neg = e.neg) (h : d.value = e.value) :
    d.normalize = e.normalize := by
  by_cases hzero : d.coeff = 0
  · have hzeroe : e.coeff = 0 := by rw [← value_eq_zero, ← h, value_eq_zero, hzero]
    simp [normalize, fix, hzero, hzeroe, hneg]
  · have hunsigned : (d.withSign false).normalize = (e.withSign false).normalize :=
      normalize_of_value rfl rfl hzero (value_false_of_value hneg h)
    calc d.normalize
        = (d.withSign false).normalize.map (withSign · d.neg) := normalize_unsigned rfl rfl
      _ = (e.withSign false).normalize.map (withSign · e.neg) := by rw [hunsigned, hneg]
      _ = e.normalize := (normalize_unsigned (e := e) (d := e.withSign false) rfl rfl).symm

/-- The shortest form of a number that fits is its plain spelling, or becomes it without
its exponent. -/
theorem normalize_of_plain (hplain : Plain e) (hfits : Fits e) (hneg : d.neg = e.neg)
    (h : d.value = e.value) :
    ∃ n, d.normalize = some n ∧ (n.exp ≤ 0 ∧ n = e ∨ 0 < n.exp ∧ n.toWhole = some e) := by
  rw [normalize_congr hneg h]
  obtain ⟨n, hn⟩ : ∃ n, e.normalize = some n := by
    rw [normalize, fix_of_fits hplain hfits]
    exact ⟨_, rfl⟩
  obtain ⟨hsign, -, hspelled⟩ := normalize_cases hn
  have hvalue : n.value = e.value := by
    rw [normalize, fix_of_fits hplain hfits, Option.map_some] at hn
    cases hn
    split
    · next hzero => rw [(value_eq_zero e).2 hzero, value_eq_zero, hzero]
    · exact value_stripZeros _ e
  refine ⟨n, hn, ?_⟩
  obtain hexp | hexp := le_or_gt n.exp 0
  · exact .inl ⟨hexp, (hspelled hexp).eq_of_value hplain hsign hvalue⟩
  · have hwhole : (⟨n.neg, n.coeff * 10 ^ n.exp.toNat, 0⟩ : Decimal) = e :=
      Plain.eq_of_value ⟨le_rfl, .inl rfl⟩ hplain hsign
        ((value_whole hexp.le).trans hvalue)
    have hshort := hfits.short
    rw [← hwhole] at hshort
    refine .inr ⟨hexp, ?_⟩
    rw [toWhole, if_pos hshort, ← hwhole]

theorem exists_plain {n k : Nat} (hn : n < 10 ^ precision) (hk : (k : Int) ≤ -tiny)
    (neg : Bool) :
    ∃ e, Plain e ∧ Fits e ∧ e.neg = neg ∧ e.value = (⟨neg, n, -k⟩ : Decimal).value := by
  induction k generalizing n with
  | zero =>
      exact ⟨⟨neg, n, 0⟩, ⟨le_rfl, .inl rfl⟩, ⟨hn, show tiny ≤ 0 by decide⟩, rfl, by simp⟩
  | succ k ih =>
      by_cases hzero : n % 10 = 0
      · obtain ⟨e, hplain, hfits, hneg, hvalue⟩ := ih (n := n / 10) (by omega) (by omega)
        refine ⟨e, hplain, hfits, hneg, hvalue.trans ?_⟩
        have hone := value_pad (⟨neg, n / 10, -k⟩ : Decimal) 1
        have hcoeff : n / 10 * 10 ^ 1 = n := by omega
        simp only [pad, hcoeff] at hone
        rw [← hone]
        push_cast
        congr 2
        ring
      · exact ⟨⟨neg, n, -(k + 1 : Nat)⟩, ⟨by simp only; omega, .inr hzero⟩,
          ⟨hn, by simp only; omega⟩, rfl, rfl⟩

/-- The numbers whose plain spelling fits. -/
theorem short_iff (d : Decimal) :
    Short d.value ↔ ∃ e, Plain e ∧ Fits e ∧ e.neg = d.neg ∧ e.value = d.value := by
  constructor
  · rintro ⟨n, k, hn, hk, hvalue⟩
    obtain ⟨e, hplain, hfits, hneg, he⟩ := exists_plain hn hk d.neg
    refine ⟨e, hplain, hfits, hneg, he.trans ?_⟩
    have hscaled : (ofScaled n (-k)).value = d.value := by rw [value_ofScaled, hvalue]
    by_cases hzero : d.value = 0
    · have hcoeff : (ofScaled n (-k)).coeff = 0 := by rw [← value_eq_zero, hscaled, hzero]
      rw [hzero, value_eq_zero]
      exact hcoeff
    · have hsign : d.neg = (ofScaled n (-k)).neg := neg_eq_of_value hscaled.symm hzero
      rw [hsign, ← hscaled]
      rfl
  · rintro ⟨e, hplain, hfits, -, hvalue⟩
    have hwhole := hplain.whole
    have hfine := hfits.fine
    have hcoeff : e.signed.natAbs = e.coeff := by
      unfold signed
      split <;> simp
    refine ⟨e.signed, (-e.exp).toNat, hcoeff ▸ hfits.short, by omega, ?_⟩
    rw [← hvalue, value_signed]
    congr 2
    omega

end Context

end PairCell.Lib.Decimal
