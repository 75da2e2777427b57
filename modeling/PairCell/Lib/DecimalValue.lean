import Mathlib.Algebra.Order.Field.Basic
import Mathlib.Data.Rat.Defs
import Mathlib.Tactic.FieldSimp
import Mathlib.Tactic.Ring
import PairCell.Lib.Decimal

/-!
# The value of a decimal

Exact addition and multiplication, and what depends on the value of a decimal
only: its last zeros make no difference to its shortest form.
-/

namespace PairCell.Lib.Decimal

/-- The coefficient with its sign. -/
def signed (d : Decimal) : Int := if d.neg then -d.coeff else d.coeff

def ofScaled (n e : Int) : Decimal := ⟨decide (n < 0), n.natAbs, e⟩

/-- The exact sum. -/
def add (a b : Decimal) : Decimal :=
  let e := min a.exp b.exp
  ofScaled (a.signed * 10 ^ (a.exp - e).toNat + b.signed * 10 ^ (b.exp - e).toNat) e

/-- The exact product. -/
def mul (a b : Decimal) : Decimal := ⟨a.neg != b.neg, a.coeff * b.coeff, a.exp + b.exp⟩

/-- The exact number in its shortest form. -/
def trim (d : Decimal) : Decimal :=
  if d.coeff = 0 then { d with exp := 0 } else stripZeros d.digits.length d

/-- The same number with more zeros. -/
def pad (d : Decimal) (k : Nat) : Decimal := ⟨d.neg, d.coeff * 10 ^ k, d.exp - k⟩

section Value

variable {a b d : Decimal}

theorem value_signed (d : Decimal) : d.value = d.signed * 10 ^ d.exp := by
  unfold value signed
  split <;> push_cast <;> ring

theorem value_ofScaled (n e : Int) : (ofScaled n e).value = n * 10 ^ e := by
  rw [value_signed]
  have hsigned : (ofScaled n e).signed = n := by
    unfold ofScaled signed
    by_cases hn : n < 0
    · simp only [hn, decide_true, if_true]
      omega
    · simp only [hn, decide_false, Bool.false_eq_true, if_false]
      omega
  rw [hsigned]
  rfl

theorem value_ofInt (n : Int) : (ofInt n).value = n := by
  have h := value_ofScaled n 0
  rw [zpow_zero, mul_one] at h
  exact h

theorem zpow_split {e e' : Int} (h : e' ≤ e) :
    (10 : ℚ) ^ e = 10 ^ (e - e').toNat * 10 ^ e' := by
  rw [← zpow_natCast, Int.toNat_of_nonneg (by omega), ← zpow_add₀ (by norm_num)]
  congr 1
  omega

theorem value_add (a b : Decimal) : (a.add b).value = a.value + b.value := by
  rw [add, value_ofScaled, value_signed a, value_signed b,
    zpow_split (min_le_left a.exp b.exp), zpow_split (min_le_right a.exp b.exp)]
  push_cast
  ring

theorem value_mul (a b : Decimal) : (a.mul b).value = a.value * b.value := by
  obtain ⟨na, ca, ea⟩ := a
  obtain ⟨nb, cb, eb⟩ := b
  simp only [mul, value]
  rw [zpow_add₀ (by norm_num)]
  cases na <;> cases nb <;> push_cast <;> simp <;> ring

theorem value_stripZeros (n : Nat) (d : Decimal) : (stripZeros n d).value = d.value := by
  induction n generalizing d with
  | zero => rfl
  | succ n ih =>
      simp only [stripZeros]
      split
      · next hstrip =>
          rw [ih]
          have hcoeff : (d.coeff : ℚ) = (d.coeff / 10 : Nat) * 10 := by
            exact_mod_cast (Nat.div_mul_cancel (Nat.dvd_of_mod_eq_zero hstrip.1)).symm
          simp only [value]
          rw [hcoeff, zpow_add_one₀ (by norm_num)]
          ring
      · rfl

theorem value_trim (d : Decimal) : d.trim.value = d.value := by
  unfold trim
  split
  · next hzero => simp [value, hzero]
  · exact value_stripZeros _ d

theorem value_pad (d : Decimal) (k : Nat) : (d.pad k).value = d.value := by
  simp only [pad, value]
  rw [zpow_sub₀ (by norm_num), zpow_natCast]
  push_cast
  field_simp
  exact mul_comm _ _

/-- Two positive decimals of one value differ in their last zeros. -/
theorem pad_of_value (ha : a.neg = false) (hb : b.neg = false) (h : a.value = b.value)
    (hexp : b.exp ≤ a.exp) : b = a.pad (a.exp - b.exp).toNat := by
  have hcoeff : (b.coeff : ℚ) = a.coeff * 10 ^ (a.exp - b.exp).toNat := by
    have hne : (10 : ℚ) ^ b.exp ≠ 0 := zpow_ne_zero _ (by norm_num)
    simp only [value, ha, hb, Bool.false_eq_true, if_false, one_mul] at h
    rw [zpow_split hexp, ← mul_assoc] at h
    exact (mul_right_cancel₀ hne h).symm
  have hnat : b.coeff = a.coeff * 10 ^ (a.exp - b.exp).toNat := by exact_mod_cast hcoeff
  obtain ⟨neg, coeff, exp⟩ := b
  simp only at hexp hb hnat ⊢
  simp only [pad, Decimal.mk.injEq]
  refine ⟨hb.trans ha.symm, hnat, ?_⟩
  omega

theorem digits_lt (d : Decimal) : d.coeff < 10 ^ d.digits.length := by
  have hpos : 0 < d.digits.length := Nat.length_toDigits_pos
  exact (Nat.length_toDigits_le_iff (by omega) hpos).1 le_rfl

/-- The first digit of a positive number stands just below `left`. -/
theorem value_bounds (hneg : d.neg = false) (hcoeff : d.coeff ≠ 0) :
    (10 : ℚ) ^ (d.left - 1) ≤ d.value ∧ d.value < 10 ^ d.left := by
  have hpos : 0 < d.digits.length := Nat.length_toDigits_pos
  have hvalue : d.value = d.coeff * 10 ^ d.exp := by simp [value, hneg]
  have hscale : (0 : ℚ) < 10 ^ d.exp := zpow_pos (by norm_num) _
  have hlow : 10 ^ (d.digits.length - 1) ≤ d.coeff := by
    obtain hone | hmore := Nat.eq_or_lt_of_le (Nat.succ_le_of_lt hpos)
    · rw [← hone]
      exact Nat.pos_of_ne_zero hcoeff
    · by_contra hlt
      have hlength : d.digits.length ≤ d.digits.length - 1 :=
        (Nat.length_toDigits_le_iff (by omega) (by omega)).2 (not_le.1 hlt)
      omega
  have hsplit : ∀ n : Nat, (10 : ℚ) ^ (d.exp + n) = 10 ^ n * 10 ^ d.exp := fun n => by
    rw [zpow_add₀ (by norm_num), zpow_natCast, mul_comm]
  have hleft : d.left - 1 = d.exp + (d.digits.length - 1 : Nat) := by
    unfold left
    omega
  rw [hvalue, hleft, left, hsplit, hsplit]
  exact ⟨mul_le_mul_of_nonneg_right (by exact_mod_cast hlow) hscale.le,
    mul_lt_mul_of_pos_right (by exact_mod_cast d.digits_lt) hscale⟩

theorem pos_parts (h : 0 < d.value) : d.neg = false ∧ d.coeff ≠ 0 := by
  have hscale : (0 : ℚ) < 10 ^ d.exp := zpow_pos (by norm_num) _
  refine ⟨?_, ?_⟩
  · by_contra hneg
    have hle : (0 : ℚ) ≤ d.coeff * 10 ^ d.exp := mul_nonneg (Nat.cast_nonneg _) hscale.le
    simp only [value, Bool.not_eq_false] at h hneg
    rw [hneg, if_pos rfl] at h
    linarith
  · intro hzero
    simp [value, hzero] at h

/-- A greater positive number does not start further to the right. -/
theorem left_mono (hpos : 0 < a.value) (h : a.value ≤ b.value) : a.left ≤ b.left := by
  obtain ⟨hneg, hcoeff⟩ := pos_parts hpos
  obtain ⟨hneg', hcoeff'⟩ := pos_parts (hpos.trans_le h)
  have hlt : (10 : ℚ) ^ (a.left - 1) < 10 ^ b.left :=
    (value_bounds hneg hcoeff).1.trans_lt (h.trans_lt (value_bounds hneg' hcoeff').2)
  have hexp := (zpow_lt_zpow_iff_right₀ (by norm_num : (1 : ℚ) < 10)).1 hlt
  omega

theorem stripZeros_exp (n : Nat) (d : Decimal) : d.exp ≤ (stripZeros n d).exp := by
  induction n generalizing d with
  | zero => exact le_rfl
  | succ n ih =>
      simp only [stripZeros]
      split
      · exact (by simp : d.exp ≤ d.exp + 1).trans (ih _)
      · exact le_rfl

theorem trim_exp (h : d.coeff ≠ 0) : d.exp ≤ d.trim.exp := by
  rw [trim, if_neg h]
  exact stripZeros_exp _ d

end Value

/-! ## The shortest form -/

theorem digits_pad {d : Decimal} (h : d.coeff ≠ 0) :
    (d.pad 1).digits.length = d.digits.length + 1 := by
  have happend :=
    Nat.toDigits_append_toDigits (b := 10) (n := d.coeff) (d := 0) (by omega) (by omega)
    (by omega)
  have hcoeff : (d.pad 1).coeff = 10 * d.coeff + 0 := by simp [pad, mul_comm]
  rw [digits, hcoeff, ← happend, List.length_append, Nat.toDigits_zero]
  rfl

theorem divHalfEven_scale (n m : Nat) :
    divHalfEven (n * 10) (m * 10) = divHalfEven n m := by
  have hdiv : n * 10 / (m * 10) = n / m := Nat.mul_div_mul_right n m (by omega)
  have hmod : n * 10 % (m * 10) = n % m * 10 := Nat.mul_mod_mul_right 10 n m
  simp only [divHalfEven, hdiv, hmod]
  have hless : m * 10 < 2 * (n % m * 10) ↔ m < 2 * (n % m) := by omega
  have htie : 2 * (n % m * 10) = m * 10 ↔ 2 * (n % m) = m := by omega
  simp only [hless, htie]

/-- Rounding does not look at the last zeros. -/
theorem fix_pad {d : Decimal} (h : d.coeff ≠ 0) :
    (d.pad 1).fix = d.fix ∨
      d.fix = some d ∧ (d.pad 1).fix = some (d.pad 1) ∧ d.exp ≤ largestExponent := by
  have hpad : (d.pad 1).coeff ≠ 0 := by simp [pad, h]
  have hleft : (d.pad 1).left = d.left := by
    rw [left, left, digits_pad h]
    simp only [pad]
    push_cast
    ring
  have hlt := d.digits_lt
  have hpos : 0 < d.digits.length := Nat.length_toDigits_pos
  have hdef : d.left = d.exp + d.digits.length := rfl
  have hexp : (d.pad 1).exp = d.exp - 1 := rfl
  unfold fix
  rw [if_neg h, if_neg hpad, hleft, hexp]
  simp only
  split
  · exact .inl rfl
  · next htop =>
      have htiny : tiny = -1000026 := rfl
      have hlargest : top = 999972 ∧ largestExponent = 999999 ∧ precision = 28 :=
        ⟨rfl, rfl, rfl⟩
      obtain ⟨hhighest, hlargest, hprecision⟩ := hlargest
      rw [hhighest, hprecision] at htop
      generalize hleast : max tiny (d.left - precision) = least
      rw [htiny, hprecision] at hleast
      by_cases hroom : least ≤ d.exp - 1
      · rw [if_pos hroom, if_pos (by omega)]
        exact .inr ⟨rfl, rfl, by omega⟩
      rw [if_neg hroom]
      left
      by_cases htight : least ≤ d.exp
      · -- exactly the one more zero is rounded away
        have heq : least = d.exp := by omega
        have hone : (least - (d.exp - 1)).toNat = 1 := by omega
        have hsame : divHalfEven (d.pad 1).coeff (10 ^ 1) = d.coeff := by
          have hscale := divHalfEven_scale d.coeff 1
          have hself : divHalfEven d.coeff 1 = d.coeff := by
            simp [divHalfEven, Nat.mod_one]
          rw [hself] at hscale
          simpa [pad] using hscale
        have hshort : ¬10 ^ precision ≤ d.coeff := by
          rw [hprecision]
          have hlength : d.digits.length ≤ 28 := by omega
          have hbound := Nat.pow_le_pow_right (show 0 < 10 by omega) hlength
          omega
        rw [if_pos htight, hone, hsame, if_neg hshort, heq]
        rfl
      · have hmore : (least - (d.exp - 1)).toNat = (least - d.exp).toNat + 1 := by omega
        have hsame : divHalfEven (d.pad 1).coeff (10 ^ (least - (d.exp - 1)).toNat) =
            divHalfEven d.coeff (10 ^ (least - d.exp).toNat) := by
          rw [hmore, pow_succ]
          simpa [pad] using divHalfEven_scale d.coeff (10 ^ (least - d.exp).toNat)
        rw [if_neg htight, hsame]
        rfl

theorem normalize_pad_one {d : Decimal} (h : d.coeff ≠ 0) :
    (d.pad 1).normalize = d.normalize := by
  have hpad : (d.pad 1).coeff ≠ 0 := by simp [pad, h]
  obtain hsame | ⟨hfix, hfixpad, hexp⟩ := fix_pad h
  · rw [normalize, normalize, hsame]
  · rw [normalize, normalize, hfix, hfixpad, Option.map_some, Option.map_some,
      if_neg h, if_neg hpad, digits_pad h, stripZeros, if_pos ?_]
    · have hstripped :
          ({ d.pad 1 with coeff := (d.pad 1).coeff / 10, exp := (d.pad 1).exp + 1 } :
          Decimal) = d := by
        obtain ⟨neg, coeff, exp⟩ := d
        simp [pad]
      rw [hstripped]
    · simp only [pad]
      omega

theorem normalize_pad {d : Decimal} (h : d.coeff ≠ 0) (k : Nat) :
    (d.pad k).normalize = d.normalize := by
  induction k with
  | zero => simp [pad]
  | succ k ih =>
      have hstep : d.pad (k + 1) = (d.pad k).pad 1 := by
        simp only [pad, Decimal.mk.injEq, true_and]
        refine ⟨by ring, ?_⟩
        push_cast
        ring
      rw [hstep, normalize_pad_one (by simp [pad, h]), ih]

/-- The rounded shortest form depends on the value of a positive number only. -/
theorem normalize_of_value {a b : Decimal} (ha : a.neg = false) (hb : b.neg = false)
    (hcoeff : a.coeff ≠ 0) (h : a.value = b.value) : a.normalize = b.normalize := by
  have hcoeffb : b.coeff ≠ 0 := by
    intro hzero
    have hne : (10 : ℚ) ^ a.exp ≠ 0 := zpow_ne_zero _ (by norm_num)
    simp [value, ha, hzero, hcoeff, hne] at h
  obtain hle | hle := le_total b.exp a.exp
  · rw [pad_of_value ha hb h hle, normalize_pad hcoeff]
  · rw [pad_of_value hb ha h.symm hle, normalize_pad hcoeffb]

end PairCell.Lib.Decimal
