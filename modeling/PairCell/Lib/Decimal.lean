import Mathlib.Data.List.TakeWhile
import Mathlib.Data.Nat.Basic
import Mathlib.Tactic.Linarith

/-!
# Decimal numbers and their texts

A finite decimal is a sign, a coefficient and an exponent, and its text keeps
all three. The arithmetic has 28 digits and exponents up to 999999.
-/

namespace PairCell.Lib

structure Decimal where
  neg : Bool
  coeff : Nat
  exp : Int
deriving DecidableEq

namespace Decimal

def value (d : Decimal) : Rat := (if d.neg then -1 else 1) * d.coeff * 10 ^ d.exp

def ofInt (n : Int) : Decimal := ⟨decide (n < 0), n.natAbs, 0⟩

def digits (d : Decimal) : List Char := Nat.toDigits 10 d.coeff

def sign (d : Decimal) : List Char := if d.neg then ['-'] else []

/-- The digits with the point after the first `dot` of them. -/
def place (digits : List Char) (dot : Int) : List Char :=
  if dot ≤ 0 then '0' :: '.' :: (List.replicate (-dot).toNat '0' ++ digits)
  else if digits.length ≤ dot then digits ++ List.replicate (dot.toNat - digits.length) '0'
  else digits.take dot.toNat ++ '.' :: digits.drop dot.toNat

def signedText (n : Int) : List Char :=
  (if n < 0 then '-' else '+') :: Nat.toDigits 10 n.natAbs

def left (d : Decimal) : Int := d.exp + d.digits.length

def dot (d : Decimal) : Int := if d.exp ≤ 0 ∧ -6 < d.left then d.left else 1

def text (d : Decimal) : List Char :=
  d.sign ++ place d.digits d.dot ++ if d.left = d.dot then [] else 'E' ::
    signedText (d.left - d.dot)

/-! ## Limits -/

/-- The greatest exponent of the first digit, and the least one of the last. -/
def storedLargest : Int := 999999999999999999

def storedTiny : Int := -1999999999999999997

/-- The exponents are those of a number that can be stored exactly. -/
def Storable (d : Decimal) : Prop := storedTiny ≤ d.exp ∧ d.left ≤ storedLargest + 1

instance (d : Decimal) : Decidable d.Storable := inferInstanceAs (Decidable (_ ∧ _))

/-- A decimal that exists. -/
def Stored : Type := { d : Decimal // d.Storable }

/-! ## Arithmetic -/

/-- Division that rounds a tie to the even quotient. -/
def divHalfEven (n m : Nat) : Nat :=
  let q := n / m
  let r := n % m
  if m < 2 * r ∨ 2 * r = m ∧ q % 2 = 1 then q + 1 else q

def precision : Nat := 28

def largestExponent : Int := 999999

/-- The exponents of the greatest and the least number of 28 digits. -/
def top : Int := largestExponent - precision + 1

def tiny : Int := -largestExponent - precision + 1

/-- The number rounded to 28 digits; nothing if its exponent is too large. -/
def fix (d : Decimal) : Option Decimal :=
  if d.coeff = 0 then some { d with exp := max tiny (min d.exp largestExponent) }
  else
    let least := d.left - precision
    if top < least then none
    else
      let least := max tiny least
      if least ≤ d.exp then some d
      else
        let coeff := divHalfEven d.coeff (10 ^ (least - d.exp).toNat)
        if 10 ^ precision ≤ coeff then
          if top < least + 1 then none else some ⟨d.neg, coeff / 10, least + 1⟩
        else some ⟨d.neg, coeff, least⟩

/-- The coefficient without its last zeros. -/
def stripZeros : Nat → Decimal → Decimal
  | 0, d => d
  | n + 1, d =>
      if d.coeff % 10 = 0 ∧ d.exp < largestExponent then
        stripZeros n { d with coeff := d.coeff / 10, exp := d.exp + 1 }
      else d

def normalize (d : Decimal) : Option Decimal :=
  d.fix.map fun d =>
    if d.coeff = 0 then { d with exp := 0 } else stripZeros d.digits.length d

/-- The number without an exponent; nothing if it has more than 28 digits. -/
def toWhole (d : Decimal) : Option Decimal :=
  let coeff := d.coeff * 10 ^ d.exp.toNat
  if coeff < 10 ^ precision then some { d with coeff := coeff, exp := 0 } else none

def fixedText (d : Decimal) : List Char := d.sign ++ place d.digits d.left

/-! ## Reading -/

def readSigned : List Char → Option Int
  | c :: r =>
      let (neg, ds) :=
        if c = '-' then (true, r) else if c = '+' then (false, r) else (false, c :: r)
      if ds ≠ [] ∧ ds.all Char.isDigit then
        some (if neg then -(Nat.ofDigitChars 10 ds 0 : Int) else Nat.ofDigitChars 10 ds 0)
      else none
  | [] => none

def splitFraction : List Char → List Char × List Char
  | c :: r => if c = '.' then (r.takeWhile Char.isDigit, r.dropWhile Char.isDigit)
      else ([], c :: r)
  | [] => ([], [])

def readUnsigned (s : List Char) : Option (Nat × Int) :=
  let whole := s.takeWhile Char.isDigit
  let (fraction, r) := splitFraction (s.dropWhile Char.isDigit)
  if whole = [] ∧ fraction = [] then none
  else
    let coeff := Nat.ofDigitChars 10 (whole ++ fraction) 0
    match r with
    | [] => some (coeff, -(fraction.length : Int))
    | c :: r =>
        if c = 'E' ∨ c = 'e' then
          (readSigned r).map fun e => (coeff, e - fraction.length)
        else none

/-- The reader of a finite number. -/
def read? (s : List Char) : Option Decimal :=
  match s with
  | c :: r =>
      if c = '-' then (readUnsigned r).map fun (n, e) => ⟨true, n, e⟩
      else if c = '+' then (readUnsigned r).map fun (n, e) => ⟨false, n, e⟩
      else (readUnsigned (c :: r)).map fun (n, e) => ⟨false, n, e⟩
  | [] => none

theorem isDigit_digits {n : Nat} {c : Char} (h : c ∈ Nat.toDigits 10 n) :
    c.isDigit = true :=
  Nat.isDigit_of_mem_toDigits (by decide) (by decide) h

theorem readSigned_signedText (n : Int) : readSigned (signedText n) = some n := by
  have hall : (Nat.toDigits 10 n.natAbs).all Char.isDigit = true :=
    List.all_eq_true.2 fun c hc => isDigit_digits hc
  by_cases hn : n < 0
  · have habs : -(n.natAbs : Int) = n := by omega
    simp only [signedText, readSigned, hn, hall, Nat.ofDigitChars_ten_toDigits,
      if_true, ne_eq, Nat.toDigits_ne_nil, not_false_eq_true, and_self, habs]
  · have habs : (n.natAbs : Int) = n := by omega
    have hplus : ('+' : Char) ≠ '-' := by decide
    simp only [signedText, readSigned, hn, hall, Nat.ofDigitChars_ten_toDigits,
      if_true, if_false, ne_eq, Nat.toDigits_ne_nil, not_false_eq_true, and_self, habs,
      hplus, Bool.false_eq_true]

def point (fraction : List Char) : List Char :=
  if fraction = [] then [] else '.' :: fraction

def exponent (e : Int) : List Char := if e = 0 then [] else 'E' :: signedText e

section Parts

variable {whole fraction : List Char}

theorem takeWhile_digits {ds : List Char} (h : ∀ c ∈ ds, c.isDigit = true) {r : List Char}
    (hr : ∀ c ∈ r.head?, c.isDigit = false) :
    (ds ++ r).takeWhile Char.isDigit = ds ∧ (ds ++ r).dropWhile Char.isDigit = r := by
  have hstop : r.takeWhile Char.isDigit = [] ∧ r.dropWhile Char.isDigit = r := by
    cases r with
    | nil => exact ⟨rfl, rfl⟩
    | cons c r => simp [hr c rfl]
  rw [List.takeWhile_append_of_pos h, List.dropWhile_append_of_pos h, hstop.1, hstop.2]
  exact ⟨List.append_nil ds, rfl⟩

theorem exponent_head (e : Int) : ∀ c ∈ (exponent e).head?, c = 'E' := by
  intro c hc
  unfold exponent at hc
  split at hc
  · cases hc
  · cases hc
    rfl

theorem splitFraction_point (hfraction : ∀ c ∈ fraction, c.isDigit = true) (e : Int) :
    splitFraction (point fraction ++ exponent e) = (fraction, exponent e) := by
  have hexp : ∀ c ∈ (exponent e).head?, c.isDigit = false := by
    intro c hc
    rw [exponent_head e c hc]
    rfl
  by_cases hnil : fraction = []
  · subst hnil
    unfold exponent
    split <;> rfl
  · obtain ⟨htake, hdrop⟩ := takeWhile_digits hfraction hexp
    simp [point, hnil, splitFraction, htake, hdrop]

theorem readUnsigned_parts (hne : whole ≠ []) (hwhole : ∀ c ∈ whole, c.isDigit = true)
    (hfraction : ∀ c ∈ fraction, c.isDigit = true) (e : Int) :
    readUnsigned (whole ++ (point fraction ++ exponent e)) =
      some (Nat.ofDigitChars 10 (whole ++ fraction) 0, e - fraction.length) := by
  have hhead : ∀ c ∈ (point fraction ++ exponent e).head?, c.isDigit = false := by
    intro c hc
    by_cases hnil : fraction = []
    · simp only [point, hnil, if_true, List.nil_append] at hc
      rw [exponent_head e c hc]
      rfl
    · simp only [point, hnil, if_false, List.cons_append, List.head?_cons,
        Option.mem_some_iff] at hc
      subst hc
      rfl
  obtain ⟨htake, hdrop⟩ := takeWhile_digits hwhole hhead
  simp only [readUnsigned, htake, hdrop, splitFraction_point hfraction, hne,
    false_and, if_false]
  by_cases he : e = 0
  · simp [exponent, he]
  · simp [exponent, he, readSigned_signedText]

end Parts

/-- What the placed digits are made of: their value is the coefficient, and the digits
after the point are the ones that `dot` leaves. -/
theorem place_parts_of (d : Decimal) {dot : Int} (h : dot ≤ d.digits.length) :
    ∃ whole fraction, place d.digits dot = whole ++ point fraction ∧ whole ≠ [] ∧
      (∀ c ∈ whole, c.isDigit = true) ∧ (∀ c ∈ fraction, c.isDigit = true) ∧
      Nat.ofDigitChars 10 (whole ++ fraction) 0 = d.coeff ∧
      dot + fraction.length = d.digits.length := by
  have hdigits : ∀ c ∈ d.digits, c.isDigit = true := fun c hc => isDigit_digits hc
  have hvalue : Nat.ofDigitChars 10 d.digits 0 = d.coeff := Nat.ofDigitChars_ten_toDigits
  have hpos : 0 < d.digits.length := Nat.length_toDigits_pos
  by_cases hlow : dot ≤ 0
  · refine ⟨['0'], List.replicate (-dot).toNat '0' ++ d.digits, ?_, by simp,
      ?_, ?_, ?_, ?_⟩
    · have hne : List.replicate (-dot).toNat '0' ++ d.digits ≠ [] := by
        intro h
        rw [List.append_eq_nil_iff] at h
        simp [h.2] at hpos
      simp [place, hlow, point, hne]
    · simp
    · intro c hc
      obtain hc | hc := List.mem_append.1 hc
      · rw [(List.mem_replicate.1 hc).2]
        rfl
      · exact hdigits c hc
    · simp [Nat.ofDigitChars_append, Nat.ofDigitChars_cons,
        Nat.ofDigitChars_replicate_zero, hvalue]
    · simp only [List.length_append, List.length_replicate]
      omega
  by_cases hhigh : (d.digits.length : Int) ≤ dot
  · have hdot : dot = d.digits.length := le_antisymm h hhigh
    refine ⟨d.digits, [], ?_, ?_, hdigits, by simp, by simpa using hvalue, ?_⟩
    · have hzero : ¬(d.digits.length : Int) ≤ 0 := by omega
      simp only [place, hdot, hzero, if_false, le_refl, if_true,
        Int.toNat_natCast, Nat.sub_self, List.replicate_zero, point]
    · exact List.length_pos_iff.1 hpos
    · simp only [List.length_nil]
      omega
  · refine ⟨d.digits.take dot.toNat, d.digits.drop dot.toNat, ?_, ?_, ?_, ?_, ?_, ?_⟩
    · have hne : d.digits.drop dot.toNat ≠ [] := by
        rw [ne_eq, List.drop_eq_nil_iff]
        omega
      simp [place, hlow, hhigh, point, hne]
    · rw [ne_eq, List.take_eq_nil_iff]
      intro h
      obtain h | h := h
      · omega
      · simp [h] at hpos
    · intro c hc
      exact hdigits c (List.mem_of_mem_take hc)
    · intro c hc
      exact hdigits c (List.mem_of_mem_drop hc)
    · rw [List.take_append_drop, hvalue]
    · rw [List.length_drop]
      omega

theorem dot_le (d : Decimal) : d.dot ≤ d.digits.length := by
  have hpos : 0 < d.digits.length := Nat.length_toDigits_pos
  unfold dot left
  split <;> omega

theorem text_eq (d : Decimal) :
    d.text = d.sign ++ place d.digits d.dot ++ exponent (d.left - d.dot) := by
  simp [text, exponent, sub_eq_zero]

theorem mem_exponent {e : Int} {c : Char} (h : c ∈ exponent e) :
    c.isDigit = true ∨ c = 'E' ∨ c = '+' ∨ c = '-' := by
  unfold exponent at h
  split at h
  · cases h
  · simp only [signedText, List.mem_cons] at h
    obtain rfl | rfl | h := h
    · exact .inr (.inl rfl)
    · split
      · exact .inr (.inr (.inr rfl))
      · exact .inr (.inr (.inl rfl))
    · exact .inl (isDigit_digits h)

/-- The characters of signed and placed digits. -/
theorem mem_signed_place {d : Decimal} {dot : Int}
    (hdot : dot ≤ d.digits.length) {c : Char} (h : c ∈ d.sign ++ place d.digits dot) :
    c.isDigit = true ∨ c = '.' ∨ c = '-' := by
  obtain ⟨whole, fraction, hplace, -, hwhole, hfraction, -⟩ := d.place_parts_of hdot
  rw [hplace, List.mem_append, List.mem_append] at h
  obtain h | h | h := h
  · unfold sign at h
    split at h
    · exact .inr (.inr (List.mem_singleton.1 h))
    · cases h
  · exact .inl (hwhole c h)
  · unfold point at h
    split at h
    · cases h
    · obtain rfl | h := List.mem_cons.1 h
      · exact .inr (.inl rfl)
      · exact .inl (hfraction c h)

/-- The characters of a text. -/
theorem mem_text {d : Decimal} {c : Char} (h : c ∈ d.text) :
    c.isDigit = true ∨ c = '.' ∨ c = 'E' ∨ c = '+' ∨ c = '-' := by
  rw [text_eq, List.mem_append] at h
  obtain h | h := h
  · obtain h | rfl | rfl := mem_signed_place d.dot_le h
    · exact .inl h
    · simp
    · simp
  · obtain h | h := mem_exponent h
    · exact .inl h
    · exact .inr (.inr h)

/-- A decimal is read back from its sign, its placed digits and the
exponent that is left. -/
theorem read?_place (d : Decimal) {dot : Int} (hdot : dot ≤ d.digits.length) :
    read? (d.sign ++ place d.digits dot ++ exponent (d.left - dot)) = some d := by
  obtain ⟨whole, fraction, hplace, hne, hwhole, hfraction, hcoeff, hlength⟩ :=
    d.place_parts_of hdot
  have hexp : d.left - dot - fraction.length = d.exp := by
    have hleft : d.left = d.exp + d.digits.length := rfl
    omega
  have hread := readUnsigned_parts hne hwhole hfraction (d.left - dot)
  rw [hcoeff, hexp] at hread
  rw [hplace, List.append_assoc]
  cases hneg : d.neg with
  | true =>
      rw [List.append_assoc]
      simp only [sign, hneg, if_true, List.cons_append, List.nil_append, read?, hread]
      rw [← hneg]
      rfl
  | false =>
      obtain ⟨c, cs, rfl⟩ := List.exists_cons_of_ne_nil hne
      have hc := hwhole c List.mem_cons_self
      have hminus : c ≠ '-' := by
        rintro rfl
        cases hc
      have hplus : c ≠ '+' := by
        rintro rfl
        cases hc
      simp only [List.cons_append] at hread
      simp only [sign, hneg, Bool.false_eq_true, if_false, List.nil_append,
        List.cons_append, read?, hminus, hplus, List.append_assoc, hread]
      rw [← hneg]
      rfl

/-- A decimal is read back from its text. -/
theorem read?_text (d : Decimal) : read? d.text = some d := by
  rw [text_eq, read?_place d d.dot_le]

end Decimal

end PairCell.Lib
