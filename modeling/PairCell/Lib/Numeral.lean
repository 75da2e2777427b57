/-!
# Numbers in the digits of any script

The text of a number may stand between blanks, and each of its digits may be of
any script with decimal digits.
-/

namespace PairCell.Lib.Numeral

/-- The code points of the zeros outside ASCII; the other nine digits follow each. -/
def zeros : List Nat :=
  [0x660, 0x6f0, 0x7c0, 0x966, 0x9e6, 0xa66, 0xae6, 0xb66, 0xbe6, 0xc66, 0xce6,
    0xd66, 0xde6, 0xe50, 0xed0, 0xf20, 0x1040, 0x1090, 0x17e0, 0x1810, 0x1946, 0x19d0,
    0x1a80, 0x1a90, 0x1b50, 0x1bb0, 0x1c40, 0x1c50, 0xa620, 0xa8d0, 0xa900, 0xa9d0, 0xa9f0,
    0xaa50, 0xabf0, 0xff10, 0x104a0, 0x10d30, 0x11066, 0x110f0, 0x11136, 0x111d0, 0x112f0,
    0x11450, 0x114d0, 0x11650, 0x116c0, 0x11730, 0x118e0, 0x11950, 0x11c50, 0x11d50,
    0x11da0, 0x11f50, 0x16a60, 0x16ac0, 0x16b50, 0x1d7ce, 0x1d7d8, 0x1d7e2, 0x1d7ec,
    0x1d7f6, 0x1e140, 0x1e2f0, 0x1e4f0, 0x1e950, 0x1fbf0]

def spaces : List Nat :=
  [0x9, 0xa, 0xb, 0xc, 0xd, 0x20, 0x85, 0xa0, 0x1680, 0x2000, 0x2001, 0x2002, 0x2003,
    0x2004, 0x2005, 0x2006, 0x2007, 0x2008, 0x2009, 0x200a, 0x2028, 0x2029, 0x202f,
    0x205f, 0x3000]

def separators : List Nat := [0x1c, 0x1d, 0x1e, 0x1f]

def isSpace (c : Char) : Bool := spaces.contains c.toNat

def isSeparator (c : Char) : Bool := separators.contains c.toNat

/-- The ASCII digit for a digit of another script. -/
def ascii (c : Char) : Char :=
  if c.toNat < 128 then c
  else
    match zeros.find? fun z => z ≤ c.toNat && c.toNat < z + 10 with
    | some z => Char.ofNat ('0'.toNat + (c.toNat - z))
    | none => c

def strip (blank : Char → Bool) (s : List Char) : List Char :=
  ((s.dropWhile blank).reverse.dropWhile blank).reverse

variable {s : List Char} {c : Char}

theorem toNat_digit (h : c.isDigit = true) : 48 ≤ c.toNat ∧ c.toNat ≤ 57 := by
  simp only [Char.isDigit, Bool.and_eq_true, decide_eq_true_eq, ge_iff_le,
    UInt32.le_iff_toNat_le] at h
  exact h

theorem contains_digit {points : List Nat} (hpoints : ∀ n ∈ points, n < 48 ∨ 57 < n)
    (h : c.isDigit = true) : points.contains c.toNat = false := by
  have hrange := toNat_digit h
  refine Bool.eq_false_iff.2 fun hmem => ?_
  have hpoint := hpoints _ (List.contains_iff_mem.1 hmem)
  omega

theorem isSpace_digit (h : c.isDigit = true) : isSpace c = false :=
  contains_digit (by decide) h

theorem isSeparator_digit (h : c.isDigit = true) : isSeparator c = false :=
  contains_digit (by decide) h

theorem ascii_of_lt (h : c.toNat < 128) : ascii c = c := if_pos h

theorem ascii_digit (h : c.isDigit = true) : ascii c = c :=
  ascii_of_lt (Nat.lt_of_le_of_lt (toNat_digit h).2 (by decide))

theorem dropWhile_id {blank : Char → Bool} (h : ∀ c ∈ s, blank c = false) :
    s.dropWhile blank = s := by
  cases s with
  | nil => rfl
  | cons c s => simp [h c List.mem_cons_self]

/-- Without blanks there is nothing to strip. -/
theorem strip_id {blank : Char → Bool} (h : ∀ c ∈ s, blank c = false) :
    strip blank s = s := by
  have hreverse : ∀ c ∈ s.reverse, blank c = false :=
    fun c hc => h c (List.mem_reverse.1 hc)
  rw [strip, dropWhile_id h, dropWhile_id hreverse, List.reverse_reverse]

theorem map_ascii_id (h : ∀ c ∈ s, ascii c = c) : s.map ascii = s := by
  rw [List.map_congr_left h, List.map_id']

end PairCell.Lib.Numeral
