import Mathlib.Data.List.GetD

/-!
# Bytes and texts

Texts as UTF-8 bytes, and bytes as base64 texts in the alphabet for URLs.
-/

namespace PairCell.Lib

abbrev Bytes := List UInt8

/-! ## UTF-8 -/

namespace Utf8

def encode (s : List Char) : Bytes := s.flatMap String.utf8EncodeChar

def decode? (b : Bytes) : Option (List Char) := b.toByteArray.utf8Decode?.map Array.toList

theorem decode?_encode (s : List Char) : decode? (encode s) = some s := by
  have h : (encode s).toByteArray = s.utf8Encode := rfl
  rw [decode?, h, List.utf8Decode?_utf8Encode]
  rfl

theorem encode_append (s t : List Char) : encode (s ++ t) = encode s ++ encode t :=
  List.flatMap_append

theorem encode_cons (c : Char) (s : List Char) :
    encode (c :: s) = String.utf8EncodeChar c ++ encode s :=
  List.flatMap_cons

/-- A character below 128 is its own byte. -/
theorem utf8EncodeChar_ascii {c : Char} (h : c.toNat < 128) :
    String.utf8EncodeChar c = [UInt8.ofNat c.toNat] :=
  if_pos (Nat.le_of_lt_succ h)

/-- The bytes of any other character are from 128 on. -/
theorem le_of_mem_utf8EncodeChar {c : Char} (h : 128 ≤ c.toNat) {b : UInt8}
    (hb : b ∈ String.utf8EncodeChar c) : 128 ≤ b.toNat := by
  have hv : c.val.toNat = c.toNat := rfl
  unfold String.utf8EncodeChar at hb
  simp only [hv] at hb
  rw [if_neg (by omega)] at hb
  split at hb
  · simp only [List.mem_cons, List.not_mem_nil, or_false] at hb
    obtain rfl | rfl := hb <;> rw [UInt8.toNat_ofNat'] <;> omega
  · split at hb
    · simp only [List.mem_cons, List.not_mem_nil, or_false] at hb
      obtain rfl | rfl | rfl := hb <;> rw [UInt8.toNat_ofNat'] <;> omega
    · simp only [List.mem_cons, List.not_mem_nil, or_false] at hb
      obtain rfl | rfl | rfl | rfl := hb <;> rw [UInt8.toNat_ofNat'] <;> omega

end Utf8

/-! ## Base64 -/

namespace Base64

def alphabet : List Char :=
  "ABCDEFGHIJKLMNOPQRSTUVWXYZabcdefghijklmnopqrstuvwxyz0123456789-_".toList

def sextet (n : Nat) : Char := alphabet.getD n '='

/-- The digit of a character; the other spellings of the last two digits count too. -/
def value? (c : Char) : Option Nat :=
  if c = '+' then some 62
  else if c = '/' then some 63
  else if c ∈ alphabet then some (alphabet.idxOf c) else none

/-- Three bytes are four characters; the last group is filled with `=`. -/
def encode : Bytes → List Char
  | a :: b :: c :: rest =>
      sextet (a.toNat / 4) :: sextet (a.toNat % 4 * 16 + b.toNat / 16) ::
        sextet (b.toNat % 16 * 4 + c.toNat / 64) :: sextet (c.toNat % 64) :: encode rest
  | [a, b] =>
      [sextet (a.toNat / 4), sextet (a.toNat % 4 * 16 + b.toNat / 16),
        sextet (b.toNat % 16 * 4), '=']
  | [a] => [sextet (a.toNat / 4), sextet (a.toNat % 4 * 16), '=', '=']
  | [] => []

/-- The scanner of a text: the place in the group of four, the bits that are left and the
`=` read. Characters outside the alphabet are skipped,
and a full group of `=` ends the text. -/
def scan : List Char → (quad left pads : Nat) → Option Bytes
  | [], quad, _, _ => if quad = 0 then some [] else none
  | c :: rest, quad, left, pads =>
      if c = '=' then
        if 2 ≤ quad then
          if 4 ≤ quad + (pads + 1) then some [] else scan rest quad left (pads + 1)
        else scan rest quad left pads
      else
        match value? c with
        | none => scan rest quad left pads
        | some v =>
            match quad with
            | 0 => scan rest 1 v 0
            | 1 => (scan rest 2 (v % 16) 0).map (UInt8.ofNat (left * 4 + v / 16) :: ·)
            | 2 => (scan rest 3 (v % 4) 0).map (UInt8.ofNat (left * 16 + v / 4) :: ·)
            | _ => (scan rest 0 0 0).map (UInt8.ofNat (left * 64 + v) :: ·)

def decode? (s : List Char) : Option Bytes := scan s 0 0 0

/-- The text without its last `=`. -/
def strip (s : List Char) : List Char := (s.reverse.dropWhile fun c => c = '=').reverse

/-- The text filled up to whole groups. -/
def fill (s : List Char) : List Char := s ++ List.replicate ((4 - s.length % 4) % 4) '='

theorem value?_sextet {n : Nat} (h : n < 64) : value? (sextet n) = some n ∧
    sextet n ≠ '=' := by
  have hall : ∀ n : Fin 64, value? (sextet n) = some n.val ∧ sextet n ≠ '=' := by
    decide +kernel
  exact hall ⟨n, h⟩

section Scan

variable {n left pads : Nat} {rest : List Char}

theorem scan_first (h : n < 64) : scan (sextet n :: rest) 0 left pads =
    scan rest 1 n 0 := by
  obtain ⟨hvalue, hpad⟩ := value?_sextet h
  rw [scan, if_neg hpad]
  simp only [hvalue]

theorem scan_second (h : n < 64) : scan (sextet n :: rest) 1 left pads =
    (scan rest 2 (n % 16) 0).map (UInt8.ofNat (left * 4 + n / 16) :: ·) := by
  obtain ⟨hvalue, hpad⟩ := value?_sextet h
  rw [scan, if_neg hpad]
  simp only [hvalue]

theorem scan_third (h : n < 64) : scan (sextet n :: rest) 2 left pads =
    (scan rest 3 (n % 4) 0).map (UInt8.ofNat (left * 16 + n / 4) :: ·) := by
  obtain ⟨hvalue, hpad⟩ := value?_sextet h
  rw [scan, if_neg hpad]
  simp only [hvalue]

theorem scan_fourth (h : n < 64) : scan (sextet n :: rest) 3 left pads =
    (scan rest 0 0 0).map (UInt8.ofNat (left * 64 + n) :: ·) := by
  obtain ⟨hvalue, hpad⟩ := value?_sextet h
  rw [scan, if_neg hpad]
  simp only [hvalue]

end Scan

theorem ofNat_eq {a : UInt8} {n : Nat} (h : n = a.toNat) : UInt8.ofNat n = a := by
  rw [h, UInt8.ofNat_toNat]

theorem decode?_encode : ∀ b : Bytes, decode? (encode b) = some b
  | a :: b :: c :: rest => by
      have ha := a.toNat_lt
      have hb := b.toNat_lt
      have hc := c.toNat_lt
      have ih := decode?_encode rest
      unfold decode? at ih ⊢
      rw [encode, scan_first (by omega), scan_second (by omega), scan_third (by omega),
        scan_fourth (by omega), ih]
      simp only [Option.map_some]
      rw [ofNat_eq (a := a) (by omega), ofNat_eq (a := b) (by omega),
        ofNat_eq (a := c) (by omega)]
  | [a, b] => by
      have ha := a.toNat_lt
      have hb := b.toNat_lt
      have hend : scan ['='] 3 0 0 = some [] := by decide
      have hlast : b.toNat % 16 * 4 % 4 = 0 := by omega
      unfold decode?
      rw [encode, scan_first (by omega), scan_second (by omega),
        scan_third (by omega), hlast, hend]
      simp only [Option.map_some]
      rw [ofNat_eq (a := a) (by omega), ofNat_eq (a := b) (by omega)]
  | [a] => by
      have ha := a.toNat_lt
      have hend : scan ['=', '='] 2 0 0 = some [] := by decide
      have hlast : a.toNat % 4 * 16 % 16 = 0 := by omega
      unfold decode?
      rw [encode, scan_first (by omega), scan_second (by omega), hlast, hend]
      simp only [Option.map_some]
      rw [ofNat_eq (a := a) (by omega)]
  | [] => rfl

theorem strip_append {s : List Char} (h : ∀ c ∈ s.getLast?, c ≠ '=') (n : Nat) :
    strip (s ++ List.replicate n '=') = s := by
  have hdrop : ∀ n, (List.replicate n '=' ++ s.reverse).dropWhile
      (fun c => c = '=') = s.reverse := by
    intro n
    induction n with
    | zero =>
        cases hs : s.reverse with
        | nil => rfl
        | cons c r =>
            have hc : c ≠ '=' := h c (by rw [← List.head?_reverse, hs]; rfl)
            simp [hc]
    | succ n ih => simpa [List.replicate_succ] using ih
  rw [strip, List.reverse_append, List.reverse_replicate, hdrop, List.reverse_reverse]

theorem sextet_mem {n : Nat} (h : n < 64) : sextet n ∈ alphabet := by
  have hlength : n < alphabet.length := h
  rw [sextet, List.getD_eq_getElem _ _ hlength]
  exact List.getElem_mem _

theorem fill_group (c₁ c₂ c₃ c₄ : Char) (s : List Char) :
    fill (c₁ :: c₂ :: c₃ :: c₄ :: s) = c₁ :: c₂ :: c₃ :: c₄ :: fill s := by
  have hlength : (c₁ :: c₂ :: c₃ :: c₄ :: s).length % 4 = s.length % 4 := by
    simp only [List.length_cons]
    omega
  rw [fill, hlength]
  rfl

/-- An encoded text is some characters of the alphabet, filled up to whole groups. -/
theorem encode_parts : ∀ b : Bytes, ∃ s : List Char, encode b = fill s ∧
    ∀ c ∈ s, c ∈ alphabet
  | a :: b :: c :: rest => by
      have ha := a.toNat_lt
      have hb := b.toNat_lt
      obtain ⟨s, hencode, halphabet⟩ := encode_parts rest
      refine ⟨sextet (a.toNat / 4) :: sextet (a.toNat % 4 * 16 + b.toNat / 16) ::
        sextet (b.toNat % 16 * 4 + c.toNat / 64) :: sextet (c.toNat % 64) :: s, ?_, ?_⟩
      · rw [encode, fill_group, hencode]
      · simp only [List.forall_mem_cons]
        have hc := c.toNat_lt
        exact ⟨sextet_mem (by omega), sextet_mem (by omega), sextet_mem (by omega),
          sextet_mem (by omega), halphabet⟩
  | [a, b] => by
      have ha := a.toNat_lt
      have hb := b.toNat_lt
      refine ⟨[sextet (a.toNat / 4), sextet (a.toNat % 4 * 16 + b.toNat / 16),
        sextet (b.toNat % 16 * 4)], rfl, ?_⟩
      simp only [List.forall_mem_cons]
      exact ⟨sextet_mem (by omega), sextet_mem (by omega), sextet_mem (by omega), by simp⟩
  | [a] => by
      have ha := a.toNat_lt
      refine ⟨[sextet (a.toNat / 4), sextet (a.toNat % 4 * 16)], rfl, ?_⟩
      simp only [List.forall_mem_cons]
      exact ⟨sextet_mem (by omega), sextet_mem (by omega), by simp⟩
  | [] => ⟨[], rfl, by simp⟩

/-- Stripping leaves characters of the alphabet, and filling undoes it. -/
theorem strip_encode (b : Bytes) :
    fill (strip (encode b)) = encode b ∧ ∀ c ∈ strip (encode b), c ∈ alphabet := by
  obtain ⟨s, hencode, halphabet⟩ := encode_parts b
  have hlast : ∀ c ∈ s.getLast?, c ≠ '=' := by
    rintro c hc rfl
    have hmem := halphabet '=' (List.mem_of_getLast? hc)
    revert hmem
    decide
  have hstrip : strip (fill s) = s := strip_append hlast _
  rw [hencode, hstrip]
  exact ⟨rfl, halphabet⟩

end Base64

end PairCell.Lib
