import PairCell.Lib.Json
import Mathlib.Data.Char
import Mathlib.Data.List.TakeWhile
import Mathlib.Tactic.IntervalCases

/-!
# Reading back a JSON text

Every value is read back from its text, with the keys of its objects in the
order in which they were written.
-/

namespace PairCell.Lib

variable {F : Type}

/-- The text cannot continue a number. -/
def Stops (r : List Char) : Prop :=
  ∀ c ∈ r.head?, c.isDigit = false ∧ c ≠ '.' ∧ isExponent c = false ∧ isSign c = false

theorem stops_nil : Stops [] := by
  intro c hc
  cases hc

theorem stops_cons {c : Char} (h : c = ',' ∨ c = ']' ∨ c = '\x7d') (r : List Char) :
    Stops (c :: r) := by
  intro d hd
  cases hd
  obtain rfl | rfl | rfl := h <;> decide

section Scan

variable {s r : List Char}

theorem Stops.takeWhile (h : Stops r) : r.takeWhile Char.isDigit = [] := by
  cases r with
  | nil => rfl
  | cons c r => simp [(h c rfl).1]

theorem Stops.dropWhile (h : Stops r) : r.dropWhile Char.isDigit = r := by
  cases r with
  | nil => rfl
  | cons c r => simp [(h c rfl).1]

theorem takeWhile_stops (h : Stops r) (s : List Char) :
    (s ++ r).takeWhile Char.isDigit = s.takeWhile Char.isDigit := by
  rw [List.takeWhile_append, h.takeWhile]
  split
  · next hlen => rw [List.append_nil, (List.takeWhile_prefix _).eq_of_length hlen]
  · rfl

theorem dropWhile_stops (h : Stops r) (s : List Char) :
    (s ++ r).dropWhile Char.isDigit = s.dropWhile Char.isDigit ++ r := by
  rw [List.dropWhile_append, h.dropWhile]
  split
  · next hnil => simp [List.isEmpty_iff.1 hnil]
  · rfl

theorem scanInt_append (h : Stops r) (s : List Char) :
    scanInt (s ++ r) = (scanInt s).map fun p => (p.1, p.2 ++ r) := by
  cases s with
  | nil =>
      cases r with
      | nil => rfl
      | cons c r =>
          have hdigit := (h c rfl).1
          have hzero : c ≠ '0' := by
            rintro rfl
            cases hdigit
          simp [scanInt, hdigit, hzero]
  | cons c s =>
      simp only [List.cons_append, scanInt, takeWhile_stops h, dropWhile_stops h]
      split
      · rfl
      · split <;> rfl

theorem scanDigits_append (h : Stops r) (mark s whole : List Char) :
    scanDigits mark (s ++ r) (whole ++ r) =
      ((scanDigits mark s whole).1, (scanDigits mark s whole).2 ++ r) := by
  unfold scanDigits
  rw [takeWhile_stops h, dropWhile_stops h]
  split <;> rfl

theorem scanFraction_append (h : Stops r) (s : List Char) :
    scanFraction (s ++ r) = ((scanFraction s).1, (scanFraction s).2 ++ r) := by
  match s with
  | [] =>
      cases r with
      | nil => rfl
      | cons c r => simp [scanFraction, (h c rfl).2.1]
  | c :: s =>
      by_cases hc : c = '.'
      · subst hc
        exact scanDigits_append h ['.'] s ('.' :: s)
      · simp [scanFraction, hc]

theorem scanExponent_append (h : Stops r) (s : List Char) :
    scanExponent (s ++ r) = ((scanExponent s).1, (scanExponent s).2 ++ r) := by
  match s with
  | [] =>
      match r with
      | [] => rfl
      | [c] => rfl
      | c :: d :: r => simp [scanExponent, (h c rfl).2.2.1]
  | [e] =>
      match r with
      | [] => rfl
      | c :: r =>
          obtain ⟨hdigit, -, -, hsign⟩ := h c rfl
          simp [scanExponent, hsign, scanDigits, hdigit]
  | e :: c :: s =>
      simp only [List.cons_append, scanExponent]
      split
      · split
        · exact scanDigits_append h [e, c] s (e :: c :: s)
        · exact scanDigits_append h [e] (c :: s) (e :: c :: s)
      · rfl

theorem scanUnsigned_append (h : Stops r) (s : List Char) :
    scanUnsigned (s ++ r) = (scanUnsigned s).map fun p => (p.1, p.2.1, p.2.2 ++ r) := by
  unfold scanUnsigned
  rw [scanInt_append h, Option.map_map, Option.map_map]
  congr 1
  funext p
  simp [scanFraction_append h, scanExponent_append h]

theorem scanNumber_append (h : Stops r) (hs : s ≠ []) :
    scanNumber (s ++ r) = (scanNumber s).map fun p => (p.1, p.2.1, p.2.2 ++ r) := by
  cases s with
  | nil => exact absurd rfl hs
  | cons c s =>
      simp only [List.cons_append, scanNumber]
      split
      · simp [scanUnsigned_append h, Function.comp_def]
      · exact scanUnsigned_append h (c :: s)

/-- A number that takes up its whole text is scanned in front of any rest that stops it. -/
theorem scanNumber_full {t : List Char} {b : Bool} (hs : scanNumber s = some (t, b, []))
    (h : Stops r) : scanNumber (s ++ r) = some (t, b, r) := by
  have hne : s ≠ [] := by
    rintro rfl
    cases hs
  rw [scanNumber_append h hne, hs]
  rfl

end Scan

theorem head_toDigits {n : Nat} (h : 0 < n) : (Nat.toDigits 10 n).head? ≠ some '0' := by
  induction n using Nat.strong_induction_on with
  | _ n ih =>
      by_cases hn : n < 10
      · rw [Nat.toDigits_of_lt_base hn]
        interval_cases n <;> decide
      · rw [Nat.toDigits_of_base_le (by decide) (by omega),
          List.head?_append_of_ne_nil _ Nat.toDigits_ne_nil]
        exact ih (n / 10) (by omega) (by omega)

theorem digit_of_mem {n : Nat} {c : Char} (h : c ∈ Nat.toDigits 10 n) : c.isDigit = true :=
  Nat.isDigit_of_mem_toDigits (by decide) (by decide) h

theorem scanUnsigned_digits (n : Nat) :
    scanUnsigned (Nat.toDigits 10 n) = some (Nat.toDigits 10 n, false, []) := by
  by_cases hn : n = 0
  · rw [hn, Nat.toDigits_zero]
    rfl
  · cases hd : Nat.toDigits 10 n with
    | nil => exact absurd hd Nat.toDigits_ne_nil
    | cons c cs =>
        have hall : ∀ d ∈ c :: cs, d.isDigit = true :=
          fun d hmem => digit_of_mem (hd ▸ hmem)
        have hzero : c ≠ '0' := by
          rintro rfl
          exact head_toDigits (Nat.pos_of_ne_zero hn) (by rw [hd]; rfl)
        have htake : cs.takeWhile Char.isDigit = cs :=
          List.takeWhile_eq_self_iff.2 fun d hmem => hall d (List.mem_cons_of_mem _ hmem)
        have hdrop : cs.dropWhile Char.isDigit = [] :=
          List.dropWhile_eq_nil_iff.2 fun d hmem => hall d (List.mem_cons_of_mem _ hmem)
        simp [scanUnsigned, scanInt, hzero, hall c List.mem_cons_self, htake,
          hdrop, scanFraction, scanExponent]

/-- A number never begins like the sign of another one. -/
theorem digits_not_sign (n : Nat) : ∃ c cs, Nat.toDigits 10 n = c :: cs ∧
    c.isDigit = true ∧ c ≠ '-' := by
  cases hd : Nat.toDigits 10 n with
  | nil => exact absurd hd Nat.toDigits_ne_nil
  | cons c cs =>
      have hc : c.isDigit = true := digit_of_mem (n := n) (hd ▸ List.mem_cons_self)
      refine ⟨c, cs, rfl, hc, ?_⟩
      rintro rfl
      cases hc

theorem scanNumber_int (n : Int) :
    scanNumber (intText n) = some (intText n, false, []) := by
  cases n with
  | ofNat n =>
      have h := scanUnsigned_digits n
      obtain ⟨c, cs, hn, -, hc⟩ := digits_not_sign n
      rw [hn] at h
      simp only [intText, hn, scanNumber, hc, if_false, h]
  | negSucc n =>
      simp only [intText, scanNumber, if_true, scanUnsigned_digits]
      rfl

theorem readInt_intText (n : Int) : readInt (intText n) = n := by
  cases n with
  | ofNat n =>
      obtain ⟨c, cs, hn, -, hc⟩ := digits_not_sign n
      have h := Nat.ofDigitChars_ten_toDigits (n := n)
      rw [hn] at h
      simp only [intText, hn, readInt, hc, if_false, h]
      rfl
  | negSucc n =>
      simp only [intText, readInt, if_true, Nat.ofDigitChars_ten_toDigits]
      rfl

/-! ## Strings -/

theorem hexValue_hexDigit {n : Nat} (h : n < 16) : hexValue (hexDigit n) = some n := by
  interval_cases n <;> decide

theorem readUnit_unit {n : Nat} (h : n < 65536) (r : List Char) :
    readUnit (unit n ++ r) = some (n, r) := by
  have hn : n / 4096 % 16 * 4096 + n / 256 % 16 * 256 + n / 16 % 16 * 16 +
      n % 16 = n := by omega
  simp only [unit, List.cons_append, List.nil_append, readUnit,
    hexValue_hexDigit (Nat.mod_lt _ (by decide : 0 < 16)), hn]

theorem readUnit_ne {c : Char} (h : c ≠ '\\') (r : List Char) :
    readUnit (c :: r) = none := by
  unfold readUnit
  split
  · next heq =>
      cases heq
      exact absurd rfl h
  · rfl

theorem char_bounds (c : Char) : c.toNat < 55296 ∨ 57343 < c.toNat ∧
    c.toNat < 1114112 := c.valid

theorem readChar_unit {c : Char} (h : c.toNat < 65536) (r : List Char) :
    readChar (unit c.toNat ++ r) = some (c, r) := by
  have hc : c.toNat < 55296 ∨ 57344 ≤ c.toNat := by
    have := char_bounds c
    omega
  simp only [readChar, readUnit_unit h, hc, if_true, Char.ofNat_toNat]

theorem readChar_pair {a b : Nat} (ha : 55296 ≤ a ∧ a < 56320) (hb : 56320 ≤ b ∧ b < 57344)
    (r : List Char) : readChar (unit a ++ (unit b ++ r)) =
      some (Char.ofNat (65536 + (a - 55296) * 1024 + (b - 56320)), r) := by
  have hlow : ¬(a < 55296 ∨ 57344 ≤ a) := by omega
  have ha' : a < 65536 := by omega
  have hb' : b < 65536 := by omega
  simp only [readChar, readUnit_unit ha', readUnit_unit hb', hlow, if_false,
    ha.2, hb, if_true, and_self]

theorem readChar_units (c : Char) (r : List Char) :
    readChar (units c.toNat ++ r) = some (c, r) := by
  by_cases h : c.toNat < 65536
  · rw [units, if_pos h]
    exact readChar_unit h r
  · have hbounds := char_bounds c
    obtain ⟨m, hm⟩ : ∃ m, c.toNat = 65536 + m := ⟨c.toNat - 65536, by omega⟩
    have hsplit : 65536 + (55296 + m / 1024 - 55296) * 1024 +
        (56320 + m % 1024 - 56320) = c.toNat := by
      omega
    rw [units, if_neg h, hm, Nat.add_sub_cancel_left, List.append_assoc,
      readChar_pair (by omega) (by omega), hsplit, Char.ofNat_toNat]

theorem readChar_escape (ascii : Bool) (c : Char) (r : List Char) :
    readChar (escape ascii c ++ r) = some (c, r) := by
  unfold escape
  repeat' split
  all_goals try (subst_vars; rfl)
  · exact readChar_unit (by omega) r
  · exact readChar_units c r
  · next hslash _ _ _ _ _ hprint _ => simp [readChar, readUnit_ne hslash, hslash, hprint]

theorem units_head (n : Nat) : ∃ ds, units n = '\\' :: ds := by
  unfold units
  split
  · exact ⟨_, rfl⟩
  · exact ⟨_, rfl⟩

theorem escape_head (ascii : Bool) (c : Char) :
    ∃ d ds, escape ascii c = d :: ds ∧ d ≠ '"' := by
  unfold escape
  repeat' split
  all_goals try exact ⟨_, _, rfl, by decide⟩
  · obtain ⟨ds, hds⟩ := units_head c.toNat
    exact ⟨_, ds, hds, by decide⟩
  · next hquote _ _ _ _ _ _ _ _ => exact ⟨c, [], rfl, hquote⟩

theorem readChars_escape (ascii : Bool) (r : List Char) :
    ∀ (cs : List Char) (n : Nat), cs.length < n →
      readChars n (cs.flatMap (escape ascii) ++ '"' :: r) = some (cs, r)
  | [], n + 1, _ => rfl
  | c :: cs, n + 1, h => by
      have ih := readChars_escape ascii r cs n (by simpa using h)
      obtain ⟨d, ds, hescape, hquote⟩ := escape_head ascii c
      have hread := readChar_escape ascii c (cs.flatMap (escape ascii) ++ '"' :: r)
      rw [List.flatMap_cons, List.append_assoc]
      rw [hescape] at hread ⊢
      simp only [List.cons_append] at hread ⊢
      rw [readChars]
      · rw [hread]
        simp [ih]
      · simpa using hquote

theorem length_escape (ascii : Bool) (c : Char) : 0 < (escape ascii c).length := by
  obtain ⟨d, ds, h, -⟩ := escape_head ascii c
  simp [h]

theorem length_escapes (ascii : Bool) (cs : List Char) :
    cs.length ≤ (cs.flatMap (escape ascii)).length := by
  induction cs with
  | nil => exact Nat.le_refl _
  | cons c cs ih =>
      have := length_escape ascii c
      rw [List.flatMap_cons, List.length_append, List.length_cons]
      omega

theorem readString_stringText (ascii : Bool) (s : String) (r : List Char) :
    readString (s.toList.flatMap (escape ascii) ++ '"' :: r) = some (s, r) := by
  have hlength := length_escapes ascii s.toList
  unfold readString
  rw [readChars_escape ascii r s.toList _ (by rw [List.length_append]; omega)]
  simp

/-! ## Values -/

namespace Json

variable {fmt : FloatText F} {ascii : Bool} {hook : List (String × Json F) → Json F}

theorem skip_cons {c : Char} (h : isSpace c = false) (s : List Char) :
    skip (c :: s) = c :: s := by
  simp [skip, h]

/-- What begins the text of a value. -/
def Begins (s : List Char) : Prop :=
  ∃ c r, s = c :: r ∧ isSpace c = false ∧ c ≠ ']' ∧ c ≠ '\x7d'

theorem Begins.skip {s : List Char} (h : Begins s) : Json.skip s = s := by
  obtain ⟨c, r, rfl, hspace, -⟩ := h
  exact skip_cons hspace r

theorem Begins.append {s : List Char} (h : Begins s) (r : List Char) :
    Begins (s ++ r) := by
  obtain ⟨c, t, rfl, hc⟩ := h
  exact ⟨c, t ++ r, rfl, hc⟩

/-- A number begins with a digit, or with a sign and a digit. -/
theorem number_head {s : List Char} {p : List Char × Bool × List Char}
    (h : scanNumber s = some p) :
    ∃ c cs, s = c :: cs ∧ (c.isDigit = true ∨ c = '-' ∧ ∃ d ds, cs = d :: ds ∧
      d.isDigit = true) := by
  have hint : ∀ {s : List Char} {p}, scanUnsigned s = some p →
      ∃ c cs, s = c :: cs ∧ c.isDigit = true := by
    intro s p hs
    match s with
    | [] => cases hs
    | c :: cs =>
        refine ⟨c, cs, rfl, ?_⟩
        by_cases hzero : c = '0'
        · subst hzero
          rfl
        · by_cases hdigit : c.isDigit = true
          · exact hdigit
          · simp [scanUnsigned, scanInt, hzero, hdigit] at hs
  match s with
  | [] => cases h
  | c :: cs =>
      refine ⟨c, cs, rfl, ?_⟩
      simp only [scanNumber] at h
      split at h
      · next hc =>
          obtain ⟨q, hq, -⟩ := Option.map_eq_some_iff.1 h
          exact .inr ⟨hc, hint hq⟩
      · obtain ⟨d, ds, hd, hdigit⟩ := hint h
        cases hd
        exact .inl hdigit

theorem digit_ne {c d : Char} (hc : c.isDigit = true)
    (hd : d.isDigit = false) : c ≠ d := by
  rintro rfl
  exact absurd (hc.symm.trans hd) (by decide)

/-- A text that begins like a number is none of the named values. -/
theorem readScalar_number {s r : List Char} {b : Bool}
    (hs : scanNumber s = some (s, b, [])) (h : Stops r) : readScalar fmt (s ++ r) =
      if b then (fmt.parse s).map fun x =>
      (.float x, r) else some (.int (readInt s), r) := by
  have hscan := scanNumber_full hs h
  obtain ⟨c, cs, rfl, hc⟩ := number_head hs
  have hfall : readScalar fmt (c :: cs ++ r) = (scanNumber (c :: cs ++ r)).bind fun x =>
      if x.2.1 then (fmt.parse x.1).map fun y => (.float y, x.2.2)
      else some (.int (readInt x.1), x.2.2) := by
    rw [readScalar]
    · rcases scanNumber (c :: cs ++ r) with _ | ⟨t, b, r⟩
      · rfl
      · cases b <;> rfl
    all_goals
      intro x heq
      obtain hdigit | ⟨rfl, d, ds, rfl, hdigit⟩ := hc
      · exact absurd (List.cons.inj heq).1 (digit_ne hdigit rfl)
      · first
        | exact absurd (List.cons.inj heq).1 (by decide)
        | exact absurd (List.cons.inj (List.cons.inj heq).2).1 (digit_ne hdigit rfl)
  rw [hfall, hscan]
  cases b <;> rfl

theorem parseValue_scalar {c : Char} (hquote : c ≠ '"') (harr : c ≠ '[')
    (hobj : c ≠ '\x7b') (n : Nat) (r : List Char) : parseValue fmt hook (n + 1) (c :: r) =
      readScalar fmt (c :: r) := by
  rw [parseValue]
  · intro r heq
    exact hquote (List.cons.inj heq).1
  · intro r heq
    exact harr (List.cons.inj heq).1
  · intro r heq
    exact hobj (List.cons.inj heq).1

theorem parseValue_number {s r : List Char} {b : Bool}
    (hs : scanNumber s = some (s, b, [])) (h : Stops r) (n : Nat) :
    parseValue fmt hook (n + 1) (s ++ r) =
      if b then (fmt.parse s).map fun x =>
      (.float x, r) else some (.int (readInt s), r) := by
  rw [← readScalar_number hs h]
  obtain ⟨c, cs, rfl, hc⟩ := number_head hs
  obtain hdigit | ⟨rfl, -⟩ := hc
  · exact parseValue_scalar (digit_ne hdigit rfl) (digit_ne hdigit rfl)
      (digit_ne hdigit rfl) n _
  · exact parseValue_scalar (by decide) (by decide) (by decide) n _

theorem begins_number {s : List Char} {p : List Char × Bool × List Char}
    (hs : scanNumber s = some p) :
    Begins s := by
  obtain ⟨c, cs, rfl, hc⟩ := number_head hs
  refine ⟨c, cs, rfl, ?_⟩
  obtain hdigit | ⟨rfl, -⟩ := hc
  · refine ⟨?_, digit_ne hdigit rfl, digit_ne hdigit rfl⟩
    simp [isSpace, digit_ne hdigit (show (' ').isDigit = false from rfl),
      digit_ne hdigit (show ('\t').isDigit = false from rfl),
      digit_ne hdigit (show ('\n').isDigit = false from rfl),
      digit_ne hdigit (show ('\r').isDigit = false from rfl)]
  · decide

theorem begins_print (fmt : FloatText F) (ascii : Bool) (v : Json F) :
    Begins (v.print fmt ascii) := by
  match v with
  | .null => exact ⟨_, _, rfl, by decide⟩
  | .bool true => exact ⟨_, _, rfl, by decide⟩
  | .bool false => exact ⟨_, _, rfl, by decide⟩
  | .int n => exact begins_number (scanNumber_int n)
  | .float (.finite x) => exact begins_number (fmt.literal x)
  | .float .nan => exact ⟨_, _, rfl, by decide⟩
  | .float (.infinity true) => exact ⟨_, _, rfl, by decide⟩
  | .float (.infinity false) => exact ⟨_, _, rfl, by decide⟩
  | .str s => exact ⟨_, _, rfl, by decide⟩
  | .arr [] => exact ⟨_, _, rfl, by decide⟩
  | .arr (v :: items) => exact ⟨_, _, rfl, by decide⟩
  | .obj [] => exact ⟨_, _, rfl, by decide⟩
  | .obj ((k, v) :: fields) => exact ⟨_, _, rfl, by decide⟩

theorem insertField_new {fields : List (String × Json F)} {k : String}
    (h : k ∉ fields.map Prod.fst) (v : Json F) :
    insertField fields k v = fields ++ [(k, v)] :=
  if_neg h

theorem dictionary_of_nodup {fields : List (String × Json F)}
    (h : (fields.map Prod.fst).Nodup) :
    dictionary fields = fields := by
  have hfold : ∀ (later earlier : List (String × Json F)),
      ((earlier ++ later).map Prod.fst).Nodup →
      later.foldl (fun d f => insertField d f.1 f.2) earlier = earlier ++ later := by
    intro later
    induction later with
    | nil => simp
    | cons f later ih =>
        intro earlier hnodup
        have hnew : f.1 ∉ earlier.map Prod.fst := by
          rw [List.map_append, List.nodup_append] at hnodup
          intro hmem
          exact hnodup.2.2 _ hmem _ (by simp) rfl
        rw [List.foldl_cons, insertField_new hnew, ih _ (by simpa using hnodup)]
        simp
  exact hfold fields [] h

mutual

/-- No object has a key twice. -/
def Distinct : Json F → Prop
  | .arr items => DistinctItems items
  | .obj fields => (fields.map Prod.fst).Nodup ∧ DistinctFields fields
  | _ => True

def DistinctItems : List (Json F) → Prop
  | [] => True
  | v :: items => Distinct v ∧ DistinctItems items

def DistinctFields : List (String × Json F) → Prop
  | [] => True
  | (_, v) :: fields => Distinct v ∧ DistinctFields fields

end

theorem readField_print {value : List Char → Option (Json F × List Char)} {v : Json F}
    {r : List Char} (k : String) (h : value (v.print fmt ascii ++ r) = some (v, r)) :
    readField value (stringText ascii k ++ ':' :: (v.print fmt ascii ++ r)) =
      some ((k, v), r) := by
  have hkey := readString_stringText ascii k (':' :: (v.print fmt ascii ++ r))
  have hvalue := ((begins_print fmt ascii v).append r).skip
  have hcolon : skip (':' :: (v.print fmt ascii ++ r)) = ':' :: (v.print fmt ascii ++ r) :=
    skip_cons (by decide) _
  simp only [stringText, List.cons_append, List.append_assoc, List.nil_append, readField]
  simp [hkey, hcolon, hvalue, h]

theorem Begins.not_close {s r : List Char} (h : Begins s) : s ≠ ']' :: r := by
  obtain ⟨c, cs, rfl, -, hclose, -⟩ := h
  intro heq
  exact hclose (List.cons.inj heq).1

theorem stops_printItems (items : List (Json F)) (r : List Char) :
    Stops (printItems fmt ascii items ++ r) := by
  cases items with
  | nil => exact stops_cons (.inr (.inl rfl)) r
  | cons v items => exact stops_cons (.inl rfl) _

theorem stops_printFields (fields : List (String × Json F)) (r : List Char) :
    Stops (printFields fmt ascii fields ++ r) := by
  rcases fields with _ | ⟨⟨k, v⟩, fields⟩
  · exact stops_cons (.inr (.inr rfl)) r
  · exact stops_cons (.inl rfl) _

mutual

theorem parseValue_print : ∀ (v : Json F) (n : Nat) (r : List Char),
    (v.print fmt ascii).length ≤ n → Stops r → v.Distinct →
    parseValue fmt asDictionary n (v.print fmt ascii ++ r) = some (v, r)
  | v, 0, r, hn, _, _ => by
      obtain ⟨c, cs, h, -⟩ := begins_print fmt ascii v
      simp [h] at hn
  | .null, n + 1, r, _, _, _ => parseValue_scalar (by decide) (by decide) (by decide) n _
  | .bool true, n + 1, r, _, _, _ =>
      parseValue_scalar (by decide) (by decide) (by decide) n _
  | .bool false, n + 1, r, _, _, _ =>
      parseValue_scalar (by decide) (by decide) (by decide) n _
  | .int m, n + 1, r, _, h, _ => by
      rw [print, parseValue_number (scanNumber_int m) h, readInt_intText]
      rfl
  | .float (.finite x), n + 1, r, _, h, _ => by
      rw [print, floatText, parseValue_number (fmt.literal x) h, fmt.parse_repr]
      rfl
  | .float .nan, n + 1, r, _, _, _ =>
      parseValue_scalar (by decide) (by decide) (by decide) n _
  | .float (.infinity true), n + 1, r, _, _, _ =>
      parseValue_scalar (by decide) (by decide) (by decide) n _
  | .float (.infinity false), n + 1, r, _, _, _ =>
      parseValue_scalar (by decide) (by decide) (by decide) n _
  | .str s, n + 1, r, _, _, _ => by
      simp [print, stringText, parseValue, readString_stringText]
  | .arr [], n + 1, r, _, _, _ => by
      simp [print, parseValue, skip_cons (show isSpace ']' = false by decide)]
  | .arr (v :: items), n + 1, r, hn, _, hd => by
      simp only [print, List.length_cons, List.length_append] at hn
      have hv := parseValue_print v n (printItems fmt ascii items ++ r) (by omega)
        (stops_printItems items r) hd.1
      have hitems := parseItems_print items n r (by omega) hd.2
      have hbegins := (begins_print fmt ascii v).append (printItems fmt ascii items ++ r)
      simp only [print, List.cons_append, List.append_assoc, parseValue, hbegins.skip]
      split
      · next heq => exact absurd heq hbegins.not_close
      · simp [hv, hitems]
  | .obj [], n + 1, r, _, _, _ => by
      simp [print, parseValue, asDictionary, dictionary,
        skip_cons (show isSpace '\x7d' = false by decide)]
  | .obj ((k, v) :: fields), n + 1, r, hn, _, hd => by
      simp only [print, List.length_cons, List.length_append] at hn
      have hv := parseValue_print v n (printFields fmt ascii fields ++ r) (by omega)
        (stops_printFields fields r) hd.2.1
      have hfield := readField_print k hv
      have hfields := parseFields_print fields n r (by omega) hd.2.2
      have hdict := dictionary_of_nodup hd.1
      have hquote : ∀ s, skip (stringText ascii k ++ s) = stringText ascii k ++ s :=
        fun s => skip_cons (by decide) _
      simp only [print, List.cons_append, List.append_assoc, parseValue, hquote]
      split
      · next heq => exact absurd (List.cons.inj heq).1 (by decide)
      · simp [hfield, hfields, asDictionary, hdict]

theorem parseItems_print : ∀ (items : List (Json F)) (n : Nat) (r : List Char),
    (printItems fmt ascii items).length ≤ n → DistinctItems items →
    parseItems fmt asDictionary n (printItems fmt ascii items ++ r) = some (items, r)
  | [], n + 1, r, _, _ => by
      simp [printItems, parseItems, skip_cons (show isSpace ']' = false by decide)]
  | v :: items, n + 1, r, hn, hd => by
      simp only [printItems, List.length_cons, List.length_append] at hn
      have hv := parseValue_print v n (printItems fmt ascii items ++ r) (by omega)
        (stops_printItems items r) hd.1
      have hitems := parseItems_print items n r (by omega) hd.2
      have hbegins := (begins_print fmt ascii v).append (printItems fmt ascii items ++ r)
      have hcomma : ∀ s, skip (',' :: s) = ',' :: s := fun s => skip_cons (by decide) s
      simp only [printItems, List.cons_append, List.append_assoc, parseItems,
        hcomma, hbegins.skip]
      simp [hv, hitems]
  | items, 0, r, hn, _ => by cases items <;> simp [printItems] at hn

theorem parseFields_print : ∀ (fields : List (String × Json F)) (n : Nat) (r : List Char),
    (printFields fmt ascii fields).length ≤ n → DistinctFields fields →
    parseFields fmt asDictionary n (printFields fmt ascii fields ++ r) = some (fields, r)
  | [], n + 1, r, _, _ => by
      simp [printFields, parseFields, skip_cons (show isSpace '\x7d' = false by decide)]
  | (k, v) :: fields, n + 1, r, hn, hd => by
      simp only [printFields, List.length_cons, List.length_append] at hn
      have hv := parseValue_print v n (printFields fmt ascii fields ++ r) (by omega)
        (stops_printFields fields r) hd.1
      have hfield := readField_print k hv
      have hfields := parseFields_print fields n r (by omega) hd.2
      have hcomma : ∀ s, skip (',' :: s) = ',' :: s := fun s => skip_cons (by decide) s
      have hquote : ∀ s, skip (stringText ascii k ++ s) = stringText ascii k ++ s :=
        fun s => skip_cons (by decide) _
      simp only [printFields, List.cons_append, List.append_assoc, parseFields,
        hcomma, hquote]
      simp [hfield, hfields]
  | fields, 0, r, hn, _ => by
      rcases fields with _ | ⟨⟨k, v⟩, fields⟩ <;> simp [printFields] at hn

end

theorem loads_print {v : Json F} (hd : v.Distinct) :
    loads fmt (v.print fmt ascii) = some v := by
  have hparse : parseValue fmt asDictionary ((v.print fmt ascii).length + 1)
      (v.print fmt ascii ++ []) =
      some (v, []) := parseValue_print v _ [] (Nat.le_succ _) stops_nil hd
  rw [List.append_nil] at hparse
  rw [loads, loadsWith, (begins_print fmt ascii v).skip, hparse]
  rfl

/-! ## Keys -/

theorem sortedItems_eq (items : List (Json F)) : sortedItems items = items.map sorted := by
  induction items with
  | nil => rfl
  | cons v items ih => rw [sortedItems, ih, List.map_cons]

theorem sortedFields_eq (fields : List (String × Json F)) :
    sortedFields fields = fields.map fun f => (f.1, f.2.sorted) := by
  induction fields with
  | nil => rfl
  | cons f fields ih => rw [sortedFields, ih, List.map_cons]

theorem distinctItems_iff (items : List (Json F)) : DistinctItems items ↔
    ∀ v ∈ items, v.Distinct := by
  induction items with
  | nil => simp [DistinctItems]
  | cons v items ih => simp [DistinctItems, ih]

theorem distinctFields_iff (fields : List (String × Json F)) :
    DistinctFields fields ↔ ∀ f ∈ fields, f.2.Distinct := by
  induction fields with
  | nil => simp [DistinctFields]
  | cons f fields ih => simp [DistinctFields, ih]

theorem specialItems_eq (items : List (Json F)) :
    specialItems items = items.any special := by
  induction items with
  | nil => rfl
  | cons v items ih => rw [specialItems, ih, List.any_cons]

theorem specialFields_eq (fields : List (String × Json F)) :
    specialFields fields = fields.any fun f => f.2.special := by
  induction fields with
  | nil => rfl
  | cons f fields ih => rw [specialFields, ih, List.any_cons]

/-- The fields in the order of their keys. -/
def byKey (fields : List (String × Json F)) : List (String × Json F) :=
  fields.insertionSort fun f g => f.1 ≤ g.1

theorem byKey_perm (fields : List (String × Json F)) : (byKey fields).Perm fields :=
  List.perm_insertionSort _ fields

theorem byKey_byKey (fields : List (String × Json F)) :
    byKey (byKey fields) = byKey fields := by
  have htotal : Std.Total fun f g : String × Json F => f.1 ≤ g.1 :=
    ⟨fun f g => le_total f.1 g.1⟩
  have htrans : IsTrans (String × Json F) fun f g => f.1 ≤ g.1 := ⟨fun _ _ _ => le_trans⟩
  exact (List.pairwise_insertionSort _ fields).insertionSort_eq

theorem map_byKey (g : Json F → Json F) (fields : List (String × Json F)) :
    (byKey fields).map (fun f => (f.1, g f.2)) =
      byKey (fields.map fun f => (f.1, g f.2)) :=
  List.map_insertionSort _ _ _ _ fun _ _ _ _ => Iff.rfl

theorem sorted_obj (fields : List (String × Json F)) :
    (Json.obj fields).sorted = .obj (byKey (fields.map fun f => (f.1, f.2.sorted))) := by
  rw [sorted, sortedFields_eq]
  rfl

theorem sorted_arr (items : List (Json F)) :
    (Json.arr items).sorted = .arr (items.map sorted) := by
  rw [sorted, sortedItems_eq]

mutual

theorem Distinct.sorted : ∀ {v : Json F}, v.Distinct → v.sorted.Distinct
  | .null, h => h
  | .bool _, h => h
  | .int _, h => h
  | .float _, h => h
  | .str _, h => h
  | .arr items, h => DistinctItems.sorted h
  | .obj fields, h => by
      have hfields := DistinctFields.sorted h.2
      rw [sorted_obj]
      rw [sortedFields_eq] at hfields
      refine ⟨?_, ?_⟩
      · rw [((byKey_perm _).map Prod.fst).nodup_iff, List.map_map]
        exact h.1
      · rw [distinctFields_iff] at hfields ⊢
        intro f hf
        exact hfields f ((byKey_perm _).mem_iff.1 hf)

theorem DistinctItems.sorted : ∀ {items : List (Json F)}, DistinctItems items →
    DistinctItems (sortedItems items)
  | [], h => h
  | _ :: _, h => ⟨h.1.sorted, DistinctItems.sorted h.2⟩

theorem DistinctFields.sorted : ∀ {fields : List (String × Json F)},
    DistinctFields fields →
    DistinctFields (sortedFields fields)
  | [], h => h
  | _ :: _, h => ⟨h.1.sorted, DistinctFields.sorted h.2⟩

end

mutual

theorem sorted_sorted : ∀ v : Json F, v.sorted.sorted = v.sorted
  | .null => rfl
  | .bool _ => rfl
  | .int _ => rfl
  | .float _ => rfl
  | .str _ => rfl
  | .arr items => by rw [sorted, sorted, sortedItems_sorted]
  | .obj fields => by
      have hfields := sortedFields_sorted fields
      rw [sortedFields_eq, sortedFields_eq] at hfields
      rw [sorted_obj, sorted_obj, map_byKey, hfields, byKey_byKey]

theorem sortedItems_sorted : ∀ items : List (Json F), sortedItems (sortedItems items) =
    sortedItems items
  | [] => rfl
  | v :: items => by simp only [sortedItems, sorted_sorted v, sortedItems_sorted items]

theorem sortedFields_sorted :
    ∀ fields : List (String × Json F), sortedFields (sortedFields fields) =
      sortedFields fields
  | [] => rfl
  | (k, v) :: fields => by
      simp only [sortedFields, sorted_sorted v, sortedFields_sorted fields]

end

mutual

theorem special_sorted : ∀ v : Json F, v.sorted.special = v.special
  | .null => rfl
  | .bool _ => rfl
  | .int _ => rfl
  | .float _ => rfl
  | .str _ => rfl
  | .arr items => by rw [sorted, special, special, specialItems_sorted]
  | .obj fields => by
      have hfields := specialFields_sorted fields
      rw [specialFields_eq, sortedFields_eq] at hfields
      rw [sorted_obj, special, special, specialFields_eq, (byKey_perm _).any_eq, hfields]

theorem specialItems_sorted : ∀ items : List (Json F), specialItems (sortedItems items) =
    specialItems items
  | [] => rfl
  | v :: items =>
      by simp only [sortedItems, specialItems, special_sorted v, specialItems_sorted items]

theorem specialFields_sorted :
    ∀ fields : List (String × Json F), specialFields (sortedFields fields) =
      specialFields fields
  | [] => rfl
  | (k, v) :: fields => by
      simp only [sortedFields, specialFields, special_sorted v,
        specialFields_sorted fields]

end

/-- The order in which the fields were given does not show in the sorted value. -/
theorem sorted_of_perm {fields others : List (String × Json F)} (h : fields.Perm others)
    (hnodup : (fields.map Prod.fst).Nodup) :
    (Json.obj fields).sorted = (Json.obj others).sorted := by
  have htotal : Std.Total fun f g : String × Json F => f.1 ≤ g.1 :=
    ⟨fun f g => le_total f.1 g.1⟩
  have htrans : IsTrans (String × Json F) fun f g => f.1 ≤ g.1 := ⟨fun _ _ _ => le_trans⟩
  rw [sorted_obj, sorted_obj]
  have hperm : (fields.map fun f => (f.1, f.2.sorted)).Perm
      (others.map fun f => (f.1, f.2.sorted)) :=
    h.map _
  congr 1
  refine List.Perm.eq_of_pairwise ?_ (List.pairwise_insertionSort _ _)
    (List.pairwise_insertionSort _ _) ?_
  · intro f g hf hg hle hge
    have hkeys : ((fields.map fun f => (f.1, f.2.sorted)).map Prod.fst).Nodup := by
      simpa [Function.comp_def] using hnodup
    have hf' := (byKey_perm _).mem_iff.1 hf
    have hg' := hperm.mem_iff.2 ((byKey_perm _).mem_iff.1 hg)
    exact List.inj_on_of_nodup_map hkeys hf' hg' (le_antisymm hle hge)
  · exact (byKey_perm _).trans (hperm.trans (byKey_perm _).symm)

theorem field?_eq_some {fields : List (String × Json F)} (h : (fields.map Prod.fst).Nodup)
    {k : String} {v : Json F} : field? fields k = some v ↔ (k, v) ∈ fields := by
  induction fields with
  | nil => simp [field?]
  | cons f fields ih =>
      obtain ⟨hnew, hrest⟩ := List.nodup_cons.1 h
      by_cases hk : f.1 = k
      · have hother : (k, v) ∉ fields := fun hmem => hnew (hk ▸ List.mem_map_of_mem hmem)
        rw [List.mem_cons, or_iff_left hother, Prod.ext_iff]
        simp [field?, hk, eq_comm]
      · have hhead : (k, v) ≠ f := by
          rintro rfl
          exact hk rfl
        rw [List.mem_cons, or_iff_right hhead, ← ih hrest]
        simp [field?, hk]

/-- Sorting keeps every field. -/
theorem field?_byKey {fields : List (String × Json F)} (h : (fields.map Prod.fst).Nodup)
    (k : String) :
    field? (byKey fields) k = field? fields k := by
  have hsorted : ((byKey fields).map Prod.fst).Nodup :=
    ((byKey_perm fields).map Prod.fst).nodup_iff.2 h
  ext v
  rw [field?_eq_some hsorted, field?_eq_some h, (byKey_perm fields).mem_iff]

theorem field?_map (g : Json F → Json F) (fields : List (String × Json F)) (k : String) :
    field? (fields.map fun f => (f.1, g f.2)) k = (field? fields k).map g := by
  simp [field?, List.find?_map, Function.comp_def]

end Json

theorem loads_dumps {fmt : FloatText F} {v : Json F} (style : Style) (h : v.Distinct) :
    loads fmt (dumps fmt style v) = some (if style.sortKeys then v.sorted else v) := by
  unfold dumps
  split
  · exact Json.loads_print h.sorted
  · exact Json.loads_print h

end PairCell.Lib
