import PairCell.Bridge

/-!
# The nesting of a body

The scanner of the bytes knows nothing of JSON but its strings, and on the text
of a value it counts the containers exactly.
-/

namespace PairCell.Lib.Json

variable {F : Type}

mutual

/-- How many containers stand in one another. -/
def depth : Json F → Nat
  | .arr items => depthItems items + 1
  | .obj fields => depthFields fields + 1
  | _ => 0

def depthItems : List (Json F) → Nat
  | [] => 0
  | v :: items => max (depth v) (depthItems items)

def depthFields : List (String × Json F) → Nat
  | [] => 0
  | (_, v) :: fields => max (depth v) (depthFields fields)

end

end PairCell.Lib.Json

namespace PairCell.Bridge

open Lib

variable {F : Type} {fmt : FloatText F} {d : Int}

/-! ## Runs of the scanner -/

theorem scan_append (s : Scanner) (a b : Bytes) : scan s (a ++ b) = scan s a >>=
    fun s => scan s b := by
  induction a generalizing s with
  | nil => rfl
  | cons byte a ih =>
      simp only [List.cons_append, scan]
      cases s.step byte with
      | error e => rfl
      | ok t => exact ih t

theorem scan_then {s t : Scanner} {a : Bytes} (h : scan s a = .ok t) (b : Bytes) :
    scan s (a ++ b) = scan t b := by
  rw [scan_append, h]
  rfl

/-- Bytes that keep the state keep it one after the other. -/
theorem scan_same {s : Scanner} {a : Bytes} (h : ∀ byte ∈ a, s.step byte = .ok s) :
    scan s a = .ok s := by
  induction a with
  | nil => rfl
  | cons byte a ih =>
      rw [scan, h byte List.mem_cons_self]
      exact ih fun b hb => h b (List.mem_cons_of_mem _ hb)

/-! ## Strings -/

/-- Two characters below 128 have two bytes. -/
theorem byte_ne {c e : Char} (hc : c.toNat < 128) (he : e.toNat < 128) (hne : c ≠ e) :
    UInt8.ofNat c.toNat ≠ UInt8.ofNat e.toNat := by
  intro heq
  have hnat := congrArg UInt8.toNat heq
  rw [UInt8.toNat_ofNat', UInt8.toNat_ofNat'] at hnat
  exact hne (Char.ext (UInt32.toNat_inj.1 (show c.toNat = e.toNat by omega)))

/-- No byte of a character other than a quote or a backslash is one of the two. -/
theorem step_inside {c : Char} (hquote : c ≠ '"') (hslash : c ≠ '\\') {byte : UInt8}
    (hb : byte ∈ String.utf8EncodeChar c) :
    Scanner.step ⟨d, true, false⟩ byte = .ok ⟨d, true, false⟩ := by
  have hneither : byte ≠ 92 ∧ byte ≠ 34 := by
    by_cases hascii : c.toNat < 128
    · rw [Utf8.utf8EncodeChar_ascii hascii, List.mem_singleton] at hb
      subst hb
      exact ⟨byte_ne (e := '\\') hascii (by decide) hslash,
        byte_ne (e := '"') hascii (by decide) hquote⟩
    · have hlow := Utf8.le_of_mem_utf8EncodeChar (not_lt.1 hascii) hb
      constructor
      · rintro rfl
        exact absurd hlow (by decide)
      · rintro rfl
        exact absurd hlow (by decide)
  simp [Scanner.step, hneither.1, hneither.2]

theorem scan_inside {s : List Char} (h : ∀ c ∈ s, c ≠ '"' ∧ c ≠ '\\') :
    scan ⟨d, true, false⟩ (Utf8.encode s) = .ok ⟨d, true, false⟩ := by
  refine scan_same fun byte hb => ?_
  obtain ⟨c, hc, hbyte⟩ := List.mem_flatMap.1 hb
  exact step_inside (h c hc).1 (h c hc).2 hbyte

/-- A backslash and the character after it. -/
theorem scan_escaped {c : Char} (hc : c.toNat < 128) :
    scan ⟨d, true, false⟩ (Utf8.encode ['\\', c]) = .ok ⟨d, true, false⟩ := by
  rw [Utf8.encode_cons, Utf8.encode_cons, Utf8.utf8EncodeChar_ascii hc]
  rfl

theorem hexDigit_plain {n : Nat} (h : n < 16) : hexDigit n ≠ '"' ∧ hexDigit n ≠ '\\' := by
  have hall : ∀ n : Fin 16, hexDigit n ≠ '"' ∧ hexDigit n ≠ '\\' := by decide
  exact hall ⟨n, h⟩

theorem scan_unit (n : Nat) :
    scan ⟨d, true, false⟩ (Utf8.encode (unit n)) = .ok ⟨d, true, false⟩ := by
  have hsplit : unit n = ['\\', 'u'] ++ [hexDigit (n / 4096 % 16), hexDigit (n / 256 % 16),
      hexDigit (n / 16 % 16), hexDigit (n % 16)] := rfl
  rw [hsplit, Utf8.encode_append, scan_then (scan_escaped (by decide))]
  refine scan_inside fun c hc => ?_
  simp only [List.mem_cons, List.not_mem_nil, or_false] at hc
  obtain rfl | rfl | rfl | rfl := hc <;> exact hexDigit_plain (Nat.mod_lt _ (by decide))

theorem scan_escape (c : Char) :
    scan ⟨d, true, false⟩ (Utf8.encode (escape false c)) = .ok ⟨d, true, false⟩ := by
  unfold escape
  split
  · exact scan_escaped (by decide)
  split
  · exact scan_escaped (by decide)
  split
  · exact scan_escaped (by decide)
  split
  · exact scan_escaped (by decide)
  split
  · exact scan_escaped (by decide)
  split
  · exact scan_escaped (by decide)
  split
  · exact scan_escaped (by decide)
  split
  · exact scan_unit c.toNat
  · next hquote hslash _ _ _ _ _ _ =>
    simp only [Bool.false_and, Bool.false_eq_true, if_false]
    refine scan_inside fun e he => ?_
    rw [List.mem_singleton.1 he]
    exact ⟨hquote, hslash⟩

theorem scan_escapes (s : List Char) :
    scan ⟨d, true, false⟩ (Utf8.encode (s.flatMap (escape false))) =
      .ok ⟨d, true, false⟩ := by
  induction s with
  | nil => rfl
  | cons c s ih =>
      rw [List.flatMap_cons, Utf8.encode_append, scan_then (scan_escape c)]
      exact ih

theorem scan_string (s : String) (rest : Bytes) :
    scan ⟨d, false, false⟩ (Utf8.encode (stringText false s) ++ rest) =
      scan ⟨d, false, false⟩ rest := by
  have hclose : ∀ t : Scanner, t = ⟨d, true, false⟩ →
      scan t (Utf8.encode ['"']) = .ok ⟨d, false, false⟩ := by
    rintro t rfl
    rfl
  have hopen : scan ⟨d, false, false⟩ (Utf8.encode ['"']) = .ok ⟨d, true, false⟩ := rfl
  have hsplit : stringText false s = ['"'] ++
      (s.toList.flatMap (escape false) ++ ['"']) := rfl
  rw [hsplit, Utf8.encode_append, Utf8.encode_append, List.append_assoc, List.append_assoc,
    scan_then hopen, scan_then (scan_escapes _), scan_then (hclose _ rfl)]

/-! ## Scalars -/

/-- Neither a quote nor a bracket. -/
def quiet (c : Char) : Bool :=
  decide (c.toNat < 128) &&
    !(c == '"' || c == '[' || c == ']' || c == '\x7b' || c == '\x7d')

theorem quiet_all {s : List Char} (h : s.all quiet = true) : ∀ c ∈ s, quiet c = true :=
  List.all_eq_true.1 h

theorem scan_quiet {s : List Char} (h : ∀ c ∈ s, quiet c = true) (rest : Bytes) :
    scan ⟨d, false, false⟩ (Utf8.encode s ++ rest) = scan ⟨d, false, false⟩ rest := by
  refine scan_then (scan_same fun byte hb => ?_) rest
  obtain ⟨c, hc, hbyte⟩ := List.mem_flatMap.1 hb
  have hquiet := h c hc
  simp only [quiet, Bool.and_eq_true, decide_eq_true_eq, Bool.not_eq_true',
    Bool.or_eq_false_iff, beq_eq_false_iff_ne] at hquiet
  obtain ⟨hascii, ⟨⟨⟨hquote, hopen⟩, hclose⟩, hbrace⟩, hend⟩ := hquiet
  rw [Utf8.utf8EncodeChar_ascii hascii, List.mem_singleton] at hbyte
  subst hbyte
  have hne : ∀ e : Char, e.toNat < 128 → c ≠ e →
      UInt8.ofNat c.toNat ≠ UInt8.ofNat e.toNat :=
    fun e he => byte_ne hascii he
  have h34 : UInt8.ofNat c.toNat ≠ 34 := hne '"' (by decide) hquote
  have h91 : UInt8.ofNat c.toNat ≠ 91 := hne '[' (by decide) hopen
  have h93 : UInt8.ofNat c.toNat ≠ 93 := hne ']' (by decide) hclose
  have h123 : UInt8.ofNat c.toNat ≠ 123 := hne '\x7b' (by decide) hbrace
  have h125 : UInt8.ofNat c.toNat ≠ 125 := hne '\x7d' (by decide) hend
  simp [Scanner.step, h34, h91, h93, h123, h125]

theorem quiet_digit {c : Char} (h : c.isDigit = true) : quiet c = true := by
  have hbound : c.toNat ≤ 57 := by
    simp only [Char.isDigit, Bool.and_eq_true, decide_eq_true_eq] at h
    exact h.2
  have hne : ∀ e : Char, e.isDigit = false → (c == e) = false := fun e he =>
    beq_eq_false_iff_ne.2 (Json.digit_ne h he)
  simp [quiet, hne '"' rfl, hne '[' rfl, hne ']' rfl, hne '\x7b' rfl, hne '\x7d' rfl]
  omega

theorem quiet_takeWhile (s : List Char) : ∀ c ∈ s.takeWhile Char.isDigit, quiet c = true :=
  fun _ hc => quiet_digit (List.mem_takeWhile_imp hc)

theorem quiet_int (n : Int) : ∀ c ∈ intText n, quiet c = true := by
  intro c hc
  cases n with
  | ofNat n => exact quiet_digit (digit_of_mem hc)
  | negSucc n =>
      obtain rfl | hc := List.mem_cons.1 hc
      · decide
      · exact quiet_digit (digit_of_mem hc)

/-! A number that was scanned has digits, a point, signs and an exponent mark. -/

theorem quiet_scanDigits {mark r whole : List Char} (hmark : ∀ c ∈ mark, quiet c = true) :
    ∀ c ∈ (scanDigits mark r whole).1, quiet c = true := by
  unfold scanDigits
  split
  · simp
  · intro c hc
    obtain hc | hc := List.mem_append.1 hc
    · exact hmark c hc
    · exact quiet_takeWhile r c hc

theorem quiet_scanFraction (r : List Char) : ∀ c ∈ (scanFraction r).1, quiet c = true := by
  unfold scanFraction
  split
  · split
    · exact quiet_scanDigits (quiet_all (by decide))
    · simp
  · simp

theorem quiet_scanExponent (r : List Char) : ∀ c ∈ (scanExponent r).1, quiet c = true := by
  have hmark : ∀ e, isExponent e = true → quiet e = true := by
    intro e he
    simp only [isExponent, Bool.or_eq_true, decide_eq_true_eq] at he
    obtain rfl | rfl := he <;> decide
  have hsign : ∀ c, isSign c = true → quiet c = true := by
    intro c hc
    simp only [isSign, Bool.or_eq_true, decide_eq_true_eq] at hc
    obtain rfl | rfl := hc <;> decide
  unfold scanExponent
  split
  · split
    · next he =>
      split
      · next hc =>
        refine quiet_scanDigits fun x hx => ?_
        simp only [List.mem_cons, List.not_mem_nil, or_false] at hx
        obtain rfl | rfl := hx
        · exact hmark _ he
        · exact hsign _ hc
      · refine quiet_scanDigits fun x hx => ?_
        rw [List.mem_singleton.1 hx]
        exact hmark _ he
    · simp
  · simp

theorem quiet_scanUnsigned {s t r : List Char} {b : Bool}
    (h : scanUnsigned s = some (t, b, r)) :
    ∀ c ∈ t, quiet c = true := by
  obtain ⟨⟨i, r'⟩, hint, hrest⟩ := Option.map_eq_some_iff.1 h
  cases hrest
  have hi : ∀ c ∈ i, quiet c = true := by
    cases s with
    | nil => cases hint
    | cons c s =>
        simp only [scanInt] at hint
        split at hint
        · cases hint
          exact quiet_all (by decide)
        · split at hint
          · next hdigit =>
            cases hint
            exact List.forall_mem_cons.2 ⟨quiet_digit hdigit, quiet_takeWhile s⟩
          · cases hint
  intro c hc
  obtain hc | hc := List.mem_append.1 hc
  · obtain hc | hc := List.mem_append.1 hc
    · exact hi c hc
    · exact quiet_scanFraction _ c hc
  · exact quiet_scanExponent _ c hc

theorem quiet_number {s t r : List Char} {b : Bool} (h : scanNumber s = some (t, b, r)) :
    ∀ c ∈ t, quiet c = true := by
  cases s with
  | nil => cases h
  | cons c s =>
      simp only [scanNumber] at h
      split at h
      · obtain ⟨⟨u, b', r'⟩, hu, hrest⟩ := Option.map_eq_some_iff.1 h
        cases hrest
        exact List.forall_mem_cons.2 ⟨by decide, quiet_scanUnsigned hu⟩
      · exact quiet_scanUnsigned h

/-! ## Values -/

/-- The result of a value at some depth. -/
def within (d : Int) (n : Nat) (s : Scanner) : Except Raised Scanner :=
  if d + n ≤ maximumDepth then .ok s else .error .valueError

theorem scan_scalar {s : List Char} (hs : ∀ c ∈ s, quiet c = true) (hd : d ≤ maximumDepth)
    (rest : Bytes) : scan ⟨d, false, false⟩ (Utf8.encode s ++ rest) =
      within d 0 ⟨d, false, false⟩ >>= fun s => scan s rest := by
  have hzero : within d 0 ⟨d, false, false⟩ = .ok ⟨d, false, false⟩ := by
    rw [within, if_pos (by simpa using hd)]
  rw [scan_quiet hs, hzero]
  rfl

/-- One part after the other is as deep as the deeper one of the two. -/
theorem within_then {n m : Nat} {s t : Scanner} {rest : Bytes}
    {k : Scanner → Except Raised Scanner} (h : scan s rest = within d m t >>= k) :
    (within d n s >>= fun s => scan s rest) = within d (max n m) t >>= k := by
  by_cases hn : d + n ≤ maximumDepth
  · have hstart : within d n s = .ok s := if_pos hn
    have hsame : within d (max n m) t = within d m t := by
      unfold within
      congr 1
      rw [eq_iff_iff]
      omega
    rw [hstart, hsame]
    exact h
  · have hstart : within d n s = .error .valueError := if_neg hn
    have hdeep : within d (max n m) t = .error .valueError := if_neg (by omega)
    rw [hstart, hdeep]
    rfl

theorem encode_cons_append (c : Char) (s : List Char) (rest : Bytes) :
    Utf8.encode (c :: s) ++ rest = Utf8.encode [c] ++ (Utf8.encode s ++ rest) := by
  rw [← List.append_assoc, ← Utf8.encode_append]
  rfl

theorem scan_mark {c : Char} (hc : quiet c = true) (s : List Char) (rest : Bytes) :
    scan ⟨d, false, false⟩ (Utf8.encode (c :: s) ++ rest) =
      scan ⟨d, false, false⟩ (Utf8.encode s ++ rest) := by
  rw [encode_cons_append, scan_quiet (by simpa using hc)]

theorem scan_close {c : Char} (hc : c = ']' ∨ c = '\x7d') (rest : Bytes) :
    scan ⟨d, false, false⟩ (Utf8.encode [c] ++ rest) =
      scan ⟨d - 1, false, false⟩ rest := by
  obtain rfl | rfl := hc <;> rfl

/-- A container of `n` levels inside is one level deeper. -/
theorem scan_open {c : Char} (hc : c = '[' ∨ c = '\x7b') {n : Nat} {s : List Char}
    {rest : Bytes} {k : Scanner → Except Raised Scanner}
    (h : d + 1 ≤ maximumDepth → scan ⟨d + 1, false, false⟩ (Utf8.encode s ++ rest) =
      within (d + 1) n ⟨d, false, false⟩ >>= k) :
    scan ⟨d, false, false⟩ (Utf8.encode (c :: s) ++ rest) =
      within d (n + 1) ⟨d, false, false⟩ >>= k := by
  have hstep : scan ⟨d, false, false⟩ (Utf8.encode (c :: s) ++ rest) =
      if maximumDepth < d + 1 then .error .valueError
      else scan ⟨d + 1, false, false⟩ (Utf8.encode s ++ rest) := by
    rw [encode_cons_append]
    have hbytes : Utf8.encode [c] = [UInt8.ofNat c.toNat] := by
      obtain rfl | rfl := hc <;> rfl
    have hopen : Scanner.step ⟨d, false, false⟩ (UInt8.ofNat c.toNat) =
        if maximumDepth < d + 1 then .error .valueError
        else .ok ⟨d + 1, false, false⟩ := by
      obtain rfl | rfl := hc <;> rfl
    rw [hbytes, List.cons_append, List.nil_append, scan, hopen]
    split <;> rfl
  rw [hstep]
  split
  · next hdeep =>
    have herror : within d (n + 1) ⟨d, false, false⟩ = .error .valueError :=
      if_neg (by omega)
    rw [herror]
    rfl
  · next hroom =>
    have hsame : within d (n + 1) ⟨d, false, false⟩ =
        within (d + 1) n ⟨d, false, false⟩ := by
      unfold within
      congr 1
      rw [eq_iff_iff]
      omega
    rw [h (by omega), hsame]

mutual

/-- The scanner stops at a value exactly if it is nested too deep. -/
theorem scan_print : ∀ (v : Json F) {d : Int}, d ≤ maximumDepth → ∀ rest,
    scan ⟨d, false, false⟩ (Utf8.encode (v.print fmt false) ++ rest) =
      within d v.depth ⟨d, false, false⟩ >>= fun s => scan s rest
  | .null, _, hd, rest =>
      scan_scalar (s := ['n', 'u', 'l', 'l']) (quiet_all (by decide)) hd rest
  | .bool true, _, hd, rest =>
      scan_scalar (s := ['t', 'r', 'u', 'e']) (quiet_all (by decide)) hd rest
  | .bool false, _, hd, rest =>
      scan_scalar (s := ['f', 'a', 'l', 's', 'e']) (quiet_all (by decide)) hd rest
  | .int n, _, hd, rest => scan_scalar (quiet_int n) hd rest
  | .float (.finite x), _, hd, rest => scan_scalar (quiet_number (fmt.literal x)) hd rest
  | .float .nan, _, hd, rest =>
      scan_scalar (s := "NaN".toList) (quiet_all (by decide)) hd rest
  | .float (.infinity true), _, hd, rest =>
      scan_scalar (s := "-Infinity".toList) (quiet_all (by decide)) hd rest
  | .float (.infinity false), _, hd, rest =>
      scan_scalar (s := "Infinity".toList) (quiet_all (by decide)) hd rest
  | .str s, d, hd, rest => by
      have hzero : within d 0 ⟨d, false, false⟩ = .ok ⟨d, false, false⟩ := by
        rw [within, if_pos (by simpa using hd)]
      have hdepth : (Json.str s : Json F).depth = 0 := by simp [Json.depth]
      rw [Json.print, scan_string, hdepth, hzero]
      rfl
  | .arr [], d, hd, rest => by
      refine scan_open (.inl rfl) fun hroom => ?_
      have hzero : within (d + 1) 0 ⟨d, false, false⟩ = .ok ⟨d, false, false⟩ := by
        rw [within, if_pos (by simpa using hroom)]
      rw [scan_close (.inl rfl), Json.depthItems, hzero, Int.add_sub_cancel]
      rfl
  | .arr (v :: items), d, hd, rest => by
      rw [Json.print]
      refine scan_open (.inl rfl) fun hroom => ?_
      have hitems := scan_printItems items hroom rest
      rw [Int.add_sub_cancel] at hitems
      rw [Utf8.encode_append, List.append_assoc, scan_print v hroom, Json.depthItems,
        within_then hitems]
  | .obj [], d, hd, rest => by
      refine scan_open (.inr rfl) fun hroom => ?_
      have hzero : within (d + 1) 0 ⟨d, false, false⟩ = .ok ⟨d, false, false⟩ := by
        rw [within, if_pos (by simpa using hroom)]
      rw [scan_close (.inr rfl), Json.depthFields, hzero, Int.add_sub_cancel]
      rfl
  | .obj ((k, v) :: fields), d, hd, rest => by
      rw [Json.print]
      refine scan_open (.inr rfl) fun hroom => ?_
      have hfields := scan_printFields fields hroom rest
      rw [Int.add_sub_cancel] at hfields
      rw [Utf8.encode_append, List.append_assoc, scan_string, scan_mark (by decide),
        Utf8.encode_append, List.append_assoc, scan_print v hroom, Json.depthFields,
        within_then hfields]

theorem scan_printItems : ∀ (items : List (Json F)) {d : Int}, d ≤ maximumDepth → ∀ rest,
    scan ⟨d, false, false⟩ (Utf8.encode (Json.printItems fmt false items) ++ rest) =
      within d (Json.depthItems items) ⟨d - 1, false, false⟩ >>= fun s => scan s rest
  | [], d, hd, rest => by
      have hzero : within d 0 ⟨d - 1, false, false⟩ = .ok ⟨d - 1, false, false⟩ := by
        rw [within, if_pos (by simpa using hd)]
      rw [Json.printItems, scan_close (.inl rfl), Json.depthItems, hzero]
      rfl
  | v :: items, d, hd, rest => by
      rw [Json.printItems, scan_mark (by decide), Utf8.encode_append, List.append_assoc,
        scan_print v hd, Json.depthItems, within_then (scan_printItems items hd rest)]

theorem scan_printFields : ∀ (fields : List (String × Json F)) {d : Int}, d ≤
    maximumDepth → ∀ rest, scan ⟨d, false,
      false⟩ (Utf8.encode (Json.printFields fmt false fields) ++ rest) =
      within d (Json.depthFields fields) ⟨d - 1, false, false⟩ >>= fun s => scan s rest
  | [], d, hd, rest => by
      have hzero : within d 0 ⟨d - 1, false, false⟩ = .ok ⟨d - 1, false, false⟩ := by
        rw [within, if_pos (by simpa using hd)]
      rw [Json.printFields, scan_close (.inr rfl), Json.depthFields, hzero]
      rfl
  | (k, v) :: fields, d, hd, rest => by
      rw [Json.printFields, scan_mark (by decide), Utf8.encode_append,
        List.append_assoc, scan_string, scan_mark (by decide), Utf8.encode_append,
        List.append_assoc, scan_print v hd, Json.depthFields,
        within_then (scan_printFields fields hd rest)]

end

theorem nesting_iff (v : Json F) :
    rejectExcessiveNesting (bodyOf fmt v) = .ok () ↔ (v.depth : Int) ≤ maximumDepth := by
  have hscan : scan ⟨0, false, false⟩ (Utf8.encode (v.print fmt false) ++ []) =
      within 0 v.depth ⟨0, false, false⟩ >>= fun s => scan s [] :=
    scan_print v (by decide) []
  have hbody : bodyOf fmt v = Utf8.encode (v.print fmt false) := rfl
  rw [List.append_nil] at hscan
  rw [rejectExcessiveNesting, hbody, hscan]
  by_cases hdepth : (v.depth : Int) ≤ maximumDepth
  · have hzero : within 0 v.depth ⟨0, false, false⟩ = .ok ⟨0, false, false⟩ :=
      if_pos (by simpa using hdepth)
    rw [hzero]
    simp [hdepth, bind, Except.bind, scan, Except.map]
  · have hdeep : within 0 v.depth ⟨0, false, false⟩ = .error .valueError :=
      if_neg (by simpa using hdepth)
    rw [hdeep]
    simp [hdepth, bind, Except.bind, Except.map]

end PairCell.Bridge
