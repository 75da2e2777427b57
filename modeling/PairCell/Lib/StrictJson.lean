import PairCell.Lib.JsonText

/-!
# A strict reader

The reader that refuses a key that an object has twice and a number that is not
finite.  On the text of a value it refuses exactly what is wrong with the value.
-/

namespace PairCell.Lib

/-- Why a text is refused. -/
inductive Refusal where
  | syntaxError
  | nonFinite
  | duplicateKey (k : String)
deriving DecidableEq

namespace Json

variable {F : Type}

/-- The first key that is among the ones before it. -/
def repeated (seen : List String) : List String → Option String
  | [] => none
  | k :: ks => if k ∈ seen then some k else repeated (k :: seen) ks

def uniqueObject (fields : List (String × Json F)) : Except Refusal (Json F) :=
  match repeated [] (fields.map Prod.fst) with
  | some k => .error (.duplicateKey k)
  | none => .ok (.obj fields)

def strictScalar (fmt : FloatText F) (s : List Char) :
    Except Refusal (Json F × List Char) :=
  match readScalar fmt s with
  | none => .error .syntaxError
  | some (.float (.finite x), r) => .ok (.float (.finite x), r)
  | some (.float _, _) => .error .nonFinite
  | some (v, r) => .ok (v, r)

def strictField (value : List Char → Except Refusal (Json F × List Char)) :
    List Char → Except Refusal ((String × Json F) × List Char)
  | '"' :: r =>
      match readString r with
      | none => .error .syntaxError
      | some (k, r) =>
          match skip r with
          | ':' :: r => (value (skip r)).map fun p => ((k, p.1), p.2)
          | _ => .error .syntaxError
  | _ => .error .syntaxError

mutual

def strictValue (fmt : FloatText F) : Nat → List Char → Except Refusal (Json F × List Char)
  | 0, _ => .error .syntaxError
  | _ + 1, '"' :: r =>
      match readString r with
      | none => .error .syntaxError
      | some (s, r) => .ok (.str s, r)
  | n + 1, '[' :: r =>
      match skip r with
      | ']' :: r => .ok (.arr [], r)
      | r => do
          let v ← strictValue fmt n r
          let items ← strictItems fmt n v.2
          .ok (.arr (v.1 :: items.1), items.2)
  | n + 1, '\x7b' :: r =>
      match skip r with
      | '\x7d' :: r => .ok (.obj [], r)
      | r => do
          let f ← strictField (strictValue fmt n) r
          let fields ← strictFields fmt n f.2
          (uniqueObject (f.1 :: fields.1)).map fun v => (v, fields.2)
  | _ + 1, s => strictScalar fmt s

def strictItems (fmt : FloatText F) : Nat → List Char →
    Except Refusal (List (Json F) × List Char)
  | 0, _ => .error .syntaxError
  | n + 1, s =>
      match skip s with
      | ']' :: r => .ok ([], r)
      | ',' :: r => do
          let v ← strictValue fmt n (skip r)
          let items ← strictItems fmt n v.2
          .ok (v.1 :: items.1, items.2)
      | _ => .error .syntaxError

def strictFields (fmt : FloatText F) :
    Nat → List Char → Except Refusal (List (String × Json F) × List Char)
  | 0, _ => .error .syntaxError
  | n + 1, s =>
      match skip s with
      | '\x7d' :: r => .ok ([], r)
      | ',' :: r => do
          let f ← strictField (strictValue fmt n) (skip r)
          let fields ← strictFields fmt n f.2
          .ok (f.1 :: fields.1, fields.2)
      | _ => .error .syntaxError

end

mutual

/-- What a strict reader finds wrong with a value, in the order of its text. -/
def verdict : Json F → Except Refusal Unit
  | .float (.finite _) => .ok ()
  | .float _ => .error .nonFinite
  | .arr items => verdictItems items
  | .obj fields => do
      verdictFields fields
      (uniqueObject fields).map fun _ => ()
  | _ => .ok ()

def verdictItems : List (Json F) → Except Refusal Unit
  | [] => .ok ()
  | v :: items => do
      verdict v
      verdictItems items

def verdictFields : List (String × Json F) → Except Refusal Unit
  | [] => .ok ()
  | (_, v) :: fields => do
      verdict v
      verdictFields fields

end

end Json

def strictLoads (fmt : FloatText F) (s : List Char) : Except Refusal (Json F) := do
  let v ← Json.strictValue fmt (s.length + 1) (Json.skip s)
  if Json.skip v.2 = [] then .ok v.1 else .error .syntaxError

namespace Json

variable {F : Type} {fmt : FloatText F} {ascii : Bool}

/-! ## Keys -/

theorem repeated_eq_none (ks : List String) : ∀ seen : List String,
    repeated seen ks = none ↔ ks.Nodup ∧ ∀ k ∈ ks, k ∉ seen := by
  induction ks with
  | nil => simp [repeated]
  | cons k ks ih =>
      intro seen
      rw [repeated]
      split
      · next hmem => simp [hmem]
      · next hmem =>
        rw [ih (k :: seen), List.nodup_cons]
        constructor
        · rintro ⟨hnodup, hnew⟩
          refine ⟨⟨fun hk => hnew k hk List.mem_cons_self, hnodup⟩, ?_⟩
          intro l hl
          obtain rfl | hl := List.mem_cons.1 hl
          · exact hmem
          · exact fun hseen => hnew l hl (List.mem_cons_of_mem _ hseen)
        · rintro ⟨⟨hk, hnodup⟩, hnew⟩
          refine ⟨hnodup, fun l hl hseen => ?_⟩
          obtain rfl | hseen := List.mem_cons.1 hseen
          · exact hk hl
          · exact hnew l (List.mem_cons_of_mem _ hl) hseen

theorem uniqueObject_ok {fields : List (String × Json F)} {v : Json F} :
    uniqueObject fields = .ok v ↔ (fields.map Prod.fst).Nodup ∧ v = .obj fields := by
  unfold uniqueObject
  cases h : repeated [] (fields.map Prod.fst) with
  | some k =>
      have hdup : ¬(fields.map Prod.fst).Nodup := fun hnodup => by
        have hnone :=
          (repeated_eq_none (fields.map Prod.fst) []).2 ⟨hnodup, fun _ _ => by simp⟩
        rw [hnone] at h
        cases h
      simp [hdup]
  | none =>
      have hnodup := ((repeated_eq_none (fields.map Prod.fst) []).1 h).1
      simp [hnodup, eq_comm]

theorem both_ok {x y : Except Refusal Unit} :
    (do x; y) = .ok () ↔ x = .ok () ∧ y = .ok () := by
  cases x <;> simp [bind, Except.bind]

theorem unique_ok {fields : List (String × Json F)} :
    ((uniqueObject fields).map fun _ => ()) = .ok () ↔ (fields.map Prod.fst).Nodup := by
  cases h : uniqueObject fields with
  | error e =>
      have hdup : ¬(fields.map Prod.fst).Nodup := fun hnodup => by
        rw [uniqueObject_ok.2 ⟨hnodup, rfl⟩] at h
        cases h
      simp [Except.map, hdup]
  | ok v => simp [Except.map, (uniqueObject_ok.1 h).1]

mutual

/-- Nothing is wrong with a value of distinct keys and finite numbers. -/
theorem verdict_ok : ∀ v : Json F, verdict v = .ok () ↔ v.Distinct ∧ v.special = false
  | .null => by simp [verdict, Distinct, special]
  | .bool _ => by simp [verdict, Distinct, special]
  | .int _ => by simp [verdict, Distinct, special]
  | .str _ => by simp [verdict, Distinct, special]
  | .float (.finite _) => by simp [verdict, Distinct, special]
  | .float .nan => by simp [verdict, special]
  | .float (.infinity _) => by simp [verdict, special]
  | .arr items => by simpa only [verdict, Distinct, special] using verdictItems_ok items
  | .obj fields => by
      rw [verdict, both_ok, verdictFields_ok fields, unique_ok, Distinct, special]
      tauto

theorem verdictItems_ok : ∀ items : List (Json F),
    verdictItems items = .ok () ↔ DistinctItems items ∧ specialItems items = false
  | [] => by simp [verdictItems, DistinctItems, specialItems]
  | v :: items => by
      rw [verdictItems, both_ok, verdict_ok v, verdictItems_ok items,
        DistinctItems, specialItems, Bool.or_eq_false_iff]
      tauto

theorem verdictFields_ok : ∀ fields : List (String × Json F),
    verdictFields fields = .ok () ↔ DistinctFields fields ∧ specialFields fields = false
  | [] => by simp [verdictFields, DistinctFields, specialFields]
  | (k, v) :: fields => by
      rw [verdictFields, both_ok, verdict_ok v, verdictFields_ok fields,
        DistinctFields, specialFields, Bool.or_eq_false_iff]
      tauto

end

/-! ## The text of a value -/

theorem strictValue_scalar {c : Char} (hquote : c ≠ '"') (harr : c ≠ '[')
    (hobj : c ≠ '\x7b') (n : Nat) (r : List Char) : strictValue fmt (n + 1) (c :: r) =
      strictScalar fmt (c :: r) := by
  rw [strictValue]
  · intro r heq
    exact hquote (List.cons.inj heq).1
  · intro r heq
    exact harr (List.cons.inj heq).1
  · intro r heq
    exact hobj (List.cons.inj heq).1

theorem strictValue_number {s r : List Char} {b : Bool}
    (hs : scanNumber s = some (s, b, [])) (n : Nat) :
    strictValue fmt (n + 1) (s ++ r) = strictScalar fmt (s ++ r) := by
  obtain ⟨c, cs, rfl, hc⟩ := number_head hs
  obtain hdigit | ⟨rfl, -⟩ := hc
  · exact strictValue_scalar (digit_ne hdigit rfl) (digit_ne hdigit rfl)
      (digit_ne hdigit rfl) n _
  · exact strictValue_scalar (by decide) (by decide) (by decide) n _

theorem strictField_print {value : List Char → Except Refusal (Json F × List Char)}
    {v : Json F} {r : List Char} (k : String) :
    strictField value (stringText ascii k ++ ':' :: (v.print fmt ascii ++ r)) =
      (value (v.print fmt ascii ++ r)).map fun p => ((k, p.1), p.2) := by
  have hkey := readString_stringText ascii k (':' :: (v.print fmt ascii ++ r))
  have hvalue := ((begins_print fmt ascii v).append r).skip
  have hcolon : skip (':' :: (v.print fmt ascii ++ r)) = ':' :: (v.print fmt ascii ++ r) :=
    skip_cons (by decide) _
  simp only [stringText, List.cons_append, List.append_assoc, List.nil_append, strictField]
  simp [hkey, hcolon, hvalue]

mutual

/-- The reader gives its verdict on the value of a text. -/
theorem strictValue_print : ∀ (v : Json F) (n : Nat) (r : List Char),
    (v.print fmt ascii).length ≤ n → Stops r →
    strictValue fmt n (v.print fmt ascii ++ r) = (verdict v).map fun _ => (v, r)
  | v, 0, r, hn, _ => by
      obtain ⟨c, cs, h, -⟩ := begins_print fmt ascii v
      simp [h] at hn
  | .null, n + 1, r, _, _ => strictValue_scalar (by decide) (by decide) (by decide) n _
  | .bool true, n + 1, r, _, _ =>
      strictValue_scalar (by decide) (by decide) (by decide) n _
  | .bool false, n + 1, r, _, _ =>
      strictValue_scalar (by decide) (by decide) (by decide) n _
  | .int m, n + 1, r, _, h => by
      have hnumber : readScalar fmt (intText m ++ r) = _ :=
        readScalar_number (scanNumber_int m) h
      rw [print, strictValue_number (scanNumber_int m), strictScalar, hnumber,
        readInt_intText]
      rfl
  | .float (.finite x), n + 1, r, _, h => by
      have hnumber : readScalar fmt (fmt.repr x ++ r) = _ :=
        readScalar_number (fmt.literal x) h
      rw [print, floatText, strictValue_number (fmt.literal x), strictScalar, hnumber,
        fmt.parse_repr]
      rfl
  | .float .nan, n + 1, r, _, _ =>
      strictValue_scalar (by decide) (by decide) (by decide) n _
  | .float (.infinity true), n + 1, r, _, _ =>
      strictValue_scalar (by decide) (by decide) (by decide) n _
  | .float (.infinity false), n + 1, r, _, _ =>
      strictValue_scalar (by decide) (by decide) (by decide) n _
  | .str s, n + 1, r, _, _ => by
      simp [print, stringText, strictValue, readString_stringText, verdict, Except.map]
  | .arr [], n + 1, r, _, _ => by
      simp [print, strictValue, skip_cons (show isSpace ']' = false by decide),
        verdict, verdictItems, Except.map]
  | .arr (v :: items), n + 1, r, hn, _ => by
      simp only [print, List.length_cons, List.length_append] at hn
      have hv := strictValue_print v n (printItems fmt ascii items ++ r) (by omega)
        (stops_printItems items r)
      have hitems := strictItems_print items n r (by omega)
      have hbegins := (begins_print fmt ascii v).append (printItems fmt ascii items ++ r)
      simp only [print, List.cons_append, List.append_assoc, strictValue, hbegins.skip]
      split
      · next heq => exact absurd heq hbegins.not_close
      · rw [hv, verdict, verdictItems]
        cases verdict v with
        | error e => rfl
        | ok _ =>
            simp only [Except.map, bind, Except.bind, hitems]
            cases verdictItems items <;> rfl
  | .obj [], n + 1, r, _, _ => by
      simp [print, strictValue, skip_cons (show isSpace '\x7d' = false by decide), verdict,
        verdictFields, uniqueObject, repeated, Except.map, bind, Except.bind]
  | .obj ((k, v) :: fields), n + 1, r, hn, _ => by
      simp only [print, List.length_cons, List.length_append] at hn
      have hv := strictValue_print v n (printFields fmt ascii fields ++ r) (by omega)
        (stops_printFields fields r)
      have hfields := strictFields_print fields n r (by omega)
      have hquote : ∀ s, skip (stringText ascii k ++ s) = stringText ascii k ++ s :=
        fun s => skip_cons (by decide) _
      simp only [print, List.cons_append, List.append_assoc, strictValue, hquote]
      split
      · next heq => exact absurd (List.cons.inj heq).1 (by decide)
      · rw [strictField_print, hv, verdict, verdictFields]
        cases verdict v with
        | error e => rfl
        | ok _ =>
            simp only [Except.map, bind, Except.bind, hfields]
            cases verdictFields fields with
            | error e => rfl
            | ok _ =>
                simp only
                cases hunique : uniqueObject ((k, v) :: fields) with
                | error e => rfl
                | ok w => rw [(uniqueObject_ok.1 hunique).2]

theorem strictItems_print : ∀ (items : List (Json F)) (n : Nat) (r : List Char),
    (printItems fmt ascii items).length ≤ n →
    strictItems fmt n (printItems fmt ascii items ++ r) = (verdictItems items).map fun _ =>
    (items, r)
  | [], n + 1, r, _ => by
      simp [printItems, strictItems,
        skip_cons (show isSpace ']' = false by decide), verdictItems, Except.map]
  | v :: items, n + 1, r, hn => by
      simp only [printItems, List.length_cons, List.length_append] at hn
      have hv := strictValue_print v n (printItems fmt ascii items ++ r) (by omega)
        (stops_printItems items r)
      have hitems := strictItems_print items n r (by omega)
      have hbegins := (begins_print fmt ascii v).append (printItems fmt ascii items ++ r)
      have hcomma : ∀ s, skip (',' :: s) = ',' :: s := fun s => skip_cons (by decide) s
      simp only [printItems, List.cons_append, List.append_assoc, strictItems,
        hcomma, hbegins.skip]
      rw [hv, verdictItems]
      cases verdict v with
      | error e => rfl
      | ok _ =>
          simp only [Except.map, bind, Except.bind, hitems]
          cases verdictItems items <;> rfl
  | items, 0, r, hn => by cases items <;> simp [printItems] at hn

theorem strictFields_print : ∀ (fields : List (String × Json F)) (n : Nat) (r : List Char),
    (printFields fmt ascii fields).length ≤ n →
    strictFields fmt n (printFields fmt ascii fields ++ r) =
      (verdictFields fields).map fun _ => (fields, r)
  | [], n + 1, r, _ => by
      simp [printFields, strictFields, skip_cons (show isSpace '\x7d' = false by decide),
        verdictFields, Except.map]
  | (k, v) :: fields, n + 1, r, hn => by
      simp only [printFields, List.length_cons, List.length_append] at hn
      have hv := strictValue_print v n (printFields fmt ascii fields ++ r) (by omega)
        (stops_printFields fields r)
      have hfields := strictFields_print fields n r (by omega)
      have hcomma : ∀ s, skip (',' :: s) = ',' :: s := fun s => skip_cons (by decide) s
      have hquote : ∀ s, skip (stringText ascii k ++ s) = stringText ascii k ++ s :=
        fun s => skip_cons (by decide) _
      simp only [printFields, List.cons_append, List.append_assoc, strictFields,
        hcomma, hquote]
      rw [strictField_print, hv, verdictFields]
      cases verdict v with
      | error e => rfl
      | ok _ =>
          simp only [Except.map, bind, Except.bind, hfields]
          cases verdictFields fields <;> rfl
  | fields, 0, r, hn => by
      rcases fields with _ | ⟨⟨k, v⟩, fields⟩ <;> simp [printFields] at hn

end

theorem strictLoads_print (v : Json F) :
    strictLoads fmt (v.print fmt ascii) = (verdict v).map fun _ => v := by
  have hread : strictValue fmt ((v.print fmt ascii).length + 1) (v.print fmt ascii ++ []) =
      (verdict v).map fun _ => (v, []) :=
        strictValue_print v _ [] (Nat.le_succ _) stops_nil
  rw [List.append_nil] at hread
  rw [strictLoads, (begins_print fmt ascii v).skip, hread]
  cases verdict v <;> rfl

/-! ## What is accepted -/

/-- Distinct keys and finite numbers. -/
def Sound (v : Json F) : Prop := v.Distinct ∧ v.special = false

theorem sound_arr {items : List (Json F)} (h : ∀ v ∈ items, Sound v) :
    Sound (.arr items) := by
  refine ⟨(distinctItems_iff items).2 fun v hv => (h v hv).1, ?_⟩
  rw [special, specialItems_eq, List.any_eq_false]
  exact fun v hv => by simp [(h v hv).2]

theorem sound_obj {fields : List (String × Json F)} (hkeys : (fields.map Prod.fst).Nodup)
    (h : ∀ f ∈ fields, Sound f.2) : Sound (.obj fields) := by
  refine ⟨⟨hkeys, (distinctFields_iff fields).2 fun f hf => (h f hf).1⟩, ?_⟩
  rw [special, specialFields_eq, List.any_eq_false]
  exact fun f hf => by simp [(h f hf).2]

/-- A scalar contains no other value. -/
def Scalar : Json F → Prop
  | .arr _ => False
  | .obj _ => False
  | _ => True

theorem readScalar_scalar {s r : List Char} {v : Json F}
    (h : readScalar fmt s = some (v, r)) :
    Scalar v := by
  unfold readScalar at h
  split at h
  case h_7 =>
    split at h
    · obtain ⟨x, -, hx⟩ := Option.map_eq_some_iff.1 h
      cases hx
      trivial
    · cases h
      trivial
    · cases h
  all_goals
    cases h
    trivial

theorem strictScalar_sound {s r : List Char} {v : Json F}
    (h : strictScalar fmt s = .ok (v, r)) :
    Sound v := by
  unfold strictScalar at h
  cases hread : readScalar fmt s with
  | none =>
      rw [hread] at h
      cases h
  | some p =>
      obtain ⟨w, r'⟩ := p
      have hscalar := readScalar_scalar hread
      rw [hread] at h
      rcases w with _ | _ | _ | (_ | _ | _) | _ | _ | _
      case arr => exact hscalar.elim
      case obj => exact hscalar.elim
      all_goals
        cases h
        try exact ⟨trivial, rfl⟩

theorem strictField_sound {value : List Char → Except Refusal (Json F × List Char)}
    (hvalue : ∀ s v r, value s = .ok (v, r) → Sound v) {s r : List Char}
    {f : String × Json F} (h : strictField value s = .ok (f, r)) : Sound f.2 := by
  unfold strictField at h
  split at h
  · split at h
    · cases h
    · split at h
      · next rest _ =>
        cases hv : value (skip rest) with
        | error e =>
            rw [hv] at h
            cases h
        | ok p =>
            rw [hv] at h
            cases h
            exact hvalue _ _ _ hv
      · cases h
  · cases h

theorem read_bind_ok {α β : Type} {x : Except Refusal α}
    {f : α → Except Refusal β} {b : β} :
    (x >>= f) = .ok b ↔ ∃ a, x = .ok a ∧ f a = .ok b := by
  cases x <;> simp [bind, Except.bind]

/-- By induction on the fuel, over the three parts of the reader. -/
theorem strict_sound (fmt : FloatText F) : ∀ n : Nat,
    (∀ s v r, strictValue fmt n s = .ok (v, r) → Sound v) ∧
    (∀ s items r, strictItems fmt n s = .ok (items, r) → ∀ v ∈ items, Sound v) ∧
    (∀ s fields r, strictFields fmt n s = .ok (fields, r) → ∀ f ∈ fields, Sound f.2) := by
  intro n
  induction n with
  | zero =>
      refine ⟨?_, ?_, ?_⟩
      · intro s v r h
        cases h
      · intro s items r h
        cases h
      · intro s fields r h
        cases h
  | succ n ih =>
      obtain ⟨hvalue, hitems, hfields⟩ := ih
      refine ⟨?_, ?_, ?_⟩
      · intro s v r h
        rw [strictValue.eq_def] at h
        split at h
        · cases h
        · split at h
          · cases h
          · cases h
            exact ⟨trivial, rfl⟩
        · next hn =>
          cases hn
          split at h
          · cases h
            exact sound_arr (by simp)
          · obtain ⟨w, hw, h⟩ := read_bind_ok.1 h
            obtain ⟨items, hrest, h⟩ := read_bind_ok.1 h
            cases h
            refine sound_arr (List.forall_mem_cons.2 ⟨hvalue _ _ _ hw, hitems _ _ _ hrest⟩)
        · next hn =>
          cases hn
          split at h
          · cases h
            exact sound_obj (by simp) (by simp)
          · obtain ⟨f, hf, h⟩ := read_bind_ok.1 h
            obtain ⟨fields, hrest, h⟩ := read_bind_ok.1 h
            cases hunique : uniqueObject (f.1 :: fields.1) with
            | error e =>
                rw [hunique] at h
                cases h
            | ok w =>
                rw [hunique] at h
                cases h
                obtain ⟨hkeys, rfl⟩ := uniqueObject_ok.1 hunique
                exact sound_obj hkeys (List.forall_mem_cons.2
                  ⟨strictField_sound hvalue hf, hfields _ _ _ hrest⟩)
        · exact strictScalar_sound h
      · intro s items r h
        rw [strictItems] at h
        split at h
        · cases h
          exact fun v hv => by cases hv
        · obtain ⟨w, hw, h⟩ := read_bind_ok.1 h
          obtain ⟨items, hrest, h⟩ := read_bind_ok.1 h
          cases h
          exact List.forall_mem_cons.2 ⟨hvalue _ _ _ hw, hitems _ _ _ hrest⟩
        · cases h
      · intro s fields r h
        rw [strictFields] at h
        split at h
        · cases h
          exact fun f hf => by cases hf
        · obtain ⟨f, hf, h⟩ := read_bind_ok.1 h
          obtain ⟨fields, hrest, h⟩ := read_bind_ok.1 h
          cases h
          exact List.forall_mem_cons.2 ⟨strictField_sound hvalue hf, hfields _ _ _ hrest⟩
        · cases h

theorem strictLoads_sound {s : List Char} {v : Json F}
    (h : strictLoads fmt s = .ok v) : Sound v := by
  unfold strictLoads at h
  cases hread : strictValue fmt (s.length + 1) (skip s) with
  | error e =>
      rw [hread] at h
      cases h
  | ok p =>
      rw [hread] at h
      simp only [bind, Except.bind] at h
      split at h
      · cases h
        exact (strict_sound fmt _).1 _ _ _ hread
      · cases h

/-! ## Any spelling -/

/-- The strict reader gives its verdict on what the plain one reads. -/
def Agrees {α : Type} (check : α → Except Refusal Unit)
    (strict : Except Refusal (α × List Char)) :
    Option (α × List Char) → Prop
  | some p => strict = (check p.1).map fun _ => p
  | none => ∃ e, strict = .error e

theorem scalar_agrees (fmt : FloatText F) (s : List Char) :
    Agrees verdict (strictScalar fmt s) (readScalar fmt s) := by
  cases hread : readScalar fmt s with
  | none => exact ⟨.syntaxError, by rw [strictScalar, hread]⟩
  | some p =>
      obtain ⟨v, r⟩ := p
      have hscalar := readScalar_scalar hread
      rcases v with _ | _ | _ | (_ | _ | _) | _ | _ | _
      case arr => exact hscalar.elim
      case obj => exact hscalar.elim
      all_goals
        rw [Agrees, strictScalar, hread]
        rfl

section Equations

variable {fmt : FloatText F} {hook : List (String × Json F) → Json F} {n : Nat}
  {s r : List Char}

theorem readField_colon {value : List Char → Option (Json F × List Char)} {k : String}
    {t : List Char} (hkey : readString s = some (k, r)) (hcolon : skip r = ':' :: t) :
    readField value ('"' :: s) = (value (skip t)).map fun p => ((k, p.1), p.2) := by
  rw [readField, hkey]
  simp only [Option.bind_eq_bind, Option.bind_some, hcolon]
  cases value (skip t) <;> rfl

theorem readField_none {value : List Char → Option (Json F × List Char)} {k : String}
    (hkey : readString s = some (k, r)) (hcolon : ∀ t, skip r = ':' :: t → False) :
    readField value ('"' :: s) = none := by
  rw [readField, hkey]
  simp only [Option.bind_eq_bind, Option.bind_some]

theorem parseValue_no_items (h : skip s = ']' :: r) :
    parseValue fmt hook (n + 1) ('[' :: s) = some (.arr [], r) := by
  rw [parseValue, h]
  rfl

theorem parseValue_items (h : ∀ r, skip s = ']' :: r → False) :
    parseValue fmt hook (n + 1) ('[' :: s) = (do
      let (v, r) ← parseValue fmt hook n (skip s)
      let (items, r) ← parseItems fmt hook n r
      some (.arr (v :: items), r)) := by
  rw [parseValue]
  split
  · next heq => exact (h _ heq).elim
  · rfl

theorem parseValue_no_fields (h : skip s = '\x7d' :: r) :
    parseValue fmt hook (n + 1) ('\x7b' :: s) = some (hook [], r) := by
  rw [parseValue, h]
  rfl

theorem parseValue_fields (h : ∀ r, skip s = '\x7d' :: r → False) :
    parseValue fmt hook (n + 1) ('\x7b' :: s) = (do
      let (f, r) ← readField (parseValue fmt hook n) (skip s)
      let (fields, r) ← parseFields fmt hook n r
      some (hook (f :: fields), r)) := by
  rw [parseValue]
  split
  · next heq => exact (h _ heq).elim
  · rfl

theorem parseItems_close (h : skip s = ']' :: r) :
    parseItems fmt hook (n + 1) s = some ([], r) := by
  rw [parseItems, h]
  rfl

theorem parseItems_comma (h : skip s = ',' :: r) :
    parseItems fmt hook (n + 1) s = (do
      let (v, r) ← parseValue fmt hook n (skip r)
      let (items, r) ← parseItems fmt hook n r
      some (v :: items, r)) := by
  rw [parseItems, h]
  rfl

theorem parseItems_none (hclose : ∀ r, skip s = ']' :: r → False)
    (hcomma : ∀ r, skip s = ',' :: r → False) : parseItems fmt hook (n + 1) s = none := by
  rw [parseItems]
  split
  · next heq => exact (hclose _ heq).elim
  · next heq => exact (hcomma _ heq).elim
  · rfl

theorem parseFields_close (h : skip s = '\x7d' :: r) :
    parseFields fmt hook (n + 1) s = some ([], r) := by
  rw [parseFields, h]
  rfl

theorem parseFields_comma (h : skip s = ',' :: r) :
    parseFields fmt hook (n + 1) s = (do
      let (f, r) ← readField (parseValue fmt hook n) (skip r)
      let (fields, r) ← parseFields fmt hook n r
      some (f :: fields, r)) := by
  rw [parseFields, h]
  rfl

theorem parseFields_none (hclose : ∀ r, skip s = '\x7d' :: r → False)
    (hcomma : ∀ r, skip s = ',' :: r → False) : parseFields fmt hook (n + 1) s = none := by
  rw [parseFields]
  split
  · next heq => exact (hclose _ heq).elim
  · next heq => exact (hcomma _ heq).elim
  · rfl

end Equations

theorem field_agrees {strict : List Char → Except Refusal (Json F × List Char)}
    {value : List Char → Option (Json F × List Char)}
    (hvalue : ∀ s, Agrees verdict (strict s) (value s)) (s : List Char) :
    Agrees (fun f => verdict f.2) (strictField strict s) (readField value s) := by
  unfold strictField
  split
  · next r =>
      cases hkey : readString r with
      | none =>
          rw [readField, hkey]
          exact ⟨.syntaxError, rfl⟩
      | some p =>
          obtain ⟨k, r⟩ := p
          dsimp only
          split
          · next r hcolon =>
              rw [readField_colon hkey hcolon]
              have hv := hvalue (skip r)
              cases hread : value (skip r) with
              | none =>
                  rw [hread] at hv
                  obtain ⟨e, he⟩ := hv
                  exact ⟨e, by rw [he]; rfl⟩
              | some p =>
                  rw [hread] at hv
                  show _ = (verdict p.1).map _
                  rw [show strict (skip r) = (verdict p.1).map fun _ => p from hv]
                  cases verdict p.1 <;> rfl
          · next hcolon =>
              rw [readField_none hkey hcolon]
              exact ⟨.syntaxError, rfl⟩
  · next hquote =>
      unfold readField
      split
      · next r => exact (hquote r rfl).elim
      · exact ⟨.syntaxError, rfl⟩

/-- One part and the rest of a list. -/
theorem Agrees.both {α β γ : Type} {first : α → Except Refusal Unit}
    {rest : β → Except Refusal Unit} {check : γ → Except Refusal Unit} (c : α → β → γ)
    {x : Except Refusal (α × List Char)} {x' : Option (α × List Char)}
    {y : List Char → Except Refusal (β × List Char)}
    {y' : List Char → Option (β × List Char)}
    (hc : ∀ u w, check (c u w) = do first u; rest w) (hx : Agrees first x x')
    (hy : ∀ r, Agrees rest (y r) (y' r)) :
    Agrees check (do let v ← x; let w ← y v.2; .ok (c v.1 w.1, w.2))
      (do let (v, r) ← x'; let (w, r) ← y' r; some (c v w, r)) := by
  cases x' with
  | none =>
      obtain ⟨e, he⟩ := hx
      exact ⟨e, by rw [he]; rfl⟩
  | some p =>
      obtain ⟨v, r⟩ := p
      rw [show x = (first v).map fun _ => (v, r) from hx]
      have hrest := hy r
      cases hread : y' r with
      | none =>
          rw [hread] at hrest
          obtain ⟨e, he⟩ := hrest
          simp only [Option.bind_eq_bind, Option.bind_some, hread, Option.bind_none]
          cases hfirst : first v with
          | error e => exact ⟨e, rfl⟩
          | ok _ => exact ⟨e, by simp [Except.map, bind, Except.bind, he]⟩
      | some q =>
          obtain ⟨w, r'⟩ := q
          rw [hread] at hrest
          simp only [Option.bind_eq_bind, Option.bind_some, hread]
          show _ = (check (c v w)).map _
          rw [hc]
          cases hfirst : first v with
          | error e => rfl
          | ok _ =>
              simp only [Except.map, bind, Except.bind]
              rw [show y r = (rest w).map fun _ => (w, r') from hrest]
              cases rest w <;> rfl

/-- The pairs of an object, and then its keys. -/
theorem object_agrees {x : Except Refusal (List (String × Json F) × List Char)}
    {x' : Option (List (String × Json F) × List Char)} (h : Agrees verdictFields x x') :
    Agrees verdict (do let p ← x; (uniqueObject p.1).map fun v => (v, p.2))
      (x'.map fun p => (.obj p.1, p.2)) := by
  cases x' with
  | none =>
      obtain ⟨e, he⟩ := h
      exact ⟨e, by rw [he]; rfl⟩
  | some p =>
      rw [show x = (verdictFields p.1).map fun _ => p from h]
      show _ = (verdict (.obj p.1)).map _
      rw [verdict]
      cases verdictFields p.1 with
      | error e => rfl
      | ok _ =>
          simp only [Except.map, bind, Except.bind]
          cases hunique : uniqueObject p.1 with
          | error e => rfl
          | ok v =>
              obtain ⟨-, rfl⟩ := uniqueObject_ok.1 hunique
              rfl

/-- By induction on the fuel, over the three parts of the reader. -/
theorem strict_agrees (fmt : FloatText F) : ∀ n : Nat,
    (∀ s, Agrees verdict (strictValue fmt n s) (parseValue fmt .obj n s)) ∧
    (∀ s, Agrees verdictItems (strictItems fmt n s) (parseItems fmt .obj n s)) ∧
    (∀ s, Agrees verdictFields (strictFields fmt n s) (parseFields fmt .obj n s)) := by
  intro n
  induction n with
  | zero => exact ⟨fun s => ⟨_, rfl⟩, fun s => ⟨_, rfl⟩, fun s => ⟨_, rfl⟩⟩
  | succ n ih =>
      obtain ⟨hvalue, hitems, hfields⟩ := ih
      refine ⟨fun s => ?_, fun s => ?_, fun s => ?_⟩
      · rw [strictValue.eq_def]
        split
        · next hn => cases hn
        · next r _ =>
            rw [parseValue]
            cases hread : readString r with
            | none => exact ⟨.syntaxError, rfl⟩
            | some p => rfl
        · next r hn =>
            cases hn
            split
            · next hskip =>
                rw [parseValue_no_items hskip]
                rfl
            · next hclose =>
                rw [parseValue_items hclose]
                exact .both (fun v items => arr (v :: items)) (fun _ _ => rfl)
                  (hvalue _) hitems
        · next r hn =>
            cases hn
            split
            · next hskip =>
                rw [parseValue_no_fields hskip]
                rfl
            · next hclose =>
                rw [parseValue_fields hclose]
                have hpairs : Agrees verdictFields _ _ :=
                  .both List.cons (fun _ _ => rfl) (field_agrees hvalue (skip r)) hfields
                refine cast (congrArg₂ (Agrees verdict) ?_ ?_) (object_agrees hpairs)
                · cases strictField (strictValue fmt n) (skip r) with
                  | error e => rfl
                  | ok f =>
                      simp only [bind, Except.bind]
                      cases strictFields fmt n f.2 <;> rfl
                · cases readField (parseValue fmt obj n) (skip r) with
                  | none => rfl
                  | some f =>
                      simp only [Option.bind_eq_bind, Option.bind_some]
                      cases parseFields fmt obj n f.2 <;> rfl
        · next hn hquote harr hobj =>
            cases hn
            rw [parseValue]
            · exact scalar_agrees fmt _
            · exact hquote
            · exact harr
            · exact hobj
      · rw [strictItems]
        split
        · next hskip =>
            rw [parseItems_close hskip]
            rfl
        · next hskip =>
            rw [parseItems_comma hskip]
            exact .both List.cons (fun _ _ => rfl) (hvalue _) hitems
        · next hclose hcomma =>
            rw [parseItems_none hclose hcomma]
            exact ⟨.syntaxError, rfl⟩
      · rw [strictFields]
        split
        · next hskip =>
            rw [parseFields_close hskip]
            rfl
        · next hskip =>
            rw [parseFields_comma hskip]
            exact .both List.cons (fun _ _ => rfl) (field_agrees hvalue _) hfields
        · next hclose hcomma =>
            rw [parseFields_none hclose hcomma]
            exact ⟨.syntaxError, rfl⟩

end Json

/-- On a text with a value, in any spelling, the strict reader gives its
verdict on the value. -/
theorem strictLoads_of_value {fmt : FloatText F} {s : List Char} {v : Json F}
    (h : loadsWith fmt .obj s = some v) :
    strictLoads fmt s = v.verdict.map fun _ => v := by
  have hagrees := (Json.strict_agrees fmt (s.length + 1)).1 (Json.skip s)
  unfold loadsWith at h
  split at h
  · next w r hread =>
      rw [hread] at hagrees
      split at h
      · next hrest =>
          cases h
          rw [strictLoads, show Json.strictValue fmt _ _ = _ from hagrees]
          cases v.verdict with
          | error e => rfl
          | ok _ => simp [Except.map, bind, Except.bind, hrest]
      · cases h
  · cases h

end PairCell.Lib
