import Mathlib.Data.Bool.AllAny
import PairCell.Events
import PairCell.Lib.Timestamp

/-!
# Following the cursor

A cursor is read back as the time and the number it was made of, so following it
is a sweep of the table by decreasing keys.
-/

namespace PairCell.Events

open Lib

variable {τ F : Type}

/-! ## Cursors -/

theorem cursorFields_distinct (db : Database τ F) (resource : String) (timestamp : τ)
    (identifier : Identifier) :
    (Json.obj (cursorFields db resource timestamp identifier)).Distinct := by
  have hid : (identifier.toJson : Json F).Distinct := by
    cases identifier <;> trivial
  simp [cursorFields, Json.Distinct, Json.DistinctFields, hid]

theorem identifier?_toJson (identifier : Identifier) :
    identifier? (identifier.toJson : Json F) = some identifier := by
  cases identifier <;> rfl

theorem alphabet_ascii : ∀ c ∈ Base64.alphabet, c.toNat < 128 :=
  List.all_iff_forall_prop.1 (by decide +kernel)

theorem strip_encode_ascii (b : Bytes) :
    ∀ c ∈ Base64.strip (Base64.encode b), c.toNat < 128 :=
  fun c hc => alphabet_ascii c ((Base64.strip_encode b).2 c hc)

theorem readPageCursor_encode (db : Database τ F) (resource : String) (timestamp : τ)
    (identifier : Identifier) :
    readPageCursor db resource (encodePageCursor db resource timestamp identifier) =
      some ⟨timestamp, identifier⟩ := by
  have hascii : (encodePageCursor db resource timestamp identifier).toList.any
      (fun c => decide (128 ≤ c.toNat)) = false := by
    rw [encodePageCursor, String.toList_ofList, List.any_eq_false]
    intro c hc
    have hlt := strip_encode_ascii _ c hc
    simpa using hlt
  have hloads : loads db.floats (dumps db.floats ⟨true, false⟩
      (.obj (cursorFields db resource timestamp identifier))) =
      some (.obj (cursorFields db resource timestamp identifier)) :=
    loads_dumps ⟨true, false⟩ (cursorFields_distinct db resource timestamp identifier)
  rw [readPageCursor, hascii]
  simp only [Bool.false_eq_true, if_false, encodePageCursor, String.toList_ofList,
    (Base64.strip_encode _).1, Base64.decode?_encode, Utf8.decode?_encode, hloads,
    Option.bind_eq_bind, Option.bind_some]
  simp [cursorFields, Json.field?, db.fromisoformat_isoformat, identifier?_toJson]

theorem decodePageCursor_encode (db : Database τ F) (resource : String) (timestamp : τ)
    (identifier : Identifier) :
    decodePageCursor db (some (encodePageCursor db resource timestamp identifier))
      resource =
      .ok (some ⟨timestamp, identifier⟩) := by
  simp only [decodePageCursor, readPageCursor_encode]

/-! ## Arrivals -/

namespace EventTable

theorem rows_arrive (t : EventTable τ F) (a : Arrival τ F) :
    ∀ e ∈ t.rows, e ∈ (t.arrive a).rows := by
  intro e he
  cases a with
  | event eventType payload now => exact List.mem_append_left _ he
  | rolledBack => exact he

theorem rows_arriveAll (arrivals : List (Arrival τ F)) :
    ∀ (t : EventTable τ F), ∀ e ∈ t.rows, e ∈ (t.arriveAll arrivals).rows := by
  induction arrivals with
  | nil => exact fun _ _ he => he
  | cons a arrivals ih => exact fun t e he => ih (t.arrive a) e (t.rows_arrive a e he)

/-- The tables at the later requests. -/
def tables (t : EventTable τ F) : List (List (Arrival τ F)) → List (EventTable τ F)
  | [] => []
  | arrivals :: later => t.arriveAll arrivals :: tables (t.arriveAll arrivals) later

/-- The table at the last request. -/
def last (t : EventTable τ F) (later : List (List (Arrival τ F))) : EventTable τ F :=
  later.foldl arriveAll t

end EventTable

/-! ## One page -/

variable [LinearOrder τ]

/-- The rows of a filter. -/
def matching (db : Database τ F) (f : Filter) (t : EventTable τ F) : List (Event τ F) :=
  t.rows.filter (f.selects db)

def cursorOf (db : Database τ F) (k : τ ×ₗ Int) : String :=
  encodePageCursor db "events" (ofLex k).1 (.number (ofLex k).2)

theorem before_iff (timestamp : τ) (id : Int) (e : Event τ F) :
    before timestamp id e = decide (e.key < toLex (timestamp, id)) := by
  rw [before, decide_eq_decide, Event.key, Prod.Lex.toLex_lt_toLex]

omit [LinearOrder τ] in
theorem matching_keys (db : Database τ F) (f : Filter) (t : EventTable τ F) :
    ((matching db f t).map Event.key).Nodup := by
  have hids : ((matching db f t).map Event.eventId).Nodup :=
    t.distinct.sublist (List.filter_sublist.map _)
  have hsnd : (matching db f t).map Event.eventId =
      ((matching db f t).map Event.key).map fun k => (ofLex k).2 := by
    rw [List.map_map]
    rfl
  rw [hsnd] at hids
  exact hids.of_map _

/-- A page from a cursor is the page of the keys below. -/
theorem eventPage_cursor (db : Database τ F) (t : EventTable τ F) (limit : Nat)
    (bound : Option (τ ×ₗ Int)) (f : Filter) :
    eventPage db t limit (bound.map (cursorOf db)) none f =
      .ok ⟨(Keyset.page Event.key limit bound (matching db f t)).1,
        (Keyset.page Event.key limit bound (matching db f t)).2.map (cursorOf db),
        (matching db f t).length⟩ := by
  obtain ⟨clause, hvalues, hclause⟩ : ∃ clause : Event τ F → Bool,
      (decodePageCursor db (bound.map (cursorOf db)) "events" >>= cursorClause db) =
        .ok clause ∧
        clause = Keyset.below Event.key bound := by
    cases bound with
    | none => exact ⟨_, rfl, rfl⟩
    | some k =>
        refine ⟨before (ofLex k).1 (ofLex k).2, ?_, ?_⟩
        · simp only [Option.map_some, cursorOf, decodePageCursor_encode]
          rfl
        · funext e
          rw [before_iff]
          rfl
  subst hclause
  generalize hrows : Keyset.descending Event.key
    ((matching db f t).filter (Keyset.below Event.key bound)) = rows
  have hpage : Keyset.page Event.key limit bound (matching db f t) =
      (rows.take limit, if limit < rows.length then
        (rows.take limit).getLast?.map Event.key else none) := by
    rw [← hrows]
    rfl
  have hmore : decide (limit < (rows.take (limit + 1)).length) =
      decide (limit < rows.length) := by
    rw [decide_eq_decide, List.length_take]
    omega
  have heventPage : eventPage db t limit (bound.map (cursorOf db)) none f =
      (decodePageCursor db (bound.map (cursorOf db)) "events" >>= cursorClause db).map
        fun clause =>
        let fetched :=
          ((Keyset.descending Event.key ((matching db f t).filter clause)).drop 0).take
          (limit + 1)
        pageOf db (fetched.take limit) (decide (limit < fetched.length))
          (matching db f t).length := by
    have hfree : ((bound.map (cursorOf db)).isSome && (none : Option Nat).isSome) =
        false := by simp
    rw [eventPage, hfree]
    simp only [Bool.false_eq_true, if_false]
    cases decodePageCursor db (bound.map (cursorOf db)) "events" with
    | error e => rfl
    | ok values =>
        simp only [bind, Except.bind]
        cases cursorClause db values <;> rfl
  rw [heventPage, hvalues, hpage]
  simp only [Except.map, List.drop_zero, hrows, hmore, List.take_take,
    Nat.le_succ, min_eq_left, pageOf, Except.ok.injEq, Page.mk.injEq, true_and, and_true]
  by_cases hlong : limit < rows.length
  · simp [hlong, Function.comp_def, cursorOf, Event.key]
  · simp [hlong]

/-! ## Request after request -/

theorem walk_sweep (db : Database τ F) (limit : Nat) (f : Filter)
    (later : List (List (Arrival τ F))) :
    ∀ (t : EventTable τ F) (bound : Option (τ ×ₗ Int)),
      walk db limit f t (bound.map (cursorOf db)) later =
        let swept := Keyset.sweep Event.key limit bound (matching db f t)
          ((t.tables later).map (matching db f))
        .ok (swept.1, swept.2.map (cursorOf db)) := by
  induction later with
  | nil =>
      intro t bound
      rw [walk, eventPage_cursor]
      rfl
  | cons arrivals later ih =>
      intro t bound
      rw [walk, eventPage_cursor]
      simp only [EventTable.tables, List.map_cons, Keyset.sweep, bind, Except.bind]
      cases hnext : (Keyset.page Event.key limit bound (matching db f t)).2 with
      | none => rfl
      | some k =>
          have hrest := ih (t.arriveAll arrivals) (some k)
          rw [Option.map_some] at hrest
          simp only [Option.map_some, hrest]
          rfl

omit [LinearOrder τ] in
theorem tables_growing (db : Database τ F) (f : Filter)
    (later : List (List (Arrival τ F))) :
    ∀ t : EventTable τ F, Keyset.Growing (matching db f t)
      ((t.tables later).map (matching db f)) ∧
      Keyset.final (matching db f t) ((t.tables later).map (matching db f)) =
        matching db f (t.last later) := by
  induction later with
  | nil => exact fun _ => ⟨trivial, rfl⟩
  | cons arrivals later ih =>
      intro t
      obtain ⟨hgrow, hfinal⟩ := ih (t.arriveAll arrivals)
      refine ⟨⟨fun e he => ?_, hgrow⟩, hfinal⟩
      obtain ⟨hrow, hselects⟩ := List.mem_filter.1 he
      exact List.mem_filter.2 ⟨t.rows_arriveAll arrivals e hrow, hselects⟩

omit [LinearOrder τ] in
theorem tables_keys (db : Database τ F) (f : Filter) (t : EventTable τ F)
    (later : List (List (Arrival τ F))) :
    ∀ l ∈ matching db f t :: (t.tables later).map (matching db f),
      (l.map Event.key).Nodup := by
  intro l hl
  obtain rfl | hl := List.mem_cons.1 hl
  · exact matching_keys db f t
  · obtain ⟨t', -, rfl⟩ := List.mem_map.1 hl
    exact matching_keys db f t'

/-! ## Pages by number -/

theorem eventPage_number (db : Database τ F) (t : EventTable τ F) (limit page : Nat)
    (f : Filter) :
    ∃ p, eventPage db t limit none (some (page + 1)) f = .ok p ∧
      p.items =
      ((Keyset.descending Event.key (matching db f t)).drop (page * limit)).take limit ∧
      p.totalItems = (matching db f t).length := by
  refine ⟨_, rfl, ?_, rfl⟩
  simp only [pageOf, Option.isSome_some, if_true, List.take_take, min_self]
  rw [List.filter_eq_self.2 fun _ _ => rfl]
  rfl

/-- Two decreasing lists of the same rows are the same list. -/
theorem strict_unique {l m : List (Event τ F)} (hl : Keyset.Strict Event.key l)
    (hm : Keyset.Strict Event.key m) (h : ∀ e, e ∈ l ↔ e ∈ m) : l = m := by
  have hperm : l.Perm m := (List.perm_ext_iff_of_nodup hl.nodup hm.nodup).2 h
  exact hperm.eq_of_pairwise (fun a b _ _ hab hba => absurd hab hba.asymm) hl hm

omit [LinearOrder τ] in
theorem ids_nodup {t : EventTable τ F} {items : List (Event τ F)} (hnodup : items.Nodup)
    (h : ∀ e ∈ items, e ∈ t.rows) : (items.map Event.eventId).Nodup :=
  hnodup.map_on fun e he e' he' hid =>
    List.inj_on_of_nodup_map t.distinct (h e he) (h e' he') hid

omit [LinearOrder τ] in
theorem length_tables (later : List (List (Arrival τ F))) :
    ∀ t : EventTable τ F, (t.tables later).length = later.length := by
  induction later with
  | nil => exact fun _ => rfl
  | cons arrivals later ih => exact fun t => congrArg (· + 1) (ih (t.arriveAll arrivals))

omit [LinearOrder τ] in
theorem tables_replicate (t : EventTable τ F) (n : Nat) :
    t.last (List.replicate n []) = t := by
  induction n with
  | zero => rfl
  | succ n ih =>
      rw [List.replicate_succ, EventTable.last, List.foldl_cons]
      exact ih

/-- Following the cursor to its end gives every row of the start once, in order, whatever
arrives in between; it ends; the cursor is read back; and the numbered pages are slices of
the same list. -/
theorem event_pagination_complete (db : Database τ F) (t : EventTable τ F) (limit : Nat)
    (hlimit : 1 ≤ limit) (f : Filter) :
    (∀ later, ∃ items next, walk db limit f t none later = .ok (items, next) ∧
      (items.Pairwise fun e e' => e'.key < e.key) ∧
      (∀ e ∈ items, e ∈ (t.last later).rows ∧ f.selects db e = true) ∧
      (next = none → ∀ e ∈ t.rows, f.selects db e = true →
        e ∈ items ∧ (items.map Event.eventId).count e.eventId = 1) ∧
      ((t.last later).rows.length ≤ later.length → next = none)) ∧
    (∀ resource timestamp identifier,
      decodePageCursor db (some (encodePageCursor db resource timestamp identifier))
        resource =
        .ok (some ⟨timestamp, identifier⟩)) ∧
    (∀ n items, walk db limit f t none (List.replicate n []) = .ok (items, none) →
      ∀ page, ∃ p, eventPage db t limit none (some (page + 1)) f = .ok p ∧
        p.items = (items.drop (page * limit)).take limit) := by
  have hwalk : ∀ later, ∃ items next, walk db limit f t none later =
      .ok (items, next.map (cursorOf db)) ∧
      Keyset.Swept Event.key limit none (matching db f t)
        ((t.tables later).map (matching db f)) items next := fun later =>
    ⟨_, _, walk_sweep db limit f later t none,
      Keyset.sweep_swept hlimit (tables_growing db f later t).1 (tables_keys db f t later)⟩
  have hrows : ∀ {later items next}, Keyset.Swept Event.key limit none (matching db f t)
      ((t.tables later).map (matching db f)) items next →
      ∀ e ∈ items, e ∈ (t.last later).rows ∧ f.selects db e = true := by
    intro later items next hswept e he
    have hfinal := hswept.present e he
    rw [(tables_growing db f later t).2] at hfinal
    exact List.mem_filter.1 hfinal
  refine ⟨fun later => ?_, decodePageCursor_encode db, fun n items hend page => ?_⟩
  · obtain ⟨items, next, hok, hswept⟩ := hwalk later
    refine ⟨items, next.map (cursorOf db), hok, hswept.strict, hrows hswept, ?_, ?_⟩
    · intro hnone e he hselects
      have hin : e ∈ items := hswept.complete (Option.map_eq_none_iff.1 hnone) e
        (List.mem_filter.2 ⟨he, hselects⟩) rfl
      have hids := ids_nodup hswept.strict.nodup fun e he => (hrows hswept e he).1
      exact ⟨hin, List.count_eq_one_of_mem hids (List.mem_map_of_mem hin)⟩
    · intro hmany
      have hfew : (matching db f (t.last later)).length ≤ (t.last later).rows.length :=
        List.length_filter_le _ _
      have hend : next = none := hswept.ends hlimit (by
        rw [(tables_growing db f later t).2, List.length_map, length_tables]
        omega)
      rw [hend, Option.map_none]
  · obtain ⟨items', next, hok, hswept⟩ := hwalk (List.replicate n [])
    rw [hok] at hend
    cases next with
    | some k => cases hend
    | none =>
        cases hend
        obtain ⟨p, hpage, hitems, -⟩ := eventPage_number db t limit page f
        refine ⟨p, hpage, ?_⟩
        rw [hitems]
        congr 2
        refine (strict_unique hswept.strict
          (Keyset.descending_strict (matching_keys db f t)) ?_).symm
        intro e
        rw [Keyset.mem_descending]
        constructor
        · intro he
          obtain ⟨hrow, hselects⟩ := hrows hswept e he
          rw [tables_replicate] at hrow
          exact List.mem_filter.2 ⟨hrow, hselects⟩
        · exact fun he => hswept.complete rfl e he rfl

namespace Sample

/-- A time in microseconds of months of 32 days, to compare times. -/
def ticks (t : Timestamp) : Nat :=
  (((((t.clock.year * 13 + t.clock.month) * 32 + t.clock.day) * 24 + t.clock.hour) * 60 +
    t.clock.minute) * 60 + t.clock.second) * 1000000 + t.clock.micro

theorem day_le (year month : Nat) : daysIn year month ≤ 31 := by
  unfold daysIn
  split
  · split <;> omega
  · split <;> omega

theorem ticks_injective : Function.Injective ticks := by
  intro t t' heq
  obtain ⟨-, -, -, hmonth, -, hday, hhour, hminute, hsecond, hmicro⟩ := t.valid
  obtain ⟨-, -, -, hmonth', -, hday', hhour', hminute', hsecond', hmicro'⟩ := t'.valid
  have hd := hday.trans (day_le _ _)
  have hd' := hday'.trans (day_le _ _)
  suffices hclock : t.clock = t'.clock by
    cases t
    cases t'
    simp only at hclock
    subst hclock
    rfl
  unfold ticks at heq
  generalize t.clock = c at *
  generalize t'.clock = c' at *
  cases c
  cases c'
  simp only at *
  rw [Clock.mk.injEq]
  omega

instance : LinearOrder Timestamp := LinearOrder.lift' ticks ticks_injective

/-- A database in the time zone UTC. -/
def database : Database Timestamp Empty where
  floats := .empty
  isoformat t := String.ofList t.isoformat
  fromisoformat s := Timestamp.read? s.toList
  fromisoformat_isoformat t := by rw [String.toList_ofList, Timestamp.read?_isoformat]
  like _ _ := true
  bigint := String.toInt?

def noon : Timestamp := ⟨⟨2026, 3, 1, 12, 0, 0, 0⟩, by decide⟩

def earlier : Timestamp := ⟨⟨2026, 3, 1, 11, 59, 59, 999999⟩, by decide⟩

def table : EventTable Timestamp Empty :=
  (⟨[], 1, by simp, by simp⟩ : EventTable Timestamp Empty).arriveAll
    [.event "worker_paired" .null noon, .rolledBack, .event "worker_paired" .null noon,
      .event "worker_unpaired" .null earlier]

/-- Three events, two of one time, and two that arrive with times that are no later. -/
theorem table_followed : ∃ items,
    walk database 1 ⟨none, none⟩ table none
      [[.event "worker_paired" .null noon],
        [.event "worker_paired" .null earlier], [], [], []] =
      .ok (items, none) ∧ ∀ e ∈ table.rows, e ∈ items := by
  obtain ⟨items, next, hok, -, -, hcomplete, hend⟩ :=
    (event_pagination_complete database table 1 (by decide) ⟨none, none⟩).1
      [[.event "worker_paired" .null noon],
        [.event "worker_paired" .null earlier], [], [], []]
  obtain rfl := hend (by decide)
  exact ⟨items, hok, fun e he => (hcomplete rfl e he rfl).1⟩

end Sample

end PairCell.Events
