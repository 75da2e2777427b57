import Mathlib.Data.List.Nodup

/-!
# Keyed tables

A table is a list of rows with distinct keys.  `set` is an upsert and `get` a
lookup; the other modules read a table through `get` and the equations below.
-/

namespace PairCell.Lib

/-- Rows keyed by `K`, at most one for each key. -/
structure Table (K V : Type) where
  rows : List (K × V)
  distinct : (rows.map Prod.fst).Nodup

namespace Table

variable {K V : Type} [DecidableEq K]

def empty : Table K V := ⟨[], List.nodup_nil⟩

instance : Inhabited (Table K V) := ⟨empty⟩

def get (t : Table K V) (k : K) : Option V :=
  (t.rows.find? fun r => decide (r.1 = k)).map Prod.snd

private theorem distinct_set (rows : List (K × V)) (h : (rows.map Prod.fst).Nodup)
    (k : K) (v : V) :
    (((k, v) :: rows.filter fun r => decide (r.1 ≠ k)).map Prod.fst).Nodup := by
  rw [List.map_cons, List.nodup_cons]
  refine ⟨?_, h.sublist (List.Sublist.map _ List.filter_sublist)⟩
  intro hk
  obtain ⟨r, hr, hrk⟩ := List.mem_map.1 hk
  exact of_decide_eq_true (List.mem_filter.1 hr).2 hrk

def set (t : Table K V) (k : K) (v : V) : Table K V :=
  ⟨(k, v) :: t.rows.filter fun r => decide (r.1 ≠ k), distinct_set t.rows t.distinct k v⟩

private theorem distinct_assign (rows : List (K × V)) (h : (rows.map Prod.fst).Nodup)
    (k : K) (v : V) :
    ((if k ∈ rows.map Prod.fst then rows.map fun r => if r.1 = k then (k, v) else r
      else rows ++ [(k, v)]).map Prod.fst).Nodup := by
  split
  · have hkeys : (rows.map fun r => if r.1 = k then (k, v) else r).map Prod.fst =
        rows.map Prod.fst := by
      rw [List.map_map]
      refine List.map_congr_left fun r _ => ?_
      by_cases hk : r.1 = k <;> simp [hk]
    rw [hkeys]
    exact h
  · next hnew => simpa [List.nodup_append] using ⟨h,
      fun a b hab heq => hnew (heq ▸ List.mem_map_of_mem hab)⟩

/-- As `set`, but an old key keeps its place and a new one comes last. -/
def assign (t : Table K V) (k : K) (v : V) : Table K V :=
  ⟨if k ∈ t.rows.map Prod.fst then t.rows.map fun r => if r.1 = k then (k, v) else r
    else t.rows ++ [(k, v)], distinct_assign t.rows t.distinct k v⟩

/-- The rows that `p` does not select. -/
def delete (t : Table K V) (p : K → V → Bool) : Table K V :=
  ⟨t.rows.filter fun r => !p r.1 r.2, t.distinct.sublist (List.filter_sublist.map _)⟩

/-- The keys of the rows that `p` selects. -/
def keys (t : Table K V) (p : K → V → Bool) : List K :=
  (t.rows.filter fun r => p r.1 r.2).map Prod.fst

/-- Some row satisfies `p`. -/
def any (t : Table K V) (p : K → V → Bool) : Bool := t.rows.any fun r => p r.1 r.2

@[simp] theorem get_empty (k : K) : (empty : Table K V).get k = none := rfl

private theorem find_filter_ne (rows : List (K × V)) {k j : K} (h : j ≠ k) :
    (rows.filter fun r => decide (r.1 ≠ k)).find? (fun r => decide (r.1 = j)) =
      rows.find? fun r => decide (r.1 = j) := by
  have hkj : k ≠ j := fun e => h e.symm
  induction rows with
  | nil => rfl
  | cons r rows ih =>
      by_cases hk : r.1 = k
      · rw [List.filter_cons_of_neg (by simp [hk]), ih,
          List.find?_cons_of_neg (by simp [hk, hkj])]
      · rw [List.filter_cons_of_pos (by simp [hk]), List.find?_cons, List.find?_cons, ih]

theorem get_set (t : Table K V) (k j : K) (v : V) :
    (t.set k v).get j = if j = k then some v else t.get j := by
  by_cases h : j = k
  · simp [get, set, h]
  · have hkj : k ≠ j := fun e => h e.symm
    simp only [get, set, h, if_false, List.find?_cons, hkj, decide_false,
      find_filter_ne t.rows h]

@[simp] theorem get_set_self (t : Table K V) (k : K) (v : V) :
    (t.set k v).get k = some v := by
  simp [get_set]

theorem get_set_ne (t : Table K V) {k j : K} (v : V) (h : j ≠ k) :
    (t.set k v).get j = t.get j := by
  simp [get_set, h]

theorem get_eq_some_iff (t : Table K V) (k : K) (v : V) : t.get k = some v ↔
    (k, v) ∈ t.rows := by
  constructor
  · intro h
    obtain ⟨r, hr, rfl⟩ := Option.map_eq_some_iff.1 h
    have hk : r.1 = k := by simpa using List.find?_some hr
    rw [← hk]
    exact List.mem_of_find?_eq_some hr
  · intro h
    have hsome : (t.rows.find? fun r => decide (r.1 = k)).isSome := by
      rw [List.find?_isSome]
      exact ⟨(k, v), h, by simp⟩
    obtain ⟨r, hr⟩ := Option.isSome_iff_exists.1 hsome
    have hk : r.1 = k := by simpa using List.find?_some hr
    have heq : r = (k, v) :=
      List.inj_on_of_nodup_map t.distinct (List.mem_of_find?_eq_some hr) h hk
    simp [get, hr, heq]

theorem get_assign (t : Table K V) (k j : K) (v : V) :
    (t.assign k v).get j = if j = k then some v else t.get j := by
  ext w
  rw [get_eq_some_iff]
  unfold assign
  simp only
  split
  · next hold =>
      obtain ⟨r, hr, hkey⟩ := List.mem_map.1 hold
      rw [List.mem_map]
      split
      · next hj =>
          rw [Option.some.injEq]
          refine ⟨fun ⟨q, _, hq⟩ => ?_, fun hv => ⟨r, hr, by rw [if_pos hkey, hj, hv]⟩⟩
          split at hq
          · exact congrArg Prod.snd hq
          · next hne => exact absurd ((congrArg Prod.fst hq).trans hj) hne
      · next hj =>
          rw [get_eq_some_iff]
          refine ⟨fun ⟨q, hq, heq⟩ => ?_, fun hmem => ⟨(j, w), hmem, if_neg hj⟩⟩
          split at heq
          · exact absurd (congrArg Prod.fst heq).symm hj
          · exact heq ▸ hq
  · next hnew =>
      rw [List.mem_append, List.mem_singleton, Prod.mk.injEq]
      split
      · next hj =>
          subst hj
          have hgone : (j, w) ∉ t.rows := fun hmem => hnew (List.mem_map_of_mem hmem)
          simp [hgone, eq_comm]
      · next hj => simp [hj, get_eq_some_iff]

theorem any_iff (t : Table K V) (p : K → V → Bool) :
    t.any p = true ↔ ∃ k v, t.get k = some v ∧ p k v = true := by
  simp only [any, List.any_eq_true, Prod.exists, get_eq_some_iff]

theorem get_delete_eq_some (t : Table K V) (p : K → V → Bool) (k : K) (v : V) :
    (t.delete p).get k = some v ↔ t.get k = some v ∧ p k v = false := by
  simp [get_eq_some_iff, delete]

theorem get_delete_keep {t : Table K V} {p : K → V → Bool} {k : K}
    (h : ∀ v, p k v = false) :
    (t.delete p).get k = t.get k := by
  ext v
  rw [get_delete_eq_some]
  simp [h v]

theorem get_delete_gone {t : Table K V} {p : K → V → Bool} {k : K}
    (h : ∀ v, p k v = true) :
    (t.delete p).get k = none := by
  rw [Option.eq_none_iff_forall_ne_some]
  intro v hv
  simp [get_delete_eq_some, h v] at hv

theorem mem_keys (t : Table K V) (p : K → V → Bool) (k : K) :
    k ∈ t.keys p ↔ ∃ v, t.get k = some v ∧ p k v = true := by
  simp [keys, get_eq_some_iff]

end Table

end PairCell.Lib
