import Mathlib.Order.OrderDual
import PairCell.Lib.Ranking

/-!
# Keyset pagination

Rows with distinct keys are read in pages of decreasing keys.  A page starts
below the last key of the one before, so rows that are added in between do not
move the rest.
-/

namespace PairCell.Lib.Keyset

variable {α κ : Type} [LinearOrder κ] (key : α → κ)

/-- The rows, the greatest key first. -/
def descending (l : List α) : List α := rank (fun a => OrderDual.toDual (key a)) l

def Strict (l : List α) : Prop := l.Pairwise fun a b => key b < key a

def below (bound : Option κ) (a : α) : Bool := bound.all fun k => decide (key a < k)

/-- The first rows below the bound, and the next bound if there are more. -/
def page (limit : Nat) (bound : Option κ) (l : List α) : List α × Option κ :=
  let rows := descending key (l.filter (below key bound))
  (rows.take limit, if limit < rows.length then
    (rows.take limit).getLast?.map key else none)

/-- Page after page, each of the rows that are there by then. -/
def sweep (limit : Nat) : Option κ → List α → List (List α) → List α × Option κ
  | bound, l, [] => page key limit bound l
  | bound, l, l' :: later =>
      let items := (page key limit bound l).1
      match (page key limit bound l).2 with
      | none => (items, none)
      | some k =>
          (items ++ (sweep limit (some k) l' later).1, (sweep limit (some k) l' later).2)

section Order

variable {key} {l s : List α} {a last : α} {n : Nat}

theorem descending_perm (l : List α) : (descending key l).Perm l := rank_perm _ l

theorem mem_descending : a ∈ descending key l ↔ a ∈ l := mem_rank

theorem descending_strict (h : (l.map key).Nodup) : Strict key (descending key l) := by
  have hsorted : (descending key l).Pairwise fun a b => key b ≤ key a :=
    rank_pairwise (fun a => OrderDual.toDual (key a)) l
  have hdistinct : ((descending key l).map key).Nodup :=
    (((descending_perm l).map key).nodup_iff).2 h
  exact (hsorted.and (List.pairwise_map.1 hdistinct)).imp fun ⟨hle, hne⟩ =>
    lt_of_le_of_ne hle hne.symm

theorem Strict.nodup (hs : Strict key s) : s.Nodup :=
  hs.imp fun hlt heq => hlt.ne (by rw [heq])

theorem Strict.last_le (hs : Strict key s) (hlast : s.getLast? = some last) (ha : a ∈ s) :
    key last ≤ key a := by
  obtain ⟨front, rfl⟩ := List.getLast?_eq_some_iff.1 hlast
  obtain hin | hin := List.mem_append.1 ha
  · exact ((List.pairwise_append.1 hs).2.2 a hin last (List.mem_singleton.2 rfl)).le
  · rw [List.mem_singleton.1 hin]

/-- What is not among the first rows is below the last one of them. -/
theorem Strict.take_or_below (hs : Strict key s) (hlast : (s.take n).getLast? = some last)
    (ha : a ∈ s) : a ∈ s.take n ∨ key a < key last := by
  rw [← List.take_append_drop n s] at hs ha
  obtain hin | hin := List.mem_append.1 ha
  · exact .inl hin
  · exact .inr ((List.pairwise_append.1 hs).2.2 last (List.mem_of_getLast? hlast) a hin)

end Order

section Page

variable {key} {limit : Nat} {bound : Option κ} {l : List α} {a : α}

theorem below_of_le {b : α} (hle : key a ≤ key b) (hb : below key bound b = true) :
    below key bound a = true := by
  cases bound with
  | none => rfl
  | some k =>
      simp only [below, Option.all_some, decide_eq_true_eq] at hb ⊢
      exact hle.trans_lt hb

theorem mem_rows : a ∈ descending key (l.filter (below key bound)) ↔ a ∈ l ∧
    below key bound a = true := by
  rw [mem_descending, List.mem_filter]

theorem rows_strict (h : (l.map key).Nodup) :
    Strict key (descending key (l.filter (below key bound))) :=
  descending_strict (h.sublist (List.filter_sublist.map key))

theorem page_strict (h : (l.map key).Nodup) : Strict key (page key limit bound l).1 :=
  (rows_strict h).sublist (List.take_sublist _ _)

theorem mem_page (ha : a ∈ (page key limit bound l).1) : a ∈ l ∧
    below key bound a = true :=
  mem_rows.1 (List.mem_of_mem_take ha)

theorem getLast?_take {s : List α} (hpos : 0 < limit) (hlong : limit < s.length) :
    ∃ last, (s.take limit).getLast? = some last := by
  have hne : s.take limit ≠ [] := by
    rw [← List.length_pos_iff, List.length_take]
    omega
  exact ⟨_, List.getLast?_eq_some_getLast hne⟩

/-- Without a next bound nothing is left. -/
theorem page_end (hpos : 0 < limit)
    (hnext : (page key limit bound l).2 = none) (ha : a ∈ l)
    (hbelow : below key bound a = true) : a ∈ (page key limit bound l).1 := by
  have hrow := mem_rows.2 ⟨ha, hbelow⟩
  simp only [page] at hnext ⊢
  split at hnext
  · next hlong =>
    obtain ⟨last, hlast⟩ := getLast?_take hpos hlong
    simp [hlast] at hnext
  · next hshort =>
    rwa [List.take_of_length_le (not_lt.1 hshort)]

/-- With a next bound the page is full, and the rows that are left
are the ones below it. -/
theorem page_more {k : κ} (h : (l.map key).Nodup)
    (hnext : (page key limit bound l).2 = some k) :
    (page key limit bound l).1.length = limit ∧
    (∀ b ∈ (page key limit bound l).1, k ≤ key b) ∧
      ∀ a ∈ l, below key bound a = true → a ∈ (page key limit bound l).1 ∨ key a < k := by
  have hstrict : Strict key (descending key (l.filter (below key bound))) := rows_strict h
  simp only [page] at hnext ⊢
  split at hnext
  · next hlong =>
    obtain ⟨last, hlast, rfl⟩ := Option.map_eq_some_iff.1 hnext
    refine ⟨by rw [List.length_take]; omega, fun b hb => ?_, fun a ha hbelow => ?_⟩
    · exact Strict.last_le (hstrict.sublist (List.take_sublist _ _)) hlast hb
    · exact hstrict.take_or_below hlast (mem_rows.2 ⟨ha, hbelow⟩)
  · cases hnext

end Page

section Sweep

variable {key} {limit : Nat} {l : List α} {a : α}

/-- Every list of rows has the ones of the list before it. -/
def Growing : List α → List (List α) → Prop
  | _, [] => True
  | l, l' :: later => (∀ a ∈ l, a ∈ l') ∧ Growing l' later

/-- The rows that are there in the end. -/
def final : List α → List (List α) → List α
  | l, [] => l
  | _, l' :: later => final l' later

theorem Growing.mem_final {later : List (List α)} (h : Growing l later) (ha : a ∈ l) :
    a ∈ final l later := by
  induction later generalizing l with
  | nil => exact ha
  | cons l' later ih => exact ih h.2 (h.1 a ha)

variable (key) in
/-- What a sweep from a bound has read by its end. -/
structure Swept (limit : Nat) (bound : Option κ) (l : List α) (later : List (List α))
    (items : List α) (next : Option κ) : Prop where
  strict : Strict key items
  within : ∀ a ∈ items, below key bound a = true
  present : ∀ a ∈ items, a ∈ final l later
  complete : next = none → ∀ a ∈ l, below key bound a = true → a ∈ items
  long : next ≠ none → limit * (later.length + 1) ≤ items.length

theorem sweep_swept (hpos : 0 < limit) {later : List (List α)} {bound : Option κ}
    (hgrow : Growing l later) (hkeys : ∀ l' ∈ l :: later, (l'.map key).Nodup) :
    Swept key limit bound l later (sweep key limit bound l later).1
      (sweep key limit bound l later).2 := by
  have hnodup := hkeys l List.mem_cons_self
  have hstrict : Strict key (page key limit bound l).1 := page_strict hnodup
  induction later generalizing l bound with
  | nil =>
      refine ⟨hstrict, fun a ha => (mem_page ha).2, fun a ha => (mem_page ha).1,
        fun hend a ha hbelow => page_end hpos hend ha hbelow, fun hmore => ?_⟩
      obtain ⟨k, hk⟩ := Option.ne_none_iff_exists'.1 hmore
      have hfull : (page key limit bound l).1.length = limit := (page_more hnodup hk).1
      simp only [sweep, List.length_nil]
      omega
  | cons l' later ih =>
      rw [sweep]
      cases hnext : (page key limit bound l).2 with
      | none =>
          exact ⟨hstrict, fun a ha => (mem_page ha).2,
            fun a ha => hgrow.mem_final (mem_page ha).1,
            fun _ a ha hbelow => page_end hpos hnext ha hbelow, fun hmore =>
              (hmore rfl).elim⟩
      | some k =>
          obtain ⟨hfull, hlow, hleft⟩ := page_more hnodup hnext
          have hkeys' : ∀ m ∈ l' :: later, (m.map key).Nodup := fun m hm =>
            hkeys m (List.mem_cons_of_mem _ hm)
          have hnodup' := hkeys' l' List.mem_cons_self
          obtain ⟨hrest, hwithin, hpresent, hcomplete, hlong⟩ :
              Swept key limit (some k) l' later (sweep key limit (some k) l' later).1
                (sweep key limit (some k) l' later).2 :=
            ih hgrow.2 hkeys' hnodup' (page_strict hnodup')
          have hunder : ∀ b ∈ (sweep key limit (some k) l' later).1, key b < k :=
            fun b hb => by
            simpa [below] using hwithin b hb
          refine ⟨?_, ?_, ?_, ?_, ?_⟩
          · exact List.pairwise_append.2 ⟨hstrict, hrest,
              fun a ha b hb => (hunder b hb).trans_le (hlow a ha)⟩
          · intro a ha
            obtain ha | ha := List.mem_append.1 ha
            · exact (mem_page ha).2
            · -- the first page is not empty, and its keys are between `k` and the bound
              obtain ⟨b, hb⟩ := List.exists_mem_of_length_pos (hfull ▸ hpos)
              exact below_of_le ((hunder a ha).le.trans (hlow b hb)) (mem_page hb).2
          · intro a ha
            obtain ha | ha := List.mem_append.1 ha
            · exact hgrow.2.mem_final (hgrow.1 a (mem_page ha).1)
            · exact hpresent a ha
          · intro hend a ha hbelow
            obtain hin | hlt := hleft a ha hbelow
            · exact List.mem_append_left _ hin
            · exact List.mem_append_right _
                (hcomplete hend a (hgrow.1 a ha) (by simpa [below] using hlt))
          · intro hmore
            have hmost := hlong hmore
            rw [List.length_append, hfull, List.length_cons, Nat.mul_succ]
            omega

/-- A sweep that has as many pages as there are rows in the end has ended. -/
theorem Swept.ends {later : List (List α)} {bound next : Option κ} {items : List α}
    (hpos : 0 < limit) (h : Swept key limit bound l later items next)
    (hmany : (final l later).length ≤ later.length) : next = none := by
  by_contra hmore
  have hfew : items.length ≤ (final l later).length :=
    (List.subperm_of_subset h.strict.nodup h.present).length_le
  have hpages := h.long hmore
  have hone : later.length + 1 ≤ limit * (later.length + 1) :=
    Nat.le_mul_of_pos_left _ hpos
  omega

end Sweep

end PairCell.Lib.Keyset
