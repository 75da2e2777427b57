import PairCell.Lib.Slots
import PairCell.Market.Discovery
import PairCell.Market.Play

/-!
# Plan sets in batches

A cell publishes its plan set as numbered batches over a relay that keeps their
order and may deliver one more than once.  The peer collects the batches under
the version of the set and keeps them when the set is complete.
-/

namespace PairCell.Market

open Lib

/-! ## Cutting a set into batches -/

section Cut

variable {α : Type} {size : α → Nat} {maxBytes : Nat}

private theorem go_flatten (payload current : List α) (currentSize : Nat) :
    (boundedBatches.go size maxBytes payload current currentSize).flatten =
      current ++ payload := by
  fun_induction boundedBatches.go size maxBytes payload current currentSize with
  | case1 current _ => simp
  | case2 entry rest current _ _ ih => simp [ih]
  | case3 entry rest current _ _ ih => simp [ih]

theorem boundedBatches_flatten (payload : List α) :
    (boundedBatches size maxBytes payload).flatten = payload := by
  rw [boundedBatches, go_flatten, List.nil_append]

theorem boundedBatches_length_pos (payload : List α) :
    0 < (boundedBatches size maxBytes payload).length := by
  have hgo (current : List α) (currentSize : Nat) :
      0 < (boundedBatches.go size maxBytes payload current currentSize).length := by
    fun_induction boundedBatches.go size maxBytes payload current currentSize with
    | case1 => simp
    | case2 => simp
    | case3 _ _ _ _ _ ih => exact ih
  exact hgo [] 2

end Cut

/-- A dictionary of plans with distinct keys is read back as it is. -/
theorem keyed_of_nodup {plans : List SizingPlan} (h : (plans.map SizingPlan.key).Nodup) :
    Cell.keyed plans = plans := by
  have hfold : ∀ known : List SizingPlan, ((known ++ plans).map SizingPlan.key).Nodup →
      plans.foldl (fun known p => known.filter (·.key ≠ p.key) ++ [p]) known =
        known ++ plans := by
    intro known hk
    induction plans generalizing known with
    | nil => simp
    | cons p rest ih =>
        have hfilter : known.filter (·.key ≠ p.key) = known := by
          refine List.filter_eq_self.2 ?_
          intro q hq
          rw [List.map_append, List.nodup_append] at hk
          exact decide_eq_true (hk.2.2 _ (List.mem_map_of_mem hq) _ (by simp))
        rw [List.foldl_cons, hfilter, ih h.of_cons _ (by simpa using hk)]
        simp
  exact hfold [] (by simpa using h)

/-! ## Publications -/

/-- One published plan set: the plans of a dictionary, in their order. -/
structure Publication where
  plans : List SizingPlan
  distinct : (plans.map SizingPlan.key).Nodup

variable (discover : Discover) (size : SizingPlan → Nat)

namespace Publication

variable (q : Publication)

def version : PlanSetVersion := planSetVersionOf q.plans

def batches : List (List SizingPlan) := boundedBatches size planBatchBytes q.plans

def count : Nat := (q.batches size).length

/-- The envelopes of the publication, in index order. -/
def envelopes (generation : Nat) : List Message :=
  (q.batches size).zipIdx.map fun batch =>
    .sizingPlans q.version (some generation) batch.2 (q.count size) batch.1

theorem batches_flatten : (q.batches size).flatten = q.plans := boundedBatches_flatten _

theorem count_pos : 0 < q.count size := boundedBatches_length_pos _

theorem envelopes_length (generation : Nat) :
    (q.envelopes size generation).length = q.count size := by
  rw [envelopes, List.length_map, List.length_zipIdx, count]

theorem envelopes_get {generation j : Nat} {batch : List SizingPlan}
    (h : (q.batches size)[j]? = some batch) :
    (q.envelopes size generation)[j]? =
      some (.sizingPlans q.version (some generation) j (q.count size) batch) := by
  rw [envelopes, List.getElem?_map, List.getElem?_zipIdx, h]
  simp

end Publication

/-- The batches of `q` in place of the first `j` of those that were kept. -/
def overlay (q : Publication) (kept : List (List SizingPlan)) (j : Nat) :
    List (List SizingPlan) :=
  (q.batches size).take j ++ kept.drop j

/--
`q` can follow `p` on the relay: it has another version, it is cut into more
batches, or into as many that show one of the two sets at every point.
-/
def Follows (p q : Publication) : Prop :=
  p.version ≠ q.version ∨ p.count size < q.count size ∨
    (p.count size = q.count size ∧ ∀ j ≤ q.count size,
      (overlay size q (p.batches size) j).flatten = p.plans ∨
        (overlay size q (p.batches size) j).flatten = q.plans)

/-! ## The relay and the peer -/

/-- The publications of one cell, how many envelopes were delivered, and the peer. -/
structure Feed where
  generation : Nat
  published : List Publication
  delivered : Nat
  peer : Cell

namespace Feed

inductive Label where
  | publish (q : Publication)
  | deliver
  /-- The envelope delivered last arrives once more. -/
  | duplicate

def sent (w : Feed) : List Message := w.published.flatMap (·.envelopes size w.generation)

def next (w : Feed) : Label → Feed
  | .publish q => { w with published := w.published ++ [q] }
  | .deliver =>
      match (w.sent size)[w.delivered]? with
      | none => w
      | some m =>
          { w with delivered := w.delivered + 1,
                   peer := w.peer.acceptRelayEnvelope discover m }
  | .duplicate =>
      if w.delivered = 0 then w
      else
        match (w.sent size)[w.delivered - 1]? with
        | none => w
        | some m => { w with peer := w.peer.acceptRelayEnvelope discover m }

def Step (w : Feed) (l : Label) (v : Feed) : Prop := v = w.next discover size l

/-- The publications a label adds. -/
def Label.added : Label → List Publication
  | .publish q => [q]
  | .deliver => []
  | .duplicate => []

theorem next_published (w : Feed) (l : Label) :
    (w.next discover size l).published = w.published ++ l.added := by
  cases l with
  | publish q => rfl
  | deliver =>
      unfold next
      dsimp only
      split <;> simp [Label.added]
  | duplicate =>
      unfold next
      dsimp only
      split
      · simp [Label.added]
      · split <;> simp [Label.added]

/-- Every publication can follow the one before it. -/
def InTurn (w : Feed) : Label → Prop
  | .publish q => ∀ p, w.published.getLast? = some p → Follows size p q
  | .deliver => True
  | .duplicate => True

/-- A peer of the same generation that has collected nothing yet. -/
structure Start (generation : Nat) where
  peer : Cell
  same : peer.universeGeneration = some generation
  empty : peer.peerPlanBatches = []

def start {generation : Nat} (s : Start generation) : Feed := ⟨generation, [], 0, s.peer⟩

/-- When every envelope has arrived the peer has the last publication. -/
def Complete (w : Feed) : Prop :=
  w.delivered = (w.sent size).length → ∀ q, w.published.getLast? = some q →
    w.peer.peerPlans = q.plans ∧ w.peer.peerPlanSetVersion = some q.version

/-- The peer's plans are those it started with or those of one publication. -/
def Unmixed {generation : Nat} (s : Start generation) (w : Feed) : Prop :=
  w.peer.peerPlans = s.peer.peerPlans ∨ ∃ q ∈ w.published, w.peer.peerPlans = q.plans

end Feed

/-! ## One batch -/

section Batch

variable {c : Cell} {version : PlanSetVersion} {generation index count : Nat}
  {batch : List SizingPlan} {l : List (List SizingPlan)}

theorem batchesOf_setBatches (c : Cell) (version v : PlanSetVersion)
    (batches : List (Nat × List SizingPlan)) :
    (c.setBatches version batches).batchesOf v =
      if v = version then batches else c.batchesOf v := by
  unfold Cell.setBatches Cell.batchesOf
  by_cases h : v = version
  · simp [h]
  · have hne : version ≠ v := fun e => h e.symm
    rw [if_neg h, List.find?_cons_of_neg (by simpa using hne), List.find?_filter]
    congr 3
    funext x
    by_cases hx : x.1 = v
    · simp [hx, h]
    · simp [hx]

/-- What a batch leaves behind: the slots, and either the old plans or a complete set. -/
structure Taken (c c' : Cell) (version : PlanSetVersion) (count : Nat)
    (l : List (List SizingPlan)) : Prop where
  generation : c'.universeGeneration = c.universeGeneration
  slots : Holds (c'.batchesOf version) l
  waiting : l.length ≠ count → c'.peerPlans = c.peerPlans
  complete : l.length = count → c'.peerPlans = Cell.keyed l.flatten ∧
    c'.peerPlanSetVersion = some version ∧ ∀ v, v ≠ version → c'.batchesOf v = []

theorem acceptPeerPlanBatch_taken (batch : List SizingPlan)
    (hgen : c.universeGeneration = some generation) (hindex : index < count)
    (hslots : Holds (c.batchesOf version) l) (hle : index ≤ l.length)
    (hversion : (put l index batch).length = count →
      planSetVersionOf (put l index batch).flatten = version) :
    Taken c (c.acceptPeerPlanBatch version (some generation) index count
      batch) version count
      (put l index batch) := by
  have hput := hslots.put (x := batch) hle
  unfold Cell.acceptPeerPlanBatch
  rw [if_neg (not_not.2 hgen.symm), if_neg (not_not.2 hindex)]
  dsimp only
  rw [hput.length_eq]
  split
  · next hcount =>
    refine ⟨rfl, ?_, fun _ => rfl, fun h => absurd h hcount⟩
    rw [batchesOf_setBatches, if_pos rfl]
    exact hput
  · next hcount =>
    have hlength : (put l index batch).length = count := not_not.1 hcount
    have hcombine :
        Cell.combine ((index, batch) :: (c.batchesOf version).filter (·.1 ≠ index))
        count = (put l index batch).flatten := by
      rw [Cell.combine, ← hlength]
      exact hput.collect
    rw [hcombine, if_neg (not_not.2 (hversion hlength))]
    refine ⟨rfl, ?_, fun h => absurd hlength h, fun _ => ⟨rfl, rfl, ?_⟩⟩
    · simpa [Cell.batchesOf] using hput
    · intro v hv
      have hne : version ≠ v := fun e => hv e.symm
      simp [Cell.batchesOf, hne]

end Batch

/-! ## Collecting one publication -/

section Collecting

variable {size} {q : Publication} {kept : List (List SizingPlan)}
    {old : List SizingPlan} {j : Nat}
  {c : Cell} {generation : Nat}

/-- What the peer kept under the version of `q` when `q` began to arrive. -/
def Keeps (size : SizingPlan → Nat) (kept : List (List SizingPlan)) (old : List SizingPlan)
    (q : Publication) : Prop :=
  kept.length < q.count size ∨
    ∃ p : Publication, old = p.plans ∧ p.version = q.version ∧ kept = p.batches size ∧
      kept.length = q.count size ∧
      ∀ j ≤ q.count size, (overlay size q kept j).flatten = p.plans ∨
        (overlay size q kept j).flatten = q.plans

/-- The peer after the first `j` batches of `q`. -/
structure Collecting (size : SizingPlan → Nat) (c : Cell) (generation : Nat)
    (kept : List (List SizingPlan)) (old : List SizingPlan) (q : Publication)
    (j : Nat) : Prop where
  generation : c.universeGeneration = some generation
  bound : j ≤ q.count size
  slots : Holds (c.batchesOf q.version) (overlay size q kept j)
  plans : c.peerPlans = old ∨ c.peerPlans = q.plans
  done : j = q.count size → c.peerPlans = q.plans ∧ c.peerPlanSetVersion = some q.version ∧
    ∀ v, v ≠ q.version → c.batchesOf v = []

theorem overlay_length (hj : j ≤ q.count size) :
    (overlay size q kept j).length = max j kept.length := by
  rw [overlay, List.length_append, List.length_take_of_le hj, List.length_drop]
  omega

theorem Keeps.length_le (h : Keeps size kept old q) : kept.length ≤ q.count size := by
  obtain h | ⟨_, -, -, -, h, -⟩ := h <;> omega

theorem overlay_count (h : kept.length ≤ q.count size) :
    overlay size q kept (q.count size) = q.batches size := by
  rw [overlay, List.drop_eq_nil_of_le h, List.append_nil]
  exact List.take_length

theorem put_overlay {batch : List SizingPlan} (h : (q.batches size)[j]? = some batch) :
    put (overlay size q kept j) j batch = overlay size q kept (j + 1) := by
  obtain ⟨hj, hget⟩ := List.getElem?_eq_some_iff.1 h
  have htake : ((q.batches size).take j).length = j := List.length_take_of_le hj.le
  have hdrop : (overlay size q kept j).drop (j + 1) = kept.drop (j + 1) := by
    rw [overlay, List.drop_append, htake, List.drop_eq_nil_of_le (by omega),
      List.nil_append, List.drop_drop]
    congr 1
    omega
  rw [put, hdrop]
  conv_lhs => rw [overlay, List.take_left' htake]
  rw [overlay, List.take_add_one, h]
  simp

theorem overlay_get {batch : List SizingPlan} {i : Nat} (hi : i < j)
    (hj : j ≤ q.count size) (h : (q.batches size)[i]? = some batch) :
    (overlay size q kept j)[i]? = some batch := by
  have htake : ((q.batches size).take j).length = j := List.length_take_of_le hj
  rw [overlay, List.getElem?_append_left (by omega), List.getElem?_take_of_lt hi, h]

/-- A complete overlay shows the old set or the new one, and the new one at the end. -/
theorem Keeps.shown (h : Keeps size kept old q) (hj : j ≤ q.count size)
    (hcomplete : (overlay size q kept j).length = q.count size) :
    planSetVersionOf (overlay size q kept j).flatten = q.version ∧
      (Cell.keyed (overlay size q kept j).flatten = old ∨
        Cell.keyed (overlay size q kept j).flatten = q.plans) ∧
      (j = q.count size → Cell.keyed (overlay size q kept j).flatten = q.plans) := by
  have hlast : j = q.count size → (overlay size q kept j).flatten = q.plans := by
    rintro rfl
    rw [overlay_count h.length_le, q.batches_flatten]
  have hend : j = q.count size → Cell.keyed (overlay size q kept j).flatten = q.plans := by
    intro e
    rw [hlast e, keyed_of_nodup q.distinct]
  obtain hless | ⟨p, rfl, hversion, -, -, hshows⟩ := h
  · have hcount : j = q.count size := by
      rw [overlay_length hj] at hcomplete
      omega
    exact ⟨by rw [hlast hcount]; rfl, .inr (hend hcount), hend⟩
  · obtain hold | hnew := hshows j hj
    · refine ⟨by rw [hold]; exact hversion, .inl ?_, hend⟩
      rw [hold, keyed_of_nodup p.distinct]
    · refine ⟨by rw [hnew]; rfl, .inr ?_, hend⟩
      rw [hnew, keyed_of_nodup q.distinct]

/-- A batch of `q` that completes the overlay for `j` leaves the peer collecting at `j`. -/
theorem Keeps.accept {l : List (List SizingPlan)} {index : Nat} {batch : List SizingPlan}
    (h : Keeps size kept old q) (hj : j ≤ q.count size)
    (hgen : c.universeGeneration = some generation)
    (hplans : c.peerPlans = old ∨ c.peerPlans = q.plans)
    (hslots : Holds (c.batchesOf q.version) l) (hle : index ≤ l.length)
    (hindex : index < q.count size) (hput : put l index batch = overlay size q kept j) :
    Collecting size
      (c.acceptPeerPlanBatch q.version (some generation) index (q.count size) batch)
      generation kept old q j := by
  have htaken := acceptPeerPlanBatch_taken batch hgen hindex hslots hle (by
    rw [hput]
    exact fun hcomplete => (h.shown hj hcomplete).1)
  rw [hput] at htaken
  refine ⟨htaken.generation.trans hgen, hj, htaken.slots, ?_, ?_⟩
  · by_cases hcomplete : (overlay size q kept j).length = q.count size
    · rw [(htaken.complete hcomplete).1]
      exact (h.shown hj hcomplete).2.1
    · rw [htaken.waiting hcomplete]
      exact hplans
  · intro hlast
    have hcomplete : (overlay size q kept j).length = q.count size := by
      rw [hlast, overlay_count h.length_le]
      rfl
    obtain ⟨hkeyed, hversion, hothers⟩ := htaken.complete hcomplete
    exact ⟨hkeyed.trans ((h.shown hj hcomplete).2.2 hlast), hversion, hothers⟩

end Collecting

/-! ## A whole run -/

section Run

variable {discover} {size} {generation : Nat} {s : Feed.Start generation} {w : Feed}
  {q : Publication} {kept : List (List SizingPlan)} {old : List SizingPlan} {j : Nat}

namespace Feed

/-- The peer has received the first `j` batches of one publication and all before it. -/
structure Under (size : SizingPlan → Nat) (s : Start generation) (w : Feed)
    (before : List Publication) (q : Publication) (after : List Publication)
    (kept : List (List SizingPlan)) (old : List SizingPlan) (j : Nat) : Prop where
  published : w.published = before ++ q :: after
  delivered : w.delivered = (before.flatMap (·.envelopes size generation)).length + j
  started : 0 < j
  keeps : Keeps size kept old q
  old_eq : old = s.peer.peerPlans ∨ ∃ p ∈ before, old = p.plans
  collecting : Collecting size w.peer generation kept old q j

/-- The invariant of a run in which every publication can follow the one before it. -/
structure Progress (size : SizingPlan → Nat) (s : Start generation) (w : Feed) : Prop where
  generation_eq : w.generation = generation
  chain : w.published.IsChain (Follows size)
  peer : (w.delivered = 0 ∧ w.peer = s.peer) ∨
    ∃ before q after kept old j, Under size s w before q after kept old j

theorem sent_get (hgen : w.generation = generation) {before after : List Publication}
    (h : w.published = before ++ q :: after) (hj : j < q.count size) :
    ∃ batch, (q.batches size)[j]? = some batch ∧
      (w.sent size)[(before.flatMap (·.envelopes size generation)).length + j]? =
        some (.sizingPlans q.version (some generation) j (q.count size) batch) := by
  refine ⟨(q.batches size)[j], List.getElem?_eq_getElem hj, ?_⟩
  have hlt : j < (q.envelopes size generation).length := by rwa [q.envelopes_length]
  rw [sent, h, hgen, List.flatMap_append, List.flatMap_cons,
    List.getElem?_append_right (by omega), Nat.add_sub_cancel_left,
    List.getElem?_append_left hlt]
  exact q.envelopes_get size (List.getElem?_eq_getElem hj)

/-- The next batch of a publication that is arriving. -/
theorem collect_next {c : Cell} {batch : List SizingPlan} (hkeeps : Keeps size kept old q)
    (hgen : c.universeGeneration = some generation)
    (hplans : c.peerPlans = old ∨ c.peerPlans = q.plans)
    (hslots : Holds (c.batchesOf q.version) (overlay size q kept j))
    (hj : j < q.count size) (hbatch : (q.batches size)[j]? = some batch) :
    Collecting size (c.acceptPeerPlanBatch q.version (some generation) j
      (q.count size) batch)
      generation kept old q (j + 1) := by
  have hle : j ≤ (overlay size q kept j).length := by
    rw [overlay_length hj.le]
    exact le_max_left _ _
  exact hkeeps.accept hj hgen hplans hslots hle hj (put_overlay hbatch)

/-- The batch delivered last arrives once more. -/
theorem collect_again {c : Cell} {batch : List SizingPlan} (hkeeps : Keeps size kept old q)
    (h : Collecting size c generation kept old q (j + 1))
    (hbatch : (q.batches size)[j]? = some batch) :
    Collecting size (c.acceptPeerPlanBatch q.version (some generation) j
      (q.count size) batch)
      generation kept old q (j + 1) := by
  have hget : (overlay size q kept (j + 1))[j]? = some batch :=
    overlay_get (Nat.lt_succ_self j) h.bound hbatch
  have hle : j ≤ (overlay size q kept (j + 1)).length :=
    (List.getElem?_eq_some_iff.1 hget).1.le
  exact hkeeps.accept h.bound h.generation h.plans h.slots hle h.bound (put_same hget)

/-- What the peer keeps of a complete publication when the next one begins. -/
theorem Collecting.keeps_next {c : Cell} {q' : Publication}
    (hkeeps : Keeps size kept old q)
    (h : Collecting size c generation kept old q (q.count size))
    (hfollows : Follows size q q') :
    ∃ kept', Keeps size kept' q.plans q' ∧ Holds (c.batchesOf q'.version) kept' := by
  obtain ⟨-, -, hothers⟩ := h.done rfl
  have hslots := h.slots
  rw [overlay_count hkeeps.length_le] at hslots
  by_cases hversion : q'.version = q.version
  · refine ⟨q.batches size, ?_, hversion ▸ hslots⟩
    obtain hne | hless | ⟨heq, hshows⟩ := hfollows
    · exact absurd hversion.symm hne
    · exact .inl hless
    · exact .inr ⟨q, rfl, hversion.symm, rfl, heq, hshows⟩
  · refine ⟨[], .inl (q'.count_pos size), ?_⟩
    rw [hothers _ hversion]
    exact holds_nil

theorem Progress.publish (h : Progress size s w)
    (hfollows : ∀ p, w.published.getLast? = some p → Follows size p q) :
    Progress size s { w with published := w.published ++ [q] } := by
  refine ⟨h.generation_eq, ?_, ?_⟩
  · refine List.isChain_append.2 ⟨h.chain, List.isChain_singleton q, ?_⟩
    intro p hp r hr
    obtain rfl : q = r := Option.some.inj hr
    exact hfollows p hp
  · obtain hfirst | ⟨before, q₀, after, kept, old, j, hu⟩ := h.peer
    · exact .inl hfirst
    · refine .inr ⟨before, q₀, after ++ [q], kept, old, j, ?_⟩
      exact ⟨by simp [hu.published], hu.delivered, hu.started, hu.keeps, hu.old_eq,
        hu.collecting⟩

/-- The first batch of the first publication. -/
theorem Progress.first (h : Progress size s w) (hzero : w.delivered = 0)
    (hpeer : w.peer = s.peer) {m : Message} (hm : (w.sent size)[w.delivered]? = some m) :
    Progress size s { w with delivered := w.delivered + 1
                             peer := w.peer.acceptRelayEnvelope discover m } := by
  cases hpub : w.published with
  | nil =>
      rw [sent, hpub] at hm
      cases hm
  | cons q after =>
      have hnone : w.published = [] ++ q :: after := hpub
      obtain ⟨batch, hbatch, hget⟩ := sent_get h.generation_eq hnone (q.count_pos size)
      have hzero' : w.delivered = (([] : List Publication).flatMap
          (·.envelopes size generation)).length + 0 := hzero
      obtain rfl := Option.some.inj (hm.symm.trans (hzero' ▸ hget))
      refine ⟨h.generation_eq, hpub ▸ h.chain,
        .inr ⟨[], q, after, [], s.peer.peerPlans, 1, ?_⟩⟩
      have hkeeps : Keeps size [] s.peer.peerPlans q := .inl (q.count_pos size)
      have hslots : Holds (w.peer.batchesOf q.version) (overlay size q [] 0) := by
        rw [hpeer, Cell.batchesOf, s.empty]
        exact holds_nil
      refine ⟨rfl, by rw [hzero]; rfl, one_pos, hkeeps, .inl rfl, ?_⟩
      exact collect_next hkeeps (hpeer ▸ s.same) (.inl (by rw [hpeer])) hslots
        (q.count_pos size) hbatch

/-- The next envelope continues the publication that arrives or begins the one after it. -/
theorem Under.deliver {before after : List Publication} (hgen : w.generation = generation)
    (hchain : w.published.IsChain (Follows size))
    (h : Under size s w before q after kept old j) {m : Message}
    (hm : (w.sent size)[w.delivered]? = some m) :
    ∃ before q after kept old j, Under size s
      { w with delivered := w.delivered + 1
               peer := w.peer.acceptRelayEnvelope discover m } before q
                 after kept old j := by
  have hc := h.collecting
  rcases hc.bound.lt_or_eq with hj | rfl
  · obtain ⟨batch, hbatch, hget⟩ := sent_get hgen h.published hj
    obtain rfl := Option.some.inj (hm.symm.trans (h.delivered ▸ hget))
    refine ⟨before, q, after, kept, old, j + 1, h.published, ?_, j.succ_pos,
      h.keeps, h.old_eq, ?_⟩
    · change w.delivered + 1 = _
      rw [h.delivered, Nat.add_assoc]
    · exact collect_next h.keeps hc.generation hc.plans hc.slots hj hbatch
  · have hdelivered : w.delivered =
        ((before ++ [q]).flatMap (·.envelopes size generation)).length + 0 := by
      rw [h.delivered, List.flatMap_append, List.length_append, List.flatMap_singleton,
        q.envelopes_length, Nat.add_zero]
    cases after with
    | nil =>
        have hsent : w.sent size =
            (before ++ [q]).flatMap (·.envelopes size generation) := by
          rw [sent, h.published, hgen]
        rw [hsent, List.getElem?_eq_none (by omega)] at hm
        cases hm
    | cons q' after =>
        have hpub : w.published = (before ++ [q]) ++ q' :: after := by
          rw [h.published, List.append_assoc]
          rfl
        have hfollows : Follows size q q' := by
          rw [hpub] at hchain
          exact (List.isChain_append.1 hchain).2.2 q (by simp) q' rfl
        obtain ⟨kept', hkeeps, hslots⟩ := Collecting.keeps_next h.keeps hc hfollows
        obtain ⟨batch, hbatch, hget⟩ := sent_get hgen hpub (q'.count_pos size)
        obtain rfl := Option.some.inj (hm.symm.trans (hdelivered ▸ hget))
        refine ⟨before ++ [q], q', after, kept', q.plans, 1, hpub, ?_, one_pos, hkeeps,
          .inr ⟨q, by simp, rfl⟩, ?_⟩
        · change w.delivered + 1 = _
          rw [hdelivered]
        · exact collect_next hkeeps hc.generation (.inl (hc.done rfl).1) hslots
            (q'.count_pos size)
            hbatch

theorem Under.duplicate {before after : List Publication}
    (hgen : w.generation = generation)
    (h : Under size s w before q after kept old j) {m : Message}
    (hm : (w.sent size)[w.delivered - 1]? = some m) :
    Under size s { w with peer := w.peer.acceptRelayEnvelope discover m } before q
      after kept old j := by
  obtain ⟨i, rfl⟩ : ∃ i, j = i + 1 := ⟨j - 1, by have := h.started; omega⟩
  obtain ⟨batch, hbatch, hget⟩ := sent_get hgen h.published h.collecting.bound
  have hlast : w.delivered - 1 =
      (before.flatMap (·.envelopes size generation)).length + i := by
    rw [h.delivered]
    omega
  obtain rfl := Option.some.inj (hm.symm.trans (hlast ▸ hget))
  exact ⟨h.published, h.delivered, h.started, h.keeps, h.old_eq,
    collect_again h.keeps h.collecting hbatch⟩

theorem Progress.step {v : Feed} {l : Label} (h : Progress size s w)
    (hok : InTurn size w l) (hstep : Step discover size w l v) : Progress size s v := by
  rw [show v = w.next discover size l from hstep]
  cases l with
  | publish q => exact h.publish hok
  | deliver =>
      unfold next
      dsimp only
      split
      · exact h
      · next m hm =>
        obtain ⟨hzero, hpeer⟩ | ⟨before, q, after, kept, old, j, hu⟩ := h.peer
        · exact h.first hzero hpeer hm
        · exact ⟨h.generation_eq, h.chain, .inr (hu.deliver h.generation_eq h.chain hm)⟩
  | duplicate =>
      unfold next
      dsimp only
      split
      · exact h
      · next hzero =>
        split
        · exact h
        · next m hm =>
          obtain ⟨hnone, -⟩ | ⟨before, q, after, kept, old, j, hu⟩ := h.peer
          · exact absurd hnone hzero
          · exact ⟨h.generation_eq, h.chain,
              .inr ⟨before, q, after, kept, old, j, hu.duplicate h.generation_eq hm⟩⟩

theorem Progress.unmixed (h : Progress size s w) : Unmixed s w := by
  obtain ⟨-, hpeer⟩ | ⟨before, q, after, kept, old, j, hu⟩ := h.peer
  · exact .inl (by rw [hpeer])
  · obtain hold | hnew := hu.collecting.plans
    · obtain hinit | ⟨p, hp, hplans⟩ := hu.old_eq
      · exact .inl (hold.trans hinit)
      · refine .inr ⟨p, ?_, hold.trans hplans⟩
        rw [hu.published]
        exact List.mem_append_left _ hp
    · exact .inr ⟨q, by rw [hu.published]; simp, hnew⟩

theorem Progress.complete (h : Progress size s w) : Complete size w := by
  intro hall q hlast
  have hmem : q ∈ w.published := List.mem_of_getLast? hlast
  obtain ⟨hzero, -⟩ | ⟨before, q₀, after, kept, old, j, hu⟩ := h.peer
  · have hnil : w.sent size = [] := List.eq_nil_of_length_eq_zero (by rw [← hall, hzero])
    have henv := List.flatMap_eq_nil_iff.1 hnil q hmem
    have hpos := q.count_pos size
    rw [← q.envelopes_length size w.generation, henv] at hpos
    exact absurd hpos (lt_irrefl 0)
  · have hlen : (w.sent size).length =
        (before.flatMap (·.envelopes size generation)).length +
        (q₀.count size + (after.flatMap (·.envelopes size generation)).length) := by
      rw [sent, hu.published, h.generation_eq, List.flatMap_append, List.flatMap_cons,
        List.length_append, List.length_append, q₀.envelopes_length]
    have hbound := hu.collecting.bound
    have hdelivered := hu.delivered
    have hafter : after = [] := by
      cases after with
      | nil => rfl
      | cons p after =>
          have hpos := p.count_pos size
          rw [List.flatMap_cons, List.length_append, p.envelopes_length] at hlen
          omega
    subst hafter
    obtain rfl : q₀ = q := by
      rw [hu.published, List.getLast?_append_cons] at hlast
      simpa using hlast
    rw [List.flatMap_nil, List.length_nil] at hlen
    obtain ⟨hplans, hversion, -⟩ := hu.collecting.done (by omega)
    exact ⟨hplans, hversion⟩

end Feed

/--
In a run where every publication can follow the one before it the peer never
mixes two of them, and has the last one as soon as all its batches arrived.
-/
theorem batches_reassemble
    (h : Reach (Feed.Step discover size) (Feed.InTurn size) (Feed.start s) w) :
    Feed.Complete size w ∧ Feed.Unmixed s w := by
  have hprogress : Feed.Progress size s w := by
    refine h.invariant ⟨rfl, List.isChain_nil, .inl ⟨rfl, rfl⟩⟩ ?_
    intro v l v' hv hok hstep
    exact hv.step hok hstep
  exact ⟨hprogress.complete, hprogress.unmixed⟩

end Run

namespace Sample

/-- A plan whose margin text is the only thing a price move changes. -/
def sized (margin : String) (n : Nat) : SizingPlan :=
  { universeGeneration := 1, productId := toString n, symbol := toString n,
    direction := .long
    marginPerLot := margin, localMaxLots := "1", canonicalPoint := "1", point := "1"
    tickSize := "1", profitTickValue := "1", lossTickValue := "1", volumeMin := "1"
    volumeStep := "1", volumeMax := "1", fillingMode := "FOK", minimumStopDistance := "1"
    usdPerPointPerLot := "1" }

/-- Eighty plans of 450 bytes: two batches. -/
def planBytes : SizingPlan → Nat := fun _ => 450

def eighty (margin : String) : List SizingPlan := (List.range 80).map (sized margin)

def before : Publication := ⟨eighty "100", by decide +kernel⟩

def after : Publication := ⟨eighty "101", by decide +kernel⟩

def other : Publication := ⟨[sized "100" 0], by decide⟩

/-- A follower that has installed generation 1 and no peer plans. -/
def peer : Cell :=
  { Cell.fresh .follower with
    discoveredUniverse := some ⟨1, [], ⟨0, 0, []⟩, ⟨0, 0, []⟩⟩ }

def begun : Feed.Start 1 := ⟨peer, rfl, rfl⟩

/-- One set is published and delivered with a duplicate, then another one. -/
def inTurn : List Feed.Label :=
  [.publish before, .deliver, .duplicate, .deliver, .publish other, .deliver]

/-- The set is published again after its margins changed, and the first batch arrives. -/
def again : List Feed.Label :=
  [.publish before, .deliver, .deliver, .publish after, .deliver]

def playFeed (ls : List Feed.Label) : Feed :=
  ls.foldl (Feed.next Sample.discover planBytes) (Feed.start begun)

end Sample

theorem sample_batches_reassemble :
    Reach (Feed.Step Sample.discover Sample.planBytes) (Feed.InTurn Sample.planBytes)
        (Feed.start Sample.begun) (Sample.playFeed Sample.inTurn) ∧
      Feed.Complete Sample.planBytes (Sample.playFeed Sample.inTurn) ∧
      Feed.Unmixed Sample.begun (Sample.playFeed Sample.inTurn) := by
  have hother : Follows Sample.planBytes Sample.before Sample.other :=
    .inl (by decide +kernel)
  have hrun :
      Along (Feed.next Sample.discover Sample.planBytes) (Feed.InTurn Sample.planBytes)
      (Feed.start Sample.begun) Sample.inTurn := by
    refine ⟨fun _ hp => (nomatch hp), trivial, trivial, trivial, ?_, trivial, trivial⟩
    intro p hp
    obtain rfl : Sample.before = p := by
      simpa [Feed.next_published, Feed.Label.added, Feed.start] using hp
    exact hother
  exact ⟨hrun.reach, batches_reassemble hrun.reach⟩

/-- Seventy-two plans of the second publication stand beside eight of the first. -/
theorem republished_batches_mix :
    ∃ w, Reach (Feed.Step Sample.discover Sample.planBytes) (fun _ _ => True)
        (Feed.start Sample.begun) w ∧ ¬Feed.Unmixed Sample.begun w := by
  refine ⟨Sample.playFeed Sample.again, ?_, ?_⟩
  · have hrun : Along (Feed.next Sample.discover Sample.planBytes) (fun _ _ => True)
        (Feed.start Sample.begun) Sample.again :=
          ⟨trivial, trivial, trivial, trivial, trivial, trivial⟩
    exact hrun.reach
  · have hmargins : (Sample.playFeed Sample.again).peer.peerPlans.map (·.marginPerLot) =
        List.replicate 72 "101" ++ List.replicate 8 "100" := by
      decide +kernel
    rintro (hstart | ⟨q, hq, hplans⟩)
    · rw [hstart] at hmargins
      revert hmargins
      decide +kernel
    · have hpub : (Sample.playFeed Sample.again).published =
          [Sample.before, Sample.after] := by
        simp [Sample.playFeed, Sample.again, Feed.next_published,
          Feed.Label.added, Feed.start]
      rw [hplans] at hmargins
      rw [hpub, List.mem_cons, List.mem_singleton] at hq
      obtain rfl | rfl := hq <;>
        · revert hmargins
          decide +kernel

end PairCell.Market
