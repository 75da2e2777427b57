import PairCell.Market.Discovery
import PairCell.Market.Play

/-!
# Agreement on the installed universe

A rediscovery is a two-phase commit: the leader stages a candidate, the follower
verifies, installs and acknowledges it, and the acknowledgement makes the leader
install it.  The two cells agree at rest along every run in which the follower
confirms only what the leader still holds, the leader gives a candidate up only
while the follower has not installed it, and the first universe is not lost.
-/

namespace PairCell.Market

open Lib

/-! ## The condition on a step -/

/-- The leader has installed the universe, or holds it as the candidate of a pending
attempt. -/
def Live (s : Pair) (u : DiscoveredUniverse) : Prop :=
  s.leader.discoveredUniverse = some u ∨
    s.leader.stagedUniverse = some u ∧ s.leader.rediscoveryPending = true

instance (s : Pair) (u : DiscoveredUniverse) : Decidable (Live s u) := by
  unfold Live; infer_instance

/-- Whether a published universe is above the installed one. -/
def Cell.newer (c : Cell) (u : DiscoveredUniverse) : Bool :=
  match c.discoveredUniverse with
  | none => true
  | some installed => decide (installed.universeGeneration < u.universeGeneration)

/-- The universe the follower verifies in a step, with the catalogs it does so by. -/
def examined (s : Pair) : Label → Option (Cell × DiscoveredUniverse)
  | .call .follower (.localCatalog entries) _ =>
      match s.follower.newCatalog entries, s.follower.pendingUniverse with
      | some summary, some u => some (s.follower.setLocalCatalog summary, u)
      | _, _ => none
  | .deliver .follower _ =>
      match s.leader.out.head? with
      | some (.catalogSummary summary) =>
          if s.follower.acceptsCatalog summary then
            s.follower.pendingUniverse.map (s.follower.setPeerCatalog summary, ·)
          else none
      | some (.discovered u) => if s.follower.newer u then some (s.follower, u) else none
      | _ => none
  | .perform .follower =>
      if s.follower.todo.head? = some .installPending then
        s.follower.pendingUniverse.map (s.follower, ·)
      else none
  | _ => none

/-- The leader as it runs a rediscovery in a step. -/
def reruns (s : Pair) : Label → Option Cell
  | .call .leader (.rediscovery _) i => some (s.leader.begin i)
  | .call .leader (.localCatalog entries) i =>
      if s.leader.rediscoveryPending then
        (s.leader.newCatalog entries).map (s.leader.begin i).setLocalCatalog
      else none
  | .deliver .leader i =>
      match s.follower.out.head? with
      | some (.rediscoveryRequest requestId) =>
          if s.leader.answeredRediscovery.map Prod.fst = some requestId then none
          else some (s.leader.begin i)
      | some (.catalogSummary summary) =>
          if s.leader.rediscoveryPending ∧ s.leader.acceptsCatalog summary then
            some ((s.leader.begin i).setPeerCatalog summary)
          else none
      | _ => none
  | _ => none

/-- The leader ends its attempt: it is told of a failure, its deadline is over or it
restarts. -/
def abandons (s : Pair) : Label → Bool
  | .deliver .leader _ =>
      match s.follower.out.head? with
      | some (.rediscoveryResult ok _ _ _ _) => !ok
      | _ => false
  | .perform .leader =>
      decide (s.leader.todo.head? = some .deadline ∧ s.leader.rediscoveryDue = .abandon)
  | .restart .leader .. => true
  | _ => false

/-- The leader's envelopes that are still on their way after a step. -/
def remaining (s : Pair) : Label → List Message
  | .deliver .follower _ => s.leader.out.tail
  | .lose .leader k => s.leader.out.eraseIdx k
  | _ => s.leader.out

variable (discover : Discover) (size : SizingPlan → Nat)

/-- The follower is left without the universe it was about to verify. -/
def drops (s : Pair) (l : Label) : Bool :=
  match l with
  | .lose .leader _ => s.follower.pendingUniverse.isNone
  | .restart .follower .. => true
  | .perform .follower =>
      decide (s.follower.todo.head? = some .deadline ∧
        s.follower.rediscoveryDue = .abandon) ||
        refuses s l
  | _ => refuses s l
where
  refuses (s : Pair) (l : Label) : Bool :=
    (examined s l).any fun x =>
      decide (x.1.verdict discover x.2 ≠ .confirmed ∧
        x.1.verdict discover x.2 ≠ .unverifiable)

structure Permits (s : Pair) (l : Label) : Prop where
  /-- The follower confirms a universe only while the leader holds it. -/
  confirms : ∀ x ∈ examined s l, x.1.verdict discover x.2 = .confirmed → Live s x.2
  /-- The leader gives no candidate up that the follower has installed. -/
  keeps : ∀ u ∈ s.leader.stagedUniverse, s.follower.discoveredUniverse = some u →
    (∀ c ∈ reruns s l, (c.candidate discover true).toOption = some u) ∧
    abandons s l = false
  /-- Until the follower has installed its first universe, one is on its way. -/
  supplies : s.follower.discoveredUniverse = none → s.leader.discoveredUniverse.isSome →
    drops discover s l = true → (remaining s l).any Message.isDiscovered = true

instance (s : Pair) (l : Label) : Decidable (Permits discover s l) :=
  decidable_of_iff
    ((∀ x ∈ examined s l, x.1.verdict discover x.2 = .confirmed → Live s x.2) ∧
      (∀ u ∈ s.leader.stagedUniverse, s.follower.discoveredUniverse = some u →
        (∀ c ∈ reruns s l, (c.candidate discover true).toOption = some u) ∧
          abandons s l = false) ∧
      (s.follower.discoveredUniverse = none → s.leader.discoveredUniverse.isSome →
        drops discover s l = true → (remaining s l).any Message.isDiscovered = true))
    ⟨fun h => ⟨h.1, h.2.1, h.2.2⟩, fun h => ⟨h.confirms, h.keeps, h.supplies⟩⟩

/-! ## The invariant -/

/-- What the follower installs is held by the leader, and an
acknowledgement tells the truth. -/
structure Agreed (s : Pair) : Prop where
  leads : s.leader.role = .leader
  follows : s.follower.role = .follower
  unstaged : s.follower.stagedUniverse = none
  leaderStored : s.leader.Stored
  followerStored : s.follower.Stored
  above : ∀ u ∈ s.leader.stagedUniverse, s.leader.discoveredUniverse.isSome ∧
    ∀ row, s.leader.discoveredUniverse = some row ∨ row ∈ s.leader.universeRows →
      row.universeGeneration < u.universeGeneration
  ahead : ∀ u ∈ s.follower.pendingUniverse, ∀ row ∈ s.follower.universeRows,
    row.universeGeneration < u.universeGeneration
  held : ∀ u ∈ s.follower.discoveredUniverse, Live s u
  acked : ∀ reason generation hash id,
    .rediscoveryResult true reason generation hash id ∈ s.follower.out →
      ∃ u, generation = some u.universeGeneration ∧ hash = some u ∧
        (s.follower.discoveredUniverse = some u ∨
          ∃ l ∈ s.leader.discoveredUniverse, u.universeGeneration ≤ l.universeGeneration)
  supplied : s.follower.discoveredUniverse = none → s.leader.discoveredUniverse.isSome →
    s.follower.pendingUniverse.isSome ∨ s.leader.out.any Message.isDiscovered = true

theorem agreed_fresh : Agreed .fresh where
  leads := rfl
  follows := rfl
  unstaged := rfl
  leaderStored := rfl
  followerStored := rfl
  above u hu := by simp [Pair.fresh, Cell.fresh] at hu
  ahead u hu := by simp [Pair.fresh, Cell.fresh] at hu
  held u hu := by simp [Pair.fresh, Cell.fresh] at hu
  acked reason generation hash id hm := by simp [Pair.fresh, Cell.fresh] at hm
  supplied _ hl := by simp [Pair.fresh, Cell.fresh] at hl

variable {discover size} {s : Pair} {c' : Cell}

private theorem any_discovered {c c' : Cell} (hsent : c.out ⊆ c'.out)
    (h : c.out.any Message.isDiscovered = true) :
    c'.out.any Message.isDiscovered = true := by
  obtain ⟨m, hm, hd⟩ := List.any_eq_true.1 h
  exact List.any_eq_true.2 ⟨m, hsent hm, hd⟩

/-! ## Steps of the leader -/

/-- Nothing of the protocol changes but that an attempt may be pending now. -/
theorem Agreed.leader_same (h : Agreed s) (hrole : c'.role = s.leader.role)
    (hinst : c'.discoveredUniverse = s.leader.discoveredUniverse)
    (hrows : c'.universeRows = s.leader.universeRows)
    (hstaged : c'.stagedUniverse = s.leader.stagedUniverse)
    (hasked : s.leader.rediscoveryPending = true → c'.rediscoveryPending = true)
    (hsent : s.leader.out ⊆ c'.out) : Agreed { s with leader := c' } where
  leads := hrole.trans h.leads
  follows := h.follows
  unstaged := h.unstaged
  leaderStored := h.leaderStored.same hrows hinst
  followerStored := h.followerStored
  above u hu := by
    have hu : u ∈ s.leader.stagedUniverse := hstaged ▸ hu
    obtain ⟨hsome, hlt⟩ := h.above u hu
    refine ⟨by rw [hinst]; exact hsome, fun row hrow => hlt row ?_⟩
    rw [← hinst, ← hrows]
    exact hrow
  ahead := h.ahead
  held u hu := by
    rcases h.held u hu with hl | ⟨hl, hp⟩
    · exact .inl (hinst.trans hl)
    · exact .inr ⟨hstaged.trans hl, hasked hp⟩
  acked reason generation hash id hm := by
    obtain ⟨u, hg, hh, hu⟩ := h.acked reason generation hash id hm
    exact ⟨u, hg, hh, hu.imp_right fun ⟨l, hl, hle⟩ => ⟨l, hinst.symm ▸ hl, hle⟩⟩
  supplied hf hl := by
    rcases h.supplied hf (by rw [← hinst]; exact hl) with hp | hd
    · exact .inl hp
    · exact .inr (any_discovered hsent hd)

/-- The attempt ends while the follower has not installed the candidate. -/
theorem Agreed.leader_failed (h : Agreed s) (hf : Failed s.leader c')
    (hstaged : c'.stagedUniverse = s.leader.stagedUniverse ∨ c'.stagedUniverse = none)
    (hkeep : ∀ u ∈ s.leader.stagedUniverse, s.follower.discoveredUniverse ≠ some u) :
    Agreed { s with leader := c' } where
  leads := hf.role.trans h.leads
  follows := h.follows
  unstaged := h.unstaged
  leaderStored := h.leaderStored.same hf.rows hf.installed
  followerStored := h.followerStored
  above u hu := by
    rcases hstaged with hstaged | hstaged
    · have hu : u ∈ s.leader.stagedUniverse := hstaged ▸ hu
      obtain ⟨hsome, hlt⟩ := h.above u hu
      refine ⟨by rw [hf.installed]; exact hsome, fun row hrow => hlt row ?_⟩
      rw [← hf.installed, ← hf.rows]
      exact hrow
    · rw [hstaged] at hu
      cases hu
  ahead := h.ahead
  held u hu := by
    rcases h.held u hu with hl | ⟨hl, -⟩
    · exact .inl (hf.installed.trans hl)
    · exact absurd hu (hkeep u hl)
  acked reason generation hash id hm := by
    obtain ⟨u, hg, hh, hu⟩ := h.acked reason generation hash id hm
    exact ⟨u, hg, hh, hu.imp_right fun ⟨l, hl, hle⟩ => ⟨l, hf.installed.symm ▸ hl, hle⟩⟩
  supplied hfol hl := by
    rcases h.supplied hfol (by rw [← hf.installed]; exact hl) with hp | hd
    · exact .inl hp
    · exact .inr (any_discovered hf.sent.subset hd)

theorem Agreed.leader_ran (h : Agreed s) (hr : Cell.Ran discover s.leader c')
    (hasked : s.leader.discoveredUniverse.isSome → s.leader.rediscoveryPending = true)
    (hkeep : ∀ u ∈ s.leader.stagedUniverse, s.follower.discoveredUniverse = some u →
      (s.leader.candidate discover true).toOption = some u) :
    Agreed { s with leader := c' } := by
  cases hr with
  | noted hsame _ =>
      exact h.leader_same hsame.role hsame.installed hsame.rows hsame.staged
        (fun hp => hsame.asked.trans hp) hsame.sent.subset
  | refused reason hc hf hstaged _ =>
      refine h.leader_failed hf (.inl hstaged) fun u hu hfol => ?_
      have := hkeep u hu hfol
      rw [hc] at this
      cases this
  | staged u hc hold hu hrole hinst hrows _ hpend _ hsent =>
      have hpend : c'.rediscoveryPending = true := hpend.trans (hasked hold)
      refine ⟨hrole.trans h.leads, h.follows, h.unstaged, h.leaderStored.same hrows hinst,
        h.followerStored, ?_, h.ahead, ?_, ?_, ?_⟩
      · intro v hv
        obtain rfl : u = v := by
          rw [Option.mem_def, hu] at hv
          exact Option.some.inj hv
        refine ⟨by rw [hinst]; exact hold, fun row hrow => ?_⟩
        rw [Cell.candidate_generation hc]
        refine s.leader.lt_nextUniverseGeneration ?_
        rw [← hinst, ← hrows]
        exact hrow
      · intro v hv
        rcases h.held v hv with hl | ⟨hl, -⟩
        · exact .inl (hinst.trans hl)
        · have := hkeep v hl hv
          rw [hc] at this
          obtain rfl : u = v := Option.some.inj this
          exact .inr ⟨hu, hpend⟩
      · intro reason generation hash id hm
        obtain ⟨v, hg, hh, hv⟩ := h.acked reason generation hash id hm
        exact ⟨v, hg, hh, hv.imp_right fun ⟨l, hl, hle⟩ => ⟨l, hinst.symm ▸ hl, hle⟩⟩
      · intro hfol hl
        rcases h.supplied hfol hold with hp | hd
        · exact .inl hp
        · exact .inr (any_discovered hsent.subset hd)
  | first u hc hold hi hstaged hsent hout =>
      have hnone : ∀ v, v ∉ s.leader.stagedUniverse := by
        intro v hv
        have := (h.above v hv).1
        simp [hold] at this
      have hfol : s.follower.discoveredUniverse = none := by
        cases hf : s.follower.discoveredUniverse with
        | none => rfl
        | some v =>
            rcases h.held v hf with hl | ⟨hl, -⟩
            · rw [hold] at hl
              cases hl
            · exact absurd hl (hnone v)
      refine ⟨hi.role.trans h.leads, h.follows, h.unstaged,
        .installed (fun row hrow => ?_) hi, h.followerStored, ?_, h.ahead, ?_, ?_, ?_⟩
      · obtain ⟨l, hl, -⟩ := h.leaderStored.le hrow
        rw [hold] at hl
        cases hl
      · intro v hv
        exact absurd (hstaged ▸ hv) (hnone v)
      · intro v hv
        exact absurd hv (by simp [hfol])
      · intro reason generation hash id hm
        obtain ⟨v, hg, hh, hv⟩ := h.acked reason generation hash id hm
        rcases hv with hv | ⟨l, hl, -⟩
        · rw [hfol] at hv
          cases hv
        · rw [hold] at hl
          cases hl
      · intro _ _
        exact .inr (List.any_eq_true.2 ⟨_, hout, rfl⟩)

/-- An acknowledgement of the candidate was sent when the follower installed it. -/
theorem Agreed.leader_committed (h : Agreed s) {u : DiscoveredUniverse}
    (hu : s.leader.stagedUniverse = some u) (hi : Installed s.leader c' u)
    (hstaged : c'.stagedUniverse = none)
    (hfol : s.follower.discoveredUniverse = some u) : Agreed { s with leader := c' } := by
  obtain ⟨-, hlt⟩ := h.above u hu
  refine ⟨hi.role.trans h.leads, h.follows, h.unstaged,
    .installed (fun row hrow => hlt row (.inr hrow)) hi, h.followerStored, ?_,
    h.ahead, ?_, ?_, ?_⟩
  · intro v hv
    rw [hstaged] at hv
    cases hv
  · intro v hv
    obtain rfl : u = v := by
      rw [Option.mem_def, hfol] at hv
      exact Option.some.inj hv
    exact .inl hi.installed
  · intro reason generation hash id hm
    obtain ⟨v, hg, hh, hv⟩ := h.acked reason generation hash id hm
    refine ⟨v, hg, hh, hv.imp_right fun ⟨l, hl, hle⟩ => ⟨u, hi.installed, ?_⟩⟩
    exact hle.trans (hlt l (.inl hl)).le
  · intro hnone
    rw [hfol] at hnone
    cases hnone

/-! ## Steps of the follower -/

variable {rest : List Message}

/-- The follower's universe stays, with what it waits for and what it acknowledged. -/
theorem Agreed.follower_kept (h : Agreed s) (hrole : c'.role = s.follower.role)
    (hstaged : c'.stagedUniverse = s.follower.stagedUniverse)
    (hinst : c'.discoveredUniverse = s.follower.discoveredUniverse)
    (hrows : c'.universeRows = s.follower.universeRows)
    (hahead : ∀ u ∈ c'.pendingUniverse, ∀ row ∈ s.follower.universeRows,
      row.universeGeneration < u.universeGeneration)
    (hacks : ∀ reason generation hash id,
      .rediscoveryResult true reason generation hash id ∈ c'.out →
        .rediscoveryResult true reason generation hash id ∈ s.follower.out ∨
          ∃ u ∈ s.follower.discoveredUniverse, generation = some u.universeGeneration ∧
            hash = some u)
    (hsup : s.follower.discoveredUniverse = none → s.leader.discoveredUniverse.isSome →
      c'.pendingUniverse.isSome ∨ rest.any Message.isDiscovered = true) :
    Agreed ⟨{ s.leader with out := rest }, c'⟩ where
  leads := h.leads
  follows := hrole.trans h.follows
  unstaged := hstaged.trans h.unstaged
  leaderStored := h.leaderStored
  followerStored := h.followerStored.same hrows hinst
  above := h.above
  ahead u hu row hrow := hahead u hu row (hrows ▸ hrow)
  held u hu := h.held u (hinst ▸ hu)
  acked reason generation hash id hm := by
    rcases hacks reason generation hash id hm with hm | ⟨u, hu, hg, hh⟩
    · obtain ⟨u, hg, hh, hu⟩ := h.acked reason generation hash id hm
      exact ⟨u, hg, hh, hu.imp_left hinst.trans⟩
    · exact ⟨u, hg, hh, .inl (hinst.trans hu)⟩
  supplied hf hl := hsup (hinst ▸ hf) hl

theorem Agreed.follower_same (h : Agreed s) (hrole : c'.role = s.follower.role)
    (hstaged : c'.stagedUniverse = s.follower.stagedUniverse)
    (hinst : c'.discoveredUniverse = s.follower.discoveredUniverse)
    (hrows : c'.universeRows = s.follower.universeRows)
    (hpending : c'.pendingUniverse = s.follower.pendingUniverse ∨
      c'.pendingUniverse = none)
    (hsent : SentNoAck s.follower c')
    (hsup : s.follower.discoveredUniverse = none → s.leader.discoveredUniverse.isSome →
      c'.pendingUniverse.isSome ∨ rest.any Message.isDiscovered = true) :
    Agreed ⟨{ s.leader with out := rest }, c'⟩ := by
  refine h.follower_kept hrole hstaged hinst hrows ?_ ?_ hsup
  · intro u hu
    rcases hpending with hp | hp
    · exact h.ahead u (hp ▸ hu)
    · rw [hp] at hu
      cases hu
  · intro reason generation hash id hm
    exact .inl (hsent.ack hm rfl)

/-- The follower installs a universe the leader holds, and says so. -/
theorem Agreed.follower_installed (h : Agreed s) {u : DiscoveredUniverse}
    (hi : Installed s.follower c' u)
    (hstaged : c'.stagedUniverse = s.follower.stagedUniverse)
    (hnew : ∀ row ∈ s.follower.universeRows, row.universeGeneration < u.universeGeneration)
    (hlive : Live s u) (hacks : ∀ reason generation hash id,
      .rediscoveryResult true reason generation hash id ∈ c'.out →
        .rediscoveryResult true reason generation hash id ∈ s.follower.out ∨
          generation = some u.universeGeneration ∧ hash = some u) :
    Agreed ⟨{ s.leader with out := rest }, c'⟩ where
  leads := h.leads
  follows := hi.role.trans h.follows
  unstaged := hstaged.trans h.unstaged
  leaderStored := h.leaderStored
  followerStored := .installed hnew hi
  above := h.above
  ahead v hv := by
    rw [hi.pending] at hv
    cases hv
  held v hv := by
    obtain rfl : u = v := by
      rw [Option.mem_def, hi.installed] at hv
      exact Option.some.inj hv
    exact hlive
  acked reason generation hash id hm := by
    rcases hacks reason generation hash id hm with hm | ⟨hg, hh⟩
    · -- what was acknowledged before is now below the leader's universe
      obtain ⟨v, hg, hh, hv⟩ := h.acked reason generation hash id hm
      refine ⟨v, hg, hh, .inr ?_⟩
      rcases hv with hv | hv
      · have hlt : v.universeGeneration < u.universeGeneration := by
          have hrow := h.followerStored
          rw [Cell.Stored, hv] at hrow
          exact hnew v (Cell.newestUniverse_top hrow).1
        rcases hlive with hl | ⟨hl, -⟩
        · exact ⟨u, hl, hlt.le⟩
        · rcases h.held v hv with hlv | ⟨hlv, -⟩
          · exact ⟨v, hlv, le_refl _⟩
          · rw [hl] at hlv
            obtain rfl := Option.some.inj hlv
            omega
      · exact hv
    · exact ⟨u, hg, hh, .inl hi.installed⟩
  supplied hf := by
    rw [hi.installed] at hf
    cases hf

theorem Agreed.follower_verified (h : Agreed s) {d : Cell} {u : DiscoveredUniverse}
    (hd : d.role = s.follower.role ∧ d.stagedUniverse = s.follower.stagedUniverse ∧
      d.discoveredUniverse = s.follower.discoveredUniverse ∧
      d.universeRows = s.follower.universeRows ∧ SentNoAck s.follower d)
    (hu : d.pendingUniverse = some u)
    (hnew : ∀ row ∈ s.follower.universeRows, row.universeGeneration < u.universeGeneration)
    (hlive : d.verdict discover u = .confirmed → Live s u)
    (hsup : s.follower.discoveredUniverse = none → s.leader.discoveredUniverse.isSome →
      d.verdict discover u ≠ .confirmed → d.verdict discover u ≠ .unverifiable →
        rest.any Message.isDiscovered = true) :
    Agreed ⟨{ s.leader with out := rest }, d.maybeInstallPendingUniverse discover⟩ := by
  obtain ⟨hrole, hd, hinst, hrows, hsent⟩ := hd
  cases @Cell.maybeInstallPendingUniverse_verified _ discover _
    (hrole.trans h.follows) hu with
  | waiting hsame =>
      refine h.follower_kept (hsame.role.trans hrole) (hsame.staged.trans hd)
        (hsame.installed.trans hinst)
        (hsame.rows.trans hrows) ?_ ?_ ?_
      · intro v hv
        rw [hsame.pending, hu] at hv
        obtain rfl := Option.some.inj hv
        exact hnew
      · intro reason generation hash id hm
        exact .inl ((hsent.trans hsame.sent).ack hm rfl)
      · intro _ _
        rw [hsame.pending, hu]
        exact .inl rfl
  | refused reason hv hf hs hp =>
      refine h.follower_kept (hf.role.trans hrole) (hs.trans hd) (hf.installed.trans hinst)
        (hf.rows.trans hrows) ?_ ?_ ?_
      · intro v hmem
        rw [hp] at hmem
        cases hmem
      · intro reason generation hash id hm
        exact .inl ((hsent.trans hf.sent).ack hm rfl)
      · intro hfol hl
        exact .inr (hsup hfol hl (by simp [hv]) (by simp [hv]))
  | confirmed hv hi hs hout =>
      obtain ⟨id, hout⟩ := hout
      have hi : Installed s.follower (d.maybeInstallPendingUniverse discover) u :=
        ⟨hi.role.trans hrole, hi.installed, by rw [hi.rows, hrows], hi.pending,
          hi.asked, hi.failure⟩
      refine h.follower_installed hi (hs.trans hd) hnew (hlive hv) fun reason generation
        hash id' hm => ?_
      rw [hout] at hm
      rcases List.mem_append.1 hm with hm | hm
      · exact .inl (hsent.ack hm rfl)
      · rw [List.mem_singleton] at hm
        cases hm
        exact .inr ⟨rfl, rfl⟩

/-! ## Every step -/

private theorem verdict_congr {c d : Cell} (h : d.catalogsByRole = c.catalogsByRole)
    (u : DiscoveredUniverse) : d.verdict discover u = c.verdict discover u := by
  rw [Cell.verdict, Cell.verdict, h]

/-- What a discovery run reads beside the known generations. -/
structure SameWork (c c' : Cell) : Prop where
  catalogs : c'.catalogsByRole = c.catalogsByRole
  peerCatalog : c'.peerCatalog = c.peerCatalog
  facts : c'.facts = c.facts
  attempt : c'.attempt = c.attempt
  attempts : c'.attempts = c.attempts
  empty : c'.peerEmptyClaim = c.peerEmptyClaim
  nothing : c'.peerNothingUnresolved = c.peerNothingUnresolved

theorem candidate_congr {c d : Cell} (hw : SameWork c d)
    (hinst : d.discoveredUniverse = c.discoveredUniverse)
    (hrows : d.universeRows = c.universeRows) :
    d.candidate discover true = c.candidate discover true := by
  have hwork : d.unresolvedLocalWork = c.unresolvedLocalWork := by
    rw [Cell.unresolvedLocalWork, Cell.unresolvedLocalWork, Cell.openAttempts,
      Cell.openAttempts, hw.facts, hw.attempt, hw.attempts]
  have hblocked : d.rediscoveryBlocked = c.rediscoveryBlocked := by
    rw [Cell.rediscoveryBlocked, Cell.rediscoveryBlocked, hw.facts, hwork,
      hw.empty, hw.nothing]
  have hnext : d.nextUniverseGeneration = c.nextUniverseGeneration := by
    rw [Cell.nextUniverseGeneration, Cell.nextUniverseGeneration, hinst, hrows]
  rw [Cell.candidate, Cell.candidate, hw.catalogs, hblocked, hnext]

theorem publishCatalogSummary_work (c : Cell) : SameWork c c.publishCatalogSummary := by
  unfold Cell.publishCatalogSummary
  split
  · exact ⟨rfl, rfl, rfl, rfl, rfl, rfl, rfl⟩
  · split
    · exact ⟨rfl, rfl, rfl, rfl, rfl, rfl, rfl⟩
    · exact ⟨rfl, rfl, rfl, rfl, rfl, rfl, rfl⟩

theorem notePeerPublisherEpoch_work (c : Cell) (epoch : Nat) :
    SameWork c (c.notePeerPublisherEpoch epoch) := by
  unfold Cell.notePeerPublisherEpoch
  split
  · exact ⟨rfl, rfl, rfl, rfl, rfl, rfl, rfl⟩
  · exact ⟨rfl, rfl, rfl, rfl, rfl, rfl, rfl⟩

theorem startRediscovery_work (c : Cell) : SameWork c c.startRediscovery :=
  ⟨rfl, rfl, rfl, rfl, rfl, rfl, rfl⟩

theorem setPeerCatalog_work {c d : Cell} (hw : SameWork c d) (hrole : d.role = c.role)
    (hlocal : d.localCatalog = c.localCatalog) (summary : CatalogSummary) :
    SameWork (c.setPeerCatalog summary) (d.setPeerCatalog summary) := by
  refine ⟨?_, rfl, hw.facts, hw.attempt, hw.attempts, hw.empty, hw.nothing⟩
  simp only [Cell.catalogsByRole, Cell.setPeerCatalog, hlocal, hrole]

theorem notePeerPublisherEpoch_local (c : Cell) (epoch : Nat) :
    (c.notePeerPublisherEpoch epoch).localCatalog = c.localCatalog := by
  unfold Cell.notePeerPublisherEpoch
  split
  · rfl
  · rfl

theorem Agreed.todo_leader (h : Agreed s) (ops : List Op) :
    Agreed { s with leader := { s.leader with todo := ops } } :=
  ⟨h.leads, h.follows, h.unstaged, h.leaderStored, h.followerStored, h.above, h.ahead,
    h.held, h.acked, h.supplied⟩

theorem Agreed.todo_follower (h : Agreed s) (ops : List Op) :
    Agreed { s with follower := { s.follower with todo := ops } } :=
  ⟨h.leads, h.follows, h.unstaged, h.leaderStored, h.followerStored, h.above, h.ahead,
    h.held, h.acked, h.supplied⟩

/-- Envelopes of the follower that are delivered or lost. -/
theorem Agreed.follower_out (h : Agreed s) (hsub : rest ⊆ s.follower.out) :
    Agreed { s with follower := { s.follower with out := rest } } :=
  ⟨h.leads, h.follows, h.unstaged, h.leaderStored, h.followerStored, h.above,
    h.ahead, h.held,
    fun reason generation hash id hm =>
      h.acked reason generation hash id (hsub hm), h.supplied⟩

theorem Agreed.leader_quiet (h : Agreed s) (hsame : SameDiscovery s.leader c') :
    Agreed { s with leader := c' } :=
  h.leader_same hsame.role hsame.installed hsame.rows hsame.staged
    (fun hp => hsame.asked.trans hp) hsame.sent.subset

theorem Agreed.follower_quiet (h : Agreed s) (hsame : SameDiscovery s.follower c') :
    Agreed { s with follower := c' } := by
  refine @Agreed.follower_same s _ s.leader.out h hsame.role hsame.staged
    hsame.installed hsame.rows
    (.inl hsame.pending) hsame.sent fun hf hl => ?_
  rw [hsame.pending]
  exact h.supplied hf hl

/-- The leader runs a discovery after parts that leave the protocol alone. -/
theorem Agreed.leader_rerun (h : Agreed s) {d : Cell} (serving : Option Nat)
    (hrole : d.role = s.leader.role)
    (hinst : d.discoveredUniverse = s.leader.discoveredUniverse)
    (hrows : d.universeRows = s.leader.universeRows)
    (hstaged : d.stagedUniverse = s.leader.stagedUniverse)
    (hmono : s.leader.rediscoveryPending = true → d.rediscoveryPending = true)
    (hasked : d.discoveredUniverse.isSome → d.rediscoveryPending = true)
    (hsent : s.leader.out ⊆ d.out)
    (hkeep : ∀ u ∈ s.leader.stagedUniverse, s.follower.discoveredUniverse = some u →
      (d.candidate discover true).toOption = some u) :
    Agreed { s with leader := d.runDiscovery discover serving } := by
  have first : Agreed { s with leader := d } :=
    h.leader_same hrole hinst hrows hstaged hmono hsent
  exact first.leader_ran (Cell.runDiscovery_ran (hrole.trans h.leads) serving) hasked
    (fun u hu => hkeep u (hstaged ▸ hu))

theorem Agreed.leader_discovers (h : Agreed s) {d : Cell}
    (hrole : d.role = s.leader.role)
    (hinst : d.discoveredUniverse = s.leader.discoveredUniverse)
    (hrows : d.universeRows = s.leader.universeRows)
    (hstaged : d.stagedUniverse = s.leader.stagedUniverse)
    (hasked : d.rediscoveryPending = s.leader.rediscoveryPending)
    (hsent : s.leader.out ⊆ d.out)
    (hkeep : d.rediscoveryPending = true → ∀ u ∈ s.leader.stagedUniverse,
      s.follower.discoveredUniverse = some u →
      (d.candidate discover true).toOption = some u) :
    Agreed { s with leader := d.maybeDiscover discover } := by
  rw [Cell.maybeDiscover, hrole.trans h.leads]
  dsimp only
  have hmono : s.leader.rediscoveryPending = true →
      d.rediscoveryPending = true := hasked.trans
  split
  · next hrun =>
      refine h.leader_rerun none hrole hinst hrows hstaged hmono ?_ hsent ?_
      · intro hsome
        rcases hrun with hnone | hp
        · rw [Option.isNone_iff_eq_none.1 hnone] at hsome
          cases hsome
        · exact hp
      · intro u hu
        refine hkeep ?_ u hu
        rcases hrun with hnone | hp
        · have := (h.above u hu).1
          rw [← hinst, Option.isNone_iff_eq_none.1 hnone] at this
          cases this
        · exact hp
  · exact h.leader_same hrole hinst hrows hstaged hmono hsent

theorem Agreed.call_leader (h : Agreed s) {event : Event} {i : Inputs}
    (hok : Permits discover s (.call .leader event i)) :
    Agreed { s with leader := (s.leader.begin i).handle discover event } := by
  have hb := s.leader.begin_same i
  cases event with
  | tick => exact h.leader_quiet hb
  | peerReconnected nonce => exact h.leader_quiet (hb.trans (Cell.requestReseed_same _ _))
  | policyAccepted policy =>
      exact h.leader_quiet ⟨rfl, rfl, rfl, rfl, rfl, rfl, rfl, .of_out rfl⟩
  | rediscovery requestId =>
      rw [Cell.handle, Cell.handleRediscoveryRequest, hb.role.trans h.leads]
      refine h.leader_rerun none hb.role rfl rfl rfl (fun _ => rfl) (fun _ => rfl)
        (List.Subset.refl _) fun u hu hfol => ?_
      have hc := (hok.keeps u hu hfol).1 _ (by rw [reruns]; rfl)
      rw [candidate_congr (startRediscovery_work _) rfl rfl]
      exact hc
  | localCatalog entries =>
      rw [Cell.handle, Cell.acceptLocalCatalog]
      split
      · exact h.leader_quiet hb
      · next summary hnew =>
          have hset :
              SameDiscovery s.leader ((s.leader.begin i).setLocalCatalog summary) :=
            ⟨rfl, rfl, rfl, rfl, rfl, rfl, rfl, .of_out rfl⟩
          have hsame := hset.trans (Cell.publishCatalogSummary_same _)
          refine h.leader_discovers hsame.role hsame.installed hsame.rows hsame.staged
            hsame.asked hsame.sent.subset fun hp u hu hfol => ?_
          have hc :=
            (hok.keeps u hu hfol).1 ((s.leader.begin i).setLocalCatalog summary) (by
            rw [reruns, if_pos (hsame.asked.symm.trans hp)]
            exact congrArg (Option.map _) hnew)
          rw [candidate_congr (publishCatalogSummary_work _) hsame.installed hsame.rows]
          exact hc

/-- The follower's answer reaches the leader. -/
theorem Agreed.leader_result (h : Agreed s) {i : Inputs} {ok : Bool} {reason : String}
    {generation : Option Nat} {hash : Option DiscoveredUniverse} {id : Option Nat}
    (hm : .rediscoveryResult ok reason generation hash id ∈ s.follower.out)
    (hkeep : ok = false → ∀ u ∈ s.leader.stagedUniverse,
      s.follower.discoveredUniverse ≠ some u) :
    Agreed { s with leader :=
      (s.leader.begin i).acceptRediscoveryResult ok reason generation hash id } := by
  have hb := s.leader.begin_same i
  rw [Cell.acceptRediscoveryResult]
  split
  · next hok =>
      subst hok
      rw [Cell.commitStagedUniverse]
      split
      · exact h.leader_quiet hb
      · next staged hstaged =>
          split
          · next heq =>
              have hu : staged ∈ s.leader.stagedUniverse := hb.staged.symm.trans hstaged
              obtain ⟨-, hlt⟩ := h.above staged hu
              obtain ⟨u, -, hh, hacked⟩ := h.acked reason generation hash id hm
              obtain rfl : u = staged := Option.some.inj (hh.symm.trans heq.2)
              have hfol : s.follower.discoveredUniverse = some u := by
                rcases hacked with hfol | ⟨l, hl, hle⟩
                · exact hfol
                · exact absurd (hlt l (.inl hl)) (not_lt.2 hle)
              exact h.leader_committed hu ⟨rfl, rfl, rfl, rfl, rfl, rfl⟩ rfl hfol
          · exact h.leader_quiet hb
  · next hok =>
      split
      · exact h.leader_quiet hb
      · exact h.leader_failed ⟨rfl, rfl, rfl, rfl, .of_out rfl⟩ (.inr rfl)
          (hkeep (by simpa using hok))

theorem Agreed.deliver_leader (h : Agreed s) {i : Inputs} {m : Message}
    (hout : s.follower.out = m :: rest) (hok : Permits discover s (.deliver .leader i)) :
    Agreed { s with leader := (s.leader.begin i).acceptRelayEnvelope discover m } := by
  have hb := s.leader.begin_same i
  have hhead : s.follower.out.head? = some m := by rw [hout]; rfl
  cases m with
  | other => exact h.leader_quiet hb
  | readiness r => exact h.leader_quiet ⟨rfl, rfl, rfl, rfl, rfl, rfl, rfl, .of_out rfl⟩
  | attempt a => exact h.leader_quiet (hb.trans (Cell.handleAttempt_same _ a))
  | reseedRequest nonce =>
      exact h.leader_quiet (hb.trans (Cell.acceptReseedRequest_same _ nonce))
  | remainingAllowance epoch _ _ =>
      exact h.leader_quiet (hb.trans (Cell.notePeerPublisherEpoch_same _ epoch))
  | sizingPlans version generation index count plans =>
      exact h.leader_quiet (hb.trans (Cell.acceptPeerPlanBatch_same ..))
  | discovered u =>
      rw [Cell.acceptRelayEnvelope, Cell.acceptUniverse, hb.role.trans h.leads]
      exact h.leader_quiet hb
  | rediscoveryResult ok reason generation hash id =>
      refine h.leader_result (by rw [hout]; exact List.mem_cons_self) fun hfalse
        u hu hfol => ?_
      have := (hok.keeps u hu hfol).2
      rw [abandons, hhead, hfalse] at this
      cases this
  | rediscoveryRequest requestId =>
      rw [Cell.acceptRelayEnvelope, Cell.serveRediscoveryRequest,
        if_neg (by simp [hb.role.trans h.leads])]
      have hserve : s.leader.answeredRediscovery.map Prod.fst ≠ some requestId →
          Agreed { s with
            leader := (s.leader.begin i).serveNewRequest discover requestId } := by
        intro hnew
        refine h.leader_rerun (some requestId) hb.role rfl rfl rfl (fun _ => rfl)
          (fun _ => rfl)
          (List.Subset.refl _) fun u hu hfol => ?_
        have hc := (hok.keeps u hu hfol).1 (s.leader.begin i) (by
          rw [reruns, hhead]
          exact if_neg hnew)
        rw [candidate_congr (startRediscovery_work _) rfl rfl]
        exact hc
      split
      · next answered answer hans =>
          have hans : s.leader.answeredRediscovery = some (answered, answer) := hans
          split
          · exact h.leader_same hb.role rfl rfl rfl id (List.subset_append_left _ _)
          · next hne => exact hserve (by rw [hans]; simpa using hne)
      · next hans =>
          have hans : s.leader.answeredRediscovery = none := hans
          exact hserve (by simp [hans])
  | catalogSummary summary =>
      rw [Cell.acceptRelayEnvelope, Cell.acceptPeerCatalog]
      have hnote := (s.leader.begin i).notePeerPublisherEpoch_same summary.publisherEpoch
      have hwork := notePeerPublisherEpoch_work (s.leader.begin i) summary.publisherEpoch
      split
      · next hacc =>
          have hsame := hb.trans hnote
          refine h.leader_discovers hsame.role hsame.installed hsame.rows hsame.staged
            hsame.asked hsame.sent.subset fun hp u hu hfol => ?_
          have hacc : s.leader.acceptsCatalog summary = true := by
            rw [Cell.acceptsCatalog, hwork.peerCatalog] at hacc
            exact hacc
          have hc :=
            (hok.keeps u hu hfol).1 ((s.leader.begin i).setPeerCatalog summary) (by
            rw [reruns, hhead]
            exact if_pos ⟨hsame.asked.symm.trans hp, hacc⟩)
          have hset := setPeerCatalog_work hwork hnote.role
            (notePeerPublisherEpoch_local _ _) summary
          rw [candidate_congr hset hnote.installed hnote.rows]
          exact hc
      · exact h.leader_quiet (hb.trans hnote)

private theorem refuses_of_mem {l : Label} {x : Cell × DiscoveredUniverse}
    (hx : x ∈ examined s l) (hne : x.1.verdict discover x.2 ≠ .confirmed)
    (hne' : x.1.verdict discover x.2 ≠ .unverifiable) :
    drops.refuses discover s l = true := by
  rw [drops.refuses, Option.mem_def.1 hx]
  simp [hne, hne']

/-- The follower verifies what it holds by new catalogs. -/
theorem Agreed.follower_reexamines (h : Agreed s) {d : Cell} {l : Label} {c : Cell}
    (hsame : SameDiscovery s.follower d) (hcat : d.catalogsByRole = c.catalogsByRole)
    (hex : examined s l = s.follower.pendingUniverse.map (c, ·))
    (hrest : remaining s l = rest) (hok : Permits discover s l)
    (hdrop : ∀ x ∈ examined s l, x.1.verdict discover x.2 ≠ .confirmed →
      x.1.verdict discover x.2 ≠ .unverifiable → drops discover s l = true)
    (hsup : s.follower.pendingUniverse = none → s.follower.discoveredUniverse = none →
      s.leader.discoveredUniverse.isSome → rest.any Message.isDiscovered = true) :
    Agreed ⟨{ s.leader with out := rest }, d.maybeInstallPendingUniverse discover⟩ := by
  cases hu : s.follower.pendingUniverse with
  | none =>
      rw [Cell.maybeInstallPendingUniverse_idle (.inr (hsame.pending.trans hu))]
      exact h.follower_same hsame.role hsame.staged hsame.installed hsame.rows
        (.inl hsame.pending) hsame.sent
        fun hf hl => .inr (hsup hu hf hl)
  | some u =>
      have hx : (c, u) ∈ examined s l := by rw [hex, hu]; rfl
      have hv : d.verdict discover u = c.verdict discover u := verdict_congr hcat u
      refine h.follower_verified ⟨hsame.role, hsame.staged, hsame.installed,
        hsame.rows, hsame.sent⟩
        (hsame.pending.trans hu) (h.ahead u hu) ?_ ?_
      · intro hconf
        exact hok.confirms _ hx (hv.symm.trans hconf)
      · intro hf hl hne hne'
        rw [hv] at hne hne'
        rw [← hrest]
        exact hok.supplies hf hl (hdrop _ hx hne hne')

theorem Agreed.call_follower (h : Agreed s) {event : Event} {i : Inputs}
    (hok : Permits discover s (.call .follower event i)) :
    Agreed { s with follower := (s.follower.begin i).handle discover event } := by
  have hb := s.follower.begin_same i
  cases event with
  | tick => exact h.follower_quiet hb
  | peerReconnected nonce =>
      exact h.follower_quiet (hb.trans (Cell.requestReseed_same _ _))
  | policyAccepted policy =>
      exact h.follower_quiet ⟨rfl, rfl, rfl, rfl, rfl, rfl, rfl, .of_out rfl⟩
  | rediscovery requestId =>
      rw [Cell.handle, Cell.handleRediscoveryRequest, hb.role.trans h.follows]
      exact @Agreed.follower_same s _ s.leader.out h hb.role rfl rfl rfl (.inl rfl)
        ⟨_, rfl, by simp [Message.isAck]⟩ h.supplied
  | localCatalog entries =>
      rw [Cell.handle, Cell.acceptLocalCatalog]
      split
      · exact h.follower_quiet hb
      · next summary hnew =>
          have hset :
              SameDiscovery s.follower ((s.follower.begin i).setLocalCatalog summary) :=
            ⟨rfl, rfl, rfl, rfl, rfl, rfl, rfl, .of_out rfl⟩
          have hsame := hset.trans (Cell.publishCatalogSummary_same _)
          have hex : examined s (.call .follower (.localCatalog entries) i) =
              s.follower.pendingUniverse.map (s.follower.setLocalCatalog summary, ·) := by
            have hnew : s.follower.newCatalog entries = some summary := hnew
            rw [examined, hnew]
            cases s.follower.pendingUniverse with
            | none => rfl
            | some u => rfl
          rw [Cell.maybeDiscover, hsame.role.trans h.follows]
          refine @Agreed.follower_reexamines discover s s.leader.out h _ _ _ hsame ?_
            hex rfl hok ?_ ?_
          · exact (publishCatalogSummary_work _).catalogs
          · exact fun x hx => refuses_of_mem hx
          · intro hp hf hl
            simpa [hp] using h.supplied hf hl

theorem Agreed.deliver_follower (h : Agreed s) {i : Inputs} {m : Message}
    (hout : s.leader.out = m :: rest) (hok : Permits discover s (.deliver .follower i)) :
    Agreed ⟨{ s.leader with out := rest },
      (s.follower.begin i).acceptRelayEnvelope discover m⟩ := by
  have hb := s.follower.begin_same i
  have hhead : s.leader.out.head? = some m := by rw [hout]; rfl
  have hrest : remaining s (.deliver .follower i) = rest := by rw [remaining, hout]; rfl
  -- an envelope other than a universe is no copy of one
  have hcopy : m.isDiscovered = false → s.follower.discoveredUniverse = none →
      s.leader.discoveredUniverse.isSome →
      s.follower.pendingUniverse.isSome ∨ rest.any Message.isDiscovered = true := by
    intro hm hf hl
    simpa [hout, hm] using h.supplied hf hl
  have hquiet : ∀ d : Cell, m.isDiscovered = false → SameDiscovery s.follower d →
      Agreed ⟨{ s.leader with out := rest }, d⟩ := by
    intro d hm hsame
    refine h.follower_same hsame.role hsame.staged hsame.installed hsame.rows
      (.inl hsame.pending) hsame.sent ?_
    rw [hsame.pending]
    exact hcopy hm
  cases m with
  | other => exact hquiet _ rfl hb
  | readiness r => exact hquiet _ rfl ⟨rfl, rfl, rfl, rfl, rfl, rfl, rfl, .of_out rfl⟩
  | attempt a => exact hquiet _ rfl (hb.trans (Cell.handleAttempt_same _ a))
  | reseedRequest nonce =>
      exact hquiet _ rfl (hb.trans (Cell.acceptReseedRequest_same _ nonce))
  | remainingAllowance epoch _ _ =>
      exact hquiet _ rfl (hb.trans (Cell.notePeerPublisherEpoch_same _ epoch))
  | sizingPlans version generation index count plans =>
      exact hquiet _ rfl (hb.trans (Cell.acceptPeerPlanBatch_same ..))
  | rediscoveryRequest requestId =>
      rw [Cell.acceptRelayEnvelope, Cell.serveRediscoveryRequest,
        if_pos (by simp [hb.role.trans h.follows])]
      exact hquiet _ rfl hb
  | rediscoveryResult ok reason generation hash id =>
      rw [Cell.acceptRelayEnvelope, Cell.acceptRediscoveryResult]
      split
      · rw [Cell.commitStagedUniverse]
        split
        · exact hquiet _ rfl hb
        · next staged hstaged =>
            have := (hb.staged.trans h.unstaged).symm.trans hstaged
            cases this
      · split
        · exact hquiet _ rfl hb
        · exact h.follower_same hb.role h.unstaged.symm rfl rfl (.inl rfl)
            (.of_out rfl) (hcopy rfl)
  | catalogSummary summary =>
      rw [Cell.acceptRelayEnvelope, Cell.acceptPeerCatalog]
      have hnote := (s.follower.begin i).notePeerPublisherEpoch_same summary.publisherEpoch
      have hwork := notePeerPublisherEpoch_work (s.follower.begin i) summary.publisherEpoch
      have hsame := hb.trans hnote
      split
      · next hacc =>
          have hacc : s.follower.acceptsCatalog summary = true := by
            rw [Cell.acceptsCatalog, hwork.peerCatalog] at hacc
            exact hacc
          have hset := setPeerCatalog_work hwork hnote.role
            (notePeerPublisherEpoch_local _ _) summary
          have hex : examined s (.deliver .follower i) =
              s.follower.pendingUniverse.map (s.follower.setPeerCatalog summary, ·) := by
            rw [examined, hhead]
            exact if_pos hacc
          have hsame : SameDiscovery s.follower
              (((s.follower.begin i).notePeerPublisherEpoch
                summary.publisherEpoch).setPeerCatalog
                summary) :=
            hsame.trans ⟨rfl, rfl, rfl, rfl, rfl, rfl, rfl, .of_out rfl⟩
          rw [Cell.maybeDiscover, hsame.role.trans h.follows]
          refine h.follower_reexamines (c := s.follower.setPeerCatalog summary)
            hsame hset.catalogs
            hex hrest hok
            (fun x hx => refuses_of_mem hx) fun hp hf hl => ?_
          simpa [hp] using hcopy rfl hf hl
      · exact hquiet _ rfl hsame
  | discovered u =>
      have hverify : s.follower.newer u = true →
          (∀ row ∈ s.follower.universeRows, row.universeGeneration <
            u.universeGeneration) →
          Agreed ⟨{ s.leader with out := rest },
            (s.follower.begin i |>.setPendingUniverse u
              |>.maybeInstallPendingUniverse discover)⟩ := by
        intro hnewer hrows
        have hx : (s.follower, u) ∈ examined s (.deliver .follower i) := by
          rw [examined, hhead]
          exact if_pos hnewer
        refine h.follower_verified ⟨rfl, rfl, rfl, rfl, .of_out rfl⟩ rfl hrows
          (hok.confirms _ hx) ?_
        intro hf hl hne hne'
        rw [← hrest]
        exact hok.supplies hf hl (refuses_of_mem hx hne hne')
      rw [Cell.acceptRelayEnvelope, Cell.acceptUniverse,
        hb.role.trans h.follows, hb.installed]
      cases hf : s.follower.discoveredUniverse with
      | none =>
          refine hverify (by rw [Cell.newer, hf]) fun row hrow => ?_
          obtain ⟨v, hv, -⟩ := h.followerStored.le hrow
          rw [hf] at hv
          cases hv
      | some installed =>
          have hsome : s.follower.discoveredUniverse = none →
              s.leader.discoveredUniverse.isSome →
              s.follower.pendingUniverse.isSome ∨
              rest.any Message.isDiscovered = true := by
            intro hnone
            rw [hf] at hnone
            cases hnone
          dsimp only
          split
          · exact h.follower_same hb.role rfl rfl rfl (.inl rfl) (.of_out rfl) hsome
          · next hge =>
              split
              · -- the universe in force is acknowledged again
                refine h.follower_kept hb.role rfl rfl rfl h.ahead ?_ hsome
                intro reason generation hash id hm
                rcases List.mem_append.1 hm with hm | hm
                · exact .inl hm
                · rw [List.mem_singleton] at hm
                  cases hm
                  exact .inr ⟨installed, hf, rfl, rfl⟩
              · next hne =>
                  have hlt : installed.universeGeneration <
                      u.universeGeneration := by omega
                  refine hverify (by simp [Cell.newer, hf, hlt]) fun row hrow => ?_
                  obtain ⟨v, hv, hle⟩ := h.followerStored.le hrow
                  rw [hf] at hv
                  obtain rfl := Option.some.inj hv
                  exact lt_of_le_of_lt hle hlt

theorem Agreed.perform_leader (h : Agreed s) {op : Op} {ops : List Op}
    (htodo : s.leader.todo = op :: ops) (hok : Permits discover s (.perform .leader)) :
    Agreed { s with leader := s.leader.perform discover size op } := by
  cases op with
  | installPending =>
      rw [Cell.perform, Cell.maybeInstallPendingUniverse_idle (.inl h.leads)]
      exact h
  | refresh built => exact h.leader_quiet (s.leader.refreshSizingPlans_same built)
  | publish => exact h.leader_quiet (s.leader.maybePublishState_same size)
  | create k => exact h.leader_quiet (s.leader.maybeCreateAttempt_same k)
  | finish => exact h.leader_quiet s.leader.terminateAttempt_same
  | deadline =>
      rw [Cell.perform, Cell.enforceRediscoveryDeadline]
      cases hdue : s.leader.rediscoveryDue with
      | nothing => exact h
      | abandon =>
          refine h.leader_failed ⟨rfl, rfl, rfl, rfl,
            ⟨_, rfl, by simp [Message.isAck]⟩⟩ (.inr rfl) ?_
          intro u hu hfol
          have := (hok.keeps u hu hfol).2
          rw [abandons, htodo, hdue] at this
          simp at this
      | retry =>
          dsimp only
          split
          · exact h.leader_same rfl rfl rfl rfl id (List.subset_append_left _ _)
          · exact h.leader_same rfl rfl rfl rfl id (List.subset_append_left _ _)
          · exact h.leader_same rfl rfl rfl rfl id (List.Subset.refl _)

theorem Agreed.perform_follower (h : Agreed s) {op : Op} {ops : List Op}
    (htodo : s.follower.todo = op :: ops) (hok : Permits discover s (.perform .follower)) :
    Agreed { s with follower := s.follower.perform discover size op } := by
  have hhead : s.follower.todo.head? = some op := by rw [htodo]; rfl
  cases op with
  | installPending =>
      have hex : examined s (.perform .follower) =
          s.follower.pendingUniverse.map (s.follower, ·) := by
        rw [examined]
        exact if_pos hhead
      refine @Agreed.follower_reexamines discover s s.leader.out h _ _ _ (.refl _) rfl
        hex rfl hok ?_ ?_
      · intro x hx hne hne'
        rw [drops, refuses_of_mem hx hne hne', Bool.or_true]
      · intro hp hf hl
        simpa [hp] using h.supplied hf hl
  | refresh built => exact h.follower_quiet (s.follower.refreshSizingPlans_same built)
  | publish => exact h.follower_quiet (s.follower.maybePublishState_same size)
  | create k => exact h.follower_quiet (s.follower.maybeCreateAttempt_same k)
  | finish => exact h.follower_quiet s.follower.terminateAttempt_same
  | deadline =>
      rw [Cell.perform, Cell.enforceRediscoveryDeadline]
      cases hdue : s.follower.rediscoveryDue with
      | nothing => exact h
      | abandon =>
          refine @Agreed.follower_same s _ s.leader.out h rfl h.unstaged.symm rfl
            rfl (.inr rfl)
            ⟨_, rfl, by simp [Message.isAck]⟩ fun hf hl => .inr ?_
          refine hok.supplies hf hl ?_
          rw [drops, hhead, hdue]
          simp
      | retry =>
          dsimp only
          split
          · exact @Agreed.follower_same s _ s.leader.out h rfl rfl rfl rfl (.inl rfl)
              ⟨_, rfl, by simp [Message.isAck]⟩ h.supplied
          · exact @Agreed.follower_same s _ s.leader.out h rfl rfl rfl rfl (.inl rfl)
              ⟨_, rfl, by simp [Message.isAck]⟩ h.supplied
          · exact @Agreed.follower_same s _ s.leader.out h rfl rfl rfl rfl
              (.inl rfl) (.of_out rfl)
              h.supplied

/-- A reopened cell has the universe it had installed and nothing it was waiting for. -/
private theorem reopen_failed {c : Cell} (h : c.Stored) (at' : Nat) :
    Failed c (c.reopen at') ∧ (c.reopen at').stagedUniverse = none ∧
      (c.reopen at').pendingUniverse = none ∧
      (c.reopen at').rediscoveryFailure = none := by
  suffices hopened : (c.reopen at').role = c.role ∧
      (c.reopen at').discoveredUniverse = Cell.newestUniverse c.universeRows ∧
      (c.reopen at').universeRows = c.universeRows ∧
      (c.reopen at').rediscoveryPending = false ∧
      (c.reopen at').out = c.out ∧ (c.reopen at').stagedUniverse = none ∧
      (c.reopen at').pendingUniverse = none ∧ (c.reopen at').rediscoveryFailure = none by
    obtain ⟨hrole, hinst, hrows, hasked, hout, hstaged, hpending, hfailure⟩ := hopened
    exact ⟨⟨hrole, hinst.trans h, hrows, hasked, .of_out hout⟩, hstaged,
      hpending, hfailure⟩
  unfold Cell.reopen
  dsimp only
  split
  · exact ⟨rfl, rfl, rfl, rfl, rfl, rfl, rfl, rfl⟩
  · exact ⟨rfl, rfl, rfl, rfl, rfl, rfl, rfl, rfl⟩

private theorem restart_same (c : Cell) (at' nonce : Nat) (legless : Bool) (i : Inputs) :
    SameDiscovery (c.reopen at') (c.restart at' nonce legless i) := by
  have hterm : SameDiscovery (c.reopen at')
      (if legless then (c.reopen at').terminateAttempt else c.reopen at') := by
    split
    · exact Cell.terminateAttempt_same _
    · exact .refl _
  have hseed := hterm.trans (Cell.requestReseed_same _ (some nonce))
  exact ⟨hseed.role, hseed.installed, hseed.staged, hseed.pending, hseed.rows, hseed.asked,
    hseed.failure, hseed.sent⟩

private theorem restart_failed {c : Cell} (h : c.Stored) (at' nonce : Nat) (legless : Bool)
    (i : Inputs) : Failed c (c.restart at' nonce legless i) ∧
      (c.restart at' nonce legless i).stagedUniverse = none ∧
      (c.restart at' nonce legless i).pendingUniverse = none := by
  obtain ⟨hf, hstaged, hpending, -⟩ := reopen_failed h at'
  have hsame := restart_same c at' nonce legless i
  refine ⟨⟨hsame.role.trans hf.role, hsame.installed.trans hf.installed,
    hsame.rows.trans hf.rows, hsame.asked.trans hf.asked,
    hf.sent.trans hsame.sent⟩, ?_, ?_⟩
  · exact hsame.staged.trans hstaged
  · exact hsame.pending.trans hpending

theorem Agreed.step (h : Agreed s) {l : Label} {t : Pair} (hok : Permits discover s l)
    (hstep : Step discover size s l t) : Agreed t := by
  cases l with
  | call r event i =>
      rw [Step, next] at hstep
      split at hstep
      · obtain rfl := Option.some.inj hstep
        cases r with
        | leader => exact (h.call_leader hok).todo_leader _
        | follower => exact (h.call_follower hok).todo_follower _
      · cases hstep
  | deliver r i =>
      rw [Step, next] at hstep
      split at hstep
      · next m rest _ hout =>
          obtain rfl := Option.some.inj hstep
          cases r with
          | leader =>
              have hd := (h.deliver_leader hout hok).todo_leader i.progress
              exact hd.follower_out (hout ▸ List.subset_cons_self m rest)
          | follower => exact (h.deliver_follower hout hok).todo_follower i.progress
      · cases hstep
  | perform r =>
      rw [Step, next] at hstep
      split at hstep
      · next op ops htodo =>
          obtain rfl := Option.some.inj hstep
          cases r with
          | leader => exact (h.perform_leader htodo hok).todo_leader ops
          | follower => exact (h.perform_follower htodo hok).todo_follower ops
      · cases hstep
  | lose r k =>
      rw [Step, next] at hstep
      split at hstep
      · obtain rfl := Option.some.inj hstep
        cases r with
        | leader =>
            refine h.follower_same rfl rfl rfl rfl (.inl rfl) (.of_out rfl) fun hf hl => ?_
            cases hp : s.follower.pendingUniverse with
            | some u => exact .inl rfl
            | none => exact .inr (hok.supplies hf hl (by rw [drops, hp]; rfl))
        | follower => exact h.follower_out fun _ hm => List.eraseIdx_subset hm
      · cases hstep
  | restart r at' nonce legless i =>
      obtain rfl := Option.some.inj hstep
      cases r with
      | leader =>
          obtain ⟨hf, hstaged, -⟩ := restart_failed h.leaderStored at' nonce legless i
          refine h.leader_failed hf (.inr hstaged) fun u hu hfol => ?_
          have := (hok.keeps u hu hfol).2
          cases this
      | follower =>
          obtain ⟨hf, hstaged, hpending⟩ :=
            restart_failed h.followerStored at' nonce legless i
          refine @Agreed.follower_same s _ s.leader.out h hf.role
            (hstaged.trans h.unstaged.symm)
            hf.installed hf.rows (.inr hpending) hf.sent fun hf hl => .inr ?_
          exact hok.supplies hf hl rfl

theorem agreed_reach
    (h : Reach (Step discover size) (Permits discover) .fresh s) : Agreed s :=
  h.invariant agreed_fresh fun _ _ _ hi hok hstep => hi.step hok hstep

/-! ## Failed attempts -/

/-- A cell that records a failure keeps the universe it had installed. -/
def FailsInPlace (c c' : Cell) : Prop :=
  c'.rediscoveryFailure.isSome → c'.discoveredUniverse = c.discoveredUniverse

namespace FailsInPlace

variable {c d : Cell}

theorem same (h : SameDiscovery c d) : FailsInPlace c d := fun _ => h.installed

theorem after (hcd : d.discoveredUniverse = c.discoveredUniverse) (h : FailsInPlace d c') :
    FailsInPlace c c' := fun hf => (h hf).trans hcd

theorem installed {u : DiscoveredUniverse} (h : Installed c d u) : FailsInPlace c d := by
  intro hf
  rw [h.failure] at hf
  cases hf

theorem ran (h : Cell.Ran discover c d) : FailsInPlace c d := by
  cases h with
  | noted hsame _ => exact same hsame
  | refused _ _ hf _ _ => exact fun _ => hf.installed
  | staged _ _ _ _ _ hinst => exact fun _ => hinst
  | first _ _ _ hi => exact installed hi

theorem runDiscovery (serving : Option Nat) :
    FailsInPlace c (c.runDiscovery discover serving) := by
  cases hrole : c.role with
  | leader => exact ran (Cell.runDiscovery_ran hrole serving)
  | follower =>
      rw [Cell.runDiscovery, if_pos (by simp [hrole])]
      exact same (.refl c)

theorem maybeInstallPendingUniverse :
    FailsInPlace c (c.maybeInstallPendingUniverse discover) := by
  cases hrole : c.role with
  | leader =>
      rw [Cell.maybeInstallPendingUniverse_idle (.inl hrole)]
      exact same (.refl c)
  | follower =>
      cases hu : c.pendingUniverse with
      | none =>
          rw [Cell.maybeInstallPendingUniverse_idle (.inr hu)]
          exact same (.refl c)
      | some u =>
          cases @Cell.maybeInstallPendingUniverse_verified _ discover _ hrole hu with
          | waiting hsame => exact same hsame
          | refused _ _ hf => exact fun _ => hf.installed
          | confirmed _ hi => exact installed hi

theorem maybeDiscover : FailsInPlace c (c.maybeDiscover discover) := by
  rw [Cell.maybeDiscover]
  split
  · split
    · exact runDiscovery none
    · exact same (.refl c)
  · exact maybeInstallPendingUniverse

theorem acceptUniverse (u : DiscoveredUniverse) :
    FailsInPlace c (c.acceptUniverse discover u) := by
  rw [Cell.acceptUniverse]
  split
  · exact same (.refl c)
  · exact after rfl (maybeInstallPendingUniverse (c := c.setPendingUniverse u))
  · split
    · exact same (.refl c)
    · split
      · exact fun _ => rfl
      · exact after rfl (maybeInstallPendingUniverse (c := c.setPendingUniverse u))

theorem serveRediscoveryRequest (id : Nat) :
    FailsInPlace c (c.serveRediscoveryRequest discover id) := by
  rw [Cell.serveRediscoveryRequest]
  split
  · exact same (.refl c)
  · have hserve : FailsInPlace c (c.serveNewRequest discover id) :=
      after rfl (runDiscovery (c := c.startRediscovery) (some id))
    split
    · split
      · exact fun _ => rfl
      · exact hserve
    · exact hserve

theorem acceptRediscoveryResult (ok : Bool) (reason : String) (generation : Option Nat)
    (hash : Option DiscoveredUniverse) (id : Option Nat) :
    FailsInPlace c (c.acceptRediscoveryResult ok reason generation hash id) := by
  rw [Cell.acceptRediscoveryResult]
  split
  · rw [Cell.commitStagedUniverse]
    split
    · exact same (.refl c)
    · split
      · intro hf
        cases hf
      · exact same (.refl c)
  · split
    · exact same (.refl c)
    · exact fun _ => rfl

theorem handle (event : Event) : FailsInPlace c (c.handle discover event) := by
  cases event with
  | tick => exact same (.refl c)
  | peerReconnected nonce => exact fun _ => rfl
  | policyAccepted policy => exact fun _ => rfl
  | rediscovery id =>
      rw [Cell.handle, Cell.handleRediscoveryRequest]
      split
      · exact fun _ => rfl
      · exact after rfl (runDiscovery (c := c.startRediscovery) none)
  | localCatalog entries =>
      rw [Cell.handle, Cell.acceptLocalCatalog]
      split
      · exact same (.refl c)
      · next summary _ =>
          exact after ((c.setLocalCatalog summary).publishCatalogSummary_same.installed)
            maybeDiscover

theorem acceptRelayEnvelope (m : Message) :
    FailsInPlace c (c.acceptRelayEnvelope discover m) := by
  cases m with
  | other => exact same (.refl c)
  | readiness r => exact fun _ => rfl
  | attempt a => exact same (c.handleAttempt_same a)
  | reseedRequest nonce => exact same (c.acceptReseedRequest_same nonce)
  | remainingAllowance epoch _ _ => exact same (c.notePeerPublisherEpoch_same epoch)
  | sizingPlans version generation index count plans =>
      exact same (c.acceptPeerPlanBatch_same ..)
  | discovered u => exact acceptUniverse u
  | rediscoveryRequest id => exact serveRediscoveryRequest id
  | rediscoveryResult ok reason generation hash id =>
      exact acceptRediscoveryResult ok reason generation hash id
  | catalogSummary summary =>
      have hnote := c.notePeerPublisherEpoch_same summary.publisherEpoch
      rw [Cell.acceptRelayEnvelope, Cell.acceptPeerCatalog]
      split
      · exact after hnote.installed
          (after rfl (maybeDiscover (c := Cell.setPeerCatalog _ summary)))
      · exact same hnote

theorem perform (op : Op) : FailsInPlace c (c.perform discover size op) := by
  cases op with
  | installPending => exact maybeInstallPendingUniverse
  | refresh built => exact same (c.refreshSizingPlans_same built)
  | publish => exact same (c.maybePublishState_same size)
  | create k => exact same (c.maybeCreateAttempt_same k)
  | finish => exact same c.terminateAttempt_same
  | deadline =>
      rw [Cell.perform, Cell.enforceRediscoveryDeadline]
      split
      · exact same (.refl c)
      · exact fun _ => rfl
      · dsimp only
        split
        · exact fun _ => rfl
        · exact fun _ => rfl
        · exact fun _ => rfl

end FailsInPlace

theorem failsInPlace_step (h : Agreed s) {l : Label} {t : Pair}
    (hstep : Step discover size s l t) (r : Role) :
    FailsInPlace (s.cell r) (t.cell r) := by
  cases l with
  | call q event i =>
      rw [Step, next] at hstep
      split at hstep
      · obtain rfl := Option.some.inj hstep
        have hq : FailsInPlace (s.cell q) (((s.cell q).begin i).handle discover event) :=
          .after rfl (.handle event)
        cases q <;> cases r <;> first | exact hq | exact fun _ => rfl
      · cases hstep
  | deliver q i =>
      rw [Step, next] at hstep
      split at hstep
      · next m rest _ _ =>
          obtain rfl := Option.some.inj hstep
          have hq : FailsInPlace (s.cell q)
              (((s.cell q).begin i).acceptRelayEnvelope discover m) :=
            .after rfl (.acceptRelayEnvelope m)
          cases q <;> cases r <;> first | exact hq | exact fun _ => rfl
      · cases hstep
  | perform q =>
      rw [Step, next] at hstep
      split at hstep
      · next op ops _ =>
          obtain rfl := Option.some.inj hstep
          have hq : FailsInPlace (s.cell q) ((s.cell q).perform discover size op) :=
            .perform op
          cases q <;> cases r <;> first | exact hq | exact fun _ => rfl
      · cases hstep
  | lose q k =>
      rw [Step, next] at hstep
      split at hstep
      · obtain rfl := Option.some.inj hstep
        cases q <;> cases r <;> exact fun _ => rfl
      · cases hstep
  | restart q at' nonce legless i =>
      obtain rfl := Option.some.inj hstep
      have hleader := (restart_failed h.leaderStored at' nonce legless i).1.installed
      have hfollower := (restart_failed h.followerStored at' nonce legless i).1.installed
      cases q <;> cases r <;>
        first | exact fun _ => hleader | exact fun _ => hfollower | exact fun _ => rfl

/-! ## Agreement at rest -/

/-- At rest the two cells have installed the same universe.  While no attempt is pending
the follower has no other universe than the leader's, and a step that reports a failure
leaves the universe of that cell in force. -/
theorem rest_agrees (h : Reach (Step discover size) (Permits discover) .fresh s) :
    (s.Quiet → s.leader.rediscoveryPending = false →
      s.follower.rediscoveryPending = false →
      s.follower.pendingUniverse = none →
        s.leader.discoveredUniverse = s.follower.discoveredUniverse) ∧
    (s.leader.rediscoveryPending = false → s.follower.discoveredUniverse = none ∨
      s.follower.discoveredUniverse = s.leader.discoveredUniverse) ∧
    ∀ l t, Step discover size s l t → ∀ r, (t.cell r).rediscoveryFailure.isSome →
      (t.cell r).discoveredUniverse = (s.cell r).discoveredUniverse := by
  have hinv := agreed_reach h
  have hended : s.leader.rediscoveryPending = false →
      s.follower.discoveredUniverse = none ∨
      s.follower.discoveredUniverse = s.leader.discoveredUniverse := by
    intro hasked
    cases hf : s.follower.discoveredUniverse with
    | none => exact .inl rfl
    | some u =>
        rcases hinv.held u hf with hl | ⟨-, hp⟩
        · exact .inr hl.symm
        · rw [hasked] at hp
          cases hp
  refine ⟨fun hq hasked _ hpending => ?_, hended, fun l t hstep r => ?_⟩
  · rcases hended hasked with hf | hf
    · cases hl : s.leader.discoveredUniverse with
      | none => exact hf.symm
      | some u =>
          have := hinv.supplied hf (by simp [hl])
          simp [hpending, hq.1] at this
    · exact hf.symm
  · exact failsInPlace_step hinv hstep r

/-- A rediscovery that the follower acknowledges in time. -/
theorem rest_agrees_committed : ∃ s, Reach (Step Sample.discover Sample.size)
    (Permits Sample.discover) .fresh s ∧ s.leader.universeGeneration = some 2 ∧
      s.leader.discoveredUniverse = s.follower.discoveredUniverse := by
  obtain ⟨s, hreach, hs⟩ := Sample.plays_any (Permits Sample.discover)
    (Sample.discovered ++ Sample.called .leader (.rediscovery 0) (Sample.at' 2) ++
      Sample.drained 2 ++ Sample.drained 3)
    (fun s => decide (s.Quiet ∧ s.leader.rediscoveryPending = false ∧
      s.follower.rediscoveryPending = false ∧ s.follower.pendingUniverse = none ∧
      s.leader.universeGeneration = some 2)) (by decide +kernel)
  obtain ⟨hq, hl, hf, hp, hg⟩ := of_decide_eq_true hs
  exact ⟨s, hreach, hg, (rest_agrees hreach).1 hq hl hf hp⟩

/-- The follower installs the candidate, and its acknowledgement arrives after the leader's
deadline: the leader reports a failure and stays behind. -/
theorem late_acknowledgement_splits : ∃ s, Reach (Step Sample.discover Sample.size)
    (fun _ _ => True) .fresh s ∧ s.Quiet ∧ s.leader.rediscoveryPending = false ∧
      s.follower.rediscoveryPending = false ∧ s.follower.pendingUniverse = none ∧
      s.leader.universeGeneration = some 1 ∧ s.follower.universeGeneration = some 2 := by
  obtain ⟨s, hreach, hs⟩ := Sample.plays_any (fun _ _ => True)
    (Sample.discovered ++ Sample.called .leader (.rediscovery 0) (Sample.at' 2) ++
      (List.replicate 6 (Sample.delivered .follower (Sample.at' 2))).flatten ++
      Sample.called .leader .tick (Sample.at' 40) ++ Sample.drained 41)
    (fun s => decide (s.Quiet ∧ s.leader.rediscoveryPending = false ∧
      s.follower.rediscoveryPending = false ∧ s.follower.pendingUniverse = none ∧
      s.leader.universeGeneration = some 1 ∧ s.follower.universeGeneration = some 2))
    (by decide +kernel)
  exact ⟨s, hreach, of_decide_eq_true hs⟩

end PairCell.Market
