import PairCell.Market.Frame

/-!
# What the rediscovery functions do

One specification for each function of the protocol: a discovery run of the
leader, the verification of a published universe by the follower, and the ways
an attempt ends.
-/

namespace PairCell.Market

/-- A rediscovery attempt ended as failed: the installed universe is untouched. -/
structure Failed (c c' : Cell) : Prop where
  role : c'.role = c.role
  installed : c'.discoveredUniverse = c.discoveredUniverse
  rows : c'.universeRows = c.universeRows
  asked : c'.rediscoveryPending = false
  sent : SentNoAck c c'

/-- Universe `u` was installed over what `c` held. -/
structure Installed (c c' : Cell) (u : DiscoveredUniverse) : Prop where
  role : c'.role = c.role
  installed : c'.discoveredUniverse = some u
  rows : c'.universeRows =
    u :: c.universeRows.filter fun row => row.universeGeneration ≠ u.universeGeneration
  pending : c'.pendingUniverse = none
  asked : c'.rediscoveryPending = false
  failure : c'.rediscoveryFailure = none

namespace Cell

variable (c : Cell) (discover : Discover)

/-! ## The newest row -/

/-- The installed universe is the newest row of the database. -/
def Stored : Prop := newestUniverse c.universeRows = c.discoveredUniverse

/-- The row of the greater generation, and of equal ones the later row. -/
theorem newestUniverse_row (rows : List DiscoveredUniverse) (u : DiscoveredUniverse) :
    newestUniverse (u :: rows) = some ((newestUniverse rows).elim u fun b =>
      if b.universeGeneration < u.universeGeneration then u else b) := by
  cases hb : newestUniverse rows with
  | none =>
      rw [newestUniverse] at hb
      rw [newestUniverse, List.foldr_cons, hb]
      rfl
  | some b =>
      rw [newestUniverse] at hb
      rw [newestUniverse, List.foldr_cons, hb]
      simp only [Option.elim_some]
      split <;> rfl

theorem newestUniverse_none {rows : List DiscoveredUniverse}
    (h : newestUniverse rows = none) :
    rows = [] := by
  cases rows with
  | nil => rfl
  | cons u rows =>
      rw [newestUniverse_row] at h
      cases h

theorem newestUniverse_top {rows : List DiscoveredUniverse} {top : DiscoveredUniverse}
    (h : newestUniverse rows = some top) :
    top ∈ rows ∧ ∀ row ∈ rows, row.universeGeneration ≤ top.universeGeneration := by
  induction rows generalizing top with
  | nil => cases h
  | cons u rows ih =>
      rw [newestUniverse_row] at h
      obtain rfl := Option.some.inj h
      cases hb : newestUniverse rows with
      | none => simp [newestUniverse_none hb]
      | some b =>
          obtain ⟨hmem, hle⟩ := ih hb
          rw [Option.elim_some]
          split
          · next hlt =>
              refine ⟨List.mem_cons_self, fun row hrow => ?_⟩
              rcases List.mem_cons.1 hrow with rfl | hrow
              · exact le_refl _
              · exact (hle row hrow).trans hlt.le
          · next hge =>
              refine ⟨List.mem_cons_of_mem _ hmem, fun row hrow => ?_⟩
              rcases List.mem_cons.1 hrow with rfl | hrow
              · exact not_lt.1 hge
              · exact hle row hrow

theorem newestUniverse_cons {rows : List DiscoveredUniverse} {u : DiscoveredUniverse}
    (h : ∀ row ∈ rows, row.universeGeneration < u.universeGeneration) :
    newestUniverse (u :: rows) = some u := by
  rw [newestUniverse_row]
  cases hb : newestUniverse rows with
  | none => rfl
  | some b => simp [h b (newestUniverse_top hb).1]

theorem Stored.le {c : Cell} (h : c.Stored) {row : DiscoveredUniverse}
    (hrow : row ∈ c.universeRows) :
    ∃ u, c.discoveredUniverse = some u ∧
      row.universeGeneration ≤ u.universeGeneration := by
  cases hu : newestUniverse c.universeRows with
  | none => simp [newestUniverse_none hu] at hrow
  | some u => exact ⟨u, h ▸ hu, (newestUniverse_top hu).2 row hrow⟩

theorem Stored.same {c c' : Cell} (h : c.Stored) (hrows : c'.universeRows = c.universeRows)
    (hinst : c'.discoveredUniverse = c.discoveredUniverse) : c'.Stored := by
  rw [Stored, hrows, hinst]
  exact h

theorem Stored.installed {c c' : Cell} {u : DiscoveredUniverse}
    (hnew : ∀ row ∈ c.universeRows, row.universeGeneration < u.universeGeneration)
    (hi : Installed c c' u) : c'.Stored := by
  rw [Stored, hi.rows, hi.installed]
  exact newestUniverse_cons fun row hrow => hnew row (List.mem_of_mem_filter hrow)

private theorem le_top (us : List DiscoveredUniverse) {u : DiscoveredUniverse}
    (hu : u ∈ us) :
    u.universeGeneration ≤ us.foldr (fun u top => max u.universeGeneration top) 0 := by
  induction us with
  | nil => cases hu
  | cons v us ih =>
      rw [List.foldr_cons]
      rcases List.mem_cons.1 hu with rfl | hu
      · exact le_max_left _ _
      · exact (ih hu).trans (le_max_right _ _)

/-- A new generation is above the installed one and above every row. -/
theorem lt_nextUniverseGeneration {u : DiscoveredUniverse}
    (h : c.discoveredUniverse = some u ∨ u ∈ c.universeRows) :
    u.universeGeneration < c.nextUniverseGeneration := by
  have hmem : u ∈ c.discoveredUniverse.toList ++ c.universeRows := by
    rcases h with h | h
    · simp [h]
    · exact List.mem_append_right _ h
  exact Nat.lt_succ_of_le (le_top _ hmem)

/-! ## The leader's discovery -/

variable {c discover}

theorem candidate_generation {u : DiscoveredUniverse} {b : Bool}
    (h : c.candidate discover b = .ok u) :
    u.universeGeneration = c.nextUniverseGeneration := by
  rw [candidate] at h
  split at h
  · cases h
  · split at h
    · cases h
    · dsimp only at h
      split at h
      · cases h
        rfl
      · cases h

/-- A refusal keeps the candidate of an earlier run staged. -/
theorem finishRediscovery_failed (serving : Option Nat) (reason : String) :
    Failed c (c.finishRediscovery serving reason) ∧
      (c.finishRediscovery serving reason).stagedUniverse = c.stagedUniverse ∧
      (c.finishRediscovery serving reason).pendingUniverse = c.pendingUniverse := by
  cases serving with
  | none => exact ⟨⟨rfl, rfl, rfl, rfl, ⟨_, rfl, by simp [Message.isAck]⟩⟩, rfl, rfl⟩
  | some id => exact ⟨⟨rfl, rfl, rfl, rfl, ⟨_, rfl, by simp [Message.isAck]⟩⟩, rfl, rfl⟩

/-- What a discovery run of the leader can do. -/
inductive Ran (discover : Discover) (c c' : Cell) : Prop where
  | noted (h : SameDiscovery c c') (hnew : c.discoveredUniverse = none)
  | refused (reason : String) (hc : c.candidate discover true = .error reason)
      (h : Failed c c')
      (hstaged : c'.stagedUniverse = c.stagedUniverse)
      (hpending : c'.pendingUniverse = c.pendingUniverse)
  | staged (u : DiscoveredUniverse) (hc : c.candidate discover true = .ok u)
      (hold : c.discoveredUniverse.isSome) (hu : c'.stagedUniverse = some u)
      (hrole : c'.role = c.role) (hinst : c'.discoveredUniverse = c.discoveredUniverse)
      (hrows : c'.universeRows = c.universeRows)
          (hpending : c'.pendingUniverse = c.pendingUniverse)
      (hasked : c'.rediscoveryPending = c.rediscoveryPending)
      (hfail : c'.rediscoveryFailure = c.rediscoveryFailure) (hsent : SentNoAck c c')
  | first (u : DiscoveredUniverse) (hc : c.candidate discover false = .ok u)
      (hold : c.discoveredUniverse = none) (h : Installed c c' u)
      (hstaged : c'.stagedUniverse = c.stagedUniverse) (hsent : SentNoAck c c')
      (hout : .discovered u ∈ c'.out)

theorem runDiscovery_ran (hrole : c.role = .leader) (serving : Option Nat) :
    Ran discover c (c.runDiscovery discover serving) := by
  rw [runDiscovery, if_neg (by simp [hrole])]
  dsimp only
  cases hu : c.discoveredUniverse with
  | none =>
      rw [Option.isSome_none]
      cases hc : c.candidate discover false with
      | error reason => exact .noted (c.noteDiscoveryFailure_same reason) hu
      | ok u =>
          cases serving with
          | none =>
              exact .first u hc hu ⟨rfl, rfl, rfl, rfl, rfl, rfl⟩ rfl
                ⟨[.discovered u], rfl, by simp [Message.isAck]⟩ (by simp [send])
          | some id =>
              exact .first u hc hu ⟨rfl, rfl, rfl, rfl, rfl, rfl⟩ rfl
                ⟨[.discovered u], rfl, by simp [Message.isAck]⟩ (by simp [send])
  | some old =>
      rw [Option.isSome_some]
      cases hc : c.candidate discover true with
      | error reason =>
          obtain ⟨hf, hs, hp⟩ := c.finishRediscovery_failed serving reason
          exact .refused reason hc hf hs hp
      | ok u =>
          cases serving with
          | none =>
              exact .staged u hc (by simp [hu]) rfl rfl rfl rfl rfl rfl rfl
                ⟨[.discovered u], rfl, by simp [Message.isAck]⟩
          | some id =>
              exact .staged u hc (by simp [hu]) rfl rfl rfl rfl rfl rfl rfl
                ⟨[.discovered u], rfl, by simp [Message.isAck]⟩

/-! ## The follower's verification -/

/-- What the verification of the pending universe can do. -/
inductive Verified (discover : Discover) (c c' : Cell)
    (u : DiscoveredUniverse) : Prop where
  | waiting (h : SameDiscovery c c')
  | refused (reason : String) (hv : c.verdict discover u = .refused reason)
      (h : Failed c c')
      (hstaged : c'.stagedUniverse = c.stagedUniverse)
          (hpending : c'.pendingUniverse = none)
  | confirmed (hv : c.verdict discover u = .confirmed) (h : Installed c c' u)
      (hstaged : c'.stagedUniverse = c.stagedUniverse)
      (hout : ∃ id, c'.out = c.out ++
        [.rediscoveryResult true "" (some u.universeGeneration) (some u) id])

theorem maybeInstallPendingUniverse_verified {u : DiscoveredUniverse}
    (hrole : c.role = .follower) (hu : c.pendingUniverse = some u) :
    Verified discover c (c.maybeInstallPendingUniverse discover) u := by
  simp only [maybeInstallPendingUniverse, hrole, hu]
  cases hv : c.verdict discover u with
  | unverifiable => exact .waiting (c.noteDiscoveryFailure_same _)
  | refused reason =>
      exact .refused reason hv ⟨rfl, rfl, rfl, rfl,
        ⟨_, rfl, by simp [Message.isAck]⟩⟩ rfl rfl
  | confirmed => exact .confirmed hv ⟨rfl, rfl, rfl, rfl, rfl, rfl⟩ rfl ⟨_, rfl⟩

theorem maybeInstallPendingUniverse_idle
    (h : c.role = .leader ∨ c.pendingUniverse = none) :
    c.maybeInstallPendingUniverse discover = c := by
  unfold maybeInstallPendingUniverse
  split
  · next hrole hu => simp [hrole, hu] at h
  · rfl

end Cell

end PairCell.Market
