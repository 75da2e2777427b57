import PairCell.Market.System

/-!
# What the parts of a call leave alone

`SameDiscovery` says that a part touches nothing of the rediscovery protocol and
acknowledges nothing.  The functions that do take part in the protocol have a
specification of their own.
-/

namespace PairCell.Market

/-- An acknowledgement of an installed universe. -/
def Message.isAck : Message → Bool
  | .rediscoveryResult ok _ _ _ _ => ok
  | _ => false

def Message.isDiscovered : Message → Bool
  | .discovered _ => true
  | _ => false

/-- `c'` has sent more than `c`, no acknowledgement among it. -/
def SentNoAck (c c' : Cell) : Prop :=
  ∃ ms, c'.out = c.out ++ ms ∧ ∀ m ∈ ms, m.isAck = false

theorem SentNoAck.refl (c : Cell) : SentNoAck c c := ⟨[], by simp, by simp⟩

theorem SentNoAck.of_out {c c' : Cell} (h : c'.out = c.out) : SentNoAck c c' :=
  ⟨[], by simp [h], by simp⟩

theorem SentNoAck.trans {c d e : Cell} (h : SentNoAck c d) (h' : SentNoAck d e) :
    SentNoAck c e := by
  obtain ⟨ms, hms, hack⟩ := h
  obtain ⟨ns, hns, hack'⟩ := h'
  refine ⟨ms ++ ns, by rw [hns, hms, List.append_assoc], fun m hm => ?_⟩
  rcases List.mem_append.1 hm with hm | hm
  · exact hack m hm
  · exact hack' m hm

theorem SentNoAck.send (c : Cell) {m : Message} (h : m.isAck = false) :
    SentNoAck c (c.send m) :=
  ⟨[m], rfl, by simpa using h⟩

theorem SentNoAck.subset {c c' : Cell} (h : SentNoAck c c') : c.out ⊆ c'.out := by
  obtain ⟨ms, hms, -⟩ := h
  rw [hms]
  exact List.subset_append_left c.out ms

theorem SentNoAck.ack {c c' : Cell} (h : SentNoAck c c') {m : Message} (hm : m ∈ c'.out)
    (hack : m.isAck = true) : m ∈ c.out := by
  obtain ⟨ms, hms, hno⟩ := h
  rw [hms] at hm
  rcases List.mem_append.1 hm with hm | hm
  · exact hm
  · simp [hno m hm] at hack

structure SameDiscovery (c c' : Cell) : Prop where
  role : c'.role = c.role
  installed : c'.discoveredUniverse = c.discoveredUniverse
  staged : c'.stagedUniverse = c.stagedUniverse
  pending : c'.pendingUniverse = c.pendingUniverse
  rows : c'.universeRows = c.universeRows
  asked : c'.rediscoveryPending = c.rediscoveryPending
  failure : c'.rediscoveryFailure = c.rediscoveryFailure
  sent : SentNoAck c c'

namespace SameDiscovery

theorem refl (c : Cell) : SameDiscovery c c :=
  ⟨rfl, rfl, rfl, rfl, rfl, rfl, rfl, .refl c⟩

theorem trans {c d e : Cell} (h : SameDiscovery c d) (h' : SameDiscovery d e) :
    SameDiscovery c e where
  role := h'.role.trans h.role
  installed := h'.installed.trans h.installed
  staged := h'.staged.trans h.staged
  pending := h'.pending.trans h.pending
  rows := h'.rows.trans h.rows
  asked := h'.asked.trans h.asked
  failure := h'.failure.trans h.failure
  sent := h.sent.trans h'.sent

theorem send (c : Cell) {m : Message} (h : m.isAck = false) : SameDiscovery c (c.send m) :=
  ⟨rfl, rfl, rfl, rfl, rfl, rfl, rfl, .send c h⟩

end SameDiscovery

open SameDiscovery

namespace Cell

variable (c : Cell) (discover : Discover) (size : SizingPlan → Nat)

theorem begin_same (i : Inputs) : SameDiscovery c (c.begin i) :=
  ⟨rfl, rfl, rfl, rfl, rfl, rfl, rfl, .of_out rfl⟩

theorem requestReseed_same (ask : Option Nat) : SameDiscovery c (c.requestReseed ask) :=
  ⟨rfl, rfl, rfl, rfl, rfl, rfl, rfl, .of_out rfl⟩

theorem notePeerPublisherEpoch_same (epoch : Nat) :
    SameDiscovery c (c.notePeerPublisherEpoch epoch) := by
  unfold notePeerPublisherEpoch
  split
  · exact .refl c
  · exact ⟨rfl, rfl, rfl, rfl, rfl, rfl, rfl, .of_out rfl⟩

theorem acceptReseedRequest_same (nonce : Nat) :
    SameDiscovery c (c.acceptReseedRequest nonce) := by
  unfold acceptReseedRequest
  split
  · exact .refl c
  · exact ⟨rfl, rfl, rfl, rfl, rfl, rfl, rfl, .of_out rfl⟩

theorem noteDiscoveryFailure_same (reason : String) :
    SameDiscovery c (c.noteDiscoveryFailure reason) := by
  unfold noteDiscoveryFailure
  split
  · exact .refl c
  · exact ⟨rfl, rfl, rfl, rfl, rfl, rfl, rfl, .of_out rfl⟩

theorem publishCatalogSummary_same : SameDiscovery c c.publishCatalogSummary := by
  unfold publishCatalogSummary
  split
  · exact .refl c
  · split
    · exact .refl c
    · exact ⟨rfl, rfl, rfl, rfl, rfl, rfl, rfl, ⟨_, rfl, by simp [Message.isAck]⟩⟩

theorem publishRemainingAllowance_same : SameDiscovery c c.publishRemainingAllowance := by
  unfold publishRemainingAllowance
  split
  · exact .refl c
  · exact ⟨rfl, rfl, rfl, rfl, rfl, rfl, rfl, ⟨_, rfl, by simp [Message.isAck]⟩⟩

theorem publishReadiness_same : SameDiscovery c c.publishReadiness := by
  unfold publishReadiness
  split
  · exact .refl c
  · exact ⟨rfl, rfl, rfl, rfl, rfl, rfl, rfl, ⟨_, rfl, by simp [Message.isAck]⟩⟩

theorem republishPeerState_same : SameDiscovery c c.republishPeerState := by
  unfold republishPeerState
  split
  · have first : SameDiscovery c (c.send .other) := .send c rfl
    dsimp only
    split
    · exact first.trans (.send _ rfl)
    · exact first
  · exact .send c rfl

theorem serveReseed_same : SameDiscovery c c.serveReseed := by
  unfold serveReseed
  split
  · have first : SameDiscovery c { c with reseedRequested := false } :=
      ⟨rfl, rfl, rfl, rfl, rfl, rfl, rfl, .of_out rfl⟩
    exact first.trans (republishPeerState_same _)
  · exact .refl c

theorem maybeSendReseedAsk_same : SameDiscovery c c.maybeSendReseedAsk := by
  unfold maybeSendReseedAsk
  split
  · split
    · exact .send c rfl
    · exact .refl c
  · exact .refl c

private theorem sendBatches_same (version : PlanSetVersion) (generation : Option Nat)
    (count : Nat) (batches : List (List SizingPlan × Nat)) :
    SameDiscovery c (batches.foldl
      (fun c batch =>
        c.send (.sizingPlans version generation batch.2 count batch.1)) c) := by
  induction batches generalizing c with
  | nil => exact .refl c
  | cons batch batches ih => exact (SameDiscovery.send c rfl).trans (ih _)

/-- What publishing the batches does: one envelope for each, in order. -/
theorem publishPlanBatches_eq (batches : List (List SizingPlan × Nat)) (count : Nat) :
    batches.foldl (fun c batch =>
      c.send (.sizingPlans c.planSetVersion c.universeGeneration batch.2 count batch.1))
        c =
    batches.foldl (fun d batch =>
      d.send (.sizingPlans c.planSetVersion c.universeGeneration batch.2 count batch.1))
        c := by
  suffices h : ∀ d : Cell, d.planSetVersion = c.planSetVersion →
      d.universeGeneration = c.universeGeneration →
      batches.foldl (fun c batch =>
        c.send (.sizingPlans c.planSetVersion c.universeGeneration batch.2 count batch.1))
          d =
      batches.foldl (fun d batch =>
        d.send (.sizingPlans c.planSetVersion c.universeGeneration batch.2 count batch.1))
          d from
    h c rfl rfl
  induction batches with
  | nil => exact fun _ _ _ => rfl
  | cons batch batches ih =>
      intro d hv hg
      rw [List.foldl_cons, List.foldl_cons, hv, hg]
      exact ih _ hv hg

theorem publishPlanBatches_same : SameDiscovery c (c.publishPlanBatches size) := by
  unfold publishPlanBatches
  dsimp only
  rw [publishPlanBatches_eq]
  exact sendBatches_same c _ _ _ _

theorem maybePublishPlans_same : SameDiscovery c (c.maybePublishPlans size) := by
  unfold maybePublishPlans
  split
  · have first : SameDiscovery c c.markPublished :=
      ⟨rfl, rfl, rfl, rfl, rfl, rfl, rfl, .of_out rfl⟩
    exact first.trans (publishPlanBatches_same _ size)
  · exact .refl c

theorem maybePublishState_same : SameDiscovery c (c.maybePublishState size) := by
  have h₁ := c.serveReseed_same
  have h₂ := h₁.trans (maybeSendReseedAsk_same _)
  have h₃ := h₂.trans (publishCatalogSummary_same _)
  have h₄ := h₃.trans (publishRemainingAllowance_same _)
  have h₅ := h₄.trans (maybePublishPlans_same _ size)
  exact h₅.trans (publishReadiness_same _)

theorem installPlans_same (generation : Nat) (plans : List SizingPlan)
    (suspended : List String) (policy : StrategyPolicy) :
    SameDiscovery c (c.installPlans generation plans suspended policy) := by
  unfold installPlans
  split
  · exact .refl c
  · exact ⟨rfl, rfl, rfl, rfl, rfl, rfl, rfl, .of_out rfl⟩

theorem refreshSizingPlans_same (built : BuiltPlans) :
    SameDiscovery c (c.refreshSizingPlans built) := by
  unfold refreshSizingPlans
  split
  · exact c.installPlans_same ..
  · exact .refl c

theorem acceptPeerPlanBatch_same (version : PlanSetVersion) (generation : Option Nat)
    (index count : Nat) (plans : List SizingPlan) :
    SameDiscovery c (c.acceptPeerPlanBatch version generation index count plans) := by
  unfold acceptPeerPlanBatch
  split
  · exact .refl c
  · split
    · exact .refl c
    · dsimp only
      split
      · exact ⟨rfl, rfl, rfl, rfl, rfl, rfl, rfl, .of_out rfl⟩
      · split
        · exact ⟨rfl, rfl, rfl, rfl, rfl, rfl, rfl, .of_out rfl⟩
        · exact ⟨rfl, rfl, rfl, rfl, rfl, rfl, rfl, .of_out rfl⟩

theorem handleAttempt_same (a : Attempt) : SameDiscovery c (c.handleAttempt a) := by
  unfold handleAttempt
  split
  · exact .refl c
  · split
    · exact .refl c
    · split
      · exact ⟨rfl, rfl, rfl, rfl, rfl, rfl, rfl, .of_out rfl⟩
      · exact ⟨rfl, rfl, rfl, rfl, rfl, rfl, rfl, .of_out rfl⟩

theorem maybeCreateAttempt_same (k : Candidate) :
    SameDiscovery c (c.maybeCreateAttempt k) := by
  unfold maybeCreateAttempt
  split
  · exact .refl c
  · next a _ =>
      have first : SameDiscovery c
          { c with attempt := some a, attempts := ⟨a, c.now, false⟩ :: c.attempts } :=
        ⟨rfl, rfl, rfl, rfl, rfl, rfl, rfl, .of_out rfl⟩
      dsimp only
      split
      · exact first.trans (.send _ rfl)
      · exact first

theorem terminateAttempt_same : SameDiscovery c c.terminateAttempt := by
  unfold terminateAttempt
  split
  · exact .refl c
  · exact ⟨rfl, rfl, rfl, rfl, rfl, rfl, rfl, .of_out rfl⟩

end Cell

end PairCell.Market
