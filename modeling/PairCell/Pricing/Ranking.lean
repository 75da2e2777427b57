import Mathlib.Data.List.Dedup
import Mathlib.Data.Prod.Lex
import PairCell.Lib.Ranking
import PairCell.Pricing

/-!
# Ranking the entry candidates

The leader values every product and direction that passes its gates and ranks
them by expected net USD.  A plan carries the USD value of one point of its own
broker; the net it is multiplied with is a price.
-/

namespace PairCell.Pricing

open Lib
open Gate (mirror combinePairLots)

/-! ## Quotes -/

/-- The calibrated broker clock of a quote. -/
structure BrokerClockCalibration where
  offsetSeconds : Rat
  errorSeconds : Rat
  usable : Bool
  deriving DecidableEq, Repr

structure QuoteSnapshot where
  symbol : String
  bid : Rat
  ask : Rat
  brokerTime : Rat
  recoveryEpoch : Nat
  sequence : Nat
  calibration : BrokerClockCalibration
  deriving DecidableEq, Repr

namespace QuoteSnapshot

variable (q : QuoteSnapshot)

def calibratedBrokerTime : Rat := q.brokerTime - q.calibration.offsetSeconds

/-- Worst-case age of the market evidence, never of its transport. -/
def ageSeconds (now : Rat) : Rat :=
  now - q.calibratedBrokerTime + q.calibration.errorSeconds

def fresh (now maxAge : Rat) : Prop :=
  q.calibration.usable = true ∧ 0 ≤ q.ageSeconds now ∧ q.ageSeconds now ≤ maxAge

instance (now maxAge : Rat) : Decidable (q.fresh now maxAge) := instDecidableAnd

end QuoteSnapshot

/-- Worst-case distance between two calibrated broker clocks. -/
def calibratedSkewSeconds (leader follower : QuoteSnapshot) : Rat :=
  |leader.calibratedBrokerTime - follower.calibratedBrokerTime| +
    leader.calibration.errorSeconds + follower.calibration.errorSeconds

def quoteKey (own peer : QuoteSnapshot) : Nat × Nat × Nat × Nat :=
  (own.recoveryEpoch, own.sequence, peer.recoveryEpoch, peer.sequence)

/-- The favorable price differential of executing both mirror legs now. -/
def edgeValue (leader follower : QuoteSnapshot) : Direction → Rat
  | .long => follower.bid - leader.ask
  | .short => leader.bid - follower.ask

/-! ## Plans with their economics -/

/-- The numbers the value of a price move is computed from. -/
structure Economics where
  point : Rat
  tick : Rat
  lossTickValue : Rat
  point_pos : 0 < point
  tick_pos : 0 < tick
  loss_pos : 0 < lossTickValue

namespace Economics

variable (e : Economics)

/-- The USD value of a price move of one on one lot. -/
def factor : Rat := e.lossTickValue / e.tick

/-- What `_refresh_sizing_plans` writes as `usd_per_point_per_lot`. -/
def usdPerPoint : Rat := e.lossTickValue * (e.point / e.tick)

theorem factor_pos : 0 < e.factor := div_pos e.loss_pos e.tick_pos

theorem usdPerPoint_eq : e.usdPerPoint = e.factor * e.point := by
  rw [usdPerPoint, factor]
  ring

end Economics

/-- A plan as a refresh builds it. -/
structure PricedPlan where
  plan : SizingPlan
  economics : Economics
  point_eq : plan.point = some economics.point
  tick_eq : plan.tickSize = some economics.tick
  loss_eq : plan.lossTickValue = some economics.lossTickValue
  usd_eq : plan.usdPerPointPerLot = some economics.usdPerPoint

/-- Every plan that `_refresh_sizing_plans` builds carries its economics. -/
def pricedPlan (generation : Nat) (product : Product) (facts : LocalProductFacts)
    (husable : facts.usable) (direction : Direction) (margin lots : Rat) : PricedPlan :=
  { plan := buildPlan generation product facts direction margin lots
    economics :=
      { point := facts.point, tick := facts.tickSize, lossTickValue := facts.lossTickValue
        point_pos := husable.2.1, tick_pos := husable.2.2.1, loss_pos := husable.2.2.2.1 }
    point_eq := rfl, tick_eq := rfl, loss_eq := rfl, usd_eq := rfl }

/-! ## The candidates of a cell -/

structure EntryPolicy where
  quoteMaxAgeSeconds : Rat
  quoteMaxSkewSeconds : Rat
  edgeMinNetPoints : Option Rat

/-- What `_candidates` reads of the cell. -/
structure View where
  role : Role
  unpairing : Bool
  now : Rat
  policy? : Option EntryPolicy
  universe? : Option Universe
  quarantinedProducts : List Nat
  /-- Quarantine rows that name a symbol and no derived identity. -/
  quarantinedSymbols : List String
  localQuotes : Nat → Option QuoteSnapshot
  peerQuotes : Nat → Option QuoteSnapshot
  decidedQuotes : Nat → Option (Nat × Nat × Nat × Nat)
  plans : List PricedPlan
  peerPlans : List PricedPlan

/-- A product and direction that passed every gate, with what it is valued from. -/
structure Admitted where
  productId : Nat
  direction : Direction
  netPrice : Rat
  netPoints : Rat
  lots : Rat
  leaderPlan : PricedPlan
  followerPlan : PricedPlan

/-- One entry of the ranking. -/
structure Candidate where
  expectedNetUsd : Rat
  netPoints : Rat
  productId : Nat
  direction : Direction
  deriving DecidableEq, Repr

namespace Admitted

variable (a : Admitted)

/-- `net_price * min(usd_per_point_per_lot) * lots`. -/
def expectedNetUsd : Rat :=
  a.netPrice * min a.leaderPlan.economics.usdPerPoint
    a.followerPlan.economics.usdPerPoint * a.lots

def candidate : Candidate := ⟨a.expectedNetUsd, a.netPoints, a.productId, a.direction⟩

def pair : Nat × Direction := (a.productId, a.direction)

/-- The sort key for a value in USD: decreasing value, then net points, product and
direction. -/
def keyAt (usd : Rat) : Rat ×ₗ Rat ×ₗ Nat ×ₗ Nat :=
  toLex (-usd, toLex (-a.netPoints, toLex (a.productId, directionRank a.direction)))

end Admitted

namespace View

variable (v : View)

def planAt (plans : List PricedPlan) (productId : Nat) (direction : Direction) :
    Option PricedPlan :=
  plans.find? fun p => decide (p.plan.productId = productId ∧ p.plan.direction = direction)

/-- The common lots, and both plans, for one product and direction. -/
def pairLots (productId : Nat) (direction : Direction) :
    Option (Rat × PricedPlan × PricedPlan) :=
  match v.role with
  | .leader => do
      let leaderPlan ← planAt v.plans productId direction
      let followerPlan ← planAt v.peerPlans productId (mirror direction)
      let lots ← combinePairLots leaderPlan.plan.toSizingPlan
          followerPlan.plan.toSizingPlan
      some (lots, leaderPlan, followerPlan)
  | .follower => do
      let leaderPlan ← planAt v.peerPlans productId direction
      let followerPlan ← planAt v.plans productId (mirror direction)
      let lots ← combinePairLots leaderPlan.plan.toSizingPlan
          followerPlan.plan.toSizingPlan
      some (lots, leaderPlan, followerPlan)

def isQuarantined (product : Product) : Prop :=
  product.productId ∈ v.quarantinedProducts ∨ product.symbol ∈ v.quarantinedSymbols

instance (product : Product) : Decidable (v.isQuarantined product) := instDecidableOr

/-- The two quotes of a product that passes the gates both directions share. -/
def productGate (policy : EntryPolicy) (u : Universe) (productId : Nat) :
    Option (QuoteSnapshot × QuoteSnapshot) := do
  let product ← u.products.find? fun p => decide (p.productId = productId)
  if v.isQuarantined product then none
  else
    let own ← v.localQuotes productId
    let peer ← v.peerQuotes productId
    if ¬own.fresh v.now policy.quoteMaxAgeSeconds then none
    else if ¬peer.fresh v.now policy.quoteMaxAgeSeconds then none
    else if policy.quoteMaxSkewSeconds < calibratedSkewSeconds own peer then none
    else if v.decidedQuotes productId = some (quoteKey own peer) then none
    else some (own, peer)

/-- The gates of one direction, and the net it leaves. -/
def directionGate (minNet : Rat) (productId : Nat) (own peer : QuoteSnapshot)
    (direction : Direction) : Option Admitted := do
  let (lots, leaderPlan, followerPlan) ← v.pairLots productId direction
  if own.symbol ≠ leaderPlan.plan.symbol ∨ peer.symbol ≠ followerPlan.plan.symbol then none
  else
    let point ← leaderPlan.plan.canonicalPoint
    if point ≤ 0 then none
    else
      let rawEdge := edgeValue own peer direction
      let spreadSum := own.ask - own.bid + (peer.ask - peer.bid)
      let netPrice := rawEdge - spreadSum / 2
      let netPoints := netPrice / point
      if netPoints ≤ minNet then none
      else some ⟨productId, direction, netPrice, netPoints, lots, leaderPlan, followerPlan⟩

def productAdmitted (policy : EntryPolicy) (u : Universe) (minNet : Rat)
    (productId : Nat) :
    List Admitted :=
  match v.productGate policy u productId with
  | none => []
  | some (own, peer) =>
      [Direction.long, .short].filterMap (v.directionGate minNet productId own peer)

/-- The products this worker has plans for, each once and in order. -/
def plannedProducts : List Nat :=
  (v.plans.map fun p => p.plan.productId).dedup.insertionSort (· ≤ ·)

def admitted : List Admitted :=
  match v.policy?, v.universe?, v.unpairing with
  | some policy, some u, false =>
      match policy.edgeMinNetPoints with
      | none => []
      | some minNet => v.plannedProducts.flatMap (v.productAdmitted policy u minNet)
  | _, _, _ => []

def ranked : List Admitted := rank (fun a => a.keyAt a.expectedNetUsd) v.admitted

def candidates : List Candidate := v.ranked.map Admitted.candidate

end View

/-! ## What passes the gates -/

/-- Every gate of the ranking, for one product and direction. -/
structure Gates (v : View) (a : Admitted) (policy : EntryPolicy) (u : Universe)
    (product : Product) (own peer : QuoteSnapshot) (minNet point : Rat) : Prop where
  active : v.unpairing = false
  policy_eq : v.policy? = some policy
  universe_eq : v.universe? = some u
  floor : policy.edgeMinNetPoints = some minNet
  planned : ∃ p ∈ v.plans, p.plan.productId = a.productId
  product_mem : product ∈ u.products
  product_id : product.productId = a.productId
  quarantine : ¬v.isQuarantined product
  own_quote : v.localQuotes a.productId = some own
  peer_quote : v.peerQuotes a.productId = some peer
  own_fresh : own.fresh v.now policy.quoteMaxAgeSeconds
  peer_fresh : peer.fresh v.now policy.quoteMaxAgeSeconds
  skew : calibratedSkewSeconds own peer ≤ policy.quoteMaxSkewSeconds
  undecided : v.decidedQuotes a.productId ≠ some (quoteKey own peer)
  sized : v.pairLots a.productId a.direction = some (a.lots, a.leaderPlan, a.followerPlan)
  own_symbol : own.symbol = a.leaderPlan.plan.symbol
  peer_symbol : peer.symbol = a.followerPlan.plan.symbol
  point_eq : a.leaderPlan.plan.canonicalPoint = some point
  point_pos : 0 < point
  net_price : a.netPrice =
    edgeValue own peer a.direction - (own.ask - own.bid + (peer.ask - peer.bid)) / 2
  net_points : a.netPoints = a.netPrice / point
  edge : minNet < a.netPoints

def Passes (v : View) (a : Admitted) : Prop :=
  ∃ policy u product own peer minNet point,
    Gates v a policy u product own peer minNet point

section Gates

variable {v : View} {a : Admitted} {policy : EntryPolicy} {u : Universe} {minNet : Rat}
  {productId : Nat} {own peer : QuoteSnapshot}

theorem productGate_eq_some :
    v.productGate policy u productId = some (own, peer) ↔
      ∃ product ∈ u.products, product.productId = productId ∧ ¬v.isQuarantined product ∧
        v.localQuotes productId = some own ∧ v.peerQuotes productId = some peer ∧
        own.fresh v.now policy.quoteMaxAgeSeconds ∧
        peer.fresh v.now policy.quoteMaxAgeSeconds ∧
        calibratedSkewSeconds own peer ≤ policy.quoteMaxSkewSeconds ∧
        v.decidedQuotes productId ≠ some (quoteKey own peer) := by
  simp only [View.productGate, Option.bind_eq_bind, Option.bind_eq_some_iff,
    Option.ite_none_left_eq_some, not_not, not_lt, Option.some.injEq, Prod.mk.injEq]
  constructor
  · rintro ⟨product, hfind, hq, _, hown, _, hpeer, hof, hpf, hskew, hdec, rfl, rfl⟩
    have hid := List.find?_some hfind
    exact ⟨product, List.mem_of_find?_eq_some hfind, of_decide_eq_true hid, hq, hown,
      hpeer, hof, hpf, hskew, hdec⟩
  · rintro ⟨product, hmem, hid, hq, hown, hpeer, hof, hpf, hskew, hdec⟩
    refine ⟨product, ?_, hq, own, hown, peer, hpeer, hof, hpf, hskew, hdec, rfl, rfl⟩
    have hsome : (u.products.find? fun p => decide (p.productId = productId)).isSome := by
      rw [List.find?_isSome]
      exact ⟨product, hmem, decide_eq_true hid⟩
    obtain ⟨found, hfound⟩ := Option.isSome_iff_exists.1 hsome
    have hfid : found.productId = productId := by
      have hdec' := List.find?_some hfound
      exact of_decide_eq_true hdec'
    have heq : found = product :=
      List.inj_on_of_nodup_map u.distinct (List.mem_of_find?_eq_some hfound) hmem
        (hfid.trans hid.symm)
    rw [hfound, heq]

theorem directionGate_eq_some {direction : Direction} :
    v.directionGate minNet productId own peer direction = some a ↔
      a.productId = productId ∧ a.direction = direction ∧
      v.pairLots productId direction = some (a.lots, a.leaderPlan, a.followerPlan) ∧
      own.symbol = a.leaderPlan.plan.symbol ∧ peer.symbol = a.followerPlan.plan.symbol ∧
      ∃ point, a.leaderPlan.plan.canonicalPoint = some point ∧ 0 < point ∧
        a.netPrice = edgeValue own peer direction -
          (own.ask - own.bid + (peer.ask - peer.bid)) / 2 ∧
        a.netPoints = a.netPrice / point ∧ minNet < a.netPoints := by
  simp only [View.directionGate, Option.bind_eq_bind, Option.bind_eq_some_iff,
    Option.ite_none_left_eq_some, not_or, not_not, not_le, Option.some.injEq, Prod.exists]
  constructor
  · rintro ⟨lots, leaderPlan, followerPlan, hlots, ⟨hown, hpeer⟩, point, hpoint,
      hpos, hedge, rfl⟩
    exact ⟨rfl, rfl, hlots, hown, hpeer, point, hpoint, hpos, rfl, rfl, hedge⟩
  · rintro ⟨rfl, rfl, hlots, hown, hpeer, point, hpoint, hpos, hnet, hpts, hedge⟩
    rw [hpts, hnet] at hedge
    refine ⟨a.lots, a.leaderPlan, a.followerPlan, hlots, ⟨hown, hpeer⟩, point, hpoint,
      hpos, hedge, ?_⟩
    rw [← hnet, ← hpts]

theorem mem_plannedProducts :
    productId ∈ v.plannedProducts ↔ ∃ p ∈ v.plans, p.plan.productId = productId := by
  rw [View.plannedProducts, (List.perm_insertionSort _ _).mem_iff,
    List.mem_dedup, List.mem_map]

theorem productAdmitted_productId (h : a ∈ v.productAdmitted policy u minNet productId) :
    a.productId = productId := by
  unfold View.productAdmitted at h
  split at h
  · cases h
  · obtain ⟨_, -, hgate⟩ := List.mem_filterMap.1 h
    exact (directionGate_eq_some.1 hgate).1

/-- The loop admits exactly the pairs that pass every gate. -/
theorem mem_admitted : a ∈ v.admitted ↔ Passes v a := by
  unfold View.admitted
  constructor
  · intro h
    split at h
    · next policy u hpolicy hu hactive =>
      split at h
      · cases h
      · next minNet hfloor =>
        obtain ⟨productId, hplanned, hadm⟩ := List.mem_flatMap.1 h
        obtain rfl := productAdmitted_productId hadm
        unfold View.productAdmitted at hadm
        split at hadm
        · cases hadm
        · next own peer hgate =>
          obtain ⟨product, hmem, hid, hq, hown, hpeer, hof, hpf, hskew, hdec⟩ :=
            productGate_eq_some.1 hgate
          obtain ⟨direction, -, hdir⟩ := List.mem_filterMap.1 hadm
          obtain ⟨-, rfl, hlots, hos, hps, point, hpoint, hpos, hnet, hpts, hedge⟩ :=
            directionGate_eq_some.1 hdir
          exact ⟨policy, u, product, own, peer, minNet, point, hactive,
            hpolicy, hu, hfloor, mem_plannedProducts.1 hplanned, hmem, hid, hq, hown,
            hpeer, hof, hpf, hskew, hdec, hlots, hos, hps, hpoint, hpos, hnet, hpts, hedge⟩
    · cases h
  · rintro ⟨policy, u, product, own, peer, minNet, point, g⟩
    simp only [g.policy_eq, g.universe_eq, g.active, g.floor]
    refine List.mem_flatMap.2 ⟨a.productId, mem_plannedProducts.2 g.planned, ?_⟩
    have hgate : v.productGate policy u a.productId = some (own, peer) :=
      productGate_eq_some.2 ⟨product, g.product_mem, g.product_id,
        g.quarantine, g.own_quote, g.peer_quote, g.own_fresh, g.peer_fresh,
        g.skew, g.undecided⟩
    simp only [View.productAdmitted, hgate]
    refine List.mem_filterMap.2 ⟨a.direction, by cases a.direction <;> simp, ?_⟩
    exact directionGate_eq_some.2 ⟨rfl, rfl, g.sized, g.own_symbol, g.peer_symbol,
      point, g.point_eq, g.point_pos, g.net_price, g.net_points, g.edge⟩

end Gates

/-! ## The value of a candidate in USD -/

namespace Admitted

variable (a : Admitted)

/-- The net price in USD, by the smaller of the two legs' own conversion factors. -/
def netUsd : Rat :=
  a.netPrice * min a.leaderPlan.economics.factor a.followerPlan.economics.factor * a.lots

/-- What the smaller value per point is worth in points, between the two brokers'
points. -/
def effectivePoint : Rat :=
  min a.leaderPlan.economics.usdPerPoint a.followerPlan.economics.usdPerPoint /
    min a.leaderPlan.economics.factor a.followerPlan.economics.factor

/-- The ranking multiplies the net USD of a candidate with its effective point. -/
theorem expectedNetUsd_eq : a.expectedNetUsd = a.netUsd * a.effectivePoint := by
  have hpos : 0 < min a.leaderPlan.economics.factor a.followerPlan.economics.factor :=
    lt_min a.leaderPlan.economics.factor_pos a.followerPlan.economics.factor_pos
  rw [expectedNetUsd, netUsd, effectivePoint]
  field_simp

theorem keyAt_tie {a b : Admitted} {x y : Rat} (h : a.keyAt x = b.keyAt y) :
    a.pair = b.pair := by
  simp only [keyAt, EmbeddingLike.apply_eq_iff_eq, Prod.mk.injEq] at h
  obtain ⟨-, -, hid, hdir⟩ := h
  have hdirection : a.direction = b.direction := by
    cases ha : a.direction <;> cases hb : b.direction <;>
      simp [ha, hb, directionRank] at hdir ⊢
  exact Prod.ext hid hdirection

/-- What is ranked first is worth no less. -/
theorem keyAt_le {a b : Admitted} {x y : Rat} (h : a.keyAt x ≤ b.keyAt y) : y ≤ x := by
  rw [keyAt, keyAt, Prod.Lex.toLex_le_toLex] at h
  obtain h | ⟨h, -⟩ := h
  · exact (neg_lt_neg_iff.1 h).le
  · exact (neg_inj.1 h).ge

end Admitted

/-- Exactly the pairs that pass every gate, by decreasing net USD and then by the
tie-breaks. -/
def Ranked (v : View) (pairs : List (Nat × Direction)) : Prop :=
  pairs.Nodup ∧ (∀ k, k ∈ pairs ↔ ∃ a, Passes v a ∧ a.pair = k) ∧
    pairs.Pairwise fun j k => ∀ a b, Passes v a → Passes v b → a.pair = j → b.pair = k →
      a.keyAt a.netUsd ≤ b.keyAt b.netUsd

/-- Weighting every net USD with its effective point moves no two
candidates past each other. -/
def PointsKeepOrder (v : View) : Prop :=
  ∀ a b, Passes v a → Passes v b →
    (a.keyAt (a.netUsd * a.effectivePoint) ≤ b.keyAt (b.netUsd * b.effectivePoint) ↔
      a.keyAt a.netUsd ≤ b.keyAt b.netUsd)

section Ranking

variable {v : View} {a b : Admitted}

/-- A product and direction is admitted with one set of numbers. -/
theorem Passes.unique (ha : Passes v a) (hb : Passes v b)
    (h : a.pair = b.pair) : a = b := by
  obtain ⟨policy, u, _, own, peer, minNet, point, ga⟩ := ha
  obtain ⟨_, _, _, _, _, _, _, gb⟩ := hb
  obtain ⟨hid, hdir⟩ := Prod.mk.inj h
  have hown := ga.own_quote.symm.trans (hid ▸ gb.own_quote)
  have hpeer := ga.peer_quote.symm.trans (hid ▸ gb.peer_quote)
  have hsized := ga.sized.symm.trans (hid ▸ hdir ▸ gb.sized)
  obtain rfl := Option.some.inj hown
  obtain rfl := Option.some.inj hpeer
  simp only [Option.some.injEq, Prod.mk.injEq] at hsized
  obtain ⟨hlots, hleader, hfollower⟩ := hsized
  obtain rfl := Option.some.inj (ga.point_eq.symm.trans (hleader ▸ gb.point_eq))
  have hnet : a.netPrice = b.netPrice := by rw [ga.net_price, gb.net_price, hdir]
  have hpts : a.netPoints = b.netPoints := by rw [ga.net_points, gb.net_points, hnet]
  cases a
  cases b
  simp_all

theorem productAdmitted_nodup (policy : EntryPolicy) (u : Universe) (minNet : Rat)
    (productId : Nat) :
    ((v.productAdmitted policy u minNet productId).map Admitted.pair).Nodup := by
  unfold View.productAdmitted
  split
  · exact List.nodup_nil
  · next own peer _ =>
    have hdirs : ([Direction.long, .short].filterMap
        (v.directionGate minNet productId own peer)).Pairwise fun a b =>
          a.pair ≠ b.pair := by
      refine List.Pairwise.filterMap _ ?_ (by decide : [Direction.long, .short].Nodup)
      intro d d' hne x hx y hy heq
      have hd := (directionGate_eq_some.1 hx).2.1
      have hd' := (directionGate_eq_some.1 hy).2.1
      exact hne (by rw [← hd, ← hd', (Prod.mk.inj heq).2])
    exact List.pairwise_map.2 hdirs

theorem admitted_nodup (v : View) : (v.admitted.map Admitted.pair).Nodup := by
  unfold View.admitted
  split
  · next policy u _ _ _ =>
    split
    · exact List.nodup_nil
    · next minNet _ =>
      rw [List.map_flatMap, List.nodup_flatMap]
      refine ⟨fun productId _ => productAdmitted_nodup policy u minNet productId, ?_⟩
      have hnodup : v.plannedProducts.Nodup :=
        (List.perm_insertionSort _ _).nodup_iff.2 (List.nodup_dedup _)
      refine hnodup.imp ?_
      intro p q hne k hk hk'
      obtain ⟨a, ha, rfl⟩ := List.mem_map.1 hk
      obtain ⟨b, hb, heq⟩ := List.mem_map.1 hk'
      apply hne
      rw [← productAdmitted_productId ha, ← productAdmitted_productId hb,
        (Prod.mk.inj heq).1]
  · exact List.nodup_nil

theorem mem_ranked : a ∈ v.ranked ↔ Passes v a := by
  rw [View.ranked, mem_rank, mem_admitted]

/-- The order that the claimed value gives to the ranked pairs. -/
theorem ranked_pairwise_iff :
    ((v.ranked.map Admitted.pair).Pairwise fun j k => ∀ a b, Passes v a →
      Passes v b → a.pair = j →
      b.pair = k → a.keyAt a.netUsd ≤ b.keyAt b.netUsd) ↔
    v.ranked.Pairwise fun a b => a.keyAt a.netUsd ≤ b.keyAt b.netUsd := by
  rw [List.pairwise_map]
  constructor
  · intro h
    refine h.imp_of_mem ?_
    intro a b ha hb hab
    exact hab a b (mem_ranked.1 ha) (mem_ranked.1 hb) rfl rfl
  · intro h
    refine h.imp_of_mem ?_
    intro a b ha hb hab a' b' ha' hb' hpair hpair'
    rwa [ha'.unique (mem_ranked.1 ha) hpair, hb'.unique (mem_ranked.1 hb) hpair']

end Ranking

section SamePoint

variable {v : View} {a b : Admitted} {point : Rat}

theorem Admitted.effectivePoint_eq (hpos : 0 < point)
    (hleader : a.leaderPlan.economics.point = point)
    (hfollower : a.followerPlan.economics.point = point) : a.effectivePoint = point := by
  have hmin : 0 < min a.leaderPlan.economics.factor a.followerPlan.economics.factor :=
    lt_min a.leaderPlan.economics.factor_pos a.followerPlan.economics.factor_pos
  rw [effectivePoint, Economics.usdPerPoint_eq, Economics.usdPerPoint_eq,
    hleader, hfollower, ← min_mul_of_nonneg _ _ hpos.le, mul_div_cancel_left₀ _ hmin.ne']

theorem Admitted.keyAt_mul_le {x y : Rat} (hpos : 0 < point) :
    a.keyAt (x * point) ≤ b.keyAt (y * point) ↔ a.keyAt x ≤ b.keyAt y := by
  simp only [keyAt, Prod.Lex.toLex_le_toLex, neg_lt_neg_iff, neg_inj,
    mul_lt_mul_iff_left₀ hpos, mul_left_inj' hpos.ne']

theorem planAt_mem {plans : List PricedPlan} {productId : Nat} {direction : Direction}
    {p : PricedPlan} (h : View.planAt plans productId direction = some p) : p ∈ plans :=
  List.mem_of_find?_eq_some h

theorem pairLots_mem {productId : Nat} {direction : Direction} {lots : Rat}
    {leaderPlan followerPlan : PricedPlan}
    (h : v.pairLots productId direction = some (lots, leaderPlan, followerPlan)) :
    leaderPlan ∈ v.plans ++ v.peerPlans ∧ followerPlan ∈ v.plans ++ v.peerPlans := by
  unfold View.pairLots at h
  split at h
  all_goals
    simp only [Option.bind_eq_bind, Option.bind_eq_some_iff, Option.some.injEq,
      Prod.mk.injEq] at h
    obtain ⟨_, hleader, _, hfollower, _, -, -, rfl, rfl⟩ := h
  · exact ⟨List.mem_append_left _ (planAt_mem hleader),
      List.mem_append_right _ (planAt_mem hfollower)⟩
  · exact ⟨List.mem_append_right _ (planAt_mem hleader),
      List.mem_append_left _ (planAt_mem hfollower)⟩

/-- Where all plans have the same point the order is the claimed one. -/
theorem pointsKeepOrder_of_same_point (hpos : 0 < point)
    (h : ∀ p ∈ v.plans ++ v.peerPlans, p.economics.point = point) : PointsKeepOrder v := by
  have hpoint : ∀ a, Passes v a → a.effectivePoint = point := by
    rintro a ⟨_, _, _, _, _, _, _, g⟩
    obtain ⟨hleader, hfollower⟩ := pairLots_mem g.sized
    exact Admitted.effectivePoint_eq hpos (h _ hleader) (h _ hfollower)
  intro a b ha hb
  rw [hpoint a ha, hpoint b hb, Admitted.keyAt_mul_le hpos]

end SamePoint

namespace Sample

def economics (point lossTickValue : Rat) (hpoint : 0 < point)
    (hloss : 0 < lossTickValue) :
    Economics :=
  ⟨point, point, lossTickValue, hpoint, hpoint, hloss⟩

/-- A plan of one lot whose tick is its point. -/
def tickPlan (productId : Nat) (direction : Direction) (e : Economics) : PricedPlan :=
  { plan :=
      { universeGeneration := 1, productId := productId, symbol := "S",
        direction := direction
        marginPerLot := some 1, localMaxLots := some 1, tickSize := some e.tick
        profitTickValue := some e.lossTickValue, lossTickValue := some e.lossTickValue
        volumeMin := some 1, volumeStep := some 1, fillingMode := 0
        minimumStopDistance := some 0,
        canonicalPoint := some e.point, point := some e.point
        volumeMax := some 10, usdPerPointPerLot := some e.usdPerPoint }
    economics := e, point_eq := rfl, tick_eq := rfl, loss_eq := rfl, usd_eq := rfl }

def coarse : Economics := economics 1 1 (by norm_num) (by norm_num)

def fine : Economics := economics (1 / 1000) 1 (by norm_num) (by norm_num)

def quoteAt (price : Rat) : QuoteSnapshot :=
  { symbol := "S", bid := price, ask := price, brokerTime := 0,
    recoveryEpoch := 0, sequence := 0
    calibration := ⟨0, 0, true⟩ }

/-- Product 1 nets 1 USD a lot on a point of 1, product 2 nets 10 USD
on a point of 0.001. -/
def twoPoints : View :=
  { role := .leader, unpairing := false, now := 0
    policy? := some ⟨1, 1, some 0⟩
    universe? :=
      some ⟨1, [{ product with productId := 1 }, { product with productId := 2 }],
        by decide⟩
    quarantinedProducts := [], quarantinedSymbols := []
    localQuotes := fun _ => some (quoteAt 100)
    peerQuotes := fun id => some (quoteAt (if id = 1 then 101 else 10001 / 100))
    decidedQuotes := fun _ => none
    plans := [tickPlan 1 .long coarse, tickPlan 2 .long fine]
    peerPlans := [tickPlan 1 .short coarse, tickPlan 2 .short fine] }

end Sample

end PairCell.Pricing
