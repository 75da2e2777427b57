import PairCell.Canonical.Envelope

/-!
# Identities on the wire and on the disk
-/

namespace PairCell.Canonical

open Lib

variable {F : Type} {py : Host F} {style : Style}

theorem risk_distinct (r : RiskFields) : (r.canonical : Json F).Distinct := by
  simp [Json.Distinct, Json.DistinctFields, RiskFields.canonical, RiskFields.fields]

theorem acceptance_distinct (a : AcceptanceFields) : (a.canonical : Json F).Distinct := by
  simp [Json.Distinct, Json.DistinctFields, AcceptanceFields.canonical,
    AcceptanceFields.fields]

theorem plan_distinct (p : SizingPlan) : (p.canonical : Json F).Distinct := by
  simp [Json.Distinct, Json.DistinctFields, SizingPlan.canonical, SizingPlan.fields]

theorem attempt_distinct (a : Attempt py) : a.canonical.Distinct := by
  simp [Json.Distinct, Json.DistinctFields, Attempt.canonical, Attempt.fields,
    QuoteSnapshot.fields, Calibration.fields]

theorem policy_distinct (p : StrategyPolicy py) : p.canonical.Distinct := by
  have hplain := plain_of_check p.checked
  obtain ⟨holding, hholding, -⟩ := hplain.holding
  obtain ⟨start, hstart⟩ := hplain.start
  obtain ⟨stop, hstop⟩ := hplain.stop
  obtain ⟨mode, hmode⟩ := hplain.mode
  simp [Json.Distinct, Json.DistinctFields, PolicyFields.canonical,
    PolicyFields.fields, risk_distinct, hholding, scalar_distinct, hstart, hstop, hmode]

/-- A checked policy has a hash. -/
theorem policy_hash (p : StrategyPolicy py) : ∃ h, p.hash py = .ok h := by
  have hplain := plain_of_check p.checked
  obtain ⟨age, hage⟩ := hplain.age
  obtain ⟨skew, hskew⟩ := hplain.skew
  obtain ⟨confirmation, hconfirmation⟩ := hplain.confirmation
  obtain ⟨sizing, hsizing⟩ := hplain.sizing
  obtain ⟨relay, hrelay⟩ := hplain.relay
  obtain ⟨cooldown, hcooldown⟩ := hplain.cooldown
  obtain ⟨holding, hholding, hspecial⟩ := hplain.holding
  obtain ⟨start, hstart⟩ := hplain.start
  obtain ⟨stop, hstop⟩ := hplain.stop
  obtain ⟨mode, hmode⟩ := hplain.mode
  have hnone : p.canonical.special = false := by
    simp [Json.special, Json.specialFields, PolicyFields.canonical, PolicyFields.fields,
      RiskFields.canonical, RiskFields.fields, hage, hskew, hconfirmation, hsizing,
      hrelay, hcooldown, hholding, hspecial, hstart, hstop, hmode]
  refine ⟨py.sha256 (dumps py.floats ⟨true, true⟩ p.canonical), ?_⟩
  simp [PolicyFields.hash, hash, canonicalJson, hnone, Except.map]

theorem verbatim_refl (w : WorkerRiskLimits) : isVerbatimCopyOf py w w = .ok true := by
  have hnone : (w.canonical : Json F).special = false := by
    simp [Json.special, Json.specialFields, RiskFields.canonical, RiskFields.fields]
  simp [isVerbatimCopyOf, canonicalJson, hnone, bind, Except.bind, pure, Except.pure]

theorem fields_of_make {f : PolicyFields F} {p : StrategyPolicy py}
    (h : StrategyPolicy.make py f = .ok p) : p.toPolicyFields = f := by
  unfold StrategyPolicy.make at h
  split at h
  · cases h
    rfl
  · cases h

/-- The follower's block in a composed policy is the one that the follower computes
itself. -/
theorem followerRisk_of_composed {version : String} {leaderRisk : WorkerRiskLimits}
    {acceptance : PairingAcceptance} {shared : Fields F} {p : StrategyPolicy py}
    (h : canonicalPolicyFromAcceptance py version leaderRisk acceptance shared = .ok p) :
    ∃ limits, acceptance.riskLimits = .ok limits ∧
      riskWithUnifiedBudget py limits p.strategyBudgetUsd = .ok p.followerRisk := by
  unfold canonicalPolicyFromAcceptance at h
  obtain ⟨values, -, h⟩ := bind_eq_ok.1 h
  obtain ⟨budget, -, h⟩ := bind_eq_ok.1 h
  obtain ⟨resolved, -, h⟩ := bind_eq_ok.1 h
  cases resolved with
  | none => cases h
  | some unified =>
      simp only [bind_eq_ok] at h
      obtain ⟨_, -, _, -, _, -, _, -, _, -, _, -, limits, hlimits, follower, hfollower,
          _, -, _, -, _, -,
        _, -, _, -, _, -, _, -, _, -, _, -, _, -, _, -, _, -, hmake⟩ := h
      have hfields := fields_of_make hmake
      refine ⟨limits, hlimits, ?_⟩
      rw [hfields]
      exact hfollower

/-- The policy that the leader published is not refused as malformed, for its hash, or as a
changed copy. -/
theorem judgePolicy_composed {version declared : String} {leaderRisk : WorkerRiskLimits}
    {acceptance : PairingAcceptance} {shared : Fields F} {p : StrategyPolicy py}
    (h : canonicalPolicyFromAcceptance py version leaderRisk acceptance shared = .ok p)
    (hhash : p.hash py = .ok declared) {desk : Desk py}
    (hdesk : desk.localAcceptance = some acceptance) (leaderEmpty : Bool) :
    ∃ ack desk', judgePolicy py desk declared leaderEmpty p = .ok (ack, desk') ∧
      ack.reason ≠ .malformed ∧ ack.reason ≠ .hashMismatch ∧
      ack.reason ≠ .notVerbatim := by
  obtain ⟨limits, hlimits, hrisk⟩ := followerRisk_of_composed h
  obtain ⟨current, hcurrent⟩ :
      ∃ current, desk.policy.elim (.ok none) (fun p => (p.hash py).map some) =
      (.ok current : Except PyError (Option String)) := by
    cases hpolicy : desk.policy with
    | none => exact ⟨none, rfl⟩
    | some q =>
        obtain ⟨hash, hq⟩ := policy_hash q
        exact ⟨some hash, by rw [Option.elim_some, hq]; rfl⟩
  simp only [judgePolicy, hhash, bind, Except.bind, ne_eq, not_true_eq_false, if_false,
    hcurrent, hdesk, hlimits, hrisk, verbatim_refl, Bool.not_true, Bool.false_eq_true]
  split
  · exact ⟨_, _, rfl, by simp, by simp, by simp⟩
  · cases hblocked : desk.blocked with
    | some reason => exact ⟨_, _, rfl, by simp, by simp, by simp⟩
    | none =>
        cases leaderEmpty with
        | true => exact ⟨_, _, rfl, by simp, by simp, by simp⟩
        | false => exact ⟨_, _, rfl, by simp, by simp, by simp⟩

/-- The envelope that the other cell gets for a payload. -/
def delivered (py : Host F) (cell : Sender) (kind requestId : String) (payload : Fields F)
    (styles : List Style) : Option (Fields F) :=
  match send py cell.route requestId (envelope cell kind payload) with
  | .ok wire =>
      match carried py styles wire with
      | some (.obj fields) => unwrapPairRelayEnvelope fields
      | _ => none
  | .error _ => none

theorem delivered_unwrapped {payload : Fields F} (h : (Json.obj payload).Distinct)
    (cell : Sender) (kind requestId : String) (styles : List Style) :
    ∃ style, delivered py cell kind requestId payload styles =
      some (unwrapped style cell kind payload) := by
  obtain ⟨style, hcarried⟩ : ∃ style, carried py styles
      (.obj (wireEnvelope py cell kind requestId payload)) = some (arrived style _) :=
    carried_arrived styles (wireEnvelope_distinct h)
  refine ⟨style, ?_⟩
  simp only [delivered, send_envelope, hcarried, arrived_obj]
  exact unwrap_arrived

/-- The policy is composed from the leader's copy of the acceptance. -/
def Composed (py : Host F) (acceptance : PairingAcceptance)
    (p : StrategyPolicy py) : Prop :=
  ∃ styles fields copy version leaderRisk shared,
    carried py styles acceptance.canonical = some (.obj fields) ∧
    acceptanceFromCanonical py fields = .ok copy ∧
    canonicalPolicyFromAcceptance py version leaderRisk copy shared = .ok p

theorem copy_eq {acceptance copy : PairingAcceptance} {styles : List Style}
    {fields : Fields F}
    (hcarried : carried py styles acceptance.canonical = some (.obj fields))
    (hcopy : acceptanceFromCanonical py fields = .ok copy) : copy = acceptance := by
  obtain ⟨style, harrived⟩ : ∃ style, carried py styles acceptance.canonical =
      some (arrived style _) :=
    carried_arrived styles (acceptance_distinct _)
  rw [harrived, AcceptanceFields.canonical, arrived_obj] at hcarried
  cases hcarried
  rw [acceptanceFromCanonical_arrived] at hcopy
  exact (Except.ok.inj hcopy).symm

theorem publish_accepted {acceptance : PairingAcceptance} {p : StrategyPolicy py}
    (hp : Composed py acceptance p) {desk : Desk py} (hrole : desk.role = .follower)
    (hdesk : desk.localAcceptance = some acceptance) (brokerVerifiedEmpty : Bool) :
    ∃ payload, publishPolicy py p brokerVerifiedEmpty = .ok payload ∧
      (Json.obj payload).Distinct ∧
      ∀ style, ∃ ack desk', acceptLeaderPolicy py desk (arrivedFields style payload) =
          .ok (some ack, desk') ∧
        ack.reason ≠ .malformed ∧ ack.reason ≠ .hashMismatch ∧
        ack.reason ≠ .notVerbatim := by
  obtain ⟨styles, fields, copy, version, leaderRisk, shared, hcarried, hcopy,
      hcomposed⟩ := hp
  obtain rfl := copy_eq hcarried hcopy
  obtain ⟨declared, hhash⟩ := policy_hash p
  refine ⟨_, by rw [publishPolicy, hhash]; rfl, ?_, fun style => ?_⟩
  · have hpolicy := policy_distinct p
    simpa [Json.Distinct, Json.DistinctFields] using hpolicy
  · have hkeys : (([("policy", p.canonical), ("policy_hash", .str declared),
        ("leader_broker_verified_empty", .bool brokerVerifiedEmpty)] :
          Fields F).map Prod.fst).Nodup := by
      simp
    obtain ⟨ack, desk', hjudge, hreasons⟩ :=
      judgePolicy_composed hcomposed hhash hdesk brokerVerifiedEmpty
    refine ⟨ack, desk', ?_, hreasons⟩
    have hleader : desk.role ≠ .leader := by
      rw [hrole]
      decide
    simp only [acceptLeaderPolicy, hleader, if_false, field?_arrived hkeys]
    simp [Json.field?, PolicyFields.canonical, policyFromCanonical_arrived,
      hjudge, Except.map]

/-- Every policy, attempt, sizing plan, product and universe is read back from the JSON
text of its canonical form with the same form and the same identity; the other cell gets
every envelope with the same JSON text; and a follower never refuses a policy made from its
own acceptance as malformed, for its hash or as a changed copy. -/
theorem identities_survive (py : Host F) :
    (∀ version leaderRisk acceptance shared p,
      canonicalPolicyFromAcceptance py version leaderRisk acceptance shared = .ok p →
      ReadBack py p.canonical (policyFromCanonical py) fun q =>
        q.canonical = p.canonical ∧ q.hash py = p.hash py) ∧
    (∀ a : Attempt py, ReadBack py a.canonical (attemptFromCanonical py) fun b =>
      b.canonical = a.canonical ∧ b.payloadHash = a.payloadHash) ∧
    (∀ p : SizingPlan, ReadBack py p.canonical planFromCanonical fun q =>
      (q.canonical : Json F) = p.canonical ∧ q.version py = p.version py) ∧
    (∀ (p : DiscoveredProduct F) form, p.canonical py = .ok form →
      ReadBack py form (productFromCanonical py) fun q =>
        q.canonical py = .ok form ∧ q.productId py = p.productId py) ∧
    (∀ (u : DiscoveredUniverse F) form, u.canonical py = .ok form →
      ReadBack py form (universeFromCanonical py) fun w =>
        w.canonical py = .ok form ∧ w.hash py = u.hash py) ∧
    (∀ cell kind requestId (payload : Fields F) styles, (Json.obj payload).Distinct →
      ∃ e, delivered py cell kind requestId payload styles = some e ∧
        canonicalJson py (.obj e) = canonicalJson py (.obj (envelope cell kind payload))) ∧
    (∀ acceptance p, Composed py acceptance p → ∀ desk : Desk py, desk.role = .follower →
      desk.localAcceptance = some acceptance → ∀ brokerVerifiedEmpty cell requestId styles,
      ∃ payload e inner ack desk', publishPolicy py p brokerVerifiedEmpty = .ok payload ∧
        delivered py cell "policy" requestId payload styles = some e ∧
        Json.field? e "payload" = some (.obj inner) ∧
        acceptLeaderPolicy py desk inner = .ok (some ack, desk') ∧
        ack.reason ≠ .malformed ∧ ack.reason ≠ .hashMismatch ∧
        ack.reason ≠ .notVerbatim) := by
  refine ⟨?_, ?_, ?_, ?_, ?_, ?_, ?_⟩
  · intro version leaderRisk acceptance shared p _
    exact readBack (policy_distinct p) fun style =>
      ⟨p, policyFromCanonical_arrived p, rfl, rfl⟩
  · intro a
    exact readBack (attempt_distinct a) fun style =>
      ⟨_, attemptFromCanonical_arrived a, rfl, rfl⟩
  · intro p
    exact readBack (plan_distinct p) fun style =>
      ⟨p, planFromCanonical_arrived p, rfl, rfl⟩
  · intro p form hform
    obtain ⟨id, hid, rfl⟩ := map_eq_ok.1 hform
    exact readBack (product_distinct p id) fun style =>
      ⟨p.ordered, productFromCanonical_arrived hid, (ordered_canonical p).trans hform,
        ordered_productId p⟩
  · intro u form hform
    obtain ⟨forms, hforms, rfl⟩ := map_eq_ok.1 hform
    have harrived : ∀ style : Style, (Json.obj (u.fields forms)).Distinct ∧
        universeFromCanonical py (arrivedFields style (u.fields forms)) =
          .ok u.ordered ∧ _ :=
      fun style => universeFromCanonical_arrived hforms
    have hwritten := (harrived ⟨true, true⟩).2.2
    refine readBack (harrived ⟨true, true⟩).1 fun style =>
      ⟨u.ordered, (harrived style).2.1, hwritten, ?_⟩
    rw [DiscoveredUniverse.hash, DiscoveredUniverse.hash, hwritten, hform]
  · intro cell kind requestId payload styles hpayload
    obtain ⟨style, hdelivered⟩ :
        ∃ style, delivered py cell kind requestId payload styles = _ :=
      delivered_unwrapped hpayload cell kind requestId styles
    exact ⟨_, hdelivered, unwrapped_text⟩
  · intro acceptance p hp desk hrole hdesk brokerVerifiedEmpty cell requestId styles
    obtain ⟨payload, hpublish, hdistinct, haccept⟩ :=
      publish_accepted hp hrole hdesk brokerVerifiedEmpty
    obtain ⟨style, hdelivered⟩ :
        ∃ style, delivered py cell "policy" requestId payload styles = _ :=
      delivered_unwrapped hdistinct cell "policy" requestId styles
    obtain ⟨ack, desk', hack, hreasons⟩ := haccept style
    exact ⟨payload, _, _, ack, desk', hpublish, hdelivered,
      by simp [unwrapped, Json.field?], hack, hreasons⟩

namespace Sample

/-- The floats of the default policy. -/
inductive Seconds where
  | zero
  | six
  | thirty
  | sixty
  | fiveMinutes
  | hour
deriving DecidableEq

namespace Seconds

def count : Seconds → Nat
  | .zero => 0
  | .six => 6
  | .thirty => 30
  | .sixty => 60
  | .fiveMinutes => 300
  | .hour => 3600

def all : List Seconds := [.zero, .six, .thirty, .sixty, .fiveMinutes, .hour]

def repr (x : Seconds) : List Char := Nat.toDigits 10 x.count ++ ['.', '0']

def floats : FloatText Seconds where
  repr := repr
  parse s := (all.find? fun x => decide (x.repr = s)).map .finite
  literal x := by cases x <;> decide
  parse_repr x := by cases x <;> decide

end Seconds

def host : Host Seconds where
  floats := Seconds.floats
  value x := x.count
  zero := .zero
  value_zero := rfl
  exact x := ⟨false, x.count, 0⟩
  ofInt n := Seconds.all.find? fun x => decide ((x.count : Int) = n)
  containerText _ := "[]"
  sha256 s := String.ofList s

def limits (budget : String) : RiskFields := ⟨budget, "0.15", "60", "0.02", "0.01"⟩

def acceptance : AcceptanceFields :=
  ⟨"9", "2", "1200.5", "USD", "0.15", "0.02", "0.01", "60"⟩

/-- The policy for these two blocks, with one budget for both legs. -/
def policy : Except PyError (StrategyPolicy host) := do
  canonicalPolicyFromAcceptance host "7" (← WorkerRiskLimits.make (limits "1000"))
    (← PairingAcceptance.make acceptance) [("strategy_budget_usd", .str "2500.50")]

theorem policy_read_back : ∃ p, policy = .ok p ∧
    ReadBack host p.canonical (policyFromCanonical host) fun q =>
      q.canonical = p.canonical ∧ q.hash host = p.hash host := by
  have hsome : policy.toOption.isSome = true := by decide +kernel
  cases hp : policy with
  | error e => simp [hp, Except.toOption] at hsome
  | ok p =>
      obtain ⟨leaderRisk, -, h⟩ := bind_eq_ok.1 hp
      obtain ⟨acceptance, -, h⟩ := bind_eq_ok.1 h
      exact ⟨p, rfl, (identities_survive host).1 _ _ _ _ p h⟩

end Sample

end PairCell.Canonical
