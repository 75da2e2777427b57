import PairCell.Canonical.Survive

/-!
# Envelopes

What a cell hands to its relay, the envelope on the wire, and what the other
cell gets back from it.
-/

namespace PairCell.Canonical

open Lib

variable {F : Type}

structure RouteAssignment where
  routeId : String
  leaderWorkerId : String
  followerWorkerId : String

/-- The sending cell. -/
structure Sender where
  route : RouteAssignment
  role : Role
  workerId : String
  peerWorkerId : String

def protocolVersion : Int := 4

def pairCellProtocolVersion : Int := 1

def roleText : Role → String
  | .leader => "leader"
  | .follower => "follower"

/-- `_envelope` -/
def envelope (cell : Sender) (kind : String) (payload : Fields F) : Fields F :=
  [("protocol_version", .int protocolVersion), ("kind", .str kind),
    ("route_id", .str cell.route.routeId), ("from_worker_id", .str cell.workerId),
    ("from_role", .str (roleText cell.role)), ("to_worker_id", .str cell.peerWorkerId),
    ("payload", .obj payload)]

def claim (route : RouteAssignment) : Fields F :=
  [("route_id", .str route.routeId), ("leader_worker_id", .str route.leaderWorkerId),
    ("follower_worker_id", .str route.followerWorkerId)]

/-- `WorkerPairCellRelay.send`: the envelope on the wire. -/
def send (py : Host F) (route : RouteAssignment) (requestId : String) (e : Fields F) :
    Except PyError (Json F) := do
  let kind := py.str (← get e "kind")
  let inner ← get e "payload"
  let wirePayload : Json F := .obj
    [("protocol_version", getOr e "protocol_version" (.int protocolVersion)),
      ("kind", .str kind), ("route_id", getOr e "route_id" (.str route.routeId)),
      ("from_role", getOr e "from_role" .null), ("payload", inner)]
  let payloadJson := dumps py.floats ⟨false, true⟩ wirePayload
  pure (.obj
    [("type", .str "pair_cell_relay"), ("protocol_version", .int pairCellProtocolVersion),
      ("route", .obj (claim route)),
      ("from_worker_id", .str (py.str (← get e "from_worker_id"))),
      ("to_worker_id", .str (py.str (← get e "to_worker_id"))),
      ("request_id", .str requestId), ("payload_hash", .str (py.sha256 payloadJson)),
      ("payload", wirePayload)])

/-- Nothing for a malformed envelope. -/
def unwrapPairRelayEnvelope (e : Fields F) : Option (Fields F) :=
  match Json.field? e "payload" with
  | some (.obj payload) =>
      match Json.field? payload "kind", Json.field? payload "payload",
        Json.field? payload "protocol_version" with
      | some (.str kind), some (.obj inner), some (.int version) =>
          let declared := getOr payload "route_id" .null
          let routeId := match declared, Json.field? e "route" with
            | .str s, _ => .str s
            | _, some (.obj route) => getOr route "route_id" .null
            | v, _ => v
          some [("protocol_version", .int version), ("kind", .str kind),
            ("route_id", routeId), ("from_role", getOr payload "from_role" .null),
            ("from_worker_id", getOr e "from_worker_id" .null),
            ("to_worker_id", getOr e "to_worker_id" .null), ("payload", .obj inner)]
      | _, _, _ => none
  | _ => none

/-! ## After a transport -/

/-- The value after it was written and read once for each style. -/
def carried (py : Host F) : List Style → Json F → Option (Json F)
  | [], v => some v
  | style :: styles, v =>
      (loads py.floats (dumps py.floats style v)).bind (carried py styles)

variable {py : Host F} {style : Style} {cell : Sender} {kind requestId : String}
    {payload : Fields F}

theorem arrived_distinct {v : Json F} (h : v.Distinct) : (arrived style v).Distinct := by
  unfold arrived
  split
  · exact h.sorted
  · exact h

theorem arrived_arrived (first second : Style) (v : Json F) :
    arrived second (arrived first v) =
      arrived ⟨true, first.sortKeys || second.sortKeys⟩ v := by
  unfold arrived
  cases first.sortKeys <;> cases second.sortKeys <;> simp [Json.sorted_sorted]

/-- Any number of transports is like one. -/
theorem carried_arrived (styles : List Style) {v : Json F} (h : v.Distinct) :
    ∃ style, carried py styles v = some (arrived style v) := by
  induction styles generalizing v with
  | nil => exact ⟨⟨true, false⟩, rfl⟩
  | cons first styles ih =>
      have hdistinct : (arrived first v).Distinct := arrived_distinct h
      obtain ⟨second, hsecond⟩ := ih hdistinct
      refine ⟨⟨true, first.sortKeys || second.sortKeys⟩, ?_⟩
      rw [carried, loads_arrived h, Option.bind_some, hsecond, arrived_arrived]

theorem canonicalJson_congr {v w : Json F} (h : v.sorted = w.sorted) :
    canonicalJson py v = canonicalJson py w := by
  have hspecial : v.special = w.special := by
    rw [← Json.special_sorted v, h, Json.special_sorted]
  have htext : dumps py.floats ⟨true, true⟩ v = dumps py.floats ⟨true, true⟩ w :=
    congrArg (Json.print py.floats true) h
  rw [canonicalJson, canonicalJson, hspecial, htext]

theorem sorted_arrived (v : Json F) : (arrived style v).sorted = v.sorted := by
  unfold arrived
  split
  · exact Json.sorted_sorted v
  · rfl

/-- What the other cell gets. -/
def unwrapped (style : Style) (cell : Sender) (kind : String)
    (payload : Fields F) : Fields F :=
  [("protocol_version", .int protocolVersion), ("kind", .str kind),
    ("route_id", .str cell.route.routeId), ("from_role", .str (roleText cell.role)),
    ("from_worker_id", .str cell.workerId), ("to_worker_id", .str cell.peerWorkerId),
    ("payload", .obj (arrivedFields style payload))]

def wirePayload (cell : Sender) (kind : String) (payload : Fields F) : Fields F :=
  [("protocol_version", .int protocolVersion), ("kind", .str kind),
    ("route_id", .str cell.route.routeId), ("from_role", .str (roleText cell.role)),
    ("payload", .obj payload)]

def wireEnvelope (py : Host F) (cell : Sender) (kind requestId : String)
    (payload : Fields F) : Fields F :=
  [("type", .str "pair_cell_relay"), ("protocol_version", .int pairCellProtocolVersion),
    ("route", .obj (claim cell.route)), ("from_worker_id", .str cell.workerId),
    ("to_worker_id", .str cell.peerWorkerId), ("request_id", .str requestId),
    ("payload_hash",
      .str (py.sha256 (dumps py.floats ⟨false,
        true⟩ (.obj (wirePayload cell kind payload))))),
    ("payload", .obj (wirePayload cell kind payload))]

theorem send_envelope : send py cell.route requestId (envelope cell kind payload) =
    .ok (.obj (wireEnvelope py cell kind requestId payload)) := by
  simp [send, envelope, get, getOr, Json.field?, Host.str, wireEnvelope, wirePayload, bind,
    Except.bind, pure, Except.pure]

theorem wireEnvelope_distinct (h : (Json.obj payload).Distinct) :
    (Json.obj (wireEnvelope py cell kind requestId payload)).Distinct := by
  simpa [Json.Distinct, Json.DistinctFields, wireEnvelope, wirePayload, claim] using h

theorem unwrap_arrived :
    unwrapPairRelayEnvelope
      (arrivedFields style (wireEnvelope py cell kind requestId payload)) =
      some (unwrapped style cell kind payload) := by
  have houter : ((wireEnvelope py cell kind requestId payload).map Prod.fst).Nodup := by
    simp [wireEnvelope]
  have hinner : ((wirePayload cell kind payload).map Prod.fst).Nodup := by
    simp [wirePayload]
  have hpayload : Json.field? (wireEnvelope py cell kind requestId payload) "payload" =
      some (.obj (wirePayload cell kind payload)) := by simp [wireEnvelope, Json.field?]
  simp only [unwrapPairRelayEnvelope, field?_arrived houter, hpayload, Option.map_some,
    arrived_obj, getOr, field?_arrived hinner]
  simp [wireEnvelope, wirePayload, Json.field?, unwrapped]

theorem unwrapped_text : canonicalJson py (.obj (unwrapped style cell kind payload)) =
    canonicalJson py (.obj (envelope cell kind payload)) := by
  have hperm : (unwrapped style cell kind payload).Perm
      (envelope cell kind (arrivedFields style payload)) :=
    .cons _ (.cons _ (.cons _ (.swap _ _ _)))
  have hkeys : ((unwrapped style cell kind payload).map Prod.fst).Nodup := by
    simp [unwrapped]
  have hpayload : (Json.obj (arrivedFields style payload)).sorted =
      (Json.obj payload).sorted := by
    rw [← arrived_obj, sorted_arrived]
  refine canonicalJson_congr ?_
  rw [Json.sorted_of_perm hperm hkeys, Json.sorted_obj, Json.sorted_obj]
  simp only [envelope, List.map_cons, hpayload]

/-! ## Identities -/

/-- However often the form is carried, it is read back as a record with these
properties. -/
def ReadBack {α : Type} (py : Host F) (form : Json F)
    (decode : Fields F → Except PyError α) (same : α → Prop) : Prop :=
  ∀ styles, ∃ fields x, carried py styles form = some (.obj fields) ∧
    decode fields = .ok x ∧ same x

theorem readBack {α : Type} {form : Fields F} {decode : Fields F → Except PyError α}
    {same : α → Prop} (hdistinct : (Json.obj form).Distinct)
    (h : ∀ style, ∃ x, decode (arrivedFields style form) = .ok x ∧ same x) :
    ReadBack py (.obj form) decode same := by
  intro styles
  obtain ⟨style, hcarried⟩ :=
    (carried_arrived styles hdistinct : ∃ style, carried py styles _ = _)
  obtain ⟨x, hx, hsame⟩ := h style
  exact ⟨_, x, hcarried.trans (congrArg some (arrived_obj form)), hx, hsame⟩

end PairCell.Canonical
