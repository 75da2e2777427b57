import PairCell.Bridge.OneShot

/-!
# The child of the one order

A frame is read exactly if all of it comes.  The order is sent exactly if the
request came whole and the bridge, MT5 and the account allow it, and it is sent
once.
-/

namespace PairCell.Bridge

open Lib Lib.Json

variable {F : Type} {fmt : FloatText F}

/-! ## Streams that stop -/

/-- The bytes come in chunks that are not empty, and then the stream ends or nothing comes
in time. -/
def Arrives (stream : List Input) (bytes : Bytes) : Prop :=
  ∃ head tail, stream = head ++ tail ∧ Cut head bytes ∧
    (tail = [] ∨ ∃ more, tail = .timeout :: more)

theorem Cut.arrives {stream : List Input} {bytes : Bytes} (h : Cut stream bytes) :
    Arrives stream bytes :=
  ⟨stream, [], (List.append_nil _).symm, h, .inl rfl⟩

theorem readExact_append {n : Nat} {stream stream' : List Input} {b : Bytes}
    (h : readExact n stream = .ok (b, stream')) (tail : List Input) :
    readExact n (stream ++ tail) = .ok (b, stream' ++ tail) := by
  induction stream generalizing n b with
  | nil =>
      cases n with
      | zero =>
          cases h
          rw [readExact, List.nil_append]
      | succ n => cases h
  | cons i stream ih =>
      cases n with
      | zero =>
          cases h
          rw [readExact]
      | succ n =>
          cases i with
          | timeout => cases h
          | chunk c =>
              rw [List.cons_append]
              rw [readExact] at h ⊢
              by_cases hc : c = []
              · rw [if_pos hc] at h
                cases h
              · rw [if_neg hc] at h ⊢
                by_cases hlong : c.length ≤ n + 1
                · rw [if_pos hlong] at h ⊢
                  cases hread : readExact (n + 1 - c.length) stream with
                  | error e =>
                      rw [hread] at h
                      cases h
                  | ok p =>
                      rw [hread] at h
                      cases h
                      rw [ih hread]
                      rfl
                · rw [if_neg hlong] at h ⊢
                  cases h
                  rfl

theorem readExact_stuck {stream : List Input} {bytes : Bytes}
    (h : Arrives stream bytes) {n : Nat} (hn : bytes.length < n) :
    ∃ e, readExact n stream = .error e := by
  obtain ⟨head, tail, rfl, ⟨chunks, hne, rfl, rfl⟩, htail⟩ := h
  induction chunks generalizing n with
  | nil =>
      cases n with
      | zero => cases hn
      | succ n =>
          obtain rfl | ⟨more, rfl⟩ := htail
          · exact ⟨_, rfl⟩
          · exact ⟨_, rfl⟩
  | cons c chunks ih =>
      obtain ⟨hc, hchunks⟩ := List.forall_mem_cons.1 hne
      rw [List.flatten_cons, List.length_append] at hn
      cases n with
      | zero => cases hn
      | succ n =>
          obtain ⟨e, he⟩ :=
            ih hchunks (show chunks.flatten.length < n + 1 - c.length by omega)
          exact ⟨e, by
            rw [List.map_cons, List.cons_append, readExact, if_neg hc,
              if_pos (by omega), he]
            rfl⟩

theorem Arrives.readExact {stream : List Input} {bytes rest : Bytes}
    (h : Arrives stream (bytes ++ rest)) :
    ∃ stream', Bridge.readExact bytes.length stream = .ok (bytes, stream') ∧
      Arrives stream' rest := by
  obtain ⟨head, tail, rfl, hcut, htail⟩ := h
  obtain ⟨head', hread, hrest⟩ := readExact_cut hcut
  exact ⟨head' ++ tail, readExact_append hread tail, head', tail, rfl, hrest, htail⟩

theorem readFrame_arrives {stream : List Input} {body rest : Bytes}
    (hsize : body.length ≤ maxFrameBytes)
    (h : Arrives stream (pack body.length ++ (body ++ rest))) :
    ∃ stream', readFrame fmt stream = (decodeJsonObject fmt body).map fun fields =>
      (fields, stream') := by
  have hmax : maxFrameBytes = 4194304 := rfl
  have hlength : (pack body.length).length = 4 := rfl
  obtain ⟨middle, hheader, hmiddle⟩ := h.readExact
  obtain ⟨stream', hbody, -⟩ := hmiddle.readExact
  rw [hlength] at hheader
  refine ⟨stream', ?_⟩
  simp only [readFrame, hheader, bind, Except.bind,
    unpack_pack (show body.length < 4294967296 by omega), if_neg (not_lt.2 hsize), hbody]
  cases decodeJsonObject fmt body <;> rfl

theorem readFrame_stuck {stream : List Input} {body part rest : Bytes}
    (hsize : body.length ≤ maxFrameBytes)
    (hsplit : pack body.length ++ body = part ++ rest) (hrest : rest ≠ [])
    (h : Arrives stream part) : ∃ e, readFrame fmt stream = .error e := by
  have hmax : maxFrameBytes = 4194304 := rfl
  have hpos := List.length_pos_iff.2 hrest
  have hlength := congrArg List.length hsplit
  have hheader : (pack body.length).length = 4 := rfl
  simp only [List.length_append, hheader] at hlength
  by_cases hshort : part.length < 4
  · obtain ⟨e, he⟩ := readExact_stuck h hshort
    exact ⟨e, by rw [readFrame, he]; rfl⟩
  · -- the header comes, a part of the body does not
    obtain ⟨middle, rfl⟩ : ∃ middle, part = pack body.length ++ middle := by
      refine ⟨part.drop 4, ?_⟩
      have htake := congrArg (List.take 4) hsplit
      rw [List.take_append_of_le_length (by omega),
        List.take_append_of_le_length (by omega),
        List.take_of_length_le (by omega)] at htake
      rw [htake, List.take_append_drop]
    rw [List.length_append, hheader] at hlength
    obtain ⟨stream', hread, harrives⟩ := h.readExact
    rw [hheader] at hread
    obtain ⟨e, he⟩ := readExact_stuck harrives (show middle.length < body.length by omega)
    refine ⟨e, ?_⟩
    simp only [readFrame, hread, bind, Except.bind,
      unpack_pack (show body.length < 4294967296 by omega), if_neg (not_lt.2 hsize), he]

/-- A frame is read exactly if all of it comes and the reader takes its value. -/
theorem readFrame_part {value : List (Key F × Value F)} {fields : List (String × Json F)}
    {frame : Bytes} (hencode : encodeFrame fmt value = .ok frame)
    (hfields : Value.toFields fmt value = some fields) {stream : List Input} {n : Nat}
    (h : Arrives stream (frame.take n)) :
    (∃ rest, readFrame fmt stream = .ok (fields, rest)) ∧ frame.length ≤ n ∧
    Readable fields ∨
      (∃ e, readFrame fmt stream = .error e) ∧ ¬(frame.length ≤ n ∧ Readable fields) := by
  obtain ⟨fields', hfields', hsize, hframe⟩ := encodeFrame_ok hencode
  obtain rfl := Option.some.inj (hfields'.symm.trans hfields)
  by_cases hwhole : frame.length ≤ n
  · have harrives : Arrives stream (pack (bodyOf fmt (.obj fields')).length ++
        (bodyOf fmt (.obj fields') ++ [])) := by
      rwa [List.append_nil, ← hframe, ← List.take_of_length_le hwhole]
    obtain ⟨stream', hread⟩ := readFrame_arrives hsize harrives
    rw [hread]
    by_cases hreadable : Readable fields'
    · rw [decode_bodyOf hreadable.1 ⟨hreadable.2, toFields_finite hfields⟩]
      exact .inl ⟨⟨stream', rfl⟩, hwhole, hreadable⟩
    · refine .inr ⟨?_, fun hboth => hreadable hboth.2⟩
      cases hdecode : decodeJsonObject fmt (bodyOf fmt (.obj fields')) with
      | error e => exact ⟨e, rfl⟩
      | ok decoded =>
          obtain ⟨hsound, hvalue⟩ := decode_ok hdecode
          obtain ⟨heq, hdepth⟩ := hvalue _ rfl
          cases heq
          exact (hreadable ⟨hdepth, hsound.1⟩).elim
  · refine .inr ⟨?_, fun hboth => hwhole hboth.1⟩
    have hsplit : pack (bodyOf fmt (.obj fields')).length ++ bodyOf fmt (.obj fields') =
        frame.take n ++ frame.drop n := by rw [List.take_append_drop, hframe]
    exact readFrame_stuck hsize hsplit (by rwa [ne_eq, List.drop_eq_nil_iff]) h

theorem readFrame_nothing {stream : List Input} (h : Arrives stream []) :
    ∃ e, readFrame fmt stream = .error e := by
  obtain ⟨e, he⟩ := readExact_stuck h (show ([] : Bytes).length < 4 by decide)
  exact ⟨e, by rw [readFrame, he]; rfl⟩

/-! ## The checks of the child -/

def Order.arrivedParams (order : Order F) (request : List (String × Json F)) :
    List (String × Json F) :=
  [("request", .obj request), ("expected_login", .int order.expectedLogin),
    ("expected_server", .str order.expectedServer)]

/-- The request as the child reads it. -/
def Order.arrived (order : Order F) (requestId : String)
    (request : List (String × Json F)) :
    List (String × Json F) :=
  [("version", .int protocolVersion), ("id", .str requestId),
    ("operation", .str "order_send"), ("params", .obj (order.arrivedParams request))]

/-- An order that the bridge sends: only fields of an order, with an action, neither a
comment nor a magic number, and scalars. -/
structure Sendable (fmt : FloatText F) (request : List (String × Json F)) : Prop where
  known : ∀ k ∈ keys request, k ∈ orderRequestFields
  action : "action" ∈ keys request
  comment : ∀ v, field? request "comment" = some v → truthy fmt v = false
  magic : ∀ v, field? request "magic" = some v → v = .null
  scalars : ∀ f ∈ request, scalar f.2 = true

/-- MT5 is ready, and its account is the one that the order is for. -/
def Mt5.Accepts (m : Mt5 F) (order : Order F) : Prop :=
  m.initialized = .returns true ∧ 0 < order.expectedLogin ∧ order.expectedServer ≠ "" ∧
    m.accountInfo = .returns (some ⟨some order.expectedLogin, some order.expectedServer⟩)

theorem orderRequest_sendable {params request : List (String × Json F)}
    (quoted : String → String) (hparams : field? params "request" = some (.obj request)) :
    orderRequest fmt quoted params = .ok request ∧ Sendable fmt request ∨
      (∃ e, orderRequest fmt quoted params = .error e) ∧ ¬Sendable fmt request := by
  simp only [orderRequest, hparams]
  split
  · next hunknown =>
    refine .inr ⟨⟨_, rfl⟩, fun h => hunknown ?_⟩
    rw [List.filter_eq_nil_iff]
    intro k hk
    simpa using h.known k hk
  · next hknown =>
    split
    · next haction => exact .inr ⟨⟨_, rfl⟩, fun h => haction h.action⟩
    · next haction =>
      split
      · next hset =>
        refine .inr ⟨⟨_, rfl⟩, fun h => ?_⟩
        simp only [Option.any_eq_true] at hset
        obtain ⟨v, hv, htrue⟩ | ⟨v, hv, hmagic⟩ := hset
        · rw [h.comment v hv] at htrue
          cases htrue
        · cases h.magic v hv
          cases hmagic
      · next hset =>
        split
        · next f hf =>
          refine .inr ⟨⟨_, rfl⟩, fun h => ?_⟩
          have hnot := List.find?_some hf
          rw [h.scalars f (List.mem_of_find?_eq_some hf)] at hnot
          cases hnot
        · next hf =>
          rw [not_or] at hset
          refine .inl ⟨rfl, ⟨fun k hk => ?_, not_not.1 haction, fun v hv => ?_,
            fun v hv => ?_,
            fun f hf' => ?_⟩⟩
          · simpa using List.filter_eq_nil_iff.1 (not_not.1 hknown) k hk
          · simpa [hv] using hset.1
          · cases v <;> simp [hv] at hset ⊢
          · simpa using List.find?_eq_none.1 hf f hf'

theorem validateRequest_arrived (quoted : String → String) (order : Order F)
    (requestId : String) (request : List (String × Json F)) :
    validateRequest fmt quoted (order.arrived requestId request) true =
        .ok (requestId, "order_send", order.arrivedParams request) ∧
      (requestId ≠ "" ∧ requestId.length ≤ 128 ∧ Sendable fmt request) ∨
    (∃ e, validateRequest fmt quoted (order.arrived requestId request) true = .error e) ∧
      ¬(requestId ≠ "" ∧ requestId.length ≤ 128 ∧ Sendable fmt request) := by
  have hknown : (keys (order.arrived requestId request)).filter
      (fun k => k ∉ requestFields) = [] := by
    rw [show keys (order.arrived requestId request) = requestFields from rfl]
    decide
  have hversion : field? (order.arrived requestId request) "version" =
      some (.int protocolVersion) := rfl
  have hrequestId : field? (order.arrived requestId request) "id" =
      some (.str requestId) := rfl
  have hoperation : field? (order.arrived requestId request) "operation" =
      some (.str "order_send") := rfl
  have hparams : field? (order.arrived requestId request) "params" =
    some (.obj (order.arrivedParams request)) := rfl
  have hrequest : field? (order.arrivedParams request) "request" =
      some (.obj request) := rfl
  by_cases hid : requestId = "" ∨ 128 < requestId.length
  · refine .inr ⟨⟨bridgeError
      "request id must be a non-empty string of at most 128 characters", ?_⟩, ?_⟩
    · simp only [validateRequest, hknown, hversion, hrequestId, hid, bind, Except.bind,
        pure, Except.pure, throw, throwThe, MonadExceptOf.throw, ne_eq, not_true_eq_false,
        if_false, if_true]
    · rintro ⟨hne, hlength, -⟩
      exact hid.elim hne (not_lt.2 hlength)
  · have hallowed : allowedParams "order_send" =
        some ["request", "expected_login", "expected_server"] := by decide
    have hkeys : keys (order.arrivedParams request) =
        ["request", "expected_login", "expected_server"] := rfl
    have hunknown : (keys (order.arrivedParams request)).filter
        (fun k => k ∉ ["request", "expected_login", "expected_server"]) = [] := by
      rw [hkeys]
      decide
    have hmissing : ["request", "expected_login", "expected_server"].filter
        (fun k => k ∉ keys (order.arrivedParams request)) = [] := by
      rw [hkeys]
      decide
    have hvalid : validateRequest fmt quoted (order.arrived requestId request) true =
        (orderRequest fmt quoted (order.arrivedParams request)).map fun _ =>
          (requestId, "order_send", order.arrivedParams request) := by
      simp only [validateRequest, hknown, hversion, hrequestId, hoperation,
        hparams, hid, hallowed, hunknown, hmissing, bind, Except.bind, pure, Except.pure,
        ne_eq, not_true_eq_false, if_false]
      rw [if_neg (by simp), if_neg (by decide), if_pos (.inr trivial)]
      cases orderRequest fmt quoted (order.arrivedParams request) <;> rfl
    rw [hvalid]
    rw [not_or, not_lt] at hid
    obtain ⟨hok, hsendable⟩ | ⟨⟨e, he⟩, hnot⟩ := orderRequest_sendable quoted hrequest
    · exact .inl ⟨by rw [hok]; rfl, hid.1, hid.2, hsendable⟩
    · exact .inr ⟨⟨e, by rw [he]; rfl⟩, fun h => hnot h.2.2⟩

theorem Call.bind_eq_returns {α β : Type} {c : Call α} {f : α → Call β} {b : β} :
    c.bind f = .returns b ↔ ∃ a, c = .returns a ∧ f a = .returns b := by
  cases c <;> simp [Call.bind]

theorem checkAccount_accepts (m : Mt5 F) (order : Order F)
    (request : List (String × Json F)) :
    checkAccount m (order.arrivedParams request) = .returns () ↔ m.Accepts order := by
  have hlogin : requiredPositiveInt (order.arrivedParams request) "expected_login" =
      if order.expectedLogin ≤ 0 then
        .error (bridgeError ("expected_login" ++ " must be a positive integer"))
      else .ok order.expectedLogin := rfl
  have hserver : requiredText (order.arrivedParams request) "expected_server" =
      if order.expectedServer = "" then
        .error (bridgeError ("expected_server" ++ " must be a non-empty string"))
      else .ok order.expectedServer := rfl
  simp only [checkAccount, bind, pure, hlogin, hserver]
  rw [Call.bind_eq_returns]
  constructor
  · rintro ⟨ready, hready, h⟩
    cases ready with
    | false => cases h
    | true =>
        obtain ⟨account, haccount, h⟩ := Call.bind_eq_returns.1 h
        cases account with
        | none => cases h
        | some account =>
            obtain ⟨login, hlogin, h⟩ := Call.bind_eq_returns.1 h
            split at hlogin
            · cases hlogin
            · next hpos =>
              cases hlogin
              split at h
              · cases h
              · next hsame =>
                obtain ⟨server, hserver, h⟩ := Call.bind_eq_returns.1 h
                split at hserver
                · cases hserver
                · next hne =>
                  cases hserver
                  split at h
                  · cases h
                  · next hmatch =>
                    refine ⟨hready, not_le.1 hpos, hne, ?_⟩
                    rw [haccount, ← not_not.1 hsame, ← not_not.1 hmatch]
  · rintro ⟨hready, hpos, hne, haccount⟩
    refine ⟨true, hready, ?_⟩
    rw [if_neg (not_le.2 hpos), if_neg hne, haccount]
    simp [Call.bind, Call.lift]

/-! ## The child -/

/-- What the child does with an order that reaches MT5. -/
def attempt (m : Mt5 F) (requestId : String) (request : List (String × Json F)) :
    Call (List (Key F × Value F)) :=
  ((m.orderSend request).andFinally m.shutdown).bind fun value =>
    (Call.lift (jsonValue value)).bind fun result =>
      .returns (successResponse requestId result)

theorem call_arrived (quoted : String → String) (m : Mt5 F) (order : Order F)
    {request : List (String × Json F)} (hsendable : Sendable fmt request) :
    m.Accepts order ∧ call fmt quoted m "order_send" (order.arrivedParams request) =
        ((m.orderSend request).andFinally m.shutdown, [request]) ∨
      ¬m.Accepts order ∧
      (call fmt quoted m "order_send" (order.arrivedParams request)).2 = [] ∧
        ∀ v, (call fmt quoted m "order_send" (order.arrivedParams request)).1 ≠
          .returns v := by
  have hrequest : field? (order.arrivedParams request) "request" =
      some (.obj request) := rfl
  have haccepts := checkAccount_accepts m order request
  rw [call, if_pos rfl]
  cases hcheck : checkAccount m (order.arrivedParams request) with
  | returns _ =>
      obtain ⟨hok, -⟩ | ⟨-, hnot⟩ := orderRequest_sendable quoted hrequest
      · exact .inl ⟨haccepts.1 hcheck, by rw [sendOrder, hok]⟩
      · exact (hnot hsendable).elim
  | raises e => exact .inr ⟨fun h => by simp [haccepts.2 h] at hcheck, rfl, nofun⟩
  | interrupts => exact .inr ⟨fun h => by simp [haccepts.2 h] at hcheck, rfl, nofun⟩
  | dies => exact .inr ⟨fun h => by simp [haccepts.2 h] at hcheck, rfl, nofun⟩

/-- The checks all pass and the order is sent, or nothing is sent and the request fails. -/
theorem handleRequest_arrived (quoted : String → String) (m : Mt5 F) (order : Order F)
    (requestId : String) (request : List (String × Json F)) :
    ((requestId ≠ "" ∧ requestId.length ≤ 128 ∧ Sendable fmt request) ∧ m.Accepts order) ∧
      handleRequest fmt quoted m (order.arrived requestId request) true =
        (attempt m requestId request, [request]) ∨
    ¬((requestId ≠ "" ∧ requestId.length ≤ 128 ∧ Sendable fmt request) ∧ m.Accepts order) ∧
      (handleRequest fmt quoted m (order.arrived requestId request) true).2 = [] ∧
      ∀ response, (handleRequest fmt quoted m (order.arrived requestId request) true).1 ≠
        .returns response := by
  obtain ⟨hvalid, hrequest⟩ | ⟨⟨e, hinvalid⟩, hnot⟩ :=
    @validateRequest_arrived F fmt quoted order requestId request
  · rw [handleRequest, hvalid]
    obtain ⟨haccepts, hcall⟩ | ⟨hnot, hsent, hfails⟩ :=
      call_arrived quoted m order hrequest.2.2
    · exact .inl ⟨⟨hrequest, haccepts⟩, by simp only [hcall, attempt]⟩
    · refine .inr ⟨fun h => hnot h.2, hsent, fun response h => ?_⟩
      obtain ⟨v, hv, -⟩ := Call.bind_eq_returns.1 h
      exact hfails v hv
  · rw [handleRequest, hinvalid]
    exact .inr ⟨fun h => hnot h.1, rfl, nofun⟩

namespace OneShot

/-- The order reaches `mt5.order_send`: the whole request came, the bridge takes it, and
MT5 is ready for it. -/
structure Reaches (s : OneShot F fmt) (request : List (String × Json F)) : Prop where
  serialized : Value.toFields fmt s.order.request = some request
  whole : ∃ frame, requestFrame fmt s.requestId "order_send" s.order.params = .ok frame ∧
    frame.length ≤ s.wrote
  readable : Readable (s.order.arrived s.requestId request)
  named : s.requestId ≠ "" ∧ s.requestId.length ≤ 128
  sendable : Sendable fmt request
  imported : s.mt5.imported = true
  accepted : s.mt5.Accepts s.order

theorem toFields_request {order : Order F} {requestId : String} {frame : Bytes}
    (h : requestFrame fmt requestId "order_send" order.params = .ok frame) :
    ∃ request, Value.toFields fmt order.request = some request ∧
      Value.toFields fmt [(.text "version", .int protocolVersion),
        (.text "id", .str requestId), (.text "operation", .str "order_send"),
        (.text "params", .dict order.params)] =
        some (order.arrived requestId request) := by
  obtain ⟨fields, hfields, -⟩ := encodeFrame_ok h
  cases hrequest : Value.toFields fmt order.request with
  | none => simp [Value.toFields, Value.toJson, Order.params, Key.toText,
      hrequest] at hfields
  | some request =>
      refine ⟨request, rfl, ?_⟩
      simp [Value.toFields, Value.toJson, Order.params, Key.toText,
        hrequest, Order.arrived, Order.arrivedParams]

/-- The child reads the request, or nothing. -/
theorem read_stdin (s : OneShot F fmt) :
    (∃ request rest, readFrame fmt s.stdin =
      .ok (s.order.arrived s.requestId request, rest) ∧
      Value.toFields fmt s.order.request = some request ∧
      (∃ frame, requestFrame fmt s.requestId "order_send" s.order.params = .ok frame ∧
        frame.length ≤ s.wrote) ∧ Readable (s.order.arrived s.requestId request)) ∨
    ((∃ e, readFrame fmt s.stdin = .error e) ∧ ∀ request, ¬s.Reaches request) := by
  have hfed := s.fed.arrives
  cases hframe : requestFrame fmt s.requestId "order_send" s.order.params with
  | error e =>
      rw [hframe] at hfed
      refine .inr ⟨readFrame_nothing
        (by rwa [Except.toOption, Option.getD_none, List.take_nil] at hfed),
        fun request h => ?_⟩
      obtain ⟨frame, hok, -⟩ := h.whole
      rw [hframe] at hok
      cases hok
  | ok frame =>
      rw [hframe] at hfed
      obtain ⟨request, hrequest, hfields⟩ := toFields_request hframe
      obtain ⟨⟨rest, hread⟩, hwhole, hreadable⟩ | ⟨herror, hnot⟩ :=
        readFrame_part hframe hfields hfed
      · exact .inl ⟨request, rest, hread, hrequest, ⟨frame, rfl, hwhole⟩, hreadable⟩
      · refine .inr ⟨herror, fun request' h => hnot ?_⟩
        obtain ⟨frame', hok, hwhole⟩ := h.whole
        rw [hframe] at hok
        cases hok
        have hsame := h.serialized
        rw [hrequest] at hsame
        cases hsame
        exact ⟨hwhole, h.readable⟩

theorem response_error {requestId : String} {c : Call (List (Key F × Value F))}
    {frame : Bytes} (hc : ∀ response, c ≠ .returns response)
    (h : responseFrame fmt requestId c = some frame) :
    ∃ e, c = .raises e ∧ encodeFrame fmt (errorResponse requestId e) = .ok frame := by
  cases c with
  | returns response => exact (hc response rfl).elim
  | raises e =>
      simp only [responseFrame] at h
      cases hencode : encodeFrame fmt (errorResponse requestId e) with
      | error fault =>
          rw [hencode] at h
          cases h
      | ok written =>
          rw [hencode] at h
          cases h
          exact ⟨e, rfl, hencode⟩
  | interrupts => cases h
  | dies => cases h

/-- The child sends one order and answers what came of it, or it sends nothing and answers
with an error, if at all. -/
theorem child_cases (quoted : String → String) (s : OneShot F fmt) :
    (∃ request, s.Reaches request ∧ s.sent quoted = [request] ∧
      s.written quoted = responseFrame fmt s.requestId
      (attempt s.mt5 s.requestId request)) ∨
    ((∀ request, ¬s.Reaches request) ∧ s.sent quoted = [] ∧
      ∀ frame, s.written quoted = some frame →
        ∃ e, encodeFrame fmt (errorResponse s.requestId e) = .ok frame) := by
  by_cases himported : s.mt5.imported = true
  · obtain ⟨request, rest, hread, hserialized, hwhole, hreadable⟩ | ⟨⟨e, hread⟩, hnot⟩ :=
      s.read_stdin
    · have hid : field? (s.order.arrived s.requestId request) "id" =
          some (.str s.requestId) := rfl
      have hmain : oneShotMain fmt quoted s.mt5 s.stdin =
          (responseFrame fmt s.requestId
            (handleRequest fmt quoted s.mt5 (s.order.arrived s.requestId request) true).1,
            (handleRequest fmt quoted s.mt5
              (s.order.arrived s.requestId request) true).2) := by
        simp only [oneShotMain, himported, if_true, serveOne, hread, hid]
      rw [sent, written, hmain]
      obtain ⟨⟨hrequest, haccepts⟩, hhandled⟩ | ⟨hnot, hsent, hfails⟩ :=
        handleRequest_arrived quoted s.mt5 s.order s.requestId request
      · refine .inl ⟨request, ?_, by rw [hhandled], by rw [hhandled]⟩
        exact ⟨hserialized, hwhole, hreadable, ⟨hrequest.1, hrequest.2.1⟩, hrequest.2.2,
          himported, haccepts⟩
      · refine .inr ⟨fun request' h => hnot ?_, hsent, fun frame hframe => ?_⟩
        · have hsame := h.serialized
          rw [hserialized] at hsame
          cases hsame
          exact ⟨⟨h.named.1, h.named.2, h.sendable⟩, h.accepted⟩
        · obtain ⟨e, -, hencode⟩ := response_error hfails hframe
          exact ⟨e, hencode⟩
    · refine .inr ⟨hnot, ?_, fun frame hframe => ?_⟩
      · simp [sent, oneShotMain, himported, serveOne, hread]
      · simp [written, oneShotMain, himported, serveOne, hread] at hframe
  · refine .inr ⟨fun request h => himported h.imported, ?_, fun frame hframe => ?_⟩
    · simp [sent, oneShotMain, himported]
    · simp [written, oneShotMain, himported] at hframe

end OneShot

end PairCell.Bridge
