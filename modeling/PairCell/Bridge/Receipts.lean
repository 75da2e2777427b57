import PairCell.Bridge.Child

/-!
# Receipts of the one order

What the client tells its caller about an order, for every behaviour of MT5 and
every stream of responses.  What goes wrong after the order was sent is answered
like what went wrong before.
-/

namespace PairCell.Bridge

open Lib Lib.Json

variable {F : Type} {fmt : FloatText F}

/-! ## The client -/

/-- A response that the client takes as an error of this request. -/
structure ErrorReply (requestId message : String)
    (response : List (String × Json F)) : Prop where
  schema : sameKeys response ["version", "id", "ok", "error"] = true
  version : field? response "version" = some (.int protocolVersion)
  id : field? response "id" = some (.str requestId)
  ok : field? response "ok" = some (.bool false)
  error : ∃ error type, field? response "error" = some (.obj error) ∧
    sameKeys error ["type", "message"] = true ∧ field? error "type" = some (.str type) ∧
    field? error "message" = some (.str message)

theorem field_of_sameKeys {fields : List (String × Json F)}
    {expected : List String} {k : String} (h : sameKeys fields expected = true)
    (hk : k ∈ expected) : ∃ v, field? fields k = some v := by
  simp only [sameKeys, Bool.and_eq_true, List.all_eq_true, decide_eq_true_eq] at h
  obtain ⟨f, hf, rfl⟩ := List.mem_map.1 (h.2 k hk)
  rw [← Option.isSome_iff_exists, field?, Option.isSome_map, List.find?_isSome]
  exact ⟨f, hf, by simp⟩

theorem ErrorReply.valid {requestId message : String} {response : List (String × Json F)}
    (h : ErrorReply requestId message response) : validateResponse response = .ok () := by
  obtain ⟨error, type, herror, hschema, htype, hmessage⟩ := h.error
  simp [validateResponse, h.ok, herror, h.schema, hschema, htype, hmessage]

theorem validateResponse_ok {response : List (String × Json F)}
    (h : validateResponse response = .ok ()) :
    field? response "ok" = some (.bool true) ∧
      (∃ result, field? response "result" = some result) ∨
    field? response "ok" = some (.bool false) ∧
      sameKeys response ["version", "id", "ok", "error"] = true ∧
      ∃ error type message, field? response "error" = some (.obj error) ∧
        sameKeys error ["type", "message"] = true ∧
        field? error "type" = some (.str type) ∧
        field? error "message" = some (.str message) := by
  unfold validateResponse at h
  split at h
  · next hok =>
    split at h
    · next hschema => exact .inl ⟨hok, field_of_sameKeys hschema (by decide)⟩
    · cases h
  · next hok =>
    split at h
    · next error herror =>
      split at h
      · cases h
      · next hschema =>
        split at h
        · next type message htype hmessage =>
          simp only [Bool.or_eq_true, Bool.not_eq_true', not_or,
            Bool.not_eq_false] at hschema
          exact .inr ⟨hok, hschema.1, error, type, message, herror, hschema.2,
            htype, hmessage⟩
        · cases h
    · cases h
  · cases h

theorem validateResponse_error {response : List (String × Json F)} {cause : ClientError}
    (h : validateResponse response = .error cause) : cause = .malformedResponse := by
  unfold validateResponse at h
  repeat' split at h
  all_goals cases h
  all_goals rfl

theorem acceptResponse_cases (requestId : String) (response : List (String × Json F)) :
    (∃ result, acceptResponse requestId response = .ok result ∧
      field? response "id" = some (.str requestId) ∧
      field? response "result" = some result ∧
      field? response "ok" = some (.bool true)) ∨
    (∃ message, acceptResponse requestId response = .error (.remote message) ∧
      ErrorReply requestId message response) ∨
    (∃ cause, acceptResponse requestId response = .error cause ∧
      (∀ message, cause ≠ .remote message) ∧
      ∀ message, ¬ErrorReply requestId message response) := by
  cases hvalid : validateResponse response with
  | error cause =>
      obtain rfl := validateResponse_error hvalid
      refine .inr (.inr ⟨.malformedResponse, by rw [acceptResponse, hvalid]; rfl, nofun,
        fun message h => ?_⟩)
      rw [h.valid] at hvalid
      cases hvalid
  | ok _ =>
      simp only [acceptResponse, hvalid, bind, Except.bind, pure, Except.pure,
        throw, throwThe, MonadExceptOf.throw]
      split
      · next version hversion =>
        split
        · next hother =>
          refine .inr (.inr ⟨_, rfl, nofun, fun message h => hother ?_⟩)
          have hsame := h.version
          rw [hversion] at hsame
          cases hsame
          rfl
        · next hsame =>
          obtain rfl := not_not.1 hsame
          split
          · next id hid =>
            split
            · next hother =>
              refine .inr (.inr ⟨_, rfl, nofun, fun message h => hother ?_⟩)
              have hsame := h.id
              rw [hid] at hsame
              cases hsame
              rfl
            · next hsame =>
              obtain rfl := not_not.1 hsame
              obtain ⟨hok, result, hresult⟩ | ⟨hok, hschema, error, type, message,
                  herror, hrest⟩ :=
                validateResponse_ok hvalid
              · rw [hok, hresult]
                exact .inl ⟨result, rfl, hid, rfl, rfl⟩
              · simp only [hok, herror, hrest.2.2]
                exact .inr (.inl ⟨message, rfl, hschema, hversion, hid, hok, error, type,
                  herror, hrest⟩)
          · next hnone =>
            exact .inr (.inr ⟨_, rfl, nofun, fun message h => hnone _ h.id⟩)
      · next hnone =>
        exact .inr (.inr ⟨_, rfl, nofun, fun message h => hnone _ h.version⟩)

namespace OneShot

/-- What the client of a request that was written whole makes of the responses. -/
theorem outcome_cases (s : OneShot F fmt) {frame : Bytes}
    (hframe : requestFrame fmt s.requestId "order_send" s.order.params = .ok frame)
    (hwhole : frame.length ≤ s.wrote) :
    (∃ result response rest, s.outcome = .returned result ∧
      readResponseBefore fmt s.responses = .ok (response, rest) ∧
      field? response "id" = some (.str s.requestId) ∧
      field? response "result" = some result ∧
      field? response "ok" = some (.bool true)) ∨
    (∃ message response rest, s.outcome = .remoteError message ∧
      readResponseBefore fmt s.responses = .ok (response, rest) ∧
      ErrorReply s.requestId message response) ∨
    (∃ cause, s.outcome = .outcomeUnknown cause ∧
      ∀ message response rest, readResponseBefore fmt s.responses = .ok (response, rest) →
        ¬ErrorReply s.requestId message response) := by
  simp only [outcome, orderSend, clientRequest, hframe, if_neg (not_lt.2 hwhole)]
  cases hread : readResponseBefore fmt s.responses with
  | error e =>
      cases e <;> exact .inr (.inr ⟨_, rfl, nofun⟩)
  | ok p =>
      obtain ⟨response, rest⟩ := p
      obtain ⟨result, haccept, hreply⟩ | ⟨message, haccept, hreply⟩ | ⟨cause,
          haccept, hcause, hnot⟩ :=
        acceptResponse_cases s.requestId response
      · exact .inl ⟨result, response, rest, by simp only [haccept], rfl, hreply⟩
      · exact .inr (.inl ⟨message, response, rest, by simp only [haccept], rfl, hreply⟩)
      · refine .inr (.inr ⟨cause, ?_, ?_⟩)
        · simp only [haccept]
        · rintro message _ _ ⟨⟩
          exact hnot message

end OneShot

/-! ## The answer of the child -/

/-- What fails after the order was sent. -/
def Trouble (m : Mt5 F) (request : List (String × Json F)) (e : PyException) : Prop :=
  m.orderSend request ≠ .dies ∧ m.shutdown = .raises e ∨
    m.shutdown = .returns () ∧ (m.orderSend request = .raises e ∨
      ∃ v, m.orderSend request = .returns v ∧ jsonValue v = .error e)

theorem attempt_raises {m : Mt5 F} {requestId : String} {request : List (String × Json F)}
    {e : PyException} : attempt m requestId request = .raises e ↔ Trouble m request e := by
  unfold attempt Trouble
  cases hshutdown : m.shutdown <;> cases hsend : m.orderSend request <;>
    simp [Call.andFinally, Call.bind]
  · next v =>
    cases hvalue : jsonValue v <;> simp [Call.lift]

theorem attempt_returns {m : Mt5 F} {requestId : String} {request : List (String × Json F)}
    {response : List (Key F × Value F)} : attempt m requestId request = .returns response ↔
      ∃ v result, m.orderSend request = .returns v ∧ m.shutdown = .returns () ∧
        jsonValue v = .ok result ∧ response = successResponse requestId result := by
  unfold attempt
  cases hshutdown : m.shutdown <;> cases hsend : m.orderSend request <;>
    simp [Call.andFinally, Call.bind]
  · next v =>
    cases hvalue : jsonValue v <;> simp [Call.lift, eq_comm]

theorem error_frame {requestId : String} {e : PyException} {frame : Bytes}
    (h : encodeFrame fmt (errorResponse requestId e) = .ok frame) :
    ∃ message fields, Value.toFields fmt (errorResponse requestId e) = some fields ∧
      Readable fields ∧ ErrorReply requestId message fields := by
  obtain ⟨fields, hfields, -⟩ := encodeFrame_ok h
  cases hmessage : e.message with
  | none => simp [errorResponse, Value.toFields, Value.toJson, Key.toText, textOf,
      hmessage] at hfields
  | some message =>
      refine ⟨message, fields, hfields, ?_⟩
      simp [errorResponse, Value.toFields, Value.toJson, Key.toText, textOf,
        hmessage] at hfields
      subst hfields
      refine ⟨⟨?_, ?_⟩, ⟨rfl, rfl, rfl, rfl, _, e.type, rfl, rfl, rfl, rfl⟩⟩
      · simp [Json.depth, Json.depthFields, maximumDepth]
      · simp [Json.Distinct, Json.DistinctFields]

theorem success_frame {requestId : String} {result : Value F} {frame : Bytes}
    (h : encodeFrame fmt (successResponse requestId result) = .ok frame) :
    ∃ v fields, result.toJson fmt = some v ∧
      Value.toFields fmt (successResponse requestId result) = some fields ∧
      field? fields "result" = some v ∧ field? fields "ok" = some (.bool true) := by
  obtain ⟨fields, hfields, -⟩ := encodeFrame_ok h
  cases hresult : result.toJson fmt with
  | none => simp [successResponse, Value.toFields, Value.toJson, Key.toText,
      hresult] at hfields
  | some v =>
      refine ⟨v, fields, rfl, hfields, ?_⟩
      simp [successResponse, Value.toFields, Value.toJson, Key.toText, hresult] at hfields
      subst hfields
      exact ⟨rfl, rfl⟩

/-! ## Receipts -/

namespace OneShot

/-- The client's caller is not misled: at most one order is sent; if it was, the caller has
its result or is told that the outcome is unknown; an error is raised only for an order
that was not sent; and a result is that of a response to this request. -/
structure Honest (quoted : String → String) (s : OneShot F fmt) : Prop where
  once : (s.sent quoted).length ≤ 1
  told : s.sent quoted ≠ [] →
    (∃ result, s.outcome = .returned result) ∨ ∃ cause, s.outcome = .outcomeUnknown cause
  refused : (∃ message, s.outcome = .remoteError message) → s.sent quoted = []
  answered : ∀ result, s.outcome = .returned result → ∃ response rest,
    readResponseBefore fmt s.responses = .ok (response, rest) ∧
      field? response "id" = some (.str s.requestId) ∧
      field? response "result" = some result

/-- The responses start with an error that is well formed and has the request's id. -/
def Refusal (s : OneShot F fmt) : Prop :=
  ∃ message response rest, readResponseBefore fmt s.responses = .ok (response, rest) ∧
    ErrorReply s.requestId message response

theorem returned_whole {s : OneShot F fmt} {result : Json F}
    (h : s.outcome = .returned result) :
    ∃ frame, requestFrame fmt s.requestId "order_send" s.order.params = .ok frame ∧
      frame.length ≤ s.wrote := by
  simp only [outcome, orderSend, clientRequest] at h
  cases hframe : requestFrame fmt s.requestId "order_send" s.order.params with
  | error e =>
      rw [hframe] at h
      cases h
  | ok frame =>
      rw [hframe] at h
      by_cases hpart : s.wrote < frame.length
      · simp only [if_pos hpart] at h
        cases h
      · exact ⟨frame, rfl, not_lt.1 hpart⟩

theorem returned_read {s : OneShot F fmt} {result : Json F}
    (h : s.outcome = .returned result) :
    ∃ response rest, readResponseBefore fmt s.responses = .ok (response, rest) ∧
      field? response "id" = some (.str s.requestId) ∧
      field? response "result" = some result ∧
      field? response "ok" = some (.bool true) := by
  obtain ⟨frame, hframe, hwhole⟩ := returned_whole h
  obtain ⟨result', response, rest, houtcome, hread⟩ | ⟨message, response, rest,
      houtcome, -⟩ |
    ⟨cause, houtcome, -⟩ := s.outcome_cases hframe hwhole
  · rw [houtcome] at h
    cases h
    exact ⟨response, rest, hread⟩
  · rw [houtcome] at h
    cases h
  · rw [houtcome] at h
    cases h

/-- The caller is misled exactly if an order reaches MT5 and an error comes back. -/
theorem honest_iff (quoted : String → String) (s : OneShot F fmt) :
    s.Honest quoted ↔ ¬((∃ request, s.Reaches request) ∧ s.Refusal) := by
  obtain ⟨request, hreaches, hsent, -⟩ | ⟨hnot, hsent, -⟩ := s.child_cases quoted
  · obtain ⟨frame, hframe, hwhole⟩ := hreaches.whole
    constructor
    · rintro h ⟨-, message, response, rest, hread, hreply⟩
      obtain ⟨_, response', _, -, hread', -, -, hok⟩ | ⟨message', -, -, houtcome,
          -⟩ | ⟨-, -, hnone⟩ :=
        s.outcome_cases hframe hwhole
      · rw [hread] at hread'
        cases hread'
        rw [hreply.ok] at hok
        cases hok
      · have hnothing := h.refused ⟨message', houtcome⟩
        rw [hsent] at hnothing
        cases hnothing
      · exact hnone _ _ _ hread hreply
    · intro h
      have htold : (∃ result, s.outcome = .returned result) ∨
          ∃ cause, s.outcome = .outcomeUnknown cause := by
        obtain ⟨result, _, _, houtcome, -⟩ | ⟨message, response, rest, -,
            hreply⟩ | ⟨cause, houtcome, -⟩ :=
          s.outcome_cases hframe hwhole
        · exact .inl ⟨result, houtcome⟩
        · exact (h ⟨⟨request, hreaches⟩, message, response, rest, hreply⟩).elim
        · exact .inr ⟨cause, houtcome⟩
      refine ⟨by rw [hsent]; exact le_rfl, fun _ => htold, ?_, ?_⟩
      · rintro ⟨message, hmessage⟩
        obtain ⟨_, houtcome⟩ | ⟨_, houtcome⟩ := htold
        · rw [hmessage] at houtcome
          cases houtcome
        · rw [hmessage] at houtcome
          cases houtcome
      · intro result hresult
        obtain ⟨response, rest, hread, hid, hvalue, -⟩ := returned_read hresult
        exact ⟨response, rest, hread, hid, hvalue⟩
  · refine ⟨fun _ h => ?_, fun _ => ⟨by rw [hsent]; exact Nat.zero_le 1,
      fun h => (h hsent).elim,
      fun _ => hsent, ?_⟩⟩
    · obtain ⟨request, hreaches⟩ := h.1
      exact hnot request hreaches
    · intro result hresult
      obtain ⟨response, rest, hread, hid, hvalue, -⟩ := returned_read hresult
      exact ⟨response, rest, hread, hid, hvalue⟩

end OneShot

/-! ## Responses of the child itself -/

/-- What is read from a part of what was written, if it was written at all. -/
theorem read_part {written : Option Bytes} {stream rest : List Input} {n : Nat}
    {response : List (String × Json F)} (h : Arrives stream ((written.getD []).take n))
    (hread : readResponseBefore fmt stream = .ok (response, rest)) :
    ∃ frame, written = some frame ∧ ∀ value fields, encodeFrame fmt value = .ok frame →
      Value.toFields fmt value = some fields → response = fields ∧ frame.length ≤ n := by
  rw [readResponseBefore] at hread
  cases written with
  | none =>
      rw [Option.getD_none, List.take_nil] at h
      obtain ⟨e, he⟩ := @readFrame_nothing F fmt _ h
      rw [he] at hread
      cases hread
  | some frame =>
      refine ⟨frame, rfl, fun value fields hencode hfields => ?_⟩
      obtain ⟨⟨rest', hok⟩, hwhole, -⟩ | ⟨⟨e, he⟩, -⟩ := readFrame_part hencode hfields h
      · rw [hok] at hread
        cases hread
        exact ⟨rfl, hwhole⟩
      · rw [he] at hread
        cases hread

theorem encoded_of_toOption {value : List (Key F × Value F)} {frame : Bytes}
    (h : (encodeFrame fmt value).toOption = some frame) :
    encodeFrame fmt value = .ok frame := by
  cases hencode : encodeFrame fmt value with
  | error e =>
      rw [hencode] at h
      cases h
  | ok frame' =>
      rw [hencode] at h
      cases h
      rfl

namespace OneShot

variable {s : OneShot F fmt} {n : Nat}

theorem Reaches.unique {request request' : List (String × Json F)} (h : s.Reaches request)
    (h' : s.Reaches request') : request' = request :=
  Option.some.inj (h'.serialized.symm.trans h.serialized)

theorem written_of_reaches (quoted : String → String) {request : List (String × Json F)}
    (h : s.Reaches request) :
    s.written quoted = responseFrame fmt s.requestId
      (attempt s.mt5 s.requestId request) := by
  obtain ⟨request', hreaches, -, hwritten⟩ | ⟨hnot, -⟩ := s.child_cases quoted
  · rwa [h.unique hreaches] at hwritten
  · exact (hnot request h).elim

/-- The child answers an order that it sent with an error exactly if
something failed after it. -/
theorem refusal_iff (quoted : String → String) {request : List (String × Json F)}
    (hreaches : s.Reaches request)
    (h : Arrives s.responses (((s.written quoted).getD []).take n)) :
    s.Refusal ↔ ∃ e frame, Trouble s.mt5 request e ∧
      encodeFrame fmt (errorResponse s.requestId e) = .ok frame ∧ frame.length ≤ n := by
  have hwritten := written_of_reaches quoted hreaches
  constructor
  · rintro ⟨message, response, rest, hread, hreply⟩
    obtain ⟨frame, hframe, hresponse⟩ := read_part h hread
    rw [hwritten] at hframe
    cases hattempt : attempt s.mt5 s.requestId request with
    | returns answer =>
        obtain ⟨v, result, -, -, -, rfl⟩ := attempt_returns.1 hattempt
        rw [hattempt] at hframe
        have hencode := encoded_of_toOption hframe
        obtain ⟨_, fields, -, hfields, -, hok⟩ := success_frame hencode
        obtain ⟨rfl, -⟩ := hresponse _ _ hencode hfields
        rw [hreply.ok] at hok
        cases hok
    | raises e =>
        rw [hattempt] at hframe
        have hencode := encoded_of_toOption hframe
        obtain ⟨_, fields, hfields, -⟩ := error_frame hencode
        exact ⟨e, frame, attempt_raises.1 hattempt, hencode,
          (hresponse _ _ hencode hfields).2⟩
    | interrupts =>
        rw [hattempt] at hframe
        cases hframe
    | dies =>
        rw [hattempt] at hframe
        cases hframe
  · rintro ⟨e, frame, htrouble, hencode, hwhole⟩
    obtain ⟨message, fields, hfields, hreadable, hreply⟩ := error_frame hencode
    rw [hwritten, attempt_raises.2 htrouble, responseFrame, hencode] at h
    obtain ⟨⟨rest, hread⟩, -⟩ | ⟨-, hnot⟩ := readFrame_part hencode hfields h
    · exact ⟨message, fields, rest, hread, hreply⟩
    · exact (hnot ⟨hwhole, hreadable⟩).elim

/-- A result is what `mt5.order_send` returned. -/
theorem returned_value (quoted : String → String)
    (h : Arrives s.responses (((s.written quoted).getD []).take n)) {result : Json F}
    (hresult : s.outcome = .returned result) : ∃ request v value, s.Reaches request ∧
      s.mt5.orderSend request = .returns v ∧ s.mt5.shutdown = .returns () ∧
      jsonValue v = .ok value ∧ value.toJson fmt = some result := by
  obtain ⟨response, rest, hread, -, hvalue, hok⟩ := returned_read hresult
  obtain ⟨frame, hframe, hresponse⟩ := read_part h hread
  have herror : ∀ e, encodeFrame fmt (errorResponse s.requestId e) =
      .ok frame → False := by
    intro e hencode
    obtain ⟨message, fields, hfields, -, hreply⟩ := error_frame hencode
    obtain ⟨rfl, -⟩ := hresponse _ _ hencode hfields
    rw [hreply.ok] at hok
    cases hok
  obtain ⟨request, hreaches, -, hwritten⟩ | ⟨-, -, hrefused⟩ := s.child_cases quoted
  · rw [hwritten] at hframe
    cases hattempt : attempt s.mt5 s.requestId request with
    | returns answer =>
        obtain ⟨v, value, hsend, hshutdown, hjson, rfl⟩ := attempt_returns.1 hattempt
        rw [hattempt] at hframe
        have hencode := encoded_of_toOption hframe
        obtain ⟨w, fields, hw, hfields, hfield, -⟩ := success_frame hencode
        obtain ⟨rfl, -⟩ := hresponse _ _ hencode hfields
        rw [hvalue] at hfield
        cases hfield
        exact ⟨request, v, value, hreaches, hsend, hshutdown, hjson, hw⟩
    | raises e =>
        rw [hattempt] at hframe
        exact (herror e (encoded_of_toOption hframe)).elim
    | interrupts =>
        rw [hattempt] at hframe
        cases hframe
    | dies =>
        rw [hattempt] at hframe
        cases hframe
  · obtain ⟨e, hencode⟩ := hrefused frame hframe
    exact (herror e hencode).elim

end OneShot

/-- A caller is misled about an order exactly if it reached MT5 and an error frame with the
request's id comes back: with the child's own responses, cut off anywhere or late, exactly
if the send or the shutdown raised or the result has no JSON value, and the whole error
frame came.  Then a result is what `mt5.order_send` returned. -/
theorem one_shot_receipts (quoted : String → String) (s : OneShot F fmt) :
    (s.Honest quoted ↔ ¬((∃ request, s.Reaches request) ∧ s.Refusal)) ∧
    ∀ n, Arrives s.responses (((s.written quoted).getD []).take n) →
      (s.Honest quoted ↔ ¬∃ request e frame, s.Reaches request ∧ Trouble s.mt5 request e ∧
        encodeFrame fmt (errorResponse s.requestId e) = .ok frame ∧ frame.length ≤ n) ∧
      ∀ result, s.outcome = .returned result → ∃ request v value, s.Reaches request ∧
        s.mt5.orderSend request = .returns v ∧ s.mt5.shutdown = .returns () ∧
        jsonValue v = .ok value ∧ value.toJson fmt = some result := by
  refine ⟨s.honest_iff quoted,
    fun n h => ⟨?_, fun result => OneShot.returned_value quoted h⟩⟩
  rw [s.honest_iff quoted, not_iff_not]
  constructor
  · rintro ⟨⟨request, hreaches⟩, hrefusal⟩
    obtain ⟨e, frame, htrouble⟩ := (OneShot.refusal_iff quoted hreaches h).1 hrefusal
    exact ⟨request, e, frame, hreaches, htrouble⟩
  · rintro ⟨request, e, frame, hreaches, htrouble⟩
    exact ⟨⟨request, hreaches⟩,
      (OneShot.refusal_iff quoted hreaches h).2 ⟨e, frame, htrouble⟩⟩

namespace Sample

@[irreducible] def encoded (value : List (Key Empty × Value Empty)) : Bytes :=
  (encodeFrame floats value).toOption.getD []

theorem encoded_ok {value : List (Key Empty × Value Empty)}
    (h : (encodeFrame floats value).toOption.isSome = true) :
    encodeFrame floats value = .ok (encoded value) := by
  unfold encoded
  cases hframe : encodeFrame floats value with
  | error e =>
      rw [hframe] at h
      cases h
  | ok frame => rfl

theorem encoded_cut {value : List (Key Empty × Value Empty)}
    (h : (encodeFrame floats value).toOption.isSome = true) :
    Cut [.chunk (encoded value)] (encoded value) := by
  obtain ⟨fields, -, -, hframe⟩ := encodeFrame_ok (encoded_ok h)
  refine ⟨[encoded value], ?_, rfl, List.flatten_singleton⟩
  rintro c hc rfl
  rw [← List.mem_singleton.1 hc] at hframe
  cases hframe

def order : Order Empty := ⟨[(.text "action", .int 1)], 7, "Demo"⟩

/-- The order is done; then MT5 is shut down. -/
def terminal (shutdown : Call Unit) : Mt5 Empty where
  imported := true
  initialized := .returns true
  accountInfo := .returns (some ⟨some (7 : Int), some "Demo"⟩)
  orderSend := fun _ => .returns (.record (.mapping [(some "retcode", .int 10009)]))
  shutdown := shutdown
  reads := fun _ _ => .returns .none

def orderValue : List (Key Empty × Value Empty) :=
  [(.text "version", .int 1), (.text "id", .str "r"),
    (.text "operation", .str "order_send"), (.text "params", .dict order.params)]

theorem orderValue_encoded : (encodeFrame floats orderValue).toOption.isSome = true := by
  decide +kernel

theorem orderFrame_ok : requestFrame floats "r" "order_send" order.params =
    .ok (encoded orderValue) :=
  encoded_ok orderValue_encoded

theorem orderFrame_cut : Cut [.chunk (encoded orderValue)]
    (((requestFrame floats "r" "order_send" order.params).toOption.getD []).take
      (encoded orderValue).length) := by
  have hall : (requestFrame floats "r" "order_send" order.params).toOption.getD [] =
      encoded orderValue := by
    rw [orderFrame_ok]
    rfl
  rw [hall, List.take_length]
  exact encoded_cut orderValue_encoded

def oneShot (shutdown : Call Unit) (response : List (Key Empty × Value Empty)) :
    OneShot Empty floats where
  requestId := "r"
  order := order
  mt5 := terminal shutdown
  wrote := (encoded orderValue).length
  stdin := [.chunk (encoded orderValue)]
  responses := [.chunk (encoded response)]
  fed := orderFrame_cut

theorem oneShot_reaches (shutdown : Call Unit)
    (response : List (Key Empty × Value Empty)) :
    (oneShot shutdown response).Reaches [("action", .int 1)] where
  serialized := rfl
  whole := ⟨encoded orderValue, orderFrame_ok, le_rfl⟩
  readable := by
    have hdepth :
        ((Json.obj (order.arrived "r" [("action", .int 1)]) : Json Empty).depth : Int) ≤
        maximumDepth := by decide
    refine ⟨hdepth, ?_⟩
    simp [Json.Distinct, Json.DistinctFields, Order.arrived, Order.arrivedParams, oneShot]
  named := (by decide : "r" ≠ "" ∧ "r".length ≤ 128)
  sendable := ⟨by decide, by decide, nofun, nofun, by simp [scalar]⟩
  imported := rfl
  accepted := ⟨rfl, (by decide : (0 : Int) < 7), (by decide : "Demo" ≠ ""), rfl⟩

def receipt : List (Key Empty × Value Empty) :=
  successResponse "r" (.dict [(.text "retcode", .int 10009)])

/-- The caller has the result. -/
theorem order_returned : (oneShot (.returns ()) receipt).Honest id := by
  have hencoded : (encodeFrame floats receipt).toOption.isSome = true := by decide +kernel
  have hwritten : (oneShot (.returns ()) receipt).written id = some (encoded receipt) := by
    have hattempt : attempt (terminal (.returns ())) "r" [("action", .int 1)] =
        .returns receipt := rfl
    rw [OneShot.written_of_reaches id (oneShot_reaches _ _)]
    change responseFrame floats "r" (attempt (terminal (.returns ())) "r" _) = _
    rw [hattempt, responseFrame, encoded_ok hencoded]
    rfl
  have harrives : Arrives (oneShot (.returns ()) receipt).responses
      ((((oneShot (.returns ()) receipt).written id).getD []).take
        (encoded receipt).length) := by
    rw [hwritten, Option.getD_some, List.take_length]
    exact (encoded_cut hencoded).arrives
  refine ((one_shot_receipts id _).2 _ harrives).1.2 ?_
  rintro ⟨request, e, frame, -, htrouble, -⟩
  obtain ⟨-, hshutdown⟩ | ⟨-, hsend | ⟨v, hv, hjson⟩⟩ := htrouble
  · cases hshutdown
  · cases hsend
  · cases hv
    cases hjson

def failure : PyException := ⟨"RuntimeError", false, some "terminal not found"⟩

/-- The order is done, MT5 fails to shut down, and the client raises a
`BridgeRemoteError`. -/
theorem shutdown_failure_hides_order :
    (oneShot (.raises failure) (errorResponse "r" failure)).sent id =
    [[("action", .int 1)]] ∧
      (∃ message, (oneShot (.raises failure) (errorResponse "r" failure)).outcome =
        .remoteError message) ∧
      ¬(oneShot (.raises failure) (errorResponse "r" failure)).Honest id := by
  have hencoded :
      (encodeFrame floats (errorResponse "r" failure)).toOption.isSome = true := by
    decide +kernel
  have hreaches := oneShot_reaches (.raises failure) (errorResponse "r" failure)
  have hsent : (oneShot (.raises failure) (errorResponse "r" failure)).sent id =
      [[("action", .int 1)]] := by
    obtain ⟨request, h, hsent, -⟩ | ⟨hnot, -⟩ :=
      (oneShot (.raises failure) (errorResponse "r" failure)).child_cases id
    · rwa [hreaches.unique h] at hsent
    · exact (hnot _ hreaches).elim
  obtain ⟨message, fields, hfields, hreadable, hreply⟩ := error_frame (encoded_ok hencoded)
  have harrives : Arrives [.chunk (encoded (errorResponse "r" failure))]
      ((encoded (errorResponse "r" failure)).take
        (encoded (errorResponse "r" failure)).length) := by
    rw [List.take_length]
    exact (encoded_cut hencoded).arrives
  obtain ⟨⟨rest, hread⟩, -⟩ | ⟨-, hnot⟩ :=
    readFrame_part (encoded_ok hencoded) hfields harrives
  · have houtcome : ∃ message,
        (oneShot (.raises failure) (errorResponse "r" failure)).outcome =
        .remoteError message := by
      obtain ⟨_, response, _, -, hread', -, -, hok⟩ | ⟨message', _, _, houtcome,
          -⟩ | ⟨_, -, hnone⟩ :=
        (oneShot (.raises failure) (errorResponse "r" failure)).outcome_cases
          orderFrame_ok le_rfl
      · cases hread.symm.trans hread'
        rw [hreply.ok] at hok
        cases hok
      · exact ⟨message', houtcome⟩
      · exact (hnone _ _ _ hread hreply).elim
    refine ⟨hsent, houtcome, fun h => ?_⟩
    have hnothing := h.refused houtcome
    rw [hsent] at hnothing
    cases hnothing
  · exact (hnot ⟨le_rfl, hreadable⟩).elim

end Sample

end PairCell.Bridge
