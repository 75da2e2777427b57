import PairCell.Bridge.Nesting

/-!
# Frames read back

A frame is read back from any chunks as the object it was made of, unless its
writer let through what the reader refuses: containers nested too deep, or two
keys of one text.
-/

namespace PairCell.Bridge

open Lib

variable {F : Type} {fmt : FloatText F}

/-! ## Chunks -/

/-- The bytes come in chunks that are not empty, and the stream ends with them. -/
def Cut (stream : List Input) (bytes : Bytes) : Prop :=
  ∃ chunks : List Bytes, (∀ c ∈ chunks, c ≠ []) ∧ stream = chunks.map Input.chunk ∧
    chunks.flatten = bytes

theorem cut_cons {c : Bytes} {stream : List Input} {bytes : Bytes} (hc : c ≠ [])
    (h : Cut stream bytes) : Cut (.chunk c :: stream) (c ++ bytes) := by
  obtain ⟨chunks, hne, rfl, rfl⟩ := h
  exact ⟨c :: chunks, List.forall_mem_cons.2 ⟨hc, hne⟩, rfl, rfl⟩

theorem readExact_cut {stream : List Input} {bytes rest : Bytes}
    (h : Cut stream (bytes ++ rest)) :
    ∃ stream', readExact bytes.length stream = .ok (bytes, stream') ∧
      Cut stream' rest := by
  obtain ⟨chunks, hne, rfl, hflat⟩ := h
  induction chunks generalizing bytes with
  | nil =>
      obtain ⟨rfl, rfl⟩ := List.append_eq_nil_iff.1 hflat.symm
      exact ⟨[], rfl, [], by simp, rfl, rfl⟩
  | cons c chunks ih =>
      obtain ⟨hc, hchunks⟩ := List.forall_mem_cons.1 hne
      cases hlength : bytes.length with
      | zero =>
          obtain rfl := List.length_eq_zero_iff.1 hlength
          exact ⟨_, by rw [readExact], c :: chunks, hne, rfl, hflat⟩
      | succ n =>
          rw [List.map_cons, readExact, if_neg hc]
          rw [List.flatten_cons] at hflat
          split
          · next hshort =>
            -- the chunk is a part of the bytes
            have hpre : c = bytes.take c.length := by
              have htake := congrArg (List.take c.length) hflat
              rwa [List.take_left, List.take_append_of_le_length (by omega)] at htake
            have hbytes : bytes = c ++ bytes.drop c.length := by
              conv_lhs => rw [← List.take_append_drop c.length bytes, ← hpre]
            have hrest : chunks.flatten = bytes.drop c.length ++ rest := by
              rw [hbytes, List.append_assoc] at hflat
              exact List.append_cancel_left hflat
            obtain ⟨stream', hread, hcut⟩ := ih hchunks hrest
            have hremaining : n + 1 - c.length = (bytes.drop c.length).length := by
              rw [List.length_drop, hlength]
            refine ⟨stream', ?_, hcut⟩
            rw [hremaining, hread]
            simp only [Except.map]
            rw [← hbytes]
          · next hlong =>
            have hpre : c.take (n + 1) = bytes := by
              have htake := congrArg (List.take (n + 1)) hflat
              rw [List.take_append_of_le_length (by omega), ← hlength,
                List.take_left] at htake
              rw [← hlength]
              exact htake
            have hsplit : c = bytes ++ c.drop (n + 1) := by
              conv_lhs => rw [← List.take_append_drop (n + 1) c, hpre]
            have hrest : c.drop (n + 1) ++ chunks.flatten = rest := by
              rw [hsplit, List.append_assoc] at hflat
              exact List.append_cancel_left hflat
            refine ⟨_, by rw [hpre], ?_⟩
            rw [← hrest]
            refine cut_cons ?_ ⟨chunks, hchunks, rfl, rfl⟩
            rw [ne_eq, List.drop_eq_nil_iff]
            omega

/-- A stream with fewer bytes ends before the read does. -/
theorem readExact_short {stream : List Input} {bytes : Bytes}
    (h : Cut stream bytes) {n : Nat} (hn : bytes.length < n) :
    readExact n stream = .error (.protocolError .unexpectedEof) := by
  obtain ⟨chunks, hne, rfl, rfl⟩ := h
  induction chunks generalizing n with
  | nil =>
      cases n with
      | zero => cases hn
      | succ n => rfl
  | cons c chunks ih =>
      obtain ⟨hc, hchunks⟩ := List.forall_mem_cons.1 hne
      rw [List.flatten_cons, List.length_append] at hn
      cases n with
      | zero => omega
      | succ n =>
          rw [List.map_cons, readExact, if_neg hc, if_pos (by omega),
            ih hchunks (by omega)]
          rfl

theorem unpack_pack {n : Nat} (h : n < 4294967296) : unpack (pack n) = n := by
  simp only [unpack, pack, List.foldl_cons, List.foldl_nil, UInt8.toNat_ofNat']
  omega

/-! ## Bodies -/

theorem utf8_bodyOf (v : Json F) :
    Utf8.decode? (bodyOf fmt v) = some (v.print fmt false) :=
  Utf8.decode?_encode _

theorem parseBody_bodyOf {v : Json F} (hdepth : (v.depth : Int) ≤ maximumDepth)
    (hsound : v.Distinct ∧ v.special = false) : parseBody fmt (bodyOf fmt v) = .ok v := by
  have hloads : strictLoads fmt (v.print fmt false) = .ok v := by
    rw [Json.strictLoads_print, (Json.verdict_ok v).2 hsound]
    rfl
  simp only [parseBody, (nesting_iff v).2 hdepth, utf8_bodyOf, hloads, bind, Except.bind]

theorem decode_bodyOf {fields : List (String × Json F)}
    (hdepth : ((Json.obj fields).depth : Int) ≤ maximumDepth)
    (hsound : (Json.obj fields).Distinct ∧ (Json.obj fields).special = false) :
    decodeJsonObject fmt (bodyOf fmt (.obj fields)) = .ok fields := by
  rw [decodeJsonObject, parseBody_bodyOf hdepth hsound]

/-- What is read is what the strict reader finds in the text of the body. -/
theorem decode_text {fields : List (String × Json F)} {body : Bytes}
    (h : decodeJsonObject fmt body = .ok fields) : ∃ text, Utf8.decode? body = some text ∧
      strictLoads fmt text = .ok (.obj fields) ∧ rejectExcessiveNesting body = .ok () := by
  unfold decodeJsonObject at h
  split at h
  · cases h
  · cases h
  · next v hparse =>
    cases h
    unfold parseBody at hparse
    cases hnesting : rejectExcessiveNesting body with
    | error e =>
        rw [hnesting] at hparse
        cases hparse
    | ok _ =>
        rw [hnesting] at hparse
        simp only [bind, Except.bind] at hparse
        split at hparse
        · cases hparse
        · next text htext =>
          refine ⟨text, htext, ?_, rfl⟩
          split at hparse
          · next w hloads =>
            cases hparse
            exact hloads
          all_goals cases hparse
  · cases h

/-- What is read is nested as allowed, and it is the value if the body
is the text of one. -/
theorem decode_ok {fields : List (String × Json F)} {body : Bytes}
    (h : decodeJsonObject fmt body = .ok fields) : Json.Sound (.obj fields) ∧
      ∀ v : Json F, body = bodyOf fmt v → v = .obj fields ∧
      (v.depth : Int) ≤ maximumDepth := by
  obtain ⟨text, htext, hloads, hnesting⟩ := decode_text h
  refine ⟨Json.strictLoads_sound hloads, ?_⟩
  rintro v rfl
  rw [utf8_bodyOf] at htext
  cases htext
  rw [Json.strictLoads_print] at hloads
  cases hverdict : v.verdict with
  | error e =>
      rw [hverdict] at hloads
      cases hloads
  | ok _ =>
      rw [hverdict] at hloads
      cases hloads
      exact ⟨rfl, (nesting_iff _).1 hnesting⟩

/-- Nothing but a `ProtocolError` leaves the decoder. -/
theorem decode_total (body : Bytes) : (∃ fields, decodeJsonObject fmt body = .ok fields) ∨
    ∃ fault, decodeJsonObject fmt body = .error (.protocolError fault) := by
  unfold decodeJsonObject
  split
  · exact .inr ⟨_, rfl⟩
  · exact .inr ⟨_, rfl⟩
  · exact .inl ⟨_, rfl⟩
  · exact .inr ⟨_, rfl⟩

/-! ## One frame -/

/-- The reader on a header, a body and the rest. -/
theorem readFrame_cut {stream : List Input} {body rest : Bytes}
    (hsize : body.length ≤ maxFrameBytes)
    (h : Cut stream (pack body.length ++ (body ++ rest))) :
    ∃ stream', readFrame fmt stream =
      (decodeJsonObject fmt body).map (fun fields => (fields, stream')) ∧
      Cut stream' rest := by
  have hmax : maxFrameBytes = 4194304 := rfl
  obtain ⟨middle, hheader, hmiddle⟩ := readExact_cut h
  obtain ⟨stream', hbody, hrest⟩ := readExact_cut hmiddle
  have hlength : (pack body.length).length = 4 := rfl
  rw [hlength] at hheader
  refine ⟨stream', ?_, hrest⟩
  simp only [readFrame, hheader, bind, Except.bind,
    unpack_pack (show body.length < 4294967296 by omega), if_neg (not_lt.2 hsize), hbody]
  cases decodeJsonObject fmt body <;> rfl

theorem readFrame_oversized {stream : List Input} {size : Nat} {rest : Bytes}
    (hsize : maxFrameBytes < size) (hword : size < 4294967296)
    (h : Cut stream (pack size ++ rest)) :
    readFrame fmt stream = .error (.protocolError (.tooLarge size)) := by
  obtain ⟨middle, hheader, -⟩ := readExact_cut h
  have hlength : (pack size).length = 4 := rfl
  rw [hlength] at hheader
  simp only [readFrame, hheader, bind, Except.bind, unpack_pack hword, if_pos hsize]

/-- A stream that ends within a frame. -/
theorem readFrame_truncated {stream : List Input} {body part rest : Bytes}
    (hsize : body.length ≤ maxFrameBytes)
    (hsplit : pack body.length ++ body = part ++ rest) (hrest : rest ≠ [])
    (h : Cut stream part) :
    readFrame fmt stream = .error (.protocolError .unexpectedEof) := by
  have hmax : maxFrameBytes = 4194304 := rfl
  have hpos := List.length_pos_iff.2 hrest
  have hlength := congrArg List.length hsplit
  have hheader : (pack body.length).length = 4 := rfl
  simp only [List.length_append, hheader] at hlength
  by_cases hshort : part.length < 4
  · rw [readFrame, readExact_short h hshort]
    rfl
  · obtain ⟨middle, rfl⟩ : ∃ middle, part = pack body.length ++ middle := by
      refine ⟨part.drop 4, ?_⟩
      have htake := congrArg (List.take 4) hsplit
      rw [List.take_append_of_le_length (by omega),
        List.take_append_of_le_length (by omega),
        List.take_of_length_le (by omega)] at htake
      rw [htake, List.take_append_drop]
    obtain ⟨stream', hread, hcut⟩ := readExact_cut h
    rw [hheader] at hread
    have hend : readExact body.length stream' = .error (.protocolError .unexpectedEof) :=
      readExact_short hcut (by rw [List.length_append, hheader] at hlength; omega)
    simp only [readFrame, hread, bind, Except.bind,
      unpack_pack (show body.length < 4294967296 by omega), if_neg (not_lt.2 hsize), hend]

/-! ## Accepted values -/

mutual

/-- A number that is not finite is not serializable. -/
theorem toJson_finite : ∀ {v : Value F} {j : Json F}, v.toJson fmt = some j →
    j.special = false
  | .none, _, h => by cases h; rfl
  | .bool _, _, h => by cases h; rfl
  | .int _, _, h => by cases h; rfl
  | .float (.finite _), _, h => by cases h; rfl
  | .float .nan, _, h => by cases h
  | .float (.infinity _), _, h => by cases h
  | .str _, _, h => by cases h; rfl
  | .list items, _, h => by
      obtain ⟨js, hjs, rfl⟩ := Option.map_eq_some_iff.1 h
      exact toItems_finite hjs
  | .dict fields, _, h => by
      obtain ⟨js, hjs, rfl⟩ := Option.map_eq_some_iff.1 h
      exact toFields_finite hjs
  | .other, _, h => by cases h

theorem toItems_finite : ∀ {items : List (Value F)} {js : List (Json F)},
    Value.toItems fmt items = some js → Json.specialItems js = false
  | [], _, h => by cases h; rfl
  | v :: items, _, h => by
      simp only [Value.toItems, Option.bind_eq_bind, Option.bind_eq_some_iff] at h
      obtain ⟨j, hj, js, hjs, h⟩ := h
      cases h
      rw [Json.specialItems, toJson_finite hj, toItems_finite hjs]
      rfl

theorem toFields_finite :
    ∀ {fields : List (Key F × Value F)} {js : List (String × Json F)},
      Value.toFields fmt fields = some js → Json.specialFields js = false
  | [], _, h => by cases h; rfl
  | (k, v) :: fields, _, h => by
      simp only [Value.toFields, Option.bind_eq_bind, Option.bind_eq_some_iff] at h
      obtain ⟨t, -, j, hj, js, hjs, h⟩ := h
      cases h
      rw [Json.specialFields, toJson_finite hj, toFields_finite hjs]
      rfl

end

theorem encodeFrame_ok {value : List (Key F × Value F)} {frame : Bytes}
    (h : encodeFrame fmt value = .ok frame) :
    ∃ fields, Value.toFields fmt value = some fields ∧
      (bodyOf fmt (.obj fields)).length ≤ maxFrameBytes ∧
      frame = pack (bodyOf fmt (.obj fields)).length ++ bodyOf fmt (.obj fields) := by
  unfold encodeFrame at h
  split at h
  · cases h
  · next fields hfields =>
    simp only at h
    split at h
    · cases h
    · next hsize =>
      cases h
      exact ⟨fields, hfields, not_lt.1 hsize, rfl⟩

/-- Every stream that starts with the frame is read as the object, and the rest is left. -/
def RoundTrips (fmt : FloatText F) (fields : List (String × Json F))
    (frame : Bytes) : Prop :=
  ∀ rest stream, Cut stream (frame ++ rest) →
    ∃ stream', readFrame fmt stream = .ok (fields, stream') ∧ Cut stream' rest

/-- No more than 128 containers in one another, and no two keys of an
object with one text. -/
def Readable (fields : List (String × Json F)) : Prop :=
  ((Json.obj fields).depth : Int) ≤ maximumDepth ∧ (Json.obj fields).Distinct

theorem roundTrips_iff {value : List (Key F × Value F)} {frame : Bytes}
    (h : encodeFrame fmt value = .ok frame) :
    ∃ fields, Value.toFields fmt value = some fields ∧
      (RoundTrips fmt fields frame ↔ Readable fields) := by
  obtain ⟨fields, hfields, hsize, rfl⟩ := encodeFrame_ok h
  refine ⟨fields, hfields, ?_, ?_⟩
  · intro hround
    have hcut :
        Cut [.chunk (pack (bodyOf fmt (.obj fields)).length ++ bodyOf fmt (.obj fields))]
        (pack (bodyOf fmt (.obj fields)).length ++ (bodyOf fmt (.obj fields) ++ [])) :=
      ⟨[_], by simp [pack], rfl, by simp⟩
    obtain ⟨stream', hread, -⟩ := hround [] _ (by rw [List.append_assoc]; exact hcut)
    obtain ⟨stream'', hdecoded, -⟩ := readFrame_cut hsize hcut
    rw [hread] at hdecoded
    cases hdecode : decodeJsonObject fmt (bodyOf fmt (.obj fields)) with
    | error e =>
        rw [hdecode] at hdecoded
        cases hdecoded
    | ok fields' =>
        rw [hdecode] at hdecoded
        cases hdecoded
        obtain ⟨hsound, hvalue⟩ := decode_ok hdecode
        exact ⟨(hvalue _ rfl).2, hsound.1⟩
  · rintro ⟨hdepth, hdistinct⟩ rest stream hcut
    rw [List.append_assoc] at hcut
    obtain ⟨stream', hread, hrest⟩ := readFrame_cut hsize hcut
    rw [decode_bodyOf hdepth ⟨hdistinct, toFields_finite hfields⟩] at hread
    exact ⟨stream', hread, hrest⟩

/-- The first frames of a stream. -/
def readFrames (fmt : FloatText F) : Nat → List Input →
    Except Raised (List (List (String × Json F)) × List Input)
  | 0, stream => .ok ([], stream)
  | n + 1, stream => do
      let first ← readFrame fmt stream
      let others ← readFrames fmt n first.2
      .ok (first.1 :: others.1, others.2)

/-- Frames one after the other are read one after the other. -/
theorem readFrames_cut (written : List (List (String × Json F) × Bytes))
    (h : ∀ w ∈ written, RoundTrips fmt w.1 w.2) : ∀ rest stream,
    Cut stream ((written.map Prod.snd).flatten ++ rest) →
      ∃ stream', readFrames fmt written.length stream =
        .ok (written.map Prod.fst, stream') ∧
        Cut stream' rest := by
  induction written with
  | nil => exact fun rest stream hcut => ⟨stream, rfl, hcut⟩
  | cons w written ih =>
      intro rest stream hcut
      obtain ⟨hw, hwritten⟩ := List.forall_mem_cons.1 h
      rw [List.map_cons, List.flatten_cons, List.append_assoc] at hcut
      obtain ⟨middle, hfirst, hmiddle⟩ := hw _ _ hcut
      obtain ⟨stream', hothers, hrest⟩ := ih hwritten _ _ hmiddle
      refine ⟨stream', ?_, hrest⟩
      simp only [List.length_cons, readFrames, hfirst, hothers, bind, Except.bind,
        List.map_cons]

/-- A frame round-trips exactly if its value is readable, and so do frames one after the
other; a part of a frame, an oversized length and a body that in any spelling is no sound
object raise a `ProtocolError`, and nothing else is raised on any bytes. -/
theorem bridge_frames_round_trip (fmt : FloatText F) :
    (∀ (value : List (Key F × Value F)) (frame : Bytes),
      encodeFrame fmt value = .ok frame →
      ∃ fields, Value.toFields fmt value = some fields ∧
        (RoundTrips fmt fields frame ↔ Readable fields)) ∧
    (∀ written : List (List (String × Json F) × Bytes),
      (∀ w ∈ written, Readable w.1 ∧ ∃ value, Value.toFields fmt value = some w.1 ∧
        encodeFrame fmt value = .ok w.2) →
      ∀ rest stream, Cut stream ((written.map Prod.snd).flatten ++ rest) →
        ∃ stream', readFrames fmt written.length stream =
          .ok (written.map Prod.fst, stream') ∧
          Cut stream' rest) ∧
    (∀ (value : List (Key F × Value F)) (frame part rest : Bytes),
      encodeFrame fmt value = .ok frame →
      frame = part ++ rest → rest ≠ [] → ∀ stream, Cut stream part →
        readFrame fmt stream = .error (.protocolError .unexpectedEof)) ∧
    (∀ size rest stream, maxFrameBytes < size → size < 4294967296 →
      Cut stream (pack size ++ rest) →
      readFrame fmt stream = .error (.protocolError (.tooLarge size))) ∧
    (∀ (v : Json F) rest stream, (bodyOf fmt v).length ≤ maxFrameBytes →
      ¬(v.Distinct ∧ v.special = false ∧ ∃ fields, v = .obj fields) →
      Cut stream (pack (bodyOf fmt v).length ++ (bodyOf fmt v ++ rest)) →
        ∃ fault, readFrame fmt stream = .error (.protocolError fault)) ∧
    (∀ body text (v : Json F) rest stream, body.length ≤ maxFrameBytes →
      Utf8.decode? body = some text → loadsWith fmt .obj text = some v →
      ¬(v.Distinct ∧ v.special = false ∧ ∃ fields, v = .obj fields) →
      Cut stream (pack body.length ++ (body ++ rest)) →
        ∃ fault, readFrame fmt stream = .error (.protocolError fault)) ∧
    (∀ body rest stream, body.length ≤ maxFrameBytes →
      Cut stream (pack body.length ++ (body ++ rest)) →
        (∃ fields stream', readFrame fmt stream = .ok (fields, stream') ∧
          Cut stream' rest ∧
          Json.Sound (.obj fields)) ∨
        ∃ fault, readFrame fmt stream = .error (.protocolError fault)) := by
  have hany : ∀ body rest stream, body.length ≤ maxFrameBytes →
      Cut stream (pack body.length ++ (body ++ rest)) →
        (∃ fields stream', readFrame fmt stream = .ok (fields, stream') ∧
          Cut stream' rest ∧
          decodeJsonObject fmt body = .ok fields) ∨
        ∃ fault, readFrame fmt stream = .error (.protocolError fault) := by
    intro body rest stream hsize hcut
    obtain ⟨stream', hread, hrest⟩ := readFrame_cut hsize hcut
    obtain ⟨fields, hok⟩ | ⟨fault, herror⟩ := @decode_total F fmt body
    · exact .inl ⟨fields, stream', by rw [hread, hok]; rfl, hrest, hok⟩
    · exact .inr ⟨fault, by rw [hread, herror]; rfl⟩
  refine ⟨fun _ _ => roundTrips_iff, ?_, ?_, fun _ _ _ => readFrame_oversized, ?_, ?_, ?_⟩
  · intro written h
    refine readFrames_cut written fun w hw => ?_
    obtain ⟨hreadable, value, hvalue, hencode⟩ := h w hw
    obtain ⟨fields, hfields, hround⟩ := roundTrips_iff hencode
    rw [hvalue] at hfields
    cases hfields
    exact hround.2 hreadable
  · intro value frame part rest hencode hsplit hrest stream hcut
    obtain ⟨fields, -, hsize, rfl⟩ := encodeFrame_ok hencode
    exact readFrame_truncated hsize hsplit hrest hcut
  · intro v rest stream hsize hbad hcut
    refine (hany _ rest stream hsize hcut).resolve_left ?_
    rintro ⟨fields, -, -, -, hok⟩
    obtain ⟨hsound, hvalue⟩ := decode_ok hok
    obtain ⟨rfl, -⟩ := hvalue v rfl
    exact hbad ⟨hsound.1, hsound.2, fields, rfl⟩
  · intro body text v rest stream hsize htext hvalue hbad hcut
    refine (hany _ rest stream hsize hcut).resolve_left ?_
    rintro ⟨fields, -, -, -, hok⟩
    obtain ⟨text', htext', hloads, -⟩ := decode_text hok
    rw [htext] at htext'
    cases htext'
    have hsound := Json.strictLoads_sound hloads
    rw [strictLoads_of_value hvalue] at hloads
    cases hverdict : v.verdict with
    | error e =>
        rw [hverdict] at hloads
        cases hloads
    | ok _ =>
        rw [hverdict] at hloads
        cases hloads
        exact hbad ⟨hsound.1, hsound.2, fields, rfl⟩
  · intro body rest stream hsize hcut
    obtain ⟨fields, stream', hread, hrest, hok⟩ | hfault :=
      hany body rest stream hsize hcut
    · exact .inl ⟨fields, stream', hread, hrest, (decode_ok hok).1⟩
    · exact .inr hfault

namespace Sample

/-- No floats. -/
def floats : FloatText Empty := .empty

/-- A request with a text that needs escapes. -/
def request : List (Key Empty × Value Empty) :=
  [(.text "operation", .str "order_\"send\"]"),
    (.text "params", .dict [(.int 1, .list [.none])])]

theorem request_round_trips : ∃ frame fields, encodeFrame floats request = .ok frame ∧
    Value.toFields floats request = some fields ∧ RoundTrips floats fields frame := by
  obtain ⟨frame, hframe⟩ : ∃ frame, encodeFrame floats request = .ok frame := ⟨_, rfl⟩
  obtain ⟨fields, hfields, hiff⟩ :=
    (bridge_frames_round_trip floats).1 request frame hframe
  refine ⟨frame, fields, hframe, hfields, hiff.2 ?_⟩
  cases hfields
  exact ⟨by decide, by simp [Json.Distinct, Json.DistinctFields, Json.DistinctItems]⟩

/-- Lists in one another. -/
def nested : Nat → Value Empty
  | 0 => .none
  | n + 1 => .list [nested n]

def nestedJson : Nat → Json Empty
  | 0 => .null
  | n + 1 => .arr [nestedJson n]

theorem toJson_nested (n : Nat) : (nested n).toJson floats = some (nestedJson n) := by
  induction n with
  | zero => rfl
  | succ n ih => simp [nested, nestedJson, Value.toJson, Value.toItems, ih]

theorem depth_nestedJson (n : Nat) : (nestedJson n).depth = n := by
  induction n with
  | zero => rfl
  | succ n ih => simp [nestedJson, Json.depth, Json.depthItems, ih]

/-- The writer accepts 129 containers in one another and the keys `1` and `"1"` of one
object; the reader does not. -/
theorem accepted_frames_refused :
    (∃ frame fields, encodeFrame floats [(.text "params", nested 128)] = .ok frame ∧
      Value.toFields floats [(.text "params", nested 128)] = some fields ∧
      ¬RoundTrips floats fields frame) ∧
    ∃ frame fields,
      encodeFrame floats [(.text "params", .dict [(.int 1, .none), (.text "1", .none)])] =
        .ok frame ∧
      Value.toFields floats
      [(.text "params", .dict [(.int 1, .none), (.text "1", .none)])] =
        some fields ∧ ¬RoundTrips floats fields frame := by
  constructor
  · obtain ⟨frame, hframe⟩ :
        ∃ frame, encodeFrame floats [(.text "params", nested 128)] = .ok frame := by
      have hsome :
          (encodeFrame floats [(.text "params", nested 128)]).toOption.isSome = true := by
        decide +kernel
      cases h : encodeFrame floats [(.text "params", nested 128)] with
      | error e =>
          rw [h] at hsome
          cases hsome
      | ok frame => exact ⟨frame, rfl⟩
    obtain ⟨fields, hfields, hiff⟩ := roundTrips_iff hframe
    refine ⟨frame, fields, hframe, hfields, fun hround => ?_⟩
    have hdepth := (hiff.1 hround).1
    simp only [Value.toFields, Key.toText, toJson_nested, Option.bind_eq_bind,
      Option.bind_some, Option.some.injEq] at hfields
    subst hfields
    simp only [Json.depth, Json.depthFields, depth_nestedJson] at hdepth
    exact absurd hdepth (by decide)
  · obtain ⟨frame, hframe⟩ : ∃ frame, encodeFrame floats
        [(.text "params", .dict [(.int 1, .none), (.text "1", .none)])] =
          .ok frame := ⟨_, rfl⟩
    obtain ⟨fields, hfields, hiff⟩ := roundTrips_iff hframe
    refine ⟨frame, fields, hframe, hfields, fun hround => ?_⟩
    have hdistinct := (hiff.1 hround).2
    cases hfields
    simp [Json.Distinct, Json.DistinctFields] at hdistinct
    exact absurd hdistinct (by decide)

end Sample

end PairCell.Bridge
