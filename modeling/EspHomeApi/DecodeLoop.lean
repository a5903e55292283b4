import EspHomeApi.Frame

/-!
# The decoding loop

Every iteration that goes on consumes at least the three bytes of a header, so the loop ends
and its fuel never matters. Three equations describe the loop from then on: the end of the
stream, an error, and an iteration followed by the loop on what it left. On a frame of an
unaccepted type the iteration ends at the end of the frame. On an accepted one it parses
from the start of the body, and what it leaves is decided by the parse alone.
-/

namespace EspHomeApi

variable {M : Type} {P : Protobuf M} {types : List MessageType}

/-- The loop with fuel for the whole stream. -/
def decode (P : Protobuf M) (types : List MessageType) (stream : Bytes) : List M × Result Unit :=
  decodeLoop P types stream.length stream

/-- Put the message of one iteration in front of the messages of the following ones. -/
def consCall (call : Option M) (rest : List M × Result Unit) : List M × Result Unit :=
  (call.toList ++ rest.1, rest.2)

/-- Whether a message is of one of the types. -/
def Protobuf.isAccepted (P : Protobuf M) (types : List MessageType) (message : M) : Bool :=
  EspHomeApi.isAccepted types (getMessageId (P.descriptor message))

/-- Trying one type never moves the stream backwards. -/
theorem parseAndInvoke_suffix (hP : P.Documented) (type : MessageType) (stream : Bytes)
    (messageType : ℕ) : (parseAndInvoke P type stream messageType).2 <:+ stream := by
  unfold parseAndInvoke
  split
  · exact List.suffix_refl stream
  · exact hP.parse_suffix type stream

/-- Trying the types never moves the stream backwards. -/
theorem parseAnyAndInvoke_suffix (hP : P.Documented) (types : List MessageType) (stream : Bytes)
    (messageType : ℕ) : (parseAnyAndInvoke P types stream messageType).2 <:+ stream := by
  induction types generalizing stream with
  | nil => exact List.suffix_refl stream
  | cons type types ih =>
    have hstep := parseAndInvoke_suffix hP type stream messageType
    rw [parseAnyAndInvoke]
    split
    · rename_i message rest hparse
      rwa [hparse] at hstep
    · rename_i rest hparse
      rw [hparse] at hstep
      exact (ih rest).trans hstep

/-- An iteration leaves a suffix of what follows the header. -/
theorem decodeBody_suffix (hP : P.Documented) {header : Header} {stream rest : Bytes}
    {call : Option M} (h : decodeBody P types header stream = .again call rest) :
    rest <:+ stream := by
  unfold decodeBody at h
  split at h
  · simp only [Iteration.again.injEq] at h
    rw [← h.2]
    exact skip_suffix stream _
  · split at h
    · simp at h
    · split at h
      · rename_i message rest' hparse
        simp only [Iteration.again.injEq] at h
        have hsuffix := parseAnyAndInvoke_suffix hP types stream header.messageType
        rw [hparse] at hsuffix
        rw [← h.2]
        exact hsuffix
      · simp at h

/-- An iteration leaves a suffix of its stream. -/
theorem iteration_suffix (hP : P.Documented) {stream rest : Bytes} {call : Option M}
    (h : iteration P types stream = .again call rest) : rest <:+ stream := by
  unfold iteration at h
  split at h
  · simp at h
  · rename_i header body hheader
    exact (decodeBody_suffix hP h).trans (readHeader_suffix hheader)

/-- An iteration that hands a message over has read a header of an accepted type, with its size
inside the stream, and parsed the message behind it. -/
theorem iteration_eq_some {stream rest : Bytes} {message : M}
    (h : iteration P types stream = .again (some message) rest) :
    ∃ header body, readHeader stream = .ok (header, body) ∧
      isAccepted types header.messageType = true ∧ header.messageSize ≤ body.length ∧
      parseAnyAndInvoke P types body header.messageType = (some message, rest) := by
  unfold iteration at h
  split at h
  · simp at h
  · rename_i header body hheader
    unfold decodeBody at h
    split at h
    · simp at h
    · rename_i haccepted
      split at h
      · simp at h
      · rename_i hsize
        split at h
        · rename_i parsed left hparse
          simp only [Iteration.again.injEq, Option.some.injEq] at h
          obtain ⟨rfl, rfl⟩ := h
          exact ⟨header, body, hheader, not_not.mp haccepted, not_lt.mp hsize, hparse⟩
        · simp at h

/-- An iteration that goes on consumes at least three bytes. -/
theorem iteration_length (hP : P.Documented) {stream rest : Bytes} {call : Option M}
    (h : iteration P types stream = .again call rest) : rest.length + 3 ≤ stream.length := by
  unfold iteration at h
  split at h
  · simp at h
  · rename_i header body hheader
    have hlength := readHeader_length hheader
    have hsuffix := (decodeBody_suffix hP h).length_le
    omega

/-- Fuel for the whole stream is as good as any larger amount. -/
theorem decodeLoop_eq (hP : P.Documented) (fuel : ℕ) (stream : Bytes)
    (hfuel : stream.length ≤ fuel) : decodeLoop P types fuel stream = decode P types stream := by
  induction fuel using Nat.strong_induction_on generalizing stream with
  | _ fuel ih =>
    cases fuel with
    | zero =>
      have hnil : stream = [] := List.eq_nil_of_length_eq_zero (by omega)
      subst hnil
      rfl
    | succ fuel =>
      cases stream with
      | nil => rfl
      | cons byte stream =>
        rw [decode, List.length_cons, decodeLoop, decodeLoop]
        cases hstep : iteration P types (byte :: stream) with
        | stop error => rfl
        | again call rest =>
          have hlength := iteration_length hP hstep
          rw [List.length_cons] at hlength hfuel
          simp only [ih fuel (by omega) rest (by omega),
            ih stream.length (by omega) rest (by omega)]

/-- At the end of the stream the loop ends with success. -/
theorem decode_nil : decode P types [] = ([], .ok ()) := rfl

/-- An error ends the loop. -/
theorem decode_stop {stream : Bytes} {error : ApiError} (hne : stream ≠ [])
    (h : iteration P types stream = .stop error) : decode P types stream = ([], .error error) := by
  obtain ⟨length, hlength⟩ := Nat.exists_eq_add_one_of_ne_zero
    (fun hzero => hne (List.eq_nil_of_length_eq_zero hzero))
  have hpos : bytesUntilLimit stream > 0 := List.length_pos_iff.mpr hne
  rw [decode, hlength, decodeLoop, if_pos hpos, h]

/-- An iteration that goes on is followed by the loop on what it left. -/
theorem decode_again (hP : P.Documented) {stream rest : Bytes} {call : Option M}
    (h : iteration P types stream = .again call rest) :
    decode P types stream = consCall call (decode P types rest) := by
  have hlength := iteration_length hP h
  obtain ⟨length, hsucc⟩ := Nat.exists_eq_add_one_of_ne_zero (by omega : stream.length ≠ 0)
  have hpos : bytesUntilLimit stream > 0 := by rw [bytesUntilLimit]; omega
  rw [decode, hsucc, decodeLoop, if_pos hpos, h]
  simp only [decodeLoop_eq hP length rest (by omega)]
  rfl

/-- An error in the header is the error of the loop. -/
theorem decode_of_header_error {stream : Bytes} {error : ApiError} (hne : stream ≠ [])
    (h : readHeader stream = .error error) : decode P types stream = ([], .error error) := by
  refine decode_stop hne ?_
  rw [iteration, h]

/-- On a chunk that is long enough and fits an `int`, `decode_multiple` is the loop. -/
theorem decodeMultiple_eq {data : Bytes} (hmin : 3 ≤ data.length) (hmax : data.length < 2 ^ 31) :
    decodeMultiple P types data = decode P types data := by
  rw [decodeMultiple, if_neg (by omega), flatStream_eq hmax]
  rfl

/-- The types are tried in turn, and only the one with the id is parsed. -/
theorem parseAnyAndInvoke_eq (hids : (types.map getMessageId).Nodup) {type : MessageType}
    (htype : type ∈ types) (stream : Bytes) :
    parseAnyAndInvoke P types stream (getMessageId type) = P.parseFromCodedStream type stream := by
  have hskip (types : List MessageType) (hnot : getMessageId type ∉ types.map getMessageId)
      (stream : Bytes) :
      parseAnyAndInvoke P types stream (getMessageId type) = (none, stream) := by
    induction types with
    | nil => rfl
    | cons other types ih =>
      simp only [List.map_cons, List.mem_cons, not_or] at hnot
      rw [parseAnyAndInvoke, parseAndInvoke, if_pos (Ne.symm hnot.1)]
      exact ih hnot.2
  induction types with
  | nil => simp at htype
  | cons other types ih =>
    rw [List.map_cons, List.nodup_cons] at hids
    rw [parseAnyAndInvoke, parseAndInvoke]
    rcases List.mem_cons.mp htype with rfl | hmem
    · rw [if_neg (not_not.mpr rfl)]
      split
      · rename_i message rest hparse
        exact hparse.symm
      · rename_i rest hparse
        rw [hskip types hids.1, hparse]
    · have hne : getMessageId other ≠ getMessageId type := by
        intro heq
        exact hids.1 (heq ▸ List.mem_map_of_mem hmem)
      rw [if_pos hne]
      exact ih hids.2 hmem

/-- A frame of an unaccepted type is passed over. -/
theorem iteration_skip (frame : Frame) (rest : Bytes) (hbody : frame.body.length < 2 ^ 31)
    (hskip : isAccepted types frame.messageType = false) :
    iteration P types (frame.bytes ++ rest) = .again none rest := by
  rw [iteration, readHeader_frame]
  simp only [decodeBody, hskip, Bool.false_eq_true, not_false_eq_true, if_true]
  rw [skip_of_le hbody (by rw [List.length_append]; omega), List.drop_left]

/-- Behind an unaccepted frame the loop is in the state it starts the rest in. -/
theorem decode_frame_append (hP : P.Documented) (frame : Frame) (rest : Bytes)
    (hbody : frame.body.length < 2 ^ 31)
    (hskip : isAccepted types frame.messageType = false) :
    decode P types (frame.bytes ++ rest) = decode P types rest := by
  rw [decode_again hP (iteration_skip frame rest hbody hskip)]
  rfl

/-- The id of a type in the list is accepted. -/
theorem isAccepted_of_mem {type : MessageType} (htype : type ∈ types) :
    isAccepted types (getMessageId type) = true := by
  rw [isAccepted, List.any_eq_true]
  exact ⟨type, htype, decide_eq_true rfl⟩

/-- A frame of an accepted type is parsed from the start of its body. -/
theorem iteration_parse (hids : (types.map getMessageId).Nodup) {type : MessageType}
    (htype : type ∈ types) (frame : Frame) (hframe : frame.messageType = getMessageId type)
    {message : M} {rest left : Bytes}
    (hparse : P.parseFromCodedStream type (frame.body ++ rest) = (some message, left)) :
    iteration P types (frame.bytes ++ rest) = .again (some message) left := by
  have haccepted := isAccepted_of_mem htype
  have hsize : ¬ (frame.body ++ rest).length < frame.body.length := by
    rw [List.length_append]
    omega
  rw [iteration, readHeader_frame]
  simp only [decodeBody, haccepted, not_true_eq_false, if_false, bytesUntilLimit, if_neg hsize,
    hframe, parseAnyAndInvoke_eq hids htype, hparse]

/-- The message that the body of a frame holds, if its type is one of `types`. -/
def Frame.message (P : Protobuf M) (types : List MessageType) (frame : Frame) : Option M :=
  (parseAnyAndInvoke P types frame.body frame.messageType).1

/-- A frame as an honest device sends it: of a size that is an `int`, and holding an encoded
message if its type is accepted. -/
structure Frame.WellFormed (P : Protobuf M) (types : List MessageType) (frame : Frame) :
    Prop where
  length_lt : frame.body.length < 2 ^ 31
  encodes : ∀ type ∈ types, getMessageId type = frame.messageType →
    ∃ message, P.Encodes type frame.body message

/-- A frame of an unaccepted type holds no message for the handler. -/
theorem Frame.message_of_unaccepted {frame : Frame}
    (hskip : isAccepted types frame.messageType = false) :
    frame.message P types = none := by
  unfold message
  generalize frame.body = body
  induction types generalizing body with
  | nil => rfl
  | cons type types ih =>
    rw [isAccepted, List.any_cons, Bool.or_eq_false_iff] at hskip
    rw [parseAnyAndInvoke, parseAndInvoke, if_pos (of_decide_eq_false hskip.1)]
    exact ih hskip.2 body

/-- A frame of an accepted type holds the message that its body encodes. -/
theorem Frame.WellFormed.exists_message (hids : (types.map getMessageId).Nodup) {frame : Frame}
    (hframe : frame.WellFormed P types)
    (haccepted : isAccepted types frame.messageType = true) :
    ∃ type message, type ∈ types ∧ frame.messageType = getMessageId type ∧
      P.Encodes type frame.body message ∧ frame.message P types = some message := by
  rw [isAccepted, List.any_eq_true] at haccepted
  obtain ⟨type, htype, hid⟩ := haccepted
  have hid : getMessageId type = frame.messageType := of_decide_eq_true hid
  obtain ⟨message, hmessage⟩ := hframe.encodes type htype hid
  refine ⟨type, message, htype, hid.symm, hmessage, ?_⟩
  rw [Frame.message, ← hid, parseAnyAndInvoke_eq hids htype, hmessage.1]

/-- Behind an accepted frame the loop goes on after the preamble of the next one, and at the end
of the chunk it is done. -/
theorem Frame.WellFormed.iteration_accepted (hids : (types.map getMessageId).Nodup)
    {frame : Frame} (hframe : frame.WellFormed P types)
    (haccepted : isAccepted types frame.messageType = true) :
    ∃ message, frame.message P types = some message ∧
      iteration P types frame.bytes = .again (some message) [] ∧
      ∀ rest, iteration P types (frame.bytes ++ 0 :: rest) = .again (some message) rest := by
  obtain ⟨type, message, htype, hid, hencodes, hmessage⟩ := hframe.exists_message hids haccepted
  refine ⟨message, hmessage, ?_, fun rest => ?_⟩
  · have hparse := hencodes.1
    rw [← List.append_nil frame.body] at hparse
    have hstep := iteration_parse hids htype frame hid hparse
    rwa [List.append_nil] at hstep
  · exact iteration_parse hids htype frame hid (hencodes.2 rest)

/-- The accepted types of the receiving loop have distinct ids. -/
theorem receiveLoopTypes_nodup : (receiveLoopTypes.map getMessageId).Nodup := by decide +kernel

/-- The frame carries the message. -/
structure IsFrameOf (P : Protobuf M) (message : M) (frame : Frame) : Prop where
  body_eq : frame.body = P.encode message
  id_eq : (P.descriptor message).id = some frame.messageType
  length_lt : frame.body.length < 2 ^ 31

/-- A serialized message is carried by its packet. -/
theorem isFrameOf_of_serialize {message : M} {packet : Bytes}
    (h : serialize P message = .ok packet) :
    ∃ frame, packet = frame.bytes ∧ IsFrameOf P message frame := by
  obtain ⟨frame, hpacket, hbody, -, hid, -, hlength⟩ := serialize_eq_ok h
  exact ⟨frame, hpacket, hbody, hid, hlength⟩

/-- A message is accepted when the type in its frame is. -/
theorem IsFrameOf.isAccepted_eq {message : M} {frame : Frame} (h : IsFrameOf P message frame)
    (types : List MessageType) :
    P.isAccepted types message = isAccepted types frame.messageType := by
  rw [Protobuf.isAccepted, getMessageId_of_id h.id_eq]

/-- The type of an accepted message is one of the types of the receiving loop. -/
theorem IsFrameOf.descriptor_mem {message : M} {frame : Frame} (h : IsFrameOf P message frame)
    (haccepted : P.isAccepted receiveLoopTypes message = true) :
    P.descriptor message ∈ receiveLoopTypes ∧
      frame.messageType = getMessageId (P.descriptor message) := by
  rw [Protobuf.isAccepted, isAccepted, List.any_eq_true] at haccepted
  obtain ⟨type, htype, hid⟩ := haccepted
  have hsame : P.descriptor message = type := by
    apply eq_of_id_accepted htype
    rw [of_decide_eq_true hid, getMessageId_of_id h.id_eq]
    exact h.id_eq
  exact ⟨hsame ▸ htype, (getMessageId_of_id h.id_eq).symm⟩

/-- A frame that `serialize` made is one as an honest device sends it. -/
theorem IsFrameOf.wellFormed (hP : P.Documented) {message : M} {frame : Frame}
    (h : IsFrameOf P message frame) : frame.WellFormed P receiveLoopTypes where
  length_lt := h.length_lt
  encodes type htype hid := by
    have hsame : P.descriptor message = type :=
      eq_of_id_accepted htype (h.id_eq.trans (congrArg some hid.symm))
    rw [h.body_eq, ← hsame]
    exact ⟨message, hP.encodes_encode message⟩

/-- The loop on the frame of a message of one of its types. -/
theorem decode_lone (hP : P.Documented) {types : List MessageType}
    (hids : (types.map getMessageId).Nodup) {message : M} {frame : Frame}
    (hframe : IsFrameOf P message frame) (htype : P.descriptor message ∈ types) :
    decode P types frame.bytes = ([message], .ok ()) := by
  have hparse : P.parseFromCodedStream (P.descriptor message) (frame.body ++ []) =
      (some message, []) := by
    rw [List.append_nil, hframe.body_eq]
    exact (hP.encodes_encode message).1
  have hstep := iteration_parse hids htype frame (getMessageId_of_id hframe.id_eq).symm hparse
  rw [List.append_nil] at hstep
  rw [decode_again hP hstep, decode_nil]
  rfl

/-- An accepted message takes the preamble of the next frame along. -/
theorem IsFrameOf.iteration_followed (hP : P.Documented) {message : M} {frame : Frame}
    (h : IsFrameOf P message frame) (haccepted : P.isAccepted receiveLoopTypes message = true)
    (rest : Bytes) :
    iteration P receiveLoopTypes (frame.bytes ++ 0 :: rest) = .again (some message) rest := by
  obtain ⟨hmem, hid⟩ := h.descriptor_mem haccepted
  apply iteration_parse receiveLoopTypes_nodup hmem frame hid
  rw [h.body_eq]
  exact (hP.encodes_encode message).2 rest

end EspHomeApi
