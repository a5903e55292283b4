import EspHomeApi.ReceiveLoop
import EspHomeApi.WireMessage

/-!
# Segmentation of the received stream

Nothing is carried from chunk to chunk, and the parse of an accepted message runs into the
frame behind it. What is dispatched is therefore what was sent when the chunks end at frame
boundaries and directly behind every accepted frame. A stream is dispatched in the same way
under all cuttings only when no part of it looks like a message at all: the cutting into
single bytes dispatches nothing.
-/

namespace EspHomeApi

variable {M : Type} {P : Protobuf M}

/-- The chunks end at frame boundaries, and directly behind every frame of an accepted type. -/
def CutBehindAccepted (frames : List Frame) (chunks : List Bytes) : Prop :=
  ∃ groups : List (List Frame), groups.flatten = frames ∧ groups.map framesBytes = chunks ∧
    ∀ group ∈ groups, ∀ frame ∈ group.dropLast,
      isAccepted receiveLoopTypes frame.messageType = false

/-- The bytes start like a frame of an accepted type, and a message parses behind the header. -/
def LooksLikeMessage (P : Protobuf M) (bytes : Bytes) : Prop :=
  ∃ header body type message rest, readHeader bytes = .ok (header, body) ∧
    type ∈ receiveLoopTypes ∧ getMessageId type = header.messageType ∧
    header.messageSize ≤ body.length ∧
    P.parseFromCodedStream type body = (some message, rest)

/-- Some part of the stream that fits into a chunk looks like a message. -/
def ContainsLookalike (P : Protobuf M) (stream : Bytes) : Prop :=
  ∃ part, part <:+: stream ∧ part.length ≤ receiveBufferSize ∧ LooksLikeMessage P part

/-- Every way of receiving the stream dispatches the same messages. -/
def SegmentationIndependent (P : Protobuf M) (stream : Bytes) : Prop :=
  ∀ left right, Cutting stream left → Cutting stream right →
    dispatchedFrom P left = dispatchedFrom P right

/-- Bytes look like a message exactly when an iteration hands one over. -/
theorem looksLikeMessage_iff {bytes : Bytes} :
    LooksLikeMessage P bytes ↔
      ∃ message rest, iteration P receiveLoopTypes bytes = .again (some message) rest := by
  constructor
  · rintro ⟨header, body, type, message, rest, hheader, htype, hid, hsize, hparse⟩
    refine ⟨message, rest, ?_⟩
    rw [iteration, hheader]
    simp only [decodeBody, ← hid, isAccepted_of_mem htype, not_true_eq_false, if_false,
      bytesUntilLimit, if_neg (not_lt.mpr hsize), parseAnyAndInvoke_eq receiveLoopTypes_nodup htype,
      hparse]
  · rintro ⟨message, rest, hstep⟩
    obtain ⟨header, body, hheader, haccepted, hsize, hparse⟩ := iteration_eq_some hstep
    rw [isAccepted, List.any_eq_true] at haccepted
    obtain ⟨type, htype, hid⟩ := haccepted
    have hid : getMessageId type = header.messageType := of_decide_eq_true hid
    rw [← hid, parseAnyAndInvoke_eq receiveLoopTypes_nodup htype] at hparse
    exact ⟨header, body, type, message, rest, hheader, htype, hid, hsize, hparse⟩

/-- A chunk of frames of which only the last is accepted is decoded in step. -/
theorem decode_group (hP : P.Documented) {group : List Frame}
    (hframes : ∀ frame ∈ group, frame.WellFormed P receiveLoopTypes)
    (hskip : ∀ frame ∈ group.dropLast, isAccepted receiveLoopTypes frame.messageType = false) :
    (decode P receiveLoopTypes (framesBytes group)).1 =
      group.filterMap (Frame.message P receiveLoopTypes) := by
  induction group with
  | nil => rfl
  | cons frame group ih =>
    have hframe := hframes frame List.mem_cons_self
    cases haccepted : isAccepted receiveLoopTypes frame.messageType with
    | false =>
      have hnone : frame.message P receiveLoopTypes = none :=
        Frame.message_of_unaccepted haccepted
      rw [framesBytes_cons, List.filterMap_cons_none hnone,
        decode_again hP (iteration_skip frame _ hframe.length_lt haccepted)]
      refine ih (fun later hlater => hframes later (List.mem_cons_of_mem frame hlater))
        fun later hlater => hskip later ?_
      cases group with
      | nil => simp at hlater
      | cons next group => exact List.mem_cons_of_mem frame hlater
    | true =>
      cases group with
      | nil =>
        obtain ⟨message, hmessage, hstep, -⟩ :=
          hframe.iteration_accepted receiveLoopTypes_nodup haccepted
        rw [framesBytes_cons, framesBytes_nil, List.append_nil, decode_again hP hstep, decode_nil,
          List.filterMap_cons_some hmessage]
        rfl
      | cons next group =>
        have hfalse := hskip frame List.mem_cons_self
        rw [haccepted] at hfalse
        exact absurd hfalse (by decide)

/-- What is dispatched is what was sent, when the stream is cut behind every accepted frame. -/
theorem dispatchedFrom_of_cutBehindAccepted (hP : P.Documented) {frames : List Frame}
    {chunks : List Bytes} (hframes : ∀ frame ∈ frames, frame.WellFormed P receiveLoopTypes)
    (hcutting : Cutting (framesBytes frames) chunks) (hcut : CutBehindAccepted frames chunks) :
    dispatchedFrom P chunks = frames.filterMap (Frame.message P receiveLoopTypes) := by
  obtain ⟨groups, rfl, rfl, hskip⟩ := hcut
  have hne (group : List Frame) (hgroup : group ∈ groups) : group ≠ [] := by
    rintro rfl
    exact hcutting.ne_nil _ (List.mem_map_of_mem hgroup) rfl
  have hlength (group : List Frame) (hgroup : group ∈ groups) :
      decodeMultiple P receiveLoopTypes (framesBytes group) =
        decode P receiveLoopTypes (framesBytes group) := by
    refine hcutting.decodeMultiple_eq (List.mem_map_of_mem hgroup) ?_ _
    obtain ⟨frame, group, rfl⟩ := List.exists_cons_of_ne_nil (hne group hgroup)
    have hthree := frame.three_le_length
    rw [framesBytes_cons, List.length_append]
    omega
  clear hcutting hne
  induction groups with
  | nil => rfl
  | cons group groups ih =>
    have hhead : dispatchedFrom P ((group :: groups).map framesBytes) =
        (decodeMultiple P receiveLoopTypes (framesBytes group)).1 ++
          dispatchedFrom P (groups.map framesBytes) := rfl
    rw [hhead, hlength group List.mem_cons_self, List.flatten_cons, List.filterMap_append,
      decode_group hP (fun frame hframe => hframes frame (List.mem_append_left _ hframe))
        (hskip group List.mem_cons_self),
      ih (fun frame hframe => hframes frame (List.mem_append_right _ hframe))
        (fun later hlater => hskip later (List.mem_cons_of_mem group hlater))
        (fun later hlater => hlength later (List.mem_cons_of_mem group hlater))]

/-- Nothing is dispatched from a stream received byte by byte. -/
theorem dispatchedFrom_singletons (stream : Bytes) :
    dispatchedFrom P (stream.map fun byte => [byte]) = [] := by
  rw [List.eq_nil_iff_forall_not_mem]
  intro message hmessage
  obtain ⟨chunk, hchunk, hmem⟩ := mem_dispatchedFrom.mp hmessage
  obtain ⟨byte, -, rfl⟩ := List.mem_map.mp hchunk
  rw [decodeMultiple_short (by rw [List.length_singleton]; decide)] at hmem
  simp at hmem

/-- A stream can be received byte by byte. -/
theorem cutting_singletons (stream : Bytes) :
    Cutting stream (stream.map fun byte => [byte]) where
  flatten_eq := by
    induction stream with
    | nil => rfl
    | cons byte stream ih => rw [List.map_cons, List.flatten_cons, ih, List.singleton_append]
  ne_nil chunk hchunk := by
    obtain ⟨byte, -, rfl⟩ := List.mem_map.mp hchunk
    exact List.cons_ne_nil byte []
  length_le chunk hchunk := by
    obtain ⟨byte, -, rfl⟩ := List.mem_map.mp hchunk
    rw [List.length_singleton, receiveBufferSize]
    decide

/-- A stream that fits into the buffer can be received whole. -/
theorem cutting_singleton {stream : Bytes} (hne : stream ≠ [])
    (hle : stream.length ≤ receiveBufferSize) : Cutting stream [stream] where
  flatten_eq := List.flatten_singleton
  ne_nil chunk hchunk := by rwa [List.mem_singleton.mp hchunk]
  length_le chunk hchunk := by rwa [List.mem_singleton.mp hchunk]

/-- Streams received one after the other are a way of receiving their concatenation. -/
theorem Cutting.append {first second : Bytes} {left right : List Bytes}
    (hleft : Cutting first left) (hright : Cutting second right) :
    Cutting (first ++ second) (left ++ right) where
  flatten_eq := by rw [List.flatten_append, hleft.flatten_eq, hright.flatten_eq]
  ne_nil chunk hchunk := by
    rcases List.mem_append.mp hchunk with h | h
    · exact hleft.ne_nil chunk h
    · exact hright.ne_nil chunk h
  length_le chunk hchunk := by
    rcases List.mem_append.mp hchunk with h | h
    · exact hleft.length_le chunk h
    · exact hright.length_le chunk h

/-- Bytes that look like a message have a header in front. -/
theorem LooksLikeMessage.three_le_length {part : Bytes} (h : LooksLikeMessage P part) :
    3 ≤ part.length := by
  obtain ⟨header, body, -, -, -, hheader, -⟩ := h
  have hlength := readHeader_length hheader
  omega

/-- Received as a chunk, bytes that look like a message are dispatched. -/
theorem dispatchedFrom_lookalike (hP : P.Documented) {part : Bytes}
    (hpart : LooksLikeMessage P part) (hle : part.length ≤ receiveBufferSize) :
    ∃ message, message ∈ (decodeMultiple P receiveLoopTypes part).1 := by
  have hmin := hpart.three_le_length
  obtain ⟨message, rest, hstep⟩ := looksLikeMessage_iff.mp hpart
  rw [receiveBufferSize] at hle
  refine ⟨message, ?_⟩
  rw [decodeMultiple_eq hmin (by omega), decode_again hP hstep]
  exact List.mem_append_left _ (Option.mem_toList.mpr rfl)

/-- A dispatched message comes from a part of the stream that looks like one. -/
theorem containsLookalike_of_dispatched (hP : P.Documented) {stream : Bytes}
    {chunks : List Bytes} (hcutting : Cutting stream chunks) {message : M}
    (h : message ∈ dispatchedFrom P chunks) : ContainsLookalike P stream := by
  obtain ⟨chunk, hchunk, hmem⟩ := mem_dispatchedFrom.mp h
  have hmin : 3 ≤ chunk.length := by
    by_contra hshort
    rw [decodeMultiple_short (by omega)] at hmem
    simp at hmem
  rw [hcutting.decodeMultiple_eq hchunk hmin] at hmem
  obtain ⟨next, left, rest, hcomes, hstep⟩ := exists_comesTo_of_mem_decode hP 0 hmem
  have hsuffix := hcomes.suffix hP
  refine ⟨left, ?_, hsuffix.length_le.trans (hcutting.length_le chunk hchunk),
    looksLikeMessage_iff.mpr ⟨message, rest, hstep⟩⟩
  obtain ⟨before, after, rfl⟩ := List.append_of_mem hchunk
  have hinfix : chunk <:+: (before ++ chunk :: after).flatten := by
    rw [List.flatten_append, List.flatten_cons, ← List.append_assoc]
    exact List.infix_append _ chunk _
  rw [← hcutting.flatten_eq]
  exact hsuffix.isInfix.trans hinfix

/-- A stream is dispatched alike under all cuttings exactly when no part of it looks like a
message. -/
theorem segmentationIndependent_iff (hP : P.Documented) (stream : Bytes) :
    SegmentationIndependent P stream ↔ ¬ ContainsLookalike P stream := by
  constructor
  · rintro hindependent ⟨part, ⟨before, after, rfl⟩, hle, hpart⟩
    obtain ⟨message, hmessage⟩ := dispatchedFrom_lookalike hP hpart hle
    have hmin := hpart.three_le_length
    have hne : part ≠ [] := by
      rintro rfl
      simp at hmin
    have hwhole := cutting_singleton hne hle
    have hcutting := ((cutting_singletons before).append hwhole).append (cutting_singletons after)
    have hsame := hindependent _ _ hcutting (cutting_singletons _)
    rw [dispatchedFrom_singletons, List.eq_nil_iff_forall_not_mem] at hsame
    refine hsame message (mem_dispatchedFrom.mpr ⟨part, ?_, hmessage⟩)
    simp
  · intro hnone left right hleft hright
    have hempty (chunks : List Bytes) (hchunks : Cutting stream chunks) :
        dispatchedFrom P chunks = [] := by
      rw [List.eq_nil_iff_forall_not_mem]
      intro message hmessage
      exact hnone (containsLookalike_of_dispatched hP hchunks hmessage)
    rw [hempty left hleft, hempty right hright]

/-- Two ways of receiving a stream of well-formed frames dispatch the same messages when both cut
it at frame boundaries and behind every accepted frame. All ways of receiving it dispatch the
same messages exactly when no part of it looks like a message. -/
theorem dispatchedFrom_segmentation (hP : P.Documented) (frames : List Frame)
    (hframes : ∀ frame ∈ frames, frame.WellFormed P receiveLoopTypes) :
    (∀ left right, Cutting (framesBytes frames) left → Cutting (framesBytes frames) right →
      CutBehindAccepted frames left → CutBehindAccepted frames right →
      dispatchedFrom P left = dispatchedFrom P right) ∧
    (SegmentationIndependent P (framesBytes frames) ↔
      ¬ ContainsLookalike P (framesBytes frames)) := by
  refine ⟨fun left right hleft hright hcutLeft hcutRight => ?_, segmentationIndependent_iff hP _⟩
  rw [dispatchedFrom_of_cutBehindAccepted hP hframes hleft hcutLeft,
    dispatchedFrom_of_cutBehindAccepted hP hframes hright hcutRight]

/-- The frame of an empty PingRequest. -/
def pingFrame : Frame := .ofBody 7 []

/-- The frame of a HelloResponse. -/
def helloFrame : Frame := .ofBody 2 [34, 3, 101, 115, 112]

/-- Both frames are as a device sends them. -/
theorem wellFormed_ping_hello :
    ∀ frame ∈ [pingFrame, helloFrame], frame.WellFormed wireProtobuf receiveLoopTypes := by
  have hping : IsFrameOf wireProtobuf ⟨.pingRequest, []⟩ pingFrame :=
    ⟨rfl, rfl, by decide⟩
  have hhello : IsFrameOf wireProtobuf helloMessage helloFrame := ⟨by rfl, rfl, by decide⟩
  intro frame hframe
  rcases List.mem_pair.mp hframe with rfl | rfl
  · exact hping.wellFormed wireProtobuf_documented
  · exact hhello.wellFormed wireProtobuf_documented

/-- An unaccepted PingRequest may come in one chunk with the HelloResponse behind it. -/
theorem dispatchedFrom_segmentation_ping_hello :
    dispatchedFrom wireProtobuf [[0, 0, 7, 0, 5, 2, 34, 3, 101, 115, 112]] =
      dispatchedFrom wireProtobuf [[0, 0, 7], [0, 5, 2, 34, 3, 101, 115, 112]] := by
  refine (dispatchedFrom_segmentation wireProtobuf_documented [pingFrame, helloFrame]
    wellFormed_ping_hello).1 _ _ ⟨by decide, by decide, by decide⟩ ⟨by decide, by decide, by decide⟩
    ⟨[[pingFrame, helloFrame]], rfl, by decide, ?_⟩ ⟨[[pingFrame], [helloFrame]], rfl, by decide, ?_⟩
  · intro group hgroup frame hframe
    rw [List.mem_singleton.mp hgroup] at hframe
    rw [List.mem_singleton.mp hframe]
    decide +kernel
  · intro group hgroup frame hframe
    rcases List.mem_pair.mp hgroup with rfl | rfl <;> simp at hframe

/-- A HelloResponse that is received in two parts is lost. -/
theorem not_segmentationIndependent_hello :
    wireProtobuf.Documented ∧
      (∀ frame ∈ [helloFrame], frame.WellFormed wireProtobuf receiveLoopTypes) ∧
      ¬ SegmentationIndependent wireProtobuf (framesBytes [helloFrame]) := by
  refine ⟨wireProtobuf_documented, fun frame hframe =>
    wellFormed_ping_hello frame (List.mem_cons_of_mem _ hframe), fun h => ?_⟩
  have hsame := h [[0, 5, 2, 34, 3, 101, 115, 112]] [[0, 5, 2, 34], [3, 101, 115, 112]]
    ⟨by decide, by decide, by decide⟩ ⟨by decide, by decide, by decide⟩
  have hwhole : dispatchedFrom wireProtobuf [[0, 5, 2, 34, 3, 101, 115, 112]] = [helloMessage] := by
    rfl
  have hparts : dispatchedFrom wireProtobuf [[0, 5, 2, 34], [3, 101, 115, 112]] = [] := by rfl
  rw [hwhole, hparts] at hsame
  exact List.cons_ne_nil _ _ hsame

end EspHomeApi
