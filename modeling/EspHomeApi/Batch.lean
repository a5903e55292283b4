import EspHomeApi.DecodeLoop
import EspHomeApi.WireMessage

/-!
# Batches of serialized messages

A batch is decoded message by message as long as the messages are of unaccepted types. The
parse of an accepted message has no limit: it stops at the zero byte of the next frame and
takes that byte with it, so the loop goes on one byte inside the next frame. A batch is
therefore decoded in step exactly when no message before its last one is accepted. Behind
an accepted message, a frame with a body is rejected as having a wrong preamble, and an
empty last frame as having no type. The size of the batch is passed to the stream as an `int`, so
a batch of `2 ^ 31` bytes or more is not read as it is.
-/

namespace EspHomeApi

variable {M : Type} {P : Protobuf M}

/-- `decode_multiple` hands exactly the accepted messages of the batch to the handler, in
order, and succeeds. -/
def RoundTrips (P : Protobuf M) (messages : List M) (packets : List Bytes) : Prop :=
  decodeMultiple P receiveLoopTypes packets.flatten =
    (messages.filter (P.isAccepted receiveLoopTypes), .ok ())

/-- No message before the last one is of an accepted type. -/
def AllButLastSkipped (P : Protobuf M) (messages : List M) : Prop :=
  ∀ message ∈ messages.dropLast, P.isAccepted receiveLoopTypes message = false

instance (messages : List M) : Decidable (AllButLastSkipped P messages) :=
  inferInstanceAs (Decidable (∀ message ∈ messages.dropLast, _))

/-- The batch is read in step: no message before the last one is accepted, and its size is an
`int`. -/
def InStep (P : Protobuf M) (messages : List M) (packets : List Bytes) : Prop :=
  AllButLastSkipped P messages ∧ packets.flatten.length < 2 ^ 31

instance (messages : List M) (packets : List Bytes) : Decidable (InStep P messages packets) :=
  inferInstanceAs (Decidable (_ ∧ _))

/-- The first accepted message is followed by an empty one, and more messages follow that. -/
def EmptyAfterAccepted (P : Protobuf M) (messages : List M) : Prop :=
  ∃ before message next later after, messages = before ++ message :: next :: later :: after ∧
    (∀ skipped ∈ before, P.isAccepted receiveLoopTypes skipped = false) ∧
    P.isAccepted receiveLoopTypes message = true ∧ P.encode next = []

/-- An unaccepted message is passed over. -/
theorem decode_skipped (hP : P.Documented) {message : M} {frame : Frame}
    (h : IsFrameOf P message frame) (hskip : P.isAccepted receiveLoopTypes message = false)
    (rest : Bytes) :
    decode P receiveLoopTypes (frame.bytes ++ rest) = decode P receiveLoopTypes rest := by
  rw [h.isAccepted_eq] at hskip
  exact decode_frame_append hP frame rest h.length_lt hskip

/-- An accepted message at the end of the chunk is handed over, and the loop is done. -/
theorem decode_last (hP : P.Documented) {message : M} {frame : Frame}
    (h : IsFrameOf P message frame) (haccepted : P.isAccepted receiveLoopTypes message = true) :
    decode P receiveLoopTypes frame.bytes = ([message], .ok ()) := by
  exact decode_lone hP receiveLoopTypes_nodup h (h.descriptor_mem haccepted).1

/-- Behind an accepted message the loop goes on after the preamble of the next frame. -/
theorem decode_followed (hP : P.Documented) {message : M} {frame : Frame}
    (h : IsFrameOf P message frame) (haccepted : P.isAccepted receiveLoopTypes message = true)
    (rest : Bytes) :
    decode P receiveLoopTypes (frame.bytes ++ 0 :: rest) =
      consCall (some message) (decode P receiveLoopTypes rest) :=
  decode_again hP (h.iteration_followed hP haccepted rest)

/-- One byte into a frame with a body, its size is taken for a wrong preamble. -/
theorem readHeader_inside (frame : Frame) (hbody : frame.body ≠ []) (rest : Bytes) :
    ∃ error, readHeader (frame.bytes.tail ++ rest) = .error error := by
  have hsize : readVarint32 (frame.bytes.tail ++ rest) =
      some (frame.body.length, frame.typeField ++ frame.body ++ rest) := by
    rw [Frame.bytes, List.tail_cons, List.append_assoc]
    exact frame.reads_size _
  have hne : frame.body.length ≠ 0 := fun h => hbody (List.eq_nil_of_length_eq_zero h)
  rw [readHeader, hsize]
  simp only [if_pos hne, makeUnexpectedResult]
  exact ⟨_, rfl⟩

/-- One byte into an empty frame at the end of the chunk, the type is missing. -/
theorem readHeader_inside_last (frame : Frame) (hbody : frame.body = []) :
    ∃ error, readHeader frame.bytes.tail = .error error := by
  have hlength : frame.body.length = 0 := by rw [hbody]; rfl
  have hsize : readVarint32 frame.bytes.tail = some (0, frame.typeField) := by
    rw [Frame.bytes, List.tail_cons, hbody, List.append_nil, frame.reads_size, hlength]
  have htype : readVarint32 frame.typeField = some (frame.messageType, []) := by
    have hread := frame.reads_type []
    rwa [List.append_nil] at hread
  rw [readHeader, hsize]
  simp only [ne_eq, not_true_eq_false, if_false, htype, readVarint32_nil, makeUnexpectedResult]
  exact ⟨_, rfl⟩

/-- A batch whose messages before the last are unaccepted is decoded in step. -/
theorem decode_batch (hP : P.Documented) {messages : List M} {frames : List Frame}
    (hframes : List.Forall₂ (IsFrameOf P) messages frames)
    (hskip : AllButLastSkipped P messages) :
    decode P receiveLoopTypes (framesBytes frames) =
      (messages.filter (P.isAccepted receiveLoopTypes), .ok ()) := by
  induction hframes with
  | nil => rfl
  | @cons message frame messages frames hframe hrest ih =>
    rw [framesBytes_cons]
    cases haccepted : P.isAccepted receiveLoopTypes message with
    | false =>
      rw [decode_skipped hP hframe haccepted, List.filter_cons_of_neg (by simp [haccepted])]
      refine ih fun later hlater => hskip later ?_
      cases messages with
      | nil => simp at hlater
      | cons next messages => exact List.mem_cons_of_mem message hlater
    | true =>
      cases hrest with
      | nil =>
        rw [framesBytes_nil, List.append_nil, decode_last hP hframe haccepted]
        simp [haccepted]
      | cons hnext hrest =>
        have hfalse := hskip message List.mem_cons_self
        rw [haccepted] at hfalse
        exact absurd hfalse (by decide)

/-- A list either has no accepted message before its last, or it splits at the first one. -/
theorem allButLastSkipped_or_split (P : Protobuf M) (messages : List M) :
    AllButLastSkipped P messages ∨ ∃ before message next after,
      messages = before ++ message :: next :: after ∧
      (∀ skipped ∈ before, P.isAccepted receiveLoopTypes skipped = false) ∧
      P.isAccepted receiveLoopTypes message = true := by
  induction messages with
  | nil => exact Or.inl fun message h => by simp at h
  | cons message messages ih =>
    cases messages with
    | nil => exact Or.inl fun message h => by simp at h
    | cons next messages =>
      cases haccepted : P.isAccepted receiveLoopTypes message with
      | true => exact Or.inr ⟨[], message, next, messages, rfl, by simp, haccepted⟩
      | false =>
        rcases ih with hall | ⟨before, first, second, after, heq, hbefore, hfirst⟩
        · left
          intro skipped hskipped
          rcases List.mem_cons.mp hskipped with rfl | hmem
          · exact haccepted
          · exact hall skipped hmem
        · refine Or.inr ⟨message :: before, first, second, after, by rw [heq]; rfl, ?_, hfirst⟩
          intro skipped hskipped
          rcases List.mem_cons.mp hskipped with rfl | hmem
          · exact haccepted
          · exact hbefore skipped hmem

/-- Behind an accepted message, a frame that cannot be entered one byte late ends the loop with
an error. -/
theorem decode_followed_fails (hP : P.Documented) {message : M} {frame next : Frame}
    (hframe : IsFrameOf P message frame)
    (haccepted : P.isAccepted receiveLoopTypes message = true) {rest : Bytes}
    (hinside : ∃ error, readHeader (next.bytes.tail ++ rest) = .error error) :
    (decode P receiveLoopTypes (frame.bytes ++ (next.bytes ++ rest))).2 ≠ .ok () := by
  obtain ⟨error, herror⟩ := hinside
  have hne : next.bytes.tail ++ rest ≠ [] := by
    have hlength := next.three_le_length
    intro hnil
    have htail := congrArg List.length (List.append_eq_nil_iff.mp hnil).1
    rw [List.length_tail, List.length_nil] at htail
    omega
  have hbytes : next.bytes ++ rest = 0 :: (next.bytes.tail ++ rest) := rfl
  rw [hbytes, decode_followed hP hframe haccepted, decode_of_header_error hne herror]
  simp [consCall]

/-- When the loop succeeds although an accepted message is not the last one, an empty message
follows it, and is not the last one either. -/
theorem empty_after_accepted (hP : P.Documented) {before after : List M} {message next : M}
    {frames : List Frame}
    (hframes : List.Forall₂ (IsFrameOf P) (before ++ message :: next :: after) frames)
    (hskip : ∀ skipped ∈ before, P.isAccepted receiveLoopTypes skipped = false)
    (haccepted : P.isAccepted receiveLoopTypes message = true)
    (hok : (decode P receiveLoopTypes (framesBytes frames)).2 = .ok ()) :
    P.encode next = [] ∧ after ≠ [] := by
  induction before generalizing frames with
  | nil =>
    cases hframes with
    | cons hframe hrest =>
      cases hrest with
      | @cons _ nextFrame _ afterFrames hnext hafter =>
        rw [framesBytes_cons, framesBytes_cons] at hok
        have hempty : nextFrame.body = [] := by
          by_contra hbody
          exact decode_followed_fails hP hframe haccepted (readHeader_inside nextFrame hbody _) hok
        refine ⟨hnext.body_eq ▸ hempty, ?_⟩
        rintro rfl
        cases hafter
        refine decode_followed_fails hP hframe haccepted ?_ hok
        rw [framesBytes_nil, List.append_nil]
        exact readHeader_inside_last nextFrame hempty
  | cons skipped before ih =>
    cases hframes with
    | cons hframe hrest =>
      rw [framesBytes_cons, decode_skipped hP hframe (hskip _ List.mem_cons_self)] at hok
      exact ih hrest (fun other hother => hskip other (List.mem_cons_of_mem _ hother)) hok

/-- The packets of a batch are the bytes of its frames. -/
theorem frames_of_serialize {messages : List M} {packets : List Bytes}
    (h : List.Forall₂ (fun message packet => serialize P message = .ok packet) messages packets) :
    ∃ frames, List.Forall₂ (IsFrameOf P) messages frames ∧
      packets.flatten = framesBytes frames := by
  induction h with
  | nil => exact ⟨[], .nil, rfl⟩
  | cons hmessage _ ih =>
    obtain ⟨frames, hframes, hflatten⟩ := ih
    obtain ⟨frame, hpacket, hframe⟩ := isFrameOf_of_serialize hmessage
    exact ⟨frame :: frames, .cons hframe hframes, by
      rw [List.flatten_cons, hflatten, hpacket, framesBytes_cons]⟩

/-- A batch of messages has the three bytes that are needed to start. -/
theorem three_le_batch {messages : List M} {frames : List Frame}
    (hframes : List.Forall₂ (IsFrameOf P) messages frames) (hne : messages ≠ []) :
    3 ≤ (framesBytes frames).length := by
  cases hframes with
  | nil => exact absurd rfl hne
  | @cons _ frame _ frames _ _ =>
    have hthree := frame.three_le_length
    rw [framesBytes_cons, List.length_append]
    omega

/-- What a batch that round-trips looks like when its size is an `int`. -/
theorem skipped_of_roundTrips (hP : P.Documented) {messages : List M} {frames : List Frame}
    (hframes : List.Forall₂ (IsFrameOf P) messages frames)
    (hok : (decode P receiveLoopTypes (framesBytes frames)).2 = .ok ()) :
    AllButLastSkipped P messages ∨ EmptyAfterAccepted P messages := by
  rcases allButLastSkipped_or_split P messages with
    hskip | ⟨before, message, next, after, rfl, hbefore, haccepted⟩
  · exact Or.inl hskip
  · obtain ⟨hempty, hafter⟩ := empty_after_accepted hP hframes hbefore haccepted hok
    obtain ⟨later, after, rfl⟩ := List.exists_cons_of_ne_nil hafter
    exact Or.inr ⟨before, message, next, later, after, rfl, hbefore, haccepted, hempty⟩

/-- Of a batch whose size is negative as an `int` nothing is read. -/
theorem decodeMultiple_negative {types : List MessageType} {data : Bytes}
    (hmin : 2 ^ 31 ≤ data.length) (hmax : data.length < 2 ^ 32) :
    decodeMultiple P types data = ([], .ok ()) := by
  rw [decodeMultiple, if_neg (by omega), flatStream_eq_nil hmin hmax]
  rfl

/-- A batch round-trips when no message before its last one is accepted and its size is an `int`.
Conversely, a batch that round-trips is of this kind, unless its first accepted message is followed
by an empty one and by more messages, or its size is no `int`. Where the size is negative as an
`int`, exactly the batches without an accepted message round-trip. -/
theorem decodeMultiple_roundTrips (hP : P.Documented) (messages : List M) (packets : List Bytes)
    (hne : messages ≠ [])
    (hserialize :
      List.Forall₂ (fun message packet => serialize P message = .ok packet) messages packets) :
    (InStep P messages packets → RoundTrips P messages packets) ∧
      (RoundTrips P messages packets →
        InStep P messages packets ∨ EmptyAfterAccepted P messages ∨
          2 ^ 31 ≤ packets.flatten.length) ∧
      (2 ^ 31 ≤ packets.flatten.length → packets.flatten.length < 2 ^ 32 →
        (RoundTrips P messages packets ↔
          ∀ message ∈ messages, P.isAccepted receiveLoopTypes message = false)) := by
  obtain ⟨frames, hframes, hflatten⟩ := frames_of_serialize hserialize
  have hmin : 3 ≤ packets.flatten.length := hflatten ▸ three_le_batch hframes hne
  refine ⟨?_, ?_, ?_⟩
  · intro hstep
    rw [RoundTrips, decodeMultiple_eq hmin hstep.2, hflatten]
    exact decode_batch hP hframes hstep.1
  · intro hround
    rcases Nat.lt_or_ge packets.flatten.length (2 ^ 31) with hlimit | hlimit
    · rw [RoundTrips, decodeMultiple_eq hmin hlimit, hflatten] at hround
      rcases skipped_of_roundTrips hP hframes (congrArg Prod.snd hround) with hskip | hempty
      · exact Or.inl ⟨hskip, hlimit⟩
      · exact Or.inr (Or.inl hempty)
    · exact Or.inr (Or.inr hlimit)
  · intro hlarge hlimit
    rw [RoundTrips, decodeMultiple_negative hlarge hlimit, Prod.mk.injEq, eq_comm,
      List.filter_eq_nil_iff]
    simp only [Bool.not_eq_true, and_true]

/-- An unaccepted PingRequest in front of a HelloResponse round-trips. -/
theorem decodeMultiple_roundTrips_ping_hello :
    RoundTrips wireProtobuf [⟨.pingRequest, []⟩, helloMessage] [[0, 0, 7], helloPacket] :=
  (decodeMultiple_roundTrips wireProtobuf_documented [⟨.pingRequest, []⟩, helloMessage]
    [[0, 0, 7], helloPacket] (by decide) (.cons (by rfl) (.cons (by rfl) .nil))).1
    (by decide +kernel)

/-- Two HelloResponses in a batch do not: the second one is rejected. -/
theorem not_roundTrips_two_hellos :
    wireProtobuf.Documented ∧
      List.Forall₂ (fun message packet => serialize wireProtobuf message = .ok packet)
        [helloMessage, helloMessage] [helloPacket, helloPacket] ∧
      ¬ RoundTrips wireProtobuf [helloMessage, helloMessage] [helloPacket, helloPacket] := by
  refine ⟨wireProtobuf_documented, .cons (by rfl) (.cons (by rfl) .nil), fun h => ?_⟩
  have hcalls := congrArg (fun outcome => outcome.1.length) h
  revert hcalls
  decide +kernel

end EspHomeApi
