import EspHomeApi.PlainTextProtocol

/-!
# Frames

A frame is a zero byte, a varint with the size of the body, a varint with the message type,
and the body. The varints may have any form that `ReadVarint32` accepts. A list of bytes is
well framed when it is a concatenation of one or more frames; as the header decides where a
frame ends, there is only one way to cut it.
-/

namespace EspHomeApi

open Reader

variable {M : Type}

/-- A complete frame, the size field holding the length of the body. -/
structure Frame where
  sizeField : Bytes
  typeField : Bytes
  body : Bytes
  messageType : ℕ
  reads_size : Reads readVarint32 sizeField body.length
  reads_type : Reads readVarint32 typeField messageType

/-- The bytes of a frame. -/
def Frame.bytes (frame : Frame) : Bytes :=
  0 :: (frame.sizeField ++ (frame.typeField ++ frame.body))

/-- The bytes of several frames in a row. -/
def framesBytes (frames : List Frame) : Bytes := frames.flatMap Frame.bytes

/-- A concatenation of one or more complete frames. -/
def WellFramed (buffer : Bytes) : Prop := ∃ frames, frames ≠ [] ∧ buffer = framesBytes frames

/-- Read the zero byte in front of a frame. -/
def readPreamble : Bytes → Option (Unit × Bytes)
  | 0 :: rest => some ((), rest)
  | _ => none

/-- Read one complete frame: its type and its body. -/
def readFrame : Bytes → Option ((ℕ × Bytes) × Bytes) :=
  andThen readPreamble fun _ => andThen readVarint32 fun size =>
    andThen readVarint32 fun messageType => andThen (takeExactly size) fun body =>
      answer (some (messageType, body))

/-- The frame with the shortest fields. -/
def Frame.ofBody (messageType : ℕ) (body : Bytes)
    (legal : body.length < 2 ^ 32 ∧ messageType < 2 ^ 32 := by decide) : Frame where
  sizeField := Varint.write body.length
  typeField := Varint.write messageType
  body := body
  messageType := messageType
  reads_size := reads_write legal.1
  reads_type := reads_write legal.2

@[simp] theorem framesBytes_nil : framesBytes [] = [] := rfl

@[simp] theorem framesBytes_cons (frame : Frame) (frames : List Frame) :
    framesBytes (frame :: frames) = frame.bytes ++ framesBytes frames := List.flatMap_cons

@[simp] theorem framesBytes_append (left right : List Frame) :
    framesBytes (left ++ right) = framesBytes left ++ framesBytes right := List.flatMap_append

/-- A frame is what a whole frame is read from. -/
theorem Frame.reads (frame : Frame) :
    Reads readFrame frame.bytes (frame.messageType, frame.body) := by
  have hbody := (reads_takeExactly frame.body).andThen
    (fun body => answer (some (frame.messageType, body))) (reads_answer _)
  rw [List.append_nil] at hbody
  have htype := frame.reads_type.andThen (fun messageType =>
    andThen (takeExactly frame.body.length) fun body => answer (some (messageType, body))) hbody
  have hsize := frame.reads_size.andThen (fun size =>
    andThen readVarint32 fun messageType =>
      andThen (takeExactly size) fun body => answer (some (messageType, body))) htype
  intro rest
  exact hsize rest

/-- The bytes of a frame are a word of the frame reader. -/
theorem Frame.isWord (frame : Frame) : IsWord readFrame frame.bytes := ⟨_, frame.reads⟩

/-- The words of the frame reader are the bytes of frames. -/
theorem exists_frame_of_isWord {word : Bytes} (h : IsWord readFrame word) :
    ∃ frame : Frame, frame.bytes = word := by
  obtain ⟨value, hvalue⟩ := h
  have hread := hvalue []
  rw [List.append_nil] at hread
  obtain ⟨⟨_, afterPreamble⟩, hpreamble, hread⟩ := Option.bind_eq_some_iff.mp hread
  obtain ⟨⟨size, afterSize⟩, hsize, hread⟩ := Option.bind_eq_some_iff.mp hread
  obtain ⟨⟨messageType, afterType⟩, htype, hread⟩ := Option.bind_eq_some_iff.mp hread
  obtain ⟨⟨body, rest⟩, hbody, hanswer⟩ := Option.bind_eq_some_iff.mp hread
  obtain ⟨_, -, hrest⟩ := Option.map_eq_some_iff.mp hanswer
  obtain ⟨sizeField, rfl, hsizeField⟩ := local_readVarint32 _ _ _ hsize
  obtain ⟨typeField, rfl, htypeField⟩ := local_readVarint32 _ _ _ htype
  have hlength : body.length = size ∧ afterType = body ++ rest := by
    unfold takeExactly at hbody
    split at hbody
    · rename_i hle
      simp only [Option.some.injEq, Prod.mk.injEq] at hbody
      rw [← hbody.1, ← hbody.2, List.length_take_of_le hle, List.take_append_drop]
      exact ⟨rfl, rfl⟩
    · simp at hbody
  obtain ⟨rfl, rfl⟩ := hlength
  refine ⟨⟨sizeField, typeField, body, messageType, hsizeField, htypeField⟩, ?_⟩
  unfold readPreamble at hpreamble
  split at hpreamble
  · simp only [Option.some.injEq, Prod.mk.injEq] at hpreamble hrest
    rw [hpreamble.2, (hrest.2 : rest = []), List.append_nil]
    rfl
  · simp at hpreamble

/-- A field that reads has at least one byte. -/
theorem length_pos_of_reads {word : Bytes} {value : ℕ} (h : Reads readVarint32 word value) :
    0 < word.length := by
  have hlt := readVarint32_length_lt (h [])
  rw [List.append_nil, List.length_nil] at hlt
  exact hlt

/-- The shortest frame has three bytes. -/
theorem Frame.three_le_length (frame : Frame) : 3 ≤ frame.bytes.length := by
  have hsize := length_pos_of_reads frame.reads_size
  have htype := length_pos_of_reads frame.reads_type
  simp only [bytes, List.length_cons, List.length_append]
  omega

/-- The header of a frame is read off whatever follows the frame. -/
theorem readHeader_frame (frame : Frame) (rest : Bytes) :
    readHeader (frame.bytes ++ rest) =
      .ok (⟨frame.body.length, frame.messageType⟩, frame.body ++ rest) := by
  have hsize : readVarint32 (frame.sizeField ++ (frame.typeField ++ frame.body) ++ rest) =
      some (frame.body.length, frame.typeField ++ (frame.body ++ rest)) := by
    rw [List.append_assoc, List.append_assoc]
    exact frame.reads_size _
  have htype : readVarint32 (frame.typeField ++ (frame.body ++ rest)) =
      some (frame.messageType, frame.body ++ rest) := frame.reads_type _
  rw [readHeader, Frame.bytes, List.cons_append, readVarint32_zero]
  simp only [ne_eq, not_true_eq_false, if_false, hsize, htype]

/-- A header that reads consists of three varints, the first of them zero. -/
theorem readHeader_eq_ok {stream rest : Bytes} {header : Header}
    (h : readHeader stream = .ok (header, rest)) :
    ∃ afterPreamble afterSize, readVarint32 stream = some (0, afterPreamble) ∧
      readVarint32 afterPreamble = some (header.messageSize, afterSize) ∧
      readVarint32 afterSize = some (header.messageType, rest) := by
  unfold readHeader at h
  split at h
  · simp [makeUnexpectedResult] at h
  · rename_i preamble afterPreamble hpreamble
    split at h
    · simp [makeUnexpectedResult] at h
    · rename_i hzero
      split at h
      · simp [makeUnexpectedResult] at h
      · rename_i messageSize afterSize hsize
        split at h
        · simp [makeUnexpectedResult] at h
        · rename_i messageType afterType htype
          simp only [Except.ok.injEq, Prod.mk.injEq] at h
          obtain ⟨rfl, rfl⟩ := h
          have hpreambleZero : preamble = 0 := by simpa using hzero
          subst hpreambleZero
          exact ⟨afterPreamble, afterSize, hpreamble, hsize, htype⟩

/-- The bytes of a header are read in front of anything. -/
theorem exists_header_word {stream rest : Bytes} {header : Header}
    (h : readHeader stream = .ok (header, rest)) :
    ∃ head, stream = head ++ rest ∧ ∀ more, readHeader (head ++ more) = .ok (header, more) := by
  obtain ⟨afterPreamble, afterSize, hpreamble, hsize, htype⟩ := readHeader_eq_ok h
  obtain ⟨preambleField, rfl, hreadPreamble⟩ := local_readVarint32 _ _ _ hpreamble
  obtain ⟨sizeField, rfl, hreadSize⟩ := local_readVarint32 _ _ _ hsize
  obtain ⟨typeField, rfl, hreadType⟩ := local_readVarint32 _ _ _ htype
  refine ⟨preambleField ++ (sizeField ++ typeField), by simp only [List.append_assoc],
    fun more => ?_⟩
  rw [readHeader, List.append_assoc, hreadPreamble]
  simp only [ne_eq, not_true_eq_false, if_false]
  rw [List.append_assoc, hreadSize]
  simp only
  rw [hreadType]

/-- What is behind a header is a suffix of the stream. -/
theorem readHeader_suffix {stream rest : Bytes} {header : Header}
    (h : readHeader stream = .ok (header, rest)) : rest <:+ stream := by
  obtain ⟨head, rfl, -⟩ := exists_header_word h
  exact List.suffix_append head rest

/-- A header is read without looking at what follows it. -/
theorem readHeader_append {stream rest : Bytes} {header : Header}
    (h : readHeader stream = .ok (header, rest)) (more : Bytes) :
    readHeader (stream ++ more) = .ok (header, rest ++ more) := by
  obtain ⟨head, rfl, hread⟩ := exists_header_word h
  rw [List.append_assoc]
  exact hread (rest ++ more)

/-- A header takes at least three bytes. -/
theorem readHeader_length {stream rest : Bytes} {header : Header}
    (h : readHeader stream = .ok (header, rest)) : rest.length + 3 ≤ stream.length := by
  obtain ⟨afterPreamble, afterSize, hpreamble, hsize, htype⟩ := readHeader_eq_ok h
  have hfirst := readVarint32_length_lt hpreamble
  have hsecond := readVarint32_length_lt hsize
  have hthird := readVarint32_length_lt htype
  omega

/-- A header behind a single zero byte, with its body inside the stream, starts a frame. -/
theorem exists_frame_of_readHeader {stream rest : Bytes} {header : Header}
    (h : readHeader (0 :: stream) = .ok (header, rest)) (hsize : header.messageSize ≤ rest.length) :
    ∃ frame : Frame, 0 :: stream = frame.bytes ++ rest.drop header.messageSize ∧
      frame.messageType = header.messageType ∧ frame.body = rest.take header.messageSize := by
  obtain ⟨afterPreamble, afterSize, hpreamble, hreadSize, hreadType⟩ := readHeader_eq_ok h
  rw [readVarint32_zero] at hpreamble
  simp only [Option.some.injEq, Prod.mk.injEq, true_and] at hpreamble
  subst hpreamble
  obtain ⟨sizeField, rfl, hsizeField⟩ := local_readVarint32 _ _ _ hreadSize
  obtain ⟨typeField, rfl, htypeField⟩ := local_readVarint32 _ _ _ hreadType
  have hlength : (rest.take header.messageSize).length = header.messageSize :=
    List.length_take_of_le hsize
  refine ⟨⟨sizeField, typeField, rest.take header.messageSize, header.messageType,
    by rw [hlength]; exact hsizeField, htypeField⟩, ?_, rfl, rfl⟩
  simp only [Frame.bytes, List.cons_append, List.append_assoc, List.take_append_drop]

/-- Resizing gives the requested length. -/
theorem length_resize (buffer : Bytes) (size : ℕ) : (resize buffer size).length = size := by
  rw [resize, List.length_append, List.length_take, List.length_replicate]
  omega

/-- Resizing a buffer keeps its first byte. -/
theorem take_one_resize {buffer : Bytes} {byte : UInt8} {size : ℕ} (hsize : 0 < size)
    (h : buffer.take 1 = [byte]) : (resize buffer size).take 1 = [byte] := by
  cases buffer with
  | nil => simp at h
  | cons first rest =>
    obtain ⟨size, rfl⟩ := Nat.exists_eq_add_one_of_ne_zero (by omega : size ≠ 0)
    simpa [resize] using h

/-- The buffer starts out with the preamble in front. -/
theorem take_one_buffer (size : ℕ) :
    ((resize [] (size + kMaxHeaderLen)).set 0 kPlainTextPreamble).take 1 = [0] := by
  have hsucc : resize [] (size + kMaxHeaderLen) = 0 :: List.replicate (size + 4) 0 := by
    simp [resize, kMaxHeaderLen, List.replicate_succ]
  rw [hsucc]
  rfl

/-- A buffer of the right length is the preamble followed by what the stream wrote. -/
theorem overwrite_eq {buffer written : Bytes} (hlength : buffer.length = 1 + written.length)
    (hfirst : buffer.take 1 = [0]) : overwrite buffer 1 written = 0 :: written := by
  rw [overwrite, hfirst, ← hlength, List.drop_length, List.append_nil]
  rfl

/-- When the header and the body fit the array, the trimmed buffer holds exactly the frame. -/
theorem serialize_buffer_eq (body header : Bytes) (hheader : header.length ≤ 4) :
    overwrite (if header.length ≠ kMaxHeaderLen - 1 then
        resize ((resize [] (body.length + kMaxHeaderLen)).set 0 kPlainTextPreamble)
          (1 + body.length + header.length)
      else (resize [] (body.length + kMaxHeaderLen)).set 0 kPlainTextPreamble) 1
        (header ++ body) = 0 :: (header ++ body) := by
  apply overwrite_eq
  · rw [List.length_append]
    split
    · rw [length_resize]
      omega
    · rename_i hfour
      rw [List.length_set, length_resize]
      simp only [kMaxHeaderLen, ne_eq, not_not] at hfour ⊢
      omega
  · split
    · exact take_one_resize (by omega) (take_one_buffer _)
    · exact take_one_buffer _

/-- A stream over an array of `size` bytes that did not fail holds at most that many. -/
theorem length_le_of_not_hadError {size : ℕ} {written : Bytes} (hsize : size < 2 ^ 32)
    (h : ¬ (⟨(staticCastInt size).toNat, written⟩ : CodedOutputStream).hadError) :
    written.length ≤ size := by
  simp only [CodedOutputStream.hadError, not_lt] at h
  unfold staticCastInt at h
  split at h
  · rw [Nat.mod_eq_of_lt hsize, Int.toNat_natCast] at h
    exact h
  · rw [Nat.mod_eq_of_lt hsize] at h
    omega

/-- The array of the stream is the buffer without the preamble. -/
theorem length_buffer (size : ℕ) :
    ((resize [] (size + kMaxHeaderLen)).set 0 kPlainTextPreamble).length - 1 = size + 4 := by
  rw [List.length_set, length_resize]
  rfl

/-- The header of a body that is not too long: its size, and the id in one byte. -/
theorem writeHeader_eq (capacity : ℕ) {size id : ℕ} (hsize : size < 2 ^ 32) (hid : id < 128) :
    CodedOutputStream.writeVarint32 (CodedOutputStream.writeVarint32 ⟨capacity, []⟩ size) id =
      ⟨capacity, Varint.write size ++ [UInt8.ofNat id]⟩ := by
  simp only [CodedOutputStream.writeVarint32, CodedOutputStream.writeRaw, List.nil_append,
    Nat.mod_eq_of_lt hsize, Nat.mod_eq_of_lt (hid.trans (by decide : 128 < 2 ^ 32)),
    Varint.write_of_lt id hid]

/-- `serialize` answers with a frame of the message, in the shortest form. -/
theorem serialize_eq_ok {P : Protobuf M} {message : M} {packet : Bytes}
    (h : serialize P message = .ok packet) :
    ∃ frame : Frame, packet = frame.bytes ∧ frame.body = P.encode message ∧
      frame.sizeField = Varint.write (P.encode message).length ∧
      (P.descriptor message).id = some frame.messageType ∧
      frame.typeField = [UInt8.ofNat frame.messageType] ∧ frame.body.length < 2 ^ 31 := by
  unfold serialize at h
  split at h
  · simp [makeUnexpectedResult] at h
  · rename_i id hid
    simp only at h
    split at h
    · simp [makeUnexpectedResult] at h
    · rename_i hfits
      obtain ⟨hsize, herror⟩ := not_or.mp hfits
      have hbody : (P.encode message).length < 2 ^ 31 := not_le.mp hsize
      have hidBounds := MessageType.id_bounds hid
      have hidWrite : Varint.write id = [UInt8.ofNat id] := Varint.write_of_lt id hidBounds.2
      rw [length_buffer, writeHeader_eq _ (hbody.trans (by decide)) hidBounds.2] at h herror
      have hlength : (Varint.write (P.encode message).length ++ [UInt8.ofNat id]).length ≤ 4 := by
        have hle := length_le_of_not_hadError (by omega) herror
        simp only [List.length_append] at hle ⊢
        omega
      have hpacket : packet =
          0 :: (Varint.write (P.encode message).length ++ [UInt8.ofNat id] ++ P.encode message) :=
        (Except.ok.inj h).symm.trans (serialize_buffer_eq (P.encode message) _ hlength)
      refine ⟨⟨Varint.write (P.encode message).length, [UInt8.ofNat id], P.encode message, id,
        reads_write (hbody.trans (by decide)), ?_⟩, ?_, rfl, rfl, hid, rfl, hbody⟩
      · rw [← hidWrite]
        exact reads_write (hidBounds.2.trans (by decide))
      · rw [hpacket, Frame.bytes, List.append_assoc]

end EspHomeApi
