import EspHomeApi.DecodeLoop
import EspHomeApi.WireClient

/-!
# The space that `serialize` reserves

`serialize` reserves five bytes in front of the body and builds its stream over all of them but
the preamble, before it knows how long the header is. For a body below `2 ^ 21` bytes the size
field has at most three bytes, the header fits, and trimming the buffer to the real header length
leaves exactly the frame. From `2 ^ 21` bytes on the header needs a sixth byte: the stream runs
out of space, and what is meant to trim the buffer makes it longer.
-/

namespace EspHomeApi

open Reader

variable {M : Type} {P : Protobuf M}

/-- The size of the buffer that `serialize` starts with. -/
def reservedSize (byteSize : ℕ) : ℕ := byteSize + kMaxHeaderLen

/-- The size of the array that the stream is built over. -/
def streamSize (byteSize : ℕ) : ℕ := (staticCastInt (reservedSize byteSize - 1)).toNat

/-- `ByteCount` of the stream behind the two varints of the header. -/
def headerSize (byteSize id : ℕ) : ℕ :=
  (Varint.write (byteSize % 2 ^ 32) ++ Varint.write (id % 2 ^ 32)).length

/-- The size of the buffer behind the place where it is trimmed. -/
def resizedSize (byteSize id : ℕ) : ℕ :=
  if headerSize byteSize id ≠ kMaxHeaderLen - 1 then 1 + byteSize + headerSize byteSize id
  else reservedSize byteSize

/-- `serialize` answers with a frame, its stream has room for the header and the body, and the
buffer is not made longer than the one that the stream was built over. -/
structure HasRoom (P : Protobuf M) (message : M) (id : ℕ) : Prop where
  serializes : ∃ packet, serialize P message = .ok packet
  fits : headerSize (P.encode message).length id + (P.encode message).length ≤
    streamSize (P.encode message).length
  not_longer : resizedSize (P.encode message).length id ≤ reservedSize (P.encode message).length

/-- The field is a shortest one that reads as the number. -/
structure ShortestField (field : Bytes) (n : ℕ) : Prop where
  reads : Reads readVarint32 field n
  length_le : ∀ other, Reads readVarint32 other n → field.length ≤ other.length

/-- `WriteVarint32` writes shortest fields. -/
theorem shortestField_write {n : ℕ} (h : n < 2 ^ 32) : ShortestField (Varint.write n) n where
  reads := reads_write h
  length_le other hother := by
    obtain ⟨⟨full, rest⟩, hfull, heq⟩ := Option.map_eq_some_iff.mp (hother [])
    simp only [Prod.mk.injEq] at heq
    obtain ⟨hvalue, rfl⟩ := heq
    obtain ⟨word, hword, hreads⟩ := Varint.local_read _ _ _ hfull
    rw [List.append_nil, List.append_nil] at hword
    subst hword
    apply Varint.write_length_le hreads
    rw [← hvalue]
    exact Nat.mod_le full (2 ^ 32)

/-- The array has four bytes for the header, as long as its size is an `int`. -/
theorem streamSize_eq (byteSize : ℕ) (h : byteSize + 4 < 2 ^ 31) :
    streamSize byteSize = byteSize + 4 := by
  have hreserved : reservedSize byteSize - 1 = byteSize + 4 := rfl
  rw [streamSize, hreserved, staticCastInt_of_lt h, Int.toNat_natCast]

/-- An id takes one byte of the header. -/
theorem headerSize_eq {byteSize id : ℕ} (hsize : byteSize < 2 ^ 32) (hid : id < 128) :
    headerSize byteSize id = (Varint.write byteSize).length + 1 := by
  rw [headerSize, Nat.mod_eq_of_lt hsize, Nat.mod_eq_of_lt (hid.trans (by decide)),
    Varint.write_of_lt id hid, List.length_append, List.length_singleton]

/-- The header fits the four bytes exactly for bodies below `2 ^ 21` bytes. -/
theorem headerSize_le_iff (byteSize : ℕ) {id : ℕ} (hsize : byteSize < 2 ^ 32) (hid : id < 128) :
    headerSize byteSize id ≤ 4 ↔ byteSize < 2 ^ 21 := by
  rw [headerSize_eq hsize hid]
  constructor
  · intro hfour
    by_contra hlarge
    have hlong := Varint.lt_writeUpTo_length 9 3 byteSize (by decide) (by simpa using hlarge)
    rw [Varint.write] at hfour
    omega
  · intro hsmall
    have hshort := Varint.writeUpTo_length_le 9 2 byteSize (by simpa using hsmall)
    rw [Varint.write]
    omega

/-- `serialize` in terms of the sizes it computes. -/
theorem serialize_eq {message : M} {id : ℕ} (hid : (P.descriptor message).id = some id)
    (hsize : (P.encode message).length < 2 ^ 31) :
    serialize P message =
      if streamSize (P.encode message).length <
          headerSize (P.encode message).length id + (P.encode message).length then
        let name := (P.descriptor message).name
        makeUnexpectedResult .serializeError s!"could not serialize message \"{name}\""
      else .ok (overwrite
        (if headerSize (P.encode message).length id ≠ kMaxHeaderLen - 1 then
          resize ((resize [] ((P.encode message).length + kMaxHeaderLen)).set 0 kPlainTextPreamble)
            (1 + (P.encode message).length + headerSize (P.encode message).length id)
        else (resize [] ((P.encode message).length + kMaxHeaderLen)).set 0 kPlainTextPreamble) 1
        (Varint.write ((P.encode message).length % 2 ^ 32) ++ Varint.write (id % 2 ^ 32) ++
          P.encode message)) := by
  unfold serialize
  rw [hid]
  simp only [CodedOutputStream.writeVarint32, CodedOutputStream.writeRaw,
    CodedOutputStream.hadError, CodedOutputStream.byteCount, List.nil_append, List.length_append,
    List.length_set, length_resize, not_le.mpr hsize, false_or, streamSize, reservedSize,
    headerSize]

/-- Below `2 ^ 21` bytes the packet is the frame of the body with shortest fields. -/
theorem serialize_of_lt {message : M} {id : ℕ} (hid : (P.descriptor message).id = some id)
    (hsize : (P.encode message).length < 2 ^ 21) :
    serialize P message = .ok (0 :: (Varint.write (P.encode message).length ++
      (Varint.write id ++ P.encode message))) := by
  have hidLt := (MessageType.id_bounds hid).2
  have hheader : headerSize (P.encode message).length id ≤ 4 :=
    (headerSize_le_iff _ (by omega) hidLt).mpr hsize
  have hroom : ¬ streamSize (P.encode message).length <
      headerSize (P.encode message).length id + (P.encode message).length := by
    rw [streamSize_eq _ (by omega)]
    omega
  have hsizeMod : (P.encode message).length % 2 ^ 32 = (P.encode message).length :=
    Nat.mod_eq_of_lt (by omega)
  have hidMod : id % 2 ^ 32 = id := Nat.mod_eq_of_lt (by omega)
  rw [serialize_eq hid (by omega), if_neg hroom]
  rw [headerSize] at hheader ⊢
  rw [serialize_buffer_eq _ _ hheader, hsizeMod, hidMod, List.append_assoc]

/-- From `2 ^ 21` bytes on, `serialize` answers with an error. -/
theorem serialize_of_le {message : M} {id : ℕ} (hid : (P.descriptor message).id = some id)
    (hsize : 2 ^ 21 ≤ (P.encode message).length)
    (hlimit : (P.encode message).length ≤ 2 ^ 31 - 7) :
    ∃ error, serialize P message = .error error ∧ error.code = .serializeError := by
  have hidLt := (MessageType.id_bounds hid).2
  have hheader := headerSize_le_iff (P.encode message).length (by omega) hidLt
  have hfull : streamSize (P.encode message).length <
      headerSize (P.encode message).length id + (P.encode message).length := by
    rw [streamSize_eq _ (by omega)]
    omega
  rw [serialize_eq hid (by omega), if_pos hfull]
  exact ⟨_, rfl, rfl⟩

/-- Below `2 ^ 21` bytes of body, `serialize` gives exactly the preamble, the shortest size and
type fields and the body, and `decode_multiple` takes the packet apart again if it accepts the
type. -/
theorem serialize_exact (hP : P.Documented) (message : M) (id : ℕ)
    (hid : (P.descriptor message).id = some id) (hsize : (P.encode message).length < 2 ^ 21) :
    ∃ sizeField typeField, ShortestField sizeField (P.encode message).length ∧
      ShortestField typeField id ∧
      serialize P message = .ok (0 :: (sizeField ++ (typeField ++ P.encode message))) ∧
      (∀ types, (types.map getMessageId).Nodup → P.descriptor message ∈ types →
        decodeMultiple P types (0 :: (sizeField ++ (typeField ++ P.encode message))) =
          ([message], .ok ())) ∧
      (P.isAccepted receiveLoopTypes message = true →
        decodeMultiple P receiveLoopTypes (0 :: (sizeField ++ (typeField ++ P.encode message))) =
          ([message], .ok ())) := by
  have hidLt := (MessageType.id_bounds hid).2
  let frame : Frame := ⟨Varint.write (P.encode message).length, Varint.write id,
    P.encode message, id, reads_write (by omega), reads_write (by omega)⟩
  have hframe : IsFrameOf P message frame := ⟨rfl, hid, show (P.encode message).length < _ by omega⟩
  have hlength : frame.bytes.length < 2 ^ 31 := by
    have hheader := (headerSize_le_iff _ (by omega) hidLt).mpr hsize
    rw [headerSize_eq (by omega) hidLt] at hheader
    have htype : (Varint.write id).length = 1 := by rw [Varint.write_of_lt id hidLt]; rfl
    simp only [frame, Frame.bytes, List.length_cons, List.length_append]
    omega
  have hlone (types : List MessageType) (hids : (types.map getMessageId).Nodup)
      (hmem : P.descriptor message ∈ types) :
      decodeMultiple P types frame.bytes = ([message], .ok ()) := by
    rw [decodeMultiple_eq frame.three_le_length hlength]
    exact decode_lone hP hids hframe hmem
  refine ⟨Varint.write (P.encode message).length, Varint.write id, shortestField_write (by omega),
    shortestField_write (by omega), serialize_of_lt hid hsize, hlone, fun haccepted => ?_⟩
  exact hlone receiveLoopTypes receiveLoopTypes_nodup (hframe.descriptor_mem haccepted).1

/-- An empty PingResponse, whose frame has three bytes, and a HelloResponse. -/
theorem serialize_exact_ping_hello :
    decodeMultiple wireProtobuf receiveLoopTypes [0, 0, 8] = ([⟨.pingResponse, []⟩], .ok ()) ∧
      decodeMultiple wireProtobuf receiveLoopTypes helloPacket = ([helloMessage], .ok ()) := by
  obtain ⟨_, _, -, -, hping, -, hpingDecode⟩ :=
    serialize_exact wireProtobuf_documented ⟨.pingResponse, []⟩ 8 rfl (by decide)
  obtain ⟨_, _, -, -, hhello, -, hhelloDecode⟩ :=
    serialize_exact wireProtobuf_documented helloMessage 2 rfl (by decide)
  have hpingPacket : serialize wireProtobuf ⟨.pingResponse, []⟩ = .ok [0, 0, 8] := by rfl
  have hhelloPacket : serialize wireProtobuf helloMessage = .ok helloPacket := by rfl
  rw [hpingPacket, Except.ok.injEq] at hping
  rw [hhelloPacket, Except.ok.injEq] at hhello
  rw [hping, hhello]
  exact ⟨hpingDecode (by decide +kernel), hhelloDecode (by decide +kernel)⟩

/-- `serialize` has room for the frame exactly when the body has less than `2 ^ 21` bytes. -/
theorem hasRoom_iff (message : M) (id : ℕ) (hid : (P.descriptor message).id = some id)
    (hsize : (P.encode message).length ≤ 2 ^ 31 - 7) :
    HasRoom P message id ↔ (P.encode message).length < 2 ^ 21 := by
  have hidLt := (MessageType.id_bounds hid).2
  have hheader := headerSize_le_iff (P.encode message).length (by omega) hidLt
  have hstream := streamSize_eq (P.encode message).length (by omega)
  constructor
  · intro hroom
    have hfits := hroom.fits
    rw [hstream] at hfits
    exact hheader.mp (by omega)
  · intro hsmall
    have hfour := hheader.mpr hsmall
    refine ⟨⟨_, serialize_of_lt hid hsmall⟩, by rw [hstream]; omega, ?_⟩
    unfold resizedSize reservedSize kMaxHeaderLen
    split <;> omega

/-- There is room for a HelloResponse. -/
theorem hasRoom_iff_hello : HasRoom wireProtobuf helloMessage 2 :=
  (hasRoom_iff helloMessage 2 rfl (by decide)).mpr (by decide)

/-- The ConnectRequest with a password is a single field. -/
theorem encode_setPassword {password : Bytes} (hne : password ≠ [])
    (hlt : password.length < 2 ^ 64) :
    wireProtobuf.encode (wireMessages.setPassword password (wireMessages.new .connectRequest)) =
      10 :: (Varint.write password.length ++ password) := by
  have hlegal : 0 < 1 ∧ 1 < 2 ^ 29 ∧ (WireFormat.Value.len password).Fits :=
    ⟨by decide, by decide, hlt⟩
  have hset : wireMessages.setPassword password (wireMessages.new .connectRequest) =
      ⟨.connectRequest, [⟨1, .len password, hlegal⟩]⟩ := by
    change WireMessage.setString 1 password ⟨.connectRequest, []⟩ = _
    rw [WireMessage.setString, if_neg hne, WireMessage.setField, WireFormat.makeField,
      dif_pos hlegal]
    rfl
  rw [hset]
  change WireFormat.write [⟨1, .len password, hlegal⟩] = _
  rw [WireFormat.write, List.flatMap_singleton]
  rfl

/-- A password that makes the body of its ConnectRequest `2 ^ 21` bytes long. -/
def longPassword : Bytes := List.replicate (2 ^ 21 - 4) 97

/-- The ConnectRequest with that password. -/
def longConnectRequest : WireMessage :=
  wireMessages.setPassword longPassword (wireMessages.new .connectRequest)

/-- The body is the tag, three bytes of length and the password. -/
theorem longConnectRequest_length : (wireProtobuf.encode longConnectRequest).length = 2 ^ 21 := by
  have hlength : longPassword.length = 2 ^ 21 - 4 := List.length_replicate
  have hne : longPassword ≠ [] := by
    intro hnil
    rw [hnil] at hlength
    simp at hlength
  have hcount : (Varint.write (2 ^ 21 - 4)).length = 3 := by decide
  rw [longConnectRequest, encode_setPassword hne (by omega), List.length_cons, List.length_append,
    hlength, hcount]
  omega

/-- There is no room for that ConnectRequest, and `serialize` answers with an error. -/
theorem not_hasRoom_longConnectRequest :
    (wireProtobuf.descriptor longConnectRequest).id = some 3 ∧
      (wireProtobuf.encode longConnectRequest).length ≤ 2 ^ 31 - 7 ∧
      ¬ HasRoom wireProtobuf longConnectRequest 3 := by
  have hlength := longConnectRequest_length
  have hle : (wireProtobuf.encode longConnectRequest).length ≤ 2 ^ 31 - 7 := by omega
  have hid : (wireProtobuf.descriptor longConnectRequest).id = some 3 :=
    congrArg MessageType.id (type_setString 1 longPassword ⟨.connectRequest, []⟩)
  refine ⟨hid, hle, fun hroom => ?_⟩
  obtain ⟨packet, hpacket⟩ := hroom.serializes
  obtain ⟨error, herror, -⟩ := serialize_of_le hid (by omega) hle
  rw [hpacket] at herror
  simp at herror

end EspHomeApi
