import EspHomeApi.CodedStream

/-!
# The plain text protocol

`serialize` puts a message into one frame and `decode_multiple` takes the frames of a
received chunk apart, handing each accepted message to a handler. The handler is modelled by
the list of messages it is called with.
-/

namespace EspHomeApi

open Reader

variable {M : Type}

/-- The first byte of every frame. -/
def kPlainTextPreamble : UInt8 := 0

/-- The header length that `serialize` reserves. -/
def kMaxHeaderLen : ℕ := 5

/-- `std::vector::resize`: cut off, or fill up with zero bytes. -/
def resize (buffer : Bytes) (size : ℕ) : Bytes :=
  buffer.take size ++ List.replicate (size - buffer.length) 0

/-- Overwrite the buffer from an offset on with what a stream wrote there. -/
def overwrite (buffer : Bytes) (offset : ℕ) (written : Bytes) : Bytes :=
  buffer.take offset ++ written ++ buffer.drop (offset + written.length)

/-- `PlainTextProtocol::serialize`.

The stream is built over the buffer behind its first byte, before the buffer is resized.
`SerializeToCodedStream` refuses messages above `INT_MAX` bytes. From `2 ^ 21` bytes on the header
does not fit, the buffer is made longer and may move, and the stream goes on writing through its
pointer into the old one. That is undefined; here it is the error of the full stream. -/
def serialize (P : Protobuf M) (message : M) : Result Bytes :=
  match (P.descriptor message).id with
  | none =>
    let name := (P.descriptor message).name
    makeUnexpectedResult .serializeError s!"message \"{name}\" does not contain the id field"
  | some id =>
    let byteSize := (P.encode message).length
    let buffer := (resize [] (byteSize + kMaxHeaderLen)).set 0 kPlainTextPreamble
    let out : CodedOutputStream := ⟨(staticCastInt (buffer.length - 1)).toNat, []⟩
    let header := (out.writeVarint32 byteSize).writeVarint32 id
    let buffer :=
      if header.byteCount ≠ kMaxHeaderLen - 1 then resize buffer (1 + byteSize + header.byteCount)
      else buffer
    let out := header.writeRaw (P.encode message)
    if 2 ^ 31 ≤ byteSize ∨ out.hadError then
      let name := (P.descriptor message).name
      makeUnexpectedResult .serializeError s!"could not serialize message \"{name}\""
    else .ok (overwrite buffer 1 out.written)

/-- `PlainTextProtocol::parse_and_invoke` for one type, with the stream left behind.

The handler is called with the message when there is one. -/
def parseAndInvoke (P : Protobuf M) (type : MessageType) (stream : Bytes) (messageType : ℕ) :
    Option M × Bytes :=
  if getMessageId type ≠ messageType then (none, stream)
  else P.parseFromCodedStream type stream

/-- The fold of `parse_and_invoke` over the types, which stops at the first success. -/
def parseAnyAndInvoke (P : Protobuf M) : List MessageType → Bytes → ℕ → Option M × Bytes
  | [], stream, _ => (none, stream)
  | type :: types, stream, messageType =>
    match parseAndInvoke P type stream messageType with
    | (some message, stream) => (some message, stream)
    | (none, stream) => parseAnyAndInvoke P types stream messageType

/-- The size and type read from a header. -/
structure Header where
  messageSize : ℕ
  messageType : ℕ
  deriving DecidableEq

/-- The three reads at the start of an iteration: preamble, size and type. -/
def readHeader (stream : Bytes) : Result (Header × Bytes) :=
  match readVarint32 stream with
  | none => makeUnexpectedResult .parseError "response does contain an invalid preamble"
  | some (preamble, stream) =>
    if preamble ≠ 0 then
      makeUnexpectedResult .parseError "response does contain an invalid preamble"
    else
      match readVarint32 stream with
      | none => makeUnexpectedResult .parseError "got no message size"
      | some (messageSize, stream) =>
        match readVarint32 stream with
        | none => makeUnexpectedResult .parseError "got no message type"
        | some (messageType, stream) => .ok (⟨messageSize, messageType⟩, stream)

/-- Whether a type among `types` has the id. -/
def isAccepted (types : List MessageType) (messageType : ℕ) : Bool :=
  types.any fun type => getMessageId type = messageType

/-- How an iteration of the decoding loop ends. -/
inductive Iteration (M : Type) where
  /-- The handler was called or not, and the loop goes on with the stream. -/
  | again (call : Option M) (stream : Bytes)
  /-- The function returns an error. -/
  | stop (error : ApiError)

/-- The rest of an iteration, after its header. -/
def decodeBody (P : Protobuf M) (types : List MessageType) (header : Header) (stream : Bytes) :
    Iteration M :=
  if ¬ isAccepted types header.messageType then
    -- the result of `Skip` is not looked at
    .again none (skip stream (staticCastInt header.messageSize)).2
  else if bytesUntilLimit stream < header.messageSize then
    let expected := header.messageSize
    let got := bytesUntilLimit stream
    .stop ⟨.parseError, "Received message size does not match the remaining bytes. " ++
      s!"Expected {expected} bytes got {got} bytes."⟩
  else
    match parseAnyAndInvoke P types stream header.messageType with
    | (some message, stream) => .again (some message) stream
    | (none, _) => .stop ⟨.parseError, "Could not parse any message from bytes."⟩

/-- One iteration of the loop in `decode_multiple`. -/
def iteration (P : Protobuf M) (types : List MessageType) (stream : Bytes) : Iteration M :=
  match readHeader stream with
  | .error error => .stop error
  | .ok (header, stream) => decodeBody P types header stream

/-- The loop of `decode_multiple`, with the messages handed to the handler.

The fuel only bounds the recursion: `decodeLoop_eq` shows that the length of the stream is
always enough. -/
def decodeLoop (P : Protobuf M) (types : List MessageType) : ℕ → Bytes → List M × Result Unit
  | 0, _ => ([], .ok ())
  | fuel + 1, stream =>
    if bytesUntilLimit stream > 0 then
      match iteration P types stream with
      | .stop error => ([], .error error)
      | .again call stream =>
        let (calls, result) := decodeLoop P types fuel stream
        (call.toList ++ calls, result)
    else ([], .ok ())

/-- `PlainTextProtocol::decode_multiple`: the messages handed to the handler and the result. -/
def decodeMultiple (P : Protobuf M) (types : List MessageType) (receivedData : Bytes) :
    List M × Result Unit :=
  if receivedData.length < 3 then
    ([], makeUnexpectedResult .parseError "response does not contain enough bytes for the header")
  else
    let stream := flatStream receivedData
    decodeLoop P types stream.length stream

end EspHomeApi
