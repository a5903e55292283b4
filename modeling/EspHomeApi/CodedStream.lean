import EspHomeApi.Lib.Varint
import EspHomeApi.MessageType

/-!
# The protobuf streams under the framing

The state of a `CodedInputStream` over a flat array is the list of bytes it has not read
yet, so `BytesUntilLimit` is the length of that list. `ReadVarint32` keeps the low 32 bits
of a varint of at most ten bytes. A `CodedOutputStream` over an array records what was
written and fails once it is given more bytes than the array has.

The message classes are generated from the protocol definition and are a parameter here.
The assumptions on them are collected in `Protobuf.Documented`.
-/

namespace EspHomeApi

open Reader

/-- `static_cast<int>` of a 32-bit unsigned number. -/
def staticCastInt (n : ℕ) : ℤ :=
  if n % 2 ^ 32 < 2 ^ 31 then (n % 2 ^ 32 : ℕ) else (n % 2 ^ 32 : ℕ) - 2 ^ 32

/-- The stream over a flat array, whose size is passed as an `int`. -/
def flatStream (data : Bytes) : Bytes := data.take (staticCastInt data.length).toNat

/-- `BytesUntilLimit`: without a pushed limit, the bytes left in the array. -/
def bytesUntilLimit (stream : Bytes) : ℕ := stream.length

/-- `ReadVarint32`. -/
def readVarint32 (stream : Bytes) : Option (ℕ × Bytes) :=
  (Varint.read stream).map fun (value, stream) => (value % 2 ^ 32, stream)

/-- `Skip`: a negative count fails in place, a count beyond the end fails at the end. -/
def skip (stream : Bytes) (count : ℤ) : Bool × Bytes :=
  if count < 0 then (false, stream)
  else if count ≤ bytesUntilLimit stream then (true, stream.drop count.toNat)
  else (false, [])

/-- A `CodedOutputStream` over an array of `capacity` bytes. -/
structure CodedOutputStream where
  capacity : ℕ
  written : Bytes

/-- `ByteCount`. -/
def CodedOutputStream.byteCount (out : CodedOutputStream) : ℕ := out.written.length

/-- `HadError`: more bytes were written than the array holds. -/
def CodedOutputStream.hadError (out : CodedOutputStream) : Prop := out.capacity < out.written.length

instance (out : CodedOutputStream) : Decidable out.hadError :=
  inferInstanceAs (Decidable (_ < _))

/-- Write the bytes of an encoded message. -/
def CodedOutputStream.writeRaw (out : CodedOutputStream) (bytes : Bytes) : CodedOutputStream :=
  { out with written := out.written ++ bytes }

/-- `WriteVarint32`, whose argument is narrowed to 32 bits. -/
def CodedOutputStream.writeVarint32 (out : CodedOutputStream) (n : ℕ) : CodedOutputStream :=
  out.writeRaw (Varint.write (n % 2 ^ 32))

/-- What the generated message classes offer to the framing.

`encode` is what `SerializeToCodedStream` writes, `ByteSizeLong` being its length, and
`parseFromCodedStream` answers with the parsed message and the stream behind it. -/
structure Protobuf (M : Type) where
  descriptor : M → MessageType
  encode : M → Bytes
  parseFromCodedStream : MessageType → Bytes → Option M × Bytes

variable {M : Type}

/-- The body parses to the message, at the end of the stream as well as before a zero tag.

A zero tag ends the message and is consumed with it. -/
def Protobuf.Encodes (P : Protobuf M) (type : MessageType) (body : Bytes) (message : M) : Prop :=
  P.parseFromCodedStream type body = (some message, []) ∧
    ∀ rest, P.parseFromCodedStream type (body ++ 0 :: rest) = (some message, rest)

/-- The assumptions on the generated message classes.

A message's own encoding has no zero tag and parses back to the message, parsing never moves
the stream backwards, and a message has the type it was parsed as. -/
structure Protobuf.Documented (P : Protobuf M) : Prop where
  encodes_encode : ∀ message, P.Encodes (P.descriptor message) (P.encode message) message
  parse_suffix : ∀ type stream, (P.parseFromCodedStream type stream).2 <:+ stream
  descriptor_of_parse : ∀ type stream message,
    (P.parseFromCodedStream type stream).1 = some message → P.descriptor message = type

/-- A size below `2 ^ 31` keeps its value as an `int`. -/
theorem staticCastInt_of_lt {n : ℕ} (h : n < 2 ^ 31) : staticCastInt n = n := by
  rw [staticCastInt, Nat.mod_eq_of_lt (h.trans (by decide)), if_pos h]

/-- An array whose size is an `int` is read whole. -/
theorem flatStream_eq {data : Bytes} (h : data.length < 2 ^ 31) : flatStream data = data := by
  rw [flatStream, staticCastInt_of_lt h, Int.toNat_natCast, List.take_length]

/-- From `2 ^ 31` bytes on the size is negative as an `int`, and nothing is read. -/
theorem flatStream_eq_nil {data : Bytes} (hmin : 2 ^ 31 ≤ data.length)
    (hmax : data.length < 2 ^ 32) : flatStream data = [] := by
  have hnegative : staticCastInt data.length ≤ 0 := by
    rw [staticCastInt, Nat.mod_eq_of_lt hmax, if_neg (by omega)]
    omega
  rw [flatStream, Int.toNat_of_nonpos hnegative, List.take_zero]

/-- Reading a varint depends on its own bytes only. -/
theorem local_readVarint32 : Local readVarint32 := by
  intro input value rest h
  obtain ⟨⟨full, rest'⟩, hfull, heq⟩ := Option.map_eq_some_iff.mp h
  simp only [Prod.mk.injEq] at heq
  obtain ⟨rfl, rfl⟩ := heq
  obtain ⟨word, hword, hreads⟩ := Varint.local_read input full rest' hfull
  exact ⟨word, hword, fun rest => by rw [readVarint32, hreads, Option.map_some]⟩

/-- A varint has at least one byte. -/
theorem readVarint32_length_lt {input rest : Bytes} {value : ℕ}
    (h : readVarint32 input = some (value, rest)) : rest.length < input.length := by
  obtain ⟨⟨full, rest'⟩, hfull, heq⟩ := Option.map_eq_some_iff.mp h
  simp only [Prod.mk.injEq] at heq
  obtain ⟨-, rfl⟩ := heq
  exact Varint.read_length_lt hfull

/-- `ReadVarint32` gives back what `WriteVarint32` writes. -/
theorem reads_write {n : ℕ} (h : n < 2 ^ 32) : Reads readVarint32 (Varint.write n) n := by
  intro rest
  rw [readVarint32, Varint.reads_write n (h.trans (by decide))]
  change some (n % 2 ^ 32, rest) = some (n, rest)
  rw [Nat.mod_eq_of_lt h]

/-- A zero byte reads as zero. -/
theorem readVarint32_zero (rest : Bytes) : readVarint32 (0 :: rest) = some (0, rest) := by
  rw [readVarint32, Varint.read, Varint.readUpTo_short 9 0 rest (by decide)]
  rfl

/-- Nothing is read at the end of the stream. -/
theorem readVarint32_nil : readVarint32 [] = none := rfl

/-- Skipping within the stream drops the count. -/
theorem skip_of_le {stream : Bytes} {count : ℕ} (hcount : count < 2 ^ 31)
    (h : count ≤ stream.length) :
    skip stream (staticCastInt count) = (true, stream.drop count) := by
  rw [staticCastInt_of_lt hcount, skip, if_neg (by omega), bytesUntilLimit, if_pos (by omega),
    Int.toNat_natCast]

/-- Skipping never moves backwards. -/
theorem skip_suffix (stream : Bytes) (count : ℤ) : (skip stream count).2 <:+ stream := by
  unfold skip
  split
  · exact List.suffix_refl _
  · split
    · exact List.drop_suffix _ _
    · exact List.nil_suffix

end EspHomeApi
