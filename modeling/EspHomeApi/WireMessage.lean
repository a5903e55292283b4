import EspHomeApi.CodedStream
import EspHomeApi.Lib.WireFormat

/-!
# Messages as lists of wire fields

A concrete reading of the generated message classes: a message is its type and the fields it
has on the wire. It satisfies every assumption made on the generated classes, so those
assumptions are consistent, and concrete packets can be evaluated.
-/

namespace EspHomeApi

/-- A message, as its type and the fields that are written for it. -/
structure WireMessage where
  type : MessageType
  fields : List WireFormat.Field
  deriving DecidableEq

/-- The generated classes over lists of wire fields. -/
def wireProtobuf : Protobuf WireMessage where
  descriptor message := message.type
  encode message := WireFormat.write message.fields
  parseFromCodedStream type stream :=
    match WireFormat.read stream with
    | some (fields, rest) => (some ⟨type, fields⟩, rest)
    | none => (none, stream)

/-- Lists of wire fields behave as the generated classes are assumed to. -/
theorem wireProtobuf_documented : wireProtobuf.Documented where
  encodes_encode message := by
    constructor
    · simp only [wireProtobuf, WireFormat.read_write]
    · intro rest
      simp only [wireProtobuf, WireFormat.read_write_zero]
  parse_suffix type stream := by
    simp only [wireProtobuf]
    split
    · rename_i fields rest hread
      exact WireFormat.readFields_suffix _ stream rest fields hread
    · exact List.suffix_refl stream
  descriptor_of_parse type stream message h := by
    simp only [wireProtobuf] at h
    split at h
    · simp only [Option.some.injEq] at h
      rw [← h]
      rfl
    · simp at h

/-- A string field. -/
def stringField (number : ℕ) (text : Bytes)
    (legal : 0 < number ∧ number < 2 ^ 29 ∧ text.length < 2 ^ 64 := by decide) : WireFormat.Field :=
  ⟨number, .len text, legal⟩

/-- A field holding a number. -/
def varintField (number n : ℕ)
    (legal : 0 < number ∧ number < 2 ^ 29 ∧ n < 2 ^ 64 := by decide) : WireFormat.Field :=
  ⟨number, .varint n, legal⟩

/-- A HelloResponse with a name in it. -/
def helloMessage : WireMessage := ⟨.helloResponse, [stringField 4 [101, 115, 112]]⟩

/-- The frame of that response. -/
def helloPacket : Bytes := [0, 5, 2, 34, 3, 101, 115, 112]

end EspHomeApi
