import Mathlib.Data.Nat.Notation

/-!
# Results of the client

Every operation answers with a value or an error made of a code and a text, the code being
one of the five that the client knows.
-/

namespace EspHomeApi

/-- A sequence of bytes: a packet, a received chunk or the contents of a `std::string`. -/
abbrev Bytes := List UInt8

/-- The codes an error carries. -/
inductive ApiErrorCode
  | serializeError
  | parseError
  | unexpectedMessage
  | sendError
  | authentificationError
  deriving DecidableEq, Repr

/-- What a failed operation reports. -/
structure ApiError where
  code : ApiErrorCode
  message : String
  deriving DecidableEq, Repr

/-- The value of an operation, or its error. -/
abbrev Result := Except ApiError

/-- A failed result, from its code and text. -/
def makeUnexpectedResult {A : Type} (code : ApiErrorCode) (message : String) : Result A :=
  .error ⟨code, message⟩

end EspHomeApi
