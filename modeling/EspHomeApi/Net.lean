import EspHomeApi.CodedStream
import EspHomeApi.Lib.Race

/-!
# The network operations

Each network operation is awaited together with a timer. The pair that was awaited is
flattened into the value of the operation or an error code; a timer that comes first is an
error even when its own code says success.
-/

namespace EspHomeApi

/-- `boost::system::error_code`, the value zero meaning that there is no error. -/
structure ErrorCode where
  value : ℕ
  message : String
  deriving DecidableEq

/-- The conversion of an error code to `bool`. -/
def ErrorCode.failed (error : ErrorCode) : Bool := error.value ≠ 0

/-- The code of an operation that succeeded. -/
def ErrorCode.success : ErrorCode := ⟨0, "Success"⟩

/-- The code of an operation that was cancelled. -/
def ErrorCode.operationAborted : ErrorCode := ⟨125, "Operation canceled"⟩

/-- `net::detail::map` on the completion of an operation with a value. -/
def mapValue {R : Type} (completion : ErrorCode × R) : Except ErrorCode R :=
  if completion.1.failed then .error completion.1 else .ok completion.2

/-- `net::detail::map` on the completion of a timer. -/
def mapTimer {R : Type} (completion : ErrorCode) : Except ErrorCode R := .error completion

/-- `net::detail::flatten`. -/
def flatten {R : Type} : (ErrorCode × R) ⊕ ErrorCode → Except ErrorCode R
  | .inl completion => mapValue completion
  | .inr completion => mapTimer completion

/-- The state of an operation awaited together with a timer. -/
abbrev TimedOperation (R : Type) := Race (ErrorCode × R) ErrorCode

/-- `net::sendTo`, `net::receiveFrom` and `net::connectTo`: the result, once there is one. -/
def TimedOperation.result? {R : Type} (operation : TimedOperation R) :
    Option (Except ErrorCode R) :=
  (Race.result? operation).map flatten

end EspHomeApi
