import EspHomeApi.DecodeLoop
import EspHomeApi.Lib.Traced
import EspHomeApi.WireMessage

/-!
# The decoding loop over stream positions

The loop of `decode_multiple` once more, over a `CodedInputStream` that is known by its array and
its position only: `Skip` may do what it likes with the count it is given, and a parse may stop
anywhere, as long as neither goes backwards or past the limit. The loop records each byte that
`ReadVarint32` looks at, each move of the stream and each call of the handler. An iteration that
does not fail leaves three bytes less, which bounds everything the loop does.
-/

namespace EspHomeApi

variable {M : Type}

/-- A `CodedInputStream` over a flat array, with what its calls make of a position. -/
structure CodedInputStream (M : Type) where
  data : Bytes
  skip : ℕ → ℤ → Bool × ℕ
  parseFromCodedStream : MessageType → ℕ → Option M × ℕ

/-- What the loop does to the stream and to the handler. -/
inductive LoopEvent (M : Type) where
  /-- `ReadVarint32` looks at the byte at a position. -/
  | read (position : ℕ)
  /-- `Skip` or `ParseFromCodedStream` takes the stream from a position to another one. -/
  | moved (before after : ℕ)
  /-- The handler is called. -/
  | called (message : M)
  deriving DecidableEq

/-- A part of the loop, with what it did. -/
abbrev Decoding (M : Type) : Type → Type := Traced (LoopEvent M) ApiError

namespace CodedInputStream

variable (S : CodedInputStream M)

/-- The limit of the stream, the size of its array as an `int`. -/
def limit : ℤ := staticCastInt S.data.length

/-- `BytesUntilLimit`. -/
def bytesUntilLimit (position : ℕ) : ℤ := S.limit - position

/-- Read at most `bytes` bytes of one varint, none of them behind the limit. -/
def readVarintUpTo (error : ApiError) : ℕ → ℕ → Decoding M (ℕ × ℕ)
  | 0, _ => Traced.fail error
  | bytes + 1, position =>
    if S.bytesUntilLimit position > 0 then do
      Traced.log (.read position)
      let byte := S.data.getD position 0
      if byte.toNat < 128 then
        pure (byte.toNat, position + 1)
      else
        let (upper, position) ← readVarintUpTo error bytes (position + 1)
        pure (byte.toNat - 128 + 128 * upper, position)
    else Traced.fail error

/-- `ReadVarint32`, with the error that the caller returns when it fails. -/
def readVarint32 (error : ApiError) (position : ℕ) : Decoding M (ℕ × ℕ) := do
  let (value, position) ← S.readVarintUpTo error 10 position
  pure (value % 2 ^ 32, position)

/-- The three reads at the start of an iteration. -/
def readHeader (position : ℕ) : Decoding M (Header × ℕ) := do
  let invalid : ApiError := ⟨.parseError, "response does contain an invalid preamble"⟩
  let (preamble, position) ← S.readVarint32 invalid position
  if preamble ≠ 0 then
    Traced.fail invalid
  else
    let (messageSize, position) ← S.readVarint32 ⟨.parseError, "got no message size"⟩ position
    let (messageType, position) ← S.readVarint32 ⟨.parseError, "got no message type"⟩ position
    pure (⟨messageSize, messageType⟩, position)

/-- `PlainTextProtocol::parse_and_invoke` for one type, with the position left behind. -/
def parseAndInvoke (type : MessageType) (position messageType : ℕ) : Decoding M (Bool × ℕ) :=
  if getMessageId type ≠ messageType then
    pure (false, position)
  else
    match S.parseFromCodedStream type position with
    | (none, after) => do
      Traced.log (.moved position after)
      pure (false, after)
    | (some message, after) => do
      Traced.log (.moved position after)
      Traced.log (.called message)
      pure (true, after)

/-- The fold of `parse_and_invoke` over the types, which stops at the first success. -/
def parseAnyAndInvoke : List MessageType → ℕ → ℕ → Decoding M (Bool × ℕ)
  | [], position, _ => pure (false, position)
  | type :: types, position, messageType => do
    let (parsed, position) ← S.parseAndInvoke type position messageType
    if parsed then
      pure (true, position)
    else
      parseAnyAndInvoke types position messageType

/-- The rest of an iteration, after its header. -/
def decodeBody (types : List MessageType) (header : Header) (position : ℕ) : Decoding M ℕ :=
  if ¬ isAccepted types header.messageType then do
    -- the result of `Skip` is not looked at
    let after := (S.skip position (staticCastInt header.messageSize)).2
    Traced.log (.moved position after)
    pure after
  -- the `int` is converted to the unsigned type of the size
  else if (S.bytesUntilLimit position % 2 ^ 32).toNat < header.messageSize then
    let expected := header.messageSize
    let got := S.bytesUntilLimit position
    Traced.fail ⟨.parseError, "Received message size does not match the remaining bytes. " ++
      s!"Expected {expected} bytes got {got} bytes."⟩
  else do
    let (parsed, position) ← S.parseAnyAndInvoke types position header.messageType
    if ¬ parsed then
      Traced.fail ⟨.parseError, "Could not parse any message from bytes."⟩
    else
      pure position

/-- One iteration of the loop in `decode_multiple`, from a position to the next one. -/
def iteration (types : List MessageType) (position : ℕ) : Decoding M ℕ := do
  let (header, position) ← S.readHeader position
  S.decodeBody types header position

/-- `decode_multiple` returns: the positions that its iterations start at, what they do, and the
result. -/
inductive Decodes (types : List MessageType) : List ℕ → Decoding M Unit → Prop
  | short (hshort : S.data.length < 3) :
    Decodes types []
      (Traced.fail ⟨.parseError, "response does not contain enough bytes for the header"⟩)
  | loop {heads : List ℕ} {run : Decoding M ℕ} (hlong : ¬ S.data.length < 3)
    (hrun : Traced.Ends (fun position => S.bytesUntilLimit position > 0) (S.iteration types) 0
      heads run) :
    Decodes types heads ⟨run.events, run.outcome.map fun _ => ()⟩

variable {S} in
/-- The limit is the size of an array whose size is an `int`. -/
theorem limit_eq (hsize : S.data.length < 2 ^ 31) : S.limit = S.data.length :=
  staticCastInt_of_lt hsize

/-- The assumption on protobuf: from a position inside the limit, `Skip` and
`ParseFromCodedStream` never move the stream backwards or past its limit. -/
structure Documented : Prop where
  skip_forward : ∀ (position : ℕ) count, position ≤ S.limit →
    position ≤ (S.skip position count).2 ∧ (S.skip position count).2 ≤ S.limit
  parse_forward : ∀ type (position : ℕ), position ≤ S.limit →
    position ≤ (S.parseFromCodedStream type position).2 ∧
      (S.parseFromCodedStream type position).2 ≤ S.limit

end CodedInputStream

/-- The position at which a stream over the array has these bytes left. -/
def positionOf (data stream : Bytes) : ℕ := data.length - stream.length

/-- The stream over an array whose calls read the bytes behind a position. -/
def arrayStream (P : Protobuf M) (data : Bytes) : CodedInputStream M where
  data := data
  skip position count :=
    let (skipped, rest) := skip (data.drop position) count
    (skipped, positionOf data rest)
  parseFromCodedStream type position :=
    let (parsed, rest) := P.parseFromCodedStream type (data.drop position)
    (parsed, positionOf data rest)

/-- A stream that moves on inside the rest of the array moves on inside the array. -/
theorem positionOf_drop {data rest : Bytes} {position : ℕ} (hposition : position ≤ data.length)
    (hrest : rest <:+ data.drop position) :
    position ≤ positionOf data rest ∧ positionOf data rest ≤ data.length := by
  have hlength := hrest.length_le
  rw [List.length_drop] at hlength
  rw [positionOf]
  omega

/-- The stream over an array behaves as it is assumed to. -/
theorem arrayStream_documented {P : Protobuf M} (hP : P.Documented) {data : Bytes}
    (hsize : data.length < 2 ^ 31) : (arrayStream P data).Documented := by
  have hlimit : (arrayStream P data).limit = data.length := CodedInputStream.limit_eq hsize
  constructor
  · intro position count hposition
    have hmoves := positionOf_drop (by omega) (skip_suffix (data.drop position) count)
    exact ⟨hmoves.1, by rw [hlimit]; exact Int.ofNat_le.mpr hmoves.2⟩
  · intro type position hposition
    have hmoves := positionOf_drop (by omega) (hP.parse_suffix type (data.drop position))
    exact ⟨hmoves.1, by rw [hlimit]; exact Int.ofNat_le.mpr hmoves.2⟩

/-! ## What the parts of the loop do -/

/-- A byte of the array is read, or the stream moves on inside it. -/
def LoopEvent.Within (size : ℕ) : LoopEvent M → Prop
  | .read position => position < size
  | .moved before after => before ≤ after ∧ after ≤ size
  | .called _ => True

/-- The calls of the handler. -/
def LoopEvent.calls : LoopEvent M → ℕ
  | .called _ => 1
  | _ => 0

/-- Nothing happens outside the array, and what fails has not called the handler. -/
def loopPolicy (size : ℕ) : Traced.Policy (LoopEvent M) where
  allowed := LoopEvent.Within size
  price := LoopEvent.calls
  mayFail calls := calls = 0

namespace CodedInputStream

open Traced

variable {S : CodedInputStream M} {types : List MessageType}

/-- A varint is at least one byte of the array. -/
theorem readVarintUpTo_meets (hsize : S.data.length < 2 ^ 31) (error : ApiError)
    (bytes position : ℕ) :
    Meets (loopPolicy S.data.length) 0 (S.readVarintUpTo error bytes position)
      fun result calls => position < result.2 ∧ result.2 ≤ S.data.length ∧ calls = 0 := by
  induction bytes generalizing position with
  | zero => exact meets_fail rfl
  | succ bytes ih =>
    rw [readVarintUpTo]
    by_cases hlimit : S.bytesUntilLimit position > 0
    · have hread : position < S.data.length := by
        rw [bytesUntilLimit, limit_eq hsize] at hlimit
        omega
      rw [if_pos hlimit]
      refine Meets.log_bind hread ?_
      dsimp only
      split
      · exact meets_pure ⟨Nat.lt_succ_self position, hread, rfl⟩
      · refine (ih (position + 1)).bind ?_
        intro result spent ⟨hforward, hinside, hspent⟩
        exact meets_pure ⟨by omega, hinside, hspent⟩
    · rw [if_neg hlimit]
      exact meets_fail rfl

/-- `ReadVarint32` reads at least one byte. -/
theorem readVarint32_meets (hsize : S.data.length < 2 ^ 31) (error : ApiError) (position : ℕ) :
    Meets (loopPolicy S.data.length) 0 (S.readVarint32 error position)
      fun result calls => position < result.2 ∧ result.2 ≤ S.data.length ∧ calls = 0 :=
  (readVarintUpTo_meets hsize error 10 position).bind fun _ _ hresult => meets_pure hresult

/-- A header is at least three bytes. -/
theorem readHeader_meets (hsize : S.data.length < 2 ^ 31) (position : ℕ) :
    Meets (loopPolicy S.data.length) 0 (S.readHeader position)
      fun result calls => position + 3 ≤ result.2 ∧ result.2 ≤ S.data.length ∧ calls = 0 := by
  refine (readVarint32_meets hsize _ position).bind ?_
  intro ⟨preamble, first⟩ spent ⟨hfirst, _, hspent⟩
  subst hspent
  dsimp only
  split
  · exact meets_fail rfl
  · refine (readVarint32_meets hsize _ first).bind ?_
    intro ⟨messageSize, second⟩ spent ⟨hsecond, _, hspent⟩
    subst hspent
    refine (readVarint32_meets hsize _ second).bind ?_
    intro ⟨messageType, third⟩ spent ⟨hthird, hinside, hspent⟩
    exact meets_pure ⟨by omega, hinside, hspent⟩

/-- Trying one type moves on inside the array, and calls the handler if the type is the one. -/
theorem parseAndInvoke_meets (hS : S.Documented) (hsize : S.data.length < 2 ^ 31)
    (type : MessageType) {position : ℕ} (hposition : position ≤ S.data.length)
    (messageType : ℕ) :
    Meets (loopPolicy S.data.length) 0 (S.parseAndInvoke type position messageType)
      fun result calls => position ≤ result.2 ∧ result.2 ≤ S.data.length ∧
        calls = result.1.toNat := by
  have hparse := hS.parse_forward type position
  rw [limit_eq hsize] at hparse
  have hforward := (hparse (by omega)).1
  have hinside := (hparse (by omega)).2
  rw [parseAndInvoke]
  split
  · exact meets_pure ⟨le_rfl, hposition, rfl⟩
  · split
    · rename_i after heq
      rw [heq] at hforward hinside
      exact Meets.log_bind ⟨hforward, by omega⟩ (meets_pure ⟨hforward, by omega, rfl⟩)
    · rename_i message after heq
      rw [heq] at hforward hinside
      refine Meets.log_bind ⟨hforward, by omega⟩ ?_
      exact Meets.log_bind trivial (meets_pure ⟨hforward, by omega, rfl⟩)

/-- Trying the types in turn moves on inside the array, and calls the handler once if one of them
parses. -/
theorem parseAnyAndInvoke_meets (hS : S.Documented) (hsize : S.data.length < 2 ^ 31)
    (types : List MessageType) {position : ℕ} (hposition : position ≤ S.data.length)
    (messageType : ℕ) :
    Meets (loopPolicy S.data.length) 0 (S.parseAnyAndInvoke types position messageType)
      fun result calls => position ≤ result.2 ∧ result.2 ≤ S.data.length ∧
        calls = result.1.toNat := by
  induction types generalizing position with
  | nil => exact meets_pure ⟨le_rfl, hposition, rfl⟩
  | cons type types ih =>
    rw [parseAnyAndInvoke]
    refine (parseAndInvoke_meets hS hsize type hposition messageType).bind ?_
    intro ⟨parsed, after⟩ spent ⟨hforward, hinside, hspent⟩
    cases parsed with
    | true => exact meets_pure ⟨hforward, hinside, hspent⟩
    | false =>
      have hrest := ih hinside
      rw [show spent = 0 from hspent]
      exact hrest.mono fun result calls h => ⟨hforward.trans h.1, h.2⟩

/-- What follows the header moves on inside the array, whatever size the header declares, and
calls the handler at most once. -/
theorem decodeBody_meets (hS : S.Documented) (hsize : S.data.length < 2 ^ 31) (header : Header)
    {position : ℕ} (hposition : position ≤ S.data.length) :
    Meets (loopPolicy S.data.length) 0 (S.decodeBody types header position)
      fun after calls => position ≤ after ∧ after ≤ S.data.length ∧ calls ≤ 1 := by
  rw [decodeBody]
  split
  · have hskip := hS.skip_forward position (staticCastInt header.messageSize)
    rw [limit_eq hsize] at hskip
    obtain ⟨hforward, hinside⟩ := hskip (by omega)
    exact Meets.log_bind ⟨hforward, by omega⟩
      (meets_pure ⟨hforward, by omega, Nat.zero_le 1⟩)
  · split
    · exact meets_fail rfl
    · refine (parseAnyAndInvoke_meets hS hsize types hposition header.messageType).bind ?_
      intro ⟨parsed, after⟩ spent ⟨hforward, hinside, hspent⟩
      cases parsed with
      | true => exact meets_pure ⟨hforward, hinside, Nat.le_of_eq hspent⟩
      | false => exact meets_fail hspent

/-- An iteration that does not fail consumes at least the three bytes of its header. -/
theorem iteration_meets (hS : S.Documented) (hsize : S.data.length < 2 ^ 31)
    (types : List MessageType) (position : ℕ) :
    Meets (loopPolicy S.data.length) 0 (S.iteration types position)
      fun after calls => position + 3 ≤ after ∧ after ≤ S.data.length ∧ calls ≤ 1 := by
  refine (readHeader_meets hsize position).bind ?_
  intro ⟨header, body⟩ spent ⟨hheader, hbody, hspent⟩
  subst hspent
  refine (decodeBody_meets hS hsize header hbody).mono ?_
  intro after calls ⟨hforward, hinside, hcalls⟩
  exact ⟨by omega, hinside, hcalls⟩

/-- The loop makes progress: an iteration that goes on leaves three bytes less. -/
theorem progress (hS : S.Documented) (hsize : S.data.length < 2 ^ 31)
    (types : List MessageType) :
    Progress (fun position => S.bytesUntilLimit position > 0) (S.iteration types)
      (fun position => position ≤ S.data.length) (fun position => S.data.length - position) 3 := by
  intro position hposition _ next hnext
  obtain ⟨hforward, hinside, _⟩ := (iteration_meets hS hsize types position).returns next hnext
  have hlower : S.data.length - next + 3 ≤ S.data.length - position := by omega
  exact ⟨hinside, hlower⟩

/-- An iteration that fails has not called the handler. -/
theorem iteration_calls_of_error (hS : S.Documented) (hsize : S.data.length < 2 ^ 31)
    {position : ℕ} {error : ApiError} (h : (S.iteration types position).outcome = .error error) :
    (S.iteration types position).cost LoopEvent.calls = 0 := by
  have hcalls := (iteration_meets hS hsize types position).fails error h
  rwa [Nat.zero_add] at hcalls

/-- An iteration calls the handler at most once. -/
theorem iteration_calls_le (hS : S.Documented) (hsize : S.data.length < 2 ^ 31)
    (types : List MessageType) (position : ℕ) :
    (S.iteration types position).cost LoopEvent.calls ≤ 1 := by
  cases houtcome : (S.iteration types position).outcome with
  | ok next =>
    have hcalls := ((iteration_meets hS hsize types position).returns next houtcome).2.2
    rwa [Nat.zero_add] at hcalls
  | error error =>
    rw [iteration_calls_of_error hS hsize houtcome]
    exact Nat.zero_le 1

variable (S) in
/-- What bounds a call of `decode_multiple` by the size of its array. -/
structure Bounded (types : List MessageType) (heads : List ℕ) (run : Decoding M Unit) : Prop where
  /-- An iteration that does not return an error consumes three bytes. -/
  consumes : ∀ head ∈ heads, ∀ next, (S.iteration types head).outcome = .ok next → head + 3 ≤ next
  /-- One more iteration may return the error. -/
  iterations : heads.length ≤ S.data.length / 3 + if run.outcome.isOk then 0 else 1
  /-- An iteration calls the handler at most once. -/
  callsOfIteration : ∀ head ∈ heads, (S.iteration types head).cost LoopEvent.calls ≤ 1
  /-- The handler is called once for three bytes at most. -/
  calls : run.cost LoopEvent.calls ≤ S.data.length / 3
  /-- No byte behind the array is read, and the stream never leaves it. -/
  within : ∀ event ∈ run.events, event.Within S.data.length

/-- The iterations of a loop that ended are bounded. -/
theorem bounded_of_ends (hS : S.Documented) (hsize : S.data.length < 2 ^ 31)
    {heads : List ℕ} {run : Decoding M ℕ}
    (hrun : Ends (fun position => S.bytesUntilLimit position > 0) (S.iteration types) 0 heads run) :
    S.Bounded types heads ⟨run.events, run.outcome.map fun _ => ()⟩ where
  consumes head _ next hnext := ((iteration_meets hS hsize types head).returns next hnext).1
  iterations := by
    have hrounds := hrun.rounds_le (progress hS hsize types) (Nat.zero_le _)
    cases houtcome : run.outcome with
    | ok last =>
      rw [houtcome] at hrounds
      simp only [Except.isOk, Except.toBool, Except.map, if_true] at hrounds ⊢
      omega
    | error error =>
      rw [houtcome] at hrounds
      simp only [Except.isOk, Except.toBool, Except.map, Bool.false_eq_true, if_false] at hrounds ⊢
      omega
  callsOfIteration head _ := iteration_calls_le hS hsize types head
  calls := by
    have hcost := hrun.cost_le (progress hS hsize types)
      (fun position _ _ => iteration_calls_le hS hsize types position)
      (fun position _ _ error herror => iteration_calls_of_error hS hsize herror)
      (Nat.zero_le _)
    change run.cost LoopEvent.calls ≤ S.data.length / 3
    omega
  within := hrun.allowed (progress hS hsize types)
    (fun position _ _ => (iteration_meets hS hsize types position).allowed) (Nat.zero_le _)

/-- `decode_multiple` returns. -/
theorem exists_decodes (hS : S.Documented) (hsize : S.data.length < 2 ^ 31)
    (types : List MessageType) : ∃ heads run, S.Decodes types heads run := by
  by_cases hshort : S.data.length < 3
  · exact ⟨_, _, .short hshort⟩
  · obtain ⟨heads, run, hrun⟩ := (progress hS hsize types).ends (by decide) 0 (Nat.zero_le _)
    exact ⟨heads, _, .loop hshort hrun⟩

/-- A call of `decode_multiple` that returned is bounded. -/
theorem Decodes.bounded {heads : List ℕ} {run : Decoding M Unit}
    (hrun : S.Decodes types heads run) (hS : S.Documented) (hsize : S.data.length < 2 ^ 31) :
    S.Bounded types heads run := by
  cases hrun with
  | short hshort =>
    exact ⟨by simp, by simp [fail, Except.isOk, Except.toBool], by simp, by simp [cost, fail],
      by simp [fail]⟩
  | loop hlong hrun => exact bounded_of_ends hS hsize hrun

/-- On every array whose size is an `int`, `decode_multiple` returns. Each of its iterations that
does not return an error consumes three bytes at least, whatever size it reads and whatever `Skip`
and the parse make of it, so at most a third as many iterations as bytes come before the one that
may return an error; the handler is called no more often than that and at most once in an
iteration, and nothing happens outside the array. -/
theorem decodeMultiple_bounded (S : CodedInputStream M) (types : List MessageType)
    (hS : S.Documented) (hsize : S.data.length < 2 ^ 31) :
    (∃ heads run, S.Decodes types heads run) ∧
      ∀ heads run, S.Decodes types heads run → S.Bounded types heads run :=
  ⟨exists_decodes hS hsize types, fun _ _ hrun => hrun.bounded hS hsize⟩

/-- A packet whose declared size is `-1` as an `int`, so that `Skip` stays where it is. -/
theorem decodeMultiple_bounded_negative :
    (∃ heads run, (arrayStream wireProtobuf [0, 255, 255, 255, 255, 15, 7, 1]).Decodes
        receiveLoopTypes heads run) ∧
      ∀ heads run, (arrayStream wireProtobuf [0, 255, 255, 255, 255, 15, 7, 1]).Decodes
          receiveLoopTypes heads run →
        (arrayStream wireProtobuf [0, 255, 255, 255, 255, 15, 7, 1]).Bounded receiveLoopTypes
          heads run :=
  decodeMultiple_bounded (arrayStream wireProtobuf [0, 255, 255, 255, 255, 15, 7, 1])
    receiveLoopTypes (arrayStream_documented wireProtobuf_documented (by decide)) (by decide)

/-- On four bytes the loop makes two iterations, one that passes over an empty message and one that
returns the error. -/
theorem decodeMultiple_two_iterations :
    (arrayStream wireProtobuf [0, 0, 7, 1]).Documented ∧
      (arrayStream wireProtobuf [0, 0, 7, 1]).data.length < 2 ^ 31 ∧
      ¬ ∀ heads run, (arrayStream wireProtobuf [0, 0, 7, 1]).Decodes receiveLoopTypes heads run →
        heads.length ≤ (arrayStream wireProtobuf [0, 0, 7, 1]).data.length / 3 := by
  refine ⟨arrayStream_documented wireProtobuf_documented (by decide), by decide, fun h => ?_⟩
  have hfirst : ((arrayStream wireProtobuf [0, 0, 7, 1]).iteration receiveLoopTypes 0).outcome =
      .ok 3 := rfl
  have hsecond : ((arrayStream wireProtobuf [0, 0, 7, 1]).iteration receiveLoopTypes 3).outcome =
      .error ⟨.parseError, "response does contain an invalid preamble"⟩ := rfl
  have hheads := h [0, 3] _
    (.loop (by decide) (.again (by decide) hfirst (.failed (by decide) hsecond)))
  exact absurd hheads (by decide)

end CodedInputStream

end EspHomeApi
