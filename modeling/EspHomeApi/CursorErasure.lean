import EspHomeApi.Cursor

/-!
# Erasing what the decoding loop recorded

Over the stream of an array the loop that records what it does is the loop of `decode_multiple`:
forgetting the moves of the stream leaves the messages handed to the handler, and the outcomes
agree. A position stands for the bytes behind it. What bounds the recorded loop therefore bounds
the messages of `decode_multiple`.
-/

namespace EspHomeApi

open CodedInputStream Traced

variable {M : Type} {P : Protobuf M} {types : List MessageType} {data : Bytes}

/-- The message of a call. -/
def LoopEvent.message? : LoopEvent M → Option M
  | .called message => some message
  | _ => none

/-- The messages handed to the handler, and the outcome. -/
def Decoding.erase {A : Type} (x : Decoding M A) : List M × Result A :=
  (x.events.filterMap LoopEvent.message?, x.outcome)

/-- The calls are as many as the messages handed over. -/
theorem Decoding.length_erase {A : Type} (x : Decoding M A) :
    x.erase.1.length = x.cost LoopEvent.calls := by
  obtain ⟨events, outcome⟩ := x
  change (events.filterMap LoopEvent.message?).length = (events.map LoopEvent.calls).sum
  induction events with
  | nil => rfl
  | cons event events ih =>
    cases event with
    | called message =>
      change (events.filterMap LoopEvent.message?).length + 1 =
        1 + (events.map LoopEvent.calls).sum
      rw [ih, Nat.add_comm]
    | _ => exact ih.trans (Nat.zero_add _).symm

/-- What succeeds goes on with its value, behind the messages that it handed over. -/
theorem erase_bind_of_ok {A B : Type} {x : Decoding M A} {messages : List M} {value : A}
    (h : Decoding.erase x = (messages, .ok value)) (f : A → Decoding M B) :
    Decoding.erase (x >>= f) =
      (messages ++ (Decoding.erase (f value)).1, (Decoding.erase (f value)).2) := by
  obtain ⟨hmessages, houtcome⟩ := Prod.mk.inj h
  rw [bind_of_ok houtcome, ← hmessages, Decoding.erase, List.filterMap_append]
  rfl

/-- What succeeds without a message goes on with its value. -/
theorem erase_bind_of_nil {A B : Type} {x : Decoding M A} {value : A}
    (h : Decoding.erase x = ([], .ok value)) (f : A → Decoding M B) :
    Decoding.erase (x >>= f) = Decoding.erase (f value) := erase_bind_of_ok h f

/-- What fails ends there. -/
theorem erase_bind_of_error {A B : Type} {x : Decoding M A} {messages : List M} {error : ApiError}
    (h : Decoding.erase x = (messages, .error error)) (f : A → Decoding M B) :
    Decoding.erase (x >>= f) = (messages, .error error) := by
  obtain ⟨hmessages, houtcome⟩ := Prod.mk.inj h
  rw [bind_of_error houtcome, ← hmessages]
  rfl

/-- The bytes behind the position of a stream are the stream. -/
theorem drop_positionOf {stream : Bytes} (hstream : stream <:+ data) :
    data.drop (positionOf data stream) = stream := (List.suffix_iff_eq_drop.mp hstream).symm

/-- The bytes left at the position of a stream are counted by its length. -/
theorem bytesUntilLimit_positionOf (hsize : data.length < 2 ^ 31) {stream : Bytes}
    (hstream : stream <:+ data) :
    (arrayStream P data).bytesUntilLimit (positionOf data stream) = stream.length := by
  have hlimit : (arrayStream P data).limit = data.length := limit_eq hsize
  have hlength := hstream.length_le
  rw [CodedInputStream.bytesUntilLimit, hlimit, positionOf]
  omega

/-- The byte at the position of a stream is its first one. -/
theorem getD_positionOf {byte : UInt8} {rest : Bytes} (hstream : byte :: rest <:+ data) :
    data.getD (positionOf data (byte :: rest)) 0 = byte := by
  have hdrop := drop_positionOf hstream
  rw [List.getD_eq_getElem?_getD, ← List.head?_drop, hdrop]
  rfl

/-- Behind a byte the position is the next one. -/
theorem positionOf_cons {byte : UInt8} {rest : Bytes} (hstream : byte :: rest <:+ data) :
    positionOf data (byte :: rest) + 1 = positionOf data rest := by
  have hlength := hstream.length_le
  rw [List.length_cons] at hlength
  rw [positionOf, positionOf, List.length_cons]
  omega

/-- Reading a varint at a position is reading it off the bytes behind the position. -/
theorem erase_readVarintUpTo (hsize : data.length < 2 ^ 31) (error : ApiError) (bytes : ℕ)
    {stream : Bytes} (hstream : stream <:+ data) :
    Decoding.erase ((arrayStream P data).readVarintUpTo error bytes (positionOf data stream)) =
      ([], match Varint.readUpTo bytes stream with
        | none => .error error
        | some (value, rest) => .ok (value, positionOf data rest)) := by
  induction bytes generalizing stream with
  | zero => rfl
  | succ bytes ih =>
    have hlimit := bytesUntilLimit_positionOf (P := P) hsize hstream
    cases stream with
    | nil =>
      rw [readVarintUpTo, if_neg (by rw [hlimit]; decide)]
      rfl
    | cons byte rest =>
      have hrest : rest <:+ data := (List.suffix_cons byte rest).trans hstream
      have hpositive : (arrayStream P data).bytesUntilLimit (positionOf data (byte :: rest)) > 0 := by
        rw [hlimit, List.length_cons]
        omega
      have hget : (arrayStream P data).data.getD (positionOf data (byte :: rest)) 0 = byte :=
        getD_positionOf hstream
      have hlog : Decoding.erase (log (.read (positionOf data (byte :: rest))) : Decoding M Unit) =
          ([], .ok ()) := rfl
      rw [readVarintUpTo, if_pos hpositive, erase_bind_of_nil hlog]
      dsimp only
      rw [hget, positionOf_cons hstream, Varint.readUpTo]
      by_cases hbyte : byte.toNat < 128
      · rw [if_pos hbyte, if_pos hbyte]
        rfl
      · rw [if_neg hbyte, if_neg hbyte]
        have hupper := ih hrest
        cases hread : Varint.readUpTo bytes rest with
        | none =>
          rw [hread] at hupper
          exact erase_bind_of_error hupper _
        | some result =>
          rw [hread] at hupper
          exact erase_bind_of_nil hupper _

/-- The value and position that a read at the front of a stream leads to. -/
def resultAt {A : Type} (data : Bytes) (error : ApiError) : Option (A × Bytes) → Result (A × ℕ)
  | none => .error error
  | some (value, rest) => .ok (value, positionOf data rest)

/-- `ReadVarint32` at a position is `ReadVarint32` on the bytes behind it. -/
theorem erase_readVarint32 (hsize : data.length < 2 ^ 31) (error : ApiError) {stream : Bytes}
    (hstream : stream <:+ data) :
    Decoding.erase ((arrayStream P data).readVarint32 error (positionOf data stream)) =
      ([], resultAt data error (readVarint32 stream)) := by
  have hread := erase_readVarintUpTo (P := P) hsize error 10 hstream
  rw [CodedInputStream.readVarint32, EspHomeApi.readVarint32, Varint.read]
  cases hvalue : Varint.readUpTo 10 stream with
  | none =>
    rw [hvalue] at hread
    exact erase_bind_of_error hread _
  | some result =>
    rw [hvalue] at hread
    exact erase_bind_of_nil hread _

/-- What follows a read goes on behind the value, or ends with the error of the read. -/
theorem erase_readVarint32_bind {A : Type} (hsize : data.length < 2 ^ 31) (error : ApiError)
    {stream : Bytes} (hstream : stream <:+ data) (f : ℕ × ℕ → Decoding M A) :
    Decoding.erase ((arrayStream P data).readVarint32 error (positionOf data stream) >>= f) =
      match readVarint32 stream with
      | none => ([], .error error)
      | some (value, rest) => Decoding.erase (f (value, positionOf data rest)) := by
  have hread := erase_readVarint32 (P := P) hsize error hstream
  cases hvalue : EspHomeApi.readVarint32 stream with
  | none =>
    rw [hvalue] at hread
    exact erase_bind_of_error hread f
  | some result =>
    rw [hvalue] at hread
    exact erase_bind_of_nil hread f

/-- `ReadVarint32` leaves the end of its stream. -/
theorem readVarint32_suffix {stream rest : Bytes} {value : ℕ}
    (h : readVarint32 stream = some (value, rest)) : rest <:+ stream := by
  obtain ⟨word, rfl, _⟩ := local_readVarint32 stream value rest h
  exact List.suffix_append word rest

/-- The header read at a position is the one read off the bytes behind it. -/
theorem erase_readHeader (hsize : data.length < 2 ^ 31) {stream : Bytes}
    (hstream : stream <:+ data) :
    Decoding.erase ((arrayStream P data).readHeader (positionOf data stream)) =
      ([], (readHeader stream).map fun (header, rest) => (header, positionOf data rest)) := by
  rw [CodedInputStream.readHeader, EspHomeApi.readHeader]
  refine (erase_readVarint32_bind hsize _ hstream _).trans ?_
  cases hpreamble : EspHomeApi.readVarint32 stream with
  | none => rfl
  | some first =>
    obtain ⟨preamble, second⟩ := first
    have hsecond := (readVarint32_suffix hpreamble).trans hstream
    dsimp only
    by_cases hzero : preamble ≠ 0
    · rw [if_pos hzero, if_pos hzero]
      rfl
    · rw [if_neg hzero, if_neg hzero]
      refine (erase_readVarint32_bind hsize _ hsecond _).trans ?_
      cases hmessageSize : EspHomeApi.readVarint32 second with
      | none => rfl
      | some size =>
        obtain ⟨messageSize, third⟩ := size
        have hthird := (readVarint32_suffix hmessageSize).trans hsecond
        refine (erase_readVarint32_bind hsize _ hthird _).trans ?_
        dsimp only
        cases EspHomeApi.readVarint32 third with
        | none => rfl
        | some type => rfl

/-- Trying one type at a position is trying it on the bytes behind it. -/
theorem erase_parseAndInvoke (type : MessageType) {stream : Bytes} (hstream : stream <:+ data)
    (messageType : ℕ) :
    Decoding.erase ((arrayStream P data).parseAndInvoke type (positionOf data stream) messageType) =
      ((parseAndInvoke P type stream messageType).1.toList,
        .ok ((parseAndInvoke P type stream messageType).1.isSome,
          positionOf data (parseAndInvoke P type stream messageType).2)) := by
  rw [CodedInputStream.parseAndInvoke, EspHomeApi.parseAndInvoke]
  by_cases hid : getMessageId type ≠ messageType
  · rw [if_pos hid, if_pos hid]
    rfl
  · have hparse : (arrayStream P data).parseFromCodedStream type (positionOf data stream) =
        ((P.parseFromCodedStream type stream).1,
          positionOf data (P.parseFromCodedStream type stream).2) := by
      change ((P.parseFromCodedStream type (data.drop (positionOf data stream))).1,
        positionOf data (P.parseFromCodedStream type (data.drop (positionOf data stream))).2) = _
      rw [drop_positionOf hstream]
    rw [if_neg hid, if_neg hid, hparse]
    cases (P.parseFromCodedStream type stream).1 with
    | none => rfl
    | some message => rfl

/-- Trying the types in turn at a position is trying them on the bytes behind it. -/
theorem erase_parseAnyAndInvoke (hP : P.Documented) (types : List MessageType) {stream : Bytes}
    (hstream : stream <:+ data) (messageType : ℕ) :
    Decoding.erase
        ((arrayStream P data).parseAnyAndInvoke types (positionOf data stream) messageType) =
      ((parseAnyAndInvoke P types stream messageType).1.toList,
        .ok ((parseAnyAndInvoke P types stream messageType).1.isSome,
          positionOf data (parseAnyAndInvoke P types stream messageType).2)) := by
  induction types generalizing stream with
  | nil => rfl
  | cons type types ih =>
    have hfirst := erase_parseAndInvoke (P := P) type hstream messageType
    have hsuffix := (parseAndInvoke_suffix hP type stream messageType).trans hstream
    rw [CodedInputStream.parseAnyAndInvoke, EspHomeApi.parseAnyAndInvoke]
    cases hparse : EspHomeApi.parseAndInvoke P type stream messageType with
    | mk parsed rest =>
      rw [hparse] at hfirst hsuffix
      cases parsed with
      | some message => exact erase_bind_of_ok hfirst _
      | none => exact (erase_bind_of_nil hfirst _).trans (ih hsuffix)

/-- What an iteration hands over, and the position or error it leaves. -/
def eraseIteration (data : Bytes) : Iteration M → List M × Result ℕ
  | .again call rest => (call.toList, .ok (positionOf data rest))
  | .stop error => ([], .error error)

/-- What follows the header at a position is what follows it on the bytes behind. -/
theorem erase_decodeBody (hP : P.Documented) (hsize : data.length < 2 ^ 31) (header : Header)
    {stream : Bytes} (hstream : stream <:+ data) :
    Decoding.erase ((arrayStream P data).decodeBody types header (positionOf data stream)) =
      eraseIteration data (decodeBody P types header stream) := by
  have hlength := hstream.length_le
  have hlimit := bytesUntilLimit_positionOf (P := P) hsize hstream
  have hunsigned : ((stream.length : ℤ) % 2 ^ 32).toNat = stream.length := by omega
  rw [CodedInputStream.decodeBody, EspHomeApi.decodeBody]
  by_cases haccepted : ¬ isAccepted types header.messageType = true
  · have hskip : ((arrayStream P data).skip (positionOf data stream)
        (staticCastInt header.messageSize)).2 =
        positionOf data (skip stream (staticCastInt header.messageSize)).2 := by
      change positionOf data (skip (data.drop (positionOf data stream)) _).2 = _
      rw [drop_positionOf hstream]
    rw [if_pos haccepted, if_pos haccepted, hskip]
    rfl
  · rw [if_neg haccepted, if_neg haccepted, hlimit, hunsigned, EspHomeApi.bytesUntilLimit]
    by_cases hshort : stream.length < header.messageSize
    · rw [if_pos hshort, if_pos hshort]
      rfl
    · rw [if_neg hshort, if_neg hshort]
      have hparse := erase_parseAnyAndInvoke hP types hstream header.messageType
      cases hany : EspHomeApi.parseAnyAndInvoke P types stream header.messageType with
      | mk parsed rest =>
        rw [hany] at hparse
        cases parsed with
        | some message => exact erase_bind_of_ok hparse _
        | none => exact erase_bind_of_nil hparse _

/-- An iteration at a position is the iteration on the bytes behind it. -/
theorem erase_iteration (hP : P.Documented) (hsize : data.length < 2 ^ 31)
    (types : List MessageType) {stream : Bytes} (hstream : stream <:+ data) :
    Decoding.erase ((arrayStream P data).iteration types (positionOf data stream)) =
      eraseIteration data (iteration P types stream) := by
  have hread := erase_readHeader (P := P) hsize hstream
  rw [CodedInputStream.iteration, EspHomeApi.iteration]
  cases hheader : EspHomeApi.readHeader stream with
  | error error =>
    rw [hheader] at hread
    exact erase_bind_of_error hread _
  | ok result =>
    obtain ⟨header, body⟩ := result
    rw [hheader] at hread
    exact (erase_bind_of_nil hread _).trans
      (erase_decodeBody hP hsize header ((readHeader_suffix hheader).trans hstream))

/-- Where the guard holds there is a byte left. -/
theorem ne_nil_of_guard (hsize : data.length < 2 ^ 31) {stream : Bytes}
    (hstream : stream <:+ data)
    (hguard : (arrayStream P data).bytesUntilLimit (positionOf data stream) > 0) : stream ≠ [] := by
  intro hnil
  rw [bytesUntilLimit_positionOf hsize hstream, hnil] at hguard
  exact absurd hguard (by decide)

/-- An iteration that fails is one that stops, without a message. -/
theorem iteration_of_error (hP : P.Documented) (hsize : data.length < 2 ^ 31) {stream : Bytes}
    (hstream : stream <:+ data) {error : ApiError}
    (hbody : ((arrayStream P data).iteration types (positionOf data stream)).outcome =
      .error error) :
    EspHomeApi.iteration P types stream = .stop error ∧
      (Decoding.erase ((arrayStream P data).iteration types (positionOf data stream))).1 = [] := by
  have herase := erase_iteration hP hsize types hstream
  have houtcome := hbody.symm.trans (congrArg Prod.snd herase)
  cases hstep : EspHomeApi.iteration P types stream with
  | again call rest =>
    rw [hstep] at houtcome
    nomatch houtcome
  | stop reason =>
    rw [hstep] at houtcome herase
    obtain rfl := Except.error.inj houtcome
    exact ⟨rfl, congrArg Prod.fst herase⟩

/-- An iteration that does not fail goes on with the stream at its position. -/
theorem iteration_of_ok (hP : P.Documented) (hsize : data.length < 2 ^ 31) {stream : Bytes}
    (hstream : stream <:+ data) {next : ℕ}
    (hbody : ((arrayStream P data).iteration types (positionOf data stream)).outcome = .ok next) :
    ∃ call rest, EspHomeApi.iteration P types stream = .again call rest ∧
      next = positionOf data rest ∧
      (Decoding.erase ((arrayStream P data).iteration types (positionOf data stream))).1 =
        call.toList := by
  have herase := erase_iteration hP hsize types hstream
  have houtcome := hbody.symm.trans (congrArg Prod.snd herase)
  cases hstep : EspHomeApi.iteration P types stream with
  | stop reason =>
    rw [hstep] at houtcome
    nomatch houtcome
  | again call rest =>
    rw [hstep] at houtcome herase
    obtain rfl := Except.ok.inj houtcome
    exact ⟨call, rest, rfl, rfl, congrArg Prod.fst herase⟩

/-- The loop from a position hands over what the loop on the bytes behind it hands over. -/
theorem erase_ends (hP : P.Documented) (hsize : data.length < 2 ^ 31) {position : ℕ}
    {heads : List ℕ} {run : Decoding M ℕ}
    (hrun : Ends (fun position => (arrayStream P data).bytesUntilLimit position > 0)
      ((arrayStream P data).iteration types) position heads run)
    {stream : Bytes} (hstream : stream <:+ data) (hposition : position = positionOf data stream) :
    decode P types stream =
      ((Decoding.erase run).1, (Decoding.erase run).2.map fun _ => ()) := by
  induction hrun generalizing stream with
  | done hguard =>
    subst hposition
    rw [bytesUntilLimit_positionOf hsize hstream] at hguard
    have hnil : stream = [] := List.eq_nil_of_length_eq_zero (by omega)
    rw [hnil]
    rfl
  | failed hguard hbody =>
    subst hposition
    obtain ⟨hstep, hmessages⟩ := iteration_of_error hP hsize hstream hbody
    rw [decode_stop (ne_nil_of_guard hsize hstream hguard) hstep, ← hmessages]
    rfl
  | again hguard hbody _ ih =>
    subst hposition
    obtain ⟨call, rest, hstep, hnext, hmessages⟩ := iteration_of_ok hP hsize hstream hbody
    have hrest := (iteration_suffix hP hstep).trans hstream
    rw [decode_again hP hstep, ih hrest hnext, consCall, ← hmessages]
    simp only [Decoding.erase, List.filterMap_append]

/-- Over the stream of an array, what `decode_multiple` recorded erases to the messages it hands
over and its result. -/
theorem erase_decodes (hP : P.Documented) (hsize : data.length < 2 ^ 31) {heads : List ℕ}
    {run : Decoding M Unit} (hrun : (arrayStream P data).Decodes types heads run) :
    Decoding.erase run = decodeMultiple P types data := by
  cases hrun with
  | short hshort =>
    have hshort : data.length < 3 := hshort
    rw [decodeMultiple, if_pos hshort]
    rfl
  | loop hlong hrun =>
    have hlong : 3 ≤ data.length := Nat.le_of_not_lt hlong
    have hstart : 0 = positionOf data data := (Nat.sub_self _).symm
    rw [decodeMultiple_eq hlong hsize,
      erase_ends hP hsize hrun (List.suffix_refl data) hstart]
    rfl

/-- `decode_multiple` hands over at most a third as many messages as it is given bytes. -/
theorem decodeMultiple_length_le (hP : P.Documented) (hsize : data.length < 2 ^ 31) :
    (decodeMultiple P types data).1.length ≤ data.length / 3 := by
  have hS := arrayStream_documented hP hsize
  obtain ⟨heads, run, hrun⟩ := exists_decodes hS hsize types
  rw [← erase_decodes hP hsize hrun, Decoding.length_erase]
  exact (hrun.bounded hS hsize).calls

end EspHomeApi
