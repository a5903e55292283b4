import EspHomeApi.Net
import EspHomeApi.PlainTextProtocol

/-!
# The operations of a connection

An operation builds a request, hands it to `send_message` and waits for messages of certain
types. This module has what the operations compute between two suspensions: the requests, the
result of a send, and what is done with a message that was waited for.
-/

namespace EspHomeApi

variable {M : Type}

/-- The generated message classes as the connection uses them: construction of a message of a
type, the setters called on requests and the getters called on responses. -/
structure Messages (M : Type) extends Protobuf M where
  new : MessageType → M
  setClientInfo : Bytes → M → M
  setPassword : Bytes → M → M
  setKey : ℕ → M → M
  setEffect : Bytes → M → M
  setDumpConfig : Bool → M → M
  setLevel : ℕ → M → M
  name : M → Bytes
  apiVersionMajor : M → ℕ
  apiVersionMinor : M → ℕ
  invalidPassword : M → Bool

/-- The constructor arguments of `ApiConnection` that the operations read. -/
structure Client (M : Type) extends Messages M where
  hostname : String
  port : ℕ
  password : Bytes

/-- A command to a light. The size of a `std::string` is a 64-bit number. -/
structure LightCommand where
  key : UInt32
  effect : Option Bytes
  effect_lt : ∀ text ∈ effect, text.length < 2 ^ 64
  deriving DecidableEq

/-- The members of `ApiConnection` that exchange messages with the device.

`ping` is the body of `heartbeat_loop`, which sends a PingRequest and waits for the answer. -/
inductive Operation where
  | sendMessageHello
  | sendMessageConnect
  | disconnect
  | requestDeviceInfo
  | requestEntitiesAndServices
  | lightCommand (command : LightCommand)
  | enableLogs (logLevel : ℕ) (configDump : Bool)
  | subscribeStates
  | ping
  | receiveLog
  | receiveState
  deriving DecidableEq

/-- The text that the client introduces itself with: `"cppapi"`. -/
def clientInfo : Bytes := [99, 112, 112, 97, 112, 105]

/-- The request of `light_command`. -/
def lightCommandRequest (C : Client M) (command : LightCommand) : M :=
  let request := C.setKey command.key.toNat (C.new .lightCommandRequest)
  match command.effect with
  | some effect => C.setEffect effect request
  | none => request

/-- The request that an operation hands to `send_message`, if it sends one. -/
def Operation.request (C : Client M) : Operation → Option M
  | .sendMessageHello => some (C.setClientInfo clientInfo (C.new .helloRequest))
  | .sendMessageConnect => some (C.setPassword C.password (C.new .connectRequest))
  | .disconnect => some (C.new .disconnectRequest)
  | .requestDeviceInfo => some (C.new .deviceInfoRequest)
  | .requestEntitiesAndServices => some (C.new .listEntitiesRequest)
  | .lightCommand command => some (lightCommandRequest C command)
  | .enableLogs logLevel configDump =>
    some (C.setLevel logLevel (C.setDumpConfig configDump (C.new .subscribeLogsRequest)))
  | .subscribeStates => some (C.new .subscribeStatesRequest)
  | .ping => some (C.new .pingRequest)
  | .receiveLog => none
  | .receiveState => none

/-- What an operation waits for. -/
inductive Expectation where
  /-- Nothing: the operation returns the result of the send. -/
  | nothing
  /-- `receive_message`, with its timer. -/
  | message (type : MessageType)
  /-- `receive_any_message`, without a timer. -/
  | anyMessage (types : List MessageType)
  /-- `receive_messages`, up to a message of the stop type. -/
  | messages (stop : MessageType) (types : List MessageType)

/-- The types that `request_entities_and_services` collects, in the order it names them. -/
def entityTypes : List MessageType :=
  [.alarmControlPanel, .binarySensor, .button, .camera, .climate, .cover, .date, .dateTime, .event,
    .fan, .light, .lock, .mediaPlayer, .number, .select, .sensor, .services, .switch, .text,
    .textSensor, .time, .update, .valve].map .listEntitiesResponse

/-- What each operation waits for after its send. -/
def Operation.expects : Operation → Expectation
  | .sendMessageHello => .message .helloResponse
  | .sendMessageConnect => .message .connectResponse
  | .disconnect => .message .disconnectResponse
  | .requestDeviceInfo => .message .deviceInfoResponse
  | .requestEntitiesAndServices => .messages .listEntitiesDoneResponse entityTypes
  | .lightCommand _ => .nothing
  | .enableLogs _ _ => .nothing
  | .subscribeStates => .nothing
  | .ping => .message .pingResponse
  | .receiveLog => .message .subscribeLogsResponse
  | .receiveState => .anyMessage [.lightStateResponse]

/-- Whether the wait of an operation runs against a timer. -/
def Operation.timed (operation : Operation) : Bool :=
  match operation.expects with
  | .message _ => true
  | _ => false

/-- `MessageWrapper::holds_message`, the id of a wrapper being that of its message's type. -/
def Messages.holdsMessage (C : Messages M) (type : MessageType) (message : M) : Bool :=
  getMessageId type = getMessageId (C.descriptor message)

/-- The result of `send_message`, from the packet and the outcome of `net::sendTo`. -/
def sendMessageResult (packet : Bytes) : Except ErrorCode ℕ → Result Unit
  | .ok written =>
    if written ≠ packet.length then
      let expected := packet.length
      makeUnexpectedResult .sendError
        s!"Could not send message. Bytes written are different: expected={expected}, written={written}"
    else .ok ()
  | .error error =>
    let message := error.message
    makeUnexpectedResult .sendError s!"Could not send message in time. Error: {message}"

/-- One round of `receive_message`: `none` sends it round again.

The cast `as<TMsg>` of the result is left out. It gives the message itself where the type has an id,
as the types of all operations have; for a type without one it can be the null pointer. -/
def receiveMessage (C : Messages M) (type : MessageType) : M ⊕ ErrorCode → Option (Result M)
  | .inr _ => some (makeUnexpectedResult .unexpectedMessage "could not receive any message")
  | .inl message => if C.holdsMessage type message then some (.ok message) else none

/-- One round of `receive_any_message`: `none` sends it round again. -/
def receiveAnyMessage (C : Messages M) (types : List MessageType) (message : M) : Option M :=
  if types.any fun type => C.holdsMessage type message then some message else none

/-- What an operation answers with, before the conversion into the types of the library. -/
inductive Value (M : Type) where
  | unit
  | message (message : M)
  | messages (messages : List M)
  deriving DecidableEq

/-- What an operation does with the outcome of a wait. -/
inductive Answer (M : Type) where
  /-- Wait again, with the messages collected so far. -/
  | waitAgain (collected : List M)
  /-- Return the result. -/
  | done (result : Result (Value M))

/-- What the operation does with a message of the type that `receive_message` waited for. -/
def Operation.accept (C : Messages M) (operation : Operation) (message : M) : Result (Value M) :=
  match operation with
  | .sendMessageConnect =>
    if C.invalidPassword message then makeUnexpectedResult .authentificationError "Invalid password"
    else .ok .unit
  | .sendMessageHello => .ok .unit
  | .disconnect => .ok .unit
  | .ping => .ok .unit
  | _ => .ok (.message message)

/-- One round of the wait of an operation. -/
def Operation.answer (C : Messages M) (operation : Operation) (collected : List M)
    (outcome : M ⊕ ErrorCode) : Answer M :=
  match operation.expects with
  | .nothing => .done (.ok .unit)
  | .message type =>
    match receiveMessage C type outcome with
    | none => .waitAgain collected
    | some (.error error) => .done (.error error)
    | some (.ok message) => .done (operation.accept C message)
  | .anyMessage types =>
    match outcome with
    | .inr _ => .waitAgain collected
    | .inl message =>
      match receiveAnyMessage C types message with
      | none => .waitAgain collected
      | some message => .done (.ok (.message message))
  | .messages stop types =>
    match outcome with
    | .inr _ => .waitAgain collected
    | .inl message =>
      match receiveAnyMessage C (stop :: types) message with
      | none => .waitAgain collected
      | some message =>
        if C.holdsMessage stop message then .done (.ok (.messages collected))
        else .waitAgain (collected ++ [message])

/-- `send_message` succeeds only if the send reported the size of the packet. -/
theorem sendMessageResult_eq_ok {packet : Bytes} {written : Except ErrorCode ℕ}
    (h : sendMessageResult packet written = .ok ()) : written = .ok packet.length := by
  unfold sendMessageResult at h
  split at h
  · rename_i count
    split at h
    · simp [makeUnexpectedResult] at h
    · rename_i hsame
      rw [not_not.mp hsame]
  · simp [makeUnexpectedResult] at h

/-- A send that reports a size completed with it before the timer did. -/
theorem left?_of_result?_ok {race : TimedOperation ℕ} {count : ℕ}
    (h : TimedOperation.result? race = some (.ok count)) :
    ∃ error : ErrorCode, error.failed = false ∧ race.left? = some (error, count) := by
  obtain ⟨outcome, houtcome, hflatten⟩ := Option.map_eq_some_iff.mp h
  obtain ⟨⟨error, written⟩, hleft, hsame⟩ := Race.left?_of_result? houtcome
  cases outcome with
  | inr timer => simp [flatten, mapTimer] at hflatten
  | inl completion =>
    obtain rfl := hsame completion rfl
    simp only [flatten, mapValue] at hflatten
    split at hflatten
    · simp at hflatten
    · rename_i hfailed
      simp only [Except.ok.injEq] at hflatten
      exact ⟨error, by simpa using hfailed, hflatten ▸ hleft⟩

end EspHomeApi
