import EspHomeApi.EntityConversion
import EspHomeApi.Lib.Expected

/-!
# Failed steps of the operations

Each operation awaits steps whose outcomes hold a value or an error, and reads them under guards:
through `REQUIRE_SUCCESS`, or in branches of its own. Every operation returns an error when one of
its steps failed and reads no value off an error, with one exception. When the TCP connection
cannot be made, `connect` builds the text of its error from the address of the endpoint that it is
not connected to.
-/

namespace EspHomeApi

open Expected

variable {M : Type}

/-- `asio::ip::tcp::endpoint`, by the text of its address. -/
structure Endpoint where
  address : String
  deriving DecidableEq

/-- What the client tells about a device. -/
structure DeviceInfo where
  usesPassword : Bool
  hasDeepSleep : Bool
  name : Bytes
  friendlyName : Bytes
  macAddress : Bytes
  compilationTime : Bytes
  model : Bytes
  manufacturer : Bytes
  esphomeVersion : Bytes
  webserverPort : UInt16
  suggestedArea : Bytes
  deriving DecidableEq

/-- A line of the log of a device, the level being an enumerator or any other number. -/
structure LogEntry where
  logLevel : ℤ
  message : Bytes
  deriving DecidableEq

/-- The state of a light. -/
structure LightState where
  key : UInt32
  state : Bool
  brightness : FloatBits
  colorMode : ColorMode
  colorBrightness : FloatBits
  red : FloatBits
  green : FloatBits
  blue : FloatBits
  white : FloatBits
  colorTemperature : FloatBits
  coldWhite : FloatBits
  warmWhite : FloatBits
  effect : Bytes
  deriving DecidableEq

/-- The getters of a DeviceInfoResponse. -/
structure DeviceInfoGetters (M : Type) where
  usesPassword : M → Bool
  hasDeepSleep : M → Bool
  name : M → Bytes
  friendlyName : M → Bytes
  macAddress : M → Bytes
  compilationTime : M → Bytes
  model : M → Bytes
  manufacturer : M → Bytes
  esphomeVersion : M → Bytes
  webserverPort : M → UInt32
  suggestedArea : M → Bytes

/-- The getters of a LightStateResponse. -/
structure LightStateGetters (M : Type) where
  key : M → UInt32
  state : M → Bool
  brightness : M → FloatBits
  colorMode : M → ℤ
  colorBrightness : M → FloatBits
  red : M → FloatBits
  green : M → FloatBits
  blue : M → FloatBits
  white : M → FloatBits
  colorTemperature : M → FloatBits
  coldWhite : M → FloatBits
  warmWhite : M → FloatBits
  effect : M → Bytes

/-- The getters that the operations convert responses with. -/
structure ResponseGetters (M : Type) where
  entity : EntityGetters M
  deviceInfo : DeviceInfoGetters M
  lightState : LightStateGetters M
  logLevel : M → ℤ
  logMessage : M → Bytes

/-- The DeviceInfo that `request_device_info` returns. -/
def deviceInfo (G : DeviceInfoGetters M) (message : M) : DeviceInfo where
  usesPassword := G.usesPassword message
  hasDeepSleep := G.hasDeepSleep message
  name := G.name message
  friendlyName := G.friendlyName message
  macAddress := G.macAddress message
  compilationTime := G.compilationTime message
  model := G.model message
  manufacturer := G.manufacturer message
  esphomeVersion := G.esphomeVersion message
  webserverPort := (G.webserverPort message).toUInt16
  suggestedArea := G.suggestedArea message

/-- `pb2state`. -/
def pb2state (G : LightStateGetters M) (response : M) : LightState where
  key := G.key response
  state := G.state response
  brightness := G.brightness response
  colorMode := pb2colorMode (G.colorMode response)
  colorBrightness := G.colorBrightness response
  red := G.red response
  green := G.green response
  blue := G.blue response
  white := G.white response
  colorTemperature := G.colorTemperature response
  coldWhite := G.coldWhite response
  warmWhite := G.warmWhite response
  effect := G.effect response

/-- What an operation returns in the types of the library. -/
inductive Reply where
  | unit
  | deviceInfo (info : DeviceInfo)
  | entityInfoList (list : List EntityInfoVariant)
  | logEntry (entry : LogEntry)
  | entityState (state : LightState)
  deriving DecidableEq

/-- `connect`, from the outcomes of its steps: name resolution, `connectTo` on the endpoints found,
and the two operations of the handshake. -/
def connectSteps (C : Client M) (endpoints : Except ErrorCode (List Endpoint))
    (connectTo : List Endpoint → Except ErrorCode Endpoint) (hello login : Result Unit) :
    Option (Result Reply) :=
  let hostname := C.hostname
  let port := C.port
  if ¬ hasValue endpoints then
    (error? endpoints).bind fun error =>
      let message := error.message
      some (makeUnexpectedResult .unexpectedMessage
        s!"Could not resolve host {hostname}:{port}. Failed with error: {message}")
  else
    (value? endpoints).bind fun endpoints =>
      let connectResult := connectTo endpoints
      if ¬ hasValue connectResult then
        -- the text is made from `connect_result->address()`
        (value? connectResult).bind fun endpoint =>
          let address := endpoint.address
          some (makeUnexpectedResult .unexpectedMessage
            s!"Could not connect to host {hostname}:{port}. Failed with error: {address}")
      else
        (value? connectResult).bind fun _ =>
          requireSuccess hello (requireSuccess login (some (.ok .unit)))

/-- `disconnect`. -/
def disconnectSteps (send : Result Unit) (response : Result M) : Option (Result Reply) :=
  requireSuccess send (requireSuccess response (some (.ok .unit)))

/-- `send_message_hello`, which reads the name and the version off the message. -/
def sendMessageHelloSteps (send : Result Unit) (response : Result M) : Option (Result Reply) :=
  requireSuccess send (requireSuccess response
    ((value? response).bind fun _ => some (.ok .unit)))

/-- `send_message_connect`. -/
def sendMessageConnectSteps (C : Client M) (send : Result Unit) (response : Result M) :
    Option (Result Reply) :=
  requireSuccess send (requireSuccess response
    ((value? response).bind fun message =>
      if C.invalidPassword message then
        some (makeUnexpectedResult .authentificationError "Invalid password")
      else some (.ok .unit)))

/-- `request_device_info`. -/
def requestDeviceInfoSteps (G : ResponseGetters M) (send : Result Unit) (response : Result M) :
    Option (Result Reply) :=
  requireSuccess send (requireSuccess response
    ((value? response).bind fun message =>
      some (.ok (.deviceInfo (deviceInfo G.deviceInfo message)))))

/-- `request_entities_and_services`. -/
def requestEntitiesAndServicesSteps (G : ResponseGetters M) (send : Result Unit)
    (messages : Result (List (EntityResponse M))) : Option (Result Reply) :=
  requireSuccess send (requireSuccess messages
    ((value? messages).bind fun messages =>
      some (.ok (.entityInfoList (entityInfoList G.entity messages)))))

/-- `receive_log`. -/
def receiveLogSteps (G : ResponseGetters M) (message : Result M) : Option (Result Reply) :=
  requireSuccess message ((value? message).bind fun level =>
    (value? message).bind fun text =>
      some (.ok (.logEntry ⟨G.logLevel level, G.logMessage text⟩)))

/-- `receive_state`. -/
def receiveStateSteps (G : ResponseGetters M) (message : Result M) : Option (Result Reply) :=
  requireSuccess message ((value? message).bind fun value =>
    some (.ok (.entityState (pb2state G.lightState value))))

/-- `send_message`, from the outcomes of `serialize` and of `sendTo` on the packet. -/
def sendMessageSteps (packet : Result Bytes) (sendTo : Bytes → Except ErrorCode ℕ) :
    Option (Result Reply) :=
  if hasValue packet then
    (value? packet).bind fun data =>
      let written := sendTo data
      let differs :=
        if hasValue written then
          (value? written).bind fun count => (value? packet).map fun data => count != data.length
        else some false
      differs.bind fun differs =>
        if differs then
          (value? packet).bind fun data => (value? written).bind fun written =>
            let expected := data.length
            some (makeUnexpectedResult .sendError
              s!"Could not send message. Bytes written are different: expected={expected}, written={written}")
        else if ¬ hasValue written then
          (error? written).bind fun error =>
            let message := error.message
            some (makeUnexpectedResult .sendError
              s!"Could not send message in time. Error: {message}")
        else some (.ok .unit)
  else (error? packet).bind fun error => some (.error error)

/-- A call of an operation, with the outcomes of its steps. -/
inductive StepOutcomes (M : Type) where
  | connect (endpoints : Except ErrorCode (List Endpoint))
      (connectTo : List Endpoint → Except ErrorCode Endpoint) (hello login : Result Unit)
  | disconnect (send : Result Unit) (response : Result M)
  | sendMessageHello (send : Result Unit) (response : Result M)
  | sendMessageConnect (send : Result Unit) (response : Result M)
  | requestDeviceInfo (send : Result Unit) (response : Result M)
  | requestEntitiesAndServices (send : Result Unit) (messages : Result (List (EntityResponse M)))
  | receiveLog (message : Result M)
  | receiveState (message : Result M)
  | sendMessage (packet : Result Bytes) (sendTo : Bytes → Except ErrorCode ℕ)

/-- What the operation returns. -/
def StepOutcomes.returned (C : Client M) (G : ResponseGetters M) :
    StepOutcomes M → Option (Result Reply)
  | .connect endpoints connectTo hello login => connectSteps C endpoints connectTo hello login
  | .disconnect send response => disconnectSteps send response
  | .sendMessageHello send response => sendMessageHelloSteps send response
  | .sendMessageConnect send response => sendMessageConnectSteps C send response
  | .requestDeviceInfo send response => requestDeviceInfoSteps G send response
  | .requestEntitiesAndServices send messages => requestEntitiesAndServicesSteps G send messages
  | .receiveLog message => receiveLogSteps G message
  | .receiveState message => receiveStateSteps G message
  | .sendMessage packet sendTo => sendMessageSteps packet sendTo

/-- One of the steps of the operation failed. -/
def StepOutcomes.StepFailed : StepOutcomes M → Prop
  | .connect endpoints connectTo hello login =>
    Failed endpoints ∨ (∃ list, endpoints = .ok list ∧ Failed (connectTo list)) ∨
      Failed hello ∨ Failed login ∨ False
  | .disconnect send response => Failed send ∨ Failed response ∨ False
  | .sendMessageHello send response => Failed send ∨ Failed response ∨ False
  | .sendMessageConnect send response => Failed send ∨ Failed response ∨ False
  | .requestDeviceInfo send response => Failed send ∨ Failed response ∨ False
  | .requestEntitiesAndServices send messages => Failed send ∨ Failed messages ∨ False
  | .receiveLog message => Failed message ∨ False
  | .receiveState message => Failed message ∨ False
  | .sendMessage packet sendTo =>
    Failed packet ∨ ∃ data, packet = .ok data ∧ Failed (sendTo data)

/-- The operation returns an error when one of its steps failed, and reads no value off an error. -/
def StepOutcomes.ReadsNoFailed (C : Client M) (G : ResponseGetters M) (outcomes : StepOutcomes M) :
    Prop :=
  Sound outcomes.StepFailed (outcomes.returned C G)

/-- `connect` cannot make the TCP connection to the endpoints that it found. -/
def StepOutcomes.ConnectToFails : StepOutcomes M → Prop
  | .connect endpoints connectTo _ _ => ∃ list, endpoints = .ok list ∧ Failed (connectTo list)
  | _ => False

/-- The first two steps of an operation that sends a request and waits for the response. -/
theorem sound_request {α : Type} {failed : Prop} (send : Result Unit) (response : Result α)
    {rest : Option (Result Reply)} (h : ∀ value, response = .ok value → Sound failed rest) :
    Sound (Failed send ∨ Failed response ∨ failed)
      (requireSuccess send (requireSuccess response rest)) := by
  apply sound_requireSuccess
  intro _ _
  exact sound_requireSuccess h

/-- An operation that makes its reply of the response reads the response behind the guard. -/
theorem sound_reply {α : Type} (send : Result Unit) (response : Result α) (reply : α → Reply) :
    Sound (Failed send ∨ Failed response ∨ False)
      (requireSuccess send (requireSuccess response
        ((value? response).bind fun value => some (.ok (reply value))))) := by
  apply sound_request
  rintro value rfl
  exact sound_ok _

/-- `send_message` is sound: each branch reads what it has checked. -/
theorem sound_sendMessageSteps (packet : Result Bytes) (sendTo : Bytes → Except ErrorCode ℕ) :
    Sound (Failed packet ∨ ∃ data, packet = .ok data ∧ Failed (sendTo data))
      (sendMessageSteps packet sendTo) := by
  cases packet with
  | error error => exact sound_error _ error
  | ok data =>
    cases hwritten : sendTo data with
    | error error =>
      simp only [sendMessageSteps, hasValue_ok, if_true, value?_ok, Option.bind_some, hwritten,
        hasValue_error, Bool.false_eq_true, if_false, not_false_eq_true, error?_error]
      exact sound_error _ _
    | ok count =>
      have hfailed : (Failed (.ok data : Result Bytes) ∨
          ∃ other, (.ok data : Result Bytes) = .ok other ∧ Failed (sendTo other)) ↔ False := by
        simp [hwritten]
      simp only [sendMessageSteps, hasValue_ok, if_true, value?_ok, Option.bind_some, hwritten,
        Option.map_some, not_true_eq_false, if_false]
      rw [hfailed]
      split
      · exact sound_error _ _
      · exact sound_ok _

/-- `connect` is sound exactly when it does not fail to make the TCP connection. -/
theorem sound_connectSteps_iff (C : Client M) (endpoints : Except ErrorCode (List Endpoint))
    (connectTo : List Endpoint → Except ErrorCode Endpoint) (hello login : Result Unit) :
    Sound (StepOutcomes.connect (M := M) endpoints connectTo hello login).StepFailed
        (connectSteps C endpoints connectTo hello login) ↔
      ¬ ∃ list, endpoints = .ok list ∧ Failed (connectTo list) := by
  cases endpoints with
  | error error =>
    constructor
    · intro _
      simp
    · intro _
      exact sound_error _ _
  | ok list =>
    cases hconnect : connectTo list with
    | error error =>
      have hundefined : connectSteps C (.ok list) connectTo hello login = none := by
        simp [connectSteps, hconnect]
      rw [hundefined]
      simp [not_sound_none, hconnect]
    | ok endpoint =>
      have hreached : connectSteps C (.ok list) connectTo hello login =
          requireSuccess hello (requireSuccess login (some (.ok .unit))) := by
        simp [connectSteps, hconnect]
      have hfailed : (StepOutcomes.connect (M := M) (.ok list) connectTo hello login).StepFailed ↔
          Failed hello ∨ Failed login ∨ False := by
        simp [StepOutcomes.StepFailed, hconnect]
      rw [hreached, hfailed]
      simp only [Except.ok.injEq, exists_eq_left', hconnect, not_failed_ok, not_false_eq_true,
        iff_true]
      apply sound_request
      intro _ _
      exact sound_ok _

/-- Every operation returns an error when one of its steps failed and reads no value off an error,
except `connect` when it cannot make the TCP connection. -/
theorem readsNoFailed_iff (C : Client M) (G : ResponseGetters M) (outcomes : StepOutcomes M) :
    outcomes.ReadsNoFailed C G ↔ ¬ outcomes.ConnectToFails := by
  cases outcomes with
  | connect endpoints connectTo hello login =>
    exact sound_connectSteps_iff C endpoints connectTo hello login
  | disconnect send response =>
    apply iff_of_true _ not_false
    apply sound_request
    rintro message rfl
    exact sound_ok _
  | sendMessageHello send response =>
    exact iff_of_true (sound_reply send response fun _ => .unit) not_false
  | sendMessageConnect send response =>
    apply iff_of_true _ not_false
    apply sound_request
    rintro message rfl
    rw [value?_ok, Option.bind_some]
    split
    · exact sound_error _ _
    · exact sound_ok _
  | requestDeviceInfo send response =>
    apply iff_of_true _ not_false
    exact sound_reply send response fun message => .deviceInfo (deviceInfo G.deviceInfo message)
  | requestEntitiesAndServices send messages =>
    apply iff_of_true _ not_false
    exact sound_reply send messages fun messages =>
      .entityInfoList (entityInfoList G.entity messages)
  | receiveLog message =>
    apply iff_of_true _ not_false
    apply sound_requireSuccess
    rintro line rfl
    exact sound_ok _
  | receiveState message =>
    apply iff_of_true _ not_false
    apply sound_requireSuccess
    rintro state rfl
    exact sound_ok _
  | sendMessage packet sendTo =>
    exact iff_of_true (sound_sendMessageSteps packet sendTo) not_false

/-- The getters on wire fields. -/
def wireResponseGetters : ResponseGetters WireMessage where
  entity := wireEntityGetters
  deviceInfo :=
    { usesPassword := fun message => message.getNumber 1 ≠ 0
      hasDeepSleep := fun message => message.getNumber 7 ≠ 0
      name := WireMessage.getString 2
      friendlyName := WireMessage.getString 13
      macAddress := WireMessage.getString 3
      compilationTime := WireMessage.getString 5
      model := WireMessage.getString 6
      manufacturer := WireMessage.getString 12
      esphomeVersion := WireMessage.getString 4
      webserverPort := fun message => UInt32.ofNat (message.getNumber 10)
      suggestedArea := WireMessage.getString 16 }
  lightState :=
    { key := WireMessage.getFixed32 1
      state := fun message => message.getNumber 2 ≠ 0
      brightness := WireMessage.getFixed32 3
      colorMode := fun message => message.getNumber 11
      colorBrightness := WireMessage.getFixed32 10
      red := WireMessage.getFixed32 4
      green := WireMessage.getFixed32 5
      blue := WireMessage.getFixed32 6
      white := WireMessage.getFixed32 7
      colorTemperature := WireMessage.getFixed32 8
      coldWhite := WireMessage.getFixed32 12
      warmWhite := WireMessage.getFixed32 13
      effect := WireMessage.getString 9 }
  logLevel message := message.getNumber 1
  logMessage := WireMessage.getString 3

/-- A device that refuses the TCP connection. -/
def refusedConnect : StepOutcomes WireMessage :=
  .connect (.ok [⟨"10.0.0.5"⟩]) (fun _ => .error ⟨111, "Connection refused"⟩) (.ok ()) (.ok ())

/-- On a refused connection `connect` reads the endpoint of an outcome that holds an error. -/
theorem not_readsNoFailed_refused :
    ¬ refusedConnect.ReadsNoFailed wireClient wireResponseGetters := by
  have hundefined : refusedConnect.returned wireClient wireResponseGetters = none := rfl
  rw [StepOutcomes.ReadsNoFailed, hundefined]
  exact not_sound_none _

section Coroutine

variable (C : Client M) (s : State M) (task : ℕ)

/-- The coroutine of `connect` ends as its steps do when the name is not resolved. -/
theorem resolved_error (htask : s.tasks task = .resolving) (error : ErrorCode)
    (connectTo : List Endpoint → Except ErrorCode Endpoint) (hello login : Result Unit) :
    s.resolved C task (.error error) =
      (connectSteps C (.error error) connectTo hello login).map fun result =>
        s.move C task (.ended, [.connectReturned (result.map fun _ => ())]) := by
  unfold State.resolved
  rw [htask]
  rfl

/-- The coroutine of `connect` is undefined where its steps are. -/
theorem connected_error (htask : s.tasks task = .connecting) (error : ErrorCode)
    (endpoints : List Endpoint) (hello login : Result Unit) :
    connectSteps C (.ok endpoints) (fun _ => .error error) hello login = none ∧
      s.connected C task (.error error) = some (s.move C task (.undefined, [])) := by
  constructor
  · rfl
  · unfold State.connected
    rw [htask]

/-- The steps of `send_message` give the result that the coroutines go on with. -/
theorem sendMessageSteps_ok (packet : Bytes) (sendTo : Bytes → Except ErrorCode ℕ) :
    sendMessageSteps (.ok packet) sendTo =
      some ((sendMessageResult packet (sendTo packet)).map fun _ => .unit) := by
  cases hwritten : sendTo packet with
  | error error =>
    simp [sendMessageSteps, hwritten, sendMessageResult, makeUnexpectedResult, Except.map]
  | ok count =>
    by_cases hcount : count = packet.length
    · simp [sendMessageSteps, hwritten, sendMessageResult, hcount, Except.map]
    · simp [sendMessageSteps, hwritten, sendMessageResult, hcount, makeUnexpectedResult, Except.map]

/-- A coroutine accepts the response to a password as the steps of `send_message_connect` do. -/
theorem sendMessageConnectSteps_ok (message : M) :
    sendMessageConnectSteps C (.ok ()) (.ok message) =
      some ((Operation.sendMessageConnect.accept C.toMessages message).map fun _ => .unit) := by
  simp only [sendMessageConnectSteps, requireSuccess_ok, value?_ok, Option.bind_some,
    Operation.accept]
  split
  · rfl
  · rfl

end Coroutine

end EspHomeApi
