import EspHomeApi.Result
import Mathlib.Data.List.Basic

/-!
# The message types and their ids

The types that the client names, with the `id` option each carries in the protocol
definition, and every other type of that definition. Ids are distinct, positive and below
128; a type without the option cannot be sent.
-/

namespace EspHomeApi

/-- The kinds of entity a device lists, one response type for each. -/
inductive EntityKind
  | alarmControlPanel
  | binarySensor
  | button
  | camera
  | climate
  | cover
  | date
  | dateTime
  | event
  | fan
  | light
  | lock
  | mediaPlayer
  | number
  | select
  | sensor
  | services
  | switch
  | text
  | textSensor
  | time
  | update
  | valve
  deriving DecidableEq, Repr

/-- The id of the listing response of a kind. -/
def EntityKind.id : EntityKind → ℕ
  | .alarmControlPanel => 94
  | .binarySensor => 12
  | .button => 61
  | .camera => 43
  | .climate => 46
  | .cover => 13
  | .date => 100
  | .dateTime => 112
  | .event => 107
  | .fan => 14
  | .light => 15
  | .lock => 58
  | .mediaPlayer => 63
  | .number => 49
  | .select => 52
  | .sensor => 16
  | .services => 41
  | .switch => 17
  | .text => 97
  | .textSensor => 18
  | .time => 103
  | .update => 116
  | .valve => 109

/-- The name of a kind inside the name of its response type. -/
def EntityKind.name : EntityKind → String
  | .alarmControlPanel => "AlarmControlPanel"
  | .binarySensor => "BinarySensor"
  | .button => "Button"
  | .camera => "Camera"
  | .climate => "Climate"
  | .cover => "Cover"
  | .date => "Date"
  | .dateTime => "DateTime"
  | .event => "Event"
  | .fan => "Fan"
  | .light => "Light"
  | .lock => "Lock"
  | .mediaPlayer => "MediaPlayer"
  | .number => "Number"
  | .select => "Select"
  | .sensor => "Sensor"
  | .services => "Services"
  | .switch => "Switch"
  | .text => "Text"
  | .textSensor => "TextSensor"
  | .time => "Time"
  | .update => "Update"
  | .valve => "Valve"

/-- The ids of the types that the client names. -/
def clientIds : List ℕ :=
  [1, 2, 3, 4, 5, 6, 7, 8, 9, 10, 11, 12, 13, 14, 15, 16, 17, 18, 19, 20, 24, 28, 29, 32, 41, 43, 46, 49, 52, 58, 61, 63, 94, 97, 100, 103, 107, 109, 112, 116]

/-- A type of the protocol that the client never names. -/
structure OtherType where
  name : String
  id : Option ℕ
  id_pos : ∀ i ∈ id, 0 < i
  id_lt : ∀ i ∈ id, i < 128
  fresh : ∀ i ∈ id, i ∉ clientIds
  deriving DecidableEq

/-- The message types of the protocol. -/
inductive MessageType
  | helloRequest
  | helloResponse
  | connectRequest
  | connectResponse
  | disconnectRequest
  | disconnectResponse
  | pingRequest
  | pingResponse
  | deviceInfoRequest
  | deviceInfoResponse
  | listEntitiesRequest
  | listEntitiesDoneResponse
  | subscribeStatesRequest
  | lightStateResponse
  | lightCommandRequest
  | subscribeLogsRequest
  | subscribeLogsResponse
  | listEntitiesResponse (kind : EntityKind)
  | other (type : OtherType)
  deriving DecidableEq

/-- The `id` option of a message type, when it has one. -/
def MessageType.id : MessageType → Option ℕ
  | .helloRequest => some 1
  | .helloResponse => some 2
  | .connectRequest => some 3
  | .connectResponse => some 4
  | .disconnectRequest => some 5
  | .disconnectResponse => some 6
  | .pingRequest => some 7
  | .pingResponse => some 8
  | .deviceInfoRequest => some 9
  | .deviceInfoResponse => some 10
  | .listEntitiesRequest => some 11
  | .listEntitiesDoneResponse => some 19
  | .subscribeStatesRequest => some 20
  | .lightStateResponse => some 24
  | .lightCommandRequest => some 32
  | .subscribeLogsRequest => some 28
  | .subscribeLogsResponse => some 29
  | .listEntitiesResponse kind => some kind.id
  | .other type => type.id

/-- The name of a message type. -/
def MessageType.name : MessageType → String
  | .helloRequest => "HelloRequest"
  | .helloResponse => "HelloResponse"
  | .connectRequest => "ConnectRequest"
  | .connectResponse => "ConnectResponse"
  | .disconnectRequest => "DisconnectRequest"
  | .disconnectResponse => "DisconnectResponse"
  | .pingRequest => "PingRequest"
  | .pingResponse => "PingResponse"
  | .deviceInfoRequest => "DeviceInfoRequest"
  | .deviceInfoResponse => "DeviceInfoResponse"
  | .listEntitiesRequest => "ListEntitiesRequest"
  | .listEntitiesDoneResponse => "ListEntitiesDoneResponse"
  | .subscribeStatesRequest => "SubscribeStatesRequest"
  | .lightStateResponse => "LightStateResponse"
  | .lightCommandRequest => "LightCommandRequest"
  | .subscribeLogsRequest => "SubscribeLogsRequest"
  | .subscribeLogsResponse => "SubscribeLogsResponse"
  | .listEntitiesResponse kind => "ListEntities" ++ kind.name ++ "Response"
  | .other type => type.name

/-- The id read from the options of a type, zero being the default of the option. -/
def getMessageId (type : MessageType) : ℕ := type.id.getD 0

/-- The types that `receive_loop` accepts from `decode_multiple`, in the order it names them. -/
def receiveLoopTypes : List MessageType :=
  [.subscribeLogsResponse, .deviceInfoResponse, .connectResponse, .helloResponse, .pingResponse,
   .disconnectResponse, .listEntitiesDoneResponse, .listEntitiesResponse .alarmControlPanel,
   .listEntitiesResponse .binarySensor, .listEntitiesResponse .button,
   .listEntitiesResponse .camera, .listEntitiesResponse .climate, .listEntitiesResponse .cover,
   .listEntitiesResponse .date, .listEntitiesResponse .dateTime, .listEntitiesResponse .event,
   .listEntitiesResponse .fan, .listEntitiesResponse .light, .listEntitiesResponse .lock,
   .listEntitiesResponse .mediaPlayer, .listEntitiesResponse .number,
   .listEntitiesResponse .select, .listEntitiesResponse .sensor, .listEntitiesResponse .services,
   .listEntitiesResponse .switch, .listEntitiesResponse .text, .listEntitiesResponse .textSensor,
   .listEntitiesResponse .time, .listEntitiesResponse .update, .listEntitiesResponse .valve,
   .lightStateResponse]

/-- The types of the requests that the client sends. -/
def requestTypes : List MessageType :=
  [.helloRequest, .connectRequest, .disconnectRequest, .pingRequest, .deviceInfoRequest,
   .listEntitiesRequest, .subscribeStatesRequest, .lightCommandRequest, .subscribeLogsRequest]

/-- The type that the client names with a given id. -/
def typeOfId (id : ℕ) : Option MessageType :=
  (receiveLoopTypes ++ requestTypes).find? fun type => getMessageId type = id

/-- Every id is positive and below 128, so it is written as one byte. -/
theorem MessageType.id_bounds {type : MessageType} {id : ℕ} (h : type.id = some id) :
    0 < id ∧ id < 128 := by
  cases type with
  | other type => exact ⟨type.id_pos id h, type.id_lt id h⟩
  | listEntitiesResponse kind =>
    simp only [MessageType.id, Option.some.injEq] at h
    subst h
    cases kind <;> decide
  | _ =>
    simp only [MessageType.id, Option.some.injEq] at h
    subst h
    decide

/-- A type with the option is known by the id that the option holds. -/
theorem getMessageId_of_id {type : MessageType} {id : ℕ} (h : type.id = some id) :
    getMessageId type = id := by
  rw [getMessageId, h, Option.getD_some]

/-- An accepted type is the one found under its id, and its id is one of the client. -/
theorem typeOfId_of_accepted : ∀ type ∈ receiveLoopTypes,
    typeOfId (getMessageId type) = some type ∧ getMessageId type ∈ clientIds := by
  decide +kernel

/-- A type carrying the id of an accepted type is that type. -/
theorem eq_of_id_accepted {type accepted : MessageType} (haccepted : accepted ∈ receiveLoopTypes)
    (h : type.id = some (getMessageId accepted)) : type = accepted := by
  obtain ⟨hfound, hclient⟩ := typeOfId_of_accepted accepted haccepted
  have hnamed : typeOfId (getMessageId accepted) = some type := by
    rw [← getMessageId_of_id h]
    cases type with
    | other type => exact absurd hclient (type.fresh _ h)
    | listEntitiesResponse kind => cases kind <;> decide
    | _ => decide
  exact Option.some.inj (hnamed.symm.trans hfound)

end EspHomeApi
