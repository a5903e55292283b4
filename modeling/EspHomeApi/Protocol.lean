import EspHomeApi.MessageType
import Mathlib.Data.List.Nodup

/-!
# The types of the protocol definition that have an id

Besides the types that the client names, the protocol definition gives an id to eighty more. All
these ids are distinct, and a type without the option is known by none of them, so an id that is
not the default tells the type of a message.
-/

namespace EspHomeApi

/-- A type of the protocol definition that the client never names. -/
def furtherType (name : String) (id : ℕ)
    (legal : 0 < id ∧ id < 128 ∧ id ∉ clientIds := by decide) : MessageType :=
  .other {
    name := name
    id := some id
    id_pos := fun _ h => Option.some.inj h ▸ legal.1
    id_lt := fun _ h => Option.some.inj h ▸ legal.2.1
    fresh := fun _ h => Option.some.inj h ▸ legal.2.2
  }

/-- The types with an id that the client never names, in the order of their definition. -/
def furtherTypes : List MessageType :=
  [furtherType "BinarySensorStateResponse" 21, furtherType "CoverStateResponse" 22,
   furtherType "CoverCommandRequest" 30, furtherType "FanStateResponse" 23,
   furtherType "FanCommandRequest" 31, furtherType "SensorStateResponse" 25,
   furtherType "SwitchStateResponse" 26, furtherType "SwitchCommandRequest" 33,
   furtherType "TextSensorStateResponse" 27, furtherType "SubscribeHomeassistantServicesRequest" 34,
   furtherType "HomeassistantServiceResponse" 35,
   furtherType "SubscribeHomeAssistantStatesRequest" 38,
   furtherType "SubscribeHomeAssistantStateResponse" 39,
   furtherType "HomeAssistantStateResponse" 40, furtherType "GetTimeRequest" 36,
   furtherType "GetTimeResponse" 37, furtherType "ExecuteServiceRequest" 42,
   furtherType "CameraImageResponse" 44, furtherType "CameraImageRequest" 45,
   furtherType "ClimateStateResponse" 47, furtherType "ClimateCommandRequest" 48,
   furtherType "NumberStateResponse" 50, furtherType "NumberCommandRequest" 51,
   furtherType "SelectStateResponse" 53, furtherType "SelectCommandRequest" 54,
   furtherType "LockStateResponse" 59, furtherType "LockCommandRequest" 60,
   furtherType "ButtonCommandRequest" 62, furtherType "MediaPlayerStateResponse" 64,
   furtherType "MediaPlayerCommandRequest" 65,
   furtherType "SubscribeBluetoothLEAdvertisementsRequest" 66,
   furtherType "BluetoothLEAdvertisementResponse" 67,
   furtherType "BluetoothLERawAdvertisementsResponse" 93, furtherType "BluetoothDeviceRequest" 68,
   furtherType "BluetoothDeviceConnectionResponse" 69,
   furtherType "BluetoothGATTGetServicesRequest" 70,
   furtherType "BluetoothGATTGetServicesResponse" 71,
   furtherType "BluetoothGATTGetServicesDoneResponse" 72, furtherType "BluetoothGATTReadRequest" 73,
   furtherType "BluetoothGATTReadResponse" 74, furtherType "BluetoothGATTWriteRequest" 75,
   furtherType "BluetoothGATTReadDescriptorRequest" 76,
   furtherType "BluetoothGATTWriteDescriptorRequest" 77,
   furtherType "BluetoothGATTNotifyRequest" 78, furtherType "BluetoothGATTNotifyDataResponse" 79,
   furtherType "SubscribeBluetoothConnectionsFreeRequest" 80,
   furtherType "BluetoothConnectionsFreeResponse" 81, furtherType "BluetoothGATTErrorResponse" 82,
   furtherType "BluetoothGATTWriteResponse" 83, furtherType "BluetoothGATTNotifyResponse" 84,
   furtherType "BluetoothDevicePairingResponse" 85,
   furtherType "BluetoothDeviceUnpairingResponse" 86,
   furtherType "UnsubscribeBluetoothLEAdvertisementsRequest" 87,
   furtherType "BluetoothDeviceClearCacheResponse" 88,
   furtherType "SubscribeVoiceAssistantRequest" 89, furtherType "VoiceAssistantRequest" 90,
   furtherType "VoiceAssistantResponse" 91, furtherType "VoiceAssistantEventResponse" 92,
   furtherType "VoiceAssistantAudio" 106, furtherType "VoiceAssistantTimerEventResponse" 115,
   furtherType "VoiceAssistantAnnounceRequest" 119,
   furtherType "VoiceAssistantAnnounceFinished" 120,
   furtherType "VoiceAssistantConfigurationRequest" 121,
   furtherType "VoiceAssistantConfigurationResponse" 122,
   furtherType "VoiceAssistantSetConfiguration" 123,
   furtherType "AlarmControlPanelStateResponse" 95,
   furtherType "AlarmControlPanelCommandRequest" 96, furtherType "TextStateResponse" 98,
   furtherType "TextCommandRequest" 99, furtherType "DateStateResponse" 101,
   furtherType "DateCommandRequest" 102, furtherType "TimeStateResponse" 104,
   furtherType "TimeCommandRequest" 105, furtherType "EventResponse" 108,
   furtherType "ValveStateResponse" 110, furtherType "ValveCommandRequest" 111,
   furtherType "DateTimeStateResponse" 113, furtherType "DateTimeCommandRequest" 114,
   furtherType "UpdateStateResponse" 117, furtherType "UpdateCommandRequest" 118]

/-- Every type of the protocol definition with an id. -/
def protocolTypes : List MessageType := receiveLoopTypes ++ requestTypes ++ furtherTypes

/-- A message class is generated from a type with an id or from one without the option. -/
def MessageType.Defined (type : MessageType) : Prop := type ∈ protocolTypes ∨ type.id = none

instance (type : MessageType) : Decidable type.Defined :=
  inferInstanceAs (Decidable (_ ∨ _))

/-- The ids of the protocol definition are distinct, and none is the default. -/
theorem protocolTypes_ids :
    (protocolTypes.map getMessageId).Nodup ∧ 0 ∉ protocolTypes.map getMessageId := by
  decide +kernel

/-- The id of a type of the protocol definition tells it from every other type. -/
theorem eq_of_getMessageId {type other : MessageType} (htype : type ∈ protocolTypes)
    (hother : other.Defined) (h : getMessageId type = getMessageId other) : type = other := by
  rcases hother with hmem | hnone
  · exact List.inj_on_of_nodup_map protocolTypes_ids.1 htype hmem h
  · have hzero : getMessageId type = 0 := by rw [h, getMessageId, hnone, Option.getD_none]
    exact absurd (hzero ▸ List.mem_map_of_mem htype) protocolTypes_ids.2

end EspHomeApi
