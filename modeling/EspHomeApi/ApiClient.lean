import EspHomeApi.StepOutcomes
import EspHomeApi.Verdict

/-!
# What the client gives to its user

Each member of `ApiClient` hands on to the connection and converts the messages that come back into
the types of the library. What its user gets is made of the messages that the handlers of this very
call were called with: the information of the device, a log entry or a state from the first message
of its type, and the list of entities from all the listing responses before the end of the list.
-/

namespace EspHomeApi

open Run

variable {M : Type} {C : Client M} {s : State M}

variable (C) (G : ResponseGetters M)

/-- The conversion at the end of an operation. -/
def Operation.convert (operation : Operation) (value : Value M) : Reply :=
  match operation, value with
  | .requestDeviceInfo, .message message => .deviceInfo (EspHomeApi.deviceInfo G.deviceInfo message)
  | .requestEntitiesAndServices, .messages messages =>
    .entityInfoList (entityInfoList G.entity (entityResponses C.toMessages messages))
  | .receiveLog, .message message => .logEntry ⟨G.logLevel message, G.logMessage message⟩
  | .receiveState, .message message => .entityState (pb2state G.lightState message)
  | _, _ => .unit

/-- The messages end with the first one of the type. -/
structure EndsWithFirst (type : MessageType) (heard earlier : List M) (last : M) : Prop where
  split : heard = earlier ++ [last]
  earlier : ∀ message ∈ earlier, C.descriptor message ≠ type
  last : C.descriptor last = type

/-- What the user is given for the messages that the call heard. -/
def Operation.Gives (operation : Operation) (heard : List M) (value : Reply) : Prop :=
  match operation with
  | .requestDeviceInfo => ∃ earlier last, EndsWithFirst C .deviceInfoResponse heard earlier last ∧
      value = .deviceInfo (EspHomeApi.deviceInfo G.deviceInfo last)
  | .requestEntitiesAndServices => ∃ earlier last list,
      EndsWithFirst C .listEntitiesDoneResponse heard earlier last ∧ value = .entityInfoList list ∧
        List.Forall₂ (fun response entry => response.kind ≠ .services →
          Carries G.entity response entry) (entityResponses C.toMessages earlier) list
  | .receiveLog => ∃ earlier last, EndsWithFirst C .subscribeLogsResponse heard earlier last ∧
      value = .logEntry ⟨G.logLevel last, G.logMessage last⟩
  | .receiveState => ∃ earlier last, EndsWithFirst C .lightStateResponse heard earlier last ∧
      value = .entityState (pb2state G.lightState last)
  | _ => value = .unit

variable {C G}

/-- Only the collected messages are listing responses. -/
theorem entityResponses_filter (C : Messages M) (messages : List M) :
    entityResponses C (messages.filter fun message => C.descriptor message ∈ entityTypes) =
      entityResponses C messages := by
  rw [entityResponses, List.filterMap_filter, entityResponses]
  congr 1
  funext message
  split
  · rfl
  · rename_i hnot
    split
    · rename_i kind hkind
      exact absurd ((mem_entityTypes_iff _).mpr ⟨kind, hkind⟩) (by simpa using hnot)
    · rfl

/-- The list of entities carries every response that is not one of a service. -/
theorem carries_entityInfoList (G : EntityGetters M) (responses : List (EntityResponse M)) :
    List.Forall₂ (fun response entry => response.kind ≠ .services → Carries G response entry)
      responses (entityInfoList G responses) := by
  rw [entityInfoList, List.forall₂_map_right_iff, List.forall₂_same]
  intro response _ hkind
  exact (carries_pb2entityInfo_iff G response).mpr fun hservices => absurd hservices hkind

/-- A message that came too late is no success. -/
theorem ne_couldNotReceive (value : Value M) :
    (.ok value : Result (Value M)) ≠ couldNotReceive := by
  simp [couldNotReceive, makeUnexpectedResult]

/-- What an operation is meant to yield is converted into what its user is meant to be given. -/
theorem gives_of_yields {operation : Operation} {heard : List M} {value : Value M}
    (h : operation.Yields C.toMessages heard (.ok value)) :
    operation.Gives C G heard (operation.convert C G value) := by
  cases operation with
  | requestDeviceInfo | receiveLog =>
    obtain ⟨earlier, last, rfl, hearlier, hlast, hvalue⟩ := h
    obtain rfl := Except.ok.inj hvalue
    exact ⟨earlier, last, ⟨rfl, hearlier, hlast⟩, rfl⟩
  | receiveState =>
    obtain ⟨earlier, last, rfl, hearlier, hlast, hvalue⟩ := h
    obtain rfl := Except.ok.inj hvalue
    simp only [List.mem_singleton] at hearlier hlast
    exact ⟨earlier, last, ⟨rfl, hearlier, hlast⟩, rfl⟩
  | requestEntitiesAndServices =>
    obtain ⟨earlier, last, rfl, hearlier, hlast, hvalue⟩ := h
    obtain rfl := Except.ok.inj hvalue
    refine ⟨earlier, last, _, ⟨rfl, hearlier, hlast⟩, rfl, ?_⟩
    rw [entityResponses_filter]
    exact carries_entityInfoList G.entity _
  | _ => rfl

/-- In every run, what a member of `ApiClient` gives to its user is made of the messages that the
handlers of this call were called with. The information of the device, a log entry and a state are
those of the first message of their type; the list of entities has one entry for each listing
response that came before the end of the list, in order, and each carries the key and the name of
its response unless that is a service. -/
theorem client_gives (h : Reachable (State.step C) State.init s) (G : ResponseGetters M) (task : ℕ)
    {before after : List (Event M)} {call : Call} {value : Value M}
    (hsplit : eventsOf task s.log = before ++ .returned call (.ok value) :: after) :
    call.operation.Gives C G (heardAfter [] before) (call.operation.convert C G value) := by
  obtain ⟨record, hexplained, hheard⟩ := explained_of_reachable h task hsplit
  rw [← hheard]
  generalize hresult : (.ok value : Result (Value M)) = result at hexplained
  cases hexplained with
  | yields hsent hheard hyields =>
    rw [CallRecord.heard, heard_of_cameInTime hheard]
    exact gives_of_yields (hresult ▸ hyields)
  | late => exact absurd hresult (ne_couldNotReceive value)
  | unserialized | unsent => simp at hresult

/-- A device tells its name. -/
def namedDevice : List Action :=
  [.connect, .resolved 0 (.ok ()), .connected 0 (.ok ()), .call .requestDeviceInfo,
    .sent 3 .success 3, .expired 3 .operationAborted, .resume 3, .register 3,
    .received 1 (.ok [0, 5, 10, 18, 3, 101, 115, 112]), .dispatch 1, .submit, .execute 0,
    .expired 3 .operationAborted, .resume 3]

/-- The state after that. -/
def namedDeviceState : State WireMessage :=
  (run (State.step wireClient) State.init namedDevice).getD State.init

/-- The response with the name. -/
def nameMessage : WireMessage :=
  ⟨.deviceInfoResponse, [⟨2, .len [101, 115, 112], by simp [WireFormat.Value.Fits]⟩]⟩

/-- The user is given the information in the response. -/
theorem client_gives_namedDevice :
    Operation.requestDeviceInfo.Gives wireClient wireResponseGetters [nameMessage]
      (.deviceInfo (deviceInfo wireResponseGetters.deviceInfo nameMessage)) := by
  have hsplit : eventsOf 3 namedDeviceState.log =
      [.began ⟨.requestDeviceInfo, .user⟩, .wrote ⟨.requestDeviceInfo, .user⟩ 0 [0, 0, 9] 3,
        .registered ⟨.requestDeviceInfo, .user⟩,
        .received ⟨.requestDeviceInfo, .user⟩ nameMessage] ++
      .returned ⟨.requestDeviceInfo, .user⟩ (.ok (.message nameMessage)) :: [] := by rfl
  exact client_gives ⟨namedDevice, rfl⟩ wireResponseGetters 3 hsplit

end EspHomeApi
