import EspHomeApi.MessageWait
import EspHomeApi.Protocol

/-!
# Collecting messages up to a stop message

`receive_messages` asks `receive_any_message` for messages of the stop type and of the types to
collect. That inner loop skips every other message and puts an accepted one into the alternative
of a variant whose type has its id; the outer loop ends at the stop alternative and appends every
other one. The ids of the protocol definition tell the types that have one from all others, so for
such types the list is exactly the subsequence of the messages of the types to collect, each under
its own type, whatever other messages come between them.
-/

namespace EspHomeApi

variable {M : Type} (C : Messages M) (stop : MessageType) (types : List MessageType)

/-- A `std::variant` of shared pointers: the alternative it holds, and the message pointed to. -/
structure Variant (M : Type) where
  alternative : MessageType
  pointer : Option M
  deriving DecidableEq

/-- `MessageWrapper::as`: without the id of the type, or if the cast fails, the null pointer. -/
def Messages.as (type : MessageType) (message : M) : Option M :=
  if C.holdsMessage type message ∧ C.descriptor message = type then some message else none

/-- `handle_message_impl`, with the visitor that fills the variant. -/
def handleMessageImpl (type : MessageType) (message : M) : Option (Variant M) :=
  if C.holdsMessage type message then some ⟨type, C.as type message⟩ else none

/-- `handle_messages`, which stops at the first type that handles the message. -/
def handleMessages : List MessageType → M → Option (Variant M)
  | [], _ => none
  | type :: types, message =>
    match handleMessageImpl C type message with
    | some result => some result
    | none => handleMessages types message

/-- One round of `receive_any_message`: `none` sends it round again. -/
def receiveAnyVariant (message : M) : Option (Variant M) :=
  if types.any fun type => C.holdsMessage type message then handleMessages C types message
  else none

/-- How far a call of `receive_messages` has come. -/
inductive Collection (M : Type) where
  /-- Waiting, with the messages collected so far. -/
  | collecting (messages : List (Variant M))
  /-- Returned. -/
  | returned (messages : List (Variant M))
  deriving DecidableEq

/-- The handler of the call is completed with a message. -/
def Collection.step : Collection M → M → Option (Collection M)
  | .collecting messages, message =>
    match receiveAnyVariant C (stop :: types) message with
    | none => some (.collecting messages)
    | some any =>
      if any.alternative = stop then some (.returned messages)
      else some (.collecting (messages ++ [any]))
  | .returned _, _ => none

/-- The messages of the types to collect, in order, each under its own type. -/
def collected (messages : List M) : List (Variant M) :=
  (messages.filter fun message => C.descriptor message ∈ types).map fun message =>
    ⟨C.descriptor message, some message⟩

/-- No type of the list but its own has the id of the message. -/
def IdTellsType (message : M) : Prop :=
  ∀ type ∈ types, C.holdsMessage type message = true → C.descriptor message = type

variable {C stop types}

/-- A message holds its own type. -/
theorem holdsMessage_descriptor (message : M) :
    C.holdsMessage (C.descriptor message) message = true := by
  rw [Messages.holdsMessage, decide_eq_true_iff]

/-- One of the types has the id of the message just if its own type is one of them. -/
theorem any_holdsMessage_iff {message : M} (hid : IdTellsType C types message) :
    (types.any fun type => C.holdsMessage type message) = true ↔ C.descriptor message ∈ types := by
  rw [List.any_eq_true]
  constructor
  · intro hany
    obtain ⟨type, htype, hholds⟩ := hany
    exact hid type htype hholds ▸ htype
  · intro hmem
    exact ⟨C.descriptor message, hmem, holdsMessage_descriptor message⟩

/-- `as` gives a message out under its own type. -/
theorem as_of_descriptor {type : MessageType} {message : M} (h : C.descriptor message = type) :
    C.as type message = some message :=
  if_pos ⟨h ▸ holdsMessage_descriptor message, h⟩

/-- The fold finds the type of the message, and no other one. -/
theorem handleMessages_eq {message : M} (hid : IdTellsType C types message) :
    handleMessages C types message =
      if C.descriptor message ∈ types then some ⟨C.descriptor message, some message⟩ else none := by
  induction types with
  | nil => rfl
  | cons type types ih =>
    have hrest : IdTellsType C types message :=
      fun other hother => hid other (List.mem_cons_of_mem type hother)
    rw [handleMessages, handleMessageImpl]
    by_cases hholds : C.holdsMessage type message = true
    · have hsame := hid type List.mem_cons_self hholds
      rw [if_pos hholds, if_pos (hsame ▸ List.mem_cons_self), as_of_descriptor hsame, hsame]
    · have hother : C.descriptor message ≠ type := by
        intro hsame
        exact hholds (hsame ▸ holdsMessage_descriptor message)
      rw [if_neg hholds]
      simp only [ih hrest, List.mem_cons, hother, false_or]

/-- A round accepts a message of the types, under its own type. -/
theorem receiveAnyVariant_eq {message : M} (hid : IdTellsType C types message) :
    receiveAnyVariant C types message =
      if C.descriptor message ∈ types then some ⟨C.descriptor message, some message⟩ else none := by
  rw [receiveAnyVariant, handleMessages_eq hid]
  by_cases hmem : C.descriptor message ∈ types
  · rw [if_pos ((any_holdsMessage_iff hid).mpr hmem)]
  · rw [if_neg hmem, ite_self]

/-- A message that is not of the stop type is collected if it is of one of the types. -/
theorem step_of_ne {message : M} (hid : IdTellsType C (stop :: types) message)
    (hne : C.descriptor message ≠ stop) (messages : List (Variant M)) :
    Collection.step C stop types (.collecting messages) message =
      some (.collecting (messages ++ collected C types [message])) := by
  rw [Collection.step, receiveAnyVariant_eq hid]
  by_cases hmem : C.descriptor message ∈ types
  · simp [collected, hmem, hne]
  · simp [collected, hmem, hne]

/-- A stop message ends the call. -/
theorem step_of_eq {message : M} (hid : IdTellsType C (stop :: types) message)
    (hstop : C.descriptor message = stop) (messages : List (Variant M)) :
    Collection.step C stop types (.collecting messages) message = some (.returned messages) := by
  rw [Collection.step, receiveAnyVariant_eq hid]
  simp [hstop]

/-- What is collected of one message after the other is what is collected of all of them. -/
theorem collected_cons (message : M) (messages : List M) :
    collected C types (message :: messages) =
      collected C types [message] ++ collected C types messages := by
  rw [collected, collected, collected, ← List.map_append, ← List.filter_append]
  rfl

/-- Without a stop message the call goes on collecting. -/
theorem run_collecting {messages : List M}
    (hid : ∀ message ∈ messages, IdTellsType C (stop :: types) message)
    (hne : ∀ message ∈ messages, C.descriptor message ≠ stop) (already : List (Variant M)) :
    Run.run (Collection.step C stop types) (.collecting already) messages =
      some (.collecting (already ++ collected C types messages)) := by
  induction messages generalizing already with
  | nil => simp [Run.run, collected]
  | cons message messages ih =>
    rw [Run.run, step_of_ne (hid message List.mem_cons_self) (hne message List.mem_cons_self),
      Option.bind_some, collected_cons message messages, ← List.append_assoc]
    apply ih
    · intro later hlater
      exact hid later (List.mem_cons_of_mem message hlater)
    · intro later hlater
      exact hne later (List.mem_cons_of_mem message hlater)

/-- At the first stop message the call returns what was collected before it. -/
theorem run_returned {messages : List M} {last : M}
    (hid : ∀ message ∈ messages ++ [last], IdTellsType C (stop :: types) message)
    (hne : ∀ message ∈ messages, C.descriptor message ≠ stop)
    (hstop : C.descriptor last = stop) :
    Run.run (Collection.step C stop types) (.collecting []) (messages ++ [last]) =
      some (.returned (collected C types messages)) := by
  have hbefore := run_collecting
    (fun message hmessage => hid message (List.mem_append_left [last] hmessage)) hne []
  have hlast := hid last (List.mem_append_right messages List.mem_cons_self)
  exact Run.run_concat hbefore (step_of_eq hlast hstop _)

/-- The id of a message of any type tells whether it is of one of the types that have an id. -/
theorem idTellsType_of_defined (htypes : ∀ type ∈ types, type ∈ protocolTypes) {message : M}
    (hmessage : (C.descriptor message).Defined) : IdTellsType C types message := by
  intro type htype hholds
  rw [Messages.holdsMessage, decide_eq_true_iff] at hholds
  exact (eq_of_getMessageId (htypes type htype) hmessage hholds).symm

/-- When the stop type and the types to collect have ids, `receive_messages` waits as long as no
stop message has come, and at the first one it returns exactly the messages of its types that came
before, in order, each under the alternative of its own type. The messages may be of any type. -/
theorem receiveMessages_exact (C : Messages M) (stop : MessageType) (types : List MessageType)
    (htypes : ∀ type ∈ stop :: types, type ∈ protocolTypes) (messages : List M)
    (hmessages : ∀ message ∈ messages, (C.descriptor message).Defined) :
    ((∀ message ∈ messages, C.descriptor message ≠ stop) →
      Run.run (Collection.step C stop types) (.collecting []) messages =
        some (.collecting (collected C types messages))) ∧
    ∀ before last after, messages = before ++ last :: after →
      (∀ message ∈ before, C.descriptor message ≠ stop) → C.descriptor last = stop →
      Run.run (Collection.step C stop types) (.collecting []) (before ++ [last]) =
        some (.returned (collected C types before)) := by
  have hid (message : M) (hmessage : message ∈ messages) : IdTellsType C (stop :: types) message :=
    idTellsType_of_defined htypes (hmessages message hmessage)
  constructor
  · intro hne
    exact run_collecting hid hne []
  · intro before last after hsplit hne hstop
    subst hsplit
    apply run_returned _ hne hstop
    intro message hmessage
    apply hid
    rcases List.mem_append.mp hmessage with hbefore | hlast
    · exact List.mem_append_left _ hbefore
    · rw [List.mem_singleton.mp hlast]
      exact List.mem_append_right _ List.mem_cons_self

/-- A type of the protocol definition without an id. -/
def idlessType (name : String) : MessageType := .other ⟨name, none, nofun, nofun, nofun⟩

/-- A light and a sensor with a pong and messages of two types without an id between them, and the
end of the list. -/
theorem receiveMessages_exact_light_sensor :
    Run.run (Collection.step wireMessages .listEntitiesDoneResponse entityTypes) (.collecting [])
        [⟨.listEntitiesResponse .light, []⟩, ⟨idlessType "BluetoothServiceData", []⟩,
          ⟨.pingResponse, []⟩, ⟨idlessType "HomeassistantServiceMap", []⟩,
          ⟨.listEntitiesResponse .sensor, []⟩, ⟨.listEntitiesDoneResponse, []⟩] =
      some (.returned [⟨.listEntitiesResponse .light, some ⟨.listEntitiesResponse .light, []⟩⟩,
        ⟨.listEntitiesResponse .sensor, some ⟨.listEntitiesResponse .sensor, []⟩⟩]) :=
  (receiveMessages_exact wireMessages .listEntitiesDoneResponse entityTypes (by decide +kernel)
    [⟨.listEntitiesResponse .light, []⟩, ⟨idlessType "BluetoothServiceData", []⟩,
      ⟨.pingResponse, []⟩, ⟨idlessType "HomeassistantServiceMap", []⟩,
      ⟨.listEntitiesResponse .sensor, []⟩, ⟨.listEntitiesDoneResponse, []⟩] (by decide +kernel)).2
    [⟨.listEntitiesResponse .light, []⟩, ⟨idlessType "BluetoothServiceData", []⟩,
      ⟨.pingResponse, []⟩, ⟨idlessType "HomeassistantServiceMap", []⟩,
      ⟨.listEntitiesResponse .sensor, []⟩]
    ⟨.listEntitiesDoneResponse, []⟩ [] rfl (by decide) rfl

/-- An operation collects messages of types that `receive_loop` accepts. -/
theorem types_accepted {operation : Operation} (h : operation.expects = .messages stop types) :
    ∀ type ∈ stop :: types, type ∈ receiveLoopTypes := by
  cases operation with
  | requestEntitiesAndServices =>
    obtain ⟨hstop, htypes⟩ := Expectation.messages.inj h
    rw [← hstop, ← htypes]
    decide
  | _ => nomatch h

/-- The id of any message tells whether it is of one of the types that are accepted. -/
theorem idTellsType_of_accepted (htypes : ∀ type ∈ types, type ∈ receiveLoopTypes) (message : M) :
    IdTellsType C types message :=
  fun type htype => (holdsMessage_iff_of_accepted C (htypes type htype) message).mp

/-- What the coroutine of the operation does with a message is what the collection does. -/
theorem answer_messages (operation : Operation)
    (hexpects : operation.expects = .messages stop types) (variants : List (Variant M))
    (message : M) :
    operation.answer C (variants.filterMap Variant.pointer) (.inl message) =
      match Collection.step C stop types (.collecting variants) message with
      | some (.collecting next) => .waitAgain (next.filterMap Variant.pointer)
      | some (.returned result) => .done (.ok (.messages (result.filterMap Variant.pointer)))
      | none => .waitAgain (variants.filterMap Variant.pointer) := by
  have hid : IdTellsType C (stop :: types) message :=
    idTellsType_of_accepted (types_accepted hexpects) message
  have hany := any_holdsMessage_iff hid
  have hstop : C.holdsMessage stop message = true ↔ C.descriptor message = stop :=
    ⟨hid stop List.mem_cons_self, fun hsame => hsame ▸ holdsMessage_descriptor message⟩
  rw [Operation.answer, hexpects, Collection.step, receiveAnyVariant_eq hid]
  simp only [receiveAnyMessage]
  by_cases hmem : C.descriptor message ∈ stop :: types
  · rw [if_pos hmem, if_pos (hany.mpr hmem)]
    by_cases hsame : C.descriptor message = stop
    · simp [hsame, hstop.mpr hsame]
    · have hnot : C.holdsMessage stop message = false := by
        rw [← Bool.not_eq_true, hstop]
        exact hsame
      simp [hsame, hnot]
  · rw [if_neg hmem, if_neg (fun h => hmem (hany.mp h))]

end EspHomeApi
