import EspHomeApi.Collector
import EspHomeApi.Lib.Exchange
import EspHomeApi.Protocol

/-!
# The message wrapper

A `MessageWrapper` keeps a shared pointer to a message and the id of its type. Wrappers live in
storage that holds something before they are constructed there: the contents at every construction
are a parameter of a run. A constructor initialises the members in the order of their declaration,
the id before the pointer, and what it reads of its own members before that is what the storage
held. A class object that a function returns is built in the place that it initialises, a number is
stored there when the function has returned.
-/

namespace EspHomeApi

open Exchange

variable {M : Type}

/-- A `std::shared_ptr` to a message, or what storage holds in place of one. -/
inductive Pointer (M : Type) where
  | null
  | object (message : M)
  /-- Bytes that are no shared pointer, or one to an object that is gone. -/
  | wild
  deriving DecidableEq

/-- The members of a wrapper, or what storage holds in place of them. -/
structure MessageWrapper (M : Type) where
  messageId : ℕ
  message : Pointer M
  deriving DecidableEq

/-- `MessageWrapper::holds_message`. -/
def MessageWrapper.holdsMessage (type : MessageType) (wrapper : MessageWrapper M) : Bool :=
  getMessageId type = wrapper.messageId

/-- `std::dynamic_pointer_cast`. -/
def dynamicPointerCast (C : Messages M) (type : MessageType) : Pointer M → Pointer M
  | .null => .null
  | .object message => if C.descriptor message = type then .object message else .null
  | .wild => .wild

/-- `MessageWrapper::as`. -/
def MessageWrapper.as (C : Messages M) (type : MessageType) (wrapper : MessageWrapper M) :
    Pointer M :=
  if getMessageId type = wrapper.messageId then dynamicPointerCast C type wrapper.message
  else .null

/-- A `std::shared_ptr<TMsg>`, which is null or points to a message of its class. -/
structure TypedPointer (C : Messages M) where
  type : MessageType
  message : Option M
  defined : type.Defined
  descriptor_eq : ∀ m ∈ message, C.descriptor m = type

/-- The conversion to a pointer to the base class. -/
def TypedPointer.upcast {C : Messages M} (pointer : TypedPointer C) : Pointer M :=
  match pointer.message with
  | none => .null
  | some message => .object message

/-- What happens to wrappers, each known by the address of its storage. -/
inductive WrapperAction (C : Messages M) where
  | construct (this : ℕ) (message : TypedPointer C)
  | copyConstruct (this wrapper : ℕ)
  | moveConstruct (this wrapper : ℕ)
  | copyAssign (this rhs : ℕ)
  | moveAssign (this rhs : ℕ)
  | destroy (this : ℕ)

/-- The storage of the wrappers, member by member, and which of them are alive. -/
structure Memory (M : Type) where
  messageId : ℕ → ℕ
  message : ℕ → Pointer M
  live : ℕ → Bool
  /-- How many constructions there have been. -/
  constructed : ℕ

namespace Memory

/-- The wrapper at an address. -/
def wrapper (s : Memory M) (this : ℕ) : MessageWrapper M := ⟨s.messageId this, s.message this⟩

/-- Nothing is alive. -/
def empty : Memory M := ⟨fun _ => 0, fun _ => .null, fun _ => false, 0⟩

/-- Storage for a new wrapper, with what it happens to contain. -/
def allocate (storage : ℕ → MessageWrapper M) (this : ℕ) (s : Memory M) : Memory M where
  messageId := Function.update s.messageId this (storage s.constructed).messageId
  message := Function.update s.message this (storage s.constructed).message
  live := Function.update s.live this true
  constructed := s.constructed + 1

/-- The constructor from a message. -/
def construct {C : Messages M} (this : ℕ) (message : TypedPointer C) (s : Memory M) : Memory M :=
  { s with
    messageId := Function.update s.messageId this (getMessageId message.type)
    message := Function.update s.message this message.upcast }

/-- The copy constructor. -/
def copyConstruct (this wrapper : ℕ) (s : Memory M) : Memory M :=
  { s with
    messageId := Function.update s.messageId this (s.messageId wrapper)
    message := Function.update s.message this (s.message wrapper) }

/-- The move constructor: either member is exchanged with the member that is being initialised.

The id that is read for that is what the storage held. The pointer that `std::exchange` returns is
built in the new wrapper before it is read there, so the old wrapper is given its own one back. -/
def moveConstruct (this wrapper : ℕ) (s : Memory M) : Memory M :=
  { s with
    messageId := assignExchange id s.messageId this wrapper
    message := constructExchange (fun _ => .null) s.message this wrapper }

/-- The copy assignment, which leaves a wrapper assigned to itself alone. -/
def copyAssign (this rhs : ℕ) (s : Memory M) : Memory M :=
  if this = rhs then s
  else
    { s with
      message := Function.update s.message this (s.message rhs)
      messageId := Function.update s.messageId this (s.messageId rhs) }

/-- The move assignment.

A number that was moved from keeps its value, and a shared pointer is null. -/
def moveAssign (this rhs : ℕ) (s : Memory M) : Memory M :=
  { s with
    message := assignExchange (fun _ => .null) s.message this rhs
    messageId := assignExchange id s.messageId this rhs }

/-- The destructor. -/
def destroy (this : ℕ) (s : Memory M) : Memory M :=
  { s with live := Function.update s.live this false }

/-- Perform an action. Wrappers are constructed in free storage and from wrappers that are alive,
and only wrappers that are alive are assigned and destroyed. -/
def step {C : Messages M} (storage : ℕ → MessageWrapper M) (s : Memory M) :
    WrapperAction C → Option (Memory M)
  | .construct this message =>
    if s.live this then none else some ((s.allocate storage this).construct this message)
  | .copyConstruct this wrapper =>
    if s.live this ∨ ¬ s.live wrapper then none
    else some ((s.allocate storage this).copyConstruct this wrapper)
  | .moveConstruct this wrapper =>
    if s.live this ∨ ¬ s.live wrapper then none
    else some ((s.allocate storage this).moveConstruct this wrapper)
  | .copyAssign this rhs =>
    if ¬ s.live this ∨ ¬ s.live rhs then none else some (s.copyAssign this rhs)
  | .moveAssign this rhs =>
    if ¬ s.live this ∨ ¬ s.live rhs then none else some (s.moveAssign this rhs)
  | .destroy this =>
    if ¬ s.live this then none else some (s.destroy this)

/-- Where the actions lead when the storage contained this before each construction. -/
def run {C : Messages M} (storage : ℕ → MessageWrapper M) (actions : List (WrapperAction C)) :
    Option (Memory M) :=
  Run.run (step storage) empty actions

end Memory

end EspHomeApi
