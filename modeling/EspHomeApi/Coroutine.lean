import EspHomeApi.Operations

/-!
# The coroutines of a connection

A coroutine is described by where it is suspended. What it does from one suspension to the next
is a function of what it was resumed with; it yields the next suspension and the events that
happen on the way.
-/

namespace EspHomeApi

variable {M : Type}

/-- Who called an operation, which decides what happens when it returns. -/
inductive Caller where
  /-- A user of the library, who gets the result. -/
  | user
  /-- `connect`, for the two operations of the handshake. -/
  | connect
  /-- `heartbeat_loop`, for its pings. -/
  | heartbeatLoop
  /-- A loop of a user that calls the operation again each time it returns. -/
  | consumer
  deriving DecidableEq

/-- A call of an operation. -/
structure Call where
  operation : Operation
  caller : Caller
  deriving DecidableEq

/-- The two calls that `connect` makes. -/
def helloCall : Call := ⟨.sendMessageHello, .connect⟩

/-- The second call of `connect`, which carries the password. -/
def connectCall : Call := ⟨.sendMessageConnect, .connect⟩

/-- The call that `heartbeat_loop` makes. -/
def pingCall : Call := ⟨.ping, .heartbeatLoop⟩

/-- What can be observed of a coroutine. -/
inductive Event (M : Type) where
  /-- `connect` made the TCP connection of this number, and started the two loops. -/
  | established (connection receiveLoop heartbeatLoop : ℕ)
  /-- `async_send` was started with the request of the call. -/
  | began (call : Call)
  /-- The socket took some bytes of the packet for one of its connections. -/
  | wrote (call : Call) (connection : ℕ) (packet : Bytes) (count : ℕ)
  /-- The call registered a completion handler. -/
  | registered (call : Call)
  /-- The receiving loop decoded a message and took the handlers. -/
  | dispatched (message : M)
  /-- A completion handler of the call was called with the message. -/
  | received (call : Call) (message : M)
  /-- `device_name_` and `api_version_` were set from the message. -/
  | greeted (message : M)
  /-- The call returned. -/
  | returned (call : Call) (result : Result (Value M))
  /-- `connect` returned. -/
  | connectReturned (result : Result Unit)

/-- Where a coroutine is suspended. -/
inductive Task (M : Type) where
  /-- Not started. -/
  | idle
  /-- `connect` waits for the name to be resolved. -/
  | resolving
  /-- `connect` waits for the TCP connection. -/
  | connecting
  /-- `send_message` waits for `async_send` or its timer. -/
  | sending (call : Call) (packet : Bytes) (connection : Option ℕ) (race : TimedOperation ℕ)
  /-- About to register a completion handler. -/
  | registering (call : Call) (collected : List M)
  /-- Waiting for the handler to be called, or for the timer of `receive_message`. -/
  | waiting (call : Call) (collected : List M) (race : Race M ErrorCode)
  /-- `heartbeat_loop` waits for its timer. -/
  | sleeping
  /-- `receive_loop` waits for bytes. -/
  | listening
  /-- `receive_loop` is about to dispatch the messages of a chunk. -/
  | dispatching (messages : List M)
  /-- Returned. -/
  | ended
  /-- Ran into undefined behaviour. -/
  | undefined

/-- The next suspension of a coroutine, and the events up to it. -/
abbrev Next (M : Type) := Task M × List (Event M)

/-- The head of the loop in `heartbeat_loop`. -/
def heartbeatHead (stopRequested : Bool) : Task M := if stopRequested then .ended else .sleeping

/-- An operation returns to its caller. -/
def leave (stopRequested : Bool) (call : Call) (result : Result (Value M)) : Next M :=
  match call.caller with
  | .user => (.ended, [.returned call result])
  | .connect => (.ended, [.returned call result, .connectReturned (result.map fun _ => ())])
  | .heartbeatLoop => (heartbeatHead stopRequested, [.returned call result])
  | .consumer => (.registering call [], [.returned call result])

/-- `send_message` returned an error, which only the heartbeat ignores. -/
def sendFailed (stopRequested : Bool) (call : Call) (error : ApiError) : Next M :=
  match call.operation with
  | .ping => (.registering call [], [])
  | _ => leave stopRequested call (.error error)

/-- An operation starts, up to its first suspension. -/
def begin (C : Client M) (stopRequested : Bool) (connection : Option ℕ) (call : Call) : Next M :=
  match call.operation.request C with
  | none => (.registering call [], [])
  | some message =>
    match serialize C.toProtobuf message with
    | .error error => sendFailed stopRequested call error
    | .ok packet => (.sending call packet connection .waiting, [.began call])

/-- An operation succeeds; in `connect`, the first one is followed by the second. -/
def succeed (C : Client M) (stopRequested : Bool) (connection : Option ℕ) (call : Call)
    (value : Value M) : Next M :=
  if call = helloCall then
    let next := begin C stopRequested connection connectCall
    (next.1, .returned call (.ok value) :: next.2)
  else leave stopRequested call (.ok value)

/-- `send_message` returns to the operation. -/
def afterSend (C : Client M) (stopRequested : Bool) (connection : Option ℕ) (call : Call)
    (result : Result Unit) : Next M :=
  match result with
  | .error error => sendFailed stopRequested call error
  | .ok () =>
    match call.operation.expects with
    | .nothing => succeed C stopRequested connection call .unit
    | _ => (.registering call [], [])

/-- The message from which `send_message_hello` sets the name and the version. -/
def greeting (call : Call) (outcome : M ⊕ ErrorCode) : List (Event M) :=
  match call.operation, outcome with
  | .sendMessageHello, .inl message => [.greeted message]
  | _, _ => []

/-- The wait of an operation is over. -/
def afterWait (C : Client M) (stopRequested : Bool) (connection : Option ℕ) (call : Call)
    (collected : List M) (outcome : M ⊕ ErrorCode) : Next M :=
  match call.operation.answer C.toMessages collected outcome with
  | .waitAgain collected => (.registering call collected, [])
  | .done (.error error) => leave stopRequested call (.error error)
  | .done (.ok value) =>
    let next := succeed C stopRequested connection call value
    (next.1, greeting call outcome ++ next.2)

/-- Where a coroutine comes to rest when it starts an operation or goes on with one. -/
inductive Task.Rests : Task M → Prop where
  | ended : Rests .ended
  | sleeping : Rests .sleeping
  | registering (call : Call) (collected : List M) : Rests (.registering call collected)
  | sending (call : Call) (packet : Bytes) (connection : Option ℕ) :
    Rests (.sending call packet connection .waiting)

theorem rests_heartbeatHead (stopRequested : Bool) :
    (heartbeatHead stopRequested : Task M).Rests := by
  cases stopRequested
  · exact .sleeping
  · exact .ended

theorem rests_leave (stopRequested : Bool) (call : Call) (result : Result (Value M)) :
    (leave stopRequested call result).1.Rests := by
  obtain ⟨operation, caller⟩ := call
  cases caller with
  | user | connect => exact .ended
  | heartbeatLoop => exact rests_heartbeatHead stopRequested
  | consumer => exact .registering _ _

theorem rests_sendFailed (stopRequested : Bool) (call : Call) (error : ApiError) :
    (sendFailed stopRequested call error : Next M).1.Rests := by
  unfold sendFailed
  split
  · exact .registering _ _
  · exact rests_leave stopRequested call _

theorem rests_begin (C : Client M) (stopRequested : Bool) (connection : Option ℕ) (call : Call) :
    (begin C stopRequested connection call).1.Rests := by
  unfold begin
  split
  · exact .registering _ _
  · split
    · exact rests_sendFailed stopRequested call _
    · exact .sending _ _ _

theorem rests_succeed (C : Client M) (stopRequested : Bool) (connection : Option ℕ) (call : Call)
    (value : Value M) : (succeed C stopRequested connection call value).1.Rests := by
  unfold succeed
  split
  · exact rests_begin C stopRequested connection connectCall
  · exact rests_leave stopRequested call _

theorem rests_afterSend (C : Client M) (stopRequested : Bool) (connection : Option ℕ) (call : Call)
    (result : Result Unit) : (afterSend C stopRequested connection call result).1.Rests := by
  unfold afterSend
  split
  · exact rests_sendFailed stopRequested call _
  · split
    · exact rests_succeed C stopRequested connection call _
    · exact .registering _ _

theorem rests_afterWait (C : Client M) (stopRequested : Bool) (connection : Option ℕ) (call : Call)
    (collected : List M) (outcome : M ⊕ ErrorCode) :
    (afterWait C stopRequested connection call collected outcome).1.Rests := by
  unfold afterWait
  split
  · exact .registering _ _
  · exact rests_leave stopRequested call _
  · exact rests_succeed C stopRequested connection call _

/-- The outcome of a wait: with a timer both sides must have completed. -/
def Task.outcome? : Task M → Option (M ⊕ ErrorCode)
  | .waiting call _ race => if call.operation.timed then race.result? else race.left?.map .inl
  | _ => none

/-- The call whose completion handler has not been called yet. -/
def Task.openWait : Task M → Option Call
  | .waiting call _ race => if race.left?.isNone then some call else none
  | _ => none

@[simp] theorem openWait_heartbeatHead (stopRequested : Bool) :
    (heartbeatHead stopRequested : Task M).openWait = none := by
  cases stopRequested <;> rfl

/-- A coroutine that returns from an operation has no handler. -/
@[simp] theorem openWait_leave (stopRequested : Bool) (call : Call) (result : Result (Value M)) :
    (leave stopRequested call result).1.openWait = none := by
  rcases call with ⟨operation, caller⟩
  cases caller with
  | heartbeatLoop => exact openWait_heartbeatHead stopRequested
  | _ => rfl

@[simp] theorem openWait_sendFailed (stopRequested : Bool) (call : Call) (error : ApiError) :
    (sendFailed stopRequested call error : Next M).1.openWait = none := by
  unfold sendFailed
  split
  · rfl
  · exact openWait_leave stopRequested call _

/-- A coroutine that starts an operation has no handler yet. -/
@[simp] theorem openWait_begin (C : Client M) (stopRequested : Bool) (connection : Option ℕ)
    (call : Call) : (begin C stopRequested connection call).1.openWait = none := by
  unfold begin
  split
  · rfl
  · split
    · exact openWait_sendFailed stopRequested call _
    · rfl

@[simp] theorem openWait_succeed (C : Client M) (stopRequested : Bool) (connection : Option ℕ)
    (call : Call) (value : Value M) :
    (succeed C stopRequested connection call value).1.openWait = none := by
  unfold succeed
  split
  · exact openWait_begin C stopRequested connection connectCall
  · exact openWait_leave stopRequested call _

/-- A coroutine that goes on after a send has no handler yet. -/
@[simp] theorem openWait_afterSend (C : Client M) (stopRequested : Bool) (connection : Option ℕ)
    (call : Call) (result : Result Unit) :
    (afterSend C stopRequested connection call result).1.openWait = none := by
  unfold afterSend
  split
  · exact openWait_sendFailed stopRequested call _
  · split
    · exact openWait_succeed C stopRequested connection call _
    · rfl

/-- A coroutine that goes on after a wait has no handler. -/
@[simp] theorem openWait_afterWait (C : Client M) (stopRequested : Bool) (connection : Option ℕ)
    (call : Call) (collected : List M) (outcome : M ⊕ ErrorCode) :
    (afterWait C stopRequested connection call collected outcome).1.openWait = none := by
  unfold afterWait
  split
  · rfl
  · exact openWait_leave stopRequested call _
  · exact openWait_succeed C stopRequested connection call _

/-- The event has to do with neither the registry nor a handler. -/
def Event.Quiet : Event M → Prop
  | .registered _ => False
  | .dispatched _ => False
  | .received _ _ => False
  | _ => True

/-- The coroutine brings the event about on its own: it has to do with neither the socket nor the
registry. -/
def Event.Internal : Event M → Prop
  | .began _ => True
  | .greeted _ => True
  | .returned _ _ => True
  | .connectReturned _ => True
  | _ => False

/-- Internal events are quiet. -/
theorem Event.Internal.quiet {event : Event M} (h : event.Internal) : event.Quiet := by
  cases event with
  | began | greeted | returned | connectReturned | established | wrote => exact trivial
  | _ => exact h.elim

/-- Returning has internal events only. -/
theorem internal_leave (stopRequested : Bool) (call : Call) (result : Result (Value M)) :
    ∀ event ∈ (leave stopRequested call result).2, event.Internal := by
  rcases call with ⟨operation, caller⟩
  cases caller <;> simp [leave, Event.Internal]

/-- A failed send has internal events only. -/
theorem internal_sendFailed (stopRequested : Bool) (call : Call) (error : ApiError) :
    ∀ event ∈ (sendFailed stopRequested call error : Next M).2, event.Internal := by
  unfold sendFailed
  split
  · simp
  · exact internal_leave stopRequested call _

/-- Starting an operation has internal events only. -/
theorem internal_begin (C : Client M) (stopRequested : Bool) (connection : Option ℕ) (call : Call) :
    ∀ event ∈ (begin C stopRequested connection call).2, event.Internal := by
  unfold begin
  split
  · simp
  · split
    · exact internal_sendFailed stopRequested call _
    · simp [Event.Internal]

/-- Success has internal events only. -/
theorem internal_succeed (C : Client M) (stopRequested : Bool) (connection : Option ℕ) (call : Call)
    (value : Value M) :
    ∀ event ∈ (succeed C stopRequested connection call value).2, event.Internal := by
  unfold succeed
  split
  · intro event hevent
    rcases List.mem_cons.mp hevent with rfl | hbegin
    · exact trivial
    · exact internal_begin C stopRequested connection connectCall event hbegin
  · exact internal_leave stopRequested call _

/-- Going on after a send has internal events only. -/
theorem internal_afterSend (C : Client M) (stopRequested : Bool) (connection : Option ℕ)
    (call : Call) (result : Result Unit) :
    ∀ event ∈ (afterSend C stopRequested connection call result).2, event.Internal := by
  unfold afterSend
  split
  · exact internal_sendFailed stopRequested call _
  · split
    · exact internal_succeed C stopRequested connection call _
    · simp

/-- Going on after a wait has internal events only. -/
theorem internal_afterWait (C : Client M) (stopRequested : Bool) (connection : Option ℕ)
    (call : Call) (collected : List M) (outcome : M ⊕ ErrorCode) :
    ∀ event ∈ (afterWait C stopRequested connection call collected outcome).2, event.Internal := by
  unfold afterWait
  split
  · simp
  · exact internal_leave stopRequested call _
  · intro event hevent
    rcases List.mem_append.mp hevent with hgreeting | hsucceed
    · unfold greeting at hgreeting
      split at hgreeting
      · rw [List.mem_singleton.mp hgreeting]
        exact trivial
      · simp at hgreeting
    · exact internal_succeed C stopRequested connection call _ event hsucceed

end EspHomeApi
