import EspHomeApi.Coroutine
import EspHomeApi.Registry
import EspHomeApi.ReceiveLoop
import Mathlib.Logic.Function.Basic

/-!
# The connection

The coroutines of a connection share the socket, the registry of completion handlers, the name
and version of the device and the request to stop. An action lets one of them go on, or lets an
operation in flight complete; actions come in any order.
-/

namespace EspHomeApi

variable {M : Type}

/-- The socket, with the number of the TCP connection that it is connected by. -/
inductive Socket where
  | closed
  | opened
  | connected (connection : ℕ)
  deriving DecidableEq

/-- The TCP connection of a socket. -/
def Socket.connection? : Socket → Option ℕ
  | .connected connection => some connection
  | _ => none

/-- The version of the protocol that the device speaks. -/
structure ApiVersion where
  major : ℕ
  minor : ℕ
  deriving DecidableEq

/-- The coroutine and the call that a completion handler belongs to. -/
structure Owner where
  task : ℕ
  call : Call
  deriving DecidableEq

/-- An `ApiConnection` with its coroutines, numbered in the order they were started.

`connections` counts the TCP connections made so far, and `log` is the history. -/
structure State (M : Type) where
  socket : Socket
  connections : ℕ
  registry : Registry Owner M
  tasks : ℕ → Task M
  started : ℕ
  deviceName : Bytes
  apiVersion : Option ApiVersion
  stopRequested : Bool
  log : List (ℕ × Event M)

/-- A new `ApiConnection`. -/
def State.init : State M :=
  ⟨.closed, 0, .empty, fun _ => .idle, 0, [], none, false, []⟩

/-- The last message among the events that the name and version were set from. -/
def lastGreeting (events : List (Event M)) : Option M :=
  events.reverse.findSome? fun
    | .greeted message => some message
    | _ => none

/-- A coroutine goes on to its next suspension. -/
def State.move (C : Client M) (s : State M) (task : ℕ) (next : Next M) : State M :=
  { s with
    tasks := Function.update s.tasks task next.1
    deviceName := (lastGreeting next.2).elim s.deviceName C.name
    apiVersion := (lastGreeting next.2).elim s.apiVersion fun message =>
      some ⟨C.apiVersionMajor message, C.apiVersionMinor message⟩
    log := s.log ++ next.2.map fun event => (task, event) }

/-- A coroutine is started, and runs to its first suspension. -/
def State.spawn (C : Client M) (s : State M) (next : Next M) : State M :=
  { s with started := s.started + 1 }.move C s.started next

/-- An operation is called. -/
def State.call (C : Client M) (s : State M) (call : Call) : State M :=
  s.spawn C (begin C s.stopRequested s.socket.connection? call)

/-- What may happen next. -/
inductive Action where
  /-- A user calls `connect`. -/
  | connect
  /-- A user calls another operation. -/
  | call (operation : Operation)
  /-- A user starts a loop that calls a receiving operation over and over. -/
  | consume (operation : Operation)
  /-- The host of `connect` is resolved. -/
  | resolved (task : ℕ) (outcome : Except ErrorCode Unit)
  /-- The TCP connection of `connect` is made. -/
  | connected (task : ℕ) (outcome : Except ErrorCode Unit)
  /-- `async_send` completes, the socket having taken some bytes. -/
  | sent (task : ℕ) (error : ErrorCode) (count : ℕ)
  /-- The timer of a send or of a `receive_message` completes. -/
  | expired (task : ℕ) (error : ErrorCode)
  /-- A coroutine goes on after a send or a wait. -/
  | resume (task : ℕ)
  /-- A coroutine registers a completion handler. -/
  | register (task : ℕ)
  /-- The timer of `heartbeat_loop` completes. -/
  | woken (task : ℕ)
  /-- `receiveFrom` returns to `receive_loop`. -/
  | received (task : ℕ) (outcome : Except ErrorCode Bytes)
  /-- `receive_loop` dispatches its next message, or goes back to receiving. -/
  | dispatch (task : ℕ)
  /-- The dispatch lambda submits its next handler. -/
  | submit
  /-- A submitted handler runs. -/
  | execute (index : ℕ)
  /-- A user calls `cancel`. -/
  | cancel

/-- `resolveHostEndpoints` returns; `connectTo` closes the socket and opens it again. -/
def State.resolved (C : Client M) (s : State M) (task : ℕ) (outcome : Except ErrorCode Unit) :
    Option (State M) :=
  match s.tasks task, outcome with
  | .resolving, .ok () => some ({ s with socket := .opened }.move C task (.connecting, []))
  | .resolving, .error error =>
    let hostname := C.hostname
    let port := C.port
    let message := error.message
    some (s.move C task (.ended, [.connectReturned (makeUnexpectedResult .unexpectedMessage
      s!"Could not resolve host {hostname}:{port}. Failed with error: {message}")]))
  | _, _ => none

/-- `connectTo` returns. `connect` starts the two loops and goes on with the handshake.

A loop that starts after a stop was requested closes the socket. Without a connection, the text
of the error is made from the address of an endpoint that is not there. -/
def State.connected (C : Client M) (s : State M) (task : ℕ) (outcome : Except ErrorCode Unit) :
    Option (State M) :=
  match s.tasks task, outcome with
  | .connecting, .ok () =>
    let socket := if s.stopRequested then .closed else .connected s.connections
    let next := begin C s.stopRequested socket.connection? helloCall
    let tasks := Function.update (Function.update s.tasks s.started .listening)
      (s.started + 1) (heartbeatHead s.stopRequested)
    some ({ s with
      socket := socket
      connections := s.connections + 1
      tasks := tasks
      started := s.started + 2 }.move C task
        (next.1, .established s.connections s.started (s.started + 1) :: next.2))
  | .connecting, .error _ => some (s.move C task (.undefined, []))
  | _, _ => none

/-- `async_send` completes. Bytes go out on the connection that the send was started on. -/
def State.sent (C : Client M) (s : State M) (task : ℕ) (error : ErrorCode) (count : ℕ) :
    Option (State M) :=
  match s.tasks task with
  | .sending call packet connection race =>
    (race.completeLeft (error, count)).bind fun race =>
      if count = 0 then some (s.move C task (.sending call packet connection race, []))
      else
        match s.socket with
        | .connected current =>
          if connection = some current ∧ count ≤ packet.length then
            some (s.move C task
              (.sending call packet connection race, [.wrote call current packet count]))
          else none
        | _ => none
  | _ => none

/-- The timer of a send or of a `receive_message` completes. -/
def State.expired (C : Client M) (s : State M) (task : ℕ) (error : ErrorCode) : Option (State M) :=
  match s.tasks task with
  | .sending call packet connection race =>
    (race.completeRight error).map fun race =>
      s.move C task (.sending call packet connection race, [])
  | .waiting call collected race =>
    if call.operation.timed then
      (race.completeRight error).map fun race => s.move C task (.waiting call collected race, [])
    else none
  | _ => none

/-- A coroutine goes on after a send or a wait. -/
def State.resume (C : Client M) (s : State M) (task : ℕ) : Option (State M) :=
  match s.tasks task with
  | .sending call packet _ race =>
    (TimedOperation.result? race).map fun written =>
      s.move C task (afterSend C s.stopRequested s.socket.connection? call
        (sendMessageResult packet written))
  | .waiting call collected race =>
    (Task.waiting call collected race).outcome?.map fun outcome =>
      s.move C task
        (afterWait C s.stopRequested s.socket.connection? call collected outcome)
  | _ => none

/-- A coroutine registers a completion handler. -/
def State.register (C : Client M) (s : State M) (task : ℕ) : Option (State M) :=
  match s.tasks task with
  | .registering call collected =>
    some ({ s with registry := s.registry.register ⟨task, call⟩ }.move C task
      (.waiting call collected .waiting, [.registered call]))
  | _ => none

/-- The timer of `heartbeat_loop` completes. A stop cancels it, and the exception ends the loop. -/
def State.woken (C : Client M) (s : State M) (task : ℕ) : Option (State M) :=
  match s.tasks task with
  | .sleeping =>
    if s.stopRequested then some (s.move C task (.ended, []))
    else some (s.move C task (begin C s.stopRequested s.socket.connection? pingCall))
  | _ => none

/-- `receiveFrom` returns to `receive_loop`.

Bytes that had come before the socket was closed may be handed out afterwards, so this does not look
at the socket. -/
def State.received (C : Client M) (s : State M) (task : ℕ) (outcome : Except ErrorCode Bytes) :
    Option (State M) :=
  match s.tasks task, outcome with
  | .listening, .error _ => some (s.move C task (.ended, []))
  | .listening, .ok chunk =>
    if chunk ≠ [] ∧ chunk.length ≤ receiveBufferSize then
      some (s.move C task
        (.dispatching (decodeMultiple C.toProtobuf receiveLoopTypes chunk).1, []))
    else none
  | _, _ => none

/-- `receive_loop` dispatches its next message, or goes back to receiving. -/
def State.dispatch (C : Client M) (s : State M) (task : ℕ) : Option (State M) :=
  match s.tasks task with
  | .dispatching [] => some (s.move C task (.listening, []))
  | .dispatching (message :: messages) =>
    (s.registry.dispatch message).map fun registry =>
      { s with registry := registry }.move C task (.dispatching messages, [.dispatched message])
  | _ => none

/-- A submitted handler runs, and completes the wait of the call it belongs to. -/
def State.execute (C : Client M) (s : State M) (index : ℕ) : Option (State M) :=
  match s.registry.submitted[index]?, s.registry.execute index with
  | some (handler, message), some registry =>
    match s.tasks handler.owner.task with
    | .waiting call collected race =>
      (race.completeLeft message).map fun race =>
        { s with registry := registry }.move C handler.owner.task
          (.waiting call collected race, [.received call message])
    | _ => none
  | _, _ => none

/-- One action on the connection. -/
def State.step (C : Client M) (s : State M) : Action → Option (State M)
  | .connect => some (s.spawn C (.resolving, []))
  | .call operation => if operation = .ping then none else some (s.call C ⟨operation, .user⟩)
  | .consume operation =>
    if (operation.request C).isNone then some (s.call C ⟨operation, .consumer⟩) else none
  | .resolved task outcome => s.resolved C task outcome
  | .connected task outcome => s.connected C task outcome
  | .sent task error count => s.sent C task error count
  | .expired task error => s.expired C task error
  | .resume task => s.resume C task
  | .register task => s.register C task
  | .woken task => s.woken C task
  | .received task outcome => s.received C task outcome
  | .dispatch task => s.dispatch C task
  | .submit => s.registry.submit.map fun registry => { s with registry := registry }
  | .execute index => s.execute C index
  | .cancel => some { s with stopRequested := true, socket := .closed }

section Move

variable (C : Client M) (s : State M) (task : ℕ) (next : Next M)

@[simp] theorem move_socket : (s.move C task next).socket = s.socket := rfl

@[simp] theorem move_connections : (s.move C task next).connections = s.connections := rfl

@[simp] theorem move_registry : (s.move C task next).registry = s.registry := rfl

@[simp] theorem move_tasks : (s.move C task next).tasks = Function.update s.tasks task next.1 := rfl

@[simp] theorem move_started : (s.move C task next).started = s.started := rfl

@[simp] theorem move_stopRequested : (s.move C task next).stopRequested = s.stopRequested := rfl

@[simp] theorem move_log :
    (s.move C task next).log = s.log ++ next.2.map fun event => (task, event) := rfl

/-- Spawning is a move of a new coroutine. -/
theorem spawn_eq : s.spawn C next = { s with started := s.started + 1 }.move C s.started next := rfl

end Move

end EspHomeApi
