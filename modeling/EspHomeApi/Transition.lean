import EspHomeApi.Connection

/-!
# What a step of the connection can do

Every step is of one of a few kinds. Most of them move a single coroutine and leave the socket
and the registry alone. The invariants are proved from these kinds.
-/

namespace EspHomeApi

variable {M : Type} {C : Client M}

/-- The moves of a coroutine that leave the socket and the registry alone. -/
inductive Moves (C : Client M) (stopRequested : Bool) (socket : Socket) :
    Task M → Next M → Prop where
  | resolveFailed (error : ApiError) :
    Moves C stopRequested socket .resolving (.ended, [.connectReturned (.error error)])
  | connectFailed : Moves C stopRequested socket .connecting (.undefined, [])
  | sentNothing {call : Call} {packet : Bytes} {connection : Option ℕ}
    {race race' : TimedOperation ℕ} {error : ErrorCode}
    (hrace : race.completeLeft (error, 0) = some race') :
    Moves C stopRequested socket (.sending call packet connection race)
      (.sending call packet connection race', [])
  | sentBytes {call : Call} {packet : Bytes} {current count : ℕ}
    {race race' : TimedOperation ℕ} {error : ErrorCode}
    (hrace : race.completeLeft (error, count) = some race') (hcount : count ≠ 0)
    (hlength : count ≤ packet.length) (hsocket : socket = .connected current) :
    Moves C stopRequested socket (.sending call packet (some current) race)
      (.sending call packet (some current) race', [.wrote call current packet count])
  | sendExpired {call : Call} {packet : Bytes} {connection : Option ℕ}
    {race race' : TimedOperation ℕ} {error : ErrorCode}
    (hrace : race.completeRight error = some race') :
    Moves C stopRequested socket (.sending call packet connection race)
      (.sending call packet connection race', [])
  | waitExpired {call : Call} {collected : List M} {race race' : Race M ErrorCode}
    {error : ErrorCode} (htimed : call.operation.timed = true)
    (hrace : race.completeRight error = some race') :
    Moves C stopRequested socket (.waiting call collected race)
      (.waiting call collected race', [])
  | sendOver {call : Call} {packet : Bytes} {connection : Option ℕ} {race : TimedOperation ℕ}
    {written : Except ErrorCode ℕ} (hresult : TimedOperation.result? race = some written) :
    Moves C stopRequested socket (.sending call packet connection race)
      (afterSend C stopRequested socket.connection? call (sendMessageResult packet written))
  | waitOver {call : Call} {collected : List M} {race : Race M ErrorCode} {outcome : M ⊕ ErrorCode}
    (houtcome : (Task.waiting call collected race).outcome? = some outcome) :
    Moves C stopRequested socket (.waiting call collected race)
      (afterWait C stopRequested socket.connection? call collected outcome)
  | stopped (hstop : stopRequested = true) : Moves C stopRequested socket .sleeping (.ended, [])
  | woken : Moves C stopRequested socket .sleeping
      (begin C stopRequested socket.connection? pingCall)
  | receiveFailed : Moves C stopRequested socket .listening (.ended, [])
  | received (messages : List M) :
    Moves C stopRequested socket .listening (.dispatching messages, [])
  | dispatchedAll : Moves C stopRequested socket (.dispatching []) (.listening, [])

/-- A call that a user of the library can make. -/
def Call.FromUser (C : Client M) (call : Call) : Prop :=
  (call.caller = .user ∧ call.operation ≠ .ping) ∨
    (call.caller = .consumer ∧ call.operation.request C = none)

/-- The kinds of steps. -/
inductive Transition (C : Client M) (s : State M) : State M → Prop where
  | move {task : ℕ} {next : Next M} (hmove : Moves C s.stopRequested s.socket (s.tasks task) next) :
    Transition C s (s.move C task next)
  | connect : Transition C s (s.spawn C (.resolving, []))
  | call {call : Call} (hcall : call.FromUser C) : Transition C s (s.call C call)
  | resolved {task : ℕ} (htask : s.tasks task = .resolving) :
    Transition C s ({ s with socket := .opened }.move C task (.connecting, []))
  | connected {task : ℕ} {s' : State M} (htask : s.tasks task = .connecting)
    (hstep : s.connected C task (.ok ()) = some s') : Transition C s s'
  | register {task : ℕ} {call : Call} {collected : List M}
    (htask : s.tasks task = .registering call collected) :
    Transition C s ({ s with registry := s.registry.register ⟨task, call⟩ }.move C task
      (.waiting call collected .waiting, [.registered call]))
  | dispatch {task : ℕ} {message : M} {messages : List M} {registry : Registry Owner M}
    (htask : s.tasks task = .dispatching (message :: messages))
    (hregistry : s.registry.dispatch message = some registry) :
    Transition C s ({ s with registry := registry }.move C task
      (.dispatching messages, [.dispatched message]))
  | submit {registry : Registry Owner M} (hregistry : s.registry.submit = some registry) :
    Transition C s { s with registry := registry }
  | execute {index : ℕ} {handler : Handler Owner} {message : M} {registry : Registry Owner M}
    {call : Call} {collected : List M} {race race' : Race M ErrorCode}
    (hindex : s.registry.submitted[index]? = some (handler, message))
    (hregistry : s.registry.execute index = some registry)
    (htask : s.tasks handler.owner.task = .waiting call collected race)
    (hrace : race.completeLeft message = some race') :
    Transition C s ({ s with registry := registry }.move C handler.owner.task
      (.waiting call collected race', [.received call message]))
  | cancel : Transition C s { s with stopRequested := true, socket := .closed }

/-- Moves are quiet. -/
theorem Moves.quiet {stopRequested : Bool} {socket : Socket} {task : Task M} {next : Next M}
    (h : Moves C stopRequested socket task next) : ∀ event ∈ next.2, event.Quiet := by
  cases h with
  | sendOver hresult =>
    exact fun event hevent => (internal_afterSend C stopRequested _ _ _ event hevent).quiet
  | waitOver houtcome =>
    exact fun event hevent => (internal_afterWait C stopRequested _ _ _ _ event hevent).quiet
  | woken =>
    exact fun event hevent => (internal_begin C stopRequested _ pingCall event hevent).quiet
  | _ => simp [Event.Quiet]

end EspHomeApi
