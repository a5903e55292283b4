import EspHomeApi.Coupling

/-!
# What the history of a connection says

The invariants behind the order of the events of a call: a wait of a call that sends a request
comes after the request was written in full, the messages that its handlers are called with were
dispatched after that, and `connect` sends its password only after it was greeted.
-/

namespace EspHomeApi

open Run

variable {M : Type} {C : Client M} {s s' : State M} {task : ℕ} {log : List (ℕ × Event M)}

/-- Whether the operation waits only after its send has succeeded. -/
def Operation.requiresSend : Operation → Bool
  | .ping => false
  | .receiveLog => false
  | .receiveState => false
  | _ => true

/-- The packet is that of the request of the call. -/
def Serialized (C : Client M) (call : Call) (packet : Bytes) : Prop :=
  ∃ message, call.operation.request C = some message ∧ serialize C.toProtobuf message = .ok packet

/-- The messages that handlers of the coroutine were called with. -/
def receivedBy (task : ℕ) (log : List (ℕ × Event M)) : List M :=
  log.filterMap fun
    | (other, .received _ message) => if other = task then some message else none
    | _ => none

/-- The request was written in full, and these messages were received since. -/
def Pending (C : Client M) (log : List (ℕ × Event M)) (task : ℕ) (call : Call)
    (messages : List M) : Prop :=
  ∃ before connection packet after, Serialized C call packet ∧
    log = before ++ (task, .wrote call connection packet packet.length) :: after ∧
    receivedBy task after = messages

/-- These events happened in this order, after the request of the call was written in full. -/
def FollowsRequest (C : Client M) (log : List (ℕ × Event M)) (task : ℕ) (call : Call)
    (events : List (ℕ × Event M)) : Prop :=
  ∃ connection packet, Serialized C call packet ∧
    ((task, .wrote call connection packet packet.length) :: events).Sublist log

/-- `connect` was greeted: it wrote its HelloRequest in full, and took the name and the version from
a HelloResponse that was dispatched after that and handed to it. -/
def GreetedBy (C : Client M) (log : List (ℕ × Event M)) (task : ℕ) (message : M) : Prop :=
  C.holdsMessage .helloResponse message = true ∧
    ∃ receiver, FollowsRequest C log task helloCall
      [(receiver, .dispatched message), (task, .received helloCall message),
        (task, .greeted message)]

/-- The first ConnectResponse that was received after the ConnectRequest had been written in full
accepts the password. -/
def Authenticated (C : Client M) (log : List (ℕ × Event M)) (task : ℕ) : Prop :=
  ∃ messages message, Pending C log task connectCall messages ∧
    messages.find? (fun message => C.holdsMessage .connectResponse message) = some message ∧
    C.invalidPassword message = false

/-- The message is not of the type that the call waits for. -/
def Rejected (C : Client M) (call : Call) (message : M) : Prop :=
  ∀ type, call.operation.expects = .message type → C.holdsMessage type message = false

/-- The calls that there are: consumers do not send, and `connect` makes two calls. -/
structure Call.WellFormed (call : Call) : Prop where
  consumer : call.caller = .consumer → call.operation.requiresSend = false
  connect : call.caller = .connect → call = helloCall ∨ call = connectCall

/-- What holds while a call waits for messages, up to the last one it received. -/
structure WaitOk (C : Client M) (log : List (ℕ × Event M)) (task : ℕ) (call : Call)
    (last : List M) : Prop where
  wellFormed : call.WellFormed
  pending : call.operation.requiresSend = true →
    ∃ messages, Pending C log task call (messages ++ last) ∧
      ∀ message ∈ messages, Rejected C call message

/-- What holds while a call waits for its send. -/
structure SendOk (C : Client M) (log : List (ℕ × Event M)) (task : ℕ) (call : Call)
    (packet : Bytes) (race : TimedOperation ℕ) : Prop where
  wellFormed : call.WellFormed
  serialized : Serialized C call packet
  pending : ∀ error, race.left? = some (error, packet.length) → Pending C log task call []
  began : (task, .began call) ∈ log

/-- The invariant of a coroutine. -/
def TaskOk (C : Client M) (log : List (ℕ × Event M)) (task : ℕ) : Task M → Prop
  | .sending call packet _ race => SendOk C log task call packet race
  | .registering call _ => WaitOk C log task call []
  | .waiting call _ race => WaitOk C log task call race.left?.toList ∧
      ∀ message, race.left? = some message → call.operation.requiresSend = true →
        ∃ receiver, FollowsRequest C log task call
          [(receiver, .dispatched message), (task, .received call message)]
  | _ => True

/-- What an event tells about the history before it. -/
def EventOk (C : Client M) (log : List (ℕ × Event M)) (task : ℕ) : Event M → Prop
  | .began call => call = connectCall →
      ∃ message, GreetedBy C log task message ∧ lastGreeting (log.map Prod.snd) = some message
  | .wrote call _ packet count => Serialized C call packet ∧ 0 < count ∧ count ≤ packet.length ∧
      (task, .began call) ∈ log
  | .returned call (.ok _) =>
      call.operation.requiresSend = true → FollowsRequest C log task call []
  | .connectReturned (.ok _) => Authenticated C log task
  | _ => True

/-- Every event tells the truth about the history before it. -/
def LogOk (C : Client M) (log : List (ℕ × Event M)) : Prop :=
  ∀ before task event after, log = before ++ (task, event) :: after → EventOk C before task event

/-- The events of a coroutine, one after the other, tell the truth. -/
def EventsOk (C : Client M) (log : List (ℕ × Event M)) (task : ℕ) : List (Event M) → Prop
  | [] => True
  | event :: events => EventOk C log task event ∧ EventsOk C (log ++ [(task, event)]) task events

/-- The next suspension of a coroutine and the events up to it keep the invariants. -/
def NextOk (C : Client M) (log : List (ℕ × Event M)) (task : ℕ) (next : Next M) : Prop :=
  EventsOk C log task next.2 ∧ TaskOk C (log ++ next.2.map fun event => (task, event)) task next.1

/-- The invariant of the history of a connection. -/
structure State.Faithful (C : Client M) (s : State M) : Prop where
  log : LogOk C s.log
  tasks : ∀ task, TaskOk C s.log task (s.tasks task)
  handlers : ∀ handler ∈ s.registry.handlers, handler.owner.call.operation.requiresSend = true →
    FollowsRequest C s.log handler.owner.task handler.owner.call []
  entries : ∀ entry ∈ s.registry.submitted ++ s.registry.draining,
    entry.1.owner.call.operation.requiresSend = true →
      ∃ receiver, FollowsRequest C s.log entry.1.owner.task entry.1.owner.call
        [(receiver, .dispatched entry.2)]

/-- The order of events does not change as the history goes on. -/
theorem FollowsRequest.append {call : Call} {events : List (ℕ × Event M)}
    (h : FollowsRequest C log task call events) (more : List (ℕ × Event M)) :
    FollowsRequest C (log ++ more) task call events := by
  obtain ⟨connection, packet, hserialized, hsublist⟩ := h
  exact ⟨connection, packet, hserialized, hsublist.trans (List.sublist_append_left log more)⟩

/-- A new event comes after everything before it. -/
theorem FollowsRequest.concat {call : Call} {events : List (ℕ × Event M)}
    (h : FollowsRequest C log task call events) (entry : ℕ × Event M) :
    FollowsRequest C (log ++ [entry]) task call (events ++ [entry]) := by
  obtain ⟨connection, packet, hserialized, hsublist⟩ := h
  exact ⟨connection, packet, hserialized, hsublist.append (List.Sublist.refl [entry])⟩

/-- Having been greeted stays true. -/
theorem GreetedBy.append {message : M} (h : GreetedBy C log task message)
    (more : List (ℕ × Event M)) : GreetedBy C (log ++ more) task message := by
  obtain ⟨hholds, receiver, hfollows⟩ := h
  exact ⟨hholds, receiver, hfollows.append more⟩

@[simp] theorem receivedBy_append (left right : List (ℕ × Event M)) :
    receivedBy task (left ++ right) = receivedBy task left ++ receivedBy task right :=
  List.filterMap_append

/-- A pending request collects what is received. -/
theorem Pending.append {call : Call} {messages : List M} (h : Pending C log task call messages)
    (more : List (ℕ × Event M)) :
    Pending C (log ++ more) task call (messages ++ receivedBy task more) := by
  obtain ⟨before, connection, packet, after, hserialized, rfl, hreceived⟩ := h
  refine ⟨before, connection, packet, after ++ more, hserialized, ?_, ?_⟩
  · rw [List.append_assoc, List.cons_append]
  · rw [receivedBy_append, hreceived]

/-- A pending request was written in full. -/
theorem Pending.followsRequest {call : Call} {messages : List M}
    (h : Pending C log task call messages) : FollowsRequest C log task call [] := by
  obtain ⟨before, connection, packet, after, hserialized, rfl, -⟩ := h
  refine ⟨connection, packet, hserialized, ?_⟩
  rw [List.singleton_sublist]
  exact List.mem_append_right _ List.mem_cons_self

/-- A wait goes on through events that hand nothing to the coroutine. -/
theorem WaitOk.append {call : Call} {last : List M} (h : WaitOk C log task call last)
    {more : List (ℕ × Event M)} (hmore : receivedBy task more = []) :
    WaitOk C (log ++ more) task call last where
  wellFormed := h.wellFormed
  pending hsend := by
    obtain ⟨messages, hpending, hrejected⟩ := h.pending hsend
    have hlater := hpending.append more
    rw [hmore, List.append_nil] at hlater
    exact ⟨messages, hlater, hrejected⟩

/-- A send goes on through events that hand nothing to the coroutine. -/
theorem SendOk.append {call : Call} {packet : Bytes} {race : TimedOperation ℕ}
    (h : SendOk C log task call packet race) {more : List (ℕ × Event M)}
    (hmore : receivedBy task more = []) : SendOk C (log ++ more) task call packet race where
  wellFormed := h.wellFormed
  serialized := h.serialized
  pending error hleft := by
    have hlater := (h.pending error hleft).append more
    rwa [hmore] at hlater
  began := List.mem_append_left more h.began

/-- The invariant of a coroutine holds through events that hand nothing to it. -/
theorem TaskOk.append {t : Task M} (h : TaskOk C log task t) {more : List (ℕ × Event M)}
    (hmore : receivedBy task more = []) : TaskOk C (log ++ more) task t := by
  cases t with
  | sending call packet connection race => exact SendOk.append h hmore
  | registering call collected => exact WaitOk.append h hmore
  | waiting call collected race =>
    refine ⟨h.1.append hmore, fun message hleft hsend => ?_⟩
    obtain ⟨receiver, hfollows⟩ := h.2 message hleft hsend
    exact ⟨receiver, hfollows.append more⟩
  | _ => exact trivial

/-- Events of another coroutine hand nothing to this one. -/
theorem receivedBy_of_ne {other : ℕ} (hother : other ≠ task) (events : List (Event M)) :
    receivedBy task (events.map fun event => (other, event)) = [] := by
  rw [receivedBy, List.filterMap_map, List.filterMap_eq_nil_iff]
  intro event _
  simp only [Function.comp_apply]
  split
  · rename_i heq
    rw [Prod.mk.injEq] at heq
    rw [if_neg (heq.1 ▸ hother)]
  · rfl

/-- A history that tells the truth is continued by events that do. -/
theorem LogOk.append (h : LogOk C log) {events : List (Event M)}
    (hevents : EventsOk C log task events) :
    LogOk C (log ++ events.map fun event => (task, event)) := by
  induction events generalizing log with
  | nil => rwa [List.map_nil, List.append_nil]
  | cons event events ih =>
    have hone : LogOk C (log ++ [(task, event)]) := by
      intro before other later after heq
      rcases split_concat heq with ⟨hnew, rfl⟩ | ⟨rest, hold⟩
      · rw [Prod.mk.injEq] at hnew
        rw [← hnew.1, ← hnew.2]
        exact hevents.1
      · exact h before other later rest hold
    have hall := ih hone hevents.2
    rwa [List.append_assoc, List.singleton_append] at hall

/-- A suspension without events keeps the invariants if the coroutine's invariant holds. -/
theorem NextOk.of_task {t : Task M} (h : TaskOk C log task t) : NextOk C log task (t, []) := by
  refine ⟨trivial, ?_⟩
  rwa [List.map_nil, List.append_nil]

/-- One event more, in front of the others, keeps the invariants if it tells the truth. -/
theorem NextOk.cons {event : Event M} {next : Next M} (hevent : EventOk C log task event)
    (h : NextOk C (log ++ [(task, event)]) task next) :
    NextOk C log task (next.1, event :: next.2) := by
  refine ⟨⟨hevent, h.1⟩, ?_⟩
  have htask := h.2
  rwa [List.append_assoc, List.singleton_append] at htask

/-- A handler is registered without further ado only by calls that need no send. -/
theorem WaitOk.of_not_requiresSend {call : Call} (hcall : call.WellFormed)
    (hsend : call.operation.requiresSend = false) : WaitOk C log task call [] where
  wellFormed := hcall
  pending h := by
    rw [hsend] at h
    exact absurd h (by decide)

/-- Returning from an operation keeps the invariants. -/
theorem nextOk_leave {call : Call} (hcall : call.WellFormed) (stopRequested : Bool)
    {result : Result (Value M)} (hevents : EventsOk C log task (leave stopRequested call result).2) :
    NextOk C log task (leave stopRequested call result) := by
  refine ⟨hevents, ?_⟩
  cases hcaller : call.caller with
  | consumer =>
    have hwait : WaitOk C log task call [] :=
      WaitOk.of_not_requiresSend hcall (hcall.consumer hcaller)
    simp only [leave, hcaller]
    exact hwait.append rfl
  | heartbeatLoop =>
    simp only [leave, hcaller]
    cases stopRequested <;> exact trivial
  | _ =>
    simp only [leave, hcaller]
    exact trivial

/-- Returning an error keeps the invariants. -/
theorem nextOk_leave_error {call : Call} (hcall : call.WellFormed) (stopRequested : Bool)
    (error : ApiError) : NextOk C log task (leave stopRequested call (.error error)) := by
  apply nextOk_leave hcall
  cases hcaller : call.caller <;> simp [leave, hcaller, EventsOk, EventOk, Except.map]

/-- Returning a value keeps the invariants, after a send in full where there is one, and from
`connect` only once it is authenticated. -/
theorem nextOk_leave_ok {call : Call} (hcall : call.WellFormed) (stopRequested : Bool)
    (value : Value M)
    (hsent : call.operation.requiresSend = true → FollowsRequest C log task call [])
    (hconnect : call.caller = .connect → Authenticated C log task) :
    NextOk C log task (leave stopRequested call (.ok value)) := by
  apply nextOk_leave hcall
  cases hcaller : call.caller with
  | connect =>
    simp only [leave, hcaller, EventsOk, EventOk, and_true]
    refine ⟨hsent, ?_⟩
    obtain ⟨messages, message, hpending, hfirst, hvalid⟩ := hconnect hcaller
    have hlater := hpending.append [(task, .returned call (.ok value))]
    have hnone : receivedBy task [(task, Event.returned call (.ok value))] = [] := rfl
    rw [hnone, List.append_nil] at hlater
    exact ⟨messages, message, hlater, hfirst, hvalid⟩
  | _ =>
    simp only [leave, hcaller, EventsOk, EventOk, and_true]
    exact hsent

/-- A failed send keeps the invariants. -/
theorem nextOk_sendFailed {call : Call} (hcall : call.WellFormed) (stopRequested : Bool)
    (error : ApiError) : NextOk C log task (sendFailed stopRequested call error) := by
  unfold sendFailed
  split
  · rename_i hping
    have hwait : WaitOk C log task call [] :=
      WaitOk.of_not_requiresSend hcall (by rw [hping]; rfl)
    exact NextOk.of_task hwait
  · exact nextOk_leave_error hcall stopRequested error

/-- An operation that sends nothing requires no send. -/
theorem requiresSend_of_request_none {operation : Operation} (h : operation.request C = none) :
    operation.requiresSend = false := by
  cases operation <;> first | rfl | simp [Operation.request] at h

/-- Starting an operation keeps the invariants; the ConnectRequest comes right after a greeting. -/
theorem nextOk_begin {call : Call} (hcall : call.WellFormed) (stopRequested : Bool)
    (connection : Option ℕ)
    (hgreeted : call = connectCall →
      ∃ message, GreetedBy C log task message ∧ lastGreeting (log.map Prod.snd) = some message) :
    NextOk C log task (begin C stopRequested connection call) := by
  unfold begin
  split
  · rename_i hnone
    have hwait : WaitOk C log task call [] :=
      WaitOk.of_not_requiresSend hcall (requiresSend_of_request_none hnone)
    exact NextOk.of_task hwait
  · rename_i message hrequest
    split
    · exact nextOk_sendFailed hcall stopRequested _
    · rename_i packet hpacket
      refine ⟨⟨hgreeted, trivial⟩, hcall, ⟨message, hrequest, hpacket⟩, ?_, ?_⟩
      · intro error hleft
        simp [Race.left?] at hleft
      · exact List.mem_append_right log List.mem_cons_self

/-- Success keeps the invariants. -/
theorem nextOk_succeed {call : Call} (hcall : call.WellFormed) (stopRequested : Bool)
    (connection : Option ℕ) (value : Value M)
    (hsent : call.operation.requiresSend = true → FollowsRequest C log task call [])
    (hgreeted : call = helloCall →
      ∃ message, GreetedBy C log task message ∧ lastGreeting (log.map Prod.snd) = some message)
    (hconnect : call = connectCall → Authenticated C log task) :
    NextOk C log task (succeed C stopRequested connection call value) := by
  unfold succeed
  split
  · rename_i hhello
    obtain ⟨message, hmessage, hlast⟩ := hgreeted hhello
    have hbegin : NextOk C (log ++ [(task, .returned call (.ok value))]) task
        (begin C stopRequested connection connectCall) := by
      refine nextOk_begin ⟨by simp [connectCall], fun _ => Or.inr rfl⟩ _ _ fun _ => ?_
      refine ⟨message, hmessage.append _, ?_⟩
      simpa [lastGreeting] using hlast
    exact NextOk.cons hsent hbegin
  · rename_i hhello
    refine nextOk_leave_ok hcall _ _ hsent fun hcaller => ?_
    rcases hcall.connect hcaller with h | h
    · exact absurd h hhello
    · exact hconnect h

/-- Going on after a send keeps the invariants. -/
theorem SendOk.nextOk {call : Call} {packet : Bytes} {race : TimedOperation ℕ}
    (h : SendOk C log task call packet race) {written : Except ErrorCode ℕ}
    (hresult : TimedOperation.result? race = some written) (stopRequested : Bool)
    (connection : Option ℕ) :
    NextOk C log task
      (afterSend C stopRequested connection call (sendMessageResult packet written)) := by
  unfold afterSend
  split
  · exact nextOk_sendFailed h.wellFormed stopRequested _
  · rename_i hok
    rw [sendMessageResult_eq_ok hok] at hresult
    obtain ⟨error, -, hleft⟩ := left?_of_result?_ok hresult
    have hpending := h.pending error hleft
    split
    · rename_i hnothing
      refine nextOk_succeed h.wellFormed _ _ _ (fun _ => hpending.followsRequest) ?_ ?_
      · rintro rfl
        simp [helloCall, Operation.expects] at hnothing
      · rintro rfl
        simp [connectCall, Operation.expects] at hnothing
    · have hwait : WaitOk C log task call [] :=
        ⟨h.wellFormed, fun _ => ⟨[], hpending, by simp⟩⟩
      exact NextOk.of_task hwait

/-- The outcome of a wait is the timer's or the message that the handler was called with. -/
theorem outcome?_eq_some {call : Call} {collected : List M} {race : Race M ErrorCode}
    {outcome : M ⊕ ErrorCode}
    (h : (Task.waiting call collected race).outcome? = some outcome) :
    ∃ message, race.left? = some message ∧
      ((call.operation.timed = true ∧ ∃ error, outcome = .inr error) ∨ outcome = .inl message) := by
  simp only [Task.outcome?] at h
  split at h
  · rename_i htimed
    obtain ⟨message, hleft, hsame⟩ := Race.left?_of_result? h
    refine ⟨message, hleft, ?_⟩
    cases outcome with
    | inl other => exact Or.inr (by rw [hsame other rfl])
    | inr error => exact Or.inl ⟨htimed, error, rfl⟩
  · obtain ⟨message, hleft, rfl⟩ := Option.map_eq_some_iff.mp h
    exact ⟨message, hleft, Or.inr rfl⟩

/-- A call that waits again was handed a message that it rejects. -/
theorem rejected_of_waitAgain {call : Call} {collected collected' : List M} {message : M}
    (h : call.operation.answer C.toMessages collected (.inl message) = .waitAgain collected') :
    Rejected C call message := by
  intro type htype
  unfold Operation.answer at h
  rw [htype] at h
  simp only [receiveMessage] at h
  cases hholds : C.holdsMessage type message with
  | false => rfl
  | true =>
    rw [hholds, if_pos rfl] at h
    simp only at h
    exact absurd h (by simp)

/-- A timer makes a call return the error of `receive_message`. -/
theorem answer_timer {operation : Operation} (htimed : operation.timed = true)
    (collected : List M) (error : ErrorCode) :
    operation.answer C.toMessages collected (.inr error) =
      .done (.error ⟨.unexpectedMessage, "could not receive any message"⟩) := by
  unfold Operation.timed at htimed
  split at htimed
  · rename_i type htype
    rw [Operation.answer, htype]
    rfl
  · exact absurd htimed (by decide)

/-- A call of the handshake is done only with a message of its type, which it has accepted. -/
theorem accept_of_done {operation : Operation} {type : MessageType} {collected : List M}
    {message : M} {value : Value M} (htype : operation.expects = .message type)
    (h : operation.answer C.toMessages collected (.inl message) = .done (.ok value)) :
    C.holdsMessage type message = true ∧ operation.accept C.toMessages message = .ok value := by
  rw [Operation.answer, htype] at h
  simp only [receiveMessage] at h
  cases hholds : C.holdsMessage type message with
  | false =>
    rw [hholds, if_neg (by decide)] at h
    simp at h
  | true =>
    rw [hholds, if_pos rfl] at h
    simp only [Answer.done.injEq] at h
    exact ⟨rfl, h⟩

/-- A ConnectResponse that ends the wait for it accepts the password. -/
theorem WaitOk.authenticated {collected : List M} {message : M} {value : Value M}
    (h : WaitOk C log task connectCall [message])
    (hdone : connectCall.operation.answer C.toMessages collected (.inl message) =
      .done (.ok value)) : Authenticated C log task := by
  obtain ⟨messages, hpending, hrejected⟩ := h.pending rfl
  obtain ⟨hholds, haccept⟩ := accept_of_done rfl hdone
  refine ⟨_, message, hpending, ?_, ?_⟩
  · rw [List.find?_append, List.find?_eq_none.mpr]
    · simp [hholds]
    · intro other hother
      rw [hrejected other hother _ rfl]
      decide
  · simp only [Operation.accept, connectCall] at haccept
    cases hinvalid : C.invalidPassword message with
    | false => rfl
    | true => simp [hinvalid, makeUnexpectedResult] at haccept

/-- The handshake goes on or ends with the message that was waited for. -/
theorem WaitOk.nextOk_done {call : Call} {collected : List M} {message : M} {value : Value M}
    (h : WaitOk C log task call [message])
    (hreceived : call.operation.requiresSend = true →
      ∃ receiver, FollowsRequest C log task call
        [(receiver, .dispatched message), (task, .received call message)])
    (hdone : call.operation.answer C.toMessages collected (.inl message) = .done (.ok value))
    (stopRequested : Bool) (connection : Option ℕ) :
    NextOk C log task ((succeed C stopRequested connection call value).1,
      greeting call (.inl message) ++ (succeed C stopRequested connection call value).2) := by
  have hsent (hsend : call.operation.requiresSend = true) : FollowsRequest C log task call [] := by
    obtain ⟨messages, hpending, -⟩ := h.pending hsend
    exact hpending.followsRequest
  have hauth (hcall : call = connectCall) : Authenticated C log task := by
    subst hcall
    exact h.authenticated hdone
  by_cases hhello : call.operation = .sendMessageHello
  · have hgreeting : greeting call (.inl message) = [.greeted message] := by
      simp only [greeting, hhello]
    rw [hgreeting]
    have hsend : call.operation.requiresSend = true := by rw [hhello]; rfl
    have hnext : NextOk C (log ++ [(task, .greeted message)]) task
        (succeed C stopRequested connection call value) := by
      refine nextOk_succeed h.wellFormed _ _ _ (fun _ => (hsent hsend).append _) ?_ ?_
      · rintro rfl
        obtain ⟨receiver, hfollows⟩ := hreceived rfl
        obtain ⟨hholds, -⟩ := accept_of_done rfl hdone
        refine ⟨message, ⟨hholds, receiver, hfollows.concat _⟩, ?_⟩
        simp [lastGreeting]
      · rintro rfl
        simp [connectCall] at hhello
    exact NextOk.cons trivial hnext
  · have hgreeting : greeting call (.inl message) = ([] : List (Event M)) := by
      unfold greeting
      split
      · rename_i hop _
        exact absurd hop hhello
      · rfl
    rw [hgreeting, List.nil_append]
    refine nextOk_succeed h.wellFormed _ _ _ hsent (fun hcall => ?_) hauth
    rw [hcall] at hhello
    exact absurd rfl hhello

/-- Going on after a wait keeps the invariants. -/
theorem nextOk_afterWait {call : Call} {collected : List M} {race : Race M ErrorCode}
    (h : TaskOk C log task (.waiting call collected race)) {outcome : M ⊕ ErrorCode}
    (houtcome : (Task.waiting call collected race).outcome? = some outcome) (stopRequested : Bool)
    (connection : Option ℕ) :
    NextOk C log task (afterWait C stopRequested connection call collected outcome) := by
  obtain ⟨hwait, hreceived⟩ := h
  obtain ⟨message, hleft, htimer | rfl⟩ := outcome?_eq_some houtcome
  · obtain ⟨htimed, error, rfl⟩ := htimer
    rw [afterWait, answer_timer htimed]
    exact nextOk_leave_error hwait.wellFormed stopRequested _
  · rw [hleft] at hwait
    unfold afterWait
    split
    · rename_i collected' hagain
      have hnext : WaitOk C log task call [] := by
        refine ⟨hwait.wellFormed, fun hsend => ?_⟩
        obtain ⟨messages, hpending, hrejected⟩ := hwait.pending hsend
        refine ⟨messages ++ [message], by rwa [List.append_nil], fun other hother => ?_⟩
        rcases List.mem_append.mp hother with hold | hnew
        · exact hrejected other hold
        · rw [List.mem_singleton.mp hnew]
          exact rejected_of_waitAgain hagain
      exact NextOk.of_task hnext
    · exact nextOk_leave_error hwait.wellFormed stopRequested _
    · rename_i value hdone
      exact hwait.nextOk_done (hreceived message hleft) hdone stopRequested connection

/-- A packet that was serialized is not empty. -/
theorem Serialized.length_pos {call : Call} {packet : Bytes} (h : Serialized C call packet) :
    0 < packet.length := by
  obtain ⟨message, -, hpacket⟩ := h
  obtain ⟨frame, rfl, -⟩ := serialize_eq_ok hpacket
  exact Nat.lt_of_lt_of_le (by decide) frame.three_le_length

/-- The moves of a coroutine keep the invariants. -/
theorem Moves.nextOk {stopRequested : Bool} {socket : Socket} {t : Task M} {next : Next M}
    (hmove : Moves C stopRequested socket t next) (h : TaskOk C log task t) :
    NextOk C log task next := by
  cases hmove with
  | resolveFailed error => exact ⟨⟨trivial, trivial⟩, trivial⟩
  | @sentNothing call packet connection race race' error hrace =>
    have hsend : SendOk C log task call packet race := h
    apply NextOk.of_task
    refine ⟨hsend.wellFormed, hsend.serialized, fun other hleft => ?_, hsend.began⟩
    rw [(Race.left?_of_completeLeft hrace).2, Option.some.injEq, Prod.mk.injEq] at hleft
    have hpos := hsend.serialized.length_pos
    omega
  | @sentBytes call packet current count race race' error hrace hcount hlength hsocket =>
    have hsend : SendOk C log task call packet race := h
    refine ⟨⟨⟨hsend.serialized, Nat.pos_of_ne_zero hcount, hlength, hsend.began⟩, trivial⟩, ?_⟩
    refine ⟨hsend.wellFormed, hsend.serialized, fun other hleft => ?_,
      List.mem_append_left _ hsend.began⟩
    rw [(Race.left?_of_completeLeft hrace).2, Option.some.injEq, Prod.mk.injEq] at hleft
    obtain ⟨-, rfl⟩ := hleft
    exact ⟨log, current, packet, [], hsend.serialized, rfl, rfl⟩
  | @sendExpired call packet connection race race' error hrace =>
    have hsend : SendOk C log task call packet race := h
    apply NextOk.of_task
    refine ⟨hsend.wellFormed, hsend.serialized, fun other hleft => ?_, hsend.began⟩
    rw [Race.left?_of_completeRight hrace] at hleft
    exact hsend.pending other hleft
  | @waitExpired call collected race race' error htimed hrace =>
    apply NextOk.of_task
    change WaitOk C log task call race'.left?.toList ∧ ∀ message, race'.left? = some message → _
    rw [Race.left?_of_completeRight hrace]
    exact h
  | sendOver hresult => exact SendOk.nextOk h hresult stopRequested _
  | waitOver houtcome => exact nextOk_afterWait h houtcome stopRequested _
  | woken =>
    refine nextOk_begin ⟨?_, ?_⟩ stopRequested _ ?_ <;> simp [pingCall, connectCall]
  | _ => exact ⟨trivial, trivial⟩

/-- The handlers and entries of a registry stay right as the history goes on. -/
theorem State.Faithful.of_next (h : s.Faithful C) {next : Next M} {started : ℕ}
    {tasks : ℕ → Task M} (hnext : NextOk C s.log task next)
    (hother : ∀ other, other ≠ task → tasks other = s.tasks other ∨
      ∀ log, TaskOk C log other (tasks other)) (socket : Socket) (connections : ℕ) :
    ({ s with
      socket := socket, connections := connections, tasks := tasks, started := started }.move C task
        next).Faithful C where
  log := h.log.append hnext.1
  tasks other := by
    simp only [move_tasks, move_log]
    by_cases hsame : other = task
    · rw [hsame, Function.update_self]
      exact hnext.2
    · rw [Function.update_of_ne hsame]
      rcases hother other hsame with heq | hfree
      · rw [heq]
        exact (h.tasks other).append (receivedBy_of_ne (Ne.symm hsame) next.2)
      · exact hfree _
  handlers handler hhandler hsend := (h.handlers handler hhandler hsend).append _
  entries entry hentry hsend := by
    obtain ⟨receiver, hfollows⟩ := h.entries entry hentry hsend
    exact ⟨receiver, hfollows.append _⟩

/-- A call of a user is well formed. -/
theorem Call.FromUser.wellFormed {call : Call} (h : call.FromUser C) : call.WellFormed := by
  rcases h with ⟨hcaller, -⟩ | ⟨hcaller, hrequest⟩
  · exact ⟨fun hc => by simp [hcaller] at hc, fun hc => by simp [hcaller] at hc⟩
  · exact ⟨fun _ => requiresSend_of_request_none hrequest, fun hc => by simp [hcaller] at hc⟩

/-- Registering a handler keeps the invariants: the request was written before. -/
theorem State.Faithful.register (h : s.Faithful C) {call : Call} {collected : List M}
    (htask : s.tasks task = .registering call collected) :
    ({ s with registry := s.registry.register ⟨task, call⟩ }.move C task
      (.waiting call collected .waiting, [.registered call])).Faithful C := by
  have hwait : WaitOk C s.log task call [] := by
    have hok := h.tasks task
    rwa [htask] at hok
  have hevents : EventsOk C s.log task [.registered call] := ⟨trivial, trivial⟩
  refine ⟨h.log.append hevents, ?_, ?_, ?_⟩
  · intro other
    simp only [move_tasks, move_log]
    by_cases hsame : other = task
    · rw [hsame, Function.update_self]
      refine ⟨hwait.append rfl, fun message hleft => ?_⟩
      simp [Race.left?] at hleft
    · rw [Function.update_of_ne hsame]
      exact (h.tasks other).append (receivedBy_of_ne (Ne.symm hsame) _)
  · intro handler hhandler hsend
    rcases List.mem_append.mp hhandler with hold | hnew
    · exact (h.handlers handler hold hsend).append _
    · rw [List.mem_singleton.mp hnew] at hsend ⊢
      obtain ⟨messages, hpending, -⟩ := hwait.pending hsend
      exact hpending.followsRequest.append _
  · intro entry hentry hsend
    obtain ⟨receiver, hfollows⟩ := h.entries entry hentry hsend
    exact ⟨receiver, hfollows.append _⟩

/-- A dispatch keeps the invariants: the message comes after the requests of the handlers. -/
theorem State.Faithful.dispatch (h : s.Faithful C) {message : M} {messages : List M}
    {registry : Registry Owner M} (hregistry : s.registry.dispatch message = some registry) :
    ({ s with registry := registry }.move C task
      (.dispatching messages, [.dispatched message])).Faithful C := by
  obtain ⟨hidle, rfl⟩ := Registry.dispatch_eq_some hregistry
  have hevents : EventsOk C s.log task [.dispatched message] := ⟨trivial, trivial⟩
  refine ⟨h.log.append hevents, ?_, ?_, ?_⟩
  · intro other
    simp only [move_tasks, move_log]
    by_cases hsame : other = task
    · rw [hsame, Function.update_self]
      exact trivial
    · rw [Function.update_of_ne hsame]
      exact (h.tasks other).append (receivedBy_of_ne (Ne.symm hsame) _)
  · intro handler hhandler
    simp at hhandler
  · intro entry hentry hsend
    rcases List.mem_append.mp hentry with hold | hnew
    · obtain ⟨receiver, hfollows⟩ := h.entries entry (List.mem_append_left _ hold) hsend
      exact ⟨receiver, hfollows.append _⟩
    · obtain ⟨handler, hhandler, rfl⟩ := List.mem_map.mp hnew
      exact ⟨task, (h.handlers handler hhandler hsend).concat _⟩

/-- Running a handler keeps the invariants: its message was dispatched after the request. -/
theorem State.Faithful.execute (h : s.Faithful C) (hcoupled : s.Coupled) {index : ℕ}
    {handler : Handler Owner} {message : M} {registry : Registry Owner M} {call : Call}
    {collected : List M} {race race' : Race M ErrorCode}
    (hindex : s.registry.submitted[index]? = some (handler, message))
    (hregistry : s.registry.execute index = some registry)
    (htask : s.tasks handler.owner.task = .waiting call collected race)
    (hrace : race.completeLeft message = some race') :
    ({ s with registry := registry }.move C handler.owner.task
      (.waiting call collected race', [.received call message])).Faithful C := by
  have hcall := hcoupled.owner_call hindex htask hrace
  obtain ⟨hopen, hclosed⟩ := Race.left?_of_completeLeft hrace
  obtain ⟨handler', message', hindex', rfl⟩ := Registry.execute_eq_some hregistry
  have hevents : EventsOk C s.log handler.owner.task [.received call message] := ⟨trivial, trivial⟩
  refine ⟨h.log.append hevents, ?_, ?_, ?_⟩
  · intro other
    simp only [move_tasks, move_log]
    by_cases hsame : other = handler.owner.task
    · rw [hsame, Function.update_self]
      have hok := h.tasks handler.owner.task
      rw [htask] at hok
      obtain ⟨hwait, -⟩ := hok
      rw [hopen] at hwait
      refine ⟨⟨hwait.wellFormed, fun hsend => ?_⟩, fun other hleft hsend => ?_⟩
      · obtain ⟨messages, hpending, hrejected⟩ := hwait.pending hsend
        have hlater := hpending.append [(handler.owner.task, .received call message)]
        refine ⟨messages, ?_, hrejected⟩
        rw [hclosed]
        simpa [receivedBy] using hlater
      · rw [hclosed] at hleft
        obtain rfl := Option.some.inj hleft
        rw [← hcall] at hsend ⊢
        obtain ⟨receiver, hfollows⟩ := h.entries (handler, message)
          (List.mem_append_left _ (List.mem_of_getElem? hindex)) hsend
        exact ⟨receiver, hfollows.concat _⟩
    · rw [Function.update_of_ne hsame]
      exact (h.tasks other).append (receivedBy_of_ne (Ne.symm hsame) _)
  · intro waiting hwaiting hsend
    exact (h.handlers waiting hwaiting hsend).append _
  · intro entry hentry hsend
    have hold : entry ∈ s.registry.submitted ++ s.registry.draining := by
      rcases List.mem_append.mp hentry with herased | hdraining
      · exact List.mem_append_left _ (List.mem_of_mem_eraseIdx herased)
      · exact List.mem_append_right _ hdraining
    obtain ⟨receiver, hfollows⟩ := h.entries entry hold hsend
    exact ⟨receiver, hfollows.append _⟩

/-- Making the TCP connection keeps the invariants. -/
theorem State.Faithful.connected (h : s.Faithful C) (htask : s.tasks task = .connecting)
    (hstep : s.connected C task (.ok ()) = some s') : s'.Faithful C := by
  simp only [State.connected, htask, Option.some.injEq] at hstep
  subst hstep
  have hbegin (connection : Option ℕ) :
      NextOk C (s.log ++ [(task, .established s.connections s.started (s.started + 1))]) task
        (begin C s.stopRequested connection helloCall) :=
    nextOk_begin ⟨by simp [helloCall], fun _ => Or.inl rfl⟩ _ _ (by simp [helloCall, connectCall])
  have hnext (connection : Option ℕ) :
      NextOk C s.log task ((begin C s.stopRequested connection helloCall).1,
        .established s.connections s.started (s.started + 1) ::
          (begin C s.stopRequested connection helloCall).2) :=
    NextOk.cons trivial (hbegin connection)
  refine h.of_next (hnext _) (fun other _ => ?_) _ _
  by_cases hheartbeat : other = s.started + 1
  · right
    intro log
    rw [hheartbeat, Function.update_self]
    cases s.stopRequested <;> exact trivial
  · rw [Function.update_of_ne hheartbeat]
    by_cases hreceiver : other = s.started
    · right
      intro log
      rw [hreceiver, Function.update_self]
      exact trivial
    · left
      rw [Function.update_of_ne hreceiver]

/-- Every step keeps the invariants. -/
theorem State.Faithful.step (h : s.Faithful C) (hcoupled : s.Coupled)
    (hstep : Transition C s s') : s'.Faithful C := by
  cases hstep with
  | move hmove =>
    exact h.of_next (hmove.nextOk (h.tasks _)) (fun _ _ => Or.inl rfl) _ _
  | connect =>
    have hnext : NextOk C s.log s.started (.resolving, []) := ⟨trivial, trivial⟩
    exact h.of_next hnext (fun _ _ => Or.inl rfl) _ _
  | call hcall =>
    refine h.of_next (nextOk_begin hcall.wellFormed _ _ fun hconnect => ?_)
      (fun _ _ => Or.inl rfl) _ _
    subst hconnect
    rcases hcall with ⟨hcaller, -⟩ | ⟨hcaller, -⟩ <;> simp [connectCall] at hcaller
  | @resolved task htask =>
    have hnext : NextOk C s.log task (.connecting, []) := ⟨trivial, trivial⟩
    exact h.of_next hnext (fun _ _ => Or.inl rfl) _ _
  | connected htask hstep => exact h.connected htask hstep
  | register htask => exact h.register htask
  | dispatch htask hregistry => exact h.dispatch hregistry
  | submit hregistry =>
    obtain ⟨handler, message, draining, hdraining, rfl⟩ := Registry.submit_eq_some hregistry
    refine ⟨h.log, h.tasks, h.handlers, fun entry hentry => h.entries entry ?_⟩
    rwa [hdraining, ← List.singleton_append, ← List.append_assoc]
  | execute hindex hregistry htask hrace => exact h.execute hcoupled hindex hregistry htask hrace
  | cancel => exact ⟨h.log, h.tasks, h.handlers, h.entries⟩

/-- The invariants hold in every reachable state. -/
theorem State.faithful_of_reachable (h : Reachable (State.step C) State.init s) :
    s.Faithful C := by
  refine h.invariant ⟨?_, fun _ => trivial, ?_, ?_⟩ fun s action s' hreachable hs hstep =>
    hs.step (State.coupled_of_reachable hreachable) (transition_of_step hstep)
  · intro before task event after heq
    simp [State.init] at heq
  · intro handler hhandler
    simp [State.init, Registry.empty] at hhandler
  · intro entry hentry
    simp [State.init, Registry.empty] at hentry

end EspHomeApi
