import EspHomeApi.CoroutineView
import EspHomeApi.Session

/-!
# The order of what a coroutine does

A small automaton says in which order a coroutine begins its requests, hands them to the socket,
registers its handlers, hears from them and returns. The events of every coroutine are accepted by
it: a request goes out at most once, and before the first handler of a call that requires it;
handlers are registered and called in turn; and no call returns, or starts another one, while it has
a handler that was not called.
-/

namespace EspHomeApi

open Run

variable {M : Type} {C : Client M} {s : State M}

/-- How far a coroutine has come with its current call. -/
inductive Phase where
  /-- Between two calls, or not in a call at all. -/
  | resting
  /-- The send was started, and the socket has or has not taken bytes of it. -/
  | requested (call : Call) (written : Bool)
  /-- A handler of the call is registered. -/
  | armed (call : Call)
  /-- The handler was called. -/
  | heard (call : Call)
  deriving DecidableEq

/-- What a coroutine may do next. An operation that requires its send registers and succeeds only
after bytes of it were taken. -/
def Phase.next : Phase → Event M → Option Phase
  | .resting, .established _ _ _ => some .resting
  | .resting, .dispatched _ => some .resting
  | .resting, .connectReturned _ => some .resting
  | .resting, .began call => some (.requested call false)
  | .resting, .registered call =>
    if call.operation.requiresSend then none else some (.armed call)
  | .resting, .returned _ (.error _) => some .resting
  | .requested call false, .wrote other _ _ _ =>
    if other = call then some (.requested call true) else none
  | .requested call written, .registered other =>
    if other = call ∧ (call.operation.requiresSend = true → written = true) then
      some (.armed call)
    else none
  | .requested call _, .returned other (.error _) => if other = call then some .resting else none
  | .requested call written, .returned other (.ok _) =>
    if other = call ∧ written = true then some .resting else none
  | .armed call, .received other _ => if other = call then some (.heard call) else none
  | .heard call, .registered other => if other = call then some (.armed call) else none
  | .heard call, .greeted _ => some (.heard call)
  | .heard call, .returned other _ => if other = call then some .resting else none
  | _, _ => none

/-- Whether the socket took bytes in a send. -/
def tookBytes (race : TimedOperation ℕ) : Bool := race.left?.any fun completion => completion.2 ≠ 0

/-- The suspension of a coroutine that has come this far. -/
def Phase.Fits (phase : Phase) : Task M → Prop
  | .sending call packet _ race =>
    call.WellFormed ∧ packet ≠ [] ∧ phase = .requested call (tookBytes race)
  | .registering call _ => call.WellFormed ∧
      phase.next (Event.registered (M := M) call) = some (.armed call)
  | .waiting call _ race => call.WellFormed ∧
      phase = if race.left?.isNone then .armed call else .heard call
  | _ => phase = .resting

/-- The events lead from the phase to one that the suspension fits. -/
def Conforms (phase : Phase) (next : Next M) : Prop :=
  ∃ phase', run Phase.next phase next.2 = some phase' ∧ phase'.Fits next.1

/-- Nothing happens on the way to a suspension that fits. -/
theorem Conforms.of_fits {phase : Phase} {t : Task M} (h : phase.Fits t) :
    Conforms phase (t, []) := ⟨phase, rfl, h⟩

/-- One event more in front. -/
theorem Conforms.cons {phase phase' : Phase} {event : Event M} {t : Task M}
    {events : List (Event M)} (hevent : phase.next event = some phase')
    (h : Conforms phase' (t, events)) : Conforms phase (t, event :: events) := by
  obtain ⟨last, hrun, hfits⟩ := h
  exact ⟨last, by rw [run, hevent, Option.bind_some, hrun], hfits⟩

/-- A call that may return does so in order. -/
theorem conforms_leave {phase : Phase} {call : Call} (hcall : call.WellFormed)
    (stopRequested : Bool) {result : Result (Value M)}
    (hreturn : phase.next (.returned call result) = some .resting) :
    Conforms phase (leave stopRequested call result) := by
  unfold leave
  split
  · exact .cons hreturn (.of_fits rfl)
  · exact .cons hreturn (.cons rfl (.of_fits rfl))
  · refine .cons hreturn (.of_fits ?_)
    cases stopRequested <;> rfl
  · rename_i hcaller
    refine .cons hreturn (.of_fits ⟨hcall, ?_⟩)
    simp [Phase.next, hcall.consumer hcaller]

/-- After a failed send, a ping waits for its answer all the same. -/
theorem conforms_sendFailed {phase : Phase} {call : Call} (hcall : call.WellFormed)
    (stopRequested : Bool) {error : ApiError}
    (hreturn : phase.next (Event.returned (M := M) call (.error error)) = some .resting)
    (hping : call.operation = .ping →
      phase.next (Event.registered (M := M) call) = some (.armed call)) :
    Conforms phase (sendFailed stopRequested call error : Next M) := by
  unfold sendFailed
  split
  · rename_i heq
    exact .of_fits ⟨hcall, hping heq⟩
  · exact conforms_leave hcall stopRequested hreturn

/-- A call starts in order. -/
theorem conforms_begin {call : Call} (hcall : call.WellFormed) (stopRequested : Bool)
    (connection : Option ℕ) : Conforms .resting (begin C stopRequested connection call) := by
  unfold begin
  split
  · rename_i hnone
    refine .of_fits ⟨hcall, ?_⟩
    simp [Phase.next, requiresSend_of_request_none hnone]
  · rename_i message hrequest
    split
    · refine conforms_sendFailed hcall stopRequested rfl fun hping => ?_
      simp [Phase.next, hping, Operation.requiresSend]
    · rename_i packet hpacket
      have hserialized : Serialized C call packet := ⟨message, hrequest, hpacket⟩
      exact .cons rfl
        (.of_fits ⟨hcall, List.ne_nil_of_length_pos hserialized.length_pos, rfl⟩)

/-- A call that may succeed does so in order. -/
theorem conforms_succeed {phase : Phase} {call : Call} (hcall : call.WellFormed)
    (stopRequested : Bool) (connection : Option ℕ) {value : Value M}
    (hreturn : phase.next (.returned call (.ok value)) = some .resting) :
    Conforms phase (succeed C stopRequested connection call value) := by
  unfold succeed
  split
  · have hconnect : connectCall.WellFormed := ⟨by simp [connectCall], fun _ => Or.inr rfl⟩
    exact .cons hreturn (conforms_begin hconnect stopRequested connection)
  · exact conforms_leave hcall stopRequested hreturn

/-- A call whose send is over goes on in order. -/
theorem conforms_afterSend {call : Call} (hcall : call.WellFormed) (stopRequested : Bool)
    (connection : Option ℕ) {written : Bool} {result : Result Unit}
    (hwritten : result = .ok () → written = true) :
    Conforms (.requested call written) (afterSend C stopRequested connection call result) := by
  unfold afterSend
  split
  · refine conforms_sendFailed hcall stopRequested (by simp [Phase.next]) fun hping => ?_
    simp [Phase.next, hping, Operation.requiresSend]
  · obtain rfl := hwritten rfl
    split
    · exact conforms_succeed hcall stopRequested connection (if_pos ⟨rfl, rfl⟩)
    · exact .of_fits ⟨hcall, if_pos ⟨rfl, fun _ => rfl⟩⟩

/-- A call whose wait is over goes on in order. -/
theorem conforms_afterWait {call : Call} (hcall : call.WellFormed) (stopRequested : Bool)
    (connection : Option ℕ) (collected : List M) (outcome : M ⊕ ErrorCode) :
    Conforms (.heard call) (afterWait C stopRequested connection call collected outcome) := by
  unfold afterWait
  split
  · exact .of_fits ⟨hcall, if_pos rfl⟩
  · exact conforms_leave hcall stopRequested (if_pos rfl)
  · rename_i value hdone
    have hsucceed : Conforms (.heard call) (succeed C stopRequested connection call value) :=
      conforms_succeed hcall stopRequested connection (if_pos rfl)
    unfold greeting
    split
    · exact .cons rfl hsucceed
    · exact hsucceed

/-- The moves of a coroutine are in order. -/
theorem Moves.conforms {phase : Phase} {t : Task M} (h : phase.Fits t) {stopRequested : Bool}
    {socket : Socket} {next : Next M} (hmove : Moves C stopRequested socket t next) :
    Conforms phase next := by
  cases hmove with
  | resolveFailed error =>
    obtain rfl : phase = .resting := h
    exact .cons rfl (.of_fits rfl)
  | sentNothing hrace =>
    obtain ⟨hcall, hpacket, hphase⟩ := h
    obtain ⟨hopen, hclosed⟩ := Race.left?_of_completeLeft hrace
    refine .of_fits ⟨hcall, hpacket, ?_⟩
    rw [hphase, tookBytes, tookBytes, hopen, hclosed]
    rfl
  | sentBytes hrace hcount hlength hsocket =>
    obtain ⟨hcall, hpacket, hphase⟩ := h
    obtain ⟨hopen, hclosed⟩ := Race.left?_of_completeLeft hrace
    rw [tookBytes, hopen] at hphase
    obtain rfl : phase = .requested _ false := hphase
    refine .cons (if_pos rfl) (.of_fits ⟨hcall, hpacket, ?_⟩)
    rw [tookBytes, hclosed]
    simp [hcount]
  | sendExpired hrace =>
    obtain ⟨hcall, hpacket, hphase⟩ := h
    refine .of_fits ⟨hcall, hpacket, ?_⟩
    rw [hphase, tookBytes, tookBytes, Race.left?_of_completeRight hrace]
  | waitExpired htimed hrace =>
    obtain ⟨hcall, hphase⟩ := h
    refine .of_fits ⟨hcall, ?_⟩
    rw [Race.left?_of_completeRight hrace, hphase]
  | @sendOver call packet connection race written hresult =>
    obtain ⟨hcall, hpacket, rfl⟩ := h
    refine conforms_afterSend hcall stopRequested _ fun hok => ?_
    -- A send that succeeds has reported the size of the packet, which is not empty.
    obtain rfl := sendMessageResult_eq_ok hok
    obtain ⟨error, -, hleft⟩ := left?_of_result?_ok hresult
    rw [tookBytes, hleft]
    simpa using hpacket
  | waitOver houtcome =>
    obtain ⟨hcall, hphase⟩ := h
    obtain ⟨message, hleft, -⟩ := outcome?_eq_some houtcome
    rw [hleft] at hphase
    obtain rfl : phase = .heard _ := hphase
    exact conforms_afterWait hcall stopRequested _ _ _
  | woken =>
    obtain rfl : phase = .resting := h
    exact conforms_begin ⟨by simp [pingCall], by simp [pingCall]⟩ stopRequested _
  | stopped | receiveFailed | received | dispatchedAll | connectFailed =>
    exact .of_fits h

/-- A coroutine goes on in order. -/
theorem Goes.conforms {phase : Phase} {t : Task M} (h : phase.Fits t)
    {completion : Option Completion} {next : Next M} (hgoes : Goes C t completion next) :
    Conforms phase next := by
  cases hgoes with
  | moves hnotes hmove => exact hmove.conforms h
  | call hcall stopRequested connection =>
    obtain rfl : phase = .resting := h
    exact conforms_begin hcall.wellFormed stopRequested connection
  | heartbeatLoop stopRequested =>
    obtain rfl : phase = .resting := h
    refine .of_fits ?_
    cases stopRequested <;> rfl
  | connected stopRequested current connection receiveLoop heartbeatLoop =>
    obtain rfl : phase = .resting := h
    have hhello : helloCall.WellFormed := ⟨by simp [helloCall], fun _ => Or.inl rfl⟩
    exact .cons rfl (conforms_begin hhello stopRequested current)
  | registers call collected => exact .cons h.2 (.of_fits ⟨h.1, rfl⟩)
  | dispatches message messages =>
    obtain rfl : phase = .resting := h
    exact .cons rfl (.of_fits rfl)
  | called hrace =>
    obtain ⟨hcall, hphase⟩ := h
    obtain ⟨hopen, hclosed⟩ := Race.left?_of_completeLeft hrace
    rw [hopen] at hphase
    obtain rfl : phase = .armed _ := hphase
    refine .cons (if_pos rfl) (.of_fits ⟨hcall, ?_⟩)
    rw [hclosed]
    rfl
  | connect | receiveLoop | resolved => exact .of_fits h

/-- The events of every coroutine lead to a phase that its suspension fits. -/
theorem phase_of_reachable (h : Reachable (State.step C) State.init s) (task : ℕ) :
    ∃ phase, run Phase.next .resting (eventsOf task s.log) = some phase ∧
      phase.Fits (s.tasks task) := by
  refine coroutine_invariant (P := fun t events =>
    ∃ phase, run Phase.next .resting events = some phase ∧ phase.Fits t) ?_ ?_ h task
  · exact ⟨.resting, rfl, rfl⟩
  intro t events completion next hphase hgoes
  obtain ⟨phase, hrun, hfits⟩ := hphase
  obtain ⟨last, hnext, hlast⟩ := hgoes.conforms hfits
  exact ⟨last, by rw [run_append, hrun, Option.bind_some, hnext], hlast⟩

/-- In every reachable state, the automaton accepts the events of every coroutine, and the coroutine
is suspended as the phase says that they lead to. From that phase, it accepts what the coroutine
does in any continuation of the run. -/
theorem events_accepted (h : Reachable (State.step C) State.init s) {actions : List Action}
    {s' : State M} (hrun : run (State.step C) s actions = some s') (task : ℕ) :
    ∃ phase phase' later, run Phase.next .resting (eventsOf task s.log) = some phase ∧
      phase.Fits (s.tasks task) ∧ eventsOf task s'.log = eventsOf task s.log ++ later ∧
      run Phase.next phase later = some phase' ∧ phase'.Fits (s'.tasks task) := by
  obtain ⟨phase, hphase, hfits⟩ := phase_of_reachable h task
  obtain ⟨before, hbefore⟩ := h
  obtain ⟨later, hlater⟩ := exists_eventsOf_append hbefore hrun task
  have hreachable : Reachable (State.step C) State.init s' :=
    ⟨before ++ actions, by rw [run_append, hbefore, Option.bind_some, hrun]⟩
  obtain ⟨phase', hphase', hfits'⟩ := phase_of_reachable hreachable task
  rw [hlater, run_append, hphase, Option.bind_some] at hphase'
  exact ⟨phase, phase', later, hphase, hfits, hlater, hphase', hfits'⟩

/-- The handlers that were registered. -/
def registeredCount (events : List (Event M)) : ℕ :=
  events.countP fun
    | .registered _ => true
    | _ => false

/-- The handlers that were called. -/
def receivedCount (events : List (Event M)) : ℕ :=
  events.countP fun
    | .received _ _ => true
    | _ => false

/-- The sends that were started. -/
def beganCount (events : List (Event M)) : ℕ :=
  events.countP fun
    | .began _ => true
    | _ => false

/-- The sends that the socket took bytes of. -/
def wroteCount (events : List (Event M)) : ℕ :=
  events.countP fun
    | .wrote _ _ _ _ => true
    | _ => false

/-- The handlers that a coroutine has registered and not heard from. -/
def Phase.handlers : Phase → ℕ
  | .armed _ => 1
  | _ => 0

/-- The sends that a coroutine waits for and of which no bytes were taken. -/
def Phase.sends : Phase → ℕ
  | .requested _ false => 1
  | _ => 0

/-- What one event in order does to the two accounts. -/
theorem Phase.balance_next {phase phase' : Phase} {event : Event M}
    (h : phase.next event = some phase') :
    registeredCount [event] + phase.handlers = receivedCount [event] + phase'.handlers ∧
      wroteCount [event] + phase'.sends ≤ beganCount [event] + phase.sends := by
  unfold Phase.next at h
  split at h
  all_goals try split at h
  all_goals first
    | simp at h; done
    | obtain rfl := Option.some.inj h
      simp [registeredCount, receivedCount, wroteCount, beganCount, handlers, sends]

/-- Every handler registered was called, up to the one that the phase knows of, and no send was
written twice. -/
theorem balance_of_run {phase : Phase} {events : List (Event M)}
    (h : run Phase.next .resting events = some phase) :
    registeredCount events = receivedCount events + phase.handlers ∧
      wroteCount events + phase.sends ≤ beganCount events := by
  refine run_induction (P := fun events phase =>
    registeredCount events = receivedCount events + phase.handlers ∧
      wroteCount events + phase.sends ≤ beganCount events) ⟨rfl, le_rfl⟩ ?_ h
  intro events phase event phase' _ hbalance hnext
  have hone := Phase.balance_next hnext
  simp only [registeredCount, receivedCount, wroteCount, beganCount, List.countP_append] at *
  omega

/-- When a call returns, every handler that its coroutine ever registered has been called, so that
none is left behind; and the socket took bytes of at most one packet for each send begun. -/
theorem handlers_called_at_return (h : Reachable (State.step C) State.init s) (task : ℕ)
    {before after : List (Event M)} {call : Call} {result : Result (Value M)}
    (hsplit : eventsOf task s.log = before ++ .returned call result :: after) :
    registeredCount before = receivedCount before ∧ wroteCount before ≤ beganCount before := by
  obtain ⟨phase, hrun, -⟩ := phase_of_reachable h task
  rw [hsplit] at hrun
  obtain ⟨middle, hbefore, hafter⟩ := exists_of_run_append hrun
  obtain ⟨next, hreturned, -⟩ := exists_of_run_cons hafter
  obtain ⟨hhandlers, hwrites⟩ := balance_of_run hbefore
  have hnone : middle.handlers = 0 := by
    cases middle with
    | armed other => simp [Phase.next] at hreturned
    | _ => rfl
  omega

/-- The state after the password was rejected can be reached. -/
theorem reachable_finishedState : Reachable (State.step wireClient) State.init finishedState :=
  ⟨rejectedHandshake ++ [.resume 0], rfl⟩

/-- The call that was rejected has returned the error. -/
theorem eventsOf_finishedState : eventsOf 0 finishedState.log = eventsOf 0 rejectedState.log ++
    .returned connectCall (.error invalidPassword) ::
      [.connectReturned (.error invalidPassword)] := by
  rw [finishedState_eq, move_log, eventsOf_append, eventsOf_self]

/-- The handshake with the rejected password is in order, and so is its end. -/
theorem events_accepted_rejected :
    ∃ phase later, run Phase.next .resting (eventsOf 0 rejectedState.log) = some phase ∧
      eventsOf 0 finishedState.log = eventsOf 0 rejectedState.log ++ later ∧
      run Phase.next phase later = some .resting := by
  have hreachable : Reachable (State.step wireClient) State.init rejectedState :=
    ⟨rejectedHandshake, rfl⟩
  have hresume : run (State.step wireClient) rejectedState [.resume 0] = some finishedState := rfl
  obtain ⟨phase, phase', later, hphase, -, hlater, hrun, hfits⟩ :=
    events_accepted hreachable hresume 0
  rw [finishedState_eq] at hfits
  exact ⟨phase, later, hphase, hlater, hfits ▸ hrun⟩

/-- Up to the return of its second call, that handshake registered two handlers and heard twice. -/
theorem handlers_called_at_return_rejected :
    registeredCount (eventsOf 0 rejectedState.log) = receivedCount (eventsOf 0 rejectedState.log) :=
  (handlers_called_at_return reachable_finishedState 0 eventsOf_finishedState).1

end EspHomeApi
