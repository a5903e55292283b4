import EspHomeApi.CallTrace
import EspHomeApi.Delivery

/-!
# Responses and the handlers that wait for them

A call registers its handler after its send has returned, and every dispatch takes all handlers. A
response that is decoded before that, or after another message and before the call has registered
anew, finds no handler of the call. So whether a response is missed is told by the order in which
the request was written, the handler was registered and messages were dispatched.
-/

namespace EspHomeApi

open Run

variable {M : Type} {C : Client M} {s s' : State M}

/-- The operations that wait for the response to their request. -/
def respondedOperations : List Operation :=
  [.sendMessageHello, .sendMessageConnect, .requestDeviceInfo, .requestEntitiesAndServices,
    .disconnect]

/-- The messages that answer the request of an operation. -/
def Operation.answeredBy (C : Messages M) (operation : Operation) (message : M) : Bool :=
  match operation.expects with
  | .nothing => false
  | .message type => C.holdsMessage type message
  | .anyMessage types => types.any fun type => C.holdsMessage type message
  | .messages stop types => (stop :: types).any fun type => C.holdsMessage type message

/-- The message is the first answer decoded after the request of the call was written in full. -/
def FirstResponse (C : Client M) (log : List (ℕ × Event M)) (owner : Owner) (message : M) : Prop :=
  owner.call.operation.answeredBy C.toMessages message = true ∧
    ∃ before connection packet after,
      log = before ++ (owner.task, .wrote owner.call connection packet packet.length) :: after ∧
      ∀ earlier ∈ dispatchedIn after,
        owner.call.operation.answeredBy C.toMessages earlier = false

/-- In the state `s` of the run, `receive_loop` dispatches the first response to the request. -/
def RespondsAt (C : Client M) (actions : List Action) (s : State M) (owner : Owner) : Prop :=
  owner.call.operation ∈ respondedOperations ∧
    ∃ receiver s' message messages,
      Passes (State.step C) State.init actions s (.dispatch receiver) s' ∧
        s.tasks receiver = .dispatching (message :: messages) ∧
        FirstResponse C s.log owner message

/-- Every first response of the run finds a handler of the call. -/
def NoMissedResponse (C : Client M) (actions : List Action) : Prop :=
  ∀ s owner, RespondsAt C actions s owner → HandlerInPlace s owner

/-- The call has registered a handler, and nothing was dispatched since. -/
def RegisteredSince (log : List (ℕ × Event M)) (owner : Owner) : Prop :=
  ∃ before after, log = before ++ (owner.task, .registered owner.call) :: after ∧
    dispatchedIn after = []

/-- The call wrote its request in full and registered a handler later, and nothing was dispatched
since. -/
def RegisteredInTime (log : List (ℕ × Event M)) (owner : Owner) : Prop :=
  ∃ before connection packet between after,
    log = before ++ (owner.task, .wrote owner.call connection packet packet.length) ::
      (between ++ (owner.task, .registered owner.call) :: after) ∧
    dispatchedIn after = []

/-- Before every first response of the run the call has registered in time. -/
def AlwaysInTime (C : Client M) (actions : List Action) : Prop :=
  ∀ s owner, RespondsAt C actions s owner → RegisteredInTime s.log owner

/-- A later event that dispatches nothing leaves the handler registered. -/
theorem RegisteredSince.append {log more : List (ℕ × Event M)} {owner : Owner}
    (h : RegisteredSince log owner) (hmore : dispatchedIn more = []) :
    RegisteredSince (log ++ more) owner := by
  obtain ⟨before, after, rfl, hnone⟩ := h
  refine ⟨before, after ++ more, by rw [List.append_assoc, List.cons_append], ?_⟩
  rw [dispatchedIn_append, hnone, hmore, List.append_nil]

/-- What one more event makes of the registrations: it is one itself, or it dispatches nothing. -/
theorem registeredSince_concat {log : List (ℕ × Event M)} {entry : ℕ × Event M} {owner : Owner} :
    RegisteredSince (log ++ [entry]) owner ↔
      entry = (owner.task, .registered owner.call) ∨
        (RegisteredSince log owner ∧ dispatchedIn [entry] = []) := by
  constructor
  · intro h
    obtain ⟨before, after, hsplit, hnone⟩ := h
    rcases List.eq_nil_or_concat after with rfl | ⟨rest, last, rfl⟩
    · exact Or.inl (List.cons.inj (List.append_inj' hsplit rfl).2).1
    · rw [List.concat_eq_append, ← List.cons_append, ← List.append_assoc] at hsplit
      obtain ⟨hlog, hlast⟩ := List.append_inj' hsplit rfl
      rw [List.concat_eq_append, dispatchedIn_append] at hnone
      obtain ⟨hrest, hentry⟩ := List.append_eq_nil_iff.mp hnone
      exact Or.inr ⟨⟨before, rest, hlog, hrest⟩, hlast ▸ hentry⟩
  · intro h
    rcases h with rfl | ⟨hregistered, hnone⟩
    · exact ⟨log, [], rfl, rfl⟩
    · exact hregistered.append hnone

/-- Quiet events leave the registrations as they are. -/
theorem registeredSince_append_of_quiet {log more : List (ℕ × Event M)} {owner : Owner}
    (h : ∀ entry ∈ more, entry.2.Quiet) :
    RegisteredSince (log ++ more) owner ↔ RegisteredSince log owner := by
  induction more using List.reverseRecOn with
  | nil => rw [List.append_nil]
  | append_singleton more entry ih =>
    have hquiet : entry.2.Quiet := h entry (List.mem_append_right more List.mem_cons_self)
    have hnone : dispatchedIn [entry] = [] := by
      obtain ⟨other, event⟩ := entry
      cases event with
      | dispatched message => exact hquiet.elim
      | _ => rfl
    have hother : entry ≠ (owner.task, .registered owner.call) := by
      intro hsame
      rw [hsame] at hquiet
      exact hquiet
    rw [← List.append_assoc, registeredSince_concat,
      ih fun earlier hearlier => h earlier (List.mem_append_left [entry] hearlier)]
    simp [hother, hnone]

/-- What a step does to `handlers_` is what its events do to the registrations. -/
theorem handlerInPlace_step {owner : Owner} (hstep : HandlerStep s s')
    (h : HandlerInPlace s owner ↔ RegisteredSince s.log owner) :
    HandlerInPlace s' owner ↔ RegisteredSince s'.log owner := by
  cases hstep with
  | quiet hlog hquiet hregistry =>
    rw [hlog, registeredSince_append_of_quiet hquiet, ← h, HandlerInPlace, HandlerInPlace,
      hregistry]
  | @registered task call hopen hlog hregistry =>
    have hentry : ((task, .registered call) : ℕ × Event M) = (owner.task, .registered owner.call) ↔
        (⟨task, call⟩ : Owner) = owner := by
      obtain ⟨ownTask, ownCall⟩ := owner
      simp
    rw [hlog, registeredSince_concat, ← h, HandlerInPlace, HandlerInPlace, hregistry, hentry]
    simp only [Registry.register, List.mem_append, List.mem_singleton, or_and_right, exists_or,
      exists_eq_left]
    rw [or_comm]
    exact or_congr_right (and_iff_left rfl).symm
  | @dispatched receiver message hlog hregistry =>
    obtain ⟨-, hdispatched⟩ := Registry.dispatch_eq_some hregistry
    rw [hlog, registeredSince_concat, HandlerInPlace, hdispatched]
    simp [dispatchedIn]
  | submitted hlog hregistry =>
    obtain ⟨handler, message, draining, -, hsubmitted⟩ := Registry.submit_eq_some hregistry
    rw [hlog, ← h, HandlerInPlace, HandlerInPlace, hsubmitted]
  | called hindex hclosed hlog hregistry =>
    obtain ⟨_, _, _, hexecuted⟩ := Registry.execute_eq_some hregistry
    rw [hlog, registeredSince_concat, ← h, HandlerInPlace, HandlerInPlace, hexecuted]
    simp [dispatchedIn]

/-- In every reachable state `handlers_` has the handlers of the calls that registered since the
last dispatch. -/
theorem handlerInPlace_iff_registeredSince (h : Reachable (State.step C) State.init s)
    (owner : Owner) : HandlerInPlace s owner ↔ RegisteredSince s.log owner := by
  refine h.invariant (P := fun s => HandlerInPlace s owner ↔ RegisteredSince s.log owner) ?_ ?_
  · simp [HandlerInPlace, RegisteredSince, State.init, Registry.empty]
  · intro s action s' _ hs hstep
    exact handlerInPlace_step (handlerStep_of_transition (transition_of_step hstep)) hs

/-- Only a registration arms a coroutine. -/
theorem Phase.registered_of_armed {phase : Phase} {event : Event M} {call : Call}
    (h : phase.next event = some (.armed call)) : event = .registered call := by
  unfold Phase.next at h
  split at h
  all_goals try split at h
  all_goals simp at h
  all_goals simp_all

/-- A coroutine whose handler is in `handlers_` has done nothing since it registered. -/
theorem eventsOf_of_handlerInPlace (h : Reachable (State.step C) State.init s) {owner : Owner}
    (hplace : HandlerInPlace s owner) :
    ∃ earlier, eventsOf owner.task s.log = earlier ++ [.registered owner.call] := by
  obtain ⟨hopen, -⟩ := ((State.coupled_of_reachable h).handlerInPlace_iff owner).mp hplace
  obtain ⟨phase, hrun, hfits⟩ := phase_of_reachable h owner.task
  have harmed : phase = .armed owner.call := by
    cases htask : s.tasks owner.task with
    | waiting call collected race =>
      rw [htask, Task.openWait] at hopen
      rw [htask] at hfits
      by_cases hleft : race.left?.isNone = true
      · rw [if_pos hleft] at hopen
        rw [hfits.2, if_pos hleft, Option.some.inj hopen]
      · rw [if_neg hleft] at hopen
        simp at hopen
    | _ =>
      rw [htask] at hopen
      simp [Task.openWait] at hopen
  refine run_induction (P := fun events phase => phase = .armed owner.call →
    ∃ earlier, events = earlier ++ [.registered owner.call]) (by simp) ?_ hrun harmed
  intro events phase event phase' _ _ hnext hphase
  rw [hphase] at hnext
  exact ⟨events, by rw [Phase.registered_of_armed hnext]⟩

/-- The last event of a coroutine is an entry of the history behind which it has none. -/
theorem exists_last_of_eventsOf {log : List (ℕ × Event M)} {task : ℕ} {earlier : List (Event M)}
    {event : Event M} (h : eventsOf task log = earlier ++ [event]) :
    ∃ before after, log = before ++ (task, event) :: after ∧ eventsOf task after = [] := by
  obtain ⟨first, second, rfl, -, hsecond⟩ := List.filterMap_eq_append_iff.mp h
  obtain ⟨others, entry, after, rfl, -, hentry, hafter⟩ := List.filterMap_eq_cons_iff.mp hsecond
  obtain ⟨other, last⟩ := entry
  obtain ⟨rfl, hevent⟩ := Option.ite_none_right_eq_some.mp hentry
  obtain rfl := Option.some.inj hevent
  exact ⟨first ++ others, after, by rw [List.append_assoc], hafter⟩

/-- A coroutine has an event that is in the history. -/
theorem eventsOf_ne_nil {task : ℕ} {event : Event M} (before after : List (ℕ × Event M)) :
    eventsOf task (before ++ (task, event) :: after) ≠ [] := by
  intro hnil
  rw [eventsOf, List.filterMap_eq_nil_iff] at hnil
  have hnone := hnil (task, event) (List.mem_append_right before List.mem_cons_self)
  rw [if_pos rfl] at hnone
  simp at hnone

/-- A call whose handler is in `handlers_` when the first response comes has registered in time. -/
theorem registeredInTime_of_inPlace (h : Reachable (State.step C) State.init s) {owner : Owner}
    {message : M} (hfirst : FirstResponse C s.log owner message) (hplace : HandlerInPlace s owner) :
    RegisteredInTime s.log owner := by
  obtain ⟨-, before, connection, packet, after, hwrote, -⟩ := hfirst
  obtain ⟨earlier, hevents⟩ := eventsOf_of_handlerInPlace h hplace
  obtain ⟨first, last, hlast, hdone⟩ := exists_last_of_eventsOf hevents
  -- nothing was dispatched behind the registration that is the last event of the call
  have hnone : dispatchedIn last = [] := by
    obtain ⟨first', last', hlast', hnone'⟩ := (handlerInPlace_iff_registeredSince h owner).mp hplace
    rcases split_compare (hlast.symm.trans hlast') with
      ⟨between, hbetween⟩ | ⟨-, hsame⟩ | ⟨between, hbetween⟩
    · exact absurd (hbetween ▸ hdone) (eventsOf_ne_nil between last')
    · rw [hsame, hnone']
    · rw [hbetween, dispatchedIn_append] at hnone'
      exact (List.append_eq_nil_iff.mp hnone').2
  rcases split_compare (hwrote.symm.trans hlast) with
    ⟨between, hbetween⟩ | ⟨hsame, -⟩ | ⟨between, hbetween⟩
  · exact ⟨before, connection, packet, between, last, hbetween ▸ hwrote, hnone⟩
  · simp at hsame
  · exact absurd (hbetween ▸ hdone) (eventsOf_ne_nil between after)

/-- In every run, the first responses find handlers of their calls exactly when each of these calls
has written its request and then registered its handler before the response is dispatched, with no
other message dispatched since. -/
theorem noMissedResponse_iff (C : Client M) (actions : List Action) :
    NoMissedResponse C actions ↔ AlwaysInTime C actions := by
  constructor
  · intro h s owner hresponds
    have hplace := h s owner hresponds
    obtain ⟨-, receiver, s', message, messages, hpasses, -, hfirst⟩ := hresponds
    exact registeredInTime_of_inPlace hpasses.reachable hfirst hplace
  · intro h s owner hresponds
    obtain ⟨before, connection, packet, between, after, hlog, hnone⟩ := h s owner hresponds
    obtain ⟨-, receiver, s', message, messages, hpasses, -⟩ := hresponds
    apply (handlerInPlace_iff_registeredSince hpasses.reachable owner).mpr
    refine ⟨before ++ (owner.task, .wrote owner.call connection packet packet.length) :: between,
      after, ?_, hnone⟩
    rw [hlog, List.append_assoc, List.cons_append]

/-- A run in which the device answers the HelloRequest after the handler was registered. -/
def timelyHello : List Action :=
  [.connect, .resolved 0 (.ok ()), .connected 0 (.ok ()), .sent 0 .success 11,
    .expired 0 .operationAborted, .resume 0, .register 0, .received 1 (.ok helloPacket)]

/-- The state of that run. -/
def timelyHelloState : State WireMessage :=
  ((run (State.step wireClient) State.init timelyHello).getD State.init)

/-- The history of that run before the response. -/
theorem timelyHelloState_log : timelyHelloState.log =
    [(0, .established 0 1 2), (0, .began helloCall),
      (0, .wrote helloCall 0 [0, 8, 1, 10, 6, 99, 112, 112, 97, 112, 105] 11),
      (0, .registered helloCall)] := rfl

/-- In that run the response is dispatched, and the handler was registered in time. -/
theorem noMissedResponse_iff_timelyHello :
    RespondsAt wireClient (timelyHello ++ [.dispatch 1]) timelyHelloState ⟨0, helloCall⟩ ∧
      NoMissedResponse wireClient (timelyHello ++ [.dispatch 1]) := by
  constructor
  · exact ⟨by decide, 1, _, helloMessage, [], ⟨timelyHello, [], rfl, rfl, rfl⟩, rfl, rfl,
      [(0, .established 0 1 2), (0, .began helloCall)], 0,
      [0, 8, 1, 10, 6, 99, 112, 112, 97, 112, 105], [(0, .registered helloCall)], rfl,
      by simp [dispatchedIn]⟩
  · refine (noMissedResponse_iff wireClient _).mpr ?_
    intro s owner hresponds
    obtain ⟨-, receiver, s', message, messages, hpasses, -, hfirst⟩ := hresponds
    obtain ⟨-, hrun⟩ := hpasses.last (by simp [timelyHello])
    obtain rfl : timelyHelloState = s := by rw [timelyHelloState, hrun, Option.getD_some]
    obtain ⟨-, before, connection, packet, after, hlog, -⟩ := hfirst
    have hmem : (owner.task, .wrote owner.call connection packet packet.length) ∈
        timelyHelloState.log := hlog ▸ List.mem_append_right before List.mem_cons_self
    rw [timelyHelloState_log] at hmem
    obtain ⟨task, call⟩ := owner
    simp only [List.mem_cons, Prod.mk.injEq, reduceCtorEq, and_false, Event.wrote.injEq,
      List.not_mem_nil, or_self, or_false, false_or] at hmem
    obtain ⟨rfl, rfl, rfl, rfl, -⟩ := hmem
    exact
      ⟨[(0, .established 0 1 2), (0, .began helloCall)], 0, _, [], [], timelyHelloState_log, rfl⟩

/-- A run in which the device answers the HelloRequest before the send has returned. -/
def earlyHello : List Action :=
  [.connect, .resolved 0 (.ok ()), .connected 0 (.ok ()), .sent 0 .success 11,
    .received 1 (.ok helloPacket)]

/-- The state of that run. -/
def earlyHelloState : State WireMessage :=
  ((run (State.step wireClient) State.init earlyHello).getD State.init)

/-- The HelloResponse finds no handler, although the HelloRequest was written in full. -/
theorem missed_helloResponse : ¬ NoMissedResponse wireClient (earlyHello ++ [.dispatch 1]) := by
  intro h
  have hresponds : RespondsAt wireClient (earlyHello ++ [.dispatch 1]) earlyHelloState
      ⟨0, helloCall⟩ := by
    refine ⟨by decide, 1, _, helloMessage, [], ⟨earlyHello, [], rfl, rfl, rfl⟩, rfl, rfl,
      [(0, .established 0 1 2), (0, .began helloCall)], 0,
      [0, 8, 1, 10, 6, 99, 112, 112, 97, 112, 105], [], rfl, ?_⟩
    simp [dispatchedIn]
  obtain ⟨handler, hmem, -⟩ := h _ _ hresponds
  have hnone : earlyHelloState.registry.handlers = [] := by rfl
  rw [hnone] at hmem
  simp at hmem

end EspHomeApi
