import EspHomeApi.Deaf
import Mathlib.Logic.Relation

/-!
# Every call can still return

As long as one receiving loop is alive on the TCP connection that the socket is connected by, and
the device may send what a call waits for, there is no state in which the call is stuck: whatever
has happened so far, the run can be continued such that the call returns. Its coroutine is driven on
from phase to phase, the loop being brought back to receiving in between. The steps on the way leave
the socket as it is, so the loop stays on the connection.
-/

namespace EspHomeApi

open Run

variable {M : Type} {C : Client M} {s s' : State M} {task loop : ℕ} {call : Call} {action : Action}

/-- The coroutine is in the call. -/
def Task.InCall (call : Call) : Task M → Prop
  | .sending other _ _ _ => other = call
  | .registering other _ => other = call
  | .waiting other _ _ => other = call
  | _ => False

/-- The device can send the chunk, from which the loop decodes only the message, and the message
ends every wait of the call. -/
structure Answers (C : Client M) (call : Call) (chunk : Bytes) (message : M) : Prop where
  ne_nil : chunk ≠ []
  length_le : chunk.length ≤ receiveBufferSize
  decodes : (decodeMultiple C.toProtobuf receiveLoopTypes chunk).1 = [message]
  done : ∀ collected, ∃ result,
    call.operation.answer C.toMessages collected (.inl message) = .done result

/-- The receiving loop was started on the TCP connection that the socket is connected by. -/
def OnLine (s : State M) (loop : ℕ) : Prop :=
  ∃ caller connection heartbeatLoop, s.socket = .connected connection ∧
    (caller, .established connection loop heartbeatLoop) ∈ s.log

/-- The action does not rely on a connection that is gone: a loop receives bytes on line only. -/
def Action.Genuine (s : State M) : Action → Prop
  | .received loop (.ok _) => OnLine s loop
  | _ => True

/-- The state goes on by a genuine action that leaves the socket alone. -/
def Advances (C : Client M) (s s' : State M) : Prop :=
  ∃ action, s.step C action = some s' ∧ action.Genuine s ∧ s'.socket = s.socket

/-- From the state, such actions lead to another one. -/
abbrev Leads (C : Client M) : State M → State M → Prop := Relation.ReflTransGen (Advances C)

/-- The run can be continued such that the call of the coroutine returns. -/
def CanReturn (C : Client M) (s : State M) (task : ℕ) (call : Call) : Prop :=
  ∃ s' more result, Leads C s s' ∧ s'.log = s.log ++ more ∧ (task, .returned call result) ∈ more

/-- One step is a run. -/
theorem Leads.of_step (h : s.step C action = some s') (hgenuine : action.Genuine s)
    (hsocket : s'.socket = s.socket) : Leads C s s' := .single ⟨action, h, hgenuine, hsocket⟩

/-- What is reached from a reachable state is reachable. -/
theorem Leads.reachable (h : Leads C s s') (hreachable : Reachable (State.step C) State.init s) :
    Reachable (State.step C) State.init s' := by
  induction h with
  | refl => exact hreachable
  | tail _ hadvances ih =>
    obtain ⟨actions, hrun⟩ := ih
    obtain ⟨action, hstep, -⟩ := hadvances
    exact ⟨actions ++ [action], run_concat hrun hstep⟩

/-- The socket stays as it is. -/
theorem Leads.socket_eq (h : Leads C s s') : s'.socket = s.socket := by
  induction h with
  | refl => rfl
  | tail _ hadvances ih =>
    obtain ⟨action, -, -, hsocket⟩ := hadvances
    exact hsocket.trans ih

/-- Runs add to the history. -/
theorem Leads.exists_log (h : Leads C s s') : ∃ more, s'.log = s.log ++ more := by
  induction h with
  | refl => exact ⟨[], (List.append_nil _).symm⟩
  | tail _ hadvances ih =>
    obtain ⟨more, hmore⟩ := ih
    obtain ⟨action, hstep, -⟩ := hadvances
    obtain ⟨last, hlast⟩ := (handlerStep_of_transition (transition_of_step hstep)).exists_log
    exact ⟨more ++ last, by rw [hlast, hmore, List.append_assoc]⟩

/-- A loop that is on line stays so. -/
theorem Leads.onLine (h : Leads C s s') (hline : OnLine s loop) : OnLine s' loop := by
  obtain ⟨caller, connection, heartbeatLoop, hsocket, hestablished⟩ := hline
  obtain ⟨more, hlog⟩ := h.exists_log
  refine ⟨caller, connection, heartbeatLoop, h.socket_eq.trans hsocket, ?_⟩
  rw [hlog]
  exact List.mem_append_left more hestablished

/-- What can return later can return. -/
theorem Leads.canReturn (h : Leads C s s') (hreturn : CanReturn C s' task call) :
    CanReturn C s task call := by
  obtain ⟨last, more, result, hleads, hlog, hmem⟩ := hreturn
  obtain ⟨first, hfirst⟩ := h.exists_log
  exact ⟨last, first ++ more, result, h.trans hleads, by rw [hlog, hfirst, List.append_assoc],
    List.mem_append_right _ hmem⟩

/-- A call that goes on to its return can return. -/
theorem canReturn_of_move {next : Next M} (h : s.step C action = some (s.move C task next))
    (hgenuine : action.Genuine s) {result : Result (Value M)}
    (hreturned : .returned call result ∈ next.2) : CanReturn C s task call :=
  ⟨_, _, result, .of_step h hgenuine rfl, move_log C s task next, List.mem_map_of_mem hreturned⟩

/-- The lambda can submit all its handlers. -/
theorem exists_drained (C : Client M) (s : State M) :
    ∃ s', Leads C s s' ∧ s'.tasks = s.tasks ∧ s'.registry.draining = [] ∧
      s'.registry.handlers = s.registry.handlers ∧
      s'.registry.submitted = s.registry.submitted ++ s.registry.draining := by
  induction hdraining : s.registry.draining generalizing s with
  | nil => exact ⟨s, .refl, rfl, hdraining, rfl, (List.append_nil _).symm⟩
  | cons entry draining ih =>
    let next : State M := { s with registry := { s.registry with
      draining := draining
      submitted := s.registry.submitted ++ [entry]
      log := s.registry.log ++ [.submitted entry.1 entry.2] } }
    have hsubmit : s.step C .submit = some next := by
      simp [State.step, Registry.submit, hdraining, next]
    obtain ⟨s', hleads, htasks, hnone, hhandlers, hsubmitted⟩ := ih next rfl
    refine ⟨s', (Leads.of_step hsubmit trivial rfl).trans hleads, htasks, hnone, hhandlers, ?_⟩
    rw [hsubmitted, List.append_assoc]
    rfl

/-- A dispatch goes ahead when the lambda has submitted all its handlers. -/
theorem exists_dispatched (C : Client M) {message : M} {messages : List M}
    (htask : s.tasks loop = .dispatching (message :: messages)) (hnone : s.registry.draining = []) :
    ∃ s', Leads C s s' ∧ s'.tasks = Function.update s.tasks loop (.dispatching messages) ∧
      s'.registry.draining = s.registry.handlers.map fun handler => (handler, message) := by
  let registry : Registry Owner M := { s.registry with
    handlers := []
    draining := s.registry.handlers.map fun handler => (handler, message)
    log := s.registry.log ++ [.dispatched message] }
  have hdispatch : s.registry.dispatch message = some registry := by
    simp [Registry.dispatch, hnone, registry]
  have hstep : s.step C (.dispatch loop) = some ({ s with registry := registry }.move C loop
      (.dispatching messages, [.dispatched message])) := by
    simp only [State.step, State.dispatch, htask, hdispatch, Option.map_some]
  exact ⟨_, .of_step hstep trivial rfl, rfl, rfl⟩

/-- A loop can work off its chunk, and go back to receiving. -/
theorem exists_listening {messages : List M} (htask : s.tasks loop = .dispatching messages) :
    ∃ s', Leads C s s' ∧ s'.tasks loop = .listening ∧ s'.registry.draining = [] ∧
      ∀ other, other ≠ loop → s'.tasks other = s.tasks other := by
  induction messages generalizing s with
  | nil =>
    have hback : s.step C (.dispatch loop) = some (s.move C loop (.listening, [])) := by
      simp [State.step, State.dispatch, htask]
    obtain ⟨s', hleads, htasks, hnone, -⟩ := exists_drained C (s.move C loop (.listening, []))
    refine ⟨s', (Leads.of_step hback trivial rfl).trans hleads, ?_, hnone, fun other hother => ?_⟩
    · rw [htasks, move_tasks, Function.update_self]
    · rw [htasks, move_tasks, Function.update_of_ne hother]
  | cons message messages ih =>
    obtain ⟨s₁, hleads₁, htasks₁, hnone₁, -⟩ := exists_drained C s
    obtain ⟨s₂, hleads₂, htasks₂, -⟩ :=
      exists_dispatched C (htasks₁ ▸ htask : s₁.tasks loop = _) hnone₁
    obtain ⟨s', hleads, hlistening, hnone, hothers⟩ :=
      ih (by rw [htasks₂, Function.update_self] : s₂.tasks loop = _)
    refine ⟨s', hleads₁.trans (hleads₂.trans hleads), hlistening, hnone, fun other hother => ?_⟩
    rw [hothers other hother, htasks₂, Function.update_of_ne hother, htasks₁]

/-- A live loop can come to receive, the lambda being idle. -/
theorem exists_listening_of_receiving (h : (s.tasks loop).Receiving) :
    ∃ s', Leads C s s' ∧ s'.tasks loop = .listening ∧ s'.registry.draining = [] ∧
      ∀ other, other ≠ loop → s'.tasks other = s.tasks other := by
  cases htask : s.tasks loop with
  | listening =>
    obtain ⟨s', hleads, htasks, hnone, -⟩ := exists_drained C s
    exact ⟨s', hleads, htasks ▸ htask, hnone, fun other _ => by rw [htasks]⟩
  | dispatching messages => exact exists_listening htask
  | _ =>
    rw [htask] at h
    exact h.elim

/-- A message can complete an open wait. -/
theorem Race.exists_completeLeft {α β : Type*} {race : Race α β} (h : race.left? = none) (a : α) :
    ∃ race', race.completeLeft a = some race' := by
  cases race with
  | waiting => exact ⟨_, rfl⟩
  | leftFirst b other => simp [Race.left?] at h
  | rightFirst b other =>
    cases other with
    | none => exact ⟨_, rfl⟩
    | some c => simp [Race.left?] at h

/-- When the left operation has completed, the right one has too or can. -/
theorem Race.exists_result {α β : Type*} {race : Race α β} {a : α} (h : race.left? = some a)
    (b : β) :
    (∃ outcome, race.result? = some outcome) ∨
      ∃ race', race.completeRight b = some race' ∧ race'.result? = some (.inl a) := by
  cases race with
  | waiting => simp [Race.left?] at h
  | leftFirst first other =>
    obtain rfl := Option.some.inj h
    cases other with
    | none => exact Or.inr ⟨_, rfl, rfl⟩
    | some c => exact Or.inl ⟨_, rfl⟩
  | rightFirst c other =>
    cases other with
    | none => simp [Race.left?] at h
    | some first => exact Or.inl ⟨_, rfl⟩

/-- What becomes of a call that goes on: it returns, or is about to register. -/
def ReturnsOrRegisters (call : Call) (next : Next M) : Prop :=
  (∃ result, .returned call result ∈ next.2) ∨ ∃ collected, next.1 = .registering call collected

/-- An operation that returns to its caller says so. -/
theorem returned_mem_leave (stopRequested : Bool) (call : Call) (result : Result (Value M)) :
    .returned call result ∈ (leave stopRequested call result).2 := by
  obtain ⟨operation, caller⟩ := call
  cases caller <;> exact List.mem_cons_self

/-- An operation that succeeds returns. -/
theorem returned_mem_succeed (C : Client M) (stopRequested : Bool) (connection : Option ℕ)
    (call : Call) (value : Value M) :
    .returned call (.ok value) ∈ (succeed C stopRequested connection call value).2 := by
  unfold succeed
  split
  · exact List.mem_cons_self
  · exact returned_mem_leave stopRequested call _

/-- After its send, a call returns or registers. -/
theorem returnsOrRegisters_afterSend (C : Client M) (stopRequested : Bool)
    (connection : Option ℕ) (call : Call) (result : Result Unit) :
    ReturnsOrRegisters call (afterSend C stopRequested connection call result) := by
  unfold afterSend
  split
  · unfold sendFailed
    split
    · exact Or.inr ⟨[], rfl⟩
    · exact Or.inl ⟨_, returned_mem_leave stopRequested call _⟩
  · split
    · exact Or.inl ⟨_, returned_mem_succeed C stopRequested connection call _⟩
    · exact Or.inr ⟨[], rfl⟩

/-- After its wait, a call returns or registers; it returns if the wait was the last one. -/
theorem returnsOrRegisters_afterWait (C : Client M) (stopRequested : Bool)
    (connection : Option ℕ) (call : Call) (collected : List M) (outcome : M ⊕ ErrorCode) :
    ReturnsOrRegisters call (afterWait C stopRequested connection call collected outcome) ∧
      ((∃ result, call.operation.answer C.toMessages collected outcome = .done result) →
        ∃ result, .returned call result ∈
          (afterWait C stopRequested connection call collected outcome).2) := by
  unfold afterWait
  split
  · rename_i collected' hagain
    refine ⟨Or.inr ⟨collected', rfl⟩, fun ⟨result, hdone⟩ => ?_⟩
    rw [hdone] at hagain
    simp at hagain
  · rename_i error hdone
    have hreturned := returned_mem_leave (M := M) stopRequested call (.error error)
    exact ⟨Or.inl ⟨_, hreturned⟩, fun _ => ⟨_, hreturned⟩⟩
  · rename_i value hdone
    have hreturned := List.mem_append_right (greeting call outcome)
      (returned_mem_succeed C stopRequested connection call value)
    exact ⟨Or.inl ⟨_, hreturned⟩, fun _ => ⟨_, hreturned⟩⟩

/-- The coroutine can come to this suspension by itself, the registry being left alone. -/
def CanBecome (C : Client M) (s : State M) (task : ℕ) (t : Task M) : Prop :=
  ∃ s', Leads C s s' ∧ s'.tasks = Function.update s.tasks task t ∧ s'.registry = s.registry

/-- The call can return or come to register a handler. -/
def CanGoOn (C : Client M) (s : State M) (task : ℕ) (call : Call) : Prop :=
  CanReturn C s task call ∨ ∃ collected, CanBecome C s task (.registering call collected)

/-- A coroutine stays where it is. -/
theorem CanBecome.refl {t : Task M} (h : s.tasks task = t) : CanBecome C s task t :=
  ⟨s, .refl, by rw [← h, Function.update_eq_self], rfl⟩

/-- A coroutine that is moved by a step comes to its next suspension. -/
theorem CanBecome.of_step {next : Next M} (h : s.step C action = some (s.move C task next))
    (hgenuine : action.Genuine s) : CanBecome C s task next.1 :=
  ⟨_, .of_step h hgenuine rfl, rfl, rfl⟩

/-- A coroutine that can come somewhere can do what it can do from there. -/
theorem CanBecome.canGoOn {t : Task M} (h : CanBecome C s task t)
    (hthen : ∀ s', s'.tasks = Function.update s.tasks task t → s'.registry = s.registry →
      CanGoOn C s' task call) : CanGoOn C s task call := by
  obtain ⟨s₁, hleads, htasks, hregistry⟩ := h
  rcases hthen s₁ htasks hregistry with hreturn | ⟨collected, s₂, hleads₂, htasks₂, hregistry₂⟩
  · exact Or.inl (hleads.canReturn hreturn)
  · refine Or.inr ⟨collected, s₂, hleads.trans hleads₂, ?_, hregistry₂.trans hregistry⟩
    rw [htasks₂, htasks, Function.update_idem]

/-- A coroutine that goes on with its call can return or come to register. -/
theorem canGoOn_of_step {next : Next M}
    (h : s.step C action = some (s.move C task next)) (hgenuine : action.Genuine s)
    (hnext : ReturnsOrRegisters call next) : CanGoOn C s task call := by
  rcases hnext with ⟨result, hreturned⟩ | ⟨collected, hregistering⟩
  · exact Or.inl (canReturn_of_move h hgenuine hreturned)
  · exact Or.inr ⟨collected, hregistering ▸ CanBecome.of_step h hgenuine⟩

/-- A wait that has heard a message can be brought to its end. -/
theorem exists_outcome {collected : List M} {race : Race M ErrorCode} {message : M}
    (htask : s.tasks task = .waiting call collected race) (hleft : race.left? = some message) :
    ∃ race' outcome, CanBecome C s task (.waiting call collected race') ∧
      (Task.waiting call collected race').outcome? = some outcome ∧
        (outcome = .inl message ∨ call.operation.timed = true ∧ ∃ error, outcome = .inr error) := by
  by_cases htimed : call.operation.timed = true
  · have hfrom {race' : Race M ErrorCode} {outcome : M ⊕ ErrorCode}
        (hresult : race'.result? = some outcome) :
        (Task.waiting call collected race').outcome? = some outcome := by
      rw [Task.outcome?, if_pos htimed, hresult]
    rcases Race.exists_result hleft ErrorCode.operationAborted with
      ⟨outcome, hresult⟩ | ⟨race', hrace, hresult⟩
    · refine ⟨race, outcome, .refl htask, hfrom hresult, ?_⟩
      obtain ⟨first, hfirst, hsame⟩ := Race.left?_of_result? hresult
      obtain rfl := Option.some.inj (hleft.symm.trans hfirst)
      cases outcome with
      | inl value => exact Or.inl (congrArg Sum.inl (hsame value rfl))
      | inr error => exact Or.inr ⟨htimed, error, rfl⟩
    · refine ⟨race', .inl message, ?_, hfrom hresult, Or.inl rfl⟩
      have hstep : s.step C (.expired task .operationAborted) =
          some (s.move C task (.waiting call collected race', [])) := by
        simp [State.step, State.expired, htask, htimed, hrace]
      exact CanBecome.of_step hstep trivial
  · refine ⟨race, .inl message, .refl htask, ?_, Or.inl rfl⟩
    rw [Task.outcome?, if_neg htimed, hleft, Option.map_some]

/-- A call that has heard a message can return or come to register again; if the message ends its
wait, it can return. -/
theorem canReturn_of_heard {collected : List M} {race : Race M ErrorCode} {message : M}
    (htask : s.tasks task = .waiting call collected race) (hleft : race.left? = some message) :
    CanGoOn C s task call ∧
      ((∀ collected, ∃ result,
          call.operation.answer C.toMessages collected (.inl message) = .done result) →
        CanReturn C s task call) := by
  obtain ⟨race', outcome, hbecome, houtcome, hwhich⟩ := exists_outcome (C := C) htask hleft
  have hresume {s' : State M}
      (htasks : s'.tasks = Function.update s.tasks task (.waiting call collected race')) :
      s'.step C (.resume task) = some (s'.move C task
        (afterWait C s'.stopRequested s'.socket.connection? call collected outcome)) := by
    simp [State.step, State.resume, htasks, houtcome]
  constructor
  · refine hbecome.canGoOn fun s' htasks _ => ?_
    exact canGoOn_of_step (hresume htasks) trivial
      (returnsOrRegisters_afterWait C _ _ call collected outcome).1
  · intro hdone
    obtain ⟨s', hleads, htasks, -⟩ := hbecome
    have hend : ∃ result, call.operation.answer C.toMessages collected outcome = .done result := by
      rcases hwhich with rfl | ⟨htimed, error, rfl⟩
      · exact hdone collected
      · exact ⟨_, answer_timer htimed collected error⟩
    obtain ⟨result, hreturned⟩ :=
      (returnsOrRegisters_afterWait C s'.stopRequested s'.socket.connection? call collected
        outcome).2 hend
    exact hleads.canReturn (canReturn_of_move (hresume htasks) trivial hreturned)

/-- A call that waits for its send can return or come to register. -/
theorem canGoOn_of_sending {packet : Bytes} {connection : Option ℕ} {race : TimedOperation ℕ}
    (htask : s.tasks task = .sending call packet connection race) : CanGoOn C s task call := by
  -- The last step, from a race that is over.
  have hover {s' : State M} {race : TimedOperation ℕ} {outcome : (ErrorCode × ℕ) ⊕ ErrorCode}
      (hsending : s'.tasks task = .sending call packet connection race)
      (hresult : Race.result? race = some outcome) : CanGoOn C s' task call := by
    have hresume : s'.step C (.resume task) = some (s'.move C task
        (afterSend C s'.stopRequested s'.socket.connection? call
          (sendMessageResult packet (flatten outcome)))) := by
      simp [State.step, State.resume, hsending, TimedOperation.result?, hresult]
    exact canGoOn_of_step hresume trivial (returnsOrRegisters_afterSend C _ _ call _)
  -- From a race whose send is over, the timer is cancelled.
  have hsent {s' : State M} {race : TimedOperation ℕ} {completion : ErrorCode × ℕ}
      (hsending : s'.tasks task = .sending call packet connection race)
      (hleft : race.left? = some completion) : CanGoOn C s' task call := by
    rcases Race.exists_result hleft ErrorCode.operationAborted with
      ⟨outcome, hresult⟩ | ⟨race', hrace, hresult⟩
    · exact hover hsending hresult
    · have hexpire : s'.step C (.expired task .operationAborted) =
          some (s'.move C task (.sending call packet connection race', [])) := by
        simp [State.step, State.expired, hsending, hrace]
      refine (CanBecome.of_step hexpire trivial).canGoOn fun s'' htasks _ => hover ?_ hresult
      rw [htasks, Function.update_self]
  -- From a race whose timer is over, the send is cancelled.
  have hexpired {s' : State M} {error : ErrorCode}
      (hsending : s'.tasks task = .sending call packet connection (.rightFirst error none)) :
      CanGoOn C s' task call := by
    have hcancel : s'.step C (.sent task .operationAborted 0) = some (s'.move C task
        (.sending call packet connection
          (.rightFirst error (some (.operationAborted, 0))), [])) := by
      simp [State.step, State.sent, hsending, Race.completeLeft]
    have hresult : Race.result? (Race.rightFirst error (some (ErrorCode.operationAborted, 0))) =
        some (.inr error) := rfl
    refine (CanBecome.of_step hcancel trivial).canGoOn fun s'' htasks _ => hover ?_ hresult
    rw [htasks, Function.update_self]
  cases race with
  | waiting =>
    have hexpire : s.step C (.expired task .success) =
        some (s.move C task (.sending call packet connection (.rightFirst .success none), [])) := by
      simp [State.step, State.expired, htask, Race.completeRight]
    refine (CanBecome.of_step hexpire trivial).canGoOn fun s' htasks _ => ?_
    apply hexpired
    rw [htasks, Function.update_self]
  | leftFirst completion other => exact hsent htask rfl
  | rightFirst error other =>
    cases other with
    | none => exact hexpired htask
    | some completion => exact hsent htask rfl

/-- The call is the next one to hear: the loop receives on line, the lambda is idle, and the handler
of the call is in `handlers_`. -/
structure Ready (s : State M) (loop task : ℕ) (call : Call) : Prop where
  onLine : OnLine s loop
  listening : s.tasks loop = .listening
  idle : s.registry.draining = []
  waiting : ∃ collected race, s.tasks task = .waiting call collected race ∧ race.left? = none
  inPlace : HandlerInPlace s ⟨task, call⟩

/-- A submitted handler of an open wait can be run. -/
theorem exists_heard {collected : List M} {race : Race M ErrorCode}
    (htask : s.tasks task = .waiting call collected race) (hopen : race.left? = none)
    {handler : Handler Owner} {message : M} (hmem : (handler, message) ∈ s.registry.submitted)
    (howner : handler.owner.task = task) :
    ∃ s' race', Leads C s s' ∧ race'.left? = some message ∧
      s'.tasks = Function.update s.tasks task (.waiting call collected race') ∧
      s'.registry.draining = s.registry.draining := by
  obtain ⟨index, hindex⟩ := List.mem_iff_getElem?.mp hmem
  obtain ⟨race', hrace⟩ := Race.exists_completeLeft hopen message
  let registry : Registry Owner M := { s.registry with
    submitted := s.registry.submitted.eraseIdx index
    log := s.registry.log ++ [.called handler message] }
  have hexecute : s.registry.execute index = some registry := by
    simp [Registry.execute, hindex, registry]
  have hstep : s.step C (.execute index) = some ({ s with registry := registry }.move C task
      (.waiting call collected race', [.received call message])) := by
    subst howner
    simp [State.step, State.execute, hindex, hexecute, htask, hrace]
  exact ⟨_, race', .of_step hstep trivial rfl, (Race.left?_of_completeLeft hrace).2, rfl, rfl⟩

/-- The device answers a call that is ready, and the call returns. -/
theorem Ready.canReturn (h : Ready s loop task call) {chunk : Bytes} {message : M}
    (hanswers : Answers C call chunk message) : CanReturn C s task call := by
  obtain ⟨collected, race, htask, hopen⟩ := h.waiting
  have hother : task ≠ loop := by
    intro hsame
    subst hsame
    rw [h.listening] at htask
    simp at htask
  have hreceive : s.step C (.received loop (.ok chunk)) =
      some (s.move C loop (.dispatching [message], [])) := by
    simp [State.step, State.received, h.listening, hanswers.ne_nil, hanswers.length_le,
      hanswers.decodes]
  have hdispatching : (s.move C loop (.dispatching [message], [])).tasks loop =
      .dispatching [message] := Function.update_self _ _ _
  obtain ⟨s₁, hleads₁, htasks₁, hdraining₁⟩ := exists_dispatched C hdispatching h.idle
  obtain ⟨s₂, hleads₂, htasks₂, -, -, hsubmitted₂⟩ := exists_drained C s₁
  have htask₂ : s₂.tasks task = .waiting call collected race := by
    rw [htasks₂, htasks₁, Function.update_of_ne hother, move_tasks, Function.update_of_ne hother,
      htask]
  obtain ⟨handler, hhandler, howner⟩ := h.inPlace
  have hmem : (handler, message) ∈ s₂.registry.submitted := by
    rw [hsubmitted₂, hdraining₁]
    exact List.mem_append_right _ (List.mem_map_of_mem hhandler)
  obtain ⟨s₃, race', hleads₃, hleft, htasks₃, -⟩ :=
    exists_heard (C := C) htask₂ hopen hmem (congrArg Owner.task howner)
  have htask₃ : s₃.tasks task = .waiting call collected race' := by
    rw [htasks₃, Function.update_self]
  have hreturn := (canReturn_of_heard (C := C) htask₃ hleft).2 hanswers.done
  exact (Leads.of_step hreceive h.onLine rfl).canReturn
    (hleads₁.canReturn (hleads₂.canReturn (hleads₃.canReturn hreturn)))

/-- A coroutine that registers while a loop receives is ready. -/
theorem exists_ready (hline : OnLine s loop) (hlistening : s.tasks loop = .listening)
    (hidle : s.registry.draining = []) {collected : List M}
    (htask : s.tasks task = .registering call collected) :
    ∃ s', Leads C s s' ∧ Ready s' loop task call := by
  have hother : loop ≠ task := by
    intro hsame
    subst hsame
    rw [hlistening] at htask
    simp at htask
  have hregister : s.step C (.register task) =
      some ({ s with registry := s.registry.register ⟨task, call⟩ }.move C task
        (.waiting call collected .waiting, [.registered call])) := by
    simp [State.step, State.register, htask]
  have hleads := Leads.of_step hregister trivial rfl
  refine ⟨_, hleads, hleads.onLine hline, ?_, hidle, ⟨collected, .waiting, ?_, rfl⟩, ?_⟩
  · rw [move_tasks, Function.update_of_ne hother, hlistening]
  · rw [move_tasks, Function.update_self]
  · exact ⟨_, List.mem_append_right _ (List.mem_singleton_self _), rfl⟩

/-- While a loop receives, a call that can return or come to register can return. -/
theorem canReturn_of_registering (hline : OnLine s loop) (hlistening : s.tasks loop = .listening)
    (hidle : s.registry.draining = []) (hother : loop ≠ task) {chunk : Bytes} {message : M}
    (hanswers : Answers C call chunk message) (h : CanGoOn C s task call) :
    CanReturn C s task call := by
  rcases h with hreturn | ⟨collected, s₁, hleads₁, htasks₁, hregistry₁⟩
  · exact hreturn
  · have hlistening₁ : s₁.tasks loop = .listening := by
      rw [htasks₁, Function.update_of_ne hother, hlistening]
    have htask₁ : s₁.tasks task = .registering call collected := by
      rw [htasks₁, Function.update_self]
    obtain ⟨s₂, hleads₂, hready⟩ :=
      exists_ready (C := C) (hleads₁.onLine hline) hlistening₁ (hregistry₁ ▸ hidle) htask₁
    exact hleads₁.canReturn (hleads₂.canReturn (hready.canReturn hanswers))

/-- As long as a receiving loop is alive on line and the device can answer, no call is stuck:
whatever has happened so far, the run can be continued such that the call returns, the socket being
left as it is. -/
theorem canReturn_of_receiving (h : Reachable (State.step C) State.init s) (hline : OnLine s loop)
    (hloop : (s.tasks loop).Receiving) (hcall : (s.tasks task).InCall call) {chunk : Bytes}
    {message : M} (hanswers : Answers C call chunk message) : CanReturn C s task call := by
  have hother : loop ≠ task := by
    intro hsame
    subst hsame
    cases htask : s.tasks loop with
    | listening | dispatching =>
      rw [htask] at hcall
      exact hcall.elim
    | _ =>
      rw [htask] at hloop
      exact hloop.elim
  obtain ⟨s₁, hleads₁, hlistening, hidle, hsame⟩ := exists_listening_of_receiving (C := C) hloop
  have htask₁ := hsame task (Ne.symm hother)
  have hline₁ := hleads₁.onLine hline
  have hregisters := canReturn_of_registering (C := C) hline₁ hlistening hidle hother hanswers
  apply hleads₁.canReturn
  cases htask : s.tasks task with
  | sending other packet connection race =>
    rw [htask] at hcall htask₁
    obtain rfl : other = call := hcall
    exact hregisters (canGoOn_of_sending htask₁)
  | registering other collected =>
    rw [htask] at hcall htask₁
    obtain rfl : other = call := hcall
    exact hregisters (Or.inr ⟨collected, .refl htask₁⟩)
  | waiting other collected race =>
    rw [htask] at hcall htask₁
    obtain rfl : other = call := hcall
    cases hleft : race.left? with
    | some heard => exact hregisters (canReturn_of_heard htask₁ hleft).1
    | none =>
      -- The handler is in `handlers_`, or it was submitted with an earlier message.
      have hcoupled : s₁.Coupled := State.coupled_of_reachable (hleads₁.reachable h)
      have hcount := hcoupled.count ⟨task, other⟩
      rw [htask₁, Task.openWait, hleft] at hcount
      have howner : ⟨task, other⟩ ∈ s₁.registry.owners := by
        rw [← List.count_pos_iff, hcount]
        simp
      rw [Registry.owners, hidle, List.append_nil] at howner
      rcases List.mem_append.mp howner with hsubmitted | hhandlers
      · obtain ⟨⟨handler, earlier⟩, hmem, howner⟩ := List.mem_map.mp hsubmitted
        obtain ⟨s₂, race', hleads₂, hheard, htasks₂, hidle₂⟩ :=
          exists_heard (C := C) htask₁ hleft hmem (congrArg Owner.task howner)
        have hlistening₂ : s₂.tasks loop = .listening := by
          rw [htasks₂, Function.update_of_ne hother, hlistening]
        have htask₂ : s₂.tasks task = .waiting other collected race' := by
          rw [htasks₂, Function.update_self]
        exact hleads₂.canReturn (canReturn_of_registering (hleads₂.onLine hline₁) hlistening₂
          (hidle₂.trans hidle) hother hanswers (canReturn_of_heard htask₂ hheard).1)
      · have hready : Ready s₁ loop task other :=
          ⟨hline₁, hlistening, hidle, ⟨collected, race, htask₁, hleft⟩, List.mem_map.mp hhandlers⟩
        exact hready.canReturn hanswers
  | _ =>
    rw [htask] at hcall
    exact hcall.elim

/-- A coroutine waits for the information of the device on a connection that is alive. -/
def askedDevice : List Action :=
  [.connect, .resolved 0 (.ok ()), .connected 0 (.ok ()), .call .requestDeviceInfo]

/-- The state after that. -/
def askedDeviceState : State WireMessage :=
  (run (State.step wireClient) State.init askedDevice).getD State.init

/-- An empty DeviceInfoResponse answers the call. -/
theorem answers_deviceInfo :
    Answers wireClient ⟨.requestDeviceInfo, .user⟩ [0, 0, 10] ⟨.deviceInfoResponse, []⟩ where
  ne_nil := by simp
  length_le := by decide
  decodes := by rfl
  done collected := ⟨.ok (.message ⟨.deviceInfoResponse, []⟩), by rfl⟩

/-- The call can return. -/
theorem canReturn_of_receiving_askedDevice :
    CanReturn wireClient askedDeviceState 3 ⟨.requestDeviceInfo, .user⟩ := by
  have hline : OnLine askedDeviceState 1 := ⟨0, 0, 2, rfl, List.mem_cons_self⟩
  have hreceiving : (askedDeviceState.tasks 1).Receiving := trivial
  have hcall : (askedDeviceState.tasks 3).InCall ⟨.requestDeviceInfo, .user⟩ := rfl
  exact canReturn_of_receiving ⟨askedDevice, rfl⟩ hline hreceiving hcall answers_deviceInfo

end EspHomeApi
