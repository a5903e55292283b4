import EspHomeApi.Handshake

/-!
# Sessions and how they end

A session begins with a TCP connection, on which `connect` starts its two loops. When the handshake
fails, or the device has agreed to disconnect, the code returns to its user and does nothing else:
the socket stays open and the heartbeat goes on.
-/

namespace EspHomeApi

open Run

variable {M : Type} {C : Client M} {s s' : State M} {connection task : ℕ}

/-- The coroutine is one of the two loops of the session. -/
def LoopOf (log : List (ℕ × Event M)) (connection task : ℕ) : Prop :=
  ∃ caller receiveLoop heartbeatLoop,
    (caller, .established connection receiveLoop heartbeatLoop) ∈ log ∧
      (task = receiveLoop ∨ task = heartbeatLoop)

/-- The packets that a coroutine wrote, each with the number of bytes that were taken. -/
def writesBy (task : ℕ) (log : List (ℕ × Event M)) : List (Bytes × ℕ) :=
  log.filterMap fun
    | (other, .wrote _ _ packet count) => if other = task then some (packet, count) else none
    | _ => none

/-- The last thing that happened in the step. -/
def EndsWith (s s' : State M) (entry : ℕ × Event M) : Prop :=
  ∃ events, s'.log = s.log ++ events ++ [entry]

/-- In the step, `connect` returns an error after it made the connection, or `disconnect` returns
success after it wrote its request on the connection. -/
inductive SessionEnds (s s' : State M) (connection : ℕ) : Prop where
  | failed {task receiveLoop heartbeatLoop : ℕ} {error : ApiError}
    (hestablished : (task, .established connection receiveLoop heartbeatLoop) ∈ s'.log)
    (hreturned : EndsWith s s' (task, .connectReturned (.error error)))
  | disconnected {task : ℕ} {call : Call} {packet : Bytes} {value : Value M}
    (hcall : call.operation = .disconnect)
    (hwrote : (task, .wrote call connection packet packet.length) ∈ s'.log)
    (hreturned : EndsWith s s' (task, .returned call (.ok value)))

/-- From the state on, the session is silent: the socket is closed, and whatever of the actions
happens, the loops of the session write nothing. -/
def Silent (C : Client M) (connection : ℕ) (s : State M) (actions : List Action) : Prop :=
  s.socket = .closed ∧
    ∀ now s', now <+: actions → run (State.step C) s now = some s' →
      ∀ loop, LoopOf s.log connection loop → writesBy loop s'.log = writesBy loop s.log

/-- Whenever a session ends in a run without a stop, it is silent from then on. -/
def FinishedSessionsSilent (C : Client M) : Prop :=
  ∀ before action after s s' connection, run (State.step C) State.init before = some s →
    s.step C action = some s' → s'.stopRequested = false → SessionEnds s s' connection →
    Silent C connection s' after

/-- The coroutine is a heartbeat that has not ended. -/
def Task.Beating : Task M → Prop
  | .sleeping => True
  | .sending call _ _ _ => call = pingCall
  | .registering call _ => call = pingCall
  | .waiting call _ _ => call = pingCall
  | _ => False

/-- What can happen on a socket other than making a connection. -/
def Event.AllowedOn (socket : Socket) : Event M → Prop
  | .established _ _ _ => False
  | .wrote _ connection _ _ => socket = .connected connection
  | _ => True

/-- As long as no stop was requested, a socket that was connected once is not closed, and the
heartbeats go on. -/
structure State.Live (s : State M) : Prop where
  connected : ∀ connection, s.socket = .connected connection → ∃ loop, LoopOf s.log connection loop
  wrote : ∀ task call connection packet count,
    (task, .wrote call connection packet count) ∈ s.log → ∃ loop, LoopOf s.log connection loop
  notClosed : ∀ connection loop, LoopOf s.log connection loop → s.socket ≠ .closed
  beating : ∀ task connection receiveLoop heartbeatLoop,
    (task, .established connection receiveLoop heartbeatLoop) ∈ s.log →
      (s.tasks heartbeatLoop).Beating

/-- A loop of a session stays one. -/
theorem LoopOf.mono {log log' : List (ℕ × Event M)} (h : LoopOf log connection task)
    (hgrows : log ⊆ log') : LoopOf log' connection task := by
  obtain ⟨caller, receiveLoop, heartbeatLoop, hmem, hloop⟩ := h
  exact ⟨caller, receiveLoop, heartbeatLoop, hgrows hmem, hloop⟩

/-- A session that was begun stays so. -/
theorem exists_loopOf_mono {log log' : List (ℕ × Event M)} (h : ∃ loop, LoopOf log connection loop)
    (hgrows : log ⊆ log') : ∃ loop, LoopOf log' connection loop := by
  obtain ⟨loop, hloop⟩ := h
  exact ⟨loop, hloop.mono hgrows⟩

/-- Internal events happen on any socket. -/
theorem Event.Internal.allowedOn {event : Event M} (h : event.Internal) (socket : Socket) :
    event.AllowedOn socket := by
  cases event with
  | began | greeted | returned | connectReturned => exact trivial
  | _ => exact h.elim

/-- A move makes no connection, and writes only on the current one. -/
theorem Moves.allowedOn {stopRequested : Bool} {socket : Socket} {t : Task M} {next : Next M}
    (h : Moves C stopRequested socket t next) : ∀ event ∈ next.2, event.AllowedOn socket := by
  cases h with
  | sendOver hresult =>
    exact fun event hevent => (internal_afterSend C stopRequested _ _ _ event hevent).allowedOn _
  | waitOver houtcome =>
    exact fun event hevent => (internal_afterWait C stopRequested _ _ _ _ event hevent).allowedOn _
  | woken =>
    exact fun event hevent => (internal_begin C stopRequested _ pingCall event hevent).allowedOn _
  | sentBytes hrace hcount hlength hsocket =>
    intro event hevent
    rw [List.mem_singleton.mp hevent]
    exact hsocket
  | _ => simp [Event.AllowedOn]

/-- A heartbeat that starts a ping goes on. -/
theorem beating_begin (C : Client M) (connection : Option ℕ) :
    (begin C false connection pingCall).1.Beating := by
  unfold begin
  split
  · exact rfl
  · split
    · exact rfl
    · exact rfl

/-- A heartbeat whose send is over goes on. -/
theorem beating_afterSend (C : Client M) (connection : Option ℕ) (result : Result Unit) :
    (afterSend C false connection pingCall result).1.Beating := by
  unfold afterSend
  split
  · exact rfl
  · exact rfl

/-- A heartbeat whose wait is over goes on. -/
theorem beating_afterWait (C : Client M) (connection : Option ℕ) (collected : List M)
    (outcome : M ⊕ ErrorCode) :
    (afterWait C false connection pingCall collected outcome).1.Beating := by
  unfold afterWait
  split
  · exact rfl
  · exact trivial
  · exact trivial

/-- Without a stop, the moves of a heartbeat lead to a heartbeat. -/
theorem Moves.beating {socket : Socket} {t : Task M} {next : Next M}
    (hmove : Moves C false socket t next) (h : t.Beating) : next.1.Beating := by
  cases hmove with
  | sendOver hresult =>
    obtain rfl := h
    exact beating_afterSend C _ _
  | waitOver houtcome =>
    obtain rfl := h
    exact beating_afterWait C _ _ _
  | woken => exact beating_begin C _
  | stopped hstop => simp at hstop
  | sentNothing | sentBytes | sendExpired | waitExpired => exact h
  | _ => exact h.elim

/-- What a step has to bring along for a live session to stay one. -/
theorem State.Live.extend (h : s.Live) {more : List (ℕ × Event M)}
    (hlog : s'.log = s.log ++ more) (hmore : ∀ entry ∈ more, entry.2.AllowedOn s.socket)
    (hsocket : s'.socket = s.socket ∨ s'.socket = .opened)
    (htasks : ∀ task, (s.tasks task).Beating → (s'.tasks task).Beating) : s'.Live := by
  have hold {caller connection receiveLoop heartbeatLoop : ℕ}
      (hmem : (caller, .established connection receiveLoop heartbeatLoop) ∈ s'.log) :
      (caller, .established connection receiveLoop heartbeatLoop) ∈ s.log := by
    rw [hlog] at hmem
    rcases List.mem_append.mp hmem with hold | hnew
    · exact hold
    · exact (hmore _ hnew).elim
  have hgrows : s.log ⊆ s'.log := by
    rw [hlog]
    exact List.subset_append_left _ _
  constructor
  · intro connection hconnected
    rcases hsocket with hsame | hopened
    · exact exists_loopOf_mono (h.connected connection (hsame ▸ hconnected)) hgrows
    · rw [hopened] at hconnected
      simp at hconnected
  · intro task call connection packet count hmem
    rw [hlog] at hmem
    rcases List.mem_append.mp hmem with hbefore | hnew
    · exact exists_loopOf_mono (h.wrote task call connection packet count hbefore) hgrows
    · exact exists_loopOf_mono (h.connected connection (hmore _ hnew)) hgrows
  · intro connection loop hlive
    obtain ⟨caller, receiveLoop, heartbeatLoop, hmem, heither⟩ := hlive
    have hopen := h.notClosed connection loop
      ⟨caller, receiveLoop, heartbeatLoop, hold hmem, heither⟩
    rcases hsocket with hsame | hopened
    · rw [hsame]
      exact hopen
    · rw [hopened]
      simp
  · intro task connection receiveLoop heartbeatLoop hmem
    exact htasks _ (h.beating task connection receiveLoop heartbeatLoop (hold hmem))

/-- Only the coroutine that goes on can stop to be a heartbeat. -/
theorem beating_update {tasks : ℕ → Task M} {t : Task M}
    (ht : (tasks task).Beating → t.Beating) (other : ℕ) (h : (tasks other).Beating) :
    (Function.update tasks task t other).Beating := by
  by_cases hsame : other = task
  · rw [hsame, Function.update_self]
    exact ht (hsame ▸ h)
  · rwa [Function.update_of_ne hsame]

/-- A coroutine that goes on keeps a live session live. -/
theorem State.Live.move (h : s.Live) {next : Next M} (hlog : s'.log = s.log)
    (htasks : s'.tasks = s.tasks) (hsocket : s'.socket = s.socket ∨ s'.socket = .opened)
    (hallowed : ∀ event ∈ next.2, event.AllowedOn s.socket)
    (hbeating : (s.tasks task).Beating → next.1.Beating) : (s'.move C task next).Live := by
  have hmove : (s'.move C task next).log = s.log ++ next.2.map fun event => (task, event) := by
    rw [move_log, hlog]
  refine h.extend hmove ?_ hsocket ?_
  · intro entry hentry
    obtain ⟨event, hevent, rfl⟩ := List.mem_map.mp hentry
    exact hallowed event hevent
  · rw [move_tasks, htasks]
    exact beating_update hbeating

/-- What happens when `connect` makes a connection and no stop was requested. -/
structure Connects (s s' : State M) (task : ℕ) : Prop where
  socket : s'.socket = .connected s.connections
  established : (task, .established s.connections s.started (s.started + 1)) ∈ s'.log
  grows : s.log ⊆ s'.log
  mem_log : ∀ entry ∈ s'.log, entry ∈ s.log ∨
    entry = (task, .established s.connections s.started (s.started + 1)) ∨ entry.2.Internal
  heartbeat : s'.tasks (s.started + 1) = .sleeping
  tasks : ∀ other, other ≠ task → other < s.started → s'.tasks other = s.tasks other

/-- Making the connection does that. -/
theorem connects_of_connected (hcoupled : s.Coupled) (hstop : s.stopRequested = false)
    (htask : s.tasks task = .connecting) (hstep : s.connected C task (.ok ()) = some s') :
    Connects s s' task := by
  have hstarted : task < s.started := hcoupled.lt_started (by simp [htask])
  simp only [State.connected, htask, hstop, Option.some.injEq] at hstep
  have hlog : s'.log = s.log ++ (task, .established s.connections s.started (s.started + 1)) ::
      (begin C false (Socket.connected s.connections).connection? helloCall).2.map
        fun event => (task, event) := by
    rw [← hstep]
    rfl
  constructor
  · rw [← hstep]
    rfl
  · rw [hlog]
    exact List.mem_append_right _ List.mem_cons_self
  · rw [hlog]
    exact List.subset_append_left _ _
  · intro entry hentry
    rw [hlog] at hentry
    rcases List.mem_append.mp hentry with hold | hnew
    · exact Or.inl hold
    · rcases List.mem_cons.mp hnew with hestablished | hbegin
      · exact Or.inr (Or.inl hestablished)
      · obtain ⟨event, hevent, rfl⟩ := List.mem_map.mp hbegin
        exact Or.inr (Or.inr (internal_begin C false _ helloCall event hevent))
  · rw [← hstep, move_tasks, Function.update_of_ne (by omega)]
    exact Function.update_self _ _ _
  · intro other hother hlt
    rw [← hstep, move_tasks, Function.update_of_ne hother]
    simp only
    rw [Function.update_of_ne (by omega), Function.update_of_ne (by omega)]

/-- A heartbeat was started. -/
theorem State.Coupled.lt_started_of_beating (h : s.Coupled) {loop : ℕ}
    (hbeating : (s.tasks loop).Beating) : loop < s.started := by
  apply h.lt_started
  intro hidle
  rw [hidle] at hbeating
  exact hbeating

/-- A new connection starts a live session. -/
theorem State.Live.connect (h : s.Live) (hcoupled : s.Coupled)
    (htask : s.tasks task = .connecting) (hconnects : Connects s s' task) : s'.Live := by
  constructor
  · intro connection hconnected
    obtain rfl : s.connections = connection := Socket.connected.inj
      (hconnects.socket.symm.trans hconnected)
    exact ⟨s.started, task, s.started, s.started + 1, hconnects.established, Or.inl rfl⟩
  · intro other call connection packet count hwrote
    rcases hconnects.mem_log _ hwrote with hold | hnew | hinternal
    · exact exists_loopOf_mono (h.wrote other call connection packet count hold) hconnects.grows
    · simp at hnew
    · exact hinternal.elim
  · intro connection loop _
    rw [hconnects.socket]
    simp
  · intro caller connection receiveLoop heartbeatLoop hestablished
    rcases hconnects.mem_log _ hestablished with hold | hnew | hinternal
    · have hbeating := h.beating caller connection receiveLoop heartbeatLoop hold
      have hother : heartbeatLoop ≠ task := by
        rintro rfl
        rw [htask] at hbeating
        exact hbeating
      rwa [hconnects.tasks heartbeatLoop hother (hcoupled.lt_started_of_beating hbeating)]
    · simp only [Prod.mk.injEq, Event.established.injEq] at hnew
      obtain ⟨-, -, -, rfl⟩ := hnew
      rw [hconnects.heartbeat]
      exact trivial
    · exact hinternal.elim

/-- A stop that was requested stays so. -/
theorem Transition.stopRequested_eq_false (hstep : Transition C s s')
    (hstop : s'.stopRequested = false) : s.stopRequested = false := by
  cases hstep with
  | connected htask hconnected =>
    simp only [State.connected, htask, Option.some.injEq] at hconnected
    rwa [← hconnected] at hstop
  | cancel => simp at hstop
  | _ => exact hstop

/-- Every step without a stop keeps live sessions live. -/
theorem State.Live.step (h : s.Live) (hcoupled : s.Coupled) (hstep : Transition C s s')
    (hstop : s'.stopRequested = false) : s'.Live := by
  have hfresh {t : Task M} (hbeating : (s.tasks s.started).Beating) : t.Beating := by
    rw [hcoupled.fresh _ le_rfl] at hbeating
    exact hbeating.elim
  cases hstep with
  | move hmove =>
    have hstop : s.stopRequested = false := hstop
    have hallowed := hmove.allowedOn
    rw [hstop] at hmove
    exact h.move rfl rfl (Or.inl rfl) hallowed hmove.beating
  | connect => exact h.move rfl rfl (Or.inl rfl) (by simp) hfresh
  | call hcall =>
    refine h.move rfl rfl (Or.inl rfl) (fun event hevent => ?_) hfresh
    exact (internal_begin C _ _ _ event hevent).allowedOn _
  | resolved htask =>
    refine h.move rfl rfl (Or.inr rfl) (by simp) fun hbeating => ?_
    rw [htask] at hbeating
    exact hbeating.elim
  | connected htask hconnected =>
    have hbefore := (Transition.connected htask hconnected).stopRequested_eq_false hstop
    exact h.connect hcoupled htask (connects_of_connected hcoupled hbefore htask hconnected)
  | register htask =>
    refine h.move rfl rfl (Or.inl rfl) (by simp [Event.AllowedOn]) fun hbeating => ?_
    rw [htask] at hbeating
    exact hbeating
  | dispatch htask hregistry =>
    refine h.move rfl rfl (Or.inl rfl) (by simp [Event.AllowedOn]) fun hbeating => ?_
    rw [htask] at hbeating
    exact hbeating.elim
  | submit hregistry =>
    exact h.extend (List.append_nil _).symm (by simp) (Or.inl rfl) fun _ hbeating => hbeating
  | execute hindex hregistry htask hrace =>
    refine h.move rfl rfl (Or.inl rfl) (by simp [Event.AllowedOn]) fun hbeating => ?_
    rw [htask] at hbeating
    exact hbeating
  | cancel => simp at hstop

/-- As long as no stop was requested, the sessions of a reachable state are live. -/
theorem State.live_of_reachable (h : Reachable (State.step C) State.init s)
    (hstop : s.stopRequested = false) : s.Live := by
  revert hstop
  refine h.invariant (P := fun s => s.stopRequested = false → s.Live) (fun _ => ?_) ?_
  · refine ⟨?_, ?_, ?_, ?_⟩
    · intro connection hconnected
      simp [State.init] at hconnected
    · intro task call connection packet count hmem
      simp [State.init] at hmem
    · rintro connection loop ⟨caller, receiveLoop, heartbeatLoop, hmem, -⟩
      simp [State.init] at hmem
    · intro caller connection receiveLoop heartbeatLoop hmem
      simp [State.init] at hmem
  · intro s action s' hreachable hlive hstep hstop
    have htransition := transition_of_step hstep
    exact (hlive (htransition.stopRequested_eq_false hstop)).step
      (State.coupled_of_reachable hreachable) htransition hstop

/-- A session that has ended was begun. -/
theorem SessionEnds.exists_loop (h : SessionEnds s s' connection) (hlive : s'.Live) :
    ∃ loop, LoopOf s'.log connection loop := by
  cases h with
  | @failed task receiveLoop heartbeatLoop error hestablished hreturned =>
    exact ⟨receiveLoop, task, receiveLoop, heartbeatLoop, hestablished, Or.inl rfl⟩
  | @disconnected task call packet value hcall hwrote hreturned =>
    exact hlive.wrote task call connection packet packet.length hwrote

/-- A successful `disconnect` ends a session. -/
theorem exists_sessionEnds_of_disconnect (h : Reachable (State.step C) State.init s')
    {call : Call} (hcall : call.operation = .disconnect) {value : Value M}
    (hreturned : EndsWith s s' (task, .returned call (.ok value))) :
    ∃ connection, SessionEnds s s' connection := by
  obtain ⟨events, hlog⟩ := hreturned
  have hok := (State.faithful_of_reachable h).log _ _ _ _ hlog
  obtain ⟨connection, packet, -, hwrote⟩ := hok (by rw [hcall]; rfl)
  have hmem : (task, .wrote call connection packet packet.length) ∈ s'.log := by
    rw [hlog]
    exact List.mem_append_left _ (List.singleton_sublist.mp hwrote)
  exact ⟨connection, .disconnected hcall hmem ⟨events, hlog⟩⟩

/-- Whenever a session ends in a run without a stop, it is not silent: its socket is open, and its
heartbeat goes on. -/
theorem session_never_silent (before : List Action) (action : Action)
    (hrun : run (State.step C) State.init before = some s) (hstep : s.step C action = some s')
    (hstop : s'.stopRequested = false) (hends : SessionEnds s s' connection)
    (after : List Action) :
    ¬ Silent C connection s' after ∧ s'.socket ≠ .closed ∧
      ∃ loop, LoopOf s'.log connection loop ∧ (s'.tasks loop).Beating := by
  have hlive : s'.Live := State.live_of_reachable ⟨_, run_concat hrun hstep⟩ hstop
  obtain ⟨loop, caller, receiveLoop, heartbeatLoop, hestablished, hloop⟩ :=
    hends.exists_loop hlive
  have hopen : s'.socket ≠ .closed :=
    hlive.notClosed connection loop ⟨caller, receiveLoop, heartbeatLoop, hestablished, hloop⟩
  refine ⟨fun hsilent => hopen hsilent.1, hopen, heartbeatLoop, ?_, ?_⟩
  · exact ⟨caller, receiveLoop, heartbeatLoop, hestablished, Or.inr rfl⟩
  · exact hlive.beating caller connection receiveLoop heartbeatLoop hestablished

/-- The device rejects the password, up to the point at which `connect` hears of it. -/
def rejectedHandshake : List Action :=
  greetedHandshake ++ [.received 1 (.ok [0, 2, 4, 8, 1]), .dispatch 1, .submit, .execute 0,
    .expired 0 .operationAborted]

/-- The state after that handshake. -/
def rejectedState : State WireMessage :=
  (run (State.step wireClient) State.init rejectedHandshake).getD State.init

/-- The state after `connect` has returned its error. -/
def finishedState : State WireMessage :=
  (rejectedState.step wireClient (.resume 0)).getD State.init

/-- The error of an invalid password. -/
def invalidPassword : ApiError := ⟨.authentificationError, "Invalid password"⟩

/-- `connect` has received the ConnectResponse, and its timer was cancelled. -/
theorem rejectedState_tasks : rejectedState.tasks 0 = .waiting connectCall []
    (.leftFirst ⟨.connectResponse, [varintField 1 1]⟩ (some ErrorCode.operationAborted)) := by
  rfl

/-- `connect` goes on and returns the error. -/
theorem finishedState_eq : finishedState = rejectedState.move wireClient 0
    (.ended, [.returned connectCall (.error invalidPassword),
      .connectReturned (.error invalidPassword)]) := by
  rw [finishedState, State.step, State.resume, rejectedState_tasks]
  rfl

/-- The error ends the session. -/
theorem sessionEnds_rejected : SessionEnds rejectedState finishedState 0 := by
  have hestablished : (0, .established 0 1 2) ∈ finishedState.log := List.mem_cons_self
  have hreturned : EndsWith rejectedState finishedState
      (0, .connectReturned (.error invalidPassword)) := by
    refine ⟨[(0, .returned connectCall (.error invalidPassword))], ?_⟩
    rw [finishedState_eq, move_log, List.append_assoc]
    rfl
  exact .failed hestablished hreturned

/-- After the password was rejected, the socket is open and the heartbeat goes on. -/
theorem session_never_silent_rejected :
    ¬ Silent wireClient 0 finishedState [] ∧ finishedState.socket ≠ .closed ∧
      ∃ loop, LoopOf finishedState.log 0 loop ∧ (finishedState.tasks loop).Beating :=
  session_never_silent rejectedHandshake (.resume 0) rfl rfl rfl sessionEnds_rejected []

/-- After the password was rejected, the heartbeat writes a PingRequest on the connection. -/
theorem not_finishedSessionsSilent_rejected : ¬ FinishedSessionsSilent wireClient := by
  intro h
  obtain ⟨-, hquiet⟩ := h rejectedHandshake (.resume 0) [.woken 2, .sent 2 .success 3] rejectedState
    finishedState 0 rfl rfl rfl sessionEnds_rejected
  have hping := hquiet _ _ (List.prefix_refl _) rfl 2
    ⟨0, 1, 2, List.mem_cons_self, Or.inr rfl⟩
  exact absurd (congrArg List.length hping) (by decide)

end EspHomeApi
