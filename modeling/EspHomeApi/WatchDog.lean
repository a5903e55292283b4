import EspHomeApi.Coupling
import EspHomeApi.Lib.StopState

/-!
# The watch dogs of a connection

`cancel` does not touch the socket. It requests a stop, and what closes the socket are the watch
dogs that `executor::abort` makes: callbacks of the stop state, which a send and the receiving loop
keep as local variables. Here the connection is run with them. The abstract connection, in which
`cancel` closes the socket, does the same in the same order; after a stop the two sockets may
differ, but then none of the coroutines looks at it.
-/

namespace EspHomeApi

open Run

variable {M : Type} {C : Client M}

/-- The coroutine is in the scope of a watch dog on the socket: `send_message` makes one before its
send, and `receive_loop` before its loop. -/
def Task.watches : Task M → Bool
  | .sending _ _ _ _ => true
  | .listening => true
  | .dispatching _ => true
  | _ => false

/-- A connection with the watch dogs on its socket, known by their coroutines. -/
structure Watched (M : Type) extends State M where
  callbacks : Multiset ℕ

namespace Watched

/-- A new connection has no watch dogs. -/
def init : Watched M := ⟨State.init, 0⟩

/-- The stop state of the connection. -/
def stop (w : Watched M) : StopState ℕ := ⟨w.stopRequested, w.callbacks⟩

/-- Each callback that runs closes the socket. -/
def aborted (socket : Socket) (ran : Multiset ℕ) : Socket := if ran = 0 then socket else .closed

/-- `executor::abort(socket_, timer)` makes a watch dog. -/
def watch (w : Watched M) (task : ℕ) : Watched M :=
  { w with
    callbacks := (w.stop.construct task).1.callbacks
    socket := aborted w.socket (w.stop.construct task).2 }

/-- A watch dog goes out of scope. -/
def unwatch (w : Watched M) (task : ℕ) : Watched M :=
  { w with callbacks := (w.stop.destroy task).callbacks }

/-- A coroutine goes on, with a new watch dog if it goes on to its send. -/
def goOn (C : Client M) (w : Watched M) (task : ℕ) (next : Next M) : Watched M :=
  let w := if next.1.watches then w.watch task else w
  { w with toState := w.move C task next }

/-- The TCP connection that a send of the coroutine finds, with its watch dog on the socket. -/
def sendsOn (w : Watched M) (task : ℕ) : Option ℕ := (w.watch task).socket.connection?

/-- An operation is called. -/
def call (C : Client M) (w : Watched M) (call : Call) : Watched M :=
  { w with started := w.started + 1 }.goOn C w.started
    (begin C w.stopRequested (w.sendsOn w.started) call)

/-- The coroutine stays in its scope, whatever it does to the connection. -/
def within (w : Watched M) (s : Option (State M)) : Option (Watched M) :=
  s.map fun s => { w with toState := s }

/-- `connectTo` returns, and `connect` starts the two loops. -/
def connected (C : Client M) (w : Watched M) (task : ℕ) (outcome : Except ErrorCode Unit) :
    Option (Watched M) :=
  match w.tasks task, outcome with
  | .connecting, .ok () =>
    let tasks := Function.update (Function.update w.tasks w.started .listening)
      (w.started + 1) (heartbeatHead w.stopRequested)
    let started : Watched M := { w with
      socket := .connected w.connections
      connections := w.connections + 1
      tasks := tasks
      started := w.started + 2 }
    let watched := started.watch w.started
    let next := begin C w.stopRequested (watched.sendsOn task) helloCall
    some (watched.goOn C task
      (next.1, .established w.connections w.started (w.started + 1) :: next.2))
  | .connecting, .error _ => some { w with toState := w.move C task (.undefined, []) }
  | _, _ => none

/-- A coroutine goes on after a send, whose watch dog is gone, or after a wait. -/
def resume (C : Client M) (w : Watched M) (task : ℕ) : Option (Watched M) :=
  match w.tasks task with
  | .sending call packet _ race =>
    (TimedOperation.result? race).map fun written =>
      let w := w.unwatch task
      w.goOn C task
        (afterSend C w.stopRequested (w.sendsOn task) call (sendMessageResult packet written))
  | .waiting call collected race =>
    (Task.waiting call collected race).outcome?.map fun outcome =>
      w.goOn C task (afterWait C w.stopRequested (w.sendsOn task) call collected outcome)
  | _ => none

/-- The timer of `heartbeat_loop` completes. -/
def woken (C : Client M) (w : Watched M) (task : ℕ) : Option (Watched M) :=
  match w.tasks task with
  | .sleeping =>
    if w.stopRequested then some (w.goOn C task (.ended, []))
    else some (w.goOn C task (begin C w.stopRequested (w.sendsOn task) pingCall))
  | _ => none

/-- `receiveFrom` returns to `receive_loop`, whose watch dog is gone if it ends. -/
def received (C : Client M) (w : Watched M) (task : ℕ) (outcome : Except ErrorCode Bytes) :
    Option (Watched M) :=
  match outcome with
  | .error _ => (w.unwatch task).within (w.toState.received C task outcome)
  | .ok _ => w.within (w.toState.received C task outcome)

/-- `cancel` requests a stop. -/
def cancel (w : Watched M) : Watched M :=
  { w with
    stopRequested := w.stop.request.1.requested
    callbacks := w.stop.request.1.callbacks
    socket := aborted w.socket w.stop.request.2 }

/-- One action on the connection. -/
def step (C : Client M) (w : Watched M) : Action → Option (Watched M)
  | .connect => some { w with toState := w.spawn C (.resolving, []) }
  | .call operation => if operation = .ping then none else some (w.call C ⟨operation, .user⟩)
  | .consume operation =>
    if (operation.request C).isNone then some (w.call C ⟨operation, .consumer⟩) else none
  | .resolved task outcome => w.within (w.toState.resolved C task outcome)
  | .connected task outcome => w.connected C task outcome
  | .sent task error count => w.within (w.toState.sent C task error count)
  | .expired task error => w.within (w.toState.expired C task error)
  | .resume task => w.resume C task
  | .register task => w.within (w.toState.register C task)
  | .woken task => w.woken C task
  | .received task outcome => w.received C task outcome
  | .dispatch task => w.within (w.toState.dispatch C task)
  | .submit => w.within (w.registry.submit.map fun registry => { w.toState with registry := registry })
  | .execute index => w.within (w.toState.execute C index)
  | .cancel => some w.cancel

end Watched

/-- How the sockets of the two machines, and the coroutines that are in the scope of a watch dog,
are related. Until a stop the sockets are the same, and the watch dogs are registered. After it,
neither machine has a TCP connection that a coroutine would use. -/
structure Shows (w : Watched M) (socket : Socket) (inScope : ℕ → Bool) : Prop where
  nodup : w.callbacks.Nodup
  running : w.stopRequested = false →
    socket = w.socket ∧ ∀ task, task ∈ w.callbacks ↔ inScope task = true
  stopped : w.stopRequested = true → w.callbacks = 0 ∧ socket.connection? = none ∧
    (w.socket.connection? = none ∨ ∀ task, inScope task = false)

/-- The abstract connection is the watched one up to the socket. -/
def Abstracts (w : Watched M) (s : State M) : Prop :=
  ∃ socket, s = { w.toState with socket := socket } ∧
    Shows w socket fun task => (w.tasks task).watches

variable {w : Watched M} {socket : Socket} {inScope : ℕ → Bool} {task : ℕ}

/-- Where no watch dog runs, the socket stays as it is. -/
theorem aborted_zero (socket : Socket) : Watched.aborted socket 0 = socket := if_pos rfl

/-- One watch dog is enough to close the socket. -/
theorem aborted_of_ne_zero (socket : Socket) {ran : Multiset ℕ} (h : ran ≠ 0) :
    Watched.aborted socket ran = .closed := if_neg h

/-- Before a stop, a watch dog is registered. -/
theorem watch_of_running (hrunning : w.stopRequested = false) (task : ℕ) :
    (w.watch task).callbacks = task ::ₘ w.callbacks ∧ (w.watch task).socket = w.socket := by
  rw [Watched.watch, StopState.construct_of_running hrunning]
  exact ⟨rfl, aborted_zero w.socket⟩

/-- After a stop, a watch dog closes the socket at once. -/
theorem watch_of_stopped (hstopped : w.stopRequested = true) (task : ℕ) :
    (w.watch task).callbacks = w.callbacks ∧ (w.watch task).socket = .closed := by
  rw [Watched.watch, StopState.construct_of_stopped hstopped]
  exact ⟨rfl, aborted_of_ne_zero w.socket (Multiset.singleton_ne_zero task)⟩

/-- A watch dog on a socket guards its coroutine; if a stop was requested, it has closed the
socket. -/
theorem Shows.watch_new (h : Shows w socket inScope) (hout : inScope task = false) {w' : Watched M}
    (hcallbacks : w'.callbacks = w.callbacks) (hstop : w'.stopRequested = w.stopRequested)
    {socket' : Socket} (hopen : w.stopRequested = false → socket' = w'.socket)
    (hclosed : w.stopRequested = true → socket'.connection? = none) :
    Shows (w'.watch task) socket' (Function.update inScope task true) := by
  cases hrequested : w.stopRequested with
  | false =>
    obtain ⟨-, hscope⟩ := h.running hrequested
    obtain ⟨hnew, hsame⟩ := watch_of_running (hstop.trans hrequested) task
    have hfree : task ∉ w.callbacks := by
      rw [hscope, hout]
      exact Bool.false_ne_true
    rw [hcallbacks] at hnew
    refine ⟨?_, fun _ => ⟨(hopen hrequested).trans hsame.symm, fun other => ?_⟩, fun hstopped => ?_⟩
    · rw [hnew, Multiset.nodup_cons]
      exact ⟨hfree, h.nodup⟩
    · rw [hnew, Multiset.mem_cons, hscope]
      by_cases hother : other = task
      · simp [hother]
      · simp [hother]
    · exact absurd ((hstop.trans hrequested).symm.trans hstopped) Bool.false_ne_true
  | true =>
    obtain ⟨hnew, haborted⟩ := watch_of_stopped (hstop.trans hrequested) task
    rw [hcallbacks, (h.stopped hrequested).1] at hnew
    refine ⟨?_, fun hrunning => ?_, fun _ => ⟨hnew, hclosed hrequested, Or.inl ?_⟩⟩
    · rw [hnew]
      exact Multiset.nodup_zero
    · exact absurd (hrunning.symm.trans (hstop.trans hrequested)) Bool.false_ne_true
    · rw [haborted]
      rfl

/-- A new watch dog guards its coroutine. -/
theorem Shows.watch (h : Shows w socket inScope) (hout : inScope task = false) :
    Shows (w.watch task) socket (Function.update inScope task true) :=
  h.watch_new hout rfl rfl (fun hrunning => (h.running hrunning).1)
    (fun hstopped => (h.stopped hstopped).2.1)

/-- A watch dog that goes out of scope does not guard its coroutine any more. -/
theorem Shows.unwatch (h : Shows w socket inScope) :
    Shows (w.unwatch task) socket (Function.update inScope task false) := by
  refine ⟨h.nodup.erase task, fun hrunning => ?_, fun hstopped => ?_⟩
  · obtain ⟨hsocket, hscope⟩ := h.running hrunning
    refine ⟨hsocket, fun other => ?_⟩
    change other ∈ w.callbacks.erase task ↔ _
    rw [h.nodup.mem_erase_iff, hscope]
    by_cases hother : other = task
    · simp [hother]
    · simp [hother]
  · obtain ⟨hcallbacks, hclosed, hunused⟩ := h.stopped hstopped
    refine ⟨?_, hclosed, hunused.imp_right fun hnone other => ?_⟩
    · change w.callbacks.erase task = 0
      rw [hcallbacks]
      rfl
    · by_cases hother : other = task
      · rw [hother, Function.update_self]
      · rw [Function.update_of_ne hother]
        exact hnone other

/-- A send finds the same TCP connection on both machines. -/
theorem Shows.sendsOn_eq (h : Shows w socket inScope) (task : ℕ) :
    w.sendsOn task = socket.connection? := by
  cases hstop : w.stopRequested with
  | false => rw [Watched.sendsOn, (watch_of_running hstop task).2, (h.running hstop).1]
  | true =>
    rw [Watched.sendsOn, (watch_of_stopped hstop task).2, (h.stopped hstop).2.1]
    rfl

/-- A coroutine that is in no scope goes on in the same way on both machines. -/
theorem Shows.goOn (h : Shows w socket inScope) (hout : inScope task = false)
    (hothers : ∀ other, other ≠ task → inScope other = (w.tasks other).watches) (next : Next M) :
    Abstracts (w.goOn C task next) ({ w.toState with socket := socket }.move C task next) := by
  have hscope (watches : Bool) (hwatches : next.1.watches = watches) :
      Function.update inScope task watches =
        fun other => (Function.update w.tasks task next.1 other).watches := by
    funext other
    by_cases hother : other = task
    · rw [hother, Function.update_self, Function.update_self, hwatches]
    · rw [Function.update_of_ne hother, Function.update_of_ne hother, hothers other hother]
  cases hwatches : next.1.watches with
  | true =>
    have hshows := h.watch hout
    rw [hscope true hwatches] at hshows
    refine ⟨socket, ?_, ?_⟩
    · rw [Watched.goOn, if_pos hwatches]
      rfl
    · rw [Watched.goOn, if_pos hwatches]
      exact ⟨hshows.nodup, hshows.running, hshows.stopped⟩
  | false =>
    have hunchanged : Function.update inScope task false = inScope := by
      rw [← hout, Function.update_eq_self]
    have hshows := h
    rw [← hunchanged, hscope false hwatches] at hshows
    refine ⟨socket, ?_, ?_⟩
    · rw [Watched.goOn, hwatches]
      rfl
    · rw [Watched.goOn, hwatches]
      exact ⟨hshows.nodup, hshows.running, hshows.stopped⟩

/-- A coroutine that stays in its scope, or out of one, goes on in the same way. -/
theorem Shows.stay (h : Shows w socket fun task => (w.tasks task).watches) {next : Next M}
    (hwatches : next.1.watches = (w.tasks task).watches) :
    Abstracts { w with toState := w.move C task next }
      ({ w.toState with socket := socket }.move C task next) := by
  have hscope : (fun task => (w.tasks task).watches) =
      fun other => (Function.update w.tasks task next.1 other).watches := by
    funext other
    by_cases hother : other = task
    · rw [hother, Function.update_self, hwatches]
    · rw [Function.update_of_ne hother]
  rw [hscope] at h
  exact ⟨socket, rfl, h.nodup, h.running, h.stopped⟩

/-- The registry has nothing to do with the watch dogs. -/
theorem Shows.registry (h : Shows w socket inScope) (registry : Registry Owner M) :
    Shows { w with registry := registry } socket inScope := ⟨h.nodup, h.running, h.stopped⟩

/-- Calling an operation. -/
theorem Abstracts.call {s : State M} (h : Abstracts w s) (hcoupled : s.Coupled) (call : Call) :
    Abstracts (w.call C call) (s.call C call) := by
  obtain ⟨socket, rfl, hshows⟩ := h
  have hidle : w.tasks w.started = .idle := hcoupled.fresh w.started le_rfl
  have hspawned : Shows { w with started := w.started + 1 } socket
      fun task => (w.tasks task).watches := ⟨hshows.nodup, hshows.running, hshows.stopped⟩
  rw [Watched.call, State.call, hshows.sendsOn_eq]
  exact hspawned.goOn (by rw [hidle]; rfl) (fun _ _ => rfl) _

/-- Of the two loops that `connect` starts, the receiving loop has a watch dog. -/
theorem watches_connected {s : State M} (hcoupled : s.Coupled) (other : ℕ) :
    Function.update (fun task => (s.tasks task).watches) s.started true other =
      (Function.update (Function.update s.tasks s.started .listening) (s.started + 1)
        (heartbeatHead s.stopRequested) other).watches := by
  by_cases hheartbeat : other = s.started + 1
  · rw [hheartbeat, Function.update_self, Function.update_of_ne (by omega),
      hcoupled.fresh (s.started + 1) (by omega)]
    cases s.stopRequested <;> rfl
  · rw [Function.update_of_ne hheartbeat]
    by_cases hloop : other = s.started
    · rw [hloop, Function.update_self, Function.update_self]
      rfl
    · rw [Function.update_of_ne hloop, Function.update_of_ne hloop]

/-- Making the TCP connection. -/
theorem Abstracts.connected {s : State M} (h : Abstracts w s) (hcoupled : s.Coupled)
    (outcome : Except ErrorCode Unit) :
    Option.Rel Abstracts (w.connected C task outcome) (s.connected C task outcome) := by
  obtain ⟨socket, rfl, hshows⟩ := h
  cases htask : w.tasks task with
  | connecting =>
    cases outcome with
    | error error =>
      simp only [Watched.connected, State.connected, htask]
      exact .some (hshows.stay (by rw [htask]; rfl))
    | ok _ =>
      have hlt : task < w.started := hcoupled.lt_started (by simp [htask])
      have hidle : w.tasks w.started = .idle := hcoupled.fresh w.started le_rfl
      have hloop : (w.tasks w.started).watches = false := by rw [hidle]; rfl
      simp only [Watched.connected, State.connected, htask]
      refine .some ?_
      -- The receiving loop has made its watch dog, and `connect` is about to make its own.
      have hwatched : Shows (Watched.watch { w with
            socket := .connected w.connections
            connections := w.connections + 1
            tasks := Function.update (Function.update w.tasks w.started .listening)
              (w.started + 1) (heartbeatHead w.stopRequested)
            started := w.started + 2 } w.started)
          (if w.stopRequested then .closed else .connected w.connections)
          (Function.update (fun task => (w.tasks task).watches) w.started true) := by
        refine hshows.watch_new hloop ?_ ?_ (fun hrunning => ?_) (fun hstopped => ?_)
        · rfl
        · rfl
        · rw [hrunning]
          rfl
        · rw [hstopped]
          rfl
      rw [hwatched.sendsOn_eq]
      refine hwatched.goOn ?_ (fun other _ => ?_) _
      · rw [Function.update_of_ne hlt.ne, htask]
        rfl
      · exact watches_connected hcoupled other
  | _ => simp only [Watched.connected, State.connected, htask]; exact .none

/-- Going on after a send or a wait. -/
theorem Abstracts.resume {s : State M} (h : Abstracts w s) (task : ℕ) :
    Option.Rel Abstracts (w.resume C task) (s.resume C task) := by
  obtain ⟨socket, rfl, hshows⟩ := h
  cases htask : w.tasks task with
  | sending call packet connection race =>
    simp only [Watched.resume, State.resume, htask]
    cases TimedOperation.result? race with
    | none => exact .none
    | some written =>
      -- The watch dog of the send is gone before the operation goes on.
      have hout : Shows (w.unwatch task) socket
          (Function.update (fun task => (w.tasks task).watches) task false) := hshows.unwatch
      refine .some ?_
      rw [hout.sendsOn_eq]
      refine hout.goOn (Function.update_self _ _ _) (fun other hother => ?_) _
      exact Function.update_of_ne hother _ _
  | waiting call collected race =>
    simp only [Watched.resume, State.resume, htask]
    cases (Task.waiting call collected race).outcome? with
    | none => exact .none
    | some outcome =>
      refine .some ?_
      rw [hshows.sendsOn_eq]
      exact hshows.goOn (by rw [htask]; rfl) (fun _ _ => rfl) _
  | _ =>
    simp only [Watched.resume, State.resume, htask]
    exact .none

/-- The heartbeat wakes up. -/
theorem Abstracts.woken {s : State M} (h : Abstracts w s) (task : ℕ) :
    Option.Rel Abstracts (w.woken C task) (s.woken C task) := by
  obtain ⟨socket, rfl, hshows⟩ := h
  cases htask : w.tasks task with
  | sleeping =>
    have hout : (w.tasks task).watches = false := by rw [htask]; rfl
    simp only [Watched.woken, State.woken, htask]
    by_cases hstop : w.stopRequested = true
    · rw [if_pos hstop, if_pos hstop]
      exact .some (hshows.goOn hout (fun _ _ => rfl) _)
    · rw [if_neg hstop, if_neg hstop, hshows.sendsOn_eq]
      exact .some (hshows.goOn hout (fun _ _ => rfl) _)
  | _ =>
    simp only [Watched.woken, State.woken, htask]
    exact .none

/-- The receiving loop ends, or goes on with what it received. -/
theorem Abstracts.received {s : State M} (h : Abstracts w s) (task : ℕ)
    (outcome : Except ErrorCode Bytes) :
    Option.Rel Abstracts (w.received C task outcome) (s.received C task outcome) := by
  obtain ⟨socket, rfl, hshows⟩ := h
  cases htask : w.tasks task with
  | listening =>
    cases outcome with
    | error error =>
      simp only [Watched.received, State.received, htask]
      have hout : Shows (w.unwatch task) socket
          (Function.update (fun task => (w.tasks task).watches) task false) := hshows.unwatch
      have hended : Abstracts ((w.unwatch task).goOn C task (.ended, []))
          ({ w.toState with socket := socket }.move C task (.ended, [])) :=
        hout.goOn (Function.update_self _ _ _) (fun other hother => Function.update_of_ne hother _ _) _
      exact .some hended
    | ok chunk =>
      simp only [Watched.received, State.received, htask]
      by_cases hchunk : chunk ≠ [] ∧ chunk.length ≤ receiveBufferSize
      · rw [if_pos hchunk, if_pos hchunk]
        exact .some (hshows.stay (by rw [htask]; rfl))
      · rw [if_neg hchunk, if_neg hchunk]
        exact .none
  | _ => cases outcome <;> simp only [Watched.received, State.received, htask] <;> exact .none

/-- A send completes. After a stop none is left that could have taken bytes. -/
theorem Abstracts.sent {s : State M} (h : Abstracts w s) (task : ℕ) (error : ErrorCode)
    (count : ℕ) : Option.Rel Abstracts (w.within (w.toState.sent C task error count))
      (s.sent C task error count) := by
  obtain ⟨socket, rfl, hshows⟩ := h
  cases htask : w.tasks task with
  | sending call packet connection race =>
    simp only [State.sent, htask]
    cases race.completeLeft (error, count) with
    | none => exact .none
    | some race' =>
      have hstay {events : List (Event M)} : Abstracts
          { w with toState := w.move C task (.sending call packet connection race', events) }
          ({ w.toState with socket := socket }.move C task
            (.sending call packet connection race', events)) :=
        hshows.stay (by rw [htask]; rfl)
      have hconnection : w.socket.connection? = socket.connection? := by
        cases hstop : w.stopRequested with
        | false => rw [(hshows.running hstop).1]
        | true =>
          obtain ⟨-, hclosed, hunused⟩ := hshows.stopped hstop
          rw [hclosed]
          exact hunused.resolve_right fun hnone => by simpa [htask, Task.watches] using hnone task
      simp only [Option.bind_some]
      by_cases hcount : count = 0
      · rw [if_pos hcount, if_pos hcount]
        exact .some hstay
      · rw [if_neg hcount, if_neg hcount]
        cases hsocket : w.socket with
        | connected current =>
          obtain rfl : socket = .connected current := by
            cases socket <;> simp_all [Socket.connection?]
          by_cases hguard : connection = some current ∧ count ≤ packet.length
          · simp only [if_pos hguard]
            exact .some hstay
          · simp only [if_neg hguard]
            exact .none
        | _ =>
          cases socket with
          | connected current => simp [hsocket, Socket.connection?] at hconnection
          | _ => exact .none
  | _ =>
    simp only [State.sent, htask]
    exact .none

/-- The timer of a send or of a wait completes. -/
theorem Abstracts.expired {s : State M} (h : Abstracts w s) (task : ℕ) (error : ErrorCode) :
    Option.Rel Abstracts (w.within (w.toState.expired C task error)) (s.expired C task error) := by
  obtain ⟨socket, rfl, hshows⟩ := h
  cases htask : w.tasks task with
  | sending call packet connection race =>
    simp only [State.expired, htask]
    cases race.completeRight error with
    | none => exact .none
    | some race' => exact .some (hshows.stay (by rw [htask]; rfl))
  | waiting call collected race =>
    simp only [State.expired, htask]
    by_cases htimed : call.operation.timed = true
    · rw [if_pos htimed, if_pos htimed]
      cases race.completeRight error with
      | none => exact .none
      | some race' => exact .some (hshows.stay (by rw [htask]; rfl))
    · rw [if_neg htimed, if_neg htimed]
      exact .none
  | _ =>
    simp only [State.expired, htask]
    exact .none

/-- A handler is registered. -/
theorem Abstracts.register {s : State M} (h : Abstracts w s) (task : ℕ) :
    Option.Rel Abstracts (w.within (w.toState.register C task)) (s.register C task) := by
  obtain ⟨socket, rfl, hshows⟩ := h
  cases htask : w.tasks task with
  | registering call collected =>
    simp only [State.register, htask]
    refine .some ((hshows.registry (w.registry.register ⟨task, call⟩)).stay ?_)
    rw [htask]
    rfl
  | _ =>
    simp only [State.register, htask]
    exact .none

/-- A message is dispatched, or the loop goes back to receiving. -/
theorem Abstracts.dispatch {s : State M} (h : Abstracts w s) (task : ℕ) :
    Option.Rel Abstracts (w.within (w.toState.dispatch C task)) (s.dispatch C task) := by
  obtain ⟨socket, rfl, hshows⟩ := h
  cases htask : w.tasks task with
  | dispatching messages =>
    cases messages with
    | nil =>
      simp only [State.dispatch, htask]
      exact .some (hshows.stay (by rw [htask]; rfl))
    | cons message messages =>
      simp only [State.dispatch, htask]
      cases w.registry.dispatch message with
      | none => exact .none
      | some registry => exact .some ((hshows.registry registry).stay (by simp only [htask]; rfl))
  | _ =>
    simp only [State.dispatch, htask]
    exact .none

/-- A submitted handler runs. -/
theorem Abstracts.execute {s : State M} (h : Abstracts w s) (index : ℕ) :
    Option.Rel Abstracts (w.within (w.toState.execute C index)) (s.execute C index) := by
  obtain ⟨socket, rfl, hshows⟩ := h
  simp only [State.execute]
  cases w.registry.submitted[index]? with
  | none => exact .none
  | some entry =>
    obtain ⟨handler, message⟩ := entry
    cases w.registry.execute index with
    | none => exact .none
    | some registry =>
      dsimp only
      cases htask : w.tasks handler.owner.task with
      | waiting call collected race =>
        dsimp only
        cases race.completeLeft message with
        | none => exact .none
        | some race' => exact .some ((hshows.registry registry).stay (by simp only [htask]; rfl))
      | _ => exact .none

/-- The host is resolved, and the socket opened again. -/
theorem Abstracts.resolved {s : State M} (h : Abstracts w s) (task : ℕ)
    (outcome : Except ErrorCode Unit) :
    Option.Rel Abstracts (w.within (w.toState.resolved C task outcome))
      (s.resolved C task outcome) := by
  obtain ⟨socket, rfl, hshows⟩ := h
  have hopened : Shows { w with socket := .opened } .opened fun task => (w.tasks task).watches :=
    ⟨hshows.nodup, fun hrunning => ⟨rfl, (hshows.running hrunning).2⟩,
      fun hstopped => ⟨(hshows.stopped hstopped).1, rfl, Or.inl rfl⟩⟩
  cases htask : w.tasks task with
  | resolving =>
    cases outcome with
    | ok _ =>
      simp only [State.resolved, htask]
      exact .some (hopened.stay (by simp only [htask]; rfl))
    | error error =>
      simp only [State.resolved, htask]
      exact .some (hshows.stay (by rw [htask]; rfl))
  | _ =>
    simp only [State.resolved, htask]
    exact .none

/-- A request to stop. The socket is closed by the watch dogs, or no coroutine uses it. -/
theorem Abstracts.cancel {s : State M} (h : Abstracts w s) :
    Abstracts w.cancel { s with stopRequested := true, socket := .closed } := by
  obtain ⟨socket, rfl, hshows⟩ := h
  cases hstop : w.stopRequested with
  | false =>
    obtain ⟨-, hscope⟩ := hshows.running hstop
    have hcancel : w.cancel = { w with
        stopRequested := true
        callbacks := 0
        socket := Watched.aborted w.socket w.callbacks } := by
      rw [Watched.cancel, StopState.request_of_running hstop]
      rfl
    rw [hcancel]
    refine ⟨.closed, rfl, Multiset.nodup_zero, fun hrunning => ?_, fun _ => ⟨rfl, rfl, ?_⟩⟩
    · exact absurd hrunning.symm Bool.false_ne_true
    · by_cases hcallbacks : w.callbacks = 0
      · right
        intro task
        rw [← Bool.not_eq_true, ← hscope, hcallbacks]
        exact Multiset.notMem_zero task
      · left
        change (Watched.aborted w.socket w.callbacks).connection? = none
        rw [aborted_of_ne_zero w.socket hcallbacks]
        rfl
  | true =>
    obtain ⟨hnone, -, hunused⟩ := hshows.stopped hstop
    have hcancel : w.cancel = w := by
      rw [Watched.cancel, StopState.request_of_stopped hstop]
      rfl
    rw [hcancel]
    refine ⟨.closed, by simp [hstop], hshows.nodup, fun hrunning => ?_, fun _ => ⟨hnone, rfl, hunused⟩⟩
    exact absurd (hrunning.symm.trans hstop) Bool.false_ne_true

/-- Every action is possible on both machines or on neither, and leads to related states again. -/
theorem Abstracts.step {s : State M} (h : Abstracts w s) (hcoupled : s.Coupled) (action : Action) :
    Option.Rel Abstracts (w.step C action) (s.step C action) := by
  cases action with
  | connect =>
    obtain ⟨socket, rfl, hshows⟩ := h
    have hidle : w.tasks w.started = .idle := hcoupled.fresh w.started le_rfl
    have hspawned : Shows { w with started := w.started + 1 } socket
        fun task => (w.tasks task).watches := ⟨hshows.nodup, hshows.running, hshows.stopped⟩
    exact .some (hspawned.stay (C := C) (by simp only [hidle]; rfl))
  | call operation =>
    simp only [Watched.step, State.step]
    exact rel_guard fun _ => h.call hcoupled _
  | consume operation =>
    simp only [Watched.step, State.step]
    by_cases hnone : (operation.request C).isNone = true
    · rw [if_pos hnone, if_pos hnone]
      exact .some (h.call hcoupled _)
    · rw [if_neg hnone, if_neg hnone]
      exact .none
  | resolved task outcome => exact h.resolved task outcome
  | connected task outcome => exact h.connected hcoupled outcome
  | sent task error count => exact h.sent task error count
  | expired task error => exact h.expired task error
  | resume task => exact h.resume task
  | register task => exact h.register task
  | woken task => exact h.woken task
  | received task outcome => exact h.received task outcome
  | dispatch task => exact h.dispatch task
  | submit =>
    obtain ⟨socket, rfl, hshows⟩ := h
    simp only [Watched.step, State.step]
    cases w.registry.submit with
    | none => exact .none
    | some registry => exact .some ⟨socket, rfl, hshows.registry registry⟩
  | execute index => exact h.execute index
  | cancel => exact .some h.cancel

/-- The runs of the two machines are possible together, and end in related states. -/
theorem abstracts_run (C : Client M) (actions : List Action) :
    Option.Rel (fun w s => Abstracts w s ∧ Reachable (State.step C) State.init s)
      (run (Watched.step C) Watched.init actions) (run (State.step C) State.init actions) := by
  have hinit : Abstracts (M := M) Watched.init State.init :=
    ⟨.closed, rfl, Multiset.nodup_zero, fun _ => ⟨rfl, fun task => by simp [Watched.init, State.init,
      Task.watches]⟩, fun hstopped => absurd hstopped.symm Bool.false_ne_true.symm⟩
  refine run_rel ?_ actions ⟨hinit, [], rfl⟩
  intro w s action h
  obtain ⟨habstracts, actions, hrun⟩ := h
  have hstep := habstracts.step (C := C) (State.coupled_of_reachable ⟨actions, hrun⟩) action
  cases hnext : s.step C action with
  | none =>
    rw [hnext] at hstep
    cases hother : w.step C action with
    | none => exact .none
    | some w' => rw [hother] at hstep; cases hstep
  | some s' =>
    rw [hnext] at hstep
    obtain ⟨w', hother, habstracts'⟩ := exists_of_rel_right hstep
    rw [hother]
    exact .some ⟨habstracts', _, run_concat hrun hnext⟩

/-- The connection whose socket is closed by its watch dogs and the one whose socket is closed by
`cancel` make the same runs. They end in states that are the same up to the socket: the coroutines,
the handlers, the name and the version, and the whole history. -/
theorem watched_run_eq (C : Client M) (actions : List Action) :
    (run (Watched.step C) Watched.init actions).map
        (fun w => { w.toState with socket := .closed }) =
      (run (State.step C) State.init actions).map fun s => { s with socket := .closed } := by
  have hrel := abstracts_run C actions
  generalize run (Watched.step C) Watched.init actions = left,
    run (State.step C) State.init actions = right at hrel
  cases hrel with
  | none => rfl
  | some h =>
    obtain ⟨⟨socket, rfl, -⟩, -⟩ := h
    rfl

end EspHomeApi
