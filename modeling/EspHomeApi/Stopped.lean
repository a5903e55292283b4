import EspHomeApi.CallTrace
import EspHomeApi.WatchDog

/-!
# A connection that was stopped

After `cancel` the coroutines of a connection go on: timers run out, handlers are called, users call
operations, `connect` may even make a TCP connection. But nothing is sent any more. Whatever happens,
the socket takes no byte, and no operation that needs its request to be sent succeeds if it was begun
after the stop.
-/

namespace EspHomeApi

open Run

variable {M : Type} {C : Client M} {s s' : State M}

/-- The event can happen after a stop. -/
def Event.Silenced : Event M → Prop
  | .wrote _ _ _ _ => False
  | _ => True

/-- A stop was requested, and there is no TCP connection. -/
structure State.Stopped (s : State M) : Prop where
  requested : s.stopRequested = true
  unconnected : s.socket.connection? = none

/-- The second state is stopped, and what happened since the first one can happen after a stop. -/
def GoesSilent (s s' : State M) : Prop :=
  s'.Stopped ∧ ∃ later, s'.log = s.log ++ later ∧ ∀ entry ∈ later, entry.2.Silenced

/-- Of the events of a coroutine, those behind the beginning of a call have no success of an
operation that needs its request to be sent. -/
def NoneSucceeds (events : List (Event M)) : Prop :=
  ∀ before call after, events = before ++ .began call :: after →
    ∀ other value, other.operation.requiresSend = true → .returned other (.ok value) ∉ after

/-- What a coroutine brings about on its own can happen after a stop. -/
theorem Event.Internal.silenced {event : Event M} (h : event.Internal) : event.Silenced := by
  cases event with
  | wrote => exact h.elim
  | _ => exact trivial

/-- A move is silent without a TCP connection. -/
theorem Moves.silenced {stopRequested : Bool} {socket : Socket} {t : Task M} {next : Next M}
    (h : Moves C stopRequested socket t next) (hsocket : socket.connection? = none) :
    ∀ event ∈ next.2, event.Silenced := by
  cases h with
  | sentBytes hrace hcount hlength hconnected => simp [hconnected, Socket.connection?] at hsocket
  | sendOver hresult =>
    exact fun event hevent => (internal_afterSend C stopRequested _ _ _ event hevent).silenced
  | waitOver houtcome =>
    exact fun event hevent => (internal_afterWait C stopRequested _ _ _ _ event hevent).silenced
  | woken => exact fun event hevent => (internal_begin C stopRequested _ _ event hevent).silenced
  | _ => simp [Event.Silenced]

/-- The silent events of a coroutine leave the connection silent. -/
theorem goesSilent_of_silenced (hstopped : s'.Stopped) {task : ℕ} {events : List (Event M)}
    (hlog : s'.log = s.log ++ events.map fun event => (task, event))
    (hevents : ∀ event ∈ events, event.Silenced) : GoesSilent s s' := by
  refine ⟨hstopped, events.map fun event => (task, event), hlog, ?_⟩
  intro entry hentry
  obtain ⟨event, hevent, rfl⟩ := List.mem_map.mp hentry
  exact hevents event hevent

/-- After a stop every step is silent. -/
theorem State.Stopped.step (h : s.Stopped) {action : Action} (hstep : s.step C action = some s') :
    GoesSilent s s' := by
  have hstay {s' : State M} (hstopped : s'.Stopped) (hlog : s'.log = s.log) : GoesSilent s s' :=
    ⟨hstopped, [], by rw [hlog, List.append_nil], by simp⟩
  cases stepOf_of_step hstep with
  | move hnames hsuits hnotes hmove =>
    exact goesSilent_of_silenced ⟨h.1, h.2⟩ (move_log C _ _ _) (hmove.silenced h.unconnected)
  | connect => exact goesSilent_of_silenced ⟨h.1, h.2⟩ (move_log C _ _ _) (by simp)
  | call | consume =>
    exact goesSilent_of_silenced ⟨h.1, h.2⟩ (move_log C _ _ _)
      (fun event hevent => (internal_begin C _ _ _ event hevent).silenced)
  | resolved htask => exact goesSilent_of_silenced ⟨h.1, rfl⟩ (move_log C _ _ _) (by simp)
  | connected htask hconnected =>
    simp only [State.connected, htask, h.requested, if_true, Option.some.injEq] at hconnected
    rw [← hconnected]
    refine goesSilent_of_silenced ⟨rfl, rfl⟩ (move_log C _ _ _) ?_
    intro event hevent
    rcases List.mem_cons.mp hevent with rfl | hbegin
    · exact trivial
    · exact (internal_begin C _ _ _ event hbegin).silenced
  | register htask =>
    exact goesSilent_of_silenced ⟨h.1, h.2⟩ (move_log C _ _ _) (by simp [Event.Silenced])
  | dispatch htask hregistry =>
    exact goesSilent_of_silenced ⟨h.1, h.2⟩ (move_log C _ _ _) (by simp [Event.Silenced])
  | submit hregistry => exact hstay ⟨h.1, h.2⟩ rfl
  | execute hindex hregistry htask hrace =>
    exact goesSilent_of_silenced ⟨h.1, h.2⟩ (move_log C _ _ _) (by simp [Event.Silenced])
  | cancel => exact hstay ⟨rfl, rfl⟩ rfl

/-- In a reachable state in which a stop was requested there is no TCP connection. -/
theorem stopped_of_reachable (h : Reachable (State.step C) State.init s)
    (hrequested : s.stopRequested = true) : s.Stopped := by
  refine h.invariant (P := fun s => s.stopRequested = true → s.Stopped)
    (fun hstop => absurd hstop.symm Bool.false_ne_true.symm) ?_ hrequested
  intro s action s' _ hs hstep hstop
  by_cases hbefore : s.stopRequested = true
  · exact ((hs hbefore).step hstep).1
  · have hunchanged {s' : State M} (hsame : s'.stopRequested = s.stopRequested)
        (hstop : s'.stopRequested = true) : s'.Stopped := absurd (hsame.symm.trans hstop) hbefore
    cases stepOf_of_step hstep with
    | connected htask hconnected =>
      simp only [State.connected, htask, Option.some.injEq] at hconnected
      rw [← hconnected] at hstop ⊢
      exact hunchanged rfl hstop
    | cancel => exact ⟨rfl, rfl⟩
    | _ => exact hunchanged rfl hstop

/-- After a stop every run is silent. -/
theorem State.Stopped.run (h : s.Stopped) {actions : List Action}
    (hrun : run (State.step C) s actions = some s') : GoesSilent s s' := by
  refine run_invariant (P := GoesSilent s) ?_ ⟨h, [], (List.append_nil _).symm, by simp⟩ hrun
  intro s₁ action s₂ hsilent hstep
  obtain ⟨hstopped, later, hlog, hlater⟩ := hsilent
  obtain ⟨hstopped', more, hlog', hmore⟩ := hstopped.step hstep
  refine ⟨hstopped', later ++ more, by rw [hlog', hlog, List.append_assoc], ?_⟩
  intro entry hentry
  rcases List.mem_append.mp hentry with hold | hnew
  · exact hlater entry hold
  · exact hmore entry hnew

/-- A call that has got this far did not need its request to be sent, or has not sent it. -/
def Phase.Unsent : Phase → Prop
  | .resting => True
  | .requested _ written => written = false
  | .armed call => call.operation.requiresSend = false
  | .heard call => call.operation.requiresSend = false

/-- Without bytes taken, a call stays unsent, and does not succeed if it had to be sent. -/
theorem Phase.Unsent.next {phase phase' : Phase} {event : Event M} (h : phase.Unsent)
    (hevent : event.Silenced) (hnext : phase.next event = some phase') :
    phase'.Unsent ∧ ∀ call value, event = .returned call (.ok value) →
      call.operation.requiresSend = false := by
  unfold Phase.next at hnext
  split at hnext
  all_goals try split at hnext
  all_goals try simp only [Option.some.injEq, reduceCtorEq] at hnext
  all_goals subst hnext
  all_goals simp_all [Phase.Unsent, Event.Silenced]
  -- What is left is a call that heard an answer without having had to be sent.
  intro other value hcall _
  exact hcall ▸ h

/-- In a run without bytes taken, nothing that had to be sent succeeds. -/
theorem Phase.Unsent.run {phase phase' : Phase} {events : List (Event M)} (h : phase.Unsent)
    (hevents : ∀ event ∈ events, event.Silenced)
    (hrun : Run.run Phase.next phase events = some phase') :
    ∀ call value, call.operation.requiresSend = true → .returned call (.ok value) ∉ events := by
  induction events generalizing phase with
  | nil => exact fun _ _ _ => List.not_mem_nil
  | cons event events ih =>
    obtain ⟨middle, hnext, hrest⟩ := exists_of_run_cons hrun
    obtain ⟨hmiddle, hreturned⟩ := h.next (hevents event List.mem_cons_self) hnext
    intro call value hrequires hmem
    rcases List.mem_cons.mp hmem with hfirst | hlater
    · rw [hreturned call value hfirst.symm] at hrequires
      exact Bool.false_ne_true hrequires
    · exact ih hmiddle (fun other hother => hevents other (List.mem_cons_of_mem event hother)) hrest
        call value hrequires hlater

/-- Behind its beginning, no call succeeds whose request went nowhere. -/
theorem noneSucceeds_of_silenced {phase phase' : Phase} {events : List (Event M)}
    (hevents : ∀ event ∈ events, event.Silenced)
    (hrun : run Phase.next phase events = some phase') : NoneSucceeds events := by
  intro before call after hsplit other value hrequires
  subst hsplit
  obtain ⟨middle, -, hrest⟩ := exists_of_run_append hrun
  obtain ⟨began, hbegan, hafter⟩ := exists_of_run_cons hrest
  have hunsent : began.Unsent := by
    cases middle with
    | resting => exact Option.some.inj hbegan ▸ rfl
    | requested other written => cases written <;> simp [Phase.next] at hbegan
    | _ => simp [Phase.next] at hbegan
  refine hunsent.run (fun event hevent => hevents event ?_) hafter other value hrequires
  exact List.mem_append_right _ (List.mem_cons_of_mem _ hevent)

/-- What happens on a connection after a stop, whatever the order of the steps: the socket takes no
byte, and none of the operations begun after the stop succeeds if it needs its request to be sent. -/
theorem State.Stopped.silent (h : Reachable (State.step C) State.init s)
    (hrequested : s.stopRequested = true) {actions : List Action}
    (hrun : Run.run (State.step C) s actions = some s') :
    ∃ later, s'.log = s.log ++ later ∧ (∀ entry ∈ later, entry.2.Silenced) ∧
      ∀ task, NoneSucceeds (eventsOf task later) := by
  obtain ⟨-, later, hlog, hlater⟩ := (stopped_of_reachable h hrequested).run hrun
  refine ⟨later, hlog, hlater, fun task => ?_⟩
  obtain ⟨first, hfirst⟩ := h
  have hreachable : Reachable (State.step C) State.init s' :=
    ⟨first ++ actions, by rw [run_append, hfirst, Option.bind_some, hrun]⟩
  obtain ⟨phase, haccepted, -⟩ := phase_of_reachable hreachable task
  rw [hlog, eventsOf_append] at haccepted
  obtain ⟨middle, -, hrest⟩ := exists_of_run_append haccepted
  refine noneSucceeds_of_silenced (fun event hevent => ?_) hrest
  obtain ⟨entry, hentry, hsame⟩ := List.mem_filterMap.mp hevent
  split at hsame
  · exact Option.some.inj hsame ▸ hlater entry hentry
  · simp at hsame

/-- The connection with its watch dogs is silent after a stop, however the socket was left. -/
theorem stopped_silent (first more : List Action) {w w' : Watched M}
    (hfirst : run (Watched.step C) Watched.init first = some w) (hrequested : w.stopRequested = true)
    (hmore : run (Watched.step C) w more = some w') :
    ∃ later, w'.log = w.log ++ later ∧ (∀ entry ∈ later, entry.2.Silenced) ∧
      ∀ task, NoneSucceeds (eventsOf task later) := by
  have hbefore := abstracts_run C first
  have hafter := abstracts_run C (first ++ more)
  rw [hfirst] at hbefore
  rw [run_append, hfirst, Option.bind_some, hmore] at hafter
  obtain ⟨s, hs, ⟨socket, rfl, -⟩, hreachable⟩ := exists_of_rel_left hbefore
  obtain ⟨s', hs', ⟨socket', rfl, -⟩, -⟩ := exists_of_rel_left hafter
  rw [run_append, hs, Option.bind_some] at hs'
  have hsilent := State.Stopped.silent hreachable hrequested hs'
  exact hsilent

end EspHomeApi
