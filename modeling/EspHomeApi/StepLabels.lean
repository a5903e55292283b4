import EspHomeApi.Transition

/-!
# Steps with their actions

The kinds of steps again, each with the action that it is of. What a coroutine can be brought to
depends on the action only where it starts, is resumed from the socket, or runs a loop. An action
that completes a send or a timer is noted by the coroutine it names, and by no other. Every step is
of one of these kinds, and so of one of those without actions.
-/

namespace EspHomeApi

variable {M : Type} {C : Client M} {s s' : State M} {action : Action} {task : ℕ}

/-- The coroutine that the action names. -/
def Action.task? : Action → Option ℕ
  | .resolved task _ => some task
  | .connected task _ => some task
  | .sent task _ _ => some task
  | .expired task _ => some task
  | .resume task => some task
  | .register task => some task
  | .woken task => some task
  | .received task _ => some task
  | .dispatch task => some task
  | _ => none

/-- The action lets a coroutine go on that is suspended like this. -/
def Action.Suits : Action → Task M → Prop
  | .resolved _ _, .resolving => True
  | .connected _ _, .connecting => True
  | .sent _ _ _, .sending _ _ _ _ => True
  | .expired _ _, .sending _ _ _ _ => True
  | .expired _ _, .waiting _ _ _ => True
  | .resume _, .sending _ _ _ _ => True
  | .resume _, .waiting _ _ _ => True
  | .woken _, .sleeping => True
  | .received _ _, .listening => True
  | .dispatch _, .dispatching _ => True
  | _, _ => False

/-- An operation in flight that completes: a send, or the timer of a send or of a wait. -/
inductive Completion where
  | sent (error : ErrorCode) (count : ℕ)
  | expired (error : ErrorCode)
  deriving DecidableEq

/-- What the action completes for the coroutine. -/
def Action.completionOf (task : ℕ) : Action → Option Completion
  | .sent other error count => if other = task then some (.sent error count) else none
  | .expired other error => if other = task then some (.expired error) else none
  | _ => none

/-- Nothing has completed yet of what the coroutine waits for, since it has just come here. -/
def Task.Fresh : Task M → Prop
  | .sending _ _ _ race => race = .waiting
  | .waiting _ _ _ => False
  | _ => True

/-- How a suspended coroutine notes a completion. Without one it leaves where it is suspended. -/
inductive Notes : Task M → Option Completion → Next M → Prop where
  | sent {call : Call} {packet : Bytes} {connection : Option ℕ} {race race' : TimedOperation ℕ}
    {error : ErrorCode} {count : ℕ} {events : List (Event M)}
    (hrace : race.completeLeft (error, count) = some race')
    (hwrote : ∀ event ∈ events, ∃ current, event = .wrote call current packet count) :
    Notes (.sending call packet connection race) (some (.sent error count))
      (.sending call packet connection race', events)
  | sendExpired {call : Call} {packet : Bytes} {connection : Option ℕ}
    {race race' : TimedOperation ℕ} {error : ErrorCode}
    (hrace : race.completeRight error = some race') :
    Notes (.sending call packet connection race) (some (.expired error))
      (.sending call packet connection race', [])
  | waitExpired {call : Call} {collected : List M} {race race' : Race M ErrorCode}
    {error : ErrorCode} (htimed : call.operation.timed = true)
    (hrace : race.completeRight error = some race') :
    Notes (.waiting call collected race) (some (.expired error))
      (.waiting call collected race', [])
  | leaves {t : Task M} {next : Next M} (hfresh : next.1.Fresh) : Notes t none next

/-- The kinds of steps, with their actions. -/
inductive StepOf (C : Client M) (s : State M) : Action → State M → Prop where
  | move {action : Action} {task : ℕ} {next : Next M} (hnames : action.task? = some task)
    (hsuits : action.Suits (s.tasks task))
    (hnotes : Notes (s.tasks task) (action.completionOf task) next)
    (hmove : Moves C s.stopRequested s.socket (s.tasks task) next) :
    StepOf C s action (s.move C task next)
  | connect : StepOf C s .connect (s.spawn C (.resolving, []))
  | call {operation : Operation} (hping : operation ≠ .ping) :
    StepOf C s (.call operation) (s.call C ⟨operation, .user⟩)
  | consume {operation : Operation} (hnone : operation.request C = none) :
    StepOf C s (.consume operation) (s.call C ⟨operation, .consumer⟩)
  | resolved {task : ℕ} (htask : s.tasks task = .resolving) :
    StepOf C s (.resolved task (.ok ()))
      ({ s with socket := .opened }.move C task (.connecting, []))
  | connected {task : ℕ} {s' : State M} (htask : s.tasks task = .connecting)
    (hstep : s.connected C task (.ok ()) = some s') : StepOf C s (.connected task (.ok ())) s'
  | register {task : ℕ} {call : Call} {collected : List M}
    (htask : s.tasks task = .registering call collected) :
    StepOf C s (.register task)
      ({ s with registry := s.registry.register ⟨task, call⟩ }.move C task
        (.waiting call collected .waiting, [.registered call]))
  | dispatch {task : ℕ} {message : M} {messages : List M} {registry : Registry Owner M}
    (htask : s.tasks task = .dispatching (message :: messages))
    (hregistry : s.registry.dispatch message = some registry) :
    StepOf C s (.dispatch task) ({ s with registry := registry }.move C task
      (.dispatching messages, [.dispatched message]))
  | submit {registry : Registry Owner M} (hregistry : s.registry.submit = some registry) :
    StepOf C s .submit { s with registry := registry }
  | execute {index : ℕ} {handler : Handler Owner} {message : M} {registry : Registry Owner M}
    {call : Call} {collected : List M} {race race' : Race M ErrorCode}
    (hindex : s.registry.submitted[index]? = some (handler, message))
    (hregistry : s.registry.execute index = some registry)
    (htask : s.tasks handler.owner.task = .waiting call collected race)
    (hrace : race.completeLeft message = some race') :
    StepOf C s (.execute index) ({ s with registry := registry }.move C handler.owner.task
      (.waiting call collected race', [.received call message]))
  | cancel : StepOf C s .cancel { s with stopRequested := true, socket := .closed }

/-- Only the coroutine that an action names notes a completion. -/
theorem completionOf_of_ne {other : ℕ} (hnames : action.task? = some other)
    (hother : other ≠ task) :
    action.completionOf task = none := by
  cases action with
  | sent | expired =>
    obtain rfl := Option.some.inj hnames
    exact if_neg hother
  | _ => rfl

/-- Where a coroutine comes to rest, nothing has completed yet. -/
theorem Task.Rests.fresh {t : Task M} (h : t.Rests) : t.Fresh := by
  cases h with
  | sending call packet connection => exact rfl
  | ended | sleeping | registering => exact trivial

/-- A move of the coroutine that an action names and suits. -/
theorem StepOf.of_move {t : Task M} {next : Next M} {completion : Option Completion}
    (hnames : action.task? = some task) (htask : s.tasks task = t) (hsuits : action.Suits t)
    (hcompletion : action.completionOf task = completion) (hnotes : Notes t completion next)
    (hmove : Moves C s.stopRequested s.socket t next) : StepOf C s action (s.move C task next) := by
  subst htask hcompletion
  exact .move hnames hsuits hnotes hmove

/-- A move that is no completion leaves where the coroutine was suspended. -/
theorem StepOf.of_leaves {t : Task M} {next : Next M} (hnames : action.task? = some task)
    (htask : s.tasks task = t) (hsuits : action.Suits t) (hnone : action.completionOf task = none)
    (hfresh : next.1.Fresh) (hmove : Moves C s.stopRequested s.socket t next) :
    StepOf C s action (s.move C task next) :=
  .of_move hnames htask hsuits hnone (.leaves hfresh) hmove

/-- The completion of a send is of its kind. -/
theorem stepOf_of_sent {error : ErrorCode} {count : ℕ} (h : s.sent C task error count = some s') :
    StepOf C s (.sent task error count) s' := by
  unfold State.sent at h
  split at h
  · rename_i call packet connection race htask
    obtain ⟨race', hrace, hsent⟩ := Option.bind_eq_some_iff.mp h
    split at hsent
    · rename_i hzero
      subst hzero
      exact Option.some.inj hsent ▸
        .of_move rfl htask trivial (if_pos rfl) (.sent hrace (by simp)) (.sentNothing hrace)
    · rename_i hcount
      split at hsent
      · rename_i current hsocket
        split at hsent
        · rename_i hguard
          obtain ⟨rfl, hlength⟩ := hguard
          exact Option.some.inj hsent ▸ .of_move rfl htask trivial (if_pos rfl)
            (.sent hrace (by simp)) (.sentBytes hrace hcount hlength hsocket)
        · simp at hsent
      · simp at hsent
  · simp at h

/-- The expiry of a timer is of its kind. -/
theorem stepOf_of_expired {error : ErrorCode} (h : s.expired C task error = some s') :
    StepOf C s (.expired task error) s' := by
  unfold State.expired at h
  split at h
  · rename_i call packet connection race htask
    obtain ⟨race', hrace, rfl⟩ := Option.map_eq_some_iff.mp h
    exact .of_move rfl htask trivial (if_pos rfl) (.sendExpired hrace) (.sendExpired hrace)
  · rename_i call collected race htask
    split at h
    · rename_i htimed
      obtain ⟨race', hrace, rfl⟩ := Option.map_eq_some_iff.mp h
      exact .of_move rfl htask trivial (if_pos rfl) (.waitExpired htimed hrace)
        (.waitExpired htimed hrace)
    · simp at h
  · simp at h

/-- Going on after a send or a wait is of its kind. -/
theorem stepOf_of_resume (h : s.resume C task = some s') : StepOf C s (.resume task) s' := by
  unfold State.resume at h
  split at h
  · rename_i call packet connection race htask
    obtain ⟨written, hresult, rfl⟩ := Option.map_eq_some_iff.mp h
    exact .of_leaves rfl htask trivial rfl (rests_afterSend C _ _ _ _).fresh (.sendOver hresult)
  · rename_i call collected race htask
    obtain ⟨outcome, houtcome, rfl⟩ := Option.map_eq_some_iff.mp h
    exact .of_leaves rfl htask trivial rfl (rests_afterWait C _ _ _ _ _).fresh (.waitOver houtcome)
  · simp at h

/-- What the resolution of a name, and the connection made, lead to. -/
theorem stepOf_of_resolved {outcome : Except ErrorCode Unit}
    (h : s.resolved C task outcome = some s') : StepOf C s (.resolved task outcome) s' := by
  unfold State.resolved at h
  split at h
  · rename_i htask
    exact Option.some.inj h ▸ .resolved htask
  · rename_i error htask
    exact Option.some.inj h ▸ .of_leaves rfl htask trivial rfl trivial (.resolveFailed _)
  · simp at h

/-- The TCP connection is made, or it is not. -/
theorem stepOf_of_connected {outcome : Except ErrorCode Unit}
    (h : s.connected C task outcome = some s') : StepOf C s (.connected task outcome) s' := by
  cases htask : s.tasks task with
  | connecting =>
    cases outcome with
    | ok _ => exact .connected htask h
    | error error =>
      simp only [State.connected, htask, Option.some.injEq] at h
      exact h ▸ .of_leaves rfl htask trivial rfl trivial .connectFailed
  | _ => simp [State.connected, htask] at h

/-- What a loop does with what it received. -/
theorem stepOf_of_received {outcome : Except ErrorCode Bytes}
    (h : s.received C task outcome = some s') : StepOf C s (.received task outcome) s' := by
  unfold State.received at h
  split at h
  · rename_i htask
    exact Option.some.inj h ▸ .of_leaves rfl htask trivial rfl trivial .receiveFailed
  · rename_i chunk htask
    split at h
    · exact Option.some.inj h ▸ .of_leaves rfl htask trivial rfl trivial (.received _)
    · simp at h
  · simp at h

/-- Every step is of one of the kinds that its action allows. -/
theorem stepOf_of_step (h : s.step C action = some s') : StepOf C s action s' := by
  cases action with
  | connect => exact Option.some.inj h ▸ .connect
  | call operation =>
    simp only [State.step] at h
    split at h
    · simp at h
    · rename_i hping
      exact Option.some.inj h ▸ .call hping
  | consume operation =>
    simp only [State.step] at h
    split at h
    · rename_i hnone
      exact Option.some.inj h ▸ .consume (Option.isNone_iff_eq_none.mp hnone)
    · simp at h
  | resolved task outcome => exact stepOf_of_resolved h
  | connected task outcome => exact stepOf_of_connected h
  | sent task error count => exact stepOf_of_sent h
  | expired task error => exact stepOf_of_expired h
  | resume task => exact stepOf_of_resume h
  | register task =>
    simp only [State.step, State.register] at h
    split at h
    · rename_i call collected htask
      exact Option.some.inj h ▸ .register htask
    · simp at h
  | woken task =>
    simp only [State.step, State.woken] at h
    split at h
    · rename_i htask
      split at h
      · rename_i hstop
        exact Option.some.inj h ▸ .of_leaves rfl htask trivial rfl trivial (.stopped hstop)
      · exact Option.some.inj h ▸
          .of_leaves rfl htask trivial rfl (rests_begin C _ _ pingCall).fresh .woken
    · simp at h
  | received task outcome => exact stepOf_of_received h
  | dispatch task =>
    simp only [State.step, State.dispatch] at h
    split at h
    · rename_i htask
      exact Option.some.inj h ▸ .of_leaves rfl htask trivial rfl trivial .dispatchedAll
    · rename_i message messages htask
      obtain ⟨registry, hregistry, rfl⟩ := Option.map_eq_some_iff.mp h
      exact .dispatch htask hregistry
    · simp at h
  | submit =>
    obtain ⟨registry, hregistry, rfl⟩ := Option.map_eq_some_iff.mp h
    exact .submit hregistry
  | execute index =>
    simp only [State.step, State.execute] at h
    split at h
    · rename_i handler message registry hindex hregistry
      split at h
      · rename_i call collected race htask
        obtain ⟨race', hrace, rfl⟩ := Option.map_eq_some_iff.mp h
        exact .execute hindex hregistry htask hrace
      · simp at h
    · simp at h
  | cancel => exact Option.some.inj h ▸ .cancel

/-- What a step can do, whatever its action. -/
theorem StepOf.transition (h : StepOf C s action s') : Transition C s s' := by
  cases h with
  | move hnames hsuits hnotes hmove => exact .move hmove
  | connect => exact .connect
  | call hping => exact .call (Or.inl ⟨rfl, hping⟩)
  | consume hnone => exact .call (Or.inr ⟨rfl, hnone⟩)
  | resolved htask => exact .resolved htask
  | connected htask hstep => exact .connected htask hstep
  | register htask => exact .register htask
  | dispatch htask hregistry => exact .dispatch htask hregistry
  | submit hregistry => exact .submit hregistry
  | execute hindex hregistry htask hrace => exact .execute hindex hregistry htask hrace
  | cancel => exact .cancel

/-- Every step is of one of the kinds. -/
theorem transition_of_step (h : s.step C action = some s') : Transition C s s' :=
  (stepOf_of_step h).transition

end EspHomeApi
