import EspHomeApi.Lib.OneShot
import EspHomeApi.History
import EspHomeApi.Subscription

/-!
# What a coroutine hears

To a coroutine, the registry, the dispatch lambda and the submitted handlers together are a mailbox
for one message. The coroutine opens it by registering a handler, and every dispatch posts to it,
whichever loop it is of. Nothing else keeps a message for the coroutine.
-/

namespace EspHomeApi

open Run OneShot

variable {M : Type} {C : Client M} {s s' : State M} {task : ℕ}

/-- What happens around the mailbox of a coroutine: its own registrations, and all dispatches. -/
def signals (task : ℕ) (log : List (ℕ × Event M)) : List (Signal M) :=
  log.filterMap fun
    | (other, .registered _) => if other = task then some .opened else none
    | (_, .dispatched message) => some (.posted message)
    | _ => none

/-- The handlers of a coroutine in `handlers_`. -/
def handlersOf (task : ℕ) (registry : Registry Owner M) : ℕ :=
  registry.handlers.countP fun handler => handler.owner.task = task

/-- What a step does to the registry, and what the history says of it. -/
inductive HandlerStep (s s' : State M) : Prop where
  | quiet {more : List (ℕ × Event M)} (hlog : s'.log = s.log ++ more)
    (hquiet : ∀ entry ∈ more, entry.2.Quiet) (hregistry : s'.registry = s.registry)
  | registered {task : ℕ} {call : Call} (hopen : (s.tasks task).openWait = none)
    (hlog : s'.log = s.log ++ [(task, .registered call)])
    (hregistry : s'.registry = s.registry.register ⟨task, call⟩)
  | dispatched {receiver : ℕ} {message : M}
    (hlog : s'.log = s.log ++ [(receiver, .dispatched message)])
    (hregistry : s.registry.dispatch message = some s'.registry)
  | submitted (hlog : s'.log = s.log) (hregistry : s.registry.submit = some s'.registry)
  | called {index : ℕ} {handler : Handler Owner} {message : M} {call : Call}
    (hindex : s.registry.submitted[index]? = some (handler, message))
    (hclosed : (s'.tasks handler.owner.task).openWait = none)
    (hlog : s'.log = s.log ++ [(handler.owner.task, .received call message)])
    (hregistry : s.registry.execute index = some s'.registry)

/-- What came to the coroutine and what is on its way is what its mailbox took, and the coroutine
has a handler in `handlers_` exactly while the mailbox is open. -/
structure ReceivedTaken (task : ℕ) (s : State M) : Prop where
  account : receivedBy task s.log ++ entriesFor task s.registry = taken false (signals task s.log)
  inPlace : handlersOf task s.registry =
    if openAfter false (signals task s.log) then 1 else 0

/-- Events of a coroutine that are all quiet are quiet steps of the handlers. -/
theorem HandlerStep.of_quiet {events : List (Event M)} (h : ∀ event ∈ events, event.Quiet)
    (hlog : s'.log = s.log ++ events.map fun event => (task, event))
    (hregistry : s'.registry = s.registry) : HandlerStep s s' := by
  refine .quiet hlog (fun entry hentry => ?_) hregistry
  obtain ⟨event, hevent, rfl⟩ := List.mem_map.mp hentry
  exact h event hevent

/-- Steps add to the history. -/
theorem HandlerStep.exists_log (h : HandlerStep s s') : ∃ more, s'.log = s.log ++ more := by
  cases h with
  | quiet hlog hquiet hregistry => exact ⟨_, hlog⟩
  | registered hopen hlog hregistry => exact ⟨_, hlog⟩
  | dispatched hlog hregistry => exact ⟨_, hlog⟩
  | submitted hlog hregistry => exact ⟨[], by rw [hlog, List.append_nil]⟩
  | called hindex hclosed hlog hregistry => exact ⟨_, hlog⟩

/-- What each kind of step does to the handlers. -/
theorem handlerStep_of_transition (hstep : Transition C s s') : HandlerStep s s' := by
  cases hstep with
  | move hmove => exact .of_quiet hmove.quiet (move_log C _ _ _) rfl
  | connect => exact .of_quiet (by simp) (move_log C _ _ _) rfl
  | call hcall =>
    exact .of_quiet (fun event hevent => (internal_begin C _ _ _ event hevent).quiet)
      (move_log C _ _ _) rfl
  | resolved htask => exact .of_quiet (by simp) (move_log C _ _ _) rfl
  | connected htask hconnected =>
    simp only [State.connected, htask, Option.some.injEq] at hconnected
    subst hconnected
    refine .of_quiet (fun event hevent => ?_) (move_log C _ _ _) rfl
    rcases List.mem_cons.mp hevent with rfl | hbegin
    · exact trivial
    · exact (internal_begin C _ _ helloCall event hbegin).quiet
  | register htask => exact .registered (by rw [htask]; rfl) (move_log C _ _ _) rfl
  | dispatch htask hregistry => exact .dispatched (move_log C _ _ _) hregistry
  | submit hregistry => exact .submitted rfl hregistry
  | execute hindex hregistry htask hrace =>
    refine .called hindex ?_ (move_log C _ _ _) hregistry
    rw [move_tasks, Function.update_self, Task.openWait, (Race.left?_of_completeLeft hrace).2]
    rfl
  | cancel => exact .quiet (List.append_nil _).symm (by simp) rfl

@[simp] theorem signals_append (left right : List (ℕ × Event M)) :
    signals task (left ++ right) = signals task left ++ signals task right := List.filterMap_append

/-- Quiet events are no signals. -/
theorem signals_of_quiet {more : List (ℕ × Event M)} (h : ∀ entry ∈ more, entry.2.Quiet) :
    signals task more = [] := by
  rw [signals, List.filterMap_eq_nil_iff]
  intro ⟨other, event⟩ hentry
  have hquiet := h _ hentry
  cases event with
  | registered | dispatched => exact hquiet.elim
  | _ => rfl

/-- Quiet events bring no message. -/
theorem receivedBy_of_quiet {more : List (ℕ × Event M)} (h : ∀ entry ∈ more, entry.2.Quiet) :
    receivedBy task more = [] := by
  rw [receivedBy, List.filterMap_eq_nil_iff]
  intro entry hentry
  obtain ⟨other, event⟩ := entry
  have hquiet := h _ hentry
  cases event with
  | received => exact hquiet.elim
  | _ => rfl

/-- The posts among the signals are the dispatches. -/
theorem posts_signals (task : ℕ) (log : List (ℕ × Event M)) :
    posts (signals task log) = dispatchedIn log := by
  rw [posts, signals, dispatchedIn, List.filterMap_filterMap]
  congr 1
  funext entry
  obtain ⟨other, event⟩ := entry
  cases event with
  | registered call =>
    by_cases hother : other = task <;> simp [hother]
  | _ => rfl

/-- A coroutine without an open wait has no handler in `handlers_`. -/
theorem State.Coupled.handlersOf_eq_zero (h : s.Coupled) (hopen : (s.tasks task).openWait = none) :
    handlersOf task s.registry = 0 := by
  rw [handlersOf, List.countP_eq_zero]
  intro handler hhandler htask
  have howner := h.openWait_of_mem (List.mem_append_right _ (List.mem_map_of_mem hhandler))
  rw [of_decide_eq_true htask, hopen] at howner
  simp at howner

/-- Registering adds a handler of the coroutine that registers. -/
theorem handlersOf_register (registry : Registry Owner M) (owner : Owner) :
    handlersOf task (registry.register owner) =
      handlersOf task registry + if owner.task = task then 1 else 0 := by
  simp [handlersOf, Registry.register, List.countP_append]

/-- A handler that is called takes the message off the way of its coroutine. -/
theorem entriesFor_execute (hcoupled' : s'.Coupled) {index : ℕ}
    {handler : Handler Owner} {message : M} {call : Call}
    (hindex : s.registry.submitted[index]? = some (handler, message))
    (hclosed : (s'.tasks handler.owner.task).openWait = none)
    (hregistry : s.registry.execute index = some s'.registry) :
    entriesFor task s.registry =
      receivedBy task [(handler.owner.task, .received call message)] ++
        entriesFor task s'.registry := by
  by_cases hother : handler.owner.task = task
  · subst hother
    have hnone := hcoupled'.entriesFor_eq_nil hclosed
    rw [entriesFor_eq_singleton hindex hregistry hnone, hnone]
    simp [receivedBy]
  · obtain ⟨_, _, _, hexecuted⟩ := Registry.execute_eq_some hregistry
    rw [hexecuted, entriesFor, entriesFor, List.filterMap_append, List.filterMap_append,
      filterMap_eraseIdx hindex (if_neg hother)]
    simp [receivedBy, hother]

/-- Every step keeps the account of the mailbox. -/
theorem ReceivedTaken.step (h : ReceivedTaken task s) (hcoupled : s.Coupled) (hcoupled' : s'.Coupled)
    (hstep : HandlerStep s s') : ReceivedTaken task s' := by
  cases hstep with
  | quiet hlog hquiet hregistry =>
    constructor
    · rw [hlog, hregistry, receivedBy_append, receivedBy_of_quiet hquiet, signals_append,
        signals_of_quiet hquiet, List.append_nil, List.append_nil, h.account]
    · rw [hlog, hregistry, signals_append, signals_of_quiet hquiet, List.append_nil, h.inPlace]
  | @registered other call hopen hlog hregistry =>
    have hreceived : receivedBy task [(other, Event.registered (M := M) call)] = [] := rfl
    have hentries : entriesFor task (s.registry.register ⟨other, call⟩) =
        entriesFor task s.registry := rfl
    by_cases hother : other = task
    · subst hother
      have hsignals : signals other [(other, Event.registered (M := M) call)] = [.opened] := by
        simp [signals]
      constructor
      · rw [hlog, hregistry, receivedBy_append, hreceived, hentries, signals_append, hsignals,
          taken_append, List.append_nil, h.account]
        exact (List.append_nil _).symm
      · rw [hlog, hregistry, handlersOf_register, if_pos rfl, hcoupled.handlersOf_eq_zero hopen,
          signals_append, hsignals, openAfter_append]
        rfl
    · have hsignals : signals task [(other, Event.registered (M := M) call)] = [] := by
        simp [signals, hother]
      constructor
      · rw [hlog, hregistry, receivedBy_append, hreceived, hentries, signals_append, hsignals,
          List.append_nil, List.append_nil, h.account]
      · rw [hlog, hregistry, handlersOf_register, if_neg hother, signals_append, hsignals,
          List.append_nil, Nat.add_zero, h.inPlace]
  | @dispatched receiver message hlog hregistry =>
    have hreceived : receivedBy task [(receiver, Event.dispatched message)] = [] := rfl
    have hsignals : signals task [(receiver, Event.dispatched message)] = [.posted message] := rfl
    constructor
    · rw [hlog, receivedBy_append, hreceived, List.append_nil, entriesFor_dispatch hregistry,
        ← List.append_assoc, h.account, signals_append, hsignals, taken_append]
      have hcount := h.inPlace
      rw [handlersOf] at hcount
      rw [hcount]
      cases openAfter false (signals task s.log) <;> rfl
    · obtain ⟨-, hregistered⟩ := Registry.dispatch_eq_some hregistry
      rw [hlog, signals_append, hsignals, openAfter_append, hregistered]
      rfl
  | submitted hlog hregistry =>
    obtain ⟨handler, message, draining, hdraining, hsubmitted⟩ := Registry.submit_eq_some hregistry
    have hentries : entriesFor task s'.registry = entriesFor task s.registry := by
      rw [hsubmitted]
      simp [entriesFor, hdraining]
    constructor
    · rw [hlog, hentries, h.account]
    · rw [hlog, hsubmitted]
      exact h.inPlace
  | @called index handler message call hindex hclosed hlog hregistry =>
    have hsignals : signals task [(handler.owner.task, Event.received call message)] = [] := rfl
    constructor
    · rw [hlog, receivedBy_append, List.append_assoc,
        ← entriesFor_execute hcoupled' hindex hclosed hregistry, signals_append, hsignals,
        List.append_nil, h.account]
    · obtain ⟨_, _, _, hexecuted⟩ := Registry.execute_eq_some hregistry
      rw [hlog, signals_append, hsignals, List.append_nil, hexecuted]
      exact h.inPlace

/-- The account of the mailbox is right in every reachable state. -/
theorem delivered_of_reachable (h : Reachable (State.step C) State.init s) (task : ℕ) :
    ReceivedTaken task s := by
  refine h.invariant ⟨rfl, rfl⟩ fun s action s' hreachable hdelivered hstep => ?_
  have hcoupled := State.coupled_of_reachable hreachable
  have htransition := transition_of_step hstep
  exact hdelivered.step hcoupled (hcoupled.step htransition) (handlerStep_of_transition htransition)

/-- What comes to a coroutine, and what is on its way to it, is what the mailbox takes that the
coroutine opens by registering and the loops post to by dispatching. Nothing comes to it twice or out
of order, and nothing is lost on it exactly when it had registered anew before every dispatch. -/
theorem received_eq_taken (h : Reachable (State.step C) State.init s) (task : ℕ) :
    receivedBy task s.log ++ entriesFor task s.registry = taken false (signals task s.log) ∧
      (receivedBy task s.log ++ entriesFor task s.registry).Sublist (dispatchedIn s.log) ∧
      (receivedBy task s.log ++ entriesFor task s.registry = dispatchedIn s.log ↔
        OpenWhenPosted false (signals task s.log)) := by
  have haccount := (delivered_of_reachable h task).account
  refine ⟨haccount, ?_, ?_⟩
  · rw [haccount, ← posts_signals task]
    exact taken_sublist false _
  · rw [haccount, ← posts_signals task]
    exact taken_eq_posts_iff false _

/-- The state after two states were decoded in haste can be reached. -/
theorem reachable_hastyState : Reachable (State.step wireClient) State.init hastyState :=
  ⟨[.connect, .resolved 0 (.ok ()), .connected 0 (.ok ()), .consume .receiveState] ++ hastyStates,
    rfl⟩

/-- The second of the two states does not come to the consumer. -/
theorem received_eq_taken_hasty :
    receivedBy 3 hastyState.log ++ entriesFor 3 hastyState.registry ≠ dispatchedIn hastyState.log := by
  intro hall
  have hopen := (received_eq_taken reachable_hastyState 3).2.2.mp hall
  have hclosed := (taken_eq_posts_iff false _).mpr hopen
  exact absurd (congrArg List.length hclosed) (by decide)

/-- A coroutine has at most one handler on its way, of the call it waits in. However many calls come
and go, there are no more handlers than coroutines. -/
theorem handlers_bounded (h : Reachable (State.step C) State.init s) :
    (s.registry.owners.map Owner.task).Nodup ∧ s.registry.owners.length ≤ s.started ∧
      ∀ owner ∈ s.registry.owners, (s.tasks owner.task).openWait = some owner.call := by
  have hcoupled := State.coupled_of_reachable h
  have hopen (owner : Owner) (hmem : owner ∈ s.registry.owners) :
      (s.tasks owner.task).openWait = some owner.call := hcoupled.openWait_of_mem hmem
  have hnodup : s.registry.owners.Nodup := by
    rw [List.nodup_iff_count_le_one]
    intro owner
    rw [hcoupled.count]
    cases (s.tasks owner.task).openWait with
    | none => exact Nat.zero_le 1
    | some call => exact List.count_le_length
  have hdistinct : (s.registry.owners.map Owner.task).Nodup := by
    refine hnodup.map_on fun first hfirst second hsecond htask => ?_
    exact hcoupled.owner_eq hfirst htask (hopen second hsecond)
  have hstarted : s.registry.owners.map Owner.task ⊆ List.range s.started := by
    intro task htask
    obtain ⟨owner, howner, rfl⟩ := List.mem_map.mp htask
    rw [List.mem_range]
    refine hcoupled.lt_started fun hidle => ?_
    have hwaiting := hopen owner howner
    rw [hidle] at hwaiting
    simp [Task.openWait] at hwaiting
  refine ⟨hdistinct, ?_, hopen⟩
  have hle := (List.subperm_of_subset hdistinct hstarted).length_le
  rwa [List.length_map, List.length_range] at hle

/-- Of the two states, the first is on its way in the only handler of the consumer. -/
theorem handlers_bounded_hasty : (hastyState.registry.owners.map Owner.task).Nodup :=
  (handlers_bounded reachable_hastyState).1

end EspHomeApi
