import EspHomeApi.CoroutineView
import EspHomeApi.Delivery
import EspHomeApi.ReceiveTask

/-!
# A connection that hears nothing any more

When its receiving loops have ended and no `connect` is under way, nothing is dispatched until
somebody calls `connect` again. Whatever else happens, the calls whose handlers are in `handlers_`
by then stay suspended: their timers may run out, but no timer ends a wait.
-/

namespace EspHomeApi

open Run

variable {M : Type} {C : Client M} {s s' : State M} {action : Action} {task : ℕ}

/-- The coroutine is a receiving loop, or on the way to start one. -/
def Task.CanHear : Task M → Prop
  | .resolving => True
  | .connecting => True
  | .listening => True
  | .dispatching _ => True
  | _ => False

/-- No receiving loop is alive, and none is about to be started. -/
def Deaf (s : State M) : Prop := ∀ task, ¬ (s.tasks task).CanHear

/-- The call is suspended with its handler in `handlers_`, and nothing has happened to its coroutine
since. -/
structure Hangs (s s' : State M) (owner : Owner) : Prop where
  inPlace : HandlerInPlace s' owner
  waiting : (s'.tasks owner.task).openWait = some owner.call
  events : eventsOf owner.task s'.log = eventsOf owner.task s.log

/-- What a step leaves as it is when nothing is heard in it. -/
structure Unheard (s s' : State M) : Prop where
  dispatched : dispatchedIn s'.log = dispatchedIn s.log
  connections : s'.connections = s.connections
  handlers : s.registry.handlers ⊆ s'.registry.handlers

/-- A coroutine at rest hears nothing. -/
theorem Task.Rests.not_canHear {t : Task M} (h : t.Rests) : ¬ t.CanHear := by
  cases h <;> exact id

/-- A move leads to hearing only from there. -/
theorem Moves.canHear {stopRequested : Bool} {socket : Socket} {t : Task M} {next : Next M}
    (h : Moves C stopRequested socket t next) (hnext : next.1.CanHear) : t.CanHear := by
  cases h with
  | sendOver hresult => exact absurd hnext (rests_afterSend C stopRequested _ _ _).not_canHear
  | waitOver houtcome => exact absurd hnext (rests_afterWait C stopRequested _ _ _ _).not_canHear
  | woken => exact absurd hnext (rests_begin C stopRequested _ _).not_canHear
  | receiveFailed | received | dispatchedAll => exact trivial
  | _ => exact hnext.elim

/-- A deaf connection stays so when a coroutine goes on to where it hears nothing. -/
theorem Deaf.move (h : Deaf s) {other : ℕ} {t : Task M}
    (htasks : s'.tasks = Function.update s.tasks other t) (ht : ¬ t.CanHear) : Deaf s' := by
  intro task
  rw [htasks]
  by_cases hsame : task = other
  · rw [hsame, Function.update_self]
    exact ht
  · rw [Function.update_of_ne hsame]
    exact h task

/-- Quiet events leave what was dispatched as it is. -/
theorem unheard_of_quiet {events : List (Event M)} (h : ∀ event ∈ events, event.Quiet)
    (hlog : s'.log = s.log ++ events.map fun event => (task, event))
    (hconnections : s'.connections = s.connections)
    (hhandlers : s.registry.handlers ⊆ s'.registry.handlers) : Unheard s s' := by
  refine ⟨?_, hconnections, hhandlers⟩
  rw [hlog, dispatchedIn_append, dispatchedIn_of_quiet h, List.append_nil]

/-- Without a call of `connect`, a deaf connection stays deaf. -/
theorem Deaf.step (h : Deaf s) (hstep : s.step C action = some s')
    (haction : action ≠ .connect) : Deaf s' ∧ Unheard s s' := by
  have hdeaf {task : ℕ} {t : Task M} (htask : s.tasks task = t) : ¬ t.CanHear := htask ▸ h task
  cases stepOf_of_step hstep with
  | move hnames hsuits hnotes hmove =>
    exact ⟨h.move rfl fun hnext => h _ (hmove.canHear hnext),
      unheard_of_quiet hmove.quiet (move_log C _ _ _) rfl (List.Subset.refl _)⟩
  | connect => exact absurd rfl haction
  | call | consume =>
    exact ⟨h.move (t := (begin C _ _ _).1) rfl (rests_begin C _ _ _).not_canHear,
      unheard_of_quiet (fun event hevent => (internal_begin C _ _ _ event hevent).quiet)
        (move_log C _ _ _) rfl (List.Subset.refl _)⟩
  | resolved htask | connected htask | dispatch htask => exact absurd trivial (hdeaf htask)
  | register htask =>
    refine ⟨h.move rfl id, ?_, rfl, List.subset_append_left _ _⟩
    rw [move_log, dispatchedIn_append]
    exact List.append_nil _
  | submit hregistry =>
    obtain ⟨_, _, _, _, rfl⟩ := Registry.submit_eq_some hregistry
    exact ⟨h, rfl, rfl, List.Subset.refl _⟩
  | execute hindex hregistry htask hrace =>
    obtain ⟨_, _, _, rfl⟩ := Registry.execute_eq_some hregistry
    refine ⟨h.move rfl id, ?_, rfl, List.Subset.refl _⟩
    rw [move_log, dispatchedIn_append]
    exact List.append_nil _
  | cancel => exact ⟨h, rfl, rfl, List.Subset.refl _⟩

/-- Nothing happens to a coroutine in a step behind which its wait is still open. -/
theorem eventsOf_of_openWait (hcoupled : s.Coupled) (hstep : StepOf C s action s') {call : Call}
    (hbefore : (s.tasks task).openWait = some call)
    (hafter : (s'.tasks task).openWait = some call) :
    eventsOf task s'.log = eventsOf task s.log := by
  rcases goesOn_or_leavesAlone hcoupled hstep task with
    ⟨next, hgoes, htask, hevents⟩ | ⟨-, -, hevents⟩
  · rw [htask] at hafter
    cases hwait : s.tasks task with
    | waiting other collected race =>
      rw [hwait] at hgoes
      generalize action.completionOf task = completion at hgoes
      cases hgoes with
      | moves hnotes hmove =>
        cases hmove with
        | waitExpired htimed hrace => rw [hevents, List.append_nil]
        | waitOver houtcome =>
          rw [openWait_afterWait] at hafter
          simp at hafter
      | called hrace =>
        rw [Task.openWait, (Race.left?_of_completeLeft hrace).2] at hafter
        simp at hafter
    | _ =>
      rw [hwait] at hbefore
      simp [Task.openWait] at hbefore
  · exact hevents

/-- Without a call of `connect`, nothing is dispatched on a deaf connection any more, no connection is
made, and every call whose handler is in `handlers_` stays suspended, its timer notwithstanding. -/
theorem deaf_forever (h : Reachable (State.step C) State.init s) (hdeaf : Deaf s)
    (actions : List Action) (hconnect : ∀ action ∈ actions, action ≠ .connect)
    (hrun : run (State.step C) s actions = some s') :
    Deaf s' ∧ dispatchedIn s'.log = dispatchedIn s.log ∧ s'.connections = s.connections ∧
      ∀ owner, HandlerInPlace s owner → Hangs s s' owner := by
  obtain ⟨first, hfirst⟩ := h
  have hcoupled {actions : List Action} {s' : State M}
      (hrun : run (State.step C) s actions = some s') : s'.Coupled := by
    refine State.coupled_of_reachable (C := C) ⟨first ++ actions, ?_⟩
    rw [run_append, hfirst, Option.bind_some, hrun]
  refine run_induction (P := fun actions s' => (∀ action ∈ actions, action ≠ .connect) →
    Deaf s' ∧ dispatchedIn s'.log = dispatchedIn s.log ∧ s'.connections = s.connections ∧
      ∀ owner, HandlerInPlace s owner → Hangs s s' owner) ?_ ?_ hrun hconnect
  · refine fun _ => ⟨hdeaf, rfl, rfl, fun owner hplace => ⟨hplace, ?_, rfl⟩⟩
    exact (((State.coupled_of_reachable ⟨first, hfirst⟩).handlerInPlace_iff owner).mp hplace).1
  · intro actions s₁ action s₂ hrun ih hstep hconnect
    obtain ⟨hdeaf₁, hdispatched, hconnections, hhangs⟩ :=
      ih fun other hother => hconnect other (List.mem_append_left _ hother)
    obtain ⟨hdeaf₂, hunheard⟩ := hdeaf₁.step hstep (hconnect action (by simp))
    refine ⟨hdeaf₂, hunheard.dispatched.trans hdispatched,
      hunheard.connections.trans hconnections, fun owner hplace => ?_⟩
    obtain ⟨⟨handler, hmem, howner⟩, hwaiting, hevents⟩ := hhangs owner hplace
    have hplace₂ : HandlerInPlace s₂ owner := ⟨handler, hunheard.handlers hmem, howner⟩
    have hwaiting₂ :=
      (((hcoupled (run_concat hrun hstep)).handlerInPlace_iff owner).mp hplace₂).1
    refine ⟨hplace₂, hwaiting₂, ?_⟩
    rw [eventsOf_of_openWait (hcoupled hrun) (stepOf_of_step hstep) hwaiting hwaiting₂, hevents]

/-- The receiving loop ends with an error while a coroutine waits for the device's information. -/
def lostDevice : List Action :=
  [.connect, .resolved 0 (.ok ()), .connected 0 (.ok ()), .call .requestDeviceInfo,
    .sent 3 .success 3, .expired 3 .operationAborted, .resume 3, .register 3,
    .received 1 (.error .operationAborted)]

/-- The state after that. -/
def lostDeviceState : State WireMessage :=
  (run (State.step wireClient) State.init lostDevice).getD State.init

/-- That state can be reached. -/
theorem reachable_lostDeviceState : Reachable (State.step wireClient) State.init lostDeviceState :=
  ⟨lostDevice, rfl⟩

/-- The connection is deaf. -/
theorem deaf_lostDeviceState : Deaf lostDeviceState := by
  intro task
  by_cases hstarted : task < 4
  · obtain rfl | rfl | rfl | rfl : task = 0 ∨ task = 1 ∨ task = 2 ∨ task = 3 := by omega
    all_goals exact id
  · have hidle := (State.coupled_of_reachable reachable_lostDeviceState).fresh task
      (not_lt.mp hstarted)
    rw [hidle]
    exact id

/-- The call hangs, also after its timer has run out. -/
theorem deaf_forever_lostDevice : ∃ s' : State WireMessage,
    run (State.step wireClient) lostDeviceState [.expired 3 .success] = some s' ∧
      Hangs lostDeviceState s' ⟨3, .requestDeviceInfo, .user⟩ := by
  refine ⟨_, rfl, ?_⟩
  refine (deaf_forever reachable_lostDeviceState deaf_lostDeviceState [.expired 3 .success]
    (by simp) rfl).2.2.2 _ ⟨⟨0, 3, .requestDeviceInfo, .user⟩, List.mem_cons_self, rfl⟩

end EspHomeApi
