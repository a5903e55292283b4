import EspHomeApi.StepLabels

/-!
# Handlers and the calls that wait for them

In every reachable state, a call whose wait has not seen a message yet has exactly one completion
handler on its way, and no other handler exists.
-/

namespace EspHomeApi

open Run

variable {M : Type} {C : Client M} {s s' : State M}

/-- The owners of the handlers that have not been called. -/
def Registry.owners {O : Type} (r : Registry O M) : List O :=
  (r.submitted ++ r.draining).map (fun entry => entry.1.owner) ++ r.handlers.map Handler.owner

/-- Coroutines that were not started are idle and have no history, and handlers belong to open
waits one to one. -/
structure State.Coupled (s : State M) : Prop where
  fresh : ∀ task, s.started ≤ task → s.tasks task = .idle
  log_lt : ∀ entry ∈ s.log, entry.1 < s.started
  count : ∀ owner, s.registry.owners.count owner =
    (s.tasks owner.task).openWait.toList.count owner.call

/-- The messages dispatched in a history. -/
def dispatchedIn (log : List (ℕ × Event M)) : List M :=
  log.filterMap fun
    | (_, .dispatched message) => some message
    | _ => none

/-- A handler registered by the call is in `handlers_`. -/
def HandlerInPlace (s : State M) (owner : Owner) : Prop :=
  ∃ handler ∈ s.registry.handlers, handler.owner = owner

/-- The call is suspended in its wait, and no earlier message is on its way to it. -/
def Listening (s : State M) (owner : Owner) : Prop :=
  (s.tasks owner.task).openWait = some owner.call ∧
    ∀ entry ∈ s.registry.submitted ++ s.registry.draining, entry.1.owner ≠ owner

/-- Registering adds the owner. -/
theorem owners_register {O : Type} (r : Registry O M) (owner : O) :
    (r.register owner).owners = r.owners ++ [owner] := by
  simp [Registry.owners, Registry.register]

/-- A dispatch keeps the owners. -/
theorem owners_dispatch {O : Type} {r r' : Registry O M} {message : M}
    (h : r.dispatch message = some r') : r'.owners = r.owners := by
  obtain ⟨hidle, rfl⟩ := Registry.dispatch_eq_some h
  simp [Registry.owners, hidle, Function.comp_def]

/-- A submission keeps the owners. -/
theorem owners_submit {O : Type} {r r' : Registry O M} (h : r.submit = some r') :
    r'.owners = r.owners := by
  obtain ⟨handler, message, draining, hdraining, rfl⟩ := Registry.submit_eq_some h
  simp [Registry.owners, hdraining]

/-- A call takes its owner away. -/
theorem owners_execute {O : Type} {r r' : Registry O M} {index : ℕ} {handler : Handler O}
    {message : M} (hindex : r.submitted[index]? = some (handler, message))
    (h : r.execute index = some r') : r.owners.Perm (handler.owner :: r'.owners) := by
  obtain ⟨handler', message', hindex', rfl⟩ := Registry.execute_eq_some h
  obtain ⟨hlt, hentry⟩ := List.getElem?_eq_some_iff.mp hindex
  have hperm := (List.getElem_cons_eraseIdx_perm hlt).symm
  rw [hentry] at hperm
  have hmoved := ((hperm.append_right r.draining).map fun entry => entry.1.owner).append_right
    (r.handlers.map Handler.owner)
  exact hmoved

/-- Only open waits matter for the coupling. -/
theorem State.Coupled.of_openWait (h : s.Coupled)
    (hfresh : ∀ task, s'.started ≤ task → s'.tasks task = .idle)
    (hlog : ∀ entry ∈ s'.log, entry.1 < s'.started)
    (howners : s'.registry.owners = s.registry.owners)
    (hopen : ∀ task, (s'.tasks task).openWait = (s.tasks task).openWait) : s'.Coupled where
  fresh := hfresh
  log_lt := hlog
  count owner := by rw [howners, hopen, h.count]

/-- Moves neither open nor close a wait. -/
theorem Moves.openWait_eq {stopRequested : Bool} {socket : Socket} {task : Task M} {next : Next M}
    (h : Moves C stopRequested socket task next) : next.1.openWait = task.openWait := by
  cases h with
  | sendOver hresult => exact openWait_afterSend C stopRequested _ _ _
  | woken => exact openWait_begin C stopRequested _ pingCall
  | waitExpired htimed hrace =>
    simp only [Task.openWait]
    rw [Race.left?_of_completeRight hrace]
  | @waitOver call collected race outcome houtcome =>
    have hleft : race.left?.isNone = false := by
      simp only [Task.outcome?] at houtcome
      split at houtcome
      · obtain ⟨message, hmessage, -⟩ := Race.left?_of_result? houtcome
        rw [hmessage]
        rfl
      · obtain ⟨message, hmessage, -⟩ := Option.map_eq_some_iff.mp houtcome
        rw [hmessage]
        rfl
    rw [openWait_afterWait, Task.openWait, hleft]
    rfl
  | _ => rfl

/-- A coroutine that moves was started. -/
theorem Moves.ne_idle {stopRequested : Bool} {socket : Socket} {task : Task M} {next : Next M}
    (h : Moves C stopRequested socket task next) : task ≠ .idle := by
  cases h <;> simp

/-- A coroutine that is not idle was started. -/
theorem State.Coupled.lt_started (h : s.Coupled) {task : ℕ} (htask : s.tasks task ≠ .idle) :
    task < s.started := by
  by_contra hle
  exact htask (h.fresh task (not_lt.mp hle))

/-- Moving a started coroutine leaves the others idle. -/
theorem State.Coupled.fresh_update (h : s.Coupled) {task : ℕ} (htask : task < s.started)
    (next : Task M) (other : ℕ) (hother : s.started ≤ other) :
    Function.update s.tasks task next other = .idle := by
  rw [Function.update_of_ne (by omega)]
  exact h.fresh other hother

/-- The events of a started coroutine continue the history. -/
theorem State.Coupled.log_move (h : s.Coupled) {task started : ℕ} (hle : s.started ≤ started)
    (htask : task < started) (events : List (Event M)) :
    ∀ entry ∈ s.log ++ events.map fun event => (task, event), entry.1 < started := by
  intro entry hentry
  rcases List.mem_append.mp hentry with hold | hnew
  · exact (h.log_lt entry hold).trans_le hle
  · obtain ⟨event, -, rfl⟩ := List.mem_map.mp hnew
    exact htask

/-- A change of one coroutine that keeps its open wait keeps all of them. -/
theorem openWait_update {tasks : ℕ → Task M} {task : ℕ} {next : Task M}
    (h : next.openWait = (tasks task).openWait) (other : ℕ) :
    (Function.update tasks task next other).openWait = (tasks other).openWait := by
  by_cases hother : other = task
  · rw [hother, Function.update_self, h]
  · rw [Function.update_of_ne hother]

/-- Spawning a coroutine that has no open wait keeps the coupling. -/
theorem State.Coupled.spawn (h : s.Coupled) {next : Next M} (hnext : next.1.openWait = none) :
    (s.spawn C next).Coupled := by
  refine h.of_openWait ?_ (h.log_move (Nat.le_succ _) (Nat.lt_succ_self _) _) rfl
    (openWait_update ?_)
  · intro task htask
    rw [spawn_eq, move_tasks, Function.update_of_ne (by simp [spawn_eq] at htask; omega)]
    exact h.fresh task (by simp [spawn_eq] at htask; omega)
  · rw [hnext, h.fresh s.started le_rfl]
    rfl

/-- Making the TCP connection and starting the two loops keeps the coupling. -/
theorem State.Coupled.connected (h : s.Coupled) {task : ℕ} (htask : s.tasks task = .connecting)
    (hstep : s.connected C task (.ok ()) = some s') : s'.Coupled := by
  have hlt : task < s.started := h.lt_started (by simp [htask])
  simp only [State.connected, htask, Option.some.injEq] at hstep
  subst hstep
  refine h.of_openWait ?_ (h.log_move (by simp only [move_started]; omega)
    (by simp only [move_started]; omega) _) rfl fun other => ?_
  · intro other hother
    simp only [move_started] at hother
    simp only [move_tasks]
    rw [Function.update_of_ne (by omega), Function.update_of_ne (by omega),
      Function.update_of_ne (by omega)]
    exact h.fresh other (by omega)
  · simp only [move_tasks]
    rw [openWait_update, openWait_update, openWait_update]
    · rw [h.fresh s.started le_rfl]
      rfl
    · rw [Function.update_of_ne (by omega), h.fresh (s.started + 1) (by omega)]
      exact openWait_heartbeatHead _
    · rw [Function.update_of_ne (by omega), Function.update_of_ne (by omega), htask]
      exact openWait_begin C _ _ helloCall

/-- The handler of a coroutine counts for its own calls. -/
theorem count_owner_self (owner : Owner) (call : Call) :
    [(⟨owner.task, call⟩ : Owner)].count owner = [call].count owner.call := by
  by_cases hcall : call = owner.call
  · subst hcall
    rw [List.count_singleton_self, List.count_singleton_self]
  · rw [List.count_eq_zero_of_not_mem, List.count_eq_zero_of_not_mem]
    · exact fun hmem => hcall (List.mem_singleton.mp hmem).symm
    · exact fun hmem => hcall (congrArg Owner.call (List.mem_singleton.mp hmem)).symm

/-- The handler of one coroutine does not count for another. -/
theorem count_owner_of_ne {owner : Owner} {task : ℕ} (h : owner.task ≠ task) (call : Call) :
    [(⟨task, call⟩ : Owner)].count owner = 0 :=
  List.count_eq_zero_of_not_mem fun hmem => h (congrArg Owner.task (List.mem_singleton.mp hmem))

/-- Registering opens the wait of the coroutine. -/
theorem State.Coupled.register (h : s.Coupled) {task : ℕ} {call : Call} {collected : List M}
    (htask : s.tasks task = .registering call collected) (events : List (Event M)) :
    ({ s with registry := s.registry.register ⟨task, call⟩ }.move C task
      (.waiting call collected .waiting, events)).Coupled where
  fresh := h.fresh_update (h.lt_started (by simp [htask])) _
  log_lt := h.log_move le_rfl (h.lt_started (by simp [htask])) _
  count owner := by
    have hcount := h.count owner
    rw [move_registry, move_tasks, owners_register, List.count_append, hcount]
    by_cases hother : owner.task = task
    · subst hother
      rw [Function.update_self, htask, count_owner_self]
      exact Nat.zero_add _
    · rw [Function.update_of_ne hother, count_owner_of_ne hother, Nat.add_zero]

/-- A handler that has not been called belongs to an open wait. -/
theorem State.Coupled.openWait_of_mem (h : s.Coupled) {owner : Owner}
    (hmem : owner ∈ s.registry.owners) : (s.tasks owner.task).openWait = some owner.call := by
  have hpos := List.count_pos_iff.mpr hmem
  rw [h.count] at hpos
  exact Option.mem_toList.mp (List.count_pos_iff.mp hpos)

/-- A coroutine has handlers for its open wait only. -/
theorem State.Coupled.owner_eq (h : s.Coupled) {owner : Owner} {task : ℕ} {call : Call}
    (hmem : owner ∈ s.registry.owners) (htask : owner.task = task)
    (hopen : (s.tasks task).openWait = some call) : owner = ⟨task, call⟩ := by
  subst htask
  have hcall : owner.call = call :=
    Option.some.inj ((h.openWait_of_mem hmem).symm.trans hopen)
  rw [← hcall]

/-- The owner of a handler that was taken is among the owners. -/
theorem owner_mem_of_entry {O : Type} {r : Registry O M} {entry : Handler O × M}
    (hentry : entry ∈ r.submitted ++ r.draining) : entry.1.owner ∈ r.owners :=
  List.mem_append_left _ (List.mem_map_of_mem (f := fun entry : Handler O × M => entry.1.owner)
    hentry)

/-- The owner of a submitted handler is among the owners. -/
theorem owner_mem_of_submitted {O : Type} {r : Registry O M} {index : ℕ} {handler : Handler O}
    {message : M} (hindex : r.submitted[index]? = some (handler, message)) :
    handler.owner ∈ r.owners :=
  owner_mem_of_entry (List.mem_append_left _ (List.mem_of_getElem? hindex))

/-- A handler that runs completes the call it was registered by. -/
theorem State.Coupled.owner_call (h : s.Coupled) {index : ℕ} {handler : Handler Owner}
    {message : M} {call : Call} {collected : List M} {race race' : Race M ErrorCode}
    (hindex : s.registry.submitted[index]? = some (handler, message))
    (htask : s.tasks handler.owner.task = .waiting call collected race)
    (hrace : race.completeLeft message = some race') : handler.owner.call = call := by
  have hopen := h.openWait_of_mem (owner_mem_of_submitted hindex)
  rw [htask, Task.openWait, (Race.left?_of_completeLeft hrace).1] at hopen
  exact (Option.some.inj hopen).symm

/-- A handler that runs closes the wait of its owner. -/
theorem State.Coupled.execute (h : s.Coupled) {index : ℕ} {handler : Handler Owner} {message : M}
    {registry : Registry Owner M} {call : Call} {collected : List M} {race race' : Race M ErrorCode}
    (hindex : s.registry.submitted[index]? = some (handler, message))
    (hregistry : s.registry.execute index = some registry)
    (htask : s.tasks handler.owner.task = .waiting call collected race)
    (hrace : race.completeLeft message = some race') (events : List (Event M)) :
    ({ s with registry := registry }.move C handler.owner.task
      (.waiting call collected race', events)).Coupled where
  fresh := h.fresh_update (h.lt_started (by simp [htask])) _
  log_lt := h.log_move le_rfl (h.lt_started (by simp [htask])) _
  count owner := by
    have hcount := h.count owner
    have hcall := h.owner_call hindex htask hrace
    have hopen := h.openWait_of_mem (owner_mem_of_submitted hindex)
    have hafter : (Task.waiting call collected race' : Task M).openWait = none := by
      rw [Task.openWait, (Race.left?_of_completeLeft hrace).2]
      rfl
    rw [(owners_execute hindex hregistry).count_eq, ← List.singleton_append,
      List.count_append] at hcount
    rw [move_registry, move_tasks]
    by_cases hother : owner.task = handler.owner.task
    · have hself : [handler.owner].count owner = [handler.owner.call].count owner.call := by
        rw [← count_owner_self owner, hother]
      rw [hother, Function.update_self, hafter]
      rw [hother, hopen, hself] at hcount
      simp only [Option.toList_some, Option.toList_none, List.count_nil] at hcount ⊢
      omega
    · rw [Function.update_of_ne hother, ← hcount, count_owner_of_ne hother, Nat.zero_add]

/-- Every step keeps the coupling. -/
theorem State.Coupled.step (h : s.Coupled) (hstep : Transition C s s') : s'.Coupled := by
  cases hstep with
  | move hmove =>
    have hlt := h.lt_started hmove.ne_idle
    exact h.of_openWait (h.fresh_update hlt _) (h.log_move le_rfl hlt _) rfl
      (openWait_update hmove.openWait_eq)
  | connect => exact h.spawn rfl
  | call hcall => exact h.spawn (openWait_begin C _ _ _)
  | @resolved task htask =>
    have hlt : task < s.started := h.lt_started (by simp [htask])
    exact h.of_openWait (h.fresh_update hlt _) (h.log_move le_rfl hlt []) rfl
      (openWait_update (by rw [htask]; rfl))
  | connected htask hstep => exact h.connected htask hstep
  | register htask => exact h.register htask _
  | @dispatch task message messages registry htask hregistry =>
    have hlt : task < s.started := h.lt_started (by simp [htask])
    exact h.of_openWait (h.fresh_update hlt _) (h.log_move le_rfl hlt [.dispatched message])
      (owners_dispatch hregistry) (openWait_update (by rw [htask]; rfl))
  | submit hregistry => exact h.of_openWait h.fresh h.log_lt (owners_submit hregistry) fun _ => rfl
  | execute hindex hregistry htask hrace => exact h.execute hindex hregistry htask hrace _
  | cancel => exact h.of_openWait h.fresh h.log_lt rfl fun _ => rfl

/-- The coupling holds in every reachable state. -/
theorem State.coupled_of_reachable (h : Reachable (State.step C) State.init s) : s.Coupled := by
  refine h.invariant ⟨fun _ _ => rfl, fun entry hentry => ?_, fun owner => rfl⟩
    fun s action s' _ hs hstep => hs.step (transition_of_step hstep)
  simp [State.init] at hentry

/-- A call has a handler in the registry exactly when it is listening. -/
theorem State.Coupled.handlerInPlace_iff (h : s.Coupled) (owner : Owner) :
    HandlerInPlace s owner ↔ Listening s owner := by
  have hcount := h.count owner
  rw [Registry.owners, List.count_append] at hcount
  constructor
  · rintro ⟨handler, hhandler, rfl⟩
    have hmem : handler.owner ∈ s.registry.handlers.map Handler.owner :=
      List.mem_map_of_mem hhandler
    have hopen := h.openWait_of_mem (List.mem_append_right _ hmem)
    refine ⟨hopen, fun entry hentry heq => ?_⟩
    have hone := List.count_pos_iff.mpr hmem
    have htwo := List.count_pos_iff.mpr
      (List.mem_map_of_mem (f := fun entry : Handler Owner × M => entry.1.owner) hentry)
    rw [hopen, Option.toList_some, List.count_singleton_self] at hcount
    rw [heq] at htwo
    omega
  · rintro ⟨hopen, hnone⟩
    rw [hopen, Option.toList_some, List.count_singleton_self, List.count_eq_zero_of_not_mem,
      Nat.zero_add] at hcount
    · have hmem : owner ∈ s.registry.handlers.map Handler.owner := by
        apply List.count_pos_iff.mp
        omega
      exact List.mem_map.mp hmem
    · intro hmem
      obtain ⟨entry, hentry, howner⟩ := List.mem_map.mp hmem
      exact hnone entry hentry howner

end EspHomeApi
