import EspHomeApi.Coupling
import EspHomeApi.WireClient
import Mathlib.Data.List.Infix

/-!
# The subscription to states

A consumer calls `receive_state` again each time it returned. Nothing buffers the messages that
are decoded between a call of its handler and the next registration, so the states it gets are the
decoded ones exactly as long as every state is decoded while the consumer is listening.
-/

namespace EspHomeApi

open Run

variable {M : Type} {C : Client M} {s s' : State M} {task : ℕ}

/-- The call that a consumer of states makes over and over. -/
def consumerCall : Call := ⟨.receiveState, .consumer⟩

/-- Whether the message is a LightStateResponse. -/
def isState (C : Client M) (message : M) : Bool := C.holdsMessage .lightStateResponse message

/-- The event is a registration by the coroutine. -/
def isRegistrationOf (task : ℕ) : ℕ × Event M → Bool
  | (other, .registered _) => other = task
  | _ => false

/-- The history behind the first registration of the coroutine. -/
def sinceRegistration (task : ℕ) : List (ℕ × Event M) → List (ℕ × Event M)
  | [] => []
  | entry :: log => if isRegistrationOf task entry then log else sinceRegistration task log

/-- The states decoded since the first registration of the coroutine. -/
def statesDecoded (C : Client M) (task : ℕ) (log : List (ℕ × Event M)) : List M :=
  (dispatchedIn (sinceRegistration task log)).filter (isState C)

/-- The messages that the calls of the coroutine returned. -/
def statesReturned (task : ℕ) (log : List (ℕ × Event M)) : List M :=
  log.filterMap fun
    | (other, .returned _ (.ok (.message message))) => if other = task then some message else none
    | _ => none

/-- The messages of the handlers of the coroutine that were taken and not called yet. -/
def entriesFor (task : ℕ) (registry : Registry Owner M) : List M :=
  (registry.submitted ++ registry.draining).filterMap fun entry =>
    if entry.1.owner.task = task then some entry.2 else none

/-- The message that the handler of a coroutine was called with. -/
def Task.arrived : Task M → Option M
  | .waiting _ _ race => race.left?
  | _ => none

/-- The states on their way to the coroutine. -/
def statesInFlight (C : Client M) (task : ℕ) (s : State M) : List M :=
  (entriesFor task s.registry ++ (s.tasks task).arrived.toList).filter (isState C)

/-- The states returned are the ones decoded, in order, up to those in flight. -/
def Lossless (C : Client M) (task : ℕ) (s : State M) : Prop :=
  statesDecoded C task s.log = statesReturned task s.log ++ statesInFlight C task s

instance [DecidableEq M] (C : Client M) (task : ℕ) (s : State M) : Decidable (Lossless C task s) :=
  inferInstanceAs (Decidable (_ = _))

/-- The step decodes the message. -/
def Decodes (s s' : State M) (message : M) : Prop :=
  ∃ receiver, s'.log = s.log ++ [(receiver, .dispatched message)]

/-- The coroutine has registered a handler before. -/
def HasRegistered (task : ℕ) (log : List (ℕ × Event M)) : Prop :=
  ∃ entry ∈ log, isRegistrationOf task entry = true

/-- The coroutine is a consumer of states. -/
def Consuming (task : ℕ) (s : State M) : Prop :=
  s.tasks task = .registering consumerCall [] ∨
    (HasRegistered task s.log ∧ ∃ race, s.tasks task = .waiting consumerCall [] race)

/-- A coroutine that has registered has done so for good. -/
theorem HasRegistered.append {log : List (ℕ × Event M)} (h : HasRegistered task log)
    (more : List (ℕ × Event M)) : HasRegistered task (log ++ more) := by
  obtain ⟨entry, hentry, hregistration⟩ := h
  exact ⟨entry, List.mem_append_left more hentry, hregistration⟩

@[simp] theorem dispatchedIn_append (left right : List (ℕ × Event M)) :
    dispatchedIn (left ++ right) = dispatchedIn left ++ dispatchedIn right := List.filterMap_append

@[simp] theorem statesReturned_append (left right : List (ℕ × Event M)) :
    statesReturned task (left ++ right) = statesReturned task left ++ statesReturned task right :=
  List.filterMap_append

/-- Once the coroutine has registered, everything later is behind that registration. -/
theorem sinceRegistration_append {log : List (ℕ × Event M)} (h : HasRegistered task log)
    (more : List (ℕ × Event M)) :
    sinceRegistration task (log ++ more) = sinceRegistration task log ++ more := by
  induction log with
  | nil =>
    obtain ⟨entry, hentry, -⟩ := h
    simp at hentry
  | cons first log ih =>
    rw [List.cons_append, sinceRegistration, sinceRegistration]
    split
    · rfl
    · rename_i hother
      obtain ⟨entry, hentry, hregistration⟩ := h
      rcases List.mem_cons.mp hentry with rfl | hlater
      · exact absurd hregistration hother
      · exact ih ⟨entry, hlater, hregistration⟩

/-- Before the coroutine has registered, nothing is behind its registration. -/
theorem sinceRegistration_append_of_not {log : List (ℕ × Event M)} (h : ¬ HasRegistered task log)
    (more : List (ℕ × Event M)) :
    sinceRegistration task (log ++ more) = sinceRegistration task more := by
  induction log with
  | nil => rfl
  | cons first log ih =>
    rw [List.cons_append, sinceRegistration, if_neg]
    · exact ih fun ⟨entry, hentry, hregistration⟩ =>
        h ⟨entry, List.mem_cons_of_mem _ hentry, hregistration⟩
    · exact fun hregistration => h ⟨first, List.mem_cons_self, hregistration⟩

/-- What is behind the first registration is a suffix of the history. -/
theorem sinceRegistration_suffix (task : ℕ) (log : List (ℕ × Event M)) :
    sinceRegistration task log <:+ log := by
  induction log with
  | nil => exact List.suffix_refl []
  | cons first log ih =>
    rw [sinceRegistration]
    split
    · exact List.suffix_cons first log
    · exact ih.trans (List.suffix_cons first log)

/-- A consumer that has registered counts what is dispatched later. -/
theorem statesDecoded_append {log : List (ℕ × Event M)} (h : HasRegistered task log)
    (more : List (ℕ × Event M)) : statesDecoded C task (log ++ more) =
      statesDecoded C task log ++ (dispatchedIn more).filter (isState C) := by
  rw [statesDecoded, sinceRegistration_append h, dispatchedIn_append, List.filter_append]
  rfl

/-- Before the first registration, nothing counts. -/
theorem statesDecoded_of_not_hasRegistered {log : List (ℕ × Event M)}
    (h : ¬ HasRegistered task log) : statesDecoded C task log = [] := by
  have hnone := sinceRegistration_append_of_not h []
  rw [List.append_nil] at hnone
  rw [statesDecoded, hnone]
  rfl

/-- Events that dispatch nothing decode nothing. -/
theorem statesDecoded_append_of_none (log : List (ℕ × Event M)) {more : List (ℕ × Event M)}
    (hmore : dispatchedIn more = []) :
    statesDecoded C task (log ++ more) = statesDecoded C task log := by
  by_cases h : HasRegistered task log
  · rw [statesDecoded_append h, hmore, List.filter_nil, List.append_nil]
  · obtain ⟨before, hbefore⟩ := sinceRegistration_suffix task more
    rw [← hbefore, dispatchedIn_append] at hmore
    rw [statesDecoded_of_not_hasRegistered h, statesDecoded, sinceRegistration_append_of_not h,
      (List.append_eq_nil_iff.mp hmore).2, List.filter_nil]

/-- A dispatch before the first registration does not count. -/
theorem statesDecoded_dispatch_of_not {log : List (ℕ × Event M)} (h : ¬ HasRegistered task log)
    (receiver : ℕ) (message : M) :
    statesDecoded C task (log ++ [(receiver, .dispatched message)]) = statesDecoded C task log := by
  rw [statesDecoded_of_not_hasRegistered h, statesDecoded, sinceRegistration_append_of_not h]
  rfl

/-- Events of other coroutines return nothing from this one. -/
theorem statesReturned_of_ne {other : ℕ} (hother : other ≠ task) (events : List (Event M)) :
    statesReturned task (events.map fun event => (other, event)) = [] := by
  rw [statesReturned, List.filterMap_map, List.filterMap_eq_nil_iff]
  intro event _
  simp only [Function.comp_apply]
  split
  · rename_i heq
    rw [if_neg]
    rw [Prod.mk.injEq] at heq
    exact heq.1 ▸ hother
  · rfl

/-- Quiet events dispatch nothing. -/
theorem dispatchedIn_of_quiet {events : List (Event M)} (h : ∀ event ∈ events, event.Quiet)
    (other : ℕ) : dispatchedIn (events.map fun event => (other, event)) = [] := by
  rw [dispatchedIn, List.filterMap_map, List.filterMap_eq_nil_iff]
  intro event hevent
  have hquiet := h event hevent
  cases event with
  | dispatched message => exact hquiet.elim
  | _ => rfl

/-- A consumer that got a message registers again, and has returned the message if it is a state. -/
theorem afterWait_consumer (C : Client M) (stopRequested : Bool) (connection : Option ℕ)
    (message : M) :
    afterWait C stopRequested connection consumerCall [] (.inl message) =
      (.registering consumerCall [],
        if isState C message then [.returned consumerCall (.ok (.message message))] else []) := by
  cases hstate : isState C message with
  | false =>
    rw [isState] at hstate
    simp [afterWait, consumerCall, Operation.answer, Operation.expects, receiveAnyMessage, hstate]
  | true =>
    rw [isState] at hstate
    simp [afterWait, consumerCall, Operation.answer, Operation.expects, receiveAnyMessage, hstate,
      succeed, helloCall, leave, greeting]

/-- The consumer goes on with the message that its handler was called with. -/
theorem outcome?_consumer {race : Race M ErrorCode} {outcome : M ⊕ ErrorCode}
    (h : (Task.waiting consumerCall [] race).outcome? = some outcome) :
    ∃ message, race.left? = some message ∧ outcome = .inl message := by
  obtain ⟨message, hmessage, rfl⟩ := Option.map_eq_some_iff.mp h
  exact ⟨message, hmessage, rfl⟩

/-- A consumer has been started. -/
theorem Consuming.ne_idle (h : Consuming task s) : s.tasks task ≠ .idle := by
  rcases h with h | ⟨-, race, h⟩ <;> simp [h]

/-- A coroutine that neither registers nor waits is not the consumer. -/
theorem Consuming.ne_of_tasks (h : Consuming task s) {other : ℕ}
    (hregistering : ∀ call collected, s.tasks other ≠ .registering call collected)
    (hwaiting : ∀ call collected race, s.tasks other ≠ .waiting call collected race) :
    other ≠ task := by
  rintro rfl
  rcases h with h | ⟨-, race, h⟩
  · exact hregistering _ _ h
  · exact hwaiting _ _ race h

/-- A consumer stays one as long as only others go on. -/
theorem Consuming.of_same (h : Consuming task s) (htask : s'.tasks task = s.tasks task)
    {more : List (ℕ × Event M)} (hlog : s'.log = s.log ++ more) : Consuming task s' := by
  rcases h with h | ⟨hregistered, race, h⟩
  · exact Or.inl (htask.trans h)
  · refine Or.inr ⟨?_, race, htask.trans h⟩
    rw [hlog]
    exact hregistered.append more

/-- The step leaves the consumer and the account of its states as they are. -/
structure KeepsAccount (C : Client M) (task : ℕ) (s s' : State M) : Prop where
  consuming : Consuming task s'
  decoded : statesDecoded C task s'.log = statesDecoded C task s.log
  account : statesReturned task s'.log ++ statesInFlight C task s' =
    statesReturned task s.log ++ statesInFlight C task s

/-- Quiet events of another coroutine keep the account. -/
theorem keepsAccount_of_other (h : Consuming task s) {other : ℕ} (hother : other ≠ task)
    {events : List (Event M)} (hquiet : ∀ event ∈ events, event.Quiet)
    (hlog : s'.log = s.log ++ events.map fun event => (other, event))
    (htask : s'.tasks task = s.tasks task) (hregistry : s'.registry = s.registry) :
    KeepsAccount C task s s' where
  consuming := h.of_same htask hlog
  decoded := by
    rw [hlog, statesDecoded_append_of_none _ (dispatchedIn_of_quiet hquiet other)]
  account := by
    rw [hlog, statesReturned_append, statesReturned_of_ne hother, List.append_nil, statesInFlight,
      statesInFlight, hregistry, htask]

/-- A coroutine without an open wait has no entries. -/
theorem State.Coupled.entriesFor_eq_nil (h : s.Coupled) (hopen : (s.tasks task).openWait = none) :
    entriesFor task s.registry = [] := by
  rw [entriesFor, List.filterMap_eq_nil_iff]
  intro entry hentry
  rw [if_neg]
  rintro rfl
  have howner := h.openWait_of_mem (owner_mem_of_entry hentry)
  rw [hopen] at howner
  simp at howner

/-- The consumer's own moves keep the account: a state that arrived is returned. -/
theorem keepsAccount_of_own (hcoupled : s.Coupled) (h : Consuming task s) {next : Next M}
    (hmove : Moves C s.stopRequested s.socket (s.tasks task) next) :
    KeepsAccount C task s (s.move C task next) := by
  rcases h with hregistering | ⟨hregistered, race, hwaiting⟩
  · rw [hregistering] at hmove
    cases hmove
  · have hmoveWaiting := hmove
    rw [hwaiting] at hmoveWaiting
    cases hmoveWaiting with
    | @waitExpired _ _ _ race' error htimed hrace =>
      refine ⟨Or.inr ⟨hregistered.append _, race', ?_⟩, ?_, ?_⟩
      · rw [move_tasks, Function.update_self]
      · rw [move_log, List.map_nil, List.append_nil]
      · rw [move_log, List.map_nil, List.append_nil, statesInFlight, statesInFlight, move_registry,
          move_tasks, Function.update_self, hwaiting, Task.arrived, Task.arrived,
          Race.left?_of_completeRight hrace]
    | waitOver houtcome =>
      obtain ⟨message, hmessage, rfl⟩ := outcome?_consumer houtcome
      have hentries : entriesFor task s.registry = [] := by
        apply hcoupled.entriesFor_eq_nil
        rw [hwaiting, Task.openWait, hmessage]
        rfl
      rw [afterWait_consumer]
      refine ⟨Or.inl ?_, ?_, ?_⟩
      · rw [move_tasks, Function.update_self]
      · rw [move_log]
        refine statesDecoded_append_of_none _ (dispatchedIn_of_quiet (fun event hevent => ?_) task)
        split at hevent
        · rw [List.mem_singleton.mp hevent]
          exact trivial
        · simp at hevent
      · have hbefore : (Task.waiting consumerCall [] race).arrived = some message := hmessage
        have hafter : (Task.registering consumerCall [] : Task M).arrived = none := rfl
        simp only [move_log, statesReturned_append, statesInFlight, move_registry, move_tasks,
          Function.update_self, hwaiting, hentries, hbefore, hafter]
        cases hstate : isState C message <;> simp [statesReturned, hstate]

/-- Registering keeps the account: nothing is on its way to a coroutine that registers. -/
theorem keepsAccount_of_register (h : Consuming task s) {other : ℕ} {call : Call}
    {collected : List M} (htask : s.tasks other = .registering call collected) :
    KeepsAccount C task s ({ s with registry := s.registry.register ⟨other, call⟩ }.move C other
      (.waiting call collected .waiting, [.registered call])) where
  consuming := by
    by_cases hother : other = task
    · subst hother
      rcases h with hregistering | ⟨-, race, hwaiting⟩
      · obtain ⟨rfl, rfl⟩ := Task.registering.inj (htask.symm.trans hregistering)
        refine Or.inr ⟨⟨(other, .registered consumerCall), ?_, ?_⟩, .waiting, ?_⟩
        · simp [move_log]
        · simp [isRegistrationOf]
        · rw [move_tasks, Function.update_self]
      · rw [hwaiting] at htask
        simp at htask
    · refine h.of_same ?_ (move_log C _ _ _)
      rw [move_tasks, Function.update_of_ne (Ne.symm hother)]
  decoded := statesDecoded_append_of_none _ rfl
  account := by
    have hreturned : statesReturned task [(other, Event.registered (M := M) call)] = [] := rfl
    have hentries : entriesFor task (s.registry.register ⟨other, call⟩) =
        entriesFor task s.registry := rfl
    have harrived : (Function.update s.tasks other (.waiting call collected .waiting) task).arrived =
        (s.tasks task).arrived := by
      by_cases hother : task = other
      · rw [hother, Function.update_self, htask]
        rfl
      · rw [Function.update_of_ne hother]
    simp only [move_log, List.map_cons, List.map_nil, statesReturned_append, hreturned,
      List.append_nil, statesInFlight, move_registry, hentries, move_tasks, harrived]

/-- Submitting keeps the account. -/
theorem keepsAccount_of_submit (h : Consuming task s) {registry : Registry Owner M}
    (hregistry : s.registry.submit = some registry) :
    KeepsAccount C task s { s with registry := registry } where
  consuming := h.of_same rfl (List.append_nil _).symm
  decoded := rfl
  account := by
    obtain ⟨handler, message, draining, hdraining, rfl⟩ := Registry.submit_eq_some hregistry
    simp [statesInFlight, entriesFor, hdraining]

/-- Taking out an element that the function drops changes nothing. -/
theorem filterMap_eraseIdx {α β : Type} {f : α → Option β} {list : List α} {index : ℕ} {a : α}
    (hindex : list[index]? = some a) (hnone : f a = none) :
    (list.eraseIdx index).filterMap f = list.filterMap f := by
  obtain ⟨hlt, hget⟩ := List.getElem?_eq_some_iff.mp hindex
  have hsplit : list = list.take index ++ a :: list.drop (index + 1) := by
    rw [← hget, ← List.drop_eq_getElem_cons hlt, List.take_append_drop]
  rw [List.eraseIdx_eq_take_drop_succ]
  conv_rhs => rw [hsplit]
  rw [List.filterMap_append, List.filterMap_append, List.filterMap_cons_none hnone]

/-- When running a handler takes the last entry of its coroutine, that entry was the only one. -/
theorem entriesFor_eq_singleton {index : ℕ} {handler : Handler Owner} {message : M}
    {before after : Registry Owner M} (hindex : before.submitted[index]? = some (handler, message))
    (hexecute : before.execute index = some after)
    (hnone : entriesFor handler.owner.task after = []) :
    entriesFor handler.owner.task before = [message] := by
  obtain ⟨_, _, _, rfl⟩ := Registry.execute_eq_some hexecute
  obtain ⟨hlt, hget⟩ := List.getElem?_eq_some_iff.mp hindex
  have hperm := (List.getElem_cons_eraseIdx_perm hlt).symm.append_right before.draining
  rw [hget] at hperm
  have hfiltered := hperm.filterMap fun entry : Handler Owner × M =>
    if entry.1.owner.task = handler.owner.task then some entry.2 else none
  simp only [List.cons_append, List.filterMap_cons, if_true] at hfiltered
  rw [entriesFor] at hnone
  rw [hnone] at hfiltered
  exact List.perm_singleton.mp hfiltered

/-- Running a handler keeps the account: its message has arrived. -/
theorem keepsAccount_of_execute (hcoupled : s.Coupled) (h : Consuming task s) {index : ℕ}
    {handler : Handler Owner} {message : M} {registry : Registry Owner M} {call : Call}
    {collected : List M} {race race' : Race M ErrorCode}
    (hindex : s.registry.submitted[index]? = some (handler, message))
    (hregistry : s.registry.execute index = some registry)
    (htask : s.tasks handler.owner.task = .waiting call collected race)
    (hrace : race.completeLeft message = some race') :
    KeepsAccount C task s ({ s with registry := registry }.move C handler.owner.task
      (.waiting call collected race', [.received call message])) := by
  have hafter := hcoupled.execute (C := C) hindex hregistry htask hrace [.received call message]
  obtain ⟨hopen, hclosed⟩ := Race.left?_of_completeLeft hrace
  have hreturned : statesReturned task [(handler.owner.task, Event.received call message)] = [] :=
    rfl
  have hdecoded : statesDecoded C task (s.log ++ [(handler.owner.task, .received call message)]) =
      statesDecoded C task s.log := statesDecoded_append_of_none s.log rfl
  obtain ⟨handler', message', hindex', hexecuted⟩ := Registry.execute_eq_some hregistry
  by_cases hother : handler.owner.task = task
  · subst hother
    have hentriesAfter : entriesFor handler.owner.task registry = [] := by
      refine hafter.entriesFor_eq_nil ?_
      rw [move_tasks, Function.update_self, Task.openWait, hclosed]
      rfl
    have hentries : entriesFor handler.owner.task s.registry = [message] :=
      entriesFor_eq_singleton hindex hregistry hentriesAfter
    refine ⟨?_, hdecoded, ?_⟩
    · rcases h with hregistering | ⟨hregistered, race'', hwaiting⟩
      · rw [hregistering] at htask
        simp at htask
      · obtain ⟨rfl, rfl, rfl⟩ := Task.waiting.inj (htask.symm.trans hwaiting)
        refine Or.inr ⟨hregistered.append _, race', ?_⟩
        rw [move_tasks, Function.update_self]
    · have hbefore : (Task.waiting call collected race).arrived = none := hopen
      have harrived : (Task.waiting call collected race').arrived = some message := hclosed
      simp only [move_log, List.map_cons, List.map_nil, statesReturned_append, hreturned,
        List.append_nil, statesInFlight, move_registry, hentriesAfter, hentries, move_tasks,
        Function.update_self, htask, hbefore, harrived, Option.toList_none, Option.toList_some,
        List.nil_append]
  · have hentries : entriesFor task registry = entriesFor task s.registry := by
      rw [hexecuted, entriesFor, entriesFor, List.filterMap_append, List.filterMap_append,
        filterMap_eraseIdx hindex (if_neg hother)]
    refine ⟨h.of_same ?_ (move_log C _ _ _), hdecoded, ?_⟩
    · rw [move_tasks, Function.update_of_ne (Ne.symm hother)]
    · simp only [move_log, List.map_cons, List.map_nil, statesReturned_append, hreturned,
        List.append_nil, statesInFlight, move_registry, hentries, move_tasks,
        Function.update_of_ne (Ne.symm hother)]

/-- Making the TCP connection of another coroutine keeps the account. -/
theorem keepsAccount_of_connected (hcoupled : s.Coupled) (h : Consuming task s) {other : ℕ}
    (htask : s.tasks other = .connecting) (hstep : s.connected C other (.ok ()) = some s') :
    KeepsAccount C task s s' := by
  have hlt := hcoupled.lt_started h.ne_idle
  have hother : other ≠ task := h.ne_of_tasks (by simp [htask]) (by simp [htask])
  simp only [State.connected, htask, Option.some.injEq] at hstep
  subst hstep
  refine keepsAccount_of_other h hother ?_ (move_log C _ _ _) ?_ rfl
  · intro event hevent
    rcases List.mem_cons.mp hevent with rfl | hbegin
    · exact trivial
    · exact (internal_begin C _ _ helloCall event hbegin).quiet
  · simp only [move_tasks]
    rw [Function.update_of_ne (Ne.symm hother), Function.update_of_ne (by omega),
      Function.update_of_ne (by omega)]

/-- A step that decodes nothing keeps the account. -/
theorem keepsAccount_or_dispatch (hcoupled : s.Coupled) (h : Consuming task s)
    (hstep : Transition C s s') :
    KeepsAccount C task s s' ∨
      ∃ receiver message messages registry, s.tasks receiver = .dispatching (message :: messages) ∧
        s.registry.dispatch message = some registry ∧
        s' = { s with registry := registry }.move C receiver
          (.dispatching messages, [.dispatched message]) := by
  have hstarted := hcoupled.lt_started h.ne_idle
  cases hstep with
  | @move other next hmove =>
    by_cases hother : other = task
    · subst hother
      exact Or.inl (keepsAccount_of_own hcoupled h hmove)
    · refine Or.inl (keepsAccount_of_other h hother hmove.quiet (move_log C _ _ _) ?_ rfl)
      rw [move_tasks, Function.update_of_ne (Ne.symm hother)]
  | connect =>
    refine Or.inl (keepsAccount_of_other h (Nat.ne_of_gt hstarted) (by simp) (move_log C _ _ _) ?_
      rfl)
    rw [spawn_eq, move_tasks, Function.update_of_ne (Nat.ne_of_lt hstarted)]
  | call hcall =>
    refine Or.inl (keepsAccount_of_other h (Nat.ne_of_gt hstarted)
      (fun event hevent => (internal_begin C _ _ _ event hevent).quiet)
      (move_log C _ _ _) ?_ rfl)
    rw [State.call, spawn_eq, move_tasks, Function.update_of_ne (Nat.ne_of_lt hstarted)]
  | @resolved other htask =>
    have hother : other ≠ task := h.ne_of_tasks (by simp [htask]) (by simp [htask])
    refine Or.inl (keepsAccount_of_other h hother (by simp) (move_log C _ _ _) ?_ rfl)
    rw [move_tasks, Function.update_of_ne (Ne.symm hother)]
  | connected htask hstep => exact Or.inl (keepsAccount_of_connected hcoupled h htask hstep)
  | register htask => exact Or.inl (keepsAccount_of_register h htask)
  | @dispatch receiver message messages registry htask hregistry =>
    exact Or.inr ⟨receiver, message, messages, registry, htask, hregistry, rfl⟩
  | submit hregistry => exact Or.inl (keepsAccount_of_submit h hregistry)
  | execute hindex hregistry htask hrace =>
    exact Or.inl (keepsAccount_of_execute hcoupled h hindex hregistry htask hrace)
  | cancel =>
    exact Or.inl ⟨h.of_same rfl (List.append_nil _).symm, rfl, rfl⟩

/-- The handlers of a coroutine in the registry: one if it is listening. -/
theorem State.Coupled.countP_of_listening (h : s.Coupled) {call : Call}
    (hlistening : Listening s ⟨task, call⟩) :
    s.registry.handlers.countP (fun handler => handler.owner.task = task) = 1 := by
  have hcount := h.count ⟨task, call⟩
  obtain ⟨hopen, hnone⟩ := hlistening
  rw [hopen, Option.toList_some, List.count_singleton_self, Registry.owners, List.count_append,
    List.count_eq_zero_of_not_mem, Nat.zero_add, List.count, List.countP_map] at hcount
  · rw [← hcount]
    refine List.countP_congr fun handler hhandler => ?_
    simp only [decide_eq_true_eq, Function.comp_apply, beq_iff_eq]
    constructor
    · intro htask
      exact h.owner_eq (List.mem_append_right _ (List.mem_map_of_mem hhandler)) htask hopen
    · intro howner
      rw [howner]
  · intro hmem
    obtain ⟨entry, hentry, howner⟩ := List.mem_map.mp hmem
    exact hnone entry hentry howner

/-- A consumer that is not listening has no handler in the registry. -/
theorem Consuming.countP_eq_zero (h : Consuming task s) (hcoupled : s.Coupled)
    (hlistening : ¬ Listening s ⟨task, consumerCall⟩) :
    s.registry.handlers.countP (fun handler => handler.owner.task = task) = 0 := by
  rw [List.countP_eq_zero]
  intro handler hhandler htask
  have htask : handler.owner.task = task := of_decide_eq_true htask
  have hopen := hcoupled.openWait_of_mem (List.mem_append_right _ (List.mem_map_of_mem hhandler))
  rw [htask] at hopen
  have hcall : handler.owner.call = consumerCall := by
    rcases h with hregistering | ⟨-, race, hwaiting⟩
    · rw [hregistering] at hopen
      simp [Task.openWait] at hopen
    · rw [hwaiting, Task.openWait] at hopen
      split at hopen
      · exact (Option.some.inj hopen).symm
      · simp at hopen
  refine hlistening ((hcoupled.handlerInPlace_iff _).mp ⟨handler, hhandler, ?_⟩)
  rw [← htask, ← hcall]

/-- A dispatch puts the message on its way to the coroutine once for each of its handlers. -/
theorem entriesFor_dispatch {r r' : Registry Owner M} {message : M}
    (h : r.dispatch message = some r') : entriesFor task r' = entriesFor task r ++
      List.replicate (r.handlers.countP fun handler => handler.owner.task = task) message := by
  obtain ⟨hidle, rfl⟩ := Registry.dispatch_eq_some h
  simp only [entriesFor, hidle, List.append_nil, List.filterMap_append, List.append_cancel_left_eq]
  induction r.handlers with
  | nil => rfl
  | cons handler handlers ih =>
    by_cases htask : handler.owner.task = task
    · simp [htask, ih, List.replicate_succ]
    · simp [htask, ih]

/-- What a step that decodes a message changes for the consumer. -/
theorem account_of_dispatch (h : Consuming task s) {receiver : ℕ} {message : M}
    {messages : List M} {registry : Registry Owner M}
    (htask : s.tasks receiver = .dispatching (message :: messages))
    (hregistry : s.registry.dispatch message = some registry)
    (hs' : s' = { s with registry := registry }.move C receiver
      (.dispatching messages, [.dispatched message])) :
    Consuming task s' ∧ s'.log = s.log ++ [(receiver, .dispatched message)] ∧
      (Task.arrived (s'.tasks task) = Task.arrived (s.tasks task)) ∧
      entriesFor task s'.registry = entriesFor task s.registry ++
        List.replicate (s.registry.handlers.countP fun handler => handler.owner.task = task)
          message := by
  have hother : receiver ≠ task := h.ne_of_tasks (by simp [htask]) (by simp [htask])
  have hsame : s'.tasks task = s.tasks task := by
    rw [hs', move_tasks, Function.update_of_ne (Ne.symm hother)]
  have hlog : s'.log = s.log ++ [(receiver, .dispatched message)] := by
    rw [hs']
    rfl
  refine ⟨h.of_same hsame hlog, hlog, by rw [hsame], ?_⟩
  rw [hs', move_registry]
  exact entriesFor_dispatch hregistry

/-- A listening coroutine has nothing on its way to it. -/
theorem Listening.inFlight_eq_nil {call : Call} (h : Listening s ⟨task, call⟩)
    (hcoupled : s.Coupled) : statesInFlight C task s = [] := by
  obtain ⟨hopen, hnone⟩ := h
  have hentries : entriesFor task s.registry = [] := by
    rw [entriesFor, List.filterMap_eq_nil_iff]
    intro entry hentry
    rw [if_neg]
    intro htask
    exact hnone entry hentry (hcoupled.owner_eq (owner_mem_of_entry hentry) htask hopen)
  have harrived : (s.tasks task).arrived = none := by
    cases htask : s.tasks task with
    | waiting other collected race =>
      rw [htask] at hopen
      simp only [Task.openWait] at hopen
      split at hopen
      · rename_i hleft
        exact Option.isNone_iff_eq_none.mp hleft
      · simp at hopen
    | _ => rfl
  rw [statesInFlight, hentries, harrived]
  rfl

/-- A consumer that has not registered is not listening. -/
theorem Consuming.hasRegistered_of_listening (h : Consuming task s)
    (hlistening : Listening s ⟨task, consumerCall⟩) : HasRegistered task s.log := by
  rcases h with hregistering | ⟨hregistered, -⟩
  · have hopen := hlistening.1
    rw [hregistering] at hopen
    simp [Task.openWait] at hopen
  · exact hregistered

/-- What a dispatched message adds to the account of a consumer: a state counts as decoded, and is
in flight if the consumer is listening. -/
theorem account_of_decodes (hcoupled : s.Coupled) (h : Consuming task s) {receiver : ℕ}
    {message : M} {messages : List M} {registry : Registry Owner M}
    (htask : s.tasks receiver = .dispatching (message :: messages))
    (hregistry : s.registry.dispatch message = some registry)
    (hs' : s' = { s with registry := registry }.move C receiver
      (.dispatching messages, [.dispatched message])) :
    statesReturned task s'.log = statesReturned task s.log ∧
    (HasRegistered task s.log → statesDecoded C task s'.log =
      statesDecoded C task s.log ++ [message].filter (isState C)) ∧
    (¬ HasRegistered task s.log → statesDecoded C task s'.log = statesDecoded C task s.log) ∧
    (Listening s ⟨task, consumerCall⟩ → statesInFlight C task s = [] ∧
      statesInFlight C task s' = [message].filter (isState C)) ∧
    (¬ Listening s ⟨task, consumerCall⟩ →
      statesInFlight C task s' = statesInFlight C task s) := by
  obtain ⟨-, hlog, harrived, hentries⟩ := account_of_dispatch h htask hregistry hs'
  refine ⟨?_, fun hregistered => ?_, fun hunregistered => ?_, fun hlistening => ?_,
    fun hdeaf => ?_⟩
  · rw [hlog, statesReturned_append]
    exact List.append_nil _
  · rw [hlog, statesDecoded_append hregistered]
    rfl
  · rw [hlog, statesDecoded_dispatch_of_not hunregistered]
  · have hnone := hlistening.inFlight_eq_nil (C := C) hcoupled
    refine ⟨hnone, ?_⟩
    rw [statesInFlight, List.filter_append, List.append_eq_nil_iff] at hnone
    rw [statesInFlight, harrived, hentries, hcoupled.countP_of_listening hlistening,
      List.filter_append, List.filter_append, hnone.1, hnone.2, List.append_nil]
    rfl
  · rw [statesInFlight, harrived, hentries, h.countP_eq_zero hcoupled hdeaf, List.replicate_zero,
      List.append_nil]
    rfl

/-- The account stays right if every state is decoded while the consumer is listening. -/
theorem Lossless.step (hlossless : Lossless C task s) (hcoupled : s.Coupled)
    (h : Consuming task s) (hstep : Transition C s s')
    (hlistening : ∀ message, Decodes s s' message → isState C message = true →
      HasRegistered task s.log → Listening s ⟨task, consumerCall⟩) :
    Lossless C task s' := by
  unfold Lossless at hlossless ⊢
  rcases keepsAccount_or_dispatch hcoupled h hstep with
    hkeeps | ⟨receiver, message, messages, registry, htask, hregistry, hs'⟩
  · rw [hkeeps.decoded, hkeeps.account, hlossless]
  · obtain ⟨-, hlog, -⟩ := account_of_dispatch h htask hregistry hs'
    obtain ⟨hreturned, hregistered, hunregistered, hlistens, hdeaf⟩ :=
      account_of_decodes hcoupled h htask hregistry hs'
    rw [hreturned]
    by_cases hlistens' : Listening s ⟨task, consumerCall⟩
    · obtain ⟨hbefore, hafter⟩ := hlistens hlistens'
      rw [hregistered (h.hasRegistered_of_listening hlistens'), hafter, hlossless, hbefore,
        List.append_nil]
    · rw [hdeaf hlistens']
      by_cases hhas : HasRegistered task s.log
      · cases hstate : isState C message with
        | false => rw [hregistered hhas, hlossless, List.filter_cons_of_neg (by simp [hstate]),
            List.filter_nil, List.append_nil]
        | true => exact absurd (hlistening message ⟨receiver, hlog⟩ hstate hhas) hlistens'
      · rw [hunregistered hhas, hlossless]

/-- A state that is decoded while the consumer is not listening spoils the account. -/
theorem listening_of_lossless (hlossless : Lossless C task s) (hcoupled : s.Coupled)
    (h : Consuming task s) (hstep : Transition C s s') (hafter : Lossless C task s') {message : M}
    (hdecodes : Decodes s s' message) (hstate : isState C message = true)
    (hregistered : HasRegistered task s.log) : Listening s ⟨task, consumerCall⟩ := by
  by_contra hlistening
  unfold Lossless at hlossless hafter
  have hmore : statesDecoded C task s'.log = statesDecoded C task s.log ++ [message] := by
    obtain ⟨receiver, hlog⟩ := hdecodes
    rw [hlog, statesDecoded_append hregistered]
    simp [dispatchedIn, hstate]
  have hsame : statesReturned task s'.log ++ statesInFlight C task s' =
      statesReturned task s.log ++ statesInFlight C task s := by
    rcases keepsAccount_or_dispatch hcoupled h hstep with
      hkeeps | ⟨receiver, other, messages, registry, htask, hregistry, hs'⟩
    · exact hkeeps.account
    · obtain ⟨hreturned, -, -, -, hdeaf⟩ := account_of_decodes hcoupled h htask hregistry hs'
      rw [hreturned, hdeaf hlistening]
  rw [hmore, hsame, ← hlossless] at hafter
  simp at hafter

/-- A consumer stays one. -/
theorem Consuming.step (h : Consuming task s) (hcoupled : s.Coupled) (hstep : Transition C s s') :
    Consuming task s' := by
  rcases keepsAccount_or_dispatch hcoupled h hstep with
    hkeeps | ⟨receiver, message, messages, registry, htask, hregistry, hs'⟩
  · exact hkeeps.consuming
  · exact (account_of_dispatch h htask hregistry hs').1

/-- A coroutine that starts to consume states has an empty account. -/
theorem State.Coupled.consume (h : s.Coupled)
    (hconsume : s.step C (.consume .receiveState) = some s') :
    Consuming s.started s' ∧ Lossless C s.started s' := by
  have hlt := h.log_lt
  simp only [State.step, Operation.request, Option.isNone_none, if_true, Option.some.injEq]
    at hconsume
  subst hconsume
  have hlog : (s.call C ⟨.receiveState, .consumer⟩).log = s.log := List.append_nil _
  have htask : (s.call C ⟨.receiveState, .consumer⟩).tasks s.started =
      .registering consumerCall [] := Function.update_self _ _ _
  have hunregistered : ¬ HasRegistered s.started s.log := by
    rintro ⟨⟨other, event⟩, hentry, hregistration⟩
    have hother := hlt _ hentry
    cases event with
    | registered call =>
      simp only [isRegistrationOf, decide_eq_true_eq] at hregistration
      omega
    | _ => simp [isRegistrationOf] at hregistration
  have hreturned : statesReturned s.started s.log = [] := by
    rw [statesReturned, List.filterMap_eq_nil_iff]
    rintro ⟨other, event⟩ hentry
    have hother := hlt _ hentry
    split
    · rename_i heq
      rw [Prod.mk.injEq] at heq
      rw [if_neg (by omega)]
    · rfl
  have hentries : entriesFor s.started (s.call C ⟨.receiveState, .consumer⟩).registry = [] :=
    h.entriesFor_eq_nil (by rw [h.fresh _ le_rfl]; rfl)
  refine ⟨Or.inl htask, ?_⟩
  rw [Lossless, statesInFlight, hlog, htask, hentries, hreturned,
    statesDecoded_of_not_hasRegistered hunregistered]
  rfl

/-- After a consumer of states was started, every state of a run has the right account exactly when
every LightStateResponse, from the first registration on, is decoded while the consumer is
listening. -/
theorem lossless_iff (C : Client M) (s₀ s₁ : State M)
    (hreachable : Reachable (State.step C) State.init s₀)
    (hconsume : s₀.step C (.consume .receiveState) = some s₁) (actions : List Action) :
    (∀ before after s, actions = before ++ after → run (State.step C) s₁ before = some s →
      Lossless C s₀.started s) ↔
    ∀ s action s' message, Passes (State.step C) s₁ actions s action s' → Decodes s s' message →
      isState C message = true → HasRegistered s₀.started s.log →
      Listening s ⟨s₀.started, consumerCall⟩ := by
  obtain ⟨first, hfirst⟩ := hreachable
  have hstart := (State.coupled_of_reachable ⟨first, hfirst⟩).consume hconsume
  have hcoupled {before : List Action} {s : State M}
      (hrun : run (State.step C) s₁ before = some s) : s.Coupled := by
    apply State.coupled_of_reachable (C := C)
    refine ⟨first ++ .consume .receiveState :: before, ?_⟩
    rw [run_append, hfirst, Option.bind_some, run, hconsume]
    exact hrun
  have hconsuming {before : List Action} {s : State M}
      (hrun : run (State.step C) s₁ before = some s) : Consuming s₀.started s :=
    run_induction (P := fun _ s => Consuming s₀.started s) hstart.1
      (fun _ _ _ _ hrun h hstep => h.step (hcoupled hrun) (transition_of_step hstep)) hrun
  constructor
  · rintro hall s action s' message ⟨before, after, rfl, hrun, hstep⟩ hdecodes hstate hregistered
    refine listening_of_lossless (hall before _ s rfl hrun) (hcoupled hrun) (hconsuming hrun)
      (transition_of_step hstep) ?_ hdecodes hstate hregistered
    refine hall (before ++ [action]) after s' ?_ (run_concat hrun hstep)
    rw [List.append_assoc, List.singleton_append]
  · intro hall before after s hactions hrun
    refine run_induction (P := fun before s => ∀ after, actions = before ++ after →
      Lossless C s₀.started s) (fun _ _ => hstart.2) ?_ hrun after hactions
    intro before middle action last hmiddle ih hstep after hsplit
    rw [List.append_assoc, List.singleton_append] at hsplit
    refine (ih _ hsplit).step (hcoupled hmiddle) (hconsuming hmiddle) (transition_of_step hstep)
      fun message hdecodes hstate hregistered => ?_
    exact hall middle action last message ⟨before, after, hsplit, hmiddle, hstep⟩ hdecodes hstate
      hregistered

/-- A client that is connected. -/
def connectedState : State WireMessage :=
  (run (State.step wireClient) State.init
    [.connect, .resolved 0 (.ok ()), .connected 0 (.ok ())]).getD State.init

/-- That client can be reached. -/
theorem reachable_connectedState : Reachable (State.step wireClient) State.init connectedState :=
  ⟨[.connect, .resolved 0 (.ok ()), .connected 0 (.ok ())], rfl⟩

/-- Two states are decoded, the second one while the handler called with the first is to run. -/
def hastyStates : List Action :=
  [.register 3, .received 1 (.ok [0, 0, 24]), .dispatch 1, .submit, .dispatch 1,
    .received 1 (.ok [0, 0, 24]), .dispatch 1]

/-- The state after a consumer was started and two states were decoded. -/
def hastyState : State WireMessage :=
  (run (State.step wireClient) (connectedState.call wireClient consumerCall) hastyStates).getD
    State.init

/-- The run of the two states goes through. -/
theorem run_hastyStates :
    run (State.step wireClient) (connectedState.call wireClient consumerCall) hastyStates =
      some hastyState := by
  rfl

/-- The second state is neither returned nor in flight. -/
theorem not_lossless_hastyState : ¬ Lossless wireClient 3 hastyState := by
  decide

/-- Two states are decoded, the second one after the consumer has returned the first and registered
again. -/
def orderlyStates : List Action :=
  [.register 3, .received 1 (.ok [0, 0, 24]), .dispatch 1, .submit, .execute 0, .resume 3,
    .dispatch 1, .register 3, .received 1 (.ok [0, 0, 24]), .dispatch 1, .submit, .execute 0,
    .resume 3]

/-- The state after that. -/
def orderlyState : State WireMessage :=
  (run (State.step wireClient) (connectedState.call wireClient consumerCall) orderlyStates).getD
    State.init

/-- In every state of that run the account is right. -/
theorem lossless_orderlyStates : ∀ before ∈ orderlyStates.inits,
    ((run (State.step wireClient) (connectedState.call wireClient consumerCall) before).all fun s =>
      Lossless wireClient 3 s) = true := by
  decide +kernel

/-- Both states are decoded while the consumer is listening, and both are returned. -/
theorem lossless_iff_orderlyStates :
    (∀ s action s' message,
      Passes (State.step wireClient) (connectedState.call wireClient consumerCall) orderlyStates s
        action s' → Decodes s s' message → isState wireClient message = true →
      HasRegistered 3 s.log → Listening s ⟨3, consumerCall⟩) ∧
    statesReturned 3 orderlyState.log = [⟨.lightStateResponse, []⟩, ⟨.lightStateResponse, []⟩] := by
  constructor
  · refine (lossless_iff wireClient connectedState (connectedState.call wireClient consumerCall)
      reachable_connectedState rfl orderlyStates).mp ?_
    intro before after s hsplit hrun
    have hprefix : before ∈ orderlyStates.inits := (List.mem_inits _ _).mpr ⟨after, hsplit.symm⟩
    have hall := lossless_orderlyStates before hprefix
    rw [hrun, Option.all_some] at hall
    exact of_decide_eq_true hall
  · decide +kernel

/-- Not every state that is decoded after the first registration is returned or in flight. -/
theorem lost_lightState :
    ¬ ∀ s₀ s₁ : State WireMessage, Reachable (State.step wireClient) State.init s₀ →
      s₀.step wireClient (.consume .receiveState) = some s₁ → ∀ actions s,
        run (State.step wireClient) s₁ actions = some s → Lossless wireClient s₀.started s := by
  intro h
  exact not_lossless_hastyState
    (h connectedState _ reachable_connectedState rfl hastyStates hastyState run_hastyStates)

end EspHomeApi
