import EspHomeApi.Lib.Run
import Mathlib.Data.List.Nodup
import Mathlib.Data.List.Perm.Basic
import Mathlib.Data.Nat.Notation

/-!
# The registry of completion handlers

`async_receive_message` appends a handler to `handlers_`. The dispatch lambda of the receiving
loop exchanges `handlers_` for an empty vector and submits the handlers of the local one with
the message. A submitted handler runs inline or later, and a handler that runs may register
further handlers while the lambda is still submitting.
-/

namespace EspHomeApi

open Run

variable {O M : Type}

/-- A completion handler and the call that waits for it. -/
structure Handler (O : Type) where
  id : ℕ
  owner : O
  deriving DecidableEq

/-- What happens to handlers and messages. -/
inductive RegistryEvent (O M : Type) where
  | registered (handler : Handler O)
  | dispatched (message : M)
  | submitted (handler : Handler O) (message : M)
  | called (handler : Handler O) (message : M)
  deriving DecidableEq

/-- The handlers on their way from registration to their call.

`draining` is the local vector of the dispatch lambda, and `log` the history. -/
structure Registry (O M : Type) where
  handlers : List (Handler O)
  draining : List (Handler O × M)
  submitted : List (Handler O × M)
  nextId : ℕ
  log : List (RegistryEvent O M)

/-- The registry of a new connection. -/
def Registry.empty : Registry O M := ⟨[], [], [], 0, []⟩

/-- `async_receive_message`: append a handler. -/
def Registry.register (r : Registry O M) (owner : O) : Registry O M :=
  { r with
    handlers := r.handlers ++ [⟨r.nextId, owner⟩]
    nextId := r.nextId + 1
    log := r.log ++ [.registered ⟨r.nextId, owner⟩] }

/-- The dispatch lambda takes the handlers; it runs after the one of the previous message. -/
def Registry.dispatch (r : Registry O M) (message : M) : Option (Registry O M) :=
  match r.draining with
  | [] => some { r with
      handlers := []
      draining := r.handlers.map fun handler => (handler, message)
      log := r.log ++ [.dispatched message] }
  | _ :: _ => none

/-- The dispatch lambda submits the next one of its handlers. -/
def Registry.submit (r : Registry O M) : Option (Registry O M) :=
  match r.draining with
  | [] => none
  | (handler, message) :: draining => some { r with
      draining := draining
      submitted := r.submitted ++ [(handler, message)]
      log := r.log ++ [.submitted handler message] }

/-- A submitted handler runs. -/
def Registry.execute (r : Registry O M) (index : ℕ) : Option (Registry O M) :=
  match r.submitted[index]? with
  | none => none
  | some (handler, message) => some { r with
      submitted := r.submitted.eraseIdx index
      log := r.log ++ [.called handler message] }

/-- The actions on the registry, in any order. -/
inductive RegistryAction (O M : Type) where
  | register (owner : O)
  | dispatch (message : M)
  | submit
  | execute (index : ℕ)

/-- One action on the registry. -/
def Registry.step (r : Registry O M) : RegistryAction O M → Option (Registry O M)
  | .register owner => some (r.register owner)
  | .dispatch message => r.dispatch message
  | .submit => r.submit
  | .execute index => r.execute index

/-- The handlers registered in a history, in order. -/
def registrations : List (RegistryEvent O M) → List (Handler O) :=
  List.filterMap fun
    | .registered handler => some handler
    | _ => none

/-- The messages dispatched in a history, in order. -/
def dispatches : List (RegistryEvent O M) → List M :=
  List.filterMap fun
    | .dispatched message => some message
    | _ => none

/-- The handlers submitted in a history with their messages, in order. -/
def submissions : List (RegistryEvent O M) → List (Handler O × M) :=
  List.filterMap fun
    | .submitted handler message => some (handler, message)
    | _ => none

/-- The calls made in a history, in order. -/
def calls : List (RegistryEvent O M) → List (Handler O × M) :=
  List.filterMap fun
    | .called handler message => some (handler, message)
    | _ => none

/-- The message is the first one dispatched after the registration of the handler. -/
def FirstSince (log : List (RegistryEvent O M)) (handler : Handler O) (message : M) : Prop :=
  ∃ before between after,
    log = before ++ .registered handler :: (between ++ .dispatched message :: after) ∧
      dispatches between = []

/-- No message was dispatched since the registration of the handler. -/
def NoneSince (log : List (RegistryEvent O M)) (handler : Handler O) : Prop :=
  ∃ before after, log = before ++ .registered handler :: after ∧ dispatches after = []

@[simp] theorem registrations_append (left right : List (RegistryEvent O M)) :
    registrations (left ++ right) = registrations left ++ registrations right :=
  List.filterMap_append

@[simp] theorem dispatches_append (left right : List (RegistryEvent O M)) :
    dispatches (left ++ right) = dispatches left ++ dispatches right := List.filterMap_append

@[simp] theorem submissions_append (left right : List (RegistryEvent O M)) :
    submissions (left ++ right) = submissions left ++ submissions right := List.filterMap_append

@[simp] theorem calls_append (left right : List (RegistryEvent O M)) :
    calls (left ++ right) = calls left ++ calls right := List.filterMap_append

/-- What came first stays first. -/
theorem FirstSince.append {log : List (RegistryEvent O M)} {handler : Handler O} {message : M}
    (h : FirstSince log handler message) (more : List (RegistryEvent O M)) :
    FirstSince (log ++ more) handler message := by
  obtain ⟨before, between, after, rfl, hnone⟩ := h
  exact ⟨before, between, after ++ more, by simp only [List.append_assoc, List.cons_append], hnone⟩

/-- A waiting handler keeps waiting through events that dispatch nothing. -/
theorem NoneSince.append {log : List (RegistryEvent O M)} {handler : Handler O}
    (h : NoneSince log handler) {more : List (RegistryEvent O M)} (hmore : dispatches more = []) :
    NoneSince (log ++ more) handler := by
  obtain ⟨before, after, rfl, hnone⟩ := h
  refine ⟨before, after ++ more, by rw [List.append_assoc, List.cons_append], ?_⟩
  rw [dispatches_append, hnone, hmore, List.append_nil]

/-- A waiting handler is due once a message is dispatched. -/
theorem NoneSince.firstSince {log : List (RegistryEvent O M)} {handler : Handler O}
    (h : NoneSince log handler) (message : M) :
    FirstSince (log ++ [.dispatched message]) handler message := by
  obtain ⟨before, after, rfl, hnone⟩ := h
  exact ⟨before, after, [], by rw [List.append_assoc, List.cons_append], hnone⟩

/-- The invariant of the registry.

Every registered handler is at one place, with the message that it is due. -/
structure Registry.Valid (r : Registry O M) : Prop where
  ids_lt : ∀ handler ∈ registrations r.log, handler.id < r.nextId
  ids_nodup : ((registrations r.log).map Handler.id).Nodup
  places : ((calls r.log ++ (r.submitted ++ r.draining)).map Prod.fst ++ r.handlers).Perm
    (registrations r.log)
  waiting : ∀ handler ∈ r.handlers, NoneSince r.log handler
  due : ∀ entry ∈ r.submitted ++ r.draining, FirstSince r.log entry.1 entry.2
  called_first : ∀ before handler message after,
    r.log = before ++ .called handler message :: after → FirstSince before handler message

/-- Nothing is registered with a new connection. -/
theorem Registry.valid_empty : (Registry.empty : Registry O M).Valid where
  ids_lt handler hmem := by simp [empty, registrations] at hmem
  ids_nodup := List.nodup_nil
  places := List.Perm.refl _
  waiting handler hmem := by simp [empty] at hmem
  due entry hmem := by simp [empty] at hmem
  called_first before handler message after h := by simp [empty] at h

/-- An event that calls no handler leaves every call with the first message. -/
theorem Registry.Valid.called_first_concat {r : Registry O M} (h : r.Valid)
    {event : RegistryEvent O M} (hevent : ∀ handler message, event ≠ .called handler message) :
    ∀ before handler message after, r.log ++ [event] = before ++ .called handler message :: after →
      FirstSince before handler message := by
  intro before handler message after hsplit
  rcases split_concat hsplit with ⟨hcalled, -⟩ | ⟨rest, hrest⟩
  · exact absurd hcalled (hevent handler message)
  · exact h.called_first before handler message rest hrest

/-- Registering keeps the invariant. -/
theorem Registry.Valid.register {r : Registry O M} (h : r.Valid) (owner : O) :
    (r.register owner).Valid where
  ids_lt handler hmem := by
    simp only [Registry.register, registrations_append, List.mem_append] at hmem
    rcases hmem with hold | hnew
    · exact Nat.lt_trans (h.ids_lt handler hold) (Nat.lt_succ_self _)
    · rw [List.mem_singleton.mp hnew]
      exact Nat.lt_succ_self _
  ids_nodup := by
    simp only [Registry.register, registrations_append, List.map_append]
    refine List.Nodup.append h.ids_nodup (List.nodup_singleton _) fun id hold hnew => ?_
    obtain ⟨handler, hmem, rfl⟩ := List.mem_map.mp hold
    have hlt := h.ids_lt handler hmem
    rw [List.mem_singleton.mp hnew] at hlt
    exact Nat.lt_irrefl _ hlt
  places := by
    simp only [Registry.register, registrations_append, calls_append]
    have hcalls : calls [RegistryEvent.registered (M := M) ⟨r.nextId, owner⟩] = [] := rfl
    rw [hcalls, List.append_nil, ← List.append_assoc]
    exact h.places.append_right _
  waiting handler hmem := by
    rcases List.mem_append.mp hmem with hold | hnew
    · exact (h.waiting handler hold).append rfl
    · rw [List.mem_singleton.mp hnew]
      exact ⟨r.log, [], rfl, rfl⟩
  due entry hmem := (h.due entry hmem).append _
  called_first := h.called_first_concat (by simp)

/-- A dispatch finds the lambda idle, and takes all handlers. -/
theorem Registry.dispatch_eq_some {r r' : Registry O M} {message : M}
    (h : r.dispatch message = some r') :
    r.draining = [] ∧ r' = { r with
      handlers := []
      draining := r.handlers.map fun handler => (handler, message)
      log := r.log ++ [.dispatched message] } := by
  unfold dispatch at h
  split at h
  · rename_i hidle
    exact ⟨hidle, (Option.some.inj h).symm⟩
  · simp at h

/-- A submission moves the first one of the local handlers on. -/
theorem Registry.submit_eq_some {r r' : Registry O M} (h : r.submit = some r') :
    ∃ handler message draining, r.draining = (handler, message) :: draining ∧ r' = { r with
      draining := draining
      submitted := r.submitted ++ [(handler, message)]
      log := r.log ++ [.submitted handler message] } := by
  unfold submit at h
  split at h
  · simp at h
  · rename_i handler message draining hdraining
    exact ⟨handler, message, draining, hdraining, (Option.some.inj h).symm⟩

/-- A call takes one of the submitted handlers. -/
theorem Registry.execute_eq_some {r r' : Registry O M} {index : ℕ}
    (h : r.execute index = some r') :
    ∃ handler message, r.submitted[index]? = some (handler, message) ∧ r' = { r with
      submitted := r.submitted.eraseIdx index
      log := r.log ++ [.called handler message] } := by
  unfold execute at h
  split at h
  · simp at h
  · rename_i handler message hindex
    exact ⟨handler, message, hindex, (Option.some.inj h).symm⟩

/-- Dispatching keeps the invariant: the handlers that waited are due the message. -/
theorem Registry.Valid.dispatch {r r' : Registry O M} (h : r.Valid) {message : M}
    (hstep : r.dispatch message = some r') : r'.Valid := by
  obtain ⟨hidle, rfl⟩ := dispatch_eq_some hstep
  constructor
  case ids_lt => simpa [registrations] using h.ids_lt
  case ids_nodup => simpa [registrations] using h.ids_nodup
  case places =>
    have hplaces := h.places
    rw [hidle] at hplaces
    simpa [registrations, calls, Function.comp_def] using hplaces
  case waiting => simp
  case due =>
    intro entry hmem
    rcases List.mem_append.mp hmem with hold | hnew
    · exact (h.due entry (List.mem_append_left _ hold)).append _
    · obtain ⟨handler, hhandler, rfl⟩ := List.mem_map.mp hnew
      exact (h.waiting handler hhandler).firstSince message
  case called_first => exact h.called_first_concat (by simp)

/-- Submitting keeps the invariant: a handler moves from the local vector. -/
theorem Registry.Valid.submit {r r' : Registry O M} (h : r.Valid) (hstep : r.submit = some r') :
    r'.Valid := by
  obtain ⟨handler, message, draining, hdraining, rfl⟩ := submit_eq_some hstep
  constructor
  case ids_lt => simpa [registrations] using h.ids_lt
  case ids_nodup => simpa [registrations] using h.ids_nodup
  case places =>
    have hplaces := h.places
    rw [hdraining] at hplaces
    simpa [registrations, calls] using hplaces
  case waiting => exact fun waiting hmem => (h.waiting waiting hmem).append rfl
  case due =>
    intro entry hmem
    refine (h.due entry ?_).append _
    rw [hdraining]
    rwa [List.append_assoc, List.singleton_append] at hmem
  case called_first => exact h.called_first_concat (by simp)

/-- Running a handler keeps the invariant: it is called with the message it is due. -/
theorem Registry.Valid.execute {r r' : Registry O M} (h : r.Valid) {index : ℕ}
    (hstep : r.execute index = some r') : r'.Valid := by
  obtain ⟨handler, message, hindex, rfl⟩ := execute_eq_some hstep
  obtain ⟨hlt, hentry⟩ := List.getElem?_eq_some_iff.mp hindex
  have hperm := List.getElem_cons_eraseIdx_perm hlt
  rw [hentry] at hperm
  constructor
  case ids_lt => simpa [registrations] using h.ids_lt
  case ids_nodup => simpa [registrations] using h.ids_nodup
  case places =>
    have hmoved : (calls r.log ++ [(handler, message)] ++
        (r.submitted.eraseIdx index ++ r.draining)).Perm
        (calls r.log ++ (r.submitted ++ r.draining)) := by
      rw [List.append_assoc, List.singleton_append, ← List.cons_append]
      exact (hperm.append_right _).append_left _
    have hregistrations : registrations (r.log ++ [.called handler message]) =
        registrations r.log := by simp [registrations]
    have hcalls : calls (r.log ++ [.called handler message]) =
        calls r.log ++ [(handler, message)] := by simp [calls]
    simp only [hregistrations, hcalls]
    exact ((hmoved.map Prod.fst).append_right _).trans h.places
  case waiting => exact fun waiting hmem => (h.waiting waiting hmem).append rfl
  case due =>
    intro entry hmem
    refine (h.due entry ?_).append _
    rcases List.mem_append.mp hmem with hold | hdraining
    · exact List.mem_append_left _ (List.mem_of_mem_eraseIdx hold)
    · exact List.mem_append_right _ hdraining
  case called_first =>
    intro before other message' after hsplit
    rcases split_concat hsplit with ⟨hevent, rfl⟩ | ⟨rest, hrest⟩
    · simp only [RegistryEvent.called.injEq] at hevent
      obtain ⟨rfl, rfl⟩ := hevent
      have hmem : (handler, message) ∈ r.submitted := hentry ▸ List.getElem_mem hlt
      exact h.due (handler, message) (List.mem_append_left _ hmem)
    · exact h.called_first before other message' rest hrest

/-- Every action keeps the invariant. -/
theorem Registry.Valid.step {r r' : Registry O M} (h : r.Valid) {action : RegistryAction O M}
    (hstep : r.step action = some r') : r'.Valid := by
  cases action with
  | register owner => exact Option.some.inj hstep ▸ h.register owner
  | dispatch message => exact h.dispatch hstep
  | submit => exact h.submit hstep
  | execute index => exact h.execute hstep

/-- The invariant holds after every run. -/
theorem Registry.valid_of_run {r : Registry O M} {actions : List (RegistryAction O M)}
    (hrun : run Registry.step Registry.empty actions = some r) : r.Valid :=
  run_invariant (fun _ _ _ h hstep => h.step hstep) Registry.valid_empty hrun

/-- No dispatch among the actions: they belong to the round of the last message. -/
def SameRound (actions : List (RegistryAction O M)) : Prop :=
  ∀ action ∈ actions, ∀ message, action ≠ .dispatch message

/-- What has happened since the message was dispatched to the handlers.

They were submitted with it in order, the local vector holding those that are not yet, and the
registry holds only handlers registered since. -/
structure RoundOf (before : List (RegistryEvent O M)) (handlers : List (Handler O)) (message : M)
    (r : Registry O M) (events : List (RegistryEvent O M)) : Prop where
  log_eq : r.log = before ++ .dispatched message :: events
  same_round : dispatches events = []
  submitted : submissions events ++ r.draining = handlers.map fun handler => (handler, message)
  registered : r.handlers = registrations events

/-- A dispatch begins a round. -/
theorem RoundOf.of_dispatch {s r : Registry O M} {message : M}
    (h : s.dispatch message = some r) : RoundOf s.log s.handlers message r [] := by
  obtain ⟨-, rfl⟩ := Registry.dispatch_eq_some h
  exact ⟨rfl, rfl, rfl, rfl⟩

/-- One more event continues the round, if it is no dispatch and moves the handlers along. -/
theorem RoundOf.concat {before events : List (RegistryEvent O M)} {handlers : List (Handler O)}
    {message : M} {r r' : Registry O M} (h : RoundOf before handlers message r events)
    {event : RegistryEvent O M} (hlog : r'.log = r.log ++ [event]) (hsame : dispatches [event] = [])
    (hsubmitted : submissions [event] ++ r'.draining = r.draining)
    (hregistered : r'.handlers = r.handlers ++ registrations [event]) :
    RoundOf before handlers message r' (events ++ [event]) where
  log_eq := by rw [hlog, h.log_eq, List.append_assoc, List.cons_append]
  same_round := by rw [dispatches_append, h.same_round, hsame, List.append_nil]
  submitted := by rw [submissions_append, List.append_assoc, hsubmitted, h.submitted]
  registered := by rw [hregistered, h.registered, registrations_append]

/-- Until the next dispatch, every action continues the round. -/
theorem RoundOf.step {before events : List (RegistryEvent O M)} {handlers : List (Handler O)}
    {message : M} {r r' : Registry O M} (h : RoundOf before handlers message r events)
    {action : RegistryAction O M} (hsame : ∀ message, action ≠ .dispatch message)
    (hstep : r.step action = some r') :
    ∃ events, RoundOf before handlers message r' events := by
  cases action with
  | register owner =>
    obtain rfl := Option.some.inj hstep
    exact ⟨_, h.concat rfl rfl rfl rfl⟩
  | dispatch other => exact absurd rfl (hsame other)
  | submit =>
    obtain ⟨handler, other, draining, hdraining, rfl⟩ := Registry.submit_eq_some hstep
    exact ⟨_, h.concat rfl rfl hdraining.symm (List.append_nil _).symm⟩
  | execute index =>
    obtain ⟨handler, other, -, rfl⟩ := Registry.execute_eq_some hstep
    exact ⟨_, h.concat rfl rfl rfl (List.append_nil _).symm⟩

/-- Until the next dispatch, every run continues the round. -/
theorem RoundOf.run {before events : List (RegistryEvent O M)} {handlers : List (Handler O)}
    {message : M} {r r' : Registry O M} (h : RoundOf before handlers message r events)
    {actions : List (RegistryAction O M)} (hsame : SameRound actions)
    (hrun : run Registry.step r actions = some r') :
    ∃ events, RoundOf before handlers message r' events := by
  induction actions generalizing r events with
  | nil => exact ⟨events, Option.some.inj hrun ▸ h⟩
  | cons action actions ih =>
    obtain ⟨next, hnext, hrest⟩ := exists_of_run_cons hrun
    obtain ⟨continued, hcontinued⟩ := h.step (hsame action List.mem_cons_self) hnext
    exact ih hcontinued (fun later hlater => hsame later (List.mem_cons_of_mem _ hlater)) hrest

/-- No handler is called twice. -/
theorem Registry.Valid.called_once {r : Registry O M} (h : r.Valid) :
    ((calls r.log).map fun entry => entry.1.id).Nodup := by
  have hnodup := ((h.places.map Handler.id).nodup_iff).mpr h.ids_nodup
  rw [List.map_append, List.map_map, List.map_append, List.append_assoc] at hnodup
  exact (List.nodup_append.mp hnodup).1

/-- A handler in the registry has not been called. -/
theorem Registry.Valid.not_called {r : Registry O M} (h : r.Valid) {handler : Handler O}
    (hmem : handler ∈ r.handlers) (message : M) : (handler, message) ∉ calls r.log := by
  intro hcalled
  have hnodup := h.places.nodup_iff.mpr (List.Nodup.of_map _ h.ids_nodup)
  have hboth := (List.nodup_append.mp hnodup).2.2 handler
    (List.mem_map_of_mem (f := Prod.fst) (List.mem_append_left _ hcalled)) handler hmem
  exact hboth rfl

/-- The registry is an exactly-once broadcast.

Handlers are called at most once, and with the first message dispatched after their registration.
A dispatch takes all handlers out of the registry; they are submitted with its message, in order
and all of them before the next dispatch, and none registered meanwhile is called. -/
theorem registry_exactlyOnce (actions : List (RegistryAction O M)) (r : Registry O M)
    (hrun : run Registry.step Registry.empty actions = some r) :
    ((calls r.log).map fun entry => entry.1.id).Nodup ∧
    (∀ before handler message after, r.log = before ++ .called handler message :: after →
      FirstSince before handler message) ∧
    (∀ before message after, actions = before ++ .dispatch message :: after → SameRound after →
      ∃ s events, run Registry.step Registry.empty before = some s ∧
        RoundOf s.log s.handlers message r events ∧
        (∀ next, (r.dispatch next).isSome →
          submissions events = s.handlers.map fun handler => (handler, message)) ∧
        ∀ handler ∈ registrations events, ∀ called, (handler, called) ∉ calls r.log) := by
  have hvalid := Registry.valid_of_run hrun
  refine ⟨hvalid.called_once, hvalid.called_first, ?_⟩
  rintro before message after rfl hsame
  obtain ⟨s, hbefore, hafter⟩ := exists_of_run_append hrun
  obtain ⟨next, hdispatch, hrest⟩ := exists_of_run_cons hafter
  obtain ⟨events, hround⟩ := (RoundOf.of_dispatch hdispatch).run hsame hrest
  refine ⟨s, events, hbefore, hround, fun other hother => ?_, fun handler hhandler called => ?_⟩
  · obtain ⟨r', hr'⟩ := Option.isSome_iff_exists.mp hother
    have hsubmitted := hround.submitted
    rwa [(Registry.dispatch_eq_some hr').1, List.append_nil] at hsubmitted
  · rw [← hround.registered] at hhandler
    exact hvalid.not_called hhandler called

/-- Two handlers share a message, and the first of them registers again inside its call. -/
theorem registry_exactlyOnce_reentrant :
    ∃ r, run Registry.step (Registry.empty (O := ℕ) (M := ℕ))
        [.register 0, .register 1, .dispatch 5, .submit, .execute 0, .register 0, .submit,
          .execute 0] = some r ∧
      calls r.log = [(⟨0, 0⟩, 5), (⟨1, 1⟩, 5)] ∧ r.handlers = [⟨2, 0⟩] ∧
      ((calls r.log).map fun entry => entry.1.id).Nodup := by
  refine ⟨_, rfl, by decide, by decide, ?_⟩
  exact (registry_exactlyOnce
    [.register 0, .register 1, .dispatch 5, .submit, .execute 0, .register 0, .submit, .execute 0]
    _ rfl).1

end EspHomeApi
