import EspHomeApi.Coupling

/-!
# One coroutine of a connection

Seen alone, a coroutine goes from suspension to suspension by itself, whatever the others do. Its
events and the completions of what it waits for, in their order, are its story. What every step
keeps of a coroutine and of its story holds of all coroutines in every reachable state.
-/

namespace EspHomeApi

open Run

variable {M : Type} {C : Client M} {s s' : State M} {action : Action} {task : ℕ}

/-- The events of one coroutine. -/
def eventsOf (task : ℕ) (log : List (ℕ × Event M)) : List (Event M) :=
  log.filterMap fun entry => if entry.1 = task then some entry.2 else none

/-- How a coroutine goes on from where it is suspended, and what completes for it. -/
inductive Goes (C : Client M) : Task M → Option Completion → Next M → Prop where
  | moves {stopRequested : Bool} {socket : Socket} {t : Task M} {completion : Option Completion}
    {next : Next M} (hnotes : Notes t completion next)
    (hmove : Moves C stopRequested socket t next) : Goes C t completion next
  | connect : Goes C .idle none (.resolving, [])
  | call {call : Call} (hcall : call.FromUser C) (stopRequested : Bool) (connection : Option ℕ) :
    Goes C .idle none (begin C stopRequested connection call)
  | receiveLoop : Goes C .idle none (.listening, [])
  | heartbeatLoop (stopRequested : Bool) : Goes C .idle none (heartbeatHead stopRequested, [])
  | resolved : Goes C .resolving none (.connecting, [])
  | connected (stopRequested : Bool) (current : Option ℕ)
    (connection receiveLoop heartbeatLoop : ℕ) : Goes C .connecting none
      ((begin C stopRequested current helloCall).1,
        .established connection receiveLoop heartbeatLoop ::
          (begin C stopRequested current helloCall).2)
  | registers (call : Call) (collected : List M) : Goes C (.registering call collected) none
      (.waiting call collected .waiting, [.registered call])
  | dispatches (message : M) (messages : List M) : Goes C (.dispatching (message :: messages)) none
      (.dispatching messages, [.dispatched message])
  | called {call : Call} {collected : List M} {race race' : Race M ErrorCode} {message : M}
    (hrace : race.completeLeft message = some race') : Goes C (.waiting call collected race) none
      (.waiting call collected race', [.received call message])

@[simp] theorem eventsOf_append (left right : List (ℕ × Event M)) :
    eventsOf task (left ++ right) = eventsOf task left ++ eventsOf task right :=
  List.filterMap_append

/-- A coroutine has its own events. -/
theorem eventsOf_self (task : ℕ) (events : List (Event M)) :
    eventsOf task (events.map fun event => (task, event)) = events := by
  rw [eventsOf, List.filterMap_map]
  simp

/-- A coroutine has no events of another one. -/
theorem eventsOf_of_ne {other : ℕ} (hother : other ≠ task) (events : List (Event M)) :
    eventsOf task (events.map fun event => (other, event)) = [] := by
  rw [eventsOf, List.filterMap_map, List.filterMap_eq_nil_iff]
  intro event _
  exact if_neg hother

/-- A step leaves the coroutine alone. -/
def LeavesAlone (task : ℕ) (action : Action) (s s' : State M) : Prop :=
  action.completionOf task = none ∧ s'.tasks task = s.tasks task ∧
    eventsOf task s'.log = eventsOf task s.log

/-- In the step, the coroutine goes on. -/
def GoesOn (C : Client M) (task : ℕ) (action : Action) (s s' : State M) : Prop :=
  ∃ next, Goes C (s.tasks task) (action.completionOf task) next ∧ s'.tasks task = next.1 ∧
    eventsOf task s'.log = eventsOf task s.log ++ next.2

/-- Moving one coroutine lets it go on, and leaves the others alone. -/
theorem goesOn_or_leavesAlone_of_move (other : ℕ) {next : Next M}
    (hgoes : Goes C (s.tasks other) (action.completionOf other) next)
    (hnone : other ≠ task → action.completionOf task = none)
    (htasks : s'.tasks = Function.update s.tasks other next.1)
    (hlog : s'.log = s.log ++ next.2.map fun event => (other, event)) :
    GoesOn C task action s s' ∨ LeavesAlone task action s s' := by
  by_cases hsame : task = other
  · subst hsame
    refine Or.inl ⟨next, hgoes, ?_, ?_⟩
    · rw [htasks, Function.update_self]
    · rw [hlog, eventsOf_append, eventsOf_self]
  · refine Or.inr ⟨hnone (Ne.symm hsame), ?_, ?_⟩
    · rw [htasks, Function.update_of_ne hsame]
    · rw [hlog, eventsOf_append, eventsOf_of_ne (Ne.symm hsame), List.append_nil]

/-- Making the TCP connection lets `connect` go on, starts the two loops, and leaves the others
alone. -/
theorem goesOn_or_leavesAlone_of_connected (hcoupled : s.Coupled) {other : ℕ}
    (htask : s.tasks other = .connecting) (hstep : s.connected C other (.ok ()) = some s')
    (task : ℕ) : GoesOn C task (.connected other (.ok ())) s s' ∨
      LeavesAlone task (.connected other (.ok ())) s s' := by
  have hlt : other < s.started := hcoupled.lt_started (by simp [htask])
  simp only [State.connected, htask, Option.some.injEq] at hstep
  subst hstep
  by_cases hsame : task = other
  · subst hsame
    have hgoes := Goes.connected (C := C) s.stopRequested
      (if s.stopRequested then Socket.closed else .connected s.connections).connection?
      s.connections s.started (s.started + 1)
    refine Or.inl ⟨_, htask ▸ hgoes, ?_, ?_⟩
    · exact Function.update_self _ _ _
    · rw [move_log, eventsOf_append, eventsOf_self]
  · have hevents (events : List (Event M)) :
        eventsOf task (s.log ++ events.map fun event => (other, event)) = eventsOf task s.log := by
      rw [eventsOf_append, eventsOf_of_ne (Ne.symm hsame), List.append_nil]
    simp only [GoesOn, LeavesAlone, move_tasks, move_log, hevents, Function.update_of_ne hsame]
    by_cases hheartbeat : task = s.started + 1
    · subst hheartbeat
      rw [hcoupled.fresh _ (Nat.le_succ _), Function.update_self]
      exact Or.inl ⟨_, .heartbeatLoop s.stopRequested, rfl, (List.append_nil _).symm⟩
    · rw [Function.update_of_ne hheartbeat]
      by_cases hreceiver : task = s.started
      · subst hreceiver
        rw [hcoupled.fresh _ le_rfl, Function.update_self]
        exact Or.inl ⟨_, .receiveLoop, rfl, (List.append_nil _).symm⟩
      · exact Or.inr ⟨rfl, Function.update_of_ne hreceiver _ _, trivial⟩

/-- In every step, each coroutine goes on by itself or is left alone. -/
theorem goesOn_or_leavesAlone (hcoupled : s.Coupled) (hstep : StepOf C s action s') (task : ℕ) :
    GoesOn C task action s s' ∨ LeavesAlone task action s s' := by
  have hidle := hcoupled.fresh s.started le_rfl
  cases hstep with
  | move hnames hsuits hnotes hmove =>
    exact goesOn_or_leavesAlone_of_move _ (.moves hnotes hmove) (completionOf_of_ne hnames) rfl rfl
  | connect =>
    exact goesOn_or_leavesAlone_of_move s.started (hidle ▸ .connect) (fun _ => rfl) rfl rfl
  | call hping =>
    have hcall : Call.FromUser C ⟨_, .user⟩ := Or.inl ⟨rfl, hping⟩
    exact goesOn_or_leavesAlone_of_move s.started (hidle ▸ .call hcall _ _) (fun _ => rfl) rfl rfl
  | consume hnone =>
    have hcall : Call.FromUser C ⟨_, .consumer⟩ := Or.inr ⟨rfl, hnone⟩
    exact goesOn_or_leavesAlone_of_move s.started (hidle ▸ .call hcall _ _) (fun _ => rfl) rfl rfl
  | resolved htask =>
    exact goesOn_or_leavesAlone_of_move _ (htask ▸ .resolved) (fun _ => rfl) rfl rfl
  | connected htask hconnected =>
    exact goesOn_or_leavesAlone_of_connected hcoupled htask hconnected task
  | register htask =>
    exact goesOn_or_leavesAlone_of_move _ (htask ▸ .registers _ _) (fun _ => rfl) rfl rfl
  | dispatch htask hregistry =>
    exact goesOn_or_leavesAlone_of_move _ (htask ▸ .dispatches _ _) (fun _ => rfl) rfl rfl
  | submit hregistry => exact Or.inr ⟨rfl, rfl, rfl⟩
  | execute hindex hregistry htask hrace =>
    exact goesOn_or_leavesAlone_of_move _ (htask ▸ .called hrace) (fun _ => rfl) rfl rfl
  | cancel => exact Or.inr ⟨rfl, rfl, rfl⟩

/-- What happens to a coroutine: an event, or the completion of what it waits for. -/
inductive Happening (M : Type) where
  | event (event : Event M)
  | completed (completion : Completion)

/-- What happens to a coroutine in one step. A completion comes before what it leads to. -/
def happenings (completion : Option Completion) (events : List (Event M)) : List (Happening M) :=
  completion.toList.map .completed ++ events.map .event

/-- What happens to a coroutine in a run. -/
def story (C : Client M) (task : ℕ) : State M → List Action → List (Happening M)
  | _, [] => []
  | s, action :: actions =>
    match s.step C action with
    | none => []
    | some s' => happenings (action.completionOf task)
        ((eventsOf task s'.log).drop (eventsOf task s.log).length) ++ story C task s' actions

/-- The events among what happened. -/
def eventsIn (happened : List (Happening M)) : List (Event M) :=
  happened.filterMap fun
    | .event event => some event
    | .completed _ => none

@[simp] theorem eventsIn_append (left right : List (Happening M)) :
    eventsIn (left ++ right) = eventsIn left ++ eventsIn right := List.filterMap_append

@[simp] theorem eventsIn_happenings (completion : Option Completion) (events : List (Event M)) :
    eventsIn (happenings completion events) = events := by
  cases completion <;> simp [eventsIn, happenings, List.filterMap_map]

/-- What happened before an event brought about the events before it. -/
theorem exists_of_eventsIn {happened : List (Happening M)} {event : Event M}
    {before after : List (Event M)} (h : eventsIn happened = before ++ event :: after) :
    ∃ first last, happened = first ++ .event event :: last ∧ eventsIn first = before := by
  obtain ⟨first, rest, rfl, rfl, hrest⟩ := List.filterMap_eq_append_iff.mp h
  obtain ⟨silent, happening, last, rfl, hsilent, hevent, -⟩ := List.filterMap_eq_cons_iff.mp hrest
  cases happening with
  | completed completion => simp at hevent
  | event other =>
    obtain rfl := Option.some.inj hevent
    refine ⟨first ++ silent, last, (List.append_assoc _ _ _).symm, ?_⟩
    rw [eventsIn, List.filterMap_append, List.filterMap_eq_nil_iff.mpr hsilent, List.append_nil]

/-- One step more goes on with the story. -/
theorem story_concat {actions : List Action} {init : State M}
    (hrun : run (State.step C) init actions = some s) (hstep : s.step C action = some s') :
    story C task init (actions ++ [action]) = story C task init actions ++
      happenings (action.completionOf task)
        ((eventsOf task s'.log).drop (eventsOf task s.log).length) := by
  induction actions generalizing init with
  | nil =>
    obtain rfl := Option.some.inj hrun
    simp [story, hstep]
  | cons first actions ih =>
    obtain ⟨next, hnext, hrest⟩ := exists_of_run_cons hrun
    rw [List.cons_append, story, story, hnext]
    exact (congrArg _ (ih hrest)).trans (List.append_assoc _ _ _).symm

/-- What every step of a coroutine keeps of it and of its story holds after every run. -/
theorem story_invariant {P : Task M → List (Happening M) → Prop} (hidle : P .idle [])
    (hgoes : ∀ t happened completion next, P t happened → Goes C t completion next →
      P next.1 (happened ++ happenings completion next.2))
    {actions : List Action} (h : run (State.step C) State.init actions = some s) (task : ℕ) :
    P (s.tasks task) (story C task State.init actions) := by
  refine run_induction (P := fun actions s => P (s.tasks task) (story C task State.init actions))
    hidle ?_ h
  intro actions s action s' hrun hs hstep
  rw [story_concat hrun hstep]
  rcases goesOn_or_leavesAlone (State.coupled_of_reachable ⟨actions, hrun⟩) (stepOf_of_step hstep)
    task with ⟨next, hnext, htask, hevents⟩ | ⟨hnone, htask, hevents⟩
  · rw [htask, hevents, List.drop_left]
    exact hgoes _ _ _ next hs hnext
  · rw [hnone, htask, hevents, List.drop_length]
    exact (List.append_nil (story C task State.init actions)).symm ▸ hs

/-- The events of a coroutine are those of its story. -/
theorem eventsIn_story {actions : List Action} (h : run (State.step C) State.init actions = some s)
    (task : ℕ) : eventsIn (story C task State.init actions) = eventsOf task s.log := by
  refine run_induction (P := fun actions s =>
    eventsIn (story C task State.init actions) = eventsOf task s.log) rfl ?_ h
  intro actions s action s' hrun hs hstep
  rw [story_concat hrun hstep, eventsIn_append, eventsIn_happenings, hs]
  rcases goesOn_or_leavesAlone (State.coupled_of_reachable ⟨actions, hrun⟩) (stepOf_of_step hstep)
    task with ⟨next, -, -, hevents⟩ | ⟨-, -, hevents⟩
  · rw [hevents, List.drop_left]
  · rw [hevents, List.drop_length, List.append_nil]

/-- What every step of a coroutine keeps of it and of its events holds in every reachable state. -/
theorem coroutine_invariant {P : Task M → List (Event M) → Prop} (hidle : P .idle [])
    (hgoes : ∀ t events completion next, P t events → Goes C t completion next →
      P next.1 (events ++ next.2))
    (h : Reachable (State.step C) State.init s) (task : ℕ) :
    P (s.tasks task) (eventsOf task s.log) := by
  obtain ⟨actions, hrun⟩ := h
  rw [← eventsIn_story hrun]
  refine story_invariant (P := fun t happened => P t (eventsIn happened)) hidle ?_ hrun task
  intro t happened completion next hP hnext
  rw [eventsIn_append, eventsIn_happenings]
  exact hgoes t _ completion next hP hnext

/-- A run continued adds to the events of a coroutine. -/
theorem exists_eventsOf_append {before actions : List Action}
    (hbefore : run (State.step C) State.init before = some s)
    (hrun : run (State.step C) s actions = some s') (task : ℕ) :
    ∃ later, eventsOf task s'.log = eventsOf task s.log ++ later := by
  refine run_induction (P := fun _ s' =>
    ∃ later, eventsOf task s'.log = eventsOf task s.log ++ later) ⟨[], by simp⟩ ?_ hrun
  intro actions middle action next hmiddle hevents hstep
  obtain ⟨later, hlater⟩ := hevents
  have hreachable : Reachable (State.step C) State.init middle :=
    ⟨before ++ actions, by rw [run_append, hbefore, Option.bind_some, hmiddle]⟩
  rcases goesOn_or_leavesAlone (State.coupled_of_reachable hreachable) (stepOf_of_step hstep) task
    with ⟨more, -, -, hmore⟩ | ⟨-, -, hsame⟩
  · exact ⟨later ++ more.2, by rw [hmore, hlater, List.append_assoc]⟩
  · exact ⟨later, hsame.trans hlater⟩

end EspHomeApi
