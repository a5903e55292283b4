import EspHomeApi.Stopped

/-!
# Clients that share stop sources

A process runs clients on execution contexts. The constructor of a connection puts a stop source
into the context, as a service, and everything that stops the connection later goes by way of this
service: `close` requests a stop of the source that it finds there, and so does everybody who holds
the source. One source may be given to several clients, and then stops them all. But for this no
client notices another one, and what is true of a connection alone is true of all connections of a
process, whatever the interleaving of their steps.
-/

namespace EspHomeApi

open Run

variable {M : Type} {C : ℕ → Client M}

/-- A stop source: one that the user made, or one that was made for a context without one. -/
inductive Source where
  | user (number : ℕ)
  | made (context : ℕ)
  deriving DecidableEq

/-- A client with its connection, and the context that it runs on. -/
structure ClientOn (M : Type) where
  context : ℕ
  connection : Watched M

/-- The connection as it sees the stop source. -/
def ClientOn.seeing (client : ClientOn M) (requested : Bool) : Watched M :=
  { client.connection with stopRequested := requested }

/-- What happens in a process. -/
inductive ProcessEvent where
  /-- A client was constructed on a context, with a stop source. -/
  | constructed (client context : ℕ) (source : Source)
  /-- The construction failed with `service_already_exists`. -/
  | refused (context : ℕ)
  | acted (client : ℕ) (action : Action)
  | requested (source : Source)
  | destroyed (client : ℕ)

/-- The coroutine has returned, or was never started. -/
def Task.isEnded : Task M → Bool
  | .idle => true
  | .ended => true
  | _ => false

/-- A process: the `StopService` of each context, the stop sources, and the clients. -/
structure Process (M : Type) where
  services : ℕ → Option Source
  requested : Source → Bool
  clients : ℕ → Option (ClientOn M)
  constructed : ℕ
  /-- How often a context was found not to have a stop service. -/
  warnings : ℕ
  log : List ProcessEvent

namespace Process

/-- No client was constructed yet. -/
def init : Process M := ⟨fun _ => none, fun _ => false, fun _ => none, 0, 0, []⟩

/-- `addStopService`, which throws if the context has a service already. -/
def addStopService (p : Process M) (context : ℕ) (source : Source) : Option (Process M) :=
  match p.services context with
  | some _ => none
  | none => some { p with services := Function.update p.services context (some source) }

/-- `getStop`, which makes a service if the context has none. -/
def getStop (p : Process M) (context : ℕ) : Source × Process M :=
  match p.services context with
  | some source => (source, p)
  | none => (.made context, { p with
      services := Function.update p.services context (some (.made context))
      warnings := p.warnings + 1 })

/-- A client is constructed. -/
def construct (p : Process M) (context : ℕ) (source : Source) : Process M :=
  match p.addStopService context source with
  | none => { p with log := p.log ++ [.refused context] }
  | some p => { p with
      clients := Function.update p.clients p.constructed (some ⟨context, Watched.init⟩)
      constructed := p.constructed + 1
      log := p.log ++ [.constructed p.constructed context source] }

/-- A request to stop, which runs the watch dogs of all clients on the source. -/
def requestStop (p : Process M) (source : Source) : Process M :=
  { p with
    requested := Function.update p.requested source true
    clients := fun i => (p.clients i).map fun client =>
      if p.services client.context = some source then
        { client with connection := (client.seeing (p.requested source)).cancel }
      else client
    log := p.log ++ [.requested source] }

/-- A client takes an action. `cancel` requests a stop of the source in the context. -/
def act (C : ℕ → Client M) (p : Process M) (i : ℕ) (action : Action) : Option (Process M) :=
  (p.clients i).bind fun client =>
    let (source, p) := p.getStop client.context
    match action with
    | .cancel => some (p.requestStop source)
    | action => ((client.seeing (p.requested source)).step (C i) action).map fun connection =>
      { p with
        clients := Function.update p.clients i (some ⟨client.context, connection⟩)
        log := p.log ++ [.acted i action] }

/-- A client is destroyed, with none of its coroutines left. Its context keeps the service. -/
def destroy (p : Process M) (i : ℕ) : Option (Process M) :=
  (p.clients i).bind fun client =>
    if ∀ task < client.connection.started, (client.connection.tasks task).isEnded = true then
      some { p with
        clients := Function.update p.clients i none
        log := p.log ++ [.destroyed i] }
    else none

end Process

/-- What the process does next. -/
inductive ProcessAction where
  | construct (context number : ℕ)
  | act (client : ℕ) (action : Action)
  /-- The user requests a stop of a source that it holds. -/
  | requestStop (number : ℕ)
  | destroy (client : ℕ)

/-- One action of the process. -/
def Process.step (C : ℕ → Client M) (p : Process M) : ProcessAction → Option (Process M)
  | .construct context number => some (p.construct context (.user number))
  | .act i action => p.act C i action
  | .requestStop number => some (p.requestStop (.user number))
  | .destroy i => p.destroy i

/-- What the client sees of the history, given its stop source: its own actions, and the requests to
stop as its `cancel`. -/
def seenBy (i : ℕ) (source : Source) (log : List ProcessEvent) : List Action :=
  log.filterMap fun
    | .acted other action => if other = i then some action else none
    | .requested other => if other = source then some .cancel else none
    | _ => none

/-- The contexts that clients were constructed on. -/
def contextsOf (log : List ProcessEvent) : List ℕ :=
  log.filterMap fun
    | .constructed _ context _ => some context
    | _ => none

/-- Every context has the source that its client was constructed with, and the clients have made
the runs that they saw. -/
structure Process.Wired (C : ℕ → Client M) (p : Process M) : Prop where
  served : ∀ context source,
    p.services context = some source ↔ ∃ i, .constructed i context source ∈ p.log
  contexts : (contextsOf p.log).Nodup
  clients : ∀ i client, p.clients i = some client → ∃ source,
    .constructed i client.context source ∈ p.log ∧
      run (Watched.step (C i)) Watched.init (seenBy i source p.log) =
        some (client.seeing (p.requested source))
  unborn : ∀ i source, p.constructed ≤ i → p.clients i = none ∧
    run (Watched.step (C i)) Watched.init (seenBy i source p.log) =
      some { Watched.init with stopRequested := p.requested source }
  unwarned : p.warnings = 0

variable {p p' : Process M} {i : ℕ} {client : ClientOn M} {source : Source}

@[simp] theorem seenBy_append (first second : List ProcessEvent) :
    seenBy i source (first ++ second) = seenBy i source first ++ seenBy i source second :=
  List.filterMap_append

/-- A context is among the contexts when a client was constructed on it. -/
theorem mem_contextsOf_iff {log : List ProcessEvent} {context : ℕ} :
    context ∈ contextsOf log ↔ ∃ i source, .constructed i context source ∈ log := by
  rw [contextsOf, List.mem_filterMap]
  constructor
  · intro h
    obtain ⟨event, hmem, hsame⟩ := h
    cases event with
    | constructed i other source =>
      obtain rfl := Option.some.inj hsame
      exact ⟨i, source, hmem⟩
    | _ => simp at hsame
  · intro h
    obtain ⟨i, source, hmem⟩ := h
    exact ⟨_, hmem, rfl⟩

/-- Only `cancel` requests a stop. -/
theorem stopRequested_of_step {C : Client M} {s s' : State M} {action : Action}
    (hcancel : action ≠ .cancel) (hstep : s.step C action = some s') :
    s'.stopRequested = s.stopRequested := by
  cases stepOf_of_step hstep with
  | connected htask hconnected =>
    simp only [State.connected, htask, Option.some.injEq] at hconnected
    rw [← hconnected]
    rfl
  | cancel => exact absurd rfl hcancel
  | _ => rfl

/-- With the watch dogs, too. -/
theorem Watched.stopRequested_of_step {C : Client M} {w w' : Watched M} {actions : List Action}
    {action : Action} (hrun : run (Watched.step C) Watched.init actions = some w)
    (hcancel : action ≠ .cancel) (hstep : w.step C action = some w') :
    w'.stopRequested = w.stopRequested := by
  have hbefore := abstracts_run C actions
  have hafter := abstracts_run C (actions ++ [action])
  rw [hrun] at hbefore
  rw [run_concat hrun hstep] at hafter
  obtain ⟨s, hs, ⟨socket, rfl, -⟩, -⟩ := exists_of_rel_left hbefore
  obtain ⟨s', hs', ⟨socket', rfl, -⟩, -⟩ := exists_of_rel_left hafter
  obtain ⟨middle, hmiddle, hlast⟩ := exists_of_run_append hs'
  obtain ⟨last, hnext, heq⟩ := exists_of_run_cons hlast
  obtain rfl := Option.some.inj (hs.symm.trans hmiddle)
  obtain rfl := Option.some.inj heq
  have hkept := EspHomeApi.stopRequested_of_step hcancel hnext
  exact hkept

/-- A request stops. -/
@[simp] theorem Watched.cancel_stopRequested (w : Watched M) : w.cancel.stopRequested = true := by
  cases hstop : w.stopRequested with
  | false => rw [Watched.cancel, StopState.request_of_running hstop]
  | true =>
    rw [Watched.cancel, StopState.request_of_stopped hstop]
    exact hstop

/-- A request leaves a connection without watch dogs as it is. -/
theorem cancel_init (requested : Bool) :
    ({ Watched.init with stopRequested := requested } : Watched M).cancel =
      { Watched.init with stopRequested := true } := by
  cases requested with
  | false =>
    rw [Watched.cancel, StopState.request_of_running rfl]
    exact congrArg (fun socket => { (Watched.init : Watched M) with
      stopRequested := true, socket := socket }) (aborted_zero _)
  | true =>
    rw [Watched.cancel, StopState.request_of_stopped rfl]
    exact congrArg (fun socket => { (Watched.init : Watched M) with
      stopRequested := true, socket := socket }) (aborted_zero _)

/-- The process without clients is wired. -/
theorem Process.wired_init (C : ℕ → Client M) : (Process.init : Process M).Wired C where
  served context source := by simp [Process.init]
  contexts := List.nodup_nil
  clients i client hclient := by simp [Process.init] at hclient
  unborn i source _ := ⟨rfl, rfl⟩
  unwarned := rfl

/-- A step that constructs no client keeps the process wired if every client goes on by what it sees
of the event. -/
theorem Process.Wired.of_event (h : p.Wired C) (event : ProcessEvent)
    (hconstructs : ∀ i context source, event ≠ .constructed i context source)
    (hlog : p'.log = p.log ++ [event]) (hservices : p'.services = p.services)
    (hcount : p'.constructed = p.constructed) (hwarnings : p'.warnings = p.warnings)
    (hclients : ∀ i client', p'.clients i = some client' → ∃ client, p.clients i = some client ∧
      client'.context = client.context ∧ ∀ source, p.services client.context = some source →
        run (Watched.step (C i)) Watched.init (seenBy i source p.log) =
          some (client.seeing (p.requested source)) →
        run (Watched.step (C i)) (client.seeing (p.requested source)) (seenBy i source [event]) =
          some (client'.seeing (p'.requested source)))
    (hunborn : ∀ i source, p.clients i = none →
      run (Watched.step (C i)) { Watched.init with stopRequested := p.requested source }
        (seenBy i source [event]) =
          some { Watched.init with stopRequested := p'.requested source }) :
    p'.Wired C := by
  have hmem (i context : ℕ) (source : Source) :
      .constructed i context source ∈ p'.log ↔ .constructed i context source ∈ p.log := by
    rw [hlog, List.mem_append, List.mem_singleton]
    exact or_iff_left (hconstructs i context source).symm
  constructor
  · intro context source
    simp only [hmem, hservices]
    exact h.served context source
  · have hcontexts : contextsOf [event] = [] := by
      cases event with
      | constructed i context source => exact absurd rfl (hconstructs i context source)
      | _ => rfl
    rw [hlog, contextsOf, List.filterMap_append, ← contextsOf, ← contextsOf, hcontexts,
      List.append_nil]
    exact h.contexts
  · intro i client' hclient'
    obtain ⟨client, hclient, hcontext, hgoes⟩ := hclients i client' hclient'
    obtain ⟨source, hconstructed, hrun⟩ := h.clients i client hclient
    refine ⟨source, (hmem _ _ _).mpr (hcontext ▸ hconstructed), ?_⟩
    rw [hlog, seenBy_append, run_append, hrun, Option.bind_some]
    exact hgoes source ((h.served _ _).mpr ⟨i, hconstructed⟩) hrun
  · intro i source hi
    obtain ⟨hnone, hrun⟩ := h.unborn i source (hcount ▸ hi)
    rw [hlog, seenBy_append, run_append, hrun, Option.bind_some]
    refine ⟨?_, hunborn i source hnone⟩
    cases hclient' : p'.clients i with
    | none => rfl
    | some client' =>
      obtain ⟨client, hclient, -⟩ := hclients i client' hclient'
      rw [hnone] at hclient
      simp at hclient
  · rw [hwarnings]
    exact h.unwarned

/-- A new client is wired to its source, or is refused. -/
theorem Process.Wired.construct (h : p.Wired C) (context : ℕ) (source : Source) :
    (p.construct context source).Wired C := by
  cases hservice : p.services context with
  | some other =>
    simp only [Process.construct, Process.addStopService, hservice]
    refine h.of_event (.refused context) (by simp) rfl rfl rfl rfl ?_ (fun _ _ _ => rfl)
    intro i client hclient
    exact ⟨client, hclient, rfl, fun _ _ _ => rfl⟩
  | none =>
    have hfree : context ∉ contextsOf p.log := by
      rw [mem_contextsOf_iff]
      intro hmem
      obtain ⟨i, other, hmem⟩ := hmem
      rw [(h.served context other).mpr ⟨i, hmem⟩] at hservice
      simp at hservice
    simp only [Process.construct, Process.addStopService, hservice]
    constructor
    · intro other source'
      by_cases hother : other = context
      · subst hother
        have hnone (i : ℕ) (source : Source) : .constructed i other source ∉ p.log := fun hmem =>
          hfree (mem_contextsOf_iff.mpr ⟨i, source, hmem⟩)
        simp only [Function.update_self, Option.some.injEq, List.mem_append, List.mem_singleton,
          hnone, false_or, ProcessEvent.constructed.injEq, exists_eq_left, true_and]
        exact eq_comm
      · simp only [Function.update_of_ne hother, h.served, List.mem_append, List.mem_singleton,
          ProcessEvent.constructed.injEq, hother, false_and, and_false, or_false]
    · have hcontexts : contextsOf (p.log ++ [.constructed p.constructed context source]) =
          contextsOf p.log ++ [context] := by
        rw [contextsOf, List.filterMap_append]
        rfl
      rw [hcontexts]
      exact h.contexts.append (List.nodup_singleton context) (List.disjoint_singleton.mpr hfree)
    · intro i client hclient
      change Function.update p.clients p.constructed (some ⟨context, Watched.init⟩) i =
        some client at hclient
      by_cases hi : i = p.constructed
      · subst hi
        rw [Function.update_self] at hclient
        obtain rfl := Option.some.inj hclient
        refine ⟨source, List.mem_append_right _ (List.mem_singleton_self _), ?_⟩
        rw [seenBy_append]
        exact (List.append_nil _).symm ▸ (h.unborn _ source le_rfl).2
      · rw [Function.update_of_ne hi] at hclient
        obtain ⟨other, hmem, hrun⟩ := h.clients i client hclient
        refine ⟨other, List.mem_append_left _ hmem, ?_⟩
        rw [seenBy_append]
        exact (List.append_nil _).symm ▸ hrun
    · intro i other hi
      change p.constructed + 1 ≤ i at hi
      obtain ⟨hnone, hrun⟩ := h.unborn i other (by omega)
      refine ⟨(Function.update_of_ne (by omega) _ _).trans hnone, ?_⟩
      rw [seenBy_append]
      exact (List.append_nil _).symm ▸ hrun
    · exact h.unwarned

/-- A request to stop comes to the clients on the source, and to no other. -/
theorem Process.Wired.requestStop (h : p.Wired C) (source : Source) :
    (p.requestStop source).Wired C := by
  have hself (i : ℕ) : seenBy i source [.requested source] = [.cancel] := by simp [seenBy]
  have hother (i : ℕ) {other : Source} (hne : other ≠ source) :
      seenBy i other [.requested source] = [] := by simp [seenBy, hne.symm]
  have hrequested : (p.requestStop source).requested =
      Function.update p.requested source true := rfl
  refine h.of_event (.requested source) (by simp) rfl rfl rfl rfl ?_ ?_
  · intro i client' hclient'
    obtain ⟨client, hclient, hsame⟩ := Option.map_eq_some_iff.mp hclient'
    refine ⟨client, hclient, ?_, fun other hservice _ => ?_⟩
    · rw [← hsame]
      split <;> rfl
    · by_cases hsource : other = source
      · subst hsource
        rw [if_pos hservice] at hsame
        rw [← hsame, hself, hrequested, Function.update_self, ClientOn.seeing,
          ← Watched.cancel_stopRequested (client.seeing (p.requested other))]
        rfl
      · rw [if_neg (by rw [hservice]; simpa using hsource)] at hsame
        rw [← hsame, hother i hsource, hrequested, Function.update_of_ne hsource]
        rfl
  · intro i other _
    rw [hrequested]
    by_cases hsource : other = source
    · subst hsource
      rw [hself, Function.update_self, ← cancel_init (p.requested other)]
      rfl
    · rw [hother i hsource, Function.update_of_ne hsource]
      rfl

/-- An action of a client other than `cancel` concerns this client only. -/
theorem Process.Wired.acted (h : p.Wired C) (hclient : p.clients i = some client)
    (hservice : p.services client.context = some source) {action : Action}
    (hcancel : action ≠ .cancel) {connection : Watched M}
    (hstep : (client.seeing (p.requested source)).step (C i) action = some connection) :
    Process.Wired C { p with
      clients := Function.update p.clients i (some ⟨client.context, connection⟩)
      log := p.log ++ [.acted i action] } := by
  have hself (other : Source) : seenBy i other [.acted i action] = [action] := by simp [seenBy]
  have hothers {j : ℕ} (hne : j ≠ i) (other : Source) : seenBy j other [.acted i action] = [] := by
    simp [seenBy, hne.symm]
  refine h.of_event (.acted i action) (by simp) rfl rfl rfl rfl ?_ ?_
  · intro j client' hclient'
    change Function.update p.clients i (some ⟨client.context, connection⟩) j =
      some client' at hclient'
    by_cases hj : j = i
    · subst hj
      rw [Function.update_self] at hclient'
      obtain rfl := Option.some.inj hclient'
      refine ⟨client, hclient, rfl, fun other hother hrun => ?_⟩
      obtain rfl := Option.some.inj (hservice.symm.trans hother)
      have hkept := Watched.stopRequested_of_step hrun hcancel hstep
      change connection.stopRequested = p.requested source at hkept
      rw [hself, run, hstep, ClientOn.seeing, ← hkept]
      rfl
    · rw [Function.update_of_ne hj] at hclient'
      refine ⟨client', hclient', rfl, fun other _ _ => ?_⟩
      rw [hothers hj]
      rfl
  · intro j other hnone
    have hne : j ≠ i := by
      intro hsame
      subst hsame
      rw [hnone] at hclient
      simp at hclient
    rw [hothers hne]
    rfl

/-- What an action of a client does: `cancel` requests a stop of the source that the client was
constructed with, and every other action concerns this client only. -/
theorem Process.Wired.acts (h : p.Wired C) {action : Action}
    (hstep : p.act C i action = some p') :
    ∃ client, p.clients i = some client ∧ ∃ source, p.services client.context = some source ∧
      (action = .cancel ∧ p' = p.requestStop source ∨
        action ≠ .cancel ∧ ∃ connection,
          (client.seeing (p.requested source)).step (C i) action = some connection ∧
            p' = { p with
              clients := Function.update p.clients i (some ⟨client.context, connection⟩)
              log := p.log ++ [.acted i action] }) := by
  obtain ⟨client, hclient, hact⟩ := Option.bind_eq_some_iff.mp hstep
  obtain ⟨source, hconstructed, -⟩ := h.clients i client hclient
  have hservice := (h.served client.context source).mpr ⟨i, hconstructed⟩
  refine ⟨client, hclient, source, hservice, ?_⟩
  have hfound : p.getStop client.context = (source, p) := by rw [Process.getStop, hservice]
  rw [hfound] at hact
  by_cases hcancel : action = .cancel
  · subst hcancel
    exact .inl ⟨rfl, (Option.some.inj hact).symm⟩
  · have hmap : ((client.seeing (p.requested source)).step (C i) action).map (fun connection =>
        { p with
          clients := Function.update p.clients i (some ⟨client.context, connection⟩)
          log := p.log ++ [.acted i action] }) = some p' := by
      cases action with
      | cancel => exact absurd rfl hcancel
      | _ => exact hact
    obtain ⟨connection, hconnection, hp'⟩ := Option.map_eq_some_iff.mp hmap
    exact .inr ⟨hcancel, connection, hconnection, hp'.symm⟩

/-- Every action of a process keeps it wired. -/
theorem Process.Wired.step (h : p.Wired C) {action : ProcessAction}
    (hstep : p.step C action = some p') : p'.Wired C := by
  cases action with
  | construct context number => exact Option.some.inj hstep ▸ h.construct context (.user number)
  | requestStop number => exact Option.some.inj hstep ▸ h.requestStop (.user number)
  | act i action =>
    obtain ⟨client, hclient, source, hservice, hact⟩ := h.acts hstep
    rcases hact with ⟨-, rfl⟩ | ⟨hcancel, connection, hconnection, rfl⟩
    · exact h.requestStop source
    · exact h.acted hclient hservice hcancel hconnection
  | destroy i =>
    obtain ⟨client, hclient, hdestroy⟩ := Option.bind_eq_some_iff.mp hstep
    split at hdestroy
    · rw [← Option.some.inj hdestroy]
      refine h.of_event (.destroyed i) (by simp) rfl rfl rfl rfl ?_ (fun _ _ _ => rfl)
      intro j other hother
      change Function.update p.clients i none j = some other at hother
      by_cases hj : j = i
      · rw [hj, Function.update_self] at hother
        simp at hother
      · rw [Function.update_of_ne hj] at hother
        exact ⟨other, hother, rfl, fun _ _ _ => rfl⟩
    · simp at hdestroy

/-- Every process is wired. -/
theorem Process.wired_of_reachable (h : Reachable (Process.step C) Process.init p) : p.Wired C :=
  h.invariant (Process.wired_init C) fun _ _ _ _ hwired hstep => hwired.step hstep

/-- A process has gone on to another: services and contexts stay, and clients do not come back. -/
structure Process.Continues (p p' : Process M) : Prop where
  log : ∃ more, p'.log = p.log ++ more
  services : ∀ context source, p.services context = some source → p'.services context = some source
  constructed : p.constructed ≤ p'.constructed
  clients : ∀ i client', p'.clients i = some client' →
    p.constructed ≤ i ∨ ∃ client, p.clients i = some client ∧ client'.context = client.context

theorem Process.Continues.refl (p : Process M) : p.Continues p :=
  ⟨⟨[], (List.append_nil _).symm⟩, fun _ _ h => h, le_rfl, fun _ client h => .inr ⟨client, h, rfl⟩⟩

theorem Process.Continues.trans {p'' : Process M} (h : p.Continues p') (h' : p'.Continues p'') :
    p.Continues p'' := by
  obtain ⟨more, hlog⟩ := h.log
  obtain ⟨more', hlog'⟩ := h'.log
  refine ⟨⟨more ++ more', by rw [hlog', hlog, List.append_assoc]⟩, ?_,
    h.constructed.trans h'.constructed, ?_⟩
  · intro context source hservice
    exact h'.services context source (h.services context source hservice)
  · intro i client'' hclient''
    rcases h'.clients i client'' hclient'' with hnew | ⟨client', hclient', hcontext'⟩
    · exact .inl (h.constructed.trans hnew)
    · rcases h.clients i client' hclient' with hnew | ⟨client, hclient, hcontext⟩
      · exact .inl hnew
      · exact .inr ⟨client, hclient, hcontext'.trans hcontext⟩

/-- The clients of a process go on in their contexts when a stop is requested. -/
theorem Process.continues_requestStop (p : Process M) (source : Source) :
    p.Continues (p.requestStop source) := by
  refine ⟨⟨_, rfl⟩, fun _ _ h => h, le_rfl, fun i client' hclient' => .inr ?_⟩
  obtain ⟨client, hclient, hsame⟩ := Option.map_eq_some_iff.mp hclient'
  refine ⟨client, hclient, ?_⟩
  rw [← hsame]
  split <;> rfl

/-- A process goes on from step to step. -/
theorem Process.Wired.continues (h : p.Wired C) {action : ProcessAction}
    (hstep : p.step C action = some p') : p.Continues p' := by
  cases action with
  | construct context number =>
    obtain rfl := Option.some.inj hstep
    cases hservice : p.services context with
    | some other =>
      simp only [Process.construct, Process.addStopService, hservice]
      exact ⟨⟨_, rfl⟩, fun _ _ h => h, le_rfl, fun _ client h => .inr ⟨client, h, rfl⟩⟩
    | none =>
      simp only [Process.construct, Process.addStopService, hservice]
      refine ⟨⟨_, rfl⟩, fun other source hother => ?_, Nat.le_succ _, fun i client' hclient' => ?_⟩
      · have hne : other ≠ context := by
          intro hsame
          subst hsame
          rw [hservice] at hother
          simp at hother
        exact (Function.update_of_ne hne _ _).trans hother
      · change Function.update p.clients p.constructed (some ⟨context, Watched.init⟩) i =
          some client' at hclient'
        by_cases hi : i = p.constructed
        · exact .inl hi.ge
        · rw [Function.update_of_ne hi] at hclient'
          exact .inr ⟨client', hclient', rfl⟩
  | requestStop number => exact Option.some.inj hstep ▸ p.continues_requestStop (.user number)
  | act i action =>
    obtain ⟨client, hclient, source, hservice, hact⟩ := h.acts hstep
    rcases hact with ⟨rfl, rfl⟩ | ⟨-, connection, -, rfl⟩
    · exact p.continues_requestStop source
    · refine ⟨⟨_, rfl⟩, fun _ _ h => h, le_rfl, fun j client' hclient' => .inr ?_⟩
      change Function.update p.clients i (some ⟨client.context, connection⟩) j =
        some client' at hclient'
      by_cases hj : j = i
      · subst hj
        rw [Function.update_self] at hclient'
        exact ⟨client, hclient, Option.some.inj hclient' ▸ rfl⟩
      · rw [Function.update_of_ne hj] at hclient'
        exact ⟨client', hclient', rfl⟩
  | destroy i =>
    obtain ⟨client, -, hdestroy⟩ := Option.bind_eq_some_iff.mp hstep
    split at hdestroy
    · rw [← Option.some.inj hdestroy]
      refine ⟨⟨_, rfl⟩, fun _ _ h => h, le_rfl, fun j client' hclient' => .inr ⟨client', ?_, rfl⟩⟩
      change Function.update p.clients i none j = some client' at hclient'
      by_cases hj : j = i
      · rw [hj, Function.update_self] at hclient'
        simp at hclient'
      · rwa [Function.update_of_ne hj] at hclient'
    · simp at hdestroy

/-- A process goes on in its runs. -/
theorem Process.continues_of_run (h : Reachable (Process.step C) Process.init p)
    {actions : List ProcessAction} (hrun : run (Process.step C) p actions = some p') :
    p.Continues p' ∧ p'.Wired C := by
  refine run_invariant (P := fun p' => p.Continues p' ∧ p'.Wired C) ?_
    ⟨.refl p, Process.wired_of_reachable h⟩ hrun
  intro middle action next hmiddle hstep
  obtain ⟨hcontinues, hwired⟩ := hmiddle
  exact ⟨hcontinues.trans (hwired.continues hstep), hwired.step hstep⟩

/-- What a client has of history, if there is one. -/
def Process.logOf (p : Process M) (i : ℕ) : List (ℕ × Event M) :=
  ((p.clients i).map fun client => client.connection.log).getD []

/-- Two clients on two contexts are given the same stop source. One is connected when the other is
closed, and a third client is refused on the first context. -/
def closeOther : List ProcessAction :=
  [.construct 0 7, .construct 1 7, .act 0 .connect, .act 0 (.resolved 0 (.ok ())),
    .act 0 (.connected 0 (.ok ())), .construct 0 8, .act 1 .cancel]

/-- The process after that. -/
def otherClosed : Process WireMessage :=
  (run (Process.step fun _ => wireClient) Process.init closeOther).getD Process.init

theorem reachable_otherClosed :
    Reachable (Process.step fun _ => wireClient) Process.init otherClosed := ⟨closeOther, rfl⟩

theorem otherClosed_log : otherClosed.log =
    [.constructed 0 0 (.user 7), .constructed 1 1 (.user 7), .acted 0 .connect,
      .acted 0 (.resolved 0 (.ok ())), .acted 0 (.connected 0 (.ok ())), .refused 0,
      .requested (.user 7)] := rfl

/-- In every run of a process, and whatever the order in which its clients act, a context takes a
client only once, even if that is destroyed, and the stop source found in the context is the one
that the client was constructed with. No context is found without a stop service. -/
theorem one_client_per_context (h : Reachable (Process.step C) Process.init p) :
    (contextsOf p.log).Nodup ∧ p.warnings = 0 ∧
      ∀ i context source, .constructed i context source ∈ p.log →
        p.getStop context = (source, p) := by
  have hwired := Process.wired_of_reachable h
  refine ⟨hwired.contexts, hwired.unwarned, fun i context source hmem => ?_⟩
  rw [Process.getStop, (hwired.served context source).mpr ⟨i, hmem⟩]

/-- The sources of both contexts are found. -/
theorem one_client_per_context_otherClosed : otherClosed.getStop 0 = (.user 7, otherClosed) ∧
    otherClosed.getStop 1 = (.user 7, otherClosed) := by
  obtain ⟨-, -, hfound⟩ := one_client_per_context reachable_otherClosed
  exact ⟨hfound 0 0 (.user 7) (by simp [otherClosed_log]),
    hfound 1 1 (.user 7) (by simp [otherClosed_log])⟩

/-- Every client of a process is exactly where it would be if it had been alone, with the requests to
stop its source as calls of its own `cancel`: none of the steps of other clients makes a difference.
Up to the socket, which the watch dogs close one after the other, it is where the connection without
them would be. -/
theorem client_runs_alone (h : Reachable (Process.step C) Process.init p)
    (hclient : p.clients i = some client) :
    ∃ source s, .constructed i client.context source ∈ p.log ∧
      run (Watched.step (C i)) Watched.init (seenBy i source p.log) =
        some (client.seeing (p.requested source)) ∧
      run (State.step (C i)) State.init (seenBy i source p.log) = some s ∧
        { (client.seeing (p.requested source)).toState with socket := .closed } =
          { s with socket := .closed } := by
  obtain ⟨source, hconstructed, hrun⟩ := (Process.wired_of_reachable h).clients i client hclient
  have habstracts := abstracts_run (C i) (seenBy i source p.log)
  rw [hrun] at habstracts
  obtain ⟨s, hs, ⟨socket, rfl, -⟩, -⟩ := exists_of_rel_left habstracts
  exact ⟨source, _, hconstructed, hrun, hs, rfl⟩

/-- The client whose sibling was closed has seen this as its own `cancel`. -/
theorem client_runs_alone_otherClosed : ∃ client s, otherClosed.clients 0 = some client ∧
    run (Watched.step wireClient) Watched.init
      [.connect, .resolved 0 (.ok ()), .connected 0 (.ok ()), .cancel] =
        some (client.seeing true) ∧
    run (State.step wireClient) State.init
      [.connect, .resolved 0 (.ok ()), .connected 0 (.ok ()), .cancel] = some s ∧
        client.connection.log = s.log := by
  have hfirst : ∃ client, otherClosed.clients 0 = some client ∧ client.context = 0 := ⟨_, rfl, rfl⟩
  obtain ⟨client, hclient, hcontext⟩ := hfirst
  obtain ⟨source, s, hconstructed, hwatched, hrun, hsame⟩ :=
    client_runs_alone reachable_otherClosed hclient
  obtain rfl : source = .user 7 := by simpa [hcontext, otherClosed_log] using hconstructed
  have hlog := congrArg State.log hsame
  exact ⟨client, s, hclient, hwatched, hrun, hlog⟩

/-- Once a stop was requested of a source, by `close` of any client on it or by its user, all the
clients on it are silent, those of then and those constructed later: their sockets take no byte, and
none of the operations begun since succeeds if it needs its request to be sent. -/
theorem stop_silences_all (h : Reachable (Process.step C) Process.init p)
    (hrequested : p.requested source = true) {actions : List ProcessAction}
    (hrun : run (Process.step C) p actions = some p') (hclient : p'.clients i = some client)
    (hservice : p'.services client.context = some source) :
    ∃ later, client.connection.log = p.logOf i ++ later ∧ (∀ entry ∈ later, entry.2.Silenced) ∧
      ∀ task, NoneSucceeds (eventsOf task later) := by
  obtain ⟨hcontinues, hwired'⟩ := Process.continues_of_run h hrun
  have hwired := Process.wired_of_reachable h
  obtain ⟨more, hlog⟩ := hcontinues.log
  obtain ⟨other, hconstructed, hfinal⟩ := hwired'.clients i client hclient
  obtain rfl := Option.some.inj
    (hservice.symm.trans ((hwired'.served client.context other).mpr ⟨i, hconstructed⟩))
  rw [hlog, seenBy_append] at hfinal
  obtain ⟨middle, hmiddle, hrest⟩ := exists_of_run_append hfinal
  have hbefore : middle.stopRequested = true ∧ middle.log = p.logOf i := by
    rcases hcontinues.clients i client hclient with hnew | ⟨earlier, hearlier, hcontext⟩
    · obtain ⟨hnone, hunborn⟩ := hwired.unborn i source hnew
      obtain rfl := Option.some.inj (hunborn.symm.trans hmiddle)
      exact ⟨hrequested, by rw [Process.logOf, hnone]; rfl⟩
    · obtain ⟨first, hfirst, hran⟩ := hwired.clients i earlier hearlier
      have hkept := hcontinues.services _ _ ((hwired.served _ first).mpr ⟨i, hfirst⟩)
      rw [← hcontext, hservice] at hkept
      obtain rfl := Option.some.inj hkept
      obtain rfl := Option.some.inj (hran.symm.trans hmiddle)
      exact ⟨hrequested, by rw [Process.logOf, hearlier]; rfl⟩
  obtain ⟨hstopped, hmiddlelog⟩ := hbefore
  obtain ⟨later, hlater, hsilent⟩ := stopped_silent _ _ hmiddle hstopped hrest
  exact ⟨later, hmiddlelog ▸ hlater, hsilent⟩

/-- A user asks the client whose sibling was closed for the information of its device, and gets an
error. -/
def askInVain : List ProcessAction :=
  [.act 0 (.call .requestDeviceInfo), .act 0 (.sent 3 .operationAborted 0),
    .act 0 (.expired 3 .operationAborted), .act 0 (.resume 3)]

/-- The request went nowhere. -/
theorem stop_silences_all_otherClosed : ∃ p' client later,
    run (Process.step fun _ => wireClient) otherClosed askInVain = some p' ∧
      p'.clients 0 = some client ∧ client.connection.log = otherClosed.logOf 0 ++ later ∧
        NoneSucceeds (eventsOf 3 later) := by
  have hrequested : otherClosed.requested (.user 7) = true := rfl
  have hrun : run (Process.step fun _ => wireClient) otherClosed askInVain = some _ := rfl
  obtain ⟨later, hlog, -, hnone⟩ := stop_silences_all (i := 0) reachable_otherClosed hrequested
    hrun rfl rfl
  exact ⟨_, _, later, hrun, rfl, hlog, hnone 3⟩

end EspHomeApi
