import EspHomeApi.CoroutineView
import EspHomeApi.Delivery
import EspHomeApi.Segmentation
import EspHomeApi.Session

/-!
# The receiving loop as a coroutine

However the coroutines of a connection are interleaved, a receiving loop dispatches what the
sequential loop makes of its chunks. With one TCP connection there is one such loop, and what its
chunks are made of is all that can come to a call.
-/

namespace EspHomeApi

open Run OneShot

variable {M : Type} {C : Client M} {s s' : State M} {task : ℕ}

/-- The messages dispatched among the events of a coroutine. -/
def dispatchesOf (events : List (Event M)) : List M :=
  events.filterMap fun
    | .dispatched message => some message
    | _ => none

/-- The messages that a coroutine dispatched. -/
def dispatchedBy (task : ℕ) (log : List (ℕ × Event M)) : List M := dispatchesOf (eventsOf task log)

/-- What `receiveFrom` returned to a coroutine. -/
def receivedOn (task : ℕ) (actions : List Action) : List (Except ErrorCode Bytes) :=
  actions.filterMap fun
    | .received other outcome => if other = task then some outcome else none
    | _ => none

/-- The chunks that were received. -/
def chunksOf (outcomes : List (Except ErrorCode Bytes)) : List Bytes :=
  outcomes.filterMap Except.toOption

/-- The messages of the current chunk that are still to be dispatched. -/
def Task.undispatched : Task M → List M
  | .dispatching messages => messages
  | _ => []

/-- The coroutine is a receiving loop that has not ended. -/
def Task.Receiving : Task M → Prop
  | .listening => True
  | .dispatching _ => True
  | _ => False

/-- What the loop has dispatched and is about to dispatch is what the sequential loop makes of the
outcomes. It goes on only as long as none of them was an error. -/
structure LoopOk (P : Protobuf M) (outcomes : List (Except ErrorCode Bytes)) (t : Task M)
    (events : List (Event M)) : Prop where
  account : dispatchesOf events ++ t.undispatched = receiveLoop P outcomes
  chunks : receiveLoop P outcomes = dispatchedFrom P (chunksOf outcomes)
  ok : t = .idle ∨ t.Receiving → ∃ chunks : List Bytes, outcomes = chunks.map .ok

@[simp] theorem dispatchesOf_append (left right : List (Event M)) :
    dispatchesOf (left ++ right) = dispatchesOf left ++ dispatchesOf right := List.filterMap_append

@[simp] theorem receivedOn_append (first second : List Action) :
    receivedOn task (first ++ second) = receivedOn task first ++ receivedOn task second :=
  List.filterMap_append

/-- Quiet events dispatch nothing. -/
theorem dispatchesOf_of_quiet {events : List (Event M)} (h : ∀ event ∈ events, event.Quiet) :
    dispatchesOf events = [] := by
  rw [dispatchesOf, List.filterMap_eq_nil_iff]
  intro event hevent
  have hquiet := h event hevent
  cases event with
  | dispatched message => exact hquiet.elim
  | _ => rfl

/-- A coroutine at rest has nothing to dispatch. -/
theorem Task.Rests.undispatched_eq {t : Task M} (h : t.Rests) : t.undispatched = [] := by
  cases h <;> rfl

/-- A coroutine at rest is not receiving, and was started. -/
theorem Task.Rests.not_receiving {t : Task M} (h : t.Rests) : ¬ (t = .idle ∨ t.Receiving) := by
  cases h <;> simp [Task.Receiving]

/-- The sequential loop goes through two lists of chunks one after the other. -/
theorem receiveLoop_append (P : Protobuf M) (chunks : List Bytes)
    (later : List (Except ErrorCode Bytes)) :
    receiveLoop P (chunks.map .ok ++ later) =
      receiveLoop P (chunks.map .ok) ++ receiveLoop P later := by
  induction chunks with
  | nil => rfl
  | cons chunk chunks ih =>
    simp only [List.map_cons, List.cons_append, receiveLoop, ih, List.append_assoc]

/-- The chunks among outcomes that are all chunks. -/
theorem chunksOf_map_ok (chunks : List Bytes) : chunksOf (chunks.map .ok) = chunks := by
  rw [chunksOf, List.filterMap_map]
  exact List.filterMap_some

/-- What a coroutine dispatches and is about to dispatch stays the same as it goes on. -/
theorem LoopOk.goOn {P : Protobuf M} {outcomes : List (Except ErrorCode Bytes)} {t : Task M}
    {events : List (Event M)} (h : LoopOk P outcomes t events) {next : Next M}
    (hsame : dispatchesOf next.2 ++ next.1.undispatched = t.undispatched)
    (hok : next.1 = .idle ∨ next.1.Receiving → t = .idle ∨ t.Receiving) :
    LoopOk P outcomes next.1 (events ++ next.2) where
  account := by rw [dispatchesOf_append, List.append_assoc, hsame, h.account]
  chunks := h.chunks
  ok hreceiving := h.ok (hok hreceiving)

/-- A coroutine that has nothing to dispatch may come to rest. -/
theorem LoopOk.rest {P : Protobuf M} {outcomes : List (Except ErrorCode Bytes)} {t : Task M}
    {events : List (Event M)} (h : LoopOk P outcomes t events) (ht : t.undispatched = [])
    {next : Next M} (hrests : next.1.Rests) (hquiet : ∀ event ∈ next.2, event.Quiet) :
    LoopOk P outcomes next.1 (events ++ next.2) := by
  refine h.goOn ?_ fun hnext => absurd hnext hrests.not_receiving
  rw [dispatchesOf_of_quiet hquiet, hrests.undispatched_eq, ht]
  rfl

/-- The moves of a coroutine keep the account, unless it has just received something. -/
theorem LoopOk.moves {P : Protobuf M} {outcomes : List (Except ErrorCode Bytes)} {t : Task M}
    {events : List (Event M)} (h : LoopOk P outcomes t events) {stopRequested : Bool}
    {socket : Socket} {next : Next M} (hmove : Moves C stopRequested socket t next)
    (hlistening : t ≠ .listening) : LoopOk P outcomes next.1 (events ++ next.2) := by
  have hquiet := hmove.quiet
  cases hmove with
  | sendOver hresult => exact h.rest rfl (rests_afterSend C stopRequested _ _ _) hquiet
  | waitOver houtcome => exact h.rest rfl (rests_afterWait C stopRequested _ _ _ _) hquiet
  | woken => exact h.rest rfl (rests_begin C stopRequested _ _) hquiet
  | stopped hstop => exact h.rest rfl .ended hquiet
  | resolveFailed error => exact h.rest rfl .ended hquiet
  | receiveFailed | received => exact absurd rfl hlistening
  | dispatchedAll => exact h.goOn rfl fun _ => Or.inr trivial
  | connectFailed | sentNothing | sentBytes | sendExpired | waitExpired =>
    exact h.goOn rfl fun hnext => by simp [Task.Receiving] at hnext

/-- A coroutine that goes on keeps the account, unless it has just received something. -/
theorem LoopOk.goes {P : Protobuf M} {outcomes : List (Except ErrorCode Bytes)} {t : Task M}
    {events : List (Event M)} (h : LoopOk P outcomes t events) {completion : Option Completion}
    {next : Next M} (hgoes : Goes C t completion next) (hlistening : t ≠ .listening) :
    LoopOk P outcomes next.1 (events ++ next.2) := by
  cases hgoes with
  | moves hnotes hmove => exact h.moves hmove hlistening
  | call hcall =>
    exact h.rest rfl (rests_begin C _ _ _) fun event hevent =>
      (internal_begin C _ _ _ event hevent).quiet
  | heartbeatLoop stopRequested => exact h.rest rfl (rests_heartbeatHead stopRequested) (by simp)
  | connected stopRequested current connection receiveLoop heartbeatLoop =>
    refine h.rest rfl (rests_begin C _ _ _) fun event hevent => ?_
    rcases List.mem_cons.mp hevent with rfl | hbegin
    · exact trivial
    · exact (internal_begin C _ _ _ event hbegin).quiet
  | receiveLoop => exact h.goOn rfl fun _ => Or.inl rfl
  | dispatches message messages => exact h.goOn rfl fun _ => Or.inr trivial
  | connect | resolved | registers | called =>
    exact h.goOn rfl fun hnext => by simp [Task.Receiving] at hnext

/-- A loop that receives a chunk is about to dispatch its messages. -/
theorem LoopOk.received {P : Protobuf M} {outcomes : List (Except ErrorCode Bytes)}
    {events : List (Event M)} (h : LoopOk P outcomes .listening events) (chunk : Bytes) :
    LoopOk P (outcomes ++ [.ok chunk])
      (.dispatching (decodeMultiple P receiveLoopTypes chunk).1) events := by
  have haccount := h.account
  obtain ⟨chunks, rfl⟩ := h.ok (Or.inr trivial)
  have hlast : receiveLoop P (chunks.map .ok ++ [.ok chunk]) =
      receiveLoop P (chunks.map .ok) ++ (decodeMultiple P receiveLoopTypes chunk).1 := by
    rw [receiveLoop_append, receiveLoop, receiveLoop, List.append_nil]
  have hall : (chunks.map .ok ++ [.ok chunk] : List (Except ErrorCode Bytes)) =
      (chunks ++ [chunk]).map .ok := by simp
  refine ⟨?_, ?_, fun _ => ⟨chunks ++ [chunk], hall⟩⟩
  · have hnone : (Task.listening : Task M).undispatched = [] := rfl
    rw [hnone, List.append_nil] at haccount
    rw [hlast, ← haccount]
    rfl
  · rw [hall, chunksOf_map_ok, dispatchedFrom]

/-- A loop that receives an error ends. -/
theorem LoopOk.failed {P : Protobuf M} {outcomes : List (Except ErrorCode Bytes)}
    {events : List (Event M)} (h : LoopOk P outcomes .listening events) (error : ErrorCode) :
    LoopOk P (outcomes ++ [.error error]) .ended events := by
  have haccount := h.account
  obtain ⟨chunks, rfl⟩ := h.ok (Or.inr trivial)
  have hlast : receiveLoop P (chunks.map .ok ++ [.error error]) = receiveLoop P (chunks.map .ok) := by
    rw [receiveLoop_append, receiveLoop, List.append_nil]
  refine ⟨?_, ?_, fun hnext => by simp [Task.Receiving] at hnext⟩
  · rw [hlast, ← haccount]
    rfl
  · have hchunks : chunksOf (chunks.map .ok ++ [.error error]) = chunks := by
      rw [chunksOf, List.filterMap_append, ← chunksOf, chunksOf_map_ok]
      exact List.append_nil _
    rw [hlast, hchunks, dispatchedFrom]

/-- Only what `receiveFrom` returns to it lets a listening loop go on. -/
theorem listening_of_step (hcoupled : s.Coupled) {action : Action}
    (hstep : s.step C action = some s') (htask : s.tasks task = .listening)
    (haction : ∀ outcome, action ≠ .received task outcome) : s'.tasks task = .listening := by
  have hlt : task < s.started := hcoupled.lt_started (by simp [htask])
  have hstays {base : State M} {other : ℕ} {next : Next M} (hother : other ≠ task)
      (hbase : base.tasks task = s.tasks task) :
      (base.move C other next).tasks task = .listening := by
    rw [move_tasks, Function.update_of_ne (Ne.symm hother), hbase, htask]
  have hne {other : ℕ} {t : Task M} (hother : s.tasks other = t) (ht : t ≠ .listening) :
      other ≠ task := by
    intro hsame
    subst hsame
    exact ht (hother.symm.trans htask)
  cases stepOf_of_step hstep with
  | @move _ other next hnames hsuits hnotes hmove =>
    refine hstays ?_ rfl
    intro hsame
    subst hsame
    rw [htask] at hsuits
    cases action with
    | received third outcome => exact haction outcome (Option.some.inj hnames ▸ rfl)
    | _ => exact hsuits
  | connect | call | consume => exact hstays (Nat.ne_of_gt hlt) rfl
  | resolved hother => exact hstays (hne hother (by simp)) rfl
  | connected hother hconnected =>
    have hdiffers := hne hother (by simp)
    simp only [State.connected, hother, Option.some.injEq] at hconnected
    subst hconnected
    refine hstays hdiffers ?_
    change Function.update (Function.update _ _ _) _ _ task = _
    rw [Function.update_of_ne (by omega), Function.update_of_ne (by omega)]
  | register hother | dispatch hother => exact hstays (hne hother (by simp)) rfl
  | execute hindex hregistry hother hrace => exact hstays (hne hother (by simp)) rfl
  | submit | cancel => exact htask

/-- What a listening loop does with what `receiveFrom` returns. -/
theorem received_eq_some {outcome : Except ErrorCode Bytes}
    (h : s.received C task outcome = some s') :
    s.tasks task = .listening ∧
      ((∃ chunk, outcome = .ok chunk ∧ s' = s.move C task
        (.dispatching (decodeMultiple C.toProtobuf receiveLoopTypes chunk).1, [])) ∨
      ∃ error, outcome = .error error ∧ s' = s.move C task (.ended, [])) := by
  unfold State.received at h
  split at h
  · rename_i error htask
    exact ⟨htask, Or.inr ⟨error, rfl, (Option.some.inj h).symm⟩⟩
  · rename_i chunk htask
    split at h
    · exact ⟨htask, Or.inl ⟨chunk, rfl, (Option.some.inj h).symm⟩⟩
    · simp at h
  · simp at h

/-- In a step that brings nothing to the coroutine, it keeps the account. -/
theorem LoopOk.step {P : Protobuf M} {outcomes : List (Except ErrorCode Bytes)}
    (h : LoopOk P outcomes (s.tasks task) (eventsOf task s.log)) (hcoupled : s.Coupled)
    {action : Action} (hstep : s.step C action = some s')
    (haction : ∀ outcome, action ≠ .received task outcome) :
    LoopOk P outcomes (s'.tasks task) (eventsOf task s'.log) := by
  rcases goesOn_or_leavesAlone hcoupled (stepOf_of_step hstep) task with
    ⟨next, hgoes, htask, hevents⟩ | ⟨-, htask, hevents⟩
  · rw [htask, hevents]
    refine h.goes hgoes fun hlistening => ?_
    have hstill := listening_of_step hcoupled hstep hlistening haction
    rw [hlistening] at hgoes
    cases hgoes with
    | moves hnotes hmove => cases hmove <;> simp [htask] at hstill
  · rwa [htask, hevents]

/-- The account of a loop is right after every run. -/
theorem loopOk_of_run {actions : List Action} (hrun : run (State.step C) State.init actions = some s)
    (task : ℕ) :
    LoopOk C.toProtobuf (receivedOn task actions) (s.tasks task) (eventsOf task s.log) := by
  refine run_induction (P := fun actions s => LoopOk C.toProtobuf (receivedOn task actions)
    (s.tasks task) (eventsOf task s.log)) ⟨rfl, rfl, fun _ => ⟨[], rfl⟩⟩ ?_ hrun
  intro actions s action s' hrun h hstep
  rw [receivedOn_append]
  by_cases hreceived : ∃ outcome, action = .received task outcome
  · obtain ⟨outcome, rfl⟩ := hreceived
    have hone : receivedOn task [.received task outcome] = [outcome] := by simp [receivedOn]
    obtain ⟨htask, ⟨chunk, rfl, rfl⟩ | ⟨error, rfl, rfl⟩⟩ := received_eq_some hstep
    · rw [htask] at h
      rw [hone, move_tasks, Function.update_self, move_log, List.map_nil, List.append_nil]
      exact h.received chunk
    · rw [htask] at h
      rw [hone, move_tasks, Function.update_self, move_log, List.map_nil, List.append_nil]
      exact h.failed error
  · have hother (outcome : Except ErrorCode Bytes) : action ≠ .received task outcome :=
      fun heq => hreceived ⟨outcome, heq⟩
    have hnone : receivedOn task [action] = [] := by
      rw [receivedOn, List.filterMap_eq_nil_iff]
      intro entry hentry
      rw [List.mem_singleton.mp hentry]
      cases action with
      | received other outcome =>
        apply if_neg
        intro hsame
        subst hsame
        exact hother outcome rfl
      | _ => rfl
    rw [hnone, List.append_nil]
    exact h.step (State.coupled_of_reachable ⟨actions, hrun⟩) hstep hother

/-- However the coroutines are interleaved, what a coroutine has dispatched and is about to dispatch
is what the sequential receiving loop makes of what `receiveFrom` returned to it. -/
theorem dispatched_eq_receiveLoop (actions : List Action)
    (hrun : run (State.step C) State.init actions = some s) (task : ℕ) :
    dispatchedBy task s.log ++ (s.tasks task).undispatched =
        receiveLoop C.toProtobuf (receivedOn task actions) ∧
      receiveLoop C.toProtobuf (receivedOn task actions) =
        dispatchedFrom C.toProtobuf (chunksOf (receivedOn task actions)) :=
  ⟨(loopOk_of_run hrun task).account, (loopOk_of_run hrun task).chunks⟩

/-- The receiving loops that were started. -/
def receiveLoops (log : List (ℕ × Event M)) : List ℕ :=
  log.filterMap fun
    | (_, .established _ receiveLoop _) => some receiveLoop
    | _ => none

/-- One receiving loop was started for each TCP connection, and only those receive and dispatch. -/
structure LoopsKnown (s : State M) : Prop where
  count : (receiveLoops s.log).length = s.connections
  receiving : ∀ task, (s.tasks task).Receiving → task ∈ receiveLoops s.log
  dispatched : ∀ entry ∈ s.log, ∀ message, entry.2 = .dispatched message →
    entry.1 ∈ receiveLoops s.log

@[simp] theorem receiveLoops_append (left right : List (ℕ × Event M)) :
    receiveLoops (left ++ right) = receiveLoops left ++ receiveLoops right := List.filterMap_append

/-- Events other than making a connection start no loop. -/
theorem receiveLoops_of_allowedOn (socket : Socket) {events : List (Event M)}
    (h : ∀ event ∈ events, event.AllowedOn socket) (task : ℕ) :
    receiveLoops (events.map fun event => (task, event)) = [] := by
  rw [receiveLoops, List.filterMap_map, List.filterMap_eq_nil_iff]
  intro event hevent
  have hallowed := h event hevent
  cases event with
  | established => exact hallowed.elim
  | _ => rfl

/-- A coroutine that goes on without a new connection keeps the loops known. -/
theorem LoopsKnown.move (h : LoopsKnown s) (other : ℕ) {next : Next M}
    (htasks : s'.tasks = Function.update s.tasks other next.1)
    (hlog : s'.log = s.log ++ next.2.map fun event => (other, event))
    (hconnections : s'.connections = s.connections)
    (hallowed : ∀ event ∈ next.2, event.AllowedOn s.socket)
    (hreceiving : next.1.Receiving → (s.tasks other).Receiving)
    (hdispatched : ∀ message, .dispatched message ∈ next.2 → (s.tasks other).Receiving) :
    LoopsKnown s' := by
  have hloops : receiveLoops s'.log = receiveLoops s.log := by
    rw [hlog, receiveLoops_append, receiveLoops_of_allowedOn s.socket hallowed, List.append_nil]
  refine ⟨by rw [hloops, hconnections, h.count], fun task htask => ?_, fun entry hentry message => ?_⟩
  · rw [hloops]
    apply h.receiving
    rw [htasks] at htask
    by_cases hsame : task = other
    · rw [hsame, Function.update_self] at htask
      rw [hsame]
      exact hreceiving htask
    · rwa [Function.update_of_ne hsame] at htask
  · rw [hloops]
    intro hmessage
    rw [hlog] at hentry
    rcases List.mem_append.mp hentry with hold | hnew
    · exact h.dispatched entry hold message hmessage
    · obtain ⟨event, hevent, rfl⟩ := List.mem_map.mp hnew
      exact h.receiving other (hdispatched message (hmessage ▸ hevent))

/-- Starting an operation, or going on with one, is no dispatch. -/
theorem not_dispatched_of_quiet {events : List (Event M)} (h : ∀ event ∈ events, event.Quiet)
    (message : M) : .dispatched message ∉ events :=
  fun hmem => h _ hmem

/-- A move leads into a receiving loop only from within it. -/
theorem Moves.receiving {stopRequested : Bool} {socket : Socket} {t : Task M} {next : Next M}
    (h : Moves C stopRequested socket t next) (hreceiving : next.1.Receiving) : t.Receiving := by
  cases h with
  | sendOver hresult =>
    exact absurd (Or.inr hreceiving) (rests_afterSend C stopRequested _ _ _).not_receiving
  | waitOver houtcome =>
    exact absurd (Or.inr hreceiving) (rests_afterWait C stopRequested _ _ _ _).not_receiving
  | woken => exact absurd (Or.inr hreceiving) (rests_begin C stopRequested _ _).not_receiving
  | receiveFailed | received | dispatchedAll => exact trivial
  | _ => exact hreceiving.elim

/-- Making a connection starts its loop. -/
theorem LoopsKnown.connected (h : LoopsKnown s) (htask : s.tasks task = .connecting)
    (hstep : s.connected C task (.ok ()) = some s') : LoopsKnown s' := by
  simp only [State.connected, htask, Option.some.injEq] at hstep
  subst hstep
  have hbegin (current : Option ℕ) :
      receiveLoops ((begin C s.stopRequested current helloCall).2.map fun event => (task, event)) =
        [] :=
    receiveLoops_of_allowedOn s.socket (fun event hevent =>
      (internal_begin C _ _ helloCall event hevent).allowedOn _) task
  have hloops (current : Option ℕ) :
      receiveLoops (s.log ++ (.established s.connections s.started (s.started + 1) ::
          (begin C s.stopRequested current helloCall).2).map fun event => (task, event)) =
        receiveLoops s.log ++ [s.started] := by
    rw [receiveLoops_append, List.map_cons, ← List.singleton_append, receiveLoops_append, hbegin]
    rfl
  refine ⟨?_, fun other hother => ?_, fun entry hentry message hmessage => ?_⟩
  · simp only [move_log, move_connections]
    rw [hloops, List.length_append, h.count]
    rfl
  · simp only [move_log, move_tasks] at hother ⊢
    rw [hloops]
    by_cases hsame : other = task
    · rw [hsame, Function.update_self] at hother
      exact absurd (Or.inr hother) (rests_begin C _ _ _).not_receiving
    · rw [Function.update_of_ne hsame] at hother
      by_cases hheartbeat : other = s.started + 1
      · rw [hheartbeat, Function.update_self] at hother
        exact absurd (Or.inr hother) (rests_heartbeatHead _).not_receiving
      · rw [Function.update_of_ne hheartbeat] at hother
        by_cases hreceiver : other = s.started
        · rw [hreceiver]
          exact List.mem_append_right _ (List.mem_singleton_self _)
        · rw [Function.update_of_ne hreceiver] at hother
          exact List.mem_append_left _ (h.receiving other hother)
  · simp only [move_log] at hentry ⊢
    rw [hloops]
    rcases List.mem_append.mp hentry with hold | hnew
    · exact List.mem_append_left _ (h.dispatched entry hold message hmessage)
    · obtain ⟨event, hevent, rfl⟩ := List.mem_map.mp hnew
      rcases List.mem_cons.mp hevent with rfl | hmem
      · simp at hmessage
      · have hquiet := (internal_begin C _ _ helloCall event hmem).quiet
        have hsame : event = .dispatched message := hmessage
        rw [hsame] at hquiet
        exact hquiet.elim

/-- Every step keeps the loops known. -/
theorem LoopsKnown.step (h : LoopsKnown s) (hstep : Transition C s s') : LoopsKnown s' := by
  cases hstep with
  | move hmove =>
    exact h.move _ rfl (move_log C _ _ _) rfl hmove.allowedOn hmove.receiving fun message hmem =>
      absurd hmem (not_dispatched_of_quiet hmove.quiet message)
  | connect =>
    exact h.move s.started rfl (move_log C _ _ _) rfl (by simp)
      (fun hreceiving => hreceiving.elim) (by simp)
  | call hcall =>
    refine h.move s.started rfl (move_log C _ _ _) rfl (fun event hevent =>
      (internal_begin C _ _ _ event hevent).allowedOn _) (fun hreceiving => ?_) fun message hmem => ?_
    · exact absurd (Or.inr hreceiving) (rests_begin C _ _ _).not_receiving
    · exact absurd hmem (not_dispatched_of_quiet (fun event hevent =>
        (internal_begin C _ _ _ event hevent).quiet) message)
  | resolved htask =>
    exact h.move _ rfl (move_log C _ _ _) rfl (by simp) (fun hreceiving => hreceiving.elim) (by simp)
  | connected htask hconnected => exact h.connected htask hconnected
  | register htask =>
    exact h.move _ rfl (move_log C _ _ _) rfl (by simp [Event.AllowedOn])
      (fun hreceiving => hreceiving.elim) (by simp)
  | dispatch htask hregistry =>
    exact h.move _ rfl (move_log C _ _ _) rfl (by simp [Event.AllowedOn]) (fun _ => htask ▸ trivial)
      fun _ _ => htask ▸ trivial
  | submit hregistry => exact ⟨h.count, h.receiving, h.dispatched⟩
  | execute hindex hregistry htask hrace =>
    exact h.move _ rfl (move_log C _ _ _) rfl (by simp [Event.AllowedOn])
      (fun hreceiving => hreceiving.elim) (by simp)
  | cancel => exact ⟨h.count, h.receiving, h.dispatched⟩

/-- The loops are known in every reachable state. -/
theorem loopsKnown_of_reachable (h : Reachable (State.step C) State.init s) : LoopsKnown s := by
  refine h.invariant ⟨rfl, fun _ hreceiving => hreceiving.elim, fun entry hentry => ?_⟩
    fun s action s' _ hs hstep => hs.step (transition_of_step hstep)
  simp [State.init] at hentry

/-- When one coroutine does all dispatches, they are its own. -/
theorem dispatchedIn_eq_dispatchedBy {log : List (ℕ × Event M)} {loop : ℕ}
    (h : ∀ entry ∈ log, ∀ message, entry.2 = .dispatched message → entry.1 = loop) :
    dispatchedIn log = dispatchedBy loop log := by
  rw [dispatchedIn, dispatchedBy, dispatchesOf, eventsOf, List.filterMap_filterMap]
  apply List.filterMap_congr
  intro entry hentry
  obtain ⟨task, event⟩ := entry
  cases event with
  | dispatched message =>
    obtain rfl : task = loop := h _ hentry message rfl
    simp
  | _ =>
    by_cases htask : task = loop <;> simp [htask]

/-- On a single TCP connection, all dispatches are those of its loop. -/
theorem dispatchedIn_eq_of_single (h : Reachable (State.step C) State.init s)
    (hone : s.connections ≤ 1) {loop : ℕ} (hloop : loop ∈ receiveLoops s.log) :
    dispatchedIn s.log = dispatchedBy loop s.log := by
  have hknown := loopsKnown_of_reachable h
  have hlength : (receiveLoops s.log).length ≤ 1 := hknown.count ▸ hone
  refine dispatchedIn_eq_dispatchedBy fun entry hentry message hmessage => ?_
  have hentry := hknown.dispatched entry hentry message hmessage
  obtain ⟨first, hfirst⟩ := List.length_eq_one_iff.mp
    (Nat.le_antisymm hlength (List.length_pos_of_mem hloop))
  rw [hfirst, List.mem_singleton] at hentry hloop
  rw [hentry, hloop]

/-- From the device to the caller. When the chunks of the only TCP connection cut well-formed frames
behind every accepted one, the loop dispatches the messages of these frames; to each coroutine come
some of them, in order and none twice, and all of them exactly when it had registered anew before
every dispatch. -/
theorem received_of_frames (hP : C.toProtobuf.Documented) (actions : List Action)
    (hrun : run (State.step C) State.init actions = some s) (hone : s.connections ≤ 1) (loop : ℕ)
    (hloop : loop ∈ receiveLoops s.log) (frames : List Frame)
    (hframes : ∀ frame ∈ frames, frame.WellFormed C.toProtobuf receiveLoopTypes)
    (hcutting : Cutting (framesBytes frames) (chunksOf (receivedOn loop actions)))
    (hcut : CutBehindAccepted frames (chunksOf (receivedOn loop actions))) (task : ℕ) :
    dispatchedIn s.log ++ (s.tasks loop).undispatched =
        frames.filterMap (Frame.message C.toProtobuf receiveLoopTypes) ∧
      (receivedBy task s.log ++ entriesFor task s.registry).Sublist
        (frames.filterMap (Frame.message C.toProtobuf receiveLoopTypes)) ∧
      ((s.tasks loop).undispatched = [] →
        (receivedBy task s.log ++ entriesFor task s.registry =
            frames.filterMap (Frame.message C.toProtobuf receiveLoopTypes) ↔
          OpenWhenPosted false (signals task s.log))) := by
  have hreachable : Reachable (State.step C) State.init s := ⟨actions, hrun⟩
  have hloopOk := loopOk_of_run hrun loop
  have hmailbox := (delivered_of_reachable hreachable task).account
  have hsent : dispatchedIn s.log ++ (s.tasks loop).undispatched =
      frames.filterMap (Frame.message C.toProtobuf receiveLoopTypes) := by
    rw [dispatchedIn_eq_of_single hreachable hone hloop, dispatchedBy, hloopOk.account,
      hloopOk.chunks]
    exact dispatchedFrom_of_cutBehindAccepted hP hframes hcutting hcut
  refine ⟨hsent, ?_, fun hnone => ?_⟩
  · rw [hmailbox, ← hsent]
    refine (taken_sublist false _).trans ?_
    rw [posts_signals]
    exact List.sublist_append_left _ _
  · rw [hnone, List.append_nil] at hsent
    rw [hmailbox, ← hsent, ← posts_signals task]
    exact taken_eq_posts_iff false _

/-- The device sends a PingRequest and a HelloResponse, which are received one by one. -/
def pingAndHello : List Action :=
  [.connect, .resolved 0 (.ok ()), .connected 0 (.ok ()), .received 1 (.ok [0, 0, 7]), .dispatch 1,
    .received 1 (.ok [0, 5, 2, 34, 3, 101, 115, 112]), .dispatch 1]

/-- The state after that. -/
def pingAndHelloState : State WireMessage :=
  (run (State.step wireClient) State.init pingAndHello).getD State.init

/-- What the loop of that run receives is what the sequential loop is given. -/
theorem dispatched_eq_receiveLoop_pingAndHello :
    dispatchedBy 1 pingAndHelloState.log ++ (pingAndHelloState.tasks 1).undispatched =
      receiveLoop wireProtobuf [.ok [0, 0, 7], .ok [0, 5, 2, 34, 3, 101, 115, 112]] :=
  (dispatched_eq_receiveLoop (C := wireClient) pingAndHello rfl 1).1

/-- The HelloResponse is dispatched, and no coroutine hears of it. -/
theorem received_of_frames_pingAndHello :
    dispatchedIn pingAndHelloState.log ++ (pingAndHelloState.tasks 1).undispatched =
      [pingFrame, helloFrame].filterMap (Frame.message wireProtobuf receiveLoopTypes) := by
  refine (received_of_frames (C := wireClient) wireProtobuf_documented pingAndHello rfl le_rfl 1
    List.mem_cons_self [pingFrame, helloFrame] wellFormed_ping_hello
    ⟨by decide, by decide, by decide⟩ ⟨[[pingFrame], [helloFrame]], rfl, by decide, ?_⟩ 0).1
  intro group hgroup frame hframe
  rcases List.mem_pair.mp hgroup with rfl | rfl <;> simp at hframe

end EspHomeApi
