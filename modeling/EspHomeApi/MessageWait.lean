import EspHomeApi.Connection
import EspHomeApi.WireClient

/-!
# The wait of `receive_message`

`receive_message` sets its timer once and then waits in rounds. In each round it registers a
handler and waits for it together with the timer; the round is over when both have completed, and
what completed first decides it. A message of another type leads to the next round, a message of
the awaited type is returned, and the timer ends the call. A handler cannot be withdrawn, so a
message that completes it behind the timer is gone. The call drops a message it waits for exactly
when that message comes in a round whose timer has completed already.
-/

namespace EspHomeApi

variable {M : Type} (C : Messages M) (type : MessageType)

/-- How far a call of `receive_message` has come. -/
inductive MessageWait (M : Type) where
  /-- In a round of its loop. -/
  | waiting (race : Race M ErrorCode)
  /-- Returned. -/
  | returned (result : Result M)

/-- The handler of the round is completed with a message, or the wait for the timer completes. -/
abbrev WaitCompletion (M : Type) := M ⊕ ErrorCode

/-- The round goes on, or is over and leads to the next one or to the end of the call. -/
def MessageWait.go (race : Race M ErrorCode) : MessageWait M :=
  match race.result? with
  | none => .waiting race
  | some outcome =>
    match receiveMessage C type outcome with
    | none => .waiting .waiting
    | some result => .returned result

/-- What a completion does to the call. -/
def MessageWait.step : MessageWait M → WaitCompletion M → Option (MessageWait M)
  | .waiting race, completion => (race.complete completion).map (MessageWait.go C type)
  | .returned _, _ => none

/-- The messages that the handlers of the call were completed with. -/
def completedMessages (completions : List (WaitCompletion M)) : List M :=
  completions.filterMap Sum.getLeft?

/-- The first message of the awaited type among them. -/
def firstAwaited (completions : List (WaitCompletion M)) : Option M :=
  (completedMessages completions).find? (C.holdsMessage type)

/-- The error that `receive_message` ends with. -/
def couldNotReceive : Result M :=
  makeUnexpectedResult .unexpectedMessage "could not receive any message"

/-- The call drops nothing: it returns the first awaited message, and the error only if there is
none. While it has not returned, an awaited message is returned as soon as the wait for the timer
is over. -/
def DropsNothing (completions : List (WaitCompletion M)) : MessageWait M → Prop
  | .returned result => result = (firstAwaited C type completions).elim couldNotReceive .ok
  | .waiting race => ∀ message, firstAwaited C type completions = some message →
      ∀ error, MessageWait.step C type (.waiting race) (.inr error) = some (.returned (.ok message))

/-- A handler was completed with an awaited message behind the timer of its round. -/
def LateMessage (completions : List (WaitCompletion M)) : Prop :=
  ∃ before message after error, completions = before ++ .inl message :: after ∧
    C.holdsMessage type message = true ∧
    Run.run (MessageWait.step C type) (.waiting .waiting) before =
      some (.waiting (.rightFirst error none))

/-- What an open call knows: an awaited message can only be the one that decides its round. -/
def WaitAccount (found : Option M) : MessageWait M → Prop
  | .waiting .waiting => found = none
  | .waiting (.leftFirst message none) =>
    found = if C.holdsMessage type message then some message else none
  | .waiting (.rightFirst _ none) => found = none
  | .waiting _ => False
  | .returned result => result = found.elim couldNotReceive .ok

@[simp] theorem firstAwaited_nil : firstAwaited C type [] = none := rfl

/-- One more message is the first awaited one if none of the earlier ones was. -/
theorem firstAwaited_message (completions : List (WaitCompletion M)) (message : M) :
    firstAwaited C type (completions ++ [.inl message]) =
      (firstAwaited C type completions).or
        (if C.holdsMessage type message then some message else none) := by
  rw [firstAwaited, completedMessages, List.filterMap_append, List.find?_append]
  congr 1
  by_cases h : C.holdsMessage type message <;> simp [h]

/-- The timer brings no message. -/
theorem firstAwaited_timer (completions : List (WaitCompletion M)) (error : ErrorCode) :
    firstAwaited C type (completions ++ [.inr error]) = firstAwaited C type completions := by
  rw [firstAwaited, completedMessages, List.filterMap_append]
  simp [firstAwaited, completedMessages]

/-- A round that a message decided returns it or goes round again. -/
theorem go_leftFirst (message : M) (error : ErrorCode) :
    MessageWait.go C type (.leftFirst message (some error)) =
      if C.holdsMessage type message then .returned (.ok message) else .waiting .waiting := by
  by_cases h : C.holdsMessage type message <;>
    simp [MessageWait.go, Race.result?, receiveMessage, h]

/-- A round that the timer decided ends the call. -/
theorem go_rightFirst (message : M) (error : ErrorCode) :
    MessageWait.go C type (.rightFirst error (some message)) = .returned couldNotReceive := rfl

variable {C type}

/-- A message keeps the account, unless it is awaited and comes behind the timer. -/
theorem WaitAccount.message {found : Option M} {race next : Race M ErrorCode} {message : M}
    (h : WaitAccount C type found (.waiting race)) (hnext : race.completeLeft message = some next)
    (hlate : ∀ error, race = .rightFirst error none → C.holdsMessage type message = false) :
    WaitAccount C type (found.or (if C.holdsMessage type message then some message else none))
      (MessageWait.go C type next) := by
  cases race with
  | waiting =>
    obtain rfl := Option.some.inj hnext
    rw [(h : found = none), Option.none_or]
    exact rfl
  | leftFirst first other => simp [Race.completeLeft] at hnext
  | rightFirst error other =>
    cases other with
    | some first => exact h.elim
    | none =>
      obtain rfl := Option.some.inj hnext
      rw [(h : found = none), Option.none_or, hlate error rfl, go_rightFirst]
      exact rfl

/-- The timer keeps the account: a message that came before it decides the round. -/
theorem WaitAccount.timer {found : Option M} {race next : Race M ErrorCode} {error : ErrorCode}
    (h : WaitAccount C type found (.waiting race)) (hnext : race.completeRight error = some next) :
    WaitAccount C type found (MessageWait.go C type next) := by
  cases race with
  | waiting =>
    obtain rfl := Option.some.inj hnext
    exact h
  | leftFirst message other =>
    cases other with
    | some first => exact h.elim
    | none =>
      obtain rfl := Option.some.inj hnext
      have hfound : found = if C.holdsMessage type message then some message else none := h
      rw [hfound, go_leftFirst]
      split
      · exact rfl
      · exact rfl
  | rightFirst first other => simp [Race.completeRight] at hnext

/-- A completion keeps the account, unless it is an awaited message behind the timer. -/
theorem WaitAccount.step {completions : List (WaitCompletion M)} {s s' : MessageWait M}
    {completion : WaitCompletion M} (h : WaitAccount C type (firstAwaited C type completions) s)
    (hstep : MessageWait.step C type s completion = some s')
    (hlate : ∀ error message, s = .waiting (.rightFirst error none) → completion = .inl message →
      C.holdsMessage type message = false) :
    WaitAccount C type (firstAwaited C type (completions ++ [completion])) s' := by
  cases s with
  | returned result => simp [MessageWait.step] at hstep
  | waiting race =>
    obtain ⟨next, hnext, rfl⟩ := Option.map_eq_some_iff.mp hstep
    cases completion with
    | inl message =>
      rw [firstAwaited_message]
      apply h.message hnext
      intro error hrace
      exact hlate error message (congrArg MessageWait.waiting hrace) rfl
    | inr error =>
      rw [firstAwaited_timer]
      exact h.timer hnext

/-- An awaited message that does not come behind the timer of its round is accounted for. -/
theorem waitAccount_of_run {completions : List (WaitCompletion M)} {s : MessageWait M}
    (hrun : Run.run (MessageWait.step C type) (.waiting .waiting) completions = some s)
    (hlate : ¬ LateMessage C type completions) :
    WaitAccount C type (firstAwaited C type completions) s := by
  revert hlate
  apply Run.run_induction (P := fun completions s => ¬ LateMessage C type completions →
    WaitAccount C type (firstAwaited C type completions) s) _ _ hrun
  · intro _
    exact rfl
  · intro completions s completion s' hrun ih hstep hlate
    have hbefore : ¬ LateMessage C type completions := by
      intro ⟨before, message, after, error, hsplit, hholds, hrace⟩
      exact hlate ⟨before, message, after ++ [completion], error, by rw [hsplit]; simp, hholds,
        hrace⟩
    apply (ih hbefore).step hstep
    intro error message hs hcompletion
    by_contra hholds
    exact hlate ⟨completions, message, [], error, by rw [hcompletion],
      by simpa using hholds, hs ▸ hrun⟩

/-- Who accounts for the messages drops none of them. -/
theorem WaitAccount.dropsNothing {completions : List (WaitCompletion M)} {s : MessageWait M}
    (h : WaitAccount C type (firstAwaited C type completions) s) :
    DropsNothing C type completions s := by
  cases s with
  | returned result => exact h
  | waiting race =>
    intro message hfirst error
    rw [hfirst] at h
    cases race with
    | waiting => simp [WaitAccount] at h
    | rightFirst first other => cases other <;> simp [WaitAccount] at h
    | leftFirst first other =>
      cases other with
      | some second => exact h.elim
      | none =>
        have hholds : some message = if C.holdsMessage type first then some first else none := h
        split at hholds
        · rename_i haccepted
          rw [Option.some.inj hholds]
          change some (MessageWait.go C type (.leftFirst first (some error))) = _
          rw [go_leftFirst, if_pos haccepted]
        · simp at hholds

/-- An awaited message behind the timer ends the call with the error. -/
theorem eq_of_lateMessage {before after : List (WaitCompletion M)} {message : M}
    {error : ErrorCode} {s : MessageWait M}
    (hrace : Run.run (MessageWait.step C type) (.waiting .waiting) before =
      some (.waiting (.rightFirst error none)))
    (hrun : Run.run (MessageWait.step C type) (.waiting .waiting) (before ++ .inl message :: after) =
      some s) : after = [] ∧ s = .returned couldNotReceive := by
  obtain ⟨middle, hmiddle, hrest⟩ := Run.exists_of_run_append hrun
  obtain rfl := Option.some.inj (hrace.symm.trans hmiddle)
  obtain ⟨next, hnext, hend⟩ := Run.exists_of_run_cons hrest
  obtain rfl := Option.some.inj hnext
  cases after with
  | nil => exact ⟨rfl, (Option.some.inj hend).symm⟩
  | cons completion after =>
    obtain ⟨_, hstep, _⟩ := Run.exists_of_run_cons hend
    simp [MessageWait.go, Race.result?, receiveMessage, MessageWait.step] at hstep

/-- `receive_message` drops nothing exactly when no awaited message comes in a round whose timer
has completed already. -/
theorem receiveMessage_dropsNothing_iff (C : Messages M) (type : MessageType)
    (completions : List (WaitCompletion M)) (s : MessageWait M)
    (hrun : Run.run (MessageWait.step C type) (.waiting .waiting) completions = some s) :
    DropsNothing C type completions s ↔ ¬ LateMessage C type completions := by
  constructor
  · rintro hdrops ⟨before, message, after, error, rfl, hholds, hrace⟩
    obtain ⟨rfl, rfl⟩ := eq_of_lateMessage hrace hrun
    change couldNotReceive = _ at hdrops
    rw [firstAwaited_message, if_pos hholds] at hdrops
    cases hfound : firstAwaited C type before <;>
      simp [hfound, couldNotReceive, makeUnexpectedResult] at hdrops
  · intro hlate
    exact (waitAccount_of_run hrun hlate).dropsNothing

/-- A HelloResponse comes in time, and the timer is cancelled. -/
theorem receiveMessage_dropsNothing_iff_hello :
    ¬ LateMessage wireMessages .helloResponse [.inl helloMessage, .inr .operationAborted] :=
  (receiveMessage_dropsNothing_iff wireMessages .helloResponse
    [.inl helloMessage, .inr .operationAborted] (.returned (.ok helloMessage)) (by rfl)).mp (by rfl)

/-- The timer completes, and a HelloResponse completes the handler that is still registered. -/
theorem not_dropsNothing_hello :
    ∃ s, Run.run (MessageWait.step wireMessages .helloResponse) (.waiting .waiting)
        [.inr .success, .inl helloMessage] = some s ∧
      ¬ DropsNothing wireMessages .helloResponse [.inr .success, .inl helloMessage] s := by
  refine ⟨.returned couldNotReceive, by rfl, fun hdrops => ?_⟩
  change couldNotReceive = _ at hdrops
  have hfirst : firstAwaited wireMessages .helloResponse [.inr .success, .inl helloMessage] =
      some helloMessage := by rfl
  rw [hfirst] at hdrops
  simp [couldNotReceive, makeUnexpectedResult] at hdrops

/-- An accepted type is awaited by its type, as no other type has its id. -/
theorem holdsMessage_iff_of_accepted (C : Messages M) {type : MessageType}
    (haccepted : type ∈ receiveLoopTypes) (message : M) :
    C.holdsMessage type message = true ↔ C.descriptor message = type := by
  rw [Messages.holdsMessage, decide_eq_true_iff]
  constructor
  · intro hid
    apply eq_of_id_accepted haccepted
    cases hdescriptor : (C.descriptor message).id with
    | some id => rw [hid, getMessageId_of_id hdescriptor]
    | none =>
      have hclient := (typeOfId_of_accepted type haccepted).2
      rw [hid, getMessageId, hdescriptor, Option.getD_none] at hclient
      exact absurd hclient (by decide)
  · intro hsame
    rw [hsame]

/-- A coroutine that waits for a message of a type goes on as `receive_message` does. -/
theorem resume_waiting (C : Client M) (s : State M) (task : ℕ) (call : Call) (collected : List M)
    (race : Race M ErrorCode) (outcome : M ⊕ ErrorCode) {type : MessageType}
    (htask : s.tasks task = .waiting call collected race)
    (hexpects : call.operation.expects = .message type) (hover : race.result? = some outcome) :
    s.resume C task = some (s.move C task (match MessageWait.go C.toMessages type race with
      | .waiting _ => (.registering call collected, [])
      | .returned (.error error) => leave s.stopRequested call (.error error)
      | .returned (.ok message) =>
        match call.operation.accept C.toMessages message with
        | .error error => leave s.stopRequested call (.error error)
        | .ok value =>
          let next := succeed C s.stopRequested s.socket.connection? call value
          (next.1, greeting call outcome ++ next.2))) := by
  have htimed : call.operation.timed = true := by rw [Operation.timed, hexpects]
  rw [State.resume, htask]
  simp only [Task.outcome?, htimed, if_true, hover, Option.map_some, Option.some.injEq]
  congr 1
  rw [afterWait, Operation.answer, hexpects, MessageWait.go, hover]
  simp only
  cases receiveMessage C.toMessages type outcome with
  | none => rfl
  | some result =>
    cases result with
    | error error => rfl
    | ok message =>
      dsimp only
      cases call.operation.accept C.toMessages message with
      | error error => rfl
      | ok value => rfl

end EspHomeApi
