import EspHomeApi.CallTrace
import EspHomeApi.Collector
import EspHomeApi.SendReport

/-!
# What the calls return

An operation is meant as a sequential program: it sends its request, goes through the messages that
come, and makes its result of the ones that it waits for. On a connection its steps are interleaved
with those of all the others, its handler is registered anew for every message, and timers run
against its send and its waits. Whatever the order of the steps, each call returns what the
sequential program makes of the completions that this very call has seen: of its send and of each of
its waits, in the order in which they came.
-/

namespace EspHomeApi

open Run

variable {M : Type} {C : Client M} {s : State M} {task : ℕ}

/-- What an event does to the messages that a coroutine has heard in its current call. -/
def hear : List M → Event M → List M
  | _, .returned _ _ => []
  | heard, .received _ message => heard ++ [message]
  | heard, _ => heard

/-- The messages heard in the current call, after more events. -/
def heardAfter (heard : List M) (events : List (Event M)) : List M := events.foldl hear heard

/-- What a call has seen since it began: the completions of its send, and those in each of its
waits, in their order. A wait starts when a handler is registered. -/
structure CallRecord (M : Type) where
  sends : List SendCompletion
  waits : List (List (WaitCompletion M))

/-- A call that begins has seen nothing. -/
def CallRecord.empty : CallRecord M := ⟨[], []⟩

/-- A timer completes: that of the current wait, or that of the send if there was no wait yet. -/
def CallRecord.expire (record : CallRecord M) (error : ErrorCode) : CallRecord M :=
  match record.waits with
  | [] => { record with sends := record.sends ++ [.inr error] }
  | waits => { record with waits := Race.addToLast (.inr error) waits }

/-- What happens to the coroutine of the call is added to the record. -/
def CallRecord.note (record : CallRecord M) : Happening M → CallRecord M
  | .event (.returned _ _) => .empty
  | .event (.registered _) => { record with waits := record.waits ++ [[]] }
  | .event (.received _ message) =>
    { record with waits := Race.addToLast (.inl message) record.waits }
  | .event _ => record
  | .completed (.sent error count) => { record with sends := record.sends ++ [.inl (error, count)] }
  | .completed (.expired error) => record.expire error

/-- The record of the current call, after more has happened. -/
def recordAfter (record : CallRecord M) (happened : List (Happening M)) : CallRecord M :=
  happened.foldl CallRecord.note record

/-- The messages in the waits of a call. -/
def CallRecord.heard (record : CallRecord M) : List M :=
  record.waits.flatten.filterMap Sum.getLeft?

/-- The message came before the timer of the wait, which was cancelled then, or in a wait without a
timer. -/
def CameFirst (message : M) (wait : List (WaitCompletion M)) : Prop :=
  wait = [.inl message] ∨ ∃ error, wait = [.inl message, .inr error]

/-- Each of the messages came first in its wait. -/
def CameInTime (messages : List M) (waits : List (List (WaitCompletion M))) : Prop :=
  List.Forall₂ CameFirst messages waits

/-- The call has got past its send: there is none without a request, and only a ping goes on if the
completions of its send make `send_message` fail. -/
def Call.Sent (C : Client M) (call : Call) (sends : List SendCompletion) : Prop :=
  (call.operation.request C = none → sends = []) ∧
    (call.operation.requiresSend = true → ∃ packet, Serialized C call packet ∧
      sendPacket packet sends = some (.ok ()))

/-- What the operation has collected of the messages heard, none of which ended its wait. -/
def Operation.Waits (C : Messages M) (operation : Operation) (heard collected : List M) : Prop :=
  match operation.expects with
  | .nothing => False
  | .message type => ∀ message ∈ heard, C.descriptor message ≠ type
  | .anyMessage types => ∀ message ∈ heard, C.descriptor message ∉ types
  | .messages stop types => (∀ message ∈ heard, C.descriptor message ≠ stop) ∧
      collected = heard.filter fun message => C.descriptor message ∈ types

/-- The result that the operation is meant to have for messages that came in time. The last of them
is the first one that the operation waits for. -/
def Operation.Yields (C : Messages M) (operation : Operation) (heard : List M)
    (result : Result (Value M)) : Prop :=
  match operation.expects with
  | .nothing => heard = [] ∧ result = .ok .unit
  | .message type => ∃ earlier last, heard = earlier ++ [last] ∧
      (∀ message ∈ earlier, C.descriptor message ≠ type) ∧ C.descriptor last = type ∧
        result = operation.accept C last
  | .anyMessage types => ∃ earlier last, heard = earlier ++ [last] ∧
      (∀ message ∈ earlier, C.descriptor message ∉ types) ∧
        C.descriptor last ∈ types ∧ result = .ok (.message last)
  | .messages stop types => ∃ earlier last, heard = earlier ++ [last] ∧
      (∀ message ∈ earlier, C.descriptor message ≠ stop) ∧ C.descriptor last = stop ∧
        result = .ok (.messages (earlier.filter fun message => C.descriptor message ∈ types))

/-- The result of a call is explained by what the call has seen. -/
inductive Explained (C : Client M) (call : Call) (record : CallRecord M) :
    Result (Value M) → Prop where
  /-- There was no packet to send. -/
  | unserialized {message : M} {error : ApiError} (hping : call.operation ≠ .ping)
    (hrequest : call.operation.request C = some message)
    (hserialize : serialize C.toProtobuf message = .error error) (hrecord : record = .empty) :
    Explained C call record (.error error)
  /-- The completions of its send make `send_message` fail with this error. -/
  | unsent {packet : Bytes} {error : ApiError} (hping : call.operation ≠ .ping)
    (hpacket : Serialized C call packet)
    (hreport : sendPacket packet record.sends = some (.error error)) (hwaits : record.waits = []) :
    Explained C call record (.error error)
  /-- The message came first in every wait, and the operation makes its result of them. -/
  | yields {heard : List M} {result : Result (Value M)} (hsent : call.Sent C record.sends)
    (hheard : CameInTime heard record.waits)
    (hyields : call.operation.Yields C.toMessages heard result) : Explained C call record result
  /-- In the last wait the timer came before the message. -/
  | late {type : MessageType} {heard : List M} {waits : List (List (WaitCompletion M))}
    {error : ErrorCode} {last : M} (hsent : call.Sent C record.sends)
    (hexpects : call.operation.expects = .message type) (hheard : CameInTime heard waits)
    (hearlier : ∀ message ∈ heard, C.descriptor message ≠ type)
    (hlast : record.waits = waits ++ [[.inr error, .inl last]]) :
    Explained C call record couldNotReceive

/-- Every result in the story is explained. -/
def Accounted (C : Client M) (record : CallRecord M) : List (Happening M) → Prop
  | [] => True
  | .event (.returned call result) :: happened =>
    Explained C call record result ∧ Accounted C .empty happened
  | happening :: happened => Accounted C (record.note happening) happened

/-- The suspension of a coroutine whose current call has seen this. -/
def Settled (C : Client M) (record : CallRecord M) : Task M → Prop
  | .sending call packet _ race => call.WellFormed ∧ Serialized C call packet ∧
      run Race.complete .waiting record.sends = some race ∧ record.waits = []
  | .registering call collected => call.WellFormed ∧ call.Sent C record.sends ∧
      ∃ heard, CameInTime heard record.waits ∧ call.operation.Waits C.toMessages heard collected
  | .waiting call collected race => call.WellFormed ∧ call.Sent C record.sends ∧
      ∃ heard waits wait, CameInTime heard waits ∧
        call.operation.Waits C.toMessages heard collected ∧ record.waits = waits ++ [wait] ∧
        run Race.complete .waiting wait = some race ∧
        (call.operation.timed = false → ∀ completion ∈ wait, completion.isLeft = true)
  | _ => record = .empty

/-- The way to the next suspension is accounted for. -/
def Accounts (C : Client M) (record : CallRecord M) (next : Next M) : Prop :=
  Accounted C record (next.2.map .event) ∧
    Settled C (recordAfter record (next.2.map .event)) next.1

/-- A story goes on where it was accounted for before. -/
theorem accounted_append (record : CallRecord M) (left right : List (Happening M)) :
    Accounted C record (left ++ right) ↔
      Accounted C record left ∧ Accounted C (recordAfter record left) right := by
  induction left generalizing record with
  | nil => simp [Accounted, recordAfter]
  | cons happening left ih =>
    cases happening with
    | completed completion => exact ih _
    | event event =>
      cases event with
      | returned call result =>
        rw [List.cons_append, Accounted, Accounted, ih, and_assoc]
        rfl
      | _ => exact ih _

/-- The record after more has happened still. -/
theorem recordAfter_append (record : CallRecord M) (left right : List (Happening M)) :
    recordAfter record (left ++ right) = recordAfter (recordAfter record left) right :=
  List.foldl_append

/-- One more completion in the last wait is one more message heard, unless it is the timer. -/
theorem heard_addToLast (sends : List SendCompletion) (waits : List (List (WaitCompletion M)))
    (completion : WaitCompletion M) :
    (CallRecord.mk sends (Race.addToLast completion waits)).heard =
      (CallRecord.mk sends waits).heard ++ completion.getLeft?.toList := by
  cases completion <;> simp [CallRecord.heard, Race.flatten_addToLast]

/-- A timer brings no message. -/
theorem heard_expire (record : CallRecord M) (error : ErrorCode) :
    (record.expire error).heard = record.heard := by
  unfold CallRecord.expire
  split
  · rfl
  · exact (heard_addToLast _ _ (.inr error)).trans (List.append_nil _)

/-- The timer of a wait is noted in the wait. -/
theorem expire_of_waits {record : CallRecord M} {waits : List (List (WaitCompletion M))}
    {wait : List (WaitCompletion M)} (h : record.waits = waits ++ [wait]) (error : ErrorCode) :
    record.expire error = { record with waits := waits ++ [wait ++ [.inr error]] } := by
  rw [← Race.addToLast_concat, ← h, CallRecord.expire]
  split
  · rename_i hnil
    simp [hnil] at h
  · rfl

/-- The messages in the record are those that the events bring. -/
theorem heard_recordAfter (record : CallRecord M) (happened : List (Happening M)) :
    (recordAfter record happened).heard = heardAfter record.heard (eventsIn happened) := by
  induction happened generalizing record with
  | nil => rfl
  | cons happening happened ih =>
    refine (ih _).trans ?_
    cases happening with
    | completed completion =>
      have hsame : (record.note (.completed completion)).heard = record.heard := by
        cases completion with
        | sent error count => rfl
        | expired error => exact heard_expire record error
      rw [hsame]
      rfl
    | event event =>
      have hnext : (record.note (.event event)).heard = hear record.heard event := by
        cases event with
        | registered call => simp [CallRecord.note, CallRecord.heard, hear]
        | received call message => exact heard_addToLast _ _ _
        | _ => rfl
      rw [hnext]
      rfl

/-- Messages that came in time are all that were heard. -/
theorem heard_of_cameInTime {heard : List M} {waits : List (List (WaitCompletion M))}
    (h : CameInTime heard waits) : waits.flatten.filterMap Sum.getLeft? = heard := by
  induction h with
  | nil => rfl
  | @cons message wait heard waits hfirst _ ih =>
    rw [List.flatten_cons, List.filterMap_append, ih]
    rcases hfirst with rfl | ⟨error, rfl⟩ <;> rfl

/-- One message more that came in time. -/
theorem CameInTime.concat {heard : List M} {waits : List (List (WaitCompletion M))} {message : M}
    {wait : List (WaitCompletion M)} (h : CameInTime heard waits)
    (hfirst : CameFirst message wait) : CameInTime (heard ++ [message]) (waits ++ [wait]) :=
  List.rel_append h (.cons hfirst .nil)

/-- The types that an operation waits for. -/
def Expectation.types : Expectation → List MessageType
  | .nothing => []
  | .message type => [type]
  | .anyMessage types => types
  | .messages stop types => stop :: types

/-- The receiving loop accepts every type that an operation waits for. -/
theorem accepted_of_expects (operation : Operation) :
    ∀ type ∈ operation.expects.types, type ∈ receiveLoopTypes := by
  cases operation with
  | lightCommand | enableLogs | subscribeStates => simp [Operation.expects, Expectation.types]
  | _ => decide

/-- A message that comes while the operation waits leaves it waiting, or ends its wait with the
result that it is meant to have. -/
theorem answer_of_waits {C : Messages M} {operation : Operation} {heard collected : List M}
    (h : operation.Waits C heard collected) (message : M) :
    (∃ collected', operation.answer C collected (.inl message) = .waitAgain collected' ∧
        operation.Waits C (heard ++ [message]) collected') ∨
      ∃ result, operation.answer C collected (.inl message) = .done result ∧
        operation.Yields C (heard ++ [message]) result := by
  have htypes := accepted_of_expects operation
  unfold Operation.Waits at h ⊢
  unfold Operation.Yields Operation.answer
  cases hexpects : operation.expects with
  | nothing =>
    rw [hexpects] at h
    exact h.elim
  | message type =>
    rw [hexpects] at h htypes
    have hholds := holdsMessage_iff_of_accepted C (htypes type List.mem_cons_self) message
    by_cases hsame : C.descriptor message = type
    · right
      simp only [receiveMessage, hholds.mpr hsame, if_true]
      exact ⟨_, rfl, heard, message, rfl, h, hsame, rfl⟩
    · left
      have hnot : C.holdsMessage type message = false := by
        rw [← Bool.not_eq_true, hholds]
        exact hsame
      simp only [receiveMessage, hnot]
      refine ⟨collected, rfl, ?_⟩
      simpa [or_imp, forall_and] using ⟨h, hsame⟩
  | anyMessage types =>
    rw [hexpects] at h htypes
    have hany := any_holdsMessage_iff (C := C) (idTellsType_of_accepted htypes message)
    change (types.any _ = true ↔ _ ∈ types) at hany
    by_cases hmem : C.descriptor message ∈ types
    · right
      simp only [receiveAnyMessage, hany.mpr hmem, if_true]
      exact ⟨_, rfl, heard, message, rfl, h, hmem, rfl⟩
    · left
      simp only [receiveAnyMessage, if_neg (mt hany.mp hmem)]
      refine ⟨collected, rfl, ?_⟩
      simpa [or_imp, forall_and] using ⟨h, hmem⟩
  | messages stop types =>
    rw [hexpects] at h htypes
    obtain ⟨hnever, rfl⟩ := h
    have hany := any_holdsMessage_iff (C := C) (idTellsType_of_accepted htypes message)
    change ((stop :: types).any _ = true ↔ _ ∈ stop :: types) at hany
    have hholds := holdsMessage_iff_of_accepted C (htypes stop List.mem_cons_self) message
    by_cases hstop : C.descriptor message = stop
    · right
      simp only [receiveAnyMessage, hany.mpr (hstop ▸ List.mem_cons_self), hholds.mpr hstop, if_true]
      exact ⟨_, rfl, heard, message, rfl, hnever, hstop, rfl⟩
    · left
      have hnever' : ∀ other ∈ heard ++ [message], C.descriptor other ≠ stop := by
        simpa [or_imp, forall_and] using ⟨hnever, hstop⟩
      by_cases hmem : C.descriptor message ∈ types
      · simp only [receiveAnyMessage, hany.mpr (List.mem_cons_of_mem stop hmem), if_true,
          if_neg (mt hholds.mp hstop)]
        refine ⟨_, rfl, hnever', ?_⟩
        simp [List.filter_append, hmem]
      · have hnone : C.descriptor message ∉ stop :: types := by simp [hstop, hmem]
        simp only [receiveAnyMessage, if_neg (mt hany.mp hnone)]
        refine ⟨_, rfl, hnever', ?_⟩
        simp [List.filter_append, hmem]

/-- An operation that waits for something waits when it has heard nothing. -/
theorem waits_nil (C : Messages M) {operation : Operation} (h : operation.expects ≠ .nothing) :
    operation.Waits C [] [] := by
  unfold Operation.Waits
  cases hexpects : operation.expects with
  | nothing => exact absurd hexpects h
  | _ => simp

/-- An operation that need not send waits for something. -/
theorem expects_ne_nothing {operation : Operation} (h : operation.requiresSend = false) :
    operation.expects ≠ .nothing := by
  cases operation <;> simp_all [Operation.requiresSend, Operation.expects]

/-- Only the operations that wait for one message have a timer. -/
theorem expects_of_timed {operation : Operation} (h : operation.timed = true) :
    ∃ type, operation.expects = .message type := by
  unfold Operation.timed at h
  cases hexpects : operation.expects with
  | message type => exact ⟨type, rfl⟩
  | _ => simp [hexpects] at h

/-- A call that has seen no wait yet is about to start one when it has got past its send. -/
theorem settled_registering {record : CallRecord M} {call : Call} (hcall : call.WellFormed)
    (hsent : call.Sent C record.sends) (hwaits : record.waits = [])
    (hexpects : call.operation.expects ≠ .nothing) : Settled C record (.registering call []) :=
  ⟨hcall, hsent, [], hwaits ▸ .nil, waits_nil _ hexpects⟩

/-- Nothing happens on the way to a suspension that is settled. -/
theorem Accounts.of_settled {record : CallRecord M} {t : Task M} (h : Settled C record t) :
    Accounts C record (t, []) := ⟨trivial, h⟩

/-- A call that returns an explained result has accounted for it. -/
theorem accounts_leave {record : CallRecord M} {call : Call} (hcall : call.WellFormed)
    (stopRequested : Bool) {result : Result (Value M)} (h : Explained C call record result) :
    Accounts C record (leave stopRequested call result) := by
  unfold leave
  split
  · exact ⟨⟨h, trivial⟩, rfl⟩
  · exact ⟨⟨h, trivial⟩, rfl⟩
  · refine ⟨⟨h, trivial⟩, ?_⟩
    cases stopRequested <;> rfl
  · rename_i hcaller
    have hconsumer := hcall.consumer hcaller
    have hsent : call.Sent C [] := ⟨fun _ => rfl, fun hrequires => by simp [hconsumer] at hrequires⟩
    exact ⟨⟨h, trivial⟩, settled_registering hcall hsent rfl (expects_ne_nothing hconsumer)⟩

/-- A failed send is accounted for by its error, or not at all by a ping. -/
theorem accounts_sendFailed {record : CallRecord M} {call : Call} (hcall : call.WellFormed)
    (stopRequested : Bool) {error : ApiError} (hwaits : record.waits = [])
    (h : call.operation ≠ .ping → Explained C call record (.error error)) :
    Accounts C record (sendFailed stopRequested call error) := by
  unfold sendFailed
  split
  · rename_i hping
    have hsent : call.Sent C record.sends := by
      simp [Call.Sent, hping, Operation.request, Operation.requiresSend]
    exact .of_settled (settled_registering hcall hsent hwaits (by simp [hping, Operation.expects]))
  · rename_i hping
    exact accounts_leave hcall stopRequested (h hping)

/-- A call starts with nothing to account for but its send. -/
theorem accounts_begin {call : Call} (hcall : call.WellFormed) (stopRequested : Bool)
    (connection : Option ℕ) : Accounts C .empty (begin C stopRequested connection call) := by
  unfold begin
  split
  · rename_i hnone
    have hrequires := requiresSend_of_request_none hnone
    have hsent : call.Sent C [] := ⟨fun _ => rfl, fun htrue => by simp [hrequires] at htrue⟩
    exact .of_settled (settled_registering hcall hsent rfl (expects_ne_nothing hrequires))
  · rename_i message hrequest
    split
    · rename_i error hserialize
      exact accounts_sendFailed hcall stopRequested rfl fun hping =>
        .unserialized hping hrequest hserialize rfl
    · rename_i packet hserialize
      exact ⟨trivial, hcall, ⟨message, hrequest, hserialize⟩, rfl, rfl⟩

/-- A call that succeeds as it is meant to has accounted for it. -/
theorem accounts_succeed {record : CallRecord M} {call : Call} (hcall : call.WellFormed)
    (stopRequested : Bool) (connection : Option ℕ) {value : Value M}
    (h : Explained C call record (.ok value)) :
    Accounts C record (succeed C stopRequested connection call value) := by
  unfold succeed
  split
  · have hconnect : connectCall.WellFormed := ⟨by simp [connectCall], fun _ => Or.inr rfl⟩
    obtain ⟨haccounted, hsettled⟩ := accounts_begin (C := C) hconnect stopRequested connection
    exact ⟨⟨h, haccounted⟩, hsettled⟩
  · exact accounts_leave hcall stopRequested h

/-- A call whose send is over goes on as it is meant to. -/
theorem accounts_afterSend {record : CallRecord M} {call : Call} (hcall : call.WellFormed)
    (stopRequested : Bool) (connection : Option ℕ) {packet : Bytes} {result : Result Unit}
    (hpacket : Serialized C call packet) (hreport : sendPacket packet record.sends = some result)
    (hwaits : record.waits = []) :
    Accounts C record (afterSend C stopRequested connection call result) := by
  unfold afterSend
  split
  · rename_i error
    exact accounts_sendFailed hcall stopRequested hwaits fun hping =>
      .unsent hping hpacket hreport hwaits
  · have hsent : call.Sent C record.sends := by
      refine ⟨fun hnone => ?_, fun _ => ⟨packet, hpacket, hreport⟩⟩
      obtain ⟨message, hrequest, -⟩ := hpacket
      simp [hnone] at hrequest
    split
    · rename_i hexpects
      have hheard : CameInTime [] record.waits := hwaits ▸ List.Forall₂.nil
      refine accounts_succeed hcall stopRequested connection (.yields hsent hheard ?_)
      rw [Operation.Yields, hexpects]
      exact ⟨rfl, rfl⟩
    · rename_i hexpects
      exact .of_settled (settled_registering hcall hsent hwaits hexpects)

/-- The greeting has nothing to account for. -/
theorem accounts_greeting {record : CallRecord M} (call : Call) (outcome : M ⊕ ErrorCode)
    {next : Next M} (h : Accounts C record next) :
    Accounts C record (next.1, greeting call outcome ++ next.2) := by
  unfold greeting
  split
  · exact h
  · exact h

/-- The outcome of a wait is what its completions say. -/
theorem cameFirst_or_late {call : Call} {collected : List M} {race : Race M ErrorCode}
    {outcome : M ⊕ ErrorCode} {wait : List (WaitCompletion M)}
    (houtcome : (Task.waiting call collected race).outcome? = some outcome)
    (hrun : run Race.complete .waiting wait = some race)
    (hside : call.operation.timed = false → ∀ completion ∈ wait, completion.isLeft = true) :
    (∃ message, outcome = .inl message ∧ CameFirst message wait) ∨
      (call.operation.timed = true ∧
        ∃ error message, outcome = .inr error ∧ wait = [.inr error, .inl message]) := by
  rw [Task.outcome?] at houtcome
  split at houtcome
  · rename_i htimed
    obtain ⟨other, rfl, hother⟩ := Race.completions_of_result? hrun houtcome
    cases outcome with
    | inl message =>
      cases other with
      | inl late => exact absurd rfl hother
      | inr error => exact Or.inl ⟨message, rfl, Or.inr ⟨error, rfl⟩⟩
    | inr error =>
      cases other with
      | inl message => exact Or.inr ⟨htimed, error, message, rfl, rfl⟩
      | inr late => exact absurd rfl hother
  · rename_i htimed
    obtain ⟨message, hleft, rfl⟩ := Option.map_eq_some_iff.mp houtcome
    have hwait := Race.completions_of_left? hrun hleft (hside (Bool.not_eq_true _ ▸ htimed))
    exact Or.inl ⟨message, rfl, Or.inl hwait⟩

/-- A call whose wait is over goes on as it is meant to. -/
theorem accounts_afterWait {record : CallRecord M} {call : Call} {collected : List M}
    {race : Race M ErrorCode} (h : Settled C record (.waiting call collected race))
    (stopRequested : Bool) (connection : Option ℕ) {outcome : M ⊕ ErrorCode}
    (houtcome : (Task.waiting call collected race).outcome? = some outcome) :
    Accounts C record (afterWait C stopRequested connection call collected outcome) := by
  obtain ⟨hcall, hsent, heard, waits, wait, hheard, hwaits, hrecord, hrun, hside⟩ := h
  rw [afterWait]
  rcases cameFirst_or_late houtcome hrun hside with
    ⟨message, rfl, hfirst⟩ | ⟨htimed, error, last, rfl, rfl⟩
  · have hnext : CameInTime (heard ++ [message]) record.waits := hrecord ▸ hheard.concat hfirst
    obtain ⟨collected', hanswer, hwaits'⟩ | ⟨result, hanswer, hyields⟩ :=
      answer_of_waits hwaits message
    · rw [hanswer]
      exact .of_settled ⟨hcall, hsent, _, hnext, hwaits'⟩
    · rw [hanswer]
      have hexplained := Explained.yields hsent hnext hyields
      cases result with
      | error error => exact accounts_leave hcall stopRequested hexplained
      | ok value =>
        exact accounts_greeting call _ (accounts_succeed hcall stopRequested connection hexplained)
  · obtain ⟨type, hexpects⟩ := expects_of_timed htimed
    rw [Operation.Waits, hexpects] at hwaits
    rw [answer_timer htimed]
    exact accounts_leave hcall stopRequested (.late hsent hexpects hheard hwaits hrecord)

/-- A move that leaves where the coroutine was suspended is accounted for. -/
theorem Moves.accounts {record : CallRecord M} {t : Task M} (h : Settled C record t)
    {stopRequested : Bool} {socket : Socket} {next : Next M} (hfresh : next.1.Fresh)
    (hmove : Moves C stopRequested socket t next) : Accounts C record next := by
  cases hmove with
  | sendOver hresult =>
    obtain ⟨hcall, hpacket, hrun, hwaits⟩ := h
    refine accounts_afterSend hcall stopRequested _ hpacket ?_ hwaits
    rw [sendPacket, hrun, Option.bind_some, hresult, Option.map_some]
  | waitOver houtcome => exact accounts_afterWait h stopRequested _ houtcome
  | woken =>
    obtain rfl : record = .empty := h
    exact accounts_begin ⟨by simp [pingCall], by simp [pingCall]⟩ stopRequested _
  | sentNothing hrace | sentBytes hrace _ _ _ =>
    exact absurd hfresh (Race.ne_waiting_of_complete (.inl _) hrace)
  | sendExpired hrace => exact absurd hfresh (Race.ne_waiting_of_complete (.inr _) hrace)
  | waitExpired _ _ => exact hfresh.elim
  | _ => exact ⟨trivial, h⟩

/-- The socket taking bytes has nothing to account for. -/
theorem accounts_of_wrote {record : CallRecord M} {t : Task M} (h : Settled C record t)
    {call : Call} {packet : Bytes} {count : ℕ} {events : List (Event M)}
    (hwrote : ∀ event ∈ events, ∃ current, event = .wrote call current packet count) :
    Accounts C record (t, events) := by
  induction events with
  | nil => exact .of_settled h
  | cons event events ih =>
    obtain ⟨current, rfl⟩ := hwrote event List.mem_cons_self
    exact ih fun event hevent => hwrote event (List.mem_cons_of_mem _ hevent)

/-- A completion goes into the record as it goes into the race. -/
theorem Notes.accounts {record : CallRecord M} {t : Task M} (h : Settled C record t)
    {completion : Completion} {next : Next M} (hnotes : Notes t (some completion) next) :
    Accounts C (record.note (.completed completion)) next := by
  cases hnotes with
  | sent hrace hwrote =>
    obtain ⟨hcall, hpacket, hrun, hwaits⟩ := h
    refine accounts_of_wrote ?_ hwrote
    exact ⟨hcall, hpacket, run_concat hrun hrace, hwaits⟩
  | sendExpired hrace =>
    obtain ⟨hcall, hpacket, hrun, hwaits⟩ := h
    obtain ⟨sends, waits⟩ := record
    obtain rfl : waits = [] := hwaits
    exact .of_settled ⟨hcall, hpacket, run_concat hrun hrace, rfl⟩
  | waitExpired htimed hrace =>
    obtain ⟨hcall, hsent, heard, waits, wait, hheard, hwaits, hrecord, hrun, -⟩ := h
    rw [CallRecord.note, expire_of_waits hrecord]
    exact .of_settled ⟨hcall, hsent, heard, waits, _, hheard, hwaits, rfl, run_concat hrun hrace,
      fun hfalse => by simp [htimed] at hfalse⟩

/-- A coroutine goes on in a way that is accounted for. -/
theorem Goes.accounts {record : CallRecord M} {t : Task M} (h : Settled C record t)
    {completion : Option Completion} {next : Next M} (hgoes : Goes C t completion next) :
    Accounts C (recordAfter record (completion.toList.map .completed)) next := by
  cases hgoes with
  | moves hnotes hmove =>
    cases completion with
    | some completion => exact hnotes.accounts h
    | none =>
      cases hnotes with
      | leaves hfresh => exact hmove.accounts h hfresh
  | call hcall stopRequested connection =>
    obtain rfl : record = .empty := h
    exact accounts_begin hcall.wellFormed stopRequested connection
  | heartbeatLoop stopRequested =>
    refine .of_settled ?_
    cases stopRequested <;> exact h
  | connected stopRequested current connection receiveLoop heartbeatLoop =>
    obtain rfl : record = .empty := h
    have hhello : helloCall.WellFormed := ⟨by simp [helloCall], fun _ => Or.inl rfl⟩
    exact accounts_begin hhello stopRequested current
  | registers call collected =>
    obtain ⟨hcall, hsent, heard, hheard, hwaits⟩ := h
    exact ⟨trivial, hcall, hsent, heard, record.waits, [], hheard, hwaits, rfl, rfl, by simp⟩
  | @called call collected race race' message hrace =>
    obtain ⟨hcall, hsent, heard, waits, wait, hheard, hwaits, hrecord, hrun, hside⟩ := h
    have hcomplete : race.complete (.inl message) = some race' := hrace
    refine ⟨trivial, hcall, hsent, heard, waits, wait ++ [.inl message], hheard, hwaits, ?_,
      run_concat hrun hcomplete, fun hfalse => ?_⟩
    · exact (congrArg (Race.addToLast _) hrecord).trans (Race.addToLast_concat _ _ _)
    · simpa [or_imp, forall_and] using hside hfalse
  | connect | receiveLoop | resolved | dispatches => exact ⟨trivial, h⟩

/-- After every run, the story of a coroutine is accounted for. -/
theorem accounted_of_run {actions : List Action}
    (h : run (State.step C) State.init actions = some s) (task : ℕ) :
    Accounted C .empty (story C task State.init actions) := by
  refine (story_invariant (P := fun t happened =>
    Accounted C .empty happened ∧ Settled C (recordAfter .empty happened) t) ⟨trivial, rfl⟩ ?_ h
      task).1
  intro t happened completion next hinv hgoes
  obtain ⟨haccounted, hsettled⟩ := hinv
  obtain ⟨hnext, hlast⟩ := hgoes.accounts hsettled
  rw [happenings, accounted_append, accounted_append, recordAfter_append, recordAfter_append]
  refine ⟨⟨haccounted, ?_, hnext⟩, hlast⟩
  cases completion <;> exact trivial

/-- In every run, each result that a call returns is explained by the completions that this call has
seen: the timer and the send of its packet in their order, and in each of its waits the message and
the timer in theirs. -/
theorem returned_explained {actions : List Action}
    (h : run (State.step C) State.init actions = some s) (task : ℕ)
    {before after : List (Happening M)} {call : Call} {result : Result (Value M)}
    (hsplit : story C task State.init actions = before ++ .event (.returned call result) :: after) :
    Explained C call (recordAfter .empty before) result := by
  have haccounted := accounted_of_run h task
  rw [hsplit, accounted_append] at haccounted
  exact haccounted.2.1

/-- The call that was rejected saw its packet sent and heard one message, which says so. -/
theorem returned_explained_rejected :
    Explained wireClient connectCall
      (recordAfter .empty (story wireClient 0 State.init rejectedHandshake))
      (.error invalidPassword) := by
  have hrejected : run (State.step wireClient) State.init rejectedHandshake = some rejectedState :=
    rfl
  have hresume : rejectedState.step wireClient (.resume 0) = some finishedState := rfl
  have hsplit : story wireClient 0 State.init (rejectedHandshake ++ [.resume 0]) =
      story wireClient 0 State.init rejectedHandshake ++
        .event (.returned connectCall (.error invalidPassword)) ::
          [.event (.connectReturned (.error invalidPassword))] := by
    rw [story_concat hrejected hresume, eventsOf_finishedState, List.drop_left]
    rfl
  exact returned_explained (run_concat hrejected hresume) 0 hsplit

/-- In a reachable state too, each result is explained by some record of the messages heard. -/
theorem explained_of_reachable (h : Reachable (State.step C) State.init s) (task : ℕ)
    {before after : List (Event M)} {call : Call} {result : Result (Value M)}
    (hsplit : eventsOf task s.log = before ++ .returned call result :: after) :
    ∃ record : CallRecord M, Explained C call record result ∧
      record.heard = heardAfter [] before := by
  obtain ⟨actions, hrun⟩ := h
  rw [← eventsIn_story hrun] at hsplit
  obtain ⟨happened, rest, hstory, rfl⟩ := exists_of_eventsIn hsplit
  have haccounted := accounted_of_run hrun task
  rw [hstory, accounted_append] at haccounted
  exact ⟨_, haccounted.2.1, heard_recordAfter .empty happened⟩

/-- What the code of an error says about the call that returned it, which had heard these messages.
No error of `decode_multiple` gets as far as a call. -/
def Tells (C : Client M) (call : Call) (heard : List M) : ApiErrorCode → Prop
  | .serializeError => heard = [] ∧ ∃ message error,
      call.operation.request C = some message ∧ serialize C.toProtobuf message = .error error
  | .parseError => False
  | .unexpectedMessage => ∃ type earlier last, call.operation.expects = .message type ∧
      heard = earlier ++ [last] ∧ ∀ message ∈ earlier, C.descriptor message ≠ type
  | .sendError => heard = [] ∧ ∃ packet, Serialized C call packet
  | .authentificationError => call.operation = .sendMessageConnect ∧ ∃ earlier last,
      heard = earlier ++ [last] ∧ (∀ message ∈ earlier, C.descriptor message ≠ .connectResponse) ∧
        C.descriptor last = .connectResponse ∧ C.invalidPassword last = true

/-- `serialize` fails with one code only. -/
theorem code_of_serialize {P : Protobuf M} {message : M} {error : ApiError}
    (h : serialize P message = .error error) : error.code = .serializeError := by
  unfold serialize at h
  split at h
  · exact Except.error.inj h ▸ rfl
  · dsimp only at h
    split at h
    · exact Except.error.inj h ▸ rfl
    · simp at h

/-- So does `send_message`, once it has a packet. -/
theorem code_of_sendMessageResult {packet : Bytes} {written : Except ErrorCode ℕ} {error : ApiError}
    (h : sendMessageResult packet written = .error error) : error.code = .sendError := by
  unfold sendMessageResult at h
  split at h
  · split at h
    · exact Except.error.inj h ▸ rfl
    · simp at h
  · exact Except.error.inj h ▸ rfl

/-- Only the answer to the password is an error. -/
theorem accept_eq_error {C : Messages M} {operation : Operation} {message : M} {error : ApiError}
    (h : operation.accept C message = .error error) :
    operation = .sendMessageConnect ∧ C.invalidPassword message = true ∧
      error.code = .authentificationError := by
  unfold Operation.accept at h
  split at h
  · split at h
    · rename_i hinvalid
      exact ⟨rfl, hinvalid, Except.error.inj h ▸ rfl⟩
    · simp at h
  all_goals simp at h

/-- In every run, the code of an error tells its user how far the call came and what it heard. -/
theorem error_code_tells (h : Reachable (State.step C) State.init s) (task : ℕ)
    {before after : List (Event M)} {call : Call} {error : ApiError}
    (hsplit : eventsOf task s.log = before ++ .returned call (.error error) :: after) :
    Tells C call (heardAfter [] before) error.code := by
  obtain ⟨record, hexplained, hheard⟩ := explained_of_reachable h task hsplit
  rw [← hheard]
  cases hexplained with
  | unserialized hping hrequest hserialize hrecord =>
    rw [code_of_serialize hserialize, hrecord]
    exact ⟨rfl, _, _, hrequest, hserialize⟩
  | unsent hping hpacket hreport hwaits =>
    obtain ⟨written, -, hresult⟩ := Option.map_eq_some_iff.mp hreport
    rw [code_of_sendMessageResult hresult, CallRecord.heard, hwaits]
    exact ⟨rfl, _, hpacket⟩
  | @yields heard result hsent hheard hyields =>
    rw [CallRecord.heard, heard_of_cameInTime hheard]
    unfold Operation.Yields at hyields
    cases hexpects : call.operation.expects with
    | message type =>
      rw [hexpects] at hyields
      obtain ⟨earlier, last, rfl, hearlier, hlast, haccept⟩ := hyields
      obtain ⟨hoperation, hinvalid, hcode⟩ := accept_eq_error haccept.symm
      rw [hoperation] at hexpects
      obtain rfl : MessageType.connectResponse = type := Expectation.message.inj hexpects
      rw [hcode]
      exact ⟨hoperation, earlier, last, rfl, hearlier, hlast, hinvalid⟩
    | nothing | anyMessage | messages => simp [hexpects] at hyields
  | @late type heard waits timer last hsent hexpects hheard hearlier hlast =>
    rw [CallRecord.heard, hlast, List.flatten_append, List.filterMap_append,
      heard_of_cameInTime hheard]
    exact ⟨type, heard, last, hexpects, rfl, hearlier⟩

/-- The code of that error says that the message came and refused the password. -/
theorem error_code_tells_rejected :
    Tells wireClient connectCall (heardAfter [] (eventsOf 0 rejectedState.log))
      .authentificationError :=
  error_code_tells reachable_finishedState 0 eventsOf_finishedState

end EspHomeApi
