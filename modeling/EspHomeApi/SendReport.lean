import EspHomeApi.Connection
import EspHomeApi.WireMessage

/-!
# What `send_message` reports

`send_message` awaits the send of its packet together with a timer of half a second. Either may
complete first, and the call goes on when both have. What it reports is decided by the completion
that came first alone: the call succeeds when that is a send without an error that took the whole
packet, and in every other case it reports a `SendError`, even if the timer was first and the send
completed in full behind it.
-/

namespace EspHomeApi

variable {M : Type}

/-- A completion of the send, with its error code and the number of bytes taken, or of the timer. -/
abbrev SendCompletion := (ErrorCode × ℕ) ⊕ ErrorCode

/-- Behind a successful `serialize`: the result of the call once the send and the timer have
completed in the given order. -/
def sendPacket (packet : Bytes) (completions : List SendCompletion) : Option (Result Unit) :=
  ((Run.run Race.complete .waiting completions).bind TimedOperation.result?).map
    (sendMessageResult packet)

/-- `ApiConnection::send_message`, given the completions that it sees. -/
def sendMessage (P : Protobuf M) (message : M) (completions : List SendCompletion) :
    Option (Result Unit) :=
  match serialize P message with
  | .ok packet => sendPacket packet completions
  | .error error => some (.error error)

/-- The send and the timer have both completed, in one order or the other. -/
def BothComplete (completions : List SendCompletion) : Prop :=
  ∃ first second, completions = [first, second] ∧ first.isLeft ≠ second.isLeft

/-- The number of bytes that the socket took in the end. -/
def bytesTaken (completions : List SendCompletion) : Option ℕ :=
  completions.findSome? fun
    | .inl completion => some completion.2
    | .inr _ => none

/-- The first completion is a send without an error that took so many bytes. -/
def SentFirst (size : ℕ) (completions : List SendCompletion) : Prop :=
  ∃ error rest, completions = .inl (error, size) :: rest ∧ error.failed = false

/-- `send_message` succeeds exactly when all bytes of the packet were taken. -/
def ReportsSend (packet : Bytes) (completions : List SendCompletion) (result : Result Unit) : Prop :=
  result = .ok () ↔ bytesTaken completions = some packet.length

/-- The call goes on when both have completed, with the completion that came first. -/
theorem sendPacket_eq_some_iff (packet : Bytes) (completions : List SendCompletion)
    (result : Result Unit) :
    sendPacket packet completions = some result ↔
      ∃ first second, completions = [first, second] ∧ first.isLeft ≠ second.isLeft ∧
        result = sendMessageResult packet (flatten first) := by
  constructor
  · intro h
    obtain ⟨written, hwritten, rfl⟩ := Option.map_eq_some_iff.mp h
    obtain ⟨race, hrun, hresult⟩ := Option.bind_eq_some_iff.mp hwritten
    obtain ⟨first, hfirst, rfl⟩ := Option.map_eq_some_iff.mp hresult
    obtain ⟨second, rfl, hside⟩ := Race.completions_of_result? hrun hfirst
    exact ⟨first, second, rfl, hside, rfl⟩
  · intro ⟨first, second, hpair, hside, hresult⟩
    obtain ⟨race, hfirst, -, hother⟩ := Race.complete_waiting first
    obtain ⟨finished, hfinished, hfinishedResult, -⟩ := (hother second).1 hside
    rw [hpair, hresult, sendPacket, Run.run, hfirst, Option.bind_some, Run.run, hfinished,
      Option.bind_some, Run.run, Option.bind_some, TimedOperation.result?, hfinishedResult]
    rfl

/-- A coroutine of the connection that is suspended in a send goes on with the same result. -/
theorem resume_sending (C : Client M) (s : State M) (task : ℕ) (call : Call) (packet : Bytes)
    (connection : Option ℕ) (race : TimedOperation ℕ) (completions : List SendCompletion)
    (htask : s.tasks task = .sending call packet connection race)
    (hrace : Run.run Race.complete .waiting completions = some race) :
    s.resume C task = (sendPacket packet completions).map fun result =>
      s.move C task (afterSend C s.stopRequested s.socket.connection? call result) := by
  rw [State.resume, htask, sendPacket, hrace, Option.bind_some, Option.map_map]
  rfl

/-- The result of a first completion: success for a whole packet, and a `SendError` otherwise. -/
theorem sendMessageResult_flatten (packet : Bytes) (first : SendCompletion) :
    (sendMessageResult packet (flatten first) = .ok () ↔
        ∃ error : ErrorCode, first = .inl (error, packet.length) ∧ error.failed = false) ∧
      ∀ error, sendMessageResult packet (flatten first) = .error error →
        error.code = .sendError := by
  cases first with
  | inr timer => simp [flatten, mapTimer, sendMessageResult, makeUnexpectedResult]
  | inl completion =>
    obtain ⟨error, count⟩ := completion
    by_cases hfailed : error.failed = true
    · simp [flatten, mapValue, hfailed, sendMessageResult, makeUnexpectedResult]
    · by_cases hcount : count = packet.length
      · simp [flatten, mapValue, hfailed, sendMessageResult, hcount]
      · simp [flatten, mapValue, hfailed, sendMessageResult, hcount, makeUnexpectedResult]

/-- Once the send and the timer have completed, `send_message` returns. It succeeds exactly when
the send completed before the timer, without an error and with the whole packet; all bytes were
taken then. In every other case it reports a `SendError`. -/
theorem sendMessage_reports (P : Protobuf M) (message : M) (packet : Bytes)
    (completions : List SendCompletion) (hpacket : serialize P message = .ok packet)
    (hboth : BothComplete completions) :
    ∃ result, sendMessage P message completions = some result ∧
      (result = .ok () ↔ SentFirst packet.length completions) ∧
      (result = .ok () → bytesTaken completions = some packet.length) ∧
      ∀ error, result = .error error → error.code = .sendError := by
  obtain ⟨first, second, rfl, hside⟩ := hboth
  obtain ⟨hsuccess, hcode⟩ := sendMessageResult_flatten packet first
  refine ⟨sendMessageResult packet (flatten first), ?_, ?_, fun hok => ?_, hcode⟩
  · rw [sendMessage, hpacket]
    exact (sendPacket_eq_some_iff packet _ _).mpr ⟨first, second, rfl, hside, rfl⟩
  · rw [hsuccess]
    constructor
    · intro ⟨error, hfirst, hfailed⟩
      exact ⟨error, [second], by rw [hfirst], hfailed⟩
    · intro ⟨error, rest, hfirst, hfailed⟩
      exact ⟨error, (List.cons.inj hfirst).1, hfailed⟩
  · obtain ⟨error, rfl, -⟩ := hsuccess.mp hok
    rfl

/-- A PingRequest whose send is over before its timer is cancelled. -/
theorem sendMessage_reports_ping :
    ∃ result, sendMessage wireProtobuf ⟨.pingRequest, []⟩
        [.inl (.success, 3), .inr .operationAborted] = some result ∧ result = .ok () := by
  obtain ⟨result, hresult, hsuccess, -, -⟩ :=
    sendMessage_reports wireProtobuf ⟨.pingRequest, []⟩ [0, 0, 7]
      [.inl (.success, 3), .inr .operationAborted] (by rfl) ⟨_, _, rfl, by decide⟩
  exact ⟨result, hresult, hsuccess.mpr ⟨.success, _, rfl, rfl⟩⟩

/-- The timer completes first, and the cancelled send has already taken the whole packet. -/
theorem not_reportsSend_timer_first :
    serialize wireProtobuf ⟨.pingRequest, []⟩ = .ok [0, 0, 7] ∧
      ∃ result, sendMessage wireProtobuf ⟨.pingRequest, []⟩
          [.inr .success, .inl (.success, 3)] = some result ∧
        ¬ ReportsSend [0, 0, 7] [.inr .success, .inl (.success, 3)] result := by
  refine ⟨by rfl, sendMessageResult [0, 0, 7] (.error .success), by rfl, fun h => ?_⟩
  have hok := h.mpr rfl
  simp [sendMessageResult, makeUnexpectedResult] at hok

end EspHomeApi
