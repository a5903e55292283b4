import EspHomeApi.History
import EspHomeApi.Lib.ShortWrite
import EspHomeApi.WireClient

/-!
# The outgoing stream

Every packet is a frame, and a send that stops short leaves an unfinished frame on the wire. A
failed send does not close the connection, so the next one goes on right behind it.
-/

namespace EspHomeApi

open Run Reader ShortWrite

variable {M : Type} {C : Client M} {s : State M} {connection : ℕ} {log : List (ℕ × Event M)}

/-- The packets that went out on a connection, each with the number of bytes that were taken. -/
def writesOn (connection : ℕ) (log : List (ℕ × Event M)) : List (Bytes × ℕ) :=
  log.filterMap fun
    | (_, .wrote _ other packet count) => if other = connection then some (packet, count) else none
    | _ => none

/-- The bytes that went out on a connection. -/
def wire (connection : ℕ) (log : List (ℕ × Event M)) : Bytes := stream (writesOn connection log)

/-- The bytes are the beginning of a frame, but not all of it. -/
def UnfinishedFrame (part : Bytes) : Prop :=
  ∃ frame : Frame, part <+: frame.bytes ∧ part ≠ frame.bytes

/-- At every moment of the history, the bytes on the wire are complete frames, up to an unfinished
one behind which nothing is written any more. -/
def OutgoingFramed (connection : ℕ) (log : List (ℕ × Event M)) : Prop :=
  ∀ before after, log = before ++ after →
    ∃ frames part, wire connection before = framesBytes frames ++ part ∧
      (part = [] ∨ UnfinishedFrame part ∧ wire connection after = [])

/-- Words of the frame reader are frames. -/
theorem exists_framesBytes {words : List Bytes} (h : ∀ word ∈ words, IsWord readFrame word) :
    ∃ frames, framesBytes frames = words.flatten := by
  induction words with
  | nil => exact ⟨[], rfl⟩
  | cons word words ih =>
    obtain ⟨frame, rfl⟩ := exists_frame_of_isWord (h word List.mem_cons_self)
    obtain ⟨frames, hframes⟩ := ih fun other hother => h other (List.mem_cons_of_mem _ hother)
    exact ⟨frame :: frames, by rw [framesBytes_cons, hframes, List.flatten_cons]⟩

/-- An unfinished word of the frame reader is an unfinished frame. -/
theorem unfinished_iff {part : Bytes} : Unfinished readFrame part ↔ UnfinishedFrame part := by
  constructor
  · rintro ⟨word, hword, hpre, hne⟩
    obtain ⟨frame, rfl⟩ := exists_frame_of_isWord hword
    exact ⟨frame, hpre, hne⟩
  · rintro ⟨frame, hpre, hne⟩
    exact ⟨frame.bytes, frame.isWord, hpre, hne⟩

/-- A stream is framed by words of the frame reader when it is framed by frames. -/
theorem framedBefore_iff {now later : Bytes} : FramedBefore readFrame now later ↔
    ∃ frames part, now = framesBytes frames ++ part ∧
      (part = [] ∨ UnfinishedFrame part ∧ later = []) := by
  constructor
  · rintro ⟨words, part, rfl, hwords, hpart⟩
    obtain ⟨frames, hframes⟩ := exists_framesBytes hwords
    rw [unfinished_iff] at hpart
    exact ⟨frames, part, by rw [hframes], hpart⟩
  · rintro ⟨frames, part, rfl, hpart⟩
    rw [← unfinished_iff] at hpart
    refine ⟨frames.map Frame.bytes, part, ?_, ?_, hpart⟩
    · rw [framesBytes, List.flatMap_def]
    · intro word hword
      obtain ⟨frame, -, rfl⟩ := List.mem_map.mp hword
      exact frame.isWord

/-- The moments of a history are those of the writes in it. -/
theorem framedAlways_writesOn_iff :
    FramedAlways readFrame (writesOn connection log) ↔ OutgoingFramed connection log := by
  constructor
  · intro h before after hsplit
    apply framedBefore_iff.mp
    apply h
    rw [hsplit, writesOn, List.filterMap_append]
    rfl
  · intro h earlier later hsplit
    obtain ⟨before, after, hlog, rfl, rfl⟩ := List.filterMap_eq_append_iff.mp hsplit
    exact framedBefore_iff.mpr (h before after hlog)

/-- Every packet that went out is a frame, and something was taken of it. -/
theorem State.Faithful.legal (h : s.Faithful C) :
    ∀ write ∈ writesOn connection s.log, Legal readFrame write := by
  intro write hwrite
  obtain ⟨⟨task, event⟩, hevent, hwrote⟩ := List.mem_filterMap.mp hwrite
  obtain ⟨before, after, hsplit⟩ := List.append_of_mem hevent
  have hok := h.log before task event after hsplit
  cases event with
  | wrote call other packet count =>
    simp only at hwrote
    split at hwrote
    · obtain rfl := Option.some.inj hwrote
      obtain ⟨⟨message, -, hpacket⟩, hpos, hle, -⟩ := hok
      obtain ⟨frame, rfl, -⟩ := serialize_eq_ok hpacket
      exact ⟨frame.isWord, hpos, hle⟩
    · simp at hwrote
  | _ => simp at hwrote

/-- After every run, the outgoing stream of a connection was framed at every moment exactly when
every send on it that took bytes, up to the last one, took its whole packet. -/
theorem outgoingFramed_iff (h : Reachable (State.step C) State.init s) (connection : ℕ) :
    OutgoingFramed connection s.log ↔
      ∀ write ∈ (writesOn connection s.log).dropLast, write.2 = write.1.length := by
  rw [← framedAlways_writesOn_iff]
  exact framedAlways_iff (State.faithful_of_reachable h).legal

/-- The socket takes five of the eleven bytes of the HelloRequest, `connect` returns an error, and
the heartbeat writes its PingRequest. -/
def shortHello : List Action :=
  [.connect, .resolved 0 (.ok ()), .connected 0 (.ok ()), .sent 0 .success 5,
    .expired 0 .operationAborted, .resume 0, .woken 2, .sent 2 .success 3]

/-- The state after that run. -/
def shortHelloState : State WireMessage :=
  (run (State.step wireClient) State.init shortHello).getD State.init

/-- That state can be reached. -/
theorem reachable_shortHelloState :
    Reachable (State.step wireClient) State.init shortHelloState := ⟨shortHello, rfl⟩

/-- The writes of that run, the first of them cut short. -/
theorem writesOn_shortHelloState : writesOn 0 shortHelloState.log =
    [([0, 8, 1, 10, 6, 99, 112, 112, 97, 112, 105], 5), ([0, 0, 7], 3)] := by
  rfl

/-- The outgoing stream of the run was not framed at every moment. -/
theorem outgoingFramed_iff_shortHello : ¬ OutgoingFramed 0 shortHelloState.log := by
  rw [outgoingFramed_iff reachable_shortHelloState, writesOn_shortHelloState]
  decide

/-- The outgoing stream is not always framed: a PingRequest follows five bytes of a HelloRequest. -/
theorem not_outgoingFramed_shortHello :
    ¬ ∀ s : State WireMessage, Reachable (State.step wireClient) State.init s →
      ∀ connection, OutgoingFramed connection s.log := by
  intro h
  have hframed := framedAlways_writesOn_iff.mpr (h _ reachable_shortHelloState 0)
  have hwhole := hframed.whole (State.faithful_of_reachable reachable_shortHelloState).legal
    [([0, 8, 1, 10, 6, 99, 112, 112, 97, 112, 105], 5)] writesOn_shortHelloState (by simp)
  simp at hwhole

end EspHomeApi
