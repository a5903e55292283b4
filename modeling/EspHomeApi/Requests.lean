import EspHomeApi.Handshake
import EspHomeApi.Lib.ReadAll
import EspHomeApi.Outgoing

/-!
# What the device reads

A device reads one frame after the other off its TCP connection. As long as no send is followed by
another one after it was cut short, what it reads are the requests of the calls whose packets went
out whole, in the order in which they went out; and a call that needs its request to be sent succeeds
only if its request is one of them.
-/

namespace EspHomeApi

open Run Reader ShortWrite

variable {M : Type} {C : Client M} {s : State M} {connection : ℕ} {log : List (ℕ × Event M)}

/-- The sends that the socket took bytes of, on a connection. -/
def sendsOn (connection : ℕ) (log : List (ℕ × Event M)) : List (Call × Bytes × ℕ) :=
  log.filterMap fun
    | (_, .wrote call other packet count) =>
      if other = connection then some (call, packet, count) else none
    | _ => none

/-- The calls whose packets went out whole on a connection. -/
def requestsOn (connection : ℕ) (log : List (ℕ × Event M)) : List Call :=
  ((sendsOn connection log).filter fun send => send.2.2 = send.2.1.length).map Prod.fst

/-- The type and the body that a frame reader finds are those of the request of the call. -/
def Requests (C : Client M) (call : Call) (found : ℕ × Bytes) : Prop :=
  ∃ message, call.operation.request C = some message ∧
    (C.descriptor message).id = some found.1 ∧ C.encode message = found.2

/-- Without the call, a send is a write. -/
theorem map_sendsOn (connection : ℕ) (log : List (ℕ × Event M)) :
    (sendsOn connection log).map Prod.snd = writesOn connection log := by
  rw [sendsOn, writesOn, List.map_filterMap]
  congr 1
  funext entry
  obtain ⟨task, event⟩ := entry
  cases event with
  | wrote call other packet count =>
    dsimp only
    split
    · rfl
    · rfl
  | _ => rfl

/-- The packets that went out whole. -/
theorem map_requestsOn (connection : ℕ) (log : List (ℕ × Event M)) :
    ((sendsOn connection log).filter fun send => send.2.2 = send.2.1.length).map
        (fun send => send.2.1) = wholeWords (writesOn connection log) := by
  rw [← map_sendsOn, wholeWords, List.filter_map, List.map_map]
  rfl

/-- The zero byte is read on its own. -/
theorem local_readPreamble : Local readPreamble := by
  intro input value rest h
  unfold readPreamble at h
  split at h
  · simp only [Option.some.injEq, Prod.mk.injEq] at h
    obtain ⟨-, rfl⟩ := h
    exact ⟨[0], rfl, fun _ => rfl⟩
  · simp at h

/-- Reading a frame depends on its own bytes only. -/
theorem local_readFrame : Local readFrame :=
  local_readPreamble.andThen fun _ => local_readVarint32.andThen fun size =>
    local_readVarint32.andThen fun _ => (local_takeExactly size).andThen fun _ => local_answer _

/-- Every send on a connection is one of the packet of its call. -/
theorem State.Faithful.serialized (h : s.Faithful C) {send : Call × Bytes × ℕ}
    (hsend : send ∈ sendsOn connection s.log) : Serialized C send.1 send.2.1 := by
  obtain ⟨⟨task, event⟩, hevent, hwrote⟩ := List.mem_filterMap.mp hsend
  obtain ⟨before, after, hsplit⟩ := List.append_of_mem hevent
  have hok := h.log before task event after hsplit
  cases event with
  | wrote call other packet count =>
    simp only at hwrote
    split at hwrote
    · obtain rfl := Option.some.inj hwrote
      exact hok.1
    · simp at hwrote
  | _ => simp at hwrote

/-- What is read from the packet of a call is its request. -/
theorem requests_of_reads {call : Call} {packet : Bytes} {found : ℕ × Bytes}
    (hpacket : Serialized C call packet) (hreads : Reads readFrame packet found) :
    Requests C call found := by
  obtain ⟨message, hrequest, hserialize⟩ := hpacket
  obtain ⟨frame, rfl, hframe⟩ := isFrameOf_of_serialize hserialize
  obtain ⟨-, rfl, -⟩ := frame.reads.append_inj hreads (rfl : frame.bytes ++ [] = _)
  exact ⟨message, hrequest, hframe.id_eq, hframe.body_eq.symm⟩

/-- The values that are read from a framed connection are the requests of the whole packets. -/
theorem forall₂_requests (h : Reachable (State.step C) State.init s) (connection : ℕ)
    (hwhole : ∀ write ∈ (writesOn connection s.log).dropLast, write.2 = write.1.length) :
    List.Forall₂ (Requests C) (requestsOn connection s.log)
      (readAll readFrame (wire connection s.log)) := by
  have hfaithful := State.faithful_of_reachable h
  have hread := readAll_stream local_readFrame rfl hfaithful.legal hwhole
  rw [← map_requestsOn, List.forall₂_map_left_iff] at hread
  rw [requestsOn, List.forall₂_map_left_iff]
  have hserialized : ∀ send ∈ (sendsOn connection s.log).filter
      fun send => send.2.2 = send.2.1.length, Serialized C send.1 send.2.1 :=
    fun send hsend => hfaithful.serialized (List.mem_of_mem_filter hsend)
  refine ((List.forall₂_and_left _ _).mpr ⟨hserialized, hread⟩).imp ?_
  intro send found h
  exact requests_of_reads h.1 h.2

/-- A call whose packet was written whole is among the requests of the connection. -/
theorem mem_requestsOn {task : ℕ} {call : Call} {packet : Bytes}
    (h : (task, .wrote call connection packet packet.length) ∈ log) :
    call ∈ requestsOn connection log := by
  rw [requestsOn, List.mem_map]
  refine ⟨(call, packet, packet.length), ?_, rfl⟩
  rw [List.mem_filter]
  refine ⟨List.mem_filterMap.mpr ⟨_, h, if_pos rfl⟩, by simp⟩

/-- A call that needs its request to be sent has succeeded only if it is among the requests. -/
theorem exists_requestsOn_of_returned (h : Reachable (State.step C) State.init s) {task : ℕ}
    {call : Call} {value : Value M} (hreturned : (task, .returned call (.ok value)) ∈ s.log)
    (hrequires : call.operation.requiresSend = true) :
    ∃ connection, call ∈ requestsOn connection s.log := by
  obtain ⟨before, after, hsplit⟩ := List.append_of_mem hreturned
  obtain ⟨connection, packet, -, hwrote⟩ :=
    (State.faithful_of_reachable h).log before task _ after hsplit hrequires
  have hmem : (task, .wrote call connection packet packet.length) ∈ s.log := by
    rw [hsplit]
    exact List.mem_append_left _ (hwrote.subset List.mem_cons_self)
  exact ⟨connection, mem_requestsOn hmem⟩

/-- In every reachable state in which no send was followed by another one after it was cut short, a
device that reads the frames of a connection one after the other reads the requests of exactly the
calls whose packets went out whole, in that order. The request of every call that has succeeded, and
that needs its request to be sent, is read on one of the connections. -/
theorem device_reads_requests (h : Reachable (State.step C) State.init s)
    (hwhole : ∀ connection, ∀ write ∈ (writesOn connection s.log).dropLast,
      write.2 = write.1.length) :
    (∀ connection, List.Forall₂ (Requests C) (requestsOn connection s.log)
        (readAll readFrame (wire connection s.log))) ∧
      ∀ task call value, (task, .returned call (.ok value)) ∈ s.log →
        call.operation.requiresSend = true →
          ∃ connection, ∃ found ∈ readAll readFrame (wire connection s.log),
            Requests C call found := by
  refine ⟨fun connection => forall₂_requests h connection (hwhole connection), ?_⟩
  intro task call value hreturned hrequires
  obtain ⟨connection, hmem⟩ := exists_requestsOn_of_returned h hreturned hrequires
  have hread := forall₂_requests h connection (hwhole connection)
  obtain ⟨index, hindex, rfl⟩ := List.mem_iff_getElem.mp hmem
  have hlength := hread.length_eq
  refine ⟨connection, _, List.getElem_mem (hlength ▸ hindex), ?_⟩
  exact hread.get hindex (hlength ▸ hindex)

/-- The two requests of an accepted handshake went out whole. -/
theorem whole_acceptedState (connection : ℕ) :
    ∀ write ∈ (writesOn connection acceptedState.log).dropLast, write.2 = write.1.length := by
  cases connection with
  | zero =>
    have hwrites : writesOn 0 acceptedState.log =
        [([0, 8, 1, 10, 6, 99, 112, 112, 97, 112, 105], 11), ([0, 0, 3], 3)] := by rfl
    rw [hwrites]
    decide
  | succ connection =>
    have hnone : writesOn (connection + 1) acceptedState.log = [] := by rfl
    simp [hnone]

/-- The device reads the two requests of the handshake. -/
theorem device_reads_requests_accepted :
    List.Forall₂ (Requests wireClient) [helloCall, connectCall]
      (readAll readFrame (wire 0 acceptedState.log)) :=
  (device_reads_requests ⟨acceptedHandshake, rfl⟩ whole_acceptedState).1 0

end EspHomeApi
