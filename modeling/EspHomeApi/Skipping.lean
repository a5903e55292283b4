import EspHomeApi.DecodeLoop
import EspHomeApi.WireMessage

/-!
# Frames that are passed over

A complete frame of an unaccepted type leaves the loop where it would be if the chunk began
behind the frame: no message is handed over, and the stream behind the frame is the whole
state of the loop. Frames of this kind in front of a chunk therefore change neither the
messages handed over nor the result, whatever the rest of the chunk holds.
-/

namespace EspHomeApi

variable {M : Type} {P : Protobuf M} {types : List MessageType}

/-- No frame of the list is of an accepted type. -/
def Unaccepted (types : List MessageType) (frames : List Frame) : Prop :=
  ∀ frame ∈ frames, isAccepted types frame.messageType = false

instance (frames : List Frame) : Decidable (Unaccepted types frames) :=
  inferInstanceAs (Decidable (∀ frame ∈ frames, _))

/-- Behind any number of unaccepted frames the loop is in the state it starts the rest in. -/
theorem decode_frames_append (hP : P.Documented) (frames : List Frame) (rest : Bytes)
    (hskip : Unaccepted types frames) (hlimit : (framesBytes frames ++ rest).length < 2 ^ 31) :
    decode P types (framesBytes frames ++ rest) = decode P types rest := by
  induction frames with
  | nil => rfl
  | cons frame frames ih =>
    rw [framesBytes_cons, List.append_assoc] at hlimit ⊢
    have hbody : frame.body.length ≤ frame.bytes.length := by
      simp only [Frame.bytes, List.length_cons, List.length_append]
      omega
    rw [List.length_append] at hlimit
    rw [decode_frame_append hP frame _ (by omega) (hskip frame List.mem_cons_self)]
    apply ih
    · intro later hlater
      exact hskip later (List.mem_cons_of_mem frame hlater)
    · omega

/-- Complete frames of unaccepted types in front of a chunk change nothing in what
`decode_multiple` does with it. -/
theorem decodeMultiple_frames_append (hP : P.Documented) (types : List MessageType)
    (frames : List Frame) (rest : Bytes) (hskip : Unaccepted types frames)
    (hmin : 3 ≤ rest.length) (hlimit : (framesBytes frames ++ rest).length < 2 ^ 31) :
    decodeMultiple P types (framesBytes frames ++ rest) = decodeMultiple P types rest := by
  have hlength : (framesBytes frames ++ rest).length = (framesBytes frames).length + rest.length :=
    List.length_append
  rw [decodeMultiple_eq (by omega) hlimit, decodeMultiple_eq hmin (by omega)]
  exact decode_frames_append hP frames rest hskip hlimit

/-- A PingRequest whose size has a needless byte and whose body looks like a HelloResponse, in
front of a chunk with a wrong preamble. -/
theorem decodeMultiple_frames_append_ping :
    decodeMultiple wireProtobuf receiveLoopTypes [0, 136, 0, 7, 0, 5, 2, 34, 3, 101, 115, 112, 1, 0, 0] =
      decodeMultiple wireProtobuf receiveLoopTypes [1, 0, 0] :=
  decodeMultiple_frames_append wireProtobuf_documented receiveLoopTypes
    [⟨[136, 0], [7], helloPacket, 7, fun _ => rfl, fun _ => rfl⟩] [1, 0, 0]
    (by decide +kernel) (by decide) (by decide)

end EspHomeApi
