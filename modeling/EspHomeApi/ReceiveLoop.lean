import EspHomeApi.DecodeLoop
import EspHomeApi.Net

/-!
# The receiving loop

Every chunk that `receiveFrom` returns is decoded on its own, its bytes being the whole
input of `decode_multiple`, and the result of the decoding is dropped.
-/

namespace EspHomeApi

variable {M : Type} {P : Protobuf M}

/-- The size of the buffer that chunks are received into. -/
def receiveBufferSize : ℕ := 4096

/-- `receive_loop` against the outcomes of its successive receives: the messages that it
dispatches. It goes on after a chunk that could not be decoded, and ends when a receive fails. -/
def receiveLoop (P : Protobuf M) : List (Except ErrorCode Bytes) → List M
  | [] => []
  | .error _ :: _ => []
  | .ok chunk :: received => (decodeMultiple P receiveLoopTypes chunk).1 ++ receiveLoop P received

/-- The chunks are a way of receiving the stream. -/
structure Cutting (stream : Bytes) (chunks : List Bytes) : Prop where
  flatten_eq : chunks.flatten = stream
  ne_nil : ∀ chunk ∈ chunks, chunk ≠ []
  length_le : ∀ chunk ∈ chunks, chunk.length ≤ receiveBufferSize

/-- What the loop dispatches when every receive succeeds. -/
def dispatchedFrom (P : Protobuf M) (chunks : List Bytes) : List M :=
  receiveLoop P (chunks.map .ok)

/-- Starting at an offset in the received bytes, the loop of `decode_multiple` comes to the head of
an iteration at another offset, with the stream that is left there. -/
inductive ComesTo (P : Protobuf M) (offset : ℕ) (stream : Bytes) : ℕ → Bytes → Prop
  | here : ComesTo P offset stream offset stream
  | again {left rest : Bytes} {next : ℕ} {call : Option M} :
    ComesTo P offset stream next left →
    iteration P receiveLoopTypes left = .again call rest →
    ComesTo P offset stream (next + (left.length - rest.length)) rest

/-- What comes after the first iteration is reached from where that iteration goes on. -/
theorem ComesTo.cases_step {offset next : ℕ} {stream rest left : Bytes} {call : Option M}
    (h : ComesTo P offset stream next left)
    (hstep : iteration P receiveLoopTypes stream = .again call rest) :
    (next = offset ∧ left = stream) ∨
      ComesTo P (offset + (stream.length - rest.length)) rest next left := by
  induction h with
  | here => exact Or.inl ⟨rfl, rfl⟩
  | again hcomes hiteration ih =>
    rcases ih with ⟨rfl, rfl⟩ | hlater
    · rw [hiteration] at hstep
      simp only [Iteration.again.injEq] at hstep
      rw [hstep.2]
      exact Or.inr .here
    · exact Or.inr (hlater.again hiteration)

/-- An error ends the loop where it stands. -/
theorem ComesTo.eq_of_stop {offset next : ℕ} {stream left : Bytes} {error : ApiError}
    (h : ComesTo P offset stream next left)
    (hstop : iteration P receiveLoopTypes stream = .stop error) :
    next = offset ∧ left = stream := by
  induction h with
  | here => exact ⟨rfl, rfl⟩
  | again hcomes hiteration ih =>
    obtain ⟨rfl, rfl⟩ := ih
    rw [hstop] at hiteration
    simp at hiteration

/-- The loop comes to whatever it comes to after its first iteration. -/
theorem ComesTo.of_step {offset next : ℕ} {stream rest left : Bytes} {call : Option M}
    (hstep : iteration P receiveLoopTypes stream = .again call rest)
    (h : ComesTo P (offset + (stream.length - rest.length)) rest next left) :
    ComesTo P offset stream next left := by
  induction h with
  | here => exact ComesTo.here.again hstep
  | again hcomes hiteration ih => exact ih.again hiteration

/-- The loop never leaves the chunk. -/
theorem ComesTo.suffix (hP : P.Documented) {offset next : ℕ} {stream left : Bytes}
    (h : ComesTo P offset stream next left) : left <:+ stream := by
  induction h with
  | here => exact List.suffix_refl _
  | again hcomes hiteration ih => exact (iteration_suffix hP hiteration).trans ih

/-- The messages handed over are those of the iterations that the loop comes to. -/
theorem exists_comesTo_of_mem_decode (hP : P.Documented) (offset : ℕ) {stream : Bytes}
    {message : M} (h : message ∈ (decode P receiveLoopTypes stream).1) :
    ∃ next left rest, ComesTo P offset stream next left ∧
      iteration P receiveLoopTypes left = .again (some message) rest := by
  induction hlength : stream.length using Nat.strong_induction_on generalizing stream offset with
  | _ length ih =>
    subst hlength
    cases stream with
    | nil => simp [decode_nil] at h
    | cons byte stream =>
      cases hstep : iteration P receiveLoopTypes (byte :: stream) with
      | stop error =>
        rw [decode_stop (List.cons_ne_nil byte stream) hstep] at h
        simp at h
      | again call rest =>
        rw [decode_again hP hstep] at h
        rcases List.mem_append.mp h with hcall | hlater
        · obtain rfl := Option.mem_toList.mp hcall
          exact ⟨offset, _, rest, .here, hstep⟩
        · have hshorter := iteration_length hP hstep
          obtain ⟨next, left, behind, hcomes, hiteration⟩ :=
            ih rest.length (by omega) (offset + ((byte :: stream).length - rest.length)) hlater rfl
          exact ⟨next, left, behind, hcomes.of_step hstep, hiteration⟩

/-- A message dispatched is handed over from one of the chunks. -/
theorem mem_dispatchedFrom {message : M} {chunks : List Bytes} :
    message ∈ dispatchedFrom P chunks ↔
      ∃ chunk ∈ chunks, message ∈ (decodeMultiple P receiveLoopTypes chunk).1 := by
  induction chunks with
  | nil => simp [dispatchedFrom, receiveLoop]
  | cons chunk chunks ih =>
    have hcons : dispatchedFrom P (chunk :: chunks) =
        (decodeMultiple P receiveLoopTypes chunk).1 ++ dispatchedFrom P chunks := rfl
    rw [hcons, List.mem_append, ih]
    simp only [List.mem_cons, exists_eq_or_imp]

/-- A chunk of less than three bytes is rejected. -/
theorem decodeMultiple_short {types : List MessageType} {data : Bytes} (h : data.length < 3) :
    (decodeMultiple P types data).1 = [] := by
  rw [decodeMultiple, if_pos h]

/-- A received chunk of at least three bytes is decoded by the loop. -/
theorem Cutting.decodeMultiple_eq {stream chunk : Bytes} {chunks : List Bytes}
    (h : Cutting stream chunks) (hchunk : chunk ∈ chunks) (hmin : 3 ≤ chunk.length)
    (types : List MessageType) : decodeMultiple P types chunk = decode P types chunk := by
  have hle := h.length_le chunk hchunk
  rw [receiveBufferSize] at hle
  exact EspHomeApi.decodeMultiple_eq hmin (by omega)

end EspHomeApi
