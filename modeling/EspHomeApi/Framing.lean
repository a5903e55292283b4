import EspHomeApi.DecodeLoop
import EspHomeApi.WireMessage

/-!
# When success means well framed

While the loop passes whole frames, one in each iteration, it arrives at frame boundaries.
What it reports as success is a concatenation of frames as long as every header read at such
a boundary is exact: one zero byte in front, the size of an unaccepted frame inside the
chunk, and the parse of an accepted frame ending at its declared size. A cut-off frame of an
unaccepted type is never exact and always reported as success, since the result of the skip
is not looked at.
-/

namespace EspHomeApi

open Reader

variable {M : Type} {P : Protobuf M} {types : List MessageType}

/-- The loop passes whole frames, one in each iteration, up to the given rest of the chunk. -/
inductive ArrivesAt (P : Protobuf M) (types : List MessageType) : Bytes → Bytes → Prop
  | here (stream : Bytes) : ArrivesAt P types stream stream
  | frame (frame : Frame) {rest target : Bytes} {call : Option M}
      (hstep : iteration P types (frame.bytes ++ rest) = .again call rest)
      (hrest : ArrivesAt P types rest target) : ArrivesAt P types (frame.bytes ++ rest) target

/-- A header read here stands behind a single zero byte, and what the iteration consumes behind
it is its declared size. -/
def ExactAt (P : Protobuf M) (types : List MessageType) (stream : Bytes) : Prop :=
  ∀ header body, readHeader stream = .ok (header, body) →
    stream.head? = some 0 ∧
      (isAccepted types header.messageType = false → header.messageSize ≤ body.length) ∧
      (isAccepted types header.messageType = true → header.messageSize ≤ body.length →
        ∀ message left, parseAnyAndInvoke P types body header.messageType = (some message, left) →
          left = body.drop header.messageSize)

/-- Every header that the loop reads at a frame boundary is exact. -/
def ExactFrames (P : Protobuf M) (types : List MessageType) (buffer : Bytes) : Prop :=
  ∀ stream, ArrivesAt P types buffer stream → ExactAt P types stream

/-- A frame of an unaccepted type whose body goes beyond the end of the chunk. -/
def CutOffSkip (types : List MessageType) (stream : Bytes) : Prop :=
  ∃ header body, readHeader stream = .ok (header, body) ∧
    isAccepted types header.messageType = false ∧ body.length < header.messageSize ∧
    header.messageSize < 2 ^ 31

/-- The loop never arrives at more bytes than it started with. -/
theorem ArrivesAt.length_le {buffer stream : Bytes} (h : ArrivesAt P types buffer stream) :
    stream.length ≤ buffer.length := by
  induction h with
  | here stream => exact le_rfl
  | frame frame _ _ ih =>
    rw [List.length_append]
    omega

/-- The frames passed on the way to a boundary. -/
theorem ArrivesAt.exists_frames {buffer stream : Bytes} (h : ArrivesAt P types buffer stream) :
    ∃ frames, buffer = framesBytes frames ++ stream := by
  induction h with
  | here stream => exact ⟨[], rfl⟩
  | frame frame _ _ ih =>
    obtain ⟨frames, rfl⟩ := ih
    exact ⟨frame :: frames, by rw [framesBytes_cons, List.append_assoc]⟩

/-- The loop goes on at every boundary it arrives at, so the results agree. -/
theorem ArrivesAt.decode_result (hP : P.Documented) {buffer stream : Bytes}
    (h : ArrivesAt P types buffer stream) :
    (decode P types buffer).2 = (decode P types stream).2 := by
  induction h with
  | here stream => rfl
  | frame frame hstep _ ih =>
    rw [decode_again hP hstep]
    exact ih

/-- Frames in front of a boundary are the first frames of a well framed buffer. -/
theorem framesBytes_of_append {frames whole : List Frame} {stream : Bytes}
    (h : framesBytes frames ++ stream = framesBytes whole) :
    ∃ rest, stream = framesBytes rest := by
  induction frames generalizing whole with
  | nil => exact ⟨whole, h⟩
  | cons frame frames ih =>
    rw [framesBytes_cons, List.append_assoc] at h
    cases whole with
    | nil => simp [Frame.bytes] at h
    | cons first whole =>
      rw [framesBytes_cons] at h
      exact ih (frame.reads.append_inj first.reads h).2.2

/-- Where an exact header reads and the loop goes on, it passes a whole frame. -/
theorem iteration_exact {stream body : Bytes} {header : Header}
    (hlimit : stream.length < 2 ^ 31) (hexact : ExactAt P types stream)
    (hheader : readHeader stream = .ok (header, body)) {call : Option M} {left : Bytes}
    (hstep : iteration P types stream = .again call left) :
    ∃ frame : Frame, stream = frame.bytes ++ left := by
  obtain ⟨hzero, hskip, hparse⟩ := hexact header body hheader
  have hbody := readHeader_length hheader
  rw [iteration, hheader] at hstep
  simp only [decodeBody] at hstep
  have hleft : left = body.drop header.messageSize ∧ header.messageSize ≤ body.length := by
    split at hstep
    · rename_i haccepted
      have hsize := hskip (by simpa using haccepted)
      rw [skip_of_le (by omega) hsize] at hstep
      simp only [Iteration.again.injEq] at hstep
      exact ⟨hstep.2.symm, hsize⟩
    · rename_i haccepted
      split at hstep
      · simp at hstep
      · rename_i hsize
        rw [bytesUntilLimit, not_lt] at hsize
        split at hstep
        · rename_i message rest hresult
          simp only [Iteration.again.injEq] at hstep
          have hdrop := hparse (by simpa using haccepted) hsize message rest hresult
          exact ⟨hstep.2 ▸ hdrop, hsize⟩
        · simp at hstep
  cases stream with
  | nil => simp at hzero
  | cons byte stream =>
    simp only [List.head?_cons, Option.some.injEq] at hzero
    subst hzero
    obtain ⟨frame, hframe, -, -⟩ := exists_frame_of_readHeader hheader hleft.2
    exact ⟨frame, by rw [hframe, hleft.1]⟩

/-- Success of the loop over exact headers means that the stream is cut into frames. -/
theorem framesBytes_of_decode (hP : P.Documented) (stream : Bytes) (hlimit : stream.length < 2 ^ 31)
    (hexact : ExactFrames P types stream) (hok : (decode P types stream).2 = .ok ()) :
    ∃ frames, stream = framesBytes frames := by
  induction hlength : stream.length using Nat.strong_induction_on generalizing stream with
  | _ length ih =>
    by_cases hne : stream = []
    · exact ⟨[], hne⟩
    · cases hheader : readHeader stream with
      | error error =>
        rw [decode_of_header_error hne hheader] at hok
        simp at hok
      | ok read =>
        obtain ⟨header, body⟩ := read
        cases hstep : iteration P types stream with
        | stop error =>
          rw [decode_stop hne hstep] at hok
          simp at hok
        | again call left =>
          have hshorter := iteration_length hP hstep
          rw [decode_again hP hstep] at hok
          obtain ⟨frame, rfl⟩ :=
            iteration_exact hlimit (hexact stream (.here stream)) hheader hstep
          have hrest : ExactFrames P types left := fun target htarget =>
            hexact target (.frame frame hstep htarget)
          obtain ⟨frames, rfl⟩ := ih left.length (by omega) left (by omega) hrest hok rfl
          exact ⟨frame :: frames, by rw [framesBytes_cons]⟩

/-- A cut-off frame of an unaccepted type ends the loop with success. -/
theorem decode_cutOffSkip (hP : P.Documented) {stream : Bytes} (h : CutOffSkip types stream) :
    (decode P types stream).2 = .ok () := by
  obtain ⟨header, body, hheader, haccepted, hsize, hmax⟩ := h
  have hskip : (skip body (staticCastInt header.messageSize)).2 = [] := by
    rw [staticCastInt_of_lt hmax, skip, if_neg (by omega), bytesUntilLimit, if_neg (by omega)]
  have hstep : iteration P types stream = .again none [] := by
    rw [iteration, hheader]
    simp only [decodeBody, haccepted, Bool.false_eq_true, not_false_eq_true, if_true, hskip]
  rw [decode_again hP hstep, decode_nil]
  rfl

/-- A cut-off frame does not start a concatenation of frames. -/
theorem CutOffSkip.ne_framesBytes {stream : Bytes} (h : CutOffSkip types stream)
    (frames : List Frame) : stream ≠ framesBytes frames := by
  obtain ⟨header, body, hheader, -, hsize, -⟩ := h
  rintro rfl
  cases frames with
  | nil =>
    have hlength := readHeader_length hheader
    simp at hlength
  | cons frame frames =>
    rw [framesBytes_cons, readHeader_frame] at hheader
    simp only [Except.ok.injEq, Prod.mk.injEq] at hheader
    obtain ⟨rfl, rfl⟩ := hheader
    simp only [List.length_append] at hsize
    omega

/-- Success means well framed when every header that the loop reads at a frame boundary is exact.
It does not when the loop arrives at a cut-off frame of an unaccepted type. -/
theorem decodeMultiple_wellFramed (hP : P.Documented) (types : List MessageType) (buffer : Bytes)
    (hlimit : buffer.length < 2 ^ 31) :
    (ExactFrames P types buffer →
      (decodeMultiple P types buffer).2 = .ok () → WellFramed buffer) ∧
    (((decodeMultiple P types buffer).2 = .ok () → WellFramed buffer) →
      ∀ stream, ArrivesAt P types buffer stream → ¬ CutOffSkip types stream) := by
  constructor
  · intro hexact hok
    by_cases hmin : 3 ≤ buffer.length
    · rw [decodeMultiple_eq hmin hlimit] at hok
      obtain ⟨frames, rfl⟩ := framesBytes_of_decode hP buffer hlimit hexact hok
      refine ⟨frames, ?_, rfl⟩
      rintro rfl
      simp at hmin
    · rw [decodeMultiple, if_pos (by omega)] at hok
      simp [makeUnexpectedResult] at hok
  · intro hframed stream harrives hcut
    have hmin : 3 ≤ buffer.length := by
      obtain ⟨header, body, hheader, -⟩ := id hcut
      have hlength := readHeader_length hheader
      have hle := harrives.length_le
      omega
    rw [decodeMultiple_eq hmin hlimit, harrives.decode_result hP] at hframed
    obtain ⟨whole, -, hwhole⟩ := hframed (decode_cutOffSkip hP hcut)
    obtain ⟨frames, hframes⟩ := harrives.exists_frames
    rw [hframes] at hwhole
    obtain ⟨rest, hrest⟩ := framesBytes_of_append hwhole
    exact hcut.ne_framesBytes rest hrest

/-- The loop arrives at nothing else from the end of the chunk. -/
theorem ArrivesAt.eq_nil {stream : Bytes} (h : ArrivesAt P types [] stream) : stream = [] := by
  have hlength := h.length_le
  exact List.eq_nil_of_length_eq_zero (by simpa using hlength)

/-- The loop arrives where it stands or where its next iteration goes on. -/
theorem ArrivesAt.cases_step {buffer left stream : Bytes} {call : Option M}
    (h : ArrivesAt P types buffer stream) (hstep : iteration P types buffer = .again call left) :
    stream = buffer ∨ ArrivesAt P types left stream := by
  cases h with
  | here => exact Or.inl rfl
  | frame frame hframe hrest =>
    rw [hframe] at hstep
    simp only [Iteration.again.injEq] at hstep
    exact Or.inr (hstep.2 ▸ hrest)

/-- There is no header to be exact at the end of the chunk. -/
theorem exactFrames_nil : ExactFrames P types [] := by
  intro stream hstream header body hheader
  rw [hstream.eq_nil] at hheader
  simp [readHeader, readVarint32_nil, makeUnexpectedResult] at hheader

/-- An exact header in front of exact ones. -/
theorem ExactFrames.cons {buffer left : Bytes} {call : Option M} (h : ExactFrames P types left)
    (hstep : iteration P types buffer = .again call left) (hexact : ExactAt P types buffer) :
    ExactFrames P types buffer := by
  intro stream hstream
  rcases hstream.cases_step hstep with rfl | hlater
  · exact hexact
  · exact h stream hlater

/-- The header of an unaccepted frame inside the chunk is exact. -/
theorem exactAt_of_skipped {stream body : Bytes} {header : Header}
    (hread : readHeader stream = .ok (header, body)) (hpreamble : stream.head? = some 0)
    (hskip : isAccepted types header.messageType = false)
    (hsize : header.messageSize ≤ body.length) : ExactAt P types stream := by
  intro other rest hother
  rw [hread] at hother
  obtain ⟨rfl, rfl⟩ := Prod.mk.inj (Except.ok.inj hother)
  refine ⟨hpreamble, fun _ => hsize, fun haccepted => ?_⟩
  rw [hskip] at haccepted
  nomatch haccepted

/-- The header of an accepted frame whose parse ends at the declared size is exact. -/
theorem exactAt_of_parsed {stream body : Bytes} {header : Header} {message : M}
    (hread : readHeader stream = .ok (header, body)) (hpreamble : stream.head? = some 0)
    (haccepted : isAccepted types header.messageType = true)
    (hparse : parseAnyAndInvoke P types body header.messageType =
      (some message, body.drop header.messageSize)) : ExactAt P types stream := by
  intro other rest hother
  rw [hread] at hother
  obtain ⟨rfl, rfl⟩ := Prod.mk.inj (Except.ok.inj hother)
  refine ⟨hpreamble, fun hskip => ?_, fun _ _ parsed left hparsed => ?_⟩
  · rw [haccepted] at hskip
    nomatch hskip
  · rw [hparse] at hparsed
    exact (congrArg Prod.snd hparsed).symm

/-- A PingRequest, which is not accepted, in front of a HelloResponse is exact, so well framed. -/
theorem decodeMultiple_wellFramed_hello : WellFramed [0, 0, 7, 0, 5, 2, 34, 3, 101, 115, 112] := by
  have hhello : ExactFrames wireProtobuf receiveLoopTypes [0, 5, 2, 34, 3, 101, 115, 112] :=
    exactFrames_nil.cons (by rfl) (exactAt_of_parsed (by rfl) rfl (by decide +kernel) (by rfl))
  have hexact : ExactFrames wireProtobuf receiveLoopTypes
      [0, 0, 7, 0, 5, 2, 34, 3, 101, 115, 112] :=
    hhello.cons (by rfl) (exactAt_of_skipped (by rfl) rfl (by decide +kernel) (by decide))
  exact (decodeMultiple_wellFramed wireProtobuf_documented receiveLoopTypes _ (by decide)).1 hexact
    (by rfl)

/-- A PingRequest that declares five bytes of body and has none is reported as success. -/
theorem decodeMultiple_cut_off_ping :
    (decodeMultiple wireProtobuf receiveLoopTypes [0, 5, 7]).2 = .ok () ∧
      ¬ WellFramed [0, 5, 7] := by
  refine ⟨by rfl, fun ⟨frames, _, hframes⟩ => ?_⟩
  have hcut : CutOffSkip receiveLoopTypes [0, 5, 7] :=
    ⟨⟨5, 7⟩, [], by rfl, by decide +kernel, by decide, by decide⟩
  exact hcut.ne_framesBytes frames hframes

end EspHomeApi
