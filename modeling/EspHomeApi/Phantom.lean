import EspHomeApi.Segmentation

/-!
# Phantom messages

A header that the loop reads is a phantom when it does not stand at the start of a frame. The
loop comes to such a place in two ways: behind an accepted frame it goes on after the preamble of
the next one, and a chunk that does not start at a frame boundary is read as if it did. There is
a phantom exactly when the bytes at one of these places read as a header.
-/

namespace EspHomeApi

variable {M : Type} {P : Protobuf M} {frames : List Frame}

/-- A zero varint and two more varints, which is what a header looks like. -/
def LooksLikeHeader (bytes : Bytes) : Prop := ∃ header rest, readHeader bytes = .ok (header, rest)

/-- The frame starts at the offset of the stream of frames. -/
def StartsAt (frames : List Frame) (offset : ℕ) (frame : Frame) : Prop :=
  ∃ before after, frames = before ++ frame :: after ∧ (framesBytes before).length = offset

/-- While it decodes one of the chunks, the loop comes to the head of an iteration at an offset of
the stream, with what is left of the chunk there. -/
def ReadsAt (P : Protobuf M) (chunks : List Bytes) (offset : ℕ) (left : Bytes) : Prop :=
  ∃ before chunk after, chunks = before ++ chunk :: after ∧ 3 ≤ chunk.length ∧
    ComesTo P before.flatten.length chunk offset left

/-- Every header that the loop reads is the header of a frame, and the message handed over for it
is the message of that frame. -/
def NoPhantom (P : Protobuf M) (frames : List Frame) (chunks : List Bytes) : Prop :=
  ∀ offset left, ReadsAt P chunks offset left → LooksLikeHeader left →
    ∃ frame, StartsAt frames offset frame ∧
      ∀ message rest, iteration P receiveLoopTypes left = .again (some message) rest →
        frame.message P receiveLoopTypes = some message

/-- What the chunk holds one byte behind its first complete frame of an accepted type. -/
def lateEntry : List Frame → Bytes → Bytes
  | [], _ => []
  | frame :: frames, chunk =>
    if chunk.length < frame.bytes.length then []
    else if isAccepted receiveLoopTypes frame.messageType then chunk.drop (frame.bytes.length + 1)
    else lateEntry frames (chunk.drop frame.bytes.length)

/-- The offset is the boundary in front of the remaining frames. -/
def BoundaryAt (frames : List Frame) (offset : ℕ) (rest : List Frame) : Prop :=
  ∃ before, frames = before ++ rest ∧ (framesBytes before).length = offset

/-- No bytes behind the preamble that an accepted frame swallows, and no chunk that starts inside a
frame, look like a header. -/
def NoLookalike (frames : List Frame) (chunks : List Bytes) : Prop :=
  ∀ before chunk after, chunks = before ++ chunk :: after →
    (∀ rest, BoundaryAt frames before.flatten.length rest →
      ¬ LooksLikeHeader (lateEntry rest chunk)) ∧
    ((∀ rest, ¬ BoundaryAt frames before.flatten.length rest) → ¬ LooksLikeHeader chunk)

/-- A header stops the loop when it does not read. -/
theorem iteration_of_not_header {left : Bytes} (h : ¬ LooksLikeHeader left) :
    ∃ error, iteration P receiveLoopTypes left = .stop error := by
  unfold iteration
  split
  · rename_i error herror
    exact ⟨error, rfl⟩
  · rename_i header rest hheader
    exact absurd ⟨header, rest, hheader⟩ h

/-- A header in a part of the stream is that of the frame which the part starts with. -/
theorem readHeader_of_prefix {frame : Frame} {left more body : Bytes} {header : Header}
    (hpre : left <+: frame.bytes ++ more) (h : readHeader left = .ok (header, body)) :
    header = ⟨frame.body.length, frame.messageType⟩ ∧
      ∃ behind, left ++ behind = frame.bytes ++ more ∧ body ++ behind = frame.body ++ more := by
  obtain ⟨behind, hbehind⟩ := hpre
  have hread := readHeader_append h behind
  rw [hbehind, readHeader_frame] at hread
  simp only [Except.ok.injEq, Prod.mk.injEq] at hread
  exact ⟨hread.1.symm, behind, hbehind, hread.2.symm⟩

/-- No message is handed over for a frame that is not complete in the chunk, and the chunk ends. -/
theorem iteration_incomplete {frame : Frame} {left more rest : Bytes} {call : Option M}
    (hframe : frame.WellFormed P receiveLoopTypes) (hpre : left <+: frame.bytes ++ more)
    (hlength : left.length < frame.bytes.length)
    (h : iteration P receiveLoopTypes left = .again call rest) : call = none ∧ rest = [] := by
  unfold iteration at h
  split at h
  · simp at h
  · rename_i header body hheader
    obtain ⟨rfl, behind, hbytes, hbody⟩ := readHeader_of_prefix hpre hheader
    have hshort : body.length < frame.body.length := by
      have hbytesLength := congrArg List.length hbytes
      have hbodyLength := congrArg List.length hbody
      simp only [List.length_append] at hbytesLength hbodyLength
      omega
    unfold decodeBody at h
    split at h
    · simp only [Iteration.again.injEq] at h
      refine ⟨h.1.symm, ?_⟩
      rw [← h.2, staticCastInt_of_lt hframe.length_lt, skip, if_neg (by omega), bytesUntilLimit,
        if_neg (by omega)]
    · rw [bytesUntilLimit, if_pos hshort] at h
      simp at h

/-- A complete frame of an unaccepted type is passed over. -/
theorem iteration_complete_skip {frame : Frame} (hframe : frame.WellFormed P receiveLoopTypes)
    (hskip : isAccepted receiveLoopTypes frame.messageType = false) (tail : Bytes) :
    iteration P receiveLoopTypes (frame.bytes ++ tail) = .again none tail :=
  iteration_skip frame tail hframe.length_lt hskip

/-- A complete frame of an accepted type takes the preamble behind it along. -/
theorem iteration_complete_accepted {frame : Frame} {rest : List Frame} {tail : Bytes}
    (hframe : frame.WellFormed P receiveLoopTypes)
    (haccepted : isAccepted receiveLoopTypes frame.messageType = true)
    (htail : tail <+: framesBytes rest) :
    ∃ message, frame.message P receiveLoopTypes = some message ∧
      iteration P receiveLoopTypes (frame.bytes ++ tail) = .again (some message) (tail.drop 1) := by
  obtain ⟨message, hmessage, hlast, hfollowed⟩ :=
    hframe.iteration_accepted receiveLoopTypes_nodup haccepted
  refine ⟨message, hmessage, ?_⟩
  cases tail with
  | nil =>
    rw [List.append_nil]
    exact hlast
  | cons byte tail =>
    cases rest with
    | nil => exact absurd (List.prefix_nil.mp htail) (List.cons_ne_nil byte tail)
    | cons next rest =>
      rw [framesBytes_cons, Frame.bytes, List.cons_append, List.cons_prefix_cons] at htail
      rw [htail.1]
      exact hfollowed tail

/-- Behind a complete frame of an unaccepted type, the late entry is that of the frames after it. -/
theorem lateEntry_skip {frame : Frame} (rest : List Frame)
    (hskip : isAccepted receiveLoopTypes frame.messageType = false) (tail : Bytes) :
    lateEntry (frame :: rest) (frame.bytes ++ tail) = lateEntry rest tail := by
  rw [lateEntry, if_neg (by rw [List.length_append]; omega), hskip, if_neg (by decide),
    List.drop_left]

/-- Behind a complete frame of an accepted type, it is what follows the next preamble. -/
theorem lateEntry_accepted {frame : Frame} (rest : List Frame)
    (haccepted : isAccepted receiveLoopTypes frame.messageType = true) (tail : Bytes) :
    lateEntry (frame :: rest) (frame.bytes ++ tail) = tail.drop 1 := by
  rw [lateEntry, if_neg (by rw [List.length_append]; omega), haccepted, if_pos rfl,
    ← List.drop_drop, List.drop_left]

/-- The empty stream does not look like a header. -/
theorem not_looksLikeHeader_nil : ¬ LooksLikeHeader [] := by
  rintro ⟨header, rest, hheader⟩
  have hlength := readHeader_length hheader
  simp at hlength

/-- A header takes three bytes. -/
theorem LooksLikeHeader.three_le_length {bytes : Bytes} (h : LooksLikeHeader bytes) :
    3 ≤ bytes.length := by
  obtain ⟨header, rest, hheader⟩ := h
  have hlength := readHeader_length hheader
  omega

/-- The part of a stream that holds its first frame whole is that frame and a part of the rest. -/
theorem exists_tail_of_prefix {frame : Frame} {more chunk : Bytes}
    (hpre : chunk <+: frame.bytes ++ more) (hlength : ¬ chunk.length < frame.bytes.length) :
    ∃ tail, chunk = frame.bytes ++ tail ∧ tail <+: more := by
  have hframe : frame.bytes <+: chunk :=
    List.prefix_of_prefix_length_le (List.prefix_append _ _) hpre (by omega)
  obtain ⟨tail, rfl⟩ := hframe
  exact ⟨tail, rfl, (List.prefix_append_right_inj _).mp hpre⟩

/-- Inside a frame that is not complete in the chunk, the loop reads its header only, and hands
nothing over. -/
theorem ComesTo.eq_of_incomplete (hP : P.Documented) {frame : Frame} {chunk more left : Bytes}
    {offset next : ℕ} (hframe : frame.WellFormed P receiveLoopTypes)
    (hpre : chunk <+: frame.bytes ++ more) (hlength : chunk.length < frame.bytes.length)
    (hcomes : ComesTo P offset chunk next left) (hleft : LooksLikeHeader left) :
    next = offset ∧
      ∀ message behind, iteration P receiveLoopTypes left ≠ .again (some message) behind := by
  cases hstep : iteration P receiveLoopTypes chunk with
  | stop error =>
    obtain ⟨rfl, rfl⟩ := hcomes.eq_of_stop hstep
    refine ⟨rfl, fun message behind hmessage => ?_⟩
    rw [hstep] at hmessage
    simp at hmessage
  | again call behind =>
    obtain ⟨rfl, rfl⟩ := iteration_incomplete hframe hpre hlength hstep
    rcases hcomes.cases_step hstep with ⟨rfl, rfl⟩ | hlater
    · refine ⟨rfl, fun message behind hmessage => ?_⟩
      rw [hstep] at hmessage
      simp at hmessage
    · rw [List.suffix_nil.mp (hlater.suffix hP)] at hleft
      exact absurd hleft not_looksLikeHeader_nil

/-- From a frame boundary, the loop reads headers of frames only, until it enters a frame late. -/
theorem header_of_comesTo (hP : P.Documented) {rest : List Frame}
    (hrest : ∀ frame ∈ rest, frame.WellFormed P receiveLoopTypes) {chunk : Bytes}
    (hpre : chunk <+: framesBytes rest) {offset next : ℕ} {left : Bytes}
    (hcomes : ComesTo P offset chunk next left) (hleft : LooksLikeHeader left) :
    (∃ before frame after, rest = before ++ frame :: after ∧
      next = offset + (framesBytes before).length ∧
      ∀ message behind, iteration P receiveLoopTypes left = .again (some message) behind →
        frame.message P receiveLoopTypes = some message) ∨
    LooksLikeHeader (lateEntry rest chunk) := by
  induction rest generalizing chunk offset with
  | nil =>
    have hnil : left <:+ [] := by
      rw [List.prefix_nil.mp hpre] at hcomes
      exact hcomes.suffix hP
    rw [List.suffix_nil.mp hnil] at hleft
    exact absurd hleft not_looksLikeHeader_nil
  | cons frame rest ih =>
    have hframe := hrest frame List.mem_cons_self
    rw [framesBytes_cons] at hpre
    by_cases hlength : chunk.length < frame.bytes.length
    · left
      obtain ⟨hnext, hnone⟩ := hcomes.eq_of_incomplete hP hframe hpre hlength hleft
      refine ⟨[], frame, rest, rfl, hnext, fun message behind hmessage => ?_⟩
      exact absurd hmessage (hnone message behind)
    · obtain ⟨tail, rfl, htail⟩ := exists_tail_of_prefix hpre hlength
      cases haccepted : isAccepted receiveLoopTypes frame.messageType with
      | false =>
        have hstep := iteration_complete_skip hframe haccepted tail
        rw [lateEntry_skip rest haccepted]
        rcases hcomes.cases_step hstep with ⟨rfl, rfl⟩ | hlater
        · refine Or.inl ⟨[], frame, rest, rfl, rfl, fun message behind hmessage => ?_⟩
          rw [hstep] at hmessage
          simp at hmessage
        · rw [List.length_append, Nat.add_sub_cancel] at hlater
          rcases ih (fun later hmem => hrest later (List.mem_cons_of_mem _ hmem)) htail hlater with
            ⟨before, later, after, rfl, rfl, hmessage⟩ | hlate
          · refine Or.inl ⟨frame :: before, later, after, rfl, ?_, hmessage⟩
            rw [framesBytes_cons, List.length_append, Nat.add_assoc]
          · exact Or.inr hlate
      | true =>
        obtain ⟨message, hmessage, hstep⟩ := iteration_complete_accepted hframe haccepted htail
        rw [lateEntry_accepted rest haccepted]
        rcases hcomes.cases_step hstep with ⟨rfl, rfl⟩ | hlater
        · refine Or.inl ⟨[], frame, rest, rfl, rfl, fun other behind hother => ?_⟩
          rw [hstep] at hother
          simp only [Iteration.again.injEq, Option.some.injEq] at hother
          rw [hmessage, hother.1]
        · right
          by_contra hlate
          obtain ⟨error, hstop⟩ := iteration_of_not_header (P := P) hlate
          rw [(hlater.eq_of_stop hstop).2] at hleft
          exact hlate hleft

/-- The loop comes to the late entry of a chunk that starts at a frame boundary. -/
theorem comesTo_lateEntry {rest : List Frame}
    (hrest : ∀ frame ∈ rest, frame.WellFormed P receiveLoopTypes) {chunk : Bytes}
    (hpre : chunk <+: framesBytes rest) (offset : ℕ)
    (hlate : LooksLikeHeader (lateEntry rest chunk)) :
    ∃ before frame after, rest = before ++ frame :: after ∧
      ComesTo P offset chunk (offset + (framesBytes before).length + 1) (lateEntry rest chunk) := by
  induction rest generalizing chunk offset with
  | nil => exact absurd hlate not_looksLikeHeader_nil
  | cons frame rest ih =>
    have hframe := hrest frame List.mem_cons_self
    rw [framesBytes_cons] at hpre
    by_cases hlength : chunk.length < frame.bytes.length
    · rw [lateEntry, if_pos hlength] at hlate
      exact absurd hlate not_looksLikeHeader_nil
    · obtain ⟨tail, rfl, htail⟩ := exists_tail_of_prefix hpre hlength
      cases haccepted : isAccepted receiveLoopTypes frame.messageType with
      | false =>
        rw [lateEntry_skip rest haccepted] at hlate ⊢
        obtain ⟨before, later, after, rfl, hcomes⟩ :=
          ih (fun later hmem => hrest later (List.mem_cons_of_mem _ hmem)) htail
            (offset + frame.bytes.length) hlate
        refine ⟨frame :: before, later, after, rfl, ?_⟩
        refine ComesTo.of_step (iteration_complete_skip hframe haccepted tail) ?_
        rw [List.length_append, Nat.add_sub_cancel, framesBytes_cons, List.length_append,
          ← Nat.add_assoc offset]
        exact hcomes
      | true =>
        rw [lateEntry_accepted rest haccepted] at hlate ⊢
        have hthree := hlate.three_le_length
        rw [List.length_drop] at hthree
        cases rest with
        | nil =>
          rw [List.prefix_nil.mp htail] at hthree
          simp at hthree
        | cons next rest =>
          obtain ⟨message, -, hstep⟩ := iteration_complete_accepted hframe haccepted htail
          have hcomes := (ComesTo.here : ComesTo P offset (frame.bytes ++ tail) offset _).again hstep
          refine ⟨[frame], next, rest, rfl, ?_⟩
          rw [List.length_append, List.length_drop] at hcomes
          rw [framesBytes_cons, framesBytes_nil, List.append_nil]
          have hoffset : offset + (frame.bytes.length + tail.length - (tail.length - 1)) =
              offset + frame.bytes.length + 1 := by omega
          rwa [hoffset] at hcomes

/-- No frame starts inside another one. -/
theorem not_startsAt_inside {before after : List Frame} {frame other : Frame} {inside : ℕ}
    (hpos : 0 < inside) (hlt : inside < frame.bytes.length) :
    ¬ StartsAt (before ++ frame :: after) ((framesBytes before).length + inside) other := by
  rintro ⟨before', after', heq, hlength⟩
  rcases List.append_eq_append_iff.mp heq with ⟨between, rfl, hcons⟩ | ⟨between, rfl, -⟩
  · rw [framesBytes_append, List.length_append] at hlength
    cases between with
    | nil =>
      rw [framesBytes_nil, List.length_nil] at hlength
      omega
    | cons first between =>
      rw [List.cons_append, List.cons.injEq] at hcons
      rw [framesBytes_cons, List.length_append, ← hcons.1] at hlength
      omega
  · rw [framesBytes_append, List.length_append] at hlength
    omega

/-- A chunk that starts at a frame boundary is a part of the remaining frames. -/
theorem Cutting.prefix_of_boundary {before after : List Bytes} {chunk : Bytes} {rest : List Frame}
    (hcutting : Cutting (framesBytes frames) (before ++ chunk :: after))
    (hboundary : BoundaryAt frames before.flatten.length rest) : chunk <+: framesBytes rest := by
  obtain ⟨done, rfl, hlength⟩ := hboundary
  have hflatten := hcutting.flatten_eq
  rw [List.flatten_append, List.flatten_cons, framesBytes_append] at hflatten
  have hrest := (List.append_inj hflatten hlength.symm).2
  exact ⟨after.flatten, hrest⟩

/-- Every dispatched message is handed over where the loop reads a header. -/
theorem exists_readsAt_of_dispatched (hP : P.Documented) {stream : Bytes} {chunks : List Bytes}
    (hcutting : Cutting stream chunks) {message : M} (h : message ∈ dispatchedFrom P chunks) :
    ∃ offset left rest, ReadsAt P chunks offset left ∧ LooksLikeHeader left ∧
      iteration P receiveLoopTypes left = .again (some message) rest := by
  obtain ⟨chunk, hchunk, hmem⟩ := mem_dispatchedFrom.mp h
  have hmin : 3 ≤ chunk.length := by
    by_contra hshort
    rw [decodeMultiple_short (by omega)] at hmem
    simp at hmem
  rw [hcutting.decodeMultiple_eq hchunk hmin] at hmem
  obtain ⟨before, after, rfl⟩ := List.append_of_mem hchunk
  obtain ⟨next, left, rest, hcomes, hstep⟩ :=
    exists_comesTo_of_mem_decode hP before.flatten.length hmem
  obtain ⟨header, body, hheader, -⟩ := iteration_eq_some hstep
  exact ⟨next, left, rest, ⟨before, chunk, after, rfl, hmin, hcomes⟩, ⟨header, body, hheader⟩,
    hstep⟩

/-- Without lookalikes there is no phantom. -/
theorem noPhantom_of_noLookalike (hP : P.Documented)
    (hframes : ∀ frame ∈ frames, frame.WellFormed P receiveLoopTypes) {chunks : List Bytes}
    (hcutting : Cutting (framesBytes frames) chunks) (h : NoLookalike frames chunks) :
    NoPhantom P frames chunks := by
  rintro offset left ⟨before, chunk, after, rfl, hmin, hcomes⟩ hleft
  obtain ⟨hboundary, hinside⟩ := h before chunk after rfl
  by_cases hat : ∃ rest, BoundaryAt frames before.flatten.length rest
  · obtain ⟨rest, hrest⟩ := hat
    have hpre := hcutting.prefix_of_boundary hrest
    have hlate := hboundary rest hrest
    obtain ⟨done, rfl, hdone⟩ := hrest
    rcases header_of_comesTo hP (fun frame hmem => hframes frame (List.mem_append_right _ hmem))
      hpre hcomes hleft with ⟨skipped, frame, later, rfl, rfl, hmessage⟩ | hlook
    · refine ⟨frame, ⟨done ++ skipped, later, by rw [List.append_assoc], ?_⟩, hmessage⟩
      rw [framesBytes_append, List.length_append, hdone]
    · exact absurd hlook hlate
  · have hchunk := hinside fun rest hrest => hat ⟨rest, hrest⟩
    obtain ⟨error, hstop⟩ := iteration_of_not_header (P := P) hchunk
    rw [(hcomes.eq_of_stop hstop).2] at hleft
    exact absurd hleft hchunk

/-- A lookalike is read as a phantom. -/
theorem noLookalike_of_noPhantom (hP : P.Documented)
    (hframes : ∀ frame ∈ frames, frame.WellFormed P receiveLoopTypes) {chunks : List Bytes}
    (hcutting : Cutting (framesBytes frames) chunks) (h : NoPhantom P frames chunks) :
    NoLookalike frames chunks := by
  rintro before chunk after rfl
  constructor
  · intro rest hboundary hlate
    have hpre := hcutting.prefix_of_boundary hboundary
    obtain ⟨done, rfl, hdone⟩ := hboundary
    obtain ⟨skipped, frame, later, rfl, hcomes⟩ :=
      comesTo_lateEntry (P := P) (fun frame hmem => hframes frame (List.mem_append_right _ hmem))
        hpre before.flatten.length hlate
    have hmin := hlate.three_le_length.trans (hcomes.suffix hP).length_le
    obtain ⟨other, hstarts, -⟩ := h _ _ ⟨before, chunk, after, rfl, hmin, hcomes⟩ hlate
    have hthree := frame.three_le_length
    rw [← List.append_assoc, ← hdone, ← List.length_append, ← framesBytes_append] at hstarts
    exact not_startsAt_inside (by decide) (by omega) hstarts
  · intro hinside hchunk
    obtain ⟨frame, ⟨done, rest, rfl, hdone⟩, -⟩ :=
      h _ _ ⟨before, chunk, after, rfl, hchunk.three_le_length, .here⟩ hchunk
    exact hinside (frame :: rest) ⟨done, rfl, hdone⟩

/-- Every dispatched message comes with a header that the loop reads, and all those headers are
headers of frames, with the messages of those frames, exactly when there are no lookalikes. -/
theorem dispatchedFrom_noPhantom (hP : P.Documented) (frames : List Frame)
    (hframes : ∀ frame ∈ frames, frame.WellFormed P receiveLoopTypes) (chunks : List Bytes)
    (hcutting : Cutting (framesBytes frames) chunks) :
    (∀ message ∈ dispatchedFrom P chunks, ∃ offset left rest, ReadsAt P chunks offset left ∧
      LooksLikeHeader left ∧ iteration P receiveLoopTypes left = .again (some message) rest) ∧
    (NoPhantom P frames chunks ↔ NoLookalike frames chunks) :=
  ⟨fun _ hmessage => exists_readsAt_of_dispatched hP hcutting hmessage,
    noLookalike_of_noPhantom hP hframes hcutting, noPhantom_of_noLookalike hP hframes hcutting⟩

/-- The boundary in front of the stream is the one before all frames. -/
theorem BoundaryAt.eq_of_zero {rest : List Frame} (h : BoundaryAt frames 0 rest) :
    rest = frames := by
  obtain ⟨before, rfl, hlength⟩ := h
  cases before with
  | nil => rfl
  | cons frame before =>
    have hthree := frame.three_le_length
    rw [framesBytes_cons, List.length_append] at hlength
    omega

/-- There is no phantom in a PingRequest and a HelloResponse received together. -/
theorem dispatchedFrom_noPhantom_ping_hello :
    NoPhantom wireProtobuf [pingFrame, helloFrame] [[0, 0, 7, 0, 5, 2, 34, 3, 101, 115, 112]] := by
  refine (dispatchedFrom_noPhantom wireProtobuf_documented [pingFrame, helloFrame]
    wellFormed_ping_hello _ ⟨by decide, by decide, by decide⟩).2.2 fun before chunk after h => ?_
  obtain ⟨rfl, rfl, rfl⟩ : before = [] ∧ chunk = [0, 0, 7, 0, 5, 2, 34, 3, 101, 115, 112] ∧
      after = [] := by
    cases before with
    | nil => simpa [eq_comm] using h
    | cons first before => simp at h
  refine ⟨fun rest hrest => ?_, fun hinside => absurd ⟨[], rfl, rfl⟩ (hinside [pingFrame, helloFrame])⟩
  have hlate : lateEntry [pingFrame, helloFrame] [0, 0, 7, 0, 5, 2, 34, 3, 101, 115, 112] = [] := by
    decide +kernel
  rw [BoundaryAt.eq_of_zero hrest, hlate]
  exact not_looksLikeHeader_nil

/-- The frame of a HelloResponse whose name is made of the bytes of an empty ConnectResponse. -/
def disguisedFrame : Frame := .ofBody 2 [34, 3, 0, 0, 4]

/-- Cut in front of its name, the HelloResponse is lost and a ConnectResponse is dispatched that
reports a valid password. -/
theorem phantom_connectResponse :
    wireProtobuf.Documented ∧ disguisedFrame.WellFormed wireProtobuf receiveLoopTypes ∧
      Cutting (framesBytes [disguisedFrame]) [[0, 5, 2, 34, 3], [0, 0, 4]] ∧
      dispatchedFrom wireProtobuf [[0, 5, 2, 34, 3], [0, 0, 4]] = [⟨.connectResponse, []⟩] ∧
      ¬ NoPhantom wireProtobuf [disguisedFrame] [[0, 5, 2, 34, 3], [0, 0, 4]] := by
  have hframe : IsFrameOf wireProtobuf ⟨.helloResponse, [stringField 4 [0, 0, 4]]⟩ disguisedFrame :=
    ⟨by rfl, rfl, by decide⟩
  refine ⟨wireProtobuf_documented, hframe.wellFormed wireProtobuf_documented,
    ⟨by decide, by decide, by decide⟩, by rfl, fun h => ?_⟩
  have hreads : ReadsAt wireProtobuf [[0, 5, 2, 34, 3], [0, 0, 4]] 5 [0, 0, 4] :=
    ⟨[[0, 5, 2, 34, 3]], [0, 0, 4], [], rfl, by decide, .here⟩
  obtain ⟨frame, hstarts, -⟩ := h 5 [0, 0, 4] hreads ⟨⟨0, 4⟩, [], by rfl⟩
  have hinside : ¬ StartsAt ([] ++ disguisedFrame :: []) ((framesBytes []).length + 5) frame :=
    not_startsAt_inside (by decide) (by decide)
  exact hinside hstarts

end EspHomeApi
