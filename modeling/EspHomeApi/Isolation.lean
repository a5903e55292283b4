import EspHomeApi.Lib.Items
import EspHomeApi.ReceiveLoop
import EspHomeApi.WireMessage

/-!
# Whether a frame is isolated from what follows it

A frame is isolated when the message handed over for it is the parse of the bytes of its declared
size, whatever stands behind them. The size is compared with the bytes that are left and then not
used any more: the parse reads fields until the end of the array or a tag that ends a message. It
stays inside the body exactly when the body brings such a tag of its own.
-/

namespace EspHomeApi

open Reader

variable {M : Type} {P : Protobuf M}

/-- What is assumed of `ParseFromCodedStream` without a pushed limit.

It reads fields up to a zero or end-group tag or the end of the array, each field and each such tag
by its own bytes. The message is made of the fields read, and to every message a field can be added
that changes it, as even unknown fields are kept. -/
structure Protobuf.Fieldwise (P : Protobuf M) {Field : Type}
    (readField : MessageType → Bytes → Option (Field × Bytes))
    (readEndTag : Bytes → Option (Unit × Bytes)) (build : MessageType → List Field → M) : Prop where
  local_readField : ∀ type, Local (readField type)
  local_readEndTag : Local readEndTag
  parse_iff : ∀ type stream message rest,
    P.parseFromCodedStream type stream = (some message, rest) ↔
      ∃ fields, ReadsItems (readField type) readEndTag stream fields rest ∧
        message = build type fields
  adds : ∀ type fields, ∃ field word, Reads (readField type) word field ∧
    build type (fields ++ [field]) ≠ build type fields

/-- The loop of `decode_multiple` hands over a message for the frame with this header and a body of
the size in the header, followed by the rest of the buffer. -/
structure Delivered (P : Protobuf M) (buffer head body rest : Bytes) (type : MessageType)
    (message : M) : Prop where
  comesTo : ∃ offset, ComesTo P 0 (flatStream buffer) offset (head ++ (body ++ rest))
  header : ∀ more, readHeader (head ++ more) = .ok (⟨body.length, getMessageId type⟩, more)
  accepted : type ∈ receiveLoopTypes
  handed : ∃ left, iteration P receiveLoopTypes (head ++ (body ++ rest)) = .again (some message) left

/-- Each message handed over is the parse of the body of its frame alone, and is handed over for
that frame whatever bytes follow it. -/
def FramesIsolated (P : Protobuf M) (buffer : Bytes) : Prop :=
  ∀ head body rest type message, Delivered P buffer head body rest type message →
    (P.parseFromCodedStream type body).1 = some message ∧
      ∀ other, ∃ left, iteration P receiveLoopTypes (head ++ (body ++ other)) =
        .again (some message) left

/-- Every body that a message is handed over for has, behind complete fields, a tag that ends the
message. -/
def EndTagsInside {Field : Type} (P : Protobuf M)
    (readField : MessageType → Bytes → Option (Field × Bytes))
    (readEndTag : Bytes → Option (Unit × Bytes)) (buffer : Bytes) : Prop :=
  ∀ head body rest type message, Delivered P buffer head body rest type message →
    ∃ fields left, Ended (readField type) readEndTag body fields left

/-- On a header of an accepted type with its body, the iteration is the parse from the start of the
body. -/
theorem iteration_header_iff {head body : Bytes} {type : MessageType}
    (hheader : ∀ more, readHeader (head ++ more) = .ok (⟨body.length, getMessageId type⟩, more))
    (htype : type ∈ receiveLoopTypes) (other left : Bytes) (message : M) :
    iteration P receiveLoopTypes (head ++ (body ++ other)) = .again (some message) left ↔
      P.parseFromCodedStream type (body ++ other) = (some message, left) := by
  have haccepted := isAccepted_of_mem htype
  have hsize : ¬ (body ++ other).length < body.length := by
    rw [List.length_append]
    omega
  rw [iteration, hheader]
  simp only [decodeBody, haccepted, not_true_eq_false, if_false, bytesUntilLimit, if_neg hsize,
    parseAnyAndInvoke_eq receiveLoopTypes_nodup htype]
  rcases P.parseFromCodedStream type (body ++ other) with ⟨parsed, behind⟩
  cases parsed with
  | none => simp
  | some parsed => simp

/-- Every message that `decode_multiple` hands over is handed over for a frame. -/
theorem exists_delivered (hP : P.Documented) {buffer : Bytes} {message : M}
    (h : message ∈ (decodeMultiple P receiveLoopTypes buffer).1) :
    ∃ head body rest type, Delivered P buffer head body rest type message := by
  unfold decodeMultiple at h
  split at h
  · simp at h
  · obtain ⟨offset, stream, left, hcomes, hstep⟩ := exists_comesTo_of_mem_decode hP 0 h
    obtain ⟨⟨size, messageType⟩, behind, hheader, haccepted, hsize, hparse⟩ :=
      iteration_eq_some hstep
    obtain ⟨type, htype, hid⟩ := List.any_eq_true.mp haccepted
    obtain rfl : getMessageId type = messageType := of_decide_eq_true hid
    obtain ⟨head, rfl, hhead⟩ := exists_header_word hheader
    have hlength : (behind.take size).length = size := List.length_take_of_le hsize
    have hsplit : head ++ (behind.take size ++ behind.drop size) = head ++ behind := by
      rw [List.take_append_drop]
    exact ⟨head, behind.take size, behind.drop size, type, ⟨offset, hsplit ▸ hcomes⟩,
      fun more => by rw [hlength]; exact hhead more, htype, ⟨left, hsplit ▸ hstep⟩⟩

/-- What is handed over behind a place of the loop is handed over in all. -/
theorem mem_decode_of_comesTo (hP : P.Documented) {offset next : ℕ} {stream left : Bytes}
    (h : ComesTo P offset stream next left) {message : M}
    (hmem : message ∈ (decode P receiveLoopTypes left).1) :
    message ∈ (decode P receiveLoopTypes stream).1 := by
  induction h with
  | here => exact hmem
  | again hcomes hstep ih =>
    apply ih
    rw [decode_again hP hstep]
    exact List.mem_append_right _ hmem

/-- Every message handed over for a frame is one that the handler is called with. -/
theorem Delivered.mem_calls (hP : P.Documented) {buffer head body rest : Bytes}
    {type : MessageType} {message : M} (h : Delivered P buffer head body rest type message) :
    message ∈ (decodeMultiple P receiveLoopTypes buffer).1 := by
  obtain ⟨offset, hcomes⟩ := h.comesTo
  obtain ⟨left, hstep⟩ := h.handed
  have hlong : 3 ≤ buffer.length := by
    have hheader := readHeader_length (h.header (body ++ rest))
    have hsuffix := (hcomes.suffix hP).length_le
    have hflat : (flatStream buffer).length ≤ buffer.length := by
      rw [flatStream, List.length_take]
      exact Nat.min_le_right _ _
    omega
  rw [decodeMultiple, if_neg (by omega)]
  apply mem_decode_of_comesTo hP hcomes
  rw [decode_again hP hstep]
  exact List.mem_append_left _ (Option.mem_toList.mpr rfl)

section Fieldwise

variable {Field : Type} {readField : MessageType → Bytes → Option (Field × Bytes)}
  {readEndTag : Bytes → Option (Unit × Bytes)} {build : MessageType → List Field → M}

/-- A body with an end tag of its own parses to the same message whatever follows it. -/
theorem Protobuf.Fieldwise.parse_ended (hfields : P.Fieldwise readField readEndTag build)
    {type : MessageType} {body left : Bytes} {fields : List Field}
    (h : Ended (readField type) readEndTag body fields left) (other : Bytes) :
    P.parseFromCodedStream type (body ++ other) = (some (build type fields), left ++ other) := by
  rw [hfields.parse_iff]
  refine ⟨fields, Or.inl ?_, rfl⟩
  exact h.append (hfields.local_readField type) hfields.local_readEndTag other

/-- A body without an end tag takes a field that follows it into its message. -/
theorem Protobuf.Fieldwise.parse_whole (hfields : P.Fieldwise readField readEndTag build)
    {type : MessageType} {body : Bytes} {fields : List Field}
    (h : Whole (readField type) body fields) :
    ∃ other message, P.parseFromCodedStream type (body ++ other) = (some message, []) ∧
      message ≠ build type fields := by
  obtain ⟨field, word, hword, hne⟩ := hfields.adds type fields
  refine ⟨word, build type (fields ++ [field]), ?_, hne⟩
  rw [hfields.parse_iff]
  exact ⟨_, Or.inr ⟨rfl, h.append (hfields.local_readField type) hword⟩, rfl⟩

/-- The frames of a buffer are isolated exactly when every body that a message is handed over for
ends, within its declared size, with a tag that ends the message. -/
theorem framesIsolated_iff (hfields : P.Fieldwise readField readEndTag build) (buffer : Bytes) :
    FramesIsolated P buffer ↔ EndTagsInside P readField readEndTag buffer := by
  constructor
  · intro hisolated head body rest type message hdelivered
    obtain ⟨hparse, hother⟩ := hisolated head body rest type message hdelivered
    obtain ⟨fields, hread, hmessage⟩ :=
      (hfields.parse_iff type body message _).mp (Prod.ext hparse rfl)
    rcases hread with hended | ⟨_, hwhole⟩
    · exact ⟨fields, _, hended⟩
    · exfalso
      obtain ⟨other, changed, hchanged, hne⟩ := hfields.parse_whole hwhole
      obtain ⟨left, hstep⟩ := hother other
      rw [iteration_header_iff hdelivered.header hdelivered.accepted, hchanged] at hstep
      exact hne ((Option.some.inj (congrArg Prod.fst hstep)).trans hmessage)
  · intro hinside head body rest type message hdelivered
    obtain ⟨fields, left, hended⟩ := hinside head body rest type message hdelivered
    have hmessage : message = build type fields := by
      obtain ⟨behind, hstep⟩ := hdelivered.handed
      rw [iteration_header_iff hdelivered.header hdelivered.accepted,
        hfields.parse_ended hended] at hstep
      exact (Option.some.inj (congrArg Prod.fst hstep)).symm
    subst hmessage
    constructor
    · have halone := hfields.parse_ended hended []
      rw [List.append_nil] at halone
      rw [halone]
    · intro other
      refine ⟨left ++ other, ?_⟩
      rw [iteration_header_iff hdelivered.header hdelivered.accepted]
      exact hfields.parse_ended hended other

end Fieldwise

/-- Messages of wire fields are parsed field by field. -/
theorem wireProtobuf_fieldwise :
    wireProtobuf.Fieldwise (fun _ => WireFormat.readField) WireFormat.readEnd WireMessage.mk where
  local_readField _ := WireFormat.local_readField
  local_readEndTag := WireFormat.local_readEnd
  parse_iff type stream message rest := by
    simp only [← WireFormat.read_eq_some_iff, wireProtobuf]
    cases hread : WireFormat.read stream with
    | none => simp
    | some result =>
      obtain ⟨fields, behind⟩ := result
      constructor
      · intro h
        simp only [Prod.mk.injEq, Option.some.injEq] at h
        exact ⟨fields, by rw [h.2], h.1.symm⟩
      · intro h
        obtain ⟨other, hother, hmessage⟩ := h
        simp only [Option.some.injEq, Prod.mk.injEq] at hother
        rw [hmessage, hother.1, hother.2]
  adds type fields := by
    refine ⟨varintField 1 0, (varintField 1 0).write, WireFormat.reads_field _, fun hsame => ?_⟩
    have hlength := congrArg (fun message => message.fields.length) hsame
    simp at hlength

/-- A HelloResponse whose body ends with a zero tag is isolated. -/
theorem framesIsolated_iff_zero_tag :
    FramesIsolated wireProtobuf [0, 6, 2, 34, 3, 101, 115, 112, 0] := by
  apply (framesIsolated_iff wireProtobuf_fieldwise _).mpr
  intro head body rest type message hdelivered
  obtain ⟨offset, hcomes⟩ := hdelivered.comesTo
  have hheader := hdelivered.header (body ++ rest)
  have hstep : iteration wireProtobuf receiveLoopTypes [0, 6, 2, 34, 3, 101, 115, 112, 0] =
      .again (some helloMessage) [] := by rfl
  rcases hcomes.cases_step hstep with ⟨-, hwhole⟩ | hend
  · have hread : readHeader [0, 6, 2, 34, 3, 101, 115, 112, 0] =
        .ok (⟨6, 2⟩, [34, 3, 101, 115, 112, 0]) := by rfl
    rw [hwhole] at hheader
    change readHeader [0, 6, 2, 34, 3, 101, 115, 112, 0] = _ at hheader
    rw [hread] at hheader
    simp only [Except.ok.injEq, Prod.mk.injEq, Header.mk.injEq] at hheader
    have hbody : body = [34, 3, 101, 115, 112, 0] :=
      (List.append_inj (hheader.2.symm.trans (List.append_nil _).symm) hheader.1.1.symm).1
    subst hbody
    exact ⟨helloMessage.fields, [], .item (by rfl) (.marker (by rfl))⟩
  · have hnil := List.eq_nil_of_suffix_nil (hend.suffix wireProtobuf_documented)
    rw [hnil] at hheader
    simp [readHeader, readVarint32_nil, makeUnexpectedResult] at hheader

/-- A HelloResponse followed by three bytes that look like one more field: the name that is handed
over is the one from behind the frame. -/
theorem not_framesIsolated_hello :
    ¬ FramesIsolated wireProtobuf [0, 5, 2, 34, 3, 101, 115, 112, 34, 1, 97] := by
  intro hisolated
  have hdelivered : Delivered wireProtobuf [0, 5, 2, 34, 3, 101, 115, 112, 34, 1, 97] [0, 5, 2]
      [34, 3, 101, 115, 112] [34, 1, 97] .helloResponse
      ⟨.helloResponse, [stringField 4 [101, 115, 112], stringField 4 [97]]⟩ :=
    ⟨⟨0, .here⟩, fun _ => rfl, by decide, ⟨[], by rfl⟩⟩
  have hparse := (hisolated _ _ _ _ _ hdelivered).1
  revert hparse
  decide +kernel

end EspHomeApi
