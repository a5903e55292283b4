import EspHomeApi.Serialize

/-!
# Light commands on the wire

`light_command` sets the key of its request, and the effect if there is one; `has_effect` is never
set. Two commands are told apart by their frames unless they have the same key and differ only in
having no effect or the empty one, as a default value is not written. Whether a command has an
effect can be told from the request only if it has none.
-/

namespace EspHomeApi

variable {M : Type}

/-- The getters of a LightCommandRequest that concern key and effect. -/
structure LightGetters (M : Type) where
  key : M → UInt32
  effect : M → Bytes
  hasEffect : M → Bool

/-- What the accessors of a LightCommandRequest do.

A getter gives back what its setter was given and is not changed by the setters of other fields; a
new message has the defaults; a default is not written, and a key takes at most five bytes. -/
structure LightGetters.Documented (G : LightGetters M) (C : Messages M) : Prop where
  descriptor_new : ∀ type, C.descriptor (C.new type) = type
  descriptor_setKey : ∀ n message, C.descriptor (C.setKey n message) = C.descriptor message
  descriptor_setEffect : ∀ text message,
    C.descriptor (C.setEffect text message) = C.descriptor message
  key_setKey : ∀ (key : UInt32) message, G.key (C.setKey key.toNat message) = key
  key_setEffect : ∀ text message, G.key (C.setEffect text message) = G.key message
  effect_new : ∀ type, G.effect (C.new type) = []
  effect_setKey : ∀ n message, G.effect (C.setKey n message) = G.effect message
  effect_setEffect : ∀ text message, text.length < 2 ^ 64 →
    G.effect (C.setEffect text message) = text
  hasEffect_new : ∀ type, G.hasEffect (C.new type) = false
  hasEffect_setKey : ∀ n message, G.hasEffect (C.setKey n message) = G.hasEffect message
  hasEffect_setEffect : ∀ text message, G.hasEffect (C.setEffect text message) = G.hasEffect message
  encode_setEffect_nil : ∀ n type, C.encode (C.setEffect [] (C.setKey n (C.new type))) =
    C.encode (C.setKey n (C.new type))
  length_encode_setKey : ∀ n type, (C.encode (C.setKey n (C.new type))).length ≤ 5

/-- Commands that differ have frames that differ. -/
def FramesDiffer (C : Client M) (first second : LightCommand) : Prop :=
  first ≠ second → ∀ packet other,
    serialize C.toProtobuf (lightCommandRequest C first) = .ok packet →
    serialize C.toProtobuf (lightCommandRequest C second) = .ok other → packet ≠ other

/-- The flag of the request tells whether the command has an effect, so that flag and effect of the
request give back the effect of the command. -/
structure FlagInStep (C : Client M) (G : LightGetters M) (command : LightCommand) : Prop where
  flag : G.hasEffect (lightCommandRequest C command) = command.effect.isSome
  recovered : (if G.hasEffect (lightCommandRequest C command) then
    some (G.effect (lightCommandRequest C command)) else none) = command.effect

/-- The commands have the same key, and one has no effect where the other has the empty one. -/
def SameOnWire (first second : LightCommand) : Prop :=
  first.key = second.key ∧ ((first.effect = none ∧ second.effect = some []) ∨
    (first.effect = some [] ∧ second.effect = none))

section Request

variable {C : Client M} {G : LightGetters M} (hG : G.Documented C.toMessages)
  (command : LightCommand)
include hG

/-- The request is a LightCommandRequest. -/
theorem descriptor_lightCommandRequest :
    C.descriptor (lightCommandRequest C command) = .lightCommandRequest := by
  unfold lightCommandRequest
  cases command.effect with
  | none => rw [hG.descriptor_setKey, hG.descriptor_new]
  | some effect => rw [hG.descriptor_setEffect, hG.descriptor_setKey, hG.descriptor_new]

/-- The request has the key of the command. -/
theorem key_lightCommandRequest : G.key (lightCommandRequest C command) = command.key := by
  unfold lightCommandRequest
  cases command.effect with
  | none => exact hG.key_setKey command.key _
  | some effect => exact (hG.key_setEffect effect _).trans (hG.key_setKey command.key _)

/-- The request has the effect of the command, the empty one standing for none. -/
theorem effect_lightCommandRequest :
    G.effect (lightCommandRequest C command) = command.effect.getD [] := by
  unfold lightCommandRequest
  cases heffect : command.effect with
  | none => exact (hG.effect_setKey _ _).trans (hG.effect_new _)
  | some effect => exact hG.effect_setEffect effect _ (command.effect_lt effect heffect)

/-- The request never has the flag. -/
theorem hasEffect_lightCommandRequest : G.hasEffect (lightCommandRequest C command) = false := by
  unfold lightCommandRequest
  cases command.effect with
  | none => exact (hG.hasEffect_setKey _ _).trans (hG.hasEffect_new _)
  | some effect =>
    exact (hG.hasEffect_setEffect effect _).trans
      ((hG.hasEffect_setKey _ _).trans (hG.hasEffect_new _))

/-- The flag is in step exactly for a command without an effect. -/
theorem flagInStep_iff : FlagInStep C G command ↔ command.effect = none := by
  have hflag := hasEffect_lightCommandRequest hG command
  constructor
  · intro hstep
    have hrecovered := hstep.recovered
    rw [hflag] at hrecovered
    exact hrecovered.symm
  · intro hnone
    constructor
    · rw [hflag, hnone]
      rfl
    · rw [hflag, hnone]
      rfl

end Request

/-- Messages of one type with the same encoding are the same. -/
theorem eq_of_encode_eq {P : Protobuf M} (hP : P.Documented) {first second : M}
    (htype : P.descriptor first = P.descriptor second) (h : P.encode first = P.encode second) :
    first = second := by
  have hfirst := (hP.encodes_encode first).1
  rw [htype, h, (hP.encodes_encode second).1] at hfirst
  exact (Option.some.inj (congrArg Prod.fst hfirst)).symm

/-- Equal packets hold equal bodies. -/
theorem encode_eq_of_serialize {P : Protobuf M} {first second : M} {packet : Bytes}
    (hfirst : serialize P first = .ok packet) (hsecond : serialize P second = .ok packet) :
    P.encode first = P.encode second := by
  obtain ⟨frame, hframe, hbody, -⟩ := serialize_eq_ok hfirst
  obtain ⟨other, hother, hotherBody, -⟩ := serialize_eq_ok hsecond
  have hbytes : frame.bytes ++ [] = other.bytes ++ [] := by rw [← hframe, ← hother]
  have hvalue := (frame.reads.append_inj other.reads hbytes).2.1
  rw [← hbody, ← hotherBody]
  exact congrArg Prod.snd hvalue

/-- Commands whose requests have the same encoding are the same, or the same on the wire. -/
theorem eq_or_sameOnWire {C : Client M} (hP : C.toProtobuf.Documented) {G : LightGetters M}
    (hG : G.Documented C.toMessages) {first second : LightCommand}
    (h : C.encode (lightCommandRequest C first) = C.encode (lightCommandRequest C second)) :
    first = second ∨ SameOnWire first second := by
  have hrequest : lightCommandRequest C first = lightCommandRequest C second := by
    refine eq_of_encode_eq hP ?_ h
    rw [descriptor_lightCommandRequest hG, descriptor_lightCommandRequest hG]
  have hkey : first.key = second.key := by
    rw [← key_lightCommandRequest hG first, hrequest, key_lightCommandRequest hG]
  have heffect : first.effect.getD [] = second.effect.getD [] := by
    rw [← effect_lightCommandRequest hG first, hrequest, effect_lightCommandRequest hG]
  obtain ⟨key, effect, hlt⟩ := first
  obtain ⟨otherKey, otherEffect, hotherLt⟩ := second
  simp only at hkey heffect
  subst hkey
  cases effect with
  | none =>
    cases otherEffect with
    | none => exact Or.inl rfl
    | some other => exact Or.inr ⟨rfl, Or.inl ⟨rfl, congrArg some heffect.symm⟩⟩
  | some effect =>
    cases otherEffect with
    | none => exact Or.inr ⟨rfl, Or.inr ⟨congrArg some heffect, rfl⟩⟩
    | some other =>
      obtain rfl : effect = other := heffect
      exact Or.inl rfl

/-- The command without an effect and the one with the empty effect have the same packet. -/
theorem exists_packet_of_sameOnWire {C : Client M} {G : LightGetters M}
    (hG : G.Documented C.toMessages) {first second : LightCommand}
    (hkey : first.key = second.key) (hfirst : first.effect = none)
    (hsecond : second.effect = some []) :
    ∃ packet, serialize C.toProtobuf (lightCommandRequest C first) = .ok packet ∧
      serialize C.toProtobuf (lightCommandRequest C second) = .ok packet := by
  have hid (command : LightCommand) :
      (C.descriptor (lightCommandRequest C command)).id = some 32 := by
    rw [descriptor_lightCommandRequest hG]
    rfl
  have hencode : C.encode (lightCommandRequest C second) =
      C.encode (lightCommandRequest C first) := by
    rw [lightCommandRequest, lightCommandRequest, hfirst, hsecond, hkey]
    exact hG.encode_setEffect_nil second.key.toNat _
  have hlength : (C.encode (lightCommandRequest C first)).length < 2 ^ 21 := by
    rw [lightCommandRequest, hfirst]
    exact (hG.length_encode_setKey first.key.toNat _).trans_lt (by decide)
  refine ⟨_, serialize_of_lt (hid first) hlength, ?_⟩
  rw [serialize_of_lt (hid second) (by rw [hencode]; exact hlength), hencode]

/-- Commands that are the same on the wire have the same packet. -/
theorem SameOnWire.exists_packet {C : Client M} {G : LightGetters M}
    (hG : G.Documented C.toMessages) {first second : LightCommand} (h : SameOnWire first second) :
    ∃ packet, serialize C.toProtobuf (lightCommandRequest C first) = .ok packet ∧
      serialize C.toProtobuf (lightCommandRequest C second) = .ok packet := by
  obtain ⟨hkey, ⟨hfirst, hsecond⟩ | ⟨hfirst, hsecond⟩⟩ := h
  · exact exists_packet_of_sameOnWire hG hkey hfirst hsecond
  · obtain ⟨packet, hother, hpacket⟩ := exists_packet_of_sameOnWire hG hkey.symm hsecond hfirst
    exact ⟨packet, hpacket, hother⟩

/-- Commands that are the same on the wire are not the same. -/
theorem SameOnWire.ne {first second : LightCommand} (h : SameOnWire first second) :
    first ≠ second := by
  rintro rfl
  obtain ⟨-, ⟨hnone, hsome⟩ | ⟨hsome, hnone⟩⟩ := h
  · simp [hnone] at hsome
  · simp [hnone] at hsome

/-- Different commands have different frames unless they are the same on the wire, and the flag
of the effect is in step exactly when there is no effect. -/
theorem lightCommand_faithful_iff (C : Client M) (hP : C.toProtobuf.Documented)
    (G : LightGetters M) (hG : G.Documented C.toMessages) :
    (∀ first second, FramesDiffer C first second ↔ ¬ SameOnWire first second) ∧
      ∀ command, FlagInStep C G command ↔ command.effect = none := by
  refine ⟨fun first second => ⟨?_, ?_⟩, flagInStep_iff hG⟩
  · intro hdiffer hwire
    obtain ⟨packet, hpacket, hother⟩ := hwire.exists_packet hG
    exact hdiffer hwire.ne packet packet hpacket hother rfl
  · rintro hwire hne packet other hpacket hother rfl
    rcases eq_or_sameOnWire hP hG (encode_eq_of_serialize hpacket hother) with hsame | hsame
    · exact hne hsame
    · exact hwire hsame

/-- The getters on wire fields. -/
def wireLightGetters : LightGetters WireMessage where
  key := WireMessage.getFixed32 1
  effect := WireMessage.getString 19
  hasEffect message := message.getNumber 18 ≠ 0

/-- A request with a key only has at most the one field. -/
theorem fields_setKey (n : ℕ) (type : MessageType) :
    (wireMessages.setKey n (wireMessages.new type)).fields = [] ∨
      ∃ bytes legal, (wireMessages.setKey n (wireMessages.new type)).fields =
        [⟨1, .fixed32 bytes, legal⟩] := by
  change (WireMessage.setFixed32 1 n ⟨type, []⟩).fields = [] ∨
    ∃ bytes legal, (WireMessage.setFixed32 1 n ⟨type, []⟩).fields = [⟨1, .fixed32 bytes, legal⟩]
  unfold WireMessage.setFixed32
  split
  · exact Or.inl rfl
  · right
    refine ⟨(List.range 4).map fun i => UInt8.ofNat (n / 256 ^ i), ⟨by decide, by decide, rfl⟩, ?_⟩
    rw [WireMessage.setField, WireFormat.makeField, dif_pos ⟨by decide, by decide, rfl⟩]
    rfl

/-- Wire fields behave as the accessors are assumed to. -/
theorem wireLightGetters_documented : wireLightGetters.Documented wireMessages where
  descriptor_new _ := rfl
  descriptor_setKey n message := type_setFixed32 1 n message
  descriptor_setEffect text message := type_setString 19 text message
  key_setKey key message := getFixed32_setFixed32 (by decide) key message
  key_setEffect text message := congrArg (Option.getD · 0)
    (pickLast_setString_of_ne (picksFrom_pickFixed32 1) (by decide) text message)
  effect_new _ := rfl
  effect_setKey n message := congrArg (Option.getD · [])
    (pickLast_setFixed32_of_ne (picksFrom_pickString 19) (by decide) n message)
  effect_setEffect text message htext := getString_setString (by decide) htext message
  hasEffect_new _ := rfl
  hasEffect_setKey n message := congrArg (fun flag : Option ℕ => decide (flag.getD 0 ≠ 0))
    (pickLast_setFixed32_of_ne (picksFrom_pickNumber 18) (by decide) n message)
  hasEffect_setEffect text message := congrArg (fun flag : Option ℕ => decide (flag.getD 0 ≠ 0))
    (pickLast_setString_of_ne (picksFrom_pickNumber 18) (by decide) text message)
  encode_setEffect_nil n type := by
    have hclear :
        (wireMessages.setEffect [] (wireMessages.setKey n (wireMessages.new type))).fields =
          (wireMessages.setKey n (wireMessages.new type)).fields := by
      change (wireMessages.setKey n (wireMessages.new type)).fields.filter _ = _
      rcases fields_setKey n type with hfields | ⟨bytes, legal, hfields⟩
      · rw [hfields, List.filter_nil]
      · rw [hfields]
        rfl
    exact congrArg WireFormat.write hclear
  length_encode_setKey n type := by
    change (WireFormat.write (wireMessages.setKey n (wireMessages.new type)).fields).length ≤ 5
    rcases fields_setKey n type with hfields | ⟨bytes, legal, hfields⟩
    · rw [hfields]
      decide
    · have hbytes : bytes.length = 4 := legal.2.2
      have htag : (Varint.write (WireFormat.Field.tag ⟨1, .fixed32 bytes, legal⟩)).length = 1 := rfl
      rw [hfields, WireFormat.write, List.flatMap_singleton, WireFormat.Field.write,
        List.length_append, htag, WireFormat.Value.write, hbytes]

/-- A command that leaves the effect of a light as it is. -/
def keepEffect : LightCommand := ⟨1, none, by simp⟩

/-- A command that sets the empty effect. -/
def emptyEffect : LightCommand := ⟨1, some [], by simp⟩

/-- The flag of a command without an effect is in step. -/
theorem lightCommand_faithful_iff_keepEffect : FlagInStep wireClient wireLightGetters keepEffect :=
  ((lightCommand_faithful_iff wireClient wireProtobuf_documented wireLightGetters
    wireLightGetters_documented).2 keepEffect).mpr rfl

/-- The two commands have the same frame, and the flag of the second is not in step. -/
theorem not_faithful_emptyEffect :
    ¬ FramesDiffer wireClient keepEffect emptyEffect ∧
      ¬ FlagInStep wireClient wireLightGetters emptyEffect := by
  constructor
  · intro hdiffer
    have hpacket : serialize wireProtobuf (lightCommandRequest wireClient keepEffect) =
        .ok [0, 5, 32, 13, 1, 0, 0, 0] := by rfl
    have hother : serialize wireProtobuf (lightCommandRequest wireClient emptyEffect) =
        .ok [0, 5, 32, 13, 1, 0, 0, 0] := by rfl
    exact hdiffer (by decide) _ _ hpacket hother rfl
  · intro hstep
    have hflag := hstep.flag
    revert hflag
    decide

end EspHomeApi
