import EspHomeApi.Operations
import EspHomeApi.WireMessage

/-!
# A client over wire fields

The setters and getters of the generated classes on messages given by their wire fields. Fields
are kept in the order of their numbers, and a field with its default value is not written.
-/

namespace EspHomeApi

/-- The message without a field. -/
def WireMessage.clearField (number : ℕ) (message : WireMessage) : WireMessage :=
  { message with fields := message.fields.filter fun field => field.number ≠ number }

/-- The message with a field, between those of lower and of higher numbers. -/
def WireMessage.setField (number : ℕ) (value : WireFormat.Value) (message : WireMessage) :
    WireMessage :=
  { message with
    fields := message.fields.filter (fun field => field.number < number) ++
      (WireFormat.makeField number value).toList ++
      message.fields.filter fun field => number < field.number }

/-- Set a string, the empty one being the default. -/
def WireMessage.setString (number : ℕ) (text : Bytes) (message : WireMessage) : WireMessage :=
  if text = [] then message.clearField number else message.setField number (.len text)

/-- Set a number or a flag, zero being the default. -/
def WireMessage.setNumber (number n : ℕ) (message : WireMessage) : WireMessage :=
  if n = 0 then message.clearField number else message.setField number (.varint n)

/-- Set a number of four bytes, in little-endian order. -/
def WireMessage.setFixed32 (number n : ℕ) (message : WireMessage) : WireMessage :=
  if n % 2 ^ 32 = 0 then message.clearField number
  else message.setField number (.fixed32 ((List.range 4).map fun i => UInt8.ofNat (n / 256 ^ i)))

/-- The last string under a number. -/
def WireMessage.getString (number : ℕ) (message : WireMessage) : Bytes :=
  (message.fields.reverse.findSome? fun field =>
    match field.value with
    | .len text => if field.number = number then some text else none
    | _ => none).getD []

/-- The last number under a number. -/
def WireMessage.getNumber (number : ℕ) (message : WireMessage) : ℕ :=
  (message.fields.reverse.findSome? fun field =>
    match field.value with
    | .varint n => if field.number = number then some n else none
    | _ => none).getD 0

/-- The number in four little-endian bytes. -/
def fromLittleEndian (bytes : Bytes) : UInt32 :=
  UInt32.ofNat (bytes.foldr (fun byte upper => byte.toNat + 256 * upper) 0)

/-- The last number of four bytes under a field number. -/
def WireMessage.getFixed32 (number : ℕ) (message : WireMessage) : UInt32 :=
  (message.fields.reverse.findSome? fun field =>
    match field.value with
    | .fixed32 bytes => if field.number = number then some (fromLittleEndian bytes) else none
    | _ => none).getD 0

/-- The generated classes, with the accessors that the connection uses. -/
def wireMessages : Messages WireMessage where
  toProtobuf := wireProtobuf
  new type := ⟨type, []⟩
  setClientInfo := WireMessage.setString 1
  setPassword := WireMessage.setString 1
  setKey := WireMessage.setFixed32 1
  setEffect := WireMessage.setString 19
  setDumpConfig flag := WireMessage.setNumber 2 flag.toNat
  setLevel := WireMessage.setNumber 1
  name := WireMessage.getString 4
  apiVersionMajor message := message.getNumber 1 % 2 ^ 32
  apiVersionMinor message := message.getNumber 2 % 2 ^ 32
  invalidPassword message := message.getNumber 1 ≠ 0

/-- A client without a password. -/
def wireClient : Client WireMessage where
  toMessages := wireMessages
  hostname := "esp"
  port := 6053
  password := []

/-- The last field that something is picked from. -/
def WireMessage.pickLast {α : Type} (pick : WireFormat.Field → Option α) (message : WireMessage) :
    Option α :=
  message.fields.reverse.findSome? pick

/-- Only fields with the number are picked from. -/
def PicksFrom {α : Type} (number : ℕ) (pick : WireFormat.Field → Option α) : Prop :=
  ∀ field, field.number ≠ number → pick field = none

/-- Fields that nothing is picked from may be left out. -/
theorem findSome?_filter {α β : Type} (keep : α → Bool) (pick : α → Option β) (fields : List α)
    (h : ∀ field, keep field = false → pick field = none) :
    (fields.filter keep).findSome? pick = fields.findSome? pick := by
  induction fields with
  | nil => rfl
  | cons field fields ih =>
    cases hkeep : keep field with
    | true => rw [List.filter_cons_of_pos hkeep, List.findSome?_cons, List.findSome?_cons, ih]
    | false =>
      rw [List.filter_cons_of_neg (by simp [hkeep]), List.findSome?_cons, h field hkeep, ih]

/-- Nothing is picked when nothing is picked from any of the fields kept. -/
theorem findSome?_filter_eq_none {α β : Type} (keep : α → Bool) (pick : α → Option β)
    (fields : List α) (h : ∀ field, keep field = true → pick field = none) :
    (fields.filter keep).findSome? pick = none := by
  rw [List.findSome?_eq_none_iff]
  intro field hfield
  exact h field (List.mem_filter.mp hfield).2

variable {α : Type} {pick : WireFormat.Field → Option α} {number other : ℕ}

/-- A cleared field is not picked from. -/
theorem pickLast_clearField (hpick : PicksFrom number pick) (message : WireMessage) :
    (message.clearField number).pickLast pick = none := by
  rw [WireMessage.pickLast, WireMessage.clearField, ← List.filter_reverse]
  apply findSome?_filter_eq_none
  intro field hkeep
  exact hpick field (of_decide_eq_true hkeep)

/-- Clearing a field keeps the others. -/
theorem pickLast_clearField_of_ne (hpick : PicksFrom number pick) (hne : number ≠ other)
    (message : WireMessage) : (message.clearField other).pickLast pick = message.pickLast pick := by
  rw [WireMessage.pickLast, WireMessage.clearField, ← List.filter_reverse]
  apply findSome?_filter
  intro field hkeep
  apply hpick
  have hother : field.number = other := by simpa using hkeep
  omega

/-- Setting a field: the later ones, the field itself and the earlier ones, from the end. -/
theorem pickLast_setField (value : WireFormat.Value) (message : WireMessage) :
    (message.setField other value).pickLast pick =
      ((message.fields.reverse.filter fun field => other < field.number).findSome? pick).or
        (((WireFormat.makeField other value).bind pick).or
          ((message.fields.reverse.filter fun field => field.number < other).findSome? pick)) := by
  rw [WireMessage.pickLast, WireMessage.setField, List.reverse_append, List.reverse_append,
    List.findSome?_append, List.findSome?_append, ← List.filter_reverse, ← List.filter_reverse]
  cases WireFormat.makeField other value with
  | none => rfl
  | some field =>
    rw [Option.toList_some, List.reverse_singleton, List.findSome?_singleton, Option.bind_some]

/-- A field that is set is picked from. -/
theorem pickLast_setField_self (hpick : PicksFrom number pick) {value : WireFormat.Value}
    (legal : 0 < number ∧ number < 2 ^ 29 ∧ value.Fits) {result : α}
    (hresult : pick ⟨number, value, legal⟩ = some result) (message : WireMessage) :
    (message.setField number value).pickLast pick = some result := by
  have hlater : (message.fields.reverse.filter fun field => number < field.number).findSome? pick =
      none := by
    apply findSome?_filter_eq_none
    intro field hkeep
    exact hpick field (of_decide_eq_true hkeep).ne'
  rw [pickLast_setField, hlater, Option.none_or, WireFormat.makeField, dif_pos legal,
    Option.bind_some, hresult, Option.some_or]

/-- Setting a field keeps the others. -/
theorem pickLast_setField_of_ne (hpick : PicksFrom number pick) (hne : number ≠ other)
    (value : WireFormat.Value) (message : WireMessage) :
    (message.setField other value).pickLast pick = message.pickLast pick := by
  have hmade : (WireFormat.makeField other value).bind pick = none := by
    unfold WireFormat.makeField
    split
    · exact hpick _ (Ne.symm hne)
    · rfl
  rw [pickLast_setField, hmade, Option.none_or, WireMessage.pickLast]
  rcases Nat.lt_or_gt_of_ne hne with hlt | hgt
  · have hlater : (message.fields.reverse.filter fun field => other < field.number).findSome? pick =
        none := by
      apply findSome?_filter_eq_none
      intro field hkeep
      exact hpick field (hlt.trans (of_decide_eq_true hkeep)).ne'
    rw [hlater, Option.none_or]
    apply findSome?_filter
    intro field hkeep
    have hafter : other ≤ field.number := by simpa using hkeep
    exact hpick field (by omega)
  · have hearlier :
        (message.fields.reverse.filter fun field => field.number < other).findSome? pick = none := by
      apply findSome?_filter_eq_none
      intro field hkeep
      exact hpick field ((of_decide_eq_true hkeep).trans hgt).ne
    rw [hearlier, Option.or_none]
    apply findSome?_filter
    intro field hkeep
    have hbefore : field.number ≤ other := by simpa using hkeep
    exact hpick field (by omega)

/-- Setting a field, or clearing it where the value is the default, keeps the others. -/
theorem pickLast_ite_of_ne (hpick : PicksFrom number pick) (hne : number ≠ other) (isDefault : Prop)
    [Decidable isDefault] (value : WireFormat.Value) (message : WireMessage) :
    (if isDefault then message.clearField other else message.setField other value).pickLast pick =
      message.pickLast pick := by
  split
  · exact pickLast_clearField_of_ne hpick hne message
  · exact pickLast_setField_of_ne hpick hne value message

/-- Setting a string keeps the type. -/
theorem type_setString (number : ℕ) (text : Bytes) (message : WireMessage) :
    (message.setString number text).type = message.type := by
  unfold WireMessage.setString
  split <;> rfl

/-- Setting a number keeps the type. -/
theorem type_setFixed32 (number n : ℕ) (message : WireMessage) :
    (message.setFixed32 number n).type = message.type := by
  unfold WireMessage.setFixed32
  split <;> rfl

/-- A string set leaves the other fields alone. -/
theorem pickLast_setString_of_ne (hpick : PicksFrom number pick) (hne : number ≠ other)
    (text : Bytes) (message : WireMessage) :
    (message.setString other text).pickLast pick = message.pickLast pick :=
  pickLast_ite_of_ne hpick hne _ _ message

/-- A number set leaves the other fields alone. -/
theorem pickLast_setFixed32_of_ne (hpick : PicksFrom number pick) (hne : number ≠ other)
    (n : ℕ) (message : WireMessage) :
    (message.setFixed32 other n).pickLast pick = message.pickLast pick :=
  pickLast_ite_of_ne hpick hne _ _ message

/-- The string in a field with the number. -/
def pickString (number : ℕ) (field : WireFormat.Field) : Option Bytes :=
  match field.value with
  | .len text => if field.number = number then some text else none
  | _ => none

/-- The number in a field with the number. -/
def pickNumber (number : ℕ) (field : WireFormat.Field) : Option ℕ :=
  match field.value with
  | .varint n => if field.number = number then some n else none
  | _ => none

/-- The number of four bytes in a field with the number. -/
def pickFixed32 (number : ℕ) (field : WireFormat.Field) : Option UInt32 :=
  match field.value with
  | .fixed32 bytes => if field.number = number then some (fromLittleEndian bytes) else none
  | _ => none

theorem picksFrom_pickString (number : ℕ) : PicksFrom number (pickString number) := by
  intro field hne
  unfold pickString
  split
  · exact if_neg hne
  · rfl

theorem picksFrom_pickNumber (number : ℕ) : PicksFrom number (pickNumber number) := by
  intro field hne
  unfold pickNumber
  split
  · exact if_neg hne
  · rfl

theorem picksFrom_pickFixed32 (number : ℕ) : PicksFrom number (pickFixed32 number) := by
  intro field hne
  unfold pickFixed32
  split
  · exact if_neg hne
  · rfl

/-- A string getter gives back what was set. -/
theorem getString_setString {number : ℕ} (hnumber : 0 < number ∧ number < 2 ^ 29) {text : Bytes}
    (htext : text.length < 2 ^ 64) (message : WireMessage) :
    (message.setString number text).getString number = text := by
  have hpicks := picksFrom_pickString number
  change ((message.setString number text).pickLast (pickString number)).getD [] = text
  unfold WireMessage.setString
  split
  · rename_i hempty
    rw [pickLast_clearField hpicks, hempty, Option.getD_none]
  · have legal : 0 < number ∧ number < 2 ^ 29 ∧ (WireFormat.Value.len text).Fits :=
      ⟨hnumber.1, hnumber.2, htext⟩
    have hresult : pickString number ⟨number, .len text, legal⟩ = some text := if_pos rfl
    rw [pickLast_setField_self hpicks legal hresult, Option.getD_some]

/-- A 32-bit number is read off its four little-endian bytes. -/
theorem fromLittleEndian_bytes (n : UInt32) :
    fromLittleEndian ((List.range 4).map fun i => UInt8.ofNat (n.toNat / 256 ^ i)) = n := by
  have hlt := n.toNat_lt
  have hrange : List.range 4 = [0, 1, 2, 3] := rfl
  rw [fromLittleEndian, hrange]
  simp only [List.map_cons, List.map_nil, List.foldr_cons, List.foldr_nil, UInt8.toNat_ofNat']
  apply UInt32.toNat.inj
  rw [UInt32.toNat_ofNat']
  omega

/-- The getter of a number of four bytes gives back what was set. -/
theorem getFixed32_setFixed32 {number : ℕ} (hnumber : 0 < number ∧ number < 2 ^ 29) (n : UInt32)
    (message : WireMessage) :
    (message.setFixed32 number n.toNat).getFixed32 number = n := by
  have hpicks := picksFrom_pickFixed32 number
  have hlt := n.toNat_lt
  change ((message.setFixed32 number n.toNat).pickLast (pickFixed32 number)).getD 0 = n
  unfold WireMessage.setFixed32
  split
  · rename_i hzero
    rw [pickLast_clearField hpicks, Option.getD_none]
    apply UInt32.toNat.inj
    rw [Nat.mod_eq_of_lt hlt] at hzero
    exact hzero.symm
  · let bytes : Bytes := (List.range 4).map fun i => UInt8.ofNat (n.toNat / 256 ^ i)
    have legal : 0 < number ∧ number < 2 ^ 29 ∧ (WireFormat.Value.fixed32 bytes).Fits :=
      ⟨hnumber.1, hnumber.2, rfl⟩
    have hresult : pickFixed32 number ⟨number, .fixed32 bytes, legal⟩ =
        some (fromLittleEndian bytes) := if_pos rfl
    rw [pickLast_setField_self hpicks legal hresult, Option.getD_some, fromLittleEndian_bytes]

end EspHomeApi
