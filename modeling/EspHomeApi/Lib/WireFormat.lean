import EspHomeApi.Lib.Items
import EspHomeApi.Lib.Varint

/-!
# Tagged fields on the wire

A message on the wire is a sequence of fields, each a varint tag (eight times the field
number plus the wire type) followed by a value whose length the wire type decides. Reading
goes on until the input ends or a tag is zero or ends a group; that tag is consumed. The
encoding of a list of fields has no such tag, so it reads back the same at the end of the
input and in front of a zero byte.
-/

namespace WireFormat

open Reader

/-- The value of a field, by wire type. -/
inductive Value
  | varint (n : ℕ)
  | fixed64 (bytes : List UInt8)
  | len (bytes : List UInt8)
  | fixed32 (bytes : List UInt8)
  deriving DecidableEq

/-- The wire type of a value. -/
def Value.wireType : Value → ℕ
  | .varint _ => 0
  | .fixed64 _ => 1
  | .len _ => 2
  | .fixed32 _ => 5

/-- The sizes that the wire type of a value prescribes. -/
def Value.Fits : Value → Prop
  | .varint n => n < 2 ^ 64
  | .fixed64 bytes => bytes.length = 8
  | .len bytes => bytes.length < 2 ^ 64
  | .fixed32 bytes => bytes.length = 4

instance : DecidablePred Value.Fits := fun value =>
  match value with
  | .varint _ => inferInstanceAs (Decidable (_ < _))
  | .fixed64 _ => inferInstanceAs (Decidable (_ = _))
  | .len _ => inferInstanceAs (Decidable (_ < _))
  | .fixed32 _ => inferInstanceAs (Decidable (_ = _))

/-- A field with a legal number and a value of the right size. -/
structure Field where
  number : ℕ
  value : Value
  legal : 0 < number ∧ number < 2 ^ 29 ∧ value.Fits
  deriving DecidableEq

/-- The tag in front of a value. -/
def Field.tag (field : Field) : ℕ := 8 * field.number + field.value.wireType

/-- The bytes of a value. -/
def Value.write : Value → List UInt8
  | .varint n => Varint.write n
  | .fixed64 bytes => bytes
  | .len bytes => Varint.write bytes.length ++ bytes
  | .fixed32 bytes => bytes

/-- The bytes of a field. -/
def Field.write (field : Field) : List UInt8 := Varint.write field.tag ++ field.value.write

/-- The bytes of a message. -/
def write (fields : List Field) : List UInt8 := fields.flatMap Field.write

/-- Read the value that a wire type announces; groups are not supported. -/
def readValue : ℕ → List UInt8 → Option (Value × List UInt8)
  | 0 => andThen Varint.read fun n => answer (some (.varint (n % 2 ^ 64)))
  | 1 => andThen (takeExactly 8) fun bytes => answer (some (.fixed64 bytes))
  | 2 => andThen Varint.read fun n =>
      andThen (takeExactly n) fun bytes => answer (some (.len bytes))
  | 5 => andThen (takeExactly 4) fun bytes => answer (some (.fixed32 bytes))
  | _ => answer none

/-- Build a field, when its number and value are legal. -/
def makeField (number : ℕ) (value : Value) : Option Field :=
  if legal : 0 < number ∧ number < 2 ^ 29 ∧ value.Fits then some ⟨number, value, legal⟩ else none

/-- Read one field. -/
def readField : List UInt8 → Option (Field × List UInt8) :=
  andThen Varint.read fun tag =>
    andThen (readValue (tag % 8)) fun value => answer (makeField (tag / 8) value)

/-- A tag that ends the message. -/
def endsMessage (tag : ℕ) : Prop := tag % 2 ^ 32 = 0 ∨ tag % 8 = 4

instance : DecidablePred endsMessage := fun _ => inferInstanceAs (Decidable (_ ∨ _))

/-- Read an ending tag. -/
def readEnd : List UInt8 → Option (Unit × List UInt8) :=
  andThen Varint.read fun tag => answer (if endsMessage tag then some () else none)

/-- Read fields up to the end of the input or an ending tag. -/
def readFields : ℕ → List UInt8 → Option (List Field × List UInt8)
  | 0, _ => none
  | fuel + 1, input =>
    if input = [] then some ([], [])
    else
      match Varint.read input with
      | none => none
      | some (tag, rest) =>
        if endsMessage tag then some ([], rest)
        else
          match readField input with
          | none => none
          | some (field, rest) =>
            (readFields fuel rest).map fun (fields, rest) => (field :: fields, rest)

/-- Read a message. -/
def read (input : List UInt8) : Option (List Field × List UInt8) :=
  readFields (input.length + 1) input

/-- A value reads back under its wire type. -/
theorem reads_value (value : Value) (h : value.Fits) :
    Reads (readValue value.wireType) value.write value := by
  cases value with
  | varint n =>
    have hread := (Varint.reads_write n h).andThen
      (fun n => answer (some (Value.varint (n % 2 ^ 64)))) (reads_answer _)
    rwa [List.append_nil, Nat.mod_eq_of_lt h] at hread
  | fixed64 bytes =>
    have hread := (reads_takeExactly bytes).andThen
      (fun bytes => answer (some (Value.fixed64 bytes))) (reads_answer _)
    rwa [List.append_nil, show bytes.length = 8 from h] at hread
  | len bytes =>
    have hbody := (reads_takeExactly bytes).andThen
      (fun bytes => answer (some (Value.len bytes))) (reads_answer _)
    rw [List.append_nil] at hbody
    exact (Varint.reads_write _ h).andThen
      (fun n => andThen (takeExactly n) fun bytes => answer (some (Value.len bytes))) hbody
  | fixed32 bytes =>
    have hread := (reads_takeExactly bytes).andThen
      (fun bytes => answer (some (Value.fixed32 bytes))) (reads_answer _)
    rwa [List.append_nil, show bytes.length = 4 from h] at hread

/-- A wire type is below eight and never ends a group. -/
theorem Value.wireType_cases (value : Value) : value.wireType < 8 ∧ value.wireType ≠ 4 := by
  cases value <;> simp [wireType]

/-- The number and the wire type are read off the tag, which is a legal one. -/
theorem Field.tag_split (field : Field) :
    field.tag / 8 = field.number ∧ field.tag % 8 = field.value.wireType ∧
      field.tag < 2 ^ 32 ∧ ¬ endsMessage field.tag := by
  obtain ⟨hlt, hne⟩ := field.value.wireType_cases
  obtain ⟨hpos, hnumber, -⟩ := field.legal
  refine ⟨?_, ?_, ?_, ?_⟩
  · rw [tag]; omega
  · rw [tag]; omega
  · rw [tag]; omega
  · rintro (hzero | hgroup)
    · rw [tag] at hzero; omega
    · rw [tag] at hgroup; omega

/-- The tag of a field reads back. -/
theorem Field.reads_tag (field : Field) : Reads Varint.read (Varint.write field.tag) field.tag :=
  Varint.reads_write _ (field.tag_split.2.2.1.trans (by decide))

/-- A field reads back from its bytes. -/
theorem reads_field (field : Field) : Reads readField field.write field := by
  obtain ⟨hnumber, htype, -, -⟩ := field.tag_split
  have hmake : makeField (field.tag / 8) field.value = some field := by
    rw [hnumber, makeField, dif_pos field.legal]
  have hvalue : Reads (readValue (field.tag % 8)) field.value.write field.value := by
    rw [htype]
    exact reads_value field.value field.legal.2.2
  have hrest := hvalue.andThen (fun value => answer (makeField (field.tag / 8) value))
    (by rw [hmake]; exact reads_answer field)
  rw [List.append_nil] at hrest
  exact field.reads_tag.andThen _ hrest

/-- Reading a value depends on its own bytes only. -/
theorem local_readValue (wireType : ℕ) : Local (readValue wireType) := by
  unfold readValue
  split
  · exact Varint.local_read.andThen fun _ => local_answer _
  · exact (local_takeExactly 8).andThen fun _ => local_answer _
  · exact Varint.local_read.andThen fun n => (local_takeExactly n).andThen fun _ => local_answer _
  · exact (local_takeExactly 4).andThen fun _ => local_answer _
  · exact local_answer none

/-- Reading a field depends on its own bytes only. -/
theorem local_readField : Local readField :=
  Varint.local_read.andThen fun _ => (local_readValue _).andThen fun _ => local_answer _

/-- A field is not empty on the wire. -/
theorem Field.write_ne_nil (field : Field) : field.write ≠ [] := by
  intro h
  exact Varint.write_ne_nil field.tag (List.append_eq_nil_iff.mp h).1

/-- With enough fuel, one field is read and the rest follows. -/
theorem readFields_field (fuel : ℕ) (field : Field) (rest : List UInt8) :
    readFields (fuel + 1) (field.write ++ rest) =
      (readFields fuel rest).map fun (fields, rest) => (field :: fields, rest) := by
  have hne : field.write ++ rest ≠ [] := by
    intro h
    exact field.write_ne_nil (List.append_eq_nil_iff.mp h).1
  have htag : Varint.read (field.write ++ rest) = some (field.tag, field.value.write ++ rest) := by
    rw [Field.write, List.append_assoc]
    exact field.reads_tag _
  rw [readFields, if_neg hne, htag]
  simp only [if_neg field.tag_split.2.2.2, reads_field field rest]

/-- A message is read up to whatever ends it behind its fields. -/
theorem readFields_append (fields : List Field) (fuel : ℕ) (tail rest : List UInt8)
    (htail : ∀ fuel, readFields (fuel + 1) tail = some ([], rest))
    (hfuel : (write fields ++ tail).length < fuel) :
    readFields fuel (write fields ++ tail) = some (fields, rest) := by
  induction fields generalizing fuel with
  | nil =>
    obtain ⟨fuel, rfl⟩ := Nat.exists_eq_add_one_of_ne_zero (by omega : fuel ≠ 0)
    exact htail fuel
  | cons field fields ih =>
    obtain ⟨fuel, rfl⟩ := Nat.exists_eq_add_one_of_ne_zero (by omega : fuel ≠ 0)
    have hwrite : write (field :: fields) ++ tail = field.write ++ (write fields ++ tail) := by
      rw [write, List.flatMap_cons, List.append_assoc, ← write]
    have hlength := List.length_pos_iff.mpr field.write_ne_nil
    rw [hwrite, List.length_append] at hfuel
    rw [hwrite, readFields_field, ih fuel (by omega)]
    rfl

/-- At the end of the input a message reads back from its bytes. -/
theorem read_write (fields : List Field) : read (write fields) = some (fields, []) := by
  have h := readFields_append fields ((write fields).length + 1) [] [] (fun _ => rfl)
    (by rw [List.append_nil]; omega)
  rwa [List.append_nil] at h

/-- In front of a zero byte a message reads back as well, and the zero byte is consumed. -/
theorem read_write_zero (fields : List Field) (rest : List UInt8) :
    read (write fields ++ 0 :: rest) = some (fields, rest) := by
  refine readFields_append fields _ (0 :: rest) rest (fun fuel => ?_) (Nat.lt_succ_self _)
  rw [readFields, if_neg (List.cons_ne_nil _ _), Varint.read,
    Varint.readUpTo_short 9 0 rest (by decide)]
  rfl

/-- What is left behind the fields is the end of the input. -/
theorem readFields_suffix (fuel : ℕ) (input rest : List UInt8) (fields : List Field)
    (h : readFields fuel input = some (fields, rest)) : rest <:+ input := by
  induction fuel generalizing input fields with
  | zero => simp [readFields] at h
  | succ fuel ih =>
    rw [readFields] at h
    split at h
    · simp only [Option.some.injEq, Prod.mk.injEq] at h
      rw [← h.2]
      exact List.nil_suffix
    · split at h
      · simp at h
      · rename_i tag behind htag
        split at h
        · simp only [Option.some.injEq, Prod.mk.injEq] at h
          obtain ⟨word, rfl, -⟩ := Varint.local_read _ _ _ htag
          rw [← h.2]
          exact List.suffix_append word behind
        · split at h
          · simp at h
          · rename_i field behind hfield
            obtain ⟨⟨fields', rest'⟩, hrest, heq⟩ := Option.map_eq_some_iff.mp h
            simp only [Prod.mk.injEq] at heq
            obtain ⟨-, rfl⟩ := heq
            obtain ⟨word, rfl, -⟩ := local_readField _ _ _ hfield
            exact (ih behind fields' hrest).trans (List.suffix_append word behind)

/-- Reading an ending tag depends on its own bytes only. -/
theorem local_readEnd : Local readEnd := Varint.local_read.andThen fun _ => local_answer _

/-- An ending tag is read where a tag ends the message. -/
theorem readEnd_eq_some_iff (input rest : List UInt8) :
    readEnd input = some ((), rest) ↔
      ∃ tag, Varint.read input = some (tag, rest) ∧ endsMessage tag := by
  constructor
  · intro h
    obtain ⟨⟨tag, behind⟩, htag, hanswer⟩ := Option.bind_eq_some_iff.mp h
    obtain ⟨_, hends, heq⟩ := Option.map_eq_some_iff.mp hanswer
    obtain rfl : behind = rest := congrArg Prod.snd heq
    refine ⟨tag, htag, ?_⟩
    by_contra hnot
    rw [if_neg hnot] at hends
    simp at hends
  · intro ⟨tag, htag, hends⟩
    have hanswer : answer (if endsMessage tag then some () else none) rest = some ((), rest) := by
      rw [if_pos hends]
      rfl
    rw [readEnd, andThen, htag]
    exact hanswer

/-- A field that reads has a tag that does not end the message. -/
theorem tag_of_readField {input rest : List UInt8} {field : Field}
    (h : readField input = some (field, rest)) :
    ∃ tag behind, Varint.read input = some (tag, behind) ∧ ¬ endsMessage tag := by
  obtain ⟨⟨tag, behind⟩, htag, hvalue⟩ := Option.bind_eq_some_iff.mp h
  obtain ⟨⟨value, _⟩, hread, hanswer⟩ := Option.bind_eq_some_iff.mp hvalue
  obtain ⟨made, hmade, -⟩ := Option.map_eq_some_iff.mp hanswer
  refine ⟨tag, behind, htag, ?_⟩
  unfold makeField at hmade
  split at hmade
  · rename_i legal
    rintro (hzero | hgroup)
    · omega
    · rw [hgroup] at hread
      simp [readValue, answer] at hread
  · simp at hmade

/-- Reading fields is reading items up to an end marker or the end of the input. -/
theorem readsItems_of_readFields {fuel : ℕ} {input rest : List UInt8} {fields : List Field}
    (h : readFields fuel input = some (fields, rest)) :
    ReadsItems readField readEnd input fields rest := by
  induction fuel generalizing input fields with
  | zero => simp [readFields] at h
  | succ fuel ih =>
    rw [readFields] at h
    split at h
    · rename_i hnil
      simp only [Option.some.injEq, Prod.mk.injEq] at h
      rw [hnil, ← h.1]
      exact Or.inr ⟨h.2.symm, .nil⟩
    · split at h
      · simp at h
      · rename_i tag behind htag
        split at h
        · rename_i hends
          simp only [Option.some.injEq, Prod.mk.injEq] at h
          rw [← h.1, ← h.2]
          exact Or.inl (.marker ((readEnd_eq_some_iff _ _).mpr ⟨tag, htag, hends⟩))
        · split at h
          · simp at h
          · rename_i field behind hfield
            obtain ⟨⟨fields', rest'⟩, hrest, heq⟩ := Option.map_eq_some_iff.mp h
            simp only [Prod.mk.injEq] at heq
            obtain ⟨rfl, rfl⟩ := heq
            rcases ih hrest with hended | ⟨hnil, hwhole⟩
            · exact Or.inl (.item hfield hended)
            · exact Or.inr ⟨hnil, .item hfield hwhole⟩

/-- A field is at least one byte of the input. -/
theorem readField_length_lt {input rest : List UInt8} {field : Field}
    (h : readField input = some (field, rest)) : rest.length < input.length := by
  obtain ⟨⟨tag, behind⟩, htag, hvalue⟩ := Option.bind_eq_some_iff.mp h
  have hlt := Varint.read_length_lt htag
  obtain ⟨word, hword, -⟩ := ((local_readValue (tag % 8)).andThen fun value =>
    local_answer (makeField (tag / 8) value)) behind field rest hvalue
  rw [hword, List.length_append] at hlt
  omega

/-- One field in front of what is read with the fuel that is left. -/
theorem readFields_cons {fuel : ℕ} {input next : List UInt8} {field : Field}
    (hfield : readField input = some (field, next)) :
    readFields (fuel + 1) input =
      (readFields fuel next).map fun (fields, rest) => (field :: fields, rest) := by
  obtain ⟨tag, behind, htag, hends⟩ := tag_of_readField hfield
  have hne : input ≠ [] := by
    rintro rfl
    have hlt := readField_length_lt hfield
    simp at hlt
  rw [readFields, if_neg hne, htag]
  simp only [if_neg hends, hfield]

/-- With enough fuel, the items are read as fields. -/
theorem readFields_of_readsItems {fuel : ℕ} {input rest : List UInt8} {fields : List Field}
    (h : ReadsItems readField readEnd input fields rest) (hfuel : input.length < fuel) :
    readFields fuel input = some (fields, rest) := by
  obtain ⟨fuel, rfl⟩ := Nat.exists_eq_add_one_of_ne_zero (by omega : fuel ≠ 0)
  rcases h with hended | ⟨rfl, hwhole⟩
  · induction hended generalizing fuel with
    | @marker input rest hend =>
      obtain ⟨tag, htag, hends⟩ := (readEnd_eq_some_iff _ _).mp hend
      have hne : input ≠ [] := by
        rintro rfl
        simp [Varint.read, Varint.readUpTo] at htag
      rw [readFields, if_neg hne, htag]
      simp only [if_pos hends]
    | item hitem _ ih =>
      have hlt := readField_length_lt hitem
      obtain ⟨fuel, rfl⟩ := Nat.exists_eq_add_one_of_ne_zero (by omega : fuel ≠ 0)
      rw [readFields_cons hitem, ih fuel (by omega)]
      rfl
  · induction hwhole generalizing fuel with
    | nil => rfl
    | item hitem _ ih =>
      have hlt := readField_length_lt hitem
      obtain ⟨fuel, rfl⟩ := Nat.exists_eq_add_one_of_ne_zero (by omega : fuel ≠ 0)
      rw [readFields_cons hitem, ih fuel (by omega)]
      rfl

/-- A message is read exactly where its fields are read up to an ending tag or the end of the
input. -/
theorem read_eq_some_iff (input rest : List UInt8) (fields : List Field) :
    read input = some (fields, rest) ↔ ReadsItems readField readEnd input fields rest :=
  ⟨readsItems_of_readFields, fun h => readFields_of_readsItems h (Nat.lt_succ_self _)⟩

end WireFormat
