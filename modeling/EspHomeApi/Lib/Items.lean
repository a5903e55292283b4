import EspHomeApi.Lib.Reader

/-!
# Items up to an end marker

A sequence of items is read until an end marker, which is consumed, or until the input ends. What
follows an end marker never matters. A sequence that ends with the input goes on as soon as the
input does: one more item behind it is one more item of the sequence.
-/

namespace Reader

variable {α β : Type*} {readItem : List α → Option (β × List α)}
  {readEnd : List α → Option (Unit × List α)}

/-- The items are read up to an end marker, with the given input behind it. -/
inductive Ended (readItem : List α → Option (β × List α)) (readEnd : List α → Option (Unit × List α)) :
    List α → List β → List α → Prop
  | marker {input rest : List α} (hend : readEnd input = some ((), rest)) :
    Ended readItem readEnd input [] rest
  | item {input next rest : List α} {item : β} {items : List β}
    (hitem : readItem input = some (item, next)) (hrest : Ended readItem readEnd next items rest) :
    Ended readItem readEnd input (item :: items) rest

/-- The items are read up to the end of the input. -/
inductive Whole (readItem : List α → Option (β × List α)) : List α → List β → Prop
  | nil : Whole readItem [] []
  | item {input next : List α} {item : β} {items : List β}
    (hitem : readItem input = some (item, next)) (hrest : Whole readItem next items) :
    Whole readItem input (item :: items)

/-- The items are read up to an end marker or the end of the input. -/
def ReadsItems (readItem : List α → Option (β × List α)) (readEnd : List α → Option (Unit × List α))
    (input : List α) (items : List β) (rest : List α) : Prop :=
  Ended readItem readEnd input items rest ∨ (rest = [] ∧ Whole readItem input items)

/-- A local reader reads the same in front of more input. -/
theorem Local.read_append {read : List α → Option (β × List α)} (hread : Local read)
    {input rest : List α} {value : β} (h : read input = some (value, rest)) (more : List α) :
    read (input ++ more) = some (value, rest ++ more) := by
  obtain ⟨word, rfl, hword⟩ := hread input value rest h
  rw [List.append_assoc, hword]

/-- What follows an end marker is not looked at. -/
theorem Ended.append (hitems : Local readItem) (hends : Local readEnd) {input rest : List α}
    {items : List β} (h : Ended readItem readEnd input items rest) (more : List α) :
    Ended readItem readEnd (input ++ more) items (rest ++ more) := by
  induction h with
  | marker hend => exact .marker (hends.read_append hend more)
  | item hitem _ ih => exact .item (hitems.read_append hitem more) ih

/-- A sequence that ends with the input takes one more item. -/
theorem Whole.append (hitems : Local readItem) {input word : List α} {items : List β} {item : β}
    (h : Whole readItem input items) (hword : Reads readItem word item) :
    Whole readItem (input ++ word) (items ++ [item]) := by
  induction h with
  | nil =>
    have hread := hword []
    rw [List.append_nil] at hread
    exact .item hread .nil
  | item hitem _ ih => exact .item (hitems.read_append hitem word) ih

end Reader
