import Mathlib.Data.List.Basic

/-!
# Readers that consume a prefix of their input

A reader takes a value off the front of a list and returns the rest, or fails. A reader is
local when what it takes depends only on the elements it consumes. Local readers compose,
and the words they read form a prefix-free code, so a concatenation of such words followed
by an incomplete word can be cut in one way only.
-/

namespace Reader

variable {α β γ : Type*}

/-- The word `word` reads as `value`, whatever follows it. -/
def Reads (read : List α → Option (β × List α)) (word : List α) (value : β) : Prop :=
  ∀ rest, read (word ++ rest) = some (value, rest)

/-- A successful read is the read of a prefix that decides it. -/
def Local (read : List α → Option (β × List α)) : Prop :=
  ∀ input value rest, read input = some (value, rest) →
    ∃ word, input = word ++ rest ∧ Reads read word value

/-- Read a value and let it choose what is read next. -/
def andThen (read : List α → Option (β × List α)) (next : β → List α → Option (γ × List α)) :
    List α → Option (γ × List α) :=
  fun input => (read input).bind fun (value, rest) => next value rest

/-- Read exactly `count` elements. -/
def takeExactly (count : ℕ) (input : List α) : Option (List α × List α) :=
  if count ≤ input.length then some (input.take count, input.drop count) else none

/-- Answer with a value without reading anything, provided that there is one. -/
def answer (value : Option β) (input : List α) : Option (β × List α) :=
  value.map fun value => (value, input)

/-- An answer reads the empty word. -/
theorem reads_answer (value : β) : Reads (answer (some value)) ([] : List α) value :=
  fun _ => rfl

/-- An answer is local, as it looks at nothing. -/
theorem local_answer (value : Option β) :
    Local (answer value : List α → Option (β × List α)) := by
  intro input result rest h
  obtain ⟨answered, rfl, heq⟩ := Option.map_eq_some_iff.mp h
  simp only [Prod.mk.injEq] at heq
  obtain ⟨rfl, rfl⟩ := heq
  exact ⟨[], rfl, reads_answer answered⟩

/-- Words read one after the other are read by the composition. -/
theorem Reads.andThen {read : List α → Option (β × List α)} {first second : List α} {value : β}
    {result : γ} (hfirst : Reads read first value) (next : β → List α → Option (γ × List α))
    (hsecond : Reads (next value) second result) :
    Reads (andThen read next) (first ++ second) result := by
  intro rest
  rw [List.append_assoc, Reader.andThen, hfirst]
  exact hsecond rest

/-- Local readers compose. -/
theorem Local.andThen {read : List α → Option (β × List α)}
    {next : β → List α → Option (γ × List α)} (hread : Local read)
    (hnext : ∀ value, Local (next value)) : Local (andThen read next) := by
  intro input result rest h
  obtain ⟨⟨value, middle⟩, hvalue, hresult⟩ := Option.bind_eq_some_iff.mp h
  obtain ⟨first, rfl, hfirst⟩ := hread input value middle hvalue
  obtain ⟨second, rfl, hsecond⟩ := hnext value middle result rest hresult
  exact ⟨first ++ second, (List.append_assoc _ _ _).symm, hfirst.andThen next hsecond⟩

/-- A word of the given length is read whole. -/
theorem reads_takeExactly (word : List α) : Reads (takeExactly word.length) word word := by
  intro rest
  simp [takeExactly]

/-- Reading a fixed count depends on the elements read only. -/
theorem local_takeExactly (count : ℕ) :
    Local (takeExactly count : List α → Option (List α × List α)) := by
  intro input value rest h
  by_cases hcount : count ≤ input.length
  · simp only [takeExactly, if_pos hcount, Option.some.injEq, Prod.mk.injEq] at h
    obtain ⟨rfl, rfl⟩ := h
    refine ⟨input.take count, (List.take_append_drop count input).symm, ?_⟩
    have hword := reads_takeExactly (input.take count)
    rwa [List.length_take_of_le hcount] at hword
  · simp [takeExactly, hcount] at h

/-- Two words read off the same input coincide, and so do the rests behind them. -/
theorem Reads.append_inj {read : List α → Option (β × List α)} {left right : List α}
    {leftValue rightValue : β} {leftRest rightRest : List α}
    (hleft : Reads read left leftValue) (hright : Reads read right rightValue)
    (h : left ++ leftRest = right ++ rightRest) :
    left = right ∧ leftValue = rightValue ∧ leftRest = rightRest := by
  have heq : some (leftValue, leftRest) = some (rightValue, rightRest) := by
    rw [← hleft leftRest, h, hright rightRest]
  simp only [Option.some.injEq, Prod.mk.injEq] at heq
  obtain ⟨hvalue, rfl⟩ := heq
  exact ⟨List.append_cancel_right h, hvalue, rfl⟩

/-- No word read is a prefix of another one. -/
theorem Reads.eq_of_prefix {read : List α → Option (β × List α)} {left right : List α}
    {leftValue rightValue : β} (hleft : Reads read left leftValue)
    (hright : Reads read right rightValue) (h : left <+: right) : left = right := by
  obtain ⟨rest, hrest⟩ := h
  exact (hleft.append_inj hright (hrest.trans (List.append_nil right).symm)).1

/-- A word some value is read from. -/
def IsWord (read : List α → Option (β × List α)) (word : List α) : Prop :=
  ∃ value, Reads read word value

/-- A list that ends inside a word: a prefix of it, but not all of it. -/
def Unfinished (read : List α → Option (β × List α)) (part : List α) : Prop :=
  ∃ word, IsWord read word ∧ part <+: word ∧ part ≠ word

/-- A word never starts with another word cut short by an unfinished one. -/
theorem Unfinished.ne_append {read : List α → Option (β × List α)} {part word rest : List α}
    (hpart : Unfinished read part) (hword : IsWord read word) : part ≠ word ++ rest := by
  rintro rfl
  obtain ⟨whole, ⟨wholeValue, hwhole⟩, hpre, hne⟩ := hpart
  obtain ⟨value, hvalue⟩ := hword
  have hsame := hvalue.eq_of_prefix hwhole ((List.prefix_append word rest).trans hpre)
  subst hsame
  have hlength := hpre.length_le
  rw [List.length_append] at hlength
  have hrest : rest = [] := List.eq_nil_of_length_eq_zero (by omega)
  exact hne (by rw [hrest, List.append_nil])

/-- A concatenation of words with an unfinished tail can be cut in one way only. -/
theorem flatten_append_inj {read : List α → Option (β × List α)}
    {left right : List (List α)} {leftPart rightPart : List α}
    (hleft : ∀ word ∈ left, IsWord read word) (hright : ∀ word ∈ right, IsWord read word)
    (hleftPart : Unfinished read leftPart) (hrightPart : Unfinished read rightPart)
    (h : left.flatten ++ leftPart = right.flatten ++ rightPart) :
    left = right ∧ leftPart = rightPart := by
  induction left generalizing right with
  | nil =>
    cases right with
    | nil => exact ⟨rfl, h⟩
    | cons word rest =>
      simp only [List.flatten_nil, List.nil_append, List.flatten_cons, List.append_assoc] at h
      exact absurd h (hleftPart.ne_append (hright word List.mem_cons_self))
  | cons word words ih =>
    cases right with
    | nil =>
      simp only [List.flatten_nil, List.nil_append, List.flatten_cons, List.append_assoc] at h
      exact absurd h.symm (hrightPart.ne_append (hleft word List.mem_cons_self))
    | cons word' words' =>
      simp only [List.flatten_cons, List.append_assoc] at h
      obtain ⟨value, hvalue⟩ := hleft word List.mem_cons_self
      obtain ⟨value', hvalue'⟩ := hright word' List.mem_cons_self
      obtain ⟨rfl, -, htail⟩ := hvalue.append_inj hvalue' h
      obtain ⟨rfl, rfl⟩ := ih (fun w hw => hleft w (List.mem_cons_of_mem _ hw))
        (fun w hw => hright w (List.mem_cons_of_mem _ hw)) htail
      exact ⟨rfl, rfl⟩

end Reader
