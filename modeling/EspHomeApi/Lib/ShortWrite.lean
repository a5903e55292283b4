import EspHomeApi.Lib.Reader
import Mathlib.Data.List.Induction

/-!
# Streams that are written in words, some of them cut short

A writer hands over words of a prefix-free code one after the other, and of each word only a number
of elements is taken. The stream is a concatenation of words at every moment, up to a last
unfinished one behind which nothing follows, exactly when no word but the last is cut short.
-/

namespace ShortWrite

open Reader

variable {α β : Type*} {read : List α → Option (β × List α)} {writes : List (List α × ℕ)}

/-- What was taken of the words, each written with the number of elements taken. -/
def stream (writes : List (List α × ℕ)) : List α := writes.flatMap fun write => write.1.take write.2

/-- At least one element of a word was taken, and at most all of them. -/
structure Legal (read : List α → Option (β × List α)) (write : List α × ℕ) : Prop where
  isWord : IsWord read write.1
  pos : 0 < write.2
  le : write.2 ≤ write.1.length

/-- The elements are words and an unfinished part; if there is such a part, nothing follows. -/
def FramedBefore (read : List α → Option (β × List α)) (now later : List α) : Prop :=
  ∃ (words : List (List α)) (part : List α), now = words.flatten ++ part ∧
    (∀ word ∈ words, IsWord read word) ∧ (part = [] ∨ Unfinished read part ∧ later = [])

/-- The stream is framed at every moment. -/
def FramedAlways (read : List α → Option (β × List α)) (writes : List (List α × ℕ)) : Prop :=
  ∀ before after, writes = before ++ after → FramedBefore read (stream before) (stream after)

@[simp] theorem stream_append (before after : List (List α × ℕ)) :
    stream (before ++ after) = stream before ++ stream after := List.flatMap_append

/-- Words that were taken whole form their concatenation. -/
theorem stream_of_whole (h : ∀ write ∈ writes, write.2 = write.1.length) :
    stream writes = (writes.map Prod.fst).flatten := by
  induction writes with
  | nil => rfl
  | cons write writes ih =>
    have htail := ih fun other hother => h other (List.mem_cons_of_mem write hother)
    rw [stream, List.flatMap_cons, h write List.mem_cons_self, List.take_length]
    exact congrArg (write.1 ++ ·) htail

/-- Something was taken of every word. -/
theorem stream_ne_nil (hlegal : ∀ write ∈ writes, Legal read write) (hne : writes ≠ []) :
    stream writes ≠ [] := by
  cases writes with
  | nil => exact absurd rfl hne
  | cons write writes =>
    have h := hlegal write List.mem_cons_self
    intro hnil
    rw [stream, List.flatMap_cons, List.append_eq_nil_iff, List.take_eq_nil_iff] at hnil
    rcases hnil.1 with hzero | hempty
    · exact absurd hzero (Nat.ne_of_gt h.pos)
    · have hlength := Nat.lt_of_lt_of_le h.pos h.le
      rw [hempty] at hlength
      exact absurd hlength (by simp)

/-- A word is unfinished as long as not all of it was taken. -/
theorem Legal.unfinished {write : List α × ℕ} (h : Legal read write) {count : ℕ}
    (hcount : count < write.1.length) : Unfinished read (write.1.take count) := by
  refine ⟨write.1, h.isWord, List.take_prefix count write.1, fun hsame => ?_⟩
  have hlength := congrArg List.length hsame
  rw [List.length_take] at hlength
  omega

/-- In a stream that is framed at every moment, words that are followed by others were taken
whole. -/
theorem FramedAlways.whole (hframed : FramedAlways read writes)
    (hlegal : ∀ write ∈ writes, Legal read write) (before : List (List α × ℕ))
    {after : List (List α × ℕ)} (hsplit : writes = before ++ after) (hne : after ≠ []) :
    ∀ write ∈ before, write.2 = write.1.length := by
  induction before using List.reverseRecOn generalizing after with
  | nil => simp
  | append_singleton before write ih =>
    have hcons : writes = before ++ write :: after := by
      rw [hsplit, List.append_assoc, List.singleton_append]
    have hwhole := ih hcons (by simp)
    have hlater : stream after ≠ [] := by
      have hlegalAfter : ∀ other ∈ after, Legal read other := fun other hother =>
        hlegal other (hsplit ▸ List.mem_append_right _ hother)
      exact stream_ne_nil hlegalAfter hne
    have hwrite : Legal read write := hlegal write (by rw [hsplit]; simp)
    obtain ⟨words, part, hnow, hwords, hpart⟩ := hframed _ _ hsplit
    rcases hpart with rfl | ⟨-, hnothing⟩
    · have hlast : write.2 = write.1.length := by
        by_contra hshort
        have hlt : write.2 < write.1.length := by
          have := hwrite.le
          omega
        -- The stream ends inside the last word, and cannot be cut at a boundary as well.
        rw [stream_append, stream_of_whole hwhole, stream, List.flatMap_singleton] at hnow
        have hbefore : ∀ word ∈ before.map Prod.fst, IsWord read word := by
          intro word hword
          obtain ⟨other, hother, rfl⟩ := List.mem_map.mp hword
          exact (hlegal other (by rw [hsplit]; simp [hother])).isWord
        have hnone : Unfinished read (write.1.take 0) := hwrite.unfinished (by omega)
        have hempty := (flatten_append_inj hbefore hwords (hwrite.unfinished hlt) hnone hnow).2
        rw [List.take_zero, List.take_eq_nil_iff] at hempty
        have hpos := hwrite.pos
        rcases hempty with hzero | hnil
        · omega
        · rw [hnil, List.length_nil] at hlt
          omega
      intro other hother
      rcases List.mem_append.mp hother with hold | hnew
      · exact hwhole other hold
      · rw [List.mem_singleton.mp hnew]
        exact hlast
    · exact absurd hnothing hlater

/-- Words that were taken whole, up to the last one, frame the stream at every moment. -/
theorem framedAlways_of_whole (hlegal : ∀ write ∈ writes, Legal read write)
    (hwhole : ∀ write ∈ writes.dropLast, write.2 = write.1.length) : FramedAlways read writes := by
  intro before after hsplit
  have hmem : ∀ write ∈ before, write ∈ writes := fun write hwrite => by
    rw [hsplit]
    exact List.mem_append_left after hwrite
  rcases List.eq_nil_or_concat before with rfl | ⟨earlier, write, rfl⟩
  · exact ⟨[], [], rfl, by simp, Or.inl rfl⟩
  · rw [List.concat_eq_append] at hsplit hmem ⊢
    have hearlier : ∀ other ∈ earlier, other.2 = other.1.length := by
      intro other hother
      apply hwhole
      rw [hsplit, List.append_assoc, List.singleton_append, List.dropLast_append_cons]
      exact List.mem_append_left _ hother
    have hwords : ∀ word ∈ earlier.map Prod.fst, IsWord read word := by
      intro word hword
      obtain ⟨other, hother, rfl⟩ := List.mem_map.mp hword
      exact (hlegal other (hmem other (List.mem_append_left _ hother))).isWord
    have hlegalWrite := hlegal write (hmem write (by simp))
    have hstream : stream (earlier ++ [write]) =
        (earlier.map Prod.fst).flatten ++ write.1.take write.2 := by
      rw [stream_append, stream_of_whole hearlier, stream, List.flatMap_singleton]
    by_cases hlast : write.2 = write.1.length
    · refine ⟨earlier.map Prod.fst ++ [write.1], [], ?_, ?_, Or.inl rfl⟩
      · rw [hstream, hlast, List.take_length]
        simp
      · intro word hword
        rcases List.mem_append.mp hword with hold | hnew
        · exact hwords word hold
        · rw [List.mem_singleton.mp hnew]
          exact hlegalWrite.isWord
    · have hlt : write.2 < write.1.length := by
        have := hlegalWrite.le
        omega
      refine ⟨earlier.map Prod.fst, _, hstream, hwords, Or.inr ⟨hlegalWrite.unfinished hlt, ?_⟩⟩
      cases after with
      | nil => rfl
      | cons next after =>
        refine absurd (hwhole write ?_) hlast
        rw [hsplit, List.dropLast_append_cons]
        exact List.mem_append_left _ (by simp)

/-- The stream is framed at every moment exactly when no word but the last was cut short. -/
theorem framedAlways_iff (hlegal : ∀ write ∈ writes, Legal read write) :
    FramedAlways read writes ↔ ∀ write ∈ writes.dropLast, write.2 = write.1.length := by
  refine ⟨fun hframed => ?_, framedAlways_of_whole hlegal⟩
  rcases List.eq_nil_or_concat writes with rfl | ⟨before, last, hwrites⟩
  · simp
  · rw [List.concat_eq_append] at hwrites
    rw [hwrites, List.dropLast_concat]
    exact hframed.whole hlegal before hwrites (by simp)

end ShortWrite
