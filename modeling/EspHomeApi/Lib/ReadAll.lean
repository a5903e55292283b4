import EspHomeApi.Lib.ShortWrite
import Mathlib.Data.List.Forall2

/-!
# Reading all of a stream

Whoever is at the other end of a stream of words reads one value after the other, as far as it gets.
If no word but the last was cut short, it gets the values of exactly the words that were taken whole.
-/

namespace Reader

open ShortWrite

variable {α β : Type*} {read : List α → Option (β × List α)}

/-- Read values as long as the fuel lasts and there is one. -/
def readUpTo (read : List α → Option (β × List α)) : ℕ → List α → List β
  | 0, _ => []
  | fuel + 1, input =>
    match read input with
    | none => []
    | some (value, rest) => value :: readUpTo read fuel rest

/-- Read all values; none is read from nothing, so that there are no more of them than elements. -/
def readAll (read : List α → Option (β × List α)) (input : List α) : List β :=
  readUpTo read input.length input

/-- Words are read off as their values, up to a part that nothing is read from. -/
theorem readUpTo_flatten {words : List (List α)} {values : List β}
    (hwords : List.Forall₂ (Reads read) words values) {part : List α} (hpart : read part = none)
    {fuel : ℕ} (hfuel : words.length ≤ fuel) :
    readUpTo read fuel (words.flatten ++ part) = values := by
  induction hwords generalizing fuel with
  | nil =>
    cases fuel with
    | zero => rfl
    | succ fuel => rw [List.flatten_nil, List.nil_append, readUpTo, hpart]
  | cons hword _ ih =>
    cases fuel with
    | zero => exact absurd hfuel (by simp)
    | succ fuel =>
      rw [List.flatten_cons, List.append_assoc, readUpTo, hword]
      exact congrArg _ (ih (Nat.le_of_succ_le_succ hfuel))

/-- A reader that reads nothing from nothing has no empty words, so that there are no more words
than elements. -/
theorem length_le_length_flatten (hnil : read [] = none) {words : List (List α)}
    (hwords : ∀ word ∈ words, IsWord read word) : words.length ≤ words.flatten.length := by
  induction words with
  | nil => exact Nat.le_refl 0
  | cons word words ih =>
    obtain ⟨value, hvalue⟩ := hwords word List.mem_cons_self
    have hpos : 0 < word.length := by
      rw [List.length_pos_iff]
      intro hsame
      subst hsame
      have hread := hvalue []
      rw [List.append_nil, hnil] at hread
      simp at hread
    have htail := ih fun other hother => hwords other (List.mem_cons_of_mem word hother)
    rw [List.flatten_cons, List.length_append, List.length_cons]
    omega

/-- Nothing is read from an unfinished word. -/
theorem Local.read_unfinished (hlocal : Local read) {part : List α} (hpart : Unfinished read part) :
    read part = none := by
  cases hread : read part with
  | none => rfl
  | some result =>
    obtain ⟨value, rest⟩ := result
    obtain ⟨word, hword, hreads⟩ := hlocal part value rest hread
    exact absurd hword (hpart.ne_append ⟨value, hreads⟩)

/-- Words have values. -/
theorem exists_values {words : List (List α)} (hwords : ∀ word ∈ words, IsWord read word) :
    ∃ values, List.Forall₂ (Reads read) words values := by
  induction words with
  | nil => exact ⟨[], .nil⟩
  | cons word words ih =>
    obtain ⟨value, hvalue⟩ := hwords word List.mem_cons_self
    obtain ⟨values, hvalues⟩ := ih fun other hother => hwords other (List.mem_cons_of_mem word hother)
    exact ⟨value :: values, .cons hvalue hvalues⟩

/-- The words that were taken whole. -/
def wholeWords (writes : List (List α × ℕ)) : List (List α) :=
  (writes.filter fun write => write.2 = write.1.length).map Prod.fst

/-- If no word but the last was cut short, the stream is read as the values of the words that were
taken whole. -/
theorem readAll_stream (hlocal : Local read) (hnil : read [] = none) {writes : List (List α × ℕ)}
    (hlegal : ∀ write ∈ writes, Legal read write)
    (hwhole : ∀ write ∈ writes.dropLast, write.2 = write.1.length) :
    List.Forall₂ (Reads read) (wholeWords writes) (readAll read (stream writes)) := by
  have hwords : ∀ word ∈ wholeWords writes, IsWord read word := by
    intro word hword
    obtain ⟨write, hwrite, rfl⟩ := List.mem_map.mp hword
    exact (hlegal write (List.mem_of_mem_filter hwrite)).isWord
  obtain ⟨values, hvalues⟩ := exists_values hwords
  have hsplit : ∃ part, stream writes = (wholeWords writes).flatten ++ part ∧ read part = none := by
    rcases List.eq_nil_or_concat writes with rfl | ⟨earlier, last, rfl⟩
    · exact ⟨[], rfl, hnil⟩
    · rw [List.concat_eq_append] at hlegal hwhole ⊢
      rw [List.dropLast_concat] at hwhole
      have hearlier : wholeWords earlier = earlier.map Prod.fst := by
        rw [wholeWords, List.filter_eq_self.mpr (by simpa using hwhole)]
      have hlast : stream [last] = last.1.take last.2 := List.flatMap_singleton _ _
      rw [stream_append, stream_of_whole hwhole, wholeWords, List.filter_append, List.map_append,
        ← wholeWords, hearlier, List.flatten_append, hlast]
      by_cases hall : last.2 = last.1.length
      · refine ⟨[], ?_, hnil⟩
        simp [hall]
      · have hle := (hlegal last (by simp)).le
        refine ⟨last.1.take last.2, by simp [hall], hlocal.read_unfinished ?_⟩
        exact (hlegal last (by simp)).unfinished (by omega)
  obtain ⟨part, hstream, hpart⟩ := hsplit
  have hfuel : (wholeWords writes).length ≤ (stream writes).length := by
    rw [hstream, List.length_append]
    exact Nat.le_trans (length_le_length_flatten hnil hwords) (Nat.le_add_right _ _)
  have hread := readUpTo_flatten hvalues hpart hfuel
  rw [← hstream] at hread
  rw [readAll, hread]
  exact hvalues

end Reader
