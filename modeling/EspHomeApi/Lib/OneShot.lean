import Mathlib.Data.List.Basic

/-!
# A mailbox for one message

A mailbox takes the next message that is posted after it was opened, and is closed by it. Messages
that are posted while it is closed are lost.
-/

namespace OneShot

variable {α : Type*}

/-- What happens around a mailbox. -/
inductive Signal (α : Type*) where
  | opened
  | posted (a : α)

/-- Whether the mailbox is open behind the signals, from whether it was before them. -/
def openAfter (isOpen : Bool) : List (Signal α) → Bool
  | [] => isOpen
  | .opened :: signals => openAfter true signals
  | .posted _ :: signals => openAfter false signals

/-- The messages that the mailbox takes. -/
def taken (isOpen : Bool) : List (Signal α) → List α
  | [] => []
  | .opened :: signals => taken true signals
  | .posted a :: signals => (if isOpen then [a] else []) ++ taken false signals

/-- The messages that are posted. -/
def posts : List (Signal α) → List α :=
  List.filterMap fun
    | .posted a => some a
    | _ => none

/-- The mailbox is open whenever a message is posted. -/
def OpenWhenPosted (isOpen : Bool) (signals : List (Signal α)) : Prop :=
  ∀ before a after, signals = before ++ .posted a :: after → openAfter isOpen before = true

/-- Signals are worked off one after the other. -/
theorem openAfter_append (isOpen : Bool) (first second : List (Signal α)) :
    openAfter isOpen (first ++ second) = openAfter (openAfter isOpen first) second := by
  induction first generalizing isOpen with
  | nil => rfl
  | cons signal first ih =>
    cases signal with
    | opened => exact ih true
    | posted a => exact ih false

/-- What is taken from two lists of signals is taken from one after the other. -/
theorem taken_append (isOpen : Bool) (first second : List (Signal α)) :
    taken isOpen (first ++ second) =
      taken isOpen first ++ taken (openAfter isOpen first) second := by
  induction first generalizing isOpen with
  | nil => rfl
  | cons signal first ih =>
    cases signal with
    | opened => exact ih true
    | posted a =>
      rw [List.cons_append, taken, taken, ih false, List.append_assoc]
      rfl

/-- Nothing is taken but what is posted, in order. -/
theorem taken_sublist (isOpen : Bool) (signals : List (Signal α)) :
    (taken isOpen signals).Sublist (posts signals) := by
  induction signals generalizing isOpen with
  | nil => exact List.Sublist.refl []
  | cons signal signals ih =>
    cases signal with
    | opened => exact ih true
    | posted a =>
      have hrest := ih false
      cases isOpen with
      | false => exact hrest.cons a
      | true => exact hrest.cons_cons a

/-- The mailbox is open before it was opened exactly if it is open behind that. -/
theorem openWhenPosted_opened {isOpen : Bool} {signals : List (Signal α)} :
    OpenWhenPosted isOpen (.opened :: signals) ↔ OpenWhenPosted true signals := by
  constructor
  · intro h before a after hsplit
    exact h (.opened :: before) a after (by rw [hsplit, List.cons_append])
  · intro h before a after hsplit
    cases before with
    | nil => simp at hsplit
    | cons first before =>
      obtain ⟨rfl, hrest⟩ := List.cons.inj hsplit
      exact h before a after hrest

/-- The first message needs an open mailbox, which it closes. -/
theorem openWhenPosted_posted {isOpen : Bool} {a : α} {signals : List (Signal α)} :
    OpenWhenPosted isOpen (.posted a :: signals) ↔
      isOpen = true ∧ OpenWhenPosted false signals := by
  constructor
  · intro h
    refine ⟨h [] a signals rfl, fun before b after hsplit => ?_⟩
    exact h (.posted a :: before) b after (by rw [hsplit, List.cons_append])
  · intro hposted before b after hsplit
    obtain ⟨hopen, h⟩ := hposted
    cases before with
    | nil => exact hopen
    | cons first before =>
      obtain ⟨rfl, hrest⟩ := List.cons.inj hsplit
      exact h before b after hrest

/-- Nothing is lost exactly when the mailbox is open whenever a message is posted. -/
theorem taken_eq_posts_iff (isOpen : Bool) (signals : List (Signal α)) :
    taken isOpen signals = posts signals ↔ OpenWhenPosted isOpen signals := by
  induction signals generalizing isOpen with
  | nil => simp [taken, posts, OpenWhenPosted]
  | cons signal signals ih =>
    cases signal with
    | opened => exact (ih true).trans openWhenPosted_opened.symm
    | posted a =>
      rw [openWhenPosted_posted, ← ih false]
      cases isOpen with
      | false =>
        -- The message is lost, and what is taken is shorter than what is posted.
        refine iff_of_false (fun heq => ?_) fun h => Bool.noConfusion h.1
        have hle := (taken_sublist false signals).length_le
        have hlength : (taken false signals).length = (posts signals).length + 1 :=
          congrArg List.length heq
        omega
      | true =>
        rw [eq_self_iff_true, true_and]
        exact List.cons_eq_cons.trans (and_iff_right rfl)

end OneShot
