import EspHomeApi.Lib.Run

/-!
# Waiting for the first of two operations

Two operations are started together. The one that completes first decides the result and
cancels the other one, but the wait is over only when both have completed. A cancelled
operation may still complete with a value of its own, or not complete for a long time. Who waits
again and again has one such race after the other.
-/

/-- How far two operations awaited together have come. -/
inductive Race (α β : Type*) where
  /-- Neither operation has completed. -/
  | waiting
  /-- The left operation completed first. -/
  | leftFirst (a : α) (other : Option β)
  /-- The right operation completed first. -/
  | rightFirst (b : β) (other : Option α)
  deriving DecidableEq

namespace Race

variable {α β : Type*}

/-- The left operation completes, which it does once. -/
def completeLeft (a : α) : Race α β → Option (Race α β)
  | waiting => some (leftFirst a none)
  | leftFirst _ _ => none
  | rightFirst b none => some (rightFirst b (some a))
  | rightFirst _ (some _) => none

/-- The right operation completes, which it does once. -/
def completeRight (b : β) : Race α β → Option (Race α β)
  | waiting => some (rightFirst b none)
  | leftFirst a none => some (leftFirst a (some b))
  | leftFirst _ (some _) => none
  | rightFirst _ _ => none

/-- One of the two operations completes. -/
def complete (race : Race α β) : α ⊕ β → Option (Race α β)
  | .inl a => race.completeLeft a
  | .inr b => race.completeRight b

/-- The result of the operation that completed first, once both have completed. -/
def result? : Race α β → Option (α ⊕ β)
  | leftFirst a (some _) => some (.inl a)
  | rightFirst b (some _) => some (.inr b)
  | _ => none

/-- What the left operation completed with. -/
def left? : Race α β → Option α
  | leftFirst a _ => some a
  | rightFirst _ other => other
  | waiting => none

/-- The left operation can complete only if it has not yet. -/
theorem left?_of_completeLeft {a : α} {race race' : Race α β}
    (h : race.completeLeft a = some race') : race.left? = none ∧ race'.left? = some a := by
  cases race with
  | waiting => exact ⟨rfl, Option.some.inj h ▸ rfl⟩
  | leftFirst b other => simp [completeLeft] at h
  | rightFirst b other =>
    cases other with
    | none => exact ⟨rfl, Option.some.inj h ▸ rfl⟩
    | some c => simp [completeLeft] at h

/-- The completion of the right operation is not seen on the left. -/
theorem left?_of_completeRight {b : β} {race race' : Race α β}
    (h : race.completeRight b = some race') : race'.left? = race.left? := by
  cases race with
  | waiting => exact Option.some.inj h ▸ rfl
  | leftFirst a other =>
    cases other with
    | none => exact Option.some.inj h ▸ rfl
    | some c => simp [completeRight] at h
  | rightFirst c other => simp [completeRight] at h

/-- A race with a result has seen the left operation complete. -/
theorem left?_of_result? {race : Race α β} {outcome : α ⊕ β} (h : race.result? = some outcome) :
    ∃ a, race.left? = some a ∧ ∀ value, outcome = .inl value → value = a := by
  cases race with
  | waiting => simp [result?] at h
  | leftFirst a other =>
    cases other with
    | none => simp [result?] at h
    | some b =>
      simp only [result?, Option.some.injEq] at h
      exact ⟨a, rfl, fun value hvalue => Sum.inl.inj (hvalue.symm.trans h.symm)⟩
  | rightFirst b other =>
    cases other with
    | none => simp [result?] at h
    | some a =>
      simp only [result?, Option.some.injEq] at h
      exact ⟨a, rfl, fun value hvalue => by rw [← h] at hvalue; simp at hvalue⟩

/-- What has completed is no longer waited for. -/
theorem ne_waiting_of_complete {race race' : Race α β} (outcome : α ⊕ β)
    (h : race.complete outcome = some race') : race' ≠ waiting := by
  intro hwaiting
  subst hwaiting
  cases outcome with
  | inl a => simpa [left?] using (left?_of_completeLeft h).2
  | inr b =>
    cases race with
    | leftFirst a other => cases other <;> simp [complete, completeRight] at h
    | _ => simp [complete, completeRight] at h

/-- What is still open after the first completion is the other operation. -/
theorem complete_waiting (outcome : α ⊕ β) :
    ∃ race : Race α β, waiting.complete outcome = some race ∧ race.result? = none ∧
      ∀ other, (outcome.isLeft ≠ other.isLeft →
          ∃ finished, race.complete other = some finished ∧ finished.result? = some outcome ∧
            ∀ completion, finished.complete completion = none) ∧
        (outcome.isLeft = other.isLeft → race.complete other = none) := by
  cases outcome with
  | inl a =>
    refine ⟨leftFirst a none, rfl, rfl, fun other => ?_⟩
    cases other with
    | inl a' => simp [complete, completeLeft]
    | inr b =>
      refine ⟨fun _ => ⟨leftFirst a (some b), rfl, rfl, fun completion => ?_⟩, by simp⟩
      cases completion <;> rfl
  | inr b =>
    refine ⟨rightFirst b none, rfl, rfl, fun other => ?_⟩
    cases other with
    | inl a =>
      refine ⟨fun _ => ⟨rightFirst b (some a), rfl, rfl, fun completion => ?_⟩, by simp⟩
      cases completion <;> rfl
    | inr b' => simp [complete, completeRight]

/-- The result is what the first of two completions brought. -/
theorem completions_of_result? {completions : List (α ⊕ β)} {race : Race α β} {outcome : α ⊕ β}
    (hrun : Run.run complete waiting completions = some race) (h : race.result? = some outcome) :
    ∃ other, completions = [outcome, other] ∧ outcome.isLeft ≠ other.isLeft := by
  cases completions with
  | nil =>
    obtain rfl := Option.some.inj hrun
    simp [result?] at h
  | cons first completions =>
    obtain ⟨next, hnext, hrest⟩ := Run.exists_of_run_cons hrun
    obtain ⟨race', hfirst, hopen, hother⟩ := complete_waiting first
    obtain rfl := Option.some.inj (hfirst.symm.trans hnext)
    cases completions with
    | nil =>
      obtain rfl := Option.some.inj hrest
      rw [hopen] at h
      simp at h
    | cons second completions =>
      obtain ⟨last, hlast, hend⟩ := Run.exists_of_run_cons hrest
      obtain ⟨hdifferent, hsame⟩ := hother second
      by_cases hside : first.isLeft = second.isLeft
      · rw [hsame hside] at hlast
        simp at hlast
      · obtain ⟨finished, hfinished, hresult, hstuck⟩ := hdifferent hside
        obtain rfl := Option.some.inj (hfinished.symm.trans hlast)
        cases completions with
        | nil =>
          obtain rfl := Option.some.inj hend
          rw [hresult, Option.some.injEq] at h
          exact ⟨second, by rw [h], h ▸ hside⟩
        | cons third completions =>
          obtain ⟨_, hthird, _⟩ := Run.exists_of_run_cons hend
          rw [hstuck third] at hthird
          simp at hthird

/-- When only the left operation completes, it does so once. -/
theorem completions_of_left? {completions : List (α ⊕ β)} {race : Race α β} {a : α}
    (hrun : Run.run complete waiting completions = some race) (h : race.left? = some a)
    (hside : ∀ completion ∈ completions, completion.isLeft = true) : completions = [.inl a] := by
  cases completions with
  | nil =>
    obtain rfl := Option.some.inj hrun
    simp [left?] at h
  | cons first completions =>
    obtain ⟨next, hnext, hrest⟩ := Run.exists_of_run_cons hrun
    cases first with
    | inr b => simpa using hside (.inr b) List.mem_cons_self
    | inl b =>
      obtain rfl : leftFirst b none = next := Option.some.inj hnext
      cases completions with
      | nil =>
        obtain rfl : leftFirst b none = race := Option.some.inj hrest
        rw [Option.some.inj h]
      | cons second completions =>
        obtain ⟨last, hlast, -⟩ := Run.exists_of_run_cons hrest
        cases second with
        | inl c => simp [complete, completeLeft] at hlast
        | inr c => simpa using hside (.inr c) (List.mem_cons_of_mem _ List.mem_cons_self)

/-- One more completion in the last of several races, each given by its completions. -/
def addToLast {γ : Type*} (completion : γ) (rounds : List (List γ)) : List (List γ) :=
  rounds.dropLast ++ [rounds.getLastD [] ++ [completion]]

/-- The races before the last one are over. -/
theorem addToLast_concat {γ : Type*} (completion : γ) (rounds : List (List γ)) (round : List γ) :
    addToLast completion (rounds ++ [round]) = rounds ++ [round ++ [completion]] := by
  simp [addToLast]

/-- One more completion is one more completion in all. -/
theorem flatten_addToLast {γ : Type*} (completion : γ) (rounds : List (List γ)) :
    (addToLast completion rounds).flatten = rounds.flatten ++ [completion] := by
  rcases List.eq_nil_or_concat rounds with rfl | ⟨earlier, round, rfl⟩
  · rfl
  · rw [List.concat_eq_append, addToLast_concat]
    simp

end Race
