import Mathlib.Data.Nat.Notation

/-!
# Outcomes read under a guard

An outcome holds a value or an error, and to read the other one is undefined, which is `none`
here. A computation over outcomes is sound when it reads nothing undefined and ends with an error
whenever one of its steps failed. Returning the error of a failed step at once keeps a computation
sound.
-/

namespace Expected

variable {ε α β : Type*}

/-- Whether the outcome holds a value. -/
def hasValue : Except ε α → Bool
  | .ok _ => true
  | .error _ => false

/-- Read the value; undefined on an error. -/
def value? : Except ε α → Option α
  | .ok value => some value
  | .error _ => none

/-- Read the error; undefined on a value. -/
def error? : Except ε α → Option ε
  | .ok _ => none
  | .error error => some error

/-- Return the error of a failed step, and go on otherwise. -/
def requireSuccess (step : Except ε α) (rest : Option (Except ε β)) : Option (Except ε β) :=
  if hasValue step then rest else (error? step).bind fun error => some (.error error)

/-- The step ended with an error. -/
def Failed (step : Except ε α) : Prop := ∃ error, step = .error error

/-- Nothing undefined is read, and a failure ends with an error. -/
def Sound (failed : Prop) (computation : Option (Except ε β)) : Prop :=
  ∃ result, computation = some result ∧ (failed → Failed result)

@[simp] theorem hasValue_ok (value : α) : hasValue (.ok value : Except ε α) = true := rfl

@[simp] theorem hasValue_error (error : ε) : hasValue (.error error : Except ε α) = false := rfl

@[simp] theorem value?_ok (value : α) : value? (.ok value : Except ε α) = some value := rfl

@[simp] theorem value?_error (error : ε) : value? (.error error : Except ε α) = none := rfl

@[simp] theorem error?_error (error : ε) : error? (.error error : Except ε α) = some error := rfl

@[simp] theorem requireSuccess_ok (value : α) (rest : Option (Except ε β)) :
    requireSuccess (.ok value) rest = rest := rfl

@[simp] theorem requireSuccess_error (error : ε) (rest : Option (Except ε β)) :
    requireSuccess (.error error : Except ε α) rest = some (.error error) := rfl

/-- A value is no failure. -/
@[simp] theorem not_failed_ok (value : α) : ¬ Failed (.ok value : Except ε α) := by
  intro ⟨error, herror⟩
  simp at herror

/-- An error is a failure. -/
@[simp] theorem failed_error (error : ε) : Failed (.error error : Except ε α) := ⟨error, rfl⟩

/-- Returning an error is sound whatever failed. -/
theorem sound_error (failed : Prop) (error : ε) :
    Sound failed (some (.error error : Except ε β)) := ⟨.error error, rfl, fun _ => ⟨error, rfl⟩⟩

/-- Returning a value is sound when nothing failed. -/
theorem sound_ok (value : β) : Sound False (some (.ok value : Except ε β)) :=
  ⟨.ok value, rfl, False.elim⟩

/-- What is undefined is not sound. -/
theorem not_sound_none (failed : Prop) : ¬ Sound failed (none : Option (Except ε β)) := by
  intro ⟨result, hresult, _⟩
  simp at hresult

/-- A guarded step followed by a sound computation is sound. -/
theorem sound_requireSuccess {failed : Prop} {step : Except ε α} {rest : Option (Except ε β)}
    (h : ∀ value, step = .ok value → Sound failed rest) :
    Sound (Failed step ∨ failed) (requireSuccess step rest) := by
  cases step with
  | error error => exact sound_error _ error
  | ok value =>
    obtain ⟨result, hresult, hfailed⟩ := h value rfl
    exact ⟨result, hresult, fun hany => hfailed (hany.resolve_left (not_failed_ok value))⟩

end Expected
