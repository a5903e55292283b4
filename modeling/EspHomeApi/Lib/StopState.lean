import Mathlib.Data.Multiset.UnionInter

/-!
# A request to stop and its callbacks

A stop state is shared by those who may request a stop and those who want to hear of it. A callback
is registered when it is constructed, for as long as it exists. The first request runs all of them,
in no particular order, and later requests do nothing; a callback that is constructed after the
first request runs at once.
-/

/-- A stop state: whether a stop was requested, and the callbacks that are registered. -/
structure StopState (κ : Type*) where
  requested : Bool
  callbacks : Multiset κ

namespace StopState

variable {κ : Type*}

/-- The construction of a callback, and the callbacks that run in it. -/
def construct (s : StopState κ) (k : κ) : StopState κ × Multiset κ :=
  if s.requested then (s, {k}) else ({ s with callbacks := k ::ₘ s.callbacks }, 0)

/-- The destruction of a callback. -/
def destroy [DecidableEq κ] (s : StopState κ) (k : κ) : StopState κ :=
  { s with callbacks := s.callbacks.erase k }

/-- A request to stop, and the callbacks that run in it. -/
def request (s : StopState κ) : StopState κ × Multiset κ :=
  if s.requested then (s, 0) else (⟨true, 0⟩, s.callbacks)

variable {s : StopState κ}

/-- Before a request, a callback is registered and does not run. -/
theorem construct_of_running (h : s.requested = false) (k : κ) :
    s.construct k = ({ s with callbacks := k ::ₘ s.callbacks }, 0) := by
  simp [construct, h]

/-- After a request, a callback runs and is not registered. -/
theorem construct_of_stopped (h : s.requested = true) (k : κ) : s.construct k = (s, {k}) := by
  simp [construct, h]

/-- The first request runs the callbacks that are registered. -/
theorem request_of_running (h : s.requested = false) : s.request = (⟨true, 0⟩, s.callbacks) := by
  simp [request, h]

/-- Later requests do nothing. -/
theorem request_of_stopped (h : s.requested = true) : s.request = (s, 0) := by
  simp [request, h]

end StopState
