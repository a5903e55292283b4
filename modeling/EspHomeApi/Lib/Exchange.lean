import Mathlib.Logic.Equiv.Basic

/-!
# Exchanging the values of two places

An exchange moves a value out of a place, puts the value of another place there and answers with
the value it moved out. To put the answer into the other place is to swap the two, also when they
are one place and whatever a value that was moved out leaves behind.
-/

namespace Exchange

variable {P V : Type*} [DecidableEq P] (moved : V → V) (store : P → V)

/-- `std::exchange(object, newValue)`, both in a store: the value moved out of `object`, which
leaves `moved` of it behind, and the store afterwards. -/
def exchange (object newValue : P) : V × (P → V) :=
  let old := store object
  let store := Function.update store object (moved old)
  -- the new value is read only now, when the old one has been moved out
  (old, Function.update store object (store newValue))

/-- `place = std::exchange(object, place)`. -/
def assignExchange (place object : P) : P → V :=
  let (old, store) := exchange moved store object place
  Function.update store place old

/-- Assigning a place what it is exchanged for swaps the two places. -/
theorem assignExchange_eq_swap (place object : P) :
    assignExchange moved store place object = store ∘ Equiv.swap place object := by
  by_cases hsame : place = object
  · subst hsame
    rw [assignExchange, exchange]
    simp
  · rw [assignExchange, exchange, Equiv.comp_swap_eq_update, Function.update_idem,
      Function.update_of_ne hsame]

/-- `T place = std::exchange(object, place)`, whose answer is built in `place` itself. -/
def constructExchange (place object : P) : P → V :=
  let old := store object
  let store := Function.update store object (moved old)
  let store := Function.update store place old
  -- the new value of `object` is read from the place that holds the answer already
  Function.update store object (store place)

/-- What is built from its own exchange is a copy. -/
theorem constructExchange_eq_update (place object : P) :
    constructExchange moved store place object =
      Function.update store place (store object) := by
  by_cases hsame : place = object
  · subst hsame
    simp [constructExchange]
  · simp [constructExchange, Function.update_comm hsame]

end Exchange
