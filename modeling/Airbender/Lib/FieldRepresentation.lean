import Mathlib.Algebra.Field.Basic

/-!
# Represented fields

Operations on stored values that are the operations of a field on what the values stand for.  A
field element may have several representations.
-/

namespace FieldRepresentation

variable {Stored Base K : Type*} [Field K]

/-- The operations on stored values are those of the field. -/
structure Implements (value : Stored → K) (isZero : Stored → Bool)
    (add sub mul : Stored → Stored → Stored) (square negate : Stored → Stored)
    (inverse : Stored → Option Stored) : Prop where
  isZero : ∀ a, isZero a = true ↔ value a = 0
  add : ∀ a b, value (add a b) = value a + value b
  sub : ∀ a b, value (sub a b) = value a - value b
  mul : ∀ a b, value (mul a b) = value a * value b
  square : ∀ a, value (square a) = value a ^ 2
  negate : ∀ a, value (negate a) = -value a
  inverse : ∀ a, value a = 0 ∧ inverse a = none ∨
    ∃ inverted, inverse a = some inverted ∧ value a * value inverted = 1

/-- The operations with a value of a smaller field are those with the embedded value. -/
structure ImplementsMixed (value : Stored → K) (embedded : Base → K) (embed : Base → Stored)
    (mul add sub : Stored → Base → Stored) : Prop where
  embed : ∀ base, value (embed base) = embedded base
  mul : ∀ a base, value (mul a base) = value a * embedded base
  add : ∀ a base, value (add a base) = value a + embedded base
  sub : ∀ a base, value (sub a base) = value a - embedded base

end FieldRepresentation
