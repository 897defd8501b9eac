import Mathlib.Tactic.IntervalCases
import Airbender.CommonConstants

/-!
# Arithmetic of timestamps

A cycle starts at a multiple of four, and its accesses set the two low bits.
-/

namespace Airbender

theorem or_offset_toNat
    {timestamp offset : TimestampScalar} (aligned : timestamp.toNat % 4 = 0)
    (small : offset.toNat < 4) :
    (timestamp ||| offset).toNat = timestamp.toNat + offset.toNat := by
  obtain ⟨quarter, quarterEq⟩ : ∃ quarter, timestamp.toNat = 2 ^ 2 * quarter :=
    ⟨timestamp.toNat / 4, by omega⟩
  rw [BitVec.toNat_or, quarterEq]
  exact (Nat.two_pow_add_eq_or_of_lt small quarter).symm

/-- On a cycle start the offsets may be added instead. -/
theorem or_offset_eq_add
    {timestamp offset : TimestampScalar} (aligned : timestamp.toNat % 4 = 0)
    (small : offset.toNat < 4) :
    timestamp ||| offset = timestamp + offset := by
  have sum := or_offset_toNat aligned small
  have bound := (timestamp ||| offset).isLt
  apply BitVec.eq_of_toNat_eq
  rw [BitVec.toNat_add, ← sum, Nat.mod_eq_of_lt bound]

theorem or_three_mod_four (timestamp : TimestampScalar) :
    (timestamp ||| 3).toNat % 4 = 3 := by
  have low : (timestamp.toNat ||| 3) % 2 ^ 2 = timestamp.toNat % 2 ^ 2 ||| 3 % 2 ^ 2 :=
    Nat.or_mod_two_pow
  have three : (3 : TimestampScalar).toNat = 3 := rfl
  have cases : timestamp.toNat % 2 ^ 2 < 4 := Nat.mod_lt _ (by decide)
  rw [BitVec.toNat_or, three]
  generalize timestamp.toNat % 2 ^ 2 = residue at low cases
  interval_cases residue <;> exact low

/-- An offset below three is already set in a time of this residue. -/
theorem or_offset_eq_self
    {timestamp offset : TimestampScalar} (late : timestamp.toNat % 4 = 3)
    (small : offset.toNat < 4) :
    timestamp ||| offset = timestamp := by
  obtain ⟨quarter, quarterEq⟩ : ∃ quarter, timestamp.toNat = 2 ^ 2 * quarter + 3 :=
    ⟨timestamp.toNat / 4, by omega⟩
  have merged : 3 ||| offset.toNat = 3 := by
    generalize offset.toNat = low at small
    interval_cases low <;> rfl
  apply BitVec.eq_of_toNat_eq
  rw [BitVec.toNat_or, quarterEq,
    Nat.two_pow_add_eq_or_of_lt (show 3 < 2 ^ 2 by decide) quarter, Nat.or_assoc, merged]

end Airbender
