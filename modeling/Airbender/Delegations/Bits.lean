import Airbender.CommonConstants

/-!
# Bit-counting primitives of the delegations

The integer methods the delegation handlers use to check their control words.
-/

namespace Airbender

/-- `u32::count_ones`. -/
def countOnes (value : U32) : Nat :=
  ((List.range 32).filter fun i => value.getLsbD i).length

/-- `u32::is_power_of_two`. -/
def isPowerOfTwo (value : U32) : Bool :=
  (List.range 32).any fun exponent => value == (1 : U32) <<< exponent

/-- `u32::trailing_zeros`, which is 32 at zero. -/
def trailingZeros (value : U32) : Nat :=
  (List.range 32).findIdx fun i => value.getLsbD i

theorem isPowerOfTwo_iff (value : U32) :
    isPowerOfTwo value = true ↔
      ∃ exponent, exponent < 32 ∧ value = (1 : U32) <<< exponent := by
  simp [isPowerOfTwo]

theorem trailingZeros_shiftLeft_one
    {exponent : Nat} (small : exponent < 32) :
    trailingZeros ((1 : U32) <<< exponent) = exponent := by
  decide +revert

end Airbender
