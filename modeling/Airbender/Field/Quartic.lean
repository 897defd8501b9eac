import Mathlib.FieldTheory.Finite.Basic
import Airbender.Circuit.Field

/-!
# The extension fields

`Mersenne31Complex` adjoins a square root of -1 to the base field, and `Mersenne31Quartic` a
square root of `2 + i` to that.  Challenges and accumulators of the arguments live in the
quartic field.
-/

namespace Airbender

open Circuit (F)

/-! ## The base field -/

namespace Mersenne31Field

/-- `from_nonreduced_u32`. -/
def fromNonreducedU32 (value : U32) : F := value.toNat

/-- `exp_power_of_2_impl`: squaring `powerLog` times. -/
def expPowerOf2 (x : F) : Nat → F
  | 0 => x
  | powerLog + 1 => expPowerOf2 (x * x) powerLog

/-- `inverse_impl`, the addition chain for the exponent `p - 2`. -/
def inverse (x : F) : Option F :=
  if x = 0 then
    none
  else
    let p101 := expPowerOf2 x 2 * x
    let p1111 := p101 * p101 * p101
    let p11111111 := expPowerOf2 p1111 4 * p1111
    let p111111110000 := expPowerOf2 p11111111 4
    let p111111111111 := p111111110000 * p1111
    let ones16 := expPowerOf2 p111111110000 4 * p11111111
    let ones28 := expPowerOf2 ones16 12 * p111111111111
    some (expPowerOf2 ones28 3 * p101)

theorem expPowerOf2_eq (x : F) (powerLog : Nat) : expPowerOf2 x powerLog = x ^ 2 ^ powerLog := by
  induction powerLog generalizing x with
  | zero => exact (pow_one x).symm
  | succ powerLog inductionHypothesis =>
      rw [expPowerOf2, inductionHypothesis, ← pow_two, ← pow_mul, Nat.pow_succ']

theorem inverse_eq {x : F} (nonzero : x ≠ 0) : inverse x = some x⁻¹ := by
  have fermat : x ^ (Circuit.modulus - 1) = 1 := ZMod.pow_card_sub_one_eq_one nonzero
  have chain : inverse x = some (x ^ (Circuit.modulus - 2)) := by
    rw [inverse, if_neg nonzero]
    simp only [expPowerOf2_eq]
    apply congrArg some
    ring
  rw [chain]
  apply congrArg some
  apply eq_inv_of_mul_eq_one_left
  rw [← pow_succ]
  exact fermat

end Mersenne31Field

/-! ## The complex extension -/

structure Mersenne31Complex where
  c0 : F
  c1 : F
deriving DecidableEq

namespace Mersenne31Complex

instance : Zero Mersenne31Complex := ⟨⟨0, 0⟩⟩

instance : One Mersenne31Complex := ⟨⟨1, 0⟩⟩

instance : Add Mersenne31Complex := ⟨fun a b => ⟨a.c0 + b.c0, a.c1 + b.c1⟩⟩

instance : Sub Mersenne31Complex := ⟨fun a b => ⟨a.c0 - b.c0, a.c1 - b.c1⟩⟩

instance : Neg Mersenne31Complex := ⟨fun a => ⟨-a.c0, -a.c1⟩⟩

/-- `mul_assign_impl`: three products of the base field. -/
instance : Mul Mersenne31Complex :=
  ⟨fun a b =>
    let v0 := a.c0 * b.c0
    let v1 := a.c1 * b.c1
    ⟨v0 - v1, (a.c1 + a.c0) * (b.c0 + b.c1) - v0 - v1⟩⟩

def mulByBase (a : Mersenne31Complex) (base : F) : Mersenne31Complex :=
  ⟨a.c0 * base, a.c1 * base⟩

/-- The product with `2 + i`. -/
def mulByNonResidue (a : Mersenne31Complex) : Mersenne31Complex :=
  ⟨a.c0 + a.c0 - a.c1, a.c1 + a.c1 + a.c0⟩

def inverse (a : Mersenne31Complex) : Option Mersenne31Complex := do
  let inversed ← Mersenne31Field.inverse (a.c0 * a.c0 - -(a.c1 * a.c1))
  some ⟨a.c0 * inversed, -(a.c1 * inversed)⟩

end Mersenne31Complex

/-! ## The quartic extension -/

structure Mersenne31Quartic where
  c0 : Mersenne31Complex
  c1 : Mersenne31Complex
deriving DecidableEq

namespace Mersenne31Quartic

instance : Zero Mersenne31Quartic := ⟨⟨0, 0⟩⟩

instance : One Mersenne31Quartic := ⟨⟨1, 0⟩⟩

instance : Add Mersenne31Quartic := ⟨fun a b => ⟨a.c0 + b.c0, a.c1 + b.c1⟩⟩

instance : Sub Mersenne31Quartic := ⟨fun a b => ⟨a.c0 - b.c0, a.c1 - b.c1⟩⟩

instance : Mul Mersenne31Quartic :=
  ⟨fun a b =>
    let v0 := a.c0 * b.c0
    let v1 := a.c1 * b.c1
    ⟨v0 + v1.mulByNonResidue, (a.c1 + a.c0) * (b.c0 + b.c1) - v0 - v1⟩⟩

def mulByBase (a : Mersenne31Quartic) (base : F) : Mersenne31Quartic :=
  ⟨a.c0.mulByBase base, a.c1.mulByBase base⟩

def fromBase (base : F) : Mersenne31Quartic := ⟨⟨base, 0⟩, 0⟩

/-- `from_coeffs_in_base`. -/
def fromCoeffsInBase (coeffs : Vector F 4) : Mersenne31Quartic :=
  ⟨⟨coeffs[0], coeffs[1]⟩, ⟨coeffs[2], coeffs[3]⟩⟩

/-- `into_coeffs_in_base`. -/
def intoCoeffsInBase (a : Mersenne31Quartic) : Vector F 4 :=
  #v[a.c0.c0, a.c0.c1, a.c1.c0, a.c1.c1]

def inverse (a : Mersenne31Quartic) : Option Mersenne31Quartic := do
  let inversed ← (a.c0 * a.c0 - (a.c1 * a.c1).mulByNonResidue).inverse
  some ⟨a.c0 * inversed, -(a.c1 * inversed)⟩

end Mersenne31Quartic

end Airbender
