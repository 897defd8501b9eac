import Airbender.Field.CheckedArithmetic

/-!
# Conversions of integers

How words of 32 and 64 bits become elements of the base field, with the overflow checks of the
conversions.
-/

namespace Airbender.Mersenne31.Checked

open Circuit (F)

/-- One of the conditional subtractions at the end of a reduction. -/
def subtractOrder (c : U32) : Option U32 :=
  if order ≤ c then CheckedWord.sub c order else some c

/-- `from_nonreduced_u32`. -/
def fromNonreducedU32 (c : U32) : Option U32 := do
  let c ← subtractOrder c
  let c ← subtractOrder c
  new c

/-- `from_u62`. -/
def fromU62 (x : U64) : Option U32 := foldProduct x

/-- `from_negative_u64_with_reduction`. -/
def fromNegativeU64WithReduction (x : U64) : Option U32 := do
  let xLow := x.setWidth 32 &&& (((1 : U32) <<< 31) - 1)
  let xHigh := (x >>> 31).setWidth 32 &&& (((1 : U32) <<< 31) - 1)
  let xSign := (x >>> 63).setWidth 32
  let resWrapped := xLow + xHigh
  let resWrapped ← CheckedWord.sub resWrapped xSign
  let msb := resWrapped &&& ((1 : U32) <<< 31)
  let sum := resWrapped ^^^ msb
  let res ← CheckedWord.add sum (if msb ≠ 0 then 1 else 0)
  subtractOrder res

/-- A computation passes its checks and ends with the least representative of the residue. -/
def ComputesCanonical (computation : Option U32) (residue : F) : Prop :=
  ∃ result : Element, computation = some result.raw ∧ result.raw.toNat < 2 ^ 31 - 1 ∧
    result.value = residue

/-! ## Reductions -/

theorem subtractOrder_yields (c : U32) : CheckedWord.Yields (subtractOrder c)
    (if 2 ^ 31 - 1 ≤ c.toNat then c.toNat - (2 ^ 31 - 1) else c.toNat) := by
  have orderValue : order.toNat = 2 ^ 31 - 1 := rfl
  rw [subtractOrder]
  by_cases large : order ≤ c
  · have atLeast : 2 ^ 31 - 1 ≤ c.toNat := large
    rw [if_pos large, if_pos atLeast, ← orderValue]
    exact CheckedWord.sub_yields atLeast
  · have below : ¬2 ^ 31 - 1 ≤ c.toNat := large
    rw [if_neg large, if_neg below]
    exact ⟨c, rfl, rfl⟩

theorem fromNonreducedU32_canonical (c : U32) :
    ComputesCanonical (fromNonreducedU32 c) (c.toNat : F) := by
  have bound := c.isLt
  rcases subtractOrder_yields c with ⟨once, first, onceValue⟩
  rcases subtractOrder_yields once with ⟨twice, second, twiceValue⟩
  have reduced : twice.toNat = c.toNat % (2 ^ 31 - 1) := by
    split at onceValue <;> split at twiceValue <;> omega
  have small : twice.toNat < 2 ^ 31 - 1 := by omega
  refine ⟨⟨twice, by omega⟩, ?_, small, ?_⟩
  · rw [fromNonreducedU32, first]
    change (subtractOrder once).bind new = _
    rw [second]
    exact new_eq (by omega)
  · apply Element.value_eq_iff_mod.mpr
    rw [reduced, Nat.mod_mod]

/-! ## Signed words -/

/-- The bits of a signed word below `2^62` and its sign. -/
theorem toInt_parts {v : U64} (small : |v.toInt| < 2 ^ 62) :
    ∃ low high sign : ℕ,
      (v.setWidth 32 &&& (((1 : U32) <<< 31) - 1)).toNat = low ∧
        ((v >>> 31).setWidth 32 &&& (((1 : U32) <<< 31) - 1)).toNat = high ∧
        ((v >>> 63).setWidth 32 : U32).toNat = sign ∧ low < 2 ^ 31 ∧ high < 2 ^ 31 ∧
        sign ≤ low + high ∧ sign ≤ 1 ∧
        v.toInt = low + 2 ^ 31 * high - 2 ^ 62 * sign := by
  have bound := v.isLt
  have signed := BitVec.toInt_eq_toNat_cond v
  rcases abs_lt.mp small with ⟨above, below⟩
  refine ⟨v.toNat % 2 ^ 31, v.toNat / 2 ^ 31 % 2 ^ 31, v.toNat / 2 ^ 63, toNat_productLow v,
    ?_, ?_, ?_⟩
  · have shifted := toNat_productLow (v >>> 31)
    rwa [BitVec.toNat_ushiftRight, Nat.shiftRight_eq_div_pow] at shifted
  · rw [BitVec.toNat_setWidth, BitVec.toNat_ushiftRight, Nat.shiftRight_eq_div_pow]
    omega
  · split at signed <;> omega

theorem fromNegativeU64WithReduction_canonical {v : U64} (small : |v.toInt| < 2 ^ 62) :
    ComputesCanonical (fromNegativeU64WithReduction v) (v.toInt : F) := by
  rcases toInt_parts small with
    ⟨low, high, sign, lowValue, highValue, signValue, lowBound, highBound, enough, bit, parts⟩
  unfold fromNegativeU64WithReduction
  generalize (v.setWidth 32 &&& (((1 : U32) <<< 31) - 1) : U32) = xLow at lowValue ⊢
  generalize ((v >>> 31).setWidth 32 &&& (((1 : U32) <<< 31) - 1) : U32) = xHigh at highValue ⊢
  generalize ((v >>> 63).setWidth 32 : U32) = xSign at signValue ⊢
  have sum : (xLow + xHigh).toNat = low + high := by
    rw [BitVec.toNat_add, lowValue, highValue]
    omega
  rcases CheckedWord.sub_yields (a := xLow + xHigh) (b := xSign) (by omega) with
    ⟨wrapped, subtracted, difference⟩
  rw [sum, signValue] at difference
  have cleared := toNat_clearTop wrapped
  have carry := toNat_carry wrapped
  rcases CheckedWord.add_yields (a := wrapped ^^^ (wrapped &&& ((1 : U32) <<< 31)))
    (b := if wrapped &&& ((1 : U32) <<< 31) ≠ 0 then 1 else 0) (by
      rw [cleared, carry]
      split <;> omega) with ⟨folded, added, total⟩
  rw [cleared, carry] at total
  rcases subtractOrder_yields folded with ⟨result, reduced, value⟩
  have canonical : result.toNat < 2 ^ 31 - 1 := by
    split at total <;> split at value <;> omega
  have residue : result.toNat % (2 ^ 31 - 1) = (low + high - sign) % (2 ^ 31 - 1) := by
    split at total <;> split at value <;> omega
  refine ⟨⟨result, by omega⟩, ?_, canonical, ?_⟩
  · simp only [subtracted, added, reduced, Option.bind_eq_bind, Option.bind_some]
  · have number : Element.value ⟨result, by omega⟩ = ((low + high - sign : ℕ) : F) :=
      Element.value_eq_iff_mod.mpr residue
    have square : (2 : F) ^ 62 = 1 := by
      rw [show 62 = 31 * 2 by rfl, pow_mul, two_pow_order, one_pow]
    rw [number, parts, Nat.cast_sub enough, Nat.cast_add]
    simp only [Int.cast_sub, Int.cast_add, Int.cast_mul, Int.cast_pow, Int.cast_ofNat,
      Int.cast_natCast, two_pow_order, square, one_mul]

/-! ## Words of 64 bits -/

/-- What `from_u64` should give: the element of a number below the modulus, and nothing else. -/
def FromU64Exact (x : U64) : Prop :=
  (x.toNat < 2 ^ 31 - 1 → ∃ element, Element.fromU64 x = some element ∧
    element.value = (x.toNat : F)) ∧
    (2 ^ 31 - 1 ≤ x.toNat → Element.fromU64 x = none)

/-- The low word decides: the words above it are not looked at. -/
theorem fromU64Exact_iff (x : U64) :
    FromU64Exact x ↔ x.toNat < 2 ^ 32 ∨ 2 ^ 31 - 1 ≤ x.toNat % 2 ^ 32 := by
  have bound := x.isLt
  have low : (x.setWidth 32).toNat = x.toNat % 2 ^ 32 := BitVec.toNat_setWidth 32 x
  by_cases accepted : x.toNat % 2 ^ 32 < 2 ^ 31 - 1
  · have taken : Element.fromU64 x = some ⟨x.setWidth 32, by omega⟩ := by
      rw [Element.fromU64, dif_pos (by omega)]
    constructor
    · intro exact
      left
      by_contra large
      have nothing := exact.2 (by omega)
      rw [taken] at nothing
      cases nothing
    · rintro (small | rejected)
      · refine ⟨?_, fun large => by omega⟩
        intro _
        refine ⟨_, taken, ?_⟩
        apply Element.value_eq_iff_mod.mpr
        rw [low, Nat.mod_eq_of_lt small]
      · omega
  · have refused : Element.fromU64 x = none := by
      rw [Element.fromU64, dif_neg (by omega)]
    refine iff_of_true ⟨fun small => by omega, fun _ => refused⟩ ?_
    right
    omega

/-- The conversions are exact, but for words that `from_u64` takes although they do not fit. -/
theorem conversions_exact (x : U64) (c : U32) (v : U64) :
    (FromU64Exact x ↔ x.toNat < 2 ^ 32 ∨ 2 ^ 31 - 1 ≤ x.toNat % 2 ^ 32) ∧
      ComputesCanonical (fromNonreducedU32 c) (c.toNat : F) ∧
      (x.toNat < 2 ^ 62 → Computes (fromU62 x) (x.toNat : F)) ∧
      (|v.toInt| < 2 ^ 62 → ComputesCanonical (fromNegativeU64WithReduction v) (v.toInt : F)) :=
  ⟨fromU64Exact_iff x, fromNonreducedU32_canonical c, foldProduct_computes,
    fromNegativeU64WithReduction_canonical⟩

/-- `from_u64` takes `2^32` for zero. -/
theorem fromU64_takes_two_pow :
    Element.fromU64 4294967296 = some Element.zero ∧ 2 ^ 31 - 1 ≤ (4294967296 : U64).toNat ∧
      ¬FromU64Exact 4294967296 := by
  have taken : Element.fromU64 4294967296 = some Element.zero := by decide
  have large : 2 ^ 31 - 1 ≤ (4294967296 : U64).toNat := by decide
  refine ⟨taken, large, ?_⟩
  intro exact
  have nothing := exact.2 large
  rw [taken] at nothing
  cases nothing

end Airbender.Mersenne31.Checked
