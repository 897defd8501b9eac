import Mathlib.Data.BitVec

/-!
# Checked operations on words

Operations that stop where the result does not fit, in words of any width.
-/

namespace CheckedWord

variable {w : ℕ}

def add (a b : BitVec w) : Option (BitVec w) :=
  if a.uaddOverflow b then none else some (a + b)

def sub (a b : BitVec w) : Option (BitVec w) :=
  if a.usubOverflow b then none else some (a - b)

def mul (a b : BitVec w) : Option (BitVec w) :=
  if a.umulOverflow b then none else some (a * b)

/-- A shift stops where its amount is not below the width; the bits shifted out are dropped. -/
def shl (a : BitVec w) (amount : ℕ) : Option (BitVec w) :=
  if amount < w then some (a <<< amount) else none

def shr (a : BitVec w) (amount : ℕ) : Option (BitVec w) :=
  if amount < w then some (a >>> amount) else none

/-- The checks of a computation pass, and its word is the number. -/
def Yields (computation : Option (BitVec w)) (number : ℕ) : Prop :=
  ∃ word, computation = some word ∧ word.toNat = number

variable {a b : BitVec w}

theorem add_eq_some (fits : a.toNat + b.toNat < 2 ^ w) : add a b = some (a + b) := by
  have passes : ¬a.uaddOverflow b := by
    rw [BitVec.uaddOverflow, decide_eq_true_eq]
    exact Nat.not_le.mpr fits
  rw [add, if_neg passes]

theorem sub_eq_some (fits : b.toNat ≤ a.toNat) : sub a b = some (a - b) := by
  have passes : ¬a.usubOverflow b := by
    rw [BitVec.usubOverflow, decide_eq_true_eq]
    exact Nat.not_lt.mpr fits
  rw [sub, if_neg passes]

theorem mul_eq_some (fits : a.toNat * b.toNat < 2 ^ w) : mul a b = some (a * b) := by
  have passes : ¬a.umulOverflow b := by
    rw [BitVec.umulOverflow, decide_eq_true_eq]
    exact Nat.not_le.mpr fits
  rw [mul, if_neg passes]

theorem add_yields (fits : a.toNat + b.toNat < 2 ^ w) : Yields (add a b) (a.toNat + b.toNat) := by
  refine ⟨_, add_eq_some fits, ?_⟩
  rw [BitVec.toNat_add, Nat.mod_eq_of_lt fits]

theorem sub_yields (fits : b.toNat ≤ a.toNat) : Yields (sub a b) (a.toNat - b.toNat) :=
  ⟨_, sub_eq_some fits, BitVec.toNat_sub_of_le (BitVec.le_def.mpr fits)⟩

theorem mul_yields (fits : a.toNat * b.toNat < 2 ^ w) : Yields (mul a b) (a.toNat * b.toNat) := by
  refine ⟨_, mul_eq_some fits, ?_⟩
  rw [BitVec.toNat_mul, Nat.mod_eq_of_lt fits]

theorem shl_yields {amount : ℕ} (fits : amount < w) :
    Yields (shl a amount) (a.toNat * 2 ^ amount % 2 ^ w) := by
  refine ⟨_, if_pos fits, ?_⟩
  rw [BitVec.toNat_shiftLeft, Nat.shiftLeft_eq]

theorem shr_yields {amount : ℕ} (fits : amount < w) :
    Yields (shr a amount) (a.toNat / 2 ^ amount) := by
  refine ⟨_, if_pos fits, ?_⟩
  rw [BitVec.toNat_ushiftRight, Nat.shiftRight_eq_div_pow]

end CheckedWord
