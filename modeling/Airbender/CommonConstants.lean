import Mathlib.Data.BitVec

/-!
# Constants shared by the executor, the replayer and the circuits

Machine words, timestamps and the constants of the `common_constants` crate.
-/

namespace Airbender

/-- A Rust `u32`: register contents, RAM words and addresses. -/
abbrev U32 := BitVec 32

/-- A Rust `u64`. -/
abbrev U64 := BitVec 64

/-- The name of a register.  The decoder masks register fields to five bits, and
a larger index would be an out-of-bounds `get_unchecked`. -/
abbrev RegisterIndex := BitVec 5

/-- `u64` addition that panics on overflow. -/
def checkedAdd (left right : U64) : Option U64 :=
  if left.toNat + right.toNat < 2 ^ 64 then some (left + right) else none

theorem checkedAdd_eq_some_iff (left right sum : U64) :
    checkedAdd left right = some sum ↔
      left.toNat + right.toNat < 2 ^ 64 ∧ sum = left + right := by
  unfold checkedAdd
  split <;> simp_all [eq_comm]

/-! ## Literals of fixed widths

One name for the side condition of each literal of a fixed-width index or of a field. -/

scoped instance neZeroOne : NeZero 1 := ⟨by decide⟩

scoped instance neZeroTwo : NeZero 2 := ⟨by decide⟩

scoped instance neZeroFive : NeZero 5 := ⟨by decide⟩

scoped instance neZeroSix : NeZero 6 := ⟨by decide⟩

scoped instance neZeroEight : NeZero 8 := ⟨by decide⟩

scoped instance neZeroSixteen : NeZero 16 := ⟨by decide⟩

scoped instance neZeroThirtyOne : NeZero 31 := ⟨by decide⟩

scoped instance neZeroTwoPow : NeZero (2 ^ 64) := ⟨by decide⟩

scoped instance atLeastTwoTwo : Nat.AtLeastTwo 2 := ⟨by decide⟩

scoped instance atLeastTwoFour : Nat.AtLeastTwo 4 := ⟨by decide⟩

scoped instance atLeastTwoEight : Nat.AtLeastTwo 8 := ⟨by decide⟩

scoped instance atLeastTwoMaxHalf : Nat.AtLeastTwo 65535 := ⟨by decide⟩

scoped instance atLeastTwoHalfRange : Nat.AtLeastTwo 65536 := ⟨by decide⟩

/-! ## Timestamps -/

abbrev TimestampScalar := U64

def initialTimestamp : TimestampScalar := 4

def timestampStep : TimestampScalar := 4

/-! ## ROM geometry -/

def romByteSizeLog2 : Nat := 22

def romByteSize : U32 := (1 : U32) <<< romByteSizeLog2

def romSecondWordBits : Nat := romByteSizeLog2 - 16

/-! ## Circuit families -/

/-- The machine circuits an opcode can be proved in. -/
inductive CircuitFamily where
  | addSubLuiAuipcMop
  | jumpBranchSlt
  | shiftBinaryCsr
  | mulDiv
  | loadStoreWordOnly
  | loadStoreSubwordOnly
deriving DecidableEq, Repr

/-- The numeric identifiers the source gives to the families. -/
def CircuitFamily.idx : CircuitFamily → Nat
  | addSubLuiAuipcMop => 1
  | jumpBranchSlt => 2
  | shiftBinaryCsr => 3
  | mulDiv => 4
  | loadStoreWordOnly => 16
  | loadStoreSubwordOnly => 17

/-! ## Delegations -/

def nonDeterminismCsr : U32 := 0x7c0

def blake2sDelegationCsrRegister : U32 := nonDeterminismCsr + 7

def bigintOpsWithControlCsrRegister : U32 := nonDeterminismCsr + 10

def keccakSpecial5CsrRegister : U32 := nonDeterminismCsr + 11

def blake2sMaxRounds : Nat := 10

def blake2sNumControlBits : Nat := 3

def numDelegationCallsForKeccakF1600 : Nat := 649

def initialKeccakF1600ControlValue : U32 := 0

def finalKeccakF1600ControlValue : U32 := 1544

def bigintNumControlBits : Nat := 8

def addOpBitIdx : Nat := 0

def subOpBitIdx : Nat := 1

def subAndNegateOpBitIdx : Nat := 2

def mulLowOpBitIdx : Nat := 3

def mulHighOpBitIdx : Nat := 4

def eqOpBitIdx : Nat := 5

def carryBitIdx : Nat := 6

def memcopyBitIdx : Nat := 7

end Airbender
