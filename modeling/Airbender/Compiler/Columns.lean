import Mathlib.Tactic.Common

/-!
# Columns

The compilers place values in the columns of four trees.  A set of columns is a start and a
number of elements of one width.  Sets are laid out one after another, and a set of aligned
columns moves the offset to the next multiple of its width first.
-/

namespace Airbender.Compiler

structure ColumnSet (width : Nat) where
  start : Nat
  numElements : Nat
deriving DecidableEq

namespace ColumnSet

def empty (width : Nat) : ColumnSet width := ⟨0, 0⟩

/-- The set at an offset, and the offset behind it. -/
def layoutAt (width offset numElements : Nat) : Option (ColumnSet width × Nat) := do
  guard (0 < width)
  some (⟨offset, numElements⟩, offset + numElements * width)

/-- `full_range`, by its two ends. -/
def fullRange {width : Nat} (set : ColumnSet width) : Nat × Nat :=
  (set.start, set.start + width * set.numElements)

end ColumnSet

structure AlignedColumnSet (width : Nat) where
  start : Nat
  numElements : Nat
deriving DecidableEq

/-- `usize::next_multiple_of`. -/
def nextMultipleOf (offset width : Nat) : Nat :=
  if offset % width = 0 then offset else offset + (width - offset % width)

namespace AlignedColumnSet

def empty (width : Nat) : AlignedColumnSet width := ⟨0, 0⟩

/-- The set at the next multiple of the width, and the offset behind it. -/
def layoutAt (width offset numElements : Nat) : Option (AlignedColumnSet width × Nat) := do
  guard (0 < width)
  guard (width.isPowerOfTwo)
  let offset := if offset % width ≠ 0 then nextMultipleOf offset width else offset
  some (⟨offset, numElements⟩, offset + numElements * width)

/-- `full_range`, by its two ends. -/
def fullRange {width : Nat} (set : AlignedColumnSet width) : Nat × Nat :=
  (set.start, set.start + width * set.numElements)

/-- The start of `get_range`, whose index a debug assertion bounds. -/
def getRangeStart {width : Nat} (set : AlignedColumnSet width) (idx : Nat) : Nat :=
  set.start + width * idx

end AlignedColumnSet

inductive ColumnAddress
  | witnessSubtree (offset : Nat)
  | memorySubtree (offset : Nat)
  | setupSubtree (offset : Nat)
  | optimizedOut (offset : Nat)
deriving DecidableEq

def ColumnAddress.placeholder : ColumnAddress := optimizedOut 0

end Airbender.Compiler
