import Airbender.Circuit.Field
import Mathlib.Tactic.LinearCombination

/-!
# Lookups shared between branches

Branches of a circuit exclude each other, so their lookups share columns: a shared lookup selects
the tuple and the table of the branch that is taken, and degrades to zeroes if none is.
-/

namespace Airbender.Circuit

/-- The tables that a shared lookup may select. -/
inductive TableType where
  | zeroEntry
  | xor
  | or
  | and
  | romAddressSpaceSeparator
  | specialCSRProperties
  | memoryGetOffsetAndMaskWithTrap
  | memoryLoadHalfwordOrByte
  | alignedRomRead
  | truncateShiftAmount
  | sllWith16BitInputLow
  | sllWith16BitInputHigh
  | srlWith16BitInputLow
  | srlWith16BitInputHigh
  | sra16BitInputSignFill
  | rangeCheck16WithZeroPads
  | memStoreClearOriginalRamValueLimb
  | memStoreClearWrittenValueLimb
deriving DecidableEq, Repr

namespace TableType

/-- `to_table_id`. -/
def toTableId : TableType → Nat
  | zeroEntry => 0
  | xor => 4
  | or => 6
  | and => 7
  | romAddressSpaceSeparator => 23
  | specialCSRProperties => 25
  | memoryGetOffsetAndMaskWithTrap => 44
  | memoryLoadHalfwordOrByte => 45
  | alignedRomRead => 46
  | truncateShiftAmount => 47
  | sllWith16BitInputLow => 48
  | sllWith16BitInputHigh => 49
  | srlWith16BitInputLow => 50
  | srlWith16BitInputHigh => 51
  | sra16BitInputSignFill => 52
  | rangeCheck16WithZeroPads => 53
  | memStoreClearOriginalRamValueLimb => 54
  | memStoreClearWrittenValueLimb => 55

/-- `to_num`. -/
def toNum (table : TableType) : F := (table.toTableId : F)

theorem toTableId_lt (table : TableType) : table.toTableId < 62 := by
  cases table <;> decide

theorem toNum_injective {first second : TableType} (same : first.toNum = second.toNum) :
    first = second := by
  have values := congrArg ZMod.val same
  rw [toNum, toNum, val_natCast_of_lt (first.toTableId_lt.trans (by decide)),
    val_natCast_of_lt (second.toTableId_lt.trans (by decide))] at values
  cases first <;> cases second <;> first | rfl | exact absurd values (by decide)

end TableType

/-- A tuple of a lookup. -/
structure LookupTuple where
  first : F
  second : F
  third : F
deriving DecidableEq

/-- `create_zero_entry_table`. -/
def createZeroEntryTable : List (F × F × F) := [(0, 0, 0)]

/-- The tables of a circuit by their types; a circuit has no rows for other types. -/
abbrev Tables := TableType → (F × F × F) → Prop

/-- `LookupRelation`: the lookup of one branch. -/
structure LookupRelation where
  execFlag : F
  row : LookupTuple
  table : F

/-- `choose_from_orthogonal_variants`: the sum of the variants weighted by their flags. -/
def chooseFromOrthogonalVariants (relations : List LookupRelation) (variant : LookupRelation → F) :
    F :=
  (relations.map fun relation => relation.execFlag * variant relation).sum

/-- The columns of a shared lookup. -/
structure SharedLookup where
  row : LookupTuple
  tableId : F

/-- The constraints of a shared lookup. -/
structure SharedLookup.Enforced (tables : Tables) (relations : List LookupRelation)
    (columns : SharedLookup) : Prop where
  first : chooseFromOrthogonalVariants relations (·.row.first) - columns.row.first = 0
  second : chooseFromOrthogonalVariants relations (·.row.second) - columns.row.second = 0
  third : chooseFromOrthogonalVariants relations (·.row.third) - columns.row.third = 0
  table : chooseFromOrthogonalVariants relations (·.table) - columns.tableId = 0
  lookup : ∃ table : TableType, columns.tableId = table.toNum ∧
    tables table (columns.row.first, columns.row.second, columns.row.third)

/-! ## Selection -/

section Selection

variable {before after relations : List LookupRelation} {taken : LookupRelation}
  {tables : Tables} {columns : SharedLookup} {table : TableType}

theorem choose_of_zero (untaken : ∀ relation ∈ relations, relation.execFlag = 0)
    (variant : LookupRelation → F) : chooseFromOrthogonalVariants relations variant = 0 := by
  rw [chooseFromOrthogonalVariants]
  apply List.sum_eq_zero
  intro x member
  rcases List.mem_map.mp member with ⟨relation, inside, rfl⟩
  rw [untaken relation inside, zero_mul]

theorem choose_append (first second : List LookupRelation) (variant : LookupRelation → F) :
    chooseFromOrthogonalVariants (first ++ second) variant =
      chooseFromOrthogonalVariants first variant + chooseFromOrthogonalVariants second variant := by
  rw [chooseFromOrthogonalVariants, List.map_append, List.sum_append]
  rfl

/-- The selection is the variant of the branch that is taken. -/
theorem choose_of_taken (isTaken : taken.execFlag = 1)
    (untaken : ∀ relation ∈ before ++ after, relation.execFlag = 0)
    (variant : LookupRelation → F) :
    chooseFromOrthogonalVariants (before ++ taken :: after) variant = variant taken := by
  have front := @choose_of_zero before
    (fun relation inside => untaken relation (List.mem_append_left _ inside)) variant
  have back := @choose_of_zero after
    (fun relation inside => untaken relation (List.mem_append_right _ inside)) variant
  have middle : chooseFromOrthogonalVariants (taken :: after) variant =
      taken.execFlag * variant taken + chooseFromOrthogonalVariants after variant := rfl
  rw [choose_append, front, middle, back, isTaken, one_mul, add_zero, zero_add]

/-- The tuple of the branch that is taken is in its table. -/
theorem SharedLookup.Enforced.of_taken
    (enforced : columns.Enforced tables (before ++ taken :: after)) (isTaken : taken.execFlag = 1)
    (untaken : ∀ relation ∈ before ++ after, relation.execFlag = 0)
    (isTable : taken.table = table.toNum) :
    tables table (taken.row.first, taken.row.second, taken.row.third) := by
  have first := enforced.first
  have second := enforced.second
  have third := enforced.third
  have tableId := enforced.table
  rw [choose_of_taken isTaken untaken, sub_eq_zero] at first second third tableId
  rcases enforced.lookup with ⟨other, sameId, lookup⟩
  have same : table = other := TableType.toNum_injective (by rw [← isTable, tableId, sameId])
  rw [first, second, third, same]
  exact lookup

/-- The columns that select among the branches. -/
def SharedLookup.ofRelations (relations : List LookupRelation) : SharedLookup where
  row :=
    { first := chooseFromOrthogonalVariants relations (·.row.first)
      second := chooseFromOrthogonalVariants relations (·.row.second)
      third := chooseFromOrthogonalVariants relations (·.row.third) }
  tableId := chooseFromOrthogonalVariants relations (·.table)

theorem SharedLookup.enforced_of_taken (isTaken : taken.execFlag = 1)
    (untaken : ∀ relation ∈ before ++ after, relation.execFlag = 0)
    (isTable : taken.table = table.toNum)
    (lookup : tables table (taken.row.first, taken.row.second, taken.row.third)) :
    (ofRelations (before ++ taken :: after)).Enforced tables (before ++ taken :: after) := by
  refine ⟨sub_self _, sub_self _, sub_self _, sub_self _, table, ?_, ?_⟩
  · exact (choose_of_taken isTaken untaken _).trans isTable
  · simp only [ofRelations, choose_of_taken isTaken untaken]
    exact lookup

/-- If no branch is taken, the lookup is the zero entry. -/
theorem SharedLookup.enforced_of_zero (untaken : ∀ relation ∈ relations, relation.execFlag = 0)
    (lookup : tables .zeroEntry (0, 0, 0)) :
    (ofRelations relations).Enforced tables relations := by
  refine ⟨sub_self _, sub_self _, sub_self _, sub_self _, .zeroEntry, ?_, ?_⟩
  · have zeroId : TableType.zeroEntry.toNum = 0 := Nat.cast_zero
    rw [zeroId]
    exact choose_of_zero untaken _
  · simp only [ofRelations, choose_of_zero untaken]
    exact lookup

end Selection

end Airbender.Circuit
