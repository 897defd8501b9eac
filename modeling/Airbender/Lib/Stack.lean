import Mathlib.Algebra.BigOperators.Group.List.Basic
import Mathlib.Tactic.Ring

/-!
# Sets of columns stacked one after another

A set of columns is given by its start and the number of its elements, all of one width.  A
list of sets is stacked when each set starts where the one before it ends, sets without
elements apart: they may also stand at column zero.
-/

namespace Airbender.Stack

/-- The columns of a set of elements of one width. -/
def Covers (width : Nat) (set : Nat × Nat) (column : Nat) : Prop :=
  set.1 ≤ column ∧ column < set.1 + width * set.2

theorem covers_iff {width start number column : Nat} :
    Covers width (start, number) column ↔ start ≤ column ∧ column < start + number * width := by
  rw [Covers, Nat.mul_comm]

/-- The first columns of the elements of a set. -/
def positions (width : Nat) (set : Nat × Nat) : List Nat :=
  (List.range set.2).map fun i => set.1 + width * i

/-- The number of elements of a list of sets. -/
def count (sets : List (Nat × Nat)) : Nat :=
  (sets.map Prod.snd).sum

/-- `Stacked width offset sets finish`: the sets fill the columns from an offset to another. -/
inductive Stacked (width : Nat) : Nat → List (Nat × Nat) → Nat → Prop
  | nil (offset : Nat) : Stacked width offset [] offset
  | absent {offset finish : Nat} {sets : List (Nat × Nat)}
      (rest : Stacked width offset sets finish) : Stacked width offset ((0, 0) :: sets) finish
  | cons {offset number finish : Nat} {sets : List (Nat × Nat)}
      (rest : Stacked width (offset + number * width) sets finish) :
      Stacked width offset ((offset, number) :: sets) finish

namespace Stacked

variable {width offset middle finish : Nat} {sets front back : List (Nat × Nat)}

theorem single (number : Nat) :
    Stacked width offset [(offset, number)] (offset + number * width) :=
  .cons (.nil _)

theorem append (first : Stacked width offset front middle)
    (second : Stacked width middle back finish) : Stacked width offset (front ++ back) finish := by
  induction first with
  | nil offset => exact second
  | absent rest inductionHypothesis => exact .absent (inductionHypothesis second)
  | cons rest inductionHypothesis => exact .cons (inductionHypothesis second)

theorem finish_eq (stacked : Stacked width offset sets finish) :
    finish = offset + count sets * width := by
  induction stacked with
  | nil offset =>
      rw [count, List.map_nil, List.sum_nil, Nat.zero_mul, Nat.add_zero]
  | absent rest inductionHypothesis =>
      rw [inductionHypothesis, count, count, List.map_cons, List.sum_cons, Nat.zero_add]
  | cons rest inductionHypothesis =>
      rw [inductionHypothesis, count, count, List.map_cons, List.sum_cons]
      ring

theorem offset_le (stacked : Stacked width offset sets finish) : offset ≤ finish := by
  rw [stacked.finish_eq]
  exact Nat.le_add_right _ _

/-- The sets cover the columns between the two offsets and no others. -/
theorem covered_iff (stacked : Stacked width offset sets finish) (column : Nat) :
    (∃ set ∈ sets, Covers width set column) ↔ offset ≤ column ∧ column < finish := by
  induction stacked with
  | nil offset =>
      simp only [List.not_mem_nil, false_and, exists_false, false_iff]
      omega
  | absent rest inductionHypothesis =>
      rw [← inductionHypothesis, List.exists_mem_cons_iff]
      have uncovered : ¬ Covers width (0, 0) column := by
        rintro ⟨_, before⟩
        rw [Nat.mul_zero] at before
        exact Nat.not_lt_zero _ before
      simp only [uncovered, false_or]
  | @cons offset number finish sets rest inductionHypothesis =>
      have inside := rest.offset_le
      rw [List.exists_mem_cons_iff, inductionHypothesis, covers_iff]
      omega

/-- No two sets have a column in common. -/
theorem pairwise_disjoint (stacked : Stacked width offset sets finish) :
    sets.Pairwise fun left right =>
      ∀ column, ¬ (Covers width left column ∧ Covers width right column) := by
  induction stacked with
  | nil offset => exact List.Pairwise.nil
  | absent rest inductionHypothesis =>
      refine List.Pairwise.cons ?_ inductionHypothesis
      rintro set _ column ⟨⟨_, before⟩, _⟩
      rw [Nat.mul_zero] at before
      exact Nat.not_lt_zero _ before
  | @cons offset number finish sets rest inductionHypothesis =>
      refine List.Pairwise.cons ?_ inductionHypothesis
      rintro set member column ⟨⟨_, before⟩, covered⟩
      have behind := ((rest.covered_iff column).mp ⟨set, member, covered⟩).1
      rw [Nat.mul_comm width] at before
      exact absurd before (Nat.not_lt.mpr behind)

/-- From an aligned offset all sets are aligned. -/
theorem start_mod (stacked : Stacked width offset sets finish) (aligned : offset % width = 0) :
    ∀ set ∈ sets, set.1 % width = 0 := by
  induction stacked with
  | nil offset => exact List.forall_mem_nil _
  | absent rest inductionHypothesis =>
      exact List.forall_mem_cons.mpr ⟨Nat.zero_mod _, inductionHypothesis aligned⟩
  | cons rest inductionHypothesis =>
      refine List.forall_mem_cons.mpr ⟨aligned, inductionHypothesis ?_⟩
      rw [Nat.add_mul_mod_self_right, aligned]

/-- The elements follow each other at steps of the width. -/
theorem positions_eq (stacked : Stacked width offset sets finish) :
    sets.flatMap (positions width) =
      (List.range (count sets)).map fun i => offset + width * i := by
  induction stacked with
  | nil offset => rw [List.flatMap_nil, count, List.map_nil, List.sum_nil, List.range_zero,
      List.map_nil]
  | absent rest inductionHypothesis =>
      rw [List.flatMap_cons, inductionHypothesis, positions, List.range_zero, List.map_nil,
        List.nil_append, count, count, List.map_cons, List.sum_cons, Nat.zero_add]
  | @cons offset number finish sets rest inductionHypothesis =>
      rw [List.flatMap_cons, inductionHypothesis, positions, count, count, List.map_cons,
        List.sum_cons, List.range_add, List.map_append, List.map_map]
      congr 1
      apply List.map_congr_left
      intro i _
      rw [Function.comp_apply]
      ring

end Stacked

end Airbender.Stack
