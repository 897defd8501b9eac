import Mathlib.Data.List.Chain
import Mathlib.Order.BoundedOrder.Basic
import Mathlib.Order.Defs.LinearOrder
import Mathlib.Order.Lattice

/-!
# Padded increasing columns

A column starts with blank rows, and after them the keys of its rows increase.  Columns are
joined end to end: if each junction either goes on increasing or follows a column that is blank
to its end, the joined column is padded and increasing again.
-/

namespace PaddedOrder

universe u v

variable {Row : Type u} {Key : Type v} [LinearOrder Key]

/-- Blank rows, and then rows with increasing keys. -/
def PaddedIncreasing (key : Row → Key) (blank : Row → Prop) (rows : List Row) : Prop :=
  ∃ padding real, rows = padding ++ real ∧ (∀ row ∈ padding, blank row) ∧
    real.Pairwise fun row later => key row < key later

/-- What is checked where two columns meet: the last row of one and the first of the other. -/
def Joins (key : Row → Key) (blank : Row → Prop) (left right : List Row) : Prop :=
  ∀ last ∈ left.getLast?, ∀ first ∈ right.head?, key last < key first ∨ blank last

variable {key : Row → Key} {blank : Row → Prop}

theorem PaddedIncreasing.nil : PaddedIncreasing key blank [] :=
  ⟨[], [], rfl, fun _ member => absurd member List.not_mem_nil, List.Pairwise.nil⟩

theorem key_le_last {rows : List Row}
    (increasing : rows.Pairwise fun row later => key row < key later) {last : Row}
    (isLast : last ∈ rows.getLast?) : ∀ row ∈ rows, key row ≤ key last := by
  cases rows using List.reverseRecOn with
  | nil => exact fun _ member => absurd member List.not_mem_nil
  | append_singleton rows final =>
      rw [List.getLast?_concat, Option.mem_some_iff] at isLast
      subst isLast
      intro row member
      rcases List.mem_append.mp member with before | isFinal
      · exact ((List.pairwise_append.mp increasing).2.2 row before final
          (List.mem_singleton_self final)).le
      · rw [List.mem_singleton.mp isFinal]

theorem first_le_key {rows : List Row}
    (increasing : rows.Pairwise fun row later => key row < key later) {first : Row}
    (isFirst : first ∈ rows.head?) : ∀ row ∈ rows, key first ≤ key row := by
  cases rows with
  | nil => exact fun _ member => absurd member List.not_mem_nil
  | cons head rows =>
      rw [List.head?_cons, Option.mem_some_iff] at isFirst
      subst isFirst
      intro row member
      rcases List.mem_cons.mp member with isHead | after
      · rw [isHead]
      · exact (List.rel_of_pairwise_cons increasing after).le

/-- No two rows that are not blank have one key. -/
theorem PaddedIncreasing.keys_unique {rows : List Row}
    (column : PaddedIncreasing key blank rows) :
    rows.Pairwise fun row later => ¬ blank row → ¬ blank later → key row ≠ key later := by
  obtain ⟨padding, real, rfl, paddingBlank, increasing⟩ := column
  apply List.pairwise_append.mpr
  refine ⟨?_, ?_, ?_⟩
  · apply List.Pairwise.imp_of_mem ?_ (List.pairwise_of_forall_mem_list fun _ _ _ _ => trivial)
    intro row later member _ _ used
    exact absurd (paddingBlank row member) used
  · apply increasing.imp
    intro row later smaller _ _
    exact smaller.ne
  · intro row member later _ used
    exact absurd (paddingBlank row member) used

/-! ## Joining columns -/

variable [OrderBot Key]

/-- A column that ends blank is blank. -/
theorem PaddedIncreasing.blank_of_last (blankKey : ∀ row, blank row → key row = ⊥)
    {rows : List Row} (column : PaddedIncreasing key blank rows) {last : Row}
    (isLast : last ∈ rows.getLast?) (lastBlank : blank last) : ∀ row ∈ rows, blank row := by
  obtain ⟨padding, real, rfl, paddingBlank, increasing⟩ := column
  cases real using List.reverseRecOn with
  | nil =>
      rw [List.append_nil]
      exact paddingBlank
  | append_singleton real final =>
      rw [← List.append_assoc, List.getLast?_concat, Option.mem_some_iff] at isLast
      subst isLast
      -- a row before the last would have a key below the least one
      have alone : real = [] := by
        apply List.eq_nil_iff_forall_not_mem.mpr
        intro row member
        have smaller := (List.pairwise_append.mp increasing).2.2 row member final
          (List.mem_singleton_self final)
        rw [blankKey final lastBlank] at smaller
        exact not_lt_bot smaller
      subst alone
      intro row member
      rcases List.mem_append.mp member with inPadding | isFinal
      · exact paddingBlank row inPadding
      · rw [List.mem_singleton.mp isFinal]
        exact lastBlank

/-- A column whose first key is not the least has no padding. -/
theorem PaddedIncreasing.increasing_of_first (blankKey : ∀ row, blank row → key row = ⊥)
    {rows : List Row} (column : PaddedIncreasing key blank rows) {first : Row}
    (isFirst : first ∈ rows.head?) (positive : ⊥ < key first) :
    rows.Pairwise fun row later => key row < key later := by
  obtain ⟨padding, real, rfl, paddingBlank, increasing⟩ := column
  cases padding with
  | nil => exact increasing
  | cons row padding =>
      rw [List.cons_append, List.head?_cons, Option.mem_some_iff] at isFirst
      subst isFirst
      rw [blankKey row (paddingBlank row (List.mem_cons_self ..))] at positive
      exact absurd positive (lt_irrefl _)

/-- Two columns that join make one. -/
theorem PaddedIncreasing.append (blankKey : ∀ row, blank row → key row = ⊥)
    {left right : List Row} (leftColumn : PaddedIncreasing key blank left)
    (rightColumn : PaddedIncreasing key blank right) (joins : Joins key blank left right) :
    PaddedIncreasing key blank (left ++ right) := by
  cases rightFirst : right.head? with
  | none =>
      rw [List.head?_eq_none_iff.mp rightFirst, List.append_nil]
      exact leftColumn
  | some first =>
      cases leftLast : left.getLast? with
      | none =>
          rw [List.getLast?_eq_none_iff.mp leftLast, List.nil_append]
          exact rightColumn
      | some last =>
          rcases joins last leftLast first rightFirst with grows | lastBlank
          · have increasing := rightColumn.increasing_of_first blankKey rightFirst
              (lt_of_le_of_lt bot_le grows)
            obtain ⟨padding, real, rfl, paddingBlank, leftIncreasing⟩ := leftColumn
            refine ⟨padding, real ++ right, List.append_assoc _ _ _, paddingBlank, ?_⟩
            apply List.pairwise_append.mpr
            refine ⟨leftIncreasing, increasing, ?_⟩
            intro row inReal later inRight
            have realLast : last ∈ real.getLast? := by
              rw [List.getLast?_append_of_ne_nil _ (List.ne_nil_of_mem inReal)] at leftLast
              exact leftLast
            exact lt_of_le_of_lt (key_le_last leftIncreasing realLast row inReal)
              (lt_of_lt_of_le grows (first_le_key increasing rightFirst later inRight))
          · have leftBlank := leftColumn.blank_of_last blankKey leftLast lastBlank
            obtain ⟨padding, real, rfl, paddingBlank, increasing⟩ := rightColumn
            refine ⟨left ++ padding, real, (List.append_assoc _ _ _).symm, ?_, increasing⟩
            intro row member
            rcases List.mem_append.mp member with inLeft | inPadding
            · exact leftBlank row inLeft
            · exact paddingBlank row inPadding

/-- A sequence of columns that join one after the other makes one. -/
theorem PaddedIncreasing.flatten (blankKey : ∀ row, blank row → key row = ⊥)
    {columns : List (List Row)} (nonempty : ∀ column ∈ columns, column ≠ [])
    (padded : ∀ column ∈ columns, PaddedIncreasing key blank column)
    (joins : columns.IsChain (Joins key blank)) :
    PaddedIncreasing key blank columns.flatten := by
  induction columns using List.reverseRecOn with
  | nil => exact PaddedIncreasing.nil
  | append_singleton columns column inductionHypothesis =>
      obtain ⟨earlier, -, junction⟩ := List.isChain_append.mp joins
      have initial := inductionHypothesis
        (fun other member => nonempty other (List.mem_append_left _ member))
        (fun other member => padded other (List.mem_append_left _ member)) earlier
      rw [List.flatten_append, List.flatten_cons, List.flatten_nil, List.append_nil]
      apply initial.append blankKey
        (padded column (List.mem_append_right _ (List.mem_singleton_self column)))
      cases columns using List.reverseRecOn with
      | nil => exact fun _ member => absurd member (Option.not_mem_none _)
      | append_singleton others previous =>
          intro last isLast
          rw [List.flatten_append, List.flatten_cons, List.flatten_nil, List.append_nil,
            List.getLast?_append_of_ne_nil _ (nonempty previous (List.mem_append_left _
              (List.mem_append_right _ (List.mem_singleton_self previous))))] at isLast
          exact junction previous List.getLast?_concat column rfl last isLast

end PaddedOrder
