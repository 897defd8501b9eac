import Mathlib.Data.List.Basic
import Mathlib.Data.List.Range

/-!
# Positions in a list of lists

A pair of indices into a list of lists is a position in the concatenation.  Inner lists may be
empty, so several pairs may be one position.
-/

namespace NestedList

universe u

variable {α : Type u}

/-- The inner list at an index. -/
def inner (lists : List (List α)) (idx : Nat) : List α := lists[idx]?.getD []

/-- The elements before an inner list. -/
def start (lists : List (List α)) (idx : Nat) : Nat := (lists.take idx).flatten.length

/-- `IsCursor lists idx offset`: the pair points into an inner list, or just after it. -/
structure IsCursor (lists : List (List α)) (idx offset : Nat) : Prop where
  inside : idx < lists.length
  bound : offset ≤ (inner lists idx).length

variable {lists : List (List α)} {idx : Nat}

theorem inner_eq (inside : idx < lists.length) : lists[idx]? = some (inner lists idx) := by
  rw [inner, List.getElem?_eq_getElem inside, Option.getD_some]

theorem start_zero (lists : List (List α)) : start lists 0 = 0 := rfl

theorem take_succ_flatten (inside : idx < lists.length) :
    (lists.take (idx + 1)).flatten = (lists.take idx).flatten ++ inner lists idx := by
  rw [List.take_add_one, inner_eq inside, Option.toList_some, List.flatten_append,
    List.flatten_singleton]

theorem start_succ (inside : idx < lists.length) :
    start lists (idx + 1) = start lists idx + (inner lists idx).length := by
  rw [start, take_succ_flatten inside, List.length_append, start]

theorem start_mono (lists : List (List α)) {first second : Nat} (le : first ≤ second) :
    start lists first ≤ start lists second := by
  have split : lists.take second =
      lists.take first ++ (lists.take second).drop first := by
    conv_lhs => rw [← List.take_append_drop first (lists.take second)]
    rw [List.take_take, Nat.min_eq_left le]
  rw [start, start, split, List.flatten_append, List.length_append]
  exact Nat.le_add_right _ _

theorem start_length (lists : List (List α)) :
    start lists lists.length = lists.flatten.length := by
  rw [start, List.take_length]

/-- The last position. -/
theorem start_last (nonempty : lists ≠ []) :
    IsCursor lists (lists.length - 1) (inner lists (lists.length - 1)).length ∧
      start lists (lists.length - 1) + (inner lists (lists.length - 1)).length =
        lists.flatten.length := by
  have positive : 0 < lists.length := List.length_pos_of_ne_nil nonempty
  have inside : lists.length - 1 < lists.length := Nat.sub_lt positive Nat.one_pos
  refine ⟨⟨inside, Nat.le_refl _⟩, ?_⟩
  rw [← start_succ inside, Nat.sub_add_cancel positive, start_length]

/-- From a position on, the concatenation is the rest of one inner list and what follows it. -/
theorem drop_flatten {offset : Nat} (cursor : IsCursor lists idx offset) :
    lists.flatten.drop (start lists idx + offset) =
      (inner lists idx).drop offset ++ lists.flatten.drop (start lists (idx + 1)) := by
  have whole : lists.flatten =
      (lists.take idx).flatten ++ (inner lists idx ++ (lists.drop (idx + 1)).flatten) := by
    rw [← List.append_assoc, ← take_succ_flatten cursor.inside, ← List.flatten_append,
      List.take_append_drop]
  have rest : lists.flatten.drop (start lists (idx + 1)) = (lists.drop (idx + 1)).flatten := by
    conv_lhs => rw [← List.take_append_drop (idx + 1) lists, List.flatten_append]
    rw [start, List.take_append_drop, List.drop_left]
  rw [rest]
  conv_lhs => rw [whole]
  rw [start, List.drop_append, List.drop_eq_nil_of_le (Nat.le_add_right _ _), List.nil_append,
    Nat.add_sub_cancel_left, List.drop_append_of_le_length cursor.bound]

/-- The slices at positions that make up a range make up the list. -/
theorem flatMap_slices {items : List α} {ranges : List (Nat × Nat)}
    (covered : ranges.flatMap (fun range => List.range' range.1 range.2) =
      List.range items.length) :
    ranges.flatMap (fun range => (items.drop range.1).take range.2) = items := by
  have slice : ∀ range : Nat × Nat, (items.drop range.1).take range.2 =
      (List.range' range.1 range.2).filterMap (fun i => items[i]?) := by
    rintro ⟨first, count⟩
    induction count generalizing first with
    | zero => exact List.take_zero
    | succ count inductionHypothesis =>
        have rest := inductionHypothesis (first + 1)
        dsimp only at rest ⊢
        rw [List.range'_succ]
        rcases Nat.lt_or_ge first items.length with inside | outside
        · rw [List.filterMap_cons_some (List.getElem?_eq_getElem inside), ← rest,
            List.drop_eq_getElem_cons inside, List.take_succ_cons]
        · rw [List.filterMap_cons_none (List.getElem?_eq_none outside), ← rest,
            List.drop_eq_nil_of_le outside, List.drop_eq_nil_of_le (by omega), List.take_nil,
            List.take_nil]
  have all : (List.range items.length).filterMap (fun i => items[i]?) = items := by
    rw [List.range_eq_range', ← slice (0, items.length), List.drop_zero, List.take_length]
  rw [List.flatMap_congr (fun range _ => slice range), ← List.filterMap_flatMap, covered, all]

/-- Where all inner lists have one length, positions are products. -/
theorem getElem?_flatten_of_length {width : Nat} {lists : List (List α)}
    (all : ∀ list ∈ lists, list.length = width) {i j : Nat} {list : List α}
    (found : lists[i]? = some list) (inside : j < width) :
    lists.flatten[width * i + j]? = list[j]? := by
  induction lists generalizing i with
  | nil => cases found
  | cons head lists inductionHypothesis =>
      obtain ⟨headLength, rest⟩ := List.forall_mem_cons.mp all
      rw [List.flatten_cons]
      cases i with
      | zero =>
          cases found
          rw [Nat.mul_zero, Nat.zero_add, List.getElem?_append_left (by omega)]
      | succ i =>
          have behind : width * (i + 1) + j = head.length + (width * i + j) := by
            rw [headLength, Nat.mul_succ]
            omega
          rw [behind, List.getElem?_append_right (Nat.le_add_right _ _), Nat.add_sub_cancel_left]
          exact inductionHypothesis rest found

/-! ## What is left after some elements -/

/-- The lists without their first elements, and without the lists that these use up. -/
def dropElements : Nat → List (List α) → List (List α)
  | _, [] => []
  | count, first :: rest =>
      if count < first.length then first.drop count :: rest
      else dropElements (count - first.length) rest

theorem dropElements_of_lt {count : Nat} {first : List α} {rest : List (List α)}
    (inside : count < first.length) :
    dropElements count (first :: rest) = first.drop count :: rest :=
  if_pos inside

theorem dropElements_of_le {count : Nat} {first : List α} {rest : List (List α)}
    (past : first.length ≤ count) :
    dropElements count (first :: rest) = dropElements (count - first.length) rest :=
  if_neg (Nat.not_lt.mpr past)

theorem flatten_dropElements (count : Nat) (lists : List (List α)) :
    (dropElements count lists).flatten = lists.flatten.drop count := by
  induction lists generalizing count with
  | nil => rw [dropElements, List.flatten_nil, List.drop_nil]
  | cons first rest inductionHypothesis =>
      by_cases inside : count < first.length
      · rw [dropElements_of_lt inside, List.flatten_cons, List.flatten_cons,
          List.drop_append_of_le_length (Nat.le_of_lt inside)]
      · have past := Nat.not_lt.mp inside
        rw [dropElements_of_le past, inductionHypothesis, List.flatten_cons, List.drop_append,
          List.drop_eq_nil_of_le past, List.nil_append]

theorem ne_nil_of_mem_dropElements (count : Nat) {lists : List (List α)}
    (nonempty : ∀ list ∈ lists, list ≠ []) : ∀ list ∈ dropElements count lists, list ≠ [] := by
  induction lists generalizing count with
  | nil => exact nonempty
  | cons first rest inductionHypothesis =>
      rcases List.forall_mem_cons.mp nonempty with ⟨_, others⟩
      by_cases inside : count < first.length
      · rw [dropElements_of_lt inside]
        refine List.forall_mem_cons.mpr ⟨?_, others⟩
        intro empty
        have length := congrArg List.length empty
        rw [List.length_drop, List.length_nil] at length
        omega
      · rw [dropElements_of_le (Nat.not_lt.mp inside)]
        exact inductionHypothesis _ others

theorem dropElements_zero (nonempty : ∀ list ∈ lists, list ≠ []) :
    dropElements 0 lists = lists := by
  cases lists with
  | nil => rfl
  | cons first rest =>
      have some := List.length_pos_of_ne_nil (nonempty first List.mem_cons_self)
      rw [dropElements_of_lt some, List.drop_zero]

theorem dropElements_dropElements (first second : Nat) (lists : List (List α)) :
    dropElements second (dropElements first lists) = dropElements (first + second) lists := by
  induction lists generalizing first with
  | nil => rfl
  | cons list rest inductionHypothesis =>
      by_cases inside : first < list.length
      · rw [dropElements_of_lt inside]
        by_cases both : first + second < list.length
        · rw [dropElements_of_lt both, dropElements_of_lt (by rw [List.length_drop]; omega),
            List.drop_drop]
        · rw [dropElements_of_le (Nat.not_lt.mp both),
            dropElements_of_le (by rw [List.length_drop]; omega), List.length_drop]
          congr 1
          omega
      · have past := Nat.not_lt.mp inside
        rw [dropElements_of_le past, inductionHypothesis, dropElements_of_le (by omega)]
        congr 1
        omega

theorem start_cons_succ (first : List α) (rest : List (List α)) (i : Nat) :
    start (first :: rest) (i + 1) = first.length + start rest i := by
  rw [start, List.take_succ_cons, List.flatten_cons, List.length_append, start]

/-- The list in which the next elements begin has enough of them when no list ends between them. -/
theorem length_of_dropElements {count more : Nat} {lists : List (List α)} {first : List α}
    {rest : List (List α)} (left : dropElements count lists = first :: rest) :
    more ≤ first.length ↔
      ∀ i ≤ lists.length, start lists i ≤ count ∨ count + more ≤ start lists i := by
  induction lists generalizing count with
  | nil => cases left
  | cons list others inductionHypothesis =>
      by_cases inside : count < list.length
      · rw [dropElements_of_lt inside] at left
        cases left
        rw [List.length_drop]
        constructor
        · intro enough i _
          cases i with
          | zero =>
              left
              exact Nat.zero_le count
          | succ i =>
              right
              rw [start_cons_succ]
              omega
        · intro apart
          have second := apart 1 (by rw [List.length_cons]; omega)
          rw [start_cons_succ, start_zero] at second
          omega
      · have past := Nat.not_lt.mp inside
        rw [dropElements_of_le past] at left
        rw [inductionHypothesis left]
        constructor
        · intro apart i bound
          cases i with
          | zero =>
              left
              exact Nat.zero_le count
          | succ i =>
              have here := apart i (by rw [List.length_cons] at bound; omega)
              rw [start_cons_succ]
              omega
        · intro apart i bound
          have here := apart (i + 1) (by rw [List.length_cons]; omega)
          rw [start_cons_succ] at here
          omega

/-! ## Partial functions on pieces -/

universe v w

variable {β : Type v} {γ : Type w}

theorem length_of_mapM {f : α → Option β} {items : List α} {results : List β}
    (all : items.mapM f = some results) : results.length = items.length := by
  induction items generalizing results with
  | nil =>
      cases all
      rfl
  | cons item items inductionHypothesis =>
      rw [List.mapM_cons, Option.bind_eq_bind, Option.bind_eq_some_iff] at all
      obtain ⟨head, _, tail⟩ := all
      rw [Option.bind_eq_bind, Option.bind_eq_some_iff] at tail
      obtain ⟨rest, computed, whole⟩ := tail
      cases whole
      rw [List.length_cons, List.length_cons, inductionHypothesis computed]

/-- The result of each item stands at the index of the item. -/
theorem getElem?_of_mapM {f : α → Option β} {items : List α} {results : List β}
    (all : items.mapM f = some results) {i : Nat} {item : α} (found : items[i]? = some item) :
    ∃ result, results[i]? = some result ∧ f item = some result := by
  induction items generalizing results i with
  | nil => cases found
  | cons head items inductionHypothesis =>
      rw [List.mapM_cons, Option.bind_eq_bind, Option.bind_eq_some_iff] at all
      obtain ⟨first, computed, tail⟩ := all
      rw [Option.bind_eq_bind, Option.bind_eq_some_iff] at tail
      obtain ⟨rest, remaining, whole⟩ := tail
      cases whole
      cases i with
      | zero =>
          cases found
          exact ⟨first, rfl, computed⟩
      | succ i => exact inductionHypothesis remaining found

theorem forall_mem_of_mapM {f : α → Option β} {p : β → Prop} {items : List α}
    {results : List β} (all : items.mapM f = some results)
    (each : ∀ item result, f item = some result → p result) : ∀ result ∈ results, p result := by
  intro result member
  obtain ⟨i, inside, rfl⟩ := List.mem_iff_getElem.mp member
  have sameLength := length_of_mapM all
  obtain ⟨other, found, computed⟩ := getElem?_of_mapM all
    (List.getElem?_eq_getElem (show i < items.length by omega))
  rw [List.getElem?_eq_getElem inside] at found
  cases found
  exact each _ _ computed

/-- What a result keeps of its item. -/
theorem map_of_mapM {f : α → Option β} {kept : β → γ} {given : α → γ} {items : List α}
    {results : List β} (all : items.mapM f = some results)
    (each : ∀ item result, f item = some result → kept result = given item) :
    results.map kept = items.map given := by
  apply List.ext_getElem?
  intro i
  rw [List.getElem?_map, List.getElem?_map]
  cases found : items[i]? with
  | none =>
      have outside := List.getElem?_eq_none_iff.mp found
      rw [← length_of_mapM all] at outside
      rw [List.getElem?_eq_none outside]
      rfl
  | some item =>
      rcases getElem?_of_mapM all found with ⟨result, same, computed⟩
      rw [same, Option.map_some, Option.map_some, each item result computed]

/-- What is computed on a concatenation is computed on the pieces. -/
theorem mapM_of_mapM_flatMap {f : α → Option β} {piece : γ → List α} {pieces : List γ}
    {results : List β} (all : (pieces.flatMap piece).mapM f = some results) :
    ∃ parts, pieces.mapM (fun index => (piece index).mapM f) = some parts ∧
      parts.flatten = results := by
  induction pieces generalizing results with
  | nil =>
      cases all
      exact ⟨[], rfl, rfl⟩
  | cons index pieces inductionHypothesis =>
      rw [List.flatMap_cons, List.mapM_append, Option.bind_eq_bind,
        Option.bind_eq_some_iff] at all
      obtain ⟨head, computed, tail⟩ := all
      obtain ⟨rest, remaining, whole⟩ := Option.bind_eq_some_iff.mp tail
      obtain ⟨parts, mapped, joined⟩ := inductionHypothesis remaining
      refine ⟨head :: parts, ?_, ?_⟩
      · rw [List.mapM_cons, computed, mapped]
        rfl
      · rw [List.flatten_cons, joined]
        exact Option.some.inj whole

end NestedList
