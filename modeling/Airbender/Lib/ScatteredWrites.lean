import Mathlib.Data.List.Basic
import Mathlib.Data.List.Nodup
import Mathlib.Data.List.Range
import Mathlib.Logic.Function.Basic

/-!
# Writes to distinct places

Several writers fill places of a memory that is empty at first.  When no place is written twice, the
order in which their writes arrive does not matter.  A sequence that is written into buffers of one
capacity, one after the other, can be read back from them.
-/

namespace ScatteredWrites

universe u v

section Places

variable {Place : Type u} {Value : Type v} [DecidableEq Place]

def store (memory : Place → Option Value) (write : Place × Value) : Place → Option Value :=
  Function.update memory write.1 (some write.2)

/-- A memory after writes in some order. -/
def fill (writes : List (Place × Value)) : Place → Option Value :=
  writes.foldl store fun _ => none

variable {writes others : List (Place × Value)} {write : Place × Value}

theorem foldl_store_of_not_mem (memory : Place → Option Value) {place : Place}
    (untouched : place ∉ writes.map Prod.fst) :
    (writes.foldl store memory) place = memory place := by
  induction writes generalizing memory with
  | nil => rfl
  | cons first rest inductionHypothesis =>
      rw [List.map_cons, List.mem_cons, not_or] at untouched
      rw [List.foldl_cons, inductionHypothesis _ untouched.2]
      exact Function.update_of_ne untouched.1 _ _

theorem fill_of_mem (nodup : (writes.map Prod.fst).Nodup) (member : write ∈ writes) :
    fill writes write.1 = some write.2 := by
  rcases List.append_of_mem member with ⟨before, after, rfl⟩
  rw [List.map_append, List.map_cons] at nodup
  have untouched : write.1 ∉ after.map Prod.fst :=
    (List.nodup_cons.mp nodup.of_append_right).1
  rw [fill, List.foldl_append, List.foldl_cons, foldl_store_of_not_mem _ untouched]
  exact Function.update_self _ _ _

/-- Writes that arrive in another order fill the same places. -/
theorem fill_of_perm (nodup : (others.map Prod.fst).Nodup) (order : writes.Perm others)
    (member : write ∈ others) : fill writes write.1 = some write.2 :=
  fill_of_mem ((order.map Prod.fst).nodup_iff.mpr nodup) (order.mem_iff.mpr member)

end Places

/-! ## Buffers of one capacity -/

section Buffers

variable {Value : Type v} {capacity : Nat}

/-- The place of an index: its buffer and the offset there. -/
def place (capacity index : Nat) : Nat × Nat :=
  (index / capacity, index % capacity)

theorem place_injective (capacity : Nat) : Function.Injective (place capacity) := by
  intro first second same
  rcases Prod.mk.inj same with ⟨buffer, offset⟩
  rw [← Nat.div_add_mod first capacity, buffer, offset, Nat.div_add_mod]

theorem place_of_lt {buffer offset : Nat} (inside : offset < capacity) :
    place capacity (buffer * capacity + offset) = (buffer, offset) := by
  have positive : 0 < capacity := Nat.lt_of_le_of_lt (Nat.zero_le offset) inside
  rw [place, Nat.mul_comm, Nat.mul_add_div positive, Nat.mul_add_mod, Nat.div_eq_of_lt inside,
    Nat.mod_eq_of_lt inside, Nat.add_zero]

/-- A sequence and the places of its elements. -/
def scatter (capacity : Nat) (data : List Value) : List ((Nat × Nat) × Value) :=
  ((List.range data.length).map (place capacity)).zip data

theorem map_fst_scatter (capacity : Nat) (data : List Value) :
    (scatter capacity data).map Prod.fst = (List.range data.length).map (place capacity) :=
  List.map_fst_zip (by rw [List.length_map, List.length_range])

theorem nodup_scatter (capacity : Nat) (data : List Value) :
    ((scatter capacity data).map Prod.fst).Nodup := by
  rw [map_fst_scatter]
  exact List.nodup_range.map (place_injective capacity)

/-- Every place is inside a buffer that has a place before it. -/
theorem mem_scatter (positive : 0 < capacity) {data : List Value}
    {write : (Nat × Nat) × Value} (member : write ∈ scatter capacity data) :
    write.1.1 * capacity < data.length ∧ write.1.2 < capacity := by
  have listed := List.mem_map_of_mem (f := Prod.fst) member
  rw [map_fst_scatter] at listed
  rcases List.mem_map.mp listed with ⟨index, inside, isPlace⟩
  rw [← isPlace]
  exact ⟨(Nat.div_mul_le_self index capacity).trans_lt (List.mem_range.mp inside),
    Nat.mod_lt index positive⟩

theorem fill_scatter {data : List Value} {writes : List ((Nat × Nat) × Value)}
    (order : writes.Perm (scatter capacity data)) {buffer offset : Nat}
    (inside : offset < capacity) (stored : buffer * capacity + offset < data.length) :
    fill writes (buffer, offset) = some data[buffer * capacity + offset] := by
  have member :
      ((buffer, offset), data[buffer * capacity + offset]) ∈ scatter capacity data := by
    rw [List.mem_iff_getElem?]
    refine ⟨buffer * capacity + offset, ?_⟩
    rw [scatter, List.getElem?_zip_eq_some, List.getElem?_map, List.getElem?_range stored,
      Option.map_some, place_of_lt inside]
    exact ⟨rfl, List.getElem?_eq_getElem stored⟩
  exact fill_of_perm (nodup_scatter capacity data) order member

/-- Full buffers hold a sequence up to their last place. -/
theorem flatten_buffers (capacity count : Nat) (data : List Value) :
    ((List.range count).map fun buffer => (data.drop (buffer * capacity)).take capacity).flatten =
      data.take (count * capacity) := by
  induction count with
  | zero =>
      rw [Nat.zero_mul]
      rfl
  | succ count inductionHypothesis =>
      rw [List.range_succ, List.map_append, List.flatten_append, inductionHypothesis,
        List.map_singleton, List.flatten_singleton, Nat.succ_mul, List.take_add]

/-- What is read back from a part of a buffer. -/
theorem mapM_fill {data : List Value} {writes : List ((Nat × Nat) × Value)}
    (order : writes.Perm (scatter capacity data)) {buffer count : Nat} (fits : count ≤ capacity)
    (stored : buffer * capacity + count ≤ data.length) :
    ((List.range count).mapM fun offset => fill writes (buffer, offset)) =
      some ((data.drop (buffer * capacity)).take count) := by
  induction count with
  | zero => rfl
  | succ count inductionHypothesis =>
      have last := @fill_scatter _ capacity data writes order buffer count (by omega) (by omega)
      have drop : (data.drop (buffer * capacity))[count]? =
          some data[buffer * capacity + count] := by
        rw [List.getElem?_drop]
        exact List.getElem?_eq_getElem (by omega)
      rw [List.range_succ, List.mapM_append, inductionHypothesis (by omega) (by omega)]
      simp only [List.mapM_cons, List.mapM_nil, last, Option.pure_def, Option.bind_eq_bind,
        Option.bind_some, List.take_add_one, drop, Option.toList_some]

end Buffers

end ScatteredWrites
