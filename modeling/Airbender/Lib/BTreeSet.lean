import Mathlib.Data.List.Sort
import Mathlib.Order.Basic

/-!
# Sorted sets

A set whose elements are listed in their order, no element twice.
-/

universe u

/-- Elements in their order. -/
structure BTreeSet (Element : Type u) [LT Element] where
  elements : List Element
  sorted : elements.Pairwise (· < ·)

namespace BTreeSet

variable {Element : Type u} [LinearOrder Element]

instance : Membership Element (BTreeSet Element) where
  mem set element := element ∈ set.elements

instance (element : Element) (set : BTreeSet Element) : Decidable (element ∈ set) :=
  inferInstanceAs (Decidable (element ∈ set.elements))

def empty : BTreeSet Element where
  elements := []
  sorted := List.Pairwise.nil

def len (set : BTreeSet Element) : Nat := set.elements.length

/-- The place of a new element among sorted ones. -/
theorem sorted_insert (set : BTreeSet Element) {element : Element} (new : element ∉ set) :
    (set.elements.orderedInsert (· ≤ ·) element).Pairwise (· < ·) := by
  have weaklySorted : (set.elements.orderedInsert (· ≤ ·) element).Pairwise (· ≤ ·) :=
    (set.sorted.imp le_of_lt).orderedInsert element set.elements
  have distinct : (set.elements.orderedInsert (· ≤ ·) element).Nodup := by
    rw [(List.perm_orderedInsert (· ≤ ·) element set.elements).nodup_iff, List.nodup_cons]
    exact ⟨new, set.sorted.imp ne_of_lt⟩
  apply (weaklySorted.and distinct).imp
  intro earlier later order
  exact lt_of_le_of_ne order.1 order.2

/-- `insert`, without its answer. -/
def insert (set : BTreeSet Element) (element : Element) : BTreeSet Element :=
  if new : element ∉ set then
    ⟨set.elements.orderedInsert (· ≤ ·) element, sorted_insert set new⟩
  else set

/-- `remove`: nothing when the element is not there. -/
def remove (set : BTreeSet Element) (element : Element) : Option (BTreeSet Element) :=
  if element ∈ set then
    some ⟨set.elements.erase element, set.sorted.sublist List.erase_sublist⟩
  else none

theorem elements_of_remove {set rest : BTreeSet Element} {element : Element}
    (removed : set.remove element = some rest) :
    rest.elements = set.elements.erase element := by
  rw [remove] at removed
  split_ifs at removed with present
  cases removed
  rfl

end BTreeSet
