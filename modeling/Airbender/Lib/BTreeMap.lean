import Mathlib.Data.List.Perm.Basic
import Mathlib.Data.List.Pairwise
import Mathlib.Data.List.Basic

/-!
# Sorted maps

A map whose entries are listed in the order of their keys, no key twice.  Two sorted lists of
keys with the same members are equal, so the keys of a map determine the order in which it is
read out.
-/

universe u v

/-- Entries in the order of their keys. -/
structure BTreeMap (Key : Type u) (Value : Type v) [LT Key] where
  entries : List (Key × Value)
  sorted : (entries.map Prod.fst).Pairwise (· < ·)

namespace BTreeMap

variable {Key : Type u} {Value : Type v} [LT Key]

/-- The keys in their order. -/
def keys (map : BTreeMap Key Value) : List Key := map.entries.map Prod.fst

/-- The values in the order of their keys. -/
def values (map : BTreeMap Key Value) : List Value := map.entries.map Prod.snd

def len (map : BTreeMap Key Value) : Nat := map.entries.length

/-- The value of a key. -/
def get [DecidableEq Key] (map : BTreeMap Key Value) (key : Key) : Option Value :=
  (map.entries.find? fun entry => entry.1 = key).map Prod.snd

def containsKey [DecidableEq Key] (map : BTreeMap Key Value) (key : Key) : Bool :=
  (map.get key).isSome

def empty : BTreeMap Key Value where
  entries := []
  sorted := List.Pairwise.nil

theorem length_keys (map : BTreeMap Key Value) : map.keys.length = map.entries.length :=
  List.length_map Prod.fst

theorem mem_of_get [DecidableEq Key] {map : BTreeMap Key Value} {key : Key} {value : Value}
    (found : map.get key = some value) : (key, value) ∈ map.entries := by
  rw [get, Option.map_eq_some_iff] at found
  obtain ⟨entry, isEntry, rfl⟩ := found
  have sameKey := List.find?_some isEntry
  rw [decide_eq_true_eq] at sameKey
  rw [← sameKey]
  exact List.mem_of_find?_eq_some isEntry

section Order

variable [Std.Asymm (α := Key) (· < ·)]

/-- Sorted lists with the same members are equal. -/
theorem eq_of_sorted {left right : List Key} (leftSorted : left.Pairwise (· < ·))
    (rightSorted : right.Pairwise (· < ·)) (same : ∀ key, key ∈ left ↔ key ∈ right) :
    left = right := by
  have distinct : ∀ {keys : List Key}, keys.Pairwise (· < ·) → keys.Nodup := by
    intro keys sorted
    apply sorted.imp
    rintro key _ order rfl
    exact Std.Asymm.asymm _ _ order order
  have permutation : left.Perm right :=
    (List.perm_ext_iff_of_nodup (distinct leftSorted) (distinct rightSorted)).mpr same
  refine List.Perm.eq_of_pairwise ?_ leftSorted rightSorted permutation
  intro key later _ _ order reverse
  exact absurd reverse (Std.Asymm.asymm _ _ order)

/-- The keys are known from what they are. -/
theorem keys_eq (map : BTreeMap Key Value) {keys : List Key} (sorted : keys.Pairwise (· < ·))
    (same : ∀ key, key ∈ map.keys ↔ key ∈ keys) : map.keys = keys :=
  eq_of_sorted map.sorted sorted same

end Order

end BTreeMap
