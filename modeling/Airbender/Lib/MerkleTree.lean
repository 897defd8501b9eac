import Mathlib.Data.List.Forall2
import Mathlib.Data.Nat.Bitwise
import Mathlib.Tactic.Common

/-!
# Hash chains and Merkle trees

A chain feeds its state and one item after the other to a hash function.  Two chains of one shape
that end in one state agree, or they show a collision.  A Merkle tree is complete: the siblings on
the way up lead a chain from a leaf to the node above it.
-/

universe u v w

/-! ## Chains -/

/-- How a step makes an input of the hash function, and how the state follows from its output. -/
structure HashChain (S : Type u) (X : Type v) (I : Type w) where
  input : S → X → I
  output : I → S

namespace HashChain

variable {S : Type u} {X : Type v} {I : Type w} (chain : HashChain S X I)

def step (s : S) (x : X) : S := chain.output (chain.input s x)

def run (s : S) (items : List X) : S := items.foldl chain.step s

/-- The inputs of the hash function on the way. -/
def inputs : S → List X → List I
  | _, [] => []
  | s, x :: items => chain.input s x :: inputs (chain.step s x) items

@[simp] theorem run_nil (s : S) : chain.run s [] = s := rfl

@[simp] theorem run_cons (s : S) (x : X) (items : List X) :
    chain.run s (x :: items) = chain.run (chain.step s x) items := rfl

theorem run_append (s : S) (items others : List X) :
    chain.run s (items ++ others) = chain.run (chain.run s items) others :=
  List.foldl_append

variable [DecidableEq S] [DecidableEq I]

/-- The first place where two lists of inputs differ and the outputs agree. -/
def findCollision (left right : List I) : Option (I × I) :=
  (left.zip right).find? fun pair =>
    decide (pair.1 ≠ pair.2 ∧ chain.output pair.1 = chain.output pair.2)

/-- Two inputs of the hash function with one output, of which each belongs to its list. -/
structure Collision (left right : List I) (pair : I × I) : Prop where
  different : pair.1 ≠ pair.2
  same : chain.output pair.1 = chain.output pair.2
  leftMem : pair.1 ∈ left
  rightMem : pair.2 ∈ right

theorem collision_of_find {left right : List I} {pair : I × I}
    (found : chain.findCollision left right = some pair) : chain.Collision left right pair := by
  rw [findCollision] at found
  have predicate := List.find?_some found
  have holds := of_decide_eq_true predicate
  have member := List.mem_of_find?_eq_some found
  exact ⟨holds.1, holds.2, (List.of_mem_zip member).1, (List.of_mem_zip member).2⟩

theorem exists_findCollision_cons {left right : List I} {a b : I}
    (later : ∃ pair, chain.findCollision left right = some pair) :
    ∃ pair, chain.findCollision (a :: left) (b :: right) = some pair := by
  obtain ⟨pair, found⟩ := later
  rw [findCollision, List.zip_cons_cons, List.find?_cons]
  split
  · exact ⟨(a, b), rfl⟩
  · exact ⟨pair, found⟩

/-- Two chains of one shape that end in one state are the same chain, or a collision is found on
the way.  A step is determined by its input once its shape is known. -/
theorem run_binding {alike : X → X → Prop}
    (injective : ∀ s s' x x', alike x x' → chain.input s x = chain.input s' x' → s = s' ∧ x = x')
    {items items' : List X} (shape : List.Forall₂ alike items items') {s s' : S}
    (same : chain.run s items = chain.run s' items') :
    (s = s' ∧ items = items') ∨
      ∃ pair, chain.findCollision (chain.inputs s items) (chain.inputs s' items') = some pair := by
  induction shape generalizing s s' with
  | nil => exact Or.inl ⟨same, rfl⟩
  | @cons x x' items items' first _ inductionHypothesis =>
      rw [run_cons, run_cons] at same
      rcases inductionHypothesis same with ⟨states, rest⟩ | later
      · by_cases equal : chain.input s x = chain.input s' x'
        · obtain ⟨start, head⟩ := injective s s' x x' first equal
          rw [start, head, rest]
          exact Or.inl ⟨rfl, rfl⟩
        · right
          refine ⟨(chain.input s x, chain.input s' x'), ?_⟩
          rw [findCollision, inputs, inputs, List.zip_cons_cons, List.find?_cons_of_pos]
          exact decide_eq_true ⟨equal, states⟩
      · exact Or.inr (chain.exists_findCollision_cons later)

end HashChain

/-! ## Trees -/

namespace MerkleTree

variable {D : Type u} (node : D → D → D) (leaf : ℕ → D)

/-- The nodes at a height above the leaves. -/
def layer : ℕ → ℕ → D
  | 0, k => leaf k
  | height + 1, k => node (layer height (2 * k)) (layer height (2 * k + 1))

/-- The other child of a node's parent. -/
def sibling (k : ℕ) : ℕ := k ^^^ 1

/-- The siblings on the way from a leaf up to a height. -/
def path (depth idx : ℕ) : List D :=
  (List.range depth).map fun height => layer node leaf height (sibling (idx / 2 ^ height))

/-- A step up from a node with the hash of its sibling. -/
def climbStep (idx : ℕ) (current witness : D) : D :=
  if idx % 2 = 1 then node witness current else node current witness

def climb : ℕ → D → List D → D
  | _, current, [] => current
  | idx, current, witness :: rest => climb (idx / 2) (climbStep node idx current witness) rest

theorem sibling_of_even {k : ℕ} (even : k % 2 = 0) : sibling k = k + 1 :=
  Nat.xor_one_of_even (Nat.even_iff.mpr even)

theorem sibling_of_odd {k : ℕ} (odd : k % 2 = 1) : sibling k = k - 1 :=
  Nat.xor_one_of_odd (Nat.odd_iff.mpr odd)

theorem climbStep_layer (height k : ℕ) :
    climbStep node k (layer node leaf height k) (layer node leaf height (sibling k)) =
      layer node leaf (height + 1) (k / 2) := by
  rw [climbStep, layer]
  rcases Nat.mod_two_eq_zero_or_one k with even | odd
  · have left : 2 * (k / 2) = k := by omega
    rw [if_neg (by omega), sibling_of_even even, left]
  · have left : 2 * (k / 2) = k - 1 := by omega
    have right : 2 * (k / 2) + 1 = k := by omega
    rw [if_pos odd, sibling_of_odd odd, right, left]

theorem climb_from (depth height idx : ℕ) :
    climb node (idx / 2 ^ height) (layer node leaf height (idx / 2 ^ height))
        ((List.range' height depth).map fun height =>
          layer node leaf height (sibling (idx / 2 ^ height))) =
      layer node leaf (height + depth) (idx / 2 ^ (height + depth)) := by
  induction depth generalizing height with
  | zero => rfl
  | succ depth inductionHypothesis =>
      have half : idx / 2 ^ height / 2 = idx / 2 ^ (height + 1) := by
        rw [Nat.div_div_eq_div_mul, ← Nat.pow_succ]
      have total : height + (depth + 1) = height + 1 + depth := by omega
      rw [List.range'_succ, List.map_cons, climb, climbStep_layer, half, inductionHypothesis,
        total]

/-- The siblings of the tree lead from every leaf to the node above it. -/
theorem climb_path (depth idx : ℕ) :
    climb node idx (leaf idx) (path node leaf depth idx) =
      layer node leaf depth (idx / 2 ^ depth) := by
  have whole := climb_from node leaf depth 0 idx
  rw [Nat.pow_zero, Nat.div_one, Nat.zero_add] at whole
  rw [path, List.range_eq_range']
  exact whole

end MerkleTree
