import Airbender.Lib.RadixTwo
import Mathlib.Data.List.Nodup
import Mathlib.Data.List.Perm.Basic

/-!
# Exchanges of places by several tasks

Exchanges of disjoint pairs of places give one result in every order, so tasks that share them out
may run in any interleaving.
-/

namespace Exchanges

open RadixTwo

universe u

variable {α : Type u}

/-! ## Interleavings -/

/-- The steps of several tasks in an order in which the tasks can take them. -/
inductive Interleaving : List (List α) → List α → Prop where
  | finished {tasks : List (List α)} (noSteps : tasks.flatten = []) : Interleaving tasks []
  | next {before after : List (List α)} {rest order : List α} {step : α}
      (later : Interleaving (before ++ rest :: after) order) :
      Interleaving (before ++ (step :: rest) :: after) (step :: order)

theorem Interleaving.perm {tasks : List (List α)} {order : List α}
    (interleaving : Interleaving tasks order) : order.Perm tasks.flatten := by
  induction interleaving with
  | finished noSteps => rw [noSteps]
  | @next before after rest order step _ inductionHypothesis =>
      have front : (before ++ (step :: rest) :: after).flatten =
          before.flatten ++ step :: (rest ++ after.flatten) := by
        rw [List.flatten_append, List.flatten_cons, List.cons_append]
      have behind : (before ++ rest :: after).flatten =
          before.flatten ++ (rest ++ after.flatten) := by
        rw [List.flatten_append, List.flatten_cons]
      rw [behind] at inductionHypothesis
      rw [front]
      exact (inductionHypothesis.cons step).trans List.perm_middle.symm

/-! ## Exchanges in any order -/

/-- The place belongs to the pair. -/
def Touches (pair : ℕ × ℕ) (place : ℕ) : Prop := place = pair.1 ∨ place = pair.2

/-- Two pairs without a common place. -/
def Apart (pair other : ℕ × ℕ) : Prop := ∀ place, Touches pair place → ¬ Touches other place

theorem Apart.symm {pair other : ℕ × ℕ} (apart : Apart pair other) : Apart other pair :=
  fun place touched touches => apart place touches touched

/-- Tasks of which no two touch one place. -/
def DisjointTasks (tasks : List (List (ℕ × ℕ))) : Prop :=
  tasks.Pairwise fun task other => ∀ pair ∈ task, ∀ pair' ∈ other, Apart pair pair'

/-- Exchanges two places; a place outside is an error. -/
def swapPlaces (xs : List α) (pair : ℕ × ℕ) : Option (List α) :=
  if pair.1 < xs.length ∧ pair.2 < xs.length then some (swapped xs pair.1 pair.2) else none

def swapAll (xs : List α) (pairs : List (ℕ × ℕ)) : Option (List α) := pairs.foldlM swapPlaces xs

/-- The pairs that `σ` exchanges among the places below `n`, each of them once. -/
structure Transposes (n : ℕ) (σ : ℕ → ℕ) (pairs : List (ℕ × ℕ)) : Prop where
  inside : ∀ pair ∈ pairs, pair.1 < n ∧ pair.2 < n
  partner : ∀ pair ∈ pairs, σ pair.1 = pair.2 ∧ σ pair.2 = pair.1
  apart : pairs.Pairwise Apart
  complete : ∀ place < n, σ place ≠ place → ∃ pair ∈ pairs, Touches pair place

theorem Transposes.perm {n : ℕ} {σ : ℕ → ℕ} {pairs order : List (ℕ × ℕ)}
    (transposes : Transposes n σ pairs) (reordered : order.Perm pairs) :
    Transposes n σ order := by
  refine ⟨?_, ?_, ?_, ?_⟩
  · exact fun pair member => transposes.inside pair (reordered.mem_iff.mp member)
  · exact fun pair member => transposes.partner pair (reordered.mem_iff.mp member)
  · exact (reordered.pairwise_iff Apart.symm).mpr transposes.apart
  · intro place below moved
    rcases transposes.complete place below moved with ⟨pair, member, touches⟩
    exact ⟨pair, reordered.mem_iff.mpr member, touches⟩

/-- Every place holds what its partner held; pairs that are apart do not disturb each other. -/
theorem swapAll_result {pairs : List (ℕ × ℕ)} {xs : List α}
    (inside : ∀ pair ∈ pairs, pair.1 < xs.length ∧ pair.2 < xs.length)
    (apart : pairs.Pairwise Apart) :
    ∃ out, swapAll xs pairs = some out ∧ out.length = xs.length ∧
      (∀ pair ∈ pairs, out[pair.1]? = xs[pair.2]? ∧ out[pair.2]? = xs[pair.1]?) ∧
        ∀ place, (∀ pair ∈ pairs, ¬ Touches pair place) → out[place]? = xs[place]? := by
  induction pairs generalizing xs with
  | nil =>
      refine ⟨xs, rfl, rfl, ?_, ?_⟩
      · intro pair member
        exact absurd member List.not_mem_nil
      · intro place _
        rfl
  | cons first pairs inductionHypothesis =>
      rcases List.forall_mem_cons.mp inside with ⟨here, later⟩
      rcases List.pairwise_cons.mp apart with ⟨headApart, restApart⟩
      have length := length_swapped xs first.1 first.2
      have laterInside : ∀ pair ∈ pairs,
          pair.1 < (swapped xs first.1 first.2).length ∧
            pair.2 < (swapped xs first.1 first.2).length := by
        rw [length]
        exact later
      rcases inductionHypothesis laterInside restApart with
        ⟨out, run, outLength, exchanged, kept⟩
      have step : swapAll xs (first :: pairs) = swapAll (swapped xs first.1 first.2) pairs := by
        rw [swapAll, List.foldlM_cons, swapPlaces, if_pos here]
        rfl
      -- what the later pairs see and what they leave
      have before : ∀ place, ¬ Touches first place →
          (swapped xs first.1 first.2)[place]? = xs[place]? := by
        intro place untouched
        rw [getElem?_swapped here.1 here.2, if_neg (fun same => untouched (Or.inr same)),
          if_neg (fun same => untouched (Or.inl same))]
      have after : ∀ place, Touches first place →
          out[place]? = (swapped xs first.1 first.2)[place]? := by
        intro place touched
        exact kept place fun pair member => headApart pair member place touched
      refine ⟨out, step.trans run, outLength.trans length, ?_, ?_⟩
      · refine List.forall_mem_cons.mpr ⟨?_, ?_⟩
        · rw [after first.1 (Or.inl rfl), after first.2 (Or.inr rfl),
            getElem?_swapped here.1 here.2, getElem?_swapped here.1 here.2]
          constructor
          · by_cases same : first.1 = first.2
            · rw [if_pos same, same]
            · rw [if_neg same, if_pos rfl]
          · rw [if_pos rfl]
        · intro pair member
          have results := exchanged pair member
          have other := (headApart pair member).symm
          rw [before pair.1 (other _ (Or.inl rfl)), before pair.2 (other _ (Or.inr rfl))] at results
          exact results
      · intro place untouched
        rcases List.forall_mem_cons.mp untouched with ⟨notFirst, notLater⟩
        rw [kept place notLater, before place notFirst]

/-- Transpositions permute the places. -/
theorem Transposes.swapAll_eq {n : ℕ} {σ : ℕ → ℕ} {pairs : List (ℕ × ℕ)} {xs : List α}
    (transposes : Transposes n σ pairs) (size : xs.length = n) :
    ∃ out, swapAll xs pairs = some out ∧ out.length = n ∧ ∀ place < n, out[place]? = xs[σ place]? := by
  have inside := transposes.inside
  rw [← size] at inside
  rcases swapAll_result inside transposes.apart with ⟨out, run, length, exchanged, kept⟩
  refine ⟨out, run, length.trans size, ?_⟩
  intro place below
  by_cases moved : ∃ pair ∈ pairs, Touches pair place
  · rcases moved with ⟨pair, member, first | second⟩
    · rw [first, (transposes.partner pair member).1]
      exact (exchanged pair member).1
    · rw [second, (transposes.partner pair member).2]
      exact (exchanged pair member).2
  · have untouched : ∀ pair ∈ pairs, ¬ Touches pair place :=
      fun pair member touches => moved ⟨pair, member, touches⟩
    have fixed : σ place = place := by
      by_contra different
      exact moved (transposes.complete place below different)
    rw [kept place untouched, fixed]

/-- Two lists of transpositions for one permutation give the same result. -/
theorem Transposes.swapAll_unique {n : ℕ} {σ : ℕ → ℕ} {pairs other : List (ℕ × ℕ)} {xs : List α}
    (transposes : Transposes n σ pairs) (transposesOther : Transposes n σ other)
    (size : xs.length = n) : swapAll xs pairs = swapAll xs other := by
  rcases transposes.swapAll_eq size with ⟨out, run, length, places⟩
  rcases transposesOther.swapAll_eq size with ⟨out', run', length', places'⟩
  have same : out = out' := by
    apply List.ext_getElem?
    intro place
    by_cases below : place < n
    · rw [places place below, places' place below]
    · rw [List.getElem?_eq_none (by omega), List.getElem?_eq_none (by omega)]
  rw [run, run', same]

/-! ## Transpositions from places -/

/-- Each place that is not fixed is exchanged by itself or by its partner, and not by both. -/
structure Owned (n : ℕ) (σ : ℕ → ℕ) (owns : ℕ → Prop) (pairsOf : ℕ → List (ℕ × ℕ)) : Prop where
  bound : ∀ place < n, σ place < n
  involutive : ∀ place < n, σ (σ place) = place
  owner : ∀ place < n, σ place ≠ place → owns place ∨ owns (σ place)
  single : ∀ place < n, owns place → ¬ owns (σ place)
  pair : ∀ place < n, owns place →
    pairsOf place = [(place, σ place)] ∨ pairsOf place = [(σ place, place)]
  empty : ∀ place < n, ¬ owns place → pairsOf place = []

variable {n : ℕ} {σ : ℕ → ℕ} {owns : ℕ → Prop} {pairsOf : ℕ → List (ℕ × ℕ)}

/-- A pair belongs to the place that owns it. -/
theorem Owned.of_mem (owned : Owned n σ owns pairsOf) {place : ℕ} (below : place < n)
    {pair : ℕ × ℕ} (member : pair ∈ pairsOf place) :
    owns place ∧ (pair = (place, σ place) ∨ pair = (σ place, place)) := by
  by_cases own : owns place
  · refine ⟨own, ?_⟩
    rcases owned.pair place below own with same | same
    · rw [same, List.mem_singleton] at member
      exact Or.inl member
    · rw [same, List.mem_singleton] at member
      exact Or.inr member
  · rw [owned.empty place below own] at member
    exact absurd member List.not_mem_nil

theorem Owned.exists_pair (owned : Owned n σ owns pairsOf) {place : ℕ} (below : place < n)
    (own : owns place) : ∃ pair, pair ∈ pairsOf place := by
  rcases owned.pair place below own with same | same
  · rw [same]
    exact ⟨_, List.mem_singleton_self _⟩
  · rw [same]
    exact ⟨_, List.mem_singleton_self _⟩

theorem Owned.touches_iff (owned : Owned n σ owns pairsOf) {place : ℕ} (below : place < n)
    {pair : ℕ × ℕ} (member : pair ∈ pairsOf place) (touched : ℕ) :
    Touches pair touched ↔ touched = place ∨ touched = σ place := by
  rcases (owned.of_mem below member).2 with rfl | rfl
  · exact Iff.rfl
  · exact Or.comm

/-- Places that own pairs own them alone. -/
theorem Owned.apart (owned : Owned n σ owns pairsOf) {place other : ℕ} (below : place < n)
    (otherBelow : other < n) (different : place ≠ other) {pair pair' : ℕ × ℕ}
    (member : pair ∈ pairsOf place) (member' : pair' ∈ pairsOf other) : Apart pair pair' := by
  intro touched touches touches'
  have own := (owned.of_mem below member).1
  have otherOwn := (owned.of_mem otherBelow member').1
  have back := owned.involutive place below
  have otherBack := owned.involutive other otherBelow
  rcases (owned.touches_iff below member touched).mp touches with first | first <;>
    rcases (owned.touches_iff otherBelow member' touched).mp touches' with second | second
  · exact different (first.symm.trans second)
  · -- the place would be the partner of the other
    rw [← first, second] at own
    exact owned.single other otherBelow otherOwn own
  · rw [← second, first] at otherOwn
    exact owned.single place below own otherOwn
  · have same : σ place = σ other := first.symm.trans second
    rw [← back, same, otherBack] at different
    exact different rfl

/-- The pairs of all places, visited in any order. -/
theorem Owned.transposes (owned : Owned n σ owns pairsOf) {places : List ℕ}
    (all : places.Perm (List.range n)) : Transposes n σ (places.flatMap pairsOf) := by
  have below : ∀ place ∈ places, place < n :=
    fun place member => List.mem_range.mp (all.mem_iff.mp member)
  have visited : ∀ place < n, place ∈ places :=
    fun place bound => all.mem_iff.mpr (List.mem_range.mpr bound)
  refine ⟨?_, ?_, ?_, ?_⟩
  · intro pair member
    rcases List.mem_flatMap.mp member with ⟨place, placeMember, pairMember⟩
    have bound := below place placeMember
    have partnerBound := owned.bound place bound
    rcases (owned.of_mem bound pairMember).2 with rfl | rfl
    · exact ⟨bound, partnerBound⟩
    · exact ⟨partnerBound, bound⟩
  · intro pair member
    rcases List.mem_flatMap.mp member with ⟨place, placeMember, pairMember⟩
    have bound := below place placeMember
    have back := owned.involutive place bound
    rcases (owned.of_mem bound pairMember).2 with rfl | rfl
    · exact ⟨rfl, back⟩
    · exact ⟨back, rfl⟩
  · apply List.pairwise_flatMap.mpr
    constructor
    · intro place member
      by_cases own : owns place
      · rcases owned.pair place (below place member) own with same | same
        · rw [same]
          exact List.pairwise_singleton _ _
        · rw [same]
          exact List.pairwise_singleton _ _
      · rw [owned.empty place (below place member) own]
        exact List.Pairwise.nil
    · have nodup : places.Nodup := all.nodup_iff.mpr List.nodup_range
      refine nodup.imp_of_mem ?_
      intro place other member otherMember different pair pairMember pair' pairMember'
      exact owned.apart (below place member) (below other otherMember) different pairMember
        pairMember'
  · intro place bound moved
    rcases owned.owner place bound moved with own | own
    · rcases owned.exists_pair bound own with ⟨pair, pairMember⟩
      refine ⟨pair, List.mem_flatMap.mpr ⟨place, visited place bound, pairMember⟩, ?_⟩
      exact (owned.touches_iff bound pairMember place).mpr (Or.inl rfl)
    · have partnerBound := owned.bound place bound
      rcases owned.exists_pair partnerBound own with ⟨pair, pairMember⟩
      refine ⟨pair, List.mem_flatMap.mpr ⟨σ place, visited _ partnerBound, pairMember⟩, ?_⟩
      apply (owned.touches_iff partnerBound pairMember place).mpr
      exact Or.inr (owned.involutive place bound).symm

end Exchanges
