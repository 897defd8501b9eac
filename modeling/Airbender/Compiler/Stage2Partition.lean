import Airbender.Compiler.Stage2Layout
import Airbender.Fft.Worker

/-!
# The second stage is a partition

The sets that the layout allocates are stacked, the base field sets from column zero and the
extension field sets from the next multiple of four.  All facts about columns, counts and
indices follow from the two stacks.
-/

namespace Airbender.Compiler

open Stack

/-- The starts and the numbers of elements of sets. -/
def pairs {width : Nat} (sets : List (AlignedColumnSet width)) : List (Nat × Nat) :=
  sets.map fun set => (set.start, set.numElements)

theorem pairs_append {width : Nat} (front back : List (AlignedColumnSet width)) :
    pairs (front ++ back) = pairs front ++ pairs back :=
  List.map_append

theorem count_pairs {width : Nat} (sets : List (AlignedColumnSet width)) :
    count (pairs sets) = (sets.map AlignedColumnSet.numElements).sum := by
  rw [count, pairs, List.map_map]
  rfl

/-! ## One placement -/

theorem nextMultipleOf_of_mod {offset width : Nat} (aligned : offset % width = 0) :
    nextMultipleOf offset width = offset :=
  if_pos aligned

theorem nextMultipleOf_mod {offset width : Nat} (positive : 0 < width) :
    nextMultipleOf offset width % width = 0 := by
  unfold nextMultipleOf
  split
  · assumption
  · have below := Nat.mod_lt offset positive
    have split := Nat.div_add_mod offset width
    have whole : offset + (width - offset % width) = width * (offset / width + 1) := by
      rw [Nat.mul_add, Nat.mul_one]
      omega
    rw [whole, Nat.mul_mod_right]

theorem layoutAt_eq {width offset numElements finish : Nat} {set : AlignedColumnSet width}
    (place : AlignedColumnSet.layoutAt width offset numElements = some (set, finish)) :
    set = ⟨nextMultipleOf offset width, numElements⟩ ∧
      finish = nextMultipleOf offset width + numElements * width := by
  simp only [AlignedColumnSet.layoutAt, Option.bind_eq_bind, Option.bind_eq_some_iff] at place
  obtain ⟨_, _, _, _, same⟩ := place
  by_cases aligned : offset % width = 0
  · rw [if_neg (not_not_intro aligned)] at same
    cases same
    rw [nextMultipleOf_of_mod aligned]
    exact ⟨rfl, rfl⟩
  · rw [if_pos aligned] at same
    cases same
    exact ⟨rfl, rfl⟩

theorem numElements_of_layoutAt {width offset numElements finish : Nat}
    {set : AlignedColumnSet width}
    (place : AlignedColumnSet.layoutAt width offset numElements = some (set, finish)) :
    set.numElements = numElements :=
  congrArg AlignedColumnSet.numElements (layoutAt_eq place).1

/-- `Placed offset sets finish`: the sets fill the columns between two aligned offsets. -/
def Placed (offset : Nat) (sets : List (AlignedColumnSet 4)) (finish : Nat) : Prop :=
  Stacked 4 offset (pairs sets) finish ∧ finish % 4 = 0

theorem Placed.append {offset middle finish : Nat} {front back : List (AlignedColumnSet 4)}
    (first : Placed offset front middle) (second : Placed middle back finish) :
    Placed offset (front ++ back) finish := by
  refine ⟨?_, second.2⟩
  rw [pairs_append]
  exact first.1.append second.1

theorem placed_layoutAt {offset numElements finish : Nat} {set : AlignedColumnSet 4}
    (aligned : offset % 4 = 0)
    (place : AlignedColumnSet.layoutAt 4 offset numElements = some (set, finish)) :
    Placed offset [set] finish := by
  obtain ⟨setEq, finishEq⟩ := layoutAt_eq place
  rw [nextMultipleOf_of_mod aligned] at setEq finishEq
  subst setEq finishEq
  exact ⟨.single numElements, by omega⟩

theorem placed_layoutWhen {condition : Bool} {offset numElements finish : Nat}
    {set : AlignedColumnSet 4} (aligned : offset % 4 = 0)
    (place : layoutWhen condition offset numElements = some (set, finish)) :
    Placed offset [set] finish ∧ set.numElements ≤ numElements := by
  cases condition with
  | true =>
      exact ⟨placed_layoutAt aligned place, (numElements_of_layoutAt place).le⟩
  | false =>
      cases place
      exact ⟨⟨.absent (.nil offset), aligned⟩, Nat.zero_le _⟩

theorem placed_layoutOption {condition : Bool} {offset finish : Nat}
    {set : Option (AlignedColumnSet 4)} (aligned : offset % 4 = 0)
    (place : layoutOption condition offset = some (set, finish)) :
    Placed offset set.toList finish ∧ set.isSome = condition ∧
      ∀ element ∈ set, element.numElements = 1 := by
  cases condition with
  | true =>
      rw [layoutOption, if_pos rfl] at place
      obtain ⟨⟨inner, behind⟩, innerPlace, same⟩ := Option.bind_eq_some_iff.mp place
      cases same
      refine ⟨placed_layoutAt aligned innerPlace, rfl, ?_⟩
      intro element member
      cases member
      exact numElements_of_layoutAt innerPlace
  | false =>
      cases place
      exact ⟨⟨.nil offset, aligned⟩, rfl, fun _ member => nomatch member⟩

theorem placed_layoutMemoryArgument {memoryLayout : MemorySubtree} {offset finish : Nat}
    {set : AlignedColumnSet 4} (aligned : offset % 4 = 0)
    (place : layoutMemoryArgument memoryLayout offset = some (set, finish)) :
    Placed offset [set] finish := by
  unfold layoutMemoryArgument at place
  split at place
  · obtain ⟨_, _, placed⟩ := Option.bind_eq_some_iff.mp place
    exact placed_layoutAt aligned placed
  · split at place
    · obtain ⟨_, _, placed⟩ := Option.bind_eq_some_iff.mp place
      exact placed_layoutAt aligned placed
    · cases place
      exact ⟨.absent (.nil offset), aligned⟩

theorem placed_layoutStatePermutation {memoryLayout : MemorySubtree}
    {hasDecoderPart separateDecoderCircuit : Bool} {offset finish : Nat}
    {statePermutation masking : AlignedColumnSet 4} (aligned : offset % 4 = 0)
    (place : layoutStatePermutation memoryLayout hasDecoderPart separateDecoderCircuit offset =
      some (statePermutation, masking, finish)) :
    Placed offset [statePermutation, masking] finish ∧ masking.numElements ≤ 1 := by
  cases hasDecoderPart with
  | false =>
      cases place
      exact ⟨⟨.absent (.absent (.nil offset)), aligned⟩, Nat.zero_le 1⟩
  | true =>
      simp only [layoutStatePermutation, if_true, Option.bind_eq_bind,
        Option.bind_eq_some_iff] at place
      obtain ⟨machineState, _, intermediateState, _, place⟩ := place
      cases separateDecoderCircuit with
      | true =>
          rw [if_pos rfl] at place
          obtain ⟨⟨first, middle⟩, firstPlace, place⟩ := Option.bind_eq_some_iff.mp place
          obtain ⟨⟨second, behind⟩, secondPlace, same⟩ := Option.bind_eq_some_iff.mp place
          cases same
          have firstPlaced := placed_layoutAt aligned firstPlace
          obtain ⟨secondPlaced, single⟩ := placed_layoutWhen firstPlaced.2 secondPlace
          exact ⟨firstPlaced.append secondPlaced, single⟩
      | false =>
          rw [if_neg Bool.false_ne_true] at place
          obtain ⟨_, _, place⟩ := Option.bind_eq_some_iff.mp place
          obtain ⟨⟨first, middle⟩, firstPlace, place⟩ := Option.bind_eq_some_iff.mp place
          obtain ⟨⟨second, behind⟩, secondPlace, same⟩ := Option.bind_eq_some_iff.mp place
          cases same
          have firstPlaced := placed_layoutAt aligned firstPlace
          have secondPlaced := placed_layoutAt firstPlaced.2 secondPlace
          exact ⟨firstPlaced.append secondPlaced, (numElements_of_layoutAt secondPlace).le⟩

/-! ## The sets of a layout -/

namespace LookupAndMemoryArgumentLayout

def baseSets (layout : LookupAndMemoryArgumentLayout) : List (AlignedColumnSet 1) :=
  [layout.intermediatePolysForRangeCheck16.baseFieldOracles]
    ++ layout.lazyInitAddressRangeCheck16.toList.map OptimizedOraclesForLookupWidth1.baseFieldOracles
    ++ [layout.intermediatePolysForTimestampRangeChecks.baseFieldOracles]

def ext4Sets (layout : LookupAndMemoryArgumentLayout) : List (AlignedColumnSet 4) :=
  [layout.intermediatePolysForRangeCheck16.ext4FieldOracles]
    ++ layout.lazyInitAddressRangeCheck16.toList.map OptimizedOraclesForLookupWidth1.ext4FieldOracles
    ++ layout.remainderForRangeCheck16.toList
    ++ [layout.intermediatePolysForTimestampRangeChecks.ext4FieldOracles,
      layout.intermediatePolysForGenericLookup,
      layout.intermediatePolyForDecoderAccesses,
      layout.intermediatePolyForRangeCheck16Multiplicity,
      layout.intermediatePolyForTimestampRangeCheckMultiplicity,
      layout.intermediatePolysForGenericMultiplicities,
      layout.intermediatePolysForDecoderMultiplicities]
    ++ layout.delegationProcessingAuxPoly.toList
    ++ [layout.intermediatePolysForMemoryInitTeardown,
      layout.intermediatePolysForMemoryArgument,
      layout.intermediatePolysForStatePermutation,
      layout.intermediatePolysForPermutationMasking]
    ++ [layout.intermediatePolyForGrandProduct]

/-- What the allocation guarantees. -/
structure Allocated (layout : LookupAndMemoryArgumentLayout) : Prop where
  baseStacked : Stacked 1 0 (pairs layout.baseSets) layout.numBaseFieldPolys
  ext4Offset : layout.ext4PolysOffset = nextMultipleOf layout.numBaseFieldPolys 4
  ext4Placed : ∃ sets, sets.Perm layout.ext4Sets ∧
    Placed layout.ext4PolysOffset sets layout.totalWidth
  rangeCheck16Pairs : layout.intermediatePolysForRangeCheck16.ext4FieldOracles.numElements =
    layout.intermediatePolysForRangeCheck16.numPairs
  timestampPairs :
    layout.intermediatePolysForTimestampRangeChecks.ext4FieldOracles.numElements =
      layout.intermediatePolysForTimestampRangeChecks.numPairs
  lazyInitPairs : ∀ oracles ∈ layout.lazyInitAddressRangeCheck16,
    oracles.ext4FieldOracles.numElements = oracles.numPairs
  delegationAux : ∀ set ∈ layout.delegationProcessingAuxPoly, set.numElements = 1
  singles : ∀ set ∈ [layout.intermediatePolyForDecoderAccesses,
    layout.intermediatePolyForRangeCheck16Multiplicity,
    layout.intermediatePolyForTimestampRangeCheckMultiplicity,
    layout.intermediatePolysForDecoderMultiplicities,
    layout.intermediatePolysForPermutationMasking,
    layout.intermediatePolyForGrandProduct], set.numElements ≤ 1

end LookupAndMemoryArgumentLayout

open LookupAndMemoryArgumentLayout

/-! ## The allocation -/

theorem layoutAt_one_eq {offset numElements finish : Nat} {set : AlignedColumnSet 1}
    (place : AlignedColumnSet.layoutAt 1 offset numElements = some (set, finish)) :
    set = ⟨offset, numElements⟩ ∧ finish = offset + numElements * 1 := by
  have placed := layoutAt_eq place
  rwa [nextMultipleOf_of_mod (Nat.mod_one offset)] at placed

/-- The first extension field set moves the offset to a multiple of four. -/
theorem placed_first {offset numElements finish : Nat} {set : AlignedColumnSet 4}
    (place : AlignedColumnSet.layoutAt 4 offset numElements = some (set, finish)) :
    set.start = nextMultipleOf offset 4 ∧ Placed set.start [set] finish := by
  obtain ⟨setEq, finishEq⟩ := layoutAt_eq place
  have aligned : nextMultipleOf offset 4 % 4 = 0 := nextMultipleOf_mod (by omega)
  subst setEq finishEq
  exact ⟨rfl, .single numElements, by omega⟩

/-- Without inits there is no oracle, and the empty set has taken no columns. -/
theorem placed_lazyInit {offset numInits finish : Nat} (base : AlignedColumnSet 1)
    {set : AlignedColumnSet 4} (aligned : offset % 4 = 0)
    (place : AlignedColumnSet.layoutAt 4 offset numInits = some (set, finish)) :
    Placed offset ((if 0 < numInits
      then some (⟨numInits, base, set⟩ : OptimizedOraclesForLookupWidth1)
      else none).toList.map OptimizedOraclesForLookupWidth1.ext4FieldOracles) finish := by
  by_cases inits : 0 < numInits
  · rw [if_pos inits]
    exact placed_layoutAt aligned place
  · have behind := (layoutAt_eq place).2
    rw [nextMultipleOf_of_mod aligned, Nat.eq_zero_of_not_pos inits, Nat.zero_mul] at behind
    rw [if_neg inits, behind]
    exact ⟨.nil offset, aligned⟩

theorem baseStacked_of_layoutAt
    {numRangeCheck16 numInits numTimestamps offset₁ offset₂ offset₃ : Nat}
    {rangeCheck16 lazyInit timestamps : AlignedColumnSet 1} (ext4 : AlignedColumnSet 4)
    (place₁ : AlignedColumnSet.layoutAt 1 0 numRangeCheck16 = some (rangeCheck16, offset₁))
    (place₂ : AlignedColumnSet.layoutAt 1 offset₁ numInits = some (lazyInit, offset₂))
    (place₃ : AlignedColumnSet.layoutAt 1 offset₂ numTimestamps = some (timestamps, offset₃)) :
    Stacked 1 0 (pairs ([rangeCheck16] ++ (if 0 < numInits
      then some (⟨numInits, lazyInit, ext4⟩ : OptimizedOraclesForLookupWidth1)
      else none).toList.map OptimizedOraclesForLookupWidth1.baseFieldOracles ++ [timestamps]))
      offset₃ ∧ offset₃ = numRangeCheck16 + numTimestamps + (if 0 < numInits
      then some (⟨numInits, lazyInit, ext4⟩ : OptimizedOraclesForLookupWidth1)
      else none).elim 0 OptimizedOraclesForLookupWidth1.numPairs := by
  obtain ⟨set₁, finish₁⟩ := layoutAt_one_eq place₁
  obtain ⟨set₂, finish₂⟩ := layoutAt_one_eq place₂
  obtain ⟨set₃, finish₃⟩ := layoutAt_one_eq place₃
  subst set₁ set₂ set₃ finish₁ finish₂ finish₃
  by_cases inits : 0 < numInits
  · rw [if_pos inits]
    refine ⟨.cons (.cons (.cons (.nil _))), ?_⟩
    rw [Option.elim_some]
    ring
  · rw [if_neg inits, Nat.eq_zero_of_not_pos inits]
    refine ⟨.cons (.cons (.nil _)), ?_⟩
    rw [Option.elim_none]
    ring

/-- The init and teardown set is placed in front of the memory argument or behind the masking. -/
theorem placed_memorySets {initsAfterMasking : Bool} {memoryLayout : MemorySubtree}
    {hasDecoderPart separateDecoderCircuit : Bool}
    {numInits offset₁ offset₂ offset₃ offset₄ finish : Nat}
    {before memoryArgument statePermutation masking memoryInitTeardown : AlignedColumnSet 4}
    (aligned : offset₁ % 4 = 0)
    (place₁ : AlignedColumnSet.layoutAt 4 offset₁ (if initsAfterMasking then 0 else numInits) =
      some (before, offset₂))
    (place₂ : layoutMemoryArgument memoryLayout offset₂ = some (memoryArgument, offset₃))
    (place₃ : layoutStatePermutation memoryLayout hasDecoderPart separateDecoderCircuit offset₃ =
      some (statePermutation, masking, offset₄))
    (place₄ : layoutInitsAfterMasking initsAfterMasking numInits before offset₄ =
      some (memoryInitTeardown, finish)) :
    ∃ sets : List (AlignedColumnSet 4),
      sets.Perm [memoryInitTeardown, memoryArgument, statePermutation, masking] ∧
        Placed offset₁ sets finish ∧ masking.numElements ≤ 1 := by
  have placed₁ := placed_layoutAt aligned place₁
  have placed₂ := placed_layoutMemoryArgument placed₁.2 place₂
  obtain ⟨placed₃, single⟩ := placed_layoutStatePermutation placed₂.2 place₃
  cases initsAfterMasking with
  | false =>
      cases place₄
      exact ⟨_, List.Perm.refl _, placed₁.append (placed₂.append placed₃), single⟩
  | true =>
      have placed₄ := placed_layoutAt placed₃.2 place₄
      have behind := (layoutAt_eq place₁).2
      rw [nextMultipleOf_of_mod aligned, if_pos rfl, Nat.zero_mul, Nat.add_zero] at behind
      subst behind
      refine ⟨[memoryArgument] ++ [statePermutation, masking] ++ [memoryInitTeardown],
        List.perm_append_comm, (placed₂.append placed₃).append placed₄, single⟩

theorem allocated_of_fromCompiledParts {initsAfterMasking : Bool} {witnessLayout : WitnessSubtree}
    {memoryLayout : MemorySubtree} {setupLayout : SetupLayout}
    {hasDecoderPart separateDecoderCircuit : Bool} {layout : LookupAndMemoryArgumentLayout}
    (accepts : fromCompiledParts initsAfterMasking witnessLayout memoryLayout setupLayout
      hasDecoderPart separateDecoderCircuit = some layout) :
    layout.Allocated ∧ layout.remainderForRangeCheck16.isSome =
      decide (witnessLayout.rangeCheck16LookupExpressions.length % 2 ≠ 0) := by
  unfold fromCompiledParts at accepts
  obtain ⟨_, _, rest₁⟩ := Option.bind_eq_some_iff.mp accepts
  obtain ⟨_, _, rest₂⟩ := Option.bind_eq_some_iff.mp rest₁
  obtain ⟨⟨baseRangeCheck16, offset₁⟩, place₁, rest₃⟩ := Option.bind_eq_some_iff.mp rest₂
  clear accepts rest₁ rest₂
  obtain ⟨⟨baseLazyInit, offset₂⟩, place₂, rest₄⟩ := Option.bind_eq_some_iff.mp rest₃
  obtain ⟨⟨baseTimestamps, offset₃⟩, place₃, rest₅⟩ := Option.bind_eq_some_iff.mp rest₄
  obtain ⟨⟨ext4RangeCheck16, offset₄⟩, place₄, rest₆⟩ := Option.bind_eq_some_iff.mp rest₅
  obtain ⟨⟨ext4LazyInit, offset₅⟩, place₅, rest₇⟩ := Option.bind_eq_some_iff.mp rest₆
  obtain ⟨⟨remainder, offset₆⟩, place₆, rest₈⟩ := Option.bind_eq_some_iff.mp rest₇
  clear rest₃ rest₄ rest₅ rest₆ rest₇
  obtain ⟨⟨ext4Timestamps, offset₇⟩, place₇, rest₉⟩ := Option.bind_eq_some_iff.mp rest₈
  obtain ⟨⟨genericLookup, offset₈⟩, place₈, rest₁₀⟩ := Option.bind_eq_some_iff.mp rest₉
  obtain ⟨⟨decoderAccesses, offset₉⟩, place₉, rest₁₁⟩ := Option.bind_eq_some_iff.mp rest₁₀
  obtain ⟨⟨rangeCheck16Multiplicity, offset₁₀⟩, place₁₀, rest₁₂⟩ :=
    Option.bind_eq_some_iff.mp rest₁₁
  clear rest₈ rest₉ rest₁₀ rest₁₁
  obtain ⟨⟨timestampMultiplicity, offset₁₁⟩, place₁₁, rest₁₃⟩ :=
    Option.bind_eq_some_iff.mp rest₁₂
  obtain ⟨⟨genericMultiplicities, offset₁₂⟩, place₁₂, rest₁₄⟩ :=
    Option.bind_eq_some_iff.mp rest₁₃
  obtain ⟨⟨decoderMultiplicities, offset₁₃⟩, place₁₃, rest₁₅⟩ :=
    Option.bind_eq_some_iff.mp rest₁₄
  obtain ⟨⟨delegationAux, offset₁₄⟩, place₁₄, rest₁₆⟩ := Option.bind_eq_some_iff.mp rest₁₅
  clear rest₁₂ rest₁₃ rest₁₄ rest₁₅
  obtain ⟨⟨initTeardownBefore, offset₁₅⟩, place₁₅, rest₁₇⟩ := Option.bind_eq_some_iff.mp rest₁₆
  obtain ⟨⟨memoryArgument, offset₁₆⟩, place₁₆, rest₁₈⟩ := Option.bind_eq_some_iff.mp rest₁₇
  obtain ⟨⟨statePermutation, masking, offset₁₇⟩, place₁₇, rest₁₉⟩ :=
    Option.bind_eq_some_iff.mp rest₁₈
  obtain ⟨⟨memoryInitTeardown, offset₁₈⟩, place₁₈, rest₂₀⟩ := Option.bind_eq_some_iff.mp rest₁₉
  obtain ⟨⟨grandProduct, offset₁₉⟩, place₁₉, rest₂₁⟩ := Option.bind_eq_some_iff.mp rest₂₀
  obtain ⟨_, _, same⟩ := Option.bind_eq_some_iff.mp rest₂₁
  clear rest₁₆ rest₁₇ rest₁₈ rest₁₉ rest₂₀ rest₂₁
  cases same
  obtain ⟨baseStacked, total⟩ := baseStacked_of_layoutAt ext4LazyInit place₁ place₂ place₃
  obtain ⟨start, placed₄⟩ := placed_first place₄
  have placed₅ := placed_lazyInit baseLazyInit placed₄.2 place₅
  obtain ⟨placed₆, odd, _⟩ := placed_layoutOption placed₅.2 place₆
  have placed₇ := placed_layoutAt placed₆.2 place₇
  have placed₈ := placed_layoutAt placed₇.2 place₈
  obtain ⟨placed₉, single₉⟩ := placed_layoutWhen placed₈.2 place₉
  obtain ⟨placed₁₀, single₁₀⟩ := placed_layoutWhen placed₉.2 place₁₀
  obtain ⟨placed₁₁, single₁₁⟩ := placed_layoutWhen placed₁₀.2 place₁₁
  obtain ⟨placed₁₂, _⟩ := placed_layoutWhen placed₁₁.2 place₁₂
  obtain ⟨placed₁₃, single₁₃⟩ := placed_layoutWhen placed₁₂.2 place₁₃
  obtain ⟨placed₁₄, _, single₁₄⟩ := placed_layoutOption placed₁₃.2 place₁₄
  obtain ⟨memorySets, memoryPerm, placed₁₈, single₁₇⟩ :=
    placed_memorySets placed₁₄.2 place₁₅ place₁₆ place₁₇ place₁₈
  obtain ⟨placed₁₉, single₁₉⟩ := placed_layoutWhen placed₁₈.2 place₁₉
  have lookups := placed₇.append (placed₈.append (placed₉.append (placed₁₀.append
    (placed₁₁.append (placed₁₂.append placed₁₃)))))
  have front := ((placed₄.append placed₅).append placed₆).append lookups
  have whole := ((front.append placed₁₄).append placed₁₈).append placed₁₉
  refine ⟨⟨?_, ?_, ⟨_, ?_, whole⟩, ?_, ?_, ?_, single₁₄, ?_⟩, odd⟩
  · rw [total] at baseStacked
    exact baseStacked
  · rw [total] at start
    exact start
  · exact (List.Perm.append_left _ memoryPerm).append_right _
  · exact numElements_of_layoutAt place₄
  · exact numElements_of_layoutAt place₇
  · intro oracles member
    obtain ⟨_, same⟩ := Option.ite_none_right_eq_some.mp member
    cases same
    exact numElements_of_layoutAt place₅
  · simp only [List.forall_mem_cons]
    exact ⟨single₉, single₁₀, single₁₁, single₁₃, single₁₇, single₁₉, List.forall_mem_nil _⟩

/-! ## Columns -/

/-- The columns from one end to another. -/
def InRange (range : Nat × Nat) (column : Nat) : Prop :=
  range.1 ≤ column ∧ column < range.2

/-- The columns of all sets. -/
def LookupAndMemoryArgumentLayout.columnRanges (layout : LookupAndMemoryArgumentLayout) :
    List (Nat × Nat) :=
  layout.baseSets.map AlignedColumnSet.fullRange ++ layout.ext4Sets.map AlignedColumnSet.fullRange

instance (range : Nat × Nat) (column : Nat) : Decidable (InRange range column) :=
  inferInstanceAs (Decidable (_ ∧ _))

def RangesDisjoint (left right : Nat × Nat) : Prop :=
  ∀ column, ¬ (InRange left column ∧ InRange right column)

theorem RangesDisjoint.symm {left right : Nat × Nat} (disjoint : RangesDisjoint left right) :
    RangesDisjoint right left := by
  intro column both
  exact disjoint column both.symm

/-- The ranges of stacked sets. -/
theorem ranges_of_stacked {width offset finish : Nat} {sets : List (AlignedColumnSet width)}
    (stacked : Stacked width offset (pairs sets) finish) :
    (sets.map AlignedColumnSet.fullRange).Pairwise RangesDisjoint ∧
      ∀ column, (∃ range ∈ sets.map AlignedColumnSet.fullRange, InRange range column) ↔
        offset ≤ column ∧ column < finish := by
  constructor
  · have disjoint := stacked.pairwise_disjoint
    rw [pairs, List.pairwise_map] at disjoint
    rw [List.pairwise_map]
    exact disjoint
  · intro column
    rw [← stacked.covered_iff column, pairs]
    simp only [List.mem_map, exists_exists_and_eq_and]
    rfl

namespace LookupAndMemoryArgumentLayout

variable {layout : LookupAndMemoryArgumentLayout}

theorem Allocated.numBase_le (allocated : layout.Allocated) :
    layout.numBaseFieldPolys ≤ layout.ext4PolysOffset := by
  rw [allocated.ext4Offset, nextMultipleOf]
  split
  · exact Nat.le_refl _
  · exact Nat.le_add_right _ _

theorem Allocated.ext4Ranges (allocated : layout.Allocated) :
    (layout.ext4Sets.map AlignedColumnSet.fullRange).Pairwise RangesDisjoint ∧
      ∀ column, (∃ range ∈ layout.ext4Sets.map AlignedColumnSet.fullRange, InRange range column) ↔
        layout.ext4PolysOffset ≤ column ∧ column < layout.totalWidth := by
  obtain ⟨sets, perm, placed⟩ := allocated.ext4Placed
  obtain ⟨disjoint, covered⟩ := ranges_of_stacked placed.1
  have rangesPerm := perm.map AlignedColumnSet.fullRange
  refine ⟨(rangesPerm.pairwise_iff RangesDisjoint.symm).mp disjoint, ?_⟩
  intro column
  rw [← covered column]
  simp only [rangesPerm.mem_iff]

/-- No two sets have a column in common. -/
theorem Allocated.columnRanges_disjoint (allocated : layout.Allocated) :
    layout.columnRanges.Pairwise RangesDisjoint := by
  obtain ⟨baseDisjoint, baseCovered⟩ := ranges_of_stacked allocated.baseStacked
  obtain ⟨ext4Disjoint, ext4Covered⟩ := allocated.ext4Ranges
  refine List.pairwise_append.mpr ⟨baseDisjoint, ext4Disjoint, ?_⟩
  rintro base baseMember ext4 ext4Member column ⟨inBase, inExt4⟩
  have below := ((baseCovered column).mp ⟨base, baseMember, inBase⟩).2
  have above := ((ext4Covered column).mp ⟨ext4, ext4Member, inExt4⟩).1
  exact absurd (below.trans_le allocated.numBase_le) (Nat.not_lt.mpr above)

/-- The sets leave out the columns between the two parts only. -/
theorem Allocated.columnRanges_cover (allocated : layout.Allocated) (column : Nat) :
    (∃ range ∈ layout.columnRanges, InRange range column) ↔
      column < layout.numBaseFieldPolys ∨
        layout.ext4PolysOffset ≤ column ∧ column < layout.totalWidth := by
  have baseCovered := (ranges_of_stacked allocated.baseStacked).2 column
  have ext4Covered := allocated.ext4Ranges.2 column
  simp only [Nat.zero_le, true_and] at baseCovered
  rw [← baseCovered, ← ext4Covered, columnRanges]
  simp only [List.mem_append, or_and_right, exists_or]

theorem Allocated.ext4_aligned (allocated : layout.Allocated) :
    ∀ set ∈ layout.ext4Sets, set.start % 4 = 0 := by
  obtain ⟨sets, perm, placed⟩ := allocated.ext4Placed
  have offsetAligned : layout.ext4PolysOffset % 4 = 0 := by
    rw [allocated.ext4Offset]
    exact nextMultipleOf_mod (by omega)
  have aligned := placed.1.start_mod offsetAligned
  rw [pairs, List.forall_mem_map] at aligned
  intro set member
  exact aligned set (perm.mem_iff.mpr member)

/-! ## Counts -/

theorem Allocated.numBase_eq (allocated : layout.Allocated) :
    layout.numBaseFieldPolys = (layout.baseSets.map AlignedColumnSet.numElements).sum := by
  have finish := allocated.baseStacked.finish_eq
  rwa [Nat.zero_add, Nat.mul_one, count_pairs] at finish

/-- The count leaves out the remainder. -/
theorem Allocated.numExt4_eq (allocated : layout.Allocated)
    (noRemainder : layout.remainderForRangeCheck16 = none) :
    layout.numExt4FieldPolys = (layout.ext4Sets.map AlignedColumnSet.numElements).sum := by
  have lazyInit : (layout.lazyInitAddressRangeCheck16.toList.map
      fun oracles => oracles.ext4FieldOracles.numElements).sum =
        layout.lazyInitAddressRangeCheck16.elim 0 OptimizedOraclesForLookupWidth1.numPairs := by
    have pairs := allocated.lazyInitPairs
    cases found : layout.lazyInitAddressRangeCheck16 with
    | none => rfl
    | some oracles => exact (Nat.add_zero _).trans (pairs oracles found)
  have aux : (layout.delegationProcessingAuxPoly.toList.map
      AlignedColumnSet.numElements).sum =
        layout.delegationProcessingAuxPoly.elim 0 fun _ => 1 := by
    have single := allocated.delegationAux
    cases found : layout.delegationProcessingAuxPoly with
    | none => rfl
    | some set => exact (Nat.add_zero _).trans (single set found)
  have rangeCheck16 := allocated.rangeCheck16Pairs
  have timestamps := allocated.timestampPairs
  simp only [ext4Sets, noRemainder, Option.toList_none, List.append_nil, List.map_append,
    List.map_cons, List.map_nil, List.map_map, List.sum_append, List.sum_cons, List.sum_nil,
    Function.comp_def, lazyInit, aux, numExt4FieldPolys]
  omega

/-! ## Indices -/

/-- The index function of a set with several elements, at each of them. -/
def forElements (set : AlignedColumnSet 4) (getter : Nat → Option Nat) : List (Option Nat) :=
  (List.range set.numElements).map getter

/-- The index function of a set with one element. -/
def whenPresent (set : AlignedColumnSet 4) (getter : Option Nat) : List (Option Nat) :=
  (List.range (min set.numElements 1)).map fun _ => getter

/-- The index functions at all elements for which they are called. -/
def verifierPolyGetters (layout : LookupAndMemoryArgumentLayout) : List (Option Nat) :=
  forElements layout.intermediatePolysForRangeCheck16.ext4FieldOracles
      (layout.intermediatePolysForRangeCheck16.getExt4PolyIndexInOpenings · layout)
    ++ (layout.lazyInitAddressRangeCheck16.toList.flatMap fun oracles =>
      forElements oracles.ext4FieldOracles (oracles.getExt4PolyIndexInOpenings · layout))
    ++ forElements layout.intermediatePolysForTimestampRangeChecks.ext4FieldOracles
      (layout.intermediatePolysForTimestampRangeChecks.getExt4PolyIndexInOpenings · layout)
    ++ forElements layout.intermediatePolysForGenericLookup
      layout.getIntermediatePolysForGenericLookup
    ++ whenPresent layout.intermediatePolyForDecoderAccesses
      layout.getIntermediatePolyForDecoderLookup
    ++ whenPresent layout.intermediatePolyForRangeCheck16Multiplicity
      layout.rangeCheck16IntermediatePolyForMultiplicities
    ++ whenPresent layout.intermediatePolyForTimestampRangeCheckMultiplicity
      layout.timestampRangeCheckIntermediatePolyForMultiplicities
    ++ forElements layout.intermediatePolysForGenericMultiplicities
      layout.genericWidth3LookupIntermediatePolysForMultiplicities
    ++ whenPresent layout.intermediatePolysForDecoderMultiplicities
      layout.decoderLookupIntermediatePolyForMultiplicities
    ++ (layout.getAuxPolysForDelegationArgument.elim [none] fun result =>
      result.toList.map some)
    ++ forElements layout.intermediatePolysForMemoryInitTeardown
      layout.getIntermediatePolysForMemoryInitTeardown
    ++ forElements layout.intermediatePolysForMemoryArgument
      layout.getIntermediatePolysForMemoryArgument
    ++ whenPresent layout.intermediatePolysForStatePermutation
      layout.getIntermediatePolysForMachineStatePermutation
    ++ whenPresent layout.intermediatePolysForPermutationMasking
      layout.getIntermediatePolysForPermutationMasking
    ++ whenPresent layout.intermediatePolyForGrandProduct
      layout.getIntermediatePolysForGrandProductAccumulation

/-- All results of the index functions, unless one of them panics. -/
def verifierPolyIndices (layout : LookupAndMemoryArgumentLayout) : Option (List Nat) :=
  layout.verifierPolyGetters.mapM id

/-- The elements of a set, by the starts of their columns. -/
abbrev elements (set : AlignedColumnSet 4) : List Nat :=
  positions 4 (set.start, set.numElements)

theorem forElements_eq (set : AlignedColumnSet 4) :
    forElements set (fun idx => layout.absolutePolyIdx (set.getRangeStart idx)) =
      (elements set).map layout.absolutePolyIdx := by
  rw [forElements, elements, positions, List.map_map]
  rfl

theorem forElements_getExt4PolyIndex (oracles : OptimizedOraclesForLookupWidth1) :
    forElements oracles.ext4FieldOracles (oracles.getExt4PolyIndexInOpenings · layout) =
      (elements oracles.ext4FieldOracles).map layout.absolutePolyIdx := by
  rw [← forElements_eq, forElements, forElements]
  apply List.map_congr_left
  intro idx member
  simp only [OptimizedOraclesForLookupWidth1.getExt4PolyIndexInOpenings,
    Fft.guard_of (List.mem_range.mp member), Option.bind_eq_bind, Option.bind_some]

theorem whenPresent_first (set : AlignedColumnSet 4) :
    whenPresent set (layout.absolutePolyIdx (set.getRangeStart 0)) =
      (positions 4 (set.start, min set.numElements 1)).map layout.absolutePolyIdx := by
  rw [whenPresent, positions, List.map_map]
  apply List.map_congr_left
  intro idx member
  have below := List.mem_range.mp member
  have first : idx = 0 := by omega
  rw [first, Function.comp_apply]
  rfl

theorem whenPresent_eq {set : AlignedColumnSet 4} (single : set.numElements ≤ 1) :
    whenPresent set (layout.absolutePolyIdx (set.getRangeStart 0)) =
      (elements set).map layout.absolutePolyIdx := by
  rw [whenPresent_first, Nat.min_eq_left single]

/-- The elements of all sets whose index is asked for. -/
def queriedElements (layout : LookupAndMemoryArgumentLayout) : List Nat :=
  elements layout.intermediatePolysForRangeCheck16.ext4FieldOracles
    ++ (layout.lazyInitAddressRangeCheck16.toList.flatMap fun oracles =>
      elements oracles.ext4FieldOracles)
    ++ elements layout.intermediatePolysForTimestampRangeChecks.ext4FieldOracles
    ++ elements layout.intermediatePolysForGenericLookup
    ++ elements layout.intermediatePolyForDecoderAccesses
    ++ elements layout.intermediatePolyForRangeCheck16Multiplicity
    ++ elements layout.intermediatePolyForTimestampRangeCheckMultiplicity
    ++ elements layout.intermediatePolysForGenericMultiplicities
    ++ elements layout.intermediatePolysForDecoderMultiplicities
    ++ layout.delegationProcessingAuxPoly.toList.flatMap elements
    ++ elements layout.intermediatePolysForMemoryInitTeardown
    ++ elements layout.intermediatePolysForMemoryArgument
    ++ positions 4 (layout.intermediatePolysForStatePermutation.start,
      min layout.intermediatePolysForStatePermutation.numElements 1)
    ++ elements layout.intermediatePolysForPermutationMasking
    ++ elements layout.intermediatePolyForGrandProduct

theorem Allocated.verifierPolyGetters_eq (allocated : layout.Allocated) :
    layout.verifierPolyGetters = layout.queriedElements.map layout.absolutePolyIdx := by
  have singles := allocated.singles
  simp only [List.forall_mem_cons] at singles
  obtain ⟨single₁, single₂, single₃, single₄, single₅, single₆, _⟩ := singles
  have lazyInit : (layout.lazyInitAddressRangeCheck16.toList.flatMap fun oracles =>
      forElements oracles.ext4FieldOracles (oracles.getExt4PolyIndexInOpenings · layout)) =
        (layout.lazyInitAddressRangeCheck16.toList.flatMap fun oracles =>
          elements oracles.ext4FieldOracles).map layout.absolutePolyIdx := by
    rw [List.map_flatMap]
    simp only [forElements_getExt4PolyIndex]
  have generic : forElements _ layout.getIntermediatePolysForGenericLookup =
    (elements layout.intermediatePolysForGenericLookup).map layout.absolutePolyIdx :=
      forElements_eq _
  have decoder : whenPresent _ layout.getIntermediatePolyForDecoderLookup =
    (elements layout.intermediatePolyForDecoderAccesses).map layout.absolutePolyIdx :=
      whenPresent_eq single₁
  have rangeCheck16 : whenPresent _ layout.rangeCheck16IntermediatePolyForMultiplicities =
    (elements layout.intermediatePolyForRangeCheck16Multiplicity).map layout.absolutePolyIdx :=
      whenPresent_eq single₂
  have timestamps : whenPresent _ layout.timestampRangeCheckIntermediatePolyForMultiplicities =
    (elements layout.intermediatePolyForTimestampRangeCheckMultiplicity).map
      layout.absolutePolyIdx := whenPresent_eq single₃
  have genericMultiplicities :
      forElements _ layout.genericWidth3LookupIntermediatePolysForMultiplicities =
    (elements layout.intermediatePolysForGenericMultiplicities).map layout.absolutePolyIdx :=
      forElements_eq _
  have decoderMultiplicities :
      whenPresent _ layout.decoderLookupIntermediatePolyForMultiplicities =
    (elements layout.intermediatePolysForDecoderMultiplicities).map layout.absolutePolyIdx :=
      whenPresent_eq single₄
  have aux : (layout.getAuxPolysForDelegationArgument.elim [none] fun result =>
      result.toList.map some) =
        (layout.delegationProcessingAuxPoly.toList.flatMap elements).map
          layout.absolutePolyIdx := by
    have single := allocated.delegationAux
    rw [getAuxPolysForDelegationArgument]
    cases found : layout.delegationProcessingAuxPoly with
    | none => rfl
    | some set =>
        have aux : (elements set).map layout.absolutePolyIdx =
            [layout.absolutePolyIdx set.start] := by
          rw [elements, positions, single set found]
          rfl
        rw [Option.toList_some, List.flatMap_singleton, aux]
        cases read : layout.absolutePolyIdx set.start with
        | none =>
            simp only [read, Option.bind_eq_bind, Option.bind_none, Option.elim_none]
        | some polyNum =>
            simp only [read, Option.bind_eq_bind, Option.bind_some, Option.elim_some,
              Option.toList_some, List.map_cons, List.map_nil]
  have statePermutation : whenPresent _ layout.getIntermediatePolysForMachineStatePermutation =
    (positions 4 (layout.intermediatePolysForStatePermutation.start,
      min layout.intermediatePolysForStatePermutation.numElements 1)).map
        layout.absolutePolyIdx := whenPresent_first _
  have initTeardown : forElements _ layout.getIntermediatePolysForMemoryInitTeardown =
    (elements layout.intermediatePolysForMemoryInitTeardown).map layout.absolutePolyIdx :=
      forElements_eq _
  have memoryArgument : forElements _ layout.getIntermediatePolysForMemoryArgument =
    (elements layout.intermediatePolysForMemoryArgument).map layout.absolutePolyIdx :=
      forElements_eq _
  have masking : whenPresent _ layout.getIntermediatePolysForPermutationMasking =
    (elements layout.intermediatePolysForPermutationMasking).map layout.absolutePolyIdx :=
      whenPresent_eq single₅
  have grandProduct : whenPresent _ layout.getIntermediatePolysForGrandProductAccumulation =
    (elements layout.intermediatePolyForGrandProduct).map layout.absolutePolyIdx :=
      whenPresent_eq single₆
  rw [verifierPolyGetters, queriedElements, forElements_getExt4PolyIndex, lazyInit,
    forElements_getExt4PolyIndex, generic, decoder, rangeCheck16, timestamps,
    genericMultiplicities, decoderMultiplicities, aux, initTeardown, memoryArgument,
    statePermutation, masking, grandProduct]
  simp only [List.map_append]

theorem flatMap_elements (sets : List (AlignedColumnSet 4)) :
    sets.flatMap elements = (pairs sets).flatMap (positions 4) := by
  rw [pairs, List.flatMap_map]

/-- Only elements of the state permutation behind the first one are not asked for. -/
theorem queriedElements_sublist (noRemainder : layout.remainderForRangeCheck16 = none) :
    layout.queriedElements.Sublist (layout.ext4Sets.flatMap elements) ∧
      (layout.intermediatePolysForStatePermutation.numElements ≤ 1 →
        layout.queriedElements = layout.ext4Sets.flatMap elements) := by
  have whole : layout.ext4Sets.flatMap elements =
      elements layout.intermediatePolysForRangeCheck16.ext4FieldOracles
        ++ (layout.lazyInitAddressRangeCheck16.toList.flatMap fun oracles =>
          elements oracles.ext4FieldOracles)
        ++ elements layout.intermediatePolysForTimestampRangeChecks.ext4FieldOracles
        ++ elements layout.intermediatePolysForGenericLookup
        ++ elements layout.intermediatePolyForDecoderAccesses
        ++ elements layout.intermediatePolyForRangeCheck16Multiplicity
        ++ elements layout.intermediatePolyForTimestampRangeCheckMultiplicity
        ++ elements layout.intermediatePolysForGenericMultiplicities
        ++ elements layout.intermediatePolysForDecoderMultiplicities
        ++ layout.delegationProcessingAuxPoly.toList.flatMap elements
        ++ elements layout.intermediatePolysForMemoryInitTeardown
        ++ elements layout.intermediatePolysForMemoryArgument
        ++ elements layout.intermediatePolysForStatePermutation
        ++ elements layout.intermediatePolysForPermutationMasking
        ++ elements layout.intermediatePolyForGrandProduct := by
    simp only [ext4Sets, noRemainder, Option.toList_none, List.append_nil, List.flatMap_append,
      List.flatMap_cons, List.flatMap_nil, List.flatMap_map, List.append_assoc]
  rw [whole, queriedElements]
  constructor
  · refine ((List.Sublist.append ?_ (List.Sublist.refl _)).append (List.Sublist.refl _))
    refine (List.Sublist.refl _).append (List.Sublist.map _ ?_)
    exact List.range_sublist.mpr (Nat.min_le_left _ _)
  · intro single
    rw [Nat.min_eq_left single]

/-- The index of an element among the openings. -/
def openingIdx (layout : LookupAndMemoryArgumentLayout) (start : Nat) : Nat :=
  layout.numBaseFieldPolys + (start - layout.ext4PolysOffset) / 4

/-- The elements of all sets, and with them their indices, are numbered without gaps. -/
theorem Allocated.elements_perm (allocated : layout.Allocated)
    (noRemainder : layout.remainderForRangeCheck16 = none) :
    (layout.ext4Sets.flatMap elements).Perm
      ((List.range layout.numExt4FieldPolys).map fun k => layout.ext4PolysOffset + 4 * k) := by
  obtain ⟨sets, perm, placed⟩ := allocated.ext4Placed
  have number : count (pairs sets) = layout.numExt4FieldPolys := by
    rw [allocated.numExt4_eq noRemainder, count_pairs]
    exact (perm.map _).sum_eq
  have inOrder := placed.1.positions_eq
  rw [← flatMap_elements, number] at inOrder
  rw [← inOrder]
  exact (perm.flatMap_right elements).symm

theorem absolutePolyIdx_of_element (k : Nat) :
    layout.absolutePolyIdx (layout.ext4PolysOffset + 4 * k) =
      some (layout.numBaseFieldPolys + k) := by
  have inside : layout.ext4PolysOffset ≤ layout.ext4PolysOffset + 4 * k := Nat.le_add_right _ _
  have aligned : (layout.ext4PolysOffset + 4 * k - layout.ext4PolysOffset) % 4 = 0 := by omega
  have quotient : (layout.ext4PolysOffset + 4 * k - layout.ext4PolysOffset) / 4 = k := by omega
  simp only [absolutePolyIdx, Fft.guard_of inside, Fft.guard_of aligned, quotient,
    Option.bind_eq_bind, Option.bind_some]

theorem openingIdx_of_element (k : Nat) :
    layout.openingIdx (layout.ext4PolysOffset + 4 * k) = layout.numBaseFieldPolys + k := by
  rw [openingIdx]
  omega

/-- Without a remainder the index functions number the polynomials of the extension field
behind those of the base field.  Only a second state permutation polynomial has no index. -/
theorem Allocated.verifierPolyIndices_exact (allocated : layout.Allocated)
    (noRemainder : layout.remainderForRangeCheck16 = none) :
    ∃ indices, layout.verifierPolyIndices = some indices ∧ indices.Nodup ∧
      (∀ i ∈ indices, layout.numBaseFieldPolys ≤ i ∧
        i < layout.numBaseFieldPolys + layout.numExt4FieldPolys) ∧
      (layout.intermediatePolysForStatePermutation.numElements ≤ 1 →
        ∀ i, i ∈ indices ↔ layout.numBaseFieldPolys ≤ i ∧
          i < layout.numBaseFieldPolys + layout.numExt4FieldPolys) := by
  have perm := allocated.elements_perm noRemainder
  obtain ⟨sublist, exact⟩ := queriedElements_sublist noRemainder
  have numbered : ∀ start ∈ layout.ext4Sets.flatMap elements,
      layout.absolutePolyIdx start = some (layout.openingIdx start) := by
    intro start member
    obtain ⟨k, _, startEq⟩ := List.mem_map.mp (perm.mem_iff.mp member)
    rw [← startEq, absolutePolyIdx_of_element, openingIdx_of_element]
  have wholePerm : ((layout.ext4Sets.flatMap elements).map layout.openingIdx).Perm
      ((List.range layout.numExt4FieldPolys).map fun k => layout.numBaseFieldPolys + k) := by
    have mapped := perm.map layout.openingIdx
    rw [List.map_map] at mapped
    refine mapped.trans (List.Perm.of_eq (List.map_congr_left fun k _ => ?_))
    exact openingIdx_of_element k
  have image : ∀ i, i ∈ (layout.ext4Sets.flatMap elements).map layout.openingIdx ↔
      layout.numBaseFieldPolys ≤ i ∧
        i < layout.numBaseFieldPolys + layout.numExt4FieldPolys := by
    intro i
    rw [wholePerm.mem_iff, List.mem_map]
    constructor
    · rintro ⟨k, member, rfl⟩
      have below := List.mem_range.mp member
      omega
    · rintro ⟨above, below⟩
      exact ⟨i - layout.numBaseFieldPolys, List.mem_range.mpr (by omega), by omega⟩
  refine ⟨layout.queriedElements.map layout.openingIdx, ?_, ?_, ?_, ?_⟩
  · rw [verifierPolyIndices, allocated.verifierPolyGetters_eq, List.mapM_map]
    exact Fft.mapM_eq_some fun start member => numbered start (sublist.mem member)
  · have nodup := wholePerm.nodup_iff.mpr
      (List.nodup_range.map fun _ _ same => Nat.add_left_cancel same)
    exact nodup.sublist (sublist.map _)
  · intro i member
    exact (image i).mp ((sublist.map _).mem member)
  · intro single i
    rw [exact single]
    exact image i

/-- The two index functions of the decoder polynomial agree. -/
theorem Allocated.getAuxPolyDecoder_eq (allocated : layout.Allocated) :
    layout.getAuxPolyDecoder =
      if layout.intermediatePolyForDecoderAccesses.numElements = 0 then some none
      else layout.getIntermediatePolyForDecoderLookup.map some := by
  have single := (List.forall_mem_cons.mp allocated.singles).1
  by_cases empty : layout.intermediatePolyForDecoderAccesses.numElements = 0
  · rw [getAuxPolyDecoder, if_pos empty, if_pos empty]
  · have one : layout.intermediatePolyForDecoderAccesses.numElements = 1 := by omega
    rw [getAuxPolyDecoder, if_neg empty, if_neg empty]
    simp only [Fft.guard_of one, Option.bind_eq_bind, Option.bind_some]
    rw [Option.map_eq_bind]
    rfl

end LookupAndMemoryArgumentLayout

/-! ## The layout as a whole -/

theorem fromCompiledParts_partition {initsAfterMasking : Bool} {witnessLayout : WitnessSubtree}
    {memoryLayout : MemorySubtree} {setupLayout : SetupLayout}
    {hasDecoderPart separateDecoderCircuit : Bool} {layout : LookupAndMemoryArgumentLayout}
    (accepts : fromCompiledParts initsAfterMasking witnessLayout memoryLayout setupLayout
      hasDecoderPart separateDecoderCircuit = some layout) :
    layout.columnRanges.Pairwise RangesDisjoint ∧
      (∀ column, (∃ range ∈ layout.columnRanges, InRange range column) ↔
        column < layout.numBaseFieldPolys ∨
          layout.ext4PolysOffset ≤ column ∧ column < layout.totalWidth) ∧
      layout.ext4PolysOffset = nextMultipleOf layout.numBaseFieldPolys 4 ∧
      (∀ set ∈ layout.ext4Sets, set.start % 4 = 0) ∧
      layout.numBaseFieldPolys = (layout.baseSets.map AlignedColumnSet.numElements).sum ∧
      layout.getAuxPolyDecoder =
        (if layout.intermediatePolyForDecoderAccesses.numElements = 0 then some none
        else layout.getIntermediatePolyForDecoderLookup.map some) ∧
      (witnessLayout.rangeCheck16LookupExpressions.length % 2 = 0 →
        layout.numExt4FieldPolys = (layout.ext4Sets.map AlignedColumnSet.numElements).sum ∧
        ∃ indices, layout.verifierPolyIndices = some indices ∧ indices.Nodup ∧
          (∀ i ∈ indices, layout.numBaseFieldPolys ≤ i ∧
            i < layout.numBaseFieldPolys + layout.numExt4FieldPolys) ∧
          (layout.intermediatePolysForStatePermutation.numElements ≤ 1 →
            ∀ i, i ∈ indices ↔ layout.numBaseFieldPolys ≤ i ∧
              i < layout.numBaseFieldPolys + layout.numExt4FieldPolys)) := by
  obtain ⟨allocated, remainder⟩ := allocated_of_fromCompiledParts accepts
  refine ⟨allocated.columnRanges_disjoint, allocated.columnRanges_cover, allocated.ext4Offset,
    allocated.ext4_aligned, allocated.numBase_eq, allocated.getAuxPolyDecoder_eq, ?_⟩
  intro even
  have noRemainder : layout.remainderForRangeCheck16 = none := by
    rw [decide_eq_false (not_not_intro even)] at remainder
    exact Option.isSome_eq_false_iff.mp remainder |> Option.isNone_iff_eq_none.mp
  exact ⟨allocated.numExt4_eq noRemainder, allocated.verifierPolyIndices_exact noRemainder⟩

/-- A circuit with two range checks of each kind and nothing else. -/
def twoChecksWitnessLayout : WitnessSubtree where
  multiplicitiesColumnsForRangeCheck16 := ⟨0, 1⟩
  multiplicitiesColumnsForTimestampRangeCheck := ⟨1, 1⟩
  multiplicitiesColumnsForDecoderInExecutorFamilies := .empty 1
  multiplicitiesColumnsForGenericLookup := .empty 1
  rangeCheck8Columns := .empty 1
  rangeCheck16Columns := ⟨2, 2⟩
  width3Lookups := []
  rangeCheck16LookupExpressions :=
    [.variable (.witnessSubtree 2), .variable (.witnessSubtree 3)]
  timestampRangeCheckLookupExpressions :=
    [.variable (.witnessSubtree 4), .variable (.witnessSubtree 5)]
  offsetForSpecialShuffleRamTimestampsRangeCheckExpressions := 2
  booleanVarsColumnsRange := .empty 1
  scratchSpaceColumnsRange := ⟨4, 2⟩
  totalWidth := 6

def noMemoryLayout : MemorySubtree :=
  ⟨[], [], none, none, none, none, [], [], 0⟩

def twoChecksSetupLayout : SetupLayout where
  timestampSetupColumns := .empty 2
  rangeCheck16SetupColumn := ⟨0, 1⟩
  timestampRangeCheckSetupColumn := ⟨1, 1⟩
  genericLookupSetupColumns := .empty 4
  preprocessedDecoderSetupColumns := .empty _
  totalWidth := 2

/-- A read and a write of registers, a set of initial and final words and a delegation request. -/
def twoAccessesMemoryLayout : MemorySubtree where
  shuffleRamInitsAndTeardowns := [⟨⟨0, 2⟩, ⟨2, 2⟩, ⟨4, 2⟩⟩]
  shuffleRamAccessSets :=
    [.readonly ⟨0, .registerOnly ⟨⟨6, 1⟩⟩, ⟨7, 2⟩, ⟨9, 2⟩⟩,
      .write ⟨1, .registerOnly ⟨⟨11, 1⟩⟩, ⟨12, 2⟩, ⟨14, 2⟩, ⟨16, 2⟩⟩]
  delegationRequestLayout := some ⟨⟨18, 1⟩, ⟨19, 1⟩, ⟨20, 1⟩, 3⟩
  delegationProcessorLayout := none
  machineStateLayout := none
  intermediateStateLayout := none
  batchedRamAccesses := []
  registerAndIndirectAccesses := []
  totalWidth := 21

theorem fromCompiledParts_partition_sample :
    ∃ layout indices,
      fromCompiledParts true twoChecksWitnessLayout twoAccessesMemoryLayout twoChecksSetupLayout
        false false = some layout ∧
      layout.intermediatePolysForMemoryArgument.numElements = 2 ∧
      layout.intermediatePolysForMemoryInitTeardown.numElements = 1 ∧
      layout.delegationProcessingAuxPoly.isSome = true ∧
      layout.columnRanges.Pairwise RangesDisjoint ∧
      layout.verifierPolyIndices = some indices ∧ indices.Nodup := by
  have sets : ((fromCompiledParts true twoChecksWitnessLayout twoAccessesMemoryLayout
      twoChecksSetupLayout false false).map fun layout =>
        (layout.intermediatePolysForMemoryArgument.numElements,
          layout.intermediatePolysForMemoryInitTeardown.numElements,
          layout.delegationProcessingAuxPoly.isSome)) = some (2, 1, true) := by
    decide
  obtain ⟨layout, accepts, numElements⟩ := Option.map_eq_some_iff.mp sets
  obtain ⟨memoryArgument, others⟩ := Prod.mk.inj numElements
  obtain ⟨initTeardown, delegation⟩ := Prod.mk.inj others
  obtain ⟨disjoint, _, _, _, _, _, forEven⟩ := fromCompiledParts_partition accepts
  obtain ⟨_, indices, queried, nodup, _⟩ := forEven rfl
  exact ⟨layout, indices, accepts, memoryArgument, initTeardown, delegation, disjoint, queried,
    nodup⟩

/-- The columns two and three lie between the two parts: no set has them. -/
theorem fromCompiledParts_leaves_padding :
    ∃ layout, fromCompiledParts true twoChecksWitnessLayout noMemoryLayout twoChecksSetupLayout
      false false = some layout ∧ 2 < layout.totalWidth ∧
        ¬ ∃ range ∈ layout.columnRanges, InRange range 2 := by
  refine ⟨_, rfl, ?_⟩
  decide

end Airbender.Compiler
