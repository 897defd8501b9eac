import Airbender.Compiler.Stage2Partition

/-!
# Sizes of the second stage

How many elements every set of the second stage has, from the parts of the circuit that the
stage was laid out for.
-/

namespace Airbender.Compiler

open LookupAndMemoryArgumentLayout

/-! ## Conditional sets -/

theorem numElements_of_layoutWhen {condition : Bool} {offset numElements finish : Nat}
    {set : AlignedColumnSet 4}
    (place : layoutWhen condition offset numElements = some (set, finish)) :
    set.numElements = if condition then numElements else 0 := by
  cases condition with
  | true => exact numElements_of_layoutAt place
  | false =>
      cases place
      rfl

/-! ## Memory accesses and the machine state -/

/-- All accesses of a delegation circuit, those through pointers included. -/
def numRegisterAndIndirectAccesses (accesses : List RegisterAndIndirectAccessDescription) : Nat :=
  (accesses.map fun access => 1 + access.indirectAccesses.length).sum

theorem foldl_indirectAccesses (accesses : List RegisterAndIndirectAccessDescription)
    (start : Nat) :
    accesses.foldl (fun num el => num + el.indirectAccesses.length) start + accesses.length =
      start + numRegisterAndIndirectAccesses accesses := by
  induction accesses generalizing start with
  | nil => rfl
  | cons access rest inductionHypothesis =>
      have restSum := inductionHypothesis (start + access.indirectAccesses.length)
      rw [List.foldl_cons, List.length_cons]
      rw [numRegisterAndIndirectAccesses] at restSum ⊢
      rw [List.map_cons, List.sum_cons]
      omega

/-- A circuit has queries to shuffle RAM, or register accesses, or neither. -/
theorem numElements_of_layoutMemoryArgument {memoryLayout : MemorySubtree} {offset finish : Nat}
    {set : AlignedColumnSet 4} (noBatch : memoryLayout.batchedRamAccesses = [])
    (place : layoutMemoryArgument memoryLayout offset = some (set, finish)) :
    set.numElements = memoryLayout.shuffleRamAccessSets.length +
      numRegisterAndIndirectAccesses memoryLayout.registerAndIndirectAccesses := by
  unfold layoutMemoryArgument at place
  split at place
  · obtain ⟨_, alone, placed⟩ := Option.bind_eq_some_iff.mp place
    obtain ⟨-, noRegisters⟩ := (Option.guard_eq_some' ()).mp alone
    rw [numElements_of_layoutAt placed, List.isEmpty_iff.mp noRegisters]
    rfl
  · rename_i noQueries
    rw [Bool.not_eq_false, List.isEmpty_iff] at noQueries
    rw [noQueries, List.length_nil, Nat.zero_add]
    split at place
    · obtain ⟨_, -, placed⟩ := Option.bind_eq_some_iff.mp place
      have total := foldl_indirectAccesses memoryLayout.registerAndIndirectAccesses
        memoryLayout.registerAndIndirectAccesses.length
      rw [numElements_of_layoutAt placed, noBatch, List.length_nil]
      omega
    · rename_i noRegisters
      rw [Bool.not_eq_false, List.isEmpty_iff] at noRegisters
      cases place
      rw [noRegisters]
      rfl

/-- The sets of the machine state and of its masking, unless the decoder is separate. -/
theorem numElements_of_layoutStatePermutation {memoryLayout : MemorySubtree}
    {hasDecoderPart : Bool} {offset finish : Nat}
    {statePermutation masking : AlignedColumnSet 4}
    (place : layoutStatePermutation memoryLayout hasDecoderPart false offset =
      some (statePermutation, masking, finish)) :
    statePermutation.numElements = (if hasDecoderPart then 1 else 0) ∧
      masking.numElements = if hasDecoderPart then 1 else 0 := by
  cases hasDecoderPart with
  | false =>
      cases place
      exact ⟨rfl, rfl⟩
  | true =>
      simp only [layoutStatePermutation, if_true, Option.bind_eq_bind,
        Option.bind_eq_some_iff] at place
      obtain ⟨_, _, _, _, place⟩ := place
      rw [if_neg Bool.false_ne_true] at place
      obtain ⟨_, _, place⟩ := Option.bind_eq_some_iff.mp place
      obtain ⟨_, firstPlace, place⟩ := Option.bind_eq_some_iff.mp place
      obtain ⟨_, secondPlace, same⟩ := Option.bind_eq_some_iff.mp place
      cases same
      exact ⟨numElements_of_layoutAt firstPlace, numElements_of_layoutAt secondPlace⟩

/-! ## The whole layout -/

/-- The sizes of a second stage whose decoder, if there is one, is part of the circuit. -/
structure LookupAndMemoryArgumentLayout.Sizes (layout : LookupAndMemoryArgumentLayout)
    (witnessLayout : WitnessSubtree) (memoryLayout : MemorySubtree) (setupLayout : SetupLayout)
    (hasDecoderPart : Bool) : Prop where
  rangeCheck16 : layout.intermediatePolysForRangeCheck16.numPairs =
    layout.intermediatePolysForRangeCheck16.baseFieldOracles.numElements
  timestamps : layout.intermediatePolysForTimestampRangeChecks.numPairs =
    layout.intermediatePolysForTimestampRangeChecks.baseFieldOracles.numElements
  lazyInit : ∀ oracles ∈ layout.lazyInitAddressRangeCheck16,
    oracles.numPairs = memoryLayout.shuffleRamInitsAndTeardowns.length
  genericLookup :
    layout.intermediatePolysForGenericLookup.numElements = witnessLayout.width3Lookups.length
  decoderAccesses :
    layout.intermediatePolyForDecoderAccesses.numElements = if hasDecoderPart then 1 else 0
  rangeCheck16Multiplicity : layout.intermediatePolyForRangeCheck16Multiplicity.numElements ≤ 1
  timestampMultiplicity :
    layout.intermediatePolyForTimestampRangeCheckMultiplicity.numElements ≤ 1
  genericMultiplicities : layout.intermediatePolysForGenericMultiplicities.numElements =
    if 0 < witnessLayout.multiplicitiesColumnsForGenericLookup.numElements
    then setupLayout.genericLookupSetupColumns.numElements else 0
  decoderMultiplicities :
    layout.intermediatePolysForDecoderMultiplicities.numElements = if hasDecoderPart then 1 else 0
  initTeardown : layout.intermediatePolysForMemoryInitTeardown.numElements =
    memoryLayout.shuffleRamInitsAndTeardowns.length
  memoryArgument : layout.intermediatePolysForMemoryArgument.numElements =
    memoryLayout.shuffleRamAccessSets.length +
      numRegisterAndIndirectAccesses memoryLayout.registerAndIndirectAccesses
  statePermutation :
    layout.intermediatePolysForStatePermutation.numElements = if hasDecoderPart then 1 else 0
  masking :
    layout.intermediatePolysForPermutationMasking.numElements = if hasDecoderPart then 1 else 0
  grandProduct : layout.intermediatePolyForGrandProduct.numElements =
    if 0 < layout.intermediatePolysForMemoryArgument.numElements ||
      0 < layout.intermediatePolysForStatePermutation.numElements ||
      0 < layout.intermediatePolysForMemoryInitTeardown.numElements then 1 else 0

theorem sizes_of_fromCompiledParts {witnessLayout : WitnessSubtree}
    {memoryLayout : MemorySubtree} {setupLayout : SetupLayout} {hasDecoderPart : Bool}
    {layout : LookupAndMemoryArgumentLayout}
    (accepts : fromCompiledParts true witnessLayout memoryLayout setupLayout hasDecoderPart false =
      some layout) :
    layout.Sizes witnessLayout memoryLayout setupLayout hasDecoderPart := by
  unfold fromCompiledParts at accepts
  obtain ⟨_, _, rest₁⟩ := Option.bind_eq_some_iff.mp accepts
  obtain ⟨_, noBatch, rest₂⟩ := Option.bind_eq_some_iff.mp rest₁
  obtain ⟨⟨baseRangeCheck16, offset₁⟩, place₁, rest₃⟩ := Option.bind_eq_some_iff.mp rest₂
  clear accepts rest₁ rest₂
  obtain ⟨⟨baseLazyInit, offset₂⟩, _, rest₄⟩ := Option.bind_eq_some_iff.mp rest₃
  obtain ⟨⟨baseTimestamps, offset₃⟩, place₃, rest₅⟩ := Option.bind_eq_some_iff.mp rest₄
  obtain ⟨⟨ext4RangeCheck16, offset₄⟩, _, rest₆⟩ := Option.bind_eq_some_iff.mp rest₅
  obtain ⟨⟨ext4LazyInit, offset₅⟩, _, rest₇⟩ := Option.bind_eq_some_iff.mp rest₆
  obtain ⟨⟨remainder, offset₆⟩, _, rest₈⟩ := Option.bind_eq_some_iff.mp rest₇
  clear rest₃ rest₄ rest₅ rest₆ rest₇
  obtain ⟨⟨ext4Timestamps, offset₇⟩, _, rest₉⟩ := Option.bind_eq_some_iff.mp rest₈
  obtain ⟨⟨genericLookup, offset₈⟩, place₈, rest₁₀⟩ := Option.bind_eq_some_iff.mp rest₉
  obtain ⟨⟨decoderAccesses, offset₉⟩, place₉, rest₁₁⟩ := Option.bind_eq_some_iff.mp rest₁₀
  obtain ⟨⟨rangeCheck16Multiplicity, offset₁₀⟩, place₁₀, rest₁₂⟩ :=
    Option.bind_eq_some_iff.mp rest₁₁
  clear rest₈ rest₉ rest₁₀ rest₁₁
  obtain ⟨⟨timestampMultiplicity, offset₁₁⟩, place₁₁, rest₁₃⟩ :=
    Option.bind_eq_some_iff.mp rest₁₂
  obtain ⟨⟨genericMultiplicities, offset₁₂⟩, place₁₂, rest₁₄⟩ :=
    Option.bind_eq_some_iff.mp rest₁₃
  obtain ⟨⟨decoderMultiplicities, offset₁₃⟩, place₁₃, rest₁₅⟩ :=
    Option.bind_eq_some_iff.mp rest₁₄
  obtain ⟨⟨delegationAux, offset₁₄⟩, _, rest₁₆⟩ := Option.bind_eq_some_iff.mp rest₁₅
  clear rest₁₂ rest₁₃ rest₁₄ rest₁₅
  obtain ⟨⟨initTeardownBefore, offset₁₅⟩, _, rest₁₇⟩ := Option.bind_eq_some_iff.mp rest₁₆
  obtain ⟨⟨memoryArgument, offset₁₆⟩, place₁₆, rest₁₈⟩ := Option.bind_eq_some_iff.mp rest₁₇
  obtain ⟨⟨statePermutation, masking, offset₁₇⟩, place₁₇, rest₁₉⟩ :=
    Option.bind_eq_some_iff.mp rest₁₈
  obtain ⟨⟨memoryInitTeardown, offset₁₈⟩, place₁₈, rest₂₀⟩ := Option.bind_eq_some_iff.mp rest₁₉
  obtain ⟨⟨grandProduct, offset₁₉⟩, place₁₉, rest₂₁⟩ := Option.bind_eq_some_iff.mp rest₂₀
  obtain ⟨_, _, same⟩ := Option.bind_eq_some_iff.mp rest₂₁
  clear rest₁₆ rest₁₇ rest₁₈ rest₁₉ rest₂₀ rest₂₁
  cases same
  have withoutBatch := List.isEmpty_iff.mp ((Option.guard_eq_some' ()).mp noBatch)
  have states := numElements_of_layoutStatePermutation place₁₇
  have decoder : (hasDecoderPart && !false) = hasDecoderPart := by simp
  rw [decoder] at place₉ place₁₃
  have atMostOne {condition : Bool} : (if condition then 1 else 0) ≤ 1 := by
    cases condition <;> simp
  exact {
    rangeCheck16 := (numElements_of_layoutAt place₁).symm
    timestamps := (numElements_of_layoutAt place₃).symm
    lazyInit := by
      intro oracles member
      obtain ⟨_, same⟩ := Option.ite_none_right_eq_some.mp member
      cases same
      rfl
    genericLookup := numElements_of_layoutAt place₈
    decoderAccesses := numElements_of_layoutWhen place₉
    rangeCheck16Multiplicity := (numElements_of_layoutWhen place₁₀).trans_le atMostOne
    timestampMultiplicity := (numElements_of_layoutWhen place₁₁).trans_le atMostOne
    genericMultiplicities := by
      rw [numElements_of_layoutWhen place₁₂]
      simp only [decide_eq_true_eq]
    decoderMultiplicities := numElements_of_layoutWhen place₁₃
    initTeardown := numElements_of_layoutAt place₁₈
    memoryArgument := numElements_of_layoutMemoryArgument withoutBatch place₁₆
    statePermutation := states.1
    masking := states.2
    grandProduct := numElements_of_layoutWhen place₁₉ }

end Airbender.Compiler
