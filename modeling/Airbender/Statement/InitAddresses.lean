import Airbender.Circuit.InitAndTeardown
import Airbender.Lib.PaddedOrder
import Airbender.Lib.WordFields
import Airbender.Statement.UnifiedBinding

/-!
# Init addresses over a whole statement

Every circuit reports the boundary rows of its init and teardown columns, and both statement
verifiers compare the last row of a column with the first of the next one.  This makes one
column of all columns.
-/

namespace Airbender.Statement

open Circuit (F InitAndTeardownRow)
open PaddedOrder StreamReader

/-! ## Boundary values of a column -/

/-- Blank rows: address, teardown value and teardown timestamp are zero. -/
def IsBlank (row : InitAndTeardownRow) : Prop := ¬ row.IsUsed

theorem address_of_isBlank (row : InitAndTeardownRow) (blank : IsBlank row) :
    row.address = ⊥ := by
  by_contra nonzero
  exact blank (Circuit.InitAndTeardownRow.isUsed_of_address_pos (Nat.pos_of_ne_zero nonzero))

/-- Zero padding followed by strictly increasing addresses. -/
abbrev ColumnOrdered (rows : List InitAndTeardownRow) : Prop :=
  PaddedIncreasing InitAndTeardownRow.address IsBlank rows

/-- The boundary values of a column, from its first row and the last row that is used. -/
def boundaryOfRows (first last : InitAndTeardownRow) : AuxArgumentsBoundaryValues where
  lazyInitFirstRow := #v[first.lazyInitAddressLow, first.lazyInitAddressHigh]
  teardownValueFirstRow := #v[first.teardownValueLow, first.teardownValueHigh]
  teardownTimestampFirstRow := #v[first.teardownTimestampLow, first.teardownTimestampHigh]
  lazyInitOneBeforeLastRow := #v[last.lazyInitAddressLow, last.lazyInitAddressHigh]
  teardownValueOneBeforeLastRow := #v[last.teardownValueLow, last.teardownValueHigh]
  teardownTimestampOneBeforeLastRow := #v[last.teardownTimestampLow, last.teardownTimestampHigh]

def Reports (boundary : AuxArgumentsBoundaryValues) (rows : List InitAndTeardownRow) : Prop :=
  ∃ first last, rows.head? = some first ∧ rows.getLast? = some last ∧
    boundary = boundaryOfRows first last

/-- The columns of the circuit are ordered in this sense. -/
theorem columnOrdered_of_circuit {traceLen : Nat} {column : Nat → InitAndTeardownRow}
    (satisfied : Circuit.InitAndTeardownColumn traceLen column) :
    ColumnOrdered ((List.range (traceLen - 1)).map column) := by
  obtain ⟨start, padding⟩ := satisfied.exists_start
  let count := min start (traceLen - 1)
  have split : List.range (traceLen - 1) =
      List.range count ++ (List.range (traceLen - 1 - count)).map (count + ·) := by
    rw [← List.range_add]
    congr 1
    omega
  refine ⟨(List.range count).map column,
    ((List.range (traceLen - 1 - count)).map (count + ·)).map column, ?_, ?_, ?_⟩
  · rw [split, List.map_append]
  · intro row member
    obtain ⟨i, inside, rfl⟩ := List.mem_map.mp member
    rw [List.mem_range] at inside
    intro used
    have real := (satisfied.padding i (by omega)).real_of_isUsed used
    exact real ((padding i (by omega)).mpr (by omega))
  · rw [List.map_map]
    apply List.pairwise_map.mpr
    apply List.Pairwise.imp_of_mem (R := (· < ·)) ?_ List.pairwise_lt_range
    intro i j _ inside order
    rw [List.mem_range] at inside
    have real : ¬ (column (count + i)).IsPadding := by
      intro isPadding
      have before := (padding (count + i) (by omega)).mp isPadding
      omega
    have later : count + i < count + j := by omega
    have row : count + j + 1 < traceLen := by omega
    exact satisfied.address_strictMono later row real

/-! ## Parsed limbs -/

/-- The number that two limbs hold. -/
def limbsValue (limbs : Vector F 2) : Nat := (limbs.get 0).val + 2 ^ 16 * (limbs.get 1).val

theorem toNat_toReducedU32 (x : F) : (toReducedU32 x).toNat = x.val := by
  have bound : x.val < 2 ^ 32 := (ZMod.val_lt x).trans (by decide)
  rw [toReducedU32, BitVec.toNat_ofNat, Nat.mod_eq_of_lt bound]

theorem toReducedU32_eq_zero_iff (x : F) : toReducedU32 x = 0 ↔ x = 0 := by
  rw [← ZMod.val_eq_zero, ← toNat_toReducedU32]
  exact ⟨fun zero => congrArg BitVec.toNat zero, fun zero => BitVec.eq_of_toNat_eq zero⟩

/-- A word without high half. -/
theorem toNat_lt_of_and_eq_zero {word : U32} (zero : word &&& 0xffff0000 = 0) :
    word.toNat < 2 ^ 16 := by
  have mask : (0xffff0000 : U32) = WordFields.fieldMask 32 16 16 := by decide
  rw [mask] at zero
  apply Nat.lt_pow_two_of_testBit
  intro i above
  rw [BitVec.testBit_toNat]
  by_cases inside : i < 32
  · have bit := congrArg (fun word : U32 => word.getLsbD i) zero
    have masked : (WordFields.fieldMask 32 16 16).getLsbD i = true := by
      rw [WordFields.getLsbD_fieldMask, decide_eq_true inside, decide_eq_true above]
      rfl
    have none : (0 : U32).getLsbD i = false := BitVec.getLsbD_zero
    rw [BitVec.getLsbD_and, masked, Bool.and_true, none] at bit
    exact bit
  · exact BitVec.getLsbD_of_ge word i (Nat.not_lt.mp inside)

theorem parse_toNat {limbs : Vector F 2} {word : U32}
    (parsed : parseFieldElsAsU32FromU16LimbsChecked limbs = some word) :
    word.toNat = limbsValue limbs := by
  simp only [parseFieldElsAsU32FromU16LimbsChecked, Option.bind_eq_bind,
    Option.bind_eq_some_iff, Option.guard_eq_some' ()] at parsed
  obtain ⟨_, low, _, high, word_eq⟩ := parsed
  obtain rfl := Option.some.inj word_eq
  have lowBound := toNat_lt_of_and_eq_zero low
  have highBound := toNat_lt_of_and_eq_zero high
  have shifted : (toReducedU32 (limbs.get 1) <<< 16).toNat =
      (toReducedU32 (limbs.get 1)).toNat <<< 16 := by
    rw [BitVec.toNat_shiftLeft, Nat.shiftLeft_eq]
    exact Nat.mod_eq_of_lt (by omega)
  rw [BitVec.toNat_or, shifted, Nat.or_comm, ← Nat.shiftLeft_add_eq_or_of_lt lowBound,
    Nat.shiftLeft_eq, toNat_toReducedU32, toNat_toReducedU32, limbsValue, Nat.add_comm,
    Nat.mul_comm]

theorem limbs_eq_zero_of_parse {limbs : Vector F 2}
    (parsed : parseFieldElsAsU32FromU16LimbsChecked limbs = some 0) :
    limbs.get 0 = 0 ∧ limbs.get 1 = 0 := by
  have value := parse_toNat parsed
  rw [limbsValue] at value
  have zero : (0 : U32).toNat = 0 := rfl
  rw [zero] at value
  exact ⟨(ZMod.val_eq_zero _).mp (by omega), (ZMod.val_eq_zero _).mp (by omega)⟩

/-! ## Junctions -/

/-- All that a column reports about its last used row is zero. -/
def EndsBlank (boundary : AuxArgumentsBoundaryValues) : Prop :=
  (boundary.lazyInitOneBeforeLastRow.get 0 = 0 ∧ boundary.lazyInitOneBeforeLastRow.get 1 = 0) ∧
    (boundary.teardownValueOneBeforeLastRow.get 0 = 0 ∧
      boundary.teardownValueOneBeforeLastRow.get 1 = 0) ∧
    (boundary.teardownTimestampOneBeforeLastRow.get 0 = 0 ∧
      boundary.teardownTimestampOneBeforeLastRow.get 1 = 0)

/-- A column may come after another: its addresses go on, or the other one is blank. -/
def Follows (previous current : AuxArgumentsBoundaryValues) : Prop :=
  limbsValue previous.lazyInitOneBeforeLastRow < limbsValue current.lazyInitFirstRow ∨
    EndsBlank previous

theorem follows_of_checkLazyInits {previous current : AuxArgumentsBoundaryValues}
    (checked : checkLazyInits previous current = some ⟨⟩) : Follows previous current := by
  simp only [checkLazyInits, Option.bind_eq_bind, Option.bind_eq_some_iff,
    Option.guard_eq_some' ()] at checked
  obtain ⟨lastPrevious, last, firstCurrent, first, grows | zero⟩ := checked
  · left
    rw [← parse_toNat last, ← parse_toNat first]
    exact BitVec.lt_def.mp grows
  · obtain ⟨rfl, valueLow, valueHigh, timestampLow, timestampHigh⟩ := zero
    right
    exact ⟨limbs_eq_zero_of_parse last,
      ⟨(toReducedU32_eq_zero_iff _).mp valueLow, (toReducedU32_eq_zero_iff _).mp valueHigh⟩,
      ⟨(toReducedU32_eq_zero_iff _).mp timestampLow,
        (toReducedU32_eq_zero_iff _).mp timestampHigh⟩⟩

/-- A junction that is checked returns the last used row of the current column. -/
theorem checkJunction_cases {lastPrevious next : InitAndTeardownTuple}
    {current : AuxArgumentsBoundaryValues}
    (checked : checkJunction lastPrevious current = some next) :
    InitAndTeardownTuple.fromAuxValuesOneBeforeLastRow current = some next ∧
      ∀ previous,
        InitAndTeardownTuple.fromAuxValuesOneBeforeLastRow previous = some lastPrevious →
          Follows previous current := by
  simp only [checkJunction, Option.bind_eq_bind, Option.bind_eq_some_iff,
    Option.guard_eq_some' ()] at checked
  obtain ⟨firstCurrent, first, _, junction, kept⟩ := checked
  refine ⟨kept, ?_⟩
  intro previous tuple
  simp only [InitAndTeardownTuple.fromAuxValuesOneBeforeLastRow, Option.bind_eq_bind,
    Option.bind_eq_some_iff] at tuple
  obtain ⟨address, addressParsed, value, valueParsed, fields⟩ := tuple
  obtain rfl := Option.some.inj fields
  rcases junction with grows | ⟨rfl, rfl, timestampLow, timestampHigh⟩
  · left
    rw [← parse_toNat addressParsed, ← parse_toNat first]
    exact BitVec.lt_def.mp grows
  · right
    exact ⟨limbs_eq_zero_of_parse addressParsed, limbs_eq_zero_of_parse valueParsed,
      (toReducedU32_eq_zero_iff _).mp timestampLow,
      (toReducedU32_eq_zero_iff _).mp timestampHigh⟩

/-- The sets of a circuit follow one another. -/
theorem isChain_of_junctions {sets : List AuxArgumentsBoundaryValues}
    {first last : InitAndTeardownTuple} (checked : sets.foldlM checkJunction first = some last) :
    sets.IsChain Follows ∧ ∀ previous,
      InitAndTeardownTuple.fromAuxValuesOneBeforeLastRow previous = some first →
        ∀ current ∈ sets.head?, Follows previous current := by
  induction sets generalizing first with
  | nil => exact ⟨List.IsChain.nil, fun _ _ _ member => absurd member (Option.not_mem_none _)⟩
  | cons current sets inductionHypothesis =>
      rw [List.foldlM_cons, Option.bind_eq_bind, Option.bind_eq_some_iff] at checked
      obtain ⟨next, junction, others⟩ := checked
      obtain ⟨kept, follows⟩ := checkJunction_cases junction
      obtain ⟨chain, start⟩ := inductionHypothesis others
      refine ⟨List.isChain_cons.mpr ⟨start current kept, chain⟩, ?_⟩
      intro previous tuple set isHead
      rw [List.head?_cons, Option.mem_some_iff] at isHead
      rw [← isHead]
      exact follows previous tuple

/-! ## All columns of a statement -/

/-- The boundary values that a proof reports, set by set. -/
def AcceptedProof.lazyInitBoundaryValues {numSets : Nat} :
    AcceptedProof numSets → List AuxArgumentsBoundaryValues
  | .unrolledNoDelegation _ _ output => output.lazyInitBoundaryValues.toList
  | .unrolledWithDelegation _ _ output => output.lazyInitBoundaryValues.toList
  | .initAndTeardown _ output => output.lazyInitBoundaryValues.toList
  | .unified _ output => output.lazyInitBoundaryValues.toList
  | .delegation _ _ output => output.lazyInitBoundaryValues.toList

/-- The boundary values of all columns, in circuit order and then in set order. -/
def initBoundaries {numSets : Nat} (accepted : List (AcceptedProof numSets)) :
    List AuxArgumentsBoundaryValues :=
  accepted.flatMap AcceptedProof.lazyInitBoundaryValues

/-- Columns that these boundary values describe, each ordered in itself. -/
abbrev Describes (boundaries : List AuxArgumentsBoundaryValues)
    (columns : List (List InitAndTeardownRow)) : Prop :=
  List.Forall₂ (fun boundary rows => Reports boundary rows ∧ ColumnOrdered rows) boundaries
    columns

theorem joins_of_follows {previous current : AuxArgumentsBoundaryValues}
    {left right : List InitAndTeardownRow} (reportsLeft : Reports previous left)
    (reportsRight : Reports current right) (follows : Follows previous current) :
    Joins InitAndTeardownRow.address IsBlank left right := by
  obtain ⟨_, last, -, leftLast, rfl⟩ := reportsLeft
  obtain ⟨first, _, rightFirst, -, rfl⟩ := reportsRight
  intro row isLast next isFirst
  rw [leftLast, Option.mem_some_iff] at isLast
  rw [rightFirst, Option.mem_some_iff] at isFirst
  subst isLast isFirst
  rcases follows with grows | ⟨⟨addressLow, addressHigh⟩, ⟨valueLow, valueHigh⟩,
    timestampLow, timestampHigh⟩
  · exact Or.inl grows
  · right
    rintro ⟨value, member, nonzero⟩
    apply nonzero
    simp only [Circuit.InitAndTeardownRow.padded, List.mem_cons, List.not_mem_nil,
      or_false] at member
    rcases member with rfl | rfl | rfl | rfl | rfl | rfl
    · exact addressLow
    · exact addressHigh
    · exact valueLow
    · exact valueHigh
    · exact timestampLow
    · exact timestampHigh

theorem Describes.isChain {boundaries : List AuxArgumentsBoundaryValues}
    {columns : List (List InitAndTeardownRow)} (describes : Describes boundaries columns)
    (chain : boundaries.IsChain Follows) :
    columns.IsChain (Joins InitAndTeardownRow.address IsBlank) := by
  induction describes with
  | nil => exact List.IsChain.nil
  | @cons boundary rows boundaries columns head tail inductionHypothesis =>
      obtain ⟨start, others⟩ := List.isChain_cons.mp chain
      refine List.isChain_cons.mpr ⟨?_, inductionHypothesis others⟩
      intro next isNext
      cases tail with
      | nil => exact absurd isNext (Option.not_mem_none _)
      | cons nextHead _ =>
          rw [List.head?_cons, Option.mem_some_iff] at isNext
          subst isNext
          exact joins_of_follows head.1 nextHead.1 (start _ rfl)

theorem Describes.column {boundaries : List AuxArgumentsBoundaryValues}
    {columns : List (List InitAndTeardownRow)} (describes : Describes boundaries columns) :
    ∀ column ∈ columns, column ≠ [] ∧ ColumnOrdered column := by
  induction describes with
  | nil => exact fun _ member => absurd member List.not_mem_nil
  | @cons boundary rows boundaries columns head _ inductionHypothesis =>
      obtain ⟨⟨first, _, isFirst, -⟩, ordered⟩ := head
      intro column member
      rcases List.mem_cons.mp member with rfl | later
      · refine ⟨?_, ordered⟩
        rintro rfl
        exact absurd isFirst (Option.some_ne_none first).symm
      · exact inductionHypothesis column later

/-- Columns whose boundaries follow one another make one ordered column. -/
theorem Describes.columnOrdered {boundaries : List AuxArgumentsBoundaryValues}
    {columns : List (List InitAndTeardownRow)} (describes : Describes boundaries columns)
    (chain : boundaries.IsChain Follows) : ColumnOrdered columns.flatten := by
  have nonempty := fun column member => (describes.column column member).1
  have ordered := fun column member => (describes.column column member).2
  exact PaddedIncreasing.flatten address_of_isBlank nonempty ordered (describes.isChain chain)

/-! ## The loops over proofs -/

/-- After `circuitSequence` proofs that report columns, the last with `reported`. -/
def InOrder {numSets : Nat} (before : List (AcceptedProof numSets)) (circuitSequence : Nat)
    (reported : List AuxArgumentsBoundaryValues) (accepted : List (AcceptedProof numSets)) :
    Prop :=
  ∃ later, accepted = before ++ later ∧ (initBoundaries later).IsChain Follows ∧
    (initBoundaries later).getLast? = if circuitSequence = 0 then none else reported.getLast?

section Loops

variable {numSets : Nat} {before accepted : List (AcceptedProof numSets)} {circuitSequence : Nat}
  {reported : List AuxArgumentsBoundaryValues}

theorem InOrder.start (before : List (AcceptedProof numSets))
    (reported : List AuxArgumentsBoundaryValues) : InOrder before 0 reported before :=
  ⟨[], (List.append_nil before).symm, List.IsChain.nil, rfl⟩

/-- A proof keeps the order if its first set follows the last one of the proof before it. -/
theorem InOrder.accept (order : InOrder before circuitSequence reported accepted)
    (proof : AcceptedProof numSets) (sets : proof.lazyInitBoundaryValues.IsChain Follows)
    (junction : 0 < circuitSequence → proof.lazyInitBoundaryValues ≠ [] ∧
      ∃ last, reported.getLast? = some last ∧
        ∀ current ∈ proof.lazyInitBoundaryValues.head?, Follows last current) :
    InOrder before (circuitSequence + 1) proof.lazyInitBoundaryValues (accepted ++ [proof]) := by
  obtain ⟨later, rfl, chain, lastSet⟩ := order
  have boundaries : initBoundaries (later ++ [proof]) =
      initBoundaries later ++ proof.lazyInitBoundaryValues := by
    rw [initBoundaries, initBoundaries, List.flatMap_append, List.flatMap_singleton]
  refine ⟨later ++ [proof], List.append_assoc _ _ _, ?_, ?_⟩
  · rw [boundaries]
    refine List.isChain_append.mpr ⟨chain, sets, ?_⟩
    intro last isLast current isHead
    rw [lastSet] at isLast
    by_cases first : circuitSequence = 0
    · rw [if_pos first] at isLast
      exact absurd isLast (Option.not_mem_none _)
    · obtain ⟨-, previous, isPrevious, follows⟩ := junction (Nat.pos_of_ne_zero first)
      rw [if_neg first, isPrevious, Option.mem_some_iff] at isLast
      rw [← isLast]
      exact follows current isHead
  · rw [boundaries, if_neg (Nat.succ_ne_zero _)]
    by_cases first : circuitSequence = 0
    · rw [if_pos first] at lastSet
      rw [List.getLast?_eq_none_iff.mp lastSet, List.nil_append]
    · exact List.getLast?_append_of_ne_nil _ (junction (Nat.pos_of_ne_zero first)).1

theorem InitsAndTeardownsState.inOrder_proof {setup : MerkleTreeCaps}
    {verifierFn : VerifierFunctionPointer 0 numSets 0}
    {state next : InitsAndTeardownsState numSets} {stream rest : List U32}
    (order : InOrder before circuitSequence
      (state.outputs.previous circuitSequence).lazyInitBoundaryValues.toList state.log.accepted)
    (run : proof setup verifierFn circuitSequence state stream = some (next, rest)) :
    InOrder before (circuitSequence + 1)
      (next.outputs.previous (circuitSequence + 1)).lazyInitBoundaryValues.toList
      next.log.accepted := by
  obtain ⟨current, first, _, -, previous, junctions, rfl⟩ := proof_cases run
  obtain ⟨sets, start⟩ := isChain_of_junctions junctions
  have written := state.outputs.previous_write_succ circuitSequence current
  rw [after]
  simp only [written]
  apply order.accept (.initAndTeardown circuitSequence current) sets
  intro later
  rw [lastPrevious, if_neg (Nat.pos_iff_ne_zero.mp later), Option.bind_eq_bind,
    Option.bind_eq_some_iff] at previous
  obtain ⟨boundary, isLast, tuple⟩ := previous
  refine ⟨?_, boundary, isLast, start boundary tuple⟩
  -- all circuits have the same number of sets
  have lastMember := List.mem_of_getLast? isLast
  have positive := List.length_pos_of_mem lastMember
  rw [Vector.length_toList] at positive
  apply List.ne_nil_of_length_pos
  rw [AcceptedProof.lazyInitBoundaryValues, Vector.length_toList]
  exact positive

theorem UnifiedState.inOrder_proof {before : List (AcceptedProof 1)} {setup : MerkleTreeCaps}
    {capacity : U32} {verifierFn : VerifierFunctionPointer 1 1 1} {state next : UnifiedState}
    {stream rest : List U32}
    (order : InOrder before circuitSequence
      (state.outputs.previous circuitSequence).lazyInitBoundaryValues.toList state.log.accepted)
    (run : proof setup capacity verifierFn circuitSequence state stream = some (next, rest)) :
    InOrder before (circuitSequence + 1)
      (next.outputs.previous (circuitSequence + 1)).lazyInitBoundaryValues.toList
      next.log.accepted := by
  obtain ⟨current, -, inits, rfl⟩ := proof_cases run
  have written := state.outputs.previous_write_succ circuitSequence current
  have single : ∀ values : Vector AuxArgumentsBoundaryValues 1, values.toList = [values[0]] := by
    intro values
    apply List.ext_getElem
    · rw [Vector.length_toList]
      rfl
    · intro i inside _
      rw [Vector.length_toList] at inside
      have zero : i = 0 := by omega
      subst zero
      exact Vector.getElem_toList _
  rw [after]
  simp only [written]
  apply order.accept (.unified circuitSequence current)
  · rw [AcceptedProof.lazyInitBoundaryValues, single]
    exact List.isChain_singleton _
  · intro later
    have follows := follows_of_checkLazyInits (inits later)
    rw [AcceptedProof.lazyInitBoundaryValues, single, single]
    refine ⟨List.cons_ne_nil _ _, _, rfl, ?_⟩
    intro set isHead
    rw [List.head?_cons, Option.mem_some_iff] at isHead
    rw [← isHead]
    exact follows

end Loops

theorem InitsAndTeardownsState.isChain_proofs {numSets : Nat}
    {initsAndTeardownsVerifier : MerkleTreeCaps × VerifierFunctionPointer 0 numSets 0}
    {outputs : ProofOutputs 0 numSets 0} {log : ProofLog numSets}
    {next : InitsAndTeardownsState numSets} {stream rest : List U32}
    (run : proofs initsAndTeardownsVerifier outputs log stream = some (next, rest)) :
    ∃ accepted, next.log.accepted = log.accepted ++ accepted ∧
      (initBoundaries accepted).IsChain Follows := by
  obtain ⟨numCircuits, _, -, loop⟩ := proofs_cases run
  have order := Reader.loop_invariant
    (fun circuitSequence (state : InitsAndTeardownsState numSets) =>
      InOrder log.accepted circuitSequence
        (state.outputs.previous circuitSequence).lazyInitBoundaryValues.toList
        state.log.accepted)
    (fun _ _ _ _ _ order pass => inOrder_proof order pass)
    (InOrder.start log.accepted _) loop
  obtain ⟨accepted, appended, chain, -⟩ := order
  exact ⟨accepted, appended, chain⟩

theorem UnifiedArguments.isChain_proofs {arguments : UnifiedArguments} {buffers : UnifiedBuffers}
    {finalState : FinalMachineState} {next : UnifiedState} {stream rest : List U32}
    (run : arguments.proofs buffers finalState stream = some (next, rest)) :
    (initBoundaries next.log.accepted).IsChain Follows := by
  obtain ⟨numCircuits, _, -, -, loop⟩ := proofs_cases run
  have order := Reader.loop_invariant
    (fun circuitSequence (state : UnifiedState) =>
      InOrder [] circuitSequence
        (state.outputs.previous circuitSequence).lazyInitBoundaryValues.toList
        state.log.accepted)
    (fun _ _ _ _ _ order pass => UnifiedState.inOrder_proof order pass)
    (InOrder.start [] _) loop
  obtain ⟨accepted, appended, chain, -⟩ := order
  rw [appended, List.nil_append]
  exact chain

/-! ## Uniqueness -/

/-- No address is listed by two rows that carry something. -/
def AddressesUnique (rows : List InitAndTeardownRow) : Prop :=
  rows.Pairwise fun row later => row.IsUsed → later.IsUsed → row.address ≠ later.address

theorem ColumnOrdered.addressesUnique {rows : List InitAndTeardownRow}
    (ordered : ColumnOrdered rows) : AddressesUnique rows := by
  apply (PaddedIncreasing.keys_unique ordered).imp
  intro row later differ rowUsed laterUsed
  exact differ (not_not_intro rowUsed) (not_not_intro laterUsed)

/-- In a statement that is accepted, all columns together are zero padding and then strictly
increasing addresses, so that no word is initialised or torn down twice. -/
theorem initAddresses_unique :
    (∀ (numSets : Nat)
      (initsAndTeardownsVerifier : MerkleTreeCaps × VerifierFunctionPointer 0 numSets 0)
      (outputs : ProofOutputs 0 numSets 0) (log : ProofLog numSets)
      (next : InitsAndTeardownsState numSets) (stream rest : List U32),
      InitsAndTeardownsState.proofs initsAndTeardownsVerifier outputs log stream =
          some (next, rest) →
        ∃ accepted, next.log.accepted = log.accepted ++ accepted ∧
          ∀ columns, Describes (initBoundaries accepted) columns →
            ColumnOrdered columns.flatten ∧ AddressesUnique columns.flatten) ∧
    (∀ (arguments : UnifiedArguments) (buffers : UnifiedBuffers)
      (finalState : FinalMachineState) (next : UnifiedState) (stream rest : List U32),
      arguments.proofs buffers finalState stream = some (next, rest) →
        ∀ columns, Describes (initBoundaries next.log.accepted) columns →
          ColumnOrdered columns.flatten ∧ AddressesUnique columns.flatten) := by
  constructor
  · intro numSets initsAndTeardownsVerifier outputs log next stream rest run
    obtain ⟨accepted, appended, chain⟩ := InitsAndTeardownsState.isChain_proofs run
    refine ⟨accepted, appended, ?_⟩
    intro columns describes
    have ordered := describes.columnOrdered chain
    exact ⟨ordered, ordered.addressesUnique⟩
  · intro arguments buffers finalState next stream rest run columns describes
    have ordered := describes.columnOrdered (UnifiedArguments.isChain_proofs run)
    exact ⟨ordered, ordered.addressesUnique⟩

/-- A row with an address and nothing else. -/
def sampleInitRow (address : U32) : InitAndTeardownRow :=
  ⟨address.toNat, 0, 0, 0, 0, 0, 0, 0, 0, 0⟩

/-- A proof over a column with these addresses in its first and in its last row. -/
def sampleColumnOutput (numDelegationChallenges numMachineStateChallenges : Nat)
    (first last : U32) : ProofOutput numDelegationChallenges 1 numMachineStateChallenges :=
  { sampleOutput numDelegationChallenges 1 numMachineStateChallenges
      (ExternalChallenges.memoryOf []) (ExternalChallenges.delegationOf [])
      (ExternalChallenges.machineStateOf []) with
    lazyInitBoundaryValues := #v[boundaryOfRows (sampleInitRow first) (sampleInitRow last)] }

/-- A verifier that reads the two addresses. -/
def sampleColumnVerifier (numDelegationChallenges numMachineStateChallenges : Nat) :
    VerifierFunctionPointer numDelegationChallenges 1 numMachineStateChallenges := fun _ => do
  let first ← Reader.token
  let last ← Reader.token
  pure (sampleColumnOutput numDelegationChallenges numMachineStateChallenges first last)

theorem nextProof_sampleColumn {numDelegationChallenges numMachineStateChallenges : Nat}
    {outputs : ProofOutputs numDelegationChallenges 1 numMachineStateChallenges}
    {circuitSequence : Nat} (first last : U32) (stream : List U32)
    (previous : 0 < circuitSequence → ∃ first last,
      outputs.previous circuitSequence = sampleColumnOutput _ _ first last) :
    nextProof (sampleColumnVerifier numDelegationChallenges numMachineStateChallenges)
        (Vector.replicate numCosets .dummy) circuitSequence outputs (first :: last :: stream) =
      some (sampleColumnOutput _ _ first last, stream) := by
  refine nextProof_eq_some_iff.mpr ⟨rfl, rfl, rfl, ?_, ?_, ?_, fun _ => rfl⟩
  all_goals
    intro later
    obtain ⟨_, _, same⟩ := previous later
    rw [same]
    rfl

/-- Two columns of two rows. -/
def sampleColumns : List (List InitAndTeardownRow) :=
  [[sampleInitRow 0, sampleInitRow 4], [sampleInitRow 8, sampleInitRow 12]]

theorem columnOrdered_sample {first last : U32}
    (order : (sampleInitRow first).address < (sampleInitRow last).address) :
    ColumnOrdered [sampleInitRow first, sampleInitRow last] := by
  refine ⟨[], _, rfl, fun _ member => absurd member List.not_mem_nil, ?_⟩
  exact List.pairwise_cons.mpr ⟨fun row member => List.mem_singleton.mp member ▸ order,
    List.pairwise_singleton _ _⟩

theorem describes_sample : Describes
    [boundaryOfRows (sampleInitRow 0) (sampleInitRow 4),
      boundaryOfRows (sampleInitRow 8) (sampleInitRow 12)] sampleColumns := by
  refine List.Forall₂.cons ⟨⟨_, _, rfl, rfl, rfl⟩, columnOrdered_sample ?_⟩
    (List.Forall₂.cons ⟨⟨_, _, rfl, rfl, rfl⟩, columnOrdered_sample ?_⟩ List.Forall₂.nil)
  · decide +kernel
  · decide +kernel

theorem initAddresses_unique_samples :
    (∃ (log : ProofLog 1) (next : InitsAndTeardownsState 1),
      InitsAndTeardownsState.proofs
          (Vector.replicate numCosets .dummy, sampleColumnVerifier 0 0)
          sampleBuffers.initsAndTeardowns log [2, 0, 4, 8, 12] = some (next, []) ∧
        ColumnOrdered sampleColumns.flatten ∧ AddressesUnique sampleColumns.flatten) ∧
    (∃ (arguments : UnifiedArguments) (next : UnifiedState),
      arguments.proofs sampleUnifiedBuffers sampleState [2, 0, 4, 8, 12] = some (next, []) ∧
        ColumnOrdered sampleColumns.flatten ∧ AddressesUnique sampleColumns.flatten) := by
  constructor
  · let log : ProofLog 1 := .start sampleState.transcript
    let start : InitsAndTeardownsState 1 :=
      { log := log.announce 2 initsAndTeardownsFormalCircuitFamilyIdx
        outputs := sampleBuffers.initsAndTeardowns
        cellsInitialized := 0 }
    let middle := start.after 0 (sampleColumnOutput 0 0 0 4)
    let next := middle.after 1 (sampleColumnOutput 0 0 8 12)
    have run : InitsAndTeardownsState.proofs
        (Vector.replicate numCosets .dummy, sampleColumnVerifier 0 0)
        sampleBuffers.initsAndTeardowns log [2, 0, 4, 8, 12] = some (next, []) := by
      apply Reader.token_bind_eq_some_iff.mpr
      refine ⟨2, _, rfl, Reader.loop_succ.mpr ⟨middle, [8, 12], ?_,
        Reader.loop_succ.mpr ⟨next, [], ?_, Reader.loop_zero.mpr ⟨rfl, rfl⟩⟩⟩⟩
      · rw [InitsAndTeardownsState.proof]
        apply Reader.check_bind_eq_some_iff.mpr
        refine ⟨by decide, ?_⟩
        apply Reader.bind_eq_some_iff.mpr
        refine ⟨_, _, nextProof_sampleColumn 0 4 [8, 12]
          (fun later => absurd later (Nat.lt_irrefl 0)), ?_⟩
        apply Reader.ofOption_bind_eq_some_iff.mpr
        refine ⟨InitAndTeardownTuple.zero, rfl, ?_⟩
        apply Reader.ofOption_bind_eq_some_iff.mpr
        exact ⟨{ InitAndTeardownTuple.zero with address := 4 }, by decide +kernel, rfl⟩
      · have previous : middle.outputs.previous (0 + 1) = sampleColumnOutput 0 0 0 4 := rfl
        rw [InitsAndTeardownsState.proof]
        apply Reader.check_bind_eq_some_iff.mpr
        refine ⟨by decide, ?_⟩
        apply Reader.bind_eq_some_iff.mpr
        refine ⟨_, _, nextProof_sampleColumn 8 12 [] (fun _ => ⟨0, 4, previous⟩), ?_⟩
        apply Reader.ofOption_bind_eq_some_iff.mpr
        rw [previous]
        refine ⟨{ InitAndTeardownTuple.zero with address := 4 }, by decide +kernel, ?_⟩
        apply Reader.ofOption_bind_eq_some_iff.mpr
        exact ⟨{ InitAndTeardownTuple.zero with address := 12 }, by decide +kernel, rfl⟩
    obtain ⟨accepted, appended, unique⟩ := initAddresses_unique.1 1 _ _ _ _ _ _ run
    have both : log.accepted ++ [.initAndTeardown 0 (sampleColumnOutput 0 0 0 4),
        .initAndTeardown 1 (sampleColumnOutput 0 0 8 12)] = log.accepted ++ accepted := appended
    obtain rfl := List.append_cancel_left both
    exact ⟨log, next, run, unique sampleColumns describes_sample⟩
  · let arguments : UnifiedArguments :=
      { baseLayer := true
        memoryDelegationPowBits := 0
        unifiedCircuitSetup := Vector.replicate numCosets .dummy
        unifiedCircuitCapacity := 1
        unifiedCircuitVerifier := sampleColumnVerifier 1 1
        delegationCircuitsVerifiers := [] }
    let start : UnifiedState :=
      { log := (ProofLog.start sampleState.transcript).announce 2 reducedMachineCircuitFamilyIdx
        outputs := sampleUnifiedBuffers.outputs
        totalCycles := 0 }
    let middle := start.after 1 0 (sampleColumnOutput 1 1 0 4)
    let next := middle.after 1 1 (sampleColumnOutput 1 1 8 12)
    have run : arguments.proofs sampleUnifiedBuffers sampleState [2, 0, 4, 8, 12] =
        some (next, []) := by
      apply Reader.token_bind_eq_some_iff.mpr
      refine ⟨2, _, rfl, Reader.check_bind_eq_some_iff.mpr ⟨by decide, ?_⟩⟩
      refine Reader.loop_succ.mpr ⟨middle, [8, 12], ?_,
        Reader.loop_succ.mpr ⟨next, [], ?_, Reader.loop_zero.mpr ⟨rfl, rfl⟩⟩⟩
      · have few : (0 : Nat) + (1 : U32).toNat < maxCycles := by decide
        rw [UnifiedState.proof]
        apply Reader.check_bind_eq_some_iff.mpr
        refine ⟨few, ?_⟩
        apply Reader.bind_eq_some_iff.mpr
        refine ⟨_, _, nextProof_sampleColumn 0 4 [8, 12]
          (fun later => absurd later (Nat.lt_irrefl 0)), ?_⟩
        apply Reader.check_bind_eq_some_iff.mpr
        exact ⟨fun later => absurd later (Nat.lt_irrefl 0), rfl⟩
      · have previous : middle.outputs.previous (0 + 1) = sampleColumnOutput 1 1 0 4 := rfl
        have few : (0 : Nat) + (1 : U32).toNat + (1 : U32).toNat < maxCycles := by decide
        rw [UnifiedState.proof]
        apply Reader.check_bind_eq_some_iff.mpr
        refine ⟨few, ?_⟩
        apply Reader.bind_eq_some_iff.mpr
        refine ⟨_, _, nextProof_sampleColumn 8 12 [] (fun _ => ⟨0, 4, previous⟩), ?_⟩
        apply Reader.check_bind_eq_some_iff.mpr
        rw [previous]
        have inits : checkLazyInits ((sampleColumnOutput 1 1 0 4).lazyInitBoundaryValues.get 0)
            ((sampleColumnOutput 1 1 8 12).lazyInitBoundaryValues.get 0) = some ⟨⟩ := by
          decide +kernel
        exact ⟨fun _ => inits, rfl⟩
    exact ⟨arguments, next, run,
      initAddresses_unique.2 arguments _ _ _ _ _ run sampleColumns describes_sample⟩

end Airbender.Statement
