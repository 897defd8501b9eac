import Airbender.Lib.NestedList
import Airbender.Replayer.Ram
import Airbender.Vm.SpecBiVec

/-!
# The log of a replay in several slices

A replay reads a log that comes in slices.  Reading an entry goes on to the next slice when one is
used up; skipping entries looks at one slice only.
-/

namespace Airbender

open NestedList

/-- What a replay does with its log.  Addresses, written words and times play no part. -/
inductive ReplayOperation where
  | readWord
  | writeWord
  | peekWord
  | skipIfReplaying (numSnapshots : Nat)
deriving DecidableEq, Repr

/-- What an operation returns. -/
inductive ReplayAnswer where
  | found (timestamp : TimestampScalar) (value : U32)
  | peeked (value : U32)
  | skipped
deriving DecidableEq, Repr

namespace ReplayOperation

/-- The entries that an operation takes from the log. -/
def consumed : ReplayOperation → Nat
  | readWord => 1
  | writeWord => 1
  | peekWord => 0
  | skipIfReplaying numSnapshots => numSnapshots

end ReplayOperation

/-- The entries that some operations take from the log. -/
def consumedBy (operations : List ReplayOperation) : Nat :=
  (operations.map ReplayOperation.consumed).sum

namespace ReplayerRam

variable {romBits : Nat}

def operate (ram : ReplayerRam romBits) :
    ReplayOperation → Option (ReplayAnswer × ReplayerRam romBits)
  | .readWord => do
      let ((timestamp, value), ram) ← ram.readWord
      return (.found timestamp value, ram)
  | .writeWord => do
      let ((timestamp, value), ram) ← ram.readWord
      return (.found timestamp value, ram)
  | .peekWord => do
      let value ← ram.peekWord
      return (.peeked value, ram)
  | .skipIfReplaying numSnapshots => do
      let ram ← ram.skipIfReplaying numSnapshots
      return (.skipped, ram)

/-- The answers to operations in a row, and the log that they leave. -/
def operateAll (ram : ReplayerRam romBits) :
    List ReplayOperation → Option (List ReplayAnswer × ReplayerRam romBits)
  | [] => some ([], ram)
  | operation :: operations => do
      let (answer, ram) ← ram.operate operation
      let (answers, ram) ← ram.operateAll operations
      return (answer :: answers, ram)

end ReplayerRam

/-- Slices without an empty one that make up the entries. -/
structure Cuts (slices : List (List LogEntry)) (entries : List LogEntry) : Prop where
  nonEmpty : ∀ slice ∈ slices, slice ≠ []
  flatten : slices.flatten = entries

/-- The operations answer the same over the slices as over the uncut log, and leave the same
entries. -/
def CutInvisible (romBits : Nat) (slices : List (List LogEntry)) (operations : List ReplayOperation)
    (answers : List ReplayAnswer) (left : List LogEntry) : Prop :=
  ∃ ram : ReplayerRam romBits, ReplayerRam.operateAll ⟨slices⟩ operations = some (answers, ram) ∧
    ram.ramLog.flatten = left

/-- No slice ends between the first and the last entry of a skip. -/
def SkipsWithinSlices (slices : List (List LogEntry)) (operations : List ReplayOperation) : Prop :=
  ∀ before numSnapshots after,
    operations = before ++ .skipIfReplaying numSnapshots :: after →
      ∀ i ≤ slices.length, start slices i ≤ consumedBy before ∨
        consumedBy before + numSnapshots ≤ start slices i

/-! ## One operation -/

namespace ReplayerRam

variable {romBits : Nat} {slices : List (List LogEntry)} {entries : List LogEntry}

theorem dropFront_eq_dropElements {src : List LogEntry} {rest : List (List LogEntry)} {count : Nat}
    (nonEmpty : ∀ slice ∈ rest, slice ≠ []) (inside : count ≤ src.length) :
    (dropFront (src.drop count) rest : ReplayerRam romBits) =
      ⟨dropElements count (src :: rest)⟩ := by
  by_cases more : count < src.length
  · have left : 0 < (src.drop count).length := by
      rw [List.length_drop]
      omega
    rw [dropFront, if_pos left, dropElements_of_lt more]
  · have none : ¬ 0 < (src.drop count).length := by
      rw [List.length_drop]
      omega
    have past : src.length ≤ count := Nat.not_lt.mp more
    rw [dropFront, if_neg none, dropElements_of_le past, Nat.sub_eq_zero_of_le inside,
      dropElements_zero nonEmpty]

end ReplayerRam

/-! ## The meaning of the operations on entries -/

/-- The answer of an operation when these entries are left. -/
def answerFrom (entries : List LogEntry) : ReplayOperation → Option ReplayAnswer
  | .readWord =>
      entries.head?.map fun entry => .found (joinTimestamp entry.2.1 entry.2.2) entry.1
  | .writeWord =>
      entries.head?.map fun entry => .found (joinTimestamp entry.2.1 entry.2.2) entry.1
  | .peekWord => entries.head?.map fun entry => .peeked entry.1
  | .skipIfReplaying numSnapshots =>
      if entries ≠ [] ∧ numSnapshots ≤ entries.length then some .skipped else none

/-- The answers of operations in a row, and the entries that they leave. -/
def answersFrom (entries : List LogEntry) :
    List ReplayOperation → Option (List ReplayAnswer × List LogEntry)
  | [] => some ([], entries)
  | operation :: operations => do
      let answer ← answerFrom entries operation
      let (answers, left) ← answersFrom (entries.drop operation.consumed) operations
      return (answer :: answers, left)

/-- A skip finds its entries in the first slice. -/
def SkipFits (slices : List (List LogEntry)) (operation : ReplayOperation) : Prop :=
  ∀ numSnapshots, operation = .skipIfReplaying numSnapshots →
    ∀ first rest, slices = first :: rest → numSnapshots ≤ first.length

/-- Every skip finds its entries in the slice that is the first by then. -/
def SkipsFit : List (List LogEntry) → List ReplayOperation → Prop
  | _, [] => True
  | slices, operation :: operations =>
      SkipFits slices operation ∧ SkipsFit (dropElements operation.consumed slices) operations

theorem skipsFit_iff_forall {slices : List (List LogEntry)}
    (nonEmpty : ∀ slice ∈ slices, slice ≠ []) (operations : List ReplayOperation) :
    SkipsFit slices operations ↔ ∀ before numSnapshots after,
      operations = before ++ .skipIfReplaying numSnapshots :: after →
        ∀ first rest, dropElements (consumedBy before) slices = first :: rest →
          numSnapshots ≤ first.length := by
  induction operations generalizing slices with
  | nil =>
      refine ⟨fun _ before _ _ split => ?_, fun _ => trivial⟩
      exact absurd split.symm (List.append_ne_nil_of_right_ne_nil before (List.cons_ne_nil _ _))
  | cons operation operations inductionHypothesis =>
      rw [SkipsFit, inductionHypothesis (ne_nil_of_mem_dropElements _ nonEmpty)]
      have later : ∀ before, consumedBy (operation :: before) =
          operation.consumed + consumedBy before := by
        intro before
        rw [consumedBy, List.map_cons, List.sum_cons, consumedBy]
      constructor
      · rintro ⟨here, there⟩ before numSnapshots after split first rest left
        cases before with
        | nil =>
            cases split
            change dropElements 0 slices = first :: rest at left
            rw [dropElements_zero nonEmpty] at left
            exact here numSnapshots rfl first rest left
        | cons head before =>
            cases split
            rw [later, ← dropElements_dropElements] at left
            exact there before numSnapshots after rfl first rest left
      · intro all
        constructor
        · rintro numSnapshots rfl first rest same
          apply all [] numSnapshots operations rfl first rest
          change dropElements 0 slices = first :: rest
          rw [dropElements_zero nonEmpty]
          exact same
        · intro before numSnapshots after split first rest left
          apply all (operation :: before) numSnapshots after (by rw [split]; rfl) first rest
          rw [later, ← dropElements_dropElements]
          exact left

theorem skipsFit_iff_skipsWithinSlices {slices : List (List LogEntry)}
    (nonEmpty : ∀ slice ∈ slices, slice ≠ []) (operations : List ReplayOperation) :
    SkipsFit slices operations ↔ SkipsWithinSlices slices operations := by
  rw [skipsFit_iff_forall nonEmpty]
  constructor
  · intro fits before numSnapshots after split
    cases left : dropElements (consumedBy before) slices with
    | nil =>
        intro i bound
        left
        have total : slices.flatten.length ≤ consumedBy before := by
          rw [← List.drop_eq_nil_iff, ← flatten_dropElements, left, List.flatten_nil]
        have start := start_mono slices bound
        rw [start_length] at start
        exact start.trans total
    | cons first rest =>
        exact (length_of_dropElements left).mp (fits before numSnapshots after split first rest left)
  · intro within before numSnapshots after split first rest left
    exact (length_of_dropElements left).mpr (within before numSnapshots after split)

namespace ReplayerRam

variable {romBits : Nat} {slices : List (List LogEntry)} {entries : List LogEntry}

theorem readWord_eq (nonEmpty : ∀ slice ∈ slices, slice ≠ []) :
    (⟨slices⟩ : ReplayerRam romBits).readWord = slices.flatten.head?.map fun entry =>
      ((joinTimestamp entry.2.1 entry.2.2, entry.1), ⟨dropElements 1 slices⟩) := by
  cases slices with
  | nil => rfl
  | cons first rest =>
      rcases List.forall_mem_cons.mp nonEmpty with ⟨some, others⟩
      cases first with
      | nil => exact absurd rfl some
      | cons entry next =>
          have inside : 1 ≤ (entry :: next).length := Nat.succ_pos _
          have popped : (dropFront next rest : ReplayerRam romBits) =
              ⟨dropElements 1 ((entry :: next) :: rest)⟩ :=
            dropFront_eq_dropElements others inside
          change Option.some (_, dropFront next rest) = _
          rw [popped]
          rfl

theorem peekWord_eq (nonEmpty : ∀ slice ∈ slices, slice ≠ []) :
    (⟨slices⟩ : ReplayerRam romBits).peekWord =
      slices.flatten.head?.map fun entry => entry.1 := by
  cases slices with
  | nil => rfl
  | cons first rest =>
      cases first with
      | nil => exact absurd rfl (nonEmpty [] List.mem_cons_self)
      | cons entry next => rfl

/-- An operation whose skip fits answers from the entries. -/
theorem operate_eq (nonEmpty : ∀ slice ∈ slices, slice ≠ []) {operation : ReplayOperation}
    (fits : SkipFits slices operation) :
    (⟨slices⟩ : ReplayerRam romBits).operate operation =
      (answerFrom slices.flatten operation).map fun answer =>
        (answer, ⟨dropElements operation.consumed slices⟩) := by
  cases operation with
  | readWord =>
      rw [operate, readWord_eq nonEmpty, answerFrom]
      cases slices.flatten.head? <;> rfl
  | writeWord =>
      rw [operate, readWord_eq nonEmpty, answerFrom]
      cases slices.flatten.head? <;> rfl
  | peekWord =>
      rw [operate, peekWord_eq nonEmpty, answerFrom, ReplayOperation.consumed,
        dropElements_zero nonEmpty]
      cases slices.flatten.head? <;> rfl
  | skipIfReplaying numSnapshots =>
      rw [operate, answerFrom]
      cases slices with
      | nil => rfl
      | cons first rest =>
          rcases List.forall_mem_cons.mp nonEmpty with ⟨some, others⟩
          have enough := fits numSnapshots rfl first rest rfl
          have whole : (first :: rest).flatten ≠ [] ∧
              numSnapshots ≤ (first :: rest).flatten.length := by
            rw [List.flatten_cons]
            refine ⟨fun empty => some (List.append_eq_nil_iff.mp empty).1, ?_⟩
            rw [List.length_append]
            exact enough.trans (Nat.le_add_right _ _)
          rw [if_pos whole, skipIfReplaying]
          dsimp only
          rw [if_pos enough, dropFront_eq_dropElements others enough]
          rfl

/-- A skip past the first slice goes wrong. -/
theorem operate_none {operation : ReplayOperation} (unfit : ¬ SkipFits slices operation) :
    (⟨slices⟩ : ReplayerRam romBits).operate operation = none := by
  simp only [SkipFits, not_forall] at unfit
  rcases unfit with ⟨numSnapshots, rfl, first, rest, rfl, long⟩
  rw [operate, skipIfReplaying]
  dsimp only
  rw [if_neg long]
  rfl

/-! ## Runs -/

theorem dropElements_ofEntries (count : Nat) (entries : List LogEntry) :
    (⟨dropElements count (ofEntries entries : ReplayerRam romBits).ramLog⟩ : ReplayerRam romBits) =
      ofEntries (entries.drop count) := by
  cases entries with
  | nil =>
      rw [List.drop_nil]
      rfl
  | cons entry rest =>
      have whole : (ofEntries (entry :: rest) : ReplayerRam romBits).ramLog = [entry :: rest] := rfl
      rw [whole]
      by_cases inside : count ≤ (entry :: rest).length
      · have none : ∀ slice ∈ ([] : List (List LogEntry)), slice ≠ [] :=
          fun _ member => absurd member List.not_mem_nil
        rw [← dropFront_eq_dropElements none inside]
        rfl
      · have past : (entry :: rest).length ≤ count := Nat.le_of_not_le inside
        rw [dropElements_of_le past, List.drop_eq_nil_of_le past]
        rfl

/-- The uncut log answers from its entries, or not at all. -/
theorem operate_ofEntries (entries : List LogEntry) (operation : ReplayOperation) :
    (ofEntries entries : ReplayerRam romBits).operate operation =
      (answerFrom entries operation).map fun answer =>
        (answer, ofEntries (entries.drop operation.consumed)) := by
  have nonEmpty : ∀ slice ∈ (ofEntries entries : ReplayerRam romBits).ramLog, slice ≠ [] := by
    cases entries with
    | nil => exact fun _ member => absurd member List.not_mem_nil
    | cons entry rest =>
        intro slice member
        rw [List.mem_singleton.mp member]
        exact List.cons_ne_nil entry rest
  by_cases fits : SkipFits (ofEntries entries : ReplayerRam romBits).ramLog operation
  · have answered : (ofEntries entries : ReplayerRam romBits).operate operation = _ :=
      operate_eq nonEmpty fits
    rw [(holds_ofEntries entries).flatten_eq, dropElements_ofEntries] at answered
    exact answered
  · have stopped : (ofEntries entries : ReplayerRam romBits).operate operation = none :=
      operate_none fits
    rw [stopped]
    simp only [SkipFits, not_forall] at fits
    rcases fits with ⟨numSnapshots, rfl, first, rest, shape, long⟩
    cases entries with
    | nil => cases shape
    | cons entry others =>
        cases shape
        rw [answerFrom, if_neg (fun whole => long whole.2)]
        rfl

theorem operateAll_ofEntries (entries : List LogEntry) (operations : List ReplayOperation) :
    (ofEntries entries : ReplayerRam romBits).operateAll operations =
      (answersFrom entries operations).map fun result => (result.1, ofEntries result.2) := by
  induction operations generalizing entries with
  | nil => rfl
  | cons operation operations inductionHypothesis =>
      rw [operateAll, operate_ofEntries, answersFrom]
      cases answerFrom entries operation with
      | none => rfl
      | some answer =>
          simp only [Option.map_some, Option.bind_eq_bind, Option.bind_some, inductionHypothesis]
          cases answersFrom (entries.drop operation.consumed) operations <;> rfl

/-- With skips that fit, the slices answer like the entries; otherwise they do not answer. -/
theorem operateAll_slices (nonEmpty : ∀ slice ∈ slices, slice ≠ [])
    {operations : List ReplayOperation} {answers : List ReplayAnswer} {left : List LogEntry}
    (uncut : answersFrom slices.flatten operations = some (answers, left)) :
    CutInvisible romBits slices operations answers left ↔ SkipsFit slices operations := by
  induction operations generalizing slices answers with
  | nil =>
      cases uncut
      exact ⟨fun _ => trivial, fun _ => ⟨⟨slices⟩, rfl, rfl⟩⟩
  | cons operation operations inductionHypothesis =>
      rw [answersFrom] at uncut
      rcases Option.bind_eq_some_iff.mp uncut with ⟨answer, answered, afterAnswer⟩
      rcases Option.bind_eq_some_iff.mp afterAnswer with ⟨⟨others, rest⟩, remaining, same⟩
      cases same
      rw [← flatten_dropElements] at remaining
      have induced := inductionHypothesis (ne_nil_of_mem_dropElements operation.consumed nonEmpty)
        remaining
      rw [SkipsFit, ← induced]
      constructor
      · rintro ⟨ram, ran, kept⟩
        rw [operateAll] at ran
        by_cases fits : SkipFits slices operation
        · rw [operate_eq nonEmpty fits, answered, Option.map_some, Option.bind_eq_bind,
            Option.bind_some] at ran
          rcases Option.bind_eq_some_iff.mp ran with ⟨⟨later, final⟩, run, whole⟩
          cases whole
          exact ⟨fits, ram, run, kept⟩
        · rw [operate_none fits] at ran
          cases ran
      · rintro ⟨fits, ram, ran, kept⟩
        refine ⟨ram, ?_, kept⟩
        rw [operateAll, operate_eq nonEmpty fits, answered]
        simp only [Option.map_some, Option.bind_eq_bind, Option.bind_some, ran, Option.pure_def]

end ReplayerRam

/-- The way the log is cut is invisible exactly when no slice ends inside of a skip. -/
theorem cutInvisible_iff_skipsWithinSlices {romBits : Nat} {slices : List (List LogEntry)}
    {entries : List LogEntry} (cuts : Cuts slices entries) {operations : List ReplayOperation}
    {answers : List ReplayAnswer} {rest : ReplayerRam romBits}
    (uncut : (ReplayerRam.ofEntries entries : ReplayerRam romBits).operateAll operations =
      some (answers, rest)) :
    CutInvisible romBits slices operations answers rest.ramLog.flatten ↔
      SkipsWithinSlices slices operations := by
  rw [ReplayerRam.operateAll_ofEntries, Option.map_eq_some_iff] at uncut
  rcases uncut with ⟨⟨_, left⟩, ran, same⟩
  cases same
  rw [(ReplayerRam.holds_ofEntries left).flatten_eq, ← skipsFit_iff_skipsWithinSlices cuts.nonEmpty]
  rw [← cuts.flatten] at ran
  exact ReplayerRam.operateAll_slices cuts.nonEmpty ran

/-- A read and a skip of two entries use up a slice of three. -/
theorem cutInvisible_iff_skipsWithinSlices_three :
    CutInvisible 0 [[(5, (1, 0)), (6, (2, 0)), (7, (3, 0))], [(8, (4, 0))]]
        [.readWord, .skipIfReplaying 2, .peekWord] [.found 1 5, .skipped, .peeked 8]
        [(8, (4, 0))] ↔
      SkipsWithinSlices [[(5, (1, 0)), (6, (2, 0)), (7, (3, 0))], [(8, (4, 0))]]
        [.readWord, .skipIfReplaying 2, .peekWord] := by
  have cuts : Cuts [[(5, (1, 0)), (6, (2, 0)), (7, (3, 0))], [(8, (4, 0))]]
      [(5, (1, 0)), (6, (2, 0)), (7, (3, 0)), (8, (4, 0))] := ⟨by decide, rfl⟩
  have uncut : (ReplayerRam.ofEntries [(5, (1, 0)), (6, (2, 0)), (7, (3, 0)), (8, (4, 0))] :
      ReplayerRam 0).operateAll [.readWord, .skipIfReplaying 2, .peekWord] =
        some ([.found 1 5, .skipped, .peeked 8], ⟨[[(8, (4, 0))]]⟩) := rfl
  exact cutInvisible_iff_skipsWithinSlices cuts uncut

/-! ## The log of several buffers -/

/-- The slices of a range of a log that was pushed to several buffers are a way to cut it. -/
theorem cuts_makeRange {I O : Nat} {empty vec : SpecBiVec LogEntry} {entries : List LogEntry}
    (created : SpecBiVec.new I O = some empty) (pushed : empty.pushAll I entries = some vec)
    {start stop : Nat} (nonEmpty : start < stop) (inside : stop ≤ entries.length) :
    ∃ slices, vec.makeRange I start stop = some slices ∧
      Cuts slices ((entries.take stop).drop start) := by
  have holds := (SpecBiVec.holds_new created).pushAll pushed
  rw [List.nil_append] at holds
  rcases holds.makeRange nonEmpty inside with ⟨slices, computed, parts, flatten⟩
  exact ⟨slices, computed, parts, flatten⟩

/-- The sixteen entries of a big integer in buffers of ten: the skip goes past the first slice. -/
theorem not_cutInvisible_over_two_buffers :
    ∃ (vec : SpecBiVec LogEntry) (slices : List (List LogEntry)),
      ((SpecBiVec.new 10 4).bind fun empty =>
        empty.pushAll 10 (List.replicate 17 (0, (0, 0)))) = some vec ∧
      vec.makeRange 10 0 17 = some slices ∧ Cuts slices (List.replicate 17 (0, (0, 0))) ∧
      (ReplayerRam.ofEntries (List.replicate 17 (0, (0, 0))) : ReplayerRam 0).operateAll
        [.skipIfReplaying 16, .readWord] = some ([.skipped, .found 0 0], ⟨[]⟩) ∧
      ¬ CutInvisible 0 slices [.skipIfReplaying 16, .readWord] [.skipped, .found 0 0] [] := by
  refine ⟨⟨1, 17, [List.replicate 10 (0, (0, 0)), List.replicate 7 (0, (0, 0)), [], []]⟩,
    [List.replicate 10 (0, (0, 0)), List.replicate 7 (0, (0, 0))], rfl, rfl, ⟨by decide, rfl⟩,
    rfl, ?_⟩
  rintro ⟨_, ran, _⟩
  cases ran

end Airbender
