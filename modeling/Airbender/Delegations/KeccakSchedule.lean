import Airbender.Delegations.Keccak
import Mathlib.Tactic.FinCases
import Mathlib.Logic.Function.Basic

/-!
# The schedule of special5 steps

Every round of the permutation takes 27 steps.  A stage names what one of them
does in the standard layout of the lanes; the permutation of the round says
where those lanes live.
-/

namespace Airbender.Keccak

/-- The words as a function of their position. -/
abbrev Lanes := Fin 31 → U64

/-! ## Lanes in place -/

/-- Where lane `i` lives before round `round`; scratch words never move. -/
def place (round : Nat) (i : Fin 31) : Fin 31 :=
  if i.val < 25 then
    Fin.ofNat 31 ((permutationsAdjusted.getD round []).getD i.val 0)
  else
    i

/-- The lane that the step pi moves to position `i`. -/
def piSource : Fin 31 → Fin 31 :=
  ![0, 6, 12, 18, 24, 3, 9, 10, 16, 22, 1, 7, 13, 19, 20, 4, 5, 11, 17, 23, 2, 8, 14, 15,
    21, 25, 26, 27, 28, 29, 30]

/-- Moving on to the next permutation performs the step pi. -/
theorem place_succ {round : Nat} (bounded : round < 24) (i : Fin 31) :
    place (round + 1) i = place round (piSource i) := by
  have check :
      ∀ (round : Fin 24) (i : Fin 31),
        place (round + 1) i = place round (piSource i) := by
    decide +kernel
  exact check ⟨round, bounded⟩ i

theorem place_zero : place 0 = id := by
  have check : ∀ i : Fin 31, place 0 i = i := by
    decide +kernel
  funext i
  exact check i

theorem piSource_injective : Function.Injective piSource := by
  decide

theorem place_injective {round : Nat} (bounded : round < 25) :
    Function.Injective (place round) := by
  induction round with
  | zero =>
      rw [place_zero]
      exact Function.injective_id
  | succ round inductionHypothesis =>
      have next : place (round + 1) = place round ∘ piSource :=
        funext (place_succ (Nat.lt_of_succ_lt_succ bounded))
      rw [next]
      exact (inductionHypothesis (Nat.lt_of_succ_lt bounded)).comp piSource_injective

theorem place_last : place 24 = id := by
  have check : ∀ i : Fin 31, place 24 i = i := by
    decide +kernel
  funext i
  exact check i

/-- The words in the standard layout of round `round`. -/
def view (round : Nat) (words : Words) : Lanes :=
  fun i => words[place round i]

/-! ## Writing six lanes -/

def writeLanes (lanes : Lanes) (positions : Fin 6 → Fin 31) (outputs : Fin 6 → U64) :
    Lanes :=
  (List.finRange 6).foldl
    (fun lanes j => Function.update lanes (positions j) (outputs j)) lanes

theorem view_set
    {round : Nat} (bounded : round < 25) (words : Words) (i : Fin 31) (value : U64) :
    view round (words.set (place round i) value) =
      Function.update (view round words) i value := by
  funext j
  by_cases same : j = i
  · subst same
    simp [view]
  · have different : place round i ≠ place round j := fun samePlace =>
      same (place_injective bounded samePlace).symm
    have differentValue : (place round i).val ≠ (place round j).val := fun sameValue =>
      different (Fin.ext sameValue)
    simp [view, same, differentValue]

theorem view_scatter
    {round : Nat} (bounded : round < 25) (words : Words)
    (positions : Fin 6 → Fin 31) (outputs : Fin 6 → U64) :
    view round (scatter words (fun j => place round (positions j)) outputs) =
      writeLanes (view round words) positions outputs := by
  have fold :
      ∀ (order : List (Fin 6)) (words : Words),
        view round
            (order.foldl
              (fun words j => words.set (place round (positions j)) (outputs j)) words) =
          order.foldl (fun lanes j => Function.update lanes (positions j) (outputs j))
            (view round words) := by
    intro order
    induction order with
    | nil => intro words; rfl
    | cons j rest inductionHypothesis =>
        intro words
        rw [List.foldl_cons, List.foldl_cons, inductionHypothesis, view_set bounded]
  exact fold (List.finRange 6) words

/-! ## Stages -/

/-- The seven precompiles with the column or row they work on. -/
inductive Stage where
  | iotaColumnxor (column : Fin 5)
  | columnmix1
  | columnmix2
  | theta (column : Fin 5)
  | rho (column : Fin 5)
  | chi1 (row : Fin 5)
  | chi2 (row : Fin 5)
deriving DecidableEq, Repr

namespace Stage

def precompile : Stage → U32
  | iotaColumnxor _ => precompileIotaColumnxor
  | columnmix1 => precompileColumnmix1
  | columnmix2 => precompileColumnmix2
  | theta _ => precompileTheta
  | rho _ => precompileRho
  | chi1 _ => precompileChi1
  | chi2 _ => precompileChi2

def iteration : Stage → Nat
  | iotaColumnxor column => column
  | columnmix1 => 0
  | columnmix2 => 0
  | theta column => column
  | rho column => column
  | chi1 row => row
  | chi2 row => row

/-- The two chi steps already address the lanes by the next permutation. -/
def afterPi : Stage → Nat
  | chi1 _ => 1
  | chi2 _ => 1
  | _ => 0

def columnPositions (column : Fin 5) (scratch : Nat) : Fin 6 → Fin 31 :=
  ![Fin.ofNat 31 column, Fin.ofNat 31 (column + 5), Fin.ofNat 31 (column + 10),
    Fin.ofNat 31 (column + 15), Fin.ofNat 31 (column + 20), Fin.ofNat 31 scratch]

def positions : Stage → Fin 6 → Fin 31
  | iotaColumnxor column => columnPositions column (25 + column)
  | columnmix1 => ![25, 26, 27, 28, 29, 30]
  | columnmix2 => ![25, 26, 27, 28, 29, 30]
  | theta column => columnPositions column (![29, 25, 26, 27, 28] column)
  | rho column => columnPositions column 25
  | chi1 row =>
      ![Fin.ofNat 31 (row * 5 + 1), Fin.ofNat 31 (row * 5 + 2), Fin.ofNat 31 (row * 5 + 3),
        Fin.ofNat 31 (row * 5 + 4), 25, 26]
  | chi2 row =>
      ![Fin.ofNat 31 (row * 5), Fin.ofNat 31 (row * 5 + 3), Fin.ofNat 31 (row * 5 + 4),
        25, 26, 27]

def rotations : Fin 5 → Fin 5 → Nat :=
  ![![0, 36, 3, 41, 18], ![1, 44, 10, 45, 2], ![62, 6, 43, 15, 61],
    ![28, 55, 25, 21, 56], ![27, 20, 39, 8, 14]]

/-- The six outputs of a stage; `constant` is the round constant of the round. -/
def outputs (constant : U64) : Stage → (Fin 6 → U64) → Fin 6 → U64
  | iotaColumnxor column, v =>
      let idx0 := if column = 0 then v 0 ^^^ constant else v 0
      ![idx0, v 1, v 2, v 3, v 4, idx0 ^^^ v 1 ^^^ v 2 ^^^ v 3 ^^^ v 4]
  | columnmix1, v =>
      ![v 0 ^^^ (v 2).rotateLeft 1, v 1, v 2 ^^^ (v 4).rotateLeft 1, v 3, v 4,
        (v 0).rotateLeft 1]
  | columnmix2, v =>
      ![v 0, v 1 ^^^ (v 3).rotateLeft 1, v 2, v 3 ^^^ v 5, v 4 ^^^ (v 1).rotateLeft 1, v 5]
  | theta _, v =>
      ![v 0 ^^^ v 5, v 1 ^^^ v 5, v 2 ^^^ v 5, v 3 ^^^ v 5, v 4 ^^^ v 5, v 5]
  | rho column, v =>
      ![(v 0).rotateLeft (rotations column 0), (v 1).rotateLeft (rotations column 1),
        (v 2).rotateLeft (rotations column 2), (v 3).rotateLeft (rotations column 3),
        (v 4).rotateLeft (rotations column 4), v 5]
  | chi1 _, v =>
      ![v 0 ^^^ (~~~v 1 &&& v 2), v 1 ^^^ (~~~v 2 &&& v 3), v 2, v 3, ~~~v 0 &&& v 1, v 0]
  | chi2 _, v =>
      ![v 0 ^^^ v 3, v 1 ^^^ (~~~v 2 &&& v 0), v 2 ^^^ (~~~v 0 &&& v 4), v 3, v 4, v 5]

theorem positions_injective (stage : Stage) :
    Function.Injective stage.positions := by
  cases stage with
  | columnmix1 => decide
  | columnmix2 => decide
  | iotaColumnxor column => revert column; decide
  | theta column => revert column; decide
  | rho column => revert column; decide
  | chi1 row => revert row; decide
  | chi2 row => revert row; decide

end Stage

/-- The stages of one round, in order. -/
def schedule : Vector Stage 27 :=
  #v[.iotaColumnxor 0, .iotaColumnxor 1, .iotaColumnxor 2, .iotaColumnxor 3,
    .iotaColumnxor 4, .columnmix1, .columnmix2,
    .theta 0, .theta 1, .theta 2, .theta 3, .theta 4,
    .rho 0, .rho 1, .rho 2, .rho 3, .rho 4,
    .chi1 0, .chi2 0, .chi1 1, .chi2 1, .chi1 2, .chi2 2, .chi1 3, .chi2 3,
    .chi1 4, .chi2 4]

/-! ## A step and its stage -/

theorem decodeControl_encodeControl (stage : Stage) {round : Nat} (bounded : round < 25) :
    decodeControl (encodeControl stage.precompile stage.iteration round) =
      (stage.precompile, stage.iteration, round) := by
  have check :
      ∀ (precompile : Fin 7) (iteration : Fin 5) (round : Fin 25),
        decodeControl (encodeControl (BitVec.ofNat 32 precompile) iteration round) =
          (BitVec.ofNat 32 precompile, iteration.val, round.val) := by
    decide +kernel
  cases stage with
  | iotaColumnxor column => exact check 0 column ⟨round, bounded⟩
  | columnmix1 => exact check 1 0 ⟨round, bounded⟩
  | columnmix2 => exact check 2 0 ⟨round, bounded⟩
  | theta column => exact check 3 column ⟨round, bounded⟩
  | rho column => exact check 4 column ⟨round, bounded⟩
  | chi1 row => exact check 5 row ⟨round, bounded⟩
  | chi2 row => exact check 6 row ⟨round, bounded⟩

/-- The six positions a stage touches in a given round. -/
def physicalPositions (stage : Stage) (round : Nat) (j : Fin 6) : Fin 31 :=
  place (round + stage.afterPi) (stage.positions j)

theorem physicalPositions_injective
    (stage : Stage) {round : Nat} (bounded : round + stage.afterPi < 25) :
    Function.Injective (physicalPositions stage round) :=
  (place_injective bounded).comp stage.positions_injective

theorem extractIndices_stage
    (stage : Stage) {round : Nat} (bounded : round + stage.afterPi < 25) :
    extractIndices stage.precompile stage.iteration round =
      some fun j => (physicalPositions stage round j).val := by
  cases stage with
  | iotaColumnxor column =>
      have check :
          ∀ (column : Fin 5) (round : Fin 25),
            extractIndices precompileIotaColumnxor column round =
              some fun j => (physicalPositions (.iotaColumnxor column) round j).val := by
        decide +kernel
      exact check column ⟨round, bounded⟩
  | columnmix1 =>
      refine congrArg some (funext fun j => ?_)
      fin_cases j <;> rfl
  | columnmix2 =>
      refine congrArg some (funext fun j => ?_)
      fin_cases j <;> rfl
  | theta column =>
      have check :
          ∀ (column : Fin 5) (round : Fin 25),
            extractIndices precompileTheta column round =
              some fun j => (physicalPositions (.theta column) round j).val := by
        decide +kernel
      exact check column ⟨round, bounded⟩
  | rho column =>
      have check :
          ∀ (column : Fin 5) (round : Fin 25),
            extractIndices precompileRho column round =
              some fun j => (physicalPositions (.rho column) round j).val := by
        decide +kernel
      exact check column ⟨round, bounded⟩
  | chi1 row =>
      have check :
          ∀ (row : Fin 5) (round : Fin 24),
            extractIndices precompileChi1 row round =
              some fun j => (physicalPositions (.chi1 row) round j).val := by
        decide +kernel
      exact check row ⟨round, Nat.lt_of_succ_lt_succ bounded⟩
  | chi2 row =>
      have check :
          ∀ (row : Fin 5) (round : Fin 24),
            extractIndices precompileChi2 row round =
              some fun j => (physicalPositions (.chi2 row) round j).val := by
        decide +kernel
      exact check row ⟨round, Nat.lt_of_succ_lt_succ bounded⟩

theorem boundsCheck_val (positions : Fin 6 → Fin 31) :
    boundsCheck (fun j => (positions j).val) = some positions := by
  have inBounds : ∀ j, (positions j).val < 31 := fun j => (positions j).isLt
  simp only [boundsCheck, inBounds, implies_true, dite_true]

/-- The constant xored into lane 0 at the start of a round. -/
def roundConstant (round : Nat) : U64 :=
  roundConstantsAdjusted.getD round 0

theorem roundConstantsAdjusted_getElem {round : Nat} (bounded : round < 25) :
    roundConstantsAdjusted[round]? = some (roundConstant round) := by
  have inBounds : round < roundConstantsAdjusted.length := bounded
  rw [roundConstant, List.getD_eq_getElem?_getD, List.getElem?_eq_getElem inBounds]
  rfl

theorem computeOutputs_stage
    (stage : Stage) {round : Nat} (bounded : round < 25) (inputs : Fin 6 → U64) :
    computeOutputs stage.precompile stage.iteration round inputs =
      some (stage.outputs (roundConstant round) inputs) := by
  cases stage with
  | iotaColumnxor column =>
      by_cases first : column = 0
      · subst first
        simp [Stage.precompile, Stage.iteration, Stage.outputs, computeOutputs,
          roundConstantsAdjusted_getElem bounded]
      · have notFirst : column.val ≠ 0 := fun zero => first (Fin.ext zero)
        simp [Stage.precompile, Stage.iteration, Stage.outputs, computeOutputs, first,
          notFirst, roundConstantsAdjusted]
  | columnmix1 => rfl
  | columnmix2 => rfl
  | theta column => rfl
  | rho column => fin_cases column <;> rfl
  | chi1 row => rfl
  | chi2 row => rfl

/-- One special5 step, stage by stage. -/
theorem singleStep_stage
    (stage : Stage) {round : Nat} (bounded : round + stage.afterPi < 25)
    {nextControl : U32}
    (bump : bumpControl stage.precompile stage.iteration round = some nextControl)
    (words : Words) :
    singleStep (encodeControl stage.precompile stage.iteration round) words =
      some (nextControl,
        scatter words (physicalPositions stage round)
          (stage.outputs (roundConstant round)
            fun j => words[physicalPositions stage round j])) := by
  have roundBound : round < 25 := by omega
  simp only [singleStep, decodeControl_encodeControl stage roundBound, bump,
    extractIndices_stage stage bounded, boundsCheck_val,
    computeOutputs_stage stage roundBound, Option.bind_eq_bind, Option.bind_some]

/-! ## The run through the schedule -/

/-- The stage of step `count`, counted from the first step of the permutation. -/
def stageAt (count : Nat) : Stage :=
  schedule.get ⟨count % 27, Nat.mod_lt _ (by decide)⟩

def roundAt (count : Nat) : Nat := count / 27

def scheduledControl (count : Nat) : U32 :=
  encodeControl (stageAt count).precompile (stageAt count).iteration (roundAt count)

def positionsAt (count : Nat) : Fin 6 → Fin 31 :=
  physicalPositions (stageAt count) (roundAt count)

/-- The 649 steps end at the first step of the round after the last one. -/
theorem roundAt_add_afterPi_lt {count : Nat} (inRun : count < 649) :
    roundAt count + (stageAt count).afterPi < 25 := by
  by_cases last : count = 648
  · subst last
    decide
  · have early : count / 27 < 24 := by omega
    have afterPiLe : (stageAt count).afterPi ≤ 1 := by
      cases stageAt count <;> simp [Stage.afterPi]
    rw [roundAt]
    omega

theorem bumpControl_schedule (index : Fin 27) (round : Nat) :
    bumpControl (schedule.get index).precompile (schedule.get index).iteration round =
      some (encodeControl (schedule.get (index + 1)).precompile
        (schedule.get (index + 1)).iteration (if index = 26 then round + 1 else round)) := by
  fin_cases index <;> rfl

theorem bumpControl_scheduled (count : Nat) :
    bumpControl (stageAt count).precompile (stageAt count).iteration (roundAt count) =
      some (scheduledControl (count + 1)) := by
  have bump := bumpControl_schedule ⟨count % 27, Nat.mod_lt _ (by decide)⟩ (roundAt count)
  have nextIndex :
      (⟨count % 27, Nat.mod_lt _ (by decide)⟩ : Fin 27) + 1 =
        ⟨(count + 1) % 27, Nat.mod_lt _ (by decide)⟩ := by
    apply Fin.ext
    simp only [Fin.val_add, Fin.val_one]
    omega
  have nextRound :
      (if (⟨count % 27, Nat.mod_lt _ (by decide)⟩ : Fin 27) = 26 then
        roundAt count + 1 else roundAt count) = roundAt (count + 1) := by
    simp only [Fin.ext_iff, roundAt]
    split <;> rename_i last <;> simp at last <;> omega
  simp only [nextIndex, nextRound] at bump
  exact bump

/-- The words after one step at a known place in the schedule. -/
def scheduledStep (count : Nat) (words : Words) : Words :=
  scatter words (positionsAt count)
    ((stageAt count).outputs (roundConstant (roundAt count))
      fun j => words[positionsAt count j])

theorem singleStep_scheduled {count : Nat} (inRun : count < 649) (words : Words) :
    singleStep (scheduledControl count) words =
      some (scheduledControl (count + 1), scheduledStep count words) :=
  singleStep_stage (stageAt count) (roundAt_add_afterPi_lt inRun)
    (bumpControl_scheduled count) words

end Airbender.Keccak
