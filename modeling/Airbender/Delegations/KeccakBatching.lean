import Airbender.Delegations.KeccakSchedule
import Mathlib.Data.Finset.Max

/-!
# Batched Keccak steps

The 649 special5 steps compute the words of the batched permutation.  Seen in
the layout of its round, each step works on fixed lanes; the rounds are then
those of the standard permutation with the constant xored in one round late.
-/

namespace Airbender.Keccak

/-- `count` steps in a row. -/
def singleSteps : Nat → U32 → Words → Option (U32 × Words)
  | 0, control, words => some (control, words)
  | count + 1, control, words => do
      let (control, words) ← singleSteps count control words
      singleStep control words

/-- The words after the first `count` steps of the schedule. -/
def wordsAt (words : Words) : Nat → Words
  | 0 => words
  | count + 1 => scheduledStep count (wordsAt words count)

theorem singleSteps_scheduled (words : Words) {count : Nat} (inRun : count ≤ 649) :
    singleSteps count initialKeccakF1600ControlValue words =
      some (scheduledControl count, wordsAt words count) := by
  induction count with
  | zero => rfl
  | succ count inductionHypothesis =>
      rw [singleSteps, inductionHypothesis (Nat.le_of_succ_le inRun)]
      exact singleStep_scheduled inRun (wordsAt words count)

/-! ## Stages in the layout of the round -/

/-- The effect of a stage on the lanes it sees. -/
def applyStage (constant : U64) (lanes : Lanes) (stage : Stage) : Lanes :=
  writeLanes lanes stage.positions
    (stage.outputs constant fun j => lanes (stage.positions j))

theorem view_scheduledStep {count : Nat} (inRun : count < 649) (words : Words) :
    view (roundAt count + (stageAt count).afterPi) (scheduledStep count words) =
      applyStage (roundConstant (roundAt count))
        (view (roundAt count + (stageAt count).afterPi) words) (stageAt count) :=
  view_scatter (roundAt_add_afterPi_lt inRun) words (stageAt count).positions _

/-- A stretch of steps that all see the lanes in the layout of `layout`. -/
theorem view_wordsAt_add
    (words : Words) {start round layout : Nat} {count : Nat}
    (inRun : start + count ≤ 649)
    (sameRound : ∀ j < count, roundAt (start + j) = round)
    (sameLayout : ∀ j < count, round + (stageAt (start + j)).afterPi = layout) :
    view layout (wordsAt words (start + count)) =
      ((List.range count).map fun j => stageAt (start + j)).foldl
        (applyStage (roundConstant round)) (view layout (wordsAt words start)) := by
  induction count with
  | zero => rfl
  | succ count inductionHypothesis =>
      have previous := inductionHypothesis (by omega)
        (fun j bound => sameRound j (Nat.lt_succ_of_lt bound))
        (fun j bound => sameLayout j (Nat.lt_succ_of_lt bound))
      have step := view_scheduledStep (show start + count < 649 by omega)
        (wordsAt words (start + count))
      rw [sameRound count (Nat.lt_succ_self count),
        sameLayout count (Nat.lt_succ_self count)] at step
      rw [List.range_succ, List.map_append, List.foldl_append, ← previous]
      exact step

theorem stageAt_add (round index : Nat) :
    stageAt (27 * round + index) = stageAt index := by
  have sameIndex : (27 * round + index) % 27 = index % 27 := by omega
  simp only [stageAt, sameIndex]

theorem afterPi_stageAt (round : Nat) {index : Nat} (bounded : index < 27) :
    (stageAt (27 * round + index)).afterPi = if index < 17 then 0 else 1 := by
  have check :
      ∀ index : Fin 27, (stageAt index).afterPi = if index.val < 17 then 0 else 1 := by
    decide
  rw [stageAt_add]
  exact check ⟨index, bounded⟩

theorem roundAt_add (round : Nat) {index : Nat} (bounded : index < 27) :
    roundAt (27 * round + index) = round := by
  rw [roundAt]
  omega

/-! ## Phases of a round -/

/-- The xor of column `x`. -/
def parity (lanes : Lanes) (x : Fin 5) : U64 :=
  lanes (Fin.ofNat 31 x) ^^^ lanes (Fin.ofNat 31 (x + 5)) ^^^ lanes (Fin.ofNat 31 (x + 10))
    ^^^ lanes (Fin.ofNat 31 (x + 15)) ^^^ lanes (Fin.ofNat 31 (x + 20))

def thetaLane (lanes : Lanes) (x : Fin 5) : U64 :=
  parity lanes (x + 4) ^^^ (parity lanes (x + 1)).rotateLeft 1

def iotaLanes (constant : U64) (lanes : Lanes) : Lanes :=
  Function.update lanes 0 (lanes 0 ^^^ constant)

/-- The lanes with the column parities in the first five scratch words. -/
def columnLanes (lanes : Lanes) (last : U64) : Lanes := fun i =>
  if i.val < 25 then lanes i else if i = 30 then last else parity lanes (Fin.ofNat 5 i.val)

/-- The lanes after theta, and what theta leaves in the scratch words. -/
def thetaLanes (lanes : Lanes) : Lanes := fun i =>
  if i.val < 25 then
    lanes i ^^^ thetaLane lanes (Fin.ofNat 5 i.val)
  else if i = 30 then
    (parity lanes 0).rotateLeft 1
  else
    thetaLane lanes (Fin.ofNat 5 (i.val + 1))

def rhoLanes (lanes : Lanes) : Lanes := fun i =>
  if i.val < 25 then
    (lanes i).rotateLeft (Stage.rotations (Fin.ofNat 5 i.val) (Fin.ofNat 5 (i.val / 5)))
  else
    lanes i

def chiLane (lanes : Lanes) (i : Nat) : U64 :=
  lanes (Fin.ofNat 31 i) ^^^
    (~~~lanes (Fin.ofNat 31 (5 * (i / 5) + (i % 5 + 1) % 5)) &&&
      lanes (Fin.ofNat 31 (5 * (i / 5) + (i % 5 + 2) % 5)))

/-- The lanes after chi; the last row leaves two of its lanes in scratch words. -/
def chiLanes (lanes : Lanes) : Lanes := fun i =>
  if i.val < 25 then
    chiLane lanes i
  else if i = 25 then
    ~~~lanes 21 &&& lanes 22
  else if i = 26 then
    lanes 21
  else
    lanes i

theorem iota_phase (constant : U64) (lanes : Lanes) :
    [Stage.iotaColumnxor 0, .iotaColumnxor 1, .iotaColumnxor 2, .iotaColumnxor 3,
        .iotaColumnxor 4].foldl (applyStage constant) lanes =
      columnLanes (iotaLanes constant lanes) (lanes 30) := by
  funext i
  fin_cases i <;> rfl

theorem theta_phase (constant : U64) (lanes : Lanes) (last : U64) :
    [Stage.columnmix1, .columnmix2, .theta 0, .theta 1, .theta 2, .theta 3,
        .theta 4].foldl (applyStage constant) (columnLanes lanes last) =
      thetaLanes lanes := by
  funext i
  fin_cases i <;> rfl

theorem rho_phase (constant : U64) (lanes : Lanes) :
    [Stage.rho 0, .rho 1, .rho 2, .rho 3, .rho 4].foldl (applyStage constant) lanes =
      rhoLanes lanes := by
  funext i
  fin_cases i <;> rfl

/-- The two chi steps of one row. -/
def chiRow (lanes : Lanes) (row : Fin 5) : Lanes := fun i =>
  if i.val / 5 = row then
    chiLane lanes i
  else if i = 25 then
    ~~~lanes (Fin.ofNat 31 (row * 5 + 1)) &&& lanes (Fin.ofNat 31 (row * 5 + 2))
  else if i = 26 then
    lanes (Fin.ofNat 31 (row * 5 + 1))
  else
    lanes i

theorem chi_row_phase (constant : U64) (lanes : Lanes) (row : Fin 5) :
    applyStage constant (applyStage constant lanes (.chi1 row)) (.chi2 row) =
      chiRow lanes row := by
  funext i
  fin_cases row <;> fin_cases i <;> rfl

theorem chi_phase (constant : U64) (lanes : Lanes) :
    [Stage.chi1 0, .chi2 0, .chi1 1, .chi2 1, .chi1 2, .chi2 2, .chi1 3, .chi2 3,
        .chi1 4, .chi2 4].foldl (applyStage constant) lanes =
      chiLanes lanes := by
  simp only [List.foldl_cons, List.foldl_nil, chi_row_phase]
  funext i
  fin_cases i <;> rfl

/-! ## One round of steps -/

/-- The constant first, then theta, rho, pi and chi. -/
def roundLanes (constant : U64) (lanes : Lanes) : Lanes :=
  chiLanes (rhoLanes (thetaLanes (iotaLanes constant lanes)) ∘ piSource)

theorem view_succ {round : Nat} (bounded : round < 24) (words : Words) :
    view (round + 1) words = view round words ∘ piSource := by
  funext i
  simp only [view, Function.comp_apply, place_succ bounded]

/-- The steps of a round before pi work on the layout of the round. -/
theorem view_wordsAt_beforePi (words : Words) {round : Nat} (bounded : round < 24) :
    view round (wordsAt words (27 * round + 17)) =
      rhoLanes (thetaLanes (iotaLanes (roundConstant round)
        (view round (wordsAt words (27 * round))))) := by
  have phases := view_wordsAt_add words (show 27 * round + 17 ≤ 649 by omega)
    (fun j inPhase => roundAt_add round (show j < 27 by omega))
    (fun j inPhase => by
      rw [afterPi_stageAt round (show j < 27 by omega), if_pos inPhase])
  have stages :
      ((List.range 17).map fun j => stageAt (27 * round + j)) =
        [.iotaColumnxor 0, .iotaColumnxor 1, .iotaColumnxor 2, .iotaColumnxor 3,
            .iotaColumnxor 4]
          ++ [.columnmix1, .columnmix2, .theta 0, .theta 1, .theta 2, .theta 3, .theta 4]
          ++ [.rho 0, .rho 1, .rho 2, .rho 3, .rho 4] := by
    simp only [stageAt_add]
    rfl
  rw [Nat.add_zero] at phases
  rw [phases, stages, List.foldl_append, List.foldl_append, iota_phase, theta_phase,
    rho_phase]

/-- The chi steps work on the layout of the next round. -/
theorem view_wordsAt_afterPi (words : Words) {round : Nat} (bounded : round < 24) :
    view (round + 1) (wordsAt words (27 * round + 27)) =
      chiLanes (view (round + 1) (wordsAt words (27 * round + 17))) := by
  have phases := view_wordsAt_add words (show (27 * round + 17) + 10 ≤ 649 by omega)
    (fun j inPhase => by
      rw [Nat.add_assoc]
      exact roundAt_add round (show 17 + j < 27 by omega))
    (fun j inPhase => by
      rw [Nat.add_assoc, afterPi_stageAt round (show 17 + j < 27 by omega),
        if_neg (show ¬ 17 + j < 17 by omega)])
  have stages :
      ((List.range 10).map fun j => stageAt (27 * round + 17 + j)) =
        [.chi1 0, .chi2 0, .chi1 1, .chi2 1, .chi1 2, .chi2 2, .chi1 3, .chi2 3,
          .chi1 4, .chi2 4] := by
    simp only [Nat.add_assoc, stageAt_add]
    rfl
  rw [phases, stages, chi_phase]

theorem view_wordsAt_round (words : Words) {round : Nat} (bounded : round < 24) :
    view (round + 1) (wordsAt words (27 * (round + 1))) =
      roundLanes (roundConstant round) (view round (wordsAt words (27 * round))) := by
  rw [Nat.mul_succ, view_wordsAt_afterPi words bounded, view_succ bounded,
    view_wordsAt_beforePi words bounded, roundLanes]

/-! ## The batched permutation on lanes -/

def lanesOf (words : Words) : Lanes := fun i => words.get i

theorem view_zero (words : Words) : view 0 words = lanesOf words := by
  funext i
  simp only [view, place_zero, id]
  rfl

theorem view_last (words : Words) : view 24 words = lanesOf words := by
  funext i
  simp only [view, place_last, id]
  rfl

theorem lanesOf_injective {words words' : Words} (sameLanes : lanesOf words = lanesOf words') :
    words = words' := by
  apply Vector.ext
  intro i bound
  exact congrFun sameLanes ⟨i, bound⟩

theorem lanesOf_set (words : Words) (i : Fin 31) (value : U64) :
    lanesOf (words.set i value i.isLt) = Function.update (lanesOf words) i value := by
  have set := view_set (show 24 < 25 by omega) words i value
  simpa only [place_last, id, view_last] using set

theorem lanesOf_setAt (words : Words) (i : Nat) (bound : i < 31) (value : U64) :
    lanesOf (words.set i value bound) =
      Function.update (lanesOf words) ⟨i, bound⟩ value :=
  lanesOf_set words ⟨i, bound⟩ value

theorem columnParity_eq (words : Words) (x : Fin 5) :
    columnParity words x = parity (lanesOf words) x := by
  have sum :
      columnParity words x =
        0#64 ^^^ words[5 * 0 + x.val] ^^^ words[5 * 1 + x.val] ^^^ words[5 * 2 + x.val]
          ^^^ words[5 * 3 + x.val] ^^^ words[5 * 4 + x.val] := rfl
  rw [sum, BitVec.zero_xor]
  fin_cases x <;> rfl

theorem thetaTerm_eq (words : Words) (x : Fin 5) :
    thetaTerm words x = thetaLane (lanesOf words) x := by
  rw [thetaTerm, thetaLane, columnParity_eq, columnParity_eq]

theorem lanesOf_applyTheta (words : Words) (i : Fin 31) :
    lanesOf (applyTheta words) i =
      if i.val < 25 then
        lanesOf words i ^^^ thetaLane (lanesOf words) (Fin.ofNat 5 i.val)
      else
        lanesOf words i := by
  have entry : (applyTheta words).get i =
      if i.val < 25 then words.get i ^^^ thetaTerm words (Fin.ofNat 5 i.val) else words.get i :=
    Vector.getElem_ofFn i.isLt
  rw [lanesOf, entry, thetaTerm_eq]
  rfl

theorem lanesOf_applyChi (words : Words) (i : Fin 31) :
    lanesOf (applyChi words) i =
      if i.val < 25 then chiLane (lanesOf words) i else lanesOf words i := by
  have same : Fin.ofNat 31 i.val = i := Fin.ext (Nat.mod_eq_of_lt i.isLt)
  rw [chiLane, same]
  exact Vector.getElem_ofFn i.isLt

theorem lanesOf_applyTheta_eq (words : Words) :
    lanesOf (applyTheta words) = fun i : Fin 31 =>
      if i.val < 25 then
        lanesOf words i ^^^ thetaLane (lanesOf words) (Fin.ofNat 5 i.val)
      else
        lanesOf words i :=
  funext (lanesOf_applyTheta words)

theorem lanesOf_applyIota (constant : U64) (words : Words) :
    lanesOf (applyIota constant words) = iotaLanes constant (lanesOf words) :=
  lanesOf_set words 0 (words[0] ^^^ constant)

theorem rotateLeft_zero (value : U64) : value.rotateLeft 0 = value := by
  simp [BitVec.rotateLeft_def, BitVec.ushiftRight_eq_zero]

/-- The chain of moves rotates every lane by its own amount and performs pi. -/
theorem lanesOf_applyRhoPi (words : Words) :
    lanesOf (applyRhoPi words) = rhoLanes (lanesOf words) ∘ piSource := by
  let move (current : Lanes × U64) (x : Fin 24) : Lanes × U64 :=
    (Function.update current.1 pi[x] (current.2.rotateLeft rho[x]), current.1 pi[x])
  have fold :
      ∀ (order : List (Fin 24)) (words : Words) (last : U64),
        lanesOf
            (order.foldl
              (fun (current : Words × U64) x =>
                let target : Fin 31 := pi[x]
                (current.1.set target (current.2.rotateLeft rho[x]), current.1[target]))
              (words, last)).1 =
          (order.foldl move (lanesOf words, last)).1 := by
    intro order
    induction order with
    | nil => intro words last; rfl
    | cons x rest inductionHypothesis =>
        intro words last
        rw [List.foldl_cons, List.foldl_cons, inductionHypothesis]
        simp only [move, lanesOf_set]
        rfl
  rw [applyRhoPi, fold]
  funext i
  by_cases first : i = 0
  · subst first
    exact (rotateLeft_zero (lanesOf words 0)).symm
  · revert first
    fin_cases i <;> intro first <;> first | rfl | exact absurd rfl first

/-! ## Lanes below the scratch words -/

/-- Two states with the same 25 lanes. -/
def SameLanes (lanes lanes' : Lanes) : Prop :=
  ∀ i : Fin 31, i.val < 25 → lanes i = lanes' i

theorem SameLanes.parity_eq {lanes lanes' : Lanes} (same : SameLanes lanes lanes')
    (x : Fin 5) : parity lanes x = parity lanes' x := by
  have lane : ∀ k ≤ 20, lanes (Fin.ofNat 31 (x + k)) = lanes' (Fin.ofNat 31 (x + k)) := by
    intro k bounded
    apply same
    simp only [Fin.ofNat_eq_cast, Fin.val_natCast]
    omega
  have lane0 : lanes (Fin.ofNat 31 x) = lanes' (Fin.ofNat 31 x) := lane 0 (by omega)
  rw [parity, parity, lane0, lane 5 (by omega), lane 10 (by omega), lane 15 (by omega),
    lane 20 (by omega)]

/-- Theta, with its scratch words, depends on the 25 lanes only. -/
theorem SameLanes.thetaLanes_eq {lanes lanes' : Lanes} (same : SameLanes lanes lanes') :
    thetaLanes lanes = thetaLanes lanes' := by
  funext i
  by_cases lane : i.val < 25
  · simp only [thetaLanes, thetaLane, lane, if_true, same.parity_eq, same i lane]
  · simp only [thetaLanes, thetaLane, lane, if_false, same.parity_eq]

theorem sameLanes_applyTheta (words : Words) :
    SameLanes (lanesOf (applyTheta words)) (thetaLanes (lanesOf words)) := by
  intro i lane
  rw [lanesOf_applyTheta, thetaLanes, if_pos lane, if_pos lane]

theorem SameLanes.rhoPi {lanes lanes' : Lanes} (same : SameLanes lanes lanes') :
    SameLanes (rhoLanes lanes ∘ piSource) (rhoLanes lanes' ∘ piSource) := by
  have stays : ∀ i : Fin 31, i.val < 25 → (piSource i).val < 25 := by
    decide
  intro i lane
  simp only [Function.comp_apply, rhoLanes, stays i lane, if_true,
    same (piSource i) (stays i lane)]

theorem SameLanes.chiLane_eq {lanes lanes' : Lanes} (same : SameLanes lanes lanes')
    {i : Nat} (bounded : i < 25) : chiLane lanes i = chiLane lanes' i := by
  have lane : ∀ k < 25, lanes (Fin.ofNat 31 k) = lanes' (Fin.ofNat 31 k) := by
    intro k small
    apply same
    simp only [Fin.ofNat_eq_cast, Fin.val_natCast]
    omega
  rw [chiLane, chiLane, lane i bounded, lane _ (by omega), lane _ (by omega)]

theorem SameLanes.chiLanes {lanes lanes' : Lanes} (same : SameLanes lanes lanes') :
    SameLanes (chiLanes lanes) (chiLanes lanes') := by
  intro i lane
  rw [Keccak.chiLanes, Keccak.chiLanes, if_pos lane, if_pos lane, same.chiLane_eq lane]

theorem sameLanes_applyChi (words : Words) :
    SameLanes (lanesOf (applyChi words)) (chiLanes (lanesOf words)) := by
  intro i lane
  rw [lanesOf_applyChi, chiLanes, if_pos lane, if_pos lane]

theorem SameLanes.iotaLanes {lanes lanes' : Lanes} (same : SameLanes lanes lanes')
    (constant : U64) : SameLanes (iotaLanes constant lanes) (iotaLanes constant lanes') := by
  intro i lane
  by_cases first : i = 0
  · subst first
    simp only [Keccak.iotaLanes, Function.update_self, same 0 lane]
  · simp only [Keccak.iotaLanes, Function.update_of_ne first, same i lane]

theorem SameLanes.trans {lanes lanes' lanes'' : Lanes}
    (left : SameLanes lanes lanes') (right : SameLanes lanes' lanes'') :
    SameLanes lanes lanes'' :=
  fun i lane => (left i lane).trans (right i lane)

/-- The constants of the steps are those of the permutation, one round later. -/
theorem roundConstant_succ (round : Fin 24) : roundConstant (round + 1) = rc.get round := by
  revert round
  decide

/-- A standard round is a round of steps with the constant taken at the end. -/
theorem sameLanes_keccakRound
    (round : Fin 24) {words : Words} {lanes : Lanes}
    (same : SameLanes (lanesOf words) (iotaLanes (roundConstant round) lanes)) :
    SameLanes (lanesOf (keccakRound round words))
      (iotaLanes (roundConstant (round + 1)) (roundLanes (roundConstant round) lanes)) := by
  have theta :
      SameLanes (lanesOf (applyTheta words))
        (thetaLanes (iotaLanes (roundConstant round) lanes)) := by
    rw [← same.thetaLanes_eq]
    exact sameLanes_applyTheta words
  have chi :
      SameLanes (lanesOf (applyChi (applyRhoPi (applyTheta words))))
        (roundLanes (roundConstant round) lanes) := by
    apply (sameLanes_applyChi _).trans
    rw [lanesOf_applyRhoPi, roundLanes]
    exact theta.rhoPi.chiLanes
  rw [keccakRound, lanesOf_applyIota, roundConstant_succ]
  exact chi.iotaLanes _

/-! ## The last round -/

/-- The words after theta with the scratch words the steps leave behind. -/
def thetaWithScratch (words : Words) : Words :=
  let lanes := applyTheta words
  let lanes := lanes.set (29 : Fin 31) (thetaTerm words 0)
  let lanes := lanes.set (27 : Fin 31) (thetaTerm words 3)
  let lanes := lanes.set (28 : Fin 31) (thetaTerm words 4)
  lanes.set (30 : Fin 31) ((columnParity words 0).rotateLeft 1)

/-- Words 25 and 26 are written again later and need not agree yet. -/
theorem lanesOf_thetaWithScratch
    (words : Words) {i : Fin 31} (not25 : i ≠ 25) (not26 : i ≠ 26) :
    lanesOf (thetaWithScratch words) i = thetaLanes (lanesOf words) i := by
  simp only [thetaWithScratch, lanesOf_setAt, lanesOf_applyTheta_eq, thetaTerm_eq,
    columnParity_eq]
  revert not25 not26
  fin_cases i <;> intro not25 not26 <;>
    first
    | rfl
    | exact absurd rfl not25
    | exact absurd rfl not26

theorem lanesOf_rhoPi_thetaWithScratch
    (words : Words) {i : Fin 31} (not25 : i ≠ 25) (not26 : i ≠ 26) :
    lanesOf (applyRhoPi (thetaWithScratch words)) i =
      (rhoLanes (thetaLanes (lanesOf words)) ∘ piSource) i := by
  have sourceNot25 : ∀ i : Fin 31, i ≠ 25 → piSource i ≠ 25 := by
    decide
  have sourceNot26 : ∀ i : Fin 31, i ≠ 26 → piSource i ≠ 26 := by
    decide
  rw [lanesOf_applyRhoPi, Function.comp_apply, Function.comp_apply, rhoLanes, rhoLanes,
    lanesOf_thetaWithScratch words (sourceNot25 i not25) (sourceNot26 i not26)]

theorem lanesOf_chi_of_scratch
    {words : Words} {lanes : Lanes}
    (agree : ∀ i : Fin 31, i ≠ 25 → i ≠ 26 → lanesOf words i = lanes i)
    {i : Fin 31} (not25 : i ≠ 25) {scratch : U64} (bound : 26 < 31)
    (copied : scratch = words.get 21) :
    lanesOf (applyChi (words.set 26 scratch bound)) i = chiLanes lanes i := by
  have same : SameLanes (lanesOf (words.set 26 scratch bound)) lanes := by
    intro i lane
    have not26 : i ≠ 26 := fun equal => absurd lane (by rw [equal]; decide)
    have not25 : i ≠ 25 := fun equal => absurd lane (by rw [equal]; decide)
    rw [lanesOf_setAt]
    exact (Function.update_of_ne not26 _ _).trans (agree i not25 not26)
  rw [lanesOf_applyChi, chiLanes]
  by_cases lane : i.val < 25
  · rw [if_pos lane, if_pos lane, same.chiLane_eq lane]
  · rw [if_neg lane, if_neg lane, if_neg not25, lanesOf_setAt]
    by_cases is26 : i = 26
    · subst is26
      rw [if_pos rfl, copied]
      exact (Function.update_self ..).trans (agree 21 (by decide) (by decide))
    · rw [if_neg is26]
      exact (Function.update_of_ne is26 _ _).trans (agree i not25 is26)

/-- The last step xors the constant in and leaves a column parity behind. -/
theorem applyStage_last (constant : U64) (lanes : Lanes) :
    applyStage constant lanes (.iotaColumnxor 0) =
      Function.update (iotaLanes constant lanes) 25
        (parity (iotaLanes constant lanes) 0) := by
  funext i
  fin_cases i <;> rfl

/-- The last round and the last step leave the same lanes and scratch words. -/
theorem lanesOf_finalRound (words : Words) :
    lanesOf (finalRound words) =
      applyStage (roundConstant 24)
        (chiLanes (rhoLanes (thetaLanes (lanesOf words)) ∘ piSource)) (.iotaColumnxor 0) := by
  let afterPi := applyRhoPi (thetaWithScratch words)
  let afterIota := applyIota rc[23] (applyChi (afterPi.set 26 afterPi[21]))
  have unfolded :
      finalRound words =
        afterIota.set 25
          (afterIota[0] ^^^ afterIota[5] ^^^ afterIota[10] ^^^ afterIota[15]
            ^^^ afterIota[20]) := rfl
  have chi : ∀ i : Fin 31, i ≠ 25 →
      lanesOf (applyChi (afterPi.set 26 afterPi[21])) i =
        chiLanes (rhoLanes (thetaLanes (lanesOf words)) ∘ piSource) i :=
    fun i not25 =>
      lanesOf_chi_of_scratch
        (fun i not25 not26 => lanesOf_rhoPi_thetaWithScratch words not25 not26) not25 _ rfl
  have iota : ∀ i : Fin 31, i ≠ 25 →
      lanesOf afterIota i =
        iotaLanes rc[23] (chiLanes (rhoLanes (thetaLanes (lanesOf words)) ∘ piSource)) i := by
    intro i not25
    rw [lanesOf_applyIota, iotaLanes, iotaLanes, chi 0 (by decide)]
    by_cases first : i = 0
    · rw [first, Function.update_self, Function.update_self]
    · rw [Function.update_of_ne first, Function.update_of_ne first, chi i not25]
  have column :
      SameLanes (lanesOf afterIota)
        (iotaLanes rc[23] (chiLanes (rhoLanes (thetaLanes (lanesOf words)) ∘ piSource))) :=
    fun i lane => iota i fun equal => absurd lane (by rw [equal]; decide)
  have lastConstant : roundConstant 24 = rc[23] := rfl
  rw [unfolded, lanesOf_setAt, applyStage_last, lastConstant, ← column.parity_eq 0]
  funext i
  by_cases is25 : i = 25
  · subst is25
    rw [Function.update_self]
    exact Function.update_self ..
  · rw [Function.update_of_ne is25, ← iota i is25]
    exact Function.update_of_ne is25 ..

theorem finRange_take_succ (round : Fin 23) :
    (List.finRange 23).take (round + 1) = (List.finRange 23).take round ++ [round] := by
  revert round
  decide

/-- The batched rounds keep the lanes of the steps, constant included. -/
theorem sameLanes_rounds (words : Words) {round : Nat} (bounded : round ≤ 23) :
    SameLanes
      (lanesOf
        (((List.finRange 23).take round).foldl
          (fun words round => keccakRound round.castSucc words) words))
      (iotaLanes (roundConstant round) (view round (wordsAt words (27 * round)))) := by
  induction round with
  | zero =>
      intro i _
      have noConstant : roundConstant 0 = 0#64 := rfl
      rw [noConstant, wordsAt, view_zero, iotaLanes, BitVec.xor_zero, Function.update_eq_self]
      rfl
  | succ round inductionHypothesis =>
      have previous := inductionHypothesis (Nat.le_of_succ_le bounded)
      rw [finRange_take_succ ⟨round, bounded⟩, List.foldl_append, List.foldl_cons,
        List.foldl_nil, view_wordsAt_round words (show round < 24 by omega)]
      exact sameLanes_keccakRound (Fin.castSucc ⟨round, bounded⟩) previous

/-- The steps and the batch leave the same words. -/
theorem wordsAt_last (words : Words) :
    wordsAt words 649 = keccakF1600ImplExt words := by
  let rounds :=
    (List.finRange 23).foldl (fun words round => keccakRound round.castSucc words) words
  have lanes :
      SameLanes (lanesOf rounds)
        (iotaLanes (roundConstant 23) (view 23 (wordsAt words (27 * 23)))) := by
    have whole : (List.finRange 23).take 23 = List.finRange 23 :=
      List.take_of_length_le (by simp)
    have same := sameLanes_rounds words (le_refl 23)
    rwa [whole] at same
  have lastRound :
      view 24 (wordsAt words 648) =
        chiLanes (rhoLanes (thetaLanes (lanesOf rounds)) ∘ piSource) := by
    have round := view_wordsAt_round words (show 23 < 24 by omega)
    rw [roundLanes, ← lanes.thetaLanes_eq] at round
    simpa only [Nat.reduceAdd, Nat.reduceMul] using round
  have lastStep :
      view 24 (wordsAt words 649) =
        applyStage (roundConstant 24) (view 24 (wordsAt words 648)) (.iotaColumnxor 0) := by
    rw [wordsAt]
    exact view_scheduledStep (show 648 < 649 by omega) (wordsAt words 648)
  apply lanesOf_injective
  rw [← view_last, lastStep, lastRound]
  exact (lanesOf_finalRound rounds).symm

/-! ## Indices and timestamp offsets of the run -/

/-- The six word indices of step `count` of the run from `words`. -/
def stepIndices (words : Words) (count : Nat) : Option (Fin 6 → Nat) := do
  let (control, _) ← singleSteps count initialKeccakF1600ControlValue words
  let (precompile, iteration, round) := decodeControl control
  extractIndices precompile iteration round

/-- Step `count` of the run writes the word `index`. -/
def StepWrites (words : Words) (count : Nat) (index : Fin 31) : Prop :=
  ∃ indices, stepIndices words count = some indices ∧ ∃ j, indices j = index.val

theorem stepIndices_scheduled (words : Words) {count : Nat} (inRun : count < 649) :
    stepIndices words count = some fun j => (positionsAt count j).val := by
  have bounded := roundAt_add_afterPi_lt inRun
  simp only [stepIndices, singleSteps_scheduled words (Nat.le_of_lt inRun),
    Option.bind_eq_bind, Option.bind_some, scheduledControl,
    decodeControl_encodeControl (stageAt count) (show roundAt count < 25 by omega),
    extractIndices_stage (stageAt count) bounded]
  rfl

theorem stepWrites_iff (words : Words) {count : Nat} (inRun : count < 649) (index : Fin 31) :
    StepWrites words count index ↔ ∃ j, positionsAt count j = index := by
  simp only [StepWrites, stepIndices_scheduled words inRun, Option.some.injEq,
    exists_eq_left', Fin.ext_iff]

/-- The offsets recorded after the first `count` steps. -/
def offsetsAt : Nat → Vector U64 31
  | 0 => Vector.replicate 31 0
  | count + 1 =>
      scatter (offsetsAt count) (positionsAt count)
        fun _ => BitVec.ofNat 64 count * timestampStep

theorem timestampOffsetsFrom_scheduled
    (remaining count : Nat) (inRun : count + remaining ≤ 649) :
    timestampOffsetsFrom remaining count (scheduledControl count) (offsetsAt count) =
      some (scheduledControl (count + remaining), offsetsAt (count + remaining)) := by
  induction remaining generalizing count with
  | zero => rfl
  | succ remaining inductionHypothesis =>
      have bounded := roundAt_add_afterPi_lt (show count < 649 by omega)
      have rest := inductionHypothesis (count + 1) (by omega)
      rw [timestampOffsetsFrom, scheduledControl,
        decodeControl_encodeControl (stageAt count) (show roundAt count < 25 by omega)]
      simp only [bumpControl_scheduled, extractIndices_stage (stageAt count) bounded,
        boundsCheck_val, Option.bind_eq_bind, Option.bind_some]
      rw [show count + (remaining + 1) = count + 1 + remaining by omega]
      exact rest

theorem timestampOffsetsFrom_initial {count : Nat} (inRun : count ≤ 649) :
    timestampOffsetsFrom count 0 initialKeccakF1600ControlValue (Vector.replicate 31 0) =
      some (scheduledControl count, offsetsAt count) := by
  have run := timestampOffsetsFrom_scheduled count 0 (by omega)
  rw [Nat.zero_add] at run
  exact run

theorem finalTimestampOffsets_eq :
    finalTimestampOffsets = offsetsAt numDelegationCallsForKeccakF1600 := by
  have inRun : numDelegationCallsForKeccakF1600 ≤ 649 := Nat.le_refl 649
  simp only [finalTimestampOffsets, timestampOffsetsFrom_initial inRun, Option.map_some,
    Option.getD_some]

theorem scatter_const_getElem
    (words : Words) (positions : Fin 6 → Fin 31) (value : U64) (index : Fin 31) :
    (scatter words positions fun _ => value).get index =
      if ∃ j, positions j = index then value else words.get index := by
  have fold :
      ∀ (order : List (Fin 6)) (words : Words),
        (order.foldl (fun words j => words.set (positions j) value) words).get index =
          if ∃ j ∈ order, positions j = index then value else words.get index := by
    intro order
    induction order with
    | nil => intro words; simp
    | cons j rest inductionHypothesis =>
        intro words
        rw [List.foldl_cons, inductionHypothesis]
        by_cases later : ∃ j ∈ rest, positions j = index
        · rw [if_pos later, if_pos (by simp [later])]
        · by_cases here : positions j = index
          · rw [if_neg later, if_pos (by simp [here]), ← here]
            exact Vector.getElem_set_self _
          · have hereValue : (positions j).val ≠ index.val := fun same =>
              here (Fin.ext same)
            rw [if_neg later, if_neg (by simp [here, later])]
            exact Vector.getElem_set_ne _ _ hereValue
  have whole := fold (List.finRange 6) words
  simp only [List.mem_finRange, true_and] at whole
  exact whole

/-- The offset kept for a word is that of the latest step that wrote it. -/
theorem offsetsAt_getElem
    {count last : Nat} {index : Fin 31} (early : last < count)
    (writes : ∃ j, positionsAt last j = index)
    (latest : ∀ later < count, (∃ j, positionsAt later j = index) → later ≤ last) :
    (offsetsAt count).get index = BitVec.ofNat 64 last * timestampStep := by
  induction count with
  | zero => exact absurd early (Nat.not_lt_zero last)
  | succ count inductionHypothesis =>
      rw [offsetsAt, scatter_const_getElem]
      by_cases now : ∃ j, positionsAt count j = index
      · have same : last = count :=
          Nat.le_antisymm (Nat.le_of_lt_succ early) (latest count (Nat.lt_succ_self _) now)
        rw [if_pos now, same]
      · rw [if_neg now]
        have earlier : last < count := by
          apply Nat.lt_of_le_of_ne (Nat.le_of_lt_succ early)
          rintro rfl
          exact now writes
        exact inductionHypothesis earlier fun later bound =>
          latest later (Nat.lt_succ_of_lt bound)

/-- Every word is written in the course of the last round. -/
theorem exists_positionsAt (index : Fin 31) :
    ∃ count < 649, ∃ j, positionsAt count j = index := by
  have check :
      ∀ index : Fin 31, ∃ step : Fin 28, ∃ j, positionsAt (621 + step) j = index := by
    decide +kernel
  obtain ⟨step, writes⟩ := check index
  exact ⟨621 + step, by omega, writes⟩

/-- Every word has a latest step that writes it. -/
theorem exists_last_positionsAt (index : Fin 31) :
    ∃ last < 649, (∃ j, positionsAt last j = index) ∧
      ∀ later < 649, (∃ j, positionsAt later j = index) → later ≤ last := by
  let writers : Finset Nat :=
    (Finset.range 649).filter fun count => ∃ j, positionsAt count j = index
  have nonempty : writers.Nonempty := by
    obtain ⟨count, inRun, writes⟩ := exists_positionsAt index
    exact ⟨count, Finset.mem_filter.mpr ⟨Finset.mem_range.mpr inRun, writes⟩⟩
  obtain ⟨lastInRun, lastWrites⟩ :=
    Finset.mem_filter.mp (writers.max'_mem nonempty)
  refine ⟨writers.max' nonempty, Finset.mem_range.mp lastInRun, lastWrites, ?_⟩
  intro later inRun writes
  exact writers.le_max' later
    (Finset.mem_filter.mpr ⟨Finset.mem_range.mpr inRun, writes⟩)

/-- The offset kept for a word is the time of the last step that writes it. -/
theorem finalTimestampOffsets_getElem (index : Fin 31) :
    ∃ last < 649, (∃ j, positionsAt last j = index) ∧
      (∀ later < 649, (∃ j, positionsAt later j = index) → later ≤ last) ∧
        finalTimestampOffsets.get index = BitVec.ofNat 64 last * timestampStep := by
  obtain ⟨last, inRun, writes, latest⟩ := exists_last_positionsAt index
  refine ⟨last, inRun, writes, latest, ?_⟩
  rw [finalTimestampOffsets_eq]
  exact offsetsAt_getElem (show last < numDelegationCallsForKeccakF1600 from inRun) writes latest

theorem offset_toNat {count : Nat} (inRun : count < 649) :
    (BitVec.ofNat 64 count * timestampStep).toNat = 4 * count := by
  have step : timestampStep.toNat = 4 := rfl
  rw [BitVec.toNat_mul, step, BitVec.toNat_ofNat]
  omega

theorem offset_div_step {count : Nat} (inRun : count < 649) :
    (BitVec.ofNat 64 count * timestampStep).toNat / timestampStep.toNat = count := by
  have step : timestampStep.toNat = 4 := rfl
  rw [offset_toNat inRun, step, Nat.mul_div_cancel_left count (by decide)]

/-! ## Main result -/

/-- The 649 single steps from the initial control word end with the final one and
with the words of the batched permutation.  Each step has six distinct indices in
the array, and the latest step to write a word is its timestamp offset over the
length of a cycle. -/
theorem singleSteps_eq_keccakF1600ImplExt (words : Words) :
    singleSteps numDelegationCallsForKeccakF1600 initialKeccakF1600ControlValue words =
        some (finalKeccakF1600ControlValue, keccakF1600ImplExt words) ∧
      (∀ count < numDelegationCallsForKeccakF1600,
        ∃ indices, stepIndices words count = some indices ∧
          Function.Injective indices ∧ ∀ j, indices j < 31) ∧
      ∀ index : Fin 31,
        let last := (finalTimestampOffsets.get index).toNat / timestampStep.toNat
        last < numDelegationCallsForKeccakF1600 ∧ StepWrites words last index ∧
          ∀ later < numDelegationCallsForKeccakF1600,
            StepWrites words later index → later ≤ last := by
  refine ⟨?_, ?_, ?_⟩
  · have run := singleSteps_scheduled words (le_refl 649)
    rw [wordsAt_last] at run
    exact run
  · intro count inRun
    refine ⟨_, stepIndices_scheduled words inRun, ?_, fun j => (positionsAt count j).isLt⟩
    exact Fin.val_injective.comp
      (physicalPositions_injective (stageAt count) (roundAt_add_afterPi_lt inRun))
  · intro index
    obtain ⟨last, inRun, writes, latest, offset⟩ := finalTimestampOffsets_getElem index
    rw [offset, offset_div_step inRun]
    refine ⟨inRun, (stepWrites_iff words inRun index).mpr writes, ?_⟩
    intro later laterInRun laterWrites
    exact latest later laterInRun ((stepWrites_iff words laterInRun index).mp laterWrites)

end Airbender.Keccak
