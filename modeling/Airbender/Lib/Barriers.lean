import Mathlib.Algebra.BigOperators.Group.Finset.Basic
import Mathlib.Algebra.Group.Action.Defs
import Mathlib.Algebra.Order.BigOperators.Group.Finset
import Mathlib.Data.Fintype.EquivFin
import Mathlib.Data.Fintype.Lattice
import Mathlib.Logic.Function.Basic
import Mathlib.Tactic.Ring

/-!
# Threads that meet at barriers

Finitely many threads go through the same stages.  After the work of a stage a thread waits at the
barrier of the stage until every thread has arrived there.  A thread whose work fails never arrives.
-/

namespace Barriers

universe u

/-- Where a thread is: at the work of a stage, at the barrier behind it, or stopped in it. -/
inductive Position where
  | working (stage : ℕ)
  | waiting (stage : ℕ)
  | failed (stage : ℕ)
deriving DecidableEq, Repr

namespace Position

/-- The thread has come to the barrier of a stage. -/
def Arrived (stage : ℕ) : Position → Prop
  | working current => stage < current
  | waiting current => stage ≤ current
  | failed current => stage < current

/-- The moves that led to a position. -/
def rank : Position → ℕ
  | working stage => 2 * stage
  | waiting stage => 2 * stage + 1
  | failed stage => 2 * stage + 1

end Position

open Position

variable {Thread : Type u} [DecidableEq Thread]

section System

variable (numStages : ℕ) (Works : Thread → ℕ → Prop)

/-- One thread moves. -/
inductive Step (state : Thread → Position) : (Thread → Position) → Prop where
  | finish {thread : Thread} {stage : ℕ} (here : state thread = .working stage)
      (before : stage < numStages) (works : Works thread stage) :
      Step state (Function.update state thread (.waiting stage))
  | fail {thread : Thread} {stage : ℕ} (here : state thread = .working stage)
      (before : stage < numStages) (fails : ¬ Works thread stage) :
      Step state (Function.update state thread (.failed stage))
  | pass {thread : Thread} {stage : ℕ} (here : state thread = .waiting stage)
      (together : ∀ other, Arrived stage (state other)) :
      Step state (Function.update state thread (.working (stage + 1)))

/-- The states after a number of moves. -/
inductive Reached : ℕ → (Thread → Position) → Prop where
  | start : Reached 0 fun _ => .working 0
  | move {moves : ℕ} {state next : Thread → Position} (before : Reached moves state)
      (step : Step numStages Works state next) : Reached (moves + 1) next

/-- No thread stops, no thread waits forever, and the moves come to an end. -/
structure ReachesEveryBarrier [Fintype Thread] : Prop where
  noFailure : ∀ moves state, Reached numStages Works moves state →
    ∀ thread stage, state thread ≠ .failed stage
  noDeadlock : ∀ moves state, Reached numStages Works moves state →
    (∀ next, ¬ Step numStages Works state next) → ∀ thread, state thread = .working numStages
  bounded : ∀ moves state, Reached numStages Works moves state →
    moves ≤ Fintype.card Thread * (2 * numStages)

end System

variable {numStages : ℕ} {Works : Thread → ℕ → Prop}

/-! ## What every state keeps -/

/-- A position that a thread can have. -/
def Possible (numStages : ℕ) (works : ℕ → Prop) : Position → Prop
  | .working stage => stage ≤ numStages
  | .waiting stage => stage < numStages
  | .failed stage => stage < numStages ∧ ¬ works stage

theorem possible_of_step {state next : Thread → Position}
    (all : ∀ thread, Possible numStages (Works thread) (state thread))
    (step : Step numStages Works state next) (thread : Thread) :
    Possible numStages (Works thread) (next thread) := by
  cases step with
  | @finish moved stage here before works =>
      by_cases same : thread = moved
      · rw [same, Function.update_self]
        exact before
      · rw [Function.update_of_ne same]
        exact all thread
  | @fail moved stage here before fails =>
      by_cases same : thread = moved
      · rw [same, Function.update_self]
        exact ⟨before, fails⟩
      · rw [Function.update_of_ne same]
        exact all thread
  | @pass moved stage here together =>
      by_cases same : thread = moved
      · have before := all moved
        rw [here] at before
        rw [same, Function.update_self]
        exact before
      · rw [Function.update_of_ne same]
        exact all thread

theorem possible_of_reached {moves : ℕ} {state : Thread → Position}
    (reached : Reached numStages Works moves state) :
    ∀ thread, Possible numStages (Works thread) (state thread) := by
  induction reached with
  | start => exact fun _ => Nat.zero_le numStages
  | move _ step inductionHypothesis => exact possible_of_step inductionHypothesis step

/-! ## The moves come to an end -/

section Bound

variable [Fintype Thread]

/-- One thread's position counts one move more. -/
theorem sum_rank_update {state : Thread → Position} {thread : Thread} {position : Position}
    (more : position.rank = (state thread).rank + 1) :
    ∑ other, (Function.update state thread position other).rank =
      (∑ other, (state other).rank) + 1 := by
  rw [← Finset.add_sum_erase _ _ (Finset.mem_univ thread),
    ← Finset.add_sum_erase _ (fun other => (state other).rank) (Finset.mem_univ thread),
    Function.update_self, more]
  have others : ∑ other ∈ Finset.univ.erase thread,
      (Function.update state thread position other).rank =
        ∑ other ∈ Finset.univ.erase thread, (state other).rank := by
    apply Finset.sum_congr rfl
    intro other member
    rw [Function.update_of_ne (Finset.ne_of_mem_erase member)]
  rw [others, Nat.add_right_comm]

theorem sum_rank_of_step {state next : Thread → Position}
    (step : Step numStages Works state next) :
    ∑ thread, (next thread).rank = (∑ thread, (state thread).rank) + 1 := by
  cases step with
  | finish here => exact sum_rank_update (by rw [here]; rfl)
  | fail here => exact sum_rank_update (by rw [here]; rfl)
  | pass here => exact sum_rank_update (by rw [here]; rfl)

theorem sum_rank_of_reached {moves : ℕ} {state : Thread → Position}
    (reached : Reached numStages Works moves state) :
    ∑ thread, (state thread).rank = moves := by
  induction reached with
  | start => exact Finset.sum_eq_zero fun _ _ => rfl
  | move _ step inductionHypothesis => rw [sum_rank_of_step step, inductionHypothesis]

theorem moves_le {moves : ℕ} {state : Thread → Position}
    (reached : Reached numStages Works moves state) :
    moves ≤ Fintype.card Thread * (2 * numStages) := by
  rw [← sum_rank_of_reached reached, ← smul_eq_mul]
  apply Finset.sum_le_card_nsmul
  intro thread _
  have possible := possible_of_reached reached thread
  cases position : state thread with
  | working stage =>
      rw [position] at possible
      exact Nat.mul_le_mul_left 2 possible
  | waiting stage =>
      rw [position, Possible] at possible
      change 2 * stage + 1 ≤ 2 * numStages
      omega
  | failed stage =>
      rw [position] at possible
      have before := possible.1
      change 2 * stage + 1 ≤ 2 * numStages
      omega

end Bound

/-! ## Threads whose work does not fail -/

theorem not_failed_of_works (works : ∀ thread stage, stage < numStages → Works thread stage)
    {moves : ℕ} {state : Thread → Position} (reached : Reached numStages Works moves state)
    (thread : Thread) (stage : ℕ) : state thread ≠ .failed stage := by
  intro here
  have possible := possible_of_reached reached thread
  rw [here] at possible
  exact possible.2 (works thread stage possible.1)

theorem arrived_of_rank {stage : ℕ} {position : Position} (running : ∀ s, position ≠ .failed s)
    (later : 2 * stage + 1 ≤ position.rank) : Arrived stage position := by
  cases position with
  | working current =>
      change 2 * stage + 1 ≤ 2 * current at later
      change stage < current
      omega
  | waiting current =>
      change 2 * stage + 1 ≤ 2 * current + 1 at later
      change stage ≤ current
      omega
  | failed current => exact absurd rfl (running current)

/-- The thread that is furthest behind can move. -/
theorem exists_step [Fintype Thread] {moves : ℕ} {state : Thread → Position}
    (reached : Reached numStages Works moves state)
    (running : ∀ thread stage, state thread ≠ .failed stage) {unfinished : Thread}
    (notDone : state unfinished ≠ .working numStages) :
    ∃ next, Step numStages Works state next := by
  have : Nonempty Thread := ⟨unfinished⟩
  rcases Finite.exists_min fun thread => (state thread).rank with ⟨last, least⟩
  cases here : state last with
  | failed stage => exact absurd here (running last stage)
  | waiting stage =>
      refine ⟨_, Step.pass here ?_⟩
      intro other
      apply arrived_of_rank (running other)
      have behind := least other
      rw [here] at behind
      exact behind
  | working stage =>
      have before : stage < numStages := by
        have possible := possible_of_reached reached unfinished
        have behind := least unfinished
        rw [here] at behind
        cases other : state unfinished with
        | working current =>
            rw [other] at possible behind notDone
            have different : current ≠ numStages := fun same => notDone (same ▸ rfl)
            change current ≤ numStages at possible
            change 2 * stage ≤ 2 * current at behind
            omega
        | waiting current =>
            rw [other] at possible behind
            change current < numStages at possible
            change 2 * stage ≤ 2 * current + 1 at behind
            omega
        | failed current => exact absurd other (running unfinished current)
      by_cases works : Works last stage
      · exact ⟨_, Step.finish here before works⟩
      · exact ⟨_, Step.fail here before works⟩

/-! ## A thread whose work fails -/

/-- Threads whose stage works come to its barrier one after the other. -/
theorem reached_waiting [Fintype Thread] {stage moves : ℕ} (before : stage < numStages)
    (works : ∀ thread, Works thread stage)
    (reached : Reached numStages Works moves fun _ => .working stage) :
    ∃ later, Reached numStages Works later fun _ => .waiting stage := by
  have some_of : ∀ done : Finset Thread, ∃ later, Reached numStages Works later fun thread =>
      if thread ∈ done then .waiting stage else .working stage := by
    intro done
    induction done using Finset.induction_on with
    | empty => exact ⟨moves, reached⟩
    | @insert thread done fresh inductionHypothesis =>
        rcases inductionHypothesis with ⟨later, sofar⟩
        have step := sofar.move (.finish (if_neg fresh) before (works thread))
        refine ⟨later + 1, ?_⟩
        convert step using 1
        funext other
        by_cases same : other = thread
        · rw [same, Function.update_self, if_pos (Finset.mem_insert_self thread done)]
        · rw [Function.update_of_ne same]
          simp only [Finset.mem_insert, same, false_or]
  rcases some_of Finset.univ with ⟨later, all⟩
  simp only [Finset.mem_univ, if_true] at all
  exact ⟨later, all⟩

/-- From the barrier all threads go to the next stage. -/
theorem reached_next [Fintype Thread] {stage moves : ℕ}
    (reached : Reached numStages Works moves fun _ => .waiting stage) :
    ∃ later, Reached numStages Works later fun _ => .working (stage + 1) := by
  have some_of : ∀ done : Finset Thread, ∃ later, Reached numStages Works later fun thread =>
      if thread ∈ done then .working (stage + 1) else .waiting stage := by
    intro done
    induction done using Finset.induction_on with
    | empty => exact ⟨moves, reached⟩
    | @insert thread done fresh inductionHypothesis =>
        rcases inductionHypothesis with ⟨later, sofar⟩
        have together : ∀ other, Arrived stage
            (if other ∈ done then Position.working (stage + 1) else .waiting stage) := by
          intro other
          split
          · exact Nat.lt_succ_self stage
          · exact Nat.le_refl stage
        have step := sofar.move (.pass (if_neg fresh) together)
        refine ⟨later + 1, ?_⟩
        convert step using 1
        funext other
        by_cases same : other = thread
        · rw [same, Function.update_self, if_pos (Finset.mem_insert_self thread done)]
        · rw [Function.update_of_ne same]
          simp only [Finset.mem_insert, same, false_or]
  rcases some_of Finset.univ with ⟨later, all⟩
  simp only [Finset.mem_univ, if_true] at all
  exact ⟨later, all⟩

theorem reached_stage [Fintype Thread] {stage : ℕ} (within : stage ≤ numStages)
    (works : ∀ thread earlier, earlier < stage → Works thread earlier) :
    ∃ moves, Reached numStages Works moves fun _ => .working stage := by
  induction stage with
  | zero => exact ⟨0, .start⟩
  | succ stage inductionHypothesis =>
      rcases inductionHypothesis (Nat.le_of_succ_le within)
        (fun thread earlier below => works thread earlier (Nat.lt_succ_of_lt below)) with
        ⟨moves, reached⟩
      rcases reached_waiting within (fun thread => works thread stage (Nat.lt_succ_self stage))
        reached with ⟨_, waiting⟩
      exact reached_next waiting

theorem works_of_noFailure [Fintype Thread]
    (noFailure : ∀ moves state, Reached numStages Works moves state →
      ∀ thread stage, state thread ≠ .failed stage) {stage : ℕ} (before : stage < numStages) :
    ∀ thread, Works thread stage := by
  induction stage using Nat.strong_induction_on with
  | _ stage inductionHypothesis =>
      intro thread
      by_contra fails
      have earlierWork : ∀ other earlier, earlier < stage → Works other earlier :=
        fun other earlier below => inductionHypothesis earlier below (by omega) other
      rcases reached_stage (Nat.le_of_lt before) earlierWork with ⟨_, reached⟩
      have step := reached.move (.fail rfl before fails)
      exact noFailure _ _ step thread stage (Function.update_self thread _ _)

/-- Every thread reaches every barrier exactly when no work fails. -/
theorem reachesEveryBarrier_iff [Fintype Thread] :
    ReachesEveryBarrier numStages Works ↔
      ∀ thread stage, stage < numStages → Works thread stage := by
  constructor
  · intro reaches thread stage before
    exact works_of_noFailure reaches.noFailure before thread
  · intro works
    refine ⟨fun _ _ reached => not_failed_of_works works reached, ?_, fun _ _ => moves_le⟩
    intro moves state reached stuck thread
    by_contra notDone
    rcases exists_step reached (not_failed_of_works works reached) notDone with ⟨next, step⟩
    exact stuck next step

end Barriers
