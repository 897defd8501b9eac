import Mathlib.Data.Prod.Lex
import Airbender.Compiler.Placement

/-!
# Constraints and the scratch space

Variables that a linear constraint determines are optimized out.  The ones that are left go
to the scratch space, and the constraints are written over the columns.
-/

namespace Airbender.Compiler

open Construction
open Mersenne31 (Element)
open Constraints (Variable Constraint Term)

/-! ## Optimization -/

/-- The state of `optimize_out_linear_constraints` between two rounds. -/
structure Optimization where
  allVariablesToPlace : BTreeSet Variable
  optimizedOut : List Variable
  tried : List Variable
  constraints : List (Constraint × Bool)

/-- The linear constraints that can define the variable. -/
def definingConstraints (constraints : List (Constraint × Bool)) (var : Variable) : List Nat :=
  (constraints.zipIdx.filter fun entry => entry.1.2 = false ∧ entry.1.1.degree ≤ 1 ∧
    entry.1.1.degreeForVar var ≠ 0).map Prod.snd

def occurrences (constraints : List (Constraint × Bool)) (var : Variable) : List Nat :=
  (constraints.zipIdx.filter fun entry =>
    entry.1.1.containsVar var ∧ entry.1.1.degreeForVar var < 2).map Prod.snd

/-- A variable that one round can try: the variable, its defining constraints and its
occurrences. -/
def Optimization.candidate (pinned : List Variable) (state : Optimization) :
    Option (Variable × List Nat × List Nat) :=
  state.allVariablesToPlace.elements.findSome? fun var =>
    let defining := definingConstraints state.constraints var
    let occurring := occurrences state.constraints var
    if var ∉ state.optimizedOut ∧ var ∉ state.tried ∧ var ∉ pinned ∧ 0 < defining.length ∧
      1 < occurring.length then some (var, defining, occurring)
    else none

/-- The rewritten constraints.  The loop stops at the first one of a greater degree; the outer
option is a panic. -/
def rewriteOccurrences (constraints : List (Constraint × Bool)) (var : Variable)
    (definingIdx : Nat) (expression : Constraint) :
    List Nat → Option (Option (List (Nat × Constraint)))
  | [] => some (some [])
  | idx :: rest =>
      if idx = definingIdx then rewriteOccurrences constraints var definingIdx expression rest
      else do
        let existing ← constraints[idx]?
        let rewritten ← existing.1.substituteVariable var expression
        if 2 < rewritten.degree then some none
        else do
          let later ← rewriteOccurrences constraints var definingIdx expression rest
          some (later.map ((idx, rewritten) :: ·))

/-- One defining constraint is tried: the latest success so far, and whether one has failed. -/
def tryDefiningConstraint (constraints : List (Constraint × Bool)) (var : Variable)
    (occurring : List Nat) (found : Option (Nat × List (Nat × Constraint)) × Bool)
    (definingIdx : Nat) : Option (Option (Nat × List (Nat × Constraint)) × Bool) := do
  let defining ← constraints[definingIdx]?
  let expression ← defining.1.expressVariable var
  let expression ← expression.normalize
  let replacements ← rewriteOccurrences constraints var definingIdx expression occurring
  some (match replacements with
    | some replacements => (some (definingIdx, replacements), found.2)
    | none => (found.1, true))

/-- The constraints without the defining one, each replacement in its place. -/
def replaceConstraints (constraints : List (Constraint × Bool)) (definingIdx : Nat)
    (replacements : List (Nat × Constraint)) : List (Constraint × Bool) :=
  constraints.zipIdx.filterMap fun entry =>
    if entry.2 = definingIdx then none
    else
      match replacements.lookup entry.2 with
      | some replacement => some (replacement, entry.1.2)
      | none => some entry.1

/-- One round.  The inner option is empty when there is nothing left to try. -/
def Optimization.round (pinned : List Variable) (state : Optimization) :
    Option (Option Optimization) :=
  match state.candidate pinned with
  | none => some none
  | some (var, defining, occurring) => do
      let (found, failed) ←
        defining.foldlM (tryDefiningConstraint state.constraints var occurring) (none, false)
      let tried := if failed then var :: state.tried else state.tried
      match found with
      | some (definingIdx, replacements) => do
          let rest ← state.allVariablesToPlace.remove var
          some (some {
            allVariablesToPlace := rest
            optimizedOut := state.optimizedOut ++ [var]
            tried := tried
            constraints := replaceConstraints state.constraints definingIdx replacements })
      | none => some (some { state with tried := tried })

/-- Rounds until nothing is left to try. -/
def Optimization.run (pinned : List Variable) : Nat → Optimization → Option Optimization
  | 0, _ => none
  | rounds + 1, state => do
      match ← state.round pinned with
      | some next => next.run pinned rounds
      | none => some state

/-- The variables that are left and have not been tried. -/
def Optimization.untried (state : Optimization) : List Variable :=
  state.allVariablesToPlace.elements.filter (· ∉ state.tried)

/-- A round tries a new variable with at least one defining constraint. -/
theorem Optimization.of_candidate {pinned : List Variable} {state : Optimization}
    {var : Variable} {defining occurring : List Nat}
    (found : state.candidate pinned = some (var, defining, occurring)) :
    var ∈ state.untried ∧ defining ≠ [] := by
  obtain ⟨tested, present, passes⟩ := List.exists_of_findSome?_eq_some found
  dsimp only at passes
  split_ifs at passes with suits
  cases passes
  obtain ⟨-, new, -, nonempty, -⟩ := suits
  refine ⟨List.mem_filter.mpr ⟨present, ?_⟩, List.ne_nil_of_length_pos nonempty⟩
  rw [decide_eq_true_eq]
  exact new

theorem tryDefiningConstraint_decides {constraints : List (Constraint × Bool)} {var : Variable}
    {occurring : List Nat} {found found' : Option (Nat × List (Nat × Constraint)) × Bool}
    {definingIdx : Nat}
    (tried : tryDefiningConstraint constraints var occurring found definingIdx = some found') :
    found'.1.isSome ∨ found'.2 = true := by
  obtain ⟨defining, -, rest⟩ := Option.bind_eq_some_iff.mp tried
  obtain ⟨expression, -, rest⟩ := Option.bind_eq_some_iff.mp rest
  obtain ⟨normalized, -, rest⟩ := Option.bind_eq_some_iff.mp rest
  obtain ⟨replacements, -, rest⟩ := Option.bind_eq_some_iff.mp rest
  cases replacements with
  | none =>
      cases rest
      exact Or.inr rfl
  | some replacements =>
      cases rest
      exact Or.inl rfl

/-- Each defining constraint that is tried either succeeds or fails. -/
theorem foldlM_tryDefiningConstraint {constraints : List (Constraint × Bool)} {var : Variable}
    {occurring : List Nat} (defining : List Nat) :
    ∀ {found final : Option (Nat × List (Nat × Constraint)) × Bool},
      (found.1.isSome ∨ found.2 = true) ∨ defining ≠ [] →
      defining.foldlM (tryDefiningConstraint constraints var occurring) found = some final →
      final.1.isSome ∨ final.2 = true := by
  induction defining with
  | nil =>
      intro found final decided tried
      cases tried
      exact decided.resolve_right fun nonempty => nonempty rfl
  | cons first rest inductionHypothesis =>
      intro found final _ tried
      rw [List.foldlM_cons] at tried
      obtain ⟨next, firstTried, restTried⟩ := Option.bind_eq_some_iff.mp tried
      exact inductionHypothesis (Or.inl (tryDefiningConstraint_decides firstTried)) restTried

/-- Fewer variables are untried when one of them is missing. -/
theorem Optimization.untried_lt {state next : Optimization} {var : Variable}
    (present : var ∈ state.untried) (missing : var ∉ next.untried)
    (sublist : next.untried.Sublist state.untried) :
    next.untried.length < state.untried.length := by
  apply Nat.lt_of_le_of_ne sublist.length_le
  intro sameLength
  rw [sublist.eq_of_length sameLength] at missing
  exact missing present

theorem Optimization.round_untried {pinned : List Variable} {state next : Optimization}
    (step : state.round pinned = some (some next)) :
    next.untried.length < state.untried.length := by
  rw [round] at step
  cases candidate : state.candidate pinned with
  | none =>
      rw [candidate] at step
      cases step
  | some tested =>
      obtain ⟨var, defining, occurring⟩ := tested
      obtain ⟨present, nonempty⟩ := of_candidate candidate
      rw [candidate] at step
      obtain ⟨⟨found, failed⟩, tries, step⟩ := Option.bind_eq_some_iff.mp step
      have decided := foldlM_tryDefiningConstraint defining (Or.inr nonempty) tries
      have triedSublist :
          ∀ elements : List Variable,
            (elements.filter (· ∉ if failed then var :: state.tried else state.tried)).Sublist
              (elements.filter (· ∉ state.tried)) := by
        intro elements
        apply List.monotone_filter_right
        intro element untried
        rw [decide_eq_true_eq] at untried ⊢
        intro tried
        apply untried
        by_cases failed <;> simp_all
      cases found with
      | some replaced =>
          obtain ⟨rest, removed, same⟩ := Option.bind_eq_some_iff.mp step
          cases same
          have elements := BTreeSet.elements_of_remove removed
          apply untried_lt present
          · rw [untried, List.mem_filter, not_and]
            intro stays
            rw [elements] at stays
            exact absurd stays (List.Nodup.not_mem_erase
              (state.allVariablesToPlace.sorted.imp ne_of_lt))
          · rw [untried, elements]
            exact (List.erase_sublist.filter _).trans (triedSublist _)
      | none =>
          have hasFailed : failed = true := decided.resolve_left nofun
          cases step
          apply untried_lt present
          · rw [untried, List.mem_filter, not_and, decide_eq_true_eq]
            intro _ untried
            apply untried
            rw [if_pos hasFailed]
            exact List.mem_cons_self
          · exact triedSublist _

/-- The rounds that the source can make are fewer than the untried variables and one. -/
theorem Optimization.run_succ {pinned : List Variable} {rounds : Nat} {state : Optimization}
    (enough : state.untried.length < rounds) :
    state.run pinned (rounds + 1) = state.run pinned rounds := by
  induction rounds generalizing state with
  | zero => exact absurd enough (Nat.not_lt_zero _)
  | succ rounds inductionHypothesis =>
      rw [run, run]
      cases step : state.round pinned with
      | none => rfl
      | some outcome =>
          cases outcome with
          | none => rfl
          | some next =>
              have fewer := round_untried step
              exact inductionHypothesis (by omega)

/-- The loop of the source ends: with more rounds the result is the same. -/
theorem Optimization.run_eq {pinned : List Variable} (state : Optimization) (extra : Nat) :
    state.run pinned (state.untried.length + 1 + extra) =
      state.run pinned (state.untried.length + 1) := by
  induction extra with
  | zero => rfl
  | succ extra inductionHypothesis =>
      rw [← Nat.add_assoc, run_succ (by omega), inductionHypothesis]

/-- The variables that are optimized out, and the constraints that are left. -/
def optimizeOutLinearConstraints (output : CircuitOutput)
    (constraints : List (Constraint × Bool)) :
    Compiling (List Variable × List (Constraint × Bool)) := do
  let placement ← get
  let pinned := output.substitutions ++ output.stateInput ++ output.stateOutput
  let state : Optimization := ⟨placement.allVariablesToPlace, [], [], constraints⟩
  -- by `Optimization.run_eq` these are all the rounds that the source makes
  let final ← lift (state.run pinned (state.untried.length + 1))
  require (placement.allVariablesToPlace.len =
    final.optimizedOut.length + final.allVariablesToPlace.len)
  set { placement with allVariablesToPlace := final.allVariablesToPlace }
  pure (final.optimizedOut, final.constraints)

/-! ## Compiled constraints -/

/-- The derived order. -/
def ColumnAddress.key : ColumnAddress → Nat ×ₗ Nat
  | .witnessSubtree offset => toLex (0, offset)
  | .memorySubtree offset => toLex (1, offset)
  | .setupSubtree offset => toLex (2, offset)
  | .optimizedOut offset => toLex (3, offset)

/-- A pair of columns in its order. -/
def orderPair (term : Element × ColumnAddress × ColumnAddress) :
    Element × ColumnAddress × ColumnAddress :=
  if term.2.2.key < term.2.1.key then (term.1, term.2.2, term.2.1) else term

def sortLinearTerms (terms : List (Element × ColumnAddress)) : List (Element × ColumnAddress) :=
  terms.insertionSort fun a b => a.2.key ≤ b.2.key

def CompiledDegree1Constraint.normalize (self : CompiledDegree1Constraint) :
    CompiledDegree1Constraint :=
  { self with linearTerms := sortLinearTerms self.linearTerms }

def CompiledDegree2Constraint.normalize (self : CompiledDegree2Constraint) :
    CompiledDegree2Constraint :=
  { self with
    quadraticTerms := (self.quadraticTerms.map orderPair).insertionSort fun a b =>
      toLex (a.2.1.key, a.2.2.key) ≤ toLex (b.2.1.key, b.2.2.key)
    linearTerms := sortLinearTerms self.linearTerms }

/-- `a^2 - a` over one column. -/
def booleanConstraint (place : ColumnAddress) : CompiledDegree2Constraint where
  quadraticTerms := [(Element.one, place, place)]
  linearTerms := [(Element.minusOne, place)]
  constantTerm := Element.zero

/-- The columns of the boolean variables, and their constraints. -/
def placeBooleanVars : Compiling (ColumnSet 1 × List CompiledDegree2Constraint) := do
  let placement ← get
  let vars := placement.booleanVars
  let start := placement.witnessTreeOffset
  let (columns, _) ← lift (ColumnSet.layoutAt 1 start vars.length)
  let constraints ← (vars.zipIdx start).mapM fun entry => do
    removeVariable entry.1
    insertPlace entry.1 (.witnessSubtree entry.2)
    modify fun placement =>
      { placement with witnessTreeOffset := placement.witnessTreeOffset + 1 }
    pure (booleanConstraint (.witnessSubtree entry.2))
  let placement ← get
  require (columns.fullRange.2 = placement.witnessTreeOffset)
  require (constraints.length = vars.length)
  pure (columns, constraints)

/-- A term over the columns is added to the terms so far. -/
def compileTerm (layout : Variable → Option ColumnAddress) (degree : Nat)
    (compiled : CompiledDegree2Constraint) (term : Term) : Option CompiledDegree2Constraint :=
  match term.degree, term.asSlice with
  | 2, [a, b] => do
      guard (degree = 2)
      guard (a ≤ b)
      let a ← layout a
      let b ← layout b
      some { compiled with quadraticTerms := compiled.quadraticTerms ++ [(term.getCoef, a, b)] }
  | 1, [a] => do
      let a ← layout a
      some { compiled with linearTerms := compiled.linearTerms ++ [(term.getCoef, a)] }
  | 0, _ =>
      some { compiled with constantTerm := compiled.constantTerm.addAssign term.getCoef }
  | _, _ => none

/-- A constraint of degree two or one is put behind those of its degree. -/
def compileConstraint (layout : Variable → Option ColumnAddress)
    (compiled : List CompiledDegree2Constraint × List CompiledDegree1Constraint)
    (entry : Constraint × Bool) :
    Option (List CompiledDegree2Constraint × List CompiledDegree1Constraint) := do
  let terms := entry.1.terms
  guard ((terms.map Term.degree).IsChain (· ≥ ·))
  let degree := entry.1.degree
  guard (degree = 2 ∨ degree = 1)
  let constraint ← terms.foldlM (compileTerm layout degree) ⟨[], [], Element.zero⟩
  if degree = 2 then some (compiled.1 ++ [constraint], compiled.2)
  else some (compiled.1, compiled.2 ++ [⟨constraint.linearTerms, constraint.constantTerm⟩])

/-- The columns of the scratch space, and the constraints of degree two and one.  The
constraints of degree two stand behind the ones that are there. -/
def layoutScratchSpace (compiledQuadraticTerms : List CompiledDegree2Constraint)
    (optimizedOut : List Variable) (constraints : List (Constraint × Bool)) :
    Compiling
      (ColumnSet 1 × List CompiledDegree2Constraint × List CompiledDegree1Constraint) := do
  optimizedOut.zipIdx.forM fun entry => insertPlace entry.1 (.optimizedOut entry.2)
  let placement ← get
  let vars := placement.allVariablesToPlace.elements
  let (columns, _) ← lift (ColumnSet.layoutAt 1 placement.witnessTreeOffset vars.length)
  (vars.zipIdx placement.witnessTreeOffset).forM fun entry =>
    insertPlace entry.1 (.witnessSubtree entry.2)
  modify fun placement =>
    { placement with witnessTreeOffset := placement.witnessTreeOffset + vars.length }
  let placement ← get
  require (columns.fullRange.2 = placement.witnessTreeOffset)
  let (quadratic, linear) ←
    lift (constraints.foldlM (compileConstraint placement.layout) (compiledQuadraticTerms, []))
  pure (columns, quadratic, linear)

end Airbender.Compiler
