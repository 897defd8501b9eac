import Airbender.Constraints.Operators

/-!
# Splitting and substituting

`split_max_quadratic` reads off the parts of a normal form.  `express_variable` solves a
constraint for a variable, and `substitute_variable` puts an expression in its place.
-/

namespace Airbender.Constraints

open Circuit (F)
open Mersenne31 (Element)

/-! ## Parts of a constraint -/

namespace MaxQuadratic

/-- The polynomial that the parts add up to. -/
noncomputable def polynomial (parts : MaxQuadratic) : MvPolynomial Variable F :=
  (parts.quadraticTerms.map fun part =>
      MvPolynomial.C part.1.value * (MvPolynomial.X part.2.1 * MvPolynomial.X part.2.2)).sum +
    (parts.linearTerms.map fun part =>
      MvPolynomial.C part.1.value * MvPolynomial.X part.2).sum +
    MvPolynomial.C parts.constantTerm.value

end MaxQuadratic

/-- The slots of an expression of degree one or two begin with its variables. -/
theorem Term.WellFormed.inner_cases {coeff : Element} {inner : List Variable} {degree : Nat}
    (wellFormed : (Term.expression coeff inner degree).WellFormed) (small : degree ≤ 2) :
    (∃ a rest, degree = 1 ∧ inner = a :: rest) ∨
      ∃ a b rest, degree = 2 ∧ inner = a :: b :: rest := by
  obtain ⟨length, positive, _, _⟩ := wellFormed
  have capacity : termInnerCapacity = 4 := rfl
  cases inner with
  | nil => exact absurd length (by decide)
  | cons a rest =>
      by_cases linear : degree = 1
      · exact Or.inl ⟨a, rest, linear, rfl⟩
      · cases rest with
        | nil => exact absurd length (by simp [capacity])
        | cons b rest => exact Or.inr ⟨a, b, rest, by omega, rfl⟩

/-- One term moves into the parts. -/
theorem splitTerm_spec {parts : MaxQuadratic} {term : Term} (wellFormed : term.WellFormed)
    (degrees : term.degree ≤ 2)
    (unused : parts.constantUsed = false → parts.constantTerm.value = 0)
    (free : term.isConstant = true → parts.constantUsed = false) :
    ∃ parts', Constraint.splitTerm parts term = some parts' ∧
      parts'.polynomial = parts.polynomial + term.polynomial ∧
      (parts'.constantUsed = false → parts'.constantTerm.value = 0) ∧
      (parts'.constantUsed = true → parts.constantUsed = true ∨ term.isConstant = true) := by
  cases term with
  | constant c =>
      have notUsed := free rfl
      refine ⟨{ parts with constantTerm := c, constantUsed := true }, ?_, ?_, nofun,
        fun _ => Or.inr rfl⟩
      · rw [Constraint.splitTerm, guard, if_pos notUsed]
        rfl
      · rw [MaxQuadratic.polynomial, MaxQuadratic.polynomial, unused notUsed, map_zero, add_zero,
          Term.polynomial_constant]
  | expression coeff inner degree =>
      rcases wellFormed.inner_cases degrees with ⟨a, rest, rfl, rfl⟩ | ⟨a, b, rest, rfl, rfl⟩
      · refine ⟨{ parts with linearTerms := parts.linearTerms ++ [(coeff, a)] }, ?_, ?_, unused,
          Or.inl⟩
        · cases rest with
          | nil => rfl
          | cons b rest => rfl
        · have slice : (Term.expression coeff (a :: rest) 1).asSlice = [a] := rfl
          rw [Term.polynomial_eq_prod, slice, List.map_singleton, List.prod_singleton,
            MaxQuadratic.polynomial, MaxQuadratic.polynomial, List.map_append, List.sum_append,
            List.map_singleton, List.sum_singleton, Term.getCoef]
          ring
      · refine ⟨{ parts with quadraticTerms := parts.quadraticTerms ++ [(coeff, a, b)] }, rfl, ?_,
          unused, Or.inl⟩
        have slice : (Term.expression coeff (a :: b :: rest) 2).asSlice = [a, b] := rfl
        rw [Term.polynomial_eq_prod, slice, List.map_cons, List.map_singleton, List.prod_cons,
          List.prod_singleton, MaxQuadratic.polynomial, MaxQuadratic.polynomial, List.map_append,
          List.sum_append, List.map_singleton, List.sum_singleton, Term.getCoef]
        ring

/-- The loop of `split_max_quadratic` over terms with at most one constant. -/
theorem foldlM_splitTerm {terms : List Term} (parts : MaxQuadratic)
    (wellFormed : ∀ term ∈ terms, term.WellFormed) (degrees : ∀ term ∈ terms, term.degree ≤ 2)
    (distinct : terms.Pairwise fun s o => s.monomial ≠ o.monomial)
    (unused : parts.constantUsed = false → parts.constantTerm.value = 0)
    (free : parts.constantUsed = true → ∀ term ∈ terms, term.isConstant = false) :
    ∃ parts', terms.foldlM Constraint.splitTerm parts = some parts' ∧
      parts'.polynomial = parts.polynomial + sumOf terms := by
  induction terms generalizing parts with
  | nil =>
      refine ⟨parts, rfl, ?_⟩
      rw [sumOf_nil, add_zero]
  | cons term terms inductionHypothesis =>
      obtain ⟨headShape, restShape⟩ := List.forall_mem_cons.mp wellFormed
      obtain ⟨headDegree, restDegree⟩ := List.forall_mem_cons.mp degrees
      obtain ⟨headApart, restApart⟩ := List.pairwise_cons.mp distinct
      have headFree : term.isConstant = true → parts.constantUsed = false := by
        intro constant
        by_contra used
        rw [Bool.not_eq_false] at used
        have different := free used term List.mem_cons_self
        rw [constant] at different
        cases different
      obtain ⟨next, step, polynomials, nextUnused, nextUsed⟩ :=
        splitTerm_spec headShape headDegree unused headFree
      have nextFree : next.constantUsed = true → ∀ other ∈ terms, other.isConstant = false := by
        intro used other member
        rcases nextUsed used with before | constant
        · exact free before other (List.mem_cons_of_mem _ member)
        · by_contra both
          rw [Bool.not_eq_false] at both
          apply headApart other member
          rw [Term.monomial, Term.monomial, Term.asSlice_of_isConstant constant,
            Term.asSlice_of_isConstant both]
      obtain ⟨parts', folds, sums⟩ :=
        inductionHypothesis next restShape restDegree restApart nextUnused nextFree
      refine ⟨parts', ?_, ?_⟩
      · rw [List.foldlM_cons, step]
        exact folds
      · rw [sums, polynomials, sumOf_cons, add_assoc]

theorem IsNormalForm.splitMaxQuadratic {c : Constraint} (normal : IsNormalForm c)
    (degrees : c.degree ≤ 2) :
    ∃ parts, c.splitMaxQuadratic = some parts ∧ parts.polynomial = c.polynomial := by
  obtain ⟨parts, folds, polynomials⟩ :=
    foldlM_splitTerm ⟨[], [], Element.zero, false⟩ normal.wellFormed
      (degreeOf_le_iff.mp degrees) normal.distinct (fun _ => rfl) nofun
  refine ⟨parts, ?_, ?_⟩
  · rw [Constraint.splitMaxQuadratic, normal.normalize_eq degrees]
    exact folds
  · rw [polynomials, MaxQuadratic.polynomial, List.map_nil, List.sum_nil, List.map_nil,
      List.sum_nil, Element.value_zero, map_zero]
    simp only [add_zero, zero_add]
    rfl

/-! ## Expressing a variable -/

theorem degreeForVar_le_iff {c : Constraint} {var : Variable} {bound : Nat} :
    c.degreeForVar var ≤ bound ↔ ∀ term ∈ c.terms, term.degreeForVar var ≤ bound := by
  rw [Constraint.degreeForVar, foldl_max_le_iff]
  exact and_iff_right (Nat.zero_le bound)

theorem Term.containsVar_iff {term : Term} {var : Variable} :
    term.containsVar var = true ↔ var ∈ term.asSlice := List.contains_iff_mem

/-- A linear term that holds `var` is a multiple of it. -/
theorem Term.WellFormed.slice_of_linear {term : Term} {var : Variable}
    (wellFormed : term.WellFormed) (contains : term.containsVar var = true)
    (linear : term.degree = 1) : term.asSlice = [var] := by
  have member := Term.containsVar_iff.mp contains
  have length := wellFormed.degree_eq
  rw [linear] at length
  obtain ⟨only, slice⟩ := List.length_eq_one_iff.mp length.symm
  rw [slice] at member ⊢
  rw [List.mem_singleton.mp member]

/-- Terms without the variable are kept. -/
theorem foldlM_expressTerm_of_forall_not {var : Variable} {terms : List Term}
    (absent : ∀ term ∈ terms, term.containsVar var = false) (kept : List Term)
    (prefactor : Element) :
    terms.foldlM (Constraint.expressTerm var) (kept, prefactor) =
      some (kept ++ terms, prefactor) := by
  induction terms generalizing kept with
  | nil => rw [List.append_nil]; rfl
  | cons term terms inductionHypothesis =>
      obtain ⟨head, rest⟩ := List.forall_mem_cons.mp absent
      have step : Constraint.expressTerm var (kept, prefactor) term =
          some (kept ++ [term], prefactor) := by
        rw [Constraint.expressTerm, if_neg (Bool.eq_false_iff.mp head)]
      rw [List.foldlM_cons, step]
      change terms.foldlM (Constraint.expressTerm var) (kept ++ [term], prefactor) = _
      rw [inductionHypothesis rest, List.append_assoc, List.singleton_append]

/-- When the variable occurs in linear terms only, one term of a normal form holds it. -/
theorem IsNormalForm.exists_split {c : Constraint} {var : Variable} (normal : IsNormalForm c)
    (contains : c.containsVar var = true)
    (linear : ∀ term ∈ c.terms, term.containsVar var = true → term.degree = 1) :
    ∃ before term after, c.terms = before ++ term :: after ∧ term.asSlice = [var] ∧
      term.containsVar var = true ∧ ∀ other ∈ before ++ after, other.containsVar var = false := by
  obtain ⟨term, member, holds⟩ := List.any_eq_true.mp contains
  obtain ⟨before, after, position⟩ := List.append_of_mem member
  have slice := (normal.wellFormed term member).slice_of_linear holds (linear term member holds)
  refine ⟨before, term, after, position, slice, holds, ?_⟩
  -- another term that holds the variable would have the same monomial
  have same : ∀ other ∈ c.terms, other.containsVar var = true →
      other.monomial = term.monomial := by
    intro other otherMember otherHolds
    have otherSlice := (normal.wellFormed other otherMember).slice_of_linear otherHolds
      (linear other otherMember otherHolds)
    rw [Term.monomial, Term.monomial, slice, otherSlice]
  have apart := normal.distinct
  rw [position] at apart same
  obtain ⟨_, restApart, crossApart⟩ := List.pairwise_append.mp apart
  obtain ⟨headApart, _⟩ := List.pairwise_cons.mp restApart
  intro other otherMember
  apply Bool.eq_false_iff.mpr
  intro otherHolds
  rcases List.mem_append.mp otherMember with left | right
  · exact crossApart other left term List.mem_cons_self
      (same other (List.mem_append_left _ left) otherHolds)
  · exact headApart other right
      (same other (List.mem_append_right _ (List.mem_cons_of_mem _ right)) otherHolds).symm

/-- `express_variable` solves a constraint for a variable that occurs in no quadratic term. -/
theorem IsNormalForm.expressVariable {c : Constraint} {var : Variable} (normal : IsNormalForm c)
    (degrees : c.degree ≤ 2) (contains : c.containsVar var = true)
    (linear : ∀ term ∈ c.terms, term.containsVar var = true → term.degree = 1) :
    ∃ e prefactor, c.expressVariable var = some e ∧ IsNormalForm e ∧ e.degree ≤ c.degree ∧
      prefactor ≠ 0 ∧
      c.polynomial = MvPolynomial.C prefactor * (MvPolynomial.X var - e.polynomial) := by
  obtain ⟨before, term, after, position, slice, holds, absent⟩ :=
    normal.exists_split contains linear
  have beforeAbsent : ∀ other ∈ before, other.containsVar var = false := fun other member =>
    absent other (List.mem_append_left _ member)
  have afterAbsent : ∀ other ∈ after, other.containsVar var = false := fun other member =>
    absent other (List.mem_append_right _ member)
  have member : term ∈ c.terms := position ▸ List.mem_append_right _ List.mem_cons_self
  have once : term.degreeForVar var = 1 := by
    rw [Term.degreeForVar, slice, List.count_singleton_self]
  have nonzero := normal.nonzero term member
  obtain ⟨inverted, inverse, invertedValue⟩ := Element.inverse_eq nonzero
  have degreeForVar : c.degreeForVar var = 1 := by
    apply le_antisymm
    · apply degreeForVar_le_iff.mpr
      intro other otherMember
      by_cases otherHolds : other.containsVar var = true
      · have otherSlice := (normal.wellFormed other otherMember).slice_of_linear otherHolds
          (linear other otherMember otherHolds)
        rw [Term.degreeForVar, otherSlice, List.count_singleton_self]
      · have missing : var ∉ other.asSlice := fun inside =>
          otherHolds (Term.containsVar_iff.mpr inside)
        rw [Term.degreeForVar, List.count_eq_zero_of_not_mem missing]
        exact Nat.zero_le 1
    · have bound := degreeForVar_le_iff.mp (le_refl (c.degreeForVar var)) term member
      rw [once] at bound
      exact bound
  have atTerm : Constraint.expressTerm var (before, Element.zero) term =
      some (before, term.getCoef) := by
    rw [Constraint.expressTerm, if_pos holds, guard, if_pos once, Term.prefactorForVar,
      if_pos holds]
    rfl
  have loop : c.terms.foldlM (Constraint.expressTerm var) ([], Element.zero) =
      some (before ++ after, term.getCoef) := by
    rw [position, List.foldlM_append, foldlM_expressTerm_of_forall_not beforeAbsent,
      List.nil_append]
    change (term :: after).foldlM (Constraint.expressTerm var) (before, Element.zero) = _
    rw [List.foldlM_cons, atTerm]
    exact foldlM_expressTerm_of_forall_not afterAbsent before term.getCoef
  have kept : ∀ other ∈ before ++ after, other ∈ c.terms := by
    intro other otherMember
    rw [position]
    rcases List.mem_append.mp otherMember with left | right
    · exact List.mem_append_left _ left
    · exact List.mem_append_right _ (List.mem_cons_of_mem _ right)
  have shape : (Constraint.scale inverted.negate ⟨before ++ after⟩).WellFormed :=
    Constraint.WellFormed.scale _ fun other otherMember =>
      normal.wellFormed other (kept other otherMember)
  have scaledDegree : (Constraint.scale inverted.negate ⟨before ++ after⟩).degree ≤ c.degree := by
    apply Constraint.degree_scale_le
    exact degreeOf_le_iff.mpr fun other otherMember =>
      degreeOf_le_iff.mp (le_refl c.degree) other (kept other otherMember)
  obtain ⟨e, normalizes, eNormal, polynomials, eDegree⟩ :=
    shape.normalize (scaledDegree.trans degrees)
  refine ⟨e, term.getCoef.value, ?_, eNormal, eDegree.trans scaledDegree, nonzero, ?_⟩
  · rw [Constraint.expressVariable, guard, if_pos contains, guard, if_pos degreeForVar, loop]
    simp only [Option.pure_def, Option.bind_eq_bind, Option.bind_some]
    rw [inverse]
    exact normalizes
  · have total : c.polynomial = MvPolynomial.C term.getCoef.value * MvPolynomial.X var +
        sumOf (before ++ after) := by
      change sumOf c.terms = _
      rw [position, sumOf_append, sumOf_cons, sumOf_append, Term.polynomial_eq_prod, slice,
        List.map_singleton, List.prod_singleton]
      ring
    have expressed : e.polynomial =
        MvPolynomial.C (-term.getCoef.value⁻¹) * sumOf (before ++ after) := by
      rw [polynomials, Constraint.polynomial_scale, Element.value_negate, invertedValue]
      rfl
    have cancels : MvPolynomial.C term.getCoef.value * MvPolynomial.C (-term.getCoef.value⁻¹) =
        (-1 : MvPolynomial Variable F) := by
      rw [← map_mul, mul_neg, mul_inv_cancel₀ nonzero, map_neg, map_one]
    rw [total, expressed, mul_sub, ← mul_assoc, cancels]
    ring

/-! ## Substituting a variable -/

/-- The substitution of `expression` for `var`, as a map of polynomials. -/
noncomputable def substitution (var : Variable) (expression : MvPolynomial Variable F) :
    MvPolynomial Variable F →ₐ[F] MvPolynomial Variable F :=
  MvPolynomial.bind₁ (Function.update MvPolynomial.X var expression)

theorem substitution_C (var : Variable) (expression : MvPolynomial Variable F) (c : F) :
    substitution var expression (MvPolynomial.C c) = MvPolynomial.C c :=
  MvPolynomial.bind₁_C_right _ c

theorem substitution_X_self (var : Variable) (expression : MvPolynomial Variable F) :
    substitution var expression (MvPolynomial.X var) = expression := by
  rw [substitution, MvPolynomial.bind₁_X_right, Function.update_self]

theorem substitution_X_of_ne {var other : Variable} (different : other ≠ var)
    (expression : MvPolynomial Variable F) :
    substitution var expression (MvPolynomial.X other) = MvPolynomial.X other := by
  rw [substitution, MvPolynomial.bind₁_X_right, Function.update_of_ne different]

/-- The value of a substituted polynomial is the value at the changed assignment. -/
theorem eval_substitution (assignment : Variable → F) (var : Variable)
    (expression p : MvPolynomial Variable F) :
    MvPolynomial.eval assignment (substitution var expression p) =
      MvPolynomial.eval
        (Function.update assignment var (MvPolynomial.eval assignment expression)) p := by
  rw [substitution, ← MvPolynomial.coe_aeval_eq_eval, ← MvPolynomial.coe_aeval_eq_eval]
  change MvPolynomial.aeval assignment (MvPolynomial.bind₁ _ p) = MvPolynomial.aeval _ p
  rw [MvPolynomial.aeval_bind₁]
  congr 2
  funext other
  by_cases same : other = var
  · subst same
    rw [Function.update_self, Function.update_self]
    rfl
  · rw [Function.update_of_ne same, Function.update_of_ne same, MvPolynomial.aeval_X]

/-- A term without the variable is left alone. -/
theorem substitution_of_absent {var : Variable} {term : Term}
    (absent : term.containsVar var = false) (expression : MvPolynomial Variable F) :
    substitution var expression term.polynomial = term.polynomial := by
  have missing : ∀ other ∈ term.asSlice, other ≠ var := by
    intro other member same
    rw [same] at member
    rw [Term.containsVar_iff.mpr member] at absent
    cases absent
  rw [Term.polynomial_eq_prod, map_mul, substitution_C, map_list_prod, List.map_map]
  congr 2
  apply List.map_congr_left
  intro other member
  exact substitution_X_of_ne (missing other member) expression

namespace Constraint

/-- The replacements and the terms that stay, added up. -/
noncomputable def replaced (state : List Constraint × List Term) : MvPolynomial Variable F :=
  (state.1.map Constraint.polynomial).sum + sumOf state.2

/-- Replacements and terms of the shape of the source. -/
def ReplacedWellFormed (state : List Constraint × List Term) : Prop :=
  (∀ extra ∈ state.1, extra.WellFormed) ∧ ∀ term ∈ state.2, term.WellFormed

theorem replaced_push (state : List Constraint × List Term) (extra : Constraint) :
    replaced (state.1 ++ [extra], state.2) = replaced state + extra.polynomial := by
  rw [replaced, replaced, List.map_append, List.sum_append, List.map_singleton,
    List.sum_singleton]
  ring

theorem replaced_keep (state : List Constraint × List Term) (term : Term) :
    replaced (state.1, state.2 ++ [term]) = replaced state + term.polynomial := by
  rw [replaced, replaced, sumOf_append, sumOf_cons, sumOf_nil]
  ring

/-- What the loop of `substitute_variable` does with a term that holds the variable. -/
theorem substituteTerm_holds {var : Variable} {expression : Constraint}
    {state state' : List Constraint × List Term} {term : Term} (termShape : term.WellFormed)
    (holds : term.containsVar var = true) (once : term.degreeForVar var ≤ 1)
    (step : substituteTerm var expression state term = some state') :
    (term.degree = 1 ∧ term.polynomial =
        MvPolynomial.C term.getCoef.value * MvPolynomial.X var ∧
        state' = (state.1 ++ [expression.scale term.getCoef], state.2)) ∨
      ∃ otherVar extra, term.degree = 2 ∧ otherVar ≠ var ∧ term.polynomial =
        MvPolynomial.X var * (Term.ofScaledVariable term.getCoef otherVar).polynomial ∧
        expression.mulTerm (Term.ofScaledVariable term.getCoef otherVar) = some extra ∧
        state' = (state.1 ++ [extra], state.2) := by
  cases term with
  | constant c => cases holds
  | expression coeff inner degree =>
      have small : degree ≤ 2 := by
        by_contra large
        rw [substituteTerm, if_pos holds] at step
        · cases step
        · intro _ _ same
          cases same
          omega
        · intro _ _ _ _ same
          cases same
          omega
      rcases termShape.inner_cases small with ⟨a, rest, rfl, rfl⟩ | ⟨a, b, rest, rfl, rfl⟩
      · left
        have slice := termShape.slice_of_linear holds rfl
        refine ⟨rfl, ?_, ?_⟩
        · rw [Term.polynomial_eq_prod, slice, List.map_singleton, List.prod_singleton]
        · rw [substituteTerm, if_pos holds] at step
          exact (Option.some.inj step).symm
      · right
        have slice : (Term.expression coeff (a :: b :: rest) 2).asSlice = [a, b] := rfl
        have member := Term.containsVar_iff.mp holds
        rw [Term.degreeForVar, slice] at once
        rw [slice] at member
        have product : (Term.expression coeff (a :: b :: rest) 2).polynomial =
            MvPolynomial.C coeff.value * (MvPolynomial.X a * MvPolynomial.X b) := by
          rw [Term.polynomial_eq_prod, slice, List.map_cons, List.map_singleton, List.prod_cons,
            List.prod_singleton]
          rfl
        have finish : ∀ otherVar : Variable, otherVar ≠ var →
            (do
              guard (isPlaceholder otherVar = false)
              let extra ← expression.mulTerm (Term.ofScaledVariable coeff otherVar)
              some (state.1 ++ [extra], state.2)) = some state' →
            ∃ extra, expression.mulTerm (Term.ofScaledVariable coeff otherVar) = some extra ∧
              state' = (state.1 ++ [extra], state.2) := by
          intro otherVar _ returned
          obtain ⟨_, _, rest⟩ := Option.bind_eq_some_iff.mp returned
          obtain ⟨extra, multiplies, result⟩ := Option.bind_eq_some_iff.mp rest
          exact ⟨extra, multiplies, (Option.some.inj result).symm⟩
        rw [substituteTerm, if_pos holds] at step
        by_cases first : a = var
        · subst first
          have different : b ≠ a := by
            rintro rfl
            rw [List.count_cons_self, List.count_singleton_self] at once
            omega
          simp only [if_pos] at step
          obtain ⟨extra, multiplies, result⟩ := finish b different step
          refine ⟨b, extra, rfl, different, ?_, multiplies, result⟩
          rw [product, Term.polynomial_ofScaledVariable]
          change _ = MvPolynomial.X a * (MvPolynomial.C coeff.value * _)
          ring
        · have second : b = var := by
            rcases List.mem_cons.mp member with same | last
            · exact absurd same.symm first
            · exact (List.mem_singleton.mp last).symm
          subst second
          simp only [if_neg first, if_pos] at step
          obtain ⟨extra, multiplies, result⟩ := finish a first step
          refine ⟨a, extra, rfl, first, ?_, multiplies, result⟩
          rw [product, Term.polynomial_ofScaledVariable]
          change _ = MvPolynomial.X b * (MvPolynomial.C coeff.value * _)
          ring

/-- Replacing the variable in one term substitutes in the polynomial of the term. -/
theorem of_substituteTerm {var : Variable} {expression : Constraint}
    (expressionShape : expression.WellFormed) {state state' : List Constraint × List Term}
    (shape : ReplacedWellFormed state) {term : Term} (termShape : term.WellFormed)
    (once : term.degreeForVar var ≤ 1)
    (step : substituteTerm var expression state term = some state') :
    ReplacedWellFormed state' ∧ replaced state' = replaced state +
      substitution var expression.polynomial term.polynomial := by
  by_cases holds : term.containsVar var = true
  · rcases substituteTerm_holds termShape holds once step with
      ⟨_, polynomial, rfl⟩ | ⟨otherVar, extra, _, different, polynomial, multiplies, rfl⟩
    · refine ⟨⟨?_, shape.2⟩, ?_⟩
      · intro extra member
        rcases List.mem_append.mp member with old | new
        · exact shape.1 extra old
        · exact List.mem_singleton.mp new ▸ expressionShape.scale term.getCoef
      · rw [replaced_push, Constraint.polynomial_scale, polynomial, map_mul, substitution_C,
          substitution_X_self]
    · have otherShape := Term.wellFormed_ofScaledVariable term.getCoef otherVar
      obtain ⟨normal, product, _⟩ := expressionShape.of_mulTerm otherShape multiplies
      refine ⟨⟨?_, shape.2⟩, ?_⟩
      · intro other member
        rcases List.mem_append.mp member with old | new
        · exact shape.1 other old
        · exact List.mem_singleton.mp new ▸ normal.wellFormed
      · rw [replaced_push, product, polynomial, map_mul, substitution_X_self,
          Term.polynomial_ofScaledVariable, map_mul, substitution_C,
          substitution_X_of_ne different]
  · have absent := Bool.eq_false_iff.mpr holds
    have kept : substituteTerm var expression state term =
        some (state.1, state.2 ++ [term]) := by
      cases term <;> rw [substituteTerm.eq_def, if_neg holds]
    rw [kept] at step
    cases step
    refine ⟨⟨shape.1, ?_⟩, ?_⟩
    · intro other member
      rcases List.mem_append.mp member with old | new
      · exact shape.2 other old
      · exact List.mem_singleton.mp new ▸ termShape
    · rw [replaced_keep, substitution_of_absent absent]

theorem of_foldlM_substituteTerm {var : Variable} {expression : Constraint}
    (expressionShape : expression.WellFormed) {terms : List Term}
    (termsShape : ∀ term ∈ terms, term.WellFormed)
    (once : ∀ term ∈ terms, term.degreeForVar var ≤ 1) {state state' : List Constraint × List Term}
    (shape : ReplacedWellFormed state)
    (folds : terms.foldlM (substituteTerm var expression) state = some state') :
    ReplacedWellFormed state' ∧ replaced state' = replaced state +
      substitution var expression.polynomial (sumOf terms) := by
  induction terms generalizing state with
  | nil =>
      cases folds
      refine ⟨shape, ?_⟩
      rw [sumOf_nil, map_zero, add_zero]
  | cons term terms inductionHypothesis =>
      obtain ⟨headShape, restShape⟩ := List.forall_mem_cons.mp termsShape
      obtain ⟨headOnce, restOnce⟩ := List.forall_mem_cons.mp once
      rw [List.foldlM_cons] at folds
      obtain ⟨next, step, remaining⟩ := Option.bind_eq_some_iff.mp folds
      obtain ⟨nextShape, nextSum⟩ :=
        of_substituteTerm expressionShape shape headShape headOnce step
      obtain ⟨finalShape, finalSum⟩ := inductionHypothesis restShape restOnce nextShape remaining
      refine ⟨finalShape, ?_⟩
      rw [finalSum, nextSum, sumOf_cons, map_add, add_assoc]

/-- The second loop adds the replacements to the terms that stayed. -/
theorem of_foldlM_addReplacement {extra : List Constraint}
    (shape : ∀ el ∈ extra, el.WellFormed) {new result : Constraint} (newShape : new.WellFormed)
    (folds : extra.foldlM addReplacement new = some result) :
    result.WellFormed ∧
      result.polynomial = new.polynomial + (extra.map Constraint.polynomial).sum := by
  induction extra generalizing new with
  | nil =>
      cases folds
      refine ⟨newShape, ?_⟩
      rw [List.map_nil, List.sum_nil, add_zero]
  | cons el extra inductionHypothesis =>
      obtain ⟨head, rest⟩ := List.forall_mem_cons.mp shape
      rw [List.foldlM_cons] at folds
      obtain ⟨next, step, remaining⟩ := Option.bind_eq_some_iff.mp folds
      obtain ⟨sum, adds, checked⟩ := Option.bind_eq_some_iff.mp step
      obtain ⟨_, _, returned⟩ := Option.bind_eq_some_iff.mp checked
      cases returned
      obtain ⟨normal, polynomials, _⟩ := newShape.of_add head adds
      obtain ⟨resultShape, sums⟩ := inductionHypothesis rest normal.wellFormed remaining
      refine ⟨resultShape, ?_⟩
      rw [sums, polynomials, List.map_cons, List.sum_cons, add_assoc]

/-- What `substitute_variable` returns is the substitution. -/
theorem of_substituteVariable {var : Variable} {expression c r : Constraint}
    (shape : c.WellFormed) (expressionShape : expression.WellFormed)
    (substitutes : c.substituteVariable var expression = some r) :
    IsNormalForm r ∧ r.degree ≤ 2 ∧
      r.polynomial = substitution var expression.polynomial c.polynomial := by
  obtain ⟨_, _, counted⟩ := Option.bind_eq_some_iff.mp substitutes
  obtain ⟨_, tested, looped⟩ := Option.bind_eq_some_iff.mp counted
  have once : c.degreeForVar var = 1 := (Option.guard_eq_some' ()).mp tested
  have termOnce := degreeForVar_le_iff.mp once.le
  obtain ⟨state, folds, added⟩ := Option.bind_eq_some_iff.mp looped
  obtain ⟨sum, sums, normalizes⟩ := Option.bind_eq_some_iff.mp added
  have start : ReplacedWellFormed ([], []) := ⟨nofun, nofun⟩
  obtain ⟨stateShape, statePolynomial⟩ :=
    of_foldlM_substituteTerm expressionShape shape termOnce start folds
  have keptShape : WellFormed ⟨state.2⟩ := stateShape.2
  obtain ⟨sumShape, sumPolynomial⟩ := of_foldlM_addReplacement stateShape.1 keptShape sums
  obtain ⟨normal, polynomials, small⟩ := sumShape.of_normalize normalizes
  refine ⟨normal, small, ?_⟩
  have empty : replaced ([], []) = 0 := zero_add 0
  rw [empty, zero_add, replaced, add_comm] at statePolynomial
  rw [polynomials, sumPolynomial]
  exact statePolynomial

/-! ## When a substitution returns -/

/-- The degrees of the replacements and of the terms that stay. -/
def ReplacedSmall (state : List Constraint × List Term) : Prop :=
  (∀ extra ∈ state.1, extra.degree ≤ 2) ∧ ∀ term ∈ state.2, term.degree ≤ 2

theorem ReplacedSmall.push {state : List Constraint × List Term} (small : ReplacedSmall state)
    {extra : Constraint} (degrees : extra.degree ≤ 2) :
    ReplacedSmall (state.1 ++ [extra], state.2) := by
  refine ⟨?_, small.2⟩
  intro other member
  rcases List.mem_append.mp member with old | new
  · exact small.1 other old
  · exact List.mem_singleton.mp new ▸ degrees

theorem ReplacedSmall.keep {state : List Constraint × List Term} (small : ReplacedSmall state)
    {term : Term} (degrees : term.degree ≤ 2) :
    ReplacedSmall (state.1, state.2 ++ [term]) := by
  refine ⟨small.1, ?_⟩
  intro other member
  rcases List.mem_append.mp member with old | new
  · exact small.2 other old
  · exact List.mem_singleton.mp new ▸ degrees

/-- A quadratic term takes a linear expression, a linear term any expression of degree two.  Its
variables are no placeholders. -/
def Accepts (var : Variable) (expression : Constraint) (term : Term) : Prop :=
  term.containsVar var = true → term.degree + expression.degree ≤ 3 ∧
    ∀ other ∈ term.asSlice, isPlaceholder other = false

theorem substituteTerm_isSome {var : Variable} {expression : Constraint}
    (expressionShape : expression.WellFormed) {state : List Constraint × List Term}
    (small : ReplacedSmall state) {term : Term} (termShape : term.WellFormed)
    (termDegree : term.degree ≤ 2) (once : term.degreeForVar var ≤ 1)
    (accepts : Accepts var expression term) :
    ∃ state', substituteTerm var expression state term = some state' ∧ ReplacedSmall state' := by
  by_cases holds : term.containsVar var = true
  · obtain ⟨degrees, named⟩ := accepts holds
    cases term with
    | constant c => cases holds
    | expression coeff inner degree =>
        rcases termShape.inner_cases termDegree with ⟨a, rest, rfl, rfl⟩ | ⟨a, b, rest, rfl, rfl⟩
        · have linear : expression.degree ≤ 2 := by
            change 1 + expression.degree ≤ 3 at degrees
            omega
          refine ⟨(state.1 ++ [expression.scale coeff], state.2), ?_,
            small.push (degree_scale_le coeff linear)⟩
          rw [substituteTerm, if_pos holds]
        · have linear : expression.degree ≤ 1 := by
            change 2 + expression.degree ≤ 3 at degrees
            omega
          have multiplies : ∀ otherVar, otherVar ∈ [a, b] →
              ∃ extra, expression.mulTerm (Term.ofScaledVariable coeff otherVar) = some extra ∧
                extra.degree ≤ 2 ∧ isPlaceholder otherVar = false := by
            intro otherVar member
            have otherShape := Term.wellFormed_ofScaledVariable coeff otherVar
            have fits : expression.degree + (Term.ofScaledVariable coeff otherVar).degree ≤ 2 :=
              Nat.add_le_add_right linear 1
            obtain ⟨extra, product⟩ := expressionShape.mulTerm_isSome otherShape fits
            exact ⟨extra, product, (expressionShape.of_mulTerm otherShape product).2.2,
              named otherVar member⟩
          rw [substituteTerm, if_pos holds]
          by_cases first : a = var
          · obtain ⟨extra, product, extraDegree, placed⟩ :=
              multiplies b (List.mem_cons_of_mem _ List.mem_cons_self)
            refine ⟨(state.1 ++ [extra], state.2), ?_, small.push extraDegree⟩
            simp only [if_pos first, Option.bind_eq_bind, Option.bind_some]
            rw [guard, if_pos placed, product]
            rfl
          · have second : b = var := by
              rcases List.mem_cons.mp (Term.containsVar_iff.mp holds) with same | last
              · exact absurd same.symm first
              · exact (List.mem_singleton.mp last).symm
            obtain ⟨extra, product, extraDegree, placed⟩ := multiplies a List.mem_cons_self
            refine ⟨(state.1 ++ [extra], state.2), ?_, small.push extraDegree⟩
            simp only [if_neg first, if_pos second, Option.bind_eq_bind, Option.bind_some]
            rw [guard, if_pos placed, product]
            rfl
  · refine ⟨(state.1, state.2 ++ [term]), ?_, small.keep termDegree⟩
    rw [substituteTerm.eq_def, if_neg holds]

theorem foldlM_substituteTerm_isSome {var : Variable} {expression : Constraint}
    (expressionShape : expression.WellFormed) {terms : List Term}
    (termsShape : ∀ term ∈ terms, term.WellFormed)
    (termsDegree : ∀ term ∈ terms, term.degree ≤ 2)
    (once : ∀ term ∈ terms, term.degreeForVar var ≤ 1)
    (accepts : ∀ term ∈ terms, Accepts var expression term)
    {state : List Constraint × List Term} (small : ReplacedSmall state) :
    ∃ state', terms.foldlM (substituteTerm var expression) state = some state' ∧
      ReplacedSmall state' := by
  induction terms generalizing state with
  | nil => exact ⟨state, rfl, small⟩
  | cons term terms inductionHypothesis =>
      obtain ⟨headShape, restShape⟩ := List.forall_mem_cons.mp termsShape
      obtain ⟨headDegree, restDegree⟩ := List.forall_mem_cons.mp termsDegree
      obtain ⟨headOnce, restOnce⟩ := List.forall_mem_cons.mp once
      obtain ⟨headAccepts, restAccepts⟩ := List.forall_mem_cons.mp accepts
      obtain ⟨next, step, nextSmall⟩ :=
        substituteTerm_isSome expressionShape small headShape headDegree headOnce headAccepts
      obtain ⟨state', folds, finalSmall⟩ :=
        inductionHypothesis restShape restDegree restOnce restAccepts nextSmall
      refine ⟨state', ?_, finalSmall⟩
      rw [List.foldlM_cons, step]
      exact folds

theorem foldlM_addReplacement_isSome {extra : List Constraint}
    (shape : ∀ el ∈ extra, el.WellFormed) (degrees : ∀ el ∈ extra, el.degree ≤ 2)
    {new : Constraint} (newShape : new.WellFormed) (newDegree : new.degree ≤ 2) :
    ∃ result, extra.foldlM addReplacement new = some result ∧ result.degree ≤ 2 := by
  induction extra generalizing new with
  | nil => exact ⟨new, rfl, newDegree⟩
  | cons el extra inductionHypothesis =>
      obtain ⟨head, rest⟩ := List.forall_mem_cons.mp shape
      obtain ⟨headDegree, restDegree⟩ := List.forall_mem_cons.mp degrees
      obtain ⟨next, adds, normal, _, nextDegree⟩ :=
        newShape.add head newDegree headDegree (le_refl 2)
      obtain ⟨result, folds, small⟩ := inductionHypothesis rest restDegree normal.wellFormed nextDegree
      refine ⟨result, ?_, small⟩
      have step : addReplacement new el = some next := by
        rw [addReplacement, adds]
        simp only [Option.bind_eq_bind, Option.bind_some]
        rw [guard, if_pos nextDegree]
        rfl
      rw [List.foldlM_cons, step]
      exact folds

/-- `substitute_variable` returns when the result cannot exceed degree two. -/
theorem substituteVariable_isSome {var : Variable} {expression c : Constraint}
    (shape : c.WellFormed) (expressionShape : expression.WellFormed) (degrees : c.degree ≤ 2)
    (contains : c.containsVar var = true) (once : c.degreeForVar var = 1)
    (accepts : ∀ term ∈ c.terms, Accepts var expression term) :
    ∃ r, c.substituteVariable var expression = some r := by
  have termOnce := degreeForVar_le_iff.mp once.le
  have start : ReplacedWellFormed ([], []) := ⟨nofun, nofun⟩
  have startSmall : ReplacedSmall ([], []) := ⟨nofun, nofun⟩
  obtain ⟨state, folds, stateSmall⟩ := foldlM_substituteTerm_isSome expressionShape shape
    (degree_le_iff.mp degrees) termOnce accepts startSmall
  obtain ⟨stateShape, _⟩ :=
    of_foldlM_substituteTerm expressionShape shape termOnce start folds
  have keptShape : WellFormed ⟨state.2⟩ := stateShape.2
  obtain ⟨sum, sums, sumSmall⟩ := foldlM_addReplacement_isSome stateShape.1 stateSmall.1
    keptShape (degreeOf_le_iff.mpr stateSmall.2)
  obtain ⟨sumShape, _⟩ := of_foldlM_addReplacement stateShape.1 keptShape sums
  obtain ⟨r, normalizes, _⟩ := sumShape.normalize sumSmall
  refine ⟨r, ?_⟩
  rw [substituteVariable, guard, if_pos contains, guard, if_pos once, folds]
  simp only [Option.pure_def, Option.bind_eq_bind, Option.bind_some]
  rw [sums]
  exact normalizes

end Constraint

/-! ## The normal form as a specification -/

/-- `result` is what an operator on constraints has to return for `p`. -/
def Denotes (result : Option Constraint) (p : MvPolynomial Variable F) : Prop :=
  ∃ c, result = some c ∧ c.WellFormed ∧ c.degree ≤ 2 ∧ c.polynomial = p

/-- The operators and conversions denote what they are written for. -/
structure OperatorsExact : Prop where
  add : ∀ c rhs : Constraint, c.WellFormed → rhs.WellFormed → c.degree ≤ 2 → rhs.degree ≤ 2 →
    Denotes (c.add rhs) (c.polynomial + rhs.polynomial)
  sub : ∀ c rhs : Constraint, c.WellFormed → rhs.WellFormed → c.degree ≤ 2 → rhs.degree ≤ 2 →
    Denotes (c.sub rhs) (c.polynomial - rhs.polynomial)
  addTerm : ∀ (c : Constraint) (rhs : Term), c.WellFormed → rhs.WellFormed → c.degree ≤ 2 →
    rhs.degree ≤ 2 → Denotes (some (c.addTerm rhs)) (c.polynomial + rhs.polynomial)
  subTerm : ∀ (c : Constraint) (rhs : Term), c.WellFormed → rhs.WellFormed → c.degree ≤ 2 →
    rhs.degree ≤ 2 → Denotes (some (c.subTerm rhs)) (c.polynomial - rhs.polynomial)
  subAssignTerm : ∀ (c : Constraint) (rhs : Term), c.WellFormed → rhs.WellFormed →
    c.degree ≤ 2 → rhs.degree ≤ 2 →
      Denotes (c.subAssignTerm rhs) (c.polynomial - rhs.polynomial)
  termAdd : ∀ term rhs : Term, term.WellFormed → rhs.WellFormed → term.degree ≤ 2 →
    rhs.degree ≤ 2 → Denotes (some (term.add rhs)) (term.polynomial + rhs.polynomial)
  termSub : ∀ term rhs : Term, term.WellFormed → rhs.WellFormed → term.degree ≤ 2 →
    rhs.degree ≤ 2 → Denotes (some (term.sub rhs)) (term.polynomial - rhs.polynomial)
  ofVariable : ∀ var : Variable,
    Denotes (some (Constraint.ofVariable var)) (MvPolynomial.X var)
  ofBoolean : ∀ boolean : Boolean, Denotes (Constraint.ofBoolean boolean) boolean.polynomial

theorem denotes_addTerm {c : Constraint} {rhs : Term} (left : c.WellFormed)
    (right : rhs.WellFormed) (leftDegree : c.degree ≤ 2) (rightDegree : rhs.degree ≤ 2) :
    Denotes (some (c.addTerm rhs)) (c.polynomial + rhs.polynomial) :=
  ⟨c.addTerm rhs, rfl, left.addTerm right, Constraint.degree_addTerm_le leftDegree rightDegree,
    Constraint.polynomial_addTerm c rhs⟩

theorem denotes_subTerm {c : Constraint} {rhs : Term} (left : c.WellFormed)
    (right : rhs.WellFormed) (leftDegree : c.degree ≤ 2) (rightDegree : rhs.degree ≤ 2) :
    Denotes (some (c.subTerm rhs)) (c.polynomial - rhs.polynomial) := by
  have degrees : (rhs.scale Element.minusOne).degree ≤ 2 :=
    (Term.degree_scale Element.minusOne rhs).trans_le rightDegree
  exact ⟨c.subTerm rhs, rfl, left.addTerm (right.scale Element.minusOne),
    Constraint.degree_addTerm_le leftDegree degrees, Constraint.polynomial_subTerm c rhs⟩

theorem operatorsExact : OperatorsExact where
  add := fun c rhs left right leftDegree rightDegree => by
    obtain ⟨n, adds, normal, polynomials, degrees⟩ :=
      left.add right leftDegree rightDegree (le_refl 2)
    exact ⟨n, adds, normal.wellFormed, degrees, polynomials⟩
  sub := fun c rhs left right leftDegree rightDegree => by
    obtain ⟨n, subtracts, normal, polynomials, degrees⟩ :=
      left.sub right leftDegree rightDegree
    exact ⟨n, subtracts, normal.wellFormed, degrees, polynomials⟩
  addTerm := fun _ _ => denotes_addTerm
  subTerm := fun _ _ => denotes_subTerm
  subAssignTerm := fun c rhs left right leftDegree rightDegree => by
    rw [Constraint.subAssignTerm_eq]
    exact denotes_subTerm left right leftDegree rightDegree
  termAdd := fun term rhs left right leftDegree rightDegree => by
    have single := denotes_addTerm (Constraint.wellFormed_ofTerm left) right
      (c := Constraint.ofTerm term) (Constraint.degree_ofTerm_le leftDegree) rightDegree
    rwa [Constraint.polynomial_ofTerm] at single
  termSub := fun term rhs left right leftDegree rightDegree => by
    have single := denotes_subTerm (Constraint.wellFormed_ofTerm left) right
      (c := Constraint.ofTerm term) (Constraint.degree_ofTerm_le leftDegree) rightDegree
    rwa [Constraint.polynomial_ofTerm] at single
  ofVariable := fun var => by
    refine ⟨Constraint.ofVariable var, rfl,
      Constraint.wellFormed_ofTerm (Term.wellFormed_ofScaledVariable Element.one var),
      Nat.one_le_ofNat, ?_⟩
    exact (Constraint.polynomial_ofTerm _).trans (Term.polynomial_ofVariable var)
  ofBoolean := fun boolean => by
    obtain ⟨c, converts, shape, degrees, polynomials⟩ := Constraint.ofBoolean_spec boolean
    exact ⟨c, converts, shape, degrees.trans Nat.one_le_ofNat, polynomials⟩

theorem normalize_exact {c : Constraint} (shape : c.WellFormed) (degrees : c.degree ≤ 2) :
    ∃ n, c.normalize = some n ∧ IsNormalForm n ∧ n.degree ≤ c.degree ∧
      (∀ assignment, n.evaluate assignment = c.evaluate assignment) ∧ n.normalize = some n := by
  obtain ⟨n, normalizes, normal, polynomials, shrinks⟩ := shape.normalize degrees
  refine ⟨n, normalizes, normal, shrinks, ?_, normal.normalize_eq (shrinks.trans degrees)⟩
  intro assignment
  rw [Constraint.evaluate_eq, Constraint.evaluate_eq, polynomials]

/-- Constraints of one polynomial have one normal form, also for the equality of the source. -/
theorem polynomial_eq_iff_normalize_eq {c d : Constraint} (leftShape : c.WellFormed)
    (rightShape : d.WellFormed) (leftDegree : c.degree ≤ 2) (rightDegree : d.degree ≤ 2) :
    ∃ n m, c.normalize = some n ∧ d.normalize = some m ∧
      (c.polynomial = d.polynomial ↔ n = m) ∧
      (c.polynomial = d.polynomial ↔ Constraint.termsEq n.terms m.terms = true) := by
  obtain ⟨n, left, leftNormal, leftPolynomial, _⟩ := leftShape.normalize leftDegree
  obtain ⟨m, right, rightNormal, rightPolynomial, _⟩ := rightShape.normalize rightDegree
  have same : c.polynomial = d.polynomial ↔ n = m := by
    rw [← leftPolynomial, ← rightPolynomial]
    exact ⟨leftNormal.unique rightNormal, congrArg Constraint.polynomial⟩
  exact ⟨n, m, left, right, same, same.trans (leftNormal.termsEq_iff rightNormal).symm⟩

theorem expressVariable_exact {c : Constraint} {var : Variable} (normal : IsNormalForm c)
    (degrees : c.degree ≤ 2) (contains : c.containsVar var = true)
    (linear : ∀ term ∈ c.terms, term.containsVar var = true → term.degree = 1) :
    ∃ e, c.expressVariable var = some e ∧ IsNormalForm e ∧ e.degree ≤ c.degree ∧
      ∀ assignment, c.evaluate assignment = 0 ↔ assignment var = e.evaluate assignment := by
  obtain ⟨e, prefactor, expresses, eNormal, shrinks, nonzero, polynomials⟩ :=
    normal.expressVariable degrees contains linear
  refine ⟨e, expresses, eNormal, shrinks, ?_⟩
  intro assignment
  rw [Constraint.evaluate_eq, Constraint.evaluate_eq, polynomials, map_mul, map_sub,
    MvPolynomial.eval_C, MvPolynomial.eval_X, mul_eq_zero, sub_eq_zero]
  exact or_iff_right nonzero

theorem substituteVariable_exact {c expression r : Constraint} {var : Variable}
    (shape : c.WellFormed) (expressionShape : expression.WellFormed)
    (substitutes : c.substituteVariable var expression = some r) (assignment : Variable → F) :
    r.evaluate assignment =
      c.evaluate (Function.update assignment var (expression.evaluate assignment)) := by
  obtain ⟨_, _, polynomials⟩ := Constraint.of_substituteVariable shape expressionShape substitutes
  rw [Constraint.evaluate_eq, Constraint.evaluate_eq, Constraint.evaluate_eq, polynomials,
    eval_substitution]

/-- Normal forms of constraints of degree at most two: what `normalize` returns, that it decides
equality, and what the functions that rely on it compute from it.  A variable is expressed
exactly when it occurs in linear terms only. -/
theorem constraint_normalForm :
    (∀ c : Constraint, c.WellFormed → c.degree ≤ 2 →
      ∃ n, c.normalize = some n ∧ IsNormalForm n ∧ n.degree ≤ c.degree ∧
        (∀ assignment, n.evaluate assignment = c.evaluate assignment) ∧ n.normalize = some n) ∧
    (∀ c d : Constraint, c.WellFormed → d.WellFormed → c.degree ≤ 2 → d.degree ≤ 2 →
      ∃ n m, c.normalize = some n ∧ d.normalize = some m ∧
        (c.polynomial = d.polynomial ↔ n = m) ∧
        (c.polynomial = d.polynomial ↔ Constraint.termsEq n.terms m.terms = true)) ∧
    OperatorsExact ∧
    (∀ c : Constraint, IsNormalForm c → c.degree ≤ 2 →
      ∃ parts, c.splitMaxQuadratic = some parts ∧ parts.polynomial = c.polynomial) ∧
    (∀ (c : Constraint) (var : Variable), IsNormalForm c → c.degree ≤ 2 →
      c.containsVar var = true →
      (∀ term ∈ c.terms, term.containsVar var = true → term.degree = 1) →
        ∃ e, c.expressVariable var = some e ∧ IsNormalForm e ∧ e.degree ≤ c.degree ∧
          ∀ assignment, c.evaluate assignment = 0 ↔ assignment var = e.evaluate assignment) ∧
    (∀ (c expression r : Constraint) (var : Variable), c.WellFormed → expression.WellFormed →
      c.substituteVariable var expression = some r → ∀ assignment : Variable → F,
        r.evaluate assignment =
          c.evaluate (Function.update assignment var (expression.evaluate assignment))) ∧
    (∀ (c expression : Constraint) (var : Variable), c.WellFormed → expression.WellFormed →
      c.degree ≤ 2 → c.containsVar var = true → c.degreeForVar var = 1 →
      (∀ term ∈ c.terms, Constraint.Accepts var expression term) →
        ∃ r, c.substituteVariable var expression = some r) := by
  refine ⟨fun _ => normalize_exact, fun _ _ => polynomial_eq_iff_normalize_eq, operatorsExact,
    fun _ normal => normal.splitMaxQuadratic, fun _ _ => expressVariable_exact,
    fun _ _ _ _ => substituteVariable_exact, ?_⟩
  intro c expression var shape expressionShape degrees contains once accepts
  exact Constraint.substituteVariable_isSome shape expressionShape degrees contains once accepts

/-- Terms that cancel, one of them with the second representation of zero. -/
def cancellingConstraint : Constraint :=
  ⟨[.constant ⟨5, by decide⟩, .expression Element.one [3, 1, placeholderVariable,
      placeholderVariable] 2, Term.ofScaledVariable ⟨Mersenne31.order, by decide⟩ 2,
    .expression Element.minusOne [1, 3, placeholderVariable, placeholderVariable] 2,
    Term.ofScaledVariable ⟨2, by decide⟩ 4]⟩

theorem constraint_normalForm_sample :
    (∃ n, cancellingConstraint.normalize = some n ∧ IsNormalForm n ∧
      n.degree ≤ cancellingConstraint.degree ∧
      (∀ assignment, n.evaluate assignment = cancellingConstraint.evaluate assignment) ∧
      n.normalize = some n) ∧
    cancellingConstraint.normalize =
      some ⟨[Term.ofScaledVariable ⟨2, by decide⟩ 4, .constant ⟨5, by decide⟩]⟩ :=
  ⟨constraint_normalForm.1 cancellingConstraint (by unfold Constraint.WellFormed; decide +kernel)
    (by decide +kernel), by decide +kernel⟩

/-- A product of two variables plus a third. -/
def productConstraint : Constraint :=
  ⟨[.expression Element.one [0, 1, placeholderVariable, placeholderVariable] 2,
    Term.ofVariable 2]⟩

theorem isNormalForm_productConstraint : IsNormalForm productConstraint where
  wellFormed := by
    unfold Constraint.WellFormed
    decide +kernel
  nonzero := by decide +kernel
  variablesSorted := by decide +kernel
  termsSorted := by decide +kernel
  distinct := by decide +kernel

/-- The other factor is lost when a variable of a quadratic term is expressed: the assertions
look at the degree in the variable only. -/
theorem expressVariable_of_product :
    ¬ ∀ (c e : Constraint) (var : Variable), IsNormalForm c → c.degree ≤ 2 →
      c.expressVariable var = some e → ∀ assignment : Variable → F,
        (c.evaluate assignment = 0 ↔ assignment var = e.evaluate assignment) := by
  intro exact
  have expressed : productConstraint.expressVariable 0 =
      some ⟨[Term.ofScaledVariable Element.minusOne 2]⟩ := by decide +kernel
  have solves := exact productConstraint _ 0 isNormalForm_productConstraint (by decide +kernel)
    expressed fun var => if var = 0 then 1 else if var = 1 then 2 else -2
  revert solves
  decide +kernel

end Airbender.Constraints
