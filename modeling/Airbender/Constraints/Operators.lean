import Airbender.Constraints.NormalForm

/-!
# Operators on constraints

Sums and differences keep the shape of terms and denote the sums and differences of the
polynomials, whether or not they are normalized on the way.
-/

namespace Airbender.Constraints

open Circuit (F)
open Mersenne31 (Element)

/-- A term as the product of its coefficient and its variables. -/
theorem Term.polynomial_eq_prod (term : Term) :
    term.polynomial =
      MvPolynomial.C term.getCoef.value * (term.asSlice.map MvPolynomial.X).prod := by
  rw [Term.polynomial, Term.monomial]
  generalize term.getCoef.value = coefficient
  induction term.asSlice with
  | nil =>
      rw [Multiset.coe_nil, map_zero, List.map_nil, List.prod_nil, mul_one]
      rfl
  | cons var slots inductionHypothesis =>
      rw [List.map_cons, List.prod_cons, mul_left_comm, ← inductionHypothesis,
        ← Multiset.cons_coe, ← Multiset.singleton_add, map_add, Multiset.toFinsupp_singleton,
        MvPolynomial.X, MvPolynomial.monomial_mul, one_mul]

/-! ## Scaling -/

namespace Term

variable (factor : Element) (term : Term)

@[simp] theorem asSlice_scale : (term.scale factor).asSlice = term.asSlice := by
  cases term with
  | constant c => rfl
  | expression coeff inner degree => rfl

@[simp] theorem degree_scale : (term.scale factor).degree = term.degree := by
  cases term with
  | constant c => rfl
  | expression coeff inner degree => rfl

@[simp] theorem value_getCoef_scale :
    (term.scale factor).getCoef.value = term.getCoef.value * factor.value := by
  cases term with
  | constant c => exact Element.value_mulAssign c factor
  | expression coeff inner degree => exact Element.value_mulAssign coeff factor

variable {term}

theorem WellFormed.scale (wellFormed : term.WellFormed) : (term.scale factor).WellFormed := by
  cases term with
  | constant c => trivial
  | expression coeff inner degree => exact wellFormed

variable (term)

theorem polynomial_scale :
    (term.scale factor).polynomial = MvPolynomial.C factor.value * term.polynomial := by
  rw [polynomial_eq_prod, polynomial_eq_prod, asSlice_scale, value_getCoef_scale, map_mul]
  ring

end Term

theorem sumOf_map_scale (factor : Element) (terms : List Term) :
    sumOf (terms.map (Term.scale factor)) = MvPolynomial.C factor.value * sumOf terms := by
  induction terms with
  | nil => rw [List.map_nil, sumOf_nil, mul_zero]
  | cons term terms inductionHypothesis =>
      rw [List.map_cons, sumOf_cons, sumOf_cons, inductionHypothesis, Term.polynomial_scale,
        mul_add]

/-! ## Sums and differences -/

namespace Constraint

variable {c rhs n : Constraint} {term : Term}

theorem degree_le_iff {bound : Nat} :
    c.degree ≤ bound ↔ ∀ term ∈ c.terms, term.degree ≤ bound := degreeOf_le_iff

theorem WellFormed.append (wellFormed : c.WellFormed) {terms : List Term}
    (rest : ∀ term ∈ terms, term.WellFormed) : WellFormed ⟨c.terms ++ terms⟩ := by
  intro term member
  rcases List.mem_append.mp member with left | right
  · exact wellFormed term left
  · exact rest term right

theorem degree_append_le {terms : List Term} {bound : Nat} (left : c.degree ≤ bound)
    (right : ∀ term ∈ terms, term.degree ≤ bound) : degree ⟨c.terms ++ terms⟩ ≤ bound := by
  apply degree_le_iff.mpr
  intro term member
  rcases List.mem_append.mp member with old | new
  · exact degree_le_iff.mp left term old
  · exact right term new

theorem WellFormed.scale (factor : Element) (wellFormed : c.WellFormed) :
    (c.scale factor).WellFormed := by
  intro term member
  obtain ⟨source, sourceMember, rfl⟩ := List.mem_map.mp member
  exact (wellFormed source sourceMember).scale factor

theorem degree_scale_le (factor : Element) {bound : Nat} (degrees : c.degree ≤ bound) :
    (c.scale factor).degree ≤ bound := by
  apply degree_le_iff.mpr
  intro term member
  obtain ⟨source, sourceMember, rfl⟩ := List.mem_map.mp member
  rw [Term.degree_scale]
  exact degree_le_iff.mp degrees source sourceMember

theorem polynomial_scale (factor : Element) (c : Constraint) :
    (c.scale factor).polynomial = MvPolynomial.C factor.value * c.polynomial :=
  sumOf_map_scale factor c.terms

/-- `add` returns on constraints of degree at most two. -/
theorem WellFormed.add (left : c.WellFormed) (right : rhs.WellFormed) {bound : Nat}
    (leftDegree : c.degree ≤ bound) (rightDegree : rhs.degree ≤ bound) (small : bound ≤ 2) :
    ∃ n, c.add rhs = some n ∧ IsNormalForm n ∧ n.polynomial = c.polynomial + rhs.polynomial ∧
      n.degree ≤ bound := by
  have degrees := degree_append_le leftDegree (degree_le_iff.mp rightDegree)
  obtain ⟨n, normalizes, normal, polynomials, shrinks⟩ :=
    (left.append right).normalize (degrees.trans small)
  exact ⟨n, normalizes, normal, polynomials.trans (sumOf_append _ _), shrinks.trans degrees⟩

theorem WellFormed.of_add (left : c.WellFormed) (right : rhs.WellFormed)
    (adds : c.add rhs = some n) :
    IsNormalForm n ∧ n.polynomial = c.polynomial + rhs.polynomial ∧ n.degree ≤ 2 := by
  obtain ⟨normal, polynomials, small⟩ := (left.append right).of_normalize adds
  exact ⟨normal, polynomials.trans (sumOf_append _ _), small⟩

theorem WellFormed.sub (left : c.WellFormed) (right : rhs.WellFormed)
    (leftDegree : c.degree ≤ 2) (rightDegree : rhs.degree ≤ 2) :
    ∃ n, c.sub rhs = some n ∧ IsNormalForm n ∧ n.polynomial = c.polynomial - rhs.polynomial ∧
      n.degree ≤ 2 := by
  have negated : (rhs.scale Element.minusOne).degree ≤ 2 := degree_scale_le _ rightDegree
  obtain ⟨n, adds, normal, polynomials, degrees⟩ :=
    left.add (right.scale Element.minusOne) leftDegree negated (le_refl 2)
  refine ⟨n, adds, normal, ?_, degrees⟩
  rw [polynomials, polynomial_scale, Element.value_minusOne, map_neg, map_one]
  ring

theorem WellFormed.addTerm (left : c.WellFormed) (right : term.WellFormed) :
    (c.addTerm term).WellFormed :=
  left.append fun _ member => List.mem_singleton.mp member ▸ right

theorem polynomial_addTerm (c : Constraint) (term : Term) :
    (c.addTerm term).polynomial = c.polynomial + term.polynomial := by
  change sumOf (c.terms ++ [term]) = sumOf c.terms + term.polynomial
  rw [sumOf_append, sumOf_cons, sumOf_nil, add_zero]

theorem degree_addTerm_le {bound : Nat} (left : c.degree ≤ bound) (right : term.degree ≤ bound) :
    (c.addTerm term).degree ≤ bound :=
  degree_append_le left fun _ member => List.mem_singleton.mp member ▸ right

theorem polynomial_subTerm (c : Constraint) (term : Term) :
    (c.subTerm term).polynomial = c.polynomial - term.polynomial := by
  have subtracts : c.subTerm term = c.addTerm (term.scale Element.minusOne) := rfl
  rw [subtracts, polynomial_addTerm, Term.polynomial_scale, Element.value_minusOne, map_neg,
    map_one]
  ring

end Constraint

namespace Term

variable {term rhs : Term}

theorem polynomial_add : (term.add rhs).polynomial = term.polynomial + rhs.polynomial := by
  change sumOf [term, rhs] = _
  rw [sumOf_cons, sumOf_cons, sumOf_nil, add_zero]

theorem polynomial_sub : (term.sub rhs).polynomial = term.polynomial - rhs.polynomial := by
  change sumOf [term, rhs.scale Element.minusOne] = _
  rw [sumOf_cons, sumOf_cons, sumOf_nil, add_zero, polynomial_scale, Element.value_minusOne,
    map_neg, map_one]
  ring

end Term

/-- `SubAssign<Term>` multiplies with minus one and subtracts all the same. -/
theorem Constraint.subAssignTerm_eq (c : Constraint) (rhs : Term) :
    c.subAssignTerm rhs = some (c.subTerm rhs) := by
  cases rhs with
  | constant d => rfl
  | expression coeff inner degree => rfl

/-! ## Variables and booleans -/

theorem Term.wellFormed_ofScaledVariable (coeff : Element) (var : Variable) :
    (Term.ofScaledVariable coeff var).WellFormed :=
  ⟨rfl, Nat.zero_lt_one, Nat.one_le_ofNat, rfl⟩

theorem Term.polynomial_ofScaledVariable (coeff : Element) (var : Variable) :
    (Term.ofScaledVariable coeff var).polynomial =
      MvPolynomial.C coeff.value * MvPolynomial.X var := by
  have slice : (Term.ofScaledVariable coeff var).asSlice = [var] := rfl
  rw [Term.polynomial_eq_prod, slice, List.map_singleton, List.prod_singleton]
  rfl

theorem Term.polynomial_ofVariable (var : Variable) :
    (Term.ofVariable var).polynomial = MvPolynomial.X var := by
  rw [Term.ofVariable, Term.polynomial_ofScaledVariable, Element.value_one, map_one, one_mul]

namespace Boolean

/-- The polynomial that a boolean stands for. -/
noncomputable def polynomial : Boolean → MvPolynomial Variable F
  | is var => MvPolynomial.X var
  | not var => 1 - MvPolynomial.X var
  | constant value => if value then 1 else 0

end Boolean

theorem Constraint.polynomial_ofTerm (term : Term) :
    (Constraint.ofTerm term).polynomial = term.polynomial := by
  change sumOf [term] = _
  rw [sumOf_cons, sumOf_nil, add_zero]

theorem Constraint.wellFormed_ofTerm {term : Term} (wellFormed : term.WellFormed) :
    (Constraint.ofTerm term).WellFormed := fun _ member =>
  List.mem_singleton.mp member ▸ wellFormed

theorem Constraint.degree_ofTerm_le {term : Term} {bound : Nat} (degrees : term.degree ≤ bound) :
    (Constraint.ofTerm term).degree ≤ bound :=
  Constraint.degree_le_iff.mpr fun _ member => List.mem_singleton.mp member ▸ degrees

theorem Constraint.ofBoolean_spec (boolean : Boolean) :
    ∃ c, Constraint.ofBoolean boolean = some c ∧ c.WellFormed ∧ c.degree ≤ 1 ∧
      c.polynomial = boolean.polynomial := by
  cases boolean with
  | is var =>
      refine ⟨Constraint.ofVariable var, rfl,
        Constraint.wellFormed_ofTerm (Term.wellFormed_ofScaledVariable Element.one var),
        le_refl 1, ?_⟩
      exact (Constraint.polynomial_ofTerm _).trans (Term.polynomial_ofVariable var)
  | not var =>
      refine ⟨(Term.constant Element.one).sub (Term.ofVariable var), rfl, ?_, le_refl 1, ?_⟩
      · intro term member
        rcases List.mem_cons.mp member with rfl | last
        · trivial
        · rw [List.mem_singleton.mp last]
          exact (Term.wellFormed_ofScaledVariable Element.one var).scale Element.minusOne
      · rw [Term.polynomial_sub, Term.polynomial_constant, Term.polynomial_ofVariable,
          Element.value_one, map_one]
        rfl
  | constant value =>
      cases value with
      | false =>
          refine ⟨Constraint.ofTerm (Term.constant Element.zero), rfl,
            Constraint.wellFormed_ofTerm trivial, Nat.zero_le 1, ?_⟩
          rw [Constraint.polynomial_ofTerm, Term.polynomial_constant, Element.value_zero, map_zero]
          rfl
      | true =>
          refine ⟨Constraint.ofTerm (Term.constant Element.one), rfl,
            Constraint.wellFormed_ofTerm trivial, Nat.zero_le 1, ?_⟩
          rw [Constraint.polynomial_ofTerm, Term.polynomial_constant, Element.value_one, map_one]
          rfl

/-! ## Products -/

theorem Term.wellFormed_expression_mul {coeff coeff' : Element} (product : Element)
    {inner inner' : List Variable} {degree degree' : Nat}
    (left : (Term.expression coeff inner degree).WellFormed)
    (right : (Term.expression coeff' inner' degree').WellFormed)
    (fits : degree + degree' ≤ 4) :
    (Term.expression product
      (inner.take degree ++ inner'.take degree' ++ inner.drop (degree + degree'))
      (degree + degree')).WellFormed ∧
      (inner.take degree ++ inner'.take degree' ++ inner.drop (degree + degree')).take
        (degree + degree') = inner.take degree ++ inner'.take degree' := by
  obtain ⟨length, positive, _, placeholders⟩ := left
  obtain ⟨length', _, _, _⟩ := right
  have capacity : termInnerCapacity = 4 := rfl
  have front : (inner.take degree ++ inner'.take degree').length = degree + degree' := by
    rw [List.length_append, List.length_take, List.length_take, length, length']
    omega
  have rest : (inner.take degree ++ inner'.take degree' ++ inner.drop (degree + degree')).drop
      (degree + degree') = inner.drop (degree + degree') := by
    rw [List.drop_append_of_le_length (by omega), List.drop_of_length_le (by omega),
      List.nil_append]
  refine ⟨⟨?_, by omega, by omega, ?_⟩, ?_⟩
  · rw [List.length_append, front, List.length_drop, length]
    omega
  · rw [rest, ← List.drop_drop]
    apply List.all_eq_true.mpr
    intro var member
    exact List.all_eq_true.mp placeholders var (List.mem_of_mem_drop member)
  · rw [List.take_append_of_le_length (by omega), List.take_of_length_le (by omega)]

/-- The product of two terms is one term. -/
theorem Term.WellFormed.of_mul {term rhs : Term} {product : Constraint}
    (left : term.WellFormed) (right : rhs.WellFormed) (multiplies : term.mul rhs = some product) :
    product.WellFormed ∧ product.polynomial = term.polynomial * rhs.polynomial ∧
      product.degree ≤ term.degree + rhs.degree := by
  have single : ∀ {result : Term}, some (Constraint.ofTerm result) = some product →
      result.WellFormed → result.polynomial = term.polynomial * rhs.polynomial →
      result.degree ≤ term.degree + rhs.degree → product.WellFormed ∧
        product.polynomial = term.polynomial * rhs.polynomial ∧
        product.degree ≤ term.degree + rhs.degree := by
    rintro result returned wellFormed polynomials degrees
    cases returned
    exact ⟨Constraint.wellFormed_ofTerm wellFormed,
      (Constraint.polynomial_ofTerm result).trans polynomials,
      Constraint.degree_ofTerm_le degrees⟩
  cases term with
  | constant c =>
      cases rhs with
      | constant d =>
          refine single multiplies trivial ?_ (le_refl 0)
          rw [Term.polynomial_constant, Term.polynomial_constant, Term.polynomial_constant,
            Element.value_mulAssign, map_mul]
      | expression coeff inner degree =>
          refine single multiplies right ?_ (Nat.le_add_left _ _)
          rw [Term.polynomial_eq_prod, Term.polynomial_eq_prod (Term.expression coeff _ _),
            Term.polynomial_constant, ← mul_assoc, ← map_mul, ← Element.value_mulAssign]
          rfl
  | expression coeff inner degree =>
      cases rhs with
      | constant d =>
          refine single multiplies left ?_ (Nat.le_add_right _ _)
          rw [Term.polynomial_eq_prod, Term.polynomial_eq_prod (Term.expression coeff _ _),
            Term.polynomial_constant, mul_right_comm, ← map_mul, ← Element.value_mulAssign]
          rfl
      | expression coeff' inner' degree' =>
          by_cases fits : degree + degree' ≤ 4
          · obtain ⟨wellFormed, slots⟩ :=
              Term.wellFormed_expression_mul (coeff.mulAssign coeff') left right fits
            rw [Term.mul, guard, if_pos fits] at multiplies
            refine single multiplies wellFormed ?_ (le_refl _)
            rw [Term.polynomial_eq_prod, Term.asSlice, slots, Term.polynomial_eq_prod,
              Term.polynomial_eq_prod, List.map_append, List.prod_append]
            change MvPolynomial.C (coeff.mulAssign coeff').value * _ = _
            rw [Element.value_mulAssign, map_mul]
            change _ = MvPolynomial.C coeff.value * ((inner.take degree).map _).prod *
              (MvPolynomial.C coeff'.value * ((inner'.take degree').map _).prod)
            ring
          · rw [Term.mul, guard, if_neg fits] at multiplies
            cases multiplies

theorem Term.mul_isSome {term rhs : Term} (degrees : term.degree + rhs.degree ≤ 4) :
    ∃ product, term.mul rhs = some product := by
  cases term with
  | constant c =>
      cases rhs with
      | constant d => exact ⟨_, rfl⟩
      | expression coeff inner degree => exact ⟨_, rfl⟩
  | expression coeff inner degree =>
      cases rhs with
      | constant d => exact ⟨_, rfl⟩
      | expression coeff' inner' degree' =>
          have fits : degree + degree' ≤ 4 := degrees
          rw [Term.mul, guard, if_pos fits]
          exact ⟨_, rfl⟩

namespace Constraint

/-- The loop of `Mul<Term>` adds up the products. -/
theorem of_foldlM_addProduct {rhs : Term} (right : rhs.WellFormed) {terms : List Term}
    (wellFormed : ∀ term ∈ terms, term.WellFormed) {ans product : Constraint}
    (ansShape : ans.WellFormed) (folds : terms.foldlM (addProduct rhs) ans = some product) :
    product.WellFormed ∧
      product.polynomial = ans.polynomial + sumOf terms * rhs.polynomial := by
  induction terms generalizing ans with
  | nil =>
      cases folds
      refine ⟨ansShape, ?_⟩
      rw [sumOf_nil, zero_mul, add_zero]
  | cons term terms inductionHypothesis =>
      obtain ⟨head, rest⟩ := List.forall_mem_cons.mp wellFormed
      rw [List.foldlM_cons] at folds
      obtain ⟨next, adds, remaining⟩ := Option.bind_eq_some_iff.mp folds
      obtain ⟨single, multiplies, added⟩ := Option.bind_eq_some_iff.mp adds
      obtain ⟨singleShape, singlePolynomial, _⟩ := head.of_mul right multiplies
      obtain ⟨normal, nextPolynomial, _⟩ := ansShape.of_add singleShape added
      obtain ⟨shape, polynomials⟩ := inductionHypothesis rest normal.wellFormed remaining
      refine ⟨shape, ?_⟩
      rw [polynomials, nextPolynomial, singlePolynomial, sumOf_cons]
      ring

theorem foldlM_addProduct_isSome {rhs : Term} (right : rhs.WellFormed) {terms : List Term}
    (wellFormed : ∀ term ∈ terms, term.WellFormed)
    (degrees : ∀ term ∈ terms, term.degree + rhs.degree ≤ 2) {ans : Constraint}
    (ansShape : ans.WellFormed) (ansDegree : ans.degree ≤ 2) :
    ∃ product, terms.foldlM (addProduct rhs) ans = some product ∧ product.degree ≤ 2 := by
  induction terms generalizing ans with
  | nil => exact ⟨ans, rfl, ansDegree⟩
  | cons term terms inductionHypothesis =>
      obtain ⟨head, rest⟩ := List.forall_mem_cons.mp wellFormed
      obtain ⟨headDegree, restDegree⟩ := List.forall_mem_cons.mp degrees
      have multipliable : term.degree + rhs.degree ≤ 4 := headDegree.trans (by decide)
      obtain ⟨single, multiplies⟩ := Term.mul_isSome multipliable
      obtain ⟨singleShape, _, singleDegree⟩ := head.of_mul right multiplies
      obtain ⟨next, adds, normal, _, nextDegree⟩ :=
        ansShape.add singleShape ansDegree (singleDegree.trans headDegree) (le_refl 2)
      obtain ⟨product, folds, productDegree⟩ :=
        inductionHypothesis rest restDegree normal.wellFormed nextDegree
      refine ⟨product, ?_, productDegree⟩
      have step : addProduct rhs ans term = some next := by
        rw [addProduct, multiplies]
        exact adds
      rw [List.foldlM_cons, step]
      exact folds

theorem wellFormed_empty : empty.WellFormed := nofun

theorem WellFormed.of_mulTerm {c n : Constraint} {rhs : Term} (left : c.WellFormed)
    (right : rhs.WellFormed) (multiplies : c.mulTerm rhs = some n) :
    IsNormalForm n ∧ n.polynomial = c.polynomial * rhs.polynomial ∧ n.degree ≤ 2 := by
  obtain ⟨product, folds, normalizes⟩ := Option.bind_eq_some_iff.mp multiplies
  obtain ⟨shape, polynomials⟩ := of_foldlM_addProduct right left wellFormed_empty folds
  obtain ⟨normal, same, small⟩ := shape.of_normalize normalizes
  refine ⟨normal, ?_, small⟩
  rw [same, polynomials]
  exact zero_add _

theorem WellFormed.mulTerm_isSome {c : Constraint} {rhs : Term} (left : c.WellFormed)
    (right : rhs.WellFormed) (degrees : c.degree + rhs.degree ≤ 2) :
    ∃ n, c.mulTerm rhs = some n := by
  have termDegrees : ∀ term ∈ c.terms, term.degree + rhs.degree ≤ 2 := by
    intro term member
    have bound := degree_le_iff.mp (le_refl c.degree) term member
    omega
  obtain ⟨product, folds, small⟩ :=
    foldlM_addProduct_isSome right left termDegrees wellFormed_empty (Nat.zero_le 2)
  obtain ⟨shape, _⟩ := of_foldlM_addProduct right left wellFormed_empty folds
  obtain ⟨n, normalizes, _⟩ := shape.normalize small
  refine ⟨n, ?_⟩
  rw [mulTerm, folds]
  exact normalizes

end Constraint

end Airbender.Constraints
