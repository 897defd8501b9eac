import Airbender.Constraints.Constraint

/-!
# The normal form of a constraint

`normalize` keeps the polynomial of a constraint and leaves sorted terms over distinct
monomials with nonzero coefficients.  Such a list is determined by the polynomial.
-/

namespace Airbender.Constraints

open Circuit (F)
open Mersenne31 (Element)

/-! ## Meaning of a list of terms -/

noncomputable def sumOf (terms : List Term) : MvPolynomial Variable F :=
  (terms.map Term.polynomial).sum

@[simp] theorem sumOf_nil : sumOf [] = 0 := rfl

@[simp] theorem sumOf_cons (term : Term) (terms : List Term) :
    sumOf (term :: terms) = term.polynomial + sumOf terms := List.sum_cons

@[simp] theorem sumOf_append (terms terms' : List Term) :
    sumOf (terms ++ terms') = sumOf terms + sumOf terms' := by
  rw [sumOf, List.map_append, List.sum_append]
  rfl

theorem sumOf_perm {terms terms' : List Term} (permuted : terms.Perm terms') :
    sumOf terms = sumOf terms' :=
  (permuted.map Term.polynomial).sum_eq

@[simp] theorem sumOf_sortTerms (terms : List Term) : sumOf (sortTerms terms) = sumOf terms :=
  sumOf_perm (List.perm_insertionSort Term.Le terms)

theorem sumOf_filter_nonzero (terms : List Term) :
    sumOf (terms.filter fun el => el.isZero == false) = sumOf terms := by
  induction terms with
  | nil => rfl
  | cons term terms inductionHypothesis =>
      by_cases zero : term.isZero = true
      · rw [List.filter_cons_of_neg (by simp [zero]), inductionHypothesis, sumOf_cons,
          Term.polynomial_of_isZero zero, zero_add]
      · rw [List.filter_cons_of_pos (by simp [zero]), sumOf_cons, sumOf_cons,
          inductionHypothesis]

namespace Constraint

noncomputable def polynomial (c : Constraint) : MvPolynomial Variable F := sumOf c.terms

/-- The value of a constraint when `assignment` gives the variables. -/
def evaluate (assignment : Variable → F) (c : Constraint) : F :=
  (c.terms.map (Term.evaluate assignment)).sum

/-- Every term has the shape that terms of the source have. -/
def WellFormed (c : Constraint) : Prop := ∀ term ∈ c.terms, term.WellFormed

theorem evaluate_eq (assignment : Variable → F) (c : Constraint) :
    c.evaluate assignment = MvPolynomial.eval assignment c.polynomial := by
  rw [evaluate, polynomial, sumOf, map_list_sum, List.map_map]
  congr 1
  apply List.map_congr_left
  intro term _
  exact Term.evaluate_eq assignment term

end Constraint

theorem foldl_max_le_iff (measure : Term → Nat) (terms : List Term) (start bound : Nat) :
    terms.foldl (fun greatest term => max greatest (measure term)) start ≤ bound ↔
      start ≤ bound ∧ ∀ term ∈ terms, measure term ≤ bound := by
  induction terms generalizing start with
  | nil => simp
  | cons term terms inductionHypothesis =>
      rw [List.foldl_cons, inductionHypothesis, max_le_iff, List.forall_mem_cons, and_assoc]

theorem degreeOf_le_iff {terms : List Term} {bound : Nat} :
    Constraint.degreeOf terms ≤ bound ↔ ∀ term ∈ terms, term.degree ≤ bound := by
  rw [Constraint.degreeOf, foldl_max_le_iff]
  exact and_iff_right (Nat.zero_le bound)

/-! ## Normalizing each term -/

theorem mapM_normalize {terms : List Term} (wellFormed : ∀ term ∈ terms, term.WellFormed) :
    ∃ tidied, terms.mapM Term.normalize = some tidied ∧ (∀ term ∈ tidied, term.Tidy) ∧
      sumOf tidied = sumOf terms ∧
      ∀ bound, (∀ term ∈ terms, term.degree ≤ bound) → ∀ term ∈ tidied, term.degree ≤ bound := by
  induction terms with
  | nil => exact ⟨[], rfl, nofun, rfl, fun _ _ => nofun⟩
  | cons term terms inductionHypothesis =>
      obtain ⟨headShape, restShape⟩ := List.forall_mem_cons.mp wellFormed
      obtain ⟨normal, normalized, tidy, polynomials, degrees, _⟩ := headShape.normalize
      obtain ⟨tidied, mapped, allTidy, sums, bounds⟩ := inductionHypothesis restShape
      refine ⟨normal :: tidied, ?_, List.forall_mem_cons.mpr ⟨tidy, allTidy⟩, ?_, ?_⟩
      · rw [List.mapM_cons, normalized, mapped]
        rfl
      · rw [sumOf_cons, sumOf_cons, polynomials, sums]
      · intro bound all
        obtain ⟨headBound, restBound⟩ := List.forall_mem_cons.mp all
        exact List.forall_mem_cons.mpr ⟨degrees.trans headBound, bounds bound restBound⟩

theorem mapM_normalize_tidy {terms : List Term} (tidy : ∀ term ∈ terms, term.Tidy) :
    terms.mapM Term.normalize = some terms := by
  induction terms with
  | nil => rfl
  | cons term terms inductionHypothesis =>
      obtain ⟨headTidy, restTidy⟩ := List.forall_mem_cons.mp tidy
      rw [List.mapM_cons, Term.normalize_of_tidy headTidy, inductionHypothesis restTidy]
      rfl

theorem mem_sortTerms {term : Term} {terms : List Term} :
    term ∈ sortTerms terms ↔ term ∈ terms :=
  (List.perm_insertionSort Term.Le terms).mem_iff

theorem sorted_sortTerms (terms : List Term) : (sortTerms terms).Pairwise Term.Le :=
  List.pairwise_insertionSort Term.Le terms

/-- In a sorted list the constants stand behind the other terms. -/
theorem isConstant_of_le {s o : Term} (wellFormed : o.WellFormed) (order : s.Le o)
    (constant : s.isConstant = true) : o.isConstant = true := by
  cases s with
  | expression coeff inner degree => cases constant
  | constant c =>
      cases o with
      | constant d => rfl
      | expression coeff inner degree =>
          have keys := Term.le_iff.mp order
          rw [Term.sortKey, Term.sortKey, Prod.Lex.toLex_le_toLex] at keys
          have positive := wellFormed.2.1
          rcases keys with smaller | ⟨same, _⟩
          · exact absurd (OrderDual.toDual_lt_toDual.mp smaller) (Nat.not_lt_zero degree)
          · have degrees : 0 = degree := congrArg OrderDual.ofDual same
            omega

/-! ## Combining like terms -/

/-- What one pass of the combining loop does with `el`: it is added to the first term over
the same variables, or put at the end. -/
inductive Merges (combined : List Term) (el : Term) : List Term → Prop
  | pushed (apart : ∀ term ∈ combined, term.asSlice ≠ el.asSlice) :
      Merges combined el (combined ++ [el])
  | merged (before after : List Term) (existing merged : Term)
      (position : combined = before ++ existing :: after)
      (apart : ∀ term ∈ before, term.asSlice ≠ el.asSlice)
      (slices : existing.asSlice = el.asSlice) (tidy : merged.Tidy)
      (sum : merged.polynomial = existing.polynomial + el.polynomial)
      (degrees : merged.degree ≤ existing.degree)
      (shape : merged = Term.constant Element.zero ∨ merged.asSlice = existing.asSlice) :
      Merges combined el (before ++ merged :: after)

theorem combineInto_merges {combined : List Term} {el : Term}
    (tidy : ∀ term ∈ combined, term.Tidy) (elShape : el.WellFormed) :
    ∃ combined', combineInto combined el = some combined' ∧ Merges combined el combined' := by
  induction combined with
  | nil => exact ⟨[el], rfl, Merges.pushed nofun⟩
  | cons existing rest inductionHypothesis =>
      obtain ⟨headTidy, restTidy⟩ := List.forall_mem_cons.mp tidy
      by_cases slices : existing.asSlice = el.asSlice
      · obtain ⟨sum, merged, combines, normalizes, mergedTidy, sums, degrees, shape⟩ :=
          Term.combine_of_slice_eq headTidy elShape slices
        refine ⟨merged :: rest, ?_, Merges.merged [] rest existing merged rfl nofun slices
          mergedTidy sums degrees shape⟩
        rw [combineInto, combines]
        change (do let existing ← sum.normalize; some (existing :: rest)) = _
        rw [normalizes]
        rfl
      · obtain ⟨rest', combines, merges⟩ := inductionHypothesis restTidy
        have head : combineInto (existing :: rest) el = some (existing :: rest') := by
          rw [combineInto, Term.combine_of_slice_ne headTidy.wellFormed elShape slices]
          change (do let rest ← combineInto rest el; some (existing :: rest)) = _
          rw [combines]
          rfl
        refine ⟨existing :: rest', head, ?_⟩
        cases merges with
        | pushed apart =>
            exact Merges.pushed (List.forall_mem_cons.mpr ⟨slices, apart⟩)
        | merged before after first merged position apart same mergedTidy sums degrees shape =>
            rw [position]
            exact Merges.merged (existing :: before) after first merged rfl
              (List.forall_mem_cons.mpr ⟨slices, apart⟩) same mergedTidy sums degrees shape

namespace Merges

variable {combined combined' : List Term} {el : Term}

theorem tidy (merges : Merges combined el combined') (allTidy : ∀ term ∈ combined, term.Tidy)
    (elTidy : el.Tidy) : ∀ term ∈ combined', term.Tidy := by
  cases merges with
  | pushed apart =>
      intro term member
      rcases List.mem_append.mp member with old | new
      · exact allTidy term old
      · exact List.mem_singleton.mp new ▸ elTidy
  | merged before after existing merged position apart slices tidy sum degrees shape =>
      subst position
      intro term member
      rcases List.mem_append.mp member with old | rest
      · exact allTidy term (List.mem_append_left _ old)
      · rcases List.mem_cons.mp rest with rfl | old
        · exact tidy
        · exact allTidy term (List.mem_append_right _ (List.mem_cons_of_mem _ old))

theorem sum (merges : Merges combined el combined') :
    sumOf combined' = sumOf combined + el.polynomial := by
  cases merges with
  | pushed apart => rw [sumOf_append, sumOf_cons, sumOf_nil, add_zero]
  | merged before after existing merged position apart slices tidy sum degrees shape =>
      rw [position, sumOf_append, sumOf_append, sumOf_cons, sumOf_cons, sum]
      abel

theorem degree_le (merges : Merges combined el combined') {bound : Nat}
    (degrees : ∀ term ∈ combined, term.degree ≤ bound) (elDegree : el.degree ≤ bound) :
    ∀ term ∈ combined', term.degree ≤ bound := by
  cases merges with
  | pushed apart =>
      intro term member
      rcases List.mem_append.mp member with old | new
      · exact degrees term old
      · exact List.mem_singleton.mp new ▸ elDegree
  | merged before after existing merged position apart slices tidy sum smaller shape =>
      subst position
      intro term member
      rcases List.mem_append.mp member with old | rest
      · exact degrees term (List.mem_append_left _ old)
      · rcases List.mem_cons.mp rest with rfl | old
        · exact smaller.trans (degrees existing (List.mem_append_right _ List.mem_cons_self))
        · exact degrees term (List.mem_append_right _ (List.mem_cons_of_mem _ old))

end Merges

/-- Of two terms over the same variables the later one has vanished. -/
def Separated (terms : List Term) : Prop :=
  terms.Pairwise fun s o => s.asSlice = o.asSlice → o.isZero = true

/-- The constants so far are what cancellation left. -/
def ConstantsVanish (terms : List Term) : Prop :=
  ∀ term ∈ terms, term.isConstant = true → term.isZero = true

theorem Term.WellFormed.isConstant_of_slice {term : Term} (wellFormed : term.WellFormed)
    (slice : term.asSlice = []) : term.isConstant = true := by
  cases term with
  | constant c => rfl
  | expression coeff inner degree => exact absurd slice wellFormed.slice_ne_nil

theorem Term.asSlice_of_isConstant {term : Term} (constant : term.isConstant = true) :
    term.asSlice = [] := by
  cases term with
  | constant c => rfl
  | expression coeff inner degree => cases constant

/-- A cancelled term becomes the constant zero, over which a later constant would be added.
It therefore matters that constants come last. -/
theorem Merges.separated {combined combined' : List Term} {el : Term}
    (merges : Merges combined el combined') (allTidy : ∀ term ∈ combined, term.Tidy)
    (separated : Separated combined)
    (order : ConstantsVanish combined ∨ el.isConstant = true) : Separated combined' := by
  cases merges with
  | pushed apart =>
      apply List.pairwise_append.mpr
      refine ⟨separated, List.pairwise_singleton _ _, ?_⟩
      intro term member other last same
      rw [List.mem_singleton.mp last] at same
      exact absurd same (apart term member)
  | merged before after existing merged position apart slices tidy sum degrees shape =>
      subst position
      obtain ⟨beforeApart, restApart, crossApart⟩ := List.pairwise_append.mp separated
      obtain ⟨existingApart, afterApart⟩ := List.pairwise_cons.mp restApart
      have mergedApart : ∀ other ∈ after,
          merged.asSlice = other.asSlice → other.isZero = true := by
        intro other member same
        rcases shape with zero | kept
        · -- the merged term is a constant now, so `other` is one as well
          rw [zero] at same
          have otherTidy := allTidy other
            (List.mem_append_right _ (List.mem_cons_of_mem _ member))
          have constant := otherTidy.wellFormed.isConstant_of_slice same.symm
          rcases order with vanish | elConstant
          · exact vanish other (List.mem_append_right _ (List.mem_cons_of_mem _ member)) constant
          · apply existingApart other member
            rw [slices, Term.asSlice_of_isConstant elConstant,
              Term.asSlice_of_isConstant constant]
        · exact existingApart other member (kept.symm.trans same)
      apply List.pairwise_append.mpr
      refine ⟨beforeApart, List.pairwise_cons.mpr ⟨mergedApart, afterApart⟩, ?_⟩
      intro term member other rest same
      rcases List.mem_cons.mp rest with rfl | old
      · rcases shape with zero | kept
        · rw [zero]
          rfl
        · exact absurd (same.trans (kept.trans slices)) (apart term member)
      · exact crossApart term member other (List.mem_cons_of_mem _ old) same

theorem Merges.constantsVanish {combined combined' : List Term} {el : Term}
    (merges : Merges combined el combined') (vanish : ConstantsVanish combined)
    (elShape : el.WellFormed) (expression : el.isConstant = false) :
    ConstantsVanish combined' := by
  cases merges with
  | pushed apart =>
      intro term member constant
      rcases List.mem_append.mp member with old | new
      · exact vanish term old constant
      · rw [List.mem_singleton.mp new, expression] at constant
        cases constant
  | merged before after existing merged position apart slices tidy sum degrees shape =>
      subst position
      intro term member constant
      rcases List.mem_append.mp member with old | rest
      · exact vanish term (List.mem_append_left _ old) constant
      · rcases List.mem_cons.mp rest with rfl | old
        · rcases shape with zero | kept
          · rw [zero]
            rfl
          · have empty : el.asSlice = [] := by
              rw [← slices, ← kept, Term.asSlice_of_isConstant constant]
            rw [elShape.isConstant_of_slice empty] at expression
            cases expression
        · exact vanish term (List.mem_append_right _ (List.mem_cons_of_mem _ old)) constant

/-- The combining loop over sorted terms. -/
theorem foldlM_combineInto {terms : List Term} (combined : List Term)
    (termsTidy : ∀ term ∈ terms, term.Tidy)
    (constantsLast : terms.Pairwise fun s o => s.isConstant = true → o.isConstant = true)
    (tidy : ∀ term ∈ combined, term.Tidy) (separated : Separated combined)
    (order : ConstantsVanish combined ∨ ∀ term ∈ terms, term.isConstant = true) :
    ∃ combined', terms.foldlM combineInto combined = some combined' ∧
      (∀ term ∈ combined', term.Tidy) ∧ Separated combined' ∧
      sumOf combined' = sumOf combined + sumOf terms ∧
      ∀ bound, (∀ term ∈ combined, term.degree ≤ bound) →
        (∀ term ∈ terms, term.degree ≤ bound) → ∀ term ∈ combined', term.degree ≤ bound := by
  induction terms generalizing combined with
  | nil =>
      refine ⟨combined, rfl, tidy, separated, ?_, fun _ degrees _ => degrees⟩
      rw [sumOf_nil, add_zero]
  | cons el terms inductionHypothesis =>
      obtain ⟨elTidy, restTidy⟩ := List.forall_mem_cons.mp termsTidy
      obtain ⟨elLast, restLast⟩ := List.pairwise_cons.mp constantsLast
      obtain ⟨next, combines, merges⟩ := combineInto_merges tidy elTidy.wellFormed
      have elOrder : ConstantsVanish combined ∨ el.isConstant = true :=
        order.imp_right fun all => all el List.mem_cons_self
      have nextOrder : ConstantsVanish next ∨ ∀ term ∈ terms, term.isConstant = true := by
        by_cases constant : el.isConstant = true
        · exact Or.inr fun term member => elLast term member constant
        · left
          apply merges.constantsVanish _ elTidy.wellFormed (Bool.not_eq_true _ ▸ constant)
          exact elOrder.resolve_right constant
      obtain ⟨combined', folds, allTidy, apart, sums, degrees⟩ :=
        inductionHypothesis next restTidy restLast (merges.tidy tidy elTidy)
          (merges.separated tidy separated elOrder) nextOrder
      refine ⟨combined', ?_, allTidy, apart, ?_, ?_⟩
      · rw [List.foldlM_cons, combines]
        exact folds
      · rw [sums, merges.sum, sumOf_cons, add_assoc]
      · intro bound old new
        obtain ⟨elDegree, restDegrees⟩ := List.forall_mem_cons.mp new
        exact degrees bound (merges.degree_le old elDegree) restDegrees

theorem Term.polynomial_eq_of_eq {s o : Term} (equal : s.eq o = true) :
    s.polynomial = o.polynomial := by
  cases s with
  | constant c =>
      cases o with
      | constant d =>
          rw [Term.polynomial_constant, Term.polynomial_constant, Element.eq_iff.mp equal]
      | expression coeff inner degree => cases equal
  | expression coeff inner degree =>
      cases o with
      | constant d => cases equal
      | expression coeff' inner' degree' =>
          simp only [Term.eq, Bool.and_eq_true, beq_iff_eq, Element.eq_iff] at equal
          obtain ⟨⟨values, rfl⟩, rfl⟩ := equal
          rw [Term.polynomial, Term.polynomial]
          exact congrArg (MvPolynomial.monomial _) values

theorem Term.eq_self (term : Term) : term.eq term = true := by
  cases term with
  | constant c => exact Element.eq_iff.mpr rfl
  | expression coeff inner degree => simp [Term.eq, Element.eq_iff]

theorem termsEq_self (terms : List Term) : Constraint.termsEq terms terms = true := by
  induction terms with
  | nil => rfl
  | cons term terms inductionHypothesis =>
      exact Bool.and_eq_true_iff.mpr ⟨term.eq_self, inductionHypothesis⟩

theorem sumOf_eq_of_termsEq {terms terms' : List Term}
    (equal : Constraint.termsEq terms terms' = true) : sumOf terms = sumOf terms' := by
  induction terms generalizing terms' with
  | nil =>
      cases terms' with
      | nil => rfl
      | cons term' terms' => cases equal
  | cons term terms inductionHypothesis =>
      cases terms' with
      | nil => cases equal
      | cons term' terms' =>
          obtain ⟨head, rest⟩ := Bool.and_eq_true_iff.mp equal
          rw [sumOf_cons, sumOf_cons, Term.polynomial_eq_of_eq head, inductionHypothesis rest]

/-! ## The normal form -/

/-- What `normalize` leaves. -/
structure IsNormalForm (c : Constraint) : Prop where
  wellFormed : c.WellFormed
  nonzero : ∀ term ∈ c.terms, term.getCoef.value ≠ 0
  variablesSorted : ∀ term ∈ c.terms, term.asSlice.Pairwise (· ≤ ·)
  termsSorted : c.terms.Pairwise Term.Le
  distinct : c.terms.Pairwise fun s o => s.monomial ≠ o.monomial

theorem IsNormalForm.tidy {c : Constraint} (normal : IsNormalForm c) :
    ∀ term ∈ c.terms, term.Tidy := fun term member =>
  ⟨normal.wellFormed term member, normal.variablesSorted term member,
    fun _ => normal.nonzero term member⟩

theorem Term.Tidy.slice_eq_iff {s o : Term} (tidyLeft : s.Tidy) (tidyRight : o.Tidy) :
    s.monomial = o.monomial ↔ s.asSlice = o.asSlice := by
  constructor
  · intro same
    have permuted : s.asSlice.Perm o.asSlice := Multiset.coe_eq_coe.mp same
    exact permuted.eq_of_pairwise (fun _ _ _ _ => le_antisymm) tidyLeft.sorted tidyRight.sorted
  · exact congrArg fun slots : List Variable => (slots : Multiset Variable)

theorem isNormalForm_of_separated {terms : List Term} (tidy : ∀ term ∈ terms, term.Tidy)
    (nonzero : ∀ term ∈ terms, term.isZero = false) (separated : Separated terms) :
    IsNormalForm ⟨sortTerms terms⟩ where
  wellFormed := fun term member => (tidy term (mem_sortTerms.mp member)).wellFormed
  nonzero := fun term member =>
    Element.isZero_eq_false_iff.mp (nonzero term (mem_sortTerms.mp member))
  variablesSorted := fun term member => (tidy term (mem_sortTerms.mp member)).sorted
  termsSorted := sorted_sortTerms terms
  distinct := by
    have apart : terms.Pairwise fun s o => s.monomial ≠ o.monomial := by
      refine separated.imp_of_mem fun {s o} sMember oMember last same => ?_
      have zero := last (((tidy s sMember).slice_eq_iff (tidy o oMember)).mp same)
      rw [nonzero o oMember] at zero
      cases zero
    exact ((List.perm_insertionSort Term.Le terms).pairwise_iff fun different => different.symm).mpr
      apart

theorem termsEq_zero_eq_false {terms : List Term}
    (nonzero : ∀ term ∈ terms, term.isZero = false) :
    Constraint.termsEq terms [Term.constant Element.zero] = false := by
  cases terms with
  | nil => rfl
  | cons term rest =>
      cases rest with
      | cons second rest => simp [Constraint.termsEq, List.isEqv]
      | nil =>
          cases term with
          | expression coeff inner degree => rfl
          | constant c =>
              have different := Element.isZero_eq_false_iff.mp
                (nonzero (Term.constant c) List.mem_cons_self)
              have unequal : c.eq Element.zero = false := by
                apply Bool.eq_false_iff.mpr
                exact fun same => different (Element.eq_iff.mp same)
              simp [Constraint.termsEq, List.isEqv, Term.eq, unequal]

theorem degreeOf_sortTerms (terms : List Term) :
    Constraint.degreeOf (sortTerms terms) = Constraint.degreeOf terms := by
  apply le_antisymm
  · exact degreeOf_le_iff.mpr fun term member =>
      degreeOf_le_iff.mp (le_refl _) term (mem_sortTerms.mp member)
  · exact degreeOf_le_iff.mpr fun term member =>
      degreeOf_le_iff.mp (le_refl _) term (mem_sortTerms.mpr member)

/-- `normalize` computes a normal form, and returns it unless its degree exceeds two. -/
theorem Constraint.WellFormed.normalize_eq {c : Constraint} (wellFormed : c.WellFormed) :
    ∃ n, c.normalize = (if n.degree ≤ 2 then some n else none) ∧ IsNormalForm n ∧
      n.polynomial = c.polynomial ∧
      ∀ bound, (∀ term ∈ c.terms, term.degree ≤ bound) → ∀ term ∈ n.terms, term.degree ≤ bound := by
  obtain ⟨tidied, mapped, tidy, tidiedSum, tidiedDegrees⟩ := mapM_normalize wellFormed
  have sortedTidy : ∀ term ∈ sortTerms tidied, term.Tidy := fun term member =>
    tidy term (mem_sortTerms.mp member)
  have constantsLast : (sortTerms tidied).Pairwise
      fun s o => s.isConstant = true → o.isConstant = true :=
    (sorted_sortTerms tidied).imp_of_mem fun _ member order =>
      isConstant_of_le (sortedTidy _ member).wellFormed order
  obtain ⟨combined, folds, combinedTidy, separated, combinedSum, combinedDegrees⟩ :=
    foldlM_combineInto [] sortedTidy constantsLast nofun List.Pairwise.nil (Or.inl nofun)
  generalize final : (combined.filter fun el => el.isZero == false) = terms
  have membership : ∀ term ∈ terms, term ∈ combined ∧ term.isZero = false := by
    intro term member
    rw [← final, List.mem_filter, beq_iff_eq] at member
    exact member
  have termsTidy : ∀ term ∈ terms, term.Tidy := fun term member =>
    combinedTidy term (membership term member).1
  have termsNonzero : ∀ term ∈ terms, term.isZero = false := fun term member =>
    (membership term member).2
  have termsSeparated : Separated terms := final ▸ separated.filter _
  have termsBound : ∀ bound, (∀ term ∈ sortTerms tidied, term.degree ≤ bound) →
      ∀ term ∈ terms, term.degree ≤ bound := fun bound all term member =>
    combinedDegrees bound nofun all term (membership term member).1
  have shrinks : Constraint.degreeOf terms ≤ Constraint.degreeOf (sortTerms tidied) :=
    degreeOf_le_iff.mpr (termsBound _ (degreeOf_le_iff.mp (le_refl _)))
  have remains : ¬ (Constraint.degreeOf terms = 0 ∧
      Constraint.termsEq terms [Term.constant Element.zero] = true) := by
    rw [termsEq_zero_eq_false termsNonzero]
    exact fun both => Bool.false_ne_true both.2
  refine ⟨⟨sortTerms terms⟩, ?_,
    isNormalForm_of_separated termsTidy termsNonzero termsSeparated, ?_, ?_⟩
  · change _ = if Constraint.degreeOf (sortTerms terms) ≤ 2 then _ else _
    rw [degreeOf_sortTerms, Constraint.normalize, mapped]
    simp only [Option.bind_eq_bind, Option.bind_some]
    rw [folds]
    simp only [Option.bind_some, final]
    by_cases small : Constraint.degreeOf terms ≤ 2
    · rw [guard, if_pos small, if_pos small]
      simp only [Option.pure_def, Option.bind_some]
      rw [if_neg remains, mapM_normalize_tidy termsTidy]
      simp only [Option.bind_some]
      rw [guard, if_pos shrinks]
      rfl
    · rw [guard, if_neg small, if_neg small]
      rfl
  · change sumOf (sortTerms terms) = sumOf c.terms
    rw [sumOf_sortTerms, ← final, sumOf_filter_nonzero, combinedSum, sumOf_nil, zero_add,
      sumOf_sortTerms, tidiedSum]
  · intro bound all term member
    exact termsBound bound (fun sorted sortedMember =>
      tidiedDegrees bound all sorted (mem_sortTerms.mp sortedMember)) term
        (mem_sortTerms.mp member)

/-- `normalize` returns on every constraint of degree at most two. -/
theorem Constraint.WellFormed.normalize {c : Constraint} (wellFormed : c.WellFormed)
    (degrees : c.degree ≤ 2) :
    ∃ n, c.normalize = some n ∧ IsNormalForm n ∧ n.polynomial = c.polynomial ∧
      n.degree ≤ c.degree := by
  obtain ⟨n, normalizes, normal, polynomials, bounds⟩ := wellFormed.normalize_eq
  have shrinks : n.degree ≤ c.degree :=
    degreeOf_le_iff.mpr (bounds c.degree (degreeOf_le_iff.mp (le_refl _)))
  rw [if_pos (shrinks.trans degrees)] at normalizes
  exact ⟨n, normalizes, normal, polynomials, shrinks⟩

/-- What `normalize` returns, it returns as a normal form of degree at most two. -/
theorem Constraint.WellFormed.of_normalize {c n : Constraint} (wellFormed : c.WellFormed)
    (normalizes : c.normalize = some n) :
    IsNormalForm n ∧ n.polynomial = c.polynomial ∧ n.degree ≤ 2 := by
  obtain ⟨m, computed, normal, polynomials, _⟩ := wellFormed.normalize_eq
  rw [normalizes] at computed
  by_cases small : m.degree ≤ 2
  · rw [if_pos small] at computed
    cases computed
    exact ⟨normal, polynomials, small⟩
  · rw [if_neg small] at computed
    cases computed

/-! ## Uniqueness -/

theorem coeff_polynomial_of_eq {term : Term} {key : Multiset Variable}
    (same : term.monomial = key) :
    MvPolynomial.coeff (Multiset.toFinsupp key) term.polynomial = term.getCoef.value := by
  rw [Term.polynomial, same, MvPolynomial.coeff_monomial, if_pos rfl]

theorem coeff_polynomial_of_ne {term : Term} {key : Multiset Variable}
    (different : term.monomial ≠ key) :
    MvPolynomial.coeff (Multiset.toFinsupp key) term.polynomial = 0 := by
  rw [Term.polynomial, MvPolynomial.coeff_monomial, if_neg]
  exact fun same => different (Multiset.toFinsupp.injective same)

theorem coeff_sumOf_of_forall_ne {terms : List Term} {key : Multiset Variable}
    (different : ∀ term ∈ terms, term.monomial ≠ key) :
    MvPolynomial.coeff (Multiset.toFinsupp key) (sumOf terms) = 0 := by
  induction terms with
  | nil => rw [sumOf_nil, MvPolynomial.coeff_zero]
  | cons term terms inductionHypothesis =>
      obtain ⟨head, rest⟩ := List.forall_mem_cons.mp different
      rw [sumOf_cons, MvPolynomial.coeff_add, coeff_polynomial_of_ne head,
        inductionHypothesis rest, zero_add]

theorem coeff_sumOf_of_mem {terms : List Term} {term : Term} (member : term ∈ terms)
    (distinct : terms.Pairwise fun s o => s.monomial ≠ o.monomial) :
    MvPolynomial.coeff (Multiset.toFinsupp term.monomial) (sumOf terms) = term.getCoef.value := by
  induction terms with
  | nil => exact absurd member List.not_mem_nil
  | cons head rest inductionHypothesis =>
      obtain ⟨headApart, restApart⟩ := List.pairwise_cons.mp distinct
      rw [sumOf_cons, MvPolynomial.coeff_add]
      rcases List.mem_cons.mp member with rfl | inRest
      · rw [coeff_polynomial_of_eq rfl, coeff_sumOf_of_forall_ne, add_zero]
        exact fun other otherMember => (headApart other otherMember).symm
      · rw [coeff_polynomial_of_ne (headApart term inRest), inductionHypothesis inRest restApart,
          zero_add]

namespace IsNormalForm

variable {c d : Constraint}

theorem mem_of_polynomial_eq (normalLeft : IsNormalForm c) (normalRight : IsNormalForm d)
    (polynomials : c.polynomial = d.polynomial) {term : Term} (member : term ∈ c.terms) :
    term ∈ d.terms := by
  have coefficient := coeff_sumOf_of_mem member normalLeft.distinct
  have moved : MvPolynomial.coeff (Multiset.toFinsupp term.monomial) (sumOf d.terms) =
      term.getCoef.value := by
    rw [← coefficient]
    exact congrArg (MvPolynomial.coeff _) polynomials.symm
  have nonzero := normalLeft.nonzero term member
  by_cases present : ∃ other ∈ d.terms, other.monomial = term.monomial
  · obtain ⟨other, otherMember, same⟩ := present
    have otherCoefficient := coeff_sumOf_of_mem otherMember normalRight.distinct
    rw [same, moved] at otherCoefficient
    have termTidy := normalLeft.tidy term member
    have otherTidy := normalRight.tidy other otherMember
    have equal : term = other := termTidy.eq_of_slice_eq otherTidy
      ((termTidy.slice_eq_iff otherTidy).mp same.symm) nonzero otherCoefficient
    rw [equal]
    exact otherMember
  · rw [coeff_sumOf_of_forall_ne fun other otherMember same =>
      present ⟨other, otherMember, same⟩] at moved
    exact absurd moved.symm nonzero

theorem nodup (normal : IsNormalForm c) : c.terms.Nodup :=
  normal.distinct.imp fun different same => different (congrArg Term.monomial same)

/-- Two normal forms of one polynomial are the same list. -/
theorem unique (normalLeft : IsNormalForm c) (normalRight : IsNormalForm d)
    (polynomials : c.polynomial = d.polynomial) : c = d := by
  have permuted : c.terms.Perm d.terms := by
    apply (List.perm_ext_iff_of_nodup normalLeft.nodup normalRight.nodup).mpr
    intro term
    exact ⟨normalLeft.mem_of_polynomial_eq normalRight polynomials,
      normalRight.mem_of_polynomial_eq normalLeft polynomials.symm⟩
  have terms : c.terms = d.terms :=
    permuted.eq_of_pairwise (fun s o sMember oMember =>
      (normalLeft.tidy s sMember).antisymm (normalRight.tidy o oMember)
        (normalLeft.nonzero s sMember)) normalLeft.termsSorted normalRight.termsSorted
  cases c
  cases d
  exact congrArg Constraint.mk terms

theorem normalize_eq (normal : IsNormalForm c) (degrees : c.degree ≤ 2) :
    c.normalize = some c := by
  obtain ⟨n, normalizes, nNormal, polynomials, _⟩ := normal.wellFormed.normalize degrees
  rw [normalizes, nNormal.unique normal polynomials]

end IsNormalForm

/-- On normal forms the equality of the source is equality. -/
theorem IsNormalForm.termsEq_iff {c d : Constraint} (normalLeft : IsNormalForm c)
    (normalRight : IsNormalForm d) :
    Constraint.termsEq c.terms d.terms = true ↔ c = d := by
  constructor
  · intro equal
    apply normalLeft.unique normalRight
    exact sumOf_eq_of_termsEq equal
  · rintro rfl
    exact termsEq_self c.terms

end Airbender.Constraints
