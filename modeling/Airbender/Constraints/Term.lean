import Mathlib.Algebra.MvPolynomial.Eval
import Mathlib.Data.Finsupp.Multiset
import Mathlib.Data.List.Sort
import Mathlib.Data.Prod.Lex
import Airbender.Field.Element

/-!
# Terms of a constraint

A term is a coefficient times at most four variables, kept in the first `degree` slots of a
fixed array.  Terms are ordered by descending degree, then by their variables, then by
coefficient.
-/

namespace Airbender.Constraints

open Circuit (F)
open Mersenne31 (Element)

/-- The index of a `Variable`, a `u64`. -/
abbrev Variable := Fin (2 ^ 64)

/-- `Variable::placeholder_variable`: `u64::MAX`. -/
def placeholderVariable : Variable := Fin.last (2 ^ 64 - 1)

def isPlaceholder (var : Variable) : Bool := var == placeholderVariable

/-- `cmp` of two slices: the lexicographic order. -/
def compareSlices (slots slots' : List Variable) : Ordering :=
  if slots < slots' then .lt else if slots = slots' then .eq else .gt

theorem compareSlices_eq_lt_iff {slots slots' : List Variable} :
    compareSlices slots slots' = .lt ↔ slots < slots' := by
  rw [compareSlices]
  split_ifs with smaller same
  · exact iff_of_true rfl smaller
  · exact iff_of_false nofun smaller
  · exact iff_of_false nofun smaller

theorem compareSlices_eq_eq_iff {slots slots' : List Variable} :
    compareSlices slots slots' = .eq ↔ slots = slots' := by
  rw [compareSlices]
  split_ifs with smaller same
  · exact iff_of_false nofun (ne_of_lt smaller)
  · exact iff_of_true rfl same
  · exact iff_of_false nofun same

/-- `TERM_INNER_CAPACITY`. -/
def termInnerCapacity : Nat := 4

inductive Term
  | constant (c : Element)
  | expression (coeff : Element) (inner : List Variable) (degree : Nat)
deriving DecidableEq

def Term.degree : Term → Nat
  | constant _ => 0
  | expression _ _ degree => degree

def Term.getCoef : Term → Element
  | constant c => c
  | expression coeff _ _ => coeff

def Term.asSlice : Term → List Variable
  | constant _ => []
  | expression _ inner degree => inner.take degree

def Term.isConstant : Term → Bool
  | constant _ => true
  | expression _ _ _ => false

def Term.isZero (term : Term) : Bool := term.getCoef.isZero

/-- `PartialEq`, derived from that of the fields. -/
def Term.eq : Term → Term → Bool
  | constant c, constant d => c.eq d
  | expression coeff inner degree, expression coeff' inner' degree' =>
      coeff.eq coeff' && inner == inner' && degree == degree'
  | _, _ => false

/-- `Ord::cmp`, where the assertions of the comparison hold. -/
def Term.cmp (s o : Term) : Ordering :=
  (compare o.degree s.degree).then <|
    match s, o with
    | constant c, constant d => compare c.asU64Reduced d.asU64Reduced
    | constant _, expression _ _ _ => .lt
    | expression _ _ _, constant _ => .gt
    | expression coeff inner degree, expression coeff' inner' degree' =>
        (compareSlices (inner.take degree) (inner'.take degree')).then
          (compare coeff.asU64Reduced coeff'.asU64Reduced)

/-- Whether the assertions inside `Ord::cmp` pass: terms of one degree that both hold
variables have them sorted. -/
def Term.cmpAsserts : Term → Term → Bool
  | expression _ inner degree, expression _ inner' degree' =>
      degree != degree' ||
        decide ((inner.take degree).Pairwise (· ≤ ·) ∧ (inner'.take degree').Pairwise (· ≤ ·))
  | _, _ => true

/-- `s` may stand before `o` in a sorted list. -/
def Term.Le (s o : Term) : Prop := s.cmp o ≠ .gt

instance : DecidableRel Term.Le := fun s o => inferInstanceAs (Decidable (s.cmp o ≠ .gt))

/-- `sort` on a vector of terms. -/
def sortTerms (terms : List Term) : List Term := terms.insertionSort Term.Le

namespace Term

/-- A zero coefficient leaves the constant zero.  The slots past the degree have to be
placeholders. -/
def normalize (term : Term) : Option Term :=
  let term := match term with
    | constant c => constant c
    | expression coeff inner degree =>
        if coeff.isZero then constant Element.zero else expression coeff inner degree
  match term with
  | constant c => some (constant c)
  | expression coeff inner degree =>
      if (inner.drop degree).all isPlaceholder then
        some (expression coeff
          ((inner.take degree).insertionSort (· ≤ ·) ++ inner.drop degree) degree)
      else
        none

/-- Adds `other` to a term with the same variables.  The flag tells whether it was added. -/
def combine (term other : Term) : Option (Term × Bool) :=
  if term.degree ≠ other.degree then
    some (term, false)
  else
    match term, other with
    | constant c, constant d => some (constant (c.addAssign d), true)
    | constant c, expression _ _ degree => if 0 < degree then some (constant c, false) else none
    | expression coeff inner degree, constant _ =>
        if 0 < degree then some (expression coeff inner degree, false) else none
    | expression coeff inner degree, expression coeff' inner' degree' =>
        if inner.take degree = inner'.take degree' then
          some (expression (coeff.addAssign coeff') inner degree, true)
        else
          some (expression coeff inner degree, false)

def scale (factor : Element) : Term → Term
  | constant c => constant (c.mulAssign factor)
  | expression coeff inner degree => expression (coeff.mulAssign factor) inner degree

def containsVar (var : Variable) (term : Term) : Bool := term.asSlice.contains var

def degreeForVar (var : Variable) (term : Term) : Nat := term.asSlice.count var

def prefactorForVar (var : Variable) (term : Term) : Option Element :=
  if term.containsVar var then some term.getCoef else none

/-- `From<(F, Variable)>`. -/
def ofScaledVariable (coeff : Element) (var : Variable) : Term :=
  expression coeff (var :: List.replicate 3 placeholderVariable) 1

/-- `From<Variable>`. -/
def ofVariable (var : Variable) : Term := ofScaledVariable Element.one var

/-! ## Meaning -/

/-- The variables of a term with their multiplicities. -/
def monomial (term : Term) : Multiset Variable := term.asSlice

/-- The value of a term when `assignment` gives the variables. -/
def evaluate (assignment : Variable → F) (term : Term) : F :=
  term.getCoef.value * (term.asSlice.map assignment).prod

/-- The polynomial that a term denotes. -/
noncomputable def polynomial (term : Term) : MvPolynomial Variable F :=
  MvPolynomial.monomial (Multiset.toFinsupp term.monomial) term.getCoef.value

/-- The shape of a term of the source: an expression has variables, at most as many as there
are slots, and placeholders in the slots past its degree. -/
def WellFormed : Term → Prop
  | constant _ => True
  | expression _ inner degree =>
      inner.length = termInnerCapacity ∧ 0 < degree ∧ degree ≤ termInnerCapacity ∧
        (inner.drop degree).all isPlaceholder

instance (term : Term) : Decidable term.WellFormed :=
  match term with
  | constant _ => inferInstanceAs (Decidable True)
  | expression _ _ _ => inferInstanceAs (Decidable (_ ∧ _ ∧ _ ∧ _))

/-- A term that `normalize` leaves alone. -/
structure Tidy (term : Term) : Prop where
  wellFormed : term.WellFormed
  sorted : term.asSlice.Pairwise (· ≤ ·)
  nonzero : term.isConstant = false → term.getCoef.value ≠ 0

theorem evaluate_eq (assignment : Variable → F) (term : Term) :
    term.evaluate assignment = MvPolynomial.eval assignment term.polynomial := by
  rw [polynomial, MvPolynomial.eval_monomial, evaluate, Finsupp.prod, Multiset.toFinsupp_support]
  simp only [Multiset.toFinsupp_apply]
  rw [← Finset.prod_multiset_map_count]
  rfl

theorem polynomial_constant (c : Element) :
    (constant c).polynomial = MvPolynomial.C c.value := by
  rw [polynomial, monomial, asSlice, Multiset.coe_nil, map_zero]
  rfl

theorem polynomial_eq_zero_iff {term : Term} :
    term.polynomial = 0 ↔ term.getCoef.value = 0 :=
  MvPolynomial.monomial_eq_zero

theorem polynomial_of_isZero {term : Term} (zero : term.isZero = true) : term.polynomial = 0 :=
  polynomial_eq_zero_iff.mpr (Element.isZero_iff.mp zero)

/-! ## Shapes -/

theorem WellFormed.degree_eq {term : Term} (wellFormed : term.WellFormed) :
    term.degree = term.asSlice.length := by
  cases term with
  | constant c => rfl
  | expression coeff inner degree =>
      obtain ⟨length, _, bound, _⟩ := wellFormed
      change degree = (inner.take degree).length
      rw [List.length_take, length]
      omega

theorem WellFormed.slice_ne_nil {coeff : Element} {inner : List Variable} {degree : Nat}
    (wellFormed : (expression coeff inner degree).WellFormed) : inner.take degree ≠ [] := by
  intro empty
  have length := wellFormed.degree_eq
  rw [asSlice, empty] at length
  exact absurd length (Nat.pos_iff_ne_zero.mp wellFormed.2.1)

/-- Slots that hold placeholders only are known from their number. -/
theorem eq_replicate_of_placeholders {slots : List Variable}
    (placeholders : slots.all isPlaceholder) :
    slots = List.replicate slots.length placeholderVariable := by
  apply List.eq_replicate_of_mem
  intro var member
  have tested := List.all_eq_true.mp placeholders var member
  exact beq_iff_eq.mp tested

/-- A tidy term is determined by its variables and its nonzero coefficient. -/
theorem Tidy.eq_of_slice_eq {s o : Term} (tidyLeft : s.Tidy) (tidyRight : o.Tidy)
    (slices : s.asSlice = o.asSlice) (nonzero : s.getCoef.value ≠ 0)
    (values : s.getCoef.value = o.getCoef.value) : s = o := by
  have coefficients : s.getCoef = o.getCoef := Element.eq_of_value_eq nonzero values
  have degrees : s.degree = o.degree := by
    rw [tidyLeft.wellFormed.degree_eq, tidyRight.wellFormed.degree_eq, slices]
  cases s with
  | constant c =>
      cases o with
      | constant d => exact congrArg constant coefficients
      | expression coeff inner degree =>
          exact absurd slices.symm tidyRight.wellFormed.slice_ne_nil
  | expression coeff inner degree =>
      cases o with
      | constant d => exact absurd slices tidyLeft.wellFormed.slice_ne_nil
      | expression coeff' inner' degree' =>
          obtain ⟨length, _, _, placeholders⟩ := tidyLeft.wellFormed
          obtain ⟨length', _, _, placeholders'⟩ := tidyRight.wellFormed
          change degree = degree' at degrees
          change coeff = coeff' at coefficients
          change inner.take degree = inner'.take degree' at slices
          subst degrees coefficients
          have rests : inner.drop degree = inner'.drop degree := by
            rw [eq_replicate_of_placeholders placeholders,
              eq_replicate_of_placeholders placeholders', List.length_drop, List.length_drop,
              length, length']
          have inners : inner = inner' := by
            rw [← List.take_append_drop degree inner, slices, rests, List.take_append_drop]
          rw [inners]

/-! ## Normalizing and combining -/

theorem tidy_constant (c : Element) : (constant c).Tidy where
  wellFormed := trivial
  sorted := List.Pairwise.nil
  nonzero := nofun

theorem normalize_of_tidy {term : Term} (tidy : term.Tidy) : term.normalize = some term := by
  cases term with
  | constant c => rfl
  | expression coeff inner degree =>
      have nonzero : coeff.isZero = false := Element.isZero_eq_false_iff.mpr (tidy.nonzero rfl)
      have sorted : (inner.take degree).insertionSort (· ≤ ·) = inner.take degree :=
        List.Pairwise.insertionSort_eq tidy.sorted
      rw [normalize]
      simp only [nonzero, Bool.false_eq_true, if_false]
      rw [if_pos tidy.wellFormed.2.2.2, sorted, List.take_append_drop]

theorem normalize_of_isZero {term : Term} (zero : term.isZero = true)
    (isExpression : term.isConstant = false) :
    term.normalize = some (constant Element.zero) := by
  cases term with
  | constant c => cases isExpression
  | expression coeff inner degree =>
      have tested : coeff.isZero = true := zero
      rw [normalize]
      simp only [tested, if_true]

/-- Normalizing sorts the variables, or drops a term whose coefficient is zero. -/
theorem WellFormed.normalize {term : Term} (wellFormed : term.WellFormed) :
    ∃ normal, term.normalize = some normal ∧ normal.Tidy ∧
      normal.polynomial = term.polynomial ∧ normal.degree ≤ term.degree ∧
      (normal = constant Element.zero ∨ normal.monomial = term.monomial) := by
  cases term with
  | constant c => exact ⟨constant c, rfl, tidy_constant c, rfl, le_refl _, Or.inr rfl⟩
  | expression coeff inner degree =>
      by_cases zero : coeff.isZero = true
      · refine ⟨constant Element.zero, normalize_of_isZero zero rfl, tidy_constant _, ?_,
          Nat.zero_le _, Or.inl rfl⟩
        have vanished : (expression coeff inner degree).polynomial = 0 :=
          polynomial_of_isZero zero
        rw [vanished, polynomial_of_isZero rfl]
      · obtain ⟨length, positive, bound, placeholders⟩ := wellFormed
        have taken : (inner.take degree).length = degree := by
          rw [List.length_take, length]
          omega
        have sortedLength : ((inner.take degree).insertionSort (· ≤ ·)).length = degree := by
          rw [List.length_insertionSort, taken]
        have slots : (((inner.take degree).insertionSort (· ≤ ·)) ++ inner.drop degree).take degree
            = (inner.take degree).insertionSort (· ≤ ·) := by
          rw [List.take_append_of_le_length (by omega), List.take_of_length_le (by omega)]
        have rest : (((inner.take degree).insertionSort (· ≤ ·)) ++ inner.drop degree).drop degree
            = inner.drop degree := by
          rw [List.drop_append_of_le_length (by omega), List.drop_of_length_le (by omega),
            List.nil_append]
        have permuted := List.perm_insertionSort (· ≤ ·) (inner.take degree)
        have monomials : (expression coeff
            ((inner.take degree).insertionSort (· ≤ ·) ++ inner.drop degree) degree).monomial =
            (expression coeff inner degree).monomial := by
          rw [monomial, monomial, asSlice, asSlice, slots]
          exact Multiset.coe_eq_coe.mpr permuted
        refine ⟨expression coeff
          ((inner.take degree).insertionSort (· ≤ ·) ++ inner.drop degree) degree,
          ?_, ⟨⟨?_, positive, bound, ?_⟩, ?_, ?_⟩, ?_, le_refl _, Or.inr monomials⟩
        · rw [Term.normalize]
          simp only [if_neg zero]
          rw [if_pos placeholders]
        · rw [List.length_append, sortedLength, List.length_drop, length]
          omega
        · rw [rest]
          exact placeholders
        · rw [asSlice, slots]
          exact List.pairwise_insertionSort (· ≤ ·) (inner.take degree)
        · intro _
          exact Element.isZero_eq_false_iff.mp (Bool.not_eq_true _ ▸ zero)
        · rw [polynomial, polynomial, monomials]
          rfl

/-- Terms with other variables are left apart. -/
theorem combine_of_slice_ne {s o : Term} (wellFormedLeft : s.WellFormed)
    (wellFormedRight : o.WellFormed) (slices : s.asSlice ≠ o.asSlice) :
    s.combine o = some (s, false) := by
  by_cases degrees : s.degree = o.degree
  · rw [combine.eq_def, if_neg (not_not.mpr degrees)]
    cases s with
    | constant c =>
        cases o with
        | constant d => exact absurd rfl slices
        | expression coeff inner degree => exact if_pos wellFormedRight.2.1
    | expression coeff inner degree =>
        cases o with
        | constant d => exact if_pos wellFormedLeft.2.1
        | expression coeff' inner' degree' => exact if_neg slices
  · rw [combine.eq_def, if_pos degrees]

/-- Terms with the same variables add up.  What `normalize` leaves of the sum has the same
variables, unless the coefficients cancel. -/
theorem combine_of_slice_eq {s o : Term} (tidyLeft : s.Tidy) (wellFormedRight : o.WellFormed)
    (slices : s.asSlice = o.asSlice) :
    ∃ sum merged, s.combine o = some (sum, true) ∧ sum.normalize = some merged ∧ merged.Tidy ∧
      merged.polynomial = s.polynomial + o.polynomial ∧ merged.degree ≤ s.degree ∧
      (merged = constant Element.zero ∨ merged.asSlice = s.asSlice) := by
  have degrees : s.degree = o.degree := by
    rw [tidyLeft.wellFormed.degree_eq, wellFormedRight.degree_eq, slices]
  cases s with
  | constant c =>
      cases o with
      | constant d =>
          refine ⟨constant (c.addAssign d), constant (c.addAssign d), rfl, rfl,
            tidy_constant _, ?_, le_refl _, Or.inr rfl⟩
          rw [polynomial_constant, polynomial_constant, polynomial_constant,
            Element.value_addAssign, map_add]
      | expression coeff inner degree => exact absurd slices.symm wellFormedRight.slice_ne_nil
  | expression coeff inner degree =>
      cases o with
      | constant d => exact absurd slices tidyLeft.wellFormed.slice_ne_nil
      | expression coeff' inner' degree' =>
          have combined : (expression coeff inner degree).combine
              (expression coeff' inner' degree') =
              some (expression (coeff.addAssign coeff') inner degree, true) := by
            rw [combine.eq_def, if_neg (not_not.mpr degrees)]
            exact if_pos slices
          have sum : (expression (coeff.addAssign coeff') inner degree).polynomial =
              (expression coeff inner degree).polynomial +
                (expression coeff' inner' degree').polynomial := by
            have monomials : (expression coeff' inner' degree').monomial =
                (expression coeff inner degree).monomial :=
              congrArg (fun slots : List Variable => (slots : Multiset Variable)) slices.symm
            rw [polynomial, polynomial, polynomial, monomials, ← map_add]
            congr 1
            exact Element.value_addAssign coeff coeff'
          by_cases zero : (coeff.addAssign coeff').isZero = true
          · refine ⟨_, constant Element.zero, combined, normalize_of_isZero zero rfl,
              tidy_constant _, ?_, Nat.zero_le _, Or.inl rfl⟩
            have vanished :
                (expression (coeff.addAssign coeff') inner degree).polynomial = 0 :=
              polynomial_of_isZero zero
            rw [← sum, vanished, polynomial_of_isZero rfl]
          · have tidy : (expression (coeff.addAssign coeff') inner degree).Tidy := {
              wellFormed := tidyLeft.wellFormed
              sorted := tidyLeft.sorted
              nonzero := fun _ => fun vanishes => zero (Element.isZero_iff.mpr vanishes) }
            exact ⟨_, _, combined, normalize_of_tidy tidy, tidy, sum, le_refl _, Or.inr rfl⟩

/-! ## The order of terms -/

/-- The order of terms is the lexicographic order of these keys. -/
def sortKey (term : Term) : ℕᵒᵈ ×ₗ (Bool ×ₗ (List Variable ×ₗ ℕ)) :=
  toLex (OrderDual.toDual term.degree, toLex (!term.isConstant,
    toLex (term.asSlice, term.getCoef.asU64Reduced)))

theorem then_ne_gt_iff {first second : Ordering} :
    first.then second ≠ .gt ↔ first = .lt ∨ first = .eq ∧ second ≠ .gt := by
  cases first <;> simp [Ordering.then]

theorem compare_nat_ne_gt_iff {a b : Nat} : compare a b ≠ .gt ↔ a ≤ b := by
  rw [ne_eq, Nat.compare_eq_gt, not_lt]

theorem le_iff {s o : Term} : s.Le o ↔ s.sortKey ≤ o.sortKey := by
  rw [Term.Le, Term.cmp.eq_def, then_ne_gt_iff, sortKey, sortKey, Prod.Lex.toLex_le_toLex,
    Nat.compare_eq_lt, Nat.compare_eq_eq, OrderDual.toDual_lt_toDual]
  have degrees : o.degree = s.degree ↔
      OrderDual.toDual s.degree = OrderDual.toDual o.degree := eq_comm
  rw [degrees]
  refine or_congr Iff.rfl (and_congr Iff.rfl ?_)
  rw [Prod.Lex.toLex_le_toLex]
  cases s with
  | constant c =>
      cases o with
      | constant d =>
          rw [Prod.Lex.toLex_le_toLex]
          simp [isConstant, asSlice, getCoef, compare_nat_ne_gt_iff]
      | expression coeff inner degree => simp [isConstant]
  | expression coeff inner degree =>
      cases o with
      | constant d => simp [isConstant]
      | expression coeff' inner' degree' =>
          rw [Prod.Lex.toLex_le_toLex]
          simp [isConstant, asSlice, getCoef, then_ne_gt_iff, compare_nat_ne_gt_iff,
            compareSlices_eq_lt_iff, compareSlices_eq_eq_iff]

instance : Std.Total Term.Le :=
  ⟨fun s o => by
    rw [le_iff, le_iff]
    exact le_total s.sortKey o.sortKey⟩

instance : IsTrans Term Term.Le :=
  ⟨fun _ _ _ first second => le_iff.mpr ((le_iff.mp first).trans (le_iff.mp second))⟩

theorem Tidy.antisymm {s o : Term} (tidyLeft : s.Tidy) (tidyRight : o.Tidy)
    (nonzero : s.getCoef.value ≠ 0) (first : s.Le o) (second : o.Le s) : s = o := by
  have keys : s.sortKey = o.sortKey := le_antisymm (le_iff.mp first) (le_iff.mp second)
  have entries : (s.asSlice, s.getCoef.asU64Reduced) = (o.asSlice, o.getCoef.asU64Reduced) :=
    congrArg (fun key => ofLex (ofLex (ofLex key).2).2) keys
  obtain ⟨slices, coefficients⟩ := Prod.mk.inj entries
  apply tidyLeft.eq_of_slice_eq tidyRight slices nonzero
  rw [Element.asU64Reduced_eq, Element.asU64Reduced_eq] at coefficients
  exact ZMod.val_injective Circuit.modulus coefficients

/-- No assertion of the comparison fails on terms that were normalized before the sort. -/
theorem Tidy.cmpAsserts {s o : Term} (tidyLeft : s.Tidy) (tidyRight : o.Tidy) :
    s.cmpAsserts o = true := by
  cases s with
  | constant c => rfl
  | expression coeff inner degree =>
      cases o with
      | constant d => rfl
      | expression coeff' inner' degree' =>
          apply Bool.or_eq_true_iff.mpr
          right
          exact decide_eq_true ⟨tidyLeft.sorted, tidyRight.sorted⟩

end Term

end Airbender.Constraints
