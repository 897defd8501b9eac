import Airbender.Field.Element
import Airbender.Field.QuarticField
import Airbender.Lib.FieldRepresentation
import Airbender.Lib.QuadraticExtension

/-!
# Stored elements of the extensions

`Mersenne31Complex` and `Mersenne31Quartic` as the host keeps them: two and four stored elements of
the base field, on which the operations work without normalizing the zeros.  They are compared with
the extensions by a square root of `-1` and of `2 + i`.
-/

namespace Airbender.Mersenne31

open Circuit (F)

/-! ## The complex extension -/

structure StoredComplex where
  c0 : Element
  c1 : Element
deriving DecidableEq

namespace StoredComplex

/-- `is_zero_impl`. -/
def isZero (a : StoredComplex) : Bool := a.c0.isZero && a.c1.isZero

/-- `add_assign_impl`. -/
def addAssign (a other : StoredComplex) : StoredComplex :=
  ⟨a.c0.addAssign other.c0, a.c1.addAssign other.c1⟩

/-- `sub_assign_impl`. -/
def subAssign (a other : StoredComplex) : StoredComplex :=
  ⟨a.c0.subAssign other.c0, a.c1.subAssign other.c1⟩

/-- `mul_assign_impl`. -/
def mulAssign (a other : StoredComplex) : StoredComplex :=
  let v0 := a.c0.mulAssign other.c0
  let v1 := a.c1.mulAssign other.c1
  let c1 := a.c1.addAssign a.c0
  let t0 := other.c0.addAssign other.c1
  let c1 := c1.mulAssign t0
  let c1 := c1.subAssign v0
  let c1 := c1.subAssign v1
  ⟨v0.subAssign v1, c1⟩

/-- `square_impl`. -/
def square (a : StoredComplex) : StoredComplex :=
  let v0 := a.c0.subAssign a.c1
  let v3 := a.c0.addAssign a.c1
  let v2 := a.c0.mulAssign a.c1
  let v0 := v0.mulAssign v3
  let v0 := v0.addAssign v2
  ⟨v0.subAssign v2, v2.double⟩

/-- `negate_impl`. -/
def negate (a : StoredComplex) : StoredComplex := ⟨a.c0.negate, a.c1.negate⟩

/-- `double_impl`. -/
def double (a : StoredComplex) : StoredComplex := ⟨a.c0.double, a.c1.double⟩

/-- `inverse_impl`. -/
def inverse (a : StoredComplex) : Option StoredComplex :=
  let v0 := a.c0.square
  let v1 := a.c1.square
  let v0 := v0.subAssign v1.mulByNonResidue
  v0.inverse.map fun inversed => ⟨a.c0.mulAssign inversed, (a.c1.mulAssign inversed).negate⟩

/-- `mul_by_non_residue`: the product with `2 + i`. -/
def mulByNonResidue (elem : StoredComplex) : StoredComplex :=
  let real := elem.c0.double.subAssign elem.c1
  let imag := elem.c1.double.addAssign elem.c0
  ⟨real, imag⟩

/-- `mul_assign_by_base`. -/
def mulAssignByBase (a : StoredComplex) (elem : Element) : StoredComplex :=
  ⟨a.c0.mulAssign elem, a.c1.mulAssign elem⟩

/-- `add_assign_base`. -/
def addAssignBase (a : StoredComplex) (elem : Element) : StoredComplex :=
  { a with c0 := a.c0.addAssign elem }

/-- `sub_assign_base`. -/
def subAssignBase (a : StoredComplex) (elem : Element) : StoredComplex :=
  { a with c0 := a.c0.subAssign elem }

/-- `from_base`. -/
def fromBase (elem : Element) : StoredComplex := ⟨elem, Element.zero⟩

end StoredComplex

/-! ## The quartic extension -/

structure StoredQuartic where
  c0 : StoredComplex
  c1 : StoredComplex
deriving DecidableEq

namespace StoredQuartic

/-- `is_zero`. -/
def isZero (a : StoredQuartic) : Bool := a.c0.isZero && a.c1.isZero

/-- `add_assign`. -/
def addAssign (a other : StoredQuartic) : StoredQuartic :=
  ⟨a.c0.addAssign other.c0, a.c1.addAssign other.c1⟩

/-- `sub_assign`. -/
def subAssign (a other : StoredQuartic) : StoredQuartic :=
  ⟨a.c0.subAssign other.c0, a.c1.subAssign other.c1⟩

/-- `mul_assign`. -/
def mulAssign (a other : StoredQuartic) : StoredQuartic :=
  let v0 := a.c0.mulAssign other.c0
  let v1 := a.c1.mulAssign other.c1
  let t := a.c0
  let c1 := a.c1.addAssign t
  let t0 := other.c0.addAssign other.c1
  let c1 := c1.mulAssign t0
  let c1 := c1.subAssign v0
  let c1 := c1.subAssign v1
  ⟨v0.addAssign v1.mulByNonResidue, c1⟩

/-- `square`. -/
def square (a : StoredQuartic) : StoredQuartic :=
  let v0 := a.c0.subAssign a.c1
  let t0 := a.c1.mulByNonResidue
  let v3 := a.c0.subAssign t0
  let v2 := a.c0.mulAssign a.c1
  let v0 := v0.mulAssign v3
  let v0 := v0.addAssign v2
  ⟨v0.addAssign v2.mulByNonResidue, v2.double⟩

/-- `negate`. -/
def negate (a : StoredQuartic) : StoredQuartic := ⟨a.c0.negate, a.c1.negate⟩

/-- `double`. -/
def double (a : StoredQuartic) : StoredQuartic := ⟨a.c0.double, a.c1.double⟩

/-- `inverse`. -/
def inverse (a : StoredQuartic) : Option StoredQuartic :=
  let v0 := a.c0.square
  let v1 := a.c1.square
  let v0 := v0.subAssign v1.mulByNonResidue
  v0.inverse.map fun inversed => ⟨a.c0.mulAssign inversed, (a.c1.mulAssign inversed).negate⟩

/-- `fused_mul_add_assign`, by `fma_implementation`. -/
def fusedMulAddAssign (dst a b : StoredQuartic) : StoredQuartic :=
  (dst.mulAssign a).addAssign b

/-- `mul_assign_by_base` of the complex extension. -/
def mulAssignByComplex (a : StoredQuartic) (elem : StoredComplex) : StoredQuartic :=
  ⟨a.c0.mulAssign elem, a.c1.mulAssign elem⟩

/-- `mul_assign_by_base` of the base field. -/
def mulAssignByBase (a : StoredQuartic) (elem : Element) : StoredQuartic :=
  ⟨a.c0.mulAssignByBase elem, a.c1.mulAssignByBase elem⟩

/-- `add_assign_base` of the complex extension. -/
def addAssignComplex (a : StoredQuartic) (elem : StoredComplex) : StoredQuartic :=
  { a with c0 := a.c0.addAssign elem }

/-- `sub_assign_base` of the complex extension. -/
def subAssignComplex (a : StoredQuartic) (elem : StoredComplex) : StoredQuartic :=
  { a with c0 := a.c0.subAssign elem }

/-- `add_assign_base` of the base field. -/
def addAssignBase (a : StoredQuartic) (elem : Element) : StoredQuartic :=
  { a with c0 := a.c0.addAssignBase elem }

/-- `sub_assign_base` of the base field. -/
def subAssignBase (a : StoredQuartic) (elem : Element) : StoredQuartic :=
  { a with c0 := a.c0.subAssignBase elem }

/-- `from_base` of the complex extension. -/
def fromComplex (elem : StoredComplex) : StoredQuartic :=
  ⟨elem, StoredComplex.fromBase Element.zero⟩

/-- `from_base` of the base field. -/
def fromBase (elem : Element) : StoredQuartic :=
  ⟨StoredComplex.fromBase elem, StoredComplex.fromBase Element.zero⟩

end StoredQuartic

/-! ## The extensions -/

/-- The base field with a square root of `-1`. -/
abbrev ComplexExtension := QuadraticAlgebra F (-1) 0

theorem minusOne_not_isSquare : ¬IsSquare (-1 : F) := by
  intro square
  exact absurd rfl (ZMod.exists_sq_eq_neg_one_iff.mp square)

instance : Fact (∀ root : F, root ^ 2 ≠ -1 + 0 * root) :=
  QuadraticExtension.fact_of_not_isSquare minusOne_not_isSquare

/-- The complex extension with a square root of `2 + i`. -/
abbrev QuarticExtension := QuadraticAlgebra ComplexExtension ⟨2, 1⟩ 0

theorem twoPlusI_not_isSquare : ¬IsSquare (⟨2, 1⟩ : ComplexExtension) := by
  rintro ⟨root, square⟩
  have norms : QuadraticAlgebra.norm root * QuadraticAlgebra.norm root = 5 := by
    rw [← map_mul, ← square]
    decide
  exact Mersenne31Quartic.five_not_isSquare ⟨_, norms.symm⟩

instance : Fact (∀ root : ComplexExtension, root ^ 2 ≠ ⟨2, 1⟩ + 0 * root) :=
  QuadraticExtension.fact_of_not_isSquare twoPlusI_not_isSquare

/-! ## What the stored elements stand for -/

namespace StoredComplex

def value (a : StoredComplex) : ComplexExtension := ⟨a.c0.value, a.c1.value⟩

variable (a b : StoredComplex) (elem : Element)

theorem isZero_iff : a.isZero = true ↔ a.value = 0 := by
  rw [isZero, Bool.and_eq_true, Element.isZero_iff, Element.isZero_iff, QuadraticAlgebra.ext_iff]
  rfl

@[simp] theorem value_addAssign : (a.addAssign b).value = a.value + b.value := by
  ext
  · exact Element.value_addAssign _ _
  · exact Element.value_addAssign _ _

@[simp] theorem value_subAssign : (a.subAssign b).value = a.value - b.value := by
  ext
  · exact Element.value_subAssign _ _
  · exact Element.value_subAssign _ _

@[simp] theorem value_negate : a.negate.value = -a.value := by
  ext
  · exact Element.value_negate _
  · exact Element.value_negate _

@[simp] theorem value_double : a.double.value = 2 * a.value := by
  rw [two_mul]
  ext
  · exact (Element.value_double _).trans (two_mul _)
  · exact (Element.value_double _).trans (two_mul _)

@[simp] theorem value_mulAssign : (a.mulAssign b).value = a.value * b.value := by
  rw [QuadraticExtension.karatsuba]
  simp only [value, mulAssign, Element.value_mulAssign, Element.value_addAssign,
    Element.value_subAssign, mul_neg_one, ← sub_eq_add_neg]

@[simp] theorem value_square : a.square.value = a.value ^ 2 := by
  rw [QuadraticExtension.square]
  simp only [value, square, Element.value_mulAssign, Element.value_addAssign,
    Element.value_subAssign, Element.value_double, mul_neg_one, sub_neg_eq_add, ← sub_eq_add_neg]

theorem inverse_value {inversed : Element}
    (cancels : QuadraticAlgebra.norm a.value * inversed.value = 1) :
    a.value * value ⟨a.c0.mulAssign inversed, (a.c1.mulAssign inversed).negate⟩ = 1 := by
  rw [← QuadraticExtension.mul_inverse a.value cancels]
  simp only [value, Element.value_mulAssign, Element.value_negate]

/-- The element that is inverted is the norm. -/
theorem value_norm :
    (a.c0.square.subAssign a.c1.square.mulByNonResidue).value = QuadraticAlgebra.norm a.value := by
  rw [QuadraticExtension.norm_eq]
  simp only [value, Element.value_subAssign, Element.value_square, Element.value_mulByNonResidue,
    mul_neg_one]

/-- There is no inverse of the zeros, and of other elements there is one. -/
theorem inverse_eq : a.value = 0 ∧ a.inverse = none ∨
    ∃ inverted, a.inverse = some inverted ∧ a.value * inverted.value = 1 := by
  have norm := value_norm a
  rw [inverse]
  by_cases zero : QuadraticAlgebra.norm a.value = 0
  · left
    refine ⟨QuadraticExtension.norm_eq_zero_iff.mp zero, ?_⟩
    rw [Element.inverse_zero (norm.trans zero), Option.map_none]
  · right
    rcases Element.inverse_eq (fun vanishes => zero (norm.symm.trans vanishes)) with
      ⟨inversed, computed, inverse⟩
    rw [computed, Option.map_some]
    refine ⟨_, rfl, inverse_value a ?_⟩
    rw [inverse, norm, mul_inv_cancel₀ zero]

@[simp] theorem value_mulByNonResidue : a.mulByNonResidue.value = a.value * ⟨2, 1⟩ := by
  ext
  · rw [QuadraticAlgebra.re_mul]
    change (a.c0.double.subAssign a.c1).value = a.c0.value * 2 + -1 * a.c1.value * 1
    rw [Element.value_subAssign, Element.value_double]
    ring
  · rw [QuadraticAlgebra.im_mul]
    change (a.c1.double.addAssign a.c0).value = a.c0.value * 1 + a.c1.value * 2 + 0 * a.c1.value * 1
    rw [Element.value_addAssign, Element.value_double]
    ring

/-- The residue of a stored element in the extension. -/
def embedded (elem : Element) : ComplexExtension := algebraMap F ComplexExtension elem.value

@[simp] theorem value_fromBase : (fromBase elem).value = embedded elem := rfl

@[simp] theorem value_mulAssignByBase :
    (a.mulAssignByBase elem).value = a.value * embedded elem := by
  rw [embedded, QuadraticAlgebra.algebraMap_eq, QuadraticExtension.mul_embedded]
  simp only [value, mulAssignByBase, Element.value_mulAssign]

@[simp] theorem value_addAssignBase :
    (a.addAssignBase elem).value = a.value + embedded elem := by
  ext
  · exact Element.value_addAssign _ _
  · exact (add_zero _).symm

@[simp] theorem value_subAssignBase :
    (a.subAssignBase elem).value = a.value - embedded elem := by
  ext
  · exact Element.value_subAssign _ _
  · exact (sub_zero _).symm

theorem implements : FieldRepresentation.Implements value isZero addAssign subAssign mulAssign
    square negate inverse :=
  ⟨isZero_iff, value_addAssign, value_subAssign, value_mulAssign, value_square, value_negate, inverse_eq⟩

theorem implementsMixed : FieldRepresentation.ImplementsMixed value embedded fromBase
    mulAssignByBase addAssignBase subAssignBase :=
  ⟨value_fromBase, value_mulAssignByBase, value_addAssignBase, value_subAssignBase⟩

end StoredComplex

namespace StoredQuartic

def value (a : StoredQuartic) : QuarticExtension := ⟨a.c0.value, a.c1.value⟩

variable (a b : StoredQuartic) (elem : Element) (complex : StoredComplex)

theorem isZero_iff : a.isZero = true ↔ a.value = 0 := by
  rw [isZero, Bool.and_eq_true, StoredComplex.isZero_iff, StoredComplex.isZero_iff]
  exact (QuadraticAlgebra.ext_iff (x := a.value) (y := 0)).symm

@[simp] theorem value_addAssign : (a.addAssign b).value = a.value + b.value := by
  ext1
  · exact StoredComplex.value_addAssign _ _
  · exact StoredComplex.value_addAssign _ _

@[simp] theorem value_subAssign : (a.subAssign b).value = a.value - b.value := by
  ext1
  · exact StoredComplex.value_subAssign _ _
  · exact StoredComplex.value_subAssign _ _

@[simp] theorem value_negate : a.negate.value = -a.value := by
  ext1
  · exact StoredComplex.value_negate _
  · exact StoredComplex.value_negate _

@[simp] theorem value_double : a.double.value = 2 * a.value := by
  rw [two_mul]
  ext1
  · exact (StoredComplex.value_double _).trans (two_mul _)
  · exact (StoredComplex.value_double _).trans (two_mul _)

@[simp] theorem value_mulAssign : (a.mulAssign b).value = a.value * b.value := by
  rw [QuadraticExtension.karatsuba]
  simp only [value, mulAssign, StoredComplex.value_mulAssign, StoredComplex.value_addAssign,
    StoredComplex.value_subAssign, StoredComplex.value_mulByNonResidue]

@[simp] theorem value_square : a.square.value = a.value ^ 2 := by
  rw [QuadraticExtension.square]
  simp only [value, square, StoredComplex.value_mulAssign, StoredComplex.value_addAssign,
    StoredComplex.value_subAssign, StoredComplex.value_double, StoredComplex.value_mulByNonResidue]

@[simp] theorem value_fusedMulAddAssign (dst : StoredQuartic) :
    (dst.fusedMulAddAssign a b).value = dst.value * a.value + b.value := by
  rw [fusedMulAddAssign, value_addAssign, value_mulAssign]

theorem inverse_value {inversed : StoredComplex}
    (cancels : QuadraticAlgebra.norm a.value * inversed.value = 1) :
    a.value * value ⟨a.c0.mulAssign inversed, (a.c1.mulAssign inversed).negate⟩ = 1 := by
  rw [← QuadraticExtension.mul_inverse a.value cancels]
  simp only [value, StoredComplex.value_mulAssign, StoredComplex.value_negate]

theorem value_norm :
    (a.c0.square.subAssign a.c1.square.mulByNonResidue).value = QuadraticAlgebra.norm a.value := by
  rw [QuadraticExtension.norm_eq]
  simp only [value, StoredComplex.value_subAssign, StoredComplex.value_square,
    StoredComplex.value_mulByNonResidue]

theorem inverse_eq : a.value = 0 ∧ a.inverse = none ∨
    ∃ inverted, a.inverse = some inverted ∧ a.value * inverted.value = 1 := by
  have norm := value_norm a
  rw [inverse]
  rcases StoredComplex.inverse_eq (a.c0.square.subAssign a.c1.square.mulByNonResidue) with
    ⟨zero, stops⟩ | ⟨inversed, computed, inverse⟩
  · left
    rw [norm] at zero
    refine ⟨QuadraticExtension.norm_eq_zero_iff.mp zero, ?_⟩
    rw [stops, Option.map_none]
  · right
    rw [computed, Option.map_some]
    refine ⟨_, rfl, inverse_value a ?_⟩
    rw [← norm, inverse]

theorem implements : FieldRepresentation.Implements value isZero addAssign subAssign mulAssign
    square negate inverse :=
  ⟨isZero_iff, value_addAssign, value_subAssign, value_mulAssign, value_square, value_negate, inverse_eq⟩

/-- An element of the complex extension in the quartic one. -/
def embeddedComplex (complex : StoredComplex) : QuarticExtension :=
  algebraMap ComplexExtension QuarticExtension complex.value

/-- The operations with an element of the complex extension. -/
theorem implementsMixedComplex : FieldRepresentation.ImplementsMixed value embeddedComplex
    fromComplex mulAssignByComplex addAssignComplex subAssignComplex := by
  constructor
  · intro complex
    rfl
  · intro a complex
    rw [embeddedComplex, QuadraticAlgebra.algebraMap_eq, QuadraticExtension.mul_embedded]
    simp only [value, mulAssignByComplex, StoredComplex.value_mulAssign]
  · intro a complex
    ext1
    · exact StoredComplex.value_addAssign _ _
    · exact (add_zero _).symm
  · intro a complex
    ext1
    · exact StoredComplex.value_subAssign _ _
    · exact (sub_zero _).symm

/-- A residue in the quartic extension. -/
def embedded (elem : Element) : QuarticExtension :=
  algebraMap ComplexExtension QuarticExtension (StoredComplex.embedded elem)

/-- The operations with an element of the base field. -/
theorem implementsMixedBase : FieldRepresentation.ImplementsMixed value embedded fromBase
    mulAssignByBase addAssignBase subAssignBase := by
  constructor
  · intro elem
    rfl
  · intro a elem
    rw [embedded, QuadraticAlgebra.algebraMap_eq, QuadraticExtension.mul_embedded]
    simp only [value, mulAssignByBase, StoredComplex.value_mulAssignByBase]
  · intro a elem
    ext1
    · exact StoredComplex.value_addAssignBase _ _
    · exact (add_zero _).symm
  · intro a elem
    ext1
    · exact StoredComplex.value_subAssignBase _ _
    · exact (sub_zero _).symm

end StoredQuartic

/-- The operations on stored elements are those of the extensions. -/
theorem extensionArithmetic_exact :
    (FieldRepresentation.Implements StoredComplex.value StoredComplex.isZero
      StoredComplex.addAssign StoredComplex.subAssign StoredComplex.mulAssign StoredComplex.square
      StoredComplex.negate StoredComplex.inverse ∧
      FieldRepresentation.ImplementsMixed StoredComplex.value StoredComplex.embedded
        StoredComplex.fromBase StoredComplex.mulAssignByBase StoredComplex.addAssignBase
        StoredComplex.subAssignBase) ∧
      FieldRepresentation.Implements StoredQuartic.value StoredQuartic.isZero
        StoredQuartic.addAssign StoredQuartic.subAssign StoredQuartic.mulAssign
        StoredQuartic.square StoredQuartic.negate StoredQuartic.inverse ∧
      (∀ dst a b : StoredQuartic,
        (dst.fusedMulAddAssign a b).value = dst.value * a.value + b.value) ∧
      FieldRepresentation.ImplementsMixed StoredQuartic.value StoredQuartic.embeddedComplex
        StoredQuartic.fromComplex StoredQuartic.mulAssignByComplex StoredQuartic.addAssignComplex
        StoredQuartic.subAssignComplex ∧
      FieldRepresentation.ImplementsMixed StoredQuartic.value StoredQuartic.embedded
        StoredQuartic.fromBase StoredQuartic.mulAssignByBase StoredQuartic.addAssignBase
        StoredQuartic.subAssignBase :=
  ⟨⟨StoredComplex.implements, StoredComplex.implementsMixed⟩, StoredQuartic.implements,
    fun dst a b => StoredQuartic.value_fusedMulAddAssign a b dst,
    StoredQuartic.implementsMixedComplex, StoredQuartic.implementsMixedBase⟩

end Airbender.Mersenne31
