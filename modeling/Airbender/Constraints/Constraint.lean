import Airbender.Constraints.Term

/-!
# Constraints

A constraint is a sum of terms, kept as a list.  `normalize` sorts the terms, adds up those
over the same variables and drops the ones that vanish.
-/

namespace Airbender.Constraints

open Circuit (F)
open Mersenne31 (Element)

structure Constraint where
  terms : List Term
deriving DecidableEq

/-- `combined` after the loop of `normalize` has met `el`. -/
def combineInto : List Term → Term → Option (List Term)
  | [], el => some [el]
  | existing :: rest, el => do
      let (existing, didCombine) ← existing.combine el
      if didCombine then
        let existing ← existing.normalize
        some (existing :: rest)
      else
        let rest ← combineInto rest el
        some (existing :: rest)

/-- Quadratic terms, linear terms and the constant of a constraint. -/
structure MaxQuadratic where
  quadraticTerms : List (Element × Variable × Variable)
  linearTerms : List (Element × Variable)
  constantTerm : Element
  constantUsed : Bool
deriving DecidableEq

namespace Constraint

def empty : Constraint := ⟨[]⟩

/-- `PartialEq` on vectors of terms. -/
def termsEq (terms terms' : List Term) : Bool := terms.isEqv terms' Term.eq

/-- The greatest degree of a term. -/
def degreeOf (terms : List Term) : Nat :=
  terms.foldl (fun curDegree term => max curDegree term.degree) 0

def degree (c : Constraint) : Nat := degreeOf c.terms

def normalize (c : Constraint) : Option Constraint := do
  let terms ← c.terms.mapM Term.normalize
  let terms := sortTerms terms
  let initialDegree := degreeOf terms
  let combined ← terms.foldlM combineInto []
  let terms := combined.filter fun el => el.isZero == false
  let finalDegree := degreeOf terms
  guard (finalDegree ≤ 2)
  if finalDegree = 0 ∧ termsEq terms [Term.constant Element.zero] then
    some empty
  else
    let terms ← terms.mapM Term.normalize
    let terms := sortTerms terms
    -- terms may have cancelled
    guard (finalDegree ≤ initialDegree)
    some ⟨terms⟩

/-- One term goes to the part of its degree. -/
def splitTerm (parts : MaxQuadratic) : Term → Option MaxQuadratic
  | .expression coeff (a :: b :: _) 2 =>
      some { parts with quadraticTerms := parts.quadraticTerms ++ [(coeff, a, b)] }
  | .expression coeff (a :: _) 1 =>
      some { parts with linearTerms := parts.linearTerms ++ [(coeff, a)] }
  | .constant c => do
      guard (parts.constantUsed = false)
      some { parts with constantTerm := c, constantUsed := true }
  | .expression coeff _ 0 => do
      guard (parts.constantUsed = false)
      some { parts with constantTerm := coeff, constantUsed := true }
  | _ => none

def splitMaxQuadratic (c : Constraint) : Option MaxQuadratic := do
  let c ← c.normalize
  c.terms.foldlM splitTerm ⟨[], [], Element.zero, false⟩

def scale (factor : Element) (c : Constraint) : Constraint := ⟨c.terms.map (Term.scale factor)⟩

def containsVar (var : Variable) (c : Constraint) : Bool := c.terms.any (Term.containsVar var)

def degreeForVar (var : Variable) (c : Constraint) : Nat :=
  c.terms.foldl (fun degree term => max degree (term.degreeForVar var)) 0

/-- The loop of `express_variable` on one term: the other terms and the prefactor so far. -/
def expressTerm (var : Variable) (state : List Term × Element) (term : Term) :
    Option (List Term × Element) :=
  if term.containsVar var then do
    guard (term.degreeForVar var = 1)
    let prefactor ← term.prefactorForVar var
    some (state.1, prefactor)
  else
    some (state.1 ++ [term], state.2)

def expressVariable (var : Variable) (c : Constraint) : Option Constraint := do
  guard (c.containsVar var)
  guard (c.degreeForVar var = 1)
  let (newTerms, prefactor) ← c.terms.foldlM (expressTerm var) ([], Element.zero)
  let prefactor ← prefactor.inverse
  let newTerms := newTerms.map (Term.scale prefactor.negate)
  normalize ⟨newTerms⟩

/-! ## Operators -/

/-- `Add for Constraint`, and `AddAssign`. -/
def add (c rhs : Constraint) : Option Constraint := normalize ⟨c.terms ++ rhs.terms⟩

/-- `Sub for Constraint`. -/
def sub (c rhs : Constraint) : Option Constraint :=
  normalize ⟨c.terms ++ rhs.terms.map (Term.scale Element.minusOne)⟩

/-- `Add<Term> for Constraint`, and `AddAssign<Term>`, which leave the sum as it is. -/
def addTerm (c : Constraint) (rhs : Term) : Constraint := ⟨c.terms ++ [rhs]⟩

/-- `Sub<Term> for Constraint`. -/
def subTerm (c : Constraint) (rhs : Term) : Constraint :=
  ⟨c.terms ++ [rhs.scale Element.minusOne]⟩

end Constraint

namespace Term

/-- `Add for Term`. -/
def add (term rhs : Term) : Constraint := ⟨[term, rhs]⟩

/-- `Sub for Term`. -/
def sub (term rhs : Term) : Constraint := ⟨[term, rhs.scale Element.minusOne]⟩

/-- `Mul for Term`: the variables of `rhs` are written behind those of `term`. -/
def mul : Term → Term → Option Constraint
  | expression coeff inner degree, expression coeff' inner' degree' => do
      guard (degree + degree' ≤ 4)
      let slots := inner.take degree ++ inner'.take degree' ++ inner.drop (degree + degree')
      some ⟨[expression (coeff.mulAssign coeff') slots (degree + degree')]⟩
  | expression coeff inner degree, constant d =>
      some ⟨[expression (coeff.mulAssign d) inner degree]⟩
  | constant c, expression coeff inner degree =>
      some ⟨[expression (c.mulAssign coeff) inner degree]⟩
  | constant c, constant d => some ⟨[constant (c.mulAssign d)]⟩

end Term

inductive Boolean
  | is (var : Variable)
  | not (var : Variable)
  | constant (value : Bool)
deriving DecidableEq

/-- `From<u64> for Term`. -/
def Term.ofU64 (value : U64) : Option Term := (Element.fromU64 value).map Term.constant

/-- `From<Boolean> for Term`.  A negated variable is no term. -/
def Term.ofBoolean : Boolean → Option Term
  | .constant value => Term.ofU64 (if value then 1 else 0)
  | .is var => some (Term.ofVariable var)
  | .not _ => none

namespace Constraint

/-- `From<Term> for Constraint`. -/
def ofTerm (term : Term) : Constraint := ⟨[term]⟩

/-- `From<Variable> for Constraint`. -/
def ofVariable (var : Variable) : Constraint := ofTerm (Term.ofVariable var)

/-- `From<Boolean> for Constraint`. -/
def ofBoolean : Boolean → Option Constraint
  | .not var => do
      let one ← Term.ofU64 1
      some (one.sub (Term.ofVariable var))
  | boolean => (Term.ofBoolean boolean).map ofTerm

/-- `SubAssign<Term> for Constraint`: the first term of the product with minus one. -/
def subAssignTerm (c : Constraint) (rhs : Term) : Option Constraint := do
  let product ← rhs.mul (Term.constant Element.minusOne)
  let term ← product.terms.head?
  some ⟨c.terms ++ [term]⟩

/-- One pass of the loop of `Mul<Term>`. -/
def addProduct (rhs : Term) (ans : Constraint) (existing : Term) : Option Constraint := do
  let intermediate ← existing.mul rhs
  ans.add intermediate

/-- `Mul<Term> for Constraint`. -/
def mulTerm (c : Constraint) (rhs : Term) : Option Constraint := do
  let ans ← c.terms.foldlM (addProduct rhs) empty
  ans.normalize

/-! ## Substitution -/

/-- The loop of `substitute_variable` on one term: what takes the place of the term, and the
terms that stay. -/
def substituteTerm (var : Variable) (expression : Constraint)
    (state : List Constraint × List Term) (term : Term) :
    Option (List Constraint × List Term) :=
  if term.containsVar var then
    match term with
    | .expression coeff _ 1 => some (state.1 ++ [expression.scale coeff], state.2)
    | .expression coeff (a :: b :: _) 2 => do
        let otherVar ← if a = var then some b else if b = var then some a else none
        guard (isPlaceholder otherVar = false)
        let extra ← expression.mulTerm (Term.ofScaledVariable coeff otherVar)
        some (state.1 ++ [extra], state.2)
    | _ => none
  else
    some (state.1, state.2 ++ [term])

/-- One pass of the loop that adds the replacements. -/
def addReplacement (new el : Constraint) : Option Constraint := do
  let new ← new.add el
  guard (new.degree ≤ 2)
  some new

def substituteVariable (c : Constraint) (var : Variable) (expression : Constraint) :
    Option Constraint := do
  guard (c.containsVar var)
  guard (c.degreeForVar var = 1)
  let (extra, newTerms) ← c.terms.foldlM (substituteTerm var expression) ([], [])
  let new ← extra.foldlM addReplacement ⟨newTerms⟩
  new.normalize

end Constraint

end Airbender.Constraints
