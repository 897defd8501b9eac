import Mathlib.Data.List.Perm.Basic
import Mathlib.Tactic.Common

/-!
# Constant expressions

The expressions that a generator writes down for constant data: literals, paths, constructor
calls, record literals with named fields, and sequences.  A reader takes the value of a type
out of an expression.  A record literal has to name every field of the record exactly once,
in any order.
-/

namespace Airbender.ConstantExpression

inductive Expression (Path Field : Type)
  | usize (value : Nat)
  | u32 (value : BitVec 32)
  | u16 (value : BitVec 16)
  | bool (value : Bool)
  | path (name : Path)
  | call (name : Path) (argument : Expression Path Field)
  | record (name : Path) (fields : List (Field × Expression Path Field))
  | tuple (items : List (Expression Path Field))
  | array (items : List (Expression Path Field))
  | slice (items : List (Expression Path Field))

variable {Path Field α β γ : Type}

namespace Expression

def asUsize : Expression Path Field → Option Nat
  | usize value => some value
  | _ => none

def asU32 : Expression Path Field → Option (BitVec 32)
  | u32 value => some value
  | _ => none

def asU16 : Expression Path Field → Option (BitVec 16)
  | u16 value => some value
  | _ => none

def asBool : Expression Path Field → Option Bool
  | bool value => some value
  | _ => none

def asPair (readFirst : Expression Path Field → Option α)
    (readSecond : Expression Path Field → Option β) : Expression Path Field → Option (α × β)
  | tuple [first, second] => do
      let first ← readFirst first
      let second ← readSecond second
      some (first, second)
  | _ => none

def asTriple (readFirst : Expression Path Field → Option α)
    (readSecond : Expression Path Field → Option β)
    (readThird : Expression Path Field → Option γ) : Expression Path Field → Option (α × β × γ)
  | tuple [first, second, third] => do
      let first ← readFirst first
      let second ← readSecond second
      let third ← readThird third
      some (first, second, third)
  | _ => none

def asArray (read : Expression Path Field → Option α) : Expression Path Field → Option (List α)
  | array items => items.mapM read
  | _ => none

def asSlice (read : Expression Path Field → Option α) : Expression Path Field → Option (List α)
  | slice items => items.mapM read
  | _ => none

/-- The argument of a call of one constructor. -/
def asCall [DecidableEq Path] (name : Path) (read : Expression Path Field → Option α) :
    Expression Path Field → Option α
  | call other argument => if other = name then read argument else none
  | _ => none

/-- The fields of a record literal that names every field of the record once. -/
def asRecord [DecidableEq Path] [DecidableEq Field] (name : Path) (fieldNames : List Field) :
    Expression Path Field → Option (List (Field × Expression Path Field))
  | record other fields =>
      if other = name ∧ (fields.map Prod.fst).Perm fieldNames then some fields else none
  | _ => none

end Expression

/-- The value of one field of a record literal. -/
def readField [DecidableEq Field] (fields : List (Field × Expression Path Field)) (field : Field)
    (read : Expression Path Field → Option α) : Option α :=
  (fields.lookup field).bind read

/-! ## Readers of written expressions -/

section Readers

@[simp] theorem asUsize_usize (value : Nat) :
    (Expression.usize value : Expression Path Field).asUsize = some value := rfl

@[simp] theorem asU32_u32 (value : BitVec 32) :
    (Expression.u32 value : Expression Path Field).asU32 = some value := rfl

@[simp] theorem asU16_u16 (value : BitVec 16) :
    (Expression.u16 value : Expression Path Field).asU16 = some value := rfl

@[simp] theorem asBool_bool (value : Bool) :
    (Expression.bool value : Expression Path Field).asBool = some value := rfl

@[simp] theorem asPair_tuple (readFirst : Expression Path Field → Option α)
    (readSecond : Expression Path Field → Option β) (first second : Expression Path Field) :
    (Expression.tuple [first, second]).asPair readFirst readSecond =
      (readFirst first).bind fun a => (readSecond second).bind fun b => some (a, b) := rfl

@[simp] theorem asTriple_tuple (readFirst : Expression Path Field → Option α)
    (readSecond : Expression Path Field → Option β)
    (readThird : Expression Path Field → Option γ) (first second third : Expression Path Field) :
    (Expression.tuple [first, second, third]).asTriple readFirst readSecond readThird =
      (readFirst first).bind fun a => (readSecond second).bind fun b =>
        (readThird third).bind fun c => some (a, b, c) := rfl

/-- Sequences that have been written item by item are read item by item. -/
theorem mapM_of_written {write : β → Option (Expression Path Field)}
    {read : Expression Path Field → Option α} {value : β → α}
    (inverse : ∀ item written, write item = some written → read written = some (value item))
    {items : List β} {written : List (Expression Path Field)}
    (writes : items.mapM write = some written) : written.mapM read = some (items.map value) := by
  induction items generalizing written with
  | nil =>
      cases writes
      rfl
  | cons item items inductionHypothesis =>
      rw [List.mapM_cons, Option.bind_eq_bind, Option.bind_eq_some_iff] at writes
      obtain ⟨head, headWrites, rest⟩ := writes
      obtain ⟨tail, tailWrites, same⟩ := Option.bind_eq_some_iff.mp rest
      cases same
      rw [List.mapM_cons, inverse item head headWrites, inductionHypothesis tailWrites]
      rfl

theorem mapM_map_of_inverse {write : β → Expression Path Field}
    {read : Expression Path Field → Option α} {value : β → α}
    (inverse : ∀ item, read (write item) = some (value item)) (items : List β) :
    (items.map write).mapM read = some (items.map value) := by
  induction items with
  | nil => rfl
  | cons item items inductionHypothesis =>
      rw [List.map_cons, List.mapM_cons, inverse item, inductionHypothesis]
      rfl

theorem asSlice_map {write : β → Expression Path Field}
    {read : Expression Path Field → Option α} {value : β → α}
    (inverse : ∀ item, read (write item) = some (value item)) (items : List β) :
    (Expression.slice (items.map write)).asSlice read = some (items.map value) :=
  mapM_map_of_inverse inverse items

theorem asSlice_map_self {write : α → Expression Path Field}
    {read : Expression Path Field → Option α} (inverse : ∀ item, read (write item) = some item)
    (items : List α) : (Expression.slice (items.map write)).asSlice read = some items := by
  rw [asSlice_map inverse, List.map_id']

@[simp] theorem asCall_call [DecidableEq Path] (name : Path) (read : Expression Path Field → Option α)
    (argument : Expression Path Field) :
    (Expression.call name argument).asCall name read = read argument :=
  if_pos rfl

@[simp] theorem asRecord_record [DecidableEq Path] [DecidableEq Field] {name : Path} {fieldNames : List Field}
    {fields : List (Field × Expression Path Field)}
    (names : fields.map Prod.fst = fieldNames) :
    (Expression.record name fields).asRecord name fieldNames = some fields :=
  if_pos ⟨rfl, List.Perm.of_eq names⟩

theorem lookup_cons_eq_ite [DecidableEq β] (first name : β) (value : α)
    (entries : List (β × α)) : ((first, value) :: entries).lookup name =
      if name = first then some value else entries.lookup name := by
  rw [List.lookup_cons]
  by_cases same : name = first
  · rw [if_pos same, beq_iff_eq.mpr same]
  · rw [if_neg same, beq_eq_false_iff_ne.mpr same]

@[simp] theorem readField_cons [DecidableEq Field] (first field : Field)
    (expression : Expression Path Field) (fields : List (Field × Expression Path Field))
    (read : Expression Path Field → Option α) :
    readField ((first, expression) :: fields) field read =
      if field = first then read expression else readField fields field read := by
  unfold readField
  rw [lookup_cons_eq_ite]
  by_cases same : field = first
  · rw [if_pos same, if_pos same, Option.bind_some]
  · rw [if_neg same, if_neg same]

/-- One step of reading a record field by field. -/
theorem read_step {x : Option α} {f : α → Option β} {result : Option β} (a : α)
    (reads : x = some a) (rest : f a = result) : (x >>= f) = result := by
  rw [reads]
  exact rest

end Readers

end Airbender.ConstantExpression
