import Airbender.Ir.Instruction
import Mathlib.Logic.Function.Basic

/-!
# Machine state

Registers with the timestamp of their last access, and the register operations
of the instruction handlers.
-/

namespace Airbender

/-! ## Counters -/

/-- The per-circuit call counters a machine state carries along. -/
class Counters (C : Type) where
  bumpBigint : Nat → C → C
  bumpBlake2RoundFunction : Nat → C → C
  bumpKeccakSpecial5 : Nat → C → C
  logMultipleCircuitFamilyCalls : CircuitFamily → Nat → C → C

/-! ## State -/

/-- A register or a RAM word. -/
structure Register where
  timestamp : TimestampScalar
  value : U32
deriving DecidableEq, Repr

structure State (C : Type) where
  registers : RegisterIndex → Register
  timestamp : TimestampScalar
  pc : U32
  counters : C

namespace State

variable {C : Type}

def initialWithCounters (counters : C) : State C where
  registers := fun _ => ⟨0, 0⟩
  timestamp := initialTimestamp
  pc := 0
  counters := counters

@[ext]
theorem ext {state state' : State C}
    (registers : state.registers = state'.registers)
    (timestamp : state.timestamp = state'.timestamp)
    (pc : state.pc = state'.pc) (counters : state.counters = state'.counters) :
    state = state' := by
  cases state
  cases state'
  simp_all

/-! ## Updates -/

def setRegister (state : State C) (index : RegisterIndex) (register : Register) : State C :=
  { state with registers := Function.update state.registers index register }

def setPc (pc : U32) (state : State C) : State C :=
  { state with pc := pc }

def setTimestamp (timestamp : TimestampScalar) (state : State C) : State C :=
  { state with timestamp := timestamp }

/-- The state with its timestamp moved forward; a `u64` overflow is a panic. -/
def advance (state : State C) (amount : TimestampScalar) : Option (State C) := do
  let timestamp ← checkedAdd state.timestamp amount
  some (state.setTimestamp timestamp)

def withCounters (state : State C) (counters : C) : State C :=
  { state with counters := counters }

@[simp]
theorem setRegister_registers (state : State C) (index : RegisterIndex) (register : Register) :
    (state.setRegister index register).registers =
      Function.update state.registers index register := rfl

@[simp]
theorem setRegister_timestamp (state : State C) (index : RegisterIndex) (register : Register) :
    (state.setRegister index register).timestamp = state.timestamp := rfl

@[simp]
theorem setRegister_pc (state : State C) (index : RegisterIndex) (register : Register) :
    (state.setRegister index register).pc = state.pc := rfl

@[simp]
theorem setRegister_counters (state : State C) (index : RegisterIndex) (register : Register) :
    (state.setRegister index register).counters = state.counters := rfl

@[simp]
theorem setPc_registers (pc : U32) (state : State C) :
    (state.setPc pc).registers = state.registers := rfl

@[simp]
theorem setPc_timestamp (pc : U32) (state : State C) :
    (state.setPc pc).timestamp = state.timestamp := rfl

@[simp]
theorem setPc_pc (pc : U32) (state : State C) : (state.setPc pc).pc = pc := rfl

@[simp]
theorem setTimestamp_registers (timestamp : TimestampScalar) (state : State C) :
    (state.setTimestamp timestamp).registers = state.registers := rfl

@[simp]
theorem setTimestamp_timestamp (timestamp : TimestampScalar) (state : State C) :
    (state.setTimestamp timestamp).timestamp = timestamp := rfl

@[simp]
theorem setTimestamp_pc (timestamp : TimestampScalar) (state : State C) :
    (state.setTimestamp timestamp).pc = state.pc := rfl

@[simp]
theorem withCounters_registers (state : State C) (counters : C) :
    (state.withCounters counters).registers = state.registers := rfl

@[simp]
theorem withCounters_timestamp (state : State C) (counters : C) :
    (state.withCounters counters).timestamp = state.timestamp := rfl

@[simp]
theorem withCounters_pc (state : State C) (counters : C) :
    (state.withCounters counters).pc = state.pc := rfl

/-! ## Register access -/

/-- What `write_register` stores: writes to `x0` are dropped. -/
def maskRd (index : RegisterIndex) (value : U32) : U32 :=
  if index = 0 then 0 else value

def touchX0 (offset : TimestampScalar) (state : State C) : State C :=
  state.setRegister 0 { state.registers 0 with timestamp := state.timestamp ||| offset }

/-- `read_register`: the value is `(state.registers index).value`, and the access
leaves its timestamp behind. -/
def readRegister (offset : TimestampScalar) (index : RegisterIndex) (state : State C) :
    U32 × State C :=
  let register := state.registers index
  (register.value,
    state.setRegister index { register with timestamp := state.timestamp ||| offset })

def writeRegister (offset : TimestampScalar) (index : RegisterIndex) (value : U32)
    (state : State C) : State C :=
  state.setRegister index ⟨state.timestamp ||| offset, maskRd index value⟩

def defaultIncreasePc (state : State C) : State C :=
  state.setPc (state.pc + 4)

/-! Touching and reading change timestamps only. -/

section Access

variable (offset : TimestampScalar) (index other : RegisterIndex) (value : U32)
  (state : State C)

@[simp]
theorem readRegister_fst :
    (state.readRegister offset index).1 = (state.registers index).value := rfl

@[simp]
theorem touchX0_timestamp : (state.touchX0 offset).timestamp = state.timestamp := rfl

@[simp]
theorem touchX0_pc : (state.touchX0 offset).pc = state.pc := rfl

@[simp]
theorem touchX0_counters : (state.touchX0 offset).counters = state.counters := rfl

@[simp]
theorem readRegister_timestamp :
    (state.readRegister offset index).2.timestamp = state.timestamp := rfl

@[simp]
theorem readRegister_pc : (state.readRegister offset index).2.pc = state.pc := rfl

@[simp]
theorem readRegister_counters :
    (state.readRegister offset index).2.counters = state.counters := rfl

@[simp]
theorem writeRegister_timestamp :
    (state.writeRegister offset index value).timestamp = state.timestamp := rfl

@[simp]
theorem writeRegister_pc : (state.writeRegister offset index value).pc = state.pc := rfl

@[simp]
theorem writeRegister_counters :
    (state.writeRegister offset index value).counters = state.counters := rfl

theorem setRegister_value_of_eq {register : Register}
    (sameValue : register.value = (state.registers index).value) :
    ((state.setRegister index register).registers other).value =
      (state.registers other).value := by
  by_cases same : other = index
  · rw [same, setRegister_registers, Function.update_self, sameValue]
  · rw [setRegister_registers, Function.update_of_ne same]

@[simp]
theorem touchX0_value :
    ((state.touchX0 offset).registers other).value = (state.registers other).value :=
  setRegister_value_of_eq 0 other state rfl

@[simp]
theorem readRegister_value :
    ((state.readRegister offset index).2.registers other).value =
      (state.registers other).value :=
  setRegister_value_of_eq index other state rfl

end Access

/-! ## Counting -/

section Counting

variable [Counters C]

def incrementFamilyCounterBy (family : CircuitFamily) (amount : Nat) (state : State C) :
    State C :=
  state.withCounters
    (Counters.logMultipleCircuitFamilyCalls family amount state.counters)

def incrementFamilyCounter (family : CircuitFamily) (state : State C) : State C :=
  state.incrementFamilyCounterBy family 1

end Counting

end State

end Airbender
