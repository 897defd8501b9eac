import Airbender.Vm.Run

/-!
# The ROM image

The RAM starts with the image below the ROM bound, and no step writes there.
-/

namespace Airbender

open Bigint

/-- The RAM holds the words of the image below the ROM bound. -/
def RamWithRomRegion.HoldsRom {romBits : Nat} (ram : RamWithRomRegion romBits)
    (image : List U32) : Prop :=
  ∀ index word, index < romWords romBits → image[index]? = some word →
    (ram.backing index).value = word

namespace RamWithRomRegion

variable {romBits : Nat} {ram ram' : RamWithRomRegion romBits} {image : List U32}

theorem fromRomContent_holdsRom {totalSizeBytes : Nat}
    (built : fromRomContent romBits image totalSizeBytes = some ram) : ram.HoldsRom image := by
  unfold fromRomContent at built
  split at built
  · cases built
    intro index word _ found
    change image.getD index 0 = word
    rw [List.getD_eq_getElem?_getD, found]
    rfl
  · cases built

/-- With an image of the size of the ROM, every word below the bound is a word of the image. -/
theorem HoldsRom.getD (holds : ram.HoldsRom image) (full : image.length = romWords romBits)
    {index : Nat} (inRom : index < romWords romBits) {filler : U32} :
    image.getD index filler = (ram.backing index).value := by
  have bound : index < image.length := by rwa [full]
  have found : image[index]? = some image[index] := List.getElem?_eq_getElem bound
  rw [List.getD_eq_getElem?_getD, found, Option.getD_some, holds index _ inRom found]

/-! ## Single slots -/

/-- A slot keeps its value, or it is above the ROM. -/
theorem HoldsRom.setSlot (holds : ram.HoldsRom image) {slot : Nat} {register : Register}
    (kept : slot < romWords romBits → register.value = (ram.backing slot).value) :
    (ram.setSlot slot register).HoldsRom image := by
  intro index word inRom found
  by_cases same : index = slot
  · rw [same] at inRom found ⊢
    rw [setSlot_backing, Function.update_self, kept inRom]
    exact holds slot word inRom found
  · rw [setSlot_backing, Function.update_of_ne same]
    exact holds index word inRom found

theorem HoldsRom.readWord (holds : ram.HoldsRom image) {address word : U32}
    {timestamp readTimestamp : TimestampScalar}
    (read : ram.readWord address timestamp = some ((readTimestamp, word), ram')) :
    ram'.HoldsRom image := by
  rcases readWord_eq_some_iff.mp read with ⟨_, found, rfl⟩
  apply holds.setSlot
  intro _
  rw [found]

theorem HoldsRom.writeWord (holds : ram.HoldsRom image) {address word oldValue : U32}
    {timestamp readTimestamp : TimestampScalar}
    (write : ram.writeWord address word timestamp = some ((readTimestamp, oldValue), ram')) :
    ram'.HoldsRom image := by
  rcases writeWord_eq_some_iff.mp write with ⟨_, aboveRom, _, rfl⟩
  apply holds.setSlot
  intro inRom
  exact absurd inRom (Nat.not_lt.mpr aboveRom)

/-! ## Runs of words -/

theorem HoldsRom.readWords (holds : ram.HoldsRom image) {timestamp : TimestampScalar}
    {address : U32} {count : Nat} {words : List U32} {events : List SnapshotEvent}
    (read : ram.readWords timestamp address count = some (words, ram', events)) :
    ram'.HoldsRom image := by
  induction count generalizing ram address words events with
  | zero =>
      cases read
      exact holds
  | succ count inductionHypothesis =>
      simp only [RamWithRomRegion.readWords, Option.bind_eq_bind, Option.bind_eq_some_iff,
        Option.some.injEq, Prod.mk.injEq, Prod.exists] at read
      rcases read with ⟨_, _, middle, first, _, ram'', _, remaining, _, rfl, _⟩
      exact inductionHypothesis (holds.readWord first) remaining

theorem HoldsRom.writeBackWords (holds : ram.HoldsRom image) {address : U32}
    {words : List (U32 × TimestampScalar)} {events : List SnapshotEvent}
    (write : ram.writeBackWords address words = some (ram', events)) : ram'.HoldsRom image := by
  induction words generalizing ram address events with
  | nil =>
      cases write
      exact holds
  | cons pair rest inductionHypothesis =>
      rcases pair with ⟨word, timestamp⟩
      simp only [RamWithRomRegion.writeBackWords, Option.bind_eq_bind, Option.bind_eq_some_iff,
        Option.some.injEq, Prod.mk.injEq, Prod.exists] at write
      rcases write with ⟨_, _, middle, first, ram'', _, remaining, rfl, _⟩
      exact inductionHypothesis (holds.writeWord first) remaining

end RamWithRomRegion

namespace Vm

open RamWithRomRegion

variable {C : Type} [Counters C] {romBits : Nat} {ram ram' : RamWithRomRegion romBits}
  {image : List U32} {state state' : State C} {events : List SnapshotEvent}

/-! ## Delegations -/

theorem bigintCall_holdsRom [Ruint] (holds : ram.HoldsRom image)
    (call : bigintCall state ram = some (state', ram', events)) : ram'.HoldsRom image := by
  simp only [bigintCall, Option.bind_eq_bind, Option.bind_eq_some_iff, Option.guard_eq_some',
    exists_const, Option.some.injEq, Prod.mk.injEq, Prod.exists] at call
  rcases call with ⟨_, _, _, _, _, _, _, _, middle, _, read, _, _, _, ram'', _, written, _, rfl, _⟩
  exact (holds.readWords read).writeBackWords written

theorem blake2RoundFunctionCall_holdsRom (holds : ram.HoldsRom image)
    (call : blake2RoundFunctionCall state ram = some (state', ram', events)) :
    ram'.HoldsRom image := by
  simp only [blake2RoundFunctionCall, Option.bind_eq_bind, Option.bind_eq_some_iff,
    Option.guard_eq_some', exists_const, Option.some.injEq, Prod.mk.injEq, Prod.exists] at call
  rcases call with ⟨_, _, _, _, _, _, _, _, _, _, _, _, _, _, middle, _, written, _, ram'', _, read,
    _, rfl, _⟩
  exact (holds.writeBackWords written).readWords read

theorem keccakSpecial5Call_holdsRom (holds : ram.HoldsRom image)
    (call : keccakSpecial5Call state ram = some (state', ram', events)) :
    ram'.HoldsRom image := by
  simp only [keccakSpecial5Call, Option.bind_eq_bind, Option.bind_eq_some_iff,
    Option.guard_eq_some', exists_const, Option.some.injEq, Prod.mk.injEq, Prod.exists] at call
  rcases call with ⟨_, _, _, _, _, _, _, _, _, _, ram'', _, written, _, rfl, _⟩
  exact holds.writeBackWords written

theorem callDelegation_holdsRom [Ruint] {instr : Instruction} (holds : ram.HoldsRom image)
    (call : callDelegation state ram instr = some (state', ram', events)) :
    ram'.HoldsRom image := by
  unfold callDelegation at call
  split_ifs at call
  · exact bigintCall_holdsRom holds call
  · exact blake2RoundFunctionCall_holdsRom holds call
  · exact keccakSpecial5Call_holdsRom holds call

/-! ## Steps and runs -/

variable {ND : Type} [NonDeterminismCSRSource ND] [Ruint]

section Steps

variable {machine machine' : Machine C romBits ND}

/-- A step keeps the ROM image. -/
theorem executeOpcode_holdsRom {opcode : Opcode} {instr : Instruction}
    (holds : machine.ram.HoldsRom image)
    (executed : executeOpcode opcode machine instr = some (machine', events)) :
    machine'.ram.HoldsRom image := by
  cases opcode <;>
    simp only [executeOpcode, Machine.onState, Machine.onMemory, Option.map_eq_some_iff,
      Prod.mk.injEq, Prod.exists, exists_eq_left', Option.some.injEq] at executed
  case alu family op useImm =>
    rcases executed with ⟨rfl, _⟩
    exact holds
  case lui =>
    rcases executed with ⟨rfl, _⟩
    exact holds
  case auipc =>
    rcases executed with ⟨rfl, _⟩
    exact holds
  case jal =>
    rcases executed with ⟨_, _, rfl, _⟩
    exact holds
  case jalr =>
    rcases executed with ⟨_, _, rfl, _⟩
    exact holds
  case branch =>
    rcases executed with ⟨_, _, rfl, _⟩
    exact holds
  case load family size value =>
    rcases executed with ⟨_, _, _, loaded, rfl, _⟩
    rcases loadOp_eq_some loaded with ⟨_, word, _, found, rfl, _, _⟩
    apply holds.setSlot
    intro _
    rw [found]
  case store family size newWord =>
    rcases executed with ⟨_, _, _, stored, rfl, _⟩
    rcases storeOp_eq_some stored with ⟨_, _, word, _, _, aboveRom, _, rfl, _, _⟩
    apply holds.setSlot
    intro inRom
    exact absurd inRom (Nat.not_lt.mpr aboveRom)
  case ndRead =>
    rcases executed with ⟨_, _, _, _, rfl, _⟩
    exact holds
  case ndWrite =>
    rcases executed with ⟨_, _, _, rfl, _⟩
    exact holds
  case delegation =>
    rcases executed with ⟨_, _, _, call, rfl, _⟩
    exact callDelegation_holdsRom holds call

theorem runCycle_holdsRom {tape : InstructionTape} (holds : machine.ram.HoldsRom image)
    (cycle : runCycle tape machine = some (machine', events)) : machine'.ram.HoldsRom image := by
  rcases runCycle_eq_some_iff.mp cycle with ⟨stepped, _, step, _, rfl⟩
  rcases runStep_eq_some_iff.mp step with ⟨_, _, _, _, executed⟩
  have stepHolds : stepped.ram.HoldsRom image := executeOpcode_holdsRom holds executed
  exact stepHolds

end Steps

/-- Every machine that a run loop passes through holds the image that the RAM was built from. -/
theorem Passes.holdsRom {S : Type} [Snapshotter S C] {tape : InstructionTape}
    {first last : Machine C romBits ND} {before after : S}
    (passes : Passes tape first before last after) (holds : first.ram.HoldsRom image) :
    last.ram.HoldsRom image := by
  induction passes with
  | refl => exact holds
  | tail _ pass inductionHypothesis =>
      rcases loopPass_eq_some pass with ⟨_, cycle, _⟩
      exact runCycle_holdsRom inductionHypothesis cycle

end Vm

end Airbender
