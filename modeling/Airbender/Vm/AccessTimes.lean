import Airbender.Ir.Preprocess
import Airbender.Vm.Counters
import Airbender.Vm.StepAccesses

/-!
# Access times along a run

Every RAM access of a run finds an older time than it leaves, as long as no Blake2s
call reads its input from inside its own state window.
-/

namespace Airbender

/-- The entries of the log that are about memory. -/
def SnapshotEvent.isMemoryRead : SnapshotEvent → Bool
  | .memoryRead .. => true
  | .arbitraryValue _ => false

namespace Vm

open Ir Bigint OfflineMemory

section Runs

variable {C : Type} [Counters C] {romBits : Nat} {ND : Type} [NonDeterminismCSRSource ND]
  [Ruint]

/-- Some cycles in a row, and everything they report. -/
def runCycles (tape : InstructionTape) :
    Nat → Machine C romBits ND → Option (Machine C romBits ND × List SnapshotEvent)
  | 0, machine => some (machine, [])
  | count + 1, machine => do
      let (machine, events) ← runCycle tape machine
      let (machine, later) ← runCycles tape count machine
      some (machine, events ++ later)

/-- Where a run starts: no register and no word has been accessed. -/
def initialMachine (counters : C) (ram : RamWithRomRegion romBits) (nd : ND) :
    Machine C romBits ND where
  state := .initialWithCounters counters
  ram := ram
  nd := nd

/-! ## The invariant -/

/-- The time of a RAM slot. -/
def slotTime (register : Register) : Nat := register.timestamp.toNat

/-- A cycle is about to start, and every word was accessed before it. -/
structure OlderThanNow (machine : Machine C romBits ND) : Prop where
  aligned : machine.state.timestamp.toNat % 4 = 0
  older : ∀ index, slotTime (machine.ram.backing index) < machine.state.timestamp.toNat

omit [Counters C] [NonDeterminismCSRSource ND] [Ruint] in
theorem olderThanNow_initialMachine
    {content : List U32} {totalSizeBytes : Nat} {ram : RamWithRomRegion romBits}
    (loaded : RamWithRomRegion.fromRomContent romBits content totalSizeBytes = some ram)
    (counters : C) (nd : ND) : OlderThanNow (initialMachine counters ram nd) where
  aligned := by
    have start : initialTimestamp.toNat % 4 = 0 := by decide
    exact start
  older := by
    intro index
    simp only [RamWithRomRegion.fromRomContent, Option.ite_none_right_eq_some,
      Option.some.injEq] at loaded
    rw [← loaded.2]
    exact Nat.zero_lt_succ 3

omit [Ruint] in
theorem filter_isMemoryRead (accesses : List RamAccess) (values : List U32) :
    (accesses.map RamAccess.event ++ values.map SnapshotEvent.arbitraryValue).filter
        SnapshotEvent.isMemoryRead = accesses.map RamAccess.event := by
  have allReads :
      (accesses.map RamAccess.event).filter SnapshotEvent.isMemoryRead =
        accesses.map RamAccess.event := by
    apply List.filter_eq_self.mpr
    intro event member
    rcases List.mem_map.mp member with ⟨access, _, rfl⟩
    rfl
  have noReads :
      (values.map SnapshotEvent.arbitraryValue).filter SnapshotEvent.isMemoryRead = [] := by
    apply List.filter_eq_nil_iff.mpr
    intro event member
    rcases List.mem_map.mp member with ⟨value, _, rfl⟩
    exact Bool.false_ne_true
  rw [List.filter_append, allReads, noReads, List.append_nil]

/-- One cycle performs advancing accesses, reports them and keeps the invariant. -/
theorem runCycle_accesses
    {tape : InstructionTape} {machine machine' : Machine C romBits ND}
    {events : List SnapshotEvent} (older : OlderThanNow machine)
    (apart : ∀ instr, tape machine.state.pc = some instr → WindowsApart instr machine.state)
    (cycle : runCycle tape machine = some (machine', events)) :
    ∃ accesses : List RamAccess,
      Performs machine.ram.backing (accesses.map RamAccess.toAccess) machine'.ram.backing ∧
        events.filter SnapshotEvent.isMemoryRead = accesses.map RamAccess.event ∧
        Advances slotTime (accesses.map RamAccess.toAccess) ∧
        OlderThanNow machine' := by
  rcases runCycle_eq_some_iff.mp cycle with ⟨stepped, timestamp, step, added, rfl⟩
  rcases runStep_eq_some_iff.mp step with ⟨instr, opcode, read, named, executed⟩
  rcases executeOpcode_accesses named executed with ⟨accesses, values, spec⟩
  have facts := runStep_facts step
  have sum : timestamp.toNat = stepped.state.timestamp.toNat + 4 := checkedAdd_toNat added
  have nodup : ((accesses.map RamAccess.toAccess).map Access.cell).Nodup := by
    rw [map_toAccess_cell]
    exact spec.nodup (apart instr read)
  have ordered : machine.state.timestamp.toNat ≤ timestamp.toNat := by
    have later := facts.timestamp_le
    omega
  have window :
      ∀ access ∈ accesses.map RamAccess.toAccess,
        machine.state.timestamp.toNat ≤ slotTime access.after ∧
          slotTime access.after < timestamp.toNat := by
    intro access member
    rcases List.mem_map.mp member with ⟨ramAccess, inAccesses, rfl⟩
    rw [sum]
    exact spec.window older.aligned ramAccess inAccesses
  have advancing := spec.performs.advances_of_window nodup ordered older.older window
  refine ⟨accesses, spec.performs, ?_, advancing.1, ?_, advancing.2⟩
  · rw [spec.events_eq, filter_isMemoryRead]
  · have sameResidue := facts.timestamp_mod
    have alignedBefore := older.aligned
    rw [State.setTimestamp_timestamp]
    omega

/-- The invariant along a run, and the accesses of all its cycles. -/
theorem runCycles_accesses
    {tape : InstructionTape} {count : Nat} {machine machine' : Machine C romBits ND}
    {events : List SnapshotEvent} (older : OlderThanNow machine)
    (apart : ∀ earlier < count, ∀ current reported instr,
      runCycles tape earlier machine = some (current, reported) →
        tape current.state.pc = some instr → WindowsApart instr current.state)
    (run : runCycles tape count machine = some (machine', events)) :
    ∃ accesses : List RamAccess,
      Performs machine.ram.backing (accesses.map RamAccess.toAccess) machine'.ram.backing ∧
        events.filter SnapshotEvent.isMemoryRead = accesses.map RamAccess.event ∧
        Advances slotTime (accesses.map RamAccess.toAccess) ∧
        OlderThanNow machine' := by
  induction count generalizing machine events with
  | zero =>
      simp only [runCycles, Option.some.injEq, Prod.mk.injEq] at run
      rcases run with ⟨rfl, rfl⟩
      exact ⟨[], rfl, rfl, fun _ member => absurd member List.not_mem_nil, older⟩
  | succ count inductionHypothesis =>
      simp only [runCycles, Option.bind_eq_bind, Option.bind_eq_some_iff,
        Option.some.injEq, Prod.mk.injEq, Prod.exists] at run
      rcases run with ⟨next, first, cycle, last, later, rest, rfl, rfl⟩
      have apartNow :
          ∀ instr, tape machine.state.pc = some instr → WindowsApart instr machine.state :=
        fun instr read => apart 0 (Nat.succ_pos count) machine [] instr rfl read
      rcases runCycle_accesses older apartNow cycle with
        ⟨accesses, performs, reported, advances, olderNext⟩
      have apartLater :
          ∀ earlier < count, ∀ current reported instr,
            runCycles tape earlier next = some (current, reported) →
              tape current.state.pc = some instr → WindowsApart instr current.state := by
        intro earlier inRun current reportedLater instr reached read
        apply apart (earlier + 1) (Nat.succ_lt_succ inRun) current (first ++ reportedLater)
          instr _ read
        simp only [runCycles, cycle, reached, Option.bind_eq_bind, Option.bind_some]
      rcases inductionHypothesis olderNext apartLater rest with
        ⟨accessesLater, performsLater, reportedLater, advancesLater, olderLast⟩
      refine ⟨accesses ++ accessesLater, ?_, ?_, ?_, olderLast⟩
      · rw [List.map_append]
        exact performs.append performsLater
      · rw [List.filter_append, List.map_append, reported, reportedLater]
      · rw [List.map_append]
        exact advances.append advancesLater

/-- In a run whose Blake2s calls keep their windows apart, the accesses account for
all changes to the RAM and for the whole log, each finds an older time than it leaves,
and no word is accessed twice at one time. -/
theorem runCycles_accesses_advance
    {content : List U32} {totalSizeBytes : Nat} {ram : RamWithRomRegion romBits}
    (loaded : RamWithRomRegion.fromRomContent romBits content totalSizeBytes = some ram)
    {tape : InstructionTape} {counters : C} {nd : ND} {count : Nat}
    {machine' : Machine C romBits ND} {events : List SnapshotEvent}
    (run : runCycles tape count (initialMachine counters ram nd) = some (machine', events))
    (apart : ∀ earlier < count, ∀ current reported instr,
      runCycles tape earlier (initialMachine counters ram nd) = some (current, reported) →
        tape current.state.pc = some instr → WindowsApart instr current.state) :
    ∃ accesses : List RamAccess,
      Performs ram.backing (accesses.map RamAccess.toAccess) machine'.ram.backing ∧
        events.filter SnapshotEvent.isMemoryRead = accesses.map RamAccess.event ∧
        (∀ access ∈ accesses, access.before.timestamp < access.after.timestamp) ∧
        (accesses.map fun access =>
          (wordIdx access.address, access.after.timestamp)).Nodup := by
  have older := olderThanNow_initialMachine loaded counters nd
  rcases runCycles_accesses older apart run with ⟨accesses, performs, reported, advances, _⟩
  have performsRam :
      Performs ram.backing (accesses.map RamAccess.toAccess) machine'.ram.backing := performs
  refine ⟨accesses, performsRam, reported, ?_, ?_⟩
  · intro access member
    exact BitVec.lt_def.mpr (advances access.toAccess (List.mem_map_of_mem member))
  · have distinct := performsRam.nodup_times advances
    rw [List.map_map] at distinct
    apply List.Nodup.of_map (fun key : Nat × TimestampScalar => (key.1, key.2.toNat))
    rw [List.map_map]
    exact distinct

end Runs

/-! ## One Blake2s call -/

/-- Seven rounds on the state at the start of the RAM, with the input `inputOffset`
bytes after it. -/
def blakeImage (inputOffset : U32) : List U32 :=
  [(0x00400537 : U32), (0x00050593 : U32) ||| (inputOffset <<< 20), (0x00090637 : U32)] ++
    List.replicate 7 0x7c701073 ++ [0x13]

def blakeInstructions (inputOffset : U32) : List Instruction :=
  [.fromImm .lui 0 0 10 0x400000, .fromImm .addi 10 0 11 inputOffset,
    .fromImm .lui 0 0 12 0x90000, .fromImm .zicsrDelegation 0 0 0 DelegationType.blake.code] ++
    List.replicate 6 .illegalInstr ++ [.fromImm .addi 0 0 0 0]

def blakeRam (inputOffset : U32) : RamWithRomRegion romSecondWordBits where
  backing := fun index => ⟨0, (blakeImage inputOffset).getD index 0⟩
  len := 0x200000

def blakeMachine (inputOffset : U32) :
    Machine DelegationsCounters romSecondWordBits Unit :=
  initialMachine DelegationsCounters.zero (blakeRam inputOffset) ()

theorem fromRomContent_blakeImage (inputOffset : U32) :
    RamWithRomRegion.fromRomContent romSecondWordBits (blakeImage inputOffset) 0x800000 =
      some (blakeRam inputOffset) := by
  have sizes :
      0x800000 = 2 ^ Nat.log2 0x800000 ∧ romBytes romSecondWordBits < 0x800000 ∧
        11 ≤ romWords romSecondWordBits := by
    decide +kernel
  exact if_pos sizes

/-- With the input 64 bytes after the state the program is accepted and runs, and it
reads a word at the very time it wrote it. -/
theorem runCycles_blakeOverlap :
    preprocessBytecode fullUnsignedMachineDecoderConfig (blakeImage 64) =
        some (blakeInstructions 64) ∧
      RamWithRomRegion.fromRomContent romSecondWordBits (blakeImage 64) 0x800000 =
        some (blakeRam 64) ∧
      ∃ machine' events,
        runCycles (simpleTape (blakeInstructions 64)) 4 (blakeMachine 64) =
            some (machine', events) ∧
          ¬ ∀ address readValue readTimestamp writeTimestamp,
            .memoryRead address readValue readTimestamp writeTimestamp ∈ events →
              readTimestamp < writeTimestamp := by
  have reads :
      ((runCycles (simpleTape (blakeInstructions 64)) 4 (blakeMachine 64)).map
          fun result => result.2[24]?) =
        some (some (.memoryRead 0x400040 0x8cf90f1e 43 43)) := by
    decide +kernel
  rcases Option.map_eq_some_iff.mp reads with ⟨⟨machine', events⟩, run, entry⟩
  refine ⟨by decide +kernel, fromRomContent_blakeImage 64, machine', events, run, ?_⟩
  intro discipline
  have notBefore := discipline 0x400040 0x8cf90f1e 43 43 (List.mem_of_getElem? entry)
  exact BitVec.lt_irrefl _ notBefore

/-- With the input 128 bytes after the state all four cycles keep the windows apart. -/
theorem runCycles_accesses_advance_blakeImage :
    ∃ machine' events, ∃ accesses : List RamAccess,
      runCycles (simpleTape (blakeInstructions 128)) 4 (blakeMachine 128) =
          some (machine', events) ∧
        Performs (blakeRam 128).backing (accesses.map RamAccess.toAccess)
            machine'.ram.backing ∧
          events.filter SnapshotEvent.isMemoryRead = accesses.map RamAccess.event ∧
            (∀ access ∈ accesses, access.before.timestamp < access.after.timestamp) ∧
              (accesses.map fun access =>
                (wordIdx access.address, access.after.timestamp)).Nodup := by
  have succeeds :
      (runCycles (simpleTape (blakeInstructions 128)) 4 (blakeMachine 128)).isSome = true := by
    decide +kernel
  have pointers :
      ∀ earlier < 4,
        ((runCycles (simpleTape (blakeInstructions 128)) earlier (blakeMachine 128)).map
          fun result => decide ((result.1.state.registers 11).value ≠
            (result.1.state.registers 10).value + 64)) = some true := by
    decide +kernel
  rcases Option.isSome_iff_exists.mp succeeds with ⟨⟨machine', events⟩, run⟩
  have apart :
      ∀ earlier < 4, ∀ current reported instr,
        runCycles (simpleTape (blakeInstructions 128)) earlier (blakeMachine 128) =
            some (current, reported) →
          simpleTape (blakeInstructions 128) current.state.pc = some instr →
            WindowsApart instr current.state := by
    intro earlier inRun current reported instr reached _ _ _
    have checked := pointers earlier inRun
    rw [reached, Option.map_some, Option.some.injEq] at checked
    exact of_decide_eq_true checked
  rcases runCycles_accesses_advance (fromRomContent_blakeImage 128) run apart with
    ⟨accesses, properties⟩
  exact ⟨machine', events, accesses, run, properties⟩

end Vm

end Airbender
