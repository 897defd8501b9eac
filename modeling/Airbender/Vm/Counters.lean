import Airbender.Vm.State

/-!
# The counters of the executor

The counter records the snapshotting runs use.
-/

namespace Airbender

structure DelegationsCounters where
  nonDeterminismReads : Nat
  blakeCalls : Nat
  bigintCalls : Nat
  keccakCalls : Nat
deriving DecidableEq, Repr

namespace DelegationsCounters

def zero : DelegationsCounters := ⟨0, 0, 0, 0⟩

instance : Counters DelegationsCounters where
  bumpBigint amount counters := { counters with bigintCalls := counters.bigintCalls + amount }
  bumpBlake2RoundFunction amount counters :=
    { counters with blakeCalls := counters.blakeCalls + amount }
  bumpKeccakSpecial5 amount counters :=
    { counters with keccakCalls := counters.keccakCalls + amount }
  logMultipleCircuitFamilyCalls _ _ counters := counters

end DelegationsCounters

structure DelegationsAndFamiliesCounters where
  addSubFamily : Nat
  binaryShiftCsrFamily : Nat
  sltBranchFamily : Nat
  mulDivFamily : Nat
  wordSizeMemFamily : Nat
  subwordSizeMemFamily : Nat
  blakeCalls : Nat
  bigintCalls : Nat
  keccakCalls : Nat
deriving DecidableEq, Repr

namespace DelegationsAndFamiliesCounters

def zero : DelegationsAndFamiliesCounters := ⟨0, 0, 0, 0, 0, 0, 0, 0, 0⟩

def logMultipleCircuitFamilyCalls (family : CircuitFamily) (numCalls : Nat)
    (counters : DelegationsAndFamiliesCounters) : DelegationsAndFamiliesCounters :=
  match family with
  | .addSubLuiAuipcMop => { counters with addSubFamily := counters.addSubFamily + numCalls }
  | .jumpBranchSlt => { counters with sltBranchFamily := counters.sltBranchFamily + numCalls }
  | .shiftBinaryCsr =>
      { counters with binaryShiftCsrFamily := counters.binaryShiftCsrFamily + numCalls }
  | .mulDiv => { counters with mulDivFamily := counters.mulDivFamily + numCalls }
  | .loadStoreWordOnly =>
      { counters with wordSizeMemFamily := counters.wordSizeMemFamily + numCalls }
  | .loadStoreSubwordOnly =>
      { counters with subwordSizeMemFamily := counters.subwordSizeMemFamily + numCalls }

instance : Counters DelegationsAndFamiliesCounters where
  bumpBigint amount counters := { counters with bigintCalls := counters.bigintCalls + amount }
  bumpBlake2RoundFunction amount counters :=
    { counters with blakeCalls := counters.blakeCalls + amount }
  bumpKeccakSpecial5 amount counters :=
    { counters with keccakCalls := counters.keccakCalls + amount }
  logMultipleCircuitFamilyCalls := logMultipleCircuitFamilyCalls

def getCallsToCircuitFamily (family : CircuitFamily)
    (counters : DelegationsAndFamiliesCounters) : Nat :=
  match family with
  | .addSubLuiAuipcMop => counters.addSubFamily
  | .jumpBranchSlt => counters.sltBranchFamily
  | .shiftBinaryCsr => counters.binaryShiftCsrFamily
  | .mulDiv => counters.mulDivFamily
  | .loadStoreWordOnly => counters.wordSizeMemFamily
  | .loadStoreSubwordOnly => counters.subwordSizeMemFamily

end DelegationsAndFamiliesCounters

/-- The counters of a run that one circuit proves: its cycles are not told apart. -/
structure DelegationsAndUnifiedCounters where
  nonDeterminismReads : Nat
  blakeCalls : Nat
  bigintCalls : Nat
  keccakCalls : Nat
  cycles : Nat
deriving DecidableEq, Repr

namespace DelegationsAndUnifiedCounters

def zero : DelegationsAndUnifiedCounters := ⟨0, 0, 0, 0, 0⟩

instance : Counters DelegationsAndUnifiedCounters where
  bumpBigint amount counters := { counters with bigintCalls := counters.bigintCalls + amount }
  bumpBlake2RoundFunction amount counters :=
    { counters with blakeCalls := counters.blakeCalls + amount }
  bumpKeccakSpecial5 amount counters :=
    { counters with keccakCalls := counters.keccakCalls + amount }
  logMultipleCircuitFamilyCalls _ numCalls counters :=
    { counters with cycles := counters.cycles + numCalls }

end DelegationsAndUnifiedCounters

end Airbender
