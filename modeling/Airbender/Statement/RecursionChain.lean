import Airbender.Statement.Common

/-!
# The chain of program hashes

A base program starts a chain with the hash of its end parameters; every recursion layer
extends the chain by its own, unless they are the ones that were added last.  The host and the
statement verifiers each implement this.
-/

namespace Airbender.Statement

open StreamReader Blake2sBufferingTranscript

/-- A digest of final program counter and setups: "which program, and where it ended". -/
abbrev EndParams : Type := Vector U32 8

/-- What the last link of a chain is the hash of: the hash before it, and end parameters. -/
abbrev ChainPreimage : Type := Vector U32 16

def ChainPreimage.firstHalf (preimage : ChainPreimage) : Seed :=
  Vector.ofFn fun i : Fin 8 => preimage.get (i.castAdd 8)

def ChainPreimage.secondHalf (preimage : ChainPreimage) : EndParams :=
  Vector.ofFn fun i : Fin 8 => preimage.get (i.addNat 8)

def ChainPreimage.ofWords (words : List U32) : ChainPreimage :=
  Vector.ofFn fun i : Fin 16 => words[i.val]?.getD 0

/-- The preimage of a link. -/
def ChainPreimage.concat (hash : Seed) (endParams : EndParams) : ChainPreimage :=
  hash ++ endParams

/-! ## In the verifiers -/

/-- `end_params_output`, and the hasher that goes on. -/
def endParamsOutput (finalPc : U32) (setups : List MerkleTreeCaps) :
    EndParams × Blake2sBufferingTranscript :=
  let hasher := Blake2sBufferingTranscript.new
  let hasher := hasher.absorb (finalPcBuffer finalPc 0 0)
  let hasher := setups.foldl (fun hasher setup => hasher.absorb (MerkleTreeCap.flatten setup)) hasher
  hasher.finalizeReset

/-- Registers 18 to 25. -/
def auxRegisters (registers : Vector RegisterFinalData 32) : Seed :=
  Vector.ofFn fun i : Fin 8 => registers[18 + i.val].value

/-- The base layer: these registers are zero, and a chain starts. -/
def baseLayerOutput (resultHasher : Blake2sBufferingTranscript) (aux : Seed)
    (endParams : EndParams) : Verifier Seed := do
  Reader.check (aux = Vector.replicate 8 0)
  let buffer := ChainPreimage.concat (Vector.replicate 8 0) endParams
  pure (resultHasher.absorb buffer.toList).finalizeReset.1

/-- A recursion layer: these registers are the chain so far, and the prover shows what it is
the hash of. -/
def recursionLayerOutput (resultHasher : Blake2sBufferingTranscript) (aux : Seed)
    (endParams : EndParams) : Verifier (Seed × ChainPreimage) := do
  let words ← Reader.tokens 16
  let preimage := ChainPreimage.ofWords words
  let preimageHash := (resultHasher.absorb preimage.toList).finalizeReset
  Reader.check (preimageHash.1 = aux)
  if preimage.secondHalf = endParams then
    -- the chain already ends with these parameters
    pure (aux, preimage)
  else
    let input := ChainPreimage.concat aux endParams
    pure ((preimageHash.2.absorb input.toList).finalizeReset.1, preimage)

/-! ## On the host -/

/-- `UnrolledProgramSetup::begin_recursion_chain`. -/
def beginRecursionChain (baseLayerEndParams : EndParams) : Seed × ChainPreimage :=
  let preimage := ChainPreimage.concat (Vector.replicate 8 0) baseLayerEndParams
  let resultHasher := Blake2sBufferingTranscript.new.absorb preimage.toList
  (resultHasher.finalize, preimage)

/-- `UnrolledProgramSetup::continue_recursion_chain`. -/
def continueRecursionChain (endParams : EndParams) (previousStepHashChain : Seed)
    (previousStepChainPreimage : ChainPreimage) : Option (Seed × ChainPreimage) := do
  let hasher := Blake2sBufferingTranscript.new.absorb previousStepChainPreimage.toList
  guard (hasher.finalize = previousStepHashChain)
  -- the comparison takes the words of the hash from the eighth on, of which there are none
  if previousStepHashChain.toList.drop 8 = endParams.toList then
    guard (previousStepHashChain.toList.take 8 ≠ List.replicate 8 0)
    some (previousStepHashChain, previousStepChainPreimage)
  else
    let preimage := ChainPreimage.concat previousStepHashChain endParams
    let resultHasher := Blake2sBufferingTranscript.new.absorb preimage.toList
    some (resultHasher.finalize, preimage)

/-- `create_initial_chain_encoding_encoding`. -/
def createInitialChainEncodingEncoding (baseLayerEndParams : EndParams) :
    ChainPreimage × Seed :=
  let preimage := ChainPreimage.concat (Vector.replicate 8 0) baseLayerEndParams
  let chainHasher := Blake2sBufferingTranscript.new.absorb preimage.toList
  (preimage, chainHasher.finalizeReset.1)

/-- `continue_chain_encoding`. -/
def continueChainEncoding (previousChainHash : Seed) (previousChainPreimage : ChainPreimage)
    (verifierStepEndParameters : EndParams) : ChainPreimage × Seed :=
  if previousChainPreimage.toList.drop 8 = verifierStepEndParameters.toList then
    (previousChainPreimage, previousChainHash)
  else
    let preimage := ChainPreimage.concat previousChainHash verifierStepEndParameters
    let chainHasher := Blake2sBufferingTranscript.new.absorb preimage.toList
    (preimage, chainHasher.finalizeReset.1)

/-! ## Halves -/

namespace ChainPreimage

@[simp]
theorem firstHalf_concat (hash : Seed) (endParams : EndParams) :
    (concat hash endParams).firstHalf = hash := by
  apply Vector.ext
  intro i bound
  rw [firstHalf, concat, Vector.getElem_ofFn]
  exact Vector.getElem_append_left bound

@[simp]
theorem secondHalf_concat (hash : Seed) (endParams : EndParams) :
    (concat hash endParams).secondHalf = endParams := by
  apply Vector.ext
  intro i bound
  have entry : (hash ++ endParams)[i + 8] = endParams[i + 8 - 8] :=
    Vector.getElem_append_right (by omega) (by omega)
  simp only [Nat.add_sub_cancel] at entry
  rw [secondHalf, concat, Vector.getElem_ofFn]
  exact entry

theorem drop_toList_eq_iff (preimage : ChainPreimage) (endParams : EndParams) :
    preimage.toList.drop 8 = endParams.toList ↔ preimage.secondHalf = endParams := by
  have half : preimage.secondHalf.toList = preimage.toList.drop 8 := by
    apply List.ext_getElem
    · rw [Vector.length_toList, List.length_drop, Vector.length_toList]
    · intro i left _
      rw [Vector.length_toList] at left
      simp only [secondHalf, List.getElem_drop, Vector.getElem_toList, Vector.getElem_ofFn,
        Nat.add_comm 8 i]
      rfl
  rw [← half]
  exact Vector.toList_inj

theorem ofWords_toList (preimage : ChainPreimage) : ofWords preimage.toList = preimage := by
  apply Vector.ext
  intro i bound
  rw [ofWords, Vector.getElem_ofFn, Vector.getElem?_toList, Vector.getElem?_eq_getElem bound]
  rfl

end ChainPreimage

/-! ## What each implementation computes -/

/-- The hash of a preimage. -/
def chainHash (preimage : ChainPreimage) : Seed := digest preimage.toList

theorem finalize_absorb {hasher : Blake2sBufferingTranscript} (holds : hasher.Holds [])
    (preimage : ChainPreimage) :
    (hasher.absorb preimage.toList).finalizeReset.1 = chainHash preimage :=
  (holds.absorb preimage.toList).finalizeReset_eq

theorem beginRecursionChain_eq (endParams : EndParams) :
    beginRecursionChain endParams =
      (chainHash (ChainPreimage.concat (Vector.replicate 8 0) endParams),
        ChainPreimage.concat (Vector.replicate 8 0) endParams) := rfl

/-- The comparison never succeeds, so the host always extends the chain. -/
theorem continueRecursionChain_eq (endParams : EndParams) (preimage : ChainPreimage) :
    continueRecursionChain endParams (chainHash preimage) preimage =
      some (chainHash (ChainPreimage.concat (chainHash preimage) endParams),
        ChainPreimage.concat (chainHash preimage) endParams) := by
  have empty : (chainHash preimage).toList.drop 8 = [] := by
    apply List.drop_eq_nil_of_le
    rw [Vector.length_toList]
  have never : ¬ (chainHash preimage).toList.drop 8 = endParams.toList := by
    intro equality
    have lengths := congrArg List.length equality
    rw [empty, Vector.length_toList, List.length_nil] at lengths
    omega
  rw [continueRecursionChain]
  have hash : (Blake2sBufferingTranscript.new.absorb preimage.toList).finalize =
      chainHash preimage := rfl
  simp only [hash, guard_true, Option.pure_def, Option.bind_eq_bind, Option.bind_some,
    if_neg never]
  rfl

theorem recursionLayerOutput_eq {hasher : Blake2sBufferingTranscript} (holds : hasher.Holds [])
    (endParams : EndParams) (preimage : ChainPreimage) (rest : List U32) :
    recursionLayerOutput hasher (chainHash preimage) endParams (preimage.toList ++ rest) =
      some ((if preimage.secondHalf = endParams then chainHash preimage
        else chainHash (ChainPreimage.concat (chainHash preimage) endParams), preimage),
        rest) := by
  have read : Reader.tokens 16 (preimage.toList ++ rest) = some (preimage.toList, rest) :=
    Reader.tokens_eq_some_iff.mpr ⟨Vector.length_toList, rfl⟩
  have hash := finalize_absorb holds preimage
  have reset := holds_finalizeReset (hasher.absorb preimage.toList)
  have next := finalize_absorb reset (ChainPreimage.concat (chainHash preimage) endParams)
  rw [recursionLayerOutput, Reader.bind_of_run read, ChainPreimage.ofWords_toList]
  apply Reader.bind_eq_some_iff.mpr
  refine ⟨⟨⟩, rest, Reader.check_eq_some_iff.mpr ⟨hash, rfl⟩, ?_⟩
  by_cases repeated : preimage.secondHalf = endParams
  · rw [if_pos repeated, if_pos repeated]
    rfl
  · rw [if_neg repeated, if_neg repeated]
    exact congrArg (fun hash => some ((hash, preimage), rest)) next

theorem continueChainEncoding_eq (endParams : EndParams) (preimage : ChainPreimage) :
    continueChainEncoding (chainHash preimage) preimage endParams =
      if preimage.secondHalf = endParams then (preimage, chainHash preimage)
      else (ChainPreimage.concat (chainHash preimage) endParams,
        chainHash (ChainPreimage.concat (chainHash preimage) endParams)) := by
  rw [continueChainEncoding]
  simp only [ChainPreimage.drop_toList_eq_iff]
  rfl

end Airbender.Statement
