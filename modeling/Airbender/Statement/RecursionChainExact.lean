import Mathlib.Data.List.Chain
import Airbender.Statement.RecursionChain
import Airbender.Transcript.Evaluation

/-!
# Host chains against verifier chains

The host adds one layer after the other to a chain, and the verifier of every layer recomputes
the hash.  Both agree on all chains for one of the two host implementations, and exactly on the
chains without repeated parameters for the other.
-/

namespace Airbender.Statement

open StreamReader Blake2sBufferingTranscript

/-! ## Chains on the host -/

/-- An implementation of the chain on the host. -/
structure HostChain where
  start : EndParams → Seed × ChainPreimage
  next : EndParams → Seed → ChainPreimage → Option (Seed × ChainPreimage)

def unrolledHostChain : HostChain where
  start := beginRecursionChain
  next := continueRecursionChain

def encodingHostChain : HostChain where
  start endParams :=
    let encoding := createInitialChainEncodingEncoding endParams
    (encoding.2, encoding.1)
  next endParams hash preimage :=
    let encoding := continueChainEncoding hash preimage endParams
    some (encoding.2, encoding.1)

namespace HostChain

variable (host : HostChain) (base : EndParams)

/-- The chain after some layers. -/
def run (layers : List EndParams) : Option (Seed × ChainPreimage) :=
  layers.foldlM (fun link endParams => host.next endParams link.1 link.2) (host.start base)

theorem run_concat (layers : List EndParams) (endParams : EndParams) :
    host.run base (layers ++ [endParams]) =
      (host.run base layers).bind fun link => host.next endParams link.1 link.2 := by
  rw [run, List.foldlM_append, run]
  apply congrArg (Option.bind _)
  funext link
  exact bind_pure (host.next endParams link.1 link.2)

end HostChain

/-- `VerifierHash hash preimage endParams result`: the verifier of a layer, fed with the hash
of the previous step in its registers and with its preimage, and with any hasher that has been
started over, reads the preimage and outputs `result`. -/
def VerifierHash (hash : Seed) (preimage : ChainPreimage) (endParams : EndParams)
    (result : Seed) : Prop :=
  ∀ hasher : Blake2sBufferingTranscript, hasher.Holds [] → ∀ rest : List U32,
    recursionLayerOutput hasher hash endParams (preimage.toList ++ rest) =
      some ((result, preimage), rest)

/-- A host chain and the verifiers agree: at every layer the host gets the hash that the
verifier outputs, and a layer with the parameters added last changes nothing. -/
def HostChain.Agrees (host : HostChain) (base : EndParams) (layers : List EndParams) : Prop :=
  ∀ before endParams after, layers = before ++ endParams :: after →
    ∃ hash preimage hash' preimage',
      host.run base before = some (hash, preimage) ∧
        host.next endParams hash preimage = some (hash', preimage') ∧
        VerifierHash hash preimage endParams hash' ∧
        (endParams = (base :: before).getLast (List.cons_ne_nil _ _) →
          hash' = hash ∧ preimage' = preimage)

/-- The messages that a host chain hashes have different digests. -/
def HostChain.CollisionFree (host : HostChain) (base : EndParams) (layers : List EndParams) :
    Prop :=
  ∀ first second link link', first <+: layers → second <+: layers →
    host.run base first = some link → host.run base second = some link' →
    chainHash link.2 = chainHash link'.2 → link.2 = link'.2

/-! ## What the verifier makes of a link -/

theorem verifierHash_iff {preimage : ChainPreimage} {endParams : EndParams} {result : Seed} :
    VerifierHash (chainHash preimage) preimage endParams result ↔
      result = if preimage.secondHalf = endParams then chainHash preimage
        else chainHash (ChainPreimage.concat (chainHash preimage) endParams) := by
  constructor
  · intro output
    have direct := recursionLayerOutput_eq holds_new endParams preimage []
    have claimed := output Blake2sBufferingTranscript.new holds_new []
    rw [direct] at claimed
    have pair := Option.some.inj claimed
    exact (congrArg (fun outcome => outcome.1.1) pair).symm
  · rintro rfl hasher holds rest
    exact recursionLayerOutput_eq holds endParams preimage rest

/-! ## The encoding -/

/-- The links of a chain: the hash is that of the preimage, which ends with the parameters
added last. -/
structure IsLink (base : EndParams) (layers : List EndParams) (link : Seed × ChainPreimage) :
    Prop where
  hash_eq : link.1 = chainHash link.2
  secondHalf_eq : link.2.secondHalf = (base :: layers).getLast (List.cons_ne_nil _ _)

theorem getLast_cons_concat (base : EndParams) (layers : List EndParams)
    (endParams : EndParams) :
    (base :: (layers ++ [endParams])).getLast (List.cons_ne_nil _ _) = endParams := by
  have append : base :: (layers ++ [endParams]) = (base :: layers) ++ [endParams] := rfl
  simp only [append, List.getLast_append_singleton]

theorem encodingHostChain_run (base : EndParams) (layers : List EndParams) :
    ∃ link, encodingHostChain.run base layers = some link ∧ IsLink base layers link := by
  induction layers using List.reverseRecOn with
  | nil => exact ⟨_, rfl, ⟨rfl, ChainPreimage.secondHalf_concat _ _⟩⟩
  | append_singleton layers endParams inductionHypothesis =>
      obtain ⟨link, run, isLink⟩ := inductionHypothesis
      rw [HostChain.run_concat, run, Option.bind_some]
      have next := continueChainEncoding_eq endParams link.2
      rw [← isLink.hash_eq] at next
      refine ⟨_, rfl, ?_, ?_⟩
      · change (continueChainEncoding link.1 link.2 endParams).2 =
          chainHash (continueChainEncoding link.1 link.2 endParams).1
        rw [next]
        split
        · exact isLink.hash_eq
        · rfl
      · change (continueChainEncoding link.1 link.2 endParams).1.secondHalf = _
        rw [next, getLast_cons_concat]
        split
        · rename_i repeated
          exact repeated
        · exact ChainPreimage.secondHalf_concat _ _

/-- The encoding agrees with the verifiers on every chain. -/
theorem encodingHostChain_agrees (base : EndParams) (layers : List EndParams) :
    encodingHostChain.Agrees base layers := by
  intro before endParams after _
  obtain ⟨⟨hash, preimage⟩, run, isLink⟩ := encodingHostChain_run base before
  have hashEq : hash = chainHash preimage := isLink.hash_eq
  subst hashEq
  have next := continueChainEncoding_eq endParams preimage
  refine ⟨_, _, _, _, run, rfl, verifierHash_iff.mpr ?_, ?_⟩
  · rw [next]
    split <;> rfl
  · intro repeated
    rw [next, if_pos (isLink.secondHalf_eq.trans repeated.symm)]
    exact ⟨rfl, rfl⟩

/-! ## The recursion chain -/

theorem unrolledHostChain_run (base : EndParams) (layers : List EndParams) :
    ∃ link, unrolledHostChain.run base layers = some link ∧ IsLink base layers link := by
  induction layers using List.reverseRecOn with
  | nil => exact ⟨_, rfl, ⟨rfl, ChainPreimage.secondHalf_concat _ _⟩⟩
  | append_singleton layers endParams inductionHypothesis =>
      obtain ⟨link, run, isLink⟩ := inductionHypothesis
      have next := continueRecursionChain_eq endParams link.2
      rw [← isLink.hash_eq] at next
      rw [HostChain.run_concat, run, Option.bind_some]
      refine ⟨_, next, rfl, ?_⟩
      rw [getLast_cons_concat]
      exact ChainPreimage.secondHalf_concat _ _

/-- Every layer extends the chain. -/
theorem unrolledHostChain_run_concat {base : EndParams} {layers : List EndParams}
    {link : Seed × ChainPreimage} (run : unrolledHostChain.run base layers = some link)
    (endParams : EndParams) :
    unrolledHostChain.run base (layers ++ [endParams]) =
      some (chainHash (ChainPreimage.concat link.1 endParams),
        ChainPreimage.concat link.1 endParams) := by
  obtain ⟨link', run', isLink⟩ := unrolledHostChain_run base layers
  have same : link' = link := Option.some.inj (run'.symm.trans run)
  subst same
  have next := continueRecursionChain_eq endParams link'.2
  rw [← isLink.hash_eq] at next
  rw [HostChain.run_concat, run, Option.bind_some]
  exact next

/-- Without collisions and with a base hash other than zero, no hash of the chain is the first
half of its own preimage. -/
theorem unrolledHostChain_hash_ne {base : EndParams} {all : List EndParams}
    (collisionFree : unrolledHostChain.CollisionFree base all)
    (nonzero : (beginRecursionChain base).1 ≠ Vector.replicate 8 0)
    {layers : List EndParams} (inside : layers <+: all) {link : Seed × ChainPreimage}
    (run : unrolledHostChain.run base layers = some link) : link.1 ≠ link.2.firstHalf := by
  induction layers using List.reverseRecOn generalizing link with
  | nil =>
      have same : beginRecursionChain base = link := Option.some.inj run
      subst same
      rw [beginRecursionChain_eq, ChainPreimage.firstHalf_concat]
      exact nonzero
  | append_singleton layers endParams inductionHypothesis =>
      have shorter : layers <+: all := (List.prefix_append layers [endParams]).trans inside
      obtain ⟨previous, previousRun, isLink⟩ := unrolledHostChain_run base layers
      have extended := unrolledHostChain_run_concat previousRun endParams
      have same := Option.some.inj (extended.symm.trans run)
      subst same
      rw [ChainPreimage.firstHalf_concat]
      intro fixed
      -- the two last messages have one digest, so they are one message
      have messages := collisionFree _ _ _ _ inside shorter extended previousRun
        (fixed.trans isLink.hash_eq)
      have halves : previous.1 = previous.2.firstHalf := by
        rw [← messages, ChainPreimage.firstHalf_concat]
      exact inductionHypothesis shorter previousRun halves

theorem isChain_of_forall_split {α : Type} {R : α → α → Prop} {items : List α}
    (related : ∀ before left right after, items = before ++ left :: right :: after →
      R left right) : items.IsChain R := by
  induction items with
  | nil => exact List.IsChain.nil
  | cons first items inductionHypothesis =>
      cases items with
      | nil => exact List.IsChain.singleton first
      | cons second items =>
          refine List.IsChain.cons_cons (related [] first second items rfl) ?_
          apply inductionHypothesis
          intro before left right after equality
          exact related (first :: before) left right after (congrArg (first :: ·) equality)

theorem ne_of_isChain {base endParams : EndParams} {before after : List EndParams}
    (distinct : (base :: (before ++ endParams :: after)).IsChain (· ≠ ·)) :
    (base :: before).getLast (List.cons_ne_nil _ _) ≠ endParams := by
  have append : base :: (before ++ endParams :: after) =
      (base :: before) ++ endParams :: after := rfl
  rw [append, List.isChain_append] at distinct
  exact distinct.2.2 _ (List.getLast?_eq_some_getLast _) _ rfl

/-- The recursion chain agrees with the verifiers exactly if no layer repeats the parameters
of the layer before it. -/
theorem recursionChain_agrees_iff (base : EndParams) (layers : List EndParams)
    (collisionFree : unrolledHostChain.CollisionFree base layers)
    (nonzero : (beginRecursionChain base).1 ≠ Vector.replicate 8 0) :
    unrolledHostChain.Agrees base layers ∧ encodingHostChain.Agrees base layers ↔
      (base :: layers).IsChain (· ≠ ·) := by
  constructor
  · rintro ⟨agrees, -⟩
    apply isChain_of_forall_split
    rintro before left right after equality rfl
    -- the layers up to the first of two equal ones
    obtain ⟨upTo, split, last⟩ : ∃ upTo, layers = upTo ++ left :: after ∧
        left = (base :: upTo).getLast (List.cons_ne_nil _ _) := by
      cases before with
      | nil =>
          injection equality with head tail
          exact ⟨[], tail, head.symm⟩
      | cons first before =>
          injection equality with head tail
          refine ⟨before ++ [left], ?_, ?_⟩
          · rw [tail, List.append_assoc, List.singleton_append]
            rfl
          · rw [getLast_cons_concat]
    obtain ⟨hash, preimage, hash', preimage', run, next, -, unchanged⟩ :=
      agrees upTo left after split
    obtain ⟨-, preimageEq⟩ := unchanged last
    obtain ⟨link, run', isLink⟩ := unrolledHostChain_run base upTo
    have same : link = (hash, preimage) := Option.some.inj (run'.symm.trans run)
    subst same
    have hashEq : hash = chainHash preimage := isLink.hash_eq
    have extended := continueRecursionChain_eq left preimage
    rw [← hashEq] at extended
    have outcome : (hash', preimage') = _ := Option.some.inj (next.symm.trans extended)
    have repeated : ChainPreimage.concat hash left = preimage :=
      (congrArg Prod.snd outcome).symm.trans preimageEq
    have fixed : hash = preimage.firstHalf := by
      rw [← repeated, ChainPreimage.firstHalf_concat]
    have inside : upTo <+: layers := ⟨left :: after, split.symm⟩
    exact unrolledHostChain_hash_ne collisionFree nonzero inside run fixed
  · intro distinct
    refine ⟨?_, encodingHostChain_agrees base layers⟩
    rintro before endParams after rfl
    obtain ⟨⟨hash, preimage⟩, run, isLink⟩ := unrolledHostChain_run base before
    have hashEq : hash = chainHash preimage := isLink.hash_eq
    subst hashEq
    have new := ne_of_isChain distinct
    refine ⟨_, _, _, _, run, continueRecursionChain_eq endParams preimage,
      verifierHash_iff.mpr ?_, fun repeated => absurd repeated.symm new⟩
    rw [if_neg (fun same => new (isLink.secondHalf_eq.symm.trans same))]

/-! ### One layer over zero parameters -/

section Samples

open Blake2s

/-- The hash of sixteen zeros. -/
def zeroChainHash : List Nat :=
  [421206179, 3705106726, 2751512561, 536920892, 2268187316, 1416301098, 738579815, 1210345915]

theorem chainHash_concat {hash endParams : List Nat} (hashLength : hash.length = 8)
    (endParamsLength : endParams.length = 8) :
    chainHash (ChainPreimage.concat (wordsOfNat 8 hash) (wordsOfNat 8 endParams)) =
      wordsOfNat 8 (digestBlocks configuredIvNat 0 [hash ++ endParams]) := by
  have words : (ChainPreimage.concat (wordsOfNat 8 hash) (wordsOfNat 8 endParams)).toList =
      wordList [hash ++ endParams].flatten := by
    rw [ChainPreimage.concat, Vector.toList_append, Blake2sTranscript.toList_wordsOfNat hashLength,
      Blake2sTranscript.toList_wordsOfNat endParamsLength, List.flatten_cons, List.flatten_nil,
      List.append_nil]
    exact List.map_append.symm
  have length : (hash ++ endParams).length = 16 := by
    rw [List.length_append, hashLength, endParamsLength]
  rw [chainHash, words]
  exact digest_eq_digestBlocks
    (.last (List.ne_nil_of_length_pos (by omega)) (Nat.le_of_eq length))

theorem chainHash_zero :
    chainHash (ChainPreimage.concat (Vector.replicate 8 0) (Vector.replicate 8 0)) =
      wordsOfNat 8 zeroChainHash := by
  have zeros : (Vector.replicate 8 0 : Seed) = wordsOfNat 8 (List.replicate 8 0) := by
    decide
  have evaluated : digestBlocks configuredIvNat 0
      [List.replicate 8 0 ++ List.replicate 8 0] = zeroChainHash := by
    decide +kernel
  rw [zeros, chainHash_concat rfl rfl, evaluated]

/-- A chain over zero parameters with one layer has two messages. -/
theorem zeroChain_collisionFree {endParams : List Nat} (length : endParams.length = 8)
    (differ : wordsOfNat 8 (digestBlocks configuredIvNat 0 [zeroChainHash ++ endParams]) ≠
      wordsOfNat 8 zeroChainHash) :
    unrolledHostChain.CollisionFree (Vector.replicate 8 0) [wordsOfNat 8 endParams] := by
  have start : unrolledHostChain.run (Vector.replicate 8 0) [] =
      some (beginRecursionChain (Vector.replicate 8 0)) := rfl
  have hash : (beginRecursionChain (Vector.replicate 8 0)).1 = wordsOfNat 8 zeroChainHash :=
    chainHash_zero
  have next := unrolledHostChain_run_concat start (wordsOfNat 8 endParams)
  rw [hash] at next
  have ofNext : chainHash (ChainPreimage.concat (wordsOfNat 8 zeroChainHash)
      (wordsOfNat 8 endParams)) ≠ wordsOfNat 8 zeroChainHash := by
    rw [chainHash_concat rfl length]
    exact differ
  have prefixes : ∀ layers : List EndParams, layers <+: [wordsOfNat 8 endParams] →
      layers = [] ∨ layers = [] ++ [wordsOfNat 8 endParams] := by
    intro layers shorter
    exact List.prefix_concat_iff.mp shorter |>.symm.imp List.prefix_nil.mp id
  intro first second link link' firstShorter secondShorter firstRun secondRun same
  rcases prefixes first firstShorter with rfl | rfl <;>
    rcases prefixes second secondShorter with rfl | rfl
  · rw [Option.some.inj (firstRun.symm.trans secondRun)]
  · obtain rfl := Option.some.inj (start.symm.trans firstRun)
    obtain rfl := Option.some.inj (next.symm.trans secondRun)
    exact absurd (same.symm.trans chainHash_zero) ofNext
  · obtain rfl := Option.some.inj (next.symm.trans firstRun)
    obtain rfl := Option.some.inj (start.symm.trans secondRun)
    exact absurd (same.trans chainHash_zero) ofNext
  · rw [Option.some.inj (firstRun.symm.trans secondRun)]

theorem zeroChainHash_ne_zero : wordsOfNat 8 zeroChainHash ≠ Vector.replicate 8 0 := by
  decide

/-- One layer with other parameters than the base program. -/
theorem recursionChain_agrees_one_layer :
    unrolledHostChain.Agrees (Vector.replicate 8 0) [wordsOfNat 8 (List.replicate 8 1)] ∧
      encodingHostChain.Agrees (Vector.replicate 8 0)
        [wordsOfNat 8 (List.replicate 8 1)] := by
  have differ : wordsOfNat 8 (digestBlocks configuredIvNat 0
      [zeroChainHash ++ List.replicate 8 1]) ≠ wordsOfNat 8 zeroChainHash := by
    decide +kernel
  have nonzero : (beginRecursionChain (Vector.replicate 8 0)).1 ≠ Vector.replicate 8 0 := by
    rw [beginRecursionChain_eq, chainHash_zero]
    exact zeroChainHash_ne_zero
  apply (recursionChain_agrees_iff (Vector.replicate 8 0)
    [wordsOfNat 8 (List.replicate 8 1)] (zeroChain_collisionFree rfl differ) nonzero).mpr
  decide

/-- A layer with the parameters of the base program changes the chain on the host. -/
theorem recursionChain_repeated_layer :
    unrolledHostChain.CollisionFree (Vector.replicate 8 0)
        [wordsOfNat 8 (List.replicate 8 0)] ∧
      ¬ (unrolledHostChain.Agrees (Vector.replicate 8 0)
          [wordsOfNat 8 (List.replicate 8 0)] ∧
        encodingHostChain.Agrees (Vector.replicate 8 0)
          [wordsOfNat 8 (List.replicate 8 0)]) := by
  have differ : wordsOfNat 8 (digestBlocks configuredIvNat 0
      [zeroChainHash ++ List.replicate 8 0]) ≠ wordsOfNat 8 zeroChainHash := by
    decide +kernel
  refine ⟨zeroChain_collisionFree rfl differ, ?_⟩
  rintro ⟨agrees, -⟩
  obtain ⟨hash, preimage, hash', preimage', run, next, -, unchanged⟩ :=
    agrees [] (wordsOfNat 8 (List.replicate 8 0)) [] rfl
  have started : (chainHash (ChainPreimage.concat (Vector.replicate 8 0)
      (Vector.replicate 8 0)), ChainPreimage.concat (Vector.replicate 8 0)
        (Vector.replicate 8 0)) = (hash, preimage) := Option.some.inj run
  cases started
  obtain ⟨-, samePreimage⟩ := unchanged (by decide)
  have extended := continueRecursionChain_eq (wordsOfNat 8 (List.replicate 8 0))
    (ChainPreimage.concat (Vector.replicate 8 0) (Vector.replicate 8 0))
  have outcome := congrArg Prod.snd (Option.some.inj (next.symm.trans extended))
  have halves := congrArg ChainPreimage.firstHalf (outcome.symm.trans samePreimage)
  rw [ChainPreimage.firstHalf_concat, ChainPreimage.firstHalf_concat, chainHash_zero] at halves
  exact zeroChainHash_ne_zero halves

end Samples

end Airbender.Statement
