import Airbender.Ir.Preprocess
import Airbender.Delegations.Blake2sBatching
import Airbender.Delegations.KeccakSchedule
import Airbender.Delegations.KeccakBatching
import Airbender.Vm.Step
import Airbender.Vm.RamAccesses
import Airbender.Vm.DelegationCalls
import Airbender.Vm.Blake2sCall
import Airbender.Vm.Counters
import Airbender.Ir.Canonical
import Airbender.Vm.DelegationFolding
import Airbender.Vm.Opcode
import Airbender.Vm.StepFacts
import Airbender.Vm.Run
import Airbender.Vm.StepAccesses
import Airbender.Vm.AccessTimes
import Airbender.Replayer.Ram
import Airbender.Replayer.TracingData
import Airbender.Replayer.Delegations
import Airbender.Replayer.Run
import Airbender.Replayer.DelegationReplay
import Airbender.Circuit.Field
import Airbender.Circuit.InitAndTeardown
import Airbender.Replayer.Simulation
import Airbender.Circuit.Decoder
import Airbender.Circuit.Machine
import Airbender.Circuit.AddSubLuiAuipcMop
import Airbender.Ir.Fields
import Airbender.Circuit.DecoderExact
import Airbender.Circuit.DecodeAlike
import Airbender.Circuit.LoadStoreWordOnly
import Airbender.Circuit.JumpBranchSlt
import Airbender.Delegations.BigintValue
import Airbender.Circuit.BigintWithControl
import Airbender.Circuit.BigintExact
import Airbender.Circuit.OptimizationContext
import Airbender.Circuit.SubwordTables
import Airbender.Circuit.LoadStoreSubwordOnly
import Airbender.Lib.BlockBuffer
import Airbender.Transcript.Blake2sState
import Airbender.Transcript.Transcript
import Airbender.Field.Quartic
import Airbender.Statement.Challenges
import Airbender.Lib.StreamReader
import Airbender.Statement.ProofOutput
import Airbender.Statement.Common
import Airbender.Statement.RecursionChain
import Airbender.Statement.RecursionChainExact
import Airbender.Statement.Verification
import Airbender.Transcript.Evaluation
import Airbender.Statement.Unified
import Airbender.Statement.Unrolled
import Airbender.Statement.Runs
import Airbender.Statement.ChallengeBinding
import Airbender.Statement.UnifiedBinding
import Airbender.Lib.PaddedOrder
import Airbender.Statement.FsTransform
import Airbender.Statement.InitAddresses
import Airbender.Lib.BTreeMap
import Airbender.Statement.Layers
import Airbender.Statement.RoundTrip
import Airbender.Statement.ProgramRoundTrip
import Airbender.Field.Element
import Airbender.Constraints.Constraint
import Airbender.Constraints.NormalForm
import Airbender.Constraints.Operators
import Airbender.Constraints.Substitution
import Airbender.Field.Complex
import Airbender.Field.TwoAdic
import Airbender.Lib.RadixTwo
import Airbender.Fft.Worker
import Airbender.Fft.AdjustToZero
import Airbender.Fft.Precomputes
import Airbender.Fft.LdePrecomputations
import Airbender.Fft.RowMajor
import Airbender.Lib.FourierInterpolation
import Airbender.Fft.PackedExtension
import Airbender.Lib.MerkleTree
import Airbender.Merkle.LeafHash
import Airbender.Merkle.Tree
import Airbender.Merkle.Construction
import Airbender.Merkle.Verifier
import Airbender.Merkle.Openings
import Airbender.Merkle.LeafSource
import Airbender.Circuit.MulRelation
import Airbender.Circuit.MulRelationExact
import Airbender.Circuit.CsrrwChecks
import Airbender.Transcript.Commit
import Airbender.Transcript.ProofOfWork
import Airbender.Lib.NestedList
import Airbender.Prover.LazyInitChunks
import Airbender.Field.QuarticField
import Airbender.Lib.Horner
import Airbender.Verifier.DeepAccumulation
import Airbender.Compiler.Columns
import Airbender.Compiler.LookupExpression
import Airbender.Compiler.Timestamps
import Airbender.Compiler.Layouts
import Airbender.Compiler.Stage2Layout
import Airbender.Compiler.Stage2Partition
import Airbender.Compiler.ToTokens
import Airbender.Compiler.GeneratedLayout
import Airbender.Compiler.CircuitOutput
import Airbender.Compiler.Placement
import Airbender.Compiler.ScratchSpace
import Airbender.Compiler.MemoryPlacement
import Airbender.Compiler.CompileLayout
import Airbender.Compiler.QuotientTerms
import Airbender.Prover.CachedData
import Airbender.Prover.EveryRowExceptLast
import Airbender.Compiler.CompiledCircuits
import Airbender.Prover.TermCounts
import Airbender.Prover.QuotientTermsExact
import Airbender.Fft.WorkSplitting
import Airbender.Fft.StageBarriers
import Airbender.Fft.CosetExtension
import Airbender.Replayer.LogSlices
import Airbender.Replayer.RowAccesses
import Airbender.Replayer.InstructionRows
import Airbender.Replayer.Blake2sRows
import Airbender.Replayer.KeccakRows
import Airbender.Replayer.RunRows
import Airbender.Vm.InitsAndTeardowns
import Airbender.Replayer.MemoryArgument
import Airbender.Replayer.RowCounts
import Airbender.Replayer.SnapshotSpans
import Airbender.Lib.ScatteredWrites
import Airbender.Prover.ParallelReplay
import Airbender.Fft.BitReversal
import Airbender.Fft.BatchInverse
import Airbender.Fft.ColumnMajor
import Airbender.Fft.ColumnTransforms
import Airbender.Fft.SerialRowMajor
import Airbender.Fft.FullLineFft
import Airbender.Field.CheckedArithmetic
import Airbender.Field.Conversions
import Airbender.Field.StoredExtensions
import Airbender.Fft.WorkerChunks
