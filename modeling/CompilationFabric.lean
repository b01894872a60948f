import CompilationFabric.Analysis.KeyInjectivity
import CompilationFabric.Analysis.WireIdentity
import CompilationFabric.Analysis.PersistenceRoundTrip
import CompilationFabric.Model.Planning
import CompilationFabric.Library.TransitionSystem
import CompilationFabric.Model.FabricSystem
import CompilationFabric.Interface.FabricTransition
import CompilationFabric.Interface.FabricInvariant
import CompilationFabric.Interface.FabricRuns
import CompilationFabric.Interface.FabricCalls
import CompilationFabric.Analysis.StaleCompletion
import CompilationFabric.Interface.FabricCache
import CompilationFabric.Interface.FabricHistory
import CompilationFabric.Analysis.CacheIntegrity
import CompilationFabric.Model.KeySetters
import CompilationFabric.Analysis.KeyRelations
import CompilationFabric.Analysis.ReuseSoundness
import CompilationFabric.Model.CpuBackend
import CompilationFabric.Model.ResultProtocol
import CompilationFabric.Interface.ResultWire
import CompilationFabric.Analysis.ArtifactDelivery
import CompilationFabric.Model.CoordinatorState
import CompilationFabric.Model.Coordinator
import CompilationFabric.Interface.CoordinatorTransition
import CompilationFabric.Analysis.WorkerRegistry
import CompilationFabric.Interface.CoordinatorInvariant
import CompilationFabric.Interface.CoordinatorRuns
import CompilationFabric.Analysis.CoordinatorSingleFlight
import CompilationFabric.Analysis.CoordinatorAgreement
import CompilationFabric.Analysis.CoordinatorInvalidation
import CompilationFabric.Analysis.PublicationAuthority
import CompilationFabric.Model.CoordinatorServe
import CompilationFabric.Interface.CoordinatorServe
import CompilationFabric.Analysis.AttemptBinding
import CompilationFabric.Analysis.PendingRequests
import CompilationFabric.Interface.FabricCommits
import CompilationFabric.Interface.JsonText
import CompilationFabric.Analysis.InvalidatedArtifacts
import CompilationFabric.Interface.FabricStore
import CompilationFabric.Interface.FabricNumbers
import CompilationFabric.Analysis.InvalidationBarrier
import CompilationFabric.Interface.FabricIdentities
import CompilationFabric.Interface.FabricProgress
import CompilationFabric.Analysis.ArtifactIdentity
import CompilationFabric.Interface.FabricFlight
import CompilationFabric.Analysis.FabricSingleFlight
import CompilationFabric.Interface.FabricEntries
import CompilationFabric.Analysis.DependencyInvalidation
import CompilationFabric.Model.Lifecycle
import CompilationFabric.Analysis.LifecycleConformance
import CompilationFabric.Analysis.EligibilityGates
import CompilationFabric.Interface.FabricRecovery
import CompilationFabric.Analysis.RecoveryOrder
import CompilationFabric.Interface.CanonicalRecord
import CompilationFabric.Interface.RecordFile
import CompilationFabric.Analysis.MetadataLayout
import CompilationFabric.Interface.FabricOwners
import CompilationFabric.Analysis.FailedCompiles
import CompilationFabric.Interface.FabricSequential
import CompilationFabric.Analysis.StableArtifacts
import CompilationFabric.Analysis.ExclusiveOwnership
import CompilationFabric.Analysis.GenerationRetirement
import CompilationFabric.Model.ReaderCalls
import CompilationFabric.Analysis.ReaderBounds
import CompilationFabric.Analysis.KeyRecordGrammar
import CompilationFabric.Model.Framing
import CompilationFabric.Analysis.FrameBodies
import CompilationFabric.Model.Dispatch
import CompilationFabric.Interface.ViewReads
import CompilationFabric.Analysis.StrictPayloads
import CompilationFabric.Model.CpuBytecode
import CompilationFabric.Analysis.BytecodeBijection
import CompilationFabric.Interface.Transfer
import CompilationFabric.Analysis.FrameDelivery
import CompilationFabric.Model.SharedChannel
import CompilationFabric.Analysis.ChannelInterleaving
import CompilationFabric.Analysis.CrashAtomicity
import CompilationFabric.Library.Numerals
import CompilationFabric.Model.CpuSource
import CompilationFabric.Model.CpuExecution
import CompilationFabric.Analysis.CacheKeySufficiency
import CompilationFabric.Model.CudaSpec
import CompilationFabric.Interface.CudaSpecText
import CompilationFabric.Analysis.CudaReference
import CompilationFabric.Interface.SubmitProgress
import CompilationFabric.Analysis.AdmissionAgreement
import CompilationFabric.Analysis.RecordWellFormedness
import CompilationFabric.Model.KeyGetters
import CompilationFabric.Analysis.TypedFields
import CompilationFabric.Analysis.JsonRoundTrip
import CompilationFabric.Library.JsonGrammar
import CompilationFabric.Interface.JsonLanguage
import CompilationFabric.Analysis.JsonConformance
import CompilationFabric.Library.BitStrings
import CompilationFabric.Library.BlockStream
import CompilationFabric.Library.SecureHash
import CompilationFabric.Model.Sha256
import CompilationFabric.Interface.HashRefinement
import CompilationFabric.Analysis.HashConformance
import CompilationFabric.Analysis.CanonicalText
import CompilationFabric.Interface.FabricBackends
import CompilationFabric.Analysis.BackendPlans
import CompilationFabric.Analysis.BackendRuns
import CompilationFabric.Analysis.BackendSelection
import CompilationFabric.Analysis.BackendKeys
import CompilationFabric.Analysis.ResultAttribution
import CompilationFabric.Interface.FabricStaleness
import CompilationFabric.Analysis.SpuriousStaleness
import CompilationFabric.Interface.DescriptorSize
import CompilationFabric.Model.BackendCalls
import CompilationFabric.Analysis.AbandonedEntries
import CompilationFabric.Model.Leases
import CompilationFabric.Analysis.LeaseAccounting
import CompilationFabric.Library.TreeReduction
import CompilationFabric.Model.CudaKernel
import CompilationFabric.Analysis.KernelReduction
import CompilationFabric.Analysis.SourceSafety
import CompilationFabric.Analysis.DecodableArtifacts
import CompilationFabric.Model.CpuValidation
import CompilationFabric.Analysis.ShapeFidelity
import CompilationFabric.Model.StoreCalls
import CompilationFabric.Analysis.LatestGeneration
import CompilationFabric.Analysis.RecoveryAccounting
import CompilationFabric.Analysis.VerifiedContent
import CompilationFabric.Model.WorkerLoop
import CompilationFabric.Analysis.WorkerSurvival
import CompilationFabric.Model.WorkerPayloads
import CompilationFabric.Analysis.PayloadAlignment
import CompilationFabric.Model.FieldMerge
import CompilationFabric.Analysis.FieldDiffs
import CompilationFabric.Library.FixedNotation
import CompilationFabric.Model.CudaLaunch
import CompilationFabric.Analysis.SpecializationText
import CompilationFabric.Model.CallSites
import CompilationFabric.Analysis.CallSiteKeys
import CompilationFabric.Library.FirstLeast
import CompilationFabric.Model.Autotuning
import CompilationFabric.Interface.FabricOutputs
import CompilationFabric.Analysis.AutotuneChoice
import CompilationFabric.Library.Ranking
import CompilationFabric.Library.Census
import CompilationFabric.Interface.FabricRank
import CompilationFabric.Analysis.CallTermination
import CompilationFabric.Library.Monitor
import CompilationFabric.Model.Observability
import CompilationFabric.Model.FabricMetrics
import CompilationFabric.Interface.FabricAccounts
import CompilationFabric.Analysis.MetricsAccounting
import CompilationFabric.Analysis.CoordinatorAccounting
import CompilationFabric.Library.Refinement
import CompilationFabric.Library.Registry
import CompilationFabric.Interface.FabricRegistry
import CompilationFabric.Analysis.RegistryRefinement
import CompilationFabric.Analysis.PublishedRegistry
import CompilationFabric.Library.FloatModel
import CompilationFabric.Library.FloatArithmetic
import CompilationFabric.Analysis.OptimizerCorrectness
import CompilationFabric.Model.CudaElementwise
import CompilationFabric.Analysis.ElementwiseKernel
import CompilationFabric.Interface.WireSettled
import CompilationFabric.Analysis.WireStability
import CompilationFabric.Interface.FabricPlacement
import CompilationFabric.Analysis.Durability
