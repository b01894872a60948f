import CompilationFabric.Model.Key
import CompilationFabric.Model.Descriptor

/-!
# Requests, plans and their compilation key

`Request.hpp` and `Request.cpp`: what a client asks for, what `plan` makes of it, and
`buildCompilationKey`, which is the program's notion of when two requests may share an
artifact.

`buildCompilationKey` is a sequence of setter calls, most of them behind a test that the
value is not empty.  The model keeps that shape: `keyAssignments` is the sequence, one
entry for each call with `none` where the test fails, and the key is its fold.
-/

set_option autoImplicit false

namespace CompilationFabric.Model

open CompilationFabric.Library.Binary64
open Json

abbrev ToolchainGeneration := UInt64

/-! ## Requests -/

/-- SOURCE: Request.hpp:15-76 -/
structure CompilationRequest where
  requestId : CompilationRequestId := {}
  logicalOperation : LogicalOperation := {}
  source : Bytes := []
  sourceDigest : Digest := .zero
  sourceLanguage : Bytes := []
  irDigest : Digest := .zero
  irFormat : Bytes := []
  datatype : Datatype := .None
  layout : Layout := .None
  rank : UInt64 := 0
  staticShape : List Int64 := []
  symbolicShape : Bytes := []
  alignment : UInt64 := 0
  quantization : QuantizationMode := .None
  precision : PrecisionMode := .None
  scalarConstants : Bytes := []
  launchSpecialization : Bytes := []
  targetArchitecture : Bytes := []
  computeCapability : Bytes := []
  isa : Bytes := []
  abi : Bytes := []
  kernelABI : Bytes := []
  backend : Bytes := []
  compilerId : Bytes := []
  frontend : Bytes := []
  featureFlags : Bytes := []
  optimizationFlags : Bytes := []
  codegenFlags : Bytes := []
  debugRelease : DebugReleaseMode := .Release
  determinism : DeterminismMode := .Unspecified
  reproducibility : ReproducibilityMode := .Unspecified
  dependencyIdentities : List Id128 := []
  dependencyGenerations : List UInt64 := []
  modelRevision : Bytes := []
  namespaceName : Bytes := []
  tenant : Bytes := []
  autotune : Bool := false
  autotuneCandidates : Int32 := 1
  autotuneSeed : UInt64 := 0
  optimizeLevel : Int32 := 1
  blockSize : Int32 := 0
  unrollFactor : Int32 := 0
  offlinePreferred : Bool := false
  deriving DecidableEq

/-- A vector of generations as an array. -/
def u64Array (v : List UInt64) : Json := .array (v.map ofU64)

/-- A vector of identities as an array. -/
def idArray (v : List Id128) : Json := .array (v.map fun e => .str e.toHex)

def CompilationRequest.members (r : CompilationRequest) : List (String × Json) :=
  [("request_id", .str r.requestId.toHex), ("logical_operation", .str r.logicalOperation.toHex),
    ("source", .str r.source), ("source_digest", .str (digestToHex r.sourceDigest)),
    ("source_language", .str r.sourceLanguage), ("ir_digest", .str (digestToHex r.irDigest)),
    ("ir_format", .str r.irFormat), ("datatype", .str (datatypeName r.datatype)),
    ("layout", .str (layoutName r.layout)), ("rank", ofU64 r.rank),
    ("static_shape", i64Array r.staticShape), ("symbolic_shape", .str r.symbolicShape),
    ("alignment", ofU64 r.alignment), ("quantization", .str (quantizationName r.quantization)),
    ("precision", .str (precisionName r.precision)), ("scalar_constants", .str r.scalarConstants),
    ("launch_specialization", .str r.launchSpecialization),
    ("target_architecture", .str r.targetArchitecture),
    ("compute_capability", .str r.computeCapability), ("isa", .str r.isa), ("abi", .str r.abi),
    ("kernel_abi", .str r.kernelABI), ("backend", .str r.backend),
    ("compiler_id", .str r.compilerId), ("frontend", .str r.frontend),
    ("feature_flags", .str r.featureFlags), ("optimization_flags", .str r.optimizationFlags),
    ("codegen_flags", .str r.codegenFlags),
    ("debug_release", .str (debugReleaseName r.debugRelease)),
    ("determinism", .str (determinismName r.determinism)),
    ("reproducibility", .str (reproducibilityName r.reproducibility)),
    ("dependency_identities", idArray r.dependencyIdentities),
    ("dependency_generations", u64Array r.dependencyGenerations),
    ("model_revision", .str r.modelRevision), ("namespace", .str r.namespaceName),
    ("tenant", .str r.tenant), ("autotune", .boolean r.autotune),
    ("autotune_candidates", ofI32 r.autotuneCandidates), ("autotune_seed", ofU64 r.autotuneSeed),
    ("block_size", ofI32 r.blockSize), ("unroll_factor", ofI32 r.unrollFactor),
    ("offline_preferred", .boolean r.offlinePreferred), ("optimize_level", ofI32 r.optimizeLevel)]

/-- SOURCE: Request.cpp:33-82 -/
def CompilationRequest.toJson (r : CompilationRequest) : Json := ofFields r.members

/-- SOURCE: Request.cpp:84-119 -/
def CompilationRequest.fromJson (j : Json) : Option CompilationRequest :=
  let optimizeLevel := (jnum j "optimize_level").toUInt32.toInt32
  some {
    requestId := (TypedId.parse (jstr j "request_id")).getD {}
    logicalOperation := (TypedId.parse (jstr j "logical_operation")).getD {}
    source := jstr j "source"
    sourceDigest := (digestFromHex (jstr j "source_digest")).getD .zero
    sourceLanguage := jstr j "source_language"
    irDigest := (digestFromHex (jstr j "ir_digest")).getD .zero
    irFormat := jstr j "ir_format"
    datatype := (datatypeFromName (jstr j "datatype")).getD .None
    layout := (layoutFromName (jstr j "layout")).getD .None
    rank := jnum j "rank"
    staticShape := (jarray j "static_shape").map fun e => toInt64 e.asNumber
    symbolicShape := jstr j "symbolic_shape"
    alignment := jnum j "alignment"
    quantization := (quantizationFromName (jstr j "quantization")).getD .None
    precision := (precisionFromName (jstr j "precision")).getD .None
    scalarConstants := jstr j "scalar_constants"
    launchSpecialization := jstr j "launch_specialization"
    targetArchitecture := jstr j "target_architecture"
    computeCapability := jstr j "compute_capability"
    isa := jstr j "isa"
    abi := jstr j "abi"
    kernelABI := jstr j "kernel_abi"
    backend := jstr j "backend"
    compilerId := jstr j "compiler_id"
    frontend := jstr j "frontend"
    featureFlags := jstr j "feature_flags"
    optimizationFlags := jstr j "optimization_flags"
    codegenFlags := jstr j "codegen_flags"
    debugRelease := (debugReleaseFromName (jstr j "debug_release")).getD .Release
    determinism := (determinismFromName (jstr j "determinism")).getD .Unspecified
    reproducibility := (reproducibilityFromName (jstr j "reproducibility")).getD .Unspecified
    dependencyIdentities :=
      (jarray j "dependency_identities").filterMap fun e => Id128.parse e.asString
    dependencyGenerations := (jarray j "dependency_generations").map fun e => toUInt64 e.asNumber
    modelRevision := jstr j "model_revision"
    namespaceName := jstr j "namespace"
    tenant := jstr j "tenant"
    autotune := jbool j "autotune"
    autotuneCandidates := (jnum j "autotune_candidates").toUInt32.toInt32
    autotuneSeed := jnum j "autotune_seed"
    blockSize := (jnum j "block_size").toUInt32.toInt32
    unrollFactor := (jnum j "unroll_factor").toUInt32.toInt32
    offlinePreferred := jbool j "offline_preferred"
    optimizeLevel := if optimizeLevel ≤ 0 then 1 else optimizeLevel }

/-! ## Plans and results -/

/-- SOURCE: Request.hpp:78-116 -/
structure CompilationPlan where
  planId : CompilationPlanId := {}
  request : CompilationRequest := {}
  reason : Bytes := []
  frontend : Bytes := []
  compiler : Bytes := []
  backend : Bytes := []
  optimizer : Bytes := []
  linker : Bytes := []
  runtime : Bytes := []
  target : TargetDescriptor := {}
  specializationStrategy : Bytes := []
  expectedFormat : ArtifactFormat := .Unknown
  dependencyIdentities : List Id128 := []
  dependencyGenerations : List UInt64 := []
  stages : List StageKind := []
  requiredToolchainCapabilities : List Bytes := []
  expectedValidationMethod : Bytes := []
  expectedDeploymentMethod : Bytes := []
  reproducibility : ReproducibilityMode := .Unspecified
  cachePolicy : Bytes := []
  createdAt : Int64 := 0
  deriving DecidableEq

/-- SOURCE: Request.hpp:188-201 -/
structure KeyToolchainContext where
  frontend : Bytes := []
  frontendVersion : Bytes := []
  compiler : Bytes := []
  compilerVersion : Bytes := []
  backend : Bytes := []
  backendVersion : Bytes := []
  codeGenerator : Bytes := []
  codeGeneratorVersion : Bytes := []
  optimizer : Bytes := []
  optimizerVersion : Bytes := []
  linker : Bytes := []
  linkerVersion : Bytes := []
  runtime : Bytes := []
  runtimeVersion : Bytes := []
  driver : Bytes := []
  driverVersion : Bytes := []
  environmentFingerprint : Bytes := []
  runtimeCompatGeneration : UInt64 := 0
  compilerPolicyGeneration : UInt64 := 0
  toolchainGeneration : ToolchainGeneration := 0
  deriving DecidableEq

/-! ## The compilation key -/

/-- Bytes shifted into a word one after the other; only the last eight stay. -/
def shiftBytes (bs : Bytes) : UInt64 := bs.foldl (fun acc b => (acc <<< 8) ||| b.toUInt64) 0

/-- SOURCE: Request.cpp:26-30 -/
def idFor (d : Digest) : Id128 := ⟨shiftBytes (d.bytes.take 16), shiftBytes (d.bytes.drop 16)⟩

/-- `if (!s.empty()) k.setter(s)`. -/
def whenNonEmpty (s : Bytes) : Option Bytes := if s = [] then none else some (encString s)

/-- `if (d != Digest{}) k.setter(…)`. -/
def whenNonZero (d : Digest) (value : Bytes) : Option Bytes := if d = .zero then none else some value

/-- `!a.empty() ? a : b`. -/
def orElse (a b : Bytes) : Bytes := if a = [] then b else a

/-- The setter calls in order, with `none` for a call that its test skips.
SOURCE: Request.cpp:198-263 -/
def keyAssignments (r : CompilationRequest) (p : CompilationPlan) (t : KeyToolchainContext) :
    List (KeyField × Option Bytes) :=
  [(.LogicalOperation, some (encId r.logicalOperation.raw)),
    (.SourceIdentity, some (encId (idFor r.sourceDigest))),
    (.SourceDigest, some (encDigest r.sourceDigest)),
    (.SourceContent, some (encString r.source)),
    (.IRIdentity, whenNonZero r.irDigest (encId (idFor r.irDigest))),
    (.IRDigest, whenNonZero r.irDigest (encDigest r.irDigest)),
    (.IRFormat, whenNonEmpty r.irFormat),
    (.Frontend, whenNonEmpty t.frontend),
    (.FrontendVersion, whenNonEmpty t.frontendVersion),
    (.Compiler, whenNonEmpty t.compiler),
    (.CompilerVersion, whenNonEmpty t.compilerVersion),
    (.Backend, whenNonEmpty t.backend),
    (.BackendVersion, whenNonEmpty t.backendVersion),
    (.CodeGenerator, whenNonEmpty t.codeGenerator),
    (.Optimizer, whenNonEmpty t.optimizer),
    (.OptimizerVersion, whenNonEmpty t.optimizerVersion),
    (.Linker, whenNonEmpty t.linker),
    (.LinkerVersion, whenNonEmpty t.linkerVersion),
    (.Runtime, whenNonEmpty t.runtime),
    (.RuntimeVersion, whenNonEmpty t.runtimeVersion),
    (.Driver, whenNonEmpty t.driver),
    (.DriverVersion, whenNonEmpty t.driverVersion),
    (.AcceleratorVendor, some (encU8 p.target.vendor.toUInt8)),
    (.AcceleratorFamily, some (encU8 p.target.family.toUInt8)),
    (.TargetArchitecture, whenNonEmpty (orElse p.target.architecture r.targetArchitecture)),
    (.ComputeCapability, whenNonEmpty (orElse p.target.computeCapability r.computeCapability)),
    (.ISA, whenNonEmpty (orElse p.target.isa r.isa)),
    (.ABI, whenNonEmpty (orElse p.target.abi r.abi)),
    -- set from the request, and again from the plan when the plan has one
    (.KernelABI, whenNonEmpty r.kernelABI),
    (.KernelABI, whenNonEmpty p.target.kernelABI),
    (.GraphABI, whenNonEmpty p.target.graphABI),
    (.Datatype, some (encU8
      (if r.datatype ≠ .None then r.datatype else p.request.datatype).toUInt8)),
    (.Layout, some (encU8 (if r.layout ≠ .None then r.layout else p.request.layout).toUInt8)),
    (.Rank, some (encU64 (if r.rank ≠ 0 then r.rank else p.request.rank))),
    (.StaticShape, some (encShape
      (if r.staticShape ≠ [] then r.staticShape else p.request.staticShape))),
    (.SymbolicShape, whenNonEmpty r.symbolicShape),
    (.Alignment, some (encU64 (if r.alignment ≠ 0 then r.alignment else p.request.alignment))),
    (.Quantization, if r.quantization ≠ .None then some (encU8 r.quantization.toUInt8) else none),
    (.Precision, if r.precision ≠ .None then some (encU8 r.precision.toUInt8) else none),
    (.LaunchSpecialization, whenNonEmpty r.launchSpecialization),
    (.ScalarConstants, whenNonEmpty r.scalarConstants),
    (.FeatureFlags, whenNonEmpty r.featureFlags),
    (.OptimizationFlags, whenNonEmpty r.optimizationFlags),
    (.CodegenFlags, whenNonEmpty r.codegenFlags),
    (.DebugRelease, some (encU8 r.debugRelease.toUInt8)),
    (.Determinism,
      if r.determinism ≠ .Unspecified then some (encU8 r.determinism.toUInt8) else none),
    (.Reproducibility,
      if r.reproducibility ≠ .Unspecified then some (encU8 r.reproducibility.toUInt8) else none),
    (.EnvFingerprint, whenNonEmpty t.environmentFingerprint),
    (.DependencyIdentities,
      if r.dependencyIdentities ≠ [] then some (encIds r.dependencyIdentities) else none),
    (.DependencyGenerations,
      if r.dependencyGenerations ≠ [] then some (encU64s r.dependencyGenerations) else none),
    (.ModelRevision, whenNonEmpty r.modelRevision),
    (.RuntimeCompatibilityGeneration, some (encU64 t.runtimeCompatGeneration)),
    (.CompilerPolicyGeneration, some (encU64 t.compilerPolicyGeneration)),
    (.Namespace, whenNonEmpty r.namespaceName),
    (.Tenant, whenNonEmpty r.tenant)]

/-- One setter call. -/
def assign (k : CompilationKey) (a : KeyField × Option Bytes) : CompilationKey :=
  match a.2 with
  | some value => k.put value a.1
  | none => k

/-- SOURCE: Request.cpp:198-263 -/
def buildCompilationKey (r : CompilationRequest) (p : CompilationPlan) (t : KeyToolchainContext) :
    CompilationKey :=
  (keyAssignments r p t).foldl assign {}

/-- Assignments keep a key sorted. -/
theorem sorted_foldl_assign {k : CompilationKey} (hk : k.Sorted)
    (as : List (KeyField × Option Bytes)) : (as.foldl assign k).Sorted := by
  induction as generalizing k with
  | nil => exact hk
  | cons a as ih =>
      rw [List.foldl_cons]
      apply ih
      obtain ⟨f, value⟩ := a
      cases value with
      | none => exact hk
      | some value => exact hk.put value f

/-- Every key the program builds has its fields in tag order. -/
theorem sorted_buildCompilationKey (r : CompilationRequest) (p : CompilationPlan)
    (t : KeyToolchainContext) : (buildCompilationKey r p t).Sorted :=
  sorted_foldl_assign CompilationKey.sorted_empty _

/-- The last value assigned to a field, or what was there before. -/
def lastAssigned (f : KeyField) (before : Option Bytes) :
    List (KeyField × Option Bytes) → Option Bytes
  | [] => before
  | (g, value) :: as => lastAssigned f (if g = f then value <|> before else before) as

/-- A field has what it was assigned last. -/
theorem findField_foldl_assign (k : CompilationKey) (as : List (KeyField × Option Bytes))
    (f : KeyField) :
    (as.foldl assign k).findField f = lastAssigned f (k.findField f) as := by
  induction as generalizing k with
  | nil => rfl
  | cons a as ih =>
      obtain ⟨g, value⟩ := a
      rw [List.foldl_cons, ih, lastAssigned]
      congr 1
      cases value with
      | none => simp [assign]
      | some value => simp [assign]

end CompilationFabric.Model
