import CompilationFabric.Model.Json
import CompilationFabric.Model.Semantic

/-!
# Artifact descriptors

The descriptors an artifact carries, from `Descriptor.hpp`, and their JSON codecs, from
`Descriptor.cpp`.

Every `toJson` is `ofFields` of a list that has one entry for each `set` of the source, in
its order.  Every `fromJson` starts from the default value and replaces what decodes, so it
never fails; a field that does not decode keeps its default.
-/

set_option autoImplicit false

namespace CompilationFabric.Model

open CompilationFabric.Library.Binary64
open Json

abbrev ArtifactGeneration := UInt64

/-! ## Target, compiler and backend -/

/-- SOURCE: Descriptor.hpp:21-39 -/
structure TargetDescriptor where
  vendor : AcceleratorVendor := .Unknown
  family : AcceleratorFamily := .Unknown
  architecture : Bytes := []
  computeCapability : Bytes := []
  isa : Bytes := []
  abi : Bytes := []
  callingConvention : Bytes := []
  kernelABI : Bytes := []
  graphABI : Bytes := []
  deviceName : Bytes := []
  deviceCount : UInt32 := 0
  deviceMemoryBytes : UInt64 := 0
  driverVersion : Bytes := []
  runtimeVersion : Bytes := []
  deriving DecidableEq

def TargetDescriptor.members (t : TargetDescriptor) : List (String × Json) :=
  [("vendor", .str (vendorName t.vendor)), ("family", .str (familyName t.family)),
    ("architecture", .str t.architecture), ("compute_capability", .str t.computeCapability),
    ("isa", .str t.isa), ("abi", .str t.abi), ("calling_convention", .str t.callingConvention),
    ("kernel_abi", .str t.kernelABI), ("graph_abi", .str t.graphABI),
    ("device_name", .str t.deviceName), ("device_count", ofU32 t.deviceCount),
    ("device_memory_bytes", ofU64 t.deviceMemoryBytes),
    ("driver_version", .str t.driverVersion), ("runtime_version", .str t.runtimeVersion)]

/-- SOURCE: Descriptor.cpp:73-90 -/
def TargetDescriptor.toJson (t : TargetDescriptor) : Json := ofFields t.members

/-- SOURCE: Descriptor.cpp:91-108 -/
def TargetDescriptor.fromJson (j : Json) : Option TargetDescriptor :=
  some {
    vendor := (vendorFromName (jstr j "vendor")).getD .Unknown
    family := (familyFromName (jstr j "family")).getD .Unknown
    architecture := jstr j "architecture"
    computeCapability := jstr j "compute_capability"
    isa := jstr j "isa"
    abi := jstr j "abi"
    callingConvention := jstr j "calling_convention"
    kernelABI := jstr j "kernel_abi"
    graphABI := jstr j "graph_abi"
    deviceName := jstr j "device_name"
    deviceCount := (jnum j "device_count").toUInt32
    deviceMemoryBytes := jnum j "device_memory_bytes"
    driverVersion := jstr j "driver_version"
    runtimeVersion := jstr j "runtime_version" }

/-- SOURCE: Descriptor.hpp:41-49 -/
structure CompilerDescriptor where
  id : Bytes := []
  version : Bytes := []
  vendor : Bytes := []
  backendType : Bytes := []
  deriving DecidableEq

def CompilerDescriptor.members (c : CompilerDescriptor) : List (String × Json) :=
  [("id", .str c.id), ("version", .str c.version), ("vendor", .str c.vendor),
    ("backend_type", .str c.backendType)]

/-- SOURCE: Descriptor.cpp:111-118 -/
def CompilerDescriptor.toJson (c : CompilerDescriptor) : Json := ofFields c.members

/-- SOURCE: Descriptor.cpp:119-123 -/
def CompilerDescriptor.fromJson (j : Json) : Option CompilerDescriptor :=
  some {
    id := jstr j "id"
    version := jstr j "version"
    vendor := jstr j "vendor"
    backendType := jstr j "backend_type" }

/-- A vector of strings as an array. -/
def strArray (v : List Bytes) : Json := .array (v.map .str)

/-- SOURCE: Descriptor.hpp:72-92 -/
structure BackendDescriptor where
  id : Bytes := []
  name : Bytes := []
  compilerId : Bytes := []
  compilerVersion : Bytes := []
  codeGenerator : Bytes := []
  optimizer : Bytes := []
  linker : Bytes := []
  runtime : Bytes := []
  targetArchitecture : Bytes := []
  supportsNVRTC : Bool := false
  supportsOffline : Bool := false
  isSyntheticCPU : Bool := false
  supportedDatatypes : List Bytes := []
  supportedLayouts : List Bytes := []
  featureFlags : List Bytes := []
  capabilityDescriptor : Bytes := []
  deriving DecidableEq

def BackendDescriptor.members (b : BackendDescriptor) : List (String × Json) :=
  [("id", .str b.id), ("name", .str b.name), ("compiler_id", .str b.compilerId),
    ("compiler_version", .str b.compilerVersion), ("code_generator", .str b.codeGenerator),
    ("optimizer", .str b.optimizer), ("linker", .str b.linker), ("runtime", .str b.runtime),
    ("target_architecture", .str b.targetArchitecture),
    ("supports_nvrtc", .boolean b.supportsNVRTC), ("supports_offline", .boolean b.supportsOffline),
    ("synthetic_cpu", .boolean b.isSyntheticCPU),
    ("supported_datatypes", strArray b.supportedDatatypes),
    ("supported_layouts", strArray b.supportedLayouts), ("feature_flags", strArray b.featureFlags),
    ("capability_descriptor", .str b.capabilityDescriptor)]

/-- SOURCE: Descriptor.cpp:168-186 -/
def BackendDescriptor.toJson (b : BackendDescriptor) : Json := ofFields b.members

/-- SOURCE: Descriptor.cpp:187-200 -/
def BackendDescriptor.fromJson (j : Json) : Option BackendDescriptor :=
  some {
    id := jstr j "id"
    name := jstr j "name"
    compilerId := jstr j "compiler_id"
    compilerVersion := jstr j "compiler_version"
    codeGenerator := jstr j "code_generator"
    optimizer := jstr j "optimizer"
    linker := jstr j "linker"
    runtime := jstr j "runtime"
    targetArchitecture := jstr j "target_architecture"
    supportsNVRTC := jbool j "supports_nvrtc"
    supportsOffline := jbool j "supports_offline"
    isSyntheticCPU := jbool j "synthetic_cpu"
    supportedDatatypes := (jarray j "supported_datatypes").map asString
    supportedLayouts := (jarray j "supported_layouts").map asString
    featureFlags := (jarray j "feature_flags").map asString
    capabilityDescriptor := jstr j "capability_descriptor" }

/-! ## Specialization, validation, deployment and provenance -/

/-- A vector of dimensions as an array. -/
def i64Array (v : List Int64) : Json := .array (v.map ofI64)

/-- SOURCE: Descriptor.hpp:119-132 -/
structure SpecializationDescriptor where
  shape : List Int64 := []
  datatype : Datatype := .None
  layout : Layout := .None
  quantization : QuantizationMode := .None
  precision : PrecisionMode := .None
  scalarConstants : Bytes := []
  launchSpecialization : Bytes := []
  featureFlags : Bytes := []
  architecture : Bytes := []
  modelRev : Bytes := []
  deriving DecidableEq

def SpecializationDescriptor.members (s : SpecializationDescriptor) : List (String × Json) :=
  [("shape", i64Array s.shape), ("datatype", .str (datatypeName s.datatype)),
    ("layout", .str (layoutName s.layout)),
    ("quantization", .str (quantizationName s.quantization)),
    ("precision", .str (precisionName s.precision)), ("scalar_constants", .str s.scalarConstants),
    ("launch_specialization", .str s.launchSpecialization),
    ("feature_flags", .str s.featureFlags), ("architecture", .str s.architecture),
    ("model_rev", .str s.modelRev)]

/-- SOURCE: Descriptor.cpp:250-264 -/
def SpecializationDescriptor.toJson (s : SpecializationDescriptor) : Json := ofFields s.members

/-- SOURCE: Descriptor.cpp:265-275 -/
def SpecializationDescriptor.fromJson (j : Json) : Option SpecializationDescriptor :=
  some {
    shape := (jarray j "shape").map fun e => toInt64 e.asNumber
    datatype := (datatypeFromName (jstr j "datatype")).getD .None
    layout := (layoutFromName (jstr j "layout")).getD .None
    quantization := (quantizationFromName (jstr j "quantization")).getD .None
    precision := (precisionFromName (jstr j "precision")).getD .None
    scalarConstants := jstr j "scalar_constants"
    launchSpecialization := jstr j "launch_specialization"
    featureFlags := jstr j "feature_flags"
    architecture := jstr j "architecture"
    modelRev := jstr j "model_rev" }

/-- SOURCE: Descriptor.hpp:148-165 -/
structure ValidationDescriptor where
  executed : Bool := false
  passed : Bool := false
  method : Bytes := []
  durationMs : Int64 := 0
  message : Bytes := []
  contentDigestOk : Bool := false
  formatOk : Bool := false
  architectureOk : Bool := false
  abiOk : Bool := false
  dependencyOk : Bool := false
  metadataConsistent : Bool := false
  loadable : Bool := false
  executionSmoke : Bool := false
  referenceComparison : Bool := false
  deriving DecidableEq

def ValidationDescriptor.members (v : ValidationDescriptor) : List (String × Json) :=
  [("executed", .boolean v.executed), ("passed", .boolean v.passed), ("method", .str v.method),
    ("duration_ms", ofI64 v.durationMs), ("message", .str v.message),
    ("content_digest_ok", .boolean v.contentDigestOk), ("format_ok", .boolean v.formatOk),
    ("architecture_ok", .boolean v.architectureOk), ("abi_ok", .boolean v.abiOk),
    ("dependency_ok", .boolean v.dependencyOk),
    ("metadata_consistent", .boolean v.metadataConsistent), ("loadable", .boolean v.loadable),
    ("execution_smoke", .boolean v.executionSmoke),
    ("reference_comparison", .boolean v.referenceComparison)]

/-- SOURCE: Descriptor.cpp:287-297 -/
def ValidationDescriptor.toJson (v : ValidationDescriptor) : Json := ofFields v.members

/-- SOURCE: Descriptor.cpp:298-308 -/
def ValidationDescriptor.fromJson (j : Json) : Option ValidationDescriptor :=
  some {
    executed := jbool j "executed"
    passed := jbool j "passed"
    method := jstr j "method"
    durationMs := (jnum j "duration_ms").toInt64
    message := jstr j "message"
    contentDigestOk := jbool j "content_digest_ok"
    formatOk := jbool j "format_ok"
    architectureOk := jbool j "architecture_ok"
    abiOk := jbool j "abi_ok"
    dependencyOk := jbool j "dependency_ok"
    metadataConsistent := jbool j "metadata_consistent"
    loadable := jbool j "loadable"
    executionSmoke := jbool j "execution_smoke"
    referenceComparison := jbool j "reference_comparison" }

/-- SOURCE: Descriptor.hpp:167-179 -/
structure DeploymentDescriptor where
  deployable : Bool := false
  method : Bytes := []
  runtimeCompatible : Bool := false
  architectureValidated : Bool := false
  generationValidated : Bool := false
  lastLoadDurationMs : Int64 := 0
  lastLoadAt : Int64 := 0
  moduleResident : Bool := false
  activeLeases : UInt64 := 0
  deriving DecidableEq

def DeploymentDescriptor.members (d : DeploymentDescriptor) : List (String × Json) :=
  [("deployable", .boolean d.deployable), ("method", .str d.method),
    ("runtime_compatible", .boolean d.runtimeCompatible),
    ("architecture_validated", .boolean d.architectureValidated),
    ("generation_validated", .boolean d.generationValidated),
    ("last_load_duration_ms", ofI64 d.lastLoadDurationMs), ("last_load_at", ofI64 d.lastLoadAt),
    ("module_resident", .boolean d.moduleResident), ("active_leases", ofU64 d.activeLeases)]

/-- SOURCE: Descriptor.cpp:311-322 -/
def DeploymentDescriptor.toJson (d : DeploymentDescriptor) : Json := ofFields d.members

/-- SOURCE: Descriptor.cpp:323-332 -/
def DeploymentDescriptor.fromJson (j : Json) : Option DeploymentDescriptor :=
  some {
    deployable := jbool j "deployable"
    method := jstr j "method"
    runtimeCompatible := jbool j "runtime_compatible"
    architectureValidated := jbool j "architecture_validated"
    generationValidated := jbool j "generation_validated"
    lastLoadDurationMs := (jnum j "last_load_duration_ms").toInt64
    lastLoadAt := (jnum j "last_load_at").toInt64
    moduleResident := jbool j "module_resident"
    activeLeases := jnum j "active_leases" }

/-- SOURCE: Descriptor.hpp:181-200 -/
structure ProvenanceDescriptor where
  requestId : CompilationRequestId := {}
  planId : CompilationPlanId := {}
  attemptId : CompilationAttemptId := {}
  sourceDigest : Digest := .zero
  irDigest : Digest := .zero
  toolchainFingerprint : Bytes := []
  environmentFingerprint : Bytes := []
  reproducibility : ReproducibilityMode := .Unspecified
  deterministic : Bool := false
  compileDurationMs : Int64 := 0
  optimizeDurationMs : Int64 := 0
  analyzeDurationMs : Int64 := 0
  validateDurationMs : Int64 := 0
  linkDurationMs : Int64 := 0
  deployDurationMs : Int64 := 0
  createdAt : Int64 := 0
  deriving DecidableEq

def ProvenanceDescriptor.members (p : ProvenanceDescriptor) : List (String × Json) :=
  [("request_id", .str p.requestId.toHex), ("plan_id", .str p.planId.toHex),
    ("attempt_id", .str p.attemptId.toHex), ("source_digest", .str (digestToHex p.sourceDigest)),
    ("ir_digest", .str (digestToHex p.irDigest)),
    ("toolchain_fingerprint", .str p.toolchainFingerprint),
    ("environment_fingerprint", .str p.environmentFingerprint),
    ("reproducibility", .str (reproducibilityName p.reproducibility)),
    ("deterministic", .boolean p.deterministic),
    ("compile_duration_ms", ofI64 p.compileDurationMs),
    ("optimize_duration_ms", ofI64 p.optimizeDurationMs),
    ("analyze_duration_ms", ofI64 p.analyzeDurationMs),
    ("validate_duration_ms", ofI64 p.validateDurationMs),
    ("link_duration_ms", ofI64 p.linkDurationMs),
    ("deploy_duration_ms", ofI64 p.deployDurationMs), ("created_at", ofI64 p.createdAt)]

/-- SOURCE: Descriptor.cpp:335-354 -/
def ProvenanceDescriptor.toJson (p : ProvenanceDescriptor) : Json := ofFields p.members

/-- SOURCE: Descriptor.cpp:355-374 -/
def ProvenanceDescriptor.fromJson (j : Json) : Option ProvenanceDescriptor :=
  some {
    requestId := (TypedId.parse (jstr j "request_id")).getD {}
    planId := (TypedId.parse (jstr j "plan_id")).getD {}
    attemptId := (TypedId.parse (jstr j "attempt_id")).getD {}
    sourceDigest := (digestFromHex (jstr j "source_digest")).getD .zero
    irDigest := (digestFromHex (jstr j "ir_digest")).getD .zero
    toolchainFingerprint := jstr j "toolchain_fingerprint"
    environmentFingerprint := jstr j "environment_fingerprint"
    reproducibility := (reproducibilityFromName (jstr j "reproducibility")).getD .Unspecified
    deterministic := jbool j "deterministic"
    compileDurationMs := (jnum j "compile_duration_ms").toInt64
    optimizeDurationMs := (jnum j "optimize_duration_ms").toInt64
    analyzeDurationMs := (jnum j "analyze_duration_ms").toInt64
    validateDurationMs := (jnum j "validate_duration_ms").toInt64
    linkDurationMs := (jnum j "link_duration_ms").toInt64
    deployDurationMs := (jnum j "deploy_duration_ms").toInt64
    createdAt := (jnum j "created_at").toInt64 }

/-! ## The artifact -/

/-- SOURCE: Descriptor.hpp:202-224 -/
structure ArtifactDescriptor where
  id : ArtifactId := {}
  generation : ArtifactGeneration := 0
  format : ArtifactFormat := .Unknown
  contentDigest : Digest := .zero
  byteSize : UInt64 := 0
  keyDigest : Digest := .zero
  state : Bytes := []
  target : TargetDescriptor := {}
  compiler : CompilerDescriptor := {}
  backend : BackendDescriptor := {}
  specialization : SpecializationDescriptor := {}
  validation : ValidationDescriptor := {}
  deployment : DeploymentDescriptor := {}
  provenance : ProvenanceDescriptor := {}
  namespaceName : Bytes := []
  tenant : Bytes := []
  createdAt : Int64 := 0
  lastAccess : Int64 := 0
  reuseCount : UInt64 := 0
  deriving DecidableEq

def ArtifactDescriptor.members (a : ArtifactDescriptor) : List (String × Json) :=
  [("id", .str a.id.toHex), ("generation", ofU64 a.generation),
    ("format", .str (artifactFormatName a.format)),
    ("content_digest", .str (digestToHex a.contentDigest)), ("byte_size", ofU64 a.byteSize),
    ("key_digest", .str (digestToHex a.keyDigest)), ("state", .str a.state),
    ("target", a.target.toJson), ("compiler", a.compiler.toJson), ("backend", a.backend.toJson),
    ("specialization", a.specialization.toJson), ("validation", a.validation.toJson),
    ("deployment", a.deployment.toJson), ("provenance", a.provenance.toJson),
    ("namespace", .str a.namespaceName), ("tenant", .str a.tenant),
    ("created_at", ofI64 a.createdAt), ("last_access", ofI64 a.lastAccess),
    ("reuse_count", ofU64 a.reuseCount)]

/-- SOURCE: Descriptor.cpp:377-399 -/
def ArtifactDescriptor.toJson (a : ArtifactDescriptor) : Json := ofFields a.members

/-- SOURCE: Descriptor.cpp:400-421 -/
def ArtifactDescriptor.fromJson (j : Json) : Option ArtifactDescriptor :=
  some {
    id := (TypedId.parse (jstr j "id")).getD {}
    generation := jnum j "generation"
    format := (artifactFormatFromName (jstr j "format")).getD .Unknown
    contentDigest := (digestFromHex (jstr j "content_digest")).getD .zero
    byteSize := jnum j "byte_size"
    keyDigest := (digestFromHex (jstr j "key_digest")).getD .zero
    state := jstr j "state"
    target := ((j.get "target").bind TargetDescriptor.fromJson).getD {}
    compiler := ((j.get "compiler").bind CompilerDescriptor.fromJson).getD {}
    backend := ((j.get "backend").bind BackendDescriptor.fromJson).getD {}
    specialization := ((j.get "specialization").bind SpecializationDescriptor.fromJson).getD {}
    validation := ((j.get "validation").bind ValidationDescriptor.fromJson).getD {}
    deployment := ((j.get "deployment").bind DeploymentDescriptor.fromJson).getD {}
    provenance := ((j.get "provenance").bind ProvenanceDescriptor.fromJson).getD {}
    namespaceName := jstr j "namespace"
    tenant := jstr j "tenant"
    createdAt := (jnum j "created_at").toInt64
    lastAccess := (jnum j "last_access").toInt64
    reuseCount := jnum j "reuse_count" }

end CompilationFabric.Model
