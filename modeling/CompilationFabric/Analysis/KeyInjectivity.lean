import CompilationFabric.Model.Request

/-!
# What a compilation key identifies

Two requests get equal keys exactly when they agree on what the key is meant to identify:
the operation, the source, the specialization, the resolved target, the toolchain and the
policy (`SameIdentity`, `buildCompilationKey_beq_iff`).

`fieldValue` is the table of what a key holds under each tag.  A key is determined by that
table, so the work is per field: each encoding is injective, and a field that is left out
when its value is the default can be told from one that is present, since no value that is
present encodes the default.
-/

set_option autoImplicit false

namespace CompilationFabric.Analysis

open CompilationFabric.Model

/-! ## The table of a key -/

/-- What the key of a request holds under each field. -/
def fieldValue (r : CompilationRequest) (p : CompilationPlan) (t : KeyToolchainContext) :
    KeyField → Option Bytes
  | .LogicalOperation => some (encId r.logicalOperation.raw)
  | .SourceIdentity => some (encId (idFor r.sourceDigest))
  | .SourceDigest => some (encDigest r.sourceDigest)
  | .SourceContent => some (encString r.source)
  | .IRIdentity => whenNonZero r.irDigest (encId (idFor r.irDigest))
  | .IRDigest => whenNonZero r.irDigest (encDigest r.irDigest)
  | .IRContent => none
  | .IRFormat => whenNonEmpty r.irFormat
  | .Frontend => whenNonEmpty t.frontend
  | .FrontendVersion => whenNonEmpty t.frontendVersion
  | .Compiler => whenNonEmpty t.compiler
  | .CompilerVersion => whenNonEmpty t.compilerVersion
  | .Backend => whenNonEmpty t.backend
  | .BackendVersion => whenNonEmpty t.backendVersion
  | .CodeGenerator => whenNonEmpty t.codeGenerator
  | .Optimizer => whenNonEmpty t.optimizer
  | .OptimizerVersion => whenNonEmpty t.optimizerVersion
  | .Linker => whenNonEmpty t.linker
  | .LinkerVersion => whenNonEmpty t.linkerVersion
  | .Runtime => whenNonEmpty t.runtime
  | .RuntimeVersion => whenNonEmpty t.runtimeVersion
  | .Driver => whenNonEmpty t.driver
  | .DriverVersion => whenNonEmpty t.driverVersion
  | .AcceleratorVendor => some (encU8 p.target.vendor.toUInt8)
  | .AcceleratorFamily => some (encU8 p.target.family.toUInt8)
  | .TargetArchitecture => whenNonEmpty (orElse p.target.architecture r.targetArchitecture)
  | .ComputeCapability => whenNonEmpty (orElse p.target.computeCapability r.computeCapability)
  | .ISA => whenNonEmpty (orElse p.target.isa r.isa)
  | .ABI => whenNonEmpty (orElse p.target.abi r.abi)
  | .CallingConvention => none
  | .KernelABI => whenNonEmpty (orElse p.target.kernelABI r.kernelABI)
  | .GraphABI => whenNonEmpty p.target.graphABI
  | .OperatorRevision => none
  | .Datatype => some (encU8 (if r.datatype ≠ .None then r.datatype else p.request.datatype).toUInt8)
  | .Layout => some (encU8 (if r.layout ≠ .None then r.layout else p.request.layout).toUInt8)
  | .Rank => some (encU64 (if r.rank ≠ 0 then r.rank else p.request.rank))
  | .StaticShape =>
      some (encShape (if r.staticShape ≠ [] then r.staticShape else p.request.staticShape))
  | .SymbolicShape => whenNonEmpty r.symbolicShape
  | .Alignment => some (encU64 (if r.alignment ≠ 0 then r.alignment else p.request.alignment))
  | .Quantization => if r.quantization ≠ .None then some (encU8 r.quantization.toUInt8) else none
  | .Precision => if r.precision ≠ .None then some (encU8 r.precision.toUInt8) else none
  | .LaunchSpecialization => whenNonEmpty r.launchSpecialization
  | .ScalarConstants => whenNonEmpty r.scalarConstants
  | .FeatureFlags => whenNonEmpty r.featureFlags
  | .OptimizationFlags => whenNonEmpty r.optimizationFlags
  | .CodegenFlags => whenNonEmpty r.codegenFlags
  | .DebugRelease => some (encU8 r.debugRelease.toUInt8)
  | .Determinism =>
      if r.determinism ≠ .Unspecified then some (encU8 r.determinism.toUInt8) else none
  | .Reproducibility =>
      if r.reproducibility ≠ .Unspecified then some (encU8 r.reproducibility.toUInt8) else none
  | .EnvFingerprint => whenNonEmpty t.environmentFingerprint
  | .DependencyIdentities =>
      if r.dependencyIdentities ≠ [] then some (encIds r.dependencyIdentities) else none
  | .DependencyGenerations =>
      if r.dependencyGenerations ≠ [] then some (encU64s r.dependencyGenerations) else none
  | .ModelRevision => whenNonEmpty r.modelRevision
  | .RuntimeCompatibilityGeneration => some (encU64 t.runtimeCompatGeneration)
  | .CompilerPolicyGeneration => some (encU64 t.compilerPolicyGeneration)
  | .Namespace => whenNonEmpty r.namespaceName
  | .Tenant => whenNonEmpty r.tenant

/-- A field left out when its value is the default takes the first value that is not. -/
theorem whenNonEmpty_orElse (a b : Bytes) :
    whenNonEmpty (orElse a b) = (whenNonEmpty a <|> whenNonEmpty b) := by
  by_cases ha : a = []
  · simp [whenNonEmpty, orElse, ha]
  · simp [whenNonEmpty, orElse, ha]

/-- INTERNAL: what is missing is replaced by nothing. -/
theorem orElse_none (v : Option Bytes) : (v <|> none) = v := by
  cases v <;> rfl

/-- The key of a request holds the table. -/
theorem findField_buildCompilationKey (r : CompilationRequest) (p : CompilationPlan)
    (t : KeyToolchainContext) (f : KeyField) :
    (buildCompilationKey r p t).findField f = fieldValue r p t f := by
  have hempty : CompilationKey.findField {} f = none := rfl
  rw [buildCompilationKey, findField_foldl_assign, hempty]
  cases f with
  | KernelABI => simp [lastAssigned, keyAssignments, fieldValue, whenNonEmpty_orElse]
  | IRContent => rfl
  | CallingConvention => rfl
  | OperatorRevision => rfl
  | _ => exact orElse_none _

/-- Keys of requests are equal when their tables are. -/
theorem buildCompilationKey_eq_iff_fieldValue {r₁ r₂ : CompilationRequest}
    {p₁ p₂ : CompilationPlan} {t₁ t₂ : KeyToolchainContext} :
    buildCompilationKey r₁ p₁ t₁ = buildCompilationKey r₂ p₂ t₂ ↔
      ∀ f, fieldValue r₁ p₁ t₁ f = fieldValue r₂ p₂ t₂ f := by
  constructor
  · intro h f
    rw [← findField_buildCompilationKey, h, findField_buildCompilationKey]
  · intro h
    apply CompilationKey.ext_of_findField (sorted_buildCompilationKey _ _ _)
      (sorted_buildCompilationKey _ _ _)
    intro f
    rw [findField_buildCompilationKey, findField_buildCompilationKey, h f]

/-! ## Presence rules -/

/-- Strings are told apart though empty ones are left out. -/
theorem whenNonEmpty_injective : Function.Injective whenNonEmpty := by
  intro a b h
  by_cases ha : a = [] <;> by_cases hb : b = [] <;> simp [whenNonEmpty, ha, hb] at h ⊢
  exact encString_injective h

/-- A field that is set unless its value is the default determines the value. -/
theorem unlessDefault_injective {α : Type} [DecidableEq α] {d : α} {enc : α → Bytes}
    (henc : Function.Injective enc) :
    Function.Injective fun a => if a ≠ d then some (enc a) else none := by
  intro a b h
  by_cases ha : a = d <;> by_cases hb : b = d <;> simp [ha, hb] at h ⊢
  exact henc h

/-- Digests are told apart though zero is left out. -/
theorem whenNonZero_encDigest_injective :
    Function.Injective fun d => whenNonZero d (encDigest d) := by
  intro a b h
  by_cases ha : a = .zero <;> by_cases hb : b = .zero <;> simp [whenNonZero, ha, hb] at h ⊢
  exact encDigest_injective h

/-- Enumerations are told apart when their bytes are. -/
theorem encEnum_injective {α : Type} {toByte : α → UInt8} (h : Function.Injective toByte) :
    Function.Injective fun a => encU8 (toByte a) := encU8_injective.comp h

/-! ## Agreement -/

/-- The two requests ask for the same operation on the same source with the same
specialization, in the same namespace and for the same tenant; their plans resolve to the
same target; and the same toolchain and policy compiles them. -/
structure SameIdentity (r₁ : CompilationRequest) (p₁ : CompilationPlan)
    (t₁ : KeyToolchainContext) (r₂ : CompilationRequest) (p₂ : CompilationPlan)
    (t₂ : KeyToolchainContext) : Prop where
  logicalOperation : r₁.logicalOperation = r₂.logicalOperation
  sourceDigest : r₁.sourceDigest = r₂.sourceDigest
  source : r₁.source = r₂.source
  irDigest : r₁.irDigest = r₂.irDigest
  irFormat : r₁.irFormat = r₂.irFormat
  datatype : r₁.datatype = r₂.datatype
  layout : r₁.layout = r₂.layout
  rank : r₁.rank = r₂.rank
  staticShape : r₁.staticShape = r₂.staticShape
  symbolicShape : r₁.symbolicShape = r₂.symbolicShape
  alignment : r₁.alignment = r₂.alignment
  quantization : r₁.quantization = r₂.quantization
  precision : r₁.precision = r₂.precision
  launchSpecialization : r₁.launchSpecialization = r₂.launchSpecialization
  scalarConstants : r₁.scalarConstants = r₂.scalarConstants
  featureFlags : r₁.featureFlags = r₂.featureFlags
  optimizationFlags : r₁.optimizationFlags = r₂.optimizationFlags
  codegenFlags : r₁.codegenFlags = r₂.codegenFlags
  debugRelease : r₁.debugRelease = r₂.debugRelease
  determinism : r₁.determinism = r₂.determinism
  reproducibility : r₁.reproducibility = r₂.reproducibility
  dependencyIdentities : r₁.dependencyIdentities = r₂.dependencyIdentities
  dependencyGenerations : r₁.dependencyGenerations = r₂.dependencyGenerations
  modelRevision : r₁.modelRevision = r₂.modelRevision
  namespaceName : r₁.namespaceName = r₂.namespaceName
  tenant : r₁.tenant = r₂.tenant
  vendor : p₁.target.vendor = p₂.target.vendor
  family : p₁.target.family = p₂.target.family
  architecture : orElse p₁.target.architecture r₁.targetArchitecture =
    orElse p₂.target.architecture r₂.targetArchitecture
  computeCapability : orElse p₁.target.computeCapability r₁.computeCapability =
    orElse p₂.target.computeCapability r₂.computeCapability
  isa : orElse p₁.target.isa r₁.isa = orElse p₂.target.isa r₂.isa
  abi : orElse p₁.target.abi r₁.abi = orElse p₂.target.abi r₂.abi
  kernelABI : orElse p₁.target.kernelABI r₁.kernelABI = orElse p₂.target.kernelABI r₂.kernelABI
  graphABI : p₁.target.graphABI = p₂.target.graphABI
  frontend : t₁.frontend = t₂.frontend
  frontendVersion : t₁.frontendVersion = t₂.frontendVersion
  compiler : t₁.compiler = t₂.compiler
  compilerVersion : t₁.compilerVersion = t₂.compilerVersion
  backend : t₁.backend = t₂.backend
  backendVersion : t₁.backendVersion = t₂.backendVersion
  codeGenerator : t₁.codeGenerator = t₂.codeGenerator
  optimizer : t₁.optimizer = t₂.optimizer
  optimizerVersion : t₁.optimizerVersion = t₂.optimizerVersion
  linker : t₁.linker = t₂.linker
  linkerVersion : t₁.linkerVersion = t₂.linkerVersion
  runtime : t₁.runtime = t₂.runtime
  runtimeVersion : t₁.runtimeVersion = t₂.runtimeVersion
  driver : t₁.driver = t₂.driver
  driverVersion : t₁.driverVersion = t₂.driverVersion
  environmentFingerprint : t₁.environmentFingerprint = t₂.environmentFingerprint
  runtimeCompatGeneration : t₁.runtimeCompatGeneration = t₂.runtimeCompatGeneration
  compilerPolicyGeneration : t₁.compilerPolicyGeneration = t₂.compilerPolicyGeneration

variable {r₁ r₂ : CompilationRequest} {p₁ p₂ : CompilationPlan} {t₁ t₂ : KeyToolchainContext}

/-- Requests that agree have the same table. -/
theorem SameIdentity.fieldValue_eq (h : SameIdentity r₁ p₁ t₁ r₂ p₂ t₂)
    (hp₁ : p₁.request = r₁) (hp₂ : p₂.request = r₂) (f : KeyField) :
    fieldValue r₁ p₁ t₁ f = fieldValue r₂ p₂ t₂ f := by
  cases f <;> simp only [fieldValue, hp₁, hp₂, h.logicalOperation, h.sourceDigest, h.source,
    h.irDigest, h.irFormat, h.datatype, h.layout, h.rank, h.staticShape, h.symbolicShape,
    h.alignment, h.quantization, h.precision, h.launchSpecialization, h.scalarConstants,
    h.featureFlags, h.optimizationFlags, h.codegenFlags, h.debugRelease, h.determinism,
    h.reproducibility, h.dependencyIdentities, h.dependencyGenerations, h.modelRevision,
    h.namespaceName, h.tenant, h.vendor, h.family, h.architecture, h.computeCapability, h.isa,
    h.abi, h.kernelABI, h.graphABI, h.frontend, h.frontendVersion, h.compiler, h.compilerVersion,
    h.backend, h.backendVersion, h.codeGenerator, h.optimizer, h.optimizerVersion, h.linker,
    h.linkerVersion, h.runtime, h.runtimeVersion, h.driver, h.driverVersion,
    h.environmentFingerprint, h.runtimeCompatGeneration, h.compilerPolicyGeneration]

/-- Requests with the same table agree. -/
theorem SameIdentity.of_fieldValue_eq (hp₁ : p₁.request = r₁) (hp₂ : p₂.request = r₂)
    (h : ∀ f, fieldValue r₁ p₁ t₁ f = fieldValue r₂ p₂ t₂ f) :
    SameIdentity r₁ p₁ t₁ r₂ p₂ t₂ where
  logicalOperation := congrArg TypedId.mk (encId_injective (Option.some.inj (h .LogicalOperation)))
  sourceDigest := encDigest_injective (Option.some.inj (h .SourceDigest))
  source := encString_injective (Option.some.inj (h .SourceContent))
  irDigest := whenNonZero_encDigest_injective (h .IRDigest)
  irFormat := whenNonEmpty_injective (h .IRFormat)
  datatype := by
    have hf := h .Datatype
    simp only [fieldValue, hp₁, hp₂, ite_self] at hf
    exact encEnum_injective Datatype.toUInt8_injective (Option.some.inj hf)
  layout := by
    have hf := h .Layout
    simp only [fieldValue, hp₁, hp₂, ite_self] at hf
    exact encEnum_injective Layout.toUInt8_injective (Option.some.inj hf)
  rank := by
    have hf := h .Rank
    simp only [fieldValue, hp₁, hp₂, ite_self] at hf
    exact encU64_injective (Option.some.inj hf)
  staticShape := by
    have hf := h .StaticShape
    simp only [fieldValue, hp₁, hp₂, ite_self] at hf
    exact encShape_injective (Option.some.inj hf)
  symbolicShape := whenNonEmpty_injective (h .SymbolicShape)
  alignment := by
    have hf := h .Alignment
    simp only [fieldValue, hp₁, hp₂, ite_self] at hf
    exact encU64_injective (Option.some.inj hf)
  quantization :=
    unlessDefault_injective (encEnum_injective QuantizationMode.toUInt8_injective) (h .Quantization)
  precision :=
    unlessDefault_injective (encEnum_injective PrecisionMode.toUInt8_injective) (h .Precision)
  launchSpecialization := whenNonEmpty_injective (h .LaunchSpecialization)
  scalarConstants := whenNonEmpty_injective (h .ScalarConstants)
  featureFlags := whenNonEmpty_injective (h .FeatureFlags)
  optimizationFlags := whenNonEmpty_injective (h .OptimizationFlags)
  codegenFlags := whenNonEmpty_injective (h .CodegenFlags)
  debugRelease :=
    encEnum_injective DebugReleaseMode.toUInt8_injective (Option.some.inj (h .DebugRelease))
  determinism :=
    unlessDefault_injective (encEnum_injective DeterminismMode.toUInt8_injective) (h .Determinism)
  reproducibility :=
    unlessDefault_injective (encEnum_injective ReproducibilityMode.toUInt8_injective)
      (h .Reproducibility)
  dependencyIdentities := unlessDefault_injective encIds_injective (h .DependencyIdentities)
  dependencyGenerations := unlessDefault_injective encU64s_injective (h .DependencyGenerations)
  modelRevision := whenNonEmpty_injective (h .ModelRevision)
  namespaceName := whenNonEmpty_injective (h .Namespace)
  tenant := whenNonEmpty_injective (h .Tenant)
  vendor :=
    encEnum_injective AcceleratorVendor.toUInt8_injective (Option.some.inj (h .AcceleratorVendor))
  family :=
    encEnum_injective AcceleratorFamily.toUInt8_injective (Option.some.inj (h .AcceleratorFamily))
  architecture := whenNonEmpty_injective (h .TargetArchitecture)
  computeCapability := whenNonEmpty_injective (h .ComputeCapability)
  isa := whenNonEmpty_injective (h .ISA)
  abi := whenNonEmpty_injective (h .ABI)
  kernelABI := whenNonEmpty_injective (h .KernelABI)
  graphABI := whenNonEmpty_injective (h .GraphABI)
  frontend := whenNonEmpty_injective (h .Frontend)
  frontendVersion := whenNonEmpty_injective (h .FrontendVersion)
  compiler := whenNonEmpty_injective (h .Compiler)
  compilerVersion := whenNonEmpty_injective (h .CompilerVersion)
  backend := whenNonEmpty_injective (h .Backend)
  backendVersion := whenNonEmpty_injective (h .BackendVersion)
  codeGenerator := whenNonEmpty_injective (h .CodeGenerator)
  optimizer := whenNonEmpty_injective (h .Optimizer)
  optimizerVersion := whenNonEmpty_injective (h .OptimizerVersion)
  linker := whenNonEmpty_injective (h .Linker)
  linkerVersion := whenNonEmpty_injective (h .LinkerVersion)
  runtime := whenNonEmpty_injective (h .Runtime)
  runtimeVersion := whenNonEmpty_injective (h .RuntimeVersion)
  driver := whenNonEmpty_injective (h .Driver)
  driverVersion := whenNonEmpty_injective (h .DriverVersion)
  environmentFingerprint := whenNonEmpty_injective (h .EnvFingerprint)
  runtimeCompatGeneration :=
    encU64_injective (Option.some.inj (h .RuntimeCompatibilityGeneration))
  compilerPolicyGeneration :=
    encU64_injective (Option.some.inj (h .CompilerPolicyGeneration))

/-- Keys are equal exactly when the requests agree. -/
theorem sameIdentity_iff_beq (hp₁ : p₁.request = r₁) (hp₂ : p₂.request = r₂) :
    (buildCompilationKey r₁ p₁ t₁ == buildCompilationKey r₂ p₂ t₂) = true ↔
      SameIdentity r₁ p₁ t₁ r₂ p₂ t₂ := by
  rw [CompilationKey.beq_iff_eq_of_sorted (sorted_buildCompilationKey _ _ _)
    (sorted_buildCompilationKey _ _ _), buildCompilationKey_eq_iff_fieldValue]
  exact ⟨SameIdentity.of_fieldValue_eq hp₁ hp₂, fun h f => h.fieldValue_eq hp₁ hp₂ f⟩

/-- Keys compare equal exactly when the requests agree, so that requests of different
tenants or namespaces never share one.
SOURCE: Key.cpp:178-185, Request.cpp:198-263 -/
theorem buildCompilationKey_beq_iff (hp₁ : p₁.request = r₁) (hp₂ : p₂.request = r₂) :
    ((buildCompilationKey r₁ p₁ t₁ == buildCompilationKey r₂ p₂ t₂) = true ↔
      SameIdentity r₁ p₁ t₁ r₂ p₂ t₂) ∧
    (r₁.tenant ≠ r₂.tenant ∨ r₁.namespaceName ≠ r₂.namespaceName →
      (buildCompilationKey r₁ p₁ t₁ == buildCompilationKey r₂ p₂ t₂) = false) := by
  refine ⟨sameIdentity_iff_beq hp₁ hp₂, ?_⟩
  intro hne
  rw [Bool.eq_false_iff]
  intro heq
  have hsame := (sameIdentity_iff_beq hp₁ hp₂).mp heq
  rcases hne with hne | hne
  · exact hne hsame.tenant
  · exact hne hsame.namespaceName

/-- A request of one tenant and a plan for it. -/
def tenantRequest (tenant : Bytes) : CompilationRequest := { tenant := tenant }

def tenantPlan (tenant : Bytes) : CompilationPlan := { request := tenantRequest tenant }

/-- Two requests for different tenants. -/
theorem buildCompilationKey_beq_tenants :
    (buildCompilationKey (tenantRequest [97]) (tenantPlan [97]) {} ==
      buildCompilationKey (tenantRequest [98]) (tenantPlan [98]) {}) = false := by
  have hne : (tenantRequest [97]).tenant ≠ (tenantRequest [98]).tenant := by decide
  have h := @buildCompilationKey_beq_iff (tenantRequest [97]) (tenantRequest [98])
    (tenantPlan [97]) (tenantPlan [98]) {} {} rfl rfl
  exact h.2 (Or.inl hne)

end CompilationFabric.Analysis
