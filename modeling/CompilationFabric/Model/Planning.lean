import CompilationFabric.Model.Compatibility

/-!
# Planning and the backends

The parts of `Fabric.cpp` that no other call can interfere with: `plan` and `makeTc`, the
bounded autotuning of `compile`, and the types a backend is driven through.

A backend is code of its own behind an interface.  What its calls answer is an argument
wherever the fabric asks, so a statement over all runs is one over all backends, CUDA or
CPU, correct or not.  Clock readings are arguments for the same reason.
-/

set_option autoImplicit false

namespace CompilationFabric.Model

open CompilationFabric.Library

/-- SOURCE: Fabric.hpp:29-42 -/
structure CompilationFabricConfig where
  artifactRoot : Bytes := ascii "cf-artifacts"
  persistenceEnabled : Bool := true
  persistOnCompile : Bool := true
  allowCuda : Bool := true
  compatibilityPolicy : CompilationCompatibilityPolicy := {}
  reproducibility : ReproducibilityMode := .BestEffort
  namespaceName : Bytes := ascii "default"
  tenant : Bytes := ascii "default"
  environmentFingerprint : Bytes := []
  deriving DecidableEq

/-- What the toolchain probe found, as far as planning reads it.
SOURCE: Descriptor.hpp:51-70 -/
structure ToolchainDescriptor where
  nvccPresent : Bool := false
  nvrtcPresent : Bool := false
  nvrtcVersion : Bytes := []
  cudaDriverVersion : Bytes := []
  deriving DecidableEq

/-- The machine a fabric is constructed on, and the backends registered with it. -/
structure Host where
  cudaAvailable : Bool := false
  toolchain : ToolchainDescriptor := {}
  registered : List Bytes := []
  deriving DecidableEq

/-- The ids under which `backends` has an entry.
SOURCE: Fabric.cpp:79-84, 117-120 -/
def Host.backends (h : Host) (config : CompilationFabricConfig) : List Bytes :=
  ascii "cpu" ::
    (if config.allowCuda && h.cudaAvailable then [ascii "cuda-nvrtc", ascii "cuda-nvcc"] else []) ++
    h.registered

/-- SOURCE: Fabric.cpp:96-108 -/
def Host.targets (h : Host) : List TargetDescriptor :=
  let cpu : TargetDescriptor :=
    { vendor := .CPU, family := .X86_64, architecture := ascii "host-x86_64"
      isa := ascii "x86_64", abi := ascii "sysv64", deviceCount := 1 }
  let cuda : TargetDescriptor :=
    { vendor := .Nvidia, family := .NvidiaBlackwell, architecture := ascii "sm_120"
      isa := ascii "sm_120", computeCapability := ascii "12.0", kernelABI := ascii "nvrtc"
      abi := ascii "cuda", deviceCount := 1, driverVersion := h.toolchain.cudaDriverVersion }
  if h.toolchain.nvccPresent || h.toolchain.nvrtcPresent || h.cudaAvailable then [cpu, cuda]
  else [cpu]

/-! ## Planning -/

def cpuBackend : Bytes := ascii "cpu"
def nvrtcBackend : Bytes := ascii "cuda-nvrtc"
def nvccBackend : Bytes := ascii "cuda-nvcc"

/-- `s.rfind("sm_", 0) == 0`. -/
def isSm (s : Bytes) : Bool := (ascii "sm_").isPrefixOf s

/-- SOURCE: Fabric.cpp:141-143 -/
def wantsCuda (r : CompilationRequest) : Bool :=
  r.backend = nvrtcBackend || r.backend = nvccBackend || isSm r.targetArchitecture ||
    r.computeCapability ≠ [] || isSm r.isa

/-- SOURCE: Fabric.cpp:144-150 -/
def selectBackend (h : Host) (config : CompilationFabricConfig) (r : CompilationRequest) : Bytes :=
  if wantsCuda r && h.cudaAvailable && (h.backends config).contains nvrtcBackend then
    if r.backend = nvccBackend then nvccBackend else nvrtcBackend
  else cpuBackend

/-- `backend == "cuda-nvrtc" || backend == "cuda-nvcc"`. -/
def isCuda (backend : Bytes) : Bool := backend = nvrtcBackend || backend = nvccBackend

/-- SOURCE: Fabric.cpp:159-178 -/
def planTarget (h : Host) (backend : Bytes) (r : CompilationRequest) : TargetDescriptor :=
  if isCuda backend then
    let advertised := (h.targets.find? fun t =>
      t.architecture = ascii "sm_120" || t.vendor = .Nvidia).getD {}
    let architecture := orElse r.targetArchitecture (ascii "sm_120")
    { advertised with
      vendor := .Nvidia
      family := .NvidiaBlackwell
      architecture := architecture
      computeCapability := orElse r.computeCapability (ascii "12.0")
      isa := architecture }
  else
    { vendor := .CPU, family := .X86_64, architecture := ascii "host-x86_64"
      isa := ascii "x86_64", abi := ascii "sysv64", deviceCount := 1 }

/-- SOURCE: Fabric.cpp:180-183 -/
def specializationStrategy (r : CompilationRequest) : Bytes :=
  if r.staticShape ≠ [] then ascii "static-shape"
  else if r.symbolicShape ≠ [] then ascii "dynamic-bounded"
  else ascii "static-default"

/-- SOURCE: Fabric.cpp:192-196 -/
def planReason (backend : Bytes) : Bytes :=
  ascii "selected backend " ++ backend ++ ascii " because " ++
    ascii (if isCuda backend then
      "request targeted an NVIDIA/CUDA architecture and NVRTC is available"
    else
      "the request is CPU-targeted or CUDA is unavailable; the deterministic CPU backend satisfies it")

/-- `counter` is the value of `++planCounter`.
SOURCE: Fabric.cpp:129-198 -/
def plan (h : Host) (config : CompilationFabricConfig) (counter : UInt64) (now : Int64)
    (r : CompilationRequest) : Result CompilationPlan :=
  if r.backend ≠ [] ∧ ¬ (h.backends config).contains r.backend ∧ r.backend ≠ nvccBackend then
    Err .NoBackend (ascii "no backend registered for " ++ r.backend)
  else
    let backend := selectBackend h config r
    .ok {
      planId := TypedId.fromU64 counter
      request := r
      reason := planReason backend
      frontend := ascii "cf-frontend"
      compiler := ascii (if isCuda backend then "nvrtc" else "cf-cpu")
      backend := backend
      optimizer := ascii (if isCuda backend then "nvrtc-opt" else "cf-cpu-opt")
      linker := ascii (if isCuda backend then "nvrtc" else "cf-cpu-link")
      runtime := ascii (if isCuda backend then "cuda-driver" else "cf-cpu-runtime")
      target := planTarget h backend r
      specializationStrategy := specializationStrategy r
      expectedFormat := if isCuda backend then .CUBIN else .Bytecode
      stages := [.Normalize, .Lower, .Optimize, .Codegen, .Validate, .Persist, .Deploy]
      requiredToolchainCapabilities :=
        [ascii "compiler", ascii (if isCuda backend then "nvrtc" else "deterministic")]
      expectedValidationMethod :=
        ascii (if isCuda backend then "load-launch-reference" else "cpu-execute-reference")
      expectedDeploymentMethod := ascii (if isCuda backend then "cuda-load" else "cpu-execute")
      reproducibility :=
        if r.reproducibility ≠ .Unspecified then r.reproducibility else config.reproducibility
      cachePolicy := ascii "exact"
      createdAt := now }

/-- SOURCE: Fabric.cpp:204-211 -/
def makeTc (p : CompilationPlan) (toolchain : ToolchainDescriptor)
    (config : CompilationFabricConfig) : KeyToolchainContext :=
  if isCuda p.backend then
    { frontend := p.frontend
      frontendVersion := ascii "1.0.0"
      compiler := ascii "nvrtc"
      compilerVersion := toolchain.nvrtcVersion
      backend := nvrtcBackend
      backendVersion := toolchain.nvrtcVersion
      codeGenerator := ascii "nvrtc"
      optimizer := ascii "nvrtc-opt"
      linker := ascii "nvrtc"
      runtime := ascii "cuda-driver"
      driver := ascii "nvidia"
      driverVersion := toolchain.cudaDriverVersion
      environmentFingerprint := config.environmentFingerprint }
  else
    { frontend := p.frontend
      frontendVersion := ascii "1.0.0"
      compiler := ascii "cf-cpu"
      compilerVersion := ascii "1.0.0"
      backend := cpuBackend
      backendVersion := ascii "1.0.0"
      codeGenerator := ascii "cf-cpu-codegen"
      optimizer := ascii "cf-cpu-opt"
      linker := ascii "cf-cpu-link"
      runtime := ascii "cf-cpu-runtime"
      environmentFingerprint := config.environmentFingerprint }

/-- A plan keeps the request it was made for. -/
theorem plan_request {h : Host} {config : CompilationFabricConfig} {counter : UInt64}
    {now : Int64} {r : CompilationRequest} {p : CompilationPlan}
    (hp : plan h config counter now r = .ok p) : p.request = r := by
  unfold plan at hp
  split at hp
  · cases hp
  · rw [← Except.ok.inj hp]

/-! ## Backends -/

/-- SOURCE: Request.hpp:118-125 -/
structure StageResult where
  kind : StageKind := .Skip
  ran : Bool := false
  succeeded : Bool := true
  durationMs : Int64 := 0
  message : Bytes := []
  output : Bytes := []
  deriving DecidableEq

/-- What `compile` and a worker read of a backend's output.
SOURCE: Backend.hpp:39-49 -/
structure BackendOutput where
  executable : Bytes := []
  format : ArtifactFormat := .Unknown
  backend : BackendDescriptor := {}
  compiler : CompilerDescriptor := {}
  specialization : SpecializationDescriptor := {}
  stages : List StageResult := []
  validation : ValidationDescriptor := {}
  deriving DecidableEq

/-- `perfMs` is the number that the source's `double` stands for; it is never infinite.
SOURCE: Request.hpp:127-134 -/
structure AutotuneCandidate where
  variantId : Bytes := []
  flags : Json := .null
  validated : Bool := false
  perfMs : ℚ := 0
  artifactId : ArtifactId := {}
  reason : Bytes := []

/-- SOURCE: Request.hpp:136-161 -/
structure CompilationResult where
  requestId : CompilationRequestId := {}
  planId : CompilationPlanId := {}
  attemptId : CompilationAttemptId := {}
  artifactId : ArtifactId := {}
  generation : ArtifactGeneration := 0
  key : CompilationKey := {}
  keyDigest : Digest := .zero
  artifact : ArtifactDescriptor := {}
  artifactBytes : Bytes := []
  stages : List StageResult := []
  reused : Bool := false
  validated : Bool := false
  deployable : Bool := false
  referenceMatched : Bool := false
  compatibilityDecision : Bytes := []
  error : ErrorCode := .Ok
  errorMessage : Bytes := []
  compileMs : Int64 := 0
  totalMs : Int64 := 0
  backendUsed : Bytes := []
  autotuned : Bool := false
  autotuneWinner : Bytes := []
  autotuneCandidates : List AutotuneCandidate := []

/-! ## Autotuning -/

/-- What the backend and the clock answer for one variant. -/
structure VariantRun where
  compiled : Result BackendOutput
  nanos : UInt64 := 0
  validated : Result ValidationDescriptor := .ok {}
  loaded : Bool := false
  measuredNanos : UInt64 := 0

/-- What the backend answers in one compile: for every variant, for the winner compiled
once more, and for the request as it is. -/
structure BackendRun where
  variants : ℕ → VariantRun
  winner : Result BackendOutput
  plain : Result BackendOutput

/-- SOURCE: Fabric.cpp:303-305, 333-335 -/
def variantRequest (r : CompilationRequest) (vi : ℕ) : CompilationRequest :=
  { r with
    optimizeLevel := if vi = 0 then 0 else max r.optimizeLevel 1
    autotuneSeed := r.autotuneSeed + UInt64.ofNat vi }

/-- `static_cast<double>(nanos) / 1e6`. -/
def milliseconds (nanos : UInt64) : ℚ :=
  Binary64.roundRat (Binary64.roundRat nanos.toNat / 10 ^ 6)

/-- SOURCE: Fabric.cpp:315-316 -/
def VariantRun.passed (run : VariantRun) : Bool :=
  match run.validated with
  | .ok vd => vd.passed
  | .error _ => false

/-- A variant has passed when its validation says so. -/
theorem VariantRun.passed_eq_true {run : VariantRun} :
    run.passed = true ↔ ∃ vd, run.validated = .ok vd ∧ vd.passed = true := by
  unfold passed
  cases run.validated <;> simp

/-- SOURCE: Fabric.cpp:303-328 -/
def evaluateVariant (r : CompilationRequest) (vi : ℕ) (run : VariantRun) : AutotuneCandidate :=
  let vr := variantRequest r vi
  let base : AutotuneCandidate :=
    { variantId := ascii "variant-" ++ DecimalText.natText vi
      flags := Json.ofFields [("optimize_level", Json.ofI32 vr.optimizeLevel),
        ("seed", Json.ofU64 vr.autotuneSeed)] }
  match run.compiled with
  | .error failure => { base with perfMs := -1, reason := failure.message }
  | .ok _ =>
      let perf : ℚ := if run.passed && run.loaded then milliseconds run.measuredNanos else 0
      { base with
        validated := run.passed
        perfMs := perf
        artifactId := TypedId.fromU64 (run.nanos &&& 0x7FFFFFFFFFFFFFFF)
        reason :=
          if run.passed then
            ascii (if 0 < perf then "validated+measured" else "validated(nil perf)")
          else ascii "validation_failed" }

/-- The index of the best candidate so far, with its time.
SOURCE: Fabric.cpp:329 -/
def betterCandidate (best : Option (ℕ × ℚ)) (vi : ℕ) (ac : AutotuneCandidate) :
    Option (ℕ × ℚ) :=
  if ac.validated && 0 < ac.perfMs && (best.all fun b => ac.perfMs < b.2) then
    some (vi, ac.perfMs)
  else best

/-- SOURCE: Fabric.cpp:301-331 -/
def selectWinner (cands : List AutotuneCandidate) : Option ℕ :=
  let best := (cands.zipIdx).foldl (fun best c => betterCandidate best c.2 c.1) none
  best.map Prod.fst <|> cands.findIdx? AutotuneCandidate.validated

/-- What `compile` carries on from its backend calls. -/
structure Build where
  output : BackendOutput := {}
  autotuned : Bool := false
  autotuneWinner : Bytes := []
  autotuneCandidates : List AutotuneCandidate := []
  compileMs : Int64 := 0

/-- SOURCE: Fabric.cpp:300-339 -/
def autotune (r : CompilationRequest) (run : BackendRun) : Build :=
  let cands := (List.range r.autotuneCandidates.toInt.toNat).map fun vi =>
    evaluateVariant r vi (run.variants vi)
  let tuned : Build := { autotuned := true, autotuneCandidates := cands }
  let tuned := match selectWinner cands, run.winner with
    | some ix, .ok output =>
        { tuned with output, autotuneWinner := ((cands[ix]?).map (·.variantId)).getD [] }
    | _, _ => tuned
  match run.plain with
  | .ok output => if tuned.output.executable = [] then { tuned with output } else tuned
  | .error _ => tuned

/-- The backend calls of `compile` up to its test for an empty executable.
SOURCE: Fabric.cpp:299-356 -/
def backendBuild (r : CompilationRequest) (run : BackendRun) : Result Build := do
  let build ← if r.autotune && r.autotuneCandidates > 1 then pure (autotune r run)
    else run.plain.map fun output => { output }
  if build.output.executable = [] then
    Err .BuildFailed (ascii "no candidate produced an artifact")
  else pure build

end CompilationFabric.Model
