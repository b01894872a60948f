import CompilationFabric.Model.Request

/-!
# Compatibility decisions

`Compatibility.hpp` and `Compatibility.cpp`: whether an artifact may be reused for a
request.  `decide` looks at the lifecycle state of the artifact first, then at the two keys,
and only when they differ at the fields in which they do.

The values in a field diff are rendered for a reader, and the rendering tries the string
codec on bytes that may hold anything, so `fieldDiffs` and with it `decide` may leave by the
exception of `CanonicalReader.str`.
-/

set_option autoImplicit false

namespace CompilationFabric.Model

open CompilationFabric.Library

/-- SOURCE: Compatibility.hpp:13-35 -/
inductive CompatibilityOutcome where
  | ExactReusable | ReusableWithRuntimeValidation | ReusableAcrossEquivalentTarget
  | RecompileRequiredSourceChange | RecompileRequiredIRChange | RecompileRequiredCompilerChange
  | RecompileRequiredBackendChange | RecompileRequiredOptimizerChange
  | RecompileRequiredArchitectureChange | RecompileRequiredABIChange
  | RecompileRequiredDatatypeChange | RecompileRequiredLayoutChange
  | RecompileRequiredShapeChange | RecompileRequiredQuantizationChange
  | RecompileRequiredPrecisionChange | RecompileRequiredSpecializationChange
  | RecompileRequiredDependencyGeneration | InvalidArtifact | StaleArtifact | CorruptArtifact
  | PolicyRejected
  deriving DecidableEq, Repr

/-- SOURCE: Compatibility.cpp:27-52 -/
def compatibilityOutcomeName : CompatibilityOutcome → Bytes
  | .ExactReusable => ascii "ExactReusable"
  | .ReusableWithRuntimeValidation => ascii "ReusableWithRuntimeValidation"
  | .ReusableAcrossEquivalentTarget => ascii "ReusableAcrossEquivalentTarget"
  | .RecompileRequiredSourceChange => ascii "RecompileRequiredSourceChange"
  | .RecompileRequiredIRChange => ascii "RecompileRequiredIRChange"
  | .RecompileRequiredCompilerChange => ascii "RecompileRequiredCompilerChange"
  | .RecompileRequiredBackendChange => ascii "RecompileRequiredBackendChange"
  | .RecompileRequiredOptimizerChange => ascii "RecompileRequiredOptimizerChange"
  | .RecompileRequiredArchitectureChange => ascii "RecompileRequiredArchitectureChange"
  | .RecompileRequiredABIChange => ascii "RecompileRequiredABIChange"
  | .RecompileRequiredDatatypeChange => ascii "RecompileRequiredDatatypeChange"
  | .RecompileRequiredLayoutChange => ascii "RecompileRequiredLayoutChange"
  | .RecompileRequiredShapeChange => ascii "RecompileRequiredShapeChange"
  | .RecompileRequiredQuantizationChange => ascii "RecompileRequiredQuantizationChange"
  | .RecompileRequiredPrecisionChange => ascii "RecompileRequiredPrecisionChange"
  | .RecompileRequiredSpecializationChange => ascii "RecompileRequiredSpecializationChange"
  | .RecompileRequiredDependencyGeneration => ascii "RecompileRequiredDependencyGeneration"
  | .InvalidArtifact => ascii "InvalidArtifact"
  | .StaleArtifact => ascii "StaleArtifact"
  | .CorruptArtifact => ascii "CorruptArtifact"
  | .PolicyRejected => ascii "PolicyRejected"

/-- SOURCE: Compatibility.hpp:38-44 -/
inductive CompatibilityReason where
  | None | SourceChanged | IRChanged | CompilerChanged | BackendChanged | OptimizerChanged
  | ArchitectureChanged | ABIChanged | DatatypeChanged | LayoutChanged | ShapeChanged
  | QuantizationChanged | PrecisionChanged | SpecializationChanged
  | DependencyGenerationChanged | ToolchainGenerationChanged | RuntimeGenerationChanged
  | EquivalentTarget | TargetChanged | Invalid | Stale | Corrupt | Policy
  | EnvironmentFingerprint
  deriving DecidableEq, Repr

/-- SOURCE: Compatibility.hpp:49-58 -/
structure CompilationCompatibilityDecision where
  outcome : CompatibilityOutcome := .RecompileRequiredSpecializationChange
  reusable : Bool := false
  reasons : List CompatibilityReason := []
  detail : Bytes := []
  deriving DecidableEq

/-- SOURCE: Compatibility.hpp:66-72 -/
structure CompilationCompatibilityPolicy where
  allowEquivalentTarget : Bool := false
  strictEnvironment : Bool := true
  deriving DecidableEq

/-- SOURCE: Compatibility.cpp:111-190 -/
def reasonForKeyField : KeyField → CompatibilityReason
  | .LogicalOperation | .SourceIdentity | .SourceDigest | .SourceContent => .SourceChanged
  | .IRIdentity | .IRDigest | .IRFormat | .IRContent => .IRChanged
  | .Frontend | .FrontendVersion | .Compiler | .CompilerVersion => .CompilerChanged
  | .Backend | .BackendVersion => .BackendChanged
  | .CodeGenerator | .Optimizer | .OptimizerVersion | .Linker | .LinkerVersion =>
      .OptimizerChanged
  | .Runtime | .RuntimeVersion | .RuntimeCompatibilityGeneration => .RuntimeGenerationChanged
  | .Driver | .DriverVersion | .TargetArchitecture | .ComputeCapability | .ISA
  | .AcceleratorVendor | .AcceleratorFamily => .ArchitectureChanged
  | .ABI | .CallingConvention | .KernelABI | .GraphABI => .ABIChanged
  | .Datatype => .DatatypeChanged
  | .Layout => .LayoutChanged
  | .Rank | .StaticShape | .SymbolicShape => .ShapeChanged
  | .Alignment | .Quantization => .QuantizationChanged
  | .Precision => .PrecisionChanged
  | .LaunchSpecialization | .ScalarConstants | .FeatureFlags | .OptimizationFlags
  | .CodegenFlags | .DebugRelease | .Determinism | .Reproducibility | .ModelRevision
  | .OperatorRevision => .SpecializationChanged
  | .DependencyIdentities | .DependencyGenerations => .DependencyGenerationChanged
  | .CompilerPolicyGeneration => .ToolchainGenerationChanged
  | .EnvFingerprint => .EnvironmentFingerprint
  | .Namespace | .Tenant => .Policy

namespace CompilationCompatibility

/-! ## Field diffs -/

/-- SOURCE: Compatibility.cpp:11-24 -/
def renderFieldValue (v : Bytes) : Throwing Bytes := do
  let hex := ascii "0x" ++ bytesToHex v
  let asId := match (CanonicalReader.mk v 0).u128 with
    | some (id, r) => if r.hasRemaining then hex else id.toHex
    | none => hex
  let asNumber := match (CanonicalReader.mk v 0).u64 with
    | some (u, r) => if r.hasRemaining then asId else DecimalText.natText u.toNat
    | none => asId
  match ← (CanonicalReader.mk v 0).str with
  | some (s, r) => return if r.hasRemaining then asNumber else s
  | none => return asNumber

/-- SOURCE: Compatibility.hpp:93-99 -/
structure FieldDiff where
  field : KeyField
  presentInRequest : Bool := false
  requestValue : Bytes := []
  presentInArtifact : Bool := false
  artifactValue : Bytes := []
  deriving DecidableEq

/-- The fields in the order of their tags. -/
def keyFields : List KeyField := (List.range 57).map KeyField.ofNat

/-- Every field is compared. -/
theorem mem_keyFields (f : KeyField) : f ∈ keyFields := by
  have hlt : f.ctorIdx < 57 := by cases f <;> decide
  exact List.mem_map.mpr ⟨f.ctorIdx, List.mem_range.mpr hlt, KeyField.ofNat_ctorIdx f⟩

/-- One side of a diff: the presence flag and the rendered value. -/
def renderSide : Option Bytes → Throwing (Bool × Bytes)
  | some v => do return (true, ← renderFieldValue v)
  | none => return (false, [])

/-- SOURCE: Compatibility.cpp:197-208 -/
def fieldDiff (a b : CompilationKey) (f : KeyField) : Throwing (Option FieldDiff) := do
  if a.findField f = b.findField f then return none
  let (presentInRequest, requestValue) ← renderSide (b.findField f)
  let (presentInArtifact, artifactValue) ← renderSide (a.findField f)
  return some { field := f, presentInRequest, requestValue, presentInArtifact, artifactValue }

/-- The tags of both keys in order, without the fields in which they agree.
SOURCE: Compatibility.cpp:192-211 -/
def fieldDiffs (a b : CompilationKey) : Throwing (List FieldDiff) := do
  return (← keyFields.mapM (fieldDiff a b)).reduceOption

/-! ## The decision -/

/-- The outcome a reason asks for, where it asks for one.
SOURCE: Compatibility.cpp:264-286 -/
def outcomeFor : CompatibilityReason → Option CompatibilityOutcome
  | .SourceChanged => some .RecompileRequiredSourceChange
  | .IRChanged => some .RecompileRequiredIRChange
  | .CompilerChanged => some .RecompileRequiredCompilerChange
  | .BackendChanged => some .RecompileRequiredBackendChange
  | .OptimizerChanged => some .RecompileRequiredOptimizerChange
  | .ArchitectureChanged => some .RecompileRequiredArchitectureChange
  | .ABIChanged => some .RecompileRequiredABIChange
  | .DatatypeChanged => some .RecompileRequiredDatatypeChange
  | .LayoutChanged => some .RecompileRequiredLayoutChange
  | .ShapeChanged => some .RecompileRequiredShapeChange
  | .QuantizationChanged => some .RecompileRequiredQuantizationChange
  | .PrecisionChanged => some .RecompileRequiredPrecisionChange
  | .DependencyGenerationChanged | .ToolchainGenerationChanged | .RuntimeGenerationChanged =>
      some .RecompileRequiredDependencyGeneration
  -- a specialization change asks for the outcome the loop starts from and goes on with
  | _ => none

/-- SOURCE: Compatibility.cpp:231-289 -/
def decideByDiffs (fields : List KeyField) (policy : CompilationCompatibilityPolicy) :
    CompilationCompatibilityDecision :=
  let reasons := fields.map reasonForKeyField
  let envChanged := reasons.contains .EnvironmentFingerprint
  let targetChanged := reasons.contains .ArchitectureChanged
  let hardRecompile := reasons.any fun r =>
    r ≠ .EnvironmentFingerprint && r ≠ .ArchitectureChanged && r ≠ .Policy
  let onlyTarget := reasons.all (· = .ArchitectureChanged)
  if !hardRecompile && !envChanged && policy.allowEquivalentTarget && targetChanged &&
      onlyTarget then
    { outcome := .ReusableAcrossEquivalentTarget
      reusable := true
      reasons := [.EquivalentTarget]
      detail := ascii
        "request differs only by target; equivalent target reuse permitted by policy" }
  else if !hardRecompile && envChanged && !policy.strictEnvironment then
    { outcome := .ReusableWithRuntimeValidation
      reusable := true
      reasons := [.EnvironmentFingerprint]
      detail := ascii
        "only environment fingerprint differs; reuse with runtime validation by policy" }
  else
    { outcome := (reasons.findSome? outcomeFor).getD .RecompileRequiredSpecializationChange
      reusable := false
      reasons := reasons
      detail := ascii "compilation key differs; recompile required" }

/-- SOURCE: Compatibility.cpp:213-290 -/
def decide (artifactKey requestKey : CompilationKey) (artifact : ArtifactDescriptor)
    (policy : CompilationCompatibilityPolicy) : Throwing CompilationCompatibilityDecision :=
  let state := artifact.state
  if state = ascii "Corrupt" then
    .ok ⟨.CorruptArtifact, false, [.Corrupt], ascii "artifact state is Corrupt"⟩
  else if state = ascii "Invalidated" ∨ state = ascii "Retired" then
    .ok ⟨.StaleArtifact, false, [.Stale], ascii "artifact state is " ++ state⟩
  else if state = [] ∨ state = ascii "Invalid" ∨ state = ascii "Failed" ∨
      state = ascii "Cancelled" then
    .ok ⟨.InvalidArtifact, false, [.Invalid], ascii "artifact is not in a valid state (" ++
      orElse state (ascii "unspecified") ++ ascii ")"⟩
  else if artifactKey == requestKey then
    .ok ⟨.ExactReusable, true, [.None], ascii "artifact compilation key exactly matches request"⟩
  else do
    let diffs ← fieldDiffs artifactKey requestKey
    return decideByDiffs (diffs.map FieldDiff.field) policy

/-- An invalidated artifact is stale under every key. -/
theorem decide_invalidated {artifact : ArtifactDescriptor}
    (h : artifact.state = ascii "Invalidated") (a r : CompilationKey)
    (policy : CompilationCompatibilityPolicy) :
    decide a r artifact policy =
      .ok ⟨.StaleArtifact, false, [.Stale], ascii "artifact state is " ++ artifact.state⟩ := by
  unfold decide
  rw [h, if_neg (by decide), if_pos (Or.inl rfl)]

/-- An artifact is exactly reusable under its own key, unless its state is on the list. -/
theorem decide_exact {artifact : ArtifactDescriptor} (hcorrupt : artifact.state ≠ ascii "Corrupt")
    (hstale : ¬ (artifact.state = ascii "Invalidated" ∨ artifact.state = ascii "Retired"))
    (hinvalid : ¬ (artifact.state = [] ∨ artifact.state = ascii "Invalid" ∨
      artifact.state = ascii "Failed" ∨ artifact.state = ascii "Cancelled"))
    {a r : CompilationKey} (hkey : (a == r) = true) (policy : CompilationCompatibilityPolicy) :
    decide a r artifact policy = .ok ⟨.ExactReusable, true, [.None],
      ascii "artifact compilation key exactly matches request"⟩ := by
  unfold decide
  rw [if_neg hcorrupt, if_neg hstale, if_neg hinvalid, if_pos hkey]

/-- A deployable artifact is reused under its own key, whatever the policy.
SOURCE: Compatibility.cpp:213-230 -/
theorem decide_deployable {artifact : ArtifactDescriptor}
    (h : artifact.state = ascii "Deployable") {a r : CompilationKey} (hkey : (a == r) = true)
    (policy : CompilationCompatibilityPolicy) :
    decide a r artifact policy = .ok ⟨.ExactReusable, true, [.None],
      ascii "artifact compilation key exactly matches request"⟩ := by
  apply decide_exact _ _ _ hkey <;> rw [h] <;> decide

/-- The list does not have `Superseded` on it. -/
theorem decide_superseded {artifact : ArtifactDescriptor}
    (h : artifact.state = ascii "Superseded") {a r : CompilationKey} (hkey : (a == r) = true)
    (policy : CompilationCompatibilityPolicy) :
    decide a r artifact policy = .ok ⟨.ExactReusable, true, [.None],
      ascii "artifact compilation key exactly matches request"⟩ := by
  apply decide_exact _ _ _ hkey <;> rw [h] <;> decide

end CompilationCompatibility

end CompilationFabric.Model
