import CompilationFabric.Analysis.KeyInjectivity
import CompilationFabric.Interface.DescriptorSize
import CompilationFabric.Interface.RequestJson

/-!
# The compilation identity over the wire

Whether the request a coordinator decodes from a Submit frame has the key of the request
that was submitted.  It has it exactly when the request is one of those that the JSON form
keeps (`KeepsIdentity`): its enumerations are at their defaults, or agree with the plan's
request where the key falls back to it, and its integers survive the way through a double.

The enumerations are the failing part: the encoder writes `Datatype::F32` where the decoder
looks for `F32`.  Requests that differ only in one of them therefore decode to the same
request (`decodeSubmit_merges`).
-/

set_option autoImplicit false

namespace CompilationFabric.Analysis

open CompilationFabric.Interface
open CompilationFabric.Library.Binary64
open CompilationFabric.Model

variable {env : ProtoEnvelope} {r : CompilationRequest} {p : CompilationPlan}
  {t : KeyToolchainContext}

/-- The requests whose key a Submit frame keeps, under a plan. -/
structure KeepsIdentity (r : CompilationRequest) (p : CompilationPlan) : Prop where
  datatype : r.datatype = .None ∨ p.request.datatype = r.datatype
  layout : r.layout = .None ∨ p.request.layout = r.layout
  rank : SurvivesU64 r.rank
  staticShape : ∀ e ∈ r.staticShape, Exact e.toInt
  alignment : SurvivesU64 r.alignment
  quantization : r.quantization = .None
  precision : r.precision = .None
  debugRelease : r.debugRelease = .Release
  determinism : r.determinism = .Unspecified
  reproducibility : r.reproducibility = .Unspecified
  dependencyGenerations : ∀ g ∈ r.dependencyGenerations, SurvivesU64 g

/-! ## Field by field -/

/-- A field that falls back to the plan's request, when its value is lost on the way. -/
theorem fallback_lost_iff {α : Type} [DecidableEq α] {a b d : α} :
    (if d ≠ d then d else b) = (if a ≠ d then a else b) ↔ a = d ∨ b = a := by
  by_cases ha : a = d
  · simp [ha]
  · simp [ha]

/-- The same for an integer, which is 0 on arrival only when it was. -/
theorem fallback_wireU64_iff {n m : UInt64} :
    (if wireU64 n ≠ 0 then wireU64 n else m) = (if n ≠ 0 then n else m) ↔ SurvivesU64 n := by
  rw [← wireU64_eq_iff]
  by_cases hn : n = 0
  · have hw : wireU64 n = 0 := (wireU64_eq_zero n).mpr hn
    rw [hw, hn]
    simp
  · have hw : wireU64 n ≠ 0 := fun h => hn ((wireU64_eq_zero n).mp h)
    rw [if_pos hw, if_pos hn]

/-- A field left out at its default, whose value is lost on the way. -/
theorem unlessDefault_lost_iff {α : Type} [DecidableEq α] (toByte : α → UInt8) {a d : α} :
    (if d ≠ d then some (encU8 (toByte d)) else none) =
      (if a ≠ d then some (encU8 (toByte a)) else none) ↔ a = d := by
  by_cases ha : a = d
  · simp [ha]
  · simp [ha]

/-- A list that falls back when it is empty, with its elements changed on the way. -/
theorem fallback_map_iff {α : Type} [DecidableEq α] {f : α → α} {l m : List α} :
    (if l.map f ≠ [] then l.map f else m) = (if l ≠ [] then l else m) ↔ ∀ a ∈ l, f a = a := by
  rw [← map_eq_self_iff]
  by_cases hl : l = []
  · simp [hl]
  · have hmap : l.map f ≠ [] := by simpa using hl
    rw [if_pos hmap, if_pos hl]

/-! ## The key on arrival -/

/-- The table of the request that arrives is the table of the one sent exactly when the
request keeps its identity. -/
theorem fieldValue_wireRequest_iff :
    (∀ f, fieldValue (wireRequest r) p t f = fieldValue r p t f) ↔ KeepsIdentity r p := by
  constructor
  · intro h
    have hgens := unlessDefault_injective encU64s_injective (h .DependencyGenerations)
    exact {
      datatype := fallback_lost_iff.mp
        (encEnum_injective Datatype.toUInt8_injective (Option.some.inj (h .Datatype)))
      layout := fallback_lost_iff.mp
        (encEnum_injective Layout.toUInt8_injective (Option.some.inj (h .Layout)))
      rank := fallback_wireU64_iff.mp (encU64_injective (Option.some.inj (h .Rank)))
      staticShape := fun e he => (wireI64_eq_iff e).mp
        (fallback_map_iff.mp (encShape_injective (Option.some.inj (h .StaticShape))) e he)
      alignment := fallback_wireU64_iff.mp (encU64_injective (Option.some.inj (h .Alignment)))
      quantization := (unlessDefault_lost_iff QuantizationMode.toUInt8).mp (h .Quantization)
      precision := (unlessDefault_lost_iff PrecisionMode.toUInt8).mp (h .Precision)
      debugRelease :=
        (encEnum_injective DebugReleaseMode.toUInt8_injective
          (Option.some.inj (h .DebugRelease))).symm
      determinism := (unlessDefault_lost_iff DeterminismMode.toUInt8).mp (h .Determinism)
      reproducibility := (unlessDefault_lost_iff ReproducibilityMode.toUInt8).mp (h .Reproducibility)
      dependencyGenerations := fun g hg =>
        (wireU64_eq_iff g).mp (map_eq_self_iff.mp hgens g hg) }
  · intro h f
    have hshape : r.staticShape.map wireI64 = r.staticShape :=
      map_eq_self_iff.mpr fun e he => (wireI64_eq_iff e).mpr (h.staticShape e he)
    have hgens : r.dependencyGenerations.map wireU64 = r.dependencyGenerations :=
      map_eq_self_iff.mpr fun g hg => (wireU64_eq_iff g).mpr (h.dependencyGenerations g hg)
    cases f with
    | Datatype =>
        exact congrArg (fun d : Datatype => some (encU8 d.toUInt8))
          (fallback_lost_iff.mpr h.datatype)
    | Layout =>
        exact congrArg (fun l : Layout => some (encU8 l.toUInt8)) (fallback_lost_iff.mpr h.layout)
    | Rank => exact congrArg (fun n => some (encU64 n)) (fallback_wireU64_iff.mpr h.rank)
    | Alignment =>
        exact congrArg (fun n => some (encU64 n)) (fallback_wireU64_iff.mpr h.alignment)
    | StaticShape => simp only [fieldValue, wireRequest, hshape]
    | DependencyGenerations => simp only [fieldValue, wireRequest, hgens]
    | Quantization => exact (unlessDefault_lost_iff QuantizationMode.toUInt8).mpr h.quantization
    | Precision => exact (unlessDefault_lost_iff PrecisionMode.toUInt8).mpr h.precision
    | DebugRelease => simp only [fieldValue, wireRequest, h.debugRelease]
    | Determinism => exact (unlessDefault_lost_iff DeterminismMode.toUInt8).mpr h.determinism
    | Reproducibility => exact (unlessDefault_lost_iff ReproducibilityMode.toUInt8).mpr h.reproducibility
    | _ => rfl

/-- The payload of a Submit frame decodes, to a request with the key of the one submitted. -/
def ArrivesWithKey (env : ProtoEnvelope) (r : CompilationRequest) (p : CompilationPlan)
    (t : KeyToolchainContext) : Prop :=
  ∃ r', decodeSubmit (encodeSubmit env r) = .ok (.ok r') ∧
    (buildCompilationKey r' p t == buildCompilationKey r p t) = true

/-- A payload that fits in memory arrives with the submitted request's key exactly when the
request keeps its identity.
SOURCE: Protocol.cpp:144-160, Request.cpp:33-119, Semantic.cpp:7-121 -/
theorem arrivesWithKey_iff (hsize : (encodeSubmit env r).length < sizeMod) :
    ArrivesWithKey env r p t ↔ KeepsIdentity r p := by
  have hkey : (buildCompilationKey (wireRequest r) p t == buildCompilationKey r p t) = true ↔
      KeepsIdentity r p := by
    rw [CompilationKey.beq_iff_eq_of_sorted (sorted_buildCompilationKey _ _ _)
      (sorted_buildCompilationKey _ _ _), buildCompilationKey_eq_iff_fieldValue,
      fieldValue_wireRequest_iff]
  rw [← hkey]
  constructor
  · rintro ⟨r', hdecode, heq⟩
    rw [decodeSubmit_encodeSubmit env r hsize, Except.ok.injEq, Except.ok.injEq] at hdecode
    rw [hdecode]
    exact heq
  · intro heq
    exact ⟨wireRequest r, decodeSubmit_encodeSubmit env r hsize, heq⟩

/-- A request that asks for a quantization, and a plan for it. -/
def quantizedRequest (q : QuantizationMode) : CompilationRequest := { quantization := q }

def quantizedPlan (q : QuantizationMode) : CompilationPlan := { request := quantizedRequest q }

/-- INTERNAL: the payload fits into the address space. -/
theorem size_quantizedRequest (q : QuantizationMode) :
    (encodeSubmit {} (quantizedRequest q)).length < sizeMod := by
  have hnames : 2 + namesSize (quantizedRequest q).members ≤ 10000 := by
    simp only [namesSize, CompilationRequest.members, List.map]
    decide +kernel
  have hvalues : valuesSize (quantizedRequest q).members ≤ 10000 := by
    cases q <;> decide +kernel
  have hdump := length_dump_ofFields_le hnames
  rw [encodeSubmit, List.length_append, length_encode, CanonicalWriter.length_string,
    CompilationRequest.toJson]
  simp only [kEnvelopeSize, sizeMod]
  omega

/-- The request without a quantization arrives with its key. -/
theorem arrivesWithKey_plain :
    ArrivesWithKey {} (quantizedRequest .None) (quantizedPlan .None) {} := by
  have hzero : SurvivesU64 0 := Or.inl ⟨by decide, exact_of_lt (by decide)⟩
  refine (arrivesWithKey_iff (size_quantizedRequest .None)).mpr ?_
  constructor <;> simp [quantizedRequest, hzero]

/-- A request for eight-bit quantization does not, and it arrives as the same request as
one for four-bit quantization, although the two have different keys. -/
theorem decodeSubmit_merges :
    ¬ ArrivesWithKey {} (quantizedRequest .Int8) (quantizedPlan .Int8) {} ∧
      (buildCompilationKey (quantizedRequest .Int8) (quantizedPlan .Int8) {} ==
        buildCompilationKey (quantizedRequest .Int4) (quantizedPlan .Int4) {}) = false ∧
      decodeSubmit (encodeSubmit {} (quantizedRequest .Int8)) =
        decodeSubmit (encodeSubmit {} (quantizedRequest .Int4)) := by
  refine ⟨?_, by decide +kernel, ?_⟩
  · rintro ⟨r', hdecode, heq⟩
    rw [decodeSubmit_encodeSubmit _ _ (size_quantizedRequest _), Except.ok.injEq,
      Except.ok.injEq] at hdecode
    rw [← hdecode] at heq
    revert heq
    decide +kernel
  · rw [decodeSubmit_encodeSubmit _ _ (size_quantizedRequest _),
      decodeSubmit_encodeSubmit _ _ (size_quantizedRequest _)]
    rfl

end CompilationFabric.Analysis
