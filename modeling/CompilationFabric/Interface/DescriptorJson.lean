import CompilationFabric.Interface.JsonFields
import CompilationFabric.Model.Descriptor

/-!
# Descriptors through JSON text

What `fromJson` returns on the parsed text of a descriptor.  Strings, booleans, ids and
digests come back; an integer comes back as `wireU64` or `wireDuration` of it; and every
enumeration that is looked up in a name table of `Semantic.cpp` comes back as its default,
since no name the encoder writes is in the table the decoder reads.  `ArtifactFormat` is
the exception: its table is complete.

For each descriptor, `wire` is the value that comes back and `fromJson_reread` says so.
-/

set_option autoImplicit false

namespace CompilationFabric.Interface

open CompilationFabric.Library.Binary64
open CompilationFabric.Model
open CompilationFabric.Model.Json

-- kept folded, or elaboration runs it on a descriptor's members
attribute [local irreducible] Printable

/-! ## Target, compiler and backend -/

/-- No object has two members of one name. -/
theorem nodup_memberNames :
    ∀ names ∈ [({} : TargetDescriptor).members.map Prod.fst,
        ({} : CompilerDescriptor).members.map Prod.fst,
        ({} : BackendDescriptor).members.map Prod.fst,
        ({} : SpecializationDescriptor).members.map Prod.fst,
        ({} : ValidationDescriptor).members.map Prod.fst,
        ({} : DeploymentDescriptor).members.map Prod.fst,
        ({} : ProvenanceDescriptor).members.map Prod.fst],
      (names.map ascii).Nodup := by
  decide +kernel

/-- INTERNAL: keys differ when the names do. -/
theorem nodup_of_names {fields : List (String × Json)}
    (h : ((fields.map Prod.fst).map ascii).Nodup) : (fields.map fun f => ascii f.1).Nodup := by
  rwa [List.map_map] at h

/-- INTERNAL: no key of a target descriptor comes twice. -/
theorem keys_target (t : TargetDescriptor) : (t.members.map fun f => ascii f.1).Nodup := by
  apply nodup_of_names
  apply nodup_memberNames
  simp [TargetDescriptor.members]

/-- A target descriptor can be printed. -/
theorem printable_target (t : TargetDescriptor) : Printable t.toJson := by
  refine printable_ofFields ?_
  simp [TargetDescriptor.members]

/-- The target that comes back. -/
def wireTarget (t : TargetDescriptor) : TargetDescriptor :=
  { t with
    vendor := .Unknown
    family := .Unknown
    deviceMemoryBytes := wireU64 t.deviceMemoryBytes }

/-- A target descriptor is read back as it crosses the wire. -/
theorem fromJson_reread_target (t : TargetDescriptor) :
    TargetDescriptor.fromJson (reread t.toJson) = some (wireTarget t) := by
  have hget : ∀ key, (t.members.lookup key).isSome →
      (reread t.toJson).get key = (t.members.lookup key).map reread :=
    fun _ => get_reread_lookup (keys_target t)
  have hcount : (toUInt64 (rereadNumber (ofInt t.deviceCount.toNat))).toUInt32 = t.deviceCount :=
    wireU32_eq t.deviceCount
  simp [TargetDescriptor.fromJson, jstr, jnum, hget,
    TargetDescriptor.members, List.lookup_cons, reread, ofU32, ofU64, wireTarget, wireU64, hcount]

/-- INTERNAL: no key of a compiler descriptor comes twice. -/
theorem keys_compiler (c : CompilerDescriptor) : (c.members.map fun f => ascii f.1).Nodup := by
  apply nodup_of_names
  apply nodup_memberNames
  simp [CompilerDescriptor.members]

/-- A compiler descriptor can be printed. -/
theorem printable_compiler (c : CompilerDescriptor) : Printable c.toJson := by
  refine printable_ofFields ?_
  simp [CompilerDescriptor.members]

/-- A compiler descriptor is read back unchanged. -/
theorem fromJson_reread_compiler (c : CompilerDescriptor) :
    CompilerDescriptor.fromJson (reread c.toJson) = some c := by
  have hget : ∀ key, (c.members.lookup key).isSome →
      (reread c.toJson).get key = (c.members.lookup key).map reread :=
    fun _ => get_reread_lookup (keys_compiler c)
  simp [CompilerDescriptor.fromJson, jstr, hget,
    CompilerDescriptor.members, List.lookup_cons, reread]

/-- INTERNAL: no key of a backend descriptor comes twice. -/
theorem keys_backend (b : BackendDescriptor) : (b.members.map fun f => ascii f.1).Nodup := by
  apply nodup_of_names
  apply nodup_memberNames
  simp [BackendDescriptor.members]

/-- A list of strings can be printed. -/
theorem printable_strArray (v : List Bytes) : Printable (strArray v) :=
  printable_array_map printable_str v

/-- A backend descriptor can be printed. -/
theorem printable_backend (b : BackendDescriptor) : Printable b.toJson := by
  refine printable_ofFields ?_
  simp [BackendDescriptor.members, printable_strArray]

/-- A list of strings is read back unchanged. -/
theorem asString_reread_strArray (v : List Bytes) :
    ((reread (strArray v)).asArray.getD []).map asString = v := by
  rw [strArray, reread, rereadElements_map, asArray, Option.getD_some, List.map_map]
  exact List.map_id v

/-- A backend descriptor is read back unchanged. -/
theorem fromJson_reread_backend (b : BackendDescriptor) :
    BackendDescriptor.fromJson (reread b.toJson) = some b := by
  have hget : ∀ key, (b.members.lookup key).isSome →
      (reread b.toJson).get key = (b.members.lookup key).map reread :=
    fun _ => get_reread_lookup (keys_backend b)
  simp [BackendDescriptor.fromJson, jstr, jbool, jarray, hget,
    BackendDescriptor.members, List.lookup_cons, asString_reread_strArray]
  simp [reread]

/-! ## Specialization, validation, deployment and provenance -/

/-- A list of numbers can be printed. -/
theorem printable_i64Array (v : List Int64) : Printable (i64Array v) :=
  printable_array_map printable_ofI64 v

/-- A list of numbers is read back as each of them crosses the wire. -/
theorem toInt64_reread_i64Array (v : List Int64) :
    ((reread (i64Array v)).asArray.getD []).map (fun e => toInt64 e.asNumber) =
      v.map wireI64 := by
  rw [i64Array, reread, rereadElements_map, asArray, Option.getD_some, List.map_map]
  apply List.map_congr_left
  intro e _
  simp [ofI64, reread, asNumber, wireI64]

/-- INTERNAL: no key of a specialization comes twice. -/
theorem keys_specialization (s : SpecializationDescriptor) :
    (s.members.map fun f => ascii f.1).Nodup := by
  apply nodup_of_names
  apply nodup_memberNames
  simp [SpecializationDescriptor.members]

/-- A specialization can be printed. -/
theorem printable_specialization (s : SpecializationDescriptor) : Printable s.toJson := by
  refine printable_ofFields ?_
  simp [SpecializationDescriptor.members, printable_i64Array]

/-- The specialization that comes back. -/
def wireSpecialization (s : SpecializationDescriptor) : SpecializationDescriptor :=
  { s with
    shape := s.shape.map wireI64
    datatype := .None
    layout := .None
    quantization := .None
    precision := .None }

/-- A specialization is read back as it crosses the wire. -/
theorem fromJson_reread_specialization (s : SpecializationDescriptor) :
    SpecializationDescriptor.fromJson (reread s.toJson) = some (wireSpecialization s) := by
  have hget : ∀ key, (s.members.lookup key).isSome →
      (reread s.toJson).get key = (s.members.lookup key).map reread :=
    fun _ => get_reread_lookup (keys_specialization s)
  simp [SpecializationDescriptor.fromJson, jstr, jarray, hget,
    SpecializationDescriptor.members, List.lookup_cons, toInt64_reread_i64Array,
    wireSpecialization]
  simp [reread]

/-- INTERNAL: no key of a validation descriptor comes twice. -/
theorem keys_validation (v : ValidationDescriptor) :
    (v.members.map fun f => ascii f.1).Nodup := by
  apply nodup_of_names
  apply nodup_memberNames
  simp [ValidationDescriptor.members]

/-- A validation descriptor can be printed. -/
theorem printable_validation (v : ValidationDescriptor) : Printable v.toJson := by
  refine printable_ofFields ?_
  simp [ValidationDescriptor.members]

/-- The validation that comes back. -/
def wireValidation (v : ValidationDescriptor) : ValidationDescriptor :=
  { v with durationMs := wireDuration v.durationMs }

/-- A validation descriptor is read back as it crosses the wire. -/
theorem fromJson_reread_validation (v : ValidationDescriptor) :
    ValidationDescriptor.fromJson (reread v.toJson) = some (wireValidation v) := by
  have hget : ∀ key, (v.members.lookup key).isSome →
      (reread v.toJson).get key = (v.members.lookup key).map reread :=
    fun _ => get_reread_lookup (keys_validation v)
  simp [ValidationDescriptor.fromJson, jstr, jbool, jnum, hget,
    ValidationDescriptor.members, List.lookup_cons, reread, ofI64, wireValidation, wireDuration]

/-- INTERNAL: no key of a deployment descriptor comes twice. -/
theorem keys_deployment (d : DeploymentDescriptor) :
    (d.members.map fun f => ascii f.1).Nodup := by
  apply nodup_of_names
  apply nodup_memberNames
  simp [DeploymentDescriptor.members]

/-- A deployment descriptor can be printed. -/
theorem printable_deployment (d : DeploymentDescriptor) : Printable d.toJson := by
  refine printable_ofFields ?_
  simp [DeploymentDescriptor.members]

/-- The deployment that comes back. -/
def wireDeployment (d : DeploymentDescriptor) : DeploymentDescriptor :=
  { d with
    lastLoadDurationMs := wireDuration d.lastLoadDurationMs
    lastLoadAt := wireDuration d.lastLoadAt
    activeLeases := wireU64 d.activeLeases }

/-- A deployment descriptor is read back as it crosses the wire. -/
theorem fromJson_reread_deployment (d : DeploymentDescriptor) :
    DeploymentDescriptor.fromJson (reread d.toJson) = some (wireDeployment d) := by
  have hget : ∀ key, (d.members.lookup key).isSome →
      (reread d.toJson).get key = (d.members.lookup key).map reread :=
    fun _ => get_reread_lookup (keys_deployment d)
  simp [DeploymentDescriptor.fromJson, jstr, jbool, jnum, hget,
    DeploymentDescriptor.members, List.lookup_cons, reread, ofI64, ofU64, wireDeployment,
    wireDuration, wireU64]

/-- INTERNAL: no key of a provenance descriptor comes twice. -/
theorem keys_provenance (p : ProvenanceDescriptor) :
    (p.members.map fun f => ascii f.1).Nodup := by
  apply nodup_of_names
  apply nodup_memberNames
  simp [ProvenanceDescriptor.members]

/-- A provenance descriptor can be printed. -/
theorem printable_provenance (p : ProvenanceDescriptor) : Printable p.toJson := by
  refine printable_ofFields ?_
  simp [ProvenanceDescriptor.members]

/-- The provenance that comes back. -/
def wireProvenance (p : ProvenanceDescriptor) : ProvenanceDescriptor :=
  { p with
    reproducibility := .Unspecified
    compileDurationMs := wireDuration p.compileDurationMs
    optimizeDurationMs := wireDuration p.optimizeDurationMs
    analyzeDurationMs := wireDuration p.analyzeDurationMs
    validateDurationMs := wireDuration p.validateDurationMs
    linkDurationMs := wireDuration p.linkDurationMs
    deployDurationMs := wireDuration p.deployDurationMs
    createdAt := wireDuration p.createdAt }

/-- A provenance descriptor is read back as it crosses the wire. -/
theorem fromJson_reread_provenance (p : ProvenanceDescriptor) :
    ProvenanceDescriptor.fromJson (reread p.toJson) = some (wireProvenance p) := by
  have hget : ∀ key, (p.members.lookup key).isSome →
      (reread p.toJson).get key = (p.members.lookup key).map reread :=
    fun _ => get_reread_lookup (keys_provenance p)
  simp [ProvenanceDescriptor.fromJson, jstr, jbool, jnum, hget,
    ProvenanceDescriptor.members, List.lookup_cons, reread, ofI64, wireProvenance, wireDuration]

/-! ## The artifact -/

/-- The descriptor that comes back. -/
def wireArtifact (a : ArtifactDescriptor) : ArtifactDescriptor :=
  { a with
    generation := wireU64 a.generation
    byteSize := wireU64 a.byteSize
    target := wireTarget a.target
    specialization := wireSpecialization a.specialization
    validation := wireValidation a.validation
    deployment := wireDeployment a.deployment
    provenance := wireProvenance a.provenance
    createdAt := wireDuration a.createdAt
    lastAccess := wireDuration a.lastAccess
    reuseCount := wireU64 a.reuseCount }

/-- INTERNAL: every member of an artifact descriptor can be printed. -/
theorem printable_artifact_members (a : ArtifactDescriptor) :
    ∀ f ∈ a.members, Printable f.2 := by
  simp [ArtifactDescriptor.members, printable_target, printable_compiler, printable_backend,
    printable_specialization, printable_validation, printable_deployment, printable_provenance]

/-- A descriptor comes back also when members were set behind its own. -/
theorem fromJson_reread_artifact (a : ArtifactDescriptor) {extra : List (String × Json)}
    (hnodup : ((a.members ++ extra).map fun f => ascii f.1).Nodup) :
    ArtifactDescriptor.fromJson (reread (ofFields (a.members ++ extra))) =
      some (wireArtifact a) := by
  have hget : ∀ key, ((a.members ++ extra).lookup key).isSome →
      (reread (ofFields (a.members ++ extra))).get key =
        ((a.members ++ extra).lookup key).map reread := fun _ => get_reread_lookup hnodup
  generalize reread (ofFields (a.members ++ extra)) = j at hget ⊢
  simp [ArtifactDescriptor.fromJson, jstr, jnum, hget, ArtifactDescriptor.members,
    List.lookup_cons, fromJson_reread_target, fromJson_reread_compiler, fromJson_reread_backend,
    fromJson_reread_specialization, fromJson_reread_validation, fromJson_reread_deployment,
    fromJson_reread_provenance]
  simp [reread, ofI64, ofU64, wireArtifact, wireDuration, wireU64]

end CompilationFabric.Interface
