import CompilationFabric.Interface.RecordFile

/-!
# Storing and loading a record

When `load` returns the record that `store` was given.  The key, the flags and the content
always come back.  The descriptor does when its enumerations are at their defaults and its
unsigned integers survive their text (`KeptByText`); a generation that does not survive is
an error, since `load` compares it with the one asked for.

Integers that a double does not hold are left to the caller: the records here have none
(`ExactIntegers`).
-/

set_option autoImplicit false

namespace CompilationFabric.Analysis

open CompilationFabric.Interface
open CompilationFabric.Library.Binary64
open CompilationFabric.Library.DecimalText
open CompilationFabric.Model

/-! ## Records whose integers are doubles -/

/-- Every integer of the descriptor is held exactly by a double. -/
structure ExactIntegers (d : ArtifactDescriptor) : Prop where
  generation : Exact d.generation.toNat
  byteSize : Exact d.byteSize.toNat
  deviceMemoryBytes : Exact d.target.deviceMemoryBytes.toNat
  shape : ∀ e ∈ d.specialization.shape, Exact e.toInt
  validationDuration : Exact d.validation.durationMs.toInt
  lastLoadDurationMs : Exact d.deployment.lastLoadDurationMs.toInt
  lastLoadAt : Exact d.deployment.lastLoadAt.toInt
  activeLeases : Exact d.deployment.activeLeases.toNat
  compileDurationMs : Exact d.provenance.compileDurationMs.toInt
  optimizeDurationMs : Exact d.provenance.optimizeDurationMs.toInt
  analyzeDurationMs : Exact d.provenance.analyzeDurationMs.toInt
  validateDurationMs : Exact d.provenance.validateDurationMs.toInt
  linkDurationMs : Exact d.provenance.linkDurationMs.toInt
  deployDurationMs : Exact d.provenance.deployDurationMs.toInt
  provenanceCreatedAt : Exact d.provenance.createdAt.toInt
  createdAt : Exact d.createdAt.toInt
  lastAccess : Exact d.lastAccess.toInt
  reuseCount : Exact d.reuseCount.toNat

/-- An unsigned integer whose text is that of the integer itself: it fits an `int64_t`, or
it has no more than six significant digits. -/
def PlainText (n : UInt64) : Prop := n.toNat < 2 ^ 63 ∨ SixDigits n.toNat

/-- A number that a double has survives exactly when its text is plain. -/
theorem survivesU64_iff_plainText {n : UInt64} (h : Exact n.toNat) :
    SurvivesU64 n ↔ PlainText n := by
  constructor
  · rintro (⟨hlt, -⟩ | ⟨-, hsix⟩)
    · exact Or.inl hlt
    · exact Or.inr hsix
  · rintro (hlt | hsix)
    · exact Or.inl ⟨hlt, h⟩
    · rcases Nat.lt_or_ge n.toNat (2 ^ 63) with hlt | hge
      · exact Or.inl ⟨hlt, h⟩
      · exact Or.inr ⟨hge, hsix⟩

/-- The descriptors that their JSON text keeps. -/
structure KeptByText (d : ArtifactDescriptor) : Prop where
  vendor : d.target.vendor = .Unknown
  family : d.target.family = .Unknown
  datatype : d.specialization.datatype = .None
  layout : d.specialization.layout = .None
  quantization : d.specialization.quantization = .None
  precision : d.specialization.precision = .None
  reproducibility : d.provenance.reproducibility = .Unspecified
  generation : PlainText d.generation
  byteSize : PlainText d.byteSize
  deviceMemoryBytes : PlainText d.target.deviceMemoryBytes
  activeLeases : PlainText d.deployment.activeLeases
  reuseCount : PlainText d.reuseCount

/-! ## Descriptor by descriptor -/

/-- A target is kept without a vendor and a family, when its memory size survives. -/
theorem wireTarget_eq_iff (t : TargetDescriptor) :
    wireTarget t = t ↔
      t.vendor = .Unknown ∧ t.family = .Unknown ∧ SurvivesU64 t.deviceMemoryBytes := by
  cases t
  simp [wireTarget, @eq_comm _ AcceleratorVendor.Unknown, @eq_comm _ AcceleratorFamily.Unknown,
    wireU64_eq_iff]

/-- A specialization is kept without its enumerations. -/
theorem wireSpecialization_eq_iff {s : SpecializationDescriptor}
    (hshape : ∀ e ∈ s.shape, Exact e.toInt) :
    wireSpecialization s = s ↔ s.datatype = .None ∧ s.layout = .None ∧
      s.quantization = .None ∧ s.precision = .None := by
  have hmap : s.shape.map wireI64 = s.shape :=
    map_eq_self_iff.mpr fun e he => (wireI64_eq_iff e).mpr (hshape e he)
  rw [wireSpecialization, hmap]
  cases s
  simp [eq_comm]

/-- A validation is kept when its duration is. -/
theorem wireValidation_eq {v : ValidationDescriptor} (h : Exact v.durationMs.toInt) :
    wireValidation v = v := by
  rw [wireValidation, wireDuration_of_exact h]

/-- A deployment is kept when its count of leases survives. -/
theorem wireDeployment_eq_iff {d : DeploymentDescriptor}
    (hduration : Exact d.lastLoadDurationMs.toInt) (hat : Exact d.lastLoadAt.toInt) :
    wireDeployment d = d ↔ SurvivesU64 d.activeLeases := by
  rw [wireDeployment, wireDuration_of_exact hduration, wireDuration_of_exact hat]
  cases d
  simp [wireU64_eq_iff]

/-- A provenance is kept without a reproducibility. -/
theorem wireProvenance_eq_iff {d : ArtifactDescriptor} (h : ExactIntegers d) :
    wireProvenance d.provenance = d.provenance ↔
      d.provenance.reproducibility = .Unspecified := by
  rw [wireProvenance, wireDuration_of_exact h.compileDurationMs,
    wireDuration_of_exact h.optimizeDurationMs, wireDuration_of_exact h.analyzeDurationMs,
    wireDuration_of_exact h.validateDurationMs, wireDuration_of_exact h.linkDurationMs,
    wireDuration_of_exact h.deployDurationMs, wireDuration_of_exact h.provenanceCreatedAt]
  cases d.provenance
  simp [eq_comm]

/-- A descriptor is kept exactly when all its parts are. -/
theorem wireArtifact_eq_iff {d : ArtifactDescriptor} (h : ExactIntegers d) :
    wireArtifact d = d ↔ KeptByText d := by
  have hparts : wireArtifact d = d ↔ wireU64 d.generation = d.generation ∧
      wireU64 d.byteSize = d.byteSize ∧ wireTarget d.target = d.target ∧
      wireSpecialization d.specialization = d.specialization ∧
      wireDeployment d.deployment = d.deployment ∧
      wireProvenance d.provenance = d.provenance ∧ wireU64 d.reuseCount = d.reuseCount := by
    rw [wireArtifact, wireValidation_eq h.validationDuration, wireDuration_of_exact h.createdAt,
      wireDuration_of_exact h.lastAccess]
    cases d
    simp
  rw [hparts, wireU64_eq_iff, wireU64_eq_iff, wireU64_eq_iff, wireTarget_eq_iff,
    wireSpecialization_eq_iff h.shape, wireDeployment_eq_iff h.lastLoadDurationMs h.lastLoadAt,
    wireProvenance_eq_iff h, survivesU64_iff_plainText h.generation,
    survivesU64_iff_plainText h.byteSize, survivesU64_iff_plainText h.deviceMemoryBytes,
    survivesU64_iff_plainText h.activeLeases, survivesU64_iff_plainText h.reuseCount]
  constructor
  · rintro ⟨hgen, hsize, ⟨hv, hf, hm⟩, ⟨hd, hl, hq, hp⟩, hleases, hr, hreuse⟩
    exact ⟨hv, hf, hd, hl, hq, hp, hr, hgen, hsize, hm, hleases, hreuse⟩
  · rintro ⟨hv, hf, hd, hl, hq, hp, hr, hgen, hsize, hm, hleases, hreuse⟩
    exact ⟨hgen, hsize, ⟨hv, hf, hm⟩, ⟨hd, hl, hq, hp⟩, hleases, hr, hreuse⟩

/-! ## The round trip -/

/-- Storing succeeds, and loading gives the record back. -/
def StoresLosslessly (H : Bytes → Digest) (root : Bytes) (dir : Directory)
    (r : PersistedRecord) : Prop :=
  ∃ dir' loaded, store H root dir r = (.ok (), dir') ∧
    load H dir' r.id r.generation = .ok (.ok loaded) ∧ (loaded.key == r.key) = true ∧
    loaded.contentBytes = r.contentBytes ∧ loaded.invalidated = r.invalidated ∧
    loaded.superseded = r.superseded ∧ loaded.descriptor = r.descriptor

/-- INTERNAL: the round trip in terms of the descriptor that comes back. -/
theorem storesLosslessly_iff_wire {H : Bytes → Digest} {root : Bytes} {dir : Directory}
    {r : PersistedRecord} (hroot : root ≠ []) (hid : r.descriptor.id = r.id)
    (hgen : r.descriptor.generation = r.generation)
    (hdigest : r.descriptor.contentDigest = H r.contentBytes)
    (hsize : (encodeMeta H r).length < sizeMod) :
    StoresLosslessly H root dir r ↔ wireArtifact r.descriptor = r.descriptor := by
  obtain ⟨dir', hstore, hmeta, hbin⟩ := store_spec H hroot dir r
  obtain ⟨k, hk, hload⟩ := load_of_files hsize hmeta hbin
  have hkey : (k == r.key) = true := by
    rw [CompilationKey.beq_iff, hk]
    exact sortFields_perm _
  have hdigest' : ¬ ((wireRecord r k).descriptor.contentDigest ≠ .zero ∧
      H r.contentBytes ≠ (wireRecord r k).descriptor.contentDigest) :=
    fun h => h.2 hdigest.symm
  constructor
  · rintro ⟨dir'', loaded, hstore', hload', -, -, -, -, hdesc⟩
    rw [hstore, Prod.mk.injEq] at hstore'
    rw [← hstore'.2, hload, Except.ok.injEq, loadContent, if_neg hdigest'] at hload'
    split at hload'
    · simp [Err] at hload'
    · rw [Except.ok.injEq] at hload'
      rw [← hload'] at hdesc
      exact hdesc
  · intro hdesc
    have hsame : ¬ ((wireRecord r k).id ≠ r.id ∨ (wireRecord r k).generation ≠ r.generation) := by
      have hgen' : wireU64 r.descriptor.generation = r.descriptor.generation :=
        congrArg ArtifactDescriptor.generation hdesc
      rintro (h | h)
      · exact h hid
      · exact h (hgen'.trans hgen)
    refine ⟨dir', { wireRecord r k with contentBytes := r.contentBytes }, hstore, ?_, hkey, rfl,
      rfl, rfl, hdesc⟩
    rw [hload, loadContent, if_neg hdigest', if_neg hsame]

/-- A record whose descriptor is its own and whose integers are doubles comes back exactly
when its text keeps its descriptor.
SOURCE: Persistence.cpp:55-156, Descriptor.cpp:72-421 -/
theorem storesLosslessly_iff {H : Bytes → Digest} {root : Bytes} {dir : Directory}
    {r : PersistedRecord} (hroot : root ≠ []) (hid : r.descriptor.id = r.id)
    (hgen : r.descriptor.generation = r.generation)
    (hdigest : r.descriptor.contentDigest = H r.contentBytes)
    (hexact : ExactIntegers r.descriptor) (hsize : (encodeMeta H r).length < sizeMod) :
    StoresLosslessly H root dir r ↔ KeptByText r.descriptor := by
  rw [storesLosslessly_iff_wire hroot hid hgen hdigest hsize, wireArtifact_eq_iff hexact]

/-- A digest function that does not look at its input. -/
def constDigest (_ : Bytes) : Digest := ⟨List.replicate 32 1, rfl⟩

/-- A record with default fields, for a target of the given vendor. -/
def vendorRecord (vendor : AcceleratorVendor) : PersistedRecord where
  descriptor := { contentDigest := constDigest [], target := { vendor := vendor } }

/-- INTERNAL: the integers of the record are small. -/
theorem exactIntegers_vendorRecord (vendor : AcceleratorVendor) :
    ExactIntegers (vendorRecord vendor).descriptor := by
  have hzero : Exact 0 := exact_of_lt (by decide)
  constructor <;> simp [vendorRecord, hzero]

/-- The record for an unknown vendor comes back. -/
theorem storesLosslessly_unknown :
    StoresLosslessly constDigest [46] ∅ (vendorRecord .Unknown) := by
  have hsize : (encodeMeta constDigest (vendorRecord .Unknown)).length < sizeMod :=
    (length_encodeMeta_le _ _).trans_lt (by decide +kernel)
  refine (storesLosslessly_iff (by decide) rfl rfl rfl (exactIntegers_vendorRecord _) hsize).mpr ?_
  have hzero : PlainText 0 := Or.inl (by decide)
  constructor <;> simp [vendorRecord, hzero]

/-- The record for the CPU does not: it is loaded with vendor `Unknown`. -/
theorem not_storesLosslessly_cpu :
    (vendorRecord .CPU).descriptor.id = (vendorRecord .CPU).id ∧
      (vendorRecord .CPU).descriptor.generation = (vendorRecord .CPU).generation ∧
      (vendorRecord .CPU).descriptor.contentDigest =
        constDigest (vendorRecord .CPU).contentBytes ∧
      ExactIntegers (vendorRecord .CPU).descriptor ∧
      ¬ StoresLosslessly constDigest [46] ∅ (vendorRecord .CPU) := by
  have hsize : (encodeMeta constDigest (vendorRecord .CPU)).length < sizeMod :=
    (length_encodeMeta_le _ _).trans_lt (by decide +kernel)
  refine ⟨rfl, rfl, rfl, exactIntegers_vendorRecord _, ?_⟩
  rw [storesLosslessly_iff_wire (by decide) rfl rfl rfl hsize]
  intro h
  have hvendor := congrArg (fun d : ArtifactDescriptor => d.target.vendor) h
  exact absurd hvendor (by decide)

end CompilationFabric.Analysis
