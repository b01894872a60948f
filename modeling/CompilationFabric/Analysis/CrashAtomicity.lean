import CompilationFabric.Interface.RecordFile
import CompilationFabric.Library.TransitionSystem

/-!
# A store that is cut short

What `load` finds when the process stops inside `store`.  Each of the two files is replaced
atomically, but one after the other: between the two renames the new metadata stands over the old
content.  A load then gives neither record unless one of the two files says the same as before
(`ChangesOneFile`).

The metadata is compared as its text is read back, which is where a descriptor may lose fields.
-/

set_option autoImplicit false

namespace CompilationFabric.Analysis

open CompilationFabric.Interface
open CompilationFabric.Library.Binary64
open CompilationFabric.Library.TransitionSystem
open CompilationFabric.Model

variable {H : Bytes → Digest} {dir dir' : Directory} {a b old rec : PersistedRecord}

/-! ## The property and the condition -/

/-- The same record, but for the content. -/
structure SameMetadata (a b : PersistedRecord) : Prop where
  id : a.id = b.id
  generation : a.generation = b.generation
  key : (a.key == b.key) = true
  descriptor : a.descriptor = b.descriptor
  invalidated : a.invalidated = b.invalidated
  superseded : a.superseded = b.superseded

/-- INTERNAL: a record has its own metadata. -/
theorem SameMetadata.refl (a : PersistedRecord) : SameMetadata a a :=
  ⟨rfl, rfl, CompilationKey.beq_iff.mpr (.refl _), rfl, rfl, rfl⟩

structure SameRecord (a b : PersistedRecord) : Prop extends SameMetadata a b where
  content : a.contentBytes = b.contentBytes

/-- Wherever the process stops in `store`, a load returns the old record or the new one. -/
def AllOrNothing (H : Bytes → Digest) (dir : Directory) (old rec : PersistedRecord) : Prop :=
  ∀ steps, steps <+: storeFileSteps H rec → ∃ dir' loaded, exec fileStep dir steps = some dir' ∧
    load H dir' rec.id rec.generation = .ok (.ok loaded) ∧
    (SameRecord loaded old ∨ SameRecord loaded rec)

/-- The metadata of a record as its text is read back. -/
def rereadRecord (rec : PersistedRecord) : PersistedRecord := wireRecord rec rec.key

/-- The digest of the metadata is not that of another content. -/
def FitsContent (H : Bytes → Digest) (rec : PersistedRecord) : Prop :=
  rec.descriptor.contentDigest = .zero ∨ H rec.contentBytes = rec.descriptor.contentDigest

/-- What is stored is read back as the old record; or it is read back as itself, and only one of
the two files differs from those of the old record. -/
def ChangesOneFile (H : Bytes → Digest) (old rec : PersistedRecord) : Prop :=
  (SameMetadata (rereadRecord rec) old ∧ rec.contentBytes = old.contentBytes) ∨
    (SameMetadata (rereadRecord rec) rec ∧ FitsContent H rec ∧
      (SameMetadata (rereadRecord rec) old ∨ rec.contentBytes = old.contentBytes))

/-! ## What a load accepts -/

/-- A record that was loaded is the one asked for, and its content file has its content. -/
theorem load_eq_ok {id : ArtifactId} {gen : ArtifactGeneration}
    (h : load H dir id gen = .ok (.ok old)) :
    dir[binPath id gen]? = some old.contentBytes ∧ FitsContent H old ∧ old.id = id ∧
      old.generation = gen := by
  obtain ⟨file, r, bin, -, -, hbin, rfl, hid, hgen, hfits⟩ := files_of_load h
  exact ⟨hbin, hfits, hid, hgen⟩

/-- A load looks at two files only. -/
theorem load_congr {id : ArtifactId} {gen : ArtifactGeneration}
    (hmeta : dir'[metaPath id gen]? = dir[metaPath id gen]?)
    (hbin : dir'[binPath id gen]? = dir[binPath id gen]?) :
    load H dir' id gen = load H dir id gen := by
  unfold load
  rw [hmeta, hbin]

/-! ## The new metadata over some content -/

/-- INTERNAL: the metadata that is loaded is that of the reread record, whatever its content. -/
theorem sameMetadata_wire {k : CompilationKey} (hk : k.fields = sortFields rec.key.fields)
    (x : PersistedRecord) (bin : Bytes) :
    SameMetadata { wireRecord rec k with contentBytes := bin } x ↔
      SameMetadata (rereadRecord rec) x := by
  have hkey : (k == x.key) = true ↔ (rec.key == x.key) = true := by
    rw [CompilationKey.beq_iff, CompilationKey.beq_iff, hk]
    exact (sortFields_perm _).congr_left _
  constructor
  · rintro ⟨hid, hgen, hk', hdesc, hinv, hsup⟩
    exact ⟨hid, hgen, hkey.mp hk', hdesc, hinv, hsup⟩
  · rintro ⟨hid, hgen, hk', hdesc, hinv, hsup⟩
    exact ⟨hid, hgen, hkey.mpr hk', hdesc, hinv, hsup⟩

/-- A load in the directory returns one of the two records. -/
def Returns (H : Bytes → Digest) (dir : Directory) (old rec : PersistedRecord) : Prop :=
  ∃ loaded, load H dir rec.id rec.generation = .ok (.ok loaded) ∧
    (SameRecord loaded old ∨ SameRecord loaded rec)

/-- What a load returns in a directory with the new metadata and some content. -/
theorem returns_iff {bin : Bytes} (hsize : (encodeMeta H rec).length < sizeMod)
    (hmeta : dir[metaPath rec.id rec.generation]? = some (encodeMeta H rec))
    (hbin : dir[binPath rec.id rec.generation]? = some bin) :
    Returns H dir old rec ↔
      (rec.descriptor.contentDigest = .zero ∨ H bin = rec.descriptor.contentDigest) ∧
        (rereadRecord rec).id = rec.id ∧ (rereadRecord rec).generation = rec.generation ∧
        (SameMetadata (rereadRecord rec) old ∧ bin = old.contentBytes ∨
          SameMetadata (rereadRecord rec) rec ∧ bin = rec.contentBytes) := by
  obtain ⟨k, hk, hload⟩ := load_of_files hsize hmeta hbin
  have hsame : ∀ x, SameRecord { wireRecord rec k with contentBytes := bin } x ↔
      SameMetadata (rereadRecord rec) x ∧ bin = x.contentBytes := by
    intro x
    rw [← sameMetadata_wire hk x bin]
    exact ⟨fun h => ⟨h.toSameMetadata, h.content⟩, fun h => ⟨h.1, h.2⟩⟩
  unfold Returns
  simp only [hload, Except.ok.injEq, loadContent_some_iff]
  constructor
  · rintro ⟨loaded, ⟨hfits, hid, hgen, rfl⟩, hcase⟩
    rw [hsame, hsame] at hcase
    exact ⟨hfits, hid, hgen, hcase⟩
  · rintro ⟨hfits, hid, hgen, hcase⟩
    rw [← hsame, ← hsame] at hcase
    exact ⟨_, ⟨hfits, hid, hgen, rfl⟩, hcase⟩

/-! ## The steps of a store -/

/-- Where a store may stop: at the old files, at the new metadata over the old content, and at the
new files. -/
theorem exec_storeFileSteps (dir : Directory) (rec : PersistedRecord) :
    ∃ dir₂ dir₄, exec fileStep dir ((storeFileSteps H rec).take 2) = some dir₂ ∧
      exec fileStep dir (storeFileSteps H rec) = some dir₄ ∧
      dir₂[metaPath rec.id rec.generation]? = some (encodeMeta H rec) ∧
      dir₂[binPath rec.id rec.generation]? = dir[binPath rec.id rec.generation]? ∧
      dir₄[metaPath rec.id rec.generation]? = some (encodeMeta H rec) ∧
      dir₄[binPath rec.id rec.generation]? = some rec.contentBytes ∧
      ∀ steps, steps <+: storeFileSteps H rec → ∃ dir', exec fileStep dir steps = some dir' ∧
        ∃ d ∈ [dir, dir₂, dir₄],
          dir'[metaPath rec.id rec.generation]? = d[metaPath rec.id rec.generation]? ∧
          dir'[binPath rec.id rec.generation]? = d[binPath rec.id rec.generation]? := by
  have hmt := metaPath_ne_tmpPath rec.id rec.generation
  have hbt := binPath_ne_tmpPath rec.id rec.generation
  have hmb := metaPath_ne_binPath rec.id rec.id rec.generation rec.generation
  obtain ⟨dir₂, hmeta, hmeta₂, hother₂⟩ :=
    atomicWriteBytes_spec dir (metaPath rec.id rec.generation) (encodeMeta H rec)
  obtain ⟨dir₄, hbin, hbin₄, hother₄⟩ :=
    atomicWriteBytes_spec dir₂ (binPath rec.id rec.generation) rec.contentBytes
  have hexec₂ : exec fileStep dir ((storeFileSteps H rec).take 2) = some dir₂ :=
    exec_cons.mpr ⟨_, rfl, exec_singleton.mpr hmeta⟩
  have hexec₃ : exec fileStep dir ((storeFileSteps H rec).take 3) =
      some (writeTmp dir₂ (binPath rec.id rec.generation) rec.contentBytes) :=
    exec_append.mpr ⟨dir₂, hexec₂, exec_singleton.mpr rfl⟩
  have hexec₄ : exec fileStep dir ((storeFileSteps H rec).take 3 ++
      [.rename (binPath rec.id rec.generation)]) = some dir₄ :=
    exec_append.mpr ⟨_, hexec₃, exec_singleton.mpr hbin⟩
  refine ⟨dir₂, dir₄, hexec₂, hexec₄, hmeta₂, hother₂ _ hmb.symm (hbt _), ?_, hbin₄, ?_⟩
  · rw [hother₄ _ hmb (hmt _), hmeta₂]
  intro steps hsteps
  obtain ⟨n, hn, rfl⟩ : ∃ n ≤ 4, steps = (storeFileSteps H rec).take n :=
    ⟨steps.length, hsteps.length_le, List.prefix_iff_eq_take.mp hsteps⟩
  match n, hn with
  | 0, _ => exact ⟨dir, rfl, dir, by simp, rfl, rfl⟩
  | 1, _ =>
      exact ⟨_, rfl, dir, by simp, getElem?_writeTmp_of_ne _ _ (hmt _),
        getElem?_writeTmp_of_ne _ _ (hbt _)⟩
  | 2, _ => exact ⟨dir₂, hexec₂, dir₂, by simp, rfl, rfl⟩
  | 3, _ =>
      exact ⟨_, hexec₃, dir₂, by simp, getElem?_writeTmp_of_ne _ _ (hmt _),
        getElem?_writeTmp_of_ne _ _ (hbt _)⟩
  | 4, _ => exact ⟨dir₄, hexec₄, dir₄, by simp, rfl, rfl⟩

/-- The steps are those of `store`. -/
theorem store_eq_exec {root : Bytes} (hroot : root ≠ []) :
    exec fileStep dir (storeFileSteps H rec) = some (store H root dir rec).2 := by
  obtain ⟨dir₂, hmeta, -⟩ :=
    atomicWriteBytes_spec dir (metaPath rec.id rec.generation) (encodeMeta H rec)
  obtain ⟨dir₄, hbin, -⟩ :=
    atomicWriteBytes_spec dir₂ (binPath rec.id rec.generation) rec.contentBytes
  rw [store, if_neg hroot]
  simp only [hmeta, hbin]
  exact exec_cons.mpr ⟨_, rfl, exec_cons.mpr ⟨_, hmeta, exec_cons.mpr ⟨_, rfl,
    exec_singleton.mpr hbin⟩⟩⟩

/-! ## All or nothing -/

/-- INTERNAL: the property in terms of the two places where a store may stop. -/
theorem allOrNothing_iff_returns (hold : load H dir rec.id rec.generation = .ok (.ok old)) :
    ∃ dir₂ dir₄, dir₂[metaPath rec.id rec.generation]? = some (encodeMeta H rec) ∧
      dir₂[binPath rec.id rec.generation]? = some old.contentBytes ∧
      dir₄[metaPath rec.id rec.generation]? = some (encodeMeta H rec) ∧
      dir₄[binPath rec.id rec.generation]? = some rec.contentBytes ∧
      (AllOrNothing H dir old rec ↔ Returns H dir₂ old rec ∧ Returns H dir₄ old rec) := by
  obtain ⟨dir₂, dir₄, hexec₂, hexec₄, hmeta₂, hbin₂, hmeta₄, hbin₄, hsteps⟩ :=
    exec_storeFileSteps (H := H) dir rec
  rw [(load_eq_ok hold).1] at hbin₂
  refine ⟨dir₂, dir₄, hmeta₂, hbin₂, hmeta₄, hbin₄, ?_, ?_⟩
  · intro h
    refine ⟨?_, ?_⟩
    · obtain ⟨d, loaded, hd, hreturns⟩ := h _ (List.take_prefix 2 _)
      rw [hexec₂, Option.some_inj] at hd
      subst hd
      exact ⟨loaded, hreturns⟩
    · obtain ⟨d, loaded, hd, hreturns⟩ := h _ List.prefix_rfl
      rw [hexec₄, Option.some_inj] at hd
      subst hd
      exact ⟨loaded, hreturns⟩
  · rintro ⟨h₂, h₄⟩ steps hprefix
    obtain ⟨dir', hexec, d, hd, hmeta, hbin⟩ := hsteps steps hprefix
    have hreturns : Returns H d old rec := by
      simp only [List.mem_cons, List.not_mem_nil, or_false] at hd
      obtain rfl | rfl | rfl := hd
      · exact ⟨old, hold, .inl ⟨.refl old, rfl⟩⟩
      · exact h₂
      · exact h₄
    unfold Returns at hreturns
    rw [← load_congr hmeta hbin] at hreturns
    obtain ⟨loaded, hload⟩ := hreturns
    exact ⟨dir', loaded, hexec, hload⟩

/-- A store that is cut short leaves the old record or the new one exactly when it changes one of
the two files only.
SOURCE: Persistence.cpp:17-39, 128-156 -/
theorem allOrNothing_iff (hold : load H dir rec.id rec.generation = .ok (.ok old))
    (hsize : (encodeMeta H rec).length < sizeMod) :
    AllOrNothing H dir old rec ↔ ChangesOneFile H old rec := by
  obtain ⟨-, hfits, hid, hgen⟩ := load_eq_ok hold
  obtain ⟨dir₂, dir₄, hmeta₂, hbin₂, hmeta₄, hbin₄, hreturns⟩ := allOrNothing_iff_returns hold
  rw [hreturns, returns_iff hsize hmeta₂ hbin₂, returns_iff hsize hmeta₄ hbin₄]
  unfold ChangesOneFile
  constructor
  · rintro ⟨⟨-, -, -, hcut⟩, hnew, -, -, hwhole⟩
    obtain hsame | ⟨hsame, -⟩ := hwhole
    · exact .inl hsame
    · refine .inr ⟨hsame, hnew, ?_⟩
      obtain ⟨hcut, -⟩ | ⟨-, hcontent⟩ := hcut
      · exact .inl hcut
      · exact .inr hcontent.symm
  · -- the old content has the digest of the old metadata
    have hdigest (hsame : SameMetadata (rereadRecord rec) old) :
        rec.descriptor.contentDigest = .zero ∨
          H old.contentBytes = rec.descriptor.contentDigest := by
      have heq : (rereadRecord rec).descriptor.contentDigest = old.descriptor.contentDigest :=
        congrArg ArtifactDescriptor.contentDigest hsame.descriptor
      rw [show rec.descriptor.contentDigest = old.descriptor.contentDigest from heq]
      exact hfits
    rintro (⟨hsame, hcontent⟩ | ⟨hsame, hnew, hone⟩)
    · have hid' := hsame.id.trans hid
      have hgen' := hsame.generation.trans hgen
      refine ⟨⟨hdigest hsame, hid', hgen', .inl ⟨hsame, rfl⟩⟩, ?_, hid', hgen',
        .inl ⟨hsame, hcontent⟩⟩
      rw [hcontent]
      exact hdigest hsame
    · refine ⟨⟨?_, hsame.id, hsame.generation, ?_⟩, hnew, hsame.id, hsame.generation,
        .inr ⟨hsame, rfl⟩⟩
      · obtain hold' | hcontent := hone
        · exact hdigest hold'
        · rw [← hcontent]
          exact hnew
      · obtain hold' | hcontent := hone
        · exact .inl ⟨hold', rfl⟩
        · exact .inr ⟨hsame, hcontent.symm⟩

/-! ## Two records of one artifact -/

/-- What has been stored is loaded, when its digest and its names survive. -/
theorem load_store {root : Bytes} (hroot : root ≠ []) (hsize : (encodeMeta H rec).length < sizeMod)
    (hfits : FitsContent H rec) (hid : (rereadRecord rec).id = rec.id)
    (hgen : (rereadRecord rec).generation = rec.generation) :
    ∃ loaded, load H (store H root dir rec).2 rec.id rec.generation = .ok (.ok loaded) ∧
      SameMetadata (rereadRecord rec) loaded ∧ loaded.contentBytes = rec.contentBytes := by
  obtain ⟨dir', hstore, hmeta, hbin⟩ := store_spec H hroot dir rec
  obtain ⟨k, hk, hload⟩ := load_of_files hsize hmeta hbin
  refine ⟨{ wireRecord rec k with contentBytes := rec.contentBytes }, ?_,
    (sameMetadata_wire hk _ _).mp (.refl _), rfl⟩
  rw [hstore, hload]
  exact congrArg Except.ok (loadContent_some_iff.mpr ⟨hfits, hid, hgen, rfl⟩)

/-- A digest function that tells contents of different lengths apart. -/
def lengthDigest (b : Bytes) : Digest := ⟨List.replicate 32 (UInt8.ofNat (b.length + 1)), by simp⟩

/-- A record with default fields and some content. -/
def contentRecord (b : Bytes) : PersistedRecord where
  descriptor := { contentDigest := lengthDigest b }
  contentBytes := b

/-- INTERNAL: the metadata of the two records fits. -/
theorem length_encodeMeta_contentRecord :
    (encodeMeta lengthDigest (contentRecord [])).length < sizeMod ∧
      (encodeMeta lengthDigest (contentRecord [0])).length < sizeMod :=
  ⟨(length_encodeMeta_le _ _).trans_lt (by decide +kernel),
    (length_encodeMeta_le _ _).trans_lt (by decide +kernel)⟩

/-- The directory after a store of the empty content. -/
def storedDirectory : Directory := (store lengthDigest [46] ∅ (contentRecord [])).2

/-- The stored record is loaded. -/
theorem load_storedDirectory :
    ∃ old, load lengthDigest storedDirectory {} 0 = .ok (.ok old) ∧
      SameMetadata (rereadRecord (contentRecord [])) old ∧ old.contentBytes = [] := by
  have hzero : wireU64 0 = 0 :=
    (wireU64_eq_iff 0).mpr (.inl ⟨by decide, exact_of_lt (by decide)⟩)
  exact load_store (by decide) length_encodeMeta_contentRecord.1 (.inr rfl) rfl hzero

/-- Storing the same record again is all or nothing. -/
theorem allOrNothing_iff_again :
    ∃ old, load lengthDigest storedDirectory {} 0 = .ok (.ok old) ∧
      AllOrNothing lengthDigest storedDirectory old (contentRecord []) := by
  obtain ⟨old, hold, hsame, hcontent⟩ := load_storedDirectory
  have hone : ChangesOneFile lengthDigest old (contentRecord []) := .inl ⟨hsame, hcontent.symm⟩
  have hiff : AllOrNothing lengthDigest storedDirectory old (contentRecord []) ↔
      ChangesOneFile lengthDigest old (contentRecord []) :=
    allOrNothing_iff hold length_encodeMeta_contentRecord.1
  exact ⟨old, hold, hiff.mpr hone⟩

/-- A record with another content: between the renames the load is an error. -/
theorem not_allOrNothing :
    ∃ old, load lengthDigest storedDirectory {} 0 = .ok (.ok old) ∧
      ¬ AllOrNothing lengthDigest storedDirectory old (contentRecord [0]) := by
  obtain ⟨old, hold, -, hempty⟩ := load_storedDirectory
  refine ⟨old, hold, fun hall => ?_⟩
  obtain ⟨dir₂, dir₄, hmeta₂, hbin₂, -, -, hreturns⟩ :=
    @allOrNothing_iff_returns _ _ _ (contentRecord [0]) hold
  have hcut := (returns_iff length_encodeMeta_contentRecord.2 hmeta₂ hbin₂).mp (hreturns.mp hall).1
  rw [hempty] at hcut
  have hmixed := hcut.1
  revert hmixed
  decide

end CompilationFabric.Analysis
