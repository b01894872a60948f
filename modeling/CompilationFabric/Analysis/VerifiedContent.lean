import CompilationFabric.Analysis.MetadataLayout
import CompilationFabric.Model.StoreCalls

/-!
# Content that is loaded

A load compares the digest of the content with the one that the JSON gives, and there are two ways
around it.  A digest of zero is not compared, and zero is what a descriptor has without a digest
that parses; and the copy of the digest behind the JSON is not compared with anything.  So what is
loaded is verified when neither happens in the files (`DigestsAgree`).
-/

set_option autoImplicit false

namespace CompilationFabric.Analysis

open CompilationFabric.Interface
open CompilationFabric.Model

variable {H : Bytes → Digest} {dir : Directory} {id : ArtifactId} {gen : ArtifactGeneration}
  {file bin : Bytes}

/-! ## The property -/

/-- The 32 bytes of a metadata file behind its JSON. -/
def RawContentDigest (file raw : Bytes) : Prop :=
  ∃ kb js rest, file = metaFrame kb js ++ rest ∧ 32 ≤ rest.length ∧ raw = rest.take 32

/-- What a load returns is what was asked for, and its content has the digest that the metadata
holds, in both places. -/
def LoadsVerified (H : Bytes → Digest) (dir : Directory) (id : ArtifactId)
    (gen : ArtifactGeneration) : Prop :=
  ∀ record, load H dir id gen = .ok (.ok record) →
    record.id = id ∧ record.generation = gen ∧
      H record.contentBytes = record.descriptor.contentDigest ∧
        ∃ file, dir[metaPath id gen]? = some file ∧
          RawContentDigest file (H record.contentBytes).bytes

/-- A metadata file of the artifact whose checksum is good. -/
structure DecodesTo (H : Bytes → Digest) (file rest : Bytes) (d : ArtifactDescriptor) : Prop where
  checksum : storedChecksum file = (H (checkedPayload file)).bytes
  length : 32 ≤ rest.length
  fields : ∃ kb js k j, file = metaFrame kb js ++ rest ∧
    CompilationKey.fromCanonicalBytes kb = some k ∧ Json.parse js = some j ∧
      ArtifactDescriptor.fromJson j = some d

/-- In files that fit together, a JSON digest of zero is the digest of the content, and the bytes
behind the JSON are those of its digest. -/
def DigestsAgree (H : Bytes → Digest) (dir : Directory) (id : ArtifactId)
    (gen : ArtifactGeneration) : Prop :=
  ∀ file rest d bin, dir[metaPath id gen]? = some file → dir[binPath id gen]? = some bin →
    DecodesTo H file rest d → d.id = id → d.generation = gen →
      (d.contentDigest = .zero → H bin = .zero ∧ rest.take 32 = Digest.zero.bytes) ∧
      (d.contentDigest ≠ .zero → H bin = d.contentDigest → rest.take 32 = d.contentDigest.bytes)

/-! ## Every pair of files -/

/-- INTERNAL: a file and its checksum fit into the address space. -/
theorem add_lt_of_lt {n : ℕ} (h : n < 2 ^ 63) : n + 32 < sizeMod := by
  unfold sizeMod
  omega

/-- INTERNAL: the copy of the digest stands behind the JSON. -/
theorem RawContentDigest.eq {kb js rest raw : Bytes} (h : RawContentDigest file raw)
    (hfile : file = metaFrame kb js ++ rest) (hsize : file.length < 2 ^ 63) :
    raw = rest.take 32 := by
  obtain ⟨kb', js', rest', hfile', -, rfl⟩ := h
  rw [hfile] at hfile'
  obtain ⟨-, -, rfl⟩ := metaFrame_append_inj
    (by rw [← hfile]; exact (Nat.le_add_right _ 32).trans_lt (add_lt_of_lt hsize)) hfile'
  rfl

/-- Files that fit together are loaded, when the content has the digest or there is none. -/
theorem exists_load {rest : Bytes} {d : ArtifactDescriptor} (hsize : file.length < 2 ^ 63)
    (hmeta : dir[metaPath id gen]? = some file) (hbin : dir[binPath id gen]? = some bin)
    (hdecodes : DecodesTo H file rest d) (hid : d.id = id) (hgen : d.generation = gen)
    (hdigest : d.contentDigest = .zero ∨ H bin = d.contentDigest) :
    ∃ record, load H dir id gen = .ok (.ok record) ∧ record.descriptor = d ∧
      record.contentBytes = bin := by
  obtain ⟨hcheck, hlength, kb, js, k, j, hfile, hk, hj, hd⟩ := hdecodes
  have hdecode := decodeMeta_frame H hlength hfile
    ((Nat.le_add_right _ 32).trans_lt (add_lt_of_lt hsize)) hcheck hk hj hd
  have hsame : ¬ ((decodedRecord k d j).id ≠ id ∨ (decodedRecord k d j).generation ≠ gen) := by
    rintro (h | h)
    · exact h hid
    · exact h hgen
  have hpasses : ¬ ((decodedRecord k d j).descriptor.contentDigest ≠ .zero ∧
      H bin ≠ (decodedRecord k d j).descriptor.contentDigest) := by
    rintro ⟨hzero, hne⟩
    exact hdigest.elim hzero hne
  refine ⟨{ decodedRecord k d j with contentBytes := bin }, ?_, rfl, rfl⟩
  rw [load_of_meta H hmeta, hdecode, hbin]
  change Except.ok (loadContent H (decodedRecord k d j) (some bin) id gen) = _
  rw [loadContent, if_neg hpasses, if_neg hsame]

/-- What is loaded comes from files that fit together. -/
theorem decodesTo_of_load {record : PersistedRecord}
    (hsize : ∀ file, dir[metaPath id gen]? = some file → file.length < 2 ^ 63)
    (h : load H dir id gen = .ok (.ok record)) :
    ∃ file rest, dir[metaPath id gen]? = some file ∧
      dir[binPath id gen]? = some record.contentBytes ∧ DecodesTo H file rest record.descriptor ∧
        RawContentDigest file (rest.take 32) ∧ record.descriptor.id = id ∧
          record.descriptor.generation = gen ∧ record.id = id ∧ record.generation = gen ∧
            (record.descriptor.contentDigest = .zero ∨
              H record.contentBytes = record.descriptor.contentDigest) := by
  obtain ⟨file, r, bin, hmeta, hdecode, hbin, rfl, hid, hgen, hdigest⟩ := files_of_load h
  obtain ⟨kb, js, rest, j, hfile, hlength, hcheck, hk, hj, hd, hr⟩ :=
    frame_of_decodeMeta (add_lt_of_lt (hsize file hmeta)) hdecode
  have hid' : r.id = r.descriptor.id := congrArg PersistedRecord.id hr
  have hgen' : r.generation = r.descriptor.generation := congrArg PersistedRecord.generation hr
  exact ⟨file, rest, hmeta, hbin, ⟨hcheck, hlength, kb, js, _, j, hfile, hk, hj, hd⟩,
    ⟨kb, js, rest, hfile, hlength, rfl⟩, hid'.symm.trans hid, hgen'.symm.trans hgen, hid, hgen,
    hdigest⟩

/-- A load returns verified content only, if and only if in the files of the artifact a digest of
zero is that of the content and the copy of the digest is the digest.
SOURCE: Persistence.cpp:78-156, Descriptor.cpp:400-421 -/
theorem loadsVerified_iff
    (hsize : ∀ file, dir[metaPath id gen]? = some file → file.length < 2 ^ 63) :
    LoadsVerified H dir id gen ↔ DigestsAgree H dir id gen := by
  constructor
  · intro h file rest d bin hmeta hbin hdecodes hid hgen
    obtain ⟨kb, js, k, j, hfile, -⟩ := hdecodes.fields
    have hraw : d.contentDigest = .zero ∨ H bin = d.contentDigest →
        H bin = d.contentDigest ∧ rest.take 32 = d.contentDigest.bytes := by
      intro hdigest
      obtain ⟨record, hload, rfl, rfl⟩ :=
        exists_load (hsize file hmeta) hmeta hbin hdecodes hid hgen hdigest
      obtain ⟨-, -, hcontent, file', hmeta', hraw⟩ := h record hload
      rw [hmeta] at hmeta'
      obtain rfl := Option.some.inj hmeta'
      exact ⟨hcontent, by rw [← hraw.eq hfile (hsize file hmeta), hcontent]⟩
    refine ⟨fun hzero => ?_, fun _ hdigest => (hraw (.inr hdigest)).2⟩
    rw [← hzero]
    exact hraw (.inl hzero)
  · intro h record hload
    obtain ⟨file, rest, hmeta, hbin, hdecodes, hraw, hid, hgen, hid', hgen', hdigest⟩ :=
      decodesTo_of_load hsize hload
    obtain ⟨hzero, hnonzero⟩ := h file rest _ _ hmeta hbin hdecodes hid hgen
    by_cases hnone : record.descriptor.contentDigest = .zero
    · obtain ⟨hcontent, hcopy⟩ := hzero hnone
      refine ⟨hid', hgen', hcontent.trans hnone.symm, file, hmeta, ?_⟩
      rw [hcontent, ← hcopy]
      exact hraw
    · have hcontent := hdigest.resolve_left hnone
      refine ⟨hid', hgen', hcontent, file, hmeta, ?_⟩
      rw [hcontent, ← hnonzero hnone hcontent]
      exact hraw

/-! ## A descriptor without a digest -/

/-- Metadata whose JSON has no members, a copy of a digest of zero, and no content. -/
def undigestedFile (H : Bytes → Digest) : Bytes :=
  checkedFile H [0, 0, 0, 0] (ascii "\x7b\x7d") Digest.zero.bytes

def undigestedDir (H : Bytes → Digest) : Directory :=
  ((∅ : Directory).insert (metaPath {} 0) (undigestedFile H)).insert (binPath {} 0) []

/-- INTERNAL: the two files of the artifact. -/
theorem getElem?_undigestedDir (H : Bytes → Digest) :
    (undigestedDir H)[metaPath {} 0]? = some (undigestedFile H) ∧
      (undigestedDir H)[binPath {} 0]? = some [] := by
  have hne : compare (binPath {} 0) (metaPath {} 0) ≠ .eq := fun heq =>
    metaPath_ne_binPath {} {} 0 0 (Std.LawfulEqOrd.compare_eq_iff_eq.mp heq).symm
  constructor
  · rw [undigestedDir, Std.ExtTreeMap.getElem?_insert, if_neg hne,
      Std.ExtTreeMap.getElem?_insert_self]
  · exact Std.ExtTreeMap.getElem?_insert_self

/-- INTERNAL: the metadata is short. -/
theorem length_undigestedFile (H : Bytes → Digest) : (undigestedFile H).length < 2 ^ 63 := by
  rw [undigestedFile, checkedFile, List.length_append, List.length_append, Digest.size, Digest.size]
  have hframe : (metaFrame [0, 0, 0, 0] (ascii "\x7b\x7d")).length = 38 := by decide +kernel
  omega

/-- It is loaded, whatever its content hashes to. -/
theorem exists_load_undigested (H : Bytes → Digest) :
    ∃ record, load H (undigestedDir H) {} 0 = .ok (.ok record) ∧
      record.descriptor.contentDigest = .zero ∧ record.contentBytes = [] := by
  obtain ⟨k, j, d, hk, hj, hd, hdigest, hid, hgen⟩ := decodes_empty
  obtain ⟨hmeta, hbin⟩ := getElem?_undigestedDir H
  have hdecodes : DecodesTo H (undigestedFile H) (Digest.zero.bytes ++
      (H (metaFrame [0, 0, 0, 0] (ascii "\x7b\x7d") ++ Digest.zero.bytes)).bytes) d := by
    refine ⟨?_, ?_, _, _, k, j, List.append_assoc .., hk, hj, hd⟩
    · rw [undigestedFile, checkedFile, storedChecksum_append, checkedPayload_append]
    · rw [List.length_append, Digest.size]
      exact Nat.le_add_right _ _
  obtain ⟨record, hload, rfl, hcontent⟩ := exists_load (length_undigestedFile H) hmeta hbin hdecodes
    hid hgen (.inl hdigest)
  exact ⟨record, hload, hdigest, hcontent⟩

/-- Content that hashes to zero is verified. -/
theorem loadsVerified_undigested :
    (∃ record, load sumDigest (undigestedDir sumDigest) {} 0 = .ok (.ok record)) ∧
      LoadsVerified sumDigest (undigestedDir sumDigest) {} 0 := by
  obtain ⟨hmeta, hbin⟩ := getElem?_undigestedDir sumDigest
  obtain ⟨record, hload, -⟩ := exists_load_undigested sumDigest
  have hsize : ∀ file, (undigestedDir sumDigest)[metaPath {} 0]? = some file →
      file.length < 2 ^ 63 := by
    intro file hfile
    rw [hmeta] at hfile
    exact Option.some.inj hfile ▸ length_undigestedFile _
  refine ⟨⟨record, hload⟩, (loadsVerified_iff hsize).mpr ?_⟩
  intro file rest d bin hfile hcontent hdecodes _ _
  rw [hmeta] at hfile
  obtain rfl := Option.some.inj hfile
  rw [hbin] at hcontent
  obtain rfl := Option.some.inj hcontent
  obtain ⟨kb, js, k, j, hframe, -, hj, hd⟩ := hdecodes.fields
  rw [undigestedFile, checkedFile, List.append_assoc] at hframe
  obtain ⟨-, rfl, rfl⟩ := metaFrame_append_inj (by decide +kernel) hframe
  -- an object without members has no digest
  have hzero : d.contentDigest = .zero := by
    obtain ⟨-, j', d', -, hj', hd', hzero, -⟩ := decodes_empty
    obtain rfl := Option.some.inj (hj.symm.trans hj')
    obtain rfl := Option.some.inj (hd.symm.trans hd')
    exact hzero
  exact ⟨fun _ => ⟨rfl, List.take_left' (Digest.size _)⟩, fun hne => absurd hzero hne⟩

/-- Any other content is not, and is loaded as well. -/
theorem not_loadsVerified_undigested {H : Bytes → Digest} (h : H [] ≠ .zero) :
    ¬ LoadsVerified H (undigestedDir H) {} 0 := by
  intro hall
  obtain ⟨record, hload, hdigest, hcontent⟩ := exists_load_undigested H
  obtain ⟨-, -, hverified, -⟩ := hall record hload
  rw [hcontent, hdigest] at hverified
  exact h hverified

/-- Not every load returns verified content. -/
theorem not_loadsVerified :
    ¬ ∀ (H : Bytes → Digest) (dir : Directory) (id : ArtifactId) (gen : ArtifactGeneration),
      LoadsVerified H dir id gen := fun hall =>
  not_loadsVerified_undigested (H := fun _ => ⟨List.replicate 32 1, rfl⟩) (by decide)
    (hall _ _ _ _)

end CompilationFabric.Analysis
