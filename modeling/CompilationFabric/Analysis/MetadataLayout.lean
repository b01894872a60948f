import CompilationFabric.Interface.RecordFile

/-!
# The layout of a metadata file

`decodeMeta` reads the fields of a metadata file from its front and the checksum from its end, and
does not ask where the fields stop.  Behind the JSON it wants 32 bytes, which it then leaves alone:
they may be any bytes, the checksum may begin among them, and anything may lie between them and the
checksum.  So a file is accepted in one layout only when the JSON happens to be followed by the 32
bytes of the descriptor's content digest and then by the checksum.
-/

set_option autoImplicit false

namespace CompilationFabric.Analysis

open CompilationFabric.Interface
open CompilationFabric.Model

variable {H : Bytes → Digest} {b kb js rest : Bytes} {k : CompilationKey} {j : Json}
  {d : ArtifactDescriptor} {r : PersistedRecord}

/-! ## The property -/

/-- The layout of a metadata file: magic, version, key record and JSON descriptor, the content digest
of the descriptor, and the checksum of all that, with nothing behind it. -/
def MetaLayout (H : Bytes → Digest) (b : Bytes) (r : PersistedRecord) : Prop :=
  ∃ kb js j, CompilationKey.fromCanonicalBytes kb = some r.key ∧ Json.parse js = some j ∧
    ArtifactDescriptor.fromJson j = some r.descriptor ∧
    b = metaFrame kb js ++ r.descriptor.contentDigest.bytes ++
      (H (metaFrame kb js ++ r.descriptor.contentDigest.bytes)).bytes

/-- The bytes are accepted in their one layout or not at all. -/
def OneLayout (H : Bytes → Digest) (b : Bytes) : Prop :=
  ∀ r, decodeMeta H b = .ok (.ok r) → MetaLayout H b r

/-- Behind a key record and a JSON descriptor that decode, with a good checksum at the end of the
file, there are the descriptor's content digest and the checksum. -/
def FitsTrailer (H : Bytes → Digest) (b : Bytes) : Prop :=
  ∀ kb js rest k j d, b = metaFrame kb js ++ rest → 32 ≤ rest.length →
    CompilationKey.fromCanonicalBytes kb = some k → Json.parse js = some j →
    ArtifactDescriptor.fromJson j = some d → storedChecksum b = (H (checkedPayload b)).bytes →
    rest.length = 64 ∧ rest.take 32 = d.contentDigest.bytes

/-! ## Every byte string -/

/-- The fields of a metadata file end where they end, whatever follows. -/
theorem metaFrame_append_inj {kb' js' rest' : Bytes}
    (hsize : (metaFrame kb js ++ rest).length < sizeMod)
    (h : metaFrame kb js ++ rest = metaFrame kb' js' ++ rest') :
    kb = kb' ∧ js = js' ∧ rest = rest' := by
  rw [metaFrame_append] at hsize
  rw [metaFrame_append, metaFrame_append] at h
  have hfields := List.append_cancel_left (List.append_cancel_left h)
  simp only [List.length_append] at hsize
  obtain ⟨hkb, hfields⟩ := string_append_inj (by simp only [List.length_append]; omega) hfields
  obtain ⟨hjs, hrest⟩ := string_append_inj (by simp only [List.length_append]; omega) hfields
  exact ⟨hkb, hjs, hrest⟩

/-- The last 64 bytes of a file in its layout. -/
theorem layout_of_fits (hb : b = metaFrame kb js ++ rest) (hlen : rest.length = 64)
    (hdigest : rest.take 32 = d.contentDigest.bytes)
    (hcheck : storedChecksum b = (H (checkedPayload b)).bytes) :
    b = metaFrame kb js ++ d.contentDigest.bytes ++
      (H (metaFrame kb js ++ d.contentDigest.bytes)).bytes := by
  have hpayload : checkedPayload b = metaFrame kb js ++ d.contentDigest.bytes := by
    rw [checkedPayload, hb, List.length_append, hlen,
      show (metaFrame kb js).length + 64 - 32 = (metaFrame kb js).length + 32 by omega,
      List.take_length_add_append, hdigest]
  have hsplit : b = checkedPayload b ++ storedChecksum b := (List.take_append_drop _ _).symm
  rw [hpayload, hcheck, hpayload] at hsplit
  exact hsplit

/-- A byte string that fits in memory is accepted in one layout just when its trailer fits.
SOURCE: Persistence.cpp:78-108 -/
theorem oneLayout_iff (hsize : b.length < 2 ^ 63) : OneLayout H b ↔ FitsTrailer H b := by
  have hsize' : b.length + 32 < sizeMod := by
    unfold sizeMod
    omega
  constructor
  · intro h kb js rest k j d hb hlen hk hj hd hcheck
    obtain ⟨kb', js', j', -, hj', hd', hlayout⟩ :=
      h _ (decodeMeta_frame H hlen hb (by omega) hcheck hk hj hd)
    rw [hb, List.append_assoc] at hlayout
    obtain ⟨rfl, rfl, rfl⟩ := metaFrame_append_inj (by rw [← hb]; omega) hlayout
    constructor
    · rw [List.length_append, Digest.size, Digest.size]
    · exact List.take_left' (Digest.size _)
  · intro h r hr
    obtain ⟨kb, js, rest, j, hb, hlen, hcheck, hk, hj, hd, -⟩ := frame_of_decodeMeta hsize' hr
    obtain ⟨hlen', hdigest⟩ := h kb js rest _ j _ hb hlen hk hj hd hcheck
    exact ⟨kb, js, j, hk, hj, hd, layout_of_fits hb hlen' hdigest hcheck⟩

/-! ## Trailers that do not fit -/

/-- A key record and a descriptor with a trailer and its checksum. -/
def checkedFile (H : Bytes → Digest) (kb js trailer : Bytes) : Bytes :=
  metaFrame kb js ++ trailer ++ (H (metaFrame kb js ++ trailer)).bytes

/-- Any trailer at all is accepted, the empty one included. -/
theorem decodeMeta_checkedFile (trailer : Bytes)
    (hsize : (checkedFile H kb js trailer).length < sizeMod)
    (hk : CompilationKey.fromCanonicalBytes kb = some k) (hj : Json.parse js = some j)
    (hd : ArtifactDescriptor.fromJson j = some d) :
    decodeMeta H (checkedFile H kb js trailer) = .ok (.ok (decodedRecord k d j)) := by
  refine decodeMeta_frame H (by simp [Digest.size]) (List.append_assoc ..) hsize ?_ hk hj hd
  rw [checkedFile, storedChecksum_append, checkedPayload_append]

/-- And it is not the layout, unless the trailer is the content digest. -/
theorem not_oneLayout_checkedFile {trailer : Bytes} (htrailer : trailer.length ≠ 32)
    (hsize : (checkedFile H kb js trailer).length < 2 ^ 63)
    (hk : CompilationKey.fromCanonicalBytes kb = some k) (hj : Json.parse js = some j)
    (hd : ArtifactDescriptor.fromJson j = some d) : ¬ OneLayout H (checkedFile H kb js trailer) := by
  intro h
  obtain ⟨kb', js', j', -, -, -, hlayout⟩ := h _ (decodeMeta_checkedFile trailer
    (hsize.trans (by unfold sizeMod; omega)) hk hj hd)
  have hlen := congrArg List.length hlayout
  rw [checkedFile, List.append_assoc, List.append_assoc] at hlayout
  obtain ⟨rfl, rfl, hrest⟩ := metaFrame_append_inj (by
    rw [← List.append_assoc]
    exact hsize.trans (by unfold sizeMod; omega)) hlayout
  have hlen := congrArg List.length hrest
  simp only [List.length_append, Digest.size] at hlen
  omega

/-- A key record without fields, and a JSON object without members, decode. -/
theorem decodes_empty : ∃ k j d, CompilationKey.fromCanonicalBytes [0, 0, 0, 0] = some k ∧
    Json.parse (ascii "\x7b\x7d") = some j ∧ ArtifactDescriptor.fromJson j = some d ∧
    d.contentDigest = .zero ∧ d.id = {} ∧ d.generation = 0 := by
  obtain ⟨k, hk⟩ := Option.isSome_iff_exists.mp
    (show (CompilationKey.fromCanonicalBytes [0, 0, 0, 0]).isSome = true by decide +kernel)
  obtain ⟨d, hd, hdigest⟩ := (Option.any_eq_true _ _).mp
    (show ((Json.parse (ascii "\x7b\x7d")).bind ArtifactDescriptor.fromJson).any
      (fun d => decide (d.contentDigest = .zero ∧ d.id = {} ∧ d.generation = 0)) = true by decide +kernel)
  obtain ⟨j, hj, hd⟩ := Option.bind_eq_some_iff.mp hd
  exact ⟨k, j, d, hk, hj, hd, of_decide_eq_true hdigest⟩

/-- A digest function that adds up the bytes. -/
def sumDigest (b : Bytes) : Digest := ⟨List.replicate 32 (b.foldl (· + ·) 0), by simp⟩

/-- A file in the layout. -/
theorem oneLayout_empty :
    (∃ r, decodeMeta sumDigest (checkedFile sumDigest [0, 0, 0, 0] (ascii "\x7b\x7d")
      Digest.zero.bytes) = .ok (.ok r)) ∧
    OneLayout sumDigest (checkedFile sumDigest [0, 0, 0, 0] (ascii "\x7b\x7d")
      Digest.zero.bytes) := by
  obtain ⟨k, j, d, hk, hj, hd, hdigest, -⟩ := decodes_empty
  refine ⟨⟨_, decodeMeta_checkedFile _ (by decide +kernel) hk hj hd⟩, ?_⟩
  refine (oneLayout_iff (by decide +kernel)).mpr fun kb js rest k' j' d' hb _ _ hj' hd' _ => ?_
  rw [checkedFile, List.append_assoc] at hb
  obtain ⟨-, rfl, rfl⟩ := metaFrame_append_inj (by decide +kernel) hb
  rw [hj, Option.some_inj] at hj'
  subst hj'
  rw [hd, Option.some_inj] at hd'
  subst hd'
  exact ⟨by decide +kernel, hdigest ▸ List.take_left' (Digest.size _)⟩

/-- Files without a content digest, and with a byte of garbage behind it. -/
theorem not_oneLayout :
    ¬ OneLayout sumDigest (checkedFile sumDigest [0, 0, 0, 0] (ascii "\x7b\x7d") []) ∧
    ¬ OneLayout sumDigest (checkedFile sumDigest [0, 0, 0, 0] (ascii "\x7b\x7d")
      (Digest.zero.bytes ++ [7])) := by
  obtain ⟨k, j, d, hk, hj, hd, -⟩ := decodes_empty
  exact ⟨not_oneLayout_checkedFile (by decide) (by decide +kernel) hk hj hd,
    not_oneLayout_checkedFile (by decide) (by decide +kernel) hk hj hd⟩

end CompilationFabric.Analysis
