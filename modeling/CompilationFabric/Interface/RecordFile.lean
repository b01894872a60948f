import CompilationFabric.Interface.DescriptorSize
import CompilationFabric.Model.Persistence

/-!
# Records through the store

What `decodeMeta` makes of `encodeMeta`, and what is in the directory after a `store`.

The metadata decodes for every record, to the key in tag order, the two flags and the
descriptor that its JSON keeps (`decodeMeta_encodeMeta`).  The files of different artifacts
have different names, and a metadata file, a content file and a temporary file never share
one.
-/

set_option autoImplicit false

namespace CompilationFabric.Interface

open CompilationFabric.Library
open CompilationFabric.Model
open CompilationFabric.Model.Json

-- kept folded, or elaboration runs it on a descriptor's members
attribute [local irreducible] Printable

/-! ## The metadata object -/

/-- INTERNAL: no key of a record comes twice. -/
theorem keys_record (r : PersistedRecord) : (r.members.map fun f => ascii f.1).Nodup := by
  simp only [PersistedRecord.members, ArtifactDescriptor.members, List.cons_append,
    List.nil_append, List.map]
  decide +kernel

/-- A record can be printed. -/
theorem printable_record (r : PersistedRecord) : Printable (ofFields r.members) := by
  refine printable_ofFields ?_
  intro f hf
  rcases List.mem_append.mp hf with hf | hf
  · exact printable_artifact_members r.descriptor f hf
  · simp only [List.mem_cons, List.not_mem_nil, or_false] at hf
    rcases hf with rfl | rfl
    · exact printable_boolean _
    · exact printable_boolean _

/-- The descriptor of a record is read back as it crosses the wire. -/
theorem fromJson_reread_record (r : PersistedRecord) :
    ArtifactDescriptor.fromJson (reread (ofFields r.members)) =
      some (wireArtifact r.descriptor) :=
  fromJson_reread_artifact r.descriptor (keys_record r)

/-- A flag of a record is read back. -/
theorem get_reread_record {r : PersistedRecord} {key : String} {b : Bool}
    (h : (key, Json.boolean b) ∈ r.members) :
    (((reread (ofFields r.members)).get key).map asBool).getD false = b := by
  rw [get_reread_ofFields (keys_record r) h]
  rfl

/-! ## The wrapper -/

/-- A key's canonical bytes decode to the key in tag order. -/
theorem fromCanonicalBytes_sorted {k : CompilationKey}
    (hsize : (makeCanonicalFields k.fields).length < sizeMod) :
    ∃ k', CompilationKey.fromCanonicalBytes (makeCanonicalFields k.fields) = some k' ∧
      k'.fields = sortFields k.fields := by
  have hparse := parseKeyFields_makeCanonicalFields k.validTags k.uniqueTags hsize
  unfold CompilationKey.fromCanonicalBytes
  split
  · next fields heq =>
    rw [hparse, Except.ok.injEq] at heq
    exact ⟨_, rfl, heq.symm⟩
  · next message heq =>
    rw [hparse] at heq
    simp at heq

/-- The checksum is what stands last. -/
theorem storedChecksum_append (payload : Bytes) (d : Digest) :
    storedChecksum (payload ++ d.bytes) = d.bytes := by
  rw [storedChecksum, List.length_append, d.size, Nat.add_sub_cancel, List.drop_left]

/-- The payload is what stands in front of the checksum. -/
theorem checkedPayload_append (payload : Bytes) (d : Digest) :
    checkedPayload (payload ++ d.bytes) = payload := by
  rw [checkedPayload, List.length_append, d.size, Nat.add_sub_cancel, List.take_left]

/-- The fields in front of the content digest. -/
def metaFrame (kb js : Bytes) : Bytes :=
  CanonicalWriter.string kMetaMagic ++ (CanonicalWriter.u32 kVersion ++
    (CanonicalWriter.string kb ++ CanonicalWriter.string js))

/-- INTERNAL: the fields of a metadata file, one behind the other. -/
theorem metaFrame_append (kb js rest : Bytes) :
    metaFrame kb js ++ rest = CanonicalWriter.string kMetaMagic ++ (CanonicalWriter.u32 kVersion ++
      (CanonicalWriter.string kb ++ (CanonicalWriter.string js ++ rest))) := by
  simp only [metaFrame, List.append_assoc]

/-- The record of a key and a metadata object. -/
def decodedRecord (k : CompilationKey) (desc : ArtifactDescriptor) (j : Json) : PersistedRecord where
  id := desc.id
  generation := desc.generation
  key := k
  descriptor := desc
  invalidated := ((j.get "invalidated").map asBool).getD false
  superseded := ((j.get "superseded").map asBool).getD false

/-- A metadata file with a good checksum decodes field by field. -/
theorem decodeMeta_frame (H : Bytes → Digest) {kb js rest : Bytes} {k : CompilationKey} {j : Json}
    {desc : ArtifactDescriptor} (hlen : 32 ≤ rest.length) {file : Bytes}
    (hfile : file = metaFrame kb js ++ rest) (hsize : file.length < sizeMod)
    (hcheck : storedChecksum file = (H (checkedPayload file)).bytes)
    (hkey : CompilationKey.fromCanonicalBytes kb = some k) (hparse : Json.parse js = some j)
    (hdesc : ArtifactDescriptor.fromJson j = some desc) :
    decodeMeta H file = .ok (.ok (decodedRecord k desc j)) := by
  rw [metaFrame_append, ← List.take_append_drop 32 rest] at hfile
  have hsize' := hfile ▸ hsize
  -- the reader in front of each field, with what is still to come
  have hmagic := CanonicalReader.str_after [] _ hsize'
  have hver := CanonicalReader.u32_after (CanonicalWriter.string kMetaMagic) _ hsize'
  have hkb := CanonicalReader.str_after (CanonicalWriter.string kMetaMagic ++
    CanonicalWriter.u32 kVersion) _ (s := kb) (by rw [List.append_assoc]; exact hsize')
  have hjs := CanonicalReader.str_after (CanonicalWriter.string kMetaMagic ++
    CanonicalWriter.u32 kVersion ++ CanonicalWriter.string kb) _ (s := js)
    (by simp only [List.append_assoc]; exact hsize')
  have hcd := CanonicalReader.rawBlob_after (CanonicalWriter.string kMetaMagic ++
    CanonicalWriter.u32 kVersion ++ CanonicalWriter.string kb ++ CanonicalWriter.string js)
    (rest.take 32) (rest.drop 32) (by simp only [List.append_assoc]; exact hsize')
    (List.length_take_of_le hlen)
  rw [List.nil_append, CanonicalReader.after_nil, ← hfile] at hmagic
  have hremaining : ¬ (CanonicalWriter.string kb ++ (CanonicalWriter.string js ++
      (rest.take 32 ++ rest.drop 32))).length < 32 := by
    simp only [List.length_append, List.length_take, List.length_drop]
    omega
  rw [decodeMeta]
  simp only [hmagic, hver, hkb, hjs, hcd, hcheck, hkey, hparse, hdesc, bind, Except.bind, pure,
    Except.pure, CanonicalReader.remaining_after, if_neg hremaining, ne_eq, not_true_eq_false,
    if_false, orError]
  rfl

/-- INTERNAL: a computation succeeds when both of its parts do. -/
theorem bind_eq_ok {ε α β : Type} {x : Except ε α} {f : α → Except ε β} {b : β}
    (h : x >>= f = .ok b) : ∃ a, x = .ok a ∧ f a = .ok b := by
  cases x with
  | error e => cases h
  | ok a => exact ⟨a, rfl, h⟩

/-- INTERNAL: a mapped computation succeeds when it does. -/
theorem map_eq_ok {ε α β : Type} {x : Except ε α} {f : α → β} {b : β} (h : x.map f = .ok b) :
    ∃ a, x = .ok a ∧ f a = b := by
  cases x with
  | error e => cases h
  | ok a =>
      cases h
      exact ⟨a, rfl, rfl⟩

/-- INTERNAL: a field is there when no error is raised. -/
theorem orError_eq_ok {α : Type} {field : Option α} {message : String} {a : α} :
    orError field message = .ok a ↔ field = some a := by
  cases field <;> simp [orError]

/-- What decodes has the fields in front of at least 32 bytes, and a good checksum at its end. -/
theorem frame_of_decodeMeta {H : Bytes → Digest} {file : Bytes} {r : PersistedRecord}
    (hsize : file.length + 32 < sizeMod) (h : decodeMeta H file = .ok (.ok r)) :
    ∃ kb js rest j, file = metaFrame kb js ++ rest ∧ 32 ≤ rest.length ∧
      storedChecksum file = (H (checkedPayload file)).bytes ∧
      CompilationKey.fromCanonicalBytes kb = some r.key ∧ Json.parse js = some j ∧
      ArtifactDescriptor.fromJson j = some r.descriptor ∧
      r = decodedRecord r.key r.descriptor j := by
  rw [decodeMeta, ← CanonicalReader.after_nil] at h
  obtain ⟨field₁, hmagic, h⟩ := bind_eq_ok h
  split at h
  · cases h
  next magic rd₁ =>
  obtain ⟨tl₁, rfl, rfl⟩ := str_eq_some (by simp; omega) hmagic
  split at h
  · cases h
  next hmagic' =>
  split at h
  · cases h
  next ver rd₂ hver =>
  obtain ⟨tl₂, rfl, rfl⟩ := u32_eq_some (by simp at hsize ⊢; omega) hver
  split at h
  · cases h
  next hver' =>
  split at h
  · cases h
  next hremaining =>
  split at h
  · cases h
  next hcheck =>
  obtain ⟨field₂, hkb, h⟩ := bind_eq_ok h
  split at h
  · cases h
  next kb rd₃ =>
  obtain ⟨tl₃, rfl, rfl⟩ := str_eq_some (by simp at hsize ⊢; omega) hkb
  split at h
  · cases h
  next k hk =>
  obtain ⟨field₃, hjs, h⟩ := bind_eq_ok h
  split at h
  · cases h
  next js rd₄ =>
  obtain ⟨tl₄, rfl, rfl⟩ := str_eq_some (by simp at hsize ⊢; omega) hjs
  have h := Except.ok.inj h
  obtain ⟨j, hj, h⟩ := bind_eq_ok h
  obtain ⟨desc, hdesc, h⟩ := bind_eq_ok h
  obtain ⟨⟨cd, rd₅⟩, hcd, h⟩ := bind_eq_ok h
  have hr := Except.ok.inj h
  have hrest : 32 ≤ tl₄.length := by
    have hfits : ¬ (CanonicalReader.after ([] ++ CanonicalWriter.string magic ++
        CanonicalWriter.u32 ver ++ CanonicalWriter.string kb ++ CanonicalWriter.string js)
        tl₄).overruns 32 := by
      intro hover
      rw [CanonicalReader.rawBlob, if_pos hover, orError_eq_ok] at hcd
      cases hcd
    exact le_length_of_not_overruns (by simp at hsize ⊢; omega) hfits
  refine ⟨kb, js, tl₄, j, ?_, hrest, not_not.mp hcheck, ?_, orError_eq_ok.mp hj, ?_, ?_⟩
  · rw [metaFrame_append, not_not.mp hmagic', not_not.mp hver']
  · rw [hk, ← hr]
  · rw [orError_eq_ok.mp hdesc, ← hr]
  · rw [← hr]
    rfl

/-- The record that comes back, under its key in tag order and without its content. -/
def wireRecord (r : PersistedRecord) (k : CompilationKey) : PersistedRecord where
  id := r.descriptor.id
  generation := wireU64 r.descriptor.generation
  key := k
  descriptor := wireArtifact r.descriptor
  invalidated := r.invalidated
  superseded := r.superseded

/-- INTERNAL: the names of a record are short. -/
theorem namesSize_record (r : PersistedRecord) : 2 + namesSize r.members ≤ 3000 := by
  simp only [namesSize, PersistedRecord.members, ArtifactDescriptor.members, List.cons_append,
    List.nil_append, List.map]
  decide +kernel

/-- A bound on the length of a metadata file. -/
theorem length_encodeMeta_le (H : Bytes → Digest) (r : PersistedRecord) :
    (encodeMeta H r).length ≤
      30000 + (makeCanonicalFields r.key.fields).length + artifactSize r.descriptor := by
  have hjson := length_dump_ofFields_le (namesSize_record r)
  have hvalues := valuesSize_artifact_le r.descriptor
  have hflags : valuesSize [("invalidated", .boolean r.invalidated),
      ("superseded", .boolean r.superseded)] ≤ 10 := by
    cases r.invalidated <;> cases r.superseded <;> decide
  have hmembers : valuesSize r.members = valuesSize r.descriptor.members +
      valuesSize [("invalidated", .boolean r.invalidated),
        ("superseded", .boolean r.superseded)] := valuesSize_append _ _
  have hmagic : kMetaMagic.length = 4 := rfl
  have hdigest := r.descriptor.contentDigest.size
  have hchecksum := (H (metaPayload r)).size
  rw [encodeMeta, List.length_append, hchecksum, metaPayload]
  simp only [List.length_append, CanonicalWriter.length_string, CanonicalWriter.length_u32,
    hmagic, hdigest]
  omega

/-- Metadata decodes.
SOURCE: Persistence.cpp:55-108 -/
theorem decodeMeta_encodeMeta (H : Bytes → Digest) (r : PersistedRecord)
    (hsize : (encodeMeta H r).length < sizeMod) :
    ∃ k, decodeMeta H (encodeMeta H r) = .ok (.ok (wireRecord r k)) ∧
      k.fields = sortFields r.key.fields := by
  have hfile : encodeMeta H r = CanonicalWriter.string kMetaMagic ++
      (CanonicalWriter.u32 kVersion ++ (CanonicalWriter.string (makeCanonicalFields r.key.fields) ++
        (CanonicalWriter.string (ofFields r.members).dump ++
          (r.descriptor.contentDigest.bytes ++ (H (metaPayload r)).bytes)))) := by
    rw [encodeMeta]
    conv_lhs => enter [1]; rw [metaPayload]
    simp only [List.append_assoc]
  have hkeysize : (makeCanonicalFields r.key.fields).length < sizeMod := by
    rw [hfile] at hsize
    simp only [List.length_append, CanonicalWriter.length_string] at hsize
    omega
  obtain ⟨k, hk, hfields⟩ := fromCanonicalBytes_sorted hkeysize
  have hcheck : storedChecksum (encodeMeta H r) =
      (H (checkedPayload (encodeMeta H r))).bytes := by
    rw [encodeMeta, storedChecksum_append, checkedPayload_append]
  refine ⟨k, ?_, hfields⟩
  rw [← metaFrame_append] at hfile
  rw [decodeMeta_frame H (by simp [Digest.size]) hfile hsize hcheck hk
    (parse_dump (printable_record r)) (fromJson_reread_record r), decodedRecord]
  have hinvalidated : ("invalidated", Json.boolean r.invalidated) ∈ r.members := by
    simp [PersistedRecord.members]
  have hsuperseded : ("superseded", Json.boolean r.superseded) ∈ r.members := by
    simp [PersistedRecord.members]
  rw [get_reread_record hinvalidated, get_reread_record hsuperseded]
  rfl

/-! ## File names -/

/-- The suffixes of the three kinds of file, by their last byte. -/
theorem suffixes_getLast : (ascii ".meta").getLast? = some 97 ∧
    (ascii ".bin").getLast? = some 110 ∧ (ascii ".tmp").getLast? = some 112 := by
  decide +kernel

/-- INTERNAL: texts that end in different bytes differ. -/
theorem append_ne_of_getLast {a b x y : Bytes} {c d : UInt8} (hx : x.getLast? = some c)
    (hy : y.getLast? = some d) (hne : c ≠ d) : a ++ x ≠ b ++ y := by
  intro heq
  have hlast := congrArg List.getLast? heq
  rw [List.getLast?_append, List.getLast?_append, hx, hy, Option.some_or, Option.some_or,
    Option.some_inj] at hlast
  exact hne hlast

/-- A metadata file, a content file and a temporary file end differently. -/
theorem metaPath_ne_binPath (i j : ArtifactId) (g h : ArtifactGeneration) :
    metaPath i g ≠ binPath j h :=
  append_ne_of_getLast suffixes_getLast.1 suffixes_getLast.2.1 (by decide)

/-- A metadata file is no temporary file. -/
theorem metaPath_ne_tmpPath (i : ArtifactId) (g : ArtifactGeneration) (dest : Bytes) :
    metaPath i g ≠ tmpPath dest :=
  append_ne_of_getLast suffixes_getLast.1 suffixes_getLast.2.2 (by decide)

/-- A content file is no temporary file. -/
theorem binPath_ne_tmpPath (i : ArtifactId) (g : ArtifactGeneration) (dest : Bytes) :
    binPath i g ≠ tmpPath dest :=
  append_ne_of_getLast suffixes_getLast.2.1 suffixes_getLast.2.2 (by decide)

/-- The part of a file name that names the artifact names one artifact only. -/
theorem recordName_inj {i j : ArtifactId} {g h : ArtifactGeneration}
    (heq : recordName i g = recordName j h) : i = j ∧ g = h := by
  have hlen : ∀ id : ArtifactId, id.toHex.length = 32 := fun id => Id128.length_toHex id.raw
  rw [recordName, recordName, List.append_assoc, List.append_assoc] at heq
  obtain ⟨hid, hrest⟩ := List.append_inj heq (by rw [hlen, hlen])
  refine ⟨TypedId.toHex_injective hid, UInt64.toNat_inj.mp ?_⟩
  exact DecimalText.natText_injective (List.append_cancel_left hrest)

/-- Different artifacts have different metadata files. -/
theorem metaPath_inj {i j : ArtifactId} {g h : ArtifactGeneration} :
    metaPath i g = metaPath j h ↔ i = j ∧ g = h := by
  constructor
  · exact fun heq => recordName_inj (List.append_cancel_right heq)
  · rintro ⟨rfl, rfl⟩
    rfl

/-- Different artifacts have different content files. -/
theorem binPath_inj {i j : ArtifactId} {g h : ArtifactGeneration} :
    binPath i g = binPath j h ↔ i = j ∧ g = h := by
  constructor
  · exact fun heq => recordName_inj (List.append_cancel_right heq)
  · rintro ⟨rfl, rfl⟩
    rfl

/-! ## The directory -/

/-- The temporary file has what is written. -/
theorem getElem?_writeTmp_self (dir : Directory) (dest bytes : Bytes) :
    (writeTmp dir dest bytes)[tmpPath dest]? = some bytes :=
  Std.ExtTreeMap.getElem?_insert_self

/-- Other files stay. -/
theorem getElem?_writeTmp_of_ne (dir : Directory) {dest name : Bytes} (bytes : Bytes)
    (h : name ≠ tmpPath dest) : (writeTmp dir dest bytes)[name]? = dir[name]? := by
  have hne : compare (tmpPath dest) name ≠ .eq := fun heq =>
    h (Std.LawfulEqOrd.compare_eq_iff_eq.mp heq).symm
  rw [writeTmp, Std.ExtTreeMap.getElem?_insert, if_neg hne]

/-- Other files stay. -/
theorem getElem?_erase_of_ne (dir : Directory) {gone name : Bytes} (h : name ≠ gone) :
    (dir.erase gone)[name]? = dir[name]? := by
  have hne : compare gone name ≠ .eq := fun heq =>
    h (Std.LawfulEqOrd.compare_eq_iff_eq.mp heq).symm
  rw [Std.ExtTreeMap.getElem?_erase, if_neg hne]

/-- A rename moves the temporary file over the destination and touches nothing else. -/
theorem rename_eq_some {dir dir' : Directory} {dest : Bytes} (h : rename dir dest = some dir') :
    ∃ bytes, dir[tmpPath dest]? = some bytes ∧ dir'[dest]? = some bytes ∧
      ∀ name, name ≠ dest → name ≠ tmpPath dest → dir'[name]? = dir[name]? := by
  obtain ⟨bytes, htmp, rfl⟩ := Option.map_eq_some_iff.mp h
  refine ⟨bytes, htmp, Std.ExtTreeMap.getElem?_insert_self, fun name hdest hname => ?_⟩
  have hne : compare dest name ≠ .eq := fun heq =>
    hdest (Std.LawfulEqOrd.compare_eq_iff_eq.mp heq).symm
  rw [Std.ExtTreeMap.getElem?_insert, if_neg hne, getElem?_erase_of_ne dir hname]

/-- An atomic write puts the bytes under the destination and touches only it and its
temporary name. -/
theorem atomicWriteBytes_spec (dir : Directory) (dest bytes : Bytes) :
    ∃ dir', atomicWriteBytes dir dest bytes = some dir' ∧ dir'[dest]? = some bytes ∧
      ∀ name, name ≠ dest → name ≠ tmpPath dest → dir'[name]? = dir[name]? := by
  obtain ⟨dir', hrename⟩ : ∃ dir', rename (writeTmp dir dest bytes) dest = some dir' := by
    rw [rename, getElem?_writeTmp_self]
    exact ⟨_, rfl⟩
  obtain ⟨bytes', htmp, hdest, hother⟩ := rename_eq_some hrename
  rw [getElem?_writeTmp_self, Option.some_inj] at htmp
  refine ⟨dir', hrename, htmp ▸ hdest, fun name hne hne' => ?_⟩
  rw [hother name hne hne', getElem?_writeTmp_of_ne dir bytes hne']

/-- A store leaves the record's two files. -/
theorem store_spec (H : Bytes → Digest) {root : Bytes} (hroot : root ≠ []) (dir : Directory)
    (r : PersistedRecord) :
    ∃ dir', store H root dir r = (.ok (), dir') ∧
      dir'[metaPath r.id r.generation]? = some (encodeMeta H r) ∧
      dir'[binPath r.id r.generation]? = some r.contentBytes := by
  obtain ⟨dir₁, hmeta, hmeta', -⟩ :=
    atomicWriteBytes_spec dir (metaPath r.id r.generation) (encodeMeta H r)
  obtain ⟨dir₂, hbin, hbin', hother⟩ :=
    atomicWriteBytes_spec dir₁ (binPath r.id r.generation) r.contentBytes
  refine ⟨dir₂, ?_, ?_, hbin'⟩
  · rw [store, if_neg hroot]
    simp only [hmeta, hbin]
  · rw [hother _ (metaPath_ne_binPath _ _ _ _) (metaPath_ne_tmpPath _ _ _), hmeta']

/-- What is loaded when there is a metadata file. -/
theorem load_of_meta (H : Bytes → Digest) {dir : Directory} {id : ArtifactId}
    {gen : ArtifactGeneration} {file : Bytes} (hmeta : dir[metaPath id gen]? = some file) :
    load H dir id gen = (decodeMeta H file).map fun parsed =>
      match parsed with
      | .error message => Err .MetadataCorrupt message
      | .ok record => loadContent H record dir[binPath id gen]? id gen := by
  unfold load loadMeta
  rw [hmeta]
  cases hdecode : decodeMeta H file with
  | error e => simp [hdecode, bind, Except.bind, Except.map]
  | ok parsed =>
      cases parsed <;> simp [hdecode, bind, Except.bind, Except.map, pure, Except.pure, Err]

/-- What a load makes of a content file that is there.
SOURCE: Persistence.cpp:146-156 -/
theorem loadContent_some_iff {H : Bytes → Digest} {m loaded : PersistedRecord} {bin : Bytes}
    {id : ArtifactId} {gen : ArtifactGeneration} :
    loadContent H m (some bin) id gen = .ok loaded ↔
      (m.descriptor.contentDigest = .zero ∨ H bin = m.descriptor.contentDigest) ∧
        m.id = id ∧ m.generation = gen ∧ loaded = { m with contentBytes := bin } := by
  simp only [loadContent]
  split
  · next hdigest =>
    constructor
    · rintro ⟨⟩
    · rintro ⟨hfits, -⟩
      exact absurd hfits (not_or.mpr hdigest)
  · next hdigest =>
    have hfits := not_and_or.mp hdigest
    rw [not_not, not_not] at hfits
    split
    · next hname =>
      constructor
      · rintro ⟨⟩
      · rintro ⟨-, hid, hgen, -⟩
        exact absurd hname (not_or.mpr ⟨not_not.mpr hid, not_not.mpr hgen⟩)
    · next hname =>
      rw [not_or, not_not, not_not] at hname
      rw [Except.ok.injEq]
      constructor
      · rintro rfl
        exact ⟨hfits, hname.1, hname.2, rfl⟩
      · rintro ⟨-, -, -, rfl⟩
        rfl

/-- A load that succeeds has found a content file whose digest is not contradicted. -/
theorem loadContent_eq_ok {H : Bytes → Digest} {r r' : PersistedRecord} {file : Option Bytes}
    {id : ArtifactId} {gen : ArtifactGeneration} (h : loadContent H r file id gen = .ok r') :
    ∃ bin, file = some bin ∧ r' = { r with contentBytes := bin } ∧ r.id = id ∧
      r.generation = gen ∧
      (r.descriptor.contentDigest = .zero ∨ H bin = r.descriptor.contentDigest) := by
  cases file with
  | none => cases h
  | some bin =>
      obtain ⟨hfits, hid, hgen, hr⟩ := loadContent_some_iff.mp h
      exact ⟨bin, rfl, hr, hid, hgen, hfits⟩

/-- The files of a record that loads, and what is checked of them. -/
theorem files_of_load {H : Bytes → Digest} {dir : Directory} {id : ArtifactId}
    {gen : ArtifactGeneration} {r' : PersistedRecord} (h : load H dir id gen = .ok (.ok r')) :
    ∃ file r bin, dir[metaPath id gen]? = some file ∧ decodeMeta H file = .ok (.ok r) ∧
      dir[binPath id gen]? = some bin ∧ r' = { r with contentBytes := bin } ∧ r.id = id ∧
        r.generation = gen ∧
          (r.descriptor.contentDigest = .zero ∨ H bin = r.descriptor.contentDigest) := by
  cases hmeta : dir[metaPath id gen]? with
  | none =>
      rw [load, hmeta] at h
      cases h
  | some file =>
      rw [load_of_meta H hmeta] at h
      obtain ⟨parsed, hdecode, hload⟩ := map_eq_ok h
      cases parsed with
      | error message => cases hload
      | ok r =>
          obtain ⟨bin, hbin, hr⟩ := loadContent_eq_ok hload
          exact ⟨file, r, bin, rfl, hdecode, hbin, hr⟩

/-- What a load finds when the metadata of a record is there, with some content. -/
theorem load_of_files {H : Bytes → Digest} {dir : Directory} {r : PersistedRecord} {bin : Bytes}
    (hsize : (encodeMeta H r).length < sizeMod)
    (hmeta : dir[metaPath r.id r.generation]? = some (encodeMeta H r))
    (hbin : dir[binPath r.id r.generation]? = some bin) :
    ∃ k, k.fields = sortFields r.key.fields ∧
      load H dir r.id r.generation =
        .ok (loadContent H (wireRecord r k) (some bin) r.id r.generation) := by
  obtain ⟨k, hdecode, hk⟩ := decodeMeta_encodeMeta H r hsize
  refine ⟨k, hk, ?_⟩
  rw [load, hmeta, hbin]
  simp only [loadMeta, hdecode, bind, Except.bind, pure, Except.pure]

end CompilationFabric.Interface
