import CompilationFabric.Interface.CanonicalRecord
import CompilationFabric.Model.ReaderCalls

/-!
# The grammar of key records

`parseKeyFields` accepts the records of its grammar and nothing else: a count, then for every
field its tag, the length of its value and the value, with pairwise different valid tags and no
bytes left over.  The fields may stand in any order; only `makeCanonicalFields` sorts them.

`parseEntries_spec` is completeness of the loop.  Soundness is `parseEntries_eq_ok`, an induction
over the count: each round takes the bytes of one field from what is in front of the reader.
-/

set_option autoImplicit false

namespace CompilationFabric.Analysis

open CompilationFabric.Interface
open CompilationFabric.Library
open CompilationFabric.Model

/-! ## The grammar -/

/-- A field: its tag, the length of its value as 64 bits and the value. -/
def fieldBytes (f : KeyFieldEntry) : Bytes :=
  f.tag :: Positional.toBytes 8 f.value.length ++ f.value

/-- The bytes are the record of these fields.
SOURCE: Canonical.hpp:148-165 -/
structure RecordOf (b : Bytes) (fields : List KeyFieldEntry) : Prop where
  count : fields.length ≤ 4096
  tags : ∀ f ∈ fields, 1 ≤ f.tag.toNat ∧ f.tag.toNat ≤ 57
  distinct : (fields.map KeyFieldEntry.tag).Nodup
  bytes : b = Positional.toBytes 4 fields.length ++ fields.flatMap fieldBytes

/-- The valid tags are those of the fields. -/
theorem validTag_iff (t : UInt8) : validTag t ↔ 1 ≤ t.toNat ∧ t.toNat ≤ 57 := by
  have hmax : kMaxKeyField.toNat = 57 := by decide
  have hzero : (0 : UInt8).toNat = 0 := rfl
  unfold validTag
  rw [not_or, gt_iff_lt, UInt8.lt_iff_toNat_lt, hmax, ← UInt8.toNat_inj, hzero]
  omega

/-- INTERNAL: a field takes nine bytes and its value. -/
@[simp] theorem length_fieldBytes (f : KeyFieldEntry) :
    (fieldBytes f).length = 9 + f.value.length := by
  unfold fieldBytes
  simp only [List.cons_append, List.length_cons, List.length_append, Positional.length_toBytes]
  omega

/-- INTERNAL: an entry with a valid tag takes nine bytes and its value. -/
theorem length_entryBytes {f : KeyFieldEntry} (htag : validTag f.tag) :
    (entryBytes f).length = 9 + f.value.length := by
  rw [entryBytes_of_valid htag]
  simp [CanonicalWriter.u8]
  omega

/-- A value is no longer than the record it is in. -/
theorem length_value_le {enc : KeyFieldEntry → Bytes} {fields : List KeyFieldEntry}
    {f : KeyFieldEntry} (hf : f ∈ fields) (hlen : (enc f).length = 9 + f.value.length) :
    f.value.length ≤ (fields.flatMap enc).length := by
  have hle : ([f].flatMap enc).length ≤ (fields.flatMap enc).length :=
    ((List.singleton_sublist.mpr hf).flatMap enc).length_le
  rw [List.flatMap_singleton] at hle
  omega

/-- The fields as they are written are those of the grammar: no length is cut off. -/
theorem flatMap_entryBytes {fields : List KeyFieldEntry} (htags : ∀ f ∈ fields, validTag f.tag)
    (hlen : ∀ f ∈ fields, f.value.length < 2 ^ 64) :
    fields.flatMap entryBytes = fields.flatMap fieldBytes := by
  apply List.flatMap_congr
  intro f hf
  have hnat : (UInt64.ofNat f.value.length).toNat = f.value.length := by
    rw [UInt64.toNat_ofNat', Nat.mod_eq_of_lt (hlen f hf)]
  rw [entryBytes_of_valid (htags f hf), CanonicalWriter.u64_eq, hnat]
  rfl

/-! ## Soundness -/

variable {pre bs : Bytes} {rd : CanonicalReader}

/-- A length-prefixed value that fits is followed by a rest. -/
theorem exists_entryBytes {tag : UInt8} {vlen : UInt64} {tl : Bytes} (htag : validTag tag)
    (hfits : vlen.toNat ≤ tl.length) :
    ∃ value tl', CanonicalWriter.u8 tag ++ (CanonicalWriter.u64 vlen ++ tl) =
      entryBytes ⟨tag, value⟩ ++ tl' := by
  refine ⟨tl.take vlen.toNat, tl.drop vlen.toNat, ?_⟩
  rw [entryBytes_of_valid (e := ⟨tag, _⟩) htag, List.length_take_of_le hfits, UInt64.ofNat_toNat]
  simp only [List.append_assoc, List.take_append_drop]

/-- A field that is decoded stands in front of the reader. -/
theorem parseEntry_eq_ok {out : List KeyFieldEntry} {f : KeyFieldEntry}
    (hsize : (pre ++ bs).length + 8 < sizeMod)
    (h : parseEntry (CanonicalReader.after pre bs) out = .ok (f, rd)) :
    ∃ tl, bs = entryBytes f ++ tl ∧ rd = CanonicalReader.after (pre ++ entryBytes f) tl := by
  obtain ⟨value, tl, tag, hbytes, htag, hnew⟩ : ∃ value tl tag, bs = entryBytes ⟨tag, value⟩ ++ tl ∧
      validTag tag ∧ tag ∉ out.map KeyFieldEntry.tag := by
    unfold parseEntry at h
    split at h
    · cases h
    · next tag rd₁ htag =>
      obtain ⟨tl₁, rfl, rfl⟩ := u8_eq_some (by omega) htag
      split at h
      · cases h
      · next hvalid =>
        split at h
        · cases h
        · next hnew =>
          split at h
          · cases h
          · next vlen rd₂ hvlen =>
            obtain ⟨tl₂, rfl, rfl⟩ := u64_eq_some (by simpa using hsize) hvlen
            split at h
            · cases h
            · next hfits =>
              rw [CanonicalReader.remaining_after, not_lt] at hfits
              obtain ⟨value, tl, hbytes⟩ := exists_entryBytes hvalid hfits
              exact ⟨value, tl, tag, hbytes, hvalid, by simpa using hnew⟩
  subst hbytes
  rw [parseEntry_spec htag hnew (by omega)] at h
  cases h
  exact ⟨tl, rfl, rfl⟩

/-- INTERNAL: the loop takes as many fields as it counts, by induction on the count. -/
theorem parseEntries_eq_ok {n : ℕ} {out fields : List KeyFieldEntry}
    (hsize : (pre ++ bs).length + 8 < sizeMod)
    (h : parseEntries n (CanonicalReader.after pre bs) out = .ok (fields, rd)) :
    ∃ fs tl, fields = out ++ fs ∧ fs.length = n ∧ bs = fs.flatMap entryBytes ++ tl ∧
      rd = CanonicalReader.after (pre ++ fs.flatMap entryBytes) tl := by
  induction n generalizing pre bs out with
  | zero =>
      rw [parseEntries, Except.ok.injEq, Prod.mk.injEq] at h
      obtain ⟨rfl, rfl⟩ := h
      exact ⟨[], bs, by simp⟩
  | succ n ih =>
      rw [parseEntries] at h
      cases hentry : parseEntry (CanonicalReader.after pre bs) out with
      | error message => simp [hentry, bind, Except.bind] at h
      | ok read =>
          obtain ⟨f, rd₁⟩ := read
          simp only [hentry, bind, Except.bind] at h
          obtain ⟨tl₁, rfl, rfl⟩ := parseEntry_eq_ok hsize hentry
          obtain ⟨fs, tl, rfl, hn, rfl, rfl⟩ := ih (by simpa using hsize) h
          exact ⟨f :: fs, tl, by simp, by simp [hn], by simp, by simp⟩

/-! ## Acceptance -/

/-- What an accepted record consists of. -/
theorem exists_entries {b : Bytes} {fields : List KeyFieldEntry}
    (hsize : b.length + 8 < sizeMod) (h : parseKeyFields b = .ok fields) :
    ∃ count : UInt32, count.toNat ≤ 4096 ∧ fields.length = count.toNat ∧
      b = CanonicalWriter.u32 count ++ fields.flatMap entryBytes := by
  unfold parseKeyFields at h
  split at h
  · cases h
  · next count rd hcount =>
    have hsize₀ : ([] ++ b).length + 4 < sizeMod := by
      rw [List.nil_append]
      omega
    rw [← CanonicalReader.after_nil] at hcount
    obtain ⟨tl, rfl, rfl⟩ := u32_eq_some hsize₀ hcount
    split at h
    · cases h
    · next hrange =>
      rw [List.nil_append] at h
      cases hloop : parseEntries count.toNat
          (CanonicalReader.after (CanonicalWriter.u32 count) tl) [] with
      | error message => simp [hloop, bind, Except.bind] at h
      | ok read =>
          obtain ⟨out, rd⟩ := read
          simp only [hloop, bind, Except.bind] at h
          obtain ⟨fs, tl', rfl, hn, rfl, rfl⟩ := parseEntries_eq_ok (by simpa using hsize) hloop
          rw [CanonicalReader.hasRemaining_after] at h
          split at h
          · cases h
          · next hrest =>
            cases h
            have htl : tl' = [] := by simpa using hrest
            have h4096 : (4096 : UInt32).toNat = 4096 := rfl
            rw [gt_iff_lt, UInt32.lt_iff_toNat_lt, h4096, not_lt] at hrange
            refine ⟨count, hrange, by simpa using hn, ?_⟩
            rw [htl, List.append_nil]

/-- A record is accepted exactly if it is one of the grammar, and then its fields are returned
as they stand.
SOURCE: Canonical.cpp:176-204 -/
theorem parseKeyFields_iff {b : Bytes} (hb : b.length ≤ maxObjectSize)
    (fields : List KeyFieldEntry) : parseKeyFields b = .ok fields ↔ RecordOf b fields := by
  have hsize := add_lt_sizeMod hb
  simp only [sizeMod] at hsize
  constructor
  · intro h
    obtain ⟨hvalid, hdistinct⟩ := parseKeyFields_ok h
    obtain ⟨count, hcount, hn, rfl⟩ := exists_entries hsize h
    have hlen : ∀ f ∈ fields, f.value.length < 2 ^ 64 := by
      intro f hf
      have hle := length_value_le hf (length_entryBytes (hvalid f hf))
      rw [List.length_append] at hsize
      omega
    refine ⟨hn ▸ hcount, fun f hf => (validTag_iff f.tag).mp (hvalid f hf), hdistinct, ?_⟩
    rw [flatMap_entryBytes hvalid hlen, CanonicalWriter.u32_eq, hn]
  · rintro ⟨hcount, htags, hdistinct, rfl⟩
    have hvalid : ∀ f ∈ fields, validTag f.tag := fun f hf => (validTag_iff f.tag).mpr (htags f hf)
    have hlen : ∀ f ∈ fields, f.value.length < 2 ^ 64 := by
      intro f hf
      have hle := length_value_le hf (length_fieldBytes f)
      rw [List.length_append] at hsize
      omega
    have hnat : (UInt32.ofNat fields.length).toNat = fields.length := by
      rw [UInt32.toNat_ofNat']
      omega
    have hbytes : Positional.toBytes 4 fields.length ++ fields.flatMap fieldBytes =
        CanonicalWriter.u32 (.ofNat fields.length) ++ fields.flatMap entryBytes := by
      rw [CanonicalWriter.u32_eq, hnat, flatMap_entryBytes hvalid hlen]
    rw [hbytes] at hsize ⊢
    apply parseKeyFields_of_entries hcount hvalid hdistinct
    simp only [sizeMod]
    omega

/-- Two fields that stand in descending order. -/
def unsortedFields : List KeyFieldEntry := [⟨2, [7]⟩, ⟨1, []⟩]

/-- They are accepted, in the order in which they stand. -/
theorem parseKeyFields_iff_unsorted :
    parseKeyFields [0, 0, 0, 2, 2, 0, 0, 0, 0, 0, 0, 0, 1, 7, 1, 0, 0, 0, 0, 0, 0, 0, 0] =
      .ok unsortedFields :=
  (parseKeyFields_iff (by decide) _).mpr ⟨by decide, by decide, by decide, by decide⟩

end CompilationFabric.Analysis
