import CompilationFabric.Interface.CanonicalRecord
import Mathlib.Data.List.Perm.Basic
import Std.Data.ExtTreeMap

/-!
# The typed compilation key

`Key.hpp` and `Key.cpp`: a key is a vector of fields with pairwise different tags, and a
setter is `put` of a canonically encoded value.  The class invariant is part of the type
here: `uniqueTags` is the source's own comment on `fields_`, and `validTags` holds because
a tag only ever comes from a `KeyField` or through `parseKeyFields`.

`operator==` compares the keys as sets of fields and `operator<` as lists of fields; for
keys whose fields are in tag order, which is what `put` keeps and what every map key in
the program is, the two agree with equality of the field lists (`beq_iff_eq_of_sorted`).
-/

set_option autoImplicit false

namespace CompilationFabric.Model

open CompilationFabric.Interface

/-! ## Field encoders -/

def encId (v : Id128) : Bytes := CanonicalWriter.u128 v

def encDigest (v : Digest) : Bytes := v.bytes

def encString (v : Bytes) : Bytes := CanonicalWriter.string v

def encU8 (v : UInt8) : Bytes := CanonicalWriter.u8 v

def encU64 (v : UInt64) : Bytes := CanonicalWriter.u64 v

/-- The count, truncated to 32 bits, and then every element.
SOURCE: Key.cpp:16-30 -/
def encList {α : Type} (enc : α → Bytes) (vs : List α) : Bytes :=
  CanonicalWriter.u32 (UInt32.ofNat vs.length) ++ vs.flatMap enc

def encShape (s : List Int64) : Bytes := encList (fun e => CanonicalWriter.u64 e.toUInt64) s

def encIds (ids : List Id128) : Bytes := encList CanonicalWriter.u128 ids

def encU64s (vs : List UInt64) : Bytes := encList CanonicalWriter.u64 vs

/-- Elements of one positive width can be told apart without the count. -/
theorem flatMap_injective {α : Type} {enc : α → Bytes} {w : ℕ} (hw : 0 < w)
    (hlen : ∀ a, (enc a).length = w) (hinj : Function.Injective enc) :
    Function.Injective (List.flatMap enc) := by
  intro xs
  induction xs with
  | nil =>
      intro ys h
      cases ys with
      | nil => rfl
      | cons y ys =>
          have hl := congrArg List.length h
          simp only [List.flatMap_nil, List.flatMap_cons, List.length_append, hlen,
            List.length_nil] at hl
          omega
  | cons x xs ih =>
      intro ys h
      cases ys with
      | nil =>
          have hl := congrArg List.length h
          simp only [List.flatMap_nil, List.flatMap_cons, List.length_append, hlen,
            List.length_nil] at hl
          omega
      | cons y ys =>
          rw [List.flatMap_cons, List.flatMap_cons] at h
          have hsplit := List.append_inj h (by rw [hlen, hlen])
          rw [hinj hsplit.1, ih hsplit.2]

/-- Lists are encoded injectively when their elements are, in one width. -/
theorem encList_injective {α : Type} {enc : α → Bytes} {w : ℕ} (hw : 0 < w)
    (hlen : ∀ a, (enc a).length = w) (hinj : Function.Injective enc) :
    Function.Injective (encList enc) := by
  intro xs ys h
  exact flatMap_injective hw hlen hinj (List.append_inj h (by simp)).2

/-- Different ids are encoded differently. -/
theorem encId_injective : Function.Injective encId := CanonicalWriter.u128_injective

/-- Different digests are encoded differently. -/
theorem encDigest_injective : Function.Injective encDigest := fun _ _ h => Digest.ext_bytes h

/-- Different strings are encoded differently. -/
theorem encString_injective : Function.Injective encString := CanonicalWriter.string_injective

/-- Different bytes are encoded differently. -/
theorem encU8_injective : Function.Injective encU8 := fun _ _ h => by
  simpa [encU8, CanonicalWriter.u8] using h

/-- Different numbers are encoded differently. -/
theorem encU64_injective : Function.Injective encU64 := CanonicalWriter.u64_injective

/-- Different shapes are encoded differently. -/
theorem encShape_injective : Function.Injective encShape := by
  apply encList_injective (w := 8) (by omega) fun a => CanonicalWriter.length_u64 _
  intro a b h
  have hw : a.toUInt64 = b.toUInt64 := CanonicalWriter.u64_injective h
  cases a
  cases b
  exact congrArg Int64.ofUInt64 hw

/-- Different lists of ids are encoded differently. -/
theorem encIds_injective : Function.Injective encIds :=
  encList_injective (w := 16) (by omega) CanonicalWriter.length_u128
    CanonicalWriter.u128_injective

/-- Different lists of numbers are encoded differently. -/
theorem encU64s_injective : Function.Injective encU64s :=
  encList_injective (w := 8) (by omega) CanonicalWriter.length_u64 CanonicalWriter.u64_injective

/-! ## The key -/

/-- INTERNAL: no tags, no invalid one. -/
theorem validTags_nil : ∀ e ∈ ([] : List KeyFieldEntry), validTag e.tag :=
  List.forall_mem_nil _

/-- SOURCE: Key.hpp:27-160 -/
structure CompilationKey where
  fields : List KeyFieldEntry := []
  uniqueTags : (fields.map KeyFieldEntry.tag).Nodup := by first | exact List.nodup_nil | decide
  validTags : ∀ e ∈ fields, validTag e.tag := by first | exact validTags_nil | decide
  deriving DecidableEq

/-- The fields before and after the position `std::lower_bound` finds: the first whose tag
is not below the new one.
SOURCE: Key.cpp:118-129 -/
def putFields (fields : List KeyFieldEntry) (e : KeyFieldEntry) : List KeyFieldEntry :=
  let others := fields.filter fun x => x.tag ≠ e.tag
  others.takeWhile (fun x => x.tag < e.tag) ++ e :: others.dropWhile fun x => x.tag < e.tag

/-- INTERNAL: a put leaves out the old entry and inserts the new one. -/
theorem putFields_perm (fields : List KeyFieldEntry) (e : KeyFieldEntry) :
    (putFields fields e).Perm (e :: fields.filter fun x => x.tag ≠ e.tag) := by
  have hsplit := List.takeWhile_append_dropWhile (p := fun x : KeyFieldEntry => x.tag < e.tag)
    (l := fields.filter fun x => x.tag ≠ e.tag)
  calc (putFields fields e).Perm _ := List.perm_middle
    _ = _ := by rw [hsplit]

/-- The entries after a put. -/
theorem mem_putFields {fields : List KeyFieldEntry} {e x : KeyFieldEntry} :
    x ∈ putFields fields e ↔ x = e ∨ x ∈ fields ∧ x.tag ≠ e.tag := by
  rw [(putFields_perm fields e).mem_iff]
  simp

namespace CompilationKey

/-- SOURCE: Key.cpp:118-129 -/
def put (k : CompilationKey) (value : Bytes) (f : KeyField) : CompilationKey where
  fields := putFields k.fields ⟨keyFieldTag f, value⟩
  uniqueTags := by
    rw [((putFields_perm _ _).map _).nodup_iff, List.map_cons, List.nodup_cons]
    refine ⟨?_, k.uniqueTags.sublist (List.filter_sublist.map _)⟩
    simp
  validTags := by
    intro e he
    rcases mem_putFields.mp he with rfl | ⟨he, -⟩
    · exact validTag_keyFieldTag f
    · exact k.validTags e he

/-- The value of the field with a tag: `findField(static_cast<KeyField>(tag))`. -/
def findTag (k : CompilationKey) (t : UInt8) : Option Bytes :=
  (k.fields.find? fun e => e.tag == t).map KeyFieldEntry.value

/-- SOURCE: Key.cpp:108-112 -/
def findField (k : CompilationKey) (f : KeyField) : Option Bytes := k.findTag (keyFieldTag f)

/-- A tag is found where it is. -/
theorem findTag_eq_some {k : CompilationKey} {t : UInt8} {v : Bytes} :
    k.findTag t = some v ↔ ⟨t, v⟩ ∈ k.fields := by
  rw [findTag, Option.map_eq_some_iff]
  constructor
  · rintro ⟨e, he, rfl⟩
    have htag : e.tag = t := by simpa using List.find?_some he
    rw [← htag]
    exact List.mem_of_find?_eq_some he
  · intro hmem
    have hsome : (k.fields.find? fun e => e.tag == t).isSome := by
      rw [List.find?_isSome]
      exact ⟨_, hmem, by simp⟩
    obtain ⟨e, he⟩ := Option.isSome_iff_exists.mp hsome
    have htag : e.tag = t := by simpa using List.find?_some he
    have heq : e = ⟨t, v⟩ :=
      List.inj_on_of_nodup_map k.uniqueTags (List.mem_of_find?_eq_some he) hmem htag
    exact ⟨e, he, by rw [heq]⟩

/-- A put is found under its own tag, and the other tags as before. -/
theorem findTag_put (k : CompilationKey) (value : Bytes) (f : KeyField) (t : UInt8) :
    (k.put value f).findTag t = if keyFieldTag f = t then some value else k.findTag t := by
  apply Option.ext
  intro v
  rw [findTag_eq_some]
  change _ ∈ putFields _ _ ↔ _
  rw [mem_putFields]
  split
  · next heq =>
    subst heq
    simp [eq_comm]
  · next hne =>
    have hne' : t ≠ keyFieldTag f := fun h => hne h.symm
    simp [findTag_eq_some, hne']

/-- A put is found under its own field, and the other fields as before. -/
@[simp] theorem findField_put (k : CompilationKey) (value : Bytes) (f g : KeyField) :
    (k.put value f).findField g = if f = g then some value else k.findField g := by
  simp [findField, findTag_put]

/-! ## Fields in tag order -/

/-- The order `put` keeps the fields in. -/
def Sorted (k : CompilationKey) : Prop := k.fields.Pairwise fun a b => a.tag < b.tag

/-- The empty key is sorted. -/
theorem sorted_empty : Sorted {} := List.Pairwise.nil

/-- A put keeps a key sorted. -/
theorem Sorted.put {k : CompilationKey} (hk : k.Sorted) (value : Bytes) (f : KeyField) :
    (k.put value f).Sorted := by
  change (putFields k.fields _).Pairwise _
  rw [putFields]
  have hothers := hk.filter fun x => decide (x.tag ≠ keyFieldTag f)
  have hne : ∀ x ∈ k.fields.filter (fun x => decide (x.tag ≠ keyFieldTag f)),
      x.tag ≠ keyFieldTag f := fun x hx => by simpa using (List.mem_filter.mp hx).2
  revert hothers hne
  generalize k.fields.filter (fun x => decide (x.tag ≠ keyFieldTag f)) = others
  intro hothers hne
  induction others with
  | nil => simp
  | cons a l ih =>
      rw [List.pairwise_cons] at hothers
      have ih' := ih hothers.2 fun x hx => hne x (by simp [hx])
      by_cases ha : a.tag < keyFieldTag f
      · rw [List.takeWhile_cons_of_pos (by simpa using ha),
          List.dropWhile_cons_of_pos (by simpa using ha), List.cons_append, List.pairwise_cons]
        refine ⟨?_, ih'⟩
        intro x hx
        rcases List.mem_append.mp hx with hx | hx
        · exact hothers.1 x (List.takeWhile_subset _ hx)
        · rcases List.mem_cons.mp hx with rfl | hx
          · exact ha
          · exact hothers.1 x (List.dropWhile_subset _ hx)
      · rw [List.takeWhile_cons_of_neg (by simpa using ha),
          List.dropWhile_cons_of_neg (by simpa using ha), List.nil_append, List.pairwise_cons]
        have hlt : keyFieldTag f < a.tag :=
          UInt8.lt_of_le_of_ne (UInt8.not_lt.mp ha) (Ne.symm (hne a (by simp)))
        refine ⟨?_, List.pairwise_cons.mpr hothers⟩
        intro x hx
        rcases List.mem_cons.mp hx with rfl | hx
        · exact hlt
        · exact UInt8.lt_trans hlt (hothers.1 x hx)

/-- Keys with the same fields are the same. -/
theorem ext_fields {k l : CompilationKey} (h : k.fields = l.fields) : k = l := by
  cases k
  cases l
  simpa using h

/-- Keys in tag order with the same set of fields are equal. -/
theorem eq_of_perm_of_sorted {k l : CompilationKey} (hk : k.Sorted) (hl : l.Sorted)
    (h : k.fields.Perm l.fields) : k = l := by
  apply ext_fields
  refine List.Perm.eq_of_pairwise ?_ hk hl h
  intro a b _ _ hab hba
  exact absurd (UInt8.lt_trans hab hba) (UInt8.lt_irrefl _)

/-- Keys in tag order are determined by the values of their fields. -/
theorem ext_of_sorted {k l : CompilationKey} (hk : k.Sorted) (hl : l.Sorted)
    (h : ∀ t, k.findTag t = l.findTag t) : k = l := by
  have hperm : k.fields.Perm l.fields := by
    rw [List.perm_ext_iff_of_nodup k.uniqueTags.of_map l.uniqueTags.of_map]
    intro e
    have he := h e.tag
    constructor
    · intro hmem
      exact findTag_eq_some.mp (he ▸ findTag_eq_some.mpr hmem)
    · intro hmem
      exact findTag_eq_some.mp (he ▸ findTag_eq_some.mpr hmem)
  exact eq_of_perm_of_sorted hk hl hperm

/-- Two keys only differ at the tag of a typed field. -/
theorem exists_field_of_findTag_ne {k l : CompilationKey} {t : UInt8}
    (h : k.findTag t ≠ l.findTag t) : ∃ f, keyFieldTag f = t := by
  by_contra hno
  have hnone : ∀ m : CompilationKey, m.findTag t = none := by
    intro m
    rw [Option.eq_none_iff_forall_ne_some]
    intro v hv
    exact hno (exists_keyFieldTag (m.validTags _ (findTag_eq_some.mp hv)))
  exact h ((hnone k).trans (hnone l).symm)

/-- Keys in tag order are equal when every typed field is. -/
theorem ext_of_findField {k l : CompilationKey} (hk : k.Sorted) (hl : l.Sorted)
    (h : ∀ f, k.findField f = l.findField f) : k = l := by
  apply ext_of_sorted hk hl
  intro t
  by_contra hne
  obtain ⟨f, rfl⟩ := exists_field_of_findTag_ne hne
  exact hne (h f)

/-! ## Digest, equality and order -/

/-- SOURCE: Key.cpp:173-176 -/
def digest (H : Bytes → Digest) (k : CompilationKey) : Digest :=
  H (makeCanonicalFields k.fields)

/-- SOURCE: Key.hpp:118 -/
def toHex (H : Bytes → Digest) (k : CompilationKey) : Bytes := digestToHex (k.digest H)

/-- `operator==`: the same number of fields, and every field of one is found in the other.
SOURCE: Key.cpp:178-185 -/
instance : BEq CompilationKey where
  beq k o := k.fields.length == o.fields.length &&
    k.fields.all fun e => o.findTag e.tag == some e.value

/-- Keys are equal when they have the same entries, in whatever order.
SOURCE: Key.cpp:178-185 -/
theorem beq_iff {k o : CompilationKey} : (k == o) = true ↔ k.fields.Perm o.fields := by
  have hdef : (k == o) = true ↔ k.fields.length = o.fields.length ∧ k.fields ⊆ o.fields := by
    change (k.fields.length == o.fields.length &&
      k.fields.all fun e => o.findTag e.tag == some e.value) = true ↔ _
    simp only [Bool.and_eq_true, beq_iff_eq, List.all_eq_true, findTag_eq_some]
    rfl
  rw [hdef]
  constructor
  · rintro ⟨hlen, hsub⟩
    exact (List.subperm_of_subset k.uniqueTags.of_map hsub).perm_of_length_le hlen.ge
  · intro hperm
    exact ⟨hperm.length_eq, hperm.subset⟩

/-- `operator==` is equality for keys in tag order. -/
theorem beq_iff_eq_of_sorted {k o : CompilationKey} (hk : k.Sorted) (ho : o.Sorted) :
    (k == o) = true ↔ k = o := by
  rw [beq_iff]
  constructor
  · exact eq_of_perm_of_sorted hk ho
  · rintro rfl
    exact List.Perm.refl _

end CompilationKey

/-- `operator<` on one field: by tag, then by value. -/
instance : Ord KeyFieldEntry where
  compare := compareLex (compareOn KeyFieldEntry.tag) (compareOn KeyFieldEntry.value)

instance : Std.TransOrd KeyFieldEntry :=
  inferInstanceAs (Std.TransCmp (compareLex (compareOn KeyFieldEntry.tag)
    (compareOn KeyFieldEntry.value)))

instance : Std.LawfulEqOrd KeyFieldEntry where
  eq_of_compare := by
    intro a b h
    have hlex : (compare a.tag b.tag).then (compare a.value b.value) = .eq := h
    rw [Ordering.then_eq_eq, Std.LawfulEqOrd.compare_eq_iff_eq,
      Std.LawfulEqOrd.compare_eq_iff_eq] at hlex
    cases a
    cases b
    simpa using hlex

/-- `operator<`: `std::lexicographical_compare` of the fields.
SOURCE: Key.cpp:186-192 -/
instance : Ord CompilationKey where
  compare := compareOn CompilationKey.fields

instance : Std.TransOrd CompilationKey :=
  inferInstanceAs (Std.TransCmp (compareOn CompilationKey.fields))

instance : Std.LawfulEqOrd CompilationKey where
  eq_of_compare := by
    intro a b h
    have hfields : compare a.fields b.fields = .eq := h
    exact CompilationKey.ext_fields (Std.LawfulEqOrd.compare_eq_iff_eq.mp hfields)

namespace CompilationKey

/-! ## Getters and decoding -/

/-- SOURCE: Key.cpp:38-42, 144-148 -/
def getU64 (k : CompilationKey) (f : KeyField) : Option UInt64 := do
  let value ← k.findField f
  let (v, r) ← (CanonicalReader.mk value 0).u64
  if r.pos = value.length then some v else none

/-- SOURCE: Key.cpp:48-52, 167-171 -/
def getU128 (k : CompilationKey) (f : KeyField) : Option Id128 := do
  let value ← k.findField f
  let (v, r) ← (CanonicalReader.mk value 0).u128
  if r.pos = value.length then some v else none

def getLogicalOperation (k : CompilationKey) : Option LogicalOperation :=
  (k.getU128 .LogicalOperation).map TypedId.mk

/-- SOURCE: Key.cpp:219-225 -/
def fromCanonicalBytes (data : Bytes) : Option CompilationKey :=
  match h : parseKeyFields data with
  | .ok fields => some ⟨fields, (parseKeyFields_ok h).2, (parseKeyFields_ok h).1⟩
  | .error _ => none

/-- The canonical bytes of a key in tag order decode to the key.
SOURCE: Key.cpp:123-126 -/
theorem fromCanonicalBytes_makeCanonicalFields {k : CompilationKey} (hk : k.Sorted)
    (hsize : (makeCanonicalFields k.fields).length < sizeMod) :
    fromCanonicalBytes (makeCanonicalFields k.fields) = some k := by
  have hsort : sortFields k.fields = k.fields := by
    apply List.Pairwise.insertionSort_eq
    exact hk.imp fun hab => UInt8.le_of_lt hab
  have hparse := parseKeyFields_makeCanonicalFields k.validTags k.uniqueTags hsize
  rw [hsort] at hparse
  unfold fromCanonicalBytes
  split
  · next fields heq =>
    rw [hparse, Except.ok.injEq] at heq
    exact congrArg some (ext_fields heq.symm)
  · next msg heq =>
    rw [hparse] at heq
    simp at heq

end CompilationKey

end CompilationFabric.Model
