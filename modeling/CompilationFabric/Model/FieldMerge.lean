import CompilationFabric.Model.Compatibility
import Mathlib.Data.List.ReduceOption
import Mathlib.Data.List.Dedup

/-!
# The merge of two field lists

`CompilationCompatibility::fieldDiffs` as the source computes it: the tags of both lists go into a
set, and for every tag of the set both lists are searched to their end, so that the last field with
the tag counts.  The fields of a key have pairwise different tags, so this is `fieldDiffs`, which
asks for every field in turn (`mergedDiffs_eq`).
-/

set_option autoImplicit false

namespace CompilationFabric.Model.CompilationCompatibility

variable {a b : CompilationKey}

/-- `static_cast<KeyField>(t)`. -/
def fieldOfTag (t : UInt8) : KeyField := KeyField.ofNat (t.toNat - 1)

/-- The set of tags, in its order.
SOURCE: Compatibility.cpp:194-196 -/
def mergedTags (a b : List KeyFieldEntry) : List UInt8 :=
  ((a ++ b).map KeyFieldEntry.tag).dedup.insertionSort (· ≤ ·)

/-- `for (auto& e : fields) if (e.tag == t) p = &e;` -/
def lastValue (fields : List KeyFieldEntry) (t : UInt8) : Option Bytes :=
  fields.foldl (fun p e => if e.tag = t then some e.value else p) none

/-- SOURCE: Compatibility.cpp:198-208 -/
def tagDiff (a b : List KeyFieldEntry) (t : UInt8) : Throwing (Option FieldDiff) := do
  let ae := lastValue a t
  let be := lastValue b t
  if ae = be then return none
  let (presentInRequest, requestValue) ← renderSide be
  let (presentInArtifact, artifactValue) ← renderSide ae
  return some
    { field := fieldOfTag t, presentInRequest, requestValue, presentInArtifact, artifactValue }

/-- SOURCE: Compatibility.cpp:192-211 -/
def mergedDiffs (a b : CompilationKey) : Throwing (List FieldDiff) := do
  return (← (mergedTags a.fields b.fields).mapM (tagDiff a.fields b.fields)).reduceOption

/-! ## It is the diff of every field -/

/-- The field of a field's tag is the field. -/
theorem fieldOfTag_keyFieldTag (f : KeyField) : fieldOfTag (keyFieldTag f) = f := by
  rw [fieldOfTag, toNat_keyFieldTag, Nat.add_sub_cancel, KeyField.ofNat_ctorIdx]

/-- A search that goes on finds the last value, and the first when there is one at most. -/
theorem foldl_lastValue {fields : List KeyFieldEntry} (hunique : (fields.map KeyFieldEntry.tag).Nodup)
    (t : UInt8) (p : Option Bytes) :
    fields.foldl (fun p e => if e.tag = t then some e.value else p) p =
      ((fields.find? fun e => e.tag == t).map KeyFieldEntry.value).or p := by
  induction fields generalizing p with
  | nil => rfl
  | cons e fields ih =>
      rw [List.map_cons, List.nodup_cons] at hunique
      rw [List.foldl_cons, ih hunique.2]
      by_cases htag : e.tag = t
      · have hnone : fields.find? (fun x => x.tag == t) = none := by
          rw [List.find?_eq_none]
          intro x hx heq
          rw [beq_iff_eq] at heq
          exact hunique.1 (htag.trans heq.symm ▸ List.mem_map_of_mem hx)
        rw [if_pos htag, hnone, List.find?_cons_of_pos (by simpa using htag)]
        rfl
      · rw [if_neg htag, List.find?_cons_of_neg (by simpa using htag)]

/-- In a key a tag has one value, and the last one is it. -/
theorem lastValue_fields (k : CompilationKey) (t : UInt8) :
    lastValue k.fields t = k.findTag t := by
  unfold lastValue CompilationKey.findTag
  rw [foldl_lastValue k.uniqueTags, Option.or_none]

/-- The difference at a field's tag is the difference of the fields. -/
theorem tagDiff_keyFieldTag (a b : CompilationKey) (f : KeyField) :
    tagDiff a.fields b.fields (keyFieldTag f) = fieldDiff a b f := by
  unfold tagDiff fieldDiff
  rw [lastValue_fields, lastValue_fields, fieldOfTag_keyFieldTag]
  rfl

/-- INTERNAL: a tag is in the list when it is found. -/
theorem mem_map_tag {k : CompilationKey} {t : UInt8} :
    t ∈ k.fields.map KeyFieldEntry.tag ↔ (k.findTag t).isSome = true := by
  rw [List.mem_map, Option.isSome_iff_exists]
  constructor
  · rintro ⟨e, he, rfl⟩
    exact ⟨e.value, CompilationKey.findTag_eq_some.mpr he⟩
  · rintro ⟨v, hv⟩
    exact ⟨⟨t, v⟩, CompilationKey.findTag_eq_some.mp hv, rfl⟩

/-- The fields come in the order of their tags. -/
theorem pairwise_keyFields :
    keyFields.Pairwise fun f g => keyFieldTag f < keyFieldTag g := by
  decide +kernel

/-- A field of one of the keys. -/
def inEither (a b : CompilationKey) (f : KeyField) : Bool :=
  (a.findField f).isSome || (b.findField f).isSome

/-- The merged tags are those of the fields in either key. -/
theorem mem_mergedTags {t : UInt8} : t ∈ mergedTags a.fields b.fields ↔
    ∃ f, inEither a b f = true ∧ keyFieldTag f = t := by
  have hvalid : ∀ k : CompilationKey, (k.findTag t).isSome = true → ∃ f, keyFieldTag f = t := by
    intro k h
    obtain ⟨v, hv⟩ := Option.isSome_iff_exists.mp h
    exact exists_keyFieldTag (k.validTags _ (CompilationKey.findTag_eq_some.mp hv))
  unfold mergedTags
  rw [List.mem_insertionSort, List.mem_dedup, List.map_append, List.mem_append, mem_map_tag,
    mem_map_tag, ← Bool.or_eq_true]
  constructor
  · intro h
    obtain ⟨f, rfl⟩ := (Bool.or_eq_true _ _ ▸ h).elim (hvalid a) (hvalid b)
    exact ⟨f, h, rfl⟩
  · rintro ⟨f, h, rfl⟩
    exact h

/-- The tags of the merge are those of the fields of either key, in the order of the fields. -/
theorem mergedTags_eq (a b : CompilationKey) :
    mergedTags a.fields b.fields = (keyFields.filter (inEither a b)).map keyFieldTag := by
  have hsorted : ((keyFields.filter (inEither a b)).map keyFieldTag).Pairwise (· < ·) := by
    rw [List.pairwise_map]
    exact pairwise_keyFields.filter _
  have hperm : (mergedTags a.fields b.fields).Perm
      ((keyFields.filter (inEither a b)).map keyFieldTag) := by
    rw [List.perm_ext_iff_of_nodup]
    · intro t
      rw [mem_mergedTags, List.mem_map]
      simp only [List.mem_filter, mem_keyFields, true_and]
    · exact (List.perm_insertionSort _ _).nodup_iff.mpr (List.nodup_dedup _)
    · exact hsorted.imp fun h => UInt8.ne_of_lt h
  refine List.Perm.eq_of_pairwise ?_ (List.pairwise_insertionSort (· ≤ ·) _)
    (hsorted.imp fun h => UInt8.le_of_lt h) hperm
  intro s t _ _ hst hts
  exact UInt8.le_antisymm hst hts

/-- Elements that give nothing may be left out. -/
theorem mapM_filter_reduceOption {α β ε : Type} {p : α → Bool} {f : α → Except ε (Option β)}
    (h : ∀ x, p x = false → f x = .ok none) (xs : List α) :
    (List.reduceOption <$> (xs.filter p).mapM f) = (List.reduceOption <$> xs.mapM f) := by
  induction xs with
  | nil => rfl
  | cons x xs ih =>
      rw [List.mapM_cons]
      by_cases hp : p x = true
      · rw [List.filter_cons_of_pos hp, List.mapM_cons]
        cases hx : f x with
        | error e => rfl
        | ok o =>
            have hcons : ∀ r : Except ε (List (Option β)),
                (List.reduceOption <$> (r >>= fun os => pure (o :: os))) =
                  (fun vs => o.toList ++ vs) <$> (List.reduceOption <$> r) := by
              intro r
              cases r with
              | error e => rfl
              | ok os => cases o <;> rfl
            change (List.reduceOption <$> ((xs.filter p).mapM f >>= fun os => pure (o :: os))) =
              (List.reduceOption <$> (xs.mapM f >>= fun os => pure (o :: os)))
            rw [hcons, hcons, ih]
      · rw [List.filter_cons_of_neg hp, h x (Bool.eq_false_of_not_eq_true hp), ih]
        cases xs.mapM f <;> rfl

/-- The merge of two keys is the diff of every field.
SOURCE: Compatibility.cpp:192-211 -/
theorem mergedDiffs_eq (a b : CompilationKey) : mergedDiffs a b = fieldDiffs a b := by
  have hnone : ∀ f, inEither a b f = false → fieldDiff a b f = .ok none := by
    intro f h
    rw [inEither, Bool.or_eq_false_iff, Option.isSome_eq_false_iff, Option.isSome_eq_false_iff,
      Option.isNone_iff_eq_none, Option.isNone_iff_eq_none] at h
    unfold fieldDiff
    rw [h.1, h.2]
    rfl
  have hfields : (fun f => tagDiff a.fields b.fields (keyFieldTag f)) = fieldDiff a b :=
    funext (tagDiff_keyFieldTag a b)
  have hmapM : (mergedTags a.fields b.fields).mapM (tagDiff a.fields b.fields) =
      (keyFields.filter (inEither a b)).mapM (fieldDiff a b) := by
    rw [mergedTags_eq, List.mapM_map, ← hfields]
    rfl
  unfold mergedDiffs fieldDiffs
  rw [hmapM]
  exact mapM_filter_reduceOption hnone keyFields

end CompilationFabric.Model.CompilationCompatibility
