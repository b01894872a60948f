import CompilationFabric.Analysis.KeyRecordGrammar

/-!
# The field lists that make a well-formed record

`makeCanonicalFields` sorts its fields, so fields with different tags have one record in whatever
order they are given.  The record starts with the number of fields that were given, while the loop
behind it leaves out those whose tag is not valid.  So it reads back as long as there is nothing
to leave out, and only then.
-/

set_option autoImplicit false

namespace CompilationFabric.Analysis

open CompilationFabric.Interface
open CompilationFabric.Model

variable {fields : List KeyFieldEntry}

/-- The fields have one record in every order, and it reads back as those with a valid tag, in
tag order.
SOURCE: Canonical.hpp:148-166 -/
structure RecordReadsBack (fields : List KeyFieldEntry) : Prop where
  order : ∀ given : List KeyFieldEntry, given.Perm fields →
    makeCanonicalFields given = makeCanonicalFields fields
  read : ∃ out, parseKeyFields (makeCanonicalFields fields) = .ok out ∧
    out.Perm (fields.filter fun f => validTag f.tag) ∧ out.Pairwise fun x y => x.tag < y.tag

/-- There are 256 tags, so the count of fields with different tags is not cut off. -/
theorem length_le_of_distinct (hdistinct : (fields.map KeyFieldEntry.tag).Nodup) :
    fields.length ≤ 256 := by
  have htags : ∀ f ∈ fields, 0 ≤ f.tag.toNat ∧ f.tag.toNat ≤ 255 := fun f _ =>
    ⟨Nat.zero_le _, Nat.le_of_lt_succ f.tag.toNat_lt⟩
  exact length_le_of_tags htags hdistinct

/-- An accepted record has as many fields as were given, valid or not. -/
theorem length_of_parseKeyFields (hdistinct : (fields.map KeyFieldEntry.tag).Nodup)
    (hsize : (makeCanonicalFields fields).length ≤ maxObjectSize) {out : List KeyFieldEntry}
    (h : parseKeyFields (makeCanonicalFields fields) = .ok out) : out.length = fields.length := by
  have hadd := add_lt_sizeMod hsize
  simp only [sizeMod] at hadd
  obtain ⟨count, -, hlen, hbytes⟩ := exists_entries (by simp only [sizeMod]; omega) h
  have hsorted : (sortFields fields).length = fields.length := (sortFields_perm fields).length_eq
  have hcount : CanonicalWriter.u32 (.ofNat (sortFields fields).length) =
      CanonicalWriter.u32 count := by
    unfold makeCanonicalFields at hbytes
    exact (List.append_inj hbytes (by rw [CanonicalWriter.length_u32, CanonicalWriter.length_u32])).1
  have hle := length_le_of_distinct hdistinct
  rw [hlen, ← CanonicalWriter.u32_injective hcount, hsorted, UInt32.toNat_ofNat']
  omega

/-- A list of fields with different tags reads back exactly if no tag is left out: none is 0 or
above that of the last field.
SOURCE: Canonical.cpp:159-204 -/
theorem recordReadsBack_iff (hdistinct : (fields.map KeyFieldEntry.tag).Nodup)
    (hsize : (makeCanonicalFields fields).length ≤ maxObjectSize) :
    RecordReadsBack fields ↔ ∀ f ∈ fields, f.tag ≠ 0 ∧ f.tag ≤ kMaxKeyField := by
  have hvalid : (∀ f ∈ fields, f.tag ≠ 0 ∧ f.tag ≤ kMaxKeyField) ↔
      ∀ f ∈ fields, validTag f.tag := by
    simp only [validTag, not_or, gt_iff_lt, UInt8.not_lt, ne_eq]
  rw [hvalid]
  constructor
  · rintro ⟨-, out, hparse, hperm, -⟩
    have hlen := length_of_parseKeyFields hdistinct hsize hparse
    rw [hperm.length_eq, List.length_filter_eq_length_iff] at hlen
    intro f hf
    exact of_decide_eq_true (hlen f hf)
  · intro htags
    have hadd := add_lt_sizeMod hsize
    have hparse := parseKeyFields_makeCanonicalFields htags hdistinct (by omega)
    refine ⟨fun given h => makeCanonicalFields_eq_of_perm hdistinct h, _, hparse, ?_,
      sortFields_sorted hdistinct⟩
    have hall : (fields.filter fun f => validTag f.tag) = fields :=
      List.filter_eq_self.mpr fun f hf => decide_eq_true (htags f hf)
    rw [hall]
    exact sortFields_perm fields

/-- Two fields, given in descending order. -/
theorem recordReadsBack_iff_unsorted : RecordReadsBack unsortedFields :=
  (recordReadsBack_iff (by decide) (by decide)).mpr (by decide)

/-- A field with tag 0 beside a valid one: the count says two, and the second tag is missing. -/
theorem not_recordReadsBack : ¬ RecordReadsBack [⟨0, []⟩, ⟨1, [7]⟩] := by
  rintro ⟨-, out, hparse, -⟩
  have hfails : parseKeyFields (makeCanonicalFields [⟨0, []⟩, ⟨1, [7]⟩]) =
      .error (ascii "truncated field tag") := by decide +kernel
  rw [hfails] at hparse
  cases hparse

end CompilationFabric.Analysis
