import CompilationFabric.Model.Canonical
import Mathlib.Order.Interval.Finset.Nat

/-!
# Canonical records read back

`parseKeyFields` inverts `makeCanonicalFields` up to the sort: a record written from
fields with valid, pairwise different tags parses to those fields in tag order.  The
loop invariant is `parseEntries_spec`: after some of the sorted fields have been read,
the reader stands in front of the bytes of the others.
-/

set_option autoImplicit false

namespace CompilationFabric.Interface

open CompilationFabric.Model

/-- Sorting by tags only moves the fields. -/
theorem sortFields_perm (fields : List KeyFieldEntry) : (sortFields fields).Perm fields :=
  List.perm_insertionSort tagLE fields

/-- Sorting puts fields with different tags in increasing tag order. -/
theorem sortFields_sorted {fields : List KeyFieldEntry}
    (hnodup : (fields.map KeyFieldEntry.tag).Nodup) :
    (sortFields fields).Pairwise fun x y => x.tag < y.tag := by
  have hle : (sortFields fields).Pairwise tagLE := by
    have htotal : Std.Total tagLE := ⟨fun x y => UInt8.le_total x.tag y.tag⟩
    have htrans : IsTrans KeyFieldEntry tagLE := ⟨fun x y z => UInt8.le_trans⟩
    exact List.pairwise_insertionSort tagLE fields
  have hne : ((sortFields fields).map KeyFieldEntry.tag).Nodup :=
    ((sortFields_perm fields).map _).nodup_iff.mpr hnodup
  rw [List.Nodup, List.pairwise_map] at hne
  exact (hle.and hne).imp fun h => UInt8.lt_of_le_of_ne h.1 h.2

/-- The sorted fields do not depend on the order in which the fields were added. -/
theorem sortFields_eq_of_perm {fields fields' : List KeyFieldEntry}
    (hnodup : (fields.map KeyFieldEntry.tag).Nodup) (h : fields'.Perm fields) :
    sortFields fields' = sortFields fields := by
  have hnodup' : (fields'.map KeyFieldEntry.tag).Nodup := (h.map _).nodup_iff.mpr hnodup
  refine List.Perm.eq_of_pairwise ?_ (sortFields_sorted hnodup') (sortFields_sorted hnodup) ?_
  · intro x y _ _ hxy hyx
    exact absurd (UInt8.lt_trans hxy hyx) (UInt8.lt_irrefl _)
  · exact (sortFields_perm _).trans (h.trans (sortFields_perm _).symm)

/-- The record does not depend on the order of the fields. -/
theorem makeCanonicalFields_eq_of_perm {fields fields' : List KeyFieldEntry}
    (hnodup : (fields.map KeyFieldEntry.tag).Nodup) (h : fields'.Perm fields) :
    makeCanonicalFields fields' = makeCanonicalFields fields := by
  rw [makeCanonicalFields, makeCanonicalFields, sortFields_eq_of_perm hnodup h]

/-- INTERNAL: the bytes of an entry with a valid tag. -/
theorem entryBytes_of_valid {e : KeyFieldEntry} (he : validTag e.tag) :
    entryBytes e =
      CanonicalWriter.u8 e.tag ++ (CanonicalWriter.u64 (UInt64.ofNat e.value.length) ++ e.value) := by
  rw [entryBytes, if_neg he, List.append_assoc]

/-- INTERNAL: one field in front of the reader is decoded and consumed.
SOURCE: Canonical.cpp:184-199 -/
theorem parseEntry_spec {pre tl : Bytes} {e : KeyFieldEntry} {out : List KeyFieldEntry}
    (he : validTag e.tag) (hout : e.tag ∉ out.map KeyFieldEntry.tag)
    (hsize : (pre ++ (entryBytes e ++ tl)).length < sizeMod) :
    parseEntry (CanonicalReader.after pre (entryBytes e ++ tl)) out =
      .ok (e, CanonicalReader.after (pre ++ entryBytes e) tl) := by
  have hdup : out.any (fun x => x.tag == e.tag) = false := by
    rw [List.any_eq_false]
    intro x hx hxe
    exact hout (List.mem_map.mpr ⟨x, hx, by simpa using hxe⟩)
  rw [entryBytes_of_valid he] at hsize ⊢
  simp only [List.append_assoc] at hsize ⊢
  have htag := CanonicalReader.u8_after _ _ hsize
  have hsize₁ : ((pre ++ CanonicalWriter.u8 e.tag) ++
      (CanonicalWriter.u64 (UInt64.ofNat e.value.length) ++ (e.value ++ tl))).length < sizeMod := by
    simpa using hsize
  have hlen := CanonicalReader.u64_after _ _ hsize₁
  have hsize₂ : ((pre ++ CanonicalWriter.u8 e.tag ++
      CanonicalWriter.u64 (UInt64.ofNat e.value.length)) ++ (e.value ++ tl)).length < sizeMod := by
    simpa using hsize
  have hnat : (UInt64.ofNat e.value.length).toNat = e.value.length := by
    rw [UInt64.toNat_ofNat']
    simp only [List.length_append, sizeMod] at hsize
    omega
  rw [parseEntry, htag]
  simp only [if_neg he, hdup, hlen, hnat, CanonicalReader.remaining_after, List.length_append,
    CanonicalReader.advance, CanonicalReader.skip_after hsize₂ rfl]
  have hle : e.value.length ≤ e.value.length + tl.length := by omega
  have hview : ((CanonicalReader.after (pre ++ CanonicalWriter.u8 e.tag ++
      CanonicalWriter.u64 (UInt64.ofNat e.value.length)) (e.value ++ tl)).data.drop
      (CanonicalReader.after (pre ++ CanonicalWriter.u8 e.tag ++
      CanonicalWriter.u64 (UInt64.ofNat e.value.length)) (e.value ++ tl)).pos).take
        e.value.length = e.value := by
    rw [CanonicalReader.after, List.drop_left, List.take_left]
  rw [if_neg (by simp), if_neg (by omega), if_pos hle, hview]
  simp

/-- INTERNAL: the decoding loop, from any fields already read.
SOURCE: Canonical.cpp:184-199 -/
theorem parseEntries_spec {fields : List KeyFieldEntry} :
    ∀ (pre : Bytes) (out : List KeyFieldEntry),
      (∀ e ∈ fields, validTag e.tag) →
      ((out ++ fields).map KeyFieldEntry.tag).Nodup →
      (pre ++ fields.flatMap entryBytes).length < sizeMod →
      parseEntries fields.length (CanonicalReader.after pre (fields.flatMap entryBytes)) out =
        .ok (out ++ fields, CanonicalReader.after (pre ++ fields.flatMap entryBytes) []) := by
  induction fields with
  | nil =>
      intro pre out _ _ _
      simp [parseEntries]
  | cons e fields ih =>
      intro pre out hvalid hnodup hsize
      rw [List.flatMap_cons] at hsize ⊢
      have hout : e.tag ∉ out.map KeyFieldEntry.tag := by
        intro hmem
        rw [List.map_append, List.nodup_append'] at hnodup
        exact hnodup.2.2 hmem (by simp)
      have hstep := parseEntry_spec (hvalid e (by simp)) hout hsize
      have hrest := ih (pre ++ entryBytes e) (out ++ [e])
        (fun x hx => hvalid x (by simp [hx])) (by simpa using hnodup) (by simpa using hsize)
      rw [List.length_cons, parseEntries, hstep]
      simpa [bind, Except.bind] using hrest

/-- Fields with different tags are no more than the tags they may have. -/
theorem length_le_of_tags {fields : List KeyFieldEntry} {lo hi : ℕ}
    (htags : ∀ e ∈ fields, lo ≤ e.tag.toNat ∧ e.tag.toNat ≤ hi)
    (hnodup : (fields.map KeyFieldEntry.tag).Nodup) : fields.length ≤ hi + 1 - lo := by
  have hsub : (fields.map fun e => e.tag.toNat).toFinset ⊆ Finset.Icc lo hi := by
    intro n hn
    obtain ⟨e, he, rfl⟩ := List.mem_map.mp (List.mem_toFinset.mp hn)
    exact Finset.mem_Icc.mpr (htags e he)
  have hnodup' : (fields.map fun e => e.tag.toNat).Nodup := by
    have hcomp : (fields.map fun e => e.tag.toNat) =
        (fields.map KeyFieldEntry.tag).map UInt8.toNat := by
      rw [List.map_map]
      rfl
    rw [hcomp]
    exact hnodup.map fun a b => UInt8.toNat_inj.mp
  have hcard := Finset.card_le_card hsub
  rwa [List.toFinset_card_of_nodup hnodup', List.length_map, Nat.card_Icc] at hcard

/-- Valid tags are the numbers from 1 to 57. -/
theorem length_le_of_validTags {fields : List KeyFieldEntry}
    (hvalid : ∀ e ∈ fields, validTag e.tag) (hnodup : (fields.map KeyFieldEntry.tag).Nodup) :
    fields.length ≤ 57 := by
  have htags : ∀ e ∈ fields, 1 ≤ e.tag.toNat ∧ e.tag.toNat ≤ 57 := by
    intro e he
    have hv : ¬ (e.tag = 0 ∨ e.tag > kMaxKeyField) := hvalid e he
    have hmax : kMaxKeyField.toNat = 57 := by decide
    have hzero : (0 : UInt8).toNat = 0 := rfl
    rw [not_or, gt_iff_lt, UInt8.lt_iff_toNat_lt, hmax, ← UInt8.toNat_inj] at hv
    omega
  exact length_le_of_tags htags hnodup

/-- A count and as many fields are a record, in whatever order they stand. -/
theorem parseKeyFields_of_entries {fields : List KeyFieldEntry} (hcount : fields.length ≤ 4096)
    (hvalid : ∀ f ∈ fields, validTag f.tag) (hdistinct : (fields.map KeyFieldEntry.tag).Nodup)
    (hsize : (CanonicalWriter.u32 (.ofNat fields.length) ++ fields.flatMap entryBytes).length <
      sizeMod) :
    parseKeyFields (CanonicalWriter.u32 (.ofNat fields.length) ++ fields.flatMap entryBytes) =
      .ok fields := by
  have hnat : (UInt32.ofNat fields.length).toNat = fields.length := by
    rw [UInt32.toNat_ofNat']
    omega
  have hrange : ¬ UInt32.ofNat fields.length > 4096 := by
    have h4096 : (4096 : UInt32).toNat = 4096 := rfl
    rw [gt_iff_lt, UInt32.lt_iff_toNat_lt, hnat, h4096]
    omega
  have hhead := CanonicalReader.u32_after [] (fields.flatMap entryBytes)
    (v := UInt32.ofNat fields.length) hsize
  have hloop := parseEntries_spec ([] ++ CanonicalWriter.u32 (.ofNat fields.length)) [] hvalid
    hdistinct hsize
  rw [parseKeyFields, ← CanonicalReader.after_nil, hhead]
  simp only [if_neg hrange, hnat, hloop]
  simp [bind, Except.bind, pure, Except.pure]

/-- A record reads back as its fields in tag order.
SOURCE: Canonical.hpp:158-174 -/
theorem parseKeyFields_makeCanonicalFields {fields : List KeyFieldEntry}
    (hvalid : ∀ e ∈ fields, validTag e.tag) (hnodup : (fields.map KeyFieldEntry.tag).Nodup)
    (hsize : (makeCanonicalFields fields).length < sizeMod) :
    parseKeyFields (makeCanonicalFields fields) = .ok (sortFields fields) := by
  have hperm := sortFields_perm fields
  have hvalid' : ∀ e ∈ sortFields fields, validTag e.tag :=
    fun e he => hvalid e (hperm.mem_iff.mp he)
  have hnodup' : ((sortFields fields).map KeyFieldEntry.tag).Nodup :=
    (hperm.map KeyFieldEntry.tag).nodup_iff.mpr hnodup
  have hcount : (sortFields fields).length ≤ 57 := length_le_of_validTags hvalid' hnodup'
  exact parseKeyFields_of_entries (hcount.trans (by omega)) hvalid' hnodup' hsize

/-! ## What is accepted is well formed -/

/-- A decoded field has a valid tag that was not seen before. -/
theorem parseEntry_ok {rd rd' : CanonicalReader} {out : List KeyFieldEntry} {e : KeyFieldEntry}
    (h : parseEntry rd out = .ok (e, rd')) :
    validTag e.tag ∧ e.tag ∉ out.map KeyFieldEntry.tag := by
  unfold parseEntry at h
  split at h
  · simp at h
  · next tag rd₁ _ =>
    split at h
    · simp at h
    · next hvalid =>
      split at h
      · simp at h
      · next hdup =>
        split at h
        · simp at h
        · next vlen rd₂ _ =>
          split at h
          · simp at h
          · simp only [Except.ok.injEq, Prod.mk.injEq] at h
            obtain ⟨rfl, -⟩ := h
            refine ⟨hvalid, ?_⟩
            simpa using hdup

/-- The entries that are read have valid tags, each of them once. -/
theorem parseEntries_ok {n : ℕ} {rd rd' : CanonicalReader} {out fields : List KeyFieldEntry}
    (h : parseEntries n rd out = .ok (fields, rd'))
    (hvalid : ∀ e ∈ out, validTag e.tag) (hnodup : (out.map KeyFieldEntry.tag).Nodup) :
    (∀ e ∈ fields, validTag e.tag) ∧ (fields.map KeyFieldEntry.tag).Nodup := by
  induction n generalizing rd out with
  | zero =>
      simp only [parseEntries, Except.ok.injEq, Prod.mk.injEq] at h
      obtain ⟨rfl, -⟩ := h
      exact ⟨hvalid, hnodup⟩
  | succ n ih =>
      rw [parseEntries] at h
      cases hstep : parseEntry rd out with
      | error msg => simp [hstep, bind, Except.bind] at h
      | ok er =>
          simp only [hstep, bind, Except.bind] at h
          obtain ⟨hetag, hnew⟩ := parseEntry_ok hstep
          refine ih h ?_ ?_
          · intro x hx
            rcases List.mem_append.mp hx with hx | hx
            · exact hvalid x hx
            · rw [List.mem_singleton.mp hx]
              exact hetag
          · rw [List.map_append, List.map_singleton, List.nodup_append']
            refine ⟨hnodup, List.nodup_singleton _, ?_⟩
            simpa using hnew

/-- The fields of an accepted record have valid, pairwise different tags.
SOURCE: Canonical.cpp:176-204 -/
theorem parseKeyFields_ok {data : Bytes} {fields : List KeyFieldEntry}
    (h : parseKeyFields data = .ok fields) :
    (∀ e ∈ fields, validTag e.tag) ∧ (fields.map KeyFieldEntry.tag).Nodup := by
  unfold parseKeyFields at h
  split at h
  · simp at h
  · next count rd _ =>
    split at h
    · simp at h
    · cases hloop : parseEntries count.toNat rd [] with
      | error msg => simp [hloop, bind, Except.bind] at h
      | ok res =>
          simp only [hloop, bind, Except.bind] at h
          split at h
          · simp at h
          · simp only [pure, Except.pure, Except.ok.injEq] at h
            subst h
            exact parseEntries_ok hloop (by simp) (by simp)

/-! ## What has been read -/

section Reader

open CompilationFabric.Library

variable {pre bs : Bytes} {rd : CanonicalReader} {n : ℕ}

/-- A read that passes its check finds its bytes, unless the check wraps. -/
theorem le_length_of_not_overruns (hsize : (pre ++ bs).length + n < sizeMod)
    (h : ¬ (CanonicalReader.after pre bs).overruns n) : n ≤ bs.length := by
  unfold CanonicalReader.overruns CanonicalReader.after at h
  simp only [List.length_append] at hsize h
  rw [Nat.mod_eq_of_lt (by omega)] at h
  omega

/-- INTERNAL: any eight bytes are those of a number. -/
theorem exists_u64 (h : 8 ≤ bs.length) : ∃ v tl, bs = CanonicalWriter.u64 v ++ tl := by
  refine ⟨.ofNat (Positional.ofBytes (bs.take 8)), bs.drop 8, ?_⟩
  have hlen : (bs.take 8).length = 8 := List.length_take_of_le h
  have hlt := Positional.ofBytes_lt (bs.take 8)
  have hbytes := Positional.toBytes_ofBytes (bs.take 8)
  rw [hlen] at hlt hbytes
  rw [CanonicalWriter.u64_eq, UInt64.toNat_ofNat', Nat.mod_eq_of_lt (hlt.trans_eq (by norm_num)), hbytes,
    List.take_append_drop]

/-- INTERNAL: any four bytes are those of a number. -/
theorem exists_u32 (h : 4 ≤ bs.length) : ∃ v tl, bs = CanonicalWriter.u32 v ++ tl := by
  refine ⟨.ofNat (Positional.ofBytes (bs.take 4)), bs.drop 4, ?_⟩
  have hlen : (bs.take 4).length = 4 := List.length_take_of_le h
  have hlt := Positional.ofBytes_lt (bs.take 4)
  have hbytes := Positional.toBytes_ofBytes (bs.take 4)
  rw [hlen] at hlt hbytes
  rw [CanonicalWriter.u32_eq, UInt32.toNat_ofNat', Nat.mod_eq_of_lt (hlt.trans_eq (by norm_num)), hbytes,
    List.take_append_drop]

/-- A number that is read stood there, and the cursor is behind it. -/
theorem u64_eq_some {v : UInt64} (hsize : (pre ++ bs).length + 8 < sizeMod)
    (h : (CanonicalReader.after pre bs).u64 = some (v, rd)) :
    ∃ tl, bs = CanonicalWriter.u64 v ++ tl ∧
      rd = CanonicalReader.after (pre ++ CanonicalWriter.u64 v) tl := by
  have hle : 8 ≤ bs.length := by
    apply le_length_of_not_overruns hsize
    intro hover
    rw [CanonicalReader.u64, if_pos hover] at h
    cases h
  obtain ⟨w, tl, rfl⟩ := exists_u64 hle
  rw [CanonicalReader.u64_after pre tl (by omega), Option.some_inj, Prod.mk.injEq] at h
  obtain ⟨rfl, rfl⟩ := h
  exact ⟨tl, rfl, rfl⟩

/-- A number that is read stood there, and the cursor is behind it. -/
theorem u32_eq_some {v : UInt32} (hsize : (pre ++ bs).length + 4 < sizeMod)
    (h : (CanonicalReader.after pre bs).u32 = some (v, rd)) :
    ∃ tl, bs = CanonicalWriter.u32 v ++ tl ∧
      rd = CanonicalReader.after (pre ++ CanonicalWriter.u32 v) tl := by
  have hle : 4 ≤ bs.length := by
    apply le_length_of_not_overruns hsize
    intro hover
    rw [CanonicalReader.u32, if_pos hover] at h
    cases h
  obtain ⟨w, tl, rfl⟩ := exists_u32 hle
  rw [CanonicalReader.u32_after pre tl (by omega), Option.some_inj, Prod.mk.injEq] at h
  obtain ⟨rfl, rfl⟩ := h
  exact ⟨tl, rfl, rfl⟩

/-- A byte that is read stood there, and the cursor is behind it. -/
theorem u8_eq_some {v : UInt8} (hsize : (pre ++ bs).length + 1 < sizeMod)
    (h : (CanonicalReader.after pre bs).u8 = some (v, rd)) :
    ∃ tl, bs = CanonicalWriter.u8 v ++ tl ∧
      rd = CanonicalReader.after (pre ++ CanonicalWriter.u8 v) tl := by
  have hle : 1 ≤ bs.length := by
    apply le_length_of_not_overruns hsize
    intro hover
    rw [CanonicalReader.u8, if_pos hover] at h
    cases h
  cases bs with
  | nil => simp at hle
  | cons b tl =>
      have hread := CanonicalReader.u8_after pre tl (v := b)
        (by simpa [CanonicalWriter.u8] using Nat.lt_of_succ_lt hsize)
      rw [show b :: tl = CanonicalWriter.u8 b ++ tl from rfl, hread, Option.some_inj,
        Prod.mk.injEq] at h
      obtain ⟨rfl, rfl⟩ := h
      exact ⟨tl, rfl, rfl⟩

/-- A string that is read stands there with its length in front. -/
theorem exists_string {s : Bytes} (hsize : (pre ++ bs).length + 8 < sizeMod)
    (h : (CanonicalReader.after pre bs).str = .ok (some (s, rd))) :
    ∃ s' tl, bs = CanonicalWriter.string s' ++ tl := by
  unfold CanonicalReader.str at h
  split at h
  · cases h
  · next len rd₁ hlen =>
    obtain ⟨tl, rfl, rfl⟩ := u64_eq_some hsize hlen
    split at h
    · cases h
    · next hfits =>
      split at h
      · cases h
      · next hwrap =>
        -- the check has not wrapped, so the bytes are there
        have hle : len.toNat ≤ tl.length := by
          simp only [CanonicalReader.overruns, CanonicalReader.after, List.length_append,
            CanonicalWriter.length_u64, not_le] at hfits hwrap
          rw [Nat.mod_eq_of_lt hwrap] at hfits
          omega
        refine ⟨tl.take len.toNat, tl.drop len.toNat, ?_⟩
        rw [CanonicalWriter.string, List.length_take_of_le hle, UInt64.ofNat_toNat,
          List.append_assoc, List.take_append_drop]

/-- A string that is read stood there with its length, and the cursor is behind it. -/
theorem str_eq_some {s : Bytes} (hsize : (pre ++ bs).length + 8 < sizeMod)
    (h : (CanonicalReader.after pre bs).str = .ok (some (s, rd))) :
    ∃ tl, bs = CanonicalWriter.string s ++ tl ∧
      rd = CanonicalReader.after (pre ++ CanonicalWriter.string s) tl := by
  obtain ⟨s', tl, rfl⟩ := exists_string hsize h
  rw [CanonicalReader.str_after pre tl (by omega), Except.ok.injEq, Option.some_inj,
    Prod.mk.injEq] at h
  obtain ⟨rfl, rfl⟩ := h
  exact ⟨tl, rfl, rfl⟩

/-- A string with its length in front is followed by one rest. -/
theorem string_append_inj {s s' tl tl' : Bytes}
    (hsize : (CanonicalWriter.string s ++ tl).length < sizeMod)
    (h : CanonicalWriter.string s ++ tl = CanonicalWriter.string s' ++ tl') :
    s = s' ∧ tl = tl' := by
  have hread := CanonicalReader.str_after [] tl hsize
  rw [h, CanonicalReader.str_after [] tl' (h ▸ hsize), Except.ok.injEq, Option.some_inj,
    Prod.mk.injEq] at hread
  obtain ⟨rfl, -⟩ := hread
  exact ⟨rfl, List.append_cancel_left h⟩

end Reader

end CompilationFabric.Interface
