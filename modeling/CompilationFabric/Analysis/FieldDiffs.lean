import CompilationFabric.Analysis.ReuseSoundness
import CompilationFabric.Interface.RecordFile
import CompilationFabric.Model.FieldMerge
import CompilationFabric.Model.KeySetters

/-!
# Field diffs

`fieldDiffs` lists the fields in which two keys differ, each with its value on either side.  A value
is rendered for a reader, and the first thing that is tried on it is to read it as a string: eight
bytes that are a length near `2 ^ 64` wrap the cursor, and `assign` throws (`renderFieldValue_iff`).
Any number may be such bytes, so the list is exact precisely when no field that differs has such a
value on either side (`diffsExact_iff`).
-/

set_option autoImplicit false

namespace CompilationFabric.Analysis

open CompilationFabric.Interface
open CompilationFabric.Library
open CompilationFabric.Model
open CompilationFabric.Model.CompilationCompatibility

variable {a b : CompilationKey}

/-! ## Rendering -/

/-- The first eight bytes are a length that wraps the cursor behind them. -/
def Overlong (v : Bytes) : Prop := 8 ≤ v.length ∧ 2 ^ 64 - 8 ≤ Positional.ofBytes (v.take 8)

instance (v : Bytes) : Decidable (Overlong v) := inferInstanceAs (Decidable (_ ∧ _))

/-- The length that is read in front of a string. -/
theorem u64_eq (v : Bytes) : (CanonicalReader.mk v 0).u64 =
    if v.length < 8 then none
    else some (UInt64.ofNat (Positional.ofBytes (v.take 8)), ⟨v, 8⟩) := by
  have hover : CanonicalReader.overruns ⟨v, 0⟩ 8 ↔ v.length < 8 := Iff.rfl
  have hvalue : (v.take 8).foldl pushByte 0 =
      UInt64.ofNat (Positional.ofBytes (v.take 8)) := by
    apply UInt64.toNat_inj.mp
    rw [CanonicalReader.foldl_pushByte, UInt64.toNat_ofNat']
    simp
  unfold CanonicalReader.u64
  simp only [hover, List.drop_zero, hvalue]
  rfl

/-- Only a length that wraps makes the string codec throw. -/
theorem str_throws_iff (v : Bytes) :
    (∃ x, (CanonicalReader.mk v 0).str = .error x) ↔ Overlong v := by
  have hlt : Positional.ofBytes (v.take 8) < 2 ^ 64 := by
    have hle : (v.take 8).length ≤ 8 := List.length_take_le _ _
    calc Positional.ofBytes (v.take 8) < 256 ^ (v.take 8).length := Positional.ofBytes_lt _
      _ ≤ 256 ^ 8 := Nat.pow_le_pow_right (by norm_num) hle
      _ = 2 ^ 64 := by norm_num
  unfold CanonicalReader.str Overlong
  rw [u64_eq]
  by_cases hshort : v.length < 8
  · rw [if_pos hshort]
    simp only [reduceCtorEq, exists_false, false_iff]
    omega
  · rw [if_neg hshort]
    simp only [UInt64.toNat_ofNat', Nat.mod_eq_of_lt hlt, CanonicalReader.overruns, sizeMod]
    generalize Positional.ofBytes (v.take 8) = len at hlt ⊢
    split_ifs with hover hwrap
    · simp only [exists_false, false_iff]
      omega
    · exact iff_of_true ⟨_, rfl⟩ ⟨by omega, by omega⟩
    · simp only [exists_false, false_iff]
      omega

/-- A value is rendered unless the string codec throws on it.
SOURCE: Compatibility.cpp:10-25 -/
theorem renderFieldValue_throws_iff (v : Bytes) :
    (∃ x, renderFieldValue v = .error x) ↔ Overlong v := by
  rw [← str_throws_iff]
  unfold renderFieldValue
  cases (CanonicalReader.mk v 0).str with
  | error x => simp [bind, Except.bind]
  | ok o => cases o <;> simp [bind, Except.bind, pure, Except.pure]

/-! ## One field -/

/-- A value, where there is one, can be rendered. -/
def Renders (o : Option Bytes) : Prop := ∀ v ∈ o, ¬ Overlong v

/-- One side of a diff whose value can be rendered. -/
def side (o : Option Bytes) : Bool × Bytes := (renderSide o).toOption.getD (false, [])

/-- INTERNAL: the side of a field that is there. -/
theorem renderSide_some (v : Bytes) :
    renderSide (some v) = (renderFieldValue v).map fun text => (true, text) := by
  change (renderFieldValue v >>= fun text => pure (true, text)) = _
  cases renderFieldValue v <;> rfl

/-- A side that renders is there when its field is. -/
theorem renderSide_of_renders {o : Option Bytes} (h : Renders o) :
    renderSide o = .ok (side o) ∧ (side o).1 = o.isSome := by
  cases o with
  | none => exact ⟨rfl, rfl⟩
  | some v =>
      cases hv : renderFieldValue v with
      | error x => exact absurd ((renderFieldValue_throws_iff v).mp ⟨x, hv⟩) (h v rfl)
      | ok text =>
          unfold side
          rw [renderSide_some, hv]
          exact ⟨rfl, rfl⟩

/-- INTERNAL: a side without an error renders. -/
theorem renders_of_renderSide {o : Option Bytes} {s : Bool × Bytes} (h : renderSide o = .ok s) :
    Renders o := by
  intro v hv hlong
  obtain ⟨x, hx⟩ := (renderFieldValue_throws_iff v).mpr hlong
  rw [Option.mem_def.mp hv, renderSide_some, hx] at h
  cases h

/-- The diff of a field with the keys exchanged. -/
def exchanged (d : FieldDiff) : FieldDiff :=
  { field := d.field
    presentInRequest := d.presentInArtifact
    requestValue := d.artifactValue
    presentInArtifact := d.presentInRequest
    artifactValue := d.requestValue }

/-- What is listed for a field that differs. -/
def diffOf (a b : CompilationKey) (f : KeyField) : FieldDiff :=
  { field := f
    presentInRequest := (side (b.findField f)).1
    requestValue := (side (b.findField f)).2
    presentInArtifact := (side (a.findField f)).1
    artifactValue := (side (a.findField f)).2 }

/-- The values of a field that differs can be rendered. -/
def FieldRenders (a b : CompilationKey) (f : KeyField) : Prop :=
  Differs a b f → Renders (a.findField f) ∧ Renders (b.findField f)

/-- Fields that render are listed when they differ. -/
theorem fieldDiff_of_renders {f : KeyField} (h : FieldRenders a b f) :
    fieldDiff a b f = .ok (if Differs a b f then some (diffOf a b f) else none) := by
  unfold fieldDiff
  by_cases hd : Differs a b f
  · obtain ⟨ha, hb⟩ := h hd
    rw [if_neg hd, if_pos hd, (renderSide_of_renders hb).1, (renderSide_of_renders ha).1]
    rfl
  · rw [if_pos (not_not.mp hd), if_neg hd]
    rfl

/-- INTERNAL: fields without an error render. -/
theorem renders_of_fieldDiff {f : KeyField} {o : Option FieldDiff} (h : fieldDiff a b f = .ok o) :
    FieldRenders a b f := by
  intro hd
  unfold fieldDiff at h
  rw [if_neg hd] at h
  obtain ⟨request, hrequest, h⟩ := bind_eq_ok h
  obtain ⟨artifact, hartifact, -⟩ := bind_eq_ok h
  exact ⟨renders_of_renderSide hartifact, renders_of_renderSide hrequest⟩

/-! ## All fields -/

/-- The list of the fields that differ, in order. -/
def exactDiffs (a b : CompilationKey) : List FieldDiff :=
  (keyFields.filter fun f => Differs a b f).map (diffOf a b)

/-- INTERNAL: leaving out what does not hold is filtering. -/
theorem reduceOption_map_ite {α β : Type} (p : α → Prop) [DecidablePred p] (g : α → β)
    (xs : List α) : (xs.map fun x => if p x then some (g x) else none).reduceOption =
      (xs.filter p).map g := by
  induction xs with
  | nil => rfl
  | cons x xs ih =>
      by_cases hp : p x
      · rw [List.map_cons, if_pos hp, List.reduceOption_cons_of_some, ih,
          List.filter_cons_of_pos (by simpa using hp), List.map_cons]
      · rw [List.map_cons, if_neg hp, List.reduceOption_cons_of_none, ih,
          List.filter_cons_of_neg (by simpa using hp)]

/-- The list comes out when every value that it needs can be rendered. -/
theorem mergedDiffs_of_renders (h : ∀ f, FieldRenders a b f) :
    mergedDiffs a b = .ok (exactDiffs a b) := by
  rw [mergedDiffs_eq]
  unfold fieldDiffs
  rw [MonadicMap.mapM_eq_pure fun f _ => fieldDiff_of_renders (h f)]
  change Except.ok _ = _
  rw [reduceOption_map_ite]
  rfl

/-- When no error is thrown every field renders. -/
theorem renders_of_mergedDiffs {ds : List FieldDiff} (h : mergedDiffs a b = .ok ds) (f : KeyField) :
    FieldRenders a b f := by
  rw [mergedDiffs_eq] at h
  obtain ⟨os, hos, -⟩ := bind_eq_ok h
  obtain ⟨o, ho⟩ := MonadicMap.exists_of_mem (MonadicMap.forall₂_of_mapM_ok hos) f (mem_keyFields f)
  exact renders_of_fieldDiff ho

/-! ## The list is exact -/

/-- What the diff of two keys is meant to be. -/
structure ListsDifferences (a b : CompilationKey) (ds : List FieldDiff) : Prop where
  increasing : (ds.map fun d => keyFieldTag d.field).Pairwise (· < ·)
  complete : ∀ t, t ∈ ds.map (fun d => keyFieldTag d.field) ↔ a.findTag t ≠ b.findTag t
  empty : ds = [] ↔ (a == b) = true
  presence : ∀ d ∈ ds, d.presentInRequest = (b.findField d.field).isSome ∧
    d.presentInArtifact = (a.findField d.field).isSome
  exchange : mergedDiffs b a = .ok (ds.map exchanged)

/-- The diff of two keys is computed, and is what it is meant to be. -/
def DiffsExact (a b : CompilationKey) : Prop :=
  ∃ ds, mergedDiffs a b = .ok ds ∧ ListsDifferences a b ds

/-- INTERNAL: fields differ either way. -/
theorem differs_comm {f : KeyField} : Differs a b f ↔ Differs b a f := ne_comm

/-- INTERNAL: fields render either way. -/
theorem FieldRenders.symm {f : KeyField} (h : FieldRenders a b f) : FieldRenders b a f :=
  fun hd => (h (differs_comm.mp hd)).symm

/-- The differences the other way have their sides exchanged. -/
theorem exactDiffs_exchange (a b : CompilationKey) :
    exactDiffs b a = (exactDiffs a b).map exchanged := by
  have hfields : (keyFields.filter fun f => Differs b a f) =
      keyFields.filter fun f => Differs a b f := by
    apply List.filter_congr
    intro f _
    rw [decide_eq_decide]
    exact differs_comm
  unfold exactDiffs
  rw [hfields, List.map_map]
  rfl

/-- INTERNAL: the tags of the differences. -/
theorem map_field_exactDiffs (a b : CompilationKey) :
    (exactDiffs a b).map (fun d => keyFieldTag d.field) =
      (keyFields.filter fun f => Differs a b f).map keyFieldTag := by
  unfold exactDiffs
  rw [List.map_map]
  rfl

/-- A tag that no field has is in neither key. -/
theorem differs_of_findTag_ne {t : UInt8} (h : a.findTag t ≠ b.findTag t) :
    ∃ f, Differs a b f ∧ keyFieldTag f = t := by
  obtain ⟨f, rfl⟩ := CompilationKey.exists_field_of_findTag_ne h
  exact ⟨f, h, rfl⟩

/-- The list has exactly the fields that differ, in order. -/
theorem listsDifferences_exactDiffs (h : ∀ f, FieldRenders a b f) :
    ListsDifferences a b (exactDiffs a b) where
  increasing := by
    rw [map_field_exactDiffs, List.pairwise_map]
    exact pairwise_keyFields.filter _
  complete t := by
    rw [map_field_exactDiffs, List.mem_map]
    simp only [List.mem_filter, mem_keyFields, true_and, decide_eq_true_eq]
    constructor
    · rintro ⟨f, hf, rfl⟩
      exact hf
    · exact differs_of_findTag_ne
  empty := by
    rw [beq_iff_not_differs, exactDiffs, List.map_eq_nil_iff, List.filter_eq_nil_iff]
    simp [mem_keyFields]
  presence d hd := by
    obtain ⟨f, hf, rfl⟩ := List.mem_map.mp hd
    obtain ⟨ha, hb⟩ := h f (by simpa using (List.mem_filter.mp hf).2)
    exact ⟨(renderSide_of_renders hb).2, (renderSide_of_renders ha).2⟩
  exchange := by
    rw [mergedDiffs_of_renders fun f => (h f).symm, exactDiffs_exchange]

/-- No field in which the keys differ has a value on either side that begins with a length near
`2 ^ 64`. -/
def NoOverlongDifference (a b : CompilationKey) : Prop :=
  ∀ f, a.findField f ≠ b.findField f →
    ∀ v, a.findField f = some v ∨ b.findField f = some v → ¬ Overlong v

/-- The diff of two keys is exact when no value that it shows throws.
SOURCE: Compatibility.cpp:10-25, 192-211, Key.cpp:178-185 -/
theorem diffsExact_iff (a b : CompilationKey) : DiffsExact a b ↔ NoOverlongDifference a b := by
  constructor
  · rintro ⟨ds, hds, -⟩ f hd v hv
    obtain ⟨ha, hb⟩ := renders_of_mergedDiffs hds f hd
    exact hv.elim (ha v) (hb v)
  · intro h
    have hrenders : ∀ f, FieldRenders a b f := fun f hd =>
      ⟨fun v hv => h f hd v (.inl hv), fun v hv => h f hd v (.inr hv)⟩
    exact ⟨_, mergedDiffs_of_renders hrenders, listsDifferences_exactDiffs hrenders⟩

/-- A rank of `2 ^ 64 - 1` against none. -/
theorem not_diffsExact :
    ¬ DiffsExact (CompilationKey.setAll [⟨.Rank, (18446744073709551615 : UInt64)⟩])
      (CompilationKey.setAll []) := by
  rintro ⟨ds, hds, -⟩
  have hthrows : mergedDiffs (CompilationKey.setAll [⟨.Rank, (18446744073709551615 : UInt64)⟩])
      (CompilationKey.setAll []) = .error .lengthError := by
    decide +kernel
  rw [hthrows] at hds
  cases hds

end CompilationFabric.Analysis
