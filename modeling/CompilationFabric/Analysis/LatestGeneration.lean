import CompilationFabric.Interface.FabricRecovery
import CompilationFabric.Model.StoreCalls

/-!
# The latest generation

A store is a map from artifacts and generations to records.  The directory represents it
(`Represents`): every call changes both alike, as the names of the files are an unambiguous
encoding of what they are of.  So the list is what the map holds, and the loop over it finds the
greatest generation of an artifact that is above zero, which is the greatest unless zero is all
there is.
-/

set_option autoImplicit false

namespace CompilationFabric.Analysis

open CompilationFabric.Interface
open CompilationFabric.Library.TransitionSystem
open CompilationFabric.Model

variable {H : Bytes → Digest} {dir : Directory} {names : List Bytes} {id : ArtifactId}
  {gen : ArtifactGeneration}

/-! ## The abstract store -/

/-- What is stored, and not removed. -/
abbrev Holdings := ArtifactId × ArtifactGeneration → Option PersistedRecord

def Holdings.call (held : Holdings) : StoreCall → Holdings
  | .store record => Function.update held (record.id, record.generation) (some record)
  | .remove id gen => Function.update held (id, gen) none

/-- What is held after a sequence of calls. -/
def holdings (calls : List StoreCall) : Holdings := calls.foldl Holdings.call fun _ => none

/-- The artifact has a generation in the store. -/
def Holdings.Has (held : Holdings) (id : ArtifactId) (gen : ArtifactGeneration) : Prop :=
  (held (id, gen)).isSome = true

/-! ## The property -/

/-- What `list` and `loadLatest` find is what the store holds, in whatever order the directory is
iterated. -/
structure FindsLatest (H : Bytes → Digest) (dir : Directory) (held : Holdings) : Prop where
  nodup : ∀ names, names.Perm dir.keys → (list names).Nodup
  listed : ∀ names, names.Perm dir.keys → ∀ id gen, (id, gen) ∈ list names ↔ held.Has id gen
  /-- The greatest generation is loaded, from the files of its record. -/
  greatest : ∀ names, names.Perm dir.keys → ∀ id gen record, held (id, gen) = some record →
    (∀ gen', held.Has id gen' → gen' ≤ gen) →
      loadLatest H dir names id = load H dir id gen ∧
        dir[metaPath id gen]? = some (encodeMeta H record) ∧
          dir[binPath id gen]? = some record.contentBytes
  notFound : ∀ names, names.Perm dir.keys → ∀ id,
    (∃ message, loadLatest H dir names id = .ok (Err .NotFound message)) ↔
      ∀ gen, ¬ held.Has id gen

/-! ## The directory -/

/-- The directory holds the two files of every record, and no others. -/
structure Represents (H : Bytes → Digest) (dir : Directory) (held : Holdings) : Prop where
  metaFile : ∀ id gen, dir[metaPath id gen]? = (held (id, gen)).map (encodeMeta H)
  binFile : ∀ id gen, dir[binPath id gen]? = (held (id, gen)).map (·.contentBytes)
  named : ∀ name ∈ dir, ∃ id gen, name = metaPath id gen ∨ name = binPath id gen

/-- The empty directory holds nothing. -/
theorem represents_empty : Represents H ∅ fun _ => none where
  metaFile _ _ := Std.ExtTreeMap.getElem?_empty
  binFile _ _ := Std.ExtTreeMap.getElem?_empty
  named _ hname := absurd hname Std.ExtTreeMap.not_mem_empty

/-- What is found of one record after another has been put in or taken out. -/
theorem map_update {α : Type} (f : PersistedRecord → α) (held : Holdings) (i : ArtifactId)
    (g : ArtifactGeneration) (r : Option PersistedRecord) :
    (Function.update held (i, g) r (id, gen)).map f =
      if id = i ∧ gen = g then r.map f else (held (id, gen)).map f := by
  by_cases heq : id = i ∧ gen = g
  · rw [if_pos heq, heq.1, heq.2, Function.update_self]
  · rw [if_neg heq, Function.update_of_ne (by simpa using heq)]

/-- A store changes what is held and the directory alike. -/
theorem Represents.store {held : Holdings} (h : Represents H dir held) (r : PersistedRecord) :
    Represents H (storedDir H dir r) (held.call (.store r)) where
  metaFile id gen := by
    rw [getElem?_storedDir_meta, Holdings.call, map_update, h.metaFile]
    rfl
  binFile id gen := by
    rw [getElem?_storedDir_bin, Holdings.call, map_update, h.binFile]
    rfl
  named name hname := by
    rw [Std.ExtTreeMap.mem_iff_isSome_getElem?, getElem?_storedDir] at hname
    split at hname
    · next hbin => exact ⟨_, _, .inr hbin⟩
    split at hname
    · cases hname
    split at hname
    · next hmeta => exact ⟨_, _, .inl hmeta⟩
    split at hname
    · cases hname
    · exact h.named name (Std.ExtTreeMap.mem_iff_isSome_getElem?.mpr hname)

/-- INTERNAL: a removal removes its own metadata only. -/
theorem getElem?_remove_meta (dir : Directory) (i : ArtifactId) (g : ArtifactGeneration) :
    (remove dir i g)[metaPath id gen]? =
      if id = i ∧ gen = g then none else dir[metaPath id gen]? := by
  rw [remove, getElem?_erase_of_ne _ (metaPath_ne_binPath _ _ _ _)]
  by_cases heq : id = i ∧ gen = g
  · rw [if_pos heq, heq.1, heq.2, Std.ExtTreeMap.getElem?_erase_self]
  · rw [if_neg heq, getElem?_erase_of_ne _ (metaPath_inj.not.mpr heq)]

/-- INTERNAL: a removal removes its own content only. -/
theorem getElem?_remove_bin (dir : Directory) (i : ArtifactId) (g : ArtifactGeneration) :
    (remove dir i g)[binPath id gen]? =
      if id = i ∧ gen = g then none else dir[binPath id gen]? := by
  rw [remove]
  by_cases heq : id = i ∧ gen = g
  · rw [if_pos heq, heq.1, heq.2, Std.ExtTreeMap.getElem?_erase_self]
  · rw [if_neg heq, getElem?_erase_of_ne _ (binPath_inj.not.mpr heq),
      getElem?_erase_of_ne _ (metaPath_ne_binPath _ _ _ _).symm]

/-- INTERNAL: a removal adds no file. -/
theorem mem_of_mem_remove {i : ArtifactId} {g : ArtifactGeneration} {name : Bytes}
    (h : name ∈ remove dir i g) : name ∈ dir :=
  Std.ExtTreeMap.mem_of_mem_erase (Std.ExtTreeMap.mem_of_mem_erase h)

/-- So does a removal. -/
theorem Represents.remove {held : Holdings} (h : Represents H dir held) (i : ArtifactId)
    (g : ArtifactGeneration) : Represents H (remove dir i g) (held.call (.remove i g)) where
  metaFile id gen := by
    rw [getElem?_remove_meta, Holdings.call, map_update, h.metaFile]
    rfl
  binFile id gen := by
    rw [getElem?_remove_bin, Holdings.call, map_update, h.binFile]
    rfl
  named name hname := h.named name (mem_of_mem_remove hname)

/-- After every sequence of calls the directory represents what is held. -/
theorem represents_exec {root : Bytes} (hroot : root ≠ []) {calls : List StoreCall}
    (hrun : exec (storeCall H root) ∅ calls = some dir) : Represents H dir (holdings calls) := by
  refine exec_trace (P := fun _ _ => True) (I := fun calls dir => Represents H dir (holdings calls))
    represents_empty ?_ (meets_of_forall fun _ _ _ => trivial) hrun
  intro calls dir call dir' _ hrep _ hstep
  rw [holdings, List.foldl_concat, ← holdings]
  cases call with
  | store record =>
      rw [storeCall, store_eq hroot] at hstep
      obtain rfl := Option.some.inj hstep
      exact hrep.store record
  | remove i g =>
      obtain rfl := Option.some.inj hstep
      exact hrep.remove i g

/-! ## The list -/

/-- A content file is not listed. -/
theorem parseMetaName_binPath (id : ArtifactId) (gen : ArtifactGeneration) :
    parseMetaName (binPath id gen) = none := by
  have hsuffix : ¬ hasSuffix (binPath id gen) (ascii ".meta") = true := by
    rw [hasSuffix_iff]
    rintro ⟨pre, hpre⟩
    obtain ⟨hmeta, hbin, -⟩ := suffixes_getLast
    exact append_ne_of_getLast hmeta hbin (by decide) hpre
  rw [parseMetaName, if_neg hsuffix]

/-- INTERNAL: the metadata files are those of what is held. -/
theorem Represents.mem_iff {held : Holdings} (h : Represents H dir held) :
    metaPath id gen ∈ dir ↔ held.Has id gen := by
  rw [Std.ExtTreeMap.mem_iff_isSome_getElem?, h.metaFile, Option.isSome_map]
  rfl

/-- The names of the files are those of what is held. -/
theorem Represents.parseMetaName_iff {held : Holdings} (h : Represents H dir held) {name : Bytes}
    (hname : name ∈ dir) : parseMetaName name = some (id, gen) ↔ name = metaPath id gen := by
  constructor
  · intro hparse
    obtain ⟨i, g, rfl | rfl⟩ := h.named name hname
    · rw [parseMetaName_metaPath] at hparse
      obtain ⟨rfl, rfl⟩ := Prod.mk.inj (Option.some.inj hparse)
      rfl
    · rw [parseMetaName_binPath] at hparse
      cases hparse
  · rintro rfl
    exact parseMetaName_metaPath id gen

/-- INTERNAL: what is held is listed. -/
theorem Represents.mem_list {held : Holdings} (h : Represents H dir held)
    (hnames : names.Perm dir.keys) : (id, gen) ∈ list names ↔ held.Has id gen := by
  have hmem : ∀ name, name ∈ names ↔ name ∈ dir := fun name => by
    rw [hnames.mem_iff, Std.ExtTreeMap.mem_keys]
  rw [list, List.mem_filterMap, ← h.mem_iff]
  constructor
  · rintro ⟨name, hname, hparse⟩
    rw [hmem] at hname
    exact (h.parseMetaName_iff hname).mp hparse ▸ hname
  · intro hmeta
    exact ⟨metaPath id gen, (hmem _).mpr hmeta, parseMetaName_metaPath id gen⟩

/-- INTERNAL: nothing is listed twice. -/
theorem Represents.nodup_list {held : Holdings} (h : Represents H dir held)
    (hnames : names.Perm dir.keys) : (list names).Nodup := by
  have hnodup : names.Nodup := hnames.nodup_iff.mpr Std.ExtTreeMap.nodup_keys
  have hmem : ∀ name ∈ names, name ∈ dir := fun name hname =>
    Std.ExtTreeMap.mem_keys.mp (hnames.mem_iff.mp hname)
  refine List.pairwise_filterMap.mpr (hnodup.imp_of_mem fun {a b} ha hb hne => ?_)
  rintro ⟨i, g⟩ hi ⟨j, k⟩ hj heq
  obtain ⟨rfl, rfl⟩ := Prod.mk.inj heq
  rw [h.parseMetaName_iff (hmem a ha)] at hi
  rw [h.parseMetaName_iff (hmem b hb)] at hj
  exact hne (hi.trans hj.symm)

/-! ## The loop -/

/-- The loop ends with the greatest generation of the artifact that is above zero. -/
theorem latestGeneration_spec (records : List (ArtifactId × ArtifactGeneration))
    (id : ArtifactId) :
    (latestGeneration records id = (0, false) ∧ ∀ gen, (id, gen) ∈ records → gen = 0) ∨
      ∃ gen, latestGeneration records id = (gen, true) ∧ gen ≠ 0 ∧ (id, gen) ∈ records ∧
        ∀ gen', (id, gen') ∈ records → gen' ≤ gen := by
  induction records using List.reverseRecOn with
  | nil => exact .inl ⟨rfl, fun gen h => by cases h⟩
  | append_singleton records record ih =>
      obtain ⟨i, g⟩ := record
      have hlast : latestGeneration (records ++ [(i, g)]) id =
          if i = id ∧ g > (latestGeneration records id).1 then (g, true)
          else latestGeneration records id := List.foldl_concat ..
      have hmem : ∀ gen, (id, gen) ∈ records ++ [(i, g)] ↔
          (id, gen) ∈ records ∨ (id = i ∧ gen = g) := by
        intro gen
        rw [List.mem_append, List.mem_singleton, Prod.mk_inj]
      rw [hlast]
      by_cases hgreater : i = id ∧ g > (latestGeneration records id).1
      · obtain ⟨rfl, hg⟩ := hgreater
        rw [if_pos ⟨rfl, hg⟩]
        have hpos : 0 < g := UInt64.lt_of_le_of_lt UInt64.zero_le hg
        refine .inr ⟨g, rfl, UInt64.pos_iff_ne_zero.mp hpos, (hmem g).mpr (.inr ⟨rfl, rfl⟩), ?_⟩
        intro gen' hgen'
        rcases (hmem gen').mp hgen' with hold | ⟨-, rfl⟩
        · rcases ih with ⟨-, hzero⟩ | ⟨gen, heq, -, -, hmax⟩
          · exact hzero gen' hold ▸ UInt64.zero_le
          · rw [heq] at hg
            exact UInt64.le_of_lt (UInt64.lt_of_le_of_lt (hmax gen' hold) hg)
        · exact UInt64.le_refl _
      · rw [if_neg hgreater]
        rcases ih with ⟨heq, hzero⟩ | ⟨gen, heq, hne, hlisted, hmax⟩
        · refine .inl ⟨heq, fun gen hgen => ?_⟩
          rcases (hmem gen).mp hgen with hold | ⟨rfl, rfl⟩
          · exact hzero gen hold
          · rw [heq] at hgreater
            exact not_not.mp fun hne => hgreater ⟨rfl, UInt64.pos_iff_ne_zero.mpr hne⟩
        · refine .inr ⟨gen, heq, hne, (hmem gen).mpr (.inl hlisted), fun gen' hgen' => ?_⟩
          rcases (hmem gen').mp hgen' with hold | ⟨rfl, rfl⟩
          · exact hmax gen' hold
          · rw [heq] at hgreater
            exact UInt64.not_lt.mp fun hlt => hgreater ⟨rfl, hlt⟩

/-- What `loadLatest` does, by what the store holds. -/
theorem Represents.loadLatest_cases {held : Holdings} (h : Represents H dir held)
    (hnames : names.Perm dir.keys) (id : ArtifactId) :
    (loadLatest H dir names id =
        .ok (Err .NotFound (ascii "no generations for artifact " ++ id.toHex)) ∧
      ∀ gen, held.Has id gen → gen = 0) ∨
    ∃ gen, loadLatest H dir names id = load H dir id gen ∧ gen ≠ 0 ∧ held.Has id gen ∧
      ∀ gen', held.Has id gen' → gen' ≤ gen := by
  have hlist : ∀ gen, (id, gen) ∈ list names ↔ held.Has id gen := fun _ => h.mem_list hnames
  rcases latestGeneration_spec (list names) id with ⟨heq, hzero⟩ | ⟨gen, heq, hne, hlisted, hmax⟩
  · refine .inl ⟨?_, fun gen hgen => hzero gen ((hlist gen).mpr hgen)⟩
    simp only [loadLatest, heq, Bool.not_false, if_true]
  · refine .inr ⟨gen, ?_, hne, (hlist gen).mp hlisted, fun gen' hgen' =>
      hmax gen' ((hlist gen').mpr hgen')⟩
    simp only [loadLatest, heq, Bool.not_true, Bool.false_eq_true, if_false]

/-- What is there is not reported as not found. -/
theorem load_ne_notFound {file bin message : Bytes} (hmeta : dir[metaPath id gen]? = some file)
    (hbin : dir[binPath id gen]? = some bin) :
    load H dir id gen ≠ .ok (Err .NotFound message) := by
  rw [load_of_meta H hmeta, hbin]
  intro h
  obtain ⟨parsed, -, hload⟩ := map_eq_ok h
  cases parsed with
  | error e => cases hload
  | ok record =>
      dsimp only [loadContent] at hload
      split at hload
      · cases hload
      · split at hload <;> cases hload

/-! ## Stores -/

/-- Where generation zero is not alone the latest one is found. -/
theorem findsLatest_of_positive {held : Holdings} (h : Represents H dir held)
    (hpositive : ∀ id, held.Has id 0 → ∃ gen, gen ≠ 0 ∧ held.Has id gen) :
    FindsLatest H dir held where
  nodup _ hnames := h.nodup_list hnames
  listed _ hnames _ _ := h.mem_list hnames
  greatest names hnames id gen record hrecord hmax := by
    have hhas : held.Has id gen := by rw [Holdings.Has, hrecord, Option.isSome_some]
    refine ⟨?_, by rw [h.metaFile, hrecord, Option.map_some],
      by rw [h.binFile, hrecord, Option.map_some]⟩
    rcases h.loadLatest_cases hnames id with ⟨-, hzero⟩ | ⟨gen', hload, -, hhas', hmax'⟩
    · obtain rfl := hzero gen hhas
      obtain ⟨gen', hne, hhas'⟩ := hpositive id hhas
      exact absurd (hzero gen' hhas') hne
    · rw [hload, UInt64.le_antisymm (hmax gen' hhas') (hmax' gen hhas)]
  notFound names hnames id := by
    rcases h.loadLatest_cases hnames id with ⟨hload, hzero⟩ | ⟨gen, hload, -, hhas, -⟩
    · refine ⟨fun _ gen hhas => ?_, fun _ => ⟨_, hload⟩⟩
      obtain rfl := hzero gen hhas
      obtain ⟨gen', hne, hhas'⟩ := hpositive id hhas
      exact hne (hzero gen' hhas')
    · obtain ⟨record, hrecord⟩ := Option.isSome_iff_exists.mp hhas
      refine ⟨?_, fun hnone => absurd hhas (hnone gen)⟩
      rintro ⟨message, hnotFound⟩
      rw [hload] at hnotFound
      have hmeta := h.metaFile id gen
      have hbin := h.binFile id gen
      rw [hrecord, Option.map_some] at hmeta hbin
      exact absurd hnotFound (load_ne_notFound hmeta hbin)

/-- INTERNAL: where the latest one is found generation zero is not alone. -/
theorem FindsLatest.positive {held : Holdings} (h : FindsLatest H dir held)
    (hrep : Represents H dir held) (id : ArtifactId) (hhas : held.Has id 0) :
    ∃ gen, gen ≠ 0 ∧ held.Has id gen := by
  have hnames : dir.keys.Perm dir.keys := List.Perm.refl _
  rcases hrep.loadLatest_cases hnames id with ⟨hload, -⟩ | ⟨gen, -, hne, hhas', -⟩
  · exact absurd hhas ((h.notFound _ hnames id).mp ⟨_, hload⟩ 0)
  · exact ⟨gen, hne, hhas'⟩

/-- After any sequence of calls, the list is what is held and the latest generation is found, if and
only if no artifact has generation 0 alone.
SOURCE: Persistence.cpp:121-136, 158-190 -/
theorem findsLatest_iff {root : Bytes} (hroot : root ≠ []) {calls : List StoreCall}
    (hrun : exec (storeCall H root) ∅ calls = some dir) :
    FindsLatest H dir (holdings calls) ↔
      ∀ id, (holdings calls).Has id 0 → ∃ gen, gen ≠ 0 ∧ (holdings calls).Has id gen := by
  have hrep := represents_exec hroot hrun
  exact ⟨fun h => h.positive hrep, findsLatest_of_positive hrep⟩

/-- Generation 0 of an artifact, and then the next. -/
def twoGenerations : List StoreCall := [.store {}, .store { generation := 1 }]

/-- Two generations of one artifact, of which the second is found. -/
theorem findsLatest_twoGenerations :
    ∃ dir, exec (storeCall (fun _ => .zero) (ascii "root")) ∅ twoGenerations = some dir ∧
      FindsLatest (fun _ => .zero) dir (holdings twoGenerations) := by
  have hroot : ascii "root" ≠ [] := by decide
  refine ⟨_, rfl, (findsLatest_iff hroot rfl).mpr fun id hhas => ⟨1, by decide, ?_⟩⟩
  have hid : id = {} := by
    by_contra hne
    simp [Holdings.Has, holdings, twoGenerations, Holdings.call, Function.update, hne] at hhas
  rw [hid]
  rfl

/-- Generation 0 alone is not found. -/
theorem not_findsLatest :
    ¬ ∀ (H : Bytes → Digest) (root : Bytes) (calls : List StoreCall) (dir : Directory), root ≠ [] →
      exec (storeCall H root) ∅ calls = some dir → FindsLatest H dir (holdings calls) := by
  intro hall
  have hrun : exec (storeCall (fun _ => .zero) (ascii "root")) ∅ [.store {}] = some _ := rfl
  have hroot : ascii "root" ≠ [] := by decide
  obtain ⟨gen, hne, hhas⟩ := (hall _ _ _ _ hroot hrun).positive (represents_exec hroot hrun) {} rfl
  simp [Holdings.Has, holdings, Holdings.call, Function.update, hne] at hhas

end CompilationFabric.Analysis
