import CompilationFabric.Interface.FabricRecovery
import CompilationFabric.Model.StoreCalls

/-!
# What a recovery accounts for

`recover` reports one entry for every name that its scan can parse, and every entry under the
artifact and generation that the name parses to (`perm_entries`).  So a metadata file is accounted
for exactly once when its name parses and no other name parses to the same.  Names that do not
parse are skipped, and the scan is permissive about the rest: leading zeros, signs and capital
digits all give a generation or an identity that another name gives, too.
-/

set_option autoImplicit false

namespace CompilationFabric.Analysis

open CompilationFabric.Interface
open CompilationFabric.Model

variable {H : Bytes → Digest} {dir : Directory} {names listing : List Bytes} {id : ArtifactId}
  {gen : ArtifactGeneration} {res res' : RecoveryResult}

/-! ## The property -/

def isMeta (name : Bytes) : Bool := hasSuffix name (ascii ".meta")

/-- What the entries of a result are of. -/
def entries (res : RecoveryResult) : List (ArtifactId × ArtifactGeneration) :=
  (res.valid ++ res.invalidated ++ res.corrupted).map fun e => (e.id, e.generation)

/-- How many entries there are for the artifact and generation that a name stands for. -/
def entriesFor (res : RecoveryResult) (name : Bytes) : ℕ :=
  (entries res).countP fun x => parseMetaName name = some x

/-- The names in an order in which the iterator can yield them, before and after the temporary files
are removed. -/
def Iterates (dir : Directory) (names listing : List Bytes) : Prop :=
  names.Perm dir.keys ∧ listing.Perm (removeOrphans dir names).keys

/-- A recovery of the directory ends without temporary files and with one entry for every metadata
file. -/
def AccountsForAll (H : Bytes → Digest) (dir : Directory) : Prop :=
  ∀ names listing, Iterates dir names listing → ∃ res,
    recoverStore H dir names listing = .ok res ∧
      (∀ name ∈ removeOrphans dir names, World.isTmp name = false) ∧
        ∀ name ∈ removeOrphans dir names, isMeta name = true → entriesFor res name = 1

/-- Every metadata file has a name that parses, to what no other name does, and bytes that do not
make its reader throw. -/
structure WellNamed (H : Bytes → Digest) (dir : Directory) : Prop where
  parses : ∀ name ∈ dir, isMeta name = true → parseMetaName name ≠ none
  distinct : ∀ name ∈ dir, ∀ other ∈ dir, ∀ x, parseMetaName name = some x →
    parseMetaName other = some x → name = other
  reads : ∀ id gen file, dir[metaPath id gen]? = some file →
    ∃ parsed, decodeMeta H file = .ok parsed

/-! ## Files -/

/-- INTERNAL: a metadata file is not temporary. -/
theorem isTmp_of_isMeta {name : Bytes} (h : isMeta name = true) : World.isTmp name = false := by
  obtain ⟨pre, rfl⟩ := hasSuffix_iff.mp h
  by_contra htmp
  obtain ⟨pre', hpre⟩ := hasSuffix_iff.mp (Bool.eq_true_of_not_eq_false htmp)
  exact append_ne_of_getLast suffixes_getLast.2.2 suffixes_getLast.1 (by decide) hpre

/-- INTERNAL: a name that parses ends as a metadata file does. -/
theorem isMeta_of_parses {name : Bytes} {x : ArtifactId × ArtifactGeneration}
    (h : parseMetaName name = some x) : isMeta name = true := by
  unfold parseMetaName at h
  split at h
  · assumption
  · cases h

/-- Cleaning removes the temporary files, and no others. -/
theorem getElem?_removeOrphans (hnames : names.Perm dir.keys) (name : Bytes) :
    (removeOrphans dir names)[name]? = if World.isTmp name = true then none else dir[name]? := by
  refine (getElem?_removeFiles dir (names.filter World.isTmp) name).trans ?_
  have hmem : name ∈ names.filter World.isTmp ↔ name ∈ dir ∧ World.isTmp name = true := by
    rw [List.mem_filter, hnames.mem_iff, Std.ExtTreeMap.mem_keys]
  by_cases htmp : World.isTmp name = true
  · rw [if_pos htmp]
    by_cases hdir : name ∈ dir
    · rw [if_pos (hmem.mpr ⟨hdir, htmp⟩)]
    · rw [if_neg fun h => hdir (hmem.mp h).1, Std.ExtTreeMap.getElem?_eq_none hdir]
  · rw [if_neg htmp, if_neg fun h => htmp (hmem.mp h).2]

/-- INTERNAL: the files after cleaning. -/
theorem mem_removeOrphans (hnames : names.Perm dir.keys) {name : Bytes} :
    name ∈ removeOrphans dir names ↔ name ∈ dir ∧ World.isTmp name = false := by
  rw [Std.ExtTreeMap.mem_iff_isSome_getElem?, getElem?_removeOrphans hnames,
    Std.ExtTreeMap.mem_iff_isSome_getElem?]
  cases World.isTmp name <;> simp

/-! ## Loading -/

/-- A record is reported under the artifact and generation that it was asked for. -/
theorem entries_recordLoaded {r : Result PersistedRecord} (hload : load H dir id gen = .ok r) :
    (entries (recordLoaded res id gen r)).Perm (entries res ++ [(id, gen)]) := by
  unfold entries
  cases r with
  | error e =>
      simp only [recordLoaded, List.map_append, List.map_singleton, badRecord, List.append_assoc]
      exact List.Perm.refl _
  | ok record =>
      obtain ⟨file, r, bin, -, -, -, rfl, rfl, rfl, -⟩ := files_of_load hload
      simp only [recordLoaded]
      split
      · simp only [List.map_append, List.map_singleton, List.append_assoc]
        exact List.Perm.append_left _ (List.Perm.append_left _ List.perm_append_comm)
      · simp only [List.map_append, List.map_singleton, List.append_assoc]
        refine List.Perm.append_left _ ?_
        rw [← List.append_assoc (List.map _ res.invalidated)]
        exact List.perm_append_comm

/-- INTERNAL: the first record is loaded, then the others. -/
theorem loadRecords_cons {x : ArtifactId × ArtifactGeneration}
    {records : List (ArtifactId × ArtifactGeneration)}
    (h : loadRecords H dir (x :: records) res = .ok res') :
    ∃ r, load H dir x.1 x.2 = .ok r ∧
      loadRecords H dir records (recordLoaded res x.1 x.2 r) = .ok res' :=
  bind_eq_ok h

/-- There is an entry for every record that is listed. -/
theorem perm_entries {records : List (ArtifactId × ArtifactGeneration)}
    (h : loadRecords H dir records res = .ok res') :
    (entries res').Perm (entries res ++ records) := by
  induction records generalizing res with
  | nil =>
      obtain rfl := Except.ok.inj h
      rw [List.append_nil]
  | cons x records ih =>
      obtain ⟨r, hload, hrest⟩ := loadRecords_cons h
      refine (ih hrest).trans ?_
      rw [List.append_cons]
      exact (entries_recordLoaded hload).append_right records

/-- INTERNAL: when no exception is thrown every record is loaded. -/
theorem loads_of_loadRecords {records : List (ArtifactId × ArtifactGeneration)}
    (h : loadRecords H dir records res = .ok res') :
    ∀ x ∈ records, ∃ r, load H dir x.1 x.2 = .ok r := by
  induction records generalizing res with
  | nil => exact fun x hx => by cases hx
  | cons x records ih =>
      obtain ⟨r, hload, hrest⟩ := loadRecords_cons h
      exact List.forall_mem_cons.mpr ⟨⟨r, hload⟩, ih hrest⟩

/-- INTERNAL: when every record is loaded no exception is thrown. -/
theorem exists_loadRecords {records : List (ArtifactId × ArtifactGeneration)}
    (h : ∀ x ∈ records, ∃ r, load H dir x.1 x.2 = .ok r) (res : RecoveryResult) :
    ∃ res', loadRecords H dir records res = .ok res' := by
  induction records generalizing res with
  | nil => exact ⟨res, rfl⟩
  | cons x records ih =>
      obtain ⟨⟨r, hload⟩, hrest⟩ := List.forall_mem_cons.mp h
      obtain ⟨res', hres'⟩ := ih hrest (recordLoaded res x.1 x.2 r)
      refine ⟨res', ?_⟩
      rw [loadRecords, hload]
      exact hres'

/-- A load ends, unless the reader of the metadata throws. -/
theorem load_ends_iff : (∃ r, load H dir id gen = .ok r) ↔
    ∀ file, dir[metaPath id gen]? = some file → ∃ parsed, decodeMeta H file = .ok parsed := by
  constructor
  · rintro ⟨r, hload⟩ file hmeta
    rw [load_of_meta H hmeta] at hload
    obtain ⟨parsed, hdecode, -⟩ := map_eq_ok hload
    exact ⟨parsed, hdecode⟩
  · intro hreads
    cases hmeta : dir[metaPath id gen]? with
    | none =>
        rw [load, hmeta]
        exact ⟨_, rfl⟩
    | some file =>
        obtain ⟨parsed, hdecode⟩ := hreads file hmeta
        rw [load_of_meta H hmeta, hdecode]
        exact ⟨_, rfl⟩

/-! ## Names -/

/-- The entries for a name are as many as the names that parse to the same. -/
theorem entriesFor_eq {name : Bytes} {x : ArtifactId × ArtifactGeneration}
    (hentries : (entries res).Perm (list listing)) (hparse : parseMetaName name = some x) :
    entriesFor res name = listing.countP fun other => parseMetaName other = some x := by
  unfold entriesFor list at *
  rw [hentries.countP_eq, hparse, List.countP_filterMap]
  refine List.countP_congr fun other _ => ?_
  cases parseMetaName other with
  | none => simp
  | some y => simp [eq_comm]

/-- One name of a list without duplicates is the only one of a kind. -/
theorem countP_eq_one_iff {α : Type} [DecidableEq α] {l : List α} {p : α → Bool} {a : α}
    (hnodup : l.Nodup) (ha : a ∈ l) (hp : p a = true) :
    l.countP p = 1 ↔ ∀ b ∈ l, p b = true → b = a := by
  constructor
  · intro hone b hb hpb
    rw [List.countP_eq_length_filter, List.length_eq_one_iff] at hone
    obtain ⟨c, hc⟩ := hone
    have hmem : ∀ d ∈ l, p d = true → d = c := fun d hd hpd => by
      have hfilter := List.mem_filter.mpr ⟨hd, hpd⟩
      rwa [hc, List.mem_singleton] at hfilter
    rw [hmem b hb hpb, hmem a ha hp]
  · intro honly
    have hcongr : l.countP p = l.count a := List.countP_congr fun b hb => by
      rw [beq_iff_eq]
      exact ⟨honly b hb, fun h => h ▸ hp⟩
    rw [hcongr, List.count_eq_one_of_mem hnodup ha]

/-! ## Directories -/

/-- INTERNAL: cleaning leaves the metadata. -/
theorem getElem?_removeOrphans_meta (hnames : names.Perm dir.keys) (id : ArtifactId)
    (gen : ArtifactGeneration) :
    (removeOrphans dir names)[metaPath id gen]? = dir[metaPath id gen]? := by
  rw [getElem?_removeOrphans hnames, isTmp_metaPath, if_neg Bool.false_ne_true]

/-- INTERNAL: what is iterated over is what is left after cleaning. -/
theorem Iterates.mem_iff (h : Iterates dir names listing) {name : Bytes} :
    name ∈ listing ↔ name ∈ dir ∧ World.isTmp name = false := by
  rw [h.2.mem_iff, Std.ExtTreeMap.mem_keys, mem_removeOrphans h.1]

/-- INTERNAL: no file is iterated over twice. -/
theorem Iterates.nodup (h : Iterates dir names listing) : listing.Nodup :=
  h.2.nodup_iff.mpr Std.ExtTreeMap.nodup_keys

/-- Where the metadata is well named every file is accounted for. -/
theorem accountsForAll_of_wellNamed (h : WellNamed H dir) : AccountsForAll H dir := by
  intro names listing hiter
  have hloads : ∀ x ∈ list listing, ∃ r, load H (removeOrphans dir names) x.1 x.2 = .ok r := by
    intro x _
    rw [load_ends_iff, getElem?_removeOrphans_meta hiter.1]
    exact h.reads x.1 x.2
  obtain ⟨res, hres⟩ := exists_loadRecords hloads
    { orphanTempRemoved := names.filter (hasSuffix · (ascii ".tmp")) }
  refine ⟨res, hres, fun name hname => ((mem_removeOrphans hiter.1).mp hname).2, ?_⟩
  intro name hname hmeta
  have hmem := (mem_removeOrphans hiter.1).mp hname
  obtain ⟨x, hparse⟩ := Option.ne_none_iff_exists'.mp (h.parses name hmem.1 hmeta)
  rw [entriesFor_eq (perm_entries hres) hparse,
    countP_eq_one_iff hiter.nodup (hiter.mem_iff.mpr hmem) (decide_eq_true hparse)]
  intro other hother hsame
  exact h.distinct other (hiter.mem_iff.mp hother).1 name hmem.1 x (of_decide_eq_true hsame) hparse

/-- INTERNAL: where every file is accounted for the metadata is well named. -/
theorem AccountsForAll.wellNamed (h : AccountsForAll H dir) : WellNamed H dir := by
  have hiter : Iterates dir dir.keys (removeOrphans dir dir.keys).keys :=
    ⟨List.Perm.refl _, List.Perm.refl _⟩
  obtain ⟨res, hres, -, hone⟩ := h _ _ hiter
  have hkept : ∀ name ∈ dir, isMeta name = true → name ∈ removeOrphans dir dir.keys :=
    fun name hname hmeta => (mem_removeOrphans hiter.1).mpr ⟨hname, isTmp_of_isMeta hmeta⟩
  refine ⟨?_, ?_, ?_⟩
  · intro name hname hmeta hnone
    have hcount := hone name (hkept name hname hmeta) hmeta
    rw [entriesFor, hnone] at hcount
    simp at hcount
  · intro name hname other hother x hparse hparse'
    have hmeta := isMeta_of_parses hparse
    have hmem := hiter.mem_iff.mpr ⟨hname, isTmp_of_isMeta hmeta⟩
    have hcount := hone name (hkept name hname hmeta) hmeta
    rw [entriesFor_eq (perm_entries hres) hparse,
      countP_eq_one_iff hiter.nodup hmem (decide_eq_true hparse)] at hcount
    have hmem' := hiter.mem_iff.mpr ⟨hother, isTmp_of_isMeta (isMeta_of_parses hparse')⟩
    exact (hcount other hmem' (decide_eq_true hparse')).symm
  · intro id gen file hfile
    have hparse := parseMetaName_metaPath id gen
    have hdir : metaPath id gen ∈ dir := by
      rw [Std.ExtTreeMap.mem_iff_isSome_getElem?, hfile, Option.isSome_some]
    have hmem := hiter.mem_iff.mpr ⟨hdir, isTmp_of_isMeta (isMeta_of_parses hparse)⟩
    have hload := loads_of_loadRecords hres (id, gen)
      (List.mem_filterMap.mpr ⟨_, hmem, hparse⟩)
    rw [load_ends_iff, getElem?_removeOrphans_meta hiter.1] at hload
    exact hload file hfile

/-- A recovery accounts for every metadata file, once each, if and only if the names parse, each to
something else, and no metadata makes its reader throw.
SOURCE: Persistence.cpp:165-216, Persistence.hpp:49-63 -/
theorem accountsForAll_iff (H : Bytes → Digest) (dir : Directory) :
    AccountsForAll H dir ↔ WellNamed H dir :=
  ⟨AccountsForAll.wellNamed, accountsForAll_of_wellNamed⟩

/-- A metadata file with a name that the store never writes is not accounted for. -/
theorem not_accountsForAll :
    ¬ ∀ (H : Bytes → Digest) (dir : Directory), AccountsForAll H dir := by
  intro hall
  let dir : Directory := Std.ExtTreeMap.empty.insert (ascii "zzz_1.meta") []
  have hnamed := (hall (fun _ => .zero) dir).wellNamed
  exact hnamed.parses (ascii "zzz_1.meta") Std.ExtTreeMap.mem_insert_self (by decide +kernel)
    (by decide +kernel)

/-! ## The recovery of the fabric -/

/-- INTERNAL: a record is valid here exactly when it is for the fabric. -/
theorem valid_recordLoaded {w : World} {r : Result PersistedRecord}
    (hload : load H w.dir id gen = .ok r) :
    (recordLoaded res id gen r).valid =
      res.valid ++ (validRecord H w (id, gen)).toList.map (·.record) := by
  unfold validRecord
  rw [hload]
  cases r with
  | error e => simp [recordLoaded]
  | ok record => cases hinvalid : record.invalidated <;> simp [recordLoaded, hinvalid]

/-- INTERNAL: so are all of them, by induction on the list. -/
theorem valid_loadRecords {w : World} {records : List (ArtifactId × ArtifactGeneration)}
    (h : loadRecords H w.dir records res = .ok res') :
    res'.valid = res.valid ++ (records.filterMap (validRecord H w)).map (·.record) := by
  induction records generalizing res with
  | nil =>
      obtain rfl := Except.ok.inj h
      simp
  | cons x records ih =>
      obtain ⟨r, hload, hrest⟩ := loadRecords_cons h
      rw [ih hrest, valid_recordLoaded hload, filterMap_cons_toList, List.map_append,
        List.append_assoc]

/-- The valid records are those that the recovery of the fabric goes on with. -/
theorem valid_recoverStore {w : World} (h : recoverStore H w.dir names listing = .ok res) :
    res.valid = (recordsOf H w listing).map (·.record) := by
  have hvalid := valid_loadRecords (w := cleanedWorld w names) h
  have hsame : validRecord H (cleanedWorld w names) = validRecord H w :=
    funext fun x => validRecord_cleanedWorld x
  rw [hsame] at hvalid
  exact hvalid

end CompilationFabric.Analysis
