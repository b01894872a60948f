import CompilationFabric.Interface.FabricRuns
import CompilationFabric.Interface.RecordFile

/-!
# Commits, and what is kept of them

Every artifact in the cache, in the store and in the hands of a `recover` has been committed
by one compile.  `Commit` is that event, and this file says what its traces have in common
with it: the descriptor names it and digests its key and its bytes (`Describes`), a record
that is stored holds it (`Stores`), and reading such a record back finds it, even through the
fields the text format loses (`loadMeta_of_metaFile`, `restores_of_loadContent`).

A cache entry is a trace of the commit its `origin` made (`EntryOf`), and `CacheStep` lists what a
step can have done to it.
-/

set_option autoImplicit false

namespace CompilationFabric.Interface

open CompilationFabric.Model

variable {H : Bytes → Digest} {w : World} {m : Commit} {d : ArtifactDescriptor}
  {r : PersistedRecord} {k : CompilationKey} {e : CacheEntry}

/-! ## Descriptors -/

/-- The commit that a validated artifact of a call makes. -/
def commitOf (c : CallId) (call : Call) (v : Validated) : Commit :=
  { call := c, key := call.key, id := v.art.id, generation := v.art.generation
    bytes := v.build.output.executable }

/-- The descriptor is one of the committed artifact. -/
structure Describes (H : Bytes → Digest) (d : ArtifactDescriptor) (m : Commit) : Prop where
  id : d.id = m.id
  keyDigest : d.keyDigest = m.key.digest H
  contentDigest : d.contentDigest = H m.bytes

/-- The descriptor as it is committed. -/
structure Eligible (d : ArtifactDescriptor) : Prop where
  state : d.state = ascii "Deployable"
  passed : d.validation.passed = true
  deployable : d.deployment.deployable = true

/-- The state and the two flags agree. -/
structure Consistent (d : ArtifactDescriptor) : Prop where
  deployable : d.state = ascii "Deployable" →
    d.validation.passed = true ∧ d.deployment.deployable = true
  state : d.deployment.deployable = true → d.state = ascii "Deployable"

/-- What is eligible is consistent. -/
theorem Eligible.consistent (h : Eligible d) : Consistent d :=
  ⟨fun _ => ⟨h.passed, h.deployable⟩, fun _ => h.state⟩

/-! ## Records -/

/-- The record that a commit stores. -/
structure Stores (H : Bytes → Digest) (r : PersistedRecord) (m : Commit) : Prop where
  sorted : m.key.Sorted
  key : r.key = m.key
  generation : r.descriptor.generation = m.generation
  describes : Describes H r.descriptor m
  eligible : Eligible r.descriptor
  valid : r.invalidated = false

/-- A metadata file of a commit. -/
def MetaFile (H : Bytes → Digest) (file : Bytes) (m : Commit) : Prop :=
  ∃ r, file = encodeMeta H r ∧ file.length < sizeMod ∧ Stores H r m

/-- What reading the metadata of a commit finds. -/
structure Reads (H : Bytes → Digest) (r : PersistedRecord) (m : Commit) : Prop where
  key : r.key = m.key
  id : r.id = m.id
  generation : r.descriptor.generation = r.generation
  describes : Describes H r.descriptor m
  eligible : Eligible r.descriptor
  valid : r.invalidated = false

/-- A whole record of a commit, with content that passed the check. -/
structure Restores (H : Bytes → Digest) (r : PersistedRecord) (m : Commit) : Prop where
  key : r.key = m.key
  generation : r.descriptor.generation = m.generation
  describes : Describes H r.descriptor m
  eligible : Eligible r.descriptor
  content : H m.bytes = .zero ∨ H r.contentBytes = H m.bytes

/-- INTERNAL: sorting does nothing to what is sorted. -/
theorem sortFields_of_sorted (h : k.Sorted) : sortFields k.fields = k.fields :=
  List.Pairwise.insertionSort_eq (h.imp fun hab => UInt8.le_of_lt hab)

/-- The metadata of a record load, under the key of the record if its fields are in tag order. -/
theorem loadMeta_encodeMeta (hsorted : r.key.Sorted) (hsize : (encodeMeta H r).length < sizeMod)
    (id : ArtifactId) (gen : ArtifactGeneration) :
    loadMeta H (some (encodeMeta H r)) id gen = .ok (.ok (wireRecord r r.key)) := by
  obtain ⟨k, hdecode, hk⟩ := decodeMeta_encodeMeta H r hsize
  obtain rfl : k = r.key :=
    CompilationKey.ext_fields (hk.trans (sortFields_of_sorted hsorted))
  simp only [loadMeta, hdecode, bind, Except.bind, pure, Except.pure]

/-- The metadata of a commit loads. -/
theorem loadMeta_of_metaFile {file : Bytes} (h : MetaFile H file m) (id : ArtifactId)
    (gen : ArtifactGeneration) :
    ∃ r, loadMeta H (some file) id gen = .ok (.ok r) ∧ Reads H r m := by
  obtain ⟨r, rfl, hsize, hr⟩ := h
  refine ⟨wireRecord r r.key, loadMeta_encodeMeta (hr.key ▸ hr.sorted) hsize id gen, hr.key,
    hr.describes.id, rfl, ?_, ?_, hr.valid⟩
  · exact ⟨hr.describes.id, hr.describes.keyDigest, hr.describes.contentDigest⟩
  · exact ⟨hr.eligible.state, hr.eligible.passed, hr.eligible.deployable⟩

/-- A record that loads whole is one of the commit whose metadata was read. -/
theorem restores_of_loadContent {r' : PersistedRecord} {file : Option Bytes} (h : Reads H r m)
    (hload : loadContent H r file m.id m.generation = .ok r') : Restores H r' m := by
  obtain ⟨bin, -, rfl, -, hgen, hdigest⟩ := loadContent_eq_ok hload
  refine ⟨h.key, h.generation.trans hgen, h.describes, h.eligible, ?_⟩
  rwa [h.describes.contentDigest] at hdigest

/-! ## Cache entries -/

/-- A cache entry is a trace of a commit. -/
structure EntryOf (H : Bytes → Digest) (k : CompilationKey) (e : CacheEntry) (m : Commit) :
    Prop where
  origin : m.call = e.origin
  key : e.key = k
  commitKey : m.key = k
  generation : e.descriptor.generation = m.generation
  describes : Describes H e.descriptor m
  content : H m.bytes = .zero ∨ H e.bytes = H m.bytes
  consistent : Consistent e.descriptor

namespace EntryOf

variable (h : EntryOf H k e m)
include h

/-- Touching an entry leaves it that of its commit. -/
theorem touch (now : Int64) : EntryOf H k (e.touch now) m :=
  ⟨h.origin, h.key, h.commitKey, h.generation, ⟨h.describes.1, h.describes.2, h.describes.3⟩,
    h.content, ⟨h.consistent.1, h.consistent.2⟩⟩

/-- Unloading an entry leaves it that of its commit. -/
theorem unload : EntryOf H k e.unload m :=
  ⟨h.origin, h.key, h.commitKey, h.generation, ⟨h.describes.1, h.describes.2, h.describes.3⟩,
    h.content, ⟨h.consistent.1, h.consistent.2⟩⟩

/-- Invalidating an entry leaves it that of its commit. -/
theorem invalidate : EntryOf H k e.invalidate m where
  origin := h.origin
  key := h.key
  commitKey := h.commitKey
  generation := h.generation
  describes := ⟨h.describes.1, h.describes.2, h.describes.3⟩
  content := h.content
  consistent := ⟨fun hs => absurd hs (by change ¬ ascii "Invalidated" = _; decide), fun hd => by
    cases hd⟩

/-- Superseding an entry leaves it that of its commit. -/
theorem supersede : EntryOf H k e.supersede m where
  origin := h.origin
  key := h.key
  commitKey := h.commitKey
  generation := h.generation
  describes := ⟨h.describes.1, h.describes.2, h.describes.3⟩
  content := h.content
  consistent := ⟨fun hs => absurd hs (by change ¬ ascii "Superseded" = _; decide), fun hd => by
    cases hd⟩

end EntryOf

/-- A recovered entry is that of the commit which its record restores. -/
theorem entryOf_recovered {l : Loaded} (h : Restores H l.record m) (horigin : m.call = l.origin) :
    EntryOf H l.record.key (w.recoveredEntry l) m where
  origin := horigin
  key := rfl
  commitKey := h.key.symm
  generation := h.generation
  describes := h.describes
  content := h.content
  consistent := h.eligible.consistent

/-! ## What a recovery leaves in the cache -/

/-- The record of a key that a recovery inserts last. -/
def lastLoaded (valid : List Loaded) (k : CompilationKey) : Option Loaded :=
  valid.reverse.find? fun l => l.record.key = k

/-- INTERNAL: the last record of a key is one of them, and has the key. -/
theorem mem_of_lastLoaded {valid : List Loaded} {l : Loaded} (h : lastLoaded valid k = some l) :
    l ∈ valid ∧ l.record.key = k :=
  ⟨List.mem_reverse.mp (List.mem_of_find?_eq_some h), by simpa using List.find?_some h⟩

/-- Inserting records one by one leaves the last one of each key. -/
theorem getElem?_foldl_insert (f : Loaded → CacheEntry) (valid : List Loaded)
    (cache : Std.ExtTreeMap CompilationKey CacheEntry compare) (k : CompilationKey) :
    (valid.foldl (fun cache l => cache.insert l.record.key (f l)) cache)[k]? =
      ((lastLoaded valid k).map f).or cache[k]? := by
  induction valid generalizing cache with
  | nil => rfl
  | cons l valid ih =>
      rw [List.foldl_cons, ih, lastLoaded, lastLoaded, List.reverse_cons, List.find?_append,
        Std.ExtTreeMap.getElem?_insert]
      cases hfind : valid.reverse.find? fun l => l.record.key = k with
      | some l' => rfl
      | none =>
          by_cases hk : l.record.key = k
          · simp [hk]
          · have hne : compare l.record.key k ≠ .eq := fun h =>
              hk (Std.LawfulEqOrd.compare_eq_iff_eq.mp h)
            simp [hk, hne]

/-- An entry after a recovery: the last record of the key, or what was there before. -/
theorem getElem?_recoveredCache (w : World) (valid : List Loaded) (k : CompilationKey) :
    (recoveredCache w valid)[k]? =
      (((lastLoaded valid k).map w.recoveredEntry).or w.impl.cache[k]?).map
        CacheEntry.unload := by
  rw [recoveredCache, Std.ExtTreeMap.getElem?_map, getElem?_foldl_insert]

/-! ## What a step does to an entry -/

/-- Where the entry of a key after a step comes from. -/
inductive CacheStep (w : World) (k : CompilationKey) : Event → World → CacheEntry → Prop
  | kept {a : Event} {w' : World} {e : CacheEntry} (h : w.impl.cache[k]? = some e)
      (hmarks : w'.invalidated = w.invalidated) : CacheStep w k a w' e
  | touched {a : Event} {w' : World} {e : CacheEntry} {now : Int64}
      (h : w.impl.cache[k]? = some e) (hmarks : w'.invalidated = w.invalidated) :
      CacheStep w k a w' (e.touch now)
  | published {c : CallId} {call : Call} {v : Validated} (hcall : w.calls c = some call)
      (hphase : call.phase = .validated v) (hkey : call.key = k) :
      CacheStep w k (.commit c) (w.publish c call v)
        { key := call.key
          descriptor := v.art
          bytes := v.build.output.executable
          baseCacheGen := w.impl.cacheGen
          baseToolchainGen := w.impl.toolchainGen
          origin := c }
  | invalidated {a : Authority} {e : CacheEntry} (h : w.impl.cache[k]? = some e)
      (hselects : a.selects k e = true) :
      CacheStep w k (.invalidate a) (w.invalidate a) e.invalidate
  | passed {a : Authority} {e : CacheEntry} (h : w.impl.cache[k]? = some e)
      (hselects : a.selects k e = false) : CacheStep w k (.invalidate a) (w.invalidate a) e
  | superseded {id : ArtifactId} {gen : ArtifactGeneration} {w' : World} {e : CacheEntry}
      (h : w.impl.cache[k]? = some e)
      (hselects : e.descriptor.id = id ∧ e.descriptor.generation < gen) :
      CacheStep w k (.supersede id gen) w' e.supersede
  | unloaded {t : ℕ} {w' : World} {e : CacheEntry} (h : w.impl.cache[k]? = some e)
      (hmarks : w'.invalidated = w.invalidated) : CacheStep w k (.recoverInsert t) w' e.unload
  | recovered {t : ℕ} {w' : World} {valid : List Loaded} {l : Loaded}
      (hphase : w.recoveries t = some (.loading [] valid)) (h : lastLoaded valid k = some l)
      (hmarks : w'.invalidated = w.invalidated) :
      CacheStep w k (.recoverInsert t) w' (w.recoveredEntry l).unload

/-- Every way in which a step can leave a cached entry. -/
theorem cacheStep_of_transition {a : Event} {w' : World} (h : Transition H w a w')
    (hentry : w'.impl.cache[k]? = some e) : CacheStep w k a w' e := by
  cases h with
  | @hit request n now p e₀ outcome hplan hlock he₀ hfast =>
      change (w.impl.cache.insert _ _)[k]? = _ at hentry
      rw [Std.ExtTreeMap.getElem?_insert] at hentry
      split at hentry
      · next hk =>
        rw [Std.LawfulEqOrd.compare_eq_iff_eq.mp hk] at he₀
        cases hentry
        exact .touched he₀ rfl
      · exact .kept hentry rfl
  | publish hcall hphase =>
      change (w.impl.cache.insert _ _)[k]? = _ at hentry
      rw [Std.ExtTreeMap.getElem?_insert] at hentry
      split at hentry
      · next hk =>
        cases hentry
        exact .published hcall hphase (Std.LawfulEqOrd.compare_eq_iff_eq.mp hk)
      · exact .kept hentry rfl
  | @invalidate a hlock =>
      change (w.impl.cache.map _)[k]? = _ at hentry
      rw [Std.ExtTreeMap.getElem?_map, Option.map_eq_some_iff] at hentry
      obtain ⟨e₀, he₀, rfl⟩ := hentry
      cases hselects : a.selects k e₀ with
      | true => exact .invalidated he₀ hselects
      | false => exact .passed he₀ hselects
  | supersede =>
      change (w.impl.cache.map _)[k]? = _ at hentry
      rw [Std.ExtTreeMap.getElem?_map, Option.map_eq_some_iff] at hentry
      obtain ⟨e₀, he₀, rfl⟩ := hentry
      split
      · next hselects => exact .superseded he₀ hselects
      · exact .kept he₀ rfl
  | @recoverInsert t valid hlock hphase =>
      change (recoveredCache w valid)[k]? = _ at hentry
      rw [getElem?_recoveredCache, Option.map_eq_some_iff] at hentry
      obtain ⟨e₀, he₀, rfl⟩ := hentry
      cases hlast : lastLoaded valid k with
      | none =>
          rw [hlast] at he₀
          exact .unloaded he₀ rfl
      | some l =>
          rw [hlast] at he₀
          cases he₀
          exact .recovered hphase hlast rfl
  | restart => simp at hentry
  | write hcall hphase hwrite => cases hwrite <;> exact .kept hentry rfl
  | _ => exact .kept hentry rfl

end CompilationFabric.Interface
