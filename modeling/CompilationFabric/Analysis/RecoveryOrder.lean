import CompilationFabric.Interface.FabricRecovery

/-!
# The order of a recovery

`recover` inserts the records by key in the order in which the directory iterator yields their
files, so the last one of a key stays.  The iterator promises no order.  An artifact that was
invalidated and compiled again leaves two valid records under one key, and then the cache after a
recovery is a matter of chance: the older artifact may come back in place of the current one.  The
order does not matter when no two records of the store have the same key, and only then.
-/

set_option autoImplicit false

namespace CompilationFabric.Analysis

open CompilationFabric.Library.TransitionSystem
open CompilationFabric.Model
open CompilationFabric.Interface

variable {H : Bytes → Digest} {w u : World} {es : List Event} {names listing : List Bytes}
  {k : CompilationKey} {l : Loaded}

/-! ## The property -/

/-- The newest record of its key: no other one of the key has a greater generation. -/
def Newest (H : Bytes → Digest) (w : World) (k : CompilationKey) (l : Loaded) : Prop :=
  (∃ x, validRecord H w x = some l) ∧ l.record.key = k ∧
    ∀ y l', validRecord H w y = some l' → l'.record.key = k →
      l'.record.generation ≤ l.record.generation

/-- A `recover` goes through in every order of the names, and always leaves the same cache: under
each key the newest of its records, and nothing under the others. -/
structure RecoversNewest (H : Bytes → Digest) (w : World) : Prop where
  completes : ∀ names listing, Lists w names listing → ∃ u, RecoverRun H w names listing u
  same : ∀ names listing names' listing' u u', RecoverRun H w names listing u →
    RecoverRun H w names' listing' u' → u.impl.cache = u'.impl.cache
  newest : ∀ names listing u, RecoverRun H w names listing u →
    ∀ (k : CompilationKey) (entry : CacheEntry), u.impl.cache[k]? = some entry →
      ∃ l, Newest H w k l ∧ entry = (w.recoveredEntry l).unload
  keeps : ∀ names listing u, RecoverRun H w names listing u →
    ∀ x l, validRecord H w x = some l → u.impl.cache[l.record.key]?.isSome

/-- No two records of the store have the same key. -/
def OneRecordPerKey (H : Bytes → Digest) (w : World) : Prop :=
  ∀ x y l l', validRecord H w x = some l → validRecord H w y = some l' →
    l.record.key = l'.record.key → x = y

/-! ## The last record of a key -/

/-- INTERNAL: the last record is the last one of its key. -/
theorem lastLoaded_append (front : List Loaded) (l : Loaded) :
    lastLoaded (front ++ [l]) l.record.key = some l := by
  unfold lastLoaded
  rw [List.reverse_append, List.reverse_singleton, List.singleton_append, List.find?_cons_of_pos]
  exact decide_eq_true rfl

/-- INTERNAL: a key with a record has a last one. -/
theorem lastLoaded_isSome {valid : List Loaded} (hl : l ∈ valid) :
    (lastLoaded valid l.record.key).isSome := by
  unfold lastLoaded
  rw [List.find?_isSome]
  exact ⟨l, List.mem_reverse.mpr hl, decide_eq_true rfl⟩

/-- A fabric that has just started: its cache is empty, and nobody holds the lock. -/
structure Fresh (w : World) : Prop where
  cache : w.impl.cache = ∅
  lock : w.impl.lock = none

/-- The entry of a key after a recovery is the last record of the key. -/
theorem getElem?_recovered (hfresh : Fresh w) (valid : List Loaded) (k : CompilationKey) :
    (recoveredCache w valid)[k]? =
      (lastLoaded valid k).map fun l => (w.recoveredEntry l).unload := by
  rw [getElem?_recoveredCache, hfresh.cache, Std.ExtTreeMap.getElem?_empty, Option.or_none,
    Option.map_map]
  rfl

/-- Under one record a key, the last one does not depend on the order. -/
theorem lastLoaded_eq_some_iff (hr : Recorded H w) (hone : OneRecordPerKey H w)
    (hlists : Lists w names listing) :
    lastLoaded (recordsOf H w listing) k = some l ↔
      (∃ x, validRecord H w x = some l) ∧ l.record.key = k := by
  constructor
  · intro hlast
    obtain ⟨hmem, hkey⟩ := mem_of_lastLoaded hlast
    exact ⟨(mem_recordsOf hr hlists).mp hmem, hkey⟩
  · rintro ⟨⟨x, hx⟩, rfl⟩
    have hsome := lastLoaded_isSome ((mem_recordsOf hr hlists).mpr ⟨x, hx⟩)
    obtain ⟨l', hlast⟩ := Option.isSome_iff_exists.mp hsome
    obtain ⟨hmem, hkey⟩ := mem_of_lastLoaded hlast
    obtain ⟨y, hy⟩ := (mem_recordsOf hr hlists).mp hmem
    obtain rfl := hone y x l' l hy hx hkey
    rw [hlast, ← hy, hx]

/-! ## Every order -/

/-- INTERNAL: the only record of a key is the newest. -/
theorem newest_of_one (hone : OneRecordPerKey H w) {x : ArtifactId × ArtifactGeneration}
    (hx : validRecord H w x = some l) : Newest H w l.record.key l := by
  refine ⟨⟨x, hx⟩, rfl, fun y l' hy hkey => ?_⟩
  obtain rfl := hone y x l' l hy hx hkey
  rw [hx, Option.some_inj] at hy
  exact hy ▸ UInt64.le_refl _

/-- Where no key has two records the newest one is recovered. -/
theorem recoversNewest_of_one (hr : Recorded H w) (hfresh : Fresh w)
    (hconfig : w.process.config.persistenceEnabled = true) (hone : OneRecordPerKey H w) :
    RecoversNewest H w where
  completes names listing hlists :=
    exists_recoverRun hconfig hfresh.lock (neverThrows_of_recorded hr) hlists
  same := by
    intro names listing names' listing' u u' hrun hrun'
    obtain ⟨hlists, hcache⟩ := cache_of_recoverRun hconfig hrun
    obtain ⟨hlists', hcache'⟩ := cache_of_recoverRun hconfig hrun'
    rw [hcache, hcache']
    apply Std.ExtTreeMap.ext_getElem?
    intro k
    rw [getElem?_recovered hfresh, getElem?_recovered hfresh]
    congr 1
    apply Option.ext
    intro l
    rw [lastLoaded_eq_some_iff hr hone hlists, lastLoaded_eq_some_iff hr hone hlists']
  newest := by
    intro names listing u hrun k entry hentry
    obtain ⟨hlists, hcache⟩ := cache_of_recoverRun hconfig hrun
    rw [hcache, getElem?_recovered hfresh, Option.map_eq_some_iff] at hentry
    obtain ⟨l, hlast, rfl⟩ := hentry
    obtain ⟨⟨x, hx⟩, rfl⟩ := (lastLoaded_eq_some_iff hr hone hlists).mp hlast
    exact ⟨l, newest_of_one hone hx, rfl⟩
  keeps := by
    intro names listing u hrun x l hx
    obtain ⟨hlists, hcache⟩ := cache_of_recoverRun hconfig hrun
    rw [hcache, getElem?_recovered hfresh,
      (lastLoaded_eq_some_iff hr hone hlists).mpr ⟨⟨x, hx⟩, rfl⟩]
    rfl

/-! ## Two orders -/

/-- Every record comes last in some order. -/
theorem exists_lists_last (hr : Recorded H w) {x : ArtifactId × ArtifactGeneration}
    (hx : validRecord H w x = some l) :
    ∃ names listing front, Lists w names listing ∧ recordsOf H w listing = front ++ [l] := by
  let names : List Bytes := w.dir.keys
  let keys : List Bytes := (cleanedWorld w names).dir.keys
  have hmem : metaPath x.1 x.2 ∈ keys := by
    have hdir := (validRecord_spec hr hx).1
    rw [Std.ExtTreeMap.mem_iff_isSome_getElem?] at hdir
    rw [Std.ExtTreeMap.mem_keys, Std.ExtTreeMap.mem_iff_isSome_getElem?, meta_cleanedWorld]
    exact hdir
  have hperm : (keys.erase (metaPath x.1 x.2) ++ [metaPath x.1 x.2]).Perm keys :=
    List.perm_append_comm.trans (List.perm_cons_erase hmem).symm
  refine ⟨names, _, recordsOf H w (keys.erase (metaPath x.1 x.2)), ⟨.refl _, hperm⟩, ?_⟩
  unfold recordsOf list
  rw [List.filterMap_append, List.filterMap_append]
  congr 1
  simp [parseMetaName_metaPath, hx]

/-- A recovery that does not depend on the order finds one record a key. -/
theorem one_of_recoversNewest (hr : Recorded H w) (hfresh : Fresh w)
    (hconfig : w.process.config.persistenceEnabled = true) (h : RecoversNewest H w) :
    OneRecordPerKey H w := by
  intro x y l l' hx hy hkey
  have hlast : ∀ {x : ArtifactId × ArtifactGeneration} {l : Loaded}, validRecord H w x = some l →
      ∃ names listing u, RecoverRun H w names listing u ∧
        u.impl.cache[l.record.key]? = some (w.recoveredEntry l).unload := by
    intro x l hx
    obtain ⟨names, listing, front, hlists, hrecords⟩ := exists_lists_last hr hx
    obtain ⟨u, hrun⟩ := h.completes names listing hlists
    refine ⟨names, listing, u, hrun, ?_⟩
    rw [(cache_of_recoverRun hconfig hrun).2, getElem?_recovered hfresh, hrecords,
      lastLoaded_append]
    rfl
  obtain ⟨names, listing, u, hrun, hentry⟩ := hlast hx
  obtain ⟨names', listing', u', hrun', hentry'⟩ := hlast hy
  rw [h.same _ _ _ _ _ _ hrun hrun', hkey, hentry', Option.some_inj] at hentry
  -- the two entries are one, and it names both artifacts
  have hdesc : l'.record.descriptor.id = l.record.descriptor.id ∧
      l'.record.descriptor.generation = l.record.descriptor.generation :=
    ⟨congrArg (fun e : CacheEntry => e.descriptor.id) hentry,
      congrArg (fun e : CacheEntry => e.descriptor.generation) hentry⟩
  obtain ⟨-, hid, -, hgen⟩ := validRecord_spec hr hx
  obtain ⟨-, hid', -, hgen'⟩ := validRecord_spec hr hy
  exact Prod.ext (by rw [← hid, ← hid', hdesc.1]) (by rw [← hgen, ← hgen', hdesc.2])

/-! ## Every store -/

/-- A new process over the store of any earlier run, crashes anywhere included, recovers the newest
artifact of every key, whatever the order of the files, just when the store has one record a key.
SOURCE: Fabric.cpp:561-585, Persistence.cpp:165-216 -/
theorem recoversNewest_iff (p q : Process) (hrun : exec (step H) { process := p } es = some w)
    (hrestart : step H w (.restart q) = some u) (hconfig : q.config.persistenceEnabled = true) :
    RecoversNewest H u ↔ OneRecordPerKey H u := by
  have hr := (recorded_exec p (exec_append.mpr ⟨w, hrun, exec_singleton.mpr hrestart⟩)).2
  change w.restart q = some u at hrestart
  unfold World.restart at hrestart
  split at hrestart
  · cases hrestart
    have hfresh : Fresh { w with
        process := q, impl := {}, calls := fun _ => none, refused := fun _ => none,
        recoveries := fun _ => none } := ⟨rfl, rfl⟩
    exact ⟨one_of_recoversNewest hr hfresh hconfig, recoversNewest_of_one hr hfresh hconfig⟩
  · cases hrestart

/-- A store of one artifact. -/
theorem recoversNewest_first :
    ∃ w u, exec (step fun _ => .zero) {} (firstSteps {} ++ storeSteps 0) = some w ∧
      step (fun _ => .zero) w (.restart {}) = some u ∧ u.dir[metaPath (.fromU64 2) 2]?.isSome ∧
      RecoversNewest (fun _ => .zero) u := by
  obtain ⟨w, r, hrun, hw⟩ := exec_firstSteps
  obtain ⟨u, hrestart, hdir⟩ : ∃ u, step (fun _ => .zero) w (.restart {}) = some u ∧
      u.dir = w.dir := by
    have hroot : ({} : Process).config.artifactRoot = w.process.config.artifactRoot := by
      rw [hw.process]
    exact ⟨_, if_pos hroot, rfl⟩
  have hr := (recorded_exec {} (exec_append.mpr ⟨w, hrun, exec_singleton.mpr hrestart⟩)).2
  refine ⟨w, u, hrun, hrestart, ?_, (recoversNewest_iff {} {} hrun hrestart rfl).mpr ?_⟩
  · have hmeta := hw.meta
    rw [hw.id, hw.generation] at hmeta
    rw [hdir, hmeta]
    rfl
  · have honly : ∀ x l, validRecord (fun _ => .zero) u x = some l → x = (r.id, r.generation) := by
      intro x l hx
      have hmem := (validRecord_spec hr hx).1
      rw [Std.ExtTreeMap.mem_iff_isSome_getElem?, hdir, hw.dir, getElem?_storedDir_meta] at hmem
      by_contra hne
      rw [if_neg fun h => hne (Prod.ext h.1 h.2)] at hmem
      simp at hmem
    intro x y l l' hx hy _
    rw [honly x l hx, honly y l' hy]

/-! ## Two records of one key -/

/-- A compile, alone, that stores its artifact. -/
def storedCompile (c : CallId) : List Event :=
  [.compile {} 1 0, .join c] ++ ownerSteps c { executable := [1] } ++ commitSteps c

/-- An artifact is compiled, invalidated and compiled again, and the process is started anew. -/
def invalidateThenRecompile : List Event :=
  storedCompile 0 ++ (.invalidate (.id (.fromU64 2)) :: (storedCompile 1 ++ [.restart {}]))

/-- An artifact that an invalidation has marked is not served. -/
theorem fastPath_of_invalidated (policy : CompilationCompatibilityPolicy) (k : CompilationKey)
    (entry : CacheEntry) : World.fastPath policy k entry.invalidate = .ok none := by
  have hstate : entry.invalidate.descriptor.state = ascii "Invalidated" := rfl
  unfold World.fastPath
  rw [CompilationCompatibility.decide_invalidated hstate]
  rfl

/-- The record of such a compile, from a counter at `n`. -/
def compiledRecord (p : CompilationPlan) (n : UInt64) : PersistedRecord :=
  (aloneArtifact (fun _ => .zero) {} {} p { output := { executable := [1] } } n).record
    (World.compileKey {} {} p)

/-- The store holds the two artifacts, under numbers 2 and 4. -/
structure TwoStored (p : CompilationPlan) (w : World) : Prop where
  fresh : Fresh w
  process : w.process = {}
  dir : w.dir = storedDir (fun _ => .zero) (storedDir (fun _ => .zero) ∅ (compiledRecord p 0))
    (compiledRecord p 2)
  size : (encodeMeta (fun _ => .zero) (compiledRecord p 0)).length < sizeMod ∧
    (encodeMeta (fun _ => .zero) (compiledRecord p 2)).length < sizeMod

/-- The run that stores two records of one key. -/
theorem exec_invalidateThenRecompile : ∃ p w,
    exec (step fun _ => .zero) {} invalidateThenRecompile = some w ∧ TwoStored p w := by
  let H : Bytes → Digest := fun _ => .zero
  let output : BackendOutput := { executable := [1] }
  have hbuild : backendBuild {} { variants := fun _ => { compiled := .ok output }
                                  winner := .ok output
                                  plain := .ok output } = .ok { output } := rfl
  obtain ⟨p, hplan, hbackend, hsize₀, hsize₁⟩ : ∃ p, plan {} {} 1 0 {} = .ok p ∧
      (({} : Host).backends {}).contains p.backend = true ∧
      (encodeMeta H (compiledRecord p 0)).length < sizeMod ∧
      (encodeMeta H (compiledRecord p 2)).length < sizeMod :=
    ⟨_, rfl, by decide +kernel, (length_encodeMeta_le _ _).trans_lt (by decide +kernel),
      (length_encodeMeta_le _ _).trans_lt (by decide +kernel)⟩
  -- the first artifact is stored under number 2
  obtain ⟨u₀, call₀, hexec₀, halone₀⟩ := exec_alone (H := H) (w := {}) hplan rfl (by simp)
    (by simp [World.activeOwner]) hbackend hbuild
  have hkey₀ : call₀.key = World.compileKey {} {} p := halone₀.key
  obtain ⟨z₀, hcommit₀, hz₀⟩ := halone₀.exec_commitSteps rfl rfl (by decide) rfl
    (by rw [hkey₀]; exact hsize₀)
  rw [hkey₀] at hz₀
  -- it is invalidated, and the cache does not serve it any more
  obtain ⟨w₁, hinvalidate, hw₁⟩ : ∃ w₁, step H z₀ (.invalidate (.id (.fromU64 2))) = some w₁ ∧
      w₁ = z₀.invalidate (.id (.fromU64 2)) :=
    ⟨_, if_pos hz₀.lock, World.invalidateBy_eq ..⟩
  have hprocess : w₁.process = {} := hw₁ ▸ hz₀.process
  have hlock : w₁.impl.lock = none := hw₁ ▸ hz₀.lock
  have hcounter : w₁.impl.artifactCounter = 2 := hw₁ ▸ hz₀.counter
  have hnext : w₁.nextCall = 1 := hw₁ ▸ hz₀.nextCall
  have hmiss : ∀ e, w₁.impl.cache[World.compileKey w₁.process {} p]? = some e →
      World.fastPath w₁.process.config.compatibilityPolicy (World.compileKey w₁.process {} p) e =
        .ok none := by
    intro e he
    obtain ⟨entry, hentry, hart⟩ := hz₀.cached
    rw [hprocess, hw₁] at he
    change (z₀.impl.cache.map _)[World.compileKey {} {} p]? = _ at he
    rw [Std.ExtTreeMap.getElem?_map, hentry, Option.map_some, if_pos, Option.some_inj] at he
    · rw [← he, fastPath_of_invalidated]
    · unfold Authority.selects
      rw [hart]
      rfl
  have hactive : w₁.activeOwner (World.compileKey w₁.process {} p) = none := by
    rw [hprocess, hw₁]
    exact hz₀.inactive
  -- so the second one is stored under number 4
  have hplan₁ : plan w₁.process.host w₁.process.config 1 0 {} = .ok p := by rw [hprocess, hplan]
  obtain ⟨u₁, call₁, hexec₁, halone₁⟩ := exec_alone (H := H) hplan₁ hlock hmiss hactive
    (by rw [hprocess]; exact hbackend) hbuild
  have hkey₁ : call₁.key = World.compileKey {} {} p := by rw [halone₁.key, hprocess]
  obtain ⟨z₁, hcommit₁, hz₁⟩ := halone₁.exec_commitSteps hlock (by rw [hprocess]; rfl)
    (by rw [hprocess]; decide) rfl (by rw [hkey₁, hprocess, hcounter]; exact hsize₁)
  rw [hkey₁, hprocess, hcounter] at hz₁
  rw [hnext] at hexec₁ hcommit₁
  have hroot : ({} : Process).config.artifactRoot = z₁.process.config.artifactRoot := by
    rw [hz₁.process, hprocess]
  have hrestart : step H z₁ (.restart {}) = some _ := if_pos hroot
  refine ⟨p, _, exec_append.mpr ⟨z₀, exec_append.mpr ⟨u₀, hexec₀, hcommit₀⟩, exec_cons.mpr
    ⟨w₁, hinvalidate, exec_append.mpr ⟨z₁, exec_append.mpr ⟨u₁, hexec₁, hcommit₁⟩,
      exec_singleton.mpr hrestart⟩⟩⟩, ⟨rfl, rfl⟩, rfl, ?_, hsize₀, hsize₁⟩
  change z₁.dir = _
  rw [hz₁.dir, hw₁]
  exact congrArg (storedDir H · (compiledRecord p 2)) hz₀.dir

/-- Both artifacts are valid records of one key. -/
theorem TwoStored.not_one {p : CompilationPlan} (hw : TwoStored p w) :
    ¬ OneRecordPerKey (fun _ => .zero) w := by
  intro hone
  let r₀ := compiledRecord p 0
  let r₁ := compiledRecord p 2
  have hne : ¬ (r₀.id = r₁.id ∧ r₀.generation = r₁.generation) := by
    rintro ⟨-, hgen⟩
    change (2 : UInt64) = 4 at hgen
    exact absurd hgen (by decide)
  have hsorted : (World.compileKey {} {} p).Sorted := sorted_compileKey {} {} p
  have hgen₀ : wireU64 2 = 2 := (wireU64_eq_iff 2).mpr (.inl ⟨by decide, exact_of_lt (by decide)⟩)
  have hgen₁ : wireU64 4 = 4 := (wireU64_eq_iff 4).mpr (.inl ⟨by decide, exact_of_lt (by decide)⟩)
  obtain ⟨l₀, hl₀, hkey₀⟩ := validRecord_of_files (w := w) (r := r₀) hsorted
    (by rw [hw.dir, getElem?_storedDir_meta, if_neg hne, getElem?_storedDir_meta,
      if_pos ⟨rfl, rfl⟩])
    (by rw [hw.dir, getElem?_storedDir_bin, if_neg hne, getElem?_storedDir_bin,
      if_pos ⟨rfl, rfl⟩])
    hw.size.1 rfl hgen₀ rfl rfl
  obtain ⟨l₁, hl₁, hkey₁⟩ := validRecord_of_files (w := w) (r := r₁) hsorted
    (by rw [hw.dir, getElem?_storedDir_meta, if_pos ⟨rfl, rfl⟩])
    (by rw [hw.dir, getElem?_storedDir_bin, if_pos ⟨rfl, rfl⟩])
    hw.size.2 rfl hgen₁ rfl rfl
  have hsame := hone _ _ l₀ l₁ hl₀ hl₁ (hkey₀.trans hkey₁.symm)
  exact hne ⟨congrArg Prod.fst hsame, congrArg Prod.snd hsame⟩

/-- The order of the files decides which of the two comes back. -/
theorem not_recoversNewest : ∃ w, exec (step fun _ => .zero) {} invalidateThenRecompile = some w ∧
    Fresh w ∧ w.process = {} ∧ ¬ RecoversNewest (fun _ => .zero) w := by
  obtain ⟨p, w, hrun, hw⟩ := exec_invalidateThenRecompile
  have hr := (recorded_exec {} hrun).2
  refine ⟨w, hrun, hw.fresh, hw.process, fun h => hw.not_one ?_⟩
  exact one_of_recoversNewest hr hw.fresh (by rw [hw.process]) h

end CompilationFabric.Analysis
