import CompilationFabric.Interface.FabricProgress
import CompilationFabric.Interface.RecordFile

/-!
# A store and a recovery, step by step

The file steps of a store, when none of them fails, do together what `store` does.  A `recover`
that finds the two files of one record, and nothing else, loads that record.
-/

set_option autoImplicit false

namespace CompilationFabric.Interface

open CompilationFabric.Library.TransitionSystem
open CompilationFabric.Model

variable {H : Bytes → Digest} {w : World} {c : CallId} {call : Call} {v : Validated}

/-- The file steps of a store, none of which fails. -/
def storeSteps (c : CallId) : List Event := List.replicate 4 (.storeStep c true)

/-- The steps of a `recover` that finds one record and no temporary file, up to its insertion. -/
def loadSteps (t : ℕ) (names : List Bytes) : List Event :=
  [.recover names, .listRecords t names, .readMeta t, .readContent t]

/-! ## The store -/

/-- A file that was just written is renamed. -/
theorem rename_writeTmp (dir : Directory) (dest bytes : Bytes) :
    rename (writeTmp dir dest bytes) dest =
      some (((writeTmp dir dest bytes).erase (tmpPath dest)).insert dest bytes) := by
  rw [rename, getElem?_writeTmp_self, Option.map_some]

/-- The directory after an atomic write. -/
def written (dir : Directory) (dest bytes : Bytes) : Directory :=
  ((writeTmp dir dest bytes).erase (tmpPath dest)).insert dest bytes

/-- INTERNAL: the files after a write and its rename. -/
theorem getElem?_written (dir : Directory) (dest bytes name : Bytes) :
    (written dir dest bytes)[name]? = if name = dest then some bytes
      else if name = tmpPath dest then none else dir[name]? := by
  rw [written, Std.ExtTreeMap.getElem?_insert]
  simp only [Std.LawfulEqOrd.compare_eq_iff_eq, @eq_comm _ dest name]
  by_cases hname : name = tmpPath dest
  · rw [if_pos hname, hname, Std.ExtTreeMap.getElem?_erase_self]
  · rw [if_neg hname, getElem?_erase_of_ne _ hname, getElem?_writeTmp_of_ne _ _ hname]

/-- The directory after a store. -/
def storedDir (H : Bytes → Digest) (dir : Directory) (r : PersistedRecord) : Directory :=
  written (written dir (metaPath r.id r.generation) (encodeMeta H r))
    (binPath r.id r.generation) r.contentBytes

/-- A store leaves its two files and no temporary ones.
SOURCE: Persistence.cpp:128-136 -/
theorem store_eq {root : Bytes} (hroot : root ≠ []) (dir : Directory) (r : PersistedRecord) :
    store H root dir r = (.ok (), storedDir H dir r) := by
  rw [store, if_neg hroot]
  simp only [atomicWriteBytes, rename_writeTmp]
  rfl

/-- A store leaves the two files of the record, and what else was there. -/
theorem getElem?_storedDir (dir : Directory) (r : PersistedRecord) (name : Bytes) :
    (storedDir H dir r)[name]? =
      if name = binPath r.id r.generation then some r.contentBytes
      else if name = tmpPath (binPath r.id r.generation) then none
      else if name = metaPath r.id r.generation then some (encodeMeta H r)
      else if name = tmpPath (metaPath r.id r.generation) then none
      else dir[name]? := by
  rw [storedDir, getElem?_written, getElem?_written]

/-- The metadata files after a store. -/
theorem getElem?_storedDir_meta (dir : Directory) (r : PersistedRecord) (id : ArtifactId)
    (gen : ArtifactGeneration) :
    (storedDir H dir r)[metaPath id gen]? =
      if id = r.id ∧ gen = r.generation then some (encodeMeta H r) else dir[metaPath id gen]? := by
  rw [getElem?_storedDir, if_neg (metaPath_ne_binPath _ _ _ _), if_neg (metaPath_ne_tmpPath _ _ _),
    if_neg (metaPath_ne_tmpPath _ _ _)]
  simp only [metaPath_inj]

/-- The content files after a store. -/
theorem getElem?_storedDir_bin (dir : Directory) (r : PersistedRecord) (id : ArtifactId)
    (gen : ArtifactGeneration) :
    (storedDir H dir r)[binPath id gen]? =
      if id = r.id ∧ gen = r.generation then some r.contentBytes else dir[binPath id gen]? := by
  rw [getElem?_storedDir, if_neg (binPath_ne_tmpPath _ _ _), if_neg (binPath_ne_tmpPath _ _ _),
    if_neg (metaPath_ne_binPath _ _ _ _).symm]
  simp only [binPath_inj]

/-- In an empty directory a store leaves the two files alone. -/
theorem perm_keys_storedDir (r : PersistedRecord) :
    [binPath r.id r.generation, metaPath r.id r.generation].Perm (storedDir H ∅ r).keys := by
  have hne := metaPath_ne_binPath r.id r.id r.generation r.generation
  have hnodup : [binPath r.id r.generation, metaPath r.id r.generation].Nodup := by
    simp [hne.symm]
  refine (List.perm_ext_iff_of_nodup hnodup Std.ExtTreeMap.nodup_keys).mpr fun name => ?_
  rw [Std.ExtTreeMap.mem_keys, Std.ExtTreeMap.mem_iff_isSome_getElem?, getElem?_storedDir]
  by_cases hbin : name = binPath r.id r.generation
  · simp [hbin]
  by_cases hmeta : name = metaPath r.id r.generation
  · simp [hmeta, hne, metaPath_ne_tmpPath]
  · simp only [hbin, hmeta, if_false]
    split <;> [skip; split] <;> simp [hbin, hmeta]

/-- The four file steps are `store`.
SOURCE: Persistence.cpp:128-136, Fabric.cpp:416-419 -/
theorem exec_storeSteps (hcall : w.calls c = some call)
    (hphase : call.phase = .storing v .metaTmp) (hroot : w.process.config.artifactRoot ≠ [])
    (hsize : (encodeMeta H (v.record call.key)).length < sizeMod) :
    exec (step H) w (storeSteps c) = some { w.release c call v with
      dir := (store H w.process.config.artifactRoot w.dir (v.record call.key)).2
      writers := Function.update w.writers (metaPath v.art.id v.art.generation) c } := by
  have hfits : ¬ (true = false ∨ w.process.config.artifactRoot = [] ∨
      sizeMod ≤ (encodeMeta H (v.record call.key)).length) := by
    rintro (h | h | h)
    · cases h
    · exact hroot h
    · exact absurd hsize (not_lt.mpr h)
  rw [store_eq hroot]
  simp only [storeSteps, List.replicate, exec, step, World.storeStep, hcall, hphase, hfits,
    if_false, Option.bind_some, Function.update_self, bind,
    rename_writeTmp, World.release, World.setCall, Function.update_idem]
  rfl

/-! ## A compile that stores its artifact -/

/-- The rest of a compile that stores its artifact. -/
def commitSteps (c : CallId) : List Event := .commit c :: (storeSteps c ++ [.complete c])

/-- A call has stored its artifact and returned. -/
structure StoredAlone (H : Bytes → Digest) (w : World) (key : CompilationKey) (v : Validated)
    (z : World) : Prop where
  process : z.process = w.process
  dir : z.dir = storedDir H w.dir (v.record key)
  lock : z.impl.lock = none
  counter : z.impl.artifactCounter = w.impl.artifactCounter + 1 + 1
  nextCall : z.nextCall = w.nextCall + 1
  nextRecovery : z.nextRecovery = w.nextRecovery
  cached : ∃ entry, z.impl.cache[key]? = some entry ∧ entry.descriptor = v.art
  inactive : z.activeOwner key = none

/-- A call that nobody interferes with stores its artifact and returns.
SOURCE: Fabric.cpp:397-437 -/
theorem Alone.exec_commitSteps {request : CompilationRequest} {p : CompilationPlan} {b : Build}
    {u : World} (h : Alone H w request p b u call) (hlock : w.impl.lock = none)
    (hpersist : (w.process.config.persistenceEnabled && w.process.config.persistOnCompile) = true)
    (hroot : w.process.config.artifactRoot ≠ [])
    (hv : v = aloneArtifact H w.process request p b w.impl.artifactCounter)
    (hsize : (encodeMeta H (v.record call.key)).length < sizeMod) :
    ∃ z, exec (step H) u (commitSteps w.nextCall) = some z ∧ StoredAlone H w call.key v z := by
  have hcommit := h.commit hlock
  rw [← hv] at hcommit
  have hpersist' : (u.process.config.persistenceEnabled && u.process.config.persistOnCompile) =
      true := by rw [h.process, hpersist]
  obtain ⟨entry, hentry, -, -⟩ := h.entry
  let stored : Call := { call with phase := .storing v .metaTmp }
  have hcalls : (u.publish w.nextCall call v).calls w.nextCall = some stored := by
    unfold World.publish
    rw [hpersist']
    exact Function.update_self ..
  have hstore := exec_storeSteps (H := H) (w := u.publish w.nextCall call v) hcalls rfl
    (by rw [World.publish, World.setCall, h.process]; exact hroot) hsize
  have hcomplete := complete_of_committed (H := H) (c := w.nextCall)
    (w := { (u.publish w.nextCall call v).release w.nextCall stored v with
      dir := (store H (u.publish w.nextCall call v).process.config.artifactRoot
        (u.publish w.nextCall call v).dir (v.record call.key)).2
      writers := Function.update (u.publish w.nextCall call v).writers
        (metaPath v.art.id v.art.generation) w.nextCall })
    (Function.update_self ..) rfl hentry rfl
  refine ⟨_, exec_cons.mpr ⟨_, hcommit, exec_append.mpr ⟨_, hstore,
    exec_singleton.mpr hcomplete⟩⟩, ?_⟩
  exact {
    process := h.process
    dir := by
      change (store H u.process.config.artifactRoot u.dir _).2 = _
      rw [store_eq (by rw [h.process]; exact hroot), h.dir]
    lock := rfl
    counter := congrArg Impl.artifactCounter h.impl
    nextCall := h.nextCall
    nextRecovery := h.nextRecovery
    cached := ⟨_, Std.ExtTreeMap.getElem?_insert_self, rfl⟩
    inactive := by
      refine activeOwner_of_done (o := w.nextCall) ?_ (Function.update_self ..) rfl rfl
      change u.impl.inflight[call.key]? = _
      rw [h.impl]
      exact Std.ExtTreeMap.getElem?_insert_self }

/-! ## The recovery -/

/-- A record that was stored comes back when its generation survives its text.
SOURCE: Persistence.cpp:138-156 -/
theorem loadContent_wireRecord {r : PersistedRecord} (k : CompilationKey)
    (hid : r.descriptor.id = r.id) (hgen : wireU64 r.descriptor.generation = r.generation)
    (hdigest : r.descriptor.contentDigest = H r.contentBytes) :
    loadContent H (wireRecord r k) (some r.contentBytes) r.id r.generation =
      .ok { wireRecord r k with contentBytes := r.contentBytes } :=
  loadContent_some_iff.mpr ⟨.inr hdigest.symm, hid, hgen, rfl⟩

/-- A `recover` loads the one record that it finds.
SOURCE: Persistence.cpp:192-216 -/
theorem exec_loadSteps {r : PersistedRecord} {names : List Bytes}
    (hconfig : w.process.config.persistenceEnabled = true) (hnames : names.Perm w.dir.keys)
    (htmp : names.filter World.isTmp = []) (hlist : list names = [(r.id, r.generation)])
    (hmeta : w.dir[metaPath r.id r.generation]? = some (encodeMeta H r))
    (hbin : w.dir[binPath r.id r.generation]? = some r.contentBytes)
    (hsize : (encodeMeta H r).length < sizeMod) (hid : r.descriptor.id = r.id)
    (hgen : wireU64 r.descriptor.generation = r.generation)
    (hdigest : r.descriptor.contentDigest = H r.contentBytes) (hvalid : r.invalidated = false) :
    ∃ l : Loaded, exec (step H) w (loadSteps w.nextRecovery names) =
      some { w.setRecovery w.nextRecovery (some (.loading [] [l])) with
        nextRecovery := w.nextRecovery + 1 } := by
  obtain ⟨k, hdecode, -⟩ := decodeMeta_encodeMeta H r hsize
  have hload : loadMeta H (some (encodeMeta H r)) r.id r.generation =
      .ok (.ok (wireRecord r k)) := by
    simp only [loadMeta, hdecode, bind, Except.bind, pure, Except.pure]
  have hcontent := loadContent_wireRecord k hid hgen hdigest
  have hvalid' : (wireRecord r k).invalidated = false := hvalid
  refine ⟨⟨{ wireRecord r k with contentBytes := r.contentBytes },
    w.writers (metaPath r.id r.generation)⟩, ?_⟩
  simp only [loadSteps, exec, step, World.recover, hconfig, if_true, hnames, htmp,
    Option.bind_some, World.listRecords, World.setRecovery, Function.update_self, hlist,
    World.readMeta, hmeta, hload, World.readContent, hbin, hcontent, hvalid',
    Function.update_idem]
  rfl

/-! ## The first artifact of a store -/

/-- A call, alone in its process, up to its store. -/
def firstSteps (request : CompilationRequest) : List Event :=
  [.compile request 1 0, .join 0] ++ ownerSteps 0 { executable := [1] } ++ [.commit 0]

/-- The call has committed an artifact and starts to store its record, which fits. -/
def startsStore (H : Bytes → Digest) (w : World) (c : CallId) (id : ArtifactId)
    (gen : ArtifactGeneration) : Bool :=
  (w.calls c).any fun call =>
    match call.phase with
    | .storing v .metaTmp =>
        decide (v.art.id = id ∧ v.art.generation = gen ∧
          v.art.contentDigest = H v.build.output.executable ∧
          (encodeMeta H (v.record call.key)).length < sizeMod)
    | _ => false

/-- INTERNAL: what is checked of a store before it starts. -/
theorem startsStore_iff {id : ArtifactId} {gen : ArtifactGeneration} :
    startsStore H w c id gen = true ↔ ∃ call v, w.calls c = some call ∧
      call.phase = .storing v .metaTmp ∧ v.art.id = id ∧ v.art.generation = gen ∧
      v.art.contentDigest = H v.build.output.executable ∧
      (encodeMeta H (v.record call.key)).length < sizeMod := by
  unfold startsStore
  rw [Option.any_eq_true]
  constructor
  · rintro ⟨call, hcall, h⟩
    split at h
    · next v hphase => exact ⟨call, v, hcall, hphase, of_decide_eq_true h⟩
    · cases h
  · rintro ⟨call, v, hcall, hphase, h⟩
    refine ⟨call, hcall, ?_⟩
    rw [hphase]
    exact decide_eq_true h

/-- The store holds the record of an artifact that its process has numbered first, and nothing
else. -/
structure FirstStored (H : Bytes → Digest) (w : World) (r : PersistedRecord) : Prop where
  process : w.process = {}
  dir : w.dir = storedDir H ∅ r
  id : r.id = .fromU64 2
  generation : r.generation = 2
  descriptorId : r.descriptor.id = r.id
  descriptorGeneration : r.descriptor.generation = r.generation
  contentDigest : r.descriptor.contentDigest = H r.contentBytes
  valid : r.invalidated = false
  size : (encodeMeta H r).length < sizeMod
  lock : w.impl.lock = none
  nextCall : w.nextCall = 1
  nextRecovery : w.nextRecovery = 0
  log : ∀ m ∈ w.log, m.call = 0
  cached : ∃ (k : CompilationKey) (e : CacheEntry), w.impl.cache[k]? = some e ∧
    e.descriptor.id = r.id ∧ e.origin = 0

/-- A call, alone in a new process over an empty store, starts to store its record. -/
structure FirstStoring (H : Bytes → Digest) (w : World) (call : Call) (v : Validated) : Prop where
  process : w.process = {}
  calls : w.calls 0 = some call
  phase : call.phase = .storing v .metaTmp
  id : v.art.id = .fromU64 2
  generation : v.art.generation = 2
  contentDigest : v.art.contentDigest = H v.build.output.executable
  size : (encodeMeta H (v.record call.key)).length < sizeMod
  dir : w.dir = ∅
  nextCall : w.nextCall = 1
  nextRecovery : w.nextRecovery = 0
  log : ∀ m ∈ w.log, m.call = 0
  cached : ∃ (k : CompilationKey) (e : CacheEntry), w.impl.cache[k]? = some e ∧
    e.descriptor.id = .fromU64 2 ∧ e.origin = 0

/-- A first compile gets to its store. -/
theorem exists_firstStoring : ∃ w call v, exec (step fun _ => .zero) {} (firstSteps {}) = some w ∧
    FirstStoring (fun _ => .zero) w call v := by
  have hrun : (exec (step fun _ => .zero) {} (firstSteps {})).any (fun w =>
      startsStore (fun _ => .zero) w 0 (.fromU64 2) 2 && w.dir.isEmpty &&
        decide (w.nextCall = 1 ∧ w.nextRecovery = 0) && w.log.all (fun m => decide (m.call = 0)) &&
        w.impl.cache.toList.any fun p =>
          decide (p.2.descriptor.id = .fromU64 2 ∧ p.2.origin = 0)) = true := by decide +kernel
  obtain ⟨w, hexec, hw⟩ := (Option.any_eq_true _ _).mp hrun
  simp only [Bool.and_eq_true, decide_eq_true_eq, List.all_eq_true, List.any_eq_true] at hw
  obtain ⟨⟨⟨⟨hstarts, hdir⟩, hcall₁, hrecovery⟩, hlog⟩, ⟨k, e⟩, hmem, hid, horigin⟩ := hw
  obtain ⟨call, v, hcall, hphase, hvid, hvgen, hdigest, hsize⟩ := startsStore_iff.mp hstarts
  exact ⟨w, call, v, hexec, {
    process := process_exec (meets_of_all (p := fun e => !isRestart e) (fun s e h => by
      simpa [SameProcess] using h) (by decide)) hexec
    calls := hcall
    phase := hphase
    id := hvid
    generation := hvgen
    contentDigest := hdigest
    size := hsize
    dir := Std.ExtTreeMap.isEmpty_iff.mp hdir
    nextCall := hcall₁
    nextRecovery := hrecovery
    log := hlog
    cached := ⟨k, e, Std.ExtTreeMap.mem_toList_iff_getElem?_eq_some.mp hmem, hid, horigin⟩ }⟩

/-- A first compile leaves its record in the store. -/
theorem exec_firstSteps : ∃ w r, exec (step fun _ => .zero) {} (firstSteps {} ++ storeSteps 0) =
    some w ∧ FirstStored (fun _ => .zero) w r := by
  obtain ⟨w, call, v, hexec, hw⟩ := exists_firstStoring
  have hroot : w.process.config.artifactRoot ≠ [] := by
    rw [hw.process]
    decide
  have hstore := exec_storeSteps hw.calls hw.phase (H := fun _ => .zero) hroot hw.size
  refine ⟨_, v.record call.key, exec_append.mpr ⟨w, hexec, hstore⟩, ?_⟩
  obtain ⟨k, e, hmem, hid, horigin⟩ := hw.cached
  exact {
    process := hw.process
    dir := by
      change (store _ _ w.dir _).2 = _
      rw [store_eq hroot, hw.dir]
    id := hw.id
    generation := hw.generation
    descriptorId := rfl
    descriptorGeneration := rfl
    contentDigest := hw.contentDigest
    valid := rfl
    size := hw.size
    lock := rfl
    nextCall := hw.nextCall
    nextRecovery := hw.nextRecovery
    log := hw.log
    cached := ⟨k, e, hmem, hid.trans hw.id.symm, horigin⟩ }

/-- INTERNAL: the metadata of the first record. -/
theorem FirstStored.meta {r : PersistedRecord} (hw : FirstStored H w r) :
    w.dir[metaPath r.id r.generation]? = some (encodeMeta H r) := by
  rw [hw.dir, getElem?_storedDir_meta, if_pos ⟨rfl, rfl⟩]

/-- The files of the first artifact, as a directory iterator may yield them. -/
def firstFiles : List Bytes := [binPath (.fromU64 2) 2, metaPath (.fromU64 2) 2]

/-- A `recover` on such a store loads the record. -/
theorem FirstStored.exec_loadSteps {u : World} {r : PersistedRecord} (hw : FirstStored H w r)
    (hconfig : u.process.config.persistenceEnabled = true) (hdir : u.dir = w.dir)
    (hnext : u.nextRecovery = 0) :
    ∃ l : Loaded, exec (step H) u (loadSteps 0 firstFiles) =
      some { u.setRecovery 0 (some (.loading [] [l])) with nextRecovery := 1 } := by
  have hnames : firstFiles = [binPath r.id r.generation, metaPath r.id r.generation] := by
    rw [hw.id, hw.generation]
    rfl
  have hgen : wireU64 r.descriptor.generation = r.generation := by
    rw [hw.descriptorGeneration, hw.generation]
    exact (wireU64_eq_iff 2).mpr (.inl ⟨by decide, exact_of_lt (by decide)⟩)
  have hdir' : u.dir = storedDir H ∅ r := hdir.trans hw.dir
  have hmeta : u.dir[metaPath r.id r.generation]? = some (encodeMeta H r) := by
    rw [hdir, hw.meta]
  have hbin : u.dir[binPath r.id r.generation]? = some r.contentBytes := by
    rw [hdir', getElem?_storedDir, if_pos rfl]
  have hperm : firstFiles.Perm u.dir.keys := by
    rw [hnames, hdir']
    exact perm_keys_storedDir r
  have hload := Interface.exec_loadSteps hconfig hperm (by decide +kernel)
    (by rw [hw.id, hw.generation]; decide +kernel) hmeta hbin hw.size hw.descriptorId hgen
    hw.contentDigest hw.valid
  rwa [hnext] at hload

end CompilationFabric.Interface
