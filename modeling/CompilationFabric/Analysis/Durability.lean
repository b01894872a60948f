import CompilationFabric.Analysis.RecoveryOrder
import CompilationFabric.Interface.FabricPlacement

/-!
# What is stored stays stored

A call stores its artifact in four file steps, and between any two of them other calls go on, a
`recover` removes temporary files, or the process ends.  When the last step goes through, both files
hold the record, and from then on the record survives whatever the fabric does, restarts included:
it is loaded with its key and its content, and every recovery of a new process has an artifact for
its key.  Only a store of the same artifact and generation takes its place.
-/

set_option autoImplicit false

namespace CompilationFabric.Analysis

open CompilationFabric.Interface
open CompilationFabric.Library.TransitionSystem
open CompilationFabric.Model

variable {H : Bytes → Digest} {w w' u : World} {e : Event} {es : List Event} {r : PersistedRecord}

/-! ## The property -/

/-- A load returns the record, as its text is read back.
SOURCE: Persistence.cpp:138-156 -/
def Loads (H : Bytes → Digest) (w : World) (r : PersistedRecord) : Prop :=
  ∃ got, load H w.dir r.id r.generation = .ok (.ok got) ∧ got.key = r.key ∧
    got.descriptor = wireArtifact r.descriptor ∧ got.contentBytes = r.contentBytes ∧
    H got.contentBytes = got.descriptor.contentDigest ∧ got.invalidated = false

/-- The entry is one of the record. -/
def EntryFor (r : PersistedRecord) (entry : CacheEntry) : Prop :=
  entry.bytes = r.contentBytes ∧ entry.descriptor.id = r.id ∧
    entry.descriptor.generation = r.generation

/-- A new process recovers an artifact under the key, whatever the order of the files; it is the
one of the record when the store has no other one of the key.
SOURCE: Fabric.cpp:561-585, Persistence.cpp:192-216 -/
structure Recovers (H : Bytes → Digest) (w : World) (r : PersistedRecord) : Prop where
  completes : ∀ p u, step H w (.restart p) = some u → p.config.persistenceEnabled = true →
    ∀ names listing, Lists u names listing → ∃ u', RecoverRun H u names listing u'
  entry : ∀ p u, step H w (.restart p) = some u → p.config.persistenceEnabled = true →
    ∀ names listing u', RecoverRun H u names listing u' →
      ∃ entry, u'.impl.cache[r.key]? = some entry ∧ (OneRecordPerKey H u → EntryFor r entry)

/-! ## The record -/

/-- A record that a fabric stores names itself and its content. -/
structure Sealed (H : Bytes → Digest) (r : PersistedRecord) : Prop where
  sorted : r.key.Sorted
  id : r.descriptor.id = r.id
  generation : r.descriptor.generation = r.generation
  contentDigest : r.descriptor.contentDigest = H r.contentBytes
  valid : r.invalidated = false

/-- A record that a call stores has a digest and names of its own. -/
theorem sealed_of_stores (hr : Recorded H w) (h : StoresRecord H w e w' r) : Sealed H r := by
  obtain ⟨c, call, v, -, hcall, hphase, rfl, -⟩ := h
  obtain ⟨hdesc, -⟩ := hr.carried c call v hcall (by rw [hphase]; rfl)
  exact ⟨hr.sorted c call hcall, rfl, rfl, hdesc.contentDigest, rfl⟩

/-- A sealed record in place is loaded. -/
theorem loads_of_inPlace (hs : Sealed H r) (hi : InPlace H w r) (hgen : SurvivesU64 r.generation) :
    Loads H w r := by
  obtain ⟨k, hk, hload⟩ := load_of_files hi.size hi.metaFile hi.content
  have hkey : k = r.key := CompilationKey.ext_fields (hk.trans (sortFields_of_sorted hs.sorted))
  have hwire : wireU64 r.descriptor.generation = r.generation := by
    rw [hs.generation]
    exact (wireU64_eq_iff _).mpr hgen
  rw [loadContent_wireRecord k hs.id hwire hs.contentDigest] at hload
  exact ⟨_, hload, hkey, rfl, rfl, hs.contentDigest.symm, hs.valid⟩

/-- A record that loads is one that a recovery inserts. -/
theorem validRecord_of_loads (h : Loads H w r) :
    ∃ l, validRecord H w (r.id, r.generation) = some l ∧ l.record.key = r.key ∧
      l.record.descriptor = wireArtifact r.descriptor ∧ l.record.contentBytes = r.contentBytes := by
  obtain ⟨got, hload, hkey, hdesc, hbytes, -, hvalid⟩ := h
  refine ⟨⟨got, w.writers (metaPath r.id r.generation)⟩, ?_, hkey, hdesc, hbytes⟩
  simp [validRecord, hload, hvalid]

/-! ## A new process -/

/-- A restart leaves the files, and an empty cache. -/
theorem fresh_of_restart {p : Process} (h : step H w (.restart p) = some u) :
    Fresh u ∧ u.dir = w.dir ∧ u.process = p := by
  change w.restart p = some u at h
  unfold World.restart at h
  split at h
  · cases h
    exact ⟨⟨rfl, rfl⟩, rfl, rfl⟩
  · cases h

/-- The recoveries of a new process that finds the record in place. -/
theorem entry_of_recoverRun (hr : Recorded H u) (hfresh : Fresh u)
    (hconfig : u.process.config.persistenceEnabled = true) (hs : Sealed H r) (hi : InPlace H u r)
    (hgen : SurvivesU64 r.generation) {names listing : List Bytes}
    (hrun : RecoverRun H u names listing w) :
    ∃ entry, w.impl.cache[r.key]? = some entry ∧ (OneRecordPerKey H u → EntryFor r entry) := by
  obtain ⟨hlists, hcache⟩ := cache_of_recoverRun hconfig hrun
  obtain ⟨l, hl, hkey, hdesc, hbytes⟩ := validRecord_of_loads (loads_of_inPlace hs hi hgen)
  have hsome := lastLoaded_isSome ((mem_recordsOf hr hlists).mpr ⟨_, hl⟩)
  obtain ⟨last, hlast⟩ := Option.isSome_iff_exists.mp hsome
  rw [hkey] at hlast
  refine ⟨(u.recoveredEntry last).unload, ?_, fun hone => ?_⟩
  · rw [hcache, getElem?_recovered hfresh, hlast]
    rfl
  · have hsame := (lastLoaded_eq_some_iff hr hone hlists).mpr ⟨⟨_, hl⟩, hkey⟩
    rw [hlast, Option.some_inj] at hsame
    subst hsame
    refine ⟨hbytes, ?_, ?_⟩
    · change last.record.descriptor.id = r.id
      rw [hdesc]
      exact hs.id
    · change last.record.descriptor.generation = r.generation
      rw [hdesc, ← (wireU64_eq_iff _).mpr hgen, ← hs.generation]
      rfl

/-- A sealed record in place is recovered. -/
theorem recovers_of_inPlace (hr : ∀ p u, step H w (.restart p) = some u → Recorded H u)
    (hs : Sealed H r) (hi : InPlace H w r) (hgen : SurvivesU64 r.generation) : Recovers H w r where
  completes := by
    intro p u hrestart hconfig names listing hlists
    obtain ⟨hfresh, -, hprocess⟩ := fresh_of_restart hrestart
    rw [← hprocess] at hconfig
    exact exists_recoverRun hconfig hfresh.lock (neverThrows_of_recorded (hr p u hrestart)) hlists
  entry := by
    intro p u hrestart hconfig names listing u' hrun
    obtain ⟨hfresh, hdir, hprocess⟩ := fresh_of_restart hrestart
    rw [← hprocess] at hconfig
    have hplace : InPlace H u r := by
      refine ⟨?_, ?_, hi.size⟩
      · rw [hdir]
        exact hi.metaFile
      · rw [hdir]
        exact hi.content
    exact entry_of_recoverRun (hr p u hrestart) hfresh hconfig hs hplace hgen hrun

/-! ## Every run -/

/-- What is known of the files in every state of a run. -/
structure FilesKnown (H : Bytes → Digest) (w : World) : Prop where
  wellFormed : WellFormed w
  recorded : Recorded H w
  cleansTmp : CleansTmp w
  placed : Placed H w

/-- INTERNAL: every step keeps what is known of the files. -/
theorem FilesKnown.step (hf : FilesKnown H w) (h : Transition H w e w') : FilesKnown H w' where
  wellFormed := hf.wellFormed.step h
  recorded := hf.recorded.step hf.wellFormed h
  cleansTmp := cleansTmp_step hf.cleansTmp h
  placed := hf.placed.step hf.wellFormed hf.recorded hf.cleansTmp h

/-- INTERNAL: every run keeps what is known of the files. -/
theorem filesKnown_exec (p : Process) (h : exec (step H) { process := p } es = some w) :
    FilesKnown H w := by
  have hclean : CleansTmp { process := p } := fun _ _ h => by cases h
  refine exec_invariant (I := FilesKnown H) ?_ h
    ⟨.init p, recorded_init H p, hclean, placed_init p⟩
  intro s e s' hstep hs
  exact hs.step (transition_of_step hstep)

/-- A record whose files are in place keeps them while nothing is stored over it. -/
theorem inPlace_exec (hf : FilesKnown H w) (hi : InPlace H w r)
    (hover : Meets (step H) (fun v e => ¬ Overwrites v r e) w es)
    (hexec : exec (step H) w es = some w') : FilesKnown H w' ∧ InPlace H w' r := by
  refine exec_induction (I := fun v => FilesKnown H v ∧ InPlace H v r) ?_ hover hexec ⟨hf, hi⟩
  rintro s e s' hnot hstep ⟨hs, hplace⟩
  have htrans := transition_of_step hstep
  exact ⟨hs.step htrans, hplace.step hs.cleansTmp htrans hnot⟩

/-- The last file step of a store that nothing disturbs. -/
theorem exists_stores {c : CallId} {call : Call} {v : Validated} (hcall : w.calls c = some call)
    (hphase : call.phase = .storing v .metaTmp) (hroot : w.process.config.artifactRoot ≠ [])
    (hsize : (encodeMeta H (v.record call.key)).length < sizeMod) :
    ∃ w₀ w₁, exec (step H) w (List.replicate 3 (.storeStep c true)) = some w₀ ∧
      step H w₀ (.storeStep c true) = some w₁ ∧
      StoresRecord H w₀ (.storeStep c true) w₁ (v.record call.key) ∧ w₁.process = w.process := by
  have hfits : ¬ (true = false ∨ w.process.config.artifactRoot = [] ∨
      sizeMod ≤ (encodeMeta H (v.record call.key)).length) := by
    simp [hroot, hsize]
  have hthree : exec (step H) w (List.replicate 3 (.storeStep c true)) = some
      { w.setCall c { call with phase := .storing v .binRename } with
        dir := writeTmp (written w.dir (metaPath v.art.id v.art.generation)
            (encodeMeta H (v.record call.key)))
          (binPath v.art.id v.art.generation) v.build.output.executable
        writers := Function.update w.writers (metaPath v.art.id v.art.generation) c } := by
    simp only [List.replicate, exec, step, World.storeStep, hcall, hphase, hfits,
      if_false, Option.bind_some, Function.update_self, bind,
      rename_writeTmp, World.setCall, Function.update_idem]
    rfl
  have hid : (v.record call.key).id = v.art.id := rfl
  have hgen : (v.record call.key).generation = v.art.generation := rfl
  refine ⟨_, _, hthree, ?_, ⟨c, _, v, rfl, Function.update_self .., rfl, rfl,
    .binRename (rename_writeTmp ..)⟩, rfl⟩
  simp only [step, World.storeStep, World.setCall, hfits, if_false, Option.bind_some,
    Function.update_self, bind, hid, hgen, rename_writeTmp]

/-- In every run, across restarts, with a crash between any two file steps.
SOURCE: Persistence.cpp:17-39, 128-156, 192-216, Fabric.cpp:410-420, 561-585 -/
theorem stored_record_lasts (H : Bytes → Digest) (p : Process) (before after : List Event)
    (w₀ w₁ w : World) (e : Event) (r : PersistedRecord)
    (hbefore : exec (step H) { process := p } before = some w₀) (hstep : step H w₀ e = some w₁)
    (hstores : StoresRecord H w₀ e w₁ r) (hgen : SurvivesU64 r.generation)
    (hover : Meets (step H) (fun v e => ¬ Overwrites v r e) w₁ after)
    (hafter : exec (step H) w₁ after = some w) : Loads H w r ∧ Recovers H w r := by
  have hknown := filesKnown_exec p hbefore
  have hsealed := sealed_of_stores hknown.recorded hstores
  have hplaced := inPlace_of_stores hknown.placed hstores
  obtain ⟨hlast, hplace⟩ := inPlace_exec (hknown.step (transition_of_step hstep)) hplaced hover
    hafter
  refine ⟨loads_of_inPlace hsealed hplace hgen, recovers_of_inPlace ?_ hsealed hplace hgen⟩
  intro q u hrestart
  exact hlast.recorded.step hlast.wellFormed (transition_of_step hrestart)

/-- The record of a first compile, after its process. -/
theorem stored_record_lasts_first : ∃ (w₀ w₁ w : World) (r : PersistedRecord),
    exec (step fun _ => .zero) { process := {} }
      (firstSteps {} ++ List.replicate 3 (.storeStep 0 true)) = some w₀ ∧
    step (fun _ => .zero) w₀ (.storeStep 0 true) = some w₁ ∧
    exec (step fun _ => .zero) w₁ [.restart {}] = some w ∧ r.generation = 2 ∧
    Loads (fun _ => .zero) w r ∧ Recovers (fun _ => .zero) w r := by
  obtain ⟨w, call, v, hexec, hw⟩ := exists_firstStoring
  have hroot : w.process.config.artifactRoot ≠ [] := by
    rw [hw.process]
    decide
  obtain ⟨w₀, w₁, hthree, hstep, hstores, hsame⟩ :=
    exists_stores hw.calls hw.phase hroot hw.size
  have hbefore := exec_append.mpr ⟨w, hexec, hthree⟩
  obtain ⟨w₂, hrestart⟩ : ∃ w₂, step (fun _ => .zero) w₁ (.restart {}) = some w₂ := by
    refine ⟨_, if_pos ?_⟩
    rw [hsame, hw.process]
  refine ⟨w₀, w₁, w₂, v.record call.key, hbefore, hstep, exec_singleton.mpr hrestart,
    hw.generation, ?_⟩
  refine stored_record_lasts _ {} _ [.restart {}] w₀ w₁ w₂ _ _ hbefore hstep hstores ?_ ?_
    (exec_singleton.mpr hrestart)
  · change SurvivesU64 v.art.generation
    rw [hw.generation]
    exact .inl ⟨by decide, exact_of_lt (by decide)⟩
  · refine ⟨?_, fun _ _ => trivial⟩
    rintro ⟨c, call', v', stage, heq, -⟩
    cases heq

end CompilationFabric.Analysis
