import CompilationFabric.Interface.FabricCommits

/-!
# What is in the cache

Every key of the cache has been built from a request (`Built`), and every artifact in it is in
one of three states, each with the flags that belong to it (`Standing`): as it was committed or
recovered, invalidated, or superseded.  An artifact that is invalidated again stays as it is.
-/

set_option autoImplicit false

namespace CompilationFabric.Interface

open CompilationFabric.Library.TransitionSystem
open CompilationFabric.Model

variable {H : Bytes → Digest} {w w' : World} {e : Event} {es : List Event} {c : CallId}
  {call : Call} {k : CompilationKey} {entry : CacheEntry} {d : ArtifactDescriptor}

/-- The key is one that `buildCompilationKey` returns. -/
def Built (k : CompilationKey) : Prop := ∃ r p t, k = buildCompilationKey r p t

/-- The state of a cached artifact, and what goes with it. -/
inductive Standing (d : ArtifactDescriptor) : Prop
  | deployable (h : Eligible d)
  | invalidated (hstate : d.state = ascii "Invalidated") (hpassed : d.validation.passed = false)
      (hdeployable : d.deployment.deployable = false)
  | superseded (hstate : d.state = ascii "Superseded")
      (hdeployable : d.deployment.deployable = false)

/-- INTERNAL: the standing of an artifact depends on three of its fields only. -/
theorem Standing.congr {d' : ArtifactDescriptor} (h : Standing d) (hstate : d'.state = d.state)
    (hpassed : d'.validation.passed = d.validation.passed)
    (hdeployable : d'.deployment.deployable = d.deployment.deployable) : Standing d' := by
  cases h with
  | deployable h =>
      exact .deployable ⟨hstate.trans h.state, hpassed.trans h.passed,
        hdeployable.trans h.deployable⟩
  | invalidated hs hp hd =>
      exact .invalidated (hstate.trans hs) (hpassed.trans hp) (hdeployable.trans hd)
  | superseded hs hd => exact .superseded (hstate.trans hs) (hdeployable.trans hd)

/-- Invalidating twice is invalidating once. -/
theorem Standing.invalidate_eq (h : Standing entry.descriptor)
    (hstate : entry.descriptor.state = ascii "Invalidated") : entry.invalidate = entry := by
  cases h with
  | deployable h =>
      rw [h.state] at hstate
      exact absurd hstate (by decide)
  | invalidated hs hp hd =>
      have hvalidation : { entry.descriptor.validation with passed := false } =
          entry.descriptor.validation := by rw [← hp]
      have hdeployment : { entry.descriptor.deployment with deployable := false } =
          entry.descriptor.deployment := by rw [← hd]
      unfold CacheEntry.invalidate
      rw [hvalidation, hdeployment, ← hs]
  | superseded hs hd =>
      rw [hs] at hstate
      exact absurd hstate (by decide)

/-- The invariant. -/
structure Entries (w : World) : Prop where
  calls : ∀ c call, w.calls c = some call → Built call.key
  log : ∀ m ∈ w.log, Built m.key
  cache : ∀ (k : CompilationKey) e, w.impl.cache[k]? = some e → Standing e.descriptor

/-- A fresh process has no entries. -/
theorem entries_init (p : Process) : Entries { process := p } where
  calls _ _ h := nomatch h
  log _ h := nomatch h
  cache _ _ h := by simp at h

/-- Every key of a call or a commit has a property. -/
structure Keyed (P : CompilationKey → Prop) (w : World) : Prop where
  calls : ∀ c call, w.calls c = some call → P call.key
  log : ∀ m ∈ w.log, P m.key

/-- A property of all keys that a compile derives stays one of all keys in the fabric. -/
theorem Keyed.step {P : CompilationKey → Prop} (hP : ∀ q r p, P (World.compileKey q r p))
    (hk : Keyed P w) (h : Transition H w e w') : Keyed P w' where
  calls := by
    intro c call' hcall'
    rcases (callsStep_of_transition h).call_cases hcall' with
      hold | ⟨-, hnew⟩ | ⟨call, hcall, hmoved⟩
    · exact hk.calls c call' hold
    · cases hnew <;> exact hP _ _ _
    · cases hmoved <;> exact hk.calls c call hcall
  log := by
    intro m hm
    rcases log_cases h with heq | ⟨c, call, v, -, hcall, -, rfl⟩
    · exact hk.log m (heq ▸ hm)
    · rcases List.mem_cons.mp hm with rfl | hm
      · exact hk.calls c call hcall
      · exact hk.log m hm

/-- A property of all keys that `compile` derives is one of all keys in every run. -/
theorem keyed_exec {P : CompilationKey → Prop} (hP : ∀ q r p, P (World.compileKey q r p))
    (p : Process) (h : exec (Model.step H) { process := p } es = some w) : Keyed P w :=
  exec_invariant (fun _ _ _ hstep hk => hk.step hP (transition_of_step hstep)) h
    ⟨fun _ _ h => (nomatch h), fun _ h => (nomatch h)⟩

/-- So it is one of the keys of the cache. -/
theorem Keyed.cached {P : CompilationKey → Prop} (hk : Keyed P w) (hr : Recorded H w)
    (h : w.impl.cache[k]? = some entry) : P k := by
  obtain ⟨m, hm, hof⟩ := hr.cache k entry h
  exact hof.commitKey ▸ hk.log m hm

/-- `compile` derives a key that `buildCompilationKey` returns. -/
theorem built_compileKey (q : Process) (r : CompilationRequest) (p : CompilationPlan) :
    Built (World.compileKey q r p) := ⟨_, _, _, rfl⟩

/-- INTERNAL: the part of the invariant that is about keys. -/
theorem Entries.keyed (hi : Entries w) : Keyed Built w := ⟨hi.calls, hi.log⟩

/-- Every step leaves each cached artifact in one of the three standings. -/
theorem standing_step (hr : Recorded H w)
    (hs : ∀ (k : CompilationKey) e, w.impl.cache[k]? = some e → Standing e.descriptor)
    (h : Transition H w e w') :
    ∀ (k : CompilationKey) e, w'.impl.cache[k]? = some e → Standing e.descriptor := by
  intro k entry hentry
  cases cacheStep_of_transition h hentry with
  | kept he₀ => exact hs k entry he₀
  | touched he₀ => exact (hs k _ he₀).congr rfl rfl rfl
  | published hcall hphase => exact .deployable (hr.carried _ _ _ hcall (by rw [hphase]; rfl)).2
  | invalidated => exact .invalidated rfl rfl rfl
  | passed he₀ => exact hs k entry he₀
  | superseded => exact .superseded rfl rfl
  | unloaded he₀ => exact (hs k _ he₀).congr rfl rfl rfl
  | recovered hphase hlast =>
      obtain ⟨m, -, -, hrestores⟩ := hr.recoveries _ _ hphase _ (mem_of_lastLoaded hlast).1
      exact .deployable ⟨hrestores.eligible.state, hrestores.eligible.passed,
        hrestores.eligible.deployable⟩

/-- Every step keeps the invariant. -/
theorem Entries.step (hi : Entries w) (hr : Recorded H w) (h : Transition H w e w') :
    Entries w' where
  calls := (hi.keyed.step built_compileKey h).calls
  log := (hi.keyed.step built_compileKey h).log
  cache := standing_step hr hi.cache h

/-- Every run keeps the invariant. -/
theorem entries_exec (p : Process) (h : exec (step H) { process := p } es = some w) :
    History H w ∧ Entries w := by
  refine exec_invariant (I := fun u => History H u ∧ Entries u) ?_ h
    ⟨history_init H p, entries_init p⟩
  rintro s e s' hstep ⟨hh, hi⟩
  have htrans := transition_of_step hstep
  exact ⟨hh.step htrans, hi.step hh.recorded htrans⟩

/-- The keys of the cache are built. -/
theorem built_of_cached (hr : Recorded H w) (hi : Entries w) (h : w.impl.cache[k]? = some entry) :
    Built k :=
  hi.keyed.cached hr h

/-! ## Looking an artifact up -/

/-- An entry that is found by its id is in the cache. -/
theorem mem_of_entryOf {id : ArtifactId} {entry : CacheEntry} (h : w.entryOf id = some entry) :
    ∃ k : CompilationKey, w.impl.cache[k]? = some entry := by
  obtain ⟨p, hp, rfl⟩ := Option.map_eq_some_iff.mp h
  exact ⟨p.1, Std.ExtTreeMap.mem_toList_iff_getElem?_eq_some.mp (List.mem_of_find?_eq_some hp)⟩

/-- A lookup answers what `decide` says of the entry.
SOURCE: Fabric.cpp:442-449 -/
theorem lookup_of_entry {entry : CacheEntry} {dec : CompilationCompatibilityDecision}
    (hentry : w.impl.cache[k]? = some entry)
    (hdec : CompilationCompatibility.decide entry.key k entry.descriptor
      w.process.config.compatibilityPolicy = .ok dec) :
    w.lookup k = .ok (dec, some entry.descriptor) := by
  unfold World.lookup
  rw [hentry]
  dsimp only
  rw [hdec]
  rfl

/-- An id in the cache is found. -/
theorem exists_entryOf (h : w.impl.cache[k]? = some entry) :
    ∃ e, w.entryOf entry.descriptor.id = some e := by
  have hsome : (w.impl.cache.toList.find? fun p =>
      p.2.descriptor.id = entry.descriptor.id).isSome = true := by
    rw [List.find?_isSome]
    exact ⟨(k, entry), Std.ExtTreeMap.mem_toList_iff_getElem?_eq_some.mpr h, by simp⟩
  obtain ⟨p, hp⟩ := Option.isSome_iff_exists.mp hsome
  exact ⟨p.2, by rw [World.entryOf, hp, Option.map_some]⟩

end CompilationFabric.Interface
