import CompilationFabric.Interface.FabricRegistry

/-!
# The fabric refines a registry

Every step of a fabric is what a registry does when it is seen to do the same, so what `compile`
serves from its cache can be told from what has been seen of the fabric before: it is the artifact
that was last published or recovered under the key, and it is served unless it has been retired
since.  Nothing else has an influence: not the calls that are under way, nor what they wait for, nor
what was served in between.
-/

set_option autoImplicit false

namespace CompilationFabric.Analysis

open CompilationFabric.Library.TransitionSystem
open CompilationFabric.Library.Registry
open CompilationFabric.Model
open CompilationFabric.Interface

variable {H : Bytes → Digest} {w w' : World} {e : Event} {es : List Event} {c : CallId}
  {call : Call} {k : CompilationKey}

/-! ## One step -/

/-- Nothing is seen, and nothing of the cache changes. -/
theorem step_silent (hobserve : observe w e w' = .silent) (hcache : w'.impl.cache = w.impl.cache) :
    FabricStep (registryOf w) (observe w e w') (registryOf w') := by
  rw [hobserve, registryOf_congr hcache]
  exact ⟨trivial, rfl⟩

/-- A lookup that misses, or does not come to its end. -/
theorem step_miss {request : CompilationRequest} {n : UInt64} {now : Int64} {p : CompilationPlan}
    {phase : Phase} (hr : Recorded H w)
    (hmiss : Misses w (World.compileKey w.process request p) phase) :
    FabricStep (registryOf w) (observe w (.compile request n now) (w.enter request p phase))
      (registryOf (w.enter request p phase)) := by
  have hcache : registryOf (w.enter request p phase) = registryOf w := registryOf_congr rfl
  rw [hcache]
  cases hmiss with
  | raised =>
      rw [show observe w (.compile request n now) (w.enter request p .raised) = .silent by
        simp [observe, World.enter, seenOfCall]]
      exact ⟨trivial, rfl⟩
  | missed h =>
      rw [show observe w (.compile request n now) (w.enter request p .missed) =
          .miss (World.compileKey w.process request p) by
        simp [observe, World.enter, seenOfCall]]
      refine ⟨?_, rfl⟩
      change registryOf w _ = none
      unfold registryOf
      cases hentry : w.impl.cache[World.compileKey w.process request p]? with
      | none => rfl
      | some entry =>
          obtain ⟨m, -, hof⟩ := hr.cache _ _ hentry
          rw [Option.bind_some]
          refine if_neg fun hstate => ?_
          have hfast := h entry hentry
          rw [fastPath_of_deployable hof.key hstate] at hfast
          cases hfast

/-- What is seen of a lookup that is served. -/
theorem observe_hit {request : CompilationRequest} {n : UInt64} {now : Int64}
    {p : CompilationPlan} {entry : CacheEntry} {outcome : CompatibilityOutcome} {impl : Impl} :
    observe w (.compile request n now)
        { w.enter request p (.returned (.cache entry.origin) (.ok (hitResult H request p
          (World.compileKey w.process request p) outcome (entry.touch now)))) with impl := impl } =
      .serve (World.compileKey w.process request p) (versionOf entry).artifact := by
  simp only [observe, World.enter, World.setCall, Function.update_self, Option.map_some,
    Option.getD_some]
  rfl

/-- A lookup that is served. -/
theorem step_hit {request : CompilationRequest} {n : UInt64} {now : Int64} {p : CompilationPlan}
    {entry : CacheEntry} {outcome : CompatibilityOutcome}
    (he : w.impl.cache[World.compileKey w.process request p]? = some entry)
    (hfast : World.fastPath w.process.config.compatibilityPolicy
      (World.compileKey w.process request p) entry = .ok (some outcome))
    (hw' : w' = { w.enter request p (.returned (.cache entry.origin) (.ok (hitResult H request p
        (World.compileKey w.process request p) outcome (entry.touch now)))) with
      impl := { w.impl with
        cache := w.impl.cache.insert (World.compileKey w.process request p)
          (entry.touch now) } }) :
    FabricStep (registryOf w) (observe w (.compile request n now) w') (registryOf w') := by
  have hlive : registryOf w (World.compileKey w.process request p) = some (versionOf entry) := by
    unfold registryOf
    rw [he, Option.bind_some]
    exact liveVersion_of_deployable (fastPath_eq_some hfast).1
  rw [show observe w (.compile request n now) w' = _ by rw [hw', observe_hit]]
  refine ⟨⟨_, hlive, rfl⟩, ?_⟩
  funext k
  change registryOf w' k = registryOf w k
  rw [hw']
  unfold registryOf
  change (w.impl.cache.insert _ _)[k]?.bind liveVersion = _
  rw [Std.ExtTreeMap.getElem?_insert]
  split
  · next hk =>
    rw [← Std.LawfulEqOrd.compare_eq_iff_eq.mp hk, he]
    simp
  · rfl

/-- A commit that publishes. -/
theorem step_publish {v : Validated} (hr : Recorded H w) (hcall : w.calls c = some call)
    (hphase : call.phase = .validated v) :
    FabricStep (registryOf w) (observe w (.commit c) (w.publish c call v))
      (registryOf (w.publish c call v)) := by
  have heligible := (hr.carried c call v hcall (by rw [hphase]; rfl)).2
  have hobserve : observe w (.commit c) (w.publish c call v) = .publish call.key
      { artifact := ⟨v.art.id, v.art.generation, v.build.output.executable⟩
        toolchainGen := w.impl.toolchainGen } := by
    simp only [observe, World.publish, World.setCall, Function.update_self, Option.map_some,
      Option.getD_some, seenOfCommit]
    cases w.process.config.persistenceEnabled && w.process.config.persistOnCompile <;> rfl
  rw [hobserve]
  refine ⟨trivial, ?_⟩
  funext k
  unfold registryOf
  change (w.impl.cache.insert _ _)[k]?.bind liveVersion =
    Function.update (registryOf w) call.key _ k
  rw [Std.ExtTreeMap.getElem?_insert]
  by_cases hk : k = call.key
  · rw [hk, Function.update_self, if_pos (Std.LawfulEqOrd.compare_eq_iff_eq.mpr rfl)]
    exact liveVersion_of_deployable heligible.state
  · rw [Function.update_of_ne hk, if_neg fun h =>
      hk (Std.LawfulEqOrd.compare_eq_iff_eq.mp h).symm]
    rfl

/-- The records that a `recover` inserts are all to be served. -/
theorem step_recover {t : ℕ} {valid : List Loaded} (hr : Recorded H w)
    (hphase : w.recoveries t = some (.loading [] valid))
    (hcache : w'.impl.cache = recoveredCache w valid) :
    FabricStep (registryOf w) (observe w (.recoverInsert t) w') (registryOf w') := by
  refine ⟨trivial, ?_⟩
  funext k
  change registryOf w' k = (restoredBy w t k).or (registryOf w k)
  rw [restoredBy_of_loading hphase]
  unfold registryOf
  rw [hcache, getElem?_recoveredCache]
  cases hlast : lastLoaded valid k with
  | none =>
      rw [Option.map_none, Option.map_none, Option.none_or, Option.none_or]
      cases w.impl.cache[k]? with
      | none => rfl
      | some entry => exact liveVersion_unload entry
  | some l =>
      obtain ⟨m, -, -, hrestores⟩ := hr.recoveries t _ hphase l (mem_of_lastLoaded hlast).1
      have hstate : (w.recoveredEntry l).unload.descriptor.state = ascii "Deployable" :=
        hrestores.eligible.state
      exact liveVersion_of_deployable hstate

/-- Every step is an act of the registry, or none. -/
theorem step_of_transition (hw : WellFormed w) (hr : Recorded H w) (h : Transition H w e w') :
    FabricStep (registryOf w) (observe w e w') (registryOf w') := by
  cases h with
  | refuse =>
      refine step_silent ?_ rfl
      change ((w.calls w.nextCall).map seenOfCall).getD .silent = _
      rw [hw.fresh _ le_rfl]
      rfl
  | miss hplan hlock hmiss => exact step_miss hr hmiss
  | hit hplan hlock he hfast => exact step_hit he hfast rfl
  | publish hcall hphase => exact step_publish hr hcall hphase
  | advance hcall hadv => cases hadv <;> exact step_silent rfl rfl
  | fail hcall hlock hentry hfail =>
      refine step_silent ?_ rfl
      cases hfail with
      | stale =>
          simp only [observe, finished, World.setCall, Function.update_self, Option.map_some,
            Option.getD_some]
          rfl
      | _ => rfl
  | write hcall hphase hwrite => cases hwrite <;> exact step_silent rfl rfl
  | @invalidate a =>
      refine ⟨trivial, registryOf_map a.selects _ liveVersion_invalidate (retiredBy a) rfl ?_⟩
      intro k entry hentry
      obtain ⟨m, -, hof⟩ := hr.cache k entry hentry
      exact retiredBy_versionOf hof.key a
  | @supersede id gen =>
      refine ⟨trivial, registryOf_map (fun _ entry => entry.descriptor.id = id ∧
        entry.descriptor.generation < gen) _ liveVersion_supersede
        (fun _ v => supersededBy id gen v) ?_ fun _ _ _ => rfl⟩
      simp [World.supersede]
  | lease he =>
      refine step_silent ?_ rfl
      rcases he with ⟨id, rfl⟩ | ⟨id, rfl⟩ <;> rfl
  | recovering h => cases h <;> exact step_silent rfl rfl
  | recoverInsert hlock hphase => exact step_recover hr hphase rfl
  | restart =>
      refine ⟨trivial, funext fun k => ?_⟩
      change (∅ : Std.ExtTreeMap CompilationKey CacheEntry compare)[k]?.bind liveVersion = none
      simp
  | _ => exact step_silent rfl rfl

/-- A call is served what is current under its key. -/
theorem observe_of_current {request : CompilationRequest} {n : UInt64} {now : Int64}
    {p : CompilationPlan} {v : Version} (hr : Recorded H w)
    (hplan : plan w.process.host w.process.config n now request = .ok p)
    (h : Transition H w (.compile request n now) w')
    (hv : registryOf w (World.compileKey w.process request p) = some v) :
    observe w (.compile request n now) w' =
      .serve (World.compileKey w.process request p) v.artifact := by
  obtain ⟨entry, hentry, hlive⟩ := Option.bind_eq_some_iff.mp hv
  obtain ⟨rfl, hstate⟩ := liveVersion_eq_some hlive
  obtain ⟨m, -, hof⟩ := hr.cache _ _ hentry
  have hfast := fastPath_of_deployable hof.key hstate w.process.config.compatibilityPolicy
  cases h with
  | refuse hplan' =>
      rw [hplan] at hplan'
      cases hplan'
  | miss hplan' hlock hmiss =>
      rw [hplan] at hplan'
      cases hplan'
      cases hmiss with
      | missed h =>
          rw [h entry hentry] at hfast
          cases hfast
      | raised he h =>
          rw [hentry, Option.some_inj] at he
          rw [he, h] at hfast
          cases hfast
  | hit hplan' hlock he hfast' =>
      rw [hplan] at hplan'
      cases hplan'
      rw [hentry, Option.some_inj] at he
      subst he
      exact observe_hit
  | advance hcall hadv => cases hadv
  | fail hcall hlock hentry hfail => cases hfail
  | lease he => rcases he with ⟨id, hid⟩ | ⟨id, hid⟩ <;> cases hid
  | recovering h => cases h

/-- The fabric simulates the registry. -/
theorem fabric_simulates (H : Bytes → Digest) :
    Simulates (step H) observe FabricStep registryOf fun w => WellFormed w ∧ Recorded H w where
  keeps _ _ _ hstep hs :=
    ⟨hs.1.step (transition_of_step hstep), hs.2.step hs.1 (transition_of_step hstep)⟩
  simulates _ _ _ hstep hs := step_of_transition hs.1 hs.2 (transition_of_step hstep)

/-! ## Every run -/

/-- What has been seen of a fabric. -/
def seen (H : Bytes → Digest) (p : Process) (es : List Event) : List FabricAct :=
  labels (step H) observe { process := p } es

/-- The fabric does what a registry does, has in it what has been seen to come and to stay, and
serves it to the next call that plans to compile under its key. -/
structure RefinesRegistry (H : Bytes → Digest) (p : Process) (es : List Event) (w : World) :
    Prop where
  path : Path FabricStep (fun _ => none) (seen H p es) (registryOf w)
  current : ∀ k v, registryOf w k = some v ↔ Current (seen H p es) k v
  served : ∀ request n now plan w' v,
    Model.plan w.process.host w.process.config n now request = .ok plan →
    step H w (.compile request n now) = some w' →
    Current (seen H p es) (World.compileKey w.process request plan) v →
    observe w (.compile request n now) w' =
      .serve (World.compileKey w.process request plan) v.artifact

/-- In every run of a fabric, restarts included, it does what a registry does.
SOURCE: Fabric.cpp:225-250, 397-420, 454-507, 566-584 -/
theorem fabric_refines_registry (H : Bytes → Digest) (p : Process) (es : List Event) (w : World)
    (hexec : exec (step H) { process := p } es = some w) : RefinesRegistry H p es w := by
  have hpath := (fabric_simulates H).path ⟨.init p, recorded_init H p⟩ hexec
  have hempty : registryOf { process := p } = fun _ => none := by
    funext k
    change (∅ : Std.ExtTreeMap CompilationKey CacheEntry compare)[k]?.bind liveVersion = none
    simp
  rw [hempty] at hpath
  refine ⟨hpath, fun k v => current_iff hpath, ?_⟩
  intro request n now plan w' v hplan hstep hv
  exact observe_of_current (recorded_exec p hexec).2 hplan (transition_of_step hstep)
    ((current_iff hpath).mpr hv)

/-- An artifact is published and served, and another compile of the key finds it invalidated. -/
def publishedAndRetired : List Event :=
  [.compile {} 1 0, .join 0] ++ ownerSteps 0 { executable := [1] } ++
    [.commit 0, .complete 0, .compile {} 2 0, .invalidate (.id (.fromU64 2)), .compile {} 3 0]

/-- An artifact that is published and retired. -/
theorem fabric_refines_registry_retired : ∃ w,
    exec (step fun _ => .zero) { process := unstored } publishedAndRetired = some w ∧
      RefinesRegistry (fun _ => .zero) unstored publishedAndRetired w := by
  obtain ⟨w, hrun⟩ := Option.isSome_iff_exists.mp (show (exec (step fun _ => .zero)
    { process := unstored } publishedAndRetired).isSome = true by decide +kernel)
  exact ⟨w, hrun, fabric_refines_registry _ unstored _ w hrun⟩

end CompilationFabric.Analysis
