import CompilationFabric.Interface.FabricRuns

/-!
# Steps that can be taken

When a call can make its next step, and what the step is, for a call that goes well.  In a row
they take a call that nobody interferes with to its commit (`exec_alone`).
-/

set_option autoImplicit false

namespace CompilationFabric.Interface

open CompilationFabric.Library.TransitionSystem
open CompilationFabric.Model

variable {H : Bytes → Digest} {w : World} {c : CallId} {call : Call} {request : CompilationRequest}
  {p : CompilationPlan} {n : UInt64} {now : Int64}

/-! ## One step -/

/-- A compile without an entry that serves it goes on to its join.
SOURCE: Fabric.cpp:217-250 -/
theorem compile_of_miss (hplan : plan w.process.host w.process.config n now request = .ok p)
    (hlock : w.impl.lock = none)
    (hmiss : ∀ e, w.impl.cache[World.compileKey w.process request p]? = some e →
      World.fastPath w.process.config.compatibilityPolicy (World.compileKey w.process request p) e =
        .ok none) :
    step H w (.compile request n now) = some (w.enter request p .missed) := by
  change w.compile H request n now = _
  simp only [World.compile, hplan, hlock, if_true]
  cases hcache : w.impl.cache[World.compileKey w.process request p]? with
  | none => rfl
  | some e => simp only [hmiss e hcache]

/-- A compile with an entry that serves it returns. -/
theorem compile_of_hit {entry : CacheEntry} {outcome : CompatibilityOutcome}
    (hplan : plan w.process.host w.process.config n now request = .ok p)
    (hlock : w.impl.lock = none)
    (hcache : w.impl.cache[World.compileKey w.process request p]? = some entry)
    (hfast : World.fastPath w.process.config.compatibilityPolicy
      (World.compileKey w.process request p) entry = .ok (some outcome)) :
    step H w (.compile request n now) =
      some { w.enter request p (.returned (.cache entry.origin) (.ok (hitResult H request p
          (World.compileKey w.process request p) outcome (entry.touch now)))) with
        impl := { w.impl with
          cache := w.impl.cache.insert (World.compileKey w.process request p)
            (entry.touch now) } } := by
  change w.compile H request n now = _
  simp only [World.compile, hplan, hlock, hcache, hfast, if_true]
  rfl

/-- Without an active owner the call becomes one. -/
theorem join_of_inactive (hcall : w.calls c = some call) (hphase : call.phase = .missed)
    (hlock : w.impl.lock = none) (hactive : w.activeOwner call.key = none) :
    step H w (.join c) = some (w.own c call) := by
  change w.join c = _
  simp only [World.join, hcall, hphase, hlock, hactive, bind, Option.bind_some, if_true]

/-- With an active owner the call waits for it. -/
theorem join_of_active {o : CallId} (hcall : w.calls c = some call) (hphase : call.phase = .missed)
    (hlock : w.impl.lock = none) (hactive : w.activeOwner call.key = some o) :
    step H w (.join c) = some (w.setCall c { call with phase := .waiting o }) := by
  change w.join c = _
  simp only [World.join, hcall, hphase, hlock, hactive, bind, Option.bind_some, if_true]

/-- INTERNAL: a plan with a known backend goes on to compile. -/
theorem check_of_backend (hcall : w.calls c = some call) (hphase : call.phase = .checking)
    (hbackend : (w.process.host.backends w.process.config).contains call.plan.backend = true) :
    step H w (.check c (.ok ())) = some (w.setCall c { call with phase := .compiling }) := by
  change w.check c (.ok ()) = _
  simp only [World.check, hcall, hphase, hbackend, bind, Option.bind_some, not_true_eq_false,
    if_false]

/-- INTERNAL: a build that succeeds is kept. -/
theorem build_of_ok {run : BackendRun} {ms : Int64} {b : Build} (hcall : w.calls c = some call)
    (hphase : call.phase = .compiling) (hbuild : backendBuild call.request run = .ok b) :
    step H w (.build c run ms) =
      some (w.setCall c { call with phase := .built { b with compileMs := ms } }) := by
  change w.build c run ms = _
  simp only [World.build, hcall, hphase, hbuild, bind, Option.bind_some]

/-- INTERNAL: a build is given the next number. -/
theorem number_of_built {b : Build} (hcall : w.calls c = some call)
    (hphase : call.phase = .built b) :
    step H w (.number c) = some { w.setCall c { call with
        phase := .numbered b (.fromU64 (w.impl.artifactCounter + 1)) } with
      impl := { w.impl with artifactCounter := w.impl.artifactCounter + 1 } } := by
  change w.number c = _
  simp only [World.number, hcall, hphase, bind, Option.bind_some]

/-- INTERNAL: an artifact that passes is ready to be committed. -/
theorem validate_of_passed {b : Build} {id : ArtifactId} {entry : InflightEntry}
    {vd : ValidationDescriptor} {times : Timestamps} {ms : Int64} (hcall : w.calls c = some call)
    (hphase : call.phase = .numbered b id) (hentry : call.entry = some entry)
    (hpassed : vd.passed = true) :
    step H w (.validate c (.ok vd) times ms) = some (w.setCall c { call with
      phase := .validated ⟨b, deployableArtifact call.plan (describe H w.process.config call
        entry.attempt b id w.impl.artifactCounter times) vd, ms⟩ }) := by
  change w.validate H c (.ok vd) times ms = _
  simp only [World.validate, hcall, hphase, hentry, hpassed, bind, Option.bind_some, if_true]

/-- A commit under the generations that its owner has seen is published.
SOURCE: Fabric.cpp:397-420 -/
theorem commit_of_current {v : Validated} {entry : InflightEntry} (hcall : w.calls c = some call)
    (hphase : call.phase = .validated v) (hentry : call.entry = some entry)
    (hlock : w.impl.lock = none) (hcache : entry.baseCacheGen = w.impl.cacheGen)
    (htoolchain : entry.baseToolchainGen = w.impl.toolchainGen) :
    step H w (.commit c) = some (w.publish c call v) := by
  change w.commit c = _
  simp only [World.commit, hcall, hphase, hentry, hlock, hcache, htoolchain, bind,
    Option.bind_some, if_true, ne_eq, not_true_eq_false, or_self, if_false]

/-- A commit under any others is given up.
SOURCE: Fabric.cpp:397-420 -/
theorem commit_of_outdated {v : Validated} {entry : InflightEntry} (hcall : w.calls c = some call)
    (hphase : call.phase = .validated v) (hentry : call.entry = some entry)
    (hlock : w.impl.lock = none)
    (hstale : entry.baseCacheGen ≠ w.impl.cacheGen ∨
      entry.baseToolchainGen ≠ w.impl.toolchainGen) :
    step H w (.commit c) = some (finished w c call entry staleResult) := by
  change w.commit c = _
  simp only [World.commit, hcall, hphase, hentry, hlock, World.finish, bind, Option.bind_some,
    if_true, if_pos hstale]
  rfl

/-- INTERNAL: a committed artifact is returned. -/
theorem complete_of_committed {v : Validated} {entry : InflightEntry}
    (hcall : w.calls c = some call) (hphase : call.phase = .committed v)
    (hentry : call.entry = some entry) (hlock : w.impl.lock = none) :
    step H w (.complete c) =
      some (finished w c call entry (.ok (v.result H call entry.attempt))) := by
  change w.complete H c = _
  simp only [World.complete, hcall, hphase, hentry, World.finish, hlock, bind,
    Option.bind_some, if_true]
  rfl

/-- INTERNAL: a waiter is woken with its owner's outcome. -/
theorem wake_of_done {o : CallId} {owner : Call} {entry : InflightEntry}
    {r : Result CompilationResult} (hcall : w.calls c = some call) (hphase : call.phase = .waiting o)
    (howner : w.calls o = some owner) (hentry : owner.entry = some entry)
    (hdone : entry.outcome = some r) (hlock : w.impl.lock = none) :
    step H w (.wake c) = some (w.setCall c { call with phase := .returned (.waiter o) r }) := by
  change w.wake c = _
  simp only [World.wake, hcall, hphase, howner, hentry, hdone, hlock, bind,
    Option.bind_some, if_true]

/-! ## A call that succeeds -/

/-- The backend answers every question with one output. -/
def uniformRun (output : BackendOutput) : BackendRun :=
  { variants := fun _ => { compiled := .ok output }, winner := .ok output, plain := .ok output }

/-- Whether the request is tuned or not, the output is the one the backend answers with. -/
theorem backendBuild_uniformRun (request : CompilationRequest) {output : BackendOutput}
    (houtput : output.executable ≠ []) :
    ∃ b, backendBuild request (uniformRun output) = .ok b ∧ b.output = output := by
  have htuned : (autotune request (uniformRun output)).output = output := by
    unfold autotune
    dsimp only [uniformRun]
    split
    · next hwinner =>
      cases hwinner
      rw [if_neg houtput]
    · rw [if_pos rfl]
  unfold backendBuild
  by_cases hauto : (request.autotune && request.autotuneCandidates > 1) = true
  · refine ⟨autotune request (uniformRun output), ?_, htuned⟩
    simp only [hauto, if_true, pure_bind, htuned, houtput, if_false]
    rfl
  · refine ⟨{ output }, ?_, rfl⟩
    simp only [hauto, uniformRun]
    exact if_neg houtput

/-! ## A call alone -/

/-- A call that has just started is nobody's owner. -/
theorem activeOwner_enter {key : CompilationKey} {phase : Phase} (h : w.activeOwner key = none) :
    (w.enter request p phase).activeOwner key = none := by
  unfold World.activeOwner at h ⊢
  change w.impl.inflight[key]?.bind _ = none
  change w.impl.inflight[key]?.bind _ = none at h
  cases ho : w.impl.inflight[key]? with
  | none => rfl
  | some o =>
      rw [ho, Option.bind_some] at h
      rw [Option.bind_some]
      change (Function.update w.calls w.nextCall _ o).bind _ = none
      by_cases hnew : o = w.nextCall
      · rw [hnew, Function.update_self]
        rfl
      · rw [Function.update_of_ne hnew]
        exact h

/-- An owner that is done is not active. -/
theorem activeOwner_of_done {key : CompilationKey} {o : CallId} {owner : Call}
    {entry : InflightEntry} {r : Result CompilationResult}
    (hinflight : w.impl.inflight[key]? = some o) (howner : w.calls o = some owner)
    (hentry : owner.entry = some entry) (hdone : entry.outcome = some r) :
    w.activeOwner key = none := by
  unfold World.activeOwner
  simp only [hinflight, howner, hentry, hdone, bind, Option.bind_some, Option.isNone_some,
    Bool.false_eq_true, if_false]

/-- The artifact of a call that is the only one to draw numbers, from a counter at `n`. -/
def aloneArtifact (H : Bytes → Digest) (q : Process) (request : CompilationRequest)
    (p : CompilationPlan) (b : Build) (n : UInt64) : Validated :=
  let call : Call :=
    { request, plan := p, key := World.compileKey q request p, phase := .missed
      barrier := fun _ => False }
  { build := { b with compileMs := 0 }
    art := deployableArtifact p (describe H q.config call (.fromU64 (n + 1)) b
      (.fromU64 (n + 1 + 1)) (n + 1 + 1) {}) { passed := true }
    validateMs := 0 }

/-- A call that nobody has interfered with is about to commit. -/
structure Alone (H : Bytes → Digest) (w : World) (request : CompilationRequest)
    (p : CompilationPlan) (b : Build) (u : World) (call : Call) : Prop where
  calls : u.calls w.nextCall = some call
  phase : call.phase =
    .validated (aloneArtifact H w.process request p b w.impl.artifactCounter)
  entry : ∃ entry, call.entry = some entry ∧ entry.baseCacheGen = w.impl.cacheGen ∧
    entry.baseToolchainGen = w.impl.toolchainGen
  underWay : ∀ entry, call.entry = some entry → entry.outcome = none
  asked : call.request = request
  planned : call.plan = p
  key : call.key = World.compileKey w.process request p
  process : u.process = w.process
  impl : u.impl = { w.impl with
    artifactCounter := w.impl.artifactCounter + 1 + 1
    inflight := w.impl.inflight.insert call.key w.nextCall }
  nextCall : u.nextCall = w.nextCall + 1
  nextRecovery : u.nextRecovery = w.nextRecovery
  dir : u.dir = w.dir
  log : u.log = w.log

/-- A new call that the cache does not serve, under a key that is not under way, gets to its
commit.
SOURCE: Fabric.cpp:217-396 -/
theorem exec_alone {output : BackendOutput} {b : Build}
    (hplan : plan w.process.host w.process.config n now request = .ok p)
    (hlock : w.impl.lock = none)
    (hmiss : ∀ e, w.impl.cache[World.compileKey w.process request p]? = some e →
      World.fastPath w.process.config.compatibilityPolicy (World.compileKey w.process request p) e =
        .ok none)
    (hactive : w.activeOwner (World.compileKey w.process request p) = none)
    (hbackend : (w.process.host.backends w.process.config).contains p.backend = true)
    (hbuild : backendBuild request { variants := fun _ => { compiled := .ok output }
                                     winner := .ok output
                                     plain := .ok output } = .ok b) :
    ∃ u call, exec (step H) w ([.compile request n now, .join w.nextCall] ++
        ownerSteps w.nextCall output) = some u ∧ Alone H w request p b u call := by
  have h₁ := compile_of_miss (H := H) hplan hlock hmiss
  have h₂ := join_of_inactive (H := H) (w := w.enter request p .missed)
    (Function.update_self w.nextCall _ _) rfl hlock (activeOwner_enter hactive)
  simp only [ownerSteps, List.cons_append, List.nil_append]
  let entry : InflightEntry :=
    { attempt := .fromU64 (w.impl.artifactCounter + 1)
      baseCacheGen := w.impl.cacheGen
      baseToolchainGen := w.impl.toolchainGen }
  let call : Call :=
    { request, plan := p, key := World.compileKey w.process request p
      phase := .validated (aloneArtifact H w.process request p b w.impl.artifactCounter)
      entry := some entry, barrier := w.invalidated }
  refine ⟨_, call, exec_cons.mpr ⟨_, h₁, exec_cons.mpr ⟨_, h₂,
    exec_cons.mpr ⟨_, check_of_backend (Function.update_self ..) rfl hbackend,
    exec_cons.mpr ⟨_, build_of_ok (Function.update_self ..) rfl hbuild,
    exec_cons.mpr ⟨_, number_of_built (Function.update_self ..) rfl,
    exec_singleton.mpr (validate_of_passed (Function.update_self ..) rfl rfl rfl)⟩⟩⟩⟩⟩, ?_⟩
  exact {
    calls := Function.update_self ..
    phase := rfl
    entry := ⟨_, rfl, rfl, rfl⟩
    underWay := by
      rintro _ ⟨⟩
      rfl
    asked := rfl
    planned := rfl
    key := rfl
    process := rfl
    impl := rfl
    nextCall := rfl
    nextRecovery := rfl
    dir := rfl
    log := rfl }

/-- And commits.
SOURCE: Fabric.cpp:397-420 -/
theorem Alone.commit {b : Build} {u : World} {call : Call} (h : Alone H w request p b u call)
    (hlock : w.impl.lock = none) :
    step H u (.commit w.nextCall) = some (u.publish w.nextCall call
      (aloneArtifact H w.process request p b w.impl.artifactCounter)) := by
  obtain ⟨entry, hentry, hcache, htoolchain⟩ := h.entry
  refine commit_of_current h.calls h.phase hentry ?_ ?_ ?_ <;> rw [h.impl]
  · exact hlock
  · exact hcache
  · exact htoolchain

end CompilationFabric.Interface
