import CompilationFabric.Library.TransitionSystem
import CompilationFabric.Model.FabricSystem

/-!
# What a step of the fabric can do

`Transition` lists the ways a step ends, each with its guard and the state it leads to, and
`transition_of_step` says that the step function does nothing else.  The invariants are all
proved from the list, by one case for each way.

Two kinds of step differ only in where the call goes: `Advances` is an owner that moves on
by itself, and `Fails` is an owner that gives up, with the failure its waiters will see.
-/

set_option autoImplicit false

namespace CompilationFabric.Interface

open CompilationFabric.Library.TransitionSystem
open CompilationFabric.Model

variable {H : Bytes → Digest} {w w' : World} {e : Event}

/-! ## The ways -/

/-- A lookup that serves nothing, and what the call does next. -/
inductive Misses (w : World) (key : CompilationKey) : Phase → Prop
  | missed (h : ∀ e, w.impl.cache[key]? = some e →
      World.fastPath w.process.config.compatibilityPolicy key e = .ok none) :
      Misses w key .missed
  | raised {e : CacheEntry} {x : CxxException} (he : w.impl.cache[key]? = some e)
      (h : World.fastPath w.process.config.compatibilityPolicy key e = .error x) :
      Misses w key .raised

/-- An owner moves on without the lock. -/
inductive Advances (H : Bytes → Digest) (w : World) (c : CallId) (call : Call) :
    Event → Phase → Prop
  | compiling (hphase : call.phase = .checking)
      (hbackend : (w.process.host.backends w.process.config).contains call.plan.backend) :
      Advances H w c call (.check c (.ok ())) .compiling
  | built {run : BackendRun} {ms : Int64} {b : Build} (hphase : call.phase = .compiling)
      (hbuild : backendBuild call.request run = .ok b) :
      Advances H w c call (.build c run ms) (.built { b with compileMs := ms })
  | validated {b : Build} {id : ArtifactId} {entry : InflightEntry} {vd : ValidationDescriptor}
      {times : Timestamps} {ms : Int64} (hphase : call.phase = .numbered b id)
      (hentry : call.entry = some entry) (hpassed : vd.passed = true) :
      Advances H w c call (.validate c (.ok vd) times ms) (.validated ⟨b,
        deployableArtifact call.plan (describe H w.process.config call entry.attempt b id
          w.impl.artifactCounter times) vd, ms⟩)
  | raised (hphase : call.phase = .checking ∨ call.phase = .compiling ∨
      ∃ b id, call.phase = .numbered b id) : Advances H w c call (.raise c) .raised

/-- An owner gives up. -/
inductive Fails (w : World) (c : CallId) (call : Call) : Event → Failure → Prop
  | noBackend {outcome : Result Unit} (hphase : call.phase = .checking)
      (hbackend : ¬ (w.process.host.backends w.process.config).contains call.plan.backend) :
      Fails w c call (.check c outcome)
        ⟨.NoBackend, ascii "no backend " ++ call.plan.backend⟩
  | incompatible {failure : Failure} (hphase : call.phase = .checking) :
      Fails w c call (.check c (.error failure)) failure
  | build {run : BackendRun} {ms : Int64} {failure : Failure} (hphase : call.phase = .compiling)
      (hbuild : backendBuild call.request run = .error failure) :
      Fails w c call (.build c run ms) failure
  | validation {b : Build} {id : ArtifactId} {failure : Failure} {times : Timestamps}
      {ms : Int64} (hphase : call.phase = .numbered b id) :
      Fails w c call (.validate c (.error failure) times ms) failure
  | notPassed {b : Build} {id : ArtifactId} {vd : ValidationDescriptor} {times : Timestamps}
      {ms : Int64} (hphase : call.phase = .numbered b id) (hpassed : vd.passed = false) :
      Fails w c call (.validate c (.ok vd) times ms)
        ⟨.ValidationFailed, ascii "artifact failed validation: " ++ vd.message⟩
  | stale {v : Validated} {entry : InflightEntry} (hphase : call.phase = .validated v)
      (hentry : call.entry = some entry)
      (hstale : entry.baseCacheGen ≠ w.impl.cacheGen ∨
        entry.baseToolchainGen ≠ w.impl.toolchainGen) :
      Fails w c call (.commit c) ⟨.StaleGeneration, World.staleMessage⟩

/-- The state after `finish`. -/
def finished (w : World) (c : CallId) (call : Call) (entry : InflightEntry)
    (result : Result CompilationResult) : World :=
  w.setCall c { call with
    phase := .returned .owner result
    entry := some { entry with outcome := some result } }

/-- The file steps of a store, with the phase and the files after them. -/
inductive Writes (H : Bytes → Digest) (w : World) (c : CallId) (call : Call) (v : Validated) :
    StoreStage → World → Prop
  | metaTmp (hsize : (encodeMeta H (v.record call.key)).length < sizeMod) :
      Writes H w c call v .metaTmp
        { w.setCall c { call with phase := .storing v .metaRename } with
          dir := writeTmp w.dir (metaPath v.art.id v.art.generation)
            (encodeMeta H (v.record call.key)) }
  | metaRename {dir : Directory} (hsize : (encodeMeta H (v.record call.key)).length < sizeMod)
      (hdir : rename w.dir (metaPath v.art.id v.art.generation) = some dir) :
      Writes H w c call v .metaRename
        { w.setCall c { call with phase := .storing v .binTmp } with
          dir := dir
          writers := Function.update w.writers (metaPath v.art.id v.art.generation) c }
  | binTmp : Writes H w c call v .binTmp
        { w.setCall c { call with phase := .storing v .binRename } with
          dir := writeTmp w.dir (binPath v.art.id v.art.generation) v.build.output.executable }
  | binRename {dir : Directory}
      (hdir : rename w.dir (binPath v.art.id v.art.generation) = some dir) :
      Writes H w c call v .binRename { w.release c call v with dir := dir }

/-- What `recover` does between its start and its insertion. -/
inductive Recovers (H : Bytes → Digest) (w : World) (t : ℕ) :
    Event → Option RecoverPhase → Prop
  | listed {names : List Bytes} (hphase : w.recoveries t = some (.cleaning []))
      (hnames : names.Perm w.dir.keys) :
      Recovers H w t (.listRecords t names) (some (.loading (list names) []))
  | thrown {id : ArtifactId} {gen : ArtifactGeneration} {todo : List (ArtifactId × UInt64)}
      {valid : List Loaded} {x : CxxException}
      (hphase : w.recoveries t = some (.loading ((id, gen) :: todo) valid))
      (hload : loadMeta H w.dir[metaPath id gen]? id gen = .error x) :
      Recovers H w t (.readMeta t) none
  | noMeta {id : ArtifactId} {gen : ArtifactGeneration} {todo : List (ArtifactId × UInt64)}
      {valid : List Loaded} {failure : Failure}
      (hphase : w.recoveries t = some (.loading ((id, gen) :: todo) valid))
      (hload : loadMeta H w.dir[metaPath id gen]? id gen = .ok (.error failure)) :
      Recovers H w t (.readMeta t) (some (.loading todo valid))
  | foundMeta {id : ArtifactId} {gen : ArtifactGeneration} {todo : List (ArtifactId × UInt64)}
      {valid : List Loaded} {record : PersistedRecord}
      (hphase : w.recoveries t = some (.loading ((id, gen) :: todo) valid))
      (hload : loadMeta H w.dir[metaPath id gen]? id gen = .ok (.ok record)) :
      Recovers H w t (.readMeta t)
        (some (.content id gen ⟨record, w.writers (metaPath id gen)⟩ todo valid))
  | dropped {id : ArtifactId} {gen : ArtifactGeneration} {found : Loaded}
      {todo : List (ArtifactId × UInt64)} {valid : List Loaded}
      (hphase : w.recoveries t = some (.content id gen found todo valid))
      (hload : ∀ record, loadContent H found.record w.dir[binPath id gen]? id gen = .ok record →
        record.invalidated = true) :
      Recovers H w t (.readContent t) (some (.loading todo valid))
  | kept {id : ArtifactId} {gen : ArtifactGeneration} {found : Loaded}
      {todo : List (ArtifactId × UInt64)} {valid : List Loaded} {record : PersistedRecord}
      (hphase : w.recoveries t = some (.content id gen found todo valid))
      (hload : loadContent H found.record w.dir[binPath id gen]? id gen = .ok record)
      (hvalid : record.invalidated = false) :
      Recovers H w t (.readContent t)
        (some (.loading todo (valid ++ [⟨record, found.origin⟩])))

/-- The cache a `recover` leaves. -/
def recoveredCache (w : World) (valid : List Loaded) :
    Std.ExtTreeMap CompilationKey CacheEntry compare :=
  (valid.foldl (fun cache l => cache.insert l.record.key (w.recoveredEntry l)) w.impl.cache).map
    fun _ e => e.unload

/-- Every way a step can end. -/
inductive Transition (H : Bytes → Digest) (w : World) : Event → World → Prop
  | refuse {request : CompilationRequest} {n : UInt64} {now : Int64} {failure : Failure}
      (hplan : plan w.process.host w.process.config n now request = .error failure) :
      Transition H w (.compile request n now) { w with
        refused := Function.update w.refused w.nextCall (some failure)
        nextCall := w.nextCall + 1 }
  | miss {request : CompilationRequest} {n : UInt64} {now : Int64} {p : CompilationPlan}
      {phase : Phase} (hplan : plan w.process.host w.process.config n now request = .ok p)
      (hlock : w.impl.lock = none)
      (hmiss : Misses w (World.compileKey w.process request p) phase) :
      Transition H w (.compile request n now) (w.enter request p phase)
  | hit {request : CompilationRequest} {n : UInt64} {now : Int64} {p : CompilationPlan}
      {e : CacheEntry} {outcome : CompatibilityOutcome}
      (hplan : plan w.process.host w.process.config n now request = .ok p)
      (hlock : w.impl.lock = none)
      (he : w.impl.cache[World.compileKey w.process request p]? = some e)
      (hfast : World.fastPath w.process.config.compatibilityPolicy
        (World.compileKey w.process request p) e = .ok (some outcome)) :
      Transition H w (.compile request n now)
        { w.enter request p (.returned (.cache e.origin) (.ok (hitResult H request p
            (World.compileKey w.process request p) outcome (e.touch now)))) with
          impl := { w.impl with
            cache := w.impl.cache.insert (World.compileKey w.process request p)
              (e.touch now) } }
  | wait {c o : CallId} {call : Call} (hcall : w.calls c = some call)
      (hphase : call.phase = .missed) (hlock : w.impl.lock = none)
      (hactive : w.activeOwner call.key = some o) :
      Transition H w (.join c) (w.setCall c { call with phase := .waiting o })
  | own {c : CallId} {call : Call} (hcall : w.calls c = some call)
      (hphase : call.phase = .missed) (hlock : w.impl.lock = none)
      (hactive : w.activeOwner call.key = none) : Transition H w (.join c) (w.own c call)
  | wake {c o : CallId} {call owner : Call} {entry : InflightEntry}
      {result : Result CompilationResult} (hcall : w.calls c = some call)
      (hphase : call.phase = .waiting o) (hlock : w.impl.lock = none)
      (howner : w.calls o = some owner) (hentry : owner.entry = some entry)
      (hdone : entry.outcome = some result) :
      Transition H w (.wake c) (w.setCall c { call with phase := .returned (.waiter o) result })
  | advance {c : CallId} {call : Call} {phase : Phase} {e : Event}
      (hcall : w.calls c = some call) (hadv : Advances H w c call e phase) :
      Transition H w e (w.setCall c { call with phase := phase })
  | fail {c : CallId} {call : Call} {entry : InflightEntry} {failure : Failure} {e : Event}
      (hcall : w.calls c = some call) (hlock : w.impl.lock = none)
      (hentry : call.entry = some entry) (hfail : Fails w c call e failure) :
      Transition H w e (finished w c call entry (.error failure))
  | number {c : CallId} {call : Call} {b : Build} (hcall : w.calls c = some call)
      (hphase : call.phase = .built b) :
      Transition H w (.number c)
        { w.setCall c { call with
            phase := .numbered b (TypedId.fromU64 (w.impl.artifactCounter + 1)) } with
          impl := { w.impl with artifactCounter := w.impl.artifactCounter + 1 } }
  | publish {c : CallId} {call : Call} {v : Validated} {entry : InflightEntry}
      (hcall : w.calls c = some call) (hphase : call.phase = .validated v)
      (hentry : call.entry = some entry) (hlock : w.impl.lock = none)
      (hcache : entry.baseCacheGen = w.impl.cacheGen)
      (htoolchain : entry.baseToolchainGen = w.impl.toolchainGen) :
      Transition H w (.commit c) (w.publish c call v)
  | write {c : CallId} {call : Call} {v : Validated} {stage : StoreStage} {w' : World}
      (hcall : w.calls c = some call) (hphase : call.phase = .storing v stage)
      (hwrite : Writes H w c call v stage w') : Transition H w (.storeStep c true) w'
  | release {c : CallId} {call : Call} {v : Validated} {stage : StoreStage} {ok : Bool}
      (hcall : w.calls c = some call) (hphase : call.phase = .storing v stage) :
      Transition H w (.storeStep c ok) (w.release c call v)
  | complete {c : CallId} {call : Call} {v : Validated} {entry : InflightEntry}
      (hcall : w.calls c = some call) (hphase : call.phase = .committed v)
      (hlock : w.impl.lock = none) (hentry : call.entry = some entry) :
      Transition H w (.complete c)
        (finished w c call entry (.ok (v.result H call entry.attempt)))
  | invalidate {a : Authority} (hlock : w.impl.lock = none) :
      Transition H w (.invalidate a) (w.invalidate a)
  | supersede {id : ArtifactId} {gen : ArtifactGeneration} (hlock : w.impl.lock = none) :
      Transition H w (.supersede id gen) (w.supersede id gen)
  | lease {e : Event} {counts : ArtifactId → ℕ}
      (he : (∃ id, e = .acquire id) ∨ ∃ id, e = .release id) :
      Transition H w e { w with impl := { w.impl with leaseCounts := counts } }
  | recoverOff {names : List Bytes} (hconfig : w.process.config.persistenceEnabled = false) :
      Transition H w (.recover names) { w with nextRecovery := w.nextRecovery + 1 }
  | recover {names : List Bytes} (hnames : names.Perm w.dir.keys) :
      Transition H w (.recover names)
        { w.setRecovery w.nextRecovery (some (.cleaning (names.filter World.isTmp))) with
          nextRecovery := w.nextRecovery + 1 }
  | removeTmp {t : ℕ} {name : Bytes} {todo : List Bytes}
      (hphase : w.recoveries t = some (.cleaning (name :: todo))) :
      Transition H w (.removeTmp t)
        { w.setRecovery t (some (.cleaning todo)) with dir := w.dir.erase name }
  | recovering {t : ℕ} {e : Event} {next : Option RecoverPhase} (h : Recovers H w t e next) :
      Transition H w e (w.setRecovery t next)
  | recoverInsert {t : ℕ} {valid : List Loaded} (hlock : w.impl.lock = none)
      (hphase : w.recoveries t = some (.loading [] valid)) :
      Transition H w (.recoverInsert t)
        { w.setRecovery t none with
          impl := { w.impl with cache := recoveredCache w valid } }
  | restart {p : Process} (hroot : p.config.artifactRoot = w.process.config.artifactRoot) :
      Transition H w (.restart p) { w with
        process := p
        impl := {}
        calls := fun _ => none
        refused := fun _ => none
        recoveries := fun _ => none }

/-! ## Every step is one of them -/

/-- INTERNAL: an owner finishes when no one holds the lock. -/
theorem finish_eq_some {c : CallId} {call : Call} {result : Result CompilationResult}
    (h : w.finish c call result = some w') :
    w.impl.lock = none ∧ ∃ entry, call.entry = some entry ∧
      w' = finished w c call entry result := by
  unfold World.finish at h
  split at h
  · next hlock =>
    obtain ⟨entry, hentry, hw⟩ := Option.bind_eq_some_iff.mp h
    exact ⟨hlock, entry, hentry, (Option.some.inj hw).symm⟩
  · cases h

/-- INTERNAL: an owner that gives up finishes with its failure. -/
theorem fail_of_finish {c : CallId} {call : Call} {failure : Failure}
    (hcall : w.calls c = some call) (hfail : Fails w c call e failure)
    (h : w.finish c call (.error failure) = some w') : Transition H w e w' := by
  obtain ⟨hlock, entry, hentry, rfl⟩ := finish_eq_some h
  exact .fail hcall hlock hentry hfail

/-- INTERNAL: the ways a compile begins.
SOURCE: Fabric.cpp:217-250 -/
theorem transition_compile {request : CompilationRequest} {n : UInt64} {now : Int64}
    (h : w.compile H request n now = some w') :
    Transition H w (.compile request n now) w' := by
  unfold World.compile at h
  split at h
  · next failure hplan =>
    cases h
    exact .refuse hplan
  · next p hplan =>
    split at h
    · next hlock =>
      dsimp only at h
      split at h
      · next hnone =>
        cases h
        exact .miss hplan hlock (.missed fun e he => by rw [hnone] at he; cases he)
      · next e he =>
        split at h
        · next x hx =>
          cases h
          exact .miss hplan hlock (.raised he hx)
        · next hfast =>
          cases h
          refine .miss hplan hlock (.missed fun e' he' => ?_)
          rw [he, Option.some_inj] at he'
          exact he' ▸ hfast
        · next outcome hfast =>
          cases h
          exact .hit hplan hlock he hfast
    · cases h

/-- INTERNAL: the ways a call joins. -/
theorem transition_join {c : CallId} (h : w.join c = some w') : Transition H w (.join c) w' := by
  obtain ⟨call, hcall, h⟩ := Option.bind_eq_some_iff.mp h
  split at h
  · next hphase =>
    split at h
    · next hlock =>
      split at h
      · next o hactive =>
        cases h
        exact .wait hcall hphase hlock hactive
      · next hactive =>
        cases h
        exact .own hcall hphase hlock hactive
    · cases h
  · cases h

/-- INTERNAL: a waiter is woken in one way. -/
theorem transition_wake {c : CallId} (h : w.wake c = some w') : Transition H w (.wake c) w' := by
  obtain ⟨call, hcall, h⟩ := Option.bind_eq_some_iff.mp h
  split at h
  · next o hphase =>
    split at h
    · next hlock =>
      obtain ⟨owner, howner, h⟩ := Option.bind_eq_some_iff.mp h
      obtain ⟨entry, hentry, h⟩ := Option.bind_eq_some_iff.mp h
      obtain ⟨result, hdone, h⟩ := Option.bind_eq_some_iff.mp h
      cases h
      exact .wake hcall hphase hlock howner hentry hdone
    · cases h
  · cases h

/-- INTERNAL: the ways a plan is checked. -/
theorem transition_check {c : CallId} {outcome : Result Unit} (h : w.check c outcome = some w') :
    Transition H w (.check c outcome) w' := by
  obtain ⟨call, hcall, h⟩ := Option.bind_eq_some_iff.mp h
  split at h
  · next hphase =>
    split at h
    · next hbackend => exact fail_of_finish hcall (.noBackend hphase hbackend) h
    · next hbackend =>
      split at h
      · exact fail_of_finish hcall (.incompatible hphase) h
      · cases h
        exact .advance hcall (.compiling hphase (not_not.mp hbackend))
  · cases h

/-- INTERNAL: the ways a build ends. -/
theorem transition_build {c : CallId} {run : BackendRun} {ms : Int64}
    (h : w.build c run ms = some w') : Transition H w (.build c run ms) w' := by
  obtain ⟨call, hcall, h⟩ := Option.bind_eq_some_iff.mp h
  split at h
  · next hphase =>
    split at h
    · next hbuild => exact fail_of_finish hcall (.build hphase hbuild) h
    · next hbuild =>
      cases h
      exact .advance hcall (.built hphase hbuild)
  · cases h

/-- INTERNAL: a build is numbered in one way. -/
theorem transition_number {c : CallId} (h : w.number c = some w') :
    Transition H w (.number c) w' := by
  obtain ⟨call, hcall, h⟩ := Option.bind_eq_some_iff.mp h
  split at h
  · next hphase =>
    cases h
    exact .number hcall hphase
  · cases h

/-- INTERNAL: the ways a validation ends. -/
theorem transition_validate {c : CallId} {outcome : Result ValidationDescriptor}
    {times : Timestamps} {ms : Int64} (h : w.validate H c outcome times ms = some w') :
    Transition H w (.validate c outcome times ms) w' := by
  obtain ⟨call, hcall, h⟩ := Option.bind_eq_some_iff.mp h
  split at h
  · next hphase =>
    obtain ⟨entry, hentry, h⟩ := Option.bind_eq_some_iff.mp h
    split at h
    · exact fail_of_finish hcall (.validation hphase) h
    · split at h
      · next hpassed =>
        cases h
        exact .advance hcall (.validated hphase hentry hpassed)
      · next hpassed =>
        exact fail_of_finish hcall (.notPassed hphase (Bool.eq_false_of_not_eq_true hpassed)) h
  · cases h

/-- INTERNAL: an exception is thrown in one way. -/
theorem transition_raise {c : CallId} (h : w.raise c = some w') :
    Transition H w (.raise c) w' := by
  obtain ⟨call, hcall, h⟩ := Option.bind_eq_some_iff.mp h
  split at h
  · next hphase =>
    cases h
    exact .advance hcall (.raised (.inl hphase))
  · next hphase =>
    cases h
    exact .advance hcall (.raised (.inr (.inl hphase)))
  · next b id hphase =>
    cases h
    exact .advance hcall (.raised (.inr (.inr ⟨b, id, hphase⟩)))
  · cases h

/-- INTERNAL: the ways a commit ends.
SOURCE: Fabric.cpp:397-420 -/
theorem transition_commit {c : CallId} (h : w.commit c = some w') :
    Transition H w (.commit c) w' := by
  obtain ⟨call, hcall, h⟩ := Option.bind_eq_some_iff.mp h
  split at h
  · next v hphase =>
    obtain ⟨entry, hentry, h⟩ := Option.bind_eq_some_iff.mp h
    split at h
    · next hlock =>
      split at h
      · next hstale => exact fail_of_finish hcall (.stale hphase hentry hstale) h
      · next hfresh =>
        rw [not_or, not_not, not_not] at hfresh
        cases h
        exact .publish hcall hphase hentry hlock hfresh.1 hfresh.2
    · cases h
  · cases h

/-- INTERNAL: the ways a file step ends. -/
theorem transition_storeStep {c : CallId} {ok : Bool} (hstep : w.storeStep H c ok = some w') :
    Transition H w (.storeStep c ok) w' := by
  obtain ⟨call, hcall, h⟩ := Option.bind_eq_some_iff.mp hstep
  clear hstep
  split at h
  · next v stage hphase =>
    dsimp only at h
    split at h
    · cases h
      exact .release hcall hphase
    · next hgo =>
      rw [not_or, not_or, Bool.not_eq_false, not_le] at hgo
      obtain ⟨rfl, -, hsize⟩ := hgo
      split at h
      · cases h
        exact .write hcall hphase (.metaTmp hsize)
      · split at h
        · cases h
          exact .release hcall hphase
        · next dir hdir =>
          cases h
          exact .write hcall hphase (.metaRename hsize hdir)
      · cases h
        exact .write hcall hphase .binTmp
      · split at h
        · cases h
          exact .release hcall hphase
        · next dir hdir =>
          cases h
          exact .write hcall hphase (.binRename hdir)
  · cases h

/-- INTERNAL: a call completes in one way. -/
theorem transition_complete {c : CallId} (h : w.complete H c = some w') :
    Transition H w (.complete c) w' := by
  obtain ⟨call, hcall, h⟩ := Option.bind_eq_some_iff.mp h
  split at h
  · next v hphase =>
    obtain ⟨entry, hentry, h⟩ := Option.bind_eq_some_iff.mp h
    obtain ⟨hlock, entry', hentry', rfl⟩ := finish_eq_some h
    rw [hentry, Option.some_inj] at hentry'
    subst hentry'
    exact .complete hcall hphase hlock hentry
  · cases h

/-- INTERNAL: the records are listed in one way. -/
theorem transition_listRecords {t : ℕ} {names : List Bytes}
    (h : w.listRecords t names = some w') : Transition H w (.listRecords t names) w' := by
  unfold World.listRecords at h
  split at h
  · next hphase =>
    split at h
    · next hnames =>
      cases h
      exact .recovering (.listed hphase hnames)
    · cases h
  · cases h

/-- INTERNAL: the ways metadata is read. -/
theorem transition_readMeta {t : ℕ} (h : w.readMeta H t = some w') :
    Transition H w (.readMeta t) w' := by
  unfold World.readMeta at h
  split at h
  · next hphase =>
    split at h
    · next hload =>
      cases h
      exact .recovering (.thrown hphase hload)
    · next hload =>
      cases h
      exact .recovering (.noMeta hphase hload)
    · next hload =>
      cases h
      exact .recovering (.foundMeta hphase hload)
  · cases h

/-- INTERNAL: the ways content is read. -/
theorem transition_readContent {t : ℕ} (h : w.readContent H t = some w') :
    Transition H w (.readContent t) w' := by
  unfold World.readContent at h
  split at h
  · next hphase =>
    split at h
    · next hload =>
      cases h
      exact .recovering (.dropped hphase fun r hr => by rw [hload] at hr; cases hr)
    · next record hload =>
      split at h
      · next hinvalid =>
        cases h
        refine .recovering (.dropped hphase fun r hr => ?_)
        rw [hload, Except.ok.injEq] at hr
        exact hr ▸ hinvalid
      · next hvalid =>
        cases h
        exact .recovering (.kept hphase hload (Bool.eq_false_of_not_eq_true hvalid))
  · cases h

/-- INTERNAL: a locked step is taken when no one holds the lock. -/
theorem locked_eq_some {u : World} (h : w.locked u = some w') :
    w.impl.lock = none ∧ w' = u := by
  unfold World.locked at h
  split at h
  · next hlock => exact ⟨hlock, (Option.some.inj h).symm⟩
  · cases h

/-- Every step is a transition. -/
theorem transition_of_step (h : step H w e = some w') : Transition H w e w' := by
  cases e with
  | compile request n now => exact transition_compile h
  | join c => exact transition_join h
  | wake c => exact transition_wake h
  | check c outcome => exact transition_check h
  | build c run ms => exact transition_build h
  | number c => exact transition_number h
  | validate c outcome times ms => exact transition_validate h
  | raise c => exact transition_raise h
  | commit c => exact transition_commit h
  | storeStep c ok => exact transition_storeStep h
  | complete c => exact transition_complete h
  | invalidate a =>
      obtain ⟨hlock, rfl⟩ := locked_eq_some h
      rw [World.invalidateBy_eq]
      exact .invalidate hlock
  | supersede id gen =>
      obtain ⟨hlock, rfl⟩ := locked_eq_some h
      exact .supersede hlock
  | acquire id =>
      obtain ⟨hlock, rfl⟩ := locked_eq_some h
      unfold World.acquire
      split
      · have hsame : Transition H w (.acquire id)
            { w with impl := { w.impl with leaseCounts := w.impl.leaseCounts } } :=
          .lease (.inl ⟨id, rfl⟩)
        exact hsame
      · exact .lease (.inl ⟨id, rfl⟩)
  | release id =>
      cases h
      exact .lease (.inr ⟨id, rfl⟩)
  | recover names =>
      change w.recover names = some w' at h
      unfold World.recover at h
      split at h
      · split at h
        · next hnames =>
          cases h
          exact .recover hnames
        · cases h
      · next hconfig =>
        cases h
        exact .recoverOff (Bool.eq_false_of_not_eq_true hconfig)
  | removeTmp t =>
      change w.removeTmp t = some w' at h
      unfold World.removeTmp at h
      split at h
      · next hphase =>
        cases h
        exact .removeTmp hphase
      · cases h
  | listRecords t names => exact transition_listRecords h
  | readMeta t => exact transition_readMeta h
  | readContent t => exact transition_readContent h
  | recoverInsert t =>
      change w.recoverInsert t = some w' at h
      unfold World.recoverInsert at h
      split at h
      · next hphase =>
        split at h
        · next hlock =>
          cases h
          exact .recoverInsert hlock hphase
        · cases h
      · cases h
  | restart p =>
      change w.restart p = some w' at h
      unfold World.restart at h
      split at h
      · next hroot =>
        cases h
        exact .restart hroot
      · cases h

/-- What a rejected owner returns, and what its waiters get. -/
def staleResult : Result CompilationResult := Err .StaleGeneration World.staleMessage

/-- A commit step: the owner is validated, and its entry decides between the two ways. -/
theorem commit_cases {c : CallId} (h : Transition H w (.commit c) w') :
    ∃ call v entry, w.calls c = some call ∧ call.phase = .validated v ∧
      call.entry = some entry ∧
      ((entry.baseCacheGen = w.impl.cacheGen ∧ entry.baseToolchainGen = w.impl.toolchainGen ∧
          w' = w.publish c call v) ∨
        ((entry.baseCacheGen ≠ w.impl.cacheGen ∨ entry.baseToolchainGen ≠ w.impl.toolchainGen) ∧
          w' = finished w c call entry staleResult)) := by
  cases h with
  | publish hcall hphase hentry hlock hcache htoolchain =>
      exact ⟨_, _, _, hcall, hphase, hentry, .inl ⟨hcache, htoolchain, rfl⟩⟩
  | fail hcall hlock hentry hfail =>
      cases hfail with
      | stale hphase hentry' hstale =>
          rw [hentry, Option.some_inj] at hentry'
          subst hentry'
          exact ⟨_, _, _, hcall, hphase, hentry, .inr ⟨hstale, rfl⟩⟩
  | advance hcall hadv => cases hadv
  | lease he => rcases he with ⟨id, he⟩ | ⟨id, he⟩ <;> cases he
  | recovering h => cases h

end CompilationFabric.Interface
