import CompilationFabric.Library.Monitor
import CompilationFabric.Model.FabricSystem
import CompilationFabric.Model.Observability

/-!
# What a fabric counts

The calls of `obs` in `Fabric.cpp`, as a monitor of the fabric: for each step the calls it makes,
from the state before the step.  An exception that ends a step early makes none of the calls that
come after it.

`recover` collects what it found in a `RecoveryResult` and counts it at its end.  Of the lists of
it only the lengths are ever looked at.
-/

set_option autoImplicit false

namespace CompilationFabric.Model

open CompilationFabric.Library.TransitionSystem

/-! ## Names -/

/-- The counters of `Fabric.cpp`. -/
inductive Metric where
  | coordinatorEpoch | cacheGeneration | toolchainGeneration
  | cacheHits | reusedBuilds | cacheMisses
  | singleflightWaiters | singleflightWaitCompletions | singleflightCompletions
  | compileFailures | validationFailures | staleAuthorityRejections
  | compiledArtifacts | persistenceFailures | invalidations | supersessions
  | activeLeases | leaseReleases
  | recoveredArtifacts | corruptionDetected | orphanTempsRemoved | recoveryCount
  deriving DecidableEq

def Metric.name : Metric → Bytes
  | .coordinatorEpoch => ascii "coordinator_epoch"
  | .cacheGeneration => ascii "cache_generation"
  | .toolchainGeneration => ascii "toolchain_generation"
  | .cacheHits => ascii "cache_hits"
  | .reusedBuilds => ascii "reused_builds"
  | .cacheMisses => ascii "cache_misses"
  | .singleflightWaiters => ascii "singleflight_waiters"
  | .singleflightWaitCompletions => ascii "singleflight_wait_completions"
  | .singleflightCompletions => ascii "singleflight_completions"
  | .compileFailures => ascii "compile_failures"
  | .validationFailures => ascii "validation_failures"
  | .staleAuthorityRejections => ascii "stale_authority_rejections"
  | .compiledArtifacts => ascii "compiled_artifacts"
  | .persistenceFailures => ascii "persistence_failures"
  | .invalidations => ascii "invalidations"
  | .supersessions => ascii "supersessions"
  | .activeLeases => ascii "active_leases"
  | .leaseReleases => ascii "lease_releases"
  | .recoveredArtifacts => ascii "recovered_artifacts"
  | .corruptionDetected => ascii "corruption_detected"
  | .orphanTempsRemoved => ascii "orphan_temps_removed"
  | .recoveryCount => ascii "recovery_count"

def Metric.all : List Metric :=
  [.coordinatorEpoch, .cacheGeneration, .toolchainGeneration, .cacheHits, .reusedBuilds,
    .cacheMisses, .singleflightWaiters, .singleflightWaitCompletions, .singleflightCompletions,
    .compileFailures, .validationFailures, .staleAuthorityRejections, .compiledArtifacts,
    .persistenceFailures, .invalidations, .supersessions, .activeLeases, .leaseReleases,
    .recoveredArtifacts, .corruptionDetected, .orphanTempsRemoved, .recoveryCount]

/-- Every counter is listed. -/
theorem Metric.mem_all (m : Metric) : m ∈ Metric.all := by cases m <;> simp [Metric.all]

/-- Two counters have two names. -/
theorem Metric.name_injective {m m' : Metric} (h : m.name = m'.name) : m = m' :=
  List.inj_on_of_nodup_map (show (Metric.all.map Metric.name).Nodup by decide +kernel)
    (Metric.mem_all m) (Metric.mem_all m') h

/-! ## Calls -/

/-- A call of a fabric's `obs`. -/
inductive ObsCall where
  | count (m : Metric) (delta : Int64)
  | set (m : Metric) (value : Int64)
  /-- `i.obs.set(m, i.obs.get(m) + 1)`. -/
  | next (m : Metric)
  | recordEvent (type : Bytes) (data : Json)

namespace Observability

/-- `now` is the clock reading of a recorded event. -/
def apply (now : Int64) (o : Observability) : ObsCall → Observability
  | .count m delta => o.count m.name delta
  | .set m value => o.set m.name value
  | .next m => o.set m.name (o.get m.name + 1)
  | .recordEvent type data => o.recordEvent now type data

def applyAll (o : Observability) (now : Int64) (calls : List ObsCall) : Observability :=
  calls.foldl (apply now) o

end Observability

/-- `i.obs.count(m)`. -/
def counts (m : Metric) : List ObsCall := [.count m 1]

/-! ## The calls of a step -/

namespace World

variable (w : World)

/-- SOURCE: Fabric.cpp:109-112 -/
def constructorObs (p : Process) : List ObsCall :=
  [.set .coordinatorEpoch 1, .set .cacheGeneration 1, .set .toolchainGeneration 1,
    .recordEvent (ascii "fabric_init") (Json.ofFields [("cuda", .boolean p.host.cudaAvailable)])]

/-- SOURCE: Fabric.cpp:217-250 -/
def compileObs (request : CompilationRequest) (planCounter : UInt64) (now : Int64) :
    List ObsCall :=
  match plan w.process.host w.process.config planCounter now request with
  | .error _ => []
  | .ok p =>
      let key := compileKey w.process request p
      match w.impl.cache[key]? with
      | none => counts .cacheMisses
      | some e =>
          match fastPath w.process.config.compatibilityPolicy key e with
          | .error _ => []
          | .ok none => counts .cacheMisses
          | .ok (some _) => counts .cacheHits ++ counts .reusedBuilds

/-- SOURCE: Fabric.cpp:255-274 -/
def joinObs (call : Call) : List ObsCall :=
  if (w.activeOwner call.key).isSome then counts .singleflightWaiters else []

/-- SOURCE: Fabric.cpp:276-291 -/
def checkObs (call : Call) (outcome : Result Unit) : List ObsCall :=
  if ¬ (w.process.host.backends w.process.config).contains call.plan.backend then []
  else match outcome with
  | .error _ => counts .compileFailures
  | .ok () => []

/-- SOURCE: Fabric.cpp:300, 340-356 -/
def buildObs (call : Call) (run : BackendRun) : List ObsCall :=
  let failed : List ObsCall :=
    match run.plain with
    | .error failure =>
        [.recordEvent (ascii "compile_failed")
          (Json.ofFields [("backend", .str call.plan.backend), ("error", .str failure.message)])]
    | .ok _ => []
  match backendBuild call.request run with
  | .ok _ => []
  | .error _ =>
      counts .compileFailures ++
        if call.request.autotune && call.request.autotuneCandidates > 1 then [] else failed

/-- SOURCE: Fabric.cpp:378-391 -/
def validateObs (outcome : Result ValidationDescriptor) : List ObsCall :=
  match outcome with
  | .error _ => counts .validationFailures
  | .ok vd => if vd.passed then [] else counts .validationFailures

/-- SOURCE: Fabric.cpp:400-410 -/
def commitObs (call : Call) : List ObsCall :=
  match call.phase, call.entry with
  | .validated v, some e =>
      if e.baseCacheGen ≠ w.impl.cacheGen ∨ e.baseToolchainGen ≠ w.impl.toolchainGen then
        counts .staleAuthorityRejections
      else
        counts .compiledArtifacts ++
          [.set .cacheGeneration w.impl.cacheGen.toInt64,
            .recordEvent (ascii "artifact_committed") (Json.ofFields
              [("artifact", .str v.art.id.toHex), ("gen", Json.ofU64 v.art.generation),
                ("backend", .str call.plan.backend)])]
  | _, _ => []

/-- A file step that fails ends the store.
SOURCE: Fabric.cpp:418-419 -/
def storeObs (H : Bytes → Digest) (call : Call) (ok : Bool) : List ObsCall :=
  match call.phase with
  | .storing v stage =>
      let r := v.record call.key
      if ok = false ∨ w.process.config.artifactRoot = [] ∨ sizeMod ≤ (encodeMeta H r).length then
        counts .persistenceFailures
      else match stage with
      | .metaRename =>
          if (rename w.dir (metaPath r.id r.generation)).isSome then []
          else counts .persistenceFailures
      | .binRename =>
          if (rename w.dir (binPath r.id r.generation)).isSome then []
          else counts .persistenceFailures
      | _ => []
  | _ => []

/-- Only `invalidateByKey` records an event.
SOURCE: Fabric.cpp:454-498 -/
def invalidateObs (H : Bytes → Digest) (a : Authority) : List ObsCall :=
  [.set .cacheGeneration (w.impl.cacheGen + 1).toInt64] ++ counts .invalidations ++
    match a with
    | .key k => [.recordEvent (ascii "invalidate") (Json.ofFields [("key", .str (k.toHex H))])]
    | _ => []

/-- SOURCE: Fabric.cpp:529-542 -/
def acquireObs (id : ArtifactId) : List ObsCall :=
  if (w.entryOf id).isSome then counts .activeLeases else []

/-- SOURCE: Fabric.cpp:544-556 -/
def releaseObs (id : ArtifactId) : List ObsCall :=
  if w.impl.leaseCounts id = 0 then [] else counts .leaseReleases

end World

/-- The lengths of the lists of a `RecoveryResult`; those of the valid records are in the call's
phase.
SOURCE: Persistence.hpp:57-62 -/
structure RecoveryReport where
  orphanTempRemoved : ℕ := 0
  corrupted : ℕ := 0
  invalidated : ℕ := 0

/-- What a fabric has counted, and what each of its `recover` calls has found. -/
structure Metrics where
  obs : Observability := {}
  reports : ℕ → RecoveryReport := fun _ => {}

namespace World

variable (w : World)

/-- SOURCE: Fabric.cpp:566-582 -/
def recoverObs (report : RecoveryReport) (valid : List Loaded) : List ObsCall :=
  valid.flatMap (fun _ => counts .recoveredArtifacts) ++
    [.count .corruptionDetected (Int64.ofNat report.corrupted),
      .count .orphanTempsRemoved (Int64.ofNat report.orphanTempRemoved),
      .next .recoveryCount,
      .recordEvent (ascii "recovery") (Json.ofFields
        [("valid", Json.ofU64 (UInt64.ofNat valid.length)),
          ("corrupted", Json.ofU64 (UInt64.ofNat report.corrupted)),
          ("invalidated", Json.ofU64 (UInt64.ofNat report.invalidated)),
          ("orphan_temp", Json.ofU64 (UInt64.ofNat report.orphanTempRemoved))])]

/-- What a step of `recover` adds to its result.
SOURCE: Persistence.cpp:200-213 -/
def extendReport (H : Bytes → Digest) (report : RecoveryReport) (t : ℕ) : Event → RecoveryReport
  | .removeTmp _ => { report with orphanTempRemoved := report.orphanTempRemoved + 1 }
  | .readMeta _ =>
      match w.recoveries t with
      | some (.loading ((id, gen) :: _) _) =>
          match loadMeta H w.dir[metaPath id gen]? id gen with
          | .ok (.error _) => { report with corrupted := report.corrupted + 1 }
          | _ => report
      | _ => report
  | .readContent _ =>
      match w.recoveries t with
      | some (.content id gen found _ _) =>
          match loadContent H found.record w.dir[binPath id gen]? id gen with
          | .error _ => { report with corrupted := report.corrupted + 1 }
          | .ok record =>
              if record.invalidated then { report with invalidated := report.invalidated + 1 }
              else report
      | _ => report
  | _ => report

/-- The calls of `obs` in one step. -/
def obsCalls (H : Bytes → Digest) (reports : ℕ → RecoveryReport) : Event → List ObsCall
  | .compile request planCounter now => w.compileObs request planCounter now
  | .join c => ((w.calls c).map w.joinObs).getD []
  | .wake _ => counts .singleflightWaitCompletions
  | .check c outcome => ((w.calls c).map (w.checkObs · outcome)).getD []
  | .build c run _ => ((w.calls c).map (buildObs · run)).getD []
  | .validate _ outcome _ _ => validateObs outcome
  | .commit c => ((w.calls c).map w.commitObs).getD []
  | .storeStep c ok => ((w.calls c).map (w.storeObs H · ok)).getD []
  | .complete _ => counts .singleflightCompletions
  | .invalidate a => w.invalidateObs H a
  | .supersede _ _ => counts .supersessions
  | .acquire id => w.acquireObs id
  | .release id => w.releaseObs id
  | .recoverInsert t =>
      match w.recoveries t with
      | some (.loading [] valid) => recoverObs (reports t) valid
      | _ => []
  | .number _ | .raise _ | .recover _ | .removeTmp _ | .listRecords _ _ | .readMeta _
  | .readContent _ | .restart _ => []

end World

/-- The `recover` call that a step is of. -/
def Event.recovery : Event → Option ℕ
  | .removeTmp t | .listRecords t _ | .readMeta t | .readContent t | .recoverInsert t => some t
  | _ => none

/-- What a step does to the metrics; a new process starts with new ones. -/
def watch (H : Bytes → Digest) (m : Metrics) (w : World) (i : Event × Int64) : Metrics :=
  match i.1 with
  | .restart p => { obs := ({} : Observability).applyAll i.2 (World.constructorObs p) }
  | e =>
      { obs := m.obs.applyAll i.2 (w.obsCalls H m.reports e)
        reports := match e.recovery with
          | some t => Function.update m.reports t (w.extendReport H (m.reports t) t e)
          | none => m.reports }

/-- A fabric that has just been constructed, with its metrics. -/
def meteredInit (p : Process) (now : Int64) : World × Metrics :=
  ({ process := p }, { obs := ({} : Observability).applyAll now (World.constructorObs p) })

/-- A step of the fabric with its metrics, at a clock reading. -/
def meteredStep (H : Bytes → Digest) : World × Metrics → Event × Int64 → Option (World × Metrics) :=
  monitored (step H) Prod.fst (watch H)

end CompilationFabric.Model
