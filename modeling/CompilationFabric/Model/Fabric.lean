import CompilationFabric.Model.FabricState

/-!
# The fabric

The operations of `Fabric.cpp` as steps of a `World`.  A step is a critical section of
`regMutex_`, one atomic access to the artifact counter, one file step of the store, or a
stretch of `compile` that only touches the call's own variables.  `none` means that the step
cannot happen: the call is not there yet, or the lock is taken.

The one critical section that is longer than a step is the commit with its `store`: the lock
is kept until the last file step, while a `recover` that is loading records, which it does
without the lock, sees the files in between.

`restart` is the end of the process at any point and the start of the next one on the same
store root.
-/

set_option autoImplicit false

namespace CompilationFabric.Model

open CompilationCompatibility (decide)

/-! ## Artifacts -/

/-- SOURCE: Fabric.cpp:233-234 -/
def CacheEntry.touch (e : CacheEntry) (now : Int64) : CacheEntry :=
  { e with
    descriptor := { e.descriptor with
      lastAccess := now
      reuseCount := e.descriptor.reuseCount + 1 } }

/-- SOURCE: Fabric.cpp:458 -/
def CacheEntry.invalidate (e : CacheEntry) : CacheEntry :=
  { e with
    descriptor := { e.descriptor with
      state := ascii "Invalidated"
      deployment := { e.descriptor.deployment with deployable := false }
      validation := { e.descriptor.validation with passed := false } } }

/-- SOURCE: Fabric.cpp:503 -/
def CacheEntry.supersede (e : CacheEntry) : CacheEntry :=
  { e with
    descriptor := { e.descriptor with
      state := ascii "Superseded"
      deployment := { e.descriptor.deployment with deployable := false } } }

/-- SOURCE: Fabric.cpp:583 -/
def CacheEntry.unload (e : CacheEntry) : CacheEntry :=
  { e with
    descriptor := { e.descriptor with
      deployment := { e.descriptor.deployment with moduleResident := false } } }

/-- What is served on a cache hit.
SOURCE: Fabric.cpp:237-247 -/
def hitResult (H : Bytes → Digest) (request : CompilationRequest) (p : CompilationPlan)
    (key : CompilationKey) (outcome : CompatibilityOutcome) (e : CacheEntry) :
    CompilationResult :=
  { requestId := request.requestId
    planId := p.planId
    attemptId := e.descriptor.provenance.attemptId
    artifactId := e.descriptor.id
    generation := e.descriptor.generation
    key := key
    keyDigest := key.digest H
    artifact := e.descriptor
    artifactBytes := e.bytes
    reused := true
    validated := e.descriptor.validation.passed
    deployable := true
    referenceMatched := e.descriptor.validation.referenceComparison
    compatibilityDecision := compatibilityOutcomeName outcome
    backendUsed := e.descriptor.backend.id }

/-- Readings of the clock while the descriptor is built. -/
structure Timestamps where
  provenance : Int64 := 0
  created : Int64 := 0
  access : Int64 := 0

/-- The descriptor that goes to validation; `gen` is what the artifact counter holds when it
is read again.
SOURCE: Fabric.cpp:361-375 -/
def describe (H : Bytes → Digest) (config : CompilationFabricConfig) (call : Call)
    (attempt : CompilationAttemptId) (build : Build) (id : ArtifactId)
    (gen : ArtifactGeneration) (times : Timestamps) : ArtifactDescriptor :=
  { id := id
    generation := gen
    format := build.output.format
    contentDigest := H build.output.executable
    byteSize := UInt64.ofNat build.output.executable.length
    keyDigest := call.key.digest H
    backend := build.output.backend
    compiler := build.output.compiler
    target := call.plan.target
    specialization := build.output.specialization
    provenance :=
      { requestId := call.request.requestId
        planId := call.plan.planId
        attemptId := attempt
        createdAt := times.provenance }
    namespaceName := config.namespaceName
    tenant := config.tenant
    createdAt := times.created
    lastAccess := times.access
    state := ascii "Validating" }

/-- The descriptor after a validation that passed.
SOURCE: Fabric.cpp:384, 392-395 -/
def deployableArtifact (p : CompilationPlan) (art : ArtifactDescriptor)
    (vd : ValidationDescriptor) : ArtifactDescriptor :=
  { art with
    validation := vd
    state := ascii "Deployable"
    deployment := { art.deployment with
      deployable := true
      runtimeCompatible := true
      architectureValidated := true
      generationValidated := true
      method := ascii (if isCuda p.backend then "cuda-load" else "cpu-execute") } }

/-- SOURCE: Fabric.cpp:413-415 -/
def Validated.record (v : Validated) (key : CompilationKey) : PersistedRecord :=
  { id := v.art.id
    generation := v.art.generation
    key := key
    descriptor := v.art
    contentBytes := v.build.output.executable }

/-- SOURCE: Fabric.cpp:422-431 -/
def Validated.result (H : Bytes → Digest) (v : Validated) (call : Call)
    (attempt : CompilationAttemptId) : CompilationResult :=
  { requestId := call.request.requestId
    planId := call.plan.planId
    attemptId := attempt
    artifactId := v.art.id
    generation := v.art.generation
    key := call.key
    keyDigest := call.key.digest H
    artifact := v.art
    artifactBytes := v.build.output.executable
    reused := false
    validated := true
    deployable := true
    referenceMatched := v.art.validation.referenceComparison
    compatibilityDecision := ascii "Compiled"
    backendUsed := call.plan.backend
    compileMs := v.build.compileMs
    totalMs := v.build.compileMs + v.validateMs
    autotuned := v.build.autotuned
    autotuneWinner := v.build.autotuneWinner
    autotuneCandidates := v.build.autotuneCandidates
    stages := v.build.output.stages.map fun s =>
      { kind := s.kind, ran := true, succeeded := true, durationMs := s.durationMs
        message := s.message } }

namespace World

/-! ## Lookup and single flight -/

/-- Whether the fast path serves an entry, and with which outcome.
SOURCE: Fabric.cpp:230-232 -/
def fastPath (policy : CompilationCompatibilityPolicy) (key : CompilationKey) (e : CacheEntry) :
    Throwing (Option CompatibilityOutcome) := do
  let dec ← decide e.key key e.descriptor policy
  return if dec.reusable && e.descriptor.state = ascii "Deployable" then some dec.outcome
    else none

/-- The key a request is compiled under.
SOURCE: Fabric.cpp:222-223 -/
def compileKey (p : Process) (request : CompilationRequest) (plan : CompilationPlan) :
    CompilationKey :=
  buildCompilationKey request plan (makeTc plan p.host.toolchain p.config)

/-- A new call, which is past its lookup. -/
def enter (w : World) (request : CompilationRequest) (plan : CompilationPlan) (phase : Phase) :
    World :=
  { w.setCall w.nextCall
      { request, plan, phase, key := compileKey w.process request plan, barrier := w.invalidated }
    with nextCall := w.nextCall + 1 }

/-- Planning, and the lookup in the cache.
SOURCE: Fabric.cpp:217-250 -/
def compile (H : Bytes → Digest) (w : World) (request : CompilationRequest)
    (planCounter : UInt64) (now : Int64) : Option World :=
  match plan w.process.host w.process.config planCounter now request with
  | .error failure =>
      some { w with
        refused := Function.update w.refused w.nextCall (some failure)
        nextCall := w.nextCall + 1 }
  | .ok p =>
      if w.impl.lock = none then
        let key := compileKey w.process request p
        match w.impl.cache[key]? with
        | none => some (w.enter request p .missed)
        | some e =>
            match fastPath w.process.config.compatibilityPolicy key e with
            | .error _ => some (w.enter request p .raised)
            | .ok none => some (w.enter request p .missed)
            | .ok (some outcome) =>
                let e := e.touch now
                let result := hitResult H request p key outcome e
                some { w.enter request p (.returned (.cache e.origin) (.ok result)) with
                  impl := { w.impl with cache := w.impl.cache.insert key e } }
      else none

/-- The owner of a key's in-flight entry, when there is one that is not done.
SOURCE: Fabric.cpp:257-258 -/
def activeOwner (w : World) (key : CompilationKey) : Option CallId := do
  let o ← w.impl.inflight[key]?
  let owner ← w.calls o
  let e ← owner.entry
  if e.outcome.isNone then some o else none

/-- The call takes ownership.
SOURCE: Fabric.cpp:267-273 -/
def own (w : World) (c : CallId) (call : Call) : World :=
  let entry : InflightEntry :=
    { attempt := TypedId.fromU64 (w.impl.artifactCounter + 1)
      baseCacheGen := w.impl.cacheGen
      baseToolchainGen := w.impl.toolchainGen }
  { w.setCall c { call with phase := .checking, entry := some entry } with
    impl := { w.impl with
      artifactCounter := w.impl.artifactCounter + 1
      inflight := w.impl.inflight.insert call.key c } }

/-- SOURCE: Fabric.cpp:255-274 -/
def join (w : World) (c : CallId) : Option World := do
  let call ← w.calls c
  match call.phase with
  | .missed =>
      if w.impl.lock = none then
        match w.activeOwner call.key with
        | some o => some (w.setCall c { call with phase := .waiting o })
        | none => some (w.own c call)
      else none
  | _ => none

/-- The condition variable's predicate has become true.
SOURCE: Fabric.cpp:262-265 -/
def wake (w : World) (c : CallId) : Option World := do
  let call ← w.calls c
  match call.phase with
  | .waiting o =>
      if w.impl.lock = none then do
        let owner ← w.calls o
        let e ← owner.entry
        let result ← e.outcome
        some (w.setCall c { call with phase := .returned (.waiter o) result })
      else none
  | _ => none

/-! ## The owner -/

/-- The owner's last critical section: the entry is done, and the call returns. -/
def finish (w : World) (c : CallId) (call : Call) (result : Result CompilationResult) :
    Option World := do
  if w.impl.lock = none then
    let e ← call.entry
    some (w.setCall c { call with
      phase := .returned .owner result
      entry := some { e with outcome := some result } })
  else none

/-- The backend is looked up, and asked whether it can do the plan.
SOURCE: Fabric.cpp:276-291 -/
def check (w : World) (c : CallId) (outcome : Result Unit) : Option World := do
  let call ← w.calls c
  match call.phase with
  | .checking =>
      if ¬ (w.process.host.backends w.process.config).contains call.plan.backend then
        w.finish c call (Err .NoBackend (ascii "no backend " ++ call.plan.backend))
      else match outcome with
      | .error failure => w.finish c call (.error failure)
      | .ok () => some (w.setCall c { call with phase := .compiling })
  | _ => none

/-- SOURCE: Fabric.cpp:292-357 -/
def build (w : World) (c : CallId) (run : BackendRun) (compileMs : Int64) : Option World := do
  let call ← w.calls c
  match call.phase with
  | .compiling =>
      match backendBuild call.request run with
      | .error failure => w.finish c call (.error failure)
      | .ok b => some (w.setCall c { call with phase := .built { b with compileMs } })
  | _ => none

/-- SOURCE: Fabric.cpp:362 -/
def number (w : World) (c : CallId) : Option World := do
  let call ← w.calls c
  match call.phase with
  | .built b =>
      let n := w.impl.artifactCounter + 1
      some { w.setCall c { call with phase := .numbered b (TypedId.fromU64 n) } with
        impl := { w.impl with artifactCounter := n } }
  | _ => none

/-- The descriptor is completed with a second reading of the counter, and validated.
SOURCE: Fabric.cpp:363-395 -/
def validate (H : Bytes → Digest) (w : World) (c : CallId)
    (outcome : Result ValidationDescriptor) (times : Timestamps) (validateMs : Int64) :
    Option World := do
  let call ← w.calls c
  match call.phase with
  | .numbered b id =>
      let e ← call.entry
      let art := describe H w.process.config call e.attempt b id w.impl.artifactCounter times
      match outcome with
      | .error failure => w.finish c call (.error failure)
      | .ok vd =>
          if vd.passed then
            some (w.setCall c { call with
              phase := .validated ⟨b, deployableArtifact call.plan art vd, validateMs⟩ })
          else
            w.finish c call
              (Err .ValidationFailed (ascii "artifact failed validation: " ++ vd.message))
  | _ => none

/-- A call of the backend throws; nothing on the way out touches the in-flight entry. -/
def raise (w : World) (c : CallId) : Option World := do
  let call ← w.calls c
  match call.phase with
  | .checking | .compiling | .numbered _ _ => some (w.setCall c { call with phase := .raised })
  | _ => none

/-! ## Commit and store -/

/-- SOURCE: Fabric.cpp:401 -/
def staleMessage : Bytes := ascii "generation changed during compile; stale completion rejected"

/-- The artifact goes into the cache.
SOURCE: Fabric.cpp:405-412 -/
def publish (w : World) (c : CallId) (call : Call) (v : Validated) : World :=
  let persists := w.process.config.persistenceEnabled && w.process.config.persistOnCompile
  { w.setCall c { call with
      phase := if persists then .storing v .metaTmp else .committed v } with
    impl := { w.impl with
      cache := w.impl.cache.insert call.key
        { key := call.key
          descriptor := v.art
          bytes := v.build.output.executable
          baseCacheGen := w.impl.cacheGen
          baseToolchainGen := w.impl.toolchainGen
          origin := c }
      lock := if persists then some c else none }
    log :=
      { call := c, key := call.key, id := v.art.id, generation := v.art.generation
        bytes := v.build.output.executable } :: w.log }

/-- SOURCE: Fabric.cpp:397-420 -/
def commit (w : World) (c : CallId) : Option World := do
  let call ← w.calls c
  match call.phase with
  | .validated v =>
      let e ← call.entry
      if w.impl.lock = none then
        if e.baseCacheGen ≠ w.impl.cacheGen ∨ e.baseToolchainGen ≠ w.impl.toolchainGen then
          w.finish c call (Err .StaleGeneration staleMessage)
        else some (w.publish c call v)
      else none
  | _ => none

/-- The end of the commit's critical section. -/
def release (w : World) (c : CallId) (call : Call) (v : Validated) : World :=
  { w.setCall c { call with phase := .committed v } with
    impl := { w.impl with lock := none } }

/-- One file step of `store`, or its failure.  A record whose metadata would not fit in
memory is not written either.
SOURCE: Persistence.cpp:128-136, Fabric.cpp:418-419 -/
def storeStep (H : Bytes → Digest) (w : World) (c : CallId) (ok : Bool) : Option World := do
  let call ← w.calls c
  match call.phase with
  | .storing v stage =>
      let r := v.record call.key
      let dest := metaPath r.id r.generation
      let binDest := binPath r.id r.generation
      let next (stage : StoreStage) := { call with phase := .storing v stage }
      if ok = false ∨ w.process.config.artifactRoot = [] ∨ sizeMod ≤ (encodeMeta H r).length then
        some (w.release c call v)
      else match stage with
      | .metaTmp =>
          some { w.setCall c (next .metaRename) with
            dir := writeTmp w.dir dest (encodeMeta H r) }
      | .metaRename =>
          match rename w.dir dest with
          | none => some (w.release c call v)
          | some dir =>
              some { w.setCall c (next .binTmp) with
                dir := dir
                writers := Function.update w.writers dest c }
      | .binTmp =>
          some { w.setCall c (next .binRename) with
            dir := writeTmp w.dir binDest r.contentBytes }
      | .binRename =>
          match rename w.dir binDest with
          | none => some (w.release c call v)
          | some dir => some { w.release c call v with dir := dir }
  | _ => none

/-- SOURCE: Fabric.cpp:422-437 -/
def complete (H : Bytes → Digest) (w : World) (c : CallId) : Option World := do
  let call ← w.calls c
  match call.phase with
  | .committed v =>
      let e ← call.entry
      w.finish c call (.ok (v.result H call e.attempt))
  | _ => none

end World

end CompilationFabric.Model
