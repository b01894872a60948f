import CompilationFabric.Model.Planning
import CompilationFabric.Model.Persistence

/-!
# The state of a fabric

`Impl` of `Fabric.cpp`, the calls that are under way in it, and the store directory they
share with earlier processes.

A call to `compile` runs through the critical sections of the source, so its progress is a
`Phase`: what it is about to do, with what it has computed so far.  Calls are numbered in
the order in which they start, across restarts.  An in-flight entry is kept with the call
that owns it, and whoever shares it refers to it by that call's number.  A `recover` that is
under way is a `RecoverPhase`.

Four fields keep history that no operation reads: the compile a cached artifact or a
metadata file comes from, the artifacts committed so far, and the compiles whose artifact
an invalidation has marked.  They are what the statements about whole runs speak of.
-/

set_option autoImplicit false

namespace CompilationFabric.Model

abbrev CacheGeneration := UInt64

/-- The number of a `compile` call. -/
abbrev CallId := ℕ

/-! ## The cache and the in-flight entries -/

/-- SOURCE: Fabric.cpp:43-50 -/
structure CacheEntry where
  key : CompilationKey
  descriptor : ArtifactDescriptor
  bytes : Bytes
  baseCacheGen : CacheGeneration
  baseToolchainGen : ToolchainGeneration
  /-- INTERNAL: the compile that committed the artifact. -/
  origin : CallId
  deriving DecidableEq

/-- `outcome` is `done`, `success`, `result`, `failure` and `failureMsg` in one.
SOURCE: Fabric.cpp:52-63 -/
structure InflightEntry where
  attempt : CompilationAttemptId
  outcome : Option (Result CompilationResult) := none
  baseCacheGen : CacheGeneration
  baseToolchainGen : ToolchainGeneration

/-- `inflight` gives the owner of a key's entry, and `lock` is the call that holds `regMutex_`
from one step to the next.
SOURCE: Fabric.cpp:31-78 -/
structure Impl where
  cache : Std.ExtTreeMap CompilationKey CacheEntry compare := ∅
  inflight : Std.ExtTreeMap CompilationKey CallId compare := ∅
  cacheGen : CacheGeneration := 1
  toolchainGen : ToolchainGeneration := 1
  artifactCounter : UInt64 := 0
  leaseCounts : ArtifactId → ℕ := fun _ => 0
  lock : Option CallId := none

/-! ## Calls -/

/-- The file steps of `store` that are still to come. -/
inductive StoreStage where
  | metaTmp | metaRename | binTmp | binRename
  deriving DecidableEq, Repr

/-- What an owner has after its artifact passed validation. -/
structure Validated where
  build : Build
  art : ArtifactDescriptor
  validateMs : Int64

/-- How a call came by its result.
INTERNAL: the history a returned result is told apart by. -/
inductive Served where
  | cache (origin : CallId)
  | waiter (owner : CallId)
  | owner
  deriving DecidableEq, Repr

/-- The progress of one `compile` call.
SOURCE: Fabric.cpp:217-437 -/
inductive Phase where
  /-- The lookup missed; the single-flight section is next. -/
  | missed
  /-- Waiting on the in-flight entry of another call. -/
  | waiting (owner : CallId)
  /-- Owner of an entry; the backend is asked for and checked next. -/
  | checking
  | compiling
  | built (build : Build)
  /-- The artifact number is drawn. -/
  | numbered (build : Build) (id : ArtifactId)
  | validated (v : Validated)
  /-- In the cache; the record is being written, under the lock. -/
  | storing (v : Validated) (stage : StoreStage)
  /-- In the cache, with the waiters still waiting. -/
  | committed (v : Validated)
  | returned (served : Served) (result : Result CompilationResult)
  /-- Left by an exception of the backend. -/
  | raised

/-- A `compile` call. -/
structure Call where
  request : CompilationRequest
  plan : CompilationPlan
  key : CompilationKey
  phase : Phase
  /-- The in-flight entry the call owns or owned. -/
  entry : Option InflightEntry := none
  /-- INTERNAL: the compiles whose artifact was invalidated before the call's first step. -/
  barrier : CallId → Prop

/-- The call owns an in-flight entry that is not done. -/
def Phase.owning : Phase → Bool
  | .checking | .compiling | .built _ | .numbered _ _ | .validated _ | .storing _ _
  | .committed _ => true
  | _ => false

/-- The artifact a call has committed and is about to report. -/
def Phase.published : Phase → Option Validated
  | .storing v _ => some v
  | .committed v => some v
  | _ => none

/-- A record that `recover` has loaded. -/
structure Loaded where
  record : PersistedRecord
  /-- INTERNAL: the compile that committed the artifact. -/
  origin : CallId

/-- The progress of one `recover` call; `valid` are the records it is going to insert.
SOURCE: Persistence.cpp:192-216 -/
inductive RecoverPhase where
  /-- Removing the temporary files that are left. -/
  | cleaning (todo : List Bytes)
  | loading (todo : List (ArtifactId × ArtifactGeneration)) (valid : List Loaded)
  /-- The metadata of the next record is read, its content not yet. -/
  | content (id : ArtifactId) (gen : ArtifactGeneration) (found : Loaded)
      (todo : List (ArtifactId × ArtifactGeneration)) (valid : List Loaded)

/-- An artifact as one compile committed it. -/
structure Commit where
  call : CallId
  key : CompilationKey
  id : ArtifactId
  generation : ArtifactGeneration
  bytes : Bytes
  deriving DecidableEq

/-! ## The whole -/

/-- One process lifetime: what a `CompilationFabric` is constructed with. -/
structure Process where
  config : CompilationFabricConfig := {}
  host : Host := {}

/-- A fabric, its calls and its store. -/
structure World where
  process : Process := {}
  impl : Impl := {}
  calls : CallId → Option Call := fun _ => none
  /-- Calls whose planning failed. -/
  refused : CallId → Option Failure := fun _ => none
  nextCall : CallId := 0
  recoveries : ℕ → Option RecoverPhase := fun _ => none
  nextRecovery : ℕ := 0
  dir : Directory := ∅
  /-- INTERNAL: the compile a metadata file was last written by. -/
  writers : Bytes → CallId := fun _ => 0
  /-- INTERNAL: what has been committed, the latest first. -/
  log : List Commit := []
  /-- INTERNAL: the compiles whose artifact has been marked by an invalidation. -/
  invalidated : CallId → Prop := fun _ => False

namespace World

/-- The call moves on. -/
def setCall (w : World) (c : CallId) (call : Call) : World :=
  { w with calls := Function.update w.calls c (some call) }

/-- The state of a `recover` call changes; `none` when it has returned. -/
def setRecovery (w : World) (t : ℕ) (p : Option RecoverPhase) : World :=
  { w with recoveries := Function.update w.recoveries t p }

/-- INTERNAL: updating a call leaves the process alone. -/
@[simp] theorem setCall_impl (w : World) (c : CallId) (call : Call) :
    (w.setCall c call).impl = w.impl := rfl

/-- INTERNAL: updating a call updates that call. -/
@[simp] theorem setCall_calls (w : World) (c : CallId) (call : Call) :
    (w.setCall c call).calls = Function.update w.calls c (some call) := rfl

/-- INTERNAL: updating a call leaves the directory alone. -/
@[simp] theorem setCall_dir (w : World) (c : CallId) (call : Call) :
    (w.setCall c call).dir = w.dir := rfl

end World

end CompilationFabric.Model
