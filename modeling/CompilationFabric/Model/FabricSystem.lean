import CompilationFabric.Model.Fabric

/-!
# The fabric as a transition system

The rest of the operations: invalidation and supersession, leases, `recover`, and the two
read-only gates `lookup` and `deploy`.  `step` puts all of them together over one type of
events, and `Event.invalidate` and the others below it are whole calls, since each is one
critical section.
-/

set_option autoImplicit false

namespace CompilationFabric.Model

open CompilationCompatibility (decide)

/-! ## Invalidation -/

/-- What an invalidation selects the artifacts by. -/
inductive Authority where
  | key (k : CompilationKey)
  | id (i : ArtifactId)
  | logicalOperation (op : LogicalOperation)
  | compilerGeneration (gen : UInt64)
  | dependencyGeneration (gen : UInt64)

/-- The artifacts an invalidation is of.
SOURCE: Fabric.cpp:457-458, 467, 475, 483, 491-494 -/
def Authority.selects (a : Authority) (k : CompilationKey) (e : CacheEntry) : Bool :=
  match a with
  | .key k' => k = k'
  | .id i => e.descriptor.id = i
  | .logicalOperation op => e.key.getLogicalOperation = some op
  | .compilerGeneration gen => e.baseToolchainGen ≤ gen
  | .dependencyGeneration gen =>
      match e.key.getU64 .DependencyGenerations with
      | some dg => dg ≤ gen
      | none => false

/-- Only the compiler generation also advances the toolchain generation. -/
def Authority.advancesToolchain : Authority → Bool
  | .compilerGeneration _ => true
  | _ => false

/-- A lease that `acquire` has granted.
SOURCE: Request.hpp:165-175 -/
structure CompilationLease where
  id : ArtifactId
  generation : ArtifactGeneration
  deriving DecidableEq

namespace World

/-- The artifacts that an authority selects are marked, and the cache generation advances. -/
def invalidate (w : World) (a : Authority) : World :=
  { w with
    impl := { w.impl with
      cache := w.impl.cache.map fun k e => if a.selects k e then e.invalidate else e
      cacheGen := w.impl.cacheGen + 1
      toolchainGen :=
        if a.advancesToolchain then w.impl.toolchainGen + 1 else w.impl.toolchainGen }
    invalidated := fun c => w.invalidated c ∨
      ∃ k e, w.impl.cache[k]? = some e ∧ a.selects k e = true ∧ e.origin = c }

/-- SOURCE: Fabric.cpp:454-463 -/
def invalidateByKey (w : World) (key : CompilationKey) : World := w.invalidate (.key key)

/-- SOURCE: Fabric.cpp:464-471 -/
def invalidateById (w : World) (id : ArtifactId) : World := w.invalidate (.id id)

/-- SOURCE: Fabric.cpp:472-479 -/
def invalidateByLogicalOperation (w : World) (op : LogicalOperation) : World :=
  w.invalidate (.logicalOperation op)

/-- SOURCE: Fabric.cpp:480-487 -/
def invalidateByCompilerGeneration (w : World) (gen : UInt64) : World :=
  w.invalidate (.compilerGeneration gen)

/-- SOURCE: Fabric.cpp:488-498 -/
def invalidateByDependencyGeneration (w : World) (gen : UInt64) : World :=
  w.invalidate (.dependencyGeneration gen)

/-- SOURCE: Fabric.cpp:454-498 -/
def invalidateBy (w : World) : Authority → World
  | .key k => w.invalidateByKey k
  | .id i => w.invalidateById i
  | .logicalOperation op => w.invalidateByLogicalOperation op
  | .compilerGeneration gen => w.invalidateByCompilerGeneration gen
  | .dependencyGeneration gen => w.invalidateByDependencyGeneration gen

/-- Invalidating by whatever authority is one operation. -/
theorem invalidateBy_eq (w : World) (a : Authority) : w.invalidateBy a = w.invalidate a := by
  cases a <;> rfl

/-- SOURCE: Fabric.cpp:499-507 -/
def supersede (w : World) (id : ArtifactId) (newGen : ArtifactGeneration) : World :=
  { w with
    impl := { w.impl with
      cache := w.impl.cache.map fun _ e =>
        if e.descriptor.id = id ∧ e.descriptor.generation < newGen then e.supersede else e } }

/-! ## The read-only gates and leases -/

/-- SOURCE: Fabric.cpp:442-449 -/
def lookup (w : World) (key : CompilationKey) :
    Throwing (CompilationCompatibilityDecision × Option ArtifactDescriptor) :=
  match w.impl.cache[key]? with
  | none => .ok (⟨.RecompileRequiredSpecializationChange, false, [.None],
      ascii "no artifact for key"⟩, none)
  | some e => do
      return (← decide e.key key e.descriptor w.process.config.compatibilityPolicy,
        some e.descriptor)

/-- The first entry of an artifact, in the order of the keys. -/
def entryOf (w : World) (id : ArtifactId) : Option CacheEntry :=
  (w.impl.cache.toList.find? fun p => p.2.descriptor.id = id).map Prod.snd

/-- The critical section of `deploy`: the descriptor and the bytes that go to the backend.
SOURCE: Fabric.cpp:512-520 -/
def deploy (w : World) (id : ArtifactId) : Result (ArtifactDescriptor × Bytes) :=
  match w.entryOf id with
  | none => Err .NotFound (ascii "artifact not in cache")
  | some e =>
      if e.descriptor.state ≠ ascii "Deployable" ∧ e.descriptor.state ≠ ascii "Deployed" then
        Err .NotDeployable (ascii "artifact state is " ++ e.descriptor.state)
      else .ok (e.descriptor, e.bytes)

/-- The lease that `acquire` returns.
SOURCE: Fabric.cpp:529-534, 541 -/
def acquireLease (w : World) (id : ArtifactId) : Result CompilationLease :=
  match w.entryOf id with
  | none => Err .NotFound (ascii "artifact not found")
  | some e => .ok ⟨id, e.descriptor.generation⟩

/-- What `acquire` does to the counts.
SOURCE: Fabric.cpp:529-542 -/
def acquire (w : World) (id : ArtifactId) : World :=
  match w.entryOf id with
  | none => w
  | some _ =>
      let n := w.impl.leaseCounts id + 1
      { w with
        impl := { w.impl with
          leaseCounts := Function.update w.impl.leaseCounts id (if n > 100000 then 0 else n) } }

/-- A lease that is not counted is an underflow, and nothing changes.
SOURCE: Fabric.cpp:544-556 -/
def releaseLease (w : World) (id : ArtifactId) : World :=
  { w with
    impl := { w.impl with
      leaseCounts := Function.update w.impl.leaseCounts id (w.impl.leaseCounts id - 1) } }

/-! ## Recovery -/

/-- SOURCE: Persistence.cpp:200 -/
def isTmp (name : Bytes) : Bool := hasSuffix name (ascii ".tmp")

/-- The call starts with the temporary files, in the order the iterator yields the names.
SOURCE: Fabric.cpp:561-564, Persistence.cpp:192-198 -/
def recover (w : World) (names : List Bytes) : Option World :=
  if w.process.config.persistenceEnabled then
    if names.Perm w.dir.keys then
      some { w.setRecovery w.nextRecovery (some (.cleaning (names.filter isTmp))) with
        nextRecovery := w.nextRecovery + 1 }
    else none
  else some { w with nextRecovery := w.nextRecovery + 1 }

/-- SOURCE: Persistence.cpp:200-203 -/
def removeTmp (w : World) (t : ℕ) : Option World :=
  match w.recoveries t with
  | some (.cleaning (name :: todo)) =>
      some { w.setRecovery t (some (.cleaning todo)) with dir := w.dir.erase name }
  | _ => none

/-- SOURCE: Persistence.cpp:205 -/
def listRecords (w : World) (t : ℕ) (names : List Bytes) : Option World :=
  match w.recoveries t with
  | some (.cleaning []) =>
      if names.Perm w.dir.keys then some (w.setRecovery t (some (.loading (list names) [])))
      else none
  | _ => none

/-- A record whose metadata does not load is counted as corrupted, and the next one comes.
SOURCE: Persistence.cpp:205-211, 138-145 -/
def readMeta (H : Bytes → Digest) (w : World) (t : ℕ) : Option World :=
  match w.recoveries t with
  | some (.loading ((id, gen) :: todo) valid) =>
      match loadMeta H w.dir[metaPath id gen]? id gen with
      | .error _ => some (w.setRecovery t none)
      | .ok (.error _) => some (w.setRecovery t (some (.loading todo valid)))
      | .ok (.ok record) =>
          some (w.setRecovery t (some (.content id gen ⟨record, w.writers (metaPath id gen)⟩
            todo valid)))
  | _ => none

/-- SOURCE: Persistence.cpp:146-156, 205-214 -/
def readContent (H : Bytes → Digest) (w : World) (t : ℕ) : Option World :=
  match w.recoveries t with
  | some (.content id gen found todo valid) =>
      match loadContent H found.record w.dir[binPath id gen]? id gen with
      | .error _ => some (w.setRecovery t (some (.loading todo valid)))
      | .ok record =>
          if record.invalidated then some (w.setRecovery t (some (.loading todo valid)))
          else some (w.setRecovery t (some (.loading todo (valid ++ [⟨record, found.origin⟩]))))
  | _ => none

/-- The entry of a loaded record.
SOURCE: Fabric.cpp:570-571 -/
def recoveredEntry (w : World) (l : Loaded) : CacheEntry :=
  { key := l.record.key
    descriptor := l.record.descriptor
    bytes := l.record.contentBytes
    baseCacheGen := w.impl.cacheGen
    baseToolchainGen := w.impl.toolchainGen
    origin := l.origin }

/-- SOURCE: Fabric.cpp:566-584 -/
def recoverInsert (w : World) (t : ℕ) : Option World :=
  match w.recoveries t with
  | some (.loading [] valid) =>
      if w.impl.lock = none then
        let filled := valid.foldl (fun cache l => cache.insert l.record.key (w.recoveredEntry l))
          w.impl.cache
        some { w.setRecovery t none with
          impl := { w.impl with cache := filled.map fun _ e => e.unload } }
      else none
  | _ => none

/-! ## Lifetimes -/

/-- The process ends, wherever its calls are, and the next one opens the same store. -/
def restart (w : World) (p : Process) : Option World :=
  if p.config.artifactRoot = w.process.config.artifactRoot then
    some { w with
      process := p
      impl := {}
      calls := fun _ => none
      refused := fun _ => none
      recoveries := fun _ => none }
  else none

/-! ## Steps -/

end World

/-- One step of a fabric, with what its environment answers in it. -/
inductive Event where
  | compile (request : CompilationRequest) (planCounter : UInt64) (now : Int64)
  | join (c : CallId)
  | wake (c : CallId)
  | check (c : CallId) (outcome : Result Unit)
  | build (c : CallId) (run : BackendRun) (compileMs : Int64)
  | number (c : CallId)
  | validate (c : CallId) (outcome : Result ValidationDescriptor) (times : Timestamps)
      (validateMs : Int64)
  | raise (c : CallId)
  | commit (c : CallId)
  | storeStep (c : CallId) (ok : Bool)
  | complete (c : CallId)
  | invalidate (a : Authority)
  | supersede (id : ArtifactId) (newGen : ArtifactGeneration)
  | acquire (id : ArtifactId)
  | release (id : ArtifactId)
  | recover (names : List Bytes)
  | removeTmp (t : ℕ)
  | listRecords (t : ℕ) (names : List Bytes)
  | readMeta (t : ℕ)
  | readContent (t : ℕ)
  | recoverInsert (t : ℕ)
  | restart (p : Process)

/-- A critical section needs the lock. -/
def World.locked (w : World) (w' : World) : Option World :=
  if w.impl.lock = none then some w' else none

/-- The step function; `H` is `Sha256::hash`. -/
def step (H : Bytes → Digest) (w : World) : Event → Option World
  | .compile request planCounter now => w.compile H request planCounter now
  | .join c => w.join c
  | .wake c => w.wake c
  | .check c outcome => w.check c outcome
  | .build c run compileMs => w.build c run compileMs
  | .number c => w.number c
  | .validate c outcome times validateMs => w.validate H c outcome times validateMs
  | .raise c => w.raise c
  | .commit c => w.commit c
  | .storeStep c ok => w.storeStep H c ok
  | .complete c => w.complete H c
  | .invalidate a => w.locked (w.invalidateBy a)
  | .supersede id newGen => w.locked (w.supersede id newGen)
  | .acquire id => w.locked (w.acquire id)
  | .release id => some (w.releaseLease id)
  | .recover names => w.recover names
  | .removeTmp t => w.removeTmp t
  | .listRecords t names => w.listRecords t names
  | .readMeta t => w.readMeta H t
  | .readContent t => w.readContent H t
  | .recoverInsert t => w.recoverInsert t
  | .restart p => w.restart p

end CompilationFabric.Model
