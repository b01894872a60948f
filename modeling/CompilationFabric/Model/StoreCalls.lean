import CompilationFabric.Model.Persistence

/-!
# Calls on a store

What a `PersistenceStore` does besides storing and loading one generation: it finds the latest,
removes one, and goes over all of them after a restart.

The directory iterator yields the names of the files in an order that is not specified, so a
function that iterates takes the names as an argument, in whatever order.
-/

set_option autoImplicit false

namespace CompilationFabric.Model

/-! ## The latest generation -/

/-- `latest` and `any` behind the loop.
SOURCE: Persistence.cpp:159-160 -/
def latestGeneration (records : List (ArtifactId × ArtifactGeneration)) (id : ArtifactId) :
    ArtifactGeneration × Bool :=
  records.foldl
    (fun found record =>
      if record.1 = id ∧ record.2 > found.1 then (record.2, true) else found)
    (0, false)

/-- SOURCE: Persistence.cpp:158-163 -/
def loadLatest (H : Bytes → Digest) (dir : Directory) (names : List Bytes) (id : ArtifactId) :
    Throwing (Result PersistedRecord) :=
  let found := latestGeneration (list names) id
  if !found.2 then
    .ok (Err .NotFound (ascii "no generations for artifact " ++ id.toHex))
  else load H dir id found.1

/-! ## Storing and removing -/

/-- SOURCE: Persistence.cpp:185-190 -/
def remove (dir : Directory) (id : ArtifactId) (gen : ArtifactGeneration) : Directory :=
  (dir.erase (metaPath id gen)).erase (binPath id gen)

/-- A call that changes the directory. -/
inductive StoreCall where
  | store (record : PersistedRecord)
  | remove (id : ArtifactId) (gen : ArtifactGeneration)

/-- The directory after a call. -/
def storeCall (H : Bytes → Digest) (root : Bytes) (dir : Directory) : StoreCall → Option Directory
  | .store record => some (store H root dir record).2
  | .remove id gen => some (remove dir id gen)

/-! ## Recovery -/

/-- SOURCE: Persistence.hpp:57-62 -/
structure RecoveryResult where
  valid : List PersistedRecord := []
  corrupted : List PersistedRecord := []
  invalidated : List PersistedRecord := []
  orphanTempRemoved : List Bytes := []

/-- The directory without the files of these names. -/
def removeFiles (dir : Directory) (names : List Bytes) : Directory :=
  names.foldl (fun dir name => dir.erase name) dir

/-- The directory without the temporary files.
SOURCE: Persistence.cpp:197-204 -/
def removeOrphans (dir : Directory) (names : List Bytes) : Directory :=
  removeFiles dir (names.filter (hasSuffix · (ascii ".tmp")))

/-- What is reported of a record that does not load.
SOURCE: Persistence.cpp:208 -/
def badRecord (id : ArtifactId) (gen : ArtifactGeneration) (e : Failure) : PersistedRecord :=
  { id, generation := gen, corrupted := true, error := e.message }

/-- SOURCE: Persistence.cpp:207-213 -/
def recordLoaded (res : RecoveryResult) (id : ArtifactId) (gen : ArtifactGeneration) :
    Result PersistedRecord → RecoveryResult
  | .error e => { res with corrupted := res.corrupted ++ [badRecord id gen e] }
  | .ok r =>
      if r.invalidated then { res with invalidated := res.invalidated ++ [r] }
      else { res with valid := res.valid ++ [r] }

/-- SOURCE: Persistence.cpp:205-214 -/
def loadRecords (H : Bytes → Digest) (dir : Directory) :
    List (ArtifactId × ArtifactGeneration) → RecoveryResult → Throwing RecoveryResult
  | [], res => .ok res
  | (id, gen) :: records, res => do
      let r ← load H dir id gen
      loadRecords H dir records (recordLoaded res id gen r)

/-- `recover`, with the names as the iterator yields them before and after the temporary files are
removed.
SOURCE: Persistence.cpp:192-216 -/
def recoverStore (H : Bytes → Digest) (dir : Directory) (names listing : List Bytes) :
    Throwing RecoveryResult :=
  loadRecords H (removeOrphans dir names) (list listing)
    { orphanTempRemoved := names.filter (hasSuffix · (ascii ".tmp")) }

end CompilationFabric.Model
