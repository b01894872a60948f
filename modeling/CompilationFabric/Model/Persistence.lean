import CompilationFabric.Library.Numerals
import CompilationFabric.Model.Request
import Std.Data.ExtTreeMap

/-!
# The artifact store

`Persistence.cpp` over a store directory that is a map from file names to bytes.

A record is two files: the metadata, a versioned and checksummed wrapper around the key and
the descriptor's JSON, and the content.  Each is written to a temporary file that is then
renamed over its destination, so a directory changes in the steps `writeTmp` and `rename`;
`store` is the four of them in a row.

`H` is the digest function `Sha256::hash`.  Nothing here depends on which function it is.
-/

set_option autoImplicit false

namespace CompilationFabric.Model

open CompilationFabric.Library

/-- The files below the store root, under their names. -/
abbrev Directory := Std.ExtTreeMap Bytes Bytes compare

/-- SOURCE: Persistence.hpp:21-31 -/
structure PersistedRecord where
  id : ArtifactId := {}
  generation : ArtifactGeneration := 0
  key : CompilationKey := {}
  descriptor : ArtifactDescriptor := {}
  contentBytes : Bytes := []
  invalidated : Bool := false
  superseded : Bool := false
  corrupted : Bool := false
  error : Bytes := []
  deriving DecidableEq

/-! ## Metadata -/

def kMetaMagic : Bytes := ascii "CFMD"

/-- SOURCE: Persistence.hpp:66 -/
def kVersion : UInt32 := 1

/-- The members of the metadata object: the descriptor's, and the two flags behind them. -/
def PersistedRecord.members (r : PersistedRecord) : List (String × Json) :=
  r.descriptor.members ++
    [("invalidated", .boolean r.invalidated), ("superseded", .boolean r.superseded)]

/-- The metadata in front of its checksum. -/
def metaPayload (r : PersistedRecord) : Bytes :=
  CanonicalWriter.string kMetaMagic ++ (CanonicalWriter.u32 kVersion ++
    (CanonicalWriter.string (makeCanonicalFields r.key.fields) ++
      (CanonicalWriter.string (Json.ofFields r.members).dump ++
        r.descriptor.contentDigest.bytes)))

/-- SOURCE: Persistence.cpp:55-70 -/
def encodeMeta (H : Bytes → Digest) (r : PersistedRecord) : Bytes :=
  metaPayload r ++ (H (metaPayload r)).bytes

/-- What `decodeMeta` reports: `ok` with the record, or the text of its `error`. -/
abbrev MetaParse := Except Bytes PersistedRecord

/-- A field that has to be there, or the error text. -/
def orError {α : Type} (field : Option α) (message : String) : Except Bytes α :=
  match field with
  | some v => .ok v
  | none => .error (ascii message)

/-- The last 32 bytes of a file. -/
def storedChecksum (bytes : Bytes) : Bytes := bytes.drop (bytes.length - 32)

/-- The bytes the checksum is of. -/
def checkedPayload (bytes : Bytes) : Bytes := bytes.take (bytes.length - 32)

/-- SOURCE: Persistence.cpp:78-108 -/
def decodeMeta (H : Bytes → Digest) (bytes : Bytes) : Throwing MetaParse := do
  match ← (CanonicalReader.mk bytes 0).str with
  | none => return .error (ascii "unknown metadata magic")
  | some (magic, r) =>
      if magic ≠ kMetaMagic then return .error (ascii "unknown metadata magic")
      match r.u32 with
      | none => return .error (ascii "truncated version")
      | some (ver, r) =>
          if ver ≠ kVersion then
            return .error (ascii "unknown persistence version " ++ DecimalText.natText ver.toNat)
          if r.remaining < 32 then return .error (ascii "truncated checksum")
          if storedChecksum bytes ≠ (H (checkedPayload bytes)).bytes then
            return .error (ascii "metadata checksum mismatch")
          match ← r.str with
          | none => return .error (ascii "truncated key")
          | some (kb, r) =>
              match CompilationKey.fromCanonicalBytes kb with
              | none => return .error (ascii "invalid canonical key in metadata")
              | some key =>
                  match ← r.str with
                  | none => return .error (ascii "truncated metadata")
                  | some (js, r) => return do
                      let json ← orError (Json.parse js) "metadata JSON parse failure"
                      let desc ← orError (ArtifactDescriptor.fromJson json)
                        "metadata descriptor parse failure"
                      let _ ← orError (r.rawBlob 32) "truncated content digest"
                      return {
                        id := desc.id
                        generation := desc.generation
                        key := key
                        descriptor := desc
                        invalidated := ((json.get "invalidated").map Json.asBool).getD false
                        superseded := ((json.get "superseded").map Json.asBool).getD false }

/-! ## Files -/

/-- The part of a file name that names the artifact. -/
def recordName (id : ArtifactId) (gen : ArtifactGeneration) : Bytes :=
  id.toHex ++ ascii "_" ++ DecimalText.natText gen.toNat

/-- SOURCE: Persistence.cpp:121-123 -/
def metaPath (id : ArtifactId) (gen : ArtifactGeneration) : Bytes :=
  recordName id gen ++ ascii ".meta"

/-- SOURCE: Persistence.cpp:124-126 -/
def binPath (id : ArtifactId) (gen : ArtifactGeneration) : Bytes :=
  recordName id gen ++ ascii ".bin"

def tmpPath (dest : Bytes) : Bytes := dest ++ ascii ".tmp"

/-- The temporary file is written and flushed.
SOURCE: Persistence.cpp:17-25 -/
def writeTmp (dir : Directory) (dest bytes : Bytes) : Directory := dir.insert (tmpPath dest) bytes

/-- The temporary file replaces the destination.  It fails when the file is gone.
SOURCE: Persistence.cpp:26-38 -/
def rename (dir : Directory) (dest : Bytes) : Option Directory :=
  dir[tmpPath dest]?.map fun bytes => (dir.erase (tmpPath dest)).insert dest bytes

/-- SOURCE: Persistence.cpp:17-39 -/
def atomicWriteBytes (dir : Directory) (dest bytes : Bytes) : Option Directory :=
  rename (writeTmp dir dest bytes) dest

/-- `root` is the store's path, empty for a store that was never given one.
SOURCE: Persistence.cpp:128-136 -/
def store (H : Bytes → Digest) (root : Bytes) (dir : Directory) (record : PersistedRecord) :
    Result Unit × Directory :=
  if root = [] then (Err .PersistenceFailure (ascii "store root not opened"), dir)
  else match atomicWriteBytes dir (metaPath record.id record.generation) (encodeMeta H record) with
  | none => (Err .PersistenceFailure (ascii "atomic metadata write failed"), dir)
  | some dir =>
      match atomicWriteBytes dir (binPath record.id record.generation) record.contentBytes with
      | none => (Err .PersistenceFailure (ascii "atomic content write failed"), dir)
      | some dir => (.ok (), dir)

/-- What changes a directory at once. -/
inductive FileStep where
  | writeTmp (dest bytes : Bytes)
  | rename (dest : Bytes)

def fileStep (dir : Directory) : FileStep → Option Directory
  | .writeTmp dest bytes => some (writeTmp dir dest bytes)
  | .rename dest => rename dir dest

/-- `store` step by step.
SOURCE: Persistence.cpp:130-134 -/
def storeFileSteps (H : Bytes → Digest) (record : PersistedRecord) : List FileStep :=
  [.writeTmp (metaPath record.id record.generation) (encodeMeta H record),
    .rename (metaPath record.id record.generation),
    .writeTmp (binPath record.id record.generation) record.contentBytes,
    .rename (binPath record.id record.generation)]

/-- The text that names an artifact in the messages of `load`. -/
def artifactText (id : ArtifactId) (gen : ArtifactGeneration) : Bytes :=
  ascii "artifact " ++ recordName id gen

/-- The first half of `load`: the metadata, read and decoded.
SOURCE: Persistence.cpp:138-145 -/
def loadMeta (H : Bytes → Digest) (file : Option Bytes) (id : ArtifactId)
    (gen : ArtifactGeneration) : Throwing (Result PersistedRecord) :=
  match file with
  | none => .ok (Err .NotFound (ascii "metadata file missing for " ++ artifactText id gen))
  | some metaBytes => do
      match ← decodeMeta H metaBytes with
      | .error message => return Err .MetadataCorrupt message
      | .ok record => return .ok record

/-- The second half of `load`: the content, read and checked against the metadata.
SOURCE: Persistence.cpp:146-155 -/
def loadContent (H : Bytes → Digest) (record : PersistedRecord) (file : Option Bytes)
    (id : ArtifactId) (gen : ArtifactGeneration) : Result PersistedRecord :=
  match file with
  | none => Err .ArtifactTruncated (ascii "content file missing for " ++ artifactText id gen)
  | some bin =>
      if record.descriptor.contentDigest ≠ .zero ∧ H bin ≠ record.descriptor.contentDigest then
        Err .ArtifactCorrupt (ascii "content digest mismatch")
      else if record.id ≠ id ∨ record.generation ≠ gen then
        Err .MetadataCorrupt (ascii "metadata id/generation mismatch")
      else .ok { record with contentBytes := bin }

/-- SOURCE: Persistence.cpp:138-156 -/
def load (H : Bytes → Digest) (dir : Directory) (id : ArtifactId) (gen : ArtifactGeneration) :
    Throwing (Result PersistedRecord) := do
  match ← loadMeta H dir[metaPath id gen]? id gen with
  | .error e => return .error e
  | .ok record => return loadContent H record dir[binPath id gen]? id gen

/-! ## Listing -/

def underscore : UInt8 := 95

/-- The suffix test `name.substr(name.size() - n) == suffix`. -/
def hasSuffix (name suffix : Bytes) : Bool :=
  suffix.length ≤ name.length && name.drop (name.length - suffix.length) = suffix

/-- The artifact a metadata file is of, by its name.
SOURCE: Persistence.cpp:171-182 -/
def parseMetaName (name : Bytes) : Option (ArtifactId × ArtifactGeneration) :=
  if hasSuffix name (ascii ".meta") then
    if underscore ∈ name then
      let idHex := name.takeWhile (· ≠ underscore)
      let genStr := (name.drop (idHex.length + 1)).take (name.length - (idHex.length + 1) - 5)
      (TypedId.parse idHex).map fun id => (id, Numerals.strtoull genStr)
    else none
  else none

/-- The records found when the directory iterator yields the names in this order.
SOURCE: Persistence.cpp:165-183 -/
def list (names : List Bytes) : List (ArtifactId × ArtifactGeneration) :=
  names.filterMap parseMetaName

end CompilationFabric.Model
