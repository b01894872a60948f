import CompilationFabric.Interface.FabricHistory
import CompilationFabric.Library.Registry

/-!
# The fabric as a registry

What a fabric is for: under a compilation key there is the artifact that was last published there,
until an invalidation, a supersession or the end of the process retires it.  `registryOf` is the
registry that a fabric is a picture of, and `observe` what is seen of a step from the outside: the
arguments of a call, what it returns, and what an owner publishes or a `recover` brings back.

In the cache this registry is hidden under everything else an entry has: who touched it, whether its
module is loaded, and in which of three states it is kept after it has been retired.
-/

set_option autoImplicit false

namespace CompilationFabric.Interface

open CompilationFabric.Library.TransitionSystem
open CompilationFabric.Library.Registry (Act Step)
open CompilationFabric.Model

variable {H : Bytes → Digest} {w w' : World} {e : Event} {k : CompilationKey} {entry : CacheEntry}

/-! ## The picture -/

/-- An artifact, as its users see it. -/
structure SeenArtifact where
  id : ArtifactId
  generation : ArtifactGeneration
  bytes : Bytes
  deriving DecidableEq

/-- An artifact, as it is published; the generation of the toolchain is not seen. -/
structure Version where
  artifact : SeenArtifact
  toolchainGen : ToolchainGeneration
  deriving DecidableEq

abbrev FabricAct := Act CompilationKey Version SeenArtifact

def versionOf (e : CacheEntry) : Version :=
  { artifact := ⟨e.descriptor.id, e.descriptor.generation, e.bytes⟩
    toolchainGen := e.baseToolchainGen }

/-- The version that an entry serves. -/
def liveVersion (e : CacheEntry) : Option Version :=
  if e.descriptor.state = ascii "Deployable" then some (versionOf e) else none

def registryOf (w : World) (k : CompilationKey) : Option Version :=
  w.impl.cache[k]?.bind liveVersion

/-- The versions that an invalidation retires. -/
def retiredBy (a : Authority) (k : CompilationKey) (v : Version) : Bool :=
  match a with
  | .key k' => k = k'
  | .id i => v.artifact.id = i
  | .logicalOperation op => k.getLogicalOperation = some op
  | .compilerGeneration gen => v.toolchainGen ≤ gen
  | .dependencyGeneration gen =>
      match k.getU64 .DependencyGenerations with
      | some dg => dg ≤ gen
      | none => false

/-- The versions that a supersession retires. -/
def supersededBy (id : ArtifactId) (gen : ArtifactGeneration) (v : Version) : Bool :=
  v.artifact.id = id ∧ v.artifact.generation < gen

/-! ## What is seen -/

/-- What the first step of a `compile` call returns, if it returns something. -/
def seenOfCall (call : Call) : FabricAct :=
  match call.phase with
  | .returned (.cache _) (.ok res) =>
      .serve call.key ⟨res.artifactId, res.generation, res.artifactBytes⟩
  | .missed => .miss call.key
  | _ => .silent

/-- What a commit publishes, if it does. -/
def seenOfCommit (w : World) (call : Call) : FabricAct :=
  match call.phase.published with
  | some v => .publish call.key
      { artifact := ⟨v.art.id, v.art.generation, v.build.output.executable⟩
        toolchainGen := w.impl.toolchainGen }
  | none => .silent

/-- The versions that a `recover` brings back. -/
def restoredBy (w : World) (t : ℕ) (k : CompilationKey) : Option Version :=
  match w.recoveries t with
  | some (.loading [] valid) =>
      (lastLoaded valid k).map fun l => versionOf (w.recoveredEntry l)
  | _ => none

/-- INTERNAL: what a recovery restores under a key is the last record of it. -/
theorem restoredBy_of_loading {t : ℕ} {valid : List Loaded}
    (hphase : w.recoveries t = some (.loading [] valid)) (k : CompilationKey) :
    restoredBy w t k = (lastLoaded valid k).map fun l => versionOf (w.recoveredEntry l) := by
  unfold restoredBy
  rw [hphase]

def observe (w : World) (e : Event) (w' : World) : FabricAct :=
  match e with
  | .compile _ _ _ => ((w'.calls w.nextCall).map seenOfCall).getD .silent
  | .commit c => ((w'.calls c).map (seenOfCommit w)).getD .silent
  | .invalidate a => .retire (retiredBy a)
  | .supersede id gen => .retire fun _ v => supersededBy id gen v
  | .recoverInsert t => .restore (restoredBy w t)
  | .restart _ => .clear
  | _ => .silent

/-- The registry, with what is seen of a version that it serves. -/
abbrev FabricStep : (CompilationKey → Option Version) → FabricAct →
    (CompilationKey → Option Version) → Prop := Step Version.artifact

/-! ## Entries -/

/-- INTERNAL: touching an entry leaves its version. -/
@[simp] theorem liveVersion_touch (e : CacheEntry) (now : Int64) :
    liveVersion (e.touch now) = liveVersion e := rfl

/-- INTERNAL: unloading an entry leaves its version. -/
@[simp] theorem liveVersion_unload (e : CacheEntry) : liveVersion e.unload = liveVersion e := rfl

/-- INTERNAL: an invalidated entry has no live version. -/
@[simp] theorem liveVersion_invalidate (e : CacheEntry) : liveVersion e.invalidate = none :=
  if_neg (show ¬ ascii "Invalidated" = ascii "Deployable" by decide)

/-- INTERNAL: a superseded entry has no live version. -/
@[simp] theorem liveVersion_supersede (e : CacheEntry) : liveVersion e.supersede = none :=
  if_neg (show ¬ ascii "Superseded" = ascii "Deployable" by decide)

/-- INTERNAL: a deployable entry has its version. -/
theorem liveVersion_of_deployable (h : entry.descriptor.state = ascii "Deployable") :
    liveVersion entry = some (versionOf entry) := if_pos h

/-- Only a deployable entry has a live version, its own. -/
theorem liveVersion_eq_some {v : Version} (h : liveVersion entry = some v) :
    v = versionOf entry ∧ entry.descriptor.state = ascii "Deployable" := by
  unfold liveVersion at h
  split at h
  · next hstate => exact ⟨(Option.some.inj h).symm, hstate⟩
  · cases h

/-- INTERNAL: the registry is read off the cache only. -/
theorem registryOf_congr (h : w'.impl.cache = w.impl.cache) : registryOf w' = registryOf w := by
  unfold registryOf
  rw [h]

/-- An entry is retired with its version. -/
theorem retiredBy_versionOf (hkey : entry.key = k) (a : Authority) :
    retiredBy a k (versionOf entry) = a.selects k entry := by
  subst hkey
  cases a <;> rfl

/-- Marking the entries that are selected retires their versions. -/
theorem registryOf_map (selects : CompilationKey → CacheEntry → Bool)
    (mark : CacheEntry → CacheEntry) (hmark : ∀ e, liveVersion (mark e) = none)
    (retires : CompilationKey → Version → Bool)
    (hcache : w'.impl.cache = w.impl.cache.map fun k e => if selects k e then mark e else e)
    (hretires : ∀ k e, w.impl.cache[k]? = some e → retires k (versionOf e) = selects k e) :
    registryOf w' = fun k => (registryOf w k).filter fun v => !retires k v := by
  funext k
  unfold registryOf
  rw [hcache, Std.ExtTreeMap.getElem?_map]
  cases he : w.impl.cache[k]? with
  | none => rfl
  | some e =>
      rw [Option.map_some, Option.bind_some, Option.bind_some]
      have hselects := hretires k e he
      cases hs : selects k e with
      | true =>
          rw [hs] at hselects
          rw [if_pos rfl, hmark]
          cases hlive : liveVersion e with
          | none => rfl
          | some v => simp [(liveVersion_eq_some hlive).1, Option.filter_some, hselects]
      | false =>
          rw [hs] at hselects
          rw [if_neg Bool.false_ne_true]
          cases hlive : liveVersion e with
          | none => rfl
          | some v => simp [(liveVersion_eq_some hlive).1, Option.filter_some, hselects]

end CompilationFabric.Interface
