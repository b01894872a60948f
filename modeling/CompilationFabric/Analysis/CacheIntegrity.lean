import CompilationFabric.Interface.FabricHistory

/-!
# The cache holds what it says

Every entry of the cache lies under its own key, digests its key and its bytes, and is
`Deployable` exactly when it may be deployed and has passed validation.  That holds in every
run from an empty store: with any backend answers, with invalidations and supersessions
anywhere, and with a crash between any two file steps, so that a `recover` may find the
metadata of one record without its content, or next to an older one.

An entry goes back to a commit (`EntryOf`), which is where the digests come from.  A loaded
record has passed the content check, and that check is skipped for the all-zero digest, so
the statement assumes that no byte string has it.
-/

set_option autoImplicit false

namespace CompilationFabric.Analysis

open CompilationFabric.Library.TransitionSystem
open CompilationFabric.Model
open CompilationFabric.Interface

variable {H : Bytes → Digest} {k : CompilationKey} {e : CacheEntry} {m : Commit}

/-- What an entry stored under a key satisfies. -/
structure Intact (H : Bytes → Digest) (k : CompilationKey) (e : CacheEntry) : Prop where
  key : e.key = k
  keyDigest : e.descriptor.keyDigest = k.digest H
  contentDigest : H e.bytes = e.descriptor.contentDigest
  eligible : e.descriptor.state = ascii "Deployable" →
    e.descriptor.validation.passed = true ∧ e.descriptor.deployment.deployable = true
  deployable : e.descriptor.deployment.deployable = true →
    e.descriptor.state = ascii "Deployable"

/-- INTERNAL: an entry that is that of a commit is intact. -/
theorem Intact.of_entryOf (hH : ∀ b, H b ≠ .zero) (h : EntryOf H k e m) : Intact H k e where
  key := h.key
  keyDigest := by rw [h.describes.keyDigest, h.commitKey]
  contentDigest := by
    rw [h.describes.contentDigest]
    exact h.content.resolve_left (hH m.bytes)
  eligible := h.consistent.deployable
  deployable := h.consistent.state

/-- Every entry is intact in every run, and a call that is served from the cache gets
validated bytes that match their digest.
SOURCE: Fabric.cpp:225-250, 359-420, 454-507, 561-585, Persistence.cpp:138-156 -/
theorem cache_intact (H : Bytes → Digest) (hH : ∀ b, H b ≠ .zero) (p : Process)
    {es : List Event} {w : World} (hrun : exec (step H) { process := p } es = some w) :
    (∀ k e, w.impl.cache[k]? = some e → Intact H k e) ∧
    ∀ c o res, returned w c = some (.cache o, .ok res) →
      res.validated = true ∧ H res.artifactBytes = res.artifact.contentDigest := by
  obtain ⟨-, hr⟩ := recorded_exec p hrun
  constructor
  · intro k e he
    obtain ⟨m, -, hof⟩ := hr.cache k e he
    exact .of_entryOf hH hof
  · intro c o res hres
    obtain ⟨call, hcall, hphase⟩ := returned_eq_some.mp hres
    obtain ⟨m, -, -, -, hof⟩ := hr.served c call o res hcall hphase
    refine ⟨hof.validated, ?_⟩
    rw [hof.contentDigest]
    exact hof.content.resolve_left (hH m.bytes)

/-- Two calls for one key, the second of which is served from the cache. -/
theorem cache_intact_hit :
    let H : Bytes → Digest := fun _ => ⟨List.replicate 32 1, rfl⟩
    ∃ w o res, returned w 1 = some (.cache o, .ok res) ∧ res.validated = true ∧
      H res.artifactBytes = res.artifact.contentDigest ∧
      exec (step H) { process := { config := { persistenceEnabled := false } } }
        ([.compile {} 1 0, .join 0] ++ ownerSteps 0 { executable := [1] } ++
          [.commit 0, .complete 0, .compile {} 2 0]) = some w := by
  intro H
  let p : Process := { config := { persistenceEnabled := false } }
  let es := [Event.compile {} 1 0, .join 0] ++ ownerSteps 0 { executable := [1] } ++
    [.commit 0, .complete 0, .compile {} 2 0]
  have hserved : (exec (step H) { process := p } es).any (fun w =>
      (returned w 1).any fun x => decide (x.1 = .cache 0) && x.2.isOk) = true := by decide +kernel
  obtain ⟨w, hrun, hres⟩ := (Option.any_eq_true _ _).mp hserved
  obtain ⟨⟨served, result⟩, hret, hres⟩ := (Option.any_eq_true _ _).mp hres
  obtain ⟨rfl, hok⟩ := (Bool.and_eq_true _ _).mp hres |>.imp_left of_decide_eq_true
  cases result with
  | error failure => cases hok
  | ok res =>
      have hH : ∀ b, H b ≠ .zero := fun _ => by decide
      obtain ⟨hvalid, hdigest⟩ := (cache_intact H hH p hrun).2 1 0 res hret
      exact ⟨w, 0, res, hret, hvalid, hdigest, hrun⟩

end CompilationFabric.Analysis
