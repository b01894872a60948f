import CompilationFabric.Interface.FabricEntries
import CompilationFabric.Interface.FabricProgress

/-!
# Invalidation by dependency generation

Whether `invalidateByDependencyGeneration` finds the artifacts that depend on an old
generation.  A key holds its dependency generations as a list, with the count in front, and the
selection reads the field as a single word, which only accepts eight bytes.  No list is encoded
in eight bytes, so nothing is ever selected (`selects_dependencyGeneration`), and the operation
does what it is for exactly where no artifact is left to invalidate.
-/

set_option autoImplicit false

namespace CompilationFabric.Analysis

open CompilationFabric.Library.TransitionSystem
open CompilationFabric.Model
open CompilationFabric.Interface

variable {H : Bytes → Digest} {w : World} {es : List Event} {k : CompilationKey}
  {entry : CacheEntry}

/-! ## The field and its reader -/

/-- The dependency generations are in a key as a list, when there are any.
SOURCE: Request.cpp:255 -/
theorem findField_dependencyGenerations (r : CompilationRequest) (p : CompilationPlan)
    (t : KeyToolchainContext) :
    (buildCompilationKey r p t).findField .DependencyGenerations =
      if r.dependencyGenerations ≠ [] then some (encU64s r.dependencyGenerations) else none := by
  rw [buildCompilationKey, findField_foldl_assign]
  simp [keyAssignments, lastAssigned, CompilationKey.findField, CompilationKey.findTag]

/-- INTERNAL: the length of an encoded list of numbers. -/
theorem length_encU64s (vs : List UInt64) : (encU64s vs).length = 4 + 8 * vs.length := by
  have hflat : (vs.flatMap CanonicalWriter.u64).length = 8 * vs.length := by
    induction vs with
    | nil => rfl
    | cons v vs ih =>
        rw [List.flatMap_cons, List.length_append, ih, CanonicalWriter.length_u64,
          List.length_cons]
        omega
  rw [encU64s, encList, List.length_append, hflat, CanonicalWriter.length_u32]

/-- A word is read from eight bytes and from nothing else.
SOURCE: Key.cpp:38-42, 144-148 -/
theorem getU64_of_length {f : KeyField} {v : Bytes} (h : k.findField f = some v)
    (hlen : v.length ≠ 8) : k.getU64 f = none := by
  unfold CompilationKey.getU64 CanonicalReader.u64
  rw [h]
  by_cases hover : (CanonicalReader.mk v 0).overruns 8
  · simp [hover]
  · have hpos : ((CanonicalReader.mk v 0).skip 8).pos = 8 := rfl
    simp [hover, hpos, Ne.symm hlen]

/-- The list of generations is never read back as a word. -/
theorem getU64_dependencyGenerations (h : Built k) : k.getU64 .DependencyGenerations = none := by
  obtain ⟨r, p, t, rfl⟩ := h
  have hfield := findField_dependencyGenerations r p t
  split at hfield
  · apply getU64_of_length hfield
    rw [length_encU64s]
    omega
  · unfold CompilationKey.getU64
    rw [hfield]
    rfl

/-! ## The operation -/

/-- Nothing is selected. -/
theorem selects_dependencyGeneration (hbuilt : Built entry.key) (gen : UInt64) :
    (Authority.dependencyGeneration gen).selects k entry = false := by
  unfold Authority.selects
  rw [getU64_dependencyGenerations hbuilt]

/-- The key is one of a request that names a dependency generation up to a given one. -/
def DependsUpTo (k : CompilationKey) (gen : UInt64) : Prop :=
  ∃ r p t, k = buildCompilationKey r p t ∧ ∃ g ∈ r.dependencyGenerations, g ≤ gen

/-- The artifacts that depend on a generation up to the given one are invalidated, and no
others. -/
structure InvalidatesDependents (w : World) (gen : UInt64) : Prop where
  dependent : ∀ (k : CompilationKey) e, w.impl.cache[k]? = some e → DependsUpTo k gen →
    (w.invalidateByDependencyGeneration gen).impl.cache[k]? = some e.invalidate
  other : ∀ (k : CompilationKey) e, w.impl.cache[k]? = some e → ¬ DependsUpTo k gen →
    (w.invalidateByDependencyGeneration gen).impl.cache[k]? = some e
  deployable : ∀ (k : CompilationKey) e,
    (w.invalidateByDependencyGeneration gen).impl.cache[k]? = some e → DependsUpTo k gen →
    e.descriptor.state ≠ ascii "Deployable"

/-- The cache stays as it is. -/
theorem cache_invalidateByDependencyGeneration (hr : Recorded H w) (hi : Entries w)
    (gen : UInt64) (k : CompilationKey) :
    (w.invalidateByDependencyGeneration gen).impl.cache[k]? = w.impl.cache[k]? := by
  change (w.impl.cache.map _)[k]? = _
  rw [Std.ExtTreeMap.getElem?_map]
  cases hentry : w.impl.cache[k]? with
  | none => rfl
  | some e =>
      obtain ⟨m, hm, hof⟩ := hr.cache k e hentry
      have hbuilt : Built e.key := hof.key ▸ built_of_cached hr hi hentry
      rw [Option.map_some, selects_dependencyGeneration hbuilt, if_neg Bool.false_ne_true]

/-- What has been left alone was marked before. -/
theorem state_of_invalidatesDependents (hr : Recorded H w) (hi : Entries w) {gen : UInt64}
    (h : InvalidatesDependents w gen) (hentry : w.impl.cache[k]? = some entry)
    (hdep : DependsUpTo k gen) : entry.descriptor.state = ascii "Invalidated" := by
  have hmarked := h.dependent k entry hentry hdep
  rw [cache_invalidateByDependencyGeneration hr hi, hentry, Option.some_inj] at hmarked
  rw [hmarked]
  rfl

/-- In every reachable state, the operation does its work exactly when every artifact in question
is invalidated already.
SOURCE: Fabric.cpp:488-498, Key.cpp:38-42, Request.cpp:255 -/
theorem invalidates_dependents_iff (p : Process)
    (hrun : exec (step H) { process := p } es = some w) (gen : UInt64) :
    InvalidatesDependents w gen ↔
      ∀ (k : CompilationKey) e, w.impl.cache[k]? = some e → DependsUpTo k gen →
        e.descriptor.state = ascii "Invalidated" := by
  obtain ⟨hh, hi⟩ := entries_exec p hrun
  constructor
  · intro h k e hentry hdep
    exact state_of_invalidatesDependents hh.recorded hi h hentry hdep
  · intro h
    have hsame := cache_invalidateByDependencyGeneration hh.recorded hi gen
    refine ⟨?_, ?_, ?_⟩
    · intro k e hentry hdep
      rw [hsame, hentry, (hi.cache k e hentry).invalidate_eq (h k e hentry hdep)]
    · intro k e hentry _
      rw [hsame, hentry]
    · intro k e hentry hdep
      rw [hsame] at hentry
      rw [h k e hentry hdep]
      decide

/-- A request that depends on a generation. -/
def dependentRequest : CompilationRequest := { dependencyGenerations := [1] }

/-- Its compile. -/
def dependentSteps : List Event :=
  [.compile dependentRequest 1 0, .join 0] ++ ownerSteps 0 { executable := [1] } ++
    [.commit 0, .complete 0]

/-- An artifact that has been invalidated by its name. -/
theorem invalidates_dependents_named : ∃ w, exec (step fun _ => .zero) { process := unstored }
    (dependentSteps ++ [.invalidate (.id (.fromU64 2))]) = some w ∧ InvalidatesDependents w 1 := by
  obtain ⟨w, hrun, hcached⟩ := (Option.any_eq_true _ _).mp (show
    (exec (step fun _ => .zero) { process := unstored }
      (dependentSteps ++ [.invalidate (.id (.fromU64 2))])).any (fun w =>
        w.impl.cache.toList.all fun p => p.2.descriptor.state = ascii "Invalidated") = true by
    decide +kernel)
  refine ⟨w, hrun, (invalidates_dependents_iff unstored hrun 1).mpr fun k e hentry _ => ?_⟩
  have hmem := Std.ExtTreeMap.mem_toList_iff_getElem?_eq_some.mpr hentry
  exact of_decide_eq_true (List.all_eq_true.mp hcached _ hmem)

/-- Otherwise it stays in use. -/
theorem not_invalidates_dependents : ∃ w, exec (step fun _ => .zero) { process := unstored }
    dependentSteps = some w ∧ ¬ InvalidatesDependents w 1 := by
  let k := World.compileKey unstored dependentRequest
    ((plan {} unstored.config 1 0 dependentRequest).toOption.getD {})
  obtain ⟨w, hrun, hcached⟩ := (Option.any_eq_true _ _).mp (show
    (exec (step fun _ => .zero) { process := unstored } dependentSteps).any (fun w =>
      (w.impl.cache[k]?).any fun e => e.descriptor.state = ascii "Deployable") = true by
    decide +kernel)
  obtain ⟨e, hentry, hstate⟩ := (Option.any_eq_true _ _).mp hcached
  refine ⟨w, hrun, fun h => ?_⟩
  have hdep : DependsUpTo k 1 :=
    ⟨_, _, _, rfl, 1, by simp [dependentRequest], UInt64.le_refl 1⟩
  obtain ⟨hh, hi⟩ := entries_exec unstored hrun
  have hinvalid := state_of_invalidatesDependents hh.recorded hi h hentry hdep
  rw [of_decide_eq_true hstate] at hinvalid
  exact absurd hinvalid (by decide)

end CompilationFabric.Analysis
