import CompilationFabric.Analysis.KeyInjectivity
import CompilationFabric.Interface.FabricEntries
import CompilationFabric.Interface.FabricStore
import CompilationFabric.Model.CallSites
import CompilationFabric.Model.Coordinator

/-!
# The key of a request at its call sites

`compile` derives its key with the version of the frontend in it, on every backend.  The command
line and the coordinator leave it out, so neither of their keys is ever one of the cache.
-/

set_option autoImplicit false

namespace CompilationFabric.Analysis

open CompilationFabric.Library.TransitionSystem
open CompilationFabric.Model
open CompilationFabric.Interface

variable {H : Bytes → Digest} {w : World} {es : List Event}

/-! ## The version of the frontend -/

/-- The key names a version of the frontend. -/
def Versioned (k : CompilationKey) : Prop := k.findField .FrontendVersion ≠ none

/-- The key of `compile` has a frontend version.
SOURCE: Fabric.cpp:217-223 -/
theorem versioned_compileKey (q : Process) (r : CompilationRequest) (p : CompilationPlan) :
    Versioned (World.compileKey q r p) := by
  have hversion : (makeTc p q.host.toolchain q.config).frontendVersion = ascii "1.0.0" := by
    unfold makeTc
    split
    · rfl
    · rfl
  have hfield : (World.compileKey q r p).findField .FrontendVersion =
      whenNonEmpty (ascii "1.0.0") := by
    unfold World.compileKey
    rw [findField_buildCompilationKey, fieldValue, hversion]
  unfold Versioned
  rw [hfield]
  decide

/-- A context without a version gives a key without one. -/
theorem not_versioned (r : CompilationRequest) (p : CompilationPlan) {t : KeyToolchainContext}
    (ht : t.frontendVersion = []) : ¬ Versioned (buildCompilationKey r p t) := by
  unfold Versioned
  rw [findField_buildCompilationKey, fieldValue, ht, not_not]
  rfl

/-- Keys that are equal have the same fields. -/
theorem beq_eq_false_of_versioned {k o : CompilationKey} (hk : k.Sorted) (ho : o.Sorted)
    (hno : ¬ Versioned k) (hversioned : Versioned o) : (k == o) = false := by
  apply Bool.eq_false_of_not_eq_true
  intro heq
  rw [(CompilationKey.beq_iff_eq_of_sorted hk ho).mp heq] at hno
  exact hno hversioned

/-! ## Looking for an artifact under a key -/

/-- Nothing is under the key: a lookup says so, `explain` has nothing to add, and an invalidation
leaves every artifact as it is. -/
structure Unreached (w : World) (key : CompilationKey) : Prop where
  lookup : w.lookup key = .ok (⟨.RecompileRequiredSpecializationChange, false, [.None],
    ascii "no artifact for key"⟩, none)
  explained : w.explained key = none
  invalidated : ∀ k : CompilationKey,
    (w.invalidateByKey key).impl.cache[k]? = w.impl.cache[k]?

/-- INTERNAL: a key that is not in the cache is not reached. -/
theorem unreached_of_not_mem {key : CompilationKey} (h : w.impl.cache[key]? = none) :
    Unreached w key where
  lookup := by
    unfold World.lookup
    rw [h]
  explained := by
    unfold World.explained
    rw [h, Option.map_none]
  invalidated := by
    intro k
    change (w.impl.cache.map _)[k]? = _
    rw [Std.ExtTreeMap.getElem?_map]
    cases hentry : w.impl.cache[k]? with
    | none => rfl
    | some e =>
        have hne : (Authority.key key).selects k e = false := by
          unfold Authority.selects
          rw [decide_eq_false_iff_not]
          rintro rfl
          rw [h] at hentry
          cases hentry
        rw [Option.map_some, hne, if_neg Bool.false_ne_true]

/-- Every key of the cache has a version, in every run. -/
theorem unreached_exec (q : Process) (hrun : exec (step H) { process := q } es = some w)
    {key : CompilationKey} (hno : ¬ Versioned key) : Unreached w key := by
  have hkeyed := keyed_exec versioned_compileKey q hrun
  have hrecorded := (recorded_exec q hrun).2
  apply unreached_of_not_mem
  cases hentry : w.impl.cache[key]? with
  | none => rfl
  | some e => exact absurd (hkeyed.cached hrecorded hentry) hno

/-! ## The call sites -/

/-- The key of a call site is that of `compile`, and finds what `compile` has left there. -/
structure Reaches (w : World) (r : CompilationRequest) (p : CompilationPlan)
    (key : CompilationKey) : Prop where
  same : (key == World.compileKey w.process r p) = true
  found : ∀ e, w.impl.cache[World.compileKey w.process r p]? = some e →
    w.impl.cache[key]? = some e

/-- Neither the commands nor the coordinator ever derive the key of `compile`, and nothing is
under theirs in any reachable state.
SOURCE: main.cpp:123-125, Distributed.cpp:247-254, Fabric.cpp:203-223, 442-463, 634-656 -/
theorem call_sites_never_reach (q : Process)
    (hrun : exec (step H) { process := q } es = some w) (r : CompilationRequest)
    (p planned : CompilationPlan) (h : Host) (root : Bytes) (counter : UInt64) (now : Int64) :
    (cliKey r planned == World.compileKey w.process r p) = false ∧
      Unreached w (cliKey r planned) ∧
      (submitKey r (submitPlan h root counter now r) == World.compileKey w.process r p) = false ∧
      Unreached w (submitKey r (submitPlan h root counter now r)) := by
  have hversioned := versioned_compileKey w.process r p
  have hcompile := sorted_compileKey w.process r p
  have hcli : ¬ Versioned (cliKey r planned) := not_versioned _ _ rfl
  have hsubmit : ¬ Versioned (submitKey r (submitPlan h root counter now r)) :=
    not_versioned _ _ rfl
  exact ⟨beq_eq_false_of_versioned (sorted_buildCompilationKey ..) hcompile hcli hversioned,
    unreached_exec q hrun hcli,
    beq_eq_false_of_versioned (sorted_buildCompilationKey ..) hcompile hsubmit hversioned,
    unreached_exec q hrun hsubmit⟩

/-- The plan of an empty request. -/
def emptyPlan : CompilationPlan := (plan {} unstored.config 1 0 {}).toOption.getD {}

/-- The compile of an empty request, and the keys for it. -/
theorem call_sites_never_reach_first : ∃ w, exec (step fun _ => .zero) { process := unstored }
    (firstSteps {} ++ [.complete 0]) = some w ∧
    (cliKey {} emptyPlan == World.compileKey w.process {} emptyPlan) = false ∧
      Unreached w (cliKey {} emptyPlan) ∧
      (submitKey {} (submitPlan {} [] 0 0 {}) == World.compileKey w.process {} emptyPlan) = false ∧
      Unreached w (submitKey {} (submitPlan {} [] 0 0 {})) := by
  obtain ⟨w, hrun⟩ := Option.isSome_iff_exists.mp (show
    (exec (step fun _ => .zero) { process := unstored }
      (firstSteps {} ++ [.complete 0])).isSome = true by
    decide +kernel)
  exact ⟨w, hrun, call_sites_never_reach unstored hrun {} emptyPlan emptyPlan {} [] 0 0⟩

/-- Its artifact is in the cache, and no command finds it. -/
theorem not_reaches : plan {} unstored.config 1 0 {} = .ok emptyPlan ∧
    ∃ w, exec (step fun _ => .zero) { process := unstored }
      (firstSteps {} ++ [.complete 0]) = some w ∧
    (w.impl.cache[World.compileKey w.process {} emptyPlan]?).isSome = true ∧
      ¬ Reaches w {} emptyPlan (cliKey {} emptyPlan) := by
  obtain ⟨w, hrun, hcached⟩ := (Option.any_eq_true _ _).mp (show
    (exec (step fun _ => .zero) { process := unstored }
      (firstSteps {} ++ [.complete 0])).any (fun w =>
        (w.impl.cache[World.compileKey w.process {} emptyPlan]?).isSome &&
          !(cliKey {} emptyPlan == World.compileKey w.process {} emptyPlan)) = true by
    decide +kernel)
  rw [Bool.and_eq_true, Bool.not_eq_true'] at hcached
  refine ⟨rfl, w, hrun, hcached.1, fun h => ?_⟩
  have hsame := h.same
  rw [hcached.2] at hsame
  cases hsame

end CompilationFabric.Analysis
