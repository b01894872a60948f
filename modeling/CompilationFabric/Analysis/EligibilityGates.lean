import CompilationFabric.Interface.FabricEntries
import CompilationFabric.Interface.FabricProgress

/-!
# The eligibility gates

Four places judge whether a cached artifact may be used: `lookup`, the fast path of `compile`,
`deploy` and `acquire`.  `lookup` asks `decide`, which refuses a list of states; the fast path
and `deploy` ask for `Deployable` besides; `acquire` asks for nothing but the artifact.  The
states an artifact can be in are `Deployable`, `Invalidated` and `Superseded`, and only of the
first all four say the same.
-/

set_option autoImplicit false

namespace CompilationFabric.Analysis

open CompilationFabric.Library.TransitionSystem
open CompilationFabric.Model
open CompilationFabric.Interface

variable {H : Bytes → Digest} {w : World} {es : List Event} {k : CompilationKey}
  {entry : CacheEntry}

/-! ## The gates -/

/-- `lookup` reports the artifact of a key as reusable. -/
def Reusable (w : World) (k : CompilationKey) : Prop :=
  ∃ dec d, w.lookup k = .ok (dec, d) ∧ dec.reusable = true

/-- The fast path of `compile` serves an entry under a key. -/
def Serves (w : World) (k : CompilationKey) (e : CacheEntry) : Prop :=
  ∃ outcome, World.fastPath w.process.config.compatibilityPolicy k e = .ok (some outcome)

/-- `deploy` lets an artifact through to the backend. -/
def Deploys (w : World) (id : ArtifactId) : Prop := ∃ a, w.deploy id = .ok a

/-- `acquire` grants a lease of an artifact. -/
def Leases (w : World) (id : ArtifactId) : Prop := ∃ l, w.acquireLease id = .ok l

/-- The four gates agree on an artifact. -/
structure GatesAgree (w : World) (k : CompilationKey) (e : CacheEntry) : Prop where
  compile : Reusable w k ↔ Serves w k e
  deploy : Reusable w k ↔ Deploys w e.descriptor.id
  acquire : Reusable w k ↔ Leases w e.descriptor.id

/-- A compile of the request returns the artifact from the cache. -/
def CompileServes (H : Bytes → Digest) (w : World) (request : CompilationRequest) (n : UInt64)
    (now : Int64) (e : CacheEntry) : Prop :=
  ∃ w' res, step H w (.compile request n now) = some w' ∧
    returned w' w.nextCall = some (.cache e.origin, .ok res)

/-! ## What each of them asks -/

/-- `lookup` lets two states through. -/
theorem reusable_iff (hkey : entry.key = k) (hs : Standing entry.descriptor)
    (hentry : w.impl.cache[k]? = some entry) :
    Reusable w k ↔ entry.descriptor.state = ascii "Deployable" ∨
      entry.descriptor.state = ascii "Superseded" := by
  have hsame : (entry.key == k) = true := CompilationKey.beq_iff.mpr (hkey ▸ .refl _)
  constructor
  · rintro ⟨dec, d, hlookup, hreusable⟩
    cases hs with
    | deployable h => exact .inl h.state
    | invalidated hstate =>
        rw [lookup_of_entry hentry (CompilationCompatibility.decide_invalidated hstate ..),
          Except.ok.injEq, Prod.mk.injEq] at hlookup
        rw [← hlookup.1] at hreusable
        cases hreusable
    | superseded hstate => exact .inr hstate
  · intro h
    obtain hstate | hstate := h
    · exact ⟨_, _, lookup_of_entry hentry
        (CompilationCompatibility.decide_deployable hstate hsame _), rfl⟩
    · exact ⟨_, _, lookup_of_entry hentry
        (CompilationCompatibility.decide_superseded hstate hsame _), rfl⟩

/-- The fast path lets one state through. -/
theorem serves_iff (hkey : entry.key = k) :
    Serves w k entry ↔ entry.descriptor.state = ascii "Deployable" := by
  constructor
  · rintro ⟨outcome, h⟩
    exact (fastPath_eq_some h).1
  · intro hstate
    exact ⟨_, fastPath_of_deployable hkey hstate _⟩

/-- `deploy` looks at the first entry with the id. -/
theorem deploys_iff (hi : Entries w) (id : ArtifactId) :
    Deploys w id ↔
      ∃ e, w.entryOf id = some e ∧ e.descriptor.state = ascii "Deployable" := by
  unfold Deploys World.deploy
  cases hentry : w.entryOf id with
  | none => simp [Err]
  | some e =>
      obtain ⟨k, hcached⟩ := mem_of_entryOf hentry
      constructor
      · rintro ⟨a, ha⟩
        refine ⟨e, rfl, ?_⟩
        cases hi.cache k e hcached with
        | deployable h => exact h.state
        | invalidated hstate =>
            dsimp only at ha
            rw [hstate, if_pos (by decide)] at ha
            cases ha
        | superseded hstate =>
            dsimp only at ha
            rw [hstate, if_pos (by decide)] at ha
            cases ha
      · rintro ⟨e', he', hstate⟩
        rw [Option.some_inj] at he'
        subst he'
        refine ⟨(e.descriptor, e.bytes), ?_⟩
        dsimp only
        rw [hstate, if_neg (by decide)]

/-- `acquire` grants a lease of whatever is cached. -/
theorem leases_of_cached (hentry : w.impl.cache[k]? = some entry) :
    Leases w entry.descriptor.id := by
  obtain ⟨e, he⟩ := exists_entryOf hentry
  refine ⟨⟨entry.descriptor.id, e.descriptor.generation⟩, ?_⟩
  unfold World.acquireLease
  rw [he]

/-- The fast path is what decides whether a compile is served. -/
theorem compileServes_iff {request : CompilationRequest} {n : UInt64} {now : Int64}
    {plan' : CompilationPlan}
    (hplan : plan w.process.host w.process.config n now request = .ok plan')
    (hkey : World.compileKey w.process request plan' = k) (hlock : w.impl.lock = none)
    (hentry : w.impl.cache[k]? = some entry) :
    CompileServes H w request n now entry ↔ Serves w k entry := by
  subst hkey
  constructor
  · rintro ⟨w', res, hstep, hret⟩
    obtain ⟨call, hcall, hphase⟩ := returned_eq_some.mp hret
    cases transition_of_step hstep with
    | refuse hrefused =>
        rw [hplan] at hrefused
        cases hrefused
    | miss hp hl hmiss =>
        rw [World.enter, World.setCall_calls, Function.update_self, Option.some_inj] at hcall
        subst hcall
        cases hmiss <;> cases hphase
    | hit hp hl he hfast =>
        rw [hplan, Except.ok.injEq] at hp
        subst hp
        rw [hentry, Option.some_inj] at he
        subst he
        exact ⟨_, hfast⟩
    | advance hc hadv => cases hadv
    | fail hc hl he hfail => cases hfail
    | lease he => obtain ⟨id, he⟩ | ⟨id, he⟩ := he <;> cases he
    | recovering hrec => cases hrec
  · rintro ⟨outcome, hfast⟩
    refine ⟨_, hitResult H request plan' (World.compileKey w.process request plan') outcome
      (entry.touch now), compile_of_hit hplan hlock hentry hfast, ?_⟩
    exact returned_eq_some.mpr ⟨_, Function.update_self .., rfl⟩

/-! ## Agreement -/

/-- A lease is granted always, so the other gates have to let the artifact through. -/
theorem deployable_of_agree (hkey : entry.key = k) (hentry : w.impl.cache[k]? = some entry)
    (h : GatesAgree w k entry) : entry.descriptor.state = ascii "Deployable" := by
  have hreusable := h.acquire.mpr (leases_of_cached hentry)
  exact (serves_iff hkey).mp (h.compile.mp hreusable)

/-- In every reachable state, the fast path decides what a compile is served, and the four gates
agree on a cached artifact exactly when it is deployable and so is the artifact that is found
under its id.
SOURCE: Fabric.cpp:225-250, 442-449, 512-542, Compatibility.cpp:213-230 -/
theorem gates_agree_iff (p : Process) (hrun : exec (step H) { process := p } es = some w)
    (hentry : w.impl.cache[k]? = some entry) :
    (∀ request n now plan', plan w.process.host w.process.config n now request = .ok plan' →
      World.compileKey w.process request plan' = k → w.impl.lock = none →
      (CompileServes H w request n now entry ↔ Serves w k entry)) ∧
    (GatesAgree w k entry ↔ entry.descriptor.state = ascii "Deployable" ∧
      ∀ e, w.entryOf entry.descriptor.id = some e → e.descriptor.state = ascii "Deployable") := by
  obtain ⟨hh, hi⟩ := entries_exec p hrun
  obtain ⟨m, -, hof⟩ := hh.recorded.cache k entry hentry
  refine ⟨fun request n now plan' hplan hkey hlock =>
    compileServes_iff hplan hkey hlock hentry, ?_⟩
  have hleases := leases_of_cached hentry
  constructor
  · intro h
    refine ⟨deployable_of_agree hof.key hentry h, ?_⟩
    intro e he
    obtain ⟨e', he', hstate⟩ := (deploys_iff hi _).mp (h.deploy.mp (h.acquire.mpr hleases))
    rw [he, Option.some_inj] at he'
    rw [he', hstate]
  · rintro ⟨hstate, hfound⟩
    have hreusable := (reusable_iff hof.key (hi.cache k entry hentry) hentry).mpr (.inl hstate)
    have hserves := (serves_iff (w := w) hof.key).mpr hstate
    obtain ⟨e, he⟩ := exists_entryOf hentry
    have hdeploys := (deploys_iff hi _).mpr ⟨e, he, hfound e he⟩
    exact ⟨iff_of_true hreusable hserves, iff_of_true hreusable hdeploys,
      iff_of_true hreusable hleases⟩

/-- A compile. -/
def oneCompile : List Event :=
  [.compile {} 1 0, .join 0] ++ ownerSteps 0 { executable := [1] } ++ [.commit 0, .complete 0]

/-- The gates agree on an artifact that has just been compiled. -/
theorem gates_agree_compiled : ∃ w k e, exec (step fun _ => .zero) { process := unstored }
    oneCompile = some w ∧ w.impl.cache[k]? = some e ∧ GatesAgree w k e := by
  obtain ⟨w, hrun, hw⟩ := (Option.any_eq_true _ _).mp (show
    (exec (step fun _ => .zero) { process := unstored } oneCompile).any (fun w =>
      (!w.impl.cache.toList.isEmpty) && w.impl.cache.toList.all fun p => decide
        (p.2.descriptor.state = ascii "Deployable")) = true by decide +kernel)
  rw [Bool.and_eq_true, List.all_eq_true] at hw
  obtain ⟨hsome, hall⟩ := hw
  have hstate : ∀ (k : CompilationKey) e, w.impl.cache[k]? = some e →
      e.descriptor.state = ascii "Deployable" := fun k e he =>
    of_decide_eq_true (hall _ (Std.ExtTreeMap.mem_toList_iff_getElem?_eq_some.mpr he))
  obtain ⟨⟨k, e⟩, hmem⟩ := List.exists_mem_of_ne_nil w.impl.cache.toList (by
    rintro hnil
    rw [hnil] at hsome
    cases hsome)
  have hentry := Std.ExtTreeMap.mem_toList_iff_getElem?_eq_some.mp hmem
  refine ⟨w, k, e, hrun, hentry, (gates_agree_iff unstored hrun hentry).2.mpr
    ⟨hstate k e hentry, fun e' he' => ?_⟩⟩
  obtain ⟨k', hk'⟩ := mem_of_entryOf he'
  exact hstate k' e' hk'

/-- They do not agree when it has been superseded: it is reusable, and not served. -/
theorem not_gates_agree : ∃ w k e, exec (step fun _ => .zero) { process := unstored }
    (oneCompile ++ [.supersede (.fromU64 2) 9]) = some w ∧ w.impl.cache[k]? = some e ∧
    Reusable w k ∧ ¬ Serves w k e ∧ ¬ GatesAgree w k e := by
  obtain ⟨w, hrun, hw⟩ := (Option.any_eq_true _ _).mp (show
    (exec (step fun _ => .zero) { process := unstored }
      (oneCompile ++ [.supersede (.fromU64 2) 9])).any (fun w =>
        w.impl.cache.toList.any fun p => decide
          (p.2.descriptor.state = ascii "Superseded")) = true by decide +kernel)
  obtain ⟨⟨k, e⟩, hmem, hstate⟩ := List.any_eq_true.mp hw
  have hstate := of_decide_eq_true hstate
  have hentry := Std.ExtTreeMap.mem_toList_iff_getElem?_eq_some.mp hmem
  obtain ⟨hh, hi⟩ := entries_exec unstored hrun
  obtain ⟨m, -, hof⟩ := hh.recorded.cache k e hentry
  have hreusable := (reusable_iff hof.key (hi.cache k e hentry) hentry).mpr (.inr hstate)
  have hnot : ¬ Serves w k e := by
    intro hserves
    have hdeployable := (serves_iff hof.key).mp hserves
    rw [hstate] at hdeployable
    exact absurd hdeployable (by decide)
  exact ⟨w, k, e, hrun, hentry, hreusable, hnot, fun h => hnot (h.compile.mp hreusable)⟩

end CompilationFabric.Analysis
