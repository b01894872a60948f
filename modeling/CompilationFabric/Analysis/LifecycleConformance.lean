import CompilationFabric.Interface.FabricEntries
import CompilationFabric.Model.Lifecycle

/-!
# The fabric and the lifecycle graph

The fabric writes the states of its artifacts as text and never asks `canTransition`.  Of what
it writes, an invalidation always follows the graph, and so does a supersession of an artifact
that is not invalidated.  A supersession does not look at the state, though, and so it takes an
artifact out of `Invalidated`, which is terminal.

An artifact here is what the cache holds under a key with one id.  Ids come from a counter of 64
bits, so after a full turn a commit may put a new artifact in the place of an old one with the
same id; the condition has a clause for that as well.
-/

set_option autoImplicit false

namespace CompilationFabric.Analysis

open CompilationFabric.Library.TransitionSystem
open CompilationFabric.Model
open CompilationFabric.Interface

variable {H : Bytes → Digest} {w w' : World} {e : Event} {es : List Event} {k : CompilationKey}
  {a b : CacheEntry} {d : ArtifactDescriptor}

/-! ## The property and the condition -/

/-- The step takes every artifact that stays in the cache along the graph, and leaves a terminal
state alone. -/
structure FollowsLifecycle (H : Bytes → Digest) (w : World) (e : Event) : Prop where
  path : ∀ w' (k : CompilationKey) a b, step H w e = some w' → w.impl.cache[k]? = some a →
    w'.impl.cache[k]? = some b → a.descriptor.id = b.descriptor.id →
    Leads a.descriptor.state b.descriptor.state
  terminal : ∀ w' (k : CompilationKey) a b s, step H w e = some w' → w.impl.cache[k]? = some a →
    w'.impl.cache[k]? = some b → a.descriptor.id = b.descriptor.id →
    a.descriptor.state = stateName s → isTerminal s = true →
    b.descriptor.state = a.descriptor.state

/-- A supersession does not select an invalidated artifact, and a commit does not replace an
artifact of its own id that is out of use. -/
def SparesTerminal (w : World) : Event → Prop
  | .supersede id newGen => ∀ (k : CompilationKey) a, w.impl.cache[k]? = some a →
      a.descriptor.id = id → a.descriptor.generation < newGen →
      a.descriptor.state ≠ ascii "Invalidated"
  | .commit c => ∀ call v entry a, w.calls c = some call → call.phase = .validated v →
      call.entry = some entry → entry.baseCacheGen = w.impl.cacheGen →
      entry.baseToolchainGen = w.impl.toolchainGen → w.impl.cache[call.key]? = some a →
      a.descriptor.id = v.art.id → a.descriptor.state = ascii "Deployable"
  | _ => True

/-- The operations in question: everything but `recover`, in one process. -/
def WithoutRecovery (_ : World) : Event → Prop
  | .recoverInsert _ | .restart _ => False
  | _ => True

/-! ## The states there are -/

/-- A cached artifact is in one of three states. -/
theorem state_of_standing (h : Standing d) :
    d.state = stateName .Deployable ∨ d.state = stateName .Invalidated ∨
      d.state = stateName .Superseded := by
  cases h with
  | deployable h => exact .inl h.state
  | invalidated hs => exact .inr (.inl hs)
  | superseded hs => exact .inr (.inr hs)

/-- INTERNAL: a state leads to itself. -/
theorem leads_self (h : Standing d) : Leads d.state d.state := by
  obtain hs | hs | hs := state_of_standing h
  all_goals
    rw [hs]
    exact leads_refl _

/-- An invalidation goes along `InvalidationPending`. -/
theorem leads_invalidated (h : Standing d) : Leads d.state (ascii "Invalidated") := by
  have hpending : Reaches .InvalidationPending .Invalidated := .edge rfl
  have hdeployable : Reaches .Deployable .InvalidationPending := .edge rfl
  have hsuperseded : Reaches .Superseded .InvalidationPending := .edge rfl
  obtain hs | hs | hs := state_of_standing h
  · rw [hs]
    exact leads_stateName.mpr (hdeployable.trans hpending)
  · rw [hs]
    exact leads_refl _
  · rw [hs]
    exact leads_stateName.mpr (hsuperseded.trans hpending)

/-- A supersession of anything but an invalidated artifact is an edge, or nothing. -/
theorem leads_superseded (h : Standing d) (hne : d.state ≠ ascii "Invalidated") :
    Leads d.state (ascii "Superseded") := by
  have hedge : Reaches .Deployable .Superseded := .edge rfl
  obtain hs | hs | hs := state_of_standing h
  · rw [hs]
    exact leads_stateName.mpr hedge
  · exact absurd hs hne
  · rw [hs]
    exact leads_refl _

/-- From where a path leads to `Deployable`. -/
theorem deployable_of_leads (h : Standing d) (hleads : Leads d.state (ascii "Deployable")) :
    d.state = ascii "Deployable" := by
  have hname : ascii "Deployable" = stateName .Deployable := rfl
  rw [hname] at hleads ⊢
  obtain hs | hs | hs := state_of_standing h
  · exact hs
  · rw [hs, leads_stateName] at hleads
    cases hleads.of_terminal rfl
  · rw [hs, leads_stateName] at hleads
    exact absurd hleads not_reaches_deployable

/-- A path from a terminal state is none. -/
theorem eq_of_leads_terminal {s : State} {x y : Bytes} (h : Leads x y) (hx : x = stateName s)
    (hs : isTerminal s = true) : y = x := by
  obtain ⟨s', t, hs', rfl, hreach⟩ := h
  obtain rfl : s = s' := stateName_injective (hx.symm.trans hs')
  rw [hreach.of_terminal hs, hx]

/-! ## One step -/

/-- Where the condition holds, a step goes along the graph. -/
theorem leads_of_step (hh : History H w) (hi : Entries w) (hscope : WithoutRecovery w e)
    (hcond : SparesTerminal w e) (h : Transition H w e w') (ha : w.impl.cache[k]? = some a)
    (hb : w'.impl.cache[k]? = some b) (hid : a.descriptor.id = b.descriptor.id) :
    Leads a.descriptor.state b.descriptor.state := by
  have hstanding := hi.cache k a ha
  cases cacheStep_of_transition h hb with
  | kept he₀ =>
      rw [ha, Option.some_inj] at he₀
      rw [← he₀]
      exact leads_self hstanding
  | touched he₀ =>
      rw [ha, Option.some_inj] at he₀
      rw [← he₀]
      exact leads_self hstanding
  | @published c call v hcall hphase hkey =>
      obtain ⟨call', v', entry, hcall', hphase', hentry, hways⟩ := commit_cases h
      rw [hcall, Option.some_inj] at hcall'
      subst hcall'
      obtain ⟨hcache, htoolchain, -⟩ | ⟨-, heq⟩ := hways
      · have hstate := hcond call v entry a hcall hphase hentry hcache htoolchain
          (hkey ▸ ha) hid
        have hart := (hh.recorded.carried c call v hcall (by rw [hphase]; rfl)).2.state
        dsimp only
        rw [hart, ← hstate]
        exact leads_self hstanding
      · -- a rejected commit does not publish
        have hphases := congrArg (fun u : World => (u.calls c).map Call.phase) heq
        simp only [World.publish, finished, World.setCall_calls, Function.update_self,
          Option.map_some, Option.some_inj] at hphases
        split at hphases <;> cases hphases
  | invalidated he₀ =>
      rw [ha, Option.some_inj] at he₀
      subst he₀
      exact leads_invalidated hstanding
  | passed he₀ =>
      rw [ha, Option.some_inj] at he₀
      rw [← he₀]
      exact leads_self hstanding
  | superseded he₀ hselects =>
      rw [ha, Option.some_inj] at he₀
      subst he₀
      exact leads_superseded hstanding (hcond k a ha hselects.1 hselects.2)
  | unloaded => exact hscope.elim
  | recovered => exact hscope.elim

/-- A step that spares terminal states follows the lifecycle. -/
theorem followsLifecycle_of_spares (hh : History H w) (hi : Entries w)
    (hscope : WithoutRecovery w e) (hcond : SparesTerminal w e) : FollowsLifecycle H w e := by
  have hpath : ∀ w' (k : CompilationKey) a b, step H w e = some w' → w.impl.cache[k]? = some a →
      w'.impl.cache[k]? = some b → a.descriptor.id = b.descriptor.id →
      Leads a.descriptor.state b.descriptor.state := fun w' k a b hstep ha hb hid =>
    leads_of_step hh hi hscope hcond (transition_of_step hstep) ha hb hid
  refine ⟨hpath, ?_⟩
  intro w' k a b s hstep ha hb hid hs hterminal
  exact eq_of_leads_terminal (hpath w' k a b hstep ha hb hid) hs hterminal

/-- The other way: a step that follows the graph meets the condition. -/
theorem sparesTerminal_of_follows (hh : History H w) (hi : Entries w)
    (hstep : step H w e = some w') (hfollows : FollowsLifecycle H w e) : SparesTerminal w e := by
  cases e with
  | supersede id newGen =>
      intro k a ha hid hgen hstate
      obtain ⟨-, rfl⟩ := locked_eq_some hstep
      have hb : (w.supersede id newGen).impl.cache[k]? = some a.supersede := by
        change (w.impl.cache.map _)[k]? = _
        rw [Std.ExtTreeMap.getElem?_map, ha, Option.map_some, if_pos ⟨hid, hgen⟩]
      have hsame := hfollows.terminal _ k a a.supersede .Invalidated hstep ha hb rfl hstate rfl
      rw [hstate] at hsame
      exact absurd hsame (by change ascii "Superseded" ≠ _; decide)
  | commit c =>
      intro call v entry a hcall hphase hentry hcache htoolchain ha hid
      obtain ⟨call', v', entry', hcall', hphase', hentry', hways⟩ :=
        commit_cases (transition_of_step hstep)
      rw [hcall, Option.some_inj] at hcall'
      subst hcall'
      rw [hphase, Phase.validated.injEq] at hphase'
      subst hphase'
      rw [hentry, Option.some_inj] at hentry'
      subst hentry'
      obtain ⟨-, -, rfl⟩ | ⟨hstale, -⟩ := hways
      · have hb := Std.ExtTreeMap.getElem?_insert_self (t := w.impl.cache) (k := call.key)
          (v := ({ key := call.key
                   descriptor := v.art
                   bytes := v.build.output.executable
                   baseCacheGen := w.impl.cacheGen
                   baseToolchainGen := w.impl.toolchainGen
                   origin := c } : CacheEntry))
        have hleads := hfollows.path _ call.key a _ hstep ha hb hid
        rw [(hh.recorded.carried c call v hcall (by rw [hphase]; rfl)).2.state] at hleads
        exact deployable_of_leads (hi.cache _ a ha) hleads
      · obtain hne | hne := hstale
        · exact absurd hcache hne
        · exact absurd htoolchain hne
  | _ => trivial

/-! ## Every run -/

/-- In every run without recoveries, the states of every artifact follow the lifecycle graph
exactly when no supersession selects an invalidated artifact and no commit reuses the id of the
artifact it replaces.
SOURCE: Fabric.cpp:454-507, Lifecycle.cpp:48-127 -/
theorem follows_lifecycle_iff (p : Process)
    (hscope : Meets (step H) WithoutRecovery { process := p } es)
    (hrun : exec (step H) { process := p } es = some w) :
    Meets (step H) (FollowsLifecycle H) { process := p } es ↔
      Meets (step H) SparesTerminal { process := p } es := by
  refine meets_congr_of (I := fun u => History H u ∧ Entries u) ?_ ?_
    ⟨history_init H p, entries_init p⟩ hscope hrun
  · rintro u e u' hs ⟨hh, hi⟩ hstep
    exact ⟨sparesTerminal_of_follows hh hi hstep, followsLifecycle_of_spares hh hi hs⟩
  · rintro u e u' - - hstep ⟨hh, hi⟩
    have htrans := transition_of_step hstep
    exact ⟨hh.step htrans, hi.step hh.recorded htrans⟩

/-- A compile, and both ways out of use, in the order of the graph. -/
def retiredSteps : List Event :=
  [.compile {} 1 0, .join 0] ++ ownerSteps 0 { executable := [1] } ++
    [.commit 0, .complete 0, .supersede (.fromU64 2) 9, .invalidate (.id (.fromU64 2))]

/-- A check that is enough for the condition. -/
def sparesTerminal (w : World) : Event → Bool
  | .supersede _ _ => w.impl.cache.toList.all fun p =>
      p.2.descriptor.state ≠ ascii "Invalidated"
  | .commit _ => w.impl.cache.isEmpty
  | _ => true

/-- INTERNAL: what is checked of a step spares terminal states. -/
theorem sparesTerminal_of_check (h : sparesTerminal w e = true) : SparesTerminal w e := by
  cases e with
  | supersede id newGen =>
      intro k a ha _ _
      have hmem := Std.ExtTreeMap.mem_toList_iff_getElem?_eq_some.mpr ha
      exact of_decide_eq_true (List.all_eq_true.mp h _ hmem)
  | commit c =>
      intro call v entry a _ _ _ _ _ ha _
      rw [Std.ExtTreeMap.isEmpty_iff.mp h] at ha
      simp at ha
  | _ => trivial

/-- An artifact that is invalidated, and no more. -/
theorem follows_lifecycle_retired :
    Meets (step fun _ => .zero) (FollowsLifecycle fun _ => .zero) { process := unstored }
      retiredSteps := by
  obtain ⟨w, hrun⟩ := Option.isSome_iff_exists.mp (show (exec (step fun _ => .zero)
    { process := unstored } retiredSteps).isSome = true by decide +kernel)
  have hscope : ∀ e ∈ retiredSteps, ∀ s, WithoutRecovery s e := by
    simp [retiredSteps, ownerSteps, WithoutRecovery]
  exact (follows_lifecycle_iff unstored (meets_of_forall hscope) hrun).mpr
    (meets_of_checks (fun _ _ h => sparesTerminal_of_check h) (by decide +kernel))

/-- The same two the other way around take the artifact out of a terminal state. -/
theorem not_follows_lifecycle : ∃ w, exec (step fun _ => .zero) { process := unstored }
    ([.compile {} 1 0, .join 0] ++ ownerSteps 0 { executable := [1] } ++
      [.commit 0, .complete 0, .invalidate (.id (.fromU64 2))]) = some w ∧
    ¬ FollowsLifecycle (fun _ => .zero) w (.supersede (.fromU64 2) 9) := by
  obtain ⟨w, hrun, hmarked⟩ := (Option.any_eq_true _ _).mp (show
    (exec (step fun _ => .zero) { process := unstored }
      ([.compile {} 1 0, .join 0] ++ ownerSteps 0 { executable := [1] } ++
        [.commit 0, .complete 0, .invalidate (.id (.fromU64 2))])).any (fun w =>
      decide (w.impl.lock = none) && w.impl.cache.toList.any fun p => decide
        (p.2.descriptor.id = .fromU64 2 ∧ p.2.descriptor.generation < 9 ∧
          p.2.descriptor.state = ascii "Invalidated")) = true by decide +kernel)
  rw [Bool.and_eq_true, List.any_eq_true] at hmarked
  obtain ⟨hlock, ⟨k, a⟩, hmem, ha⟩ := hmarked
  obtain ⟨hid, hgen, hstate⟩ := of_decide_eq_true ha
  have hcached := Std.ExtTreeMap.mem_toList_iff_getElem?_eq_some.mp hmem
  refine ⟨w, hrun, fun hfollows => ?_⟩
  obtain ⟨hh, hi⟩ := entries_exec unstored hrun
  have hstep : step (fun _ => .zero) w (.supersede (.fromU64 2) 9) =
      some (w.supersede (.fromU64 2) 9) := if_pos (of_decide_eq_true hlock)
  exact sparesTerminal_of_follows hh hi hstep hfollows k a hcached hid hgen hstate

end CompilationFabric.Analysis
