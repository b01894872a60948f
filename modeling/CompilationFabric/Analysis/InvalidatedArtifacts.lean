import CompilationFabric.Interface.FabricEntries
import CompilationFabric.Interface.FabricStore

/-!
# Invalidated artifacts

Whether an artifact that has been invalidated stays out of use.  An invalidation marks the
descriptor in the cache and nothing else, so the record in the store still says `Deployable`;
`recover` puts it back, in a later process or in the same one.  Everything else leaves the mark
alone, and so the artifact stays out of use exactly as long as no `recover` inserts a record of
it.
-/

set_option autoImplicit false

namespace CompilationFabric.Analysis

open CompilationFabric.Library.TransitionSystem
open CompilationFabric.Model
open CompilationFabric.Interface

variable {H : Bytes → Digest} {w w' : World} {e : Event} {es : List Event} {k : CompilationKey}

/-! ## The property and the condition -/

/-- Nothing serves an artifact that an invalidation has marked: `lookup` does not find it
reusable, `deploy` refuses it, and no call that started after the mark was served it from the
cache. -/
structure Ineligible (w : World) : Prop where
  lookup : ∀ (k : CompilationKey) (e : CacheEntry) dec d, w.impl.cache[k]? = some e →
    w.invalidated e.origin → w.lookup k = .ok (dec, d) → dec.reusable = false
  deploy : ∀ id e a, w.entryOf id = some e → w.invalidated e.origin → w.deploy id ≠ .ok a
  served : ∀ c call o r, w.calls c = some call → call.phase = .returned (.cache o) r →
    ¬ call.barrier o

/-- The step leaves every marked artifact out of use. -/
def KeepsIneligible (H : Bytes → Digest) (w : World) (e : Event) : Prop :=
  ∀ w', step H w e = some w' → Ineligible w'

/-- The record that a `recover` inserts for a key is not of a marked artifact. -/
def RecoversUnmarked (w : World) : Event → Prop
  | .recoverInsert t => ∀ valid k l, w.recoveries t = some (.loading [] valid) →
      lastLoaded valid k = some l → ¬ w.invalidated l.origin
  | _ => True

/-- The operations in question: everything but `supersede`. -/
def WithoutSupersede (_ : World) : Event → Prop
  | .supersede _ _ => False
  | _ => True

/-! ## What the marks are good for -/

/-- What is marked and served to nobody is ineligible. -/
theorem ineligible_of_marked (hm : Marked w) (hs : ServedUnmarked w) : Ineligible w where
  lookup := by
    intro k entry dec d hentry hinv hlookup
    rw [lookup_of_entry hentry (CompilationCompatibility.decide_invalidated
      (hm k entry hentry hinv) ..), Except.ok.injEq, Prod.mk.injEq] at hlookup
    rw [← hlookup.1]
  deploy := by
    intro id entry a hentry hinv
    obtain ⟨k, hk⟩ := mem_of_entryOf hentry
    unfold World.deploy
    rw [hentry]
    dsimp only
    rw [hm k entry hk hinv, if_pos (by decide)]
    exact fun h => nomatch h
  served := hs

/-! ## Every run -/

structure MarkedInv (H : Bytes → Digest) (w : World) : Prop where
  history : History H w
  marked : Marked w
  served : ServedUnmarked w

/-- A step that recovers nothing marked keeps the invariant. -/
theorem MarkedInv.step (hi : MarkedInv H w) (h : Transition H w e w')
    (hscope : WithoutSupersede w e) (hcond : RecoversUnmarked w e) : MarkedInv H w' where
  history := hi.history.step h
  marked := hi.marked.step hi.history h (fun id gen he => by subst he; exact hscope.elim)
    (fun t valid k l he => by subst he; exact hcond valid k l)
  served := hi.served.step hi.marked h

/-- A recovered record is eligible, so it must not be of a marked artifact. -/
theorem recoversUnmarked_of_keeps (hh : History H w) (h : Transition H w e w')
    (hkeeps : Ineligible w') : RecoversUnmarked w e := by
  cases e with
  | recoverInsert t =>
      intro valid k l hphase hlast hinv
      cases h with
      | @recoverInsert t valid' hlock hphase' =>
          rw [hphase] at hphase'
          cases hphase'
          obtain ⟨hl, hkey⟩ := mem_of_lastLoaded hlast
          obtain ⟨m, hm, horigin, hrestores⟩ := hh.recorded.recoveries t _ hphase l hl
          have hentry : (recoveredCache w valid)[k]? = some (w.recoveredEntry l).unload := by
            rw [getElem?_recoveredCache, hlast]
            rfl
          have hreusable := CompilationCompatibility.decide_deployable
            (show (w.recoveredEntry l).unload.descriptor.state = _ from hrestores.eligible.state)
            (show ((w.recoveredEntry l).unload.key == k) = true from
              CompilationKey.beq_iff.mpr (hkey ▸ .refl _))
            w.process.config.compatibilityPolicy
          cases hkeeps.lookup k _ _ _ hentry hinv (lookup_of_entry hentry hreusable)
      | advance hcall hadv => cases hadv
      | fail hcall hlock hentry hfail => cases hfail
      | lease he => rcases he with ⟨id, he⟩ | ⟨id, he⟩ <;> cases he
      | recovering h => cases h
  | _ => trivial

/-- A fresh process has marked nothing. -/
theorem markedInv_init (H : Bytes → Digest) (p : Process) : MarkedInv H { process := p } where
  history := history_init H p
  marked := fun k entry h => by simp at h
  served := fun _ _ _ _ h => nomatch h

/-- In every run without supersessions, an invalidated artifact stays out of use exactly when no
`recover` inserts a record of one.
SOURCE: Fabric.cpp:225-250, 442-449, 454-498, 512-520, 561-585, Persistence.cpp:192-216 -/
theorem stays_ineligible_iff (p : Process) (hscope : Meets (step H) WithoutSupersede
    { process := p } es) (hrun : exec (step H) { process := p } es = some w) :
    Meets (step H) (KeepsIneligible H) { process := p } es ↔
      Meets (step H) RecoversUnmarked { process := p } es := by
  refine meets_congr_of ?_ ?_ (markedInv_init H p) hscope hrun
  · intro w e w' hs hi hstep
    have htrans := transition_of_step hstep
    constructor
    · exact fun hkeeps => recoversUnmarked_of_keeps hi.history htrans (hkeeps w' hstep)
    · intro hcond u hu
      obtain rfl : w' = u := Option.some.inj (hstep.symm.trans hu)
      have hi' := hi.step htrans hs hcond
      exact ineligible_of_marked hi'.marked hi'.served
  · intro w e w' hs hkeeps hstep hi
    have htrans := transition_of_step hstep
    exact hi.step htrans hs (recoversUnmarked_of_keeps hi.history htrans (hkeeps w' hstep))

/-- Without a store there is nothing to recover. -/
theorem stays_ineligible_iff_unstored :
    Meets (step fun _ => .zero) (KeepsIneligible fun _ => .zero) { process := unstored }
      (firstSteps {} ++ [.complete 0, .invalidate (.id (.fromU64 2)), .compile {} 2 1]) := by
  let es : List Event :=
    firstSteps {} ++ [.complete 0, .invalidate (.id (.fromU64 2)), .compile {} 2 1]
  obtain ⟨w, hrun⟩ := Option.isSome_iff_exists.mp (show (exec (step fun _ => .zero)
    { process := unstored } es).isSome = true by decide +kernel)
  have hscope : ∀ e ∈ es, ∀ s, WithoutSupersede s e ∧ RecoversUnmarked s e := by
    simp [es, firstSteps, ownerSteps, WithoutSupersede, RecoversUnmarked]
  exact (stays_ineligible_iff unstored (meets_of_forall fun e he s => (hscope e he s).1) hrun).mpr
    (meets_of_forall fun e he s => (hscope e he s).2)

/-- An artifact is stored and then invalidated, and the next process recovers it. -/
def recoverInvalidated : List Event :=
  firstSteps {} ++ storeSteps 0 ++ [.invalidate (.id (.fromU64 2)), .restart {}] ++
    loadSteps 0 firstFiles ++ [.recoverInsert 0]

/-- The recovered artifact is reusable. -/
theorem not_stays_ineligible :
    Meets (step fun _ => .zero) WithoutSupersede {} recoverInvalidated ∧
    (exec (step fun _ => .zero) {} recoverInvalidated).isSome = true ∧
    ¬ Meets (step fun _ => .zero) (KeepsIneligible fun _ => .zero) {} recoverInvalidated := by
  let H : Bytes → Digest := fun _ => .zero
  obtain ⟨w, r, hfirst, hw⟩ := exec_firstSteps
  obtain ⟨k, e, hentry, hid, horigin⟩ := hw.cached
  let u : World := { w.invalidate (.id (.fromU64 2)) with
    process := {}
    impl := {}
    calls := fun _ => none
    refused := fun _ => none
    recoveries := fun _ => none }
  have hrestart : exec (step H) w [.invalidate (.id (.fromU64 2)), .restart {}] = some u := by
    have hroot : ({} : Process).config.artifactRoot =
        (w.invalidate (.id (.fromU64 2))).process.config.artifactRoot := by
      change _ = w.process.config.artifactRoot
      rw [hw.process]
    simp only [exec, step, World.locked, hw.lock, if_true, Option.bind_some,
      World.invalidateBy_eq, World.restart, if_pos hroot]
    rfl
  have hinv : u.invalidated 0 :=
    .inr ⟨k, e, hentry, by simp [Authority.selects, hid, hw.id], horigin⟩
  obtain ⟨l, hload⟩ := hw.exec_loadSteps (u := u) rfl rfl hw.nextRecovery
  have hbefore := exec_append.mpr ⟨u, exec_append.mpr ⟨w, hfirst, hrestart⟩, hload⟩
  have hh := history_exec (history_init H {}) hbefore
  obtain ⟨z, hinsert⟩ : ∃ z, step H { u.setRecovery 0 (some (.loading [] [l])) with
    nextRecovery := 1 } (.recoverInsert 0) = some z := ⟨_, rfl⟩
  have hscope : ∀ e ∈ recoverInvalidated, ∀ s, WithoutSupersede s e := by
    simp [recoverInvalidated, firstSteps, ownerSteps, storeSteps, loadSteps, WithoutSupersede]
  refine ⟨meets_of_forall hscope, ?_, fun hmeets => ?_⟩
  · exact Option.isSome_iff_exists.mpr ⟨z, exec_append.mpr ⟨_, hbefore, exec_singleton.mpr hinsert⟩⟩
  · have hcond := recoversUnmarked_of_keeps hh (transition_of_step hinsert)
      ((hmeets.append_right hbefore).1 z hinsert)
    obtain ⟨m, hm, horigin', -⟩ := hh.recorded.recoveries 0 (.loading [] [l]) rfl l
      List.mem_cons_self
    have hzero : l.origin = 0 := horigin'.symm.trans (hw.log m hm)
    exact hcond [l] l.record.key l rfl (by simp [lastLoaded]) (hzero ▸ hinv)

end CompilationFabric.Analysis
