import CompilationFabric.Interface.FabricNumbers
import CompilationFabric.Interface.FabricStore

/-!
# Invalidation as a barrier

Whether a call that starts after an invalidation can still come back with an artifact that the
invalidation marked.  From the cache it cannot, and as an owner it has an artifact of its own.
But an owner whose artifact is in the cache has not completed its in-flight entry yet; when the
invalidation falls in between, a later call misses in the cache, joins that entry, and is handed
the marked artifact.

The other way to the same identity is an artifact counter that has gone all the way round.
-/

set_option autoImplicit false

namespace CompilationFabric.Analysis

open CompilationFabric.Library.TransitionSystem
open CompilationFabric.Model
open CompilationFabric.Interface

variable {H : Bytes → Digest} {w w' : World} {e : Event} {es : List Event}

/-! ## The property and the condition -/

/-- No call has returned the identity of an artifact that was marked before the call's first
step. -/
def BarrierHolds (w : World) : Prop :=
  ∀ c call served res m, w.calls c = some call → call.phase = .returned served (.ok res) →
    m ∈ w.log → call.barrier m.call → res.artifactId ≠ m.id

/-- The operations in question, and others that do not matter: no supersession, no recovery and
no restart. -/
def Undisturbed (_ : World) : Event → Prop
  | .supersede _ _ | .recoverInsert _ | .restart _ => False
  | _ => True

/-- The owner that a call starts to wait for has not committed an artifact that was marked before
the call's first step. -/
def JoinsUnmarked (w : World) : Event → Prop
  | .join c => ∀ call o, w.calls c = some call → w.activeOwner call.key = some o →
      ¬ call.barrier o
  | _ => True

/-- The condition on a step. -/
def KeepsBarrier (w : World) (e : Event) : Prop := JoinsUnmarked w e ∧ DrawsFresh w e

/-! ## Waiters -/

/-- Whoever waits, or has been served as a waiter, has an owner that was not marked. -/
def WaitsUnmarked (w : World) : Prop :=
  ∀ c call o, w.calls c = some call →
    (call.phase = .waiting o ∨ ∃ r, call.phase = .returned (.waiter o) r) → ¬ call.barrier o

/-- A join that finds no marked owner keeps the waiters to unmarked ones. -/
theorem WaitsUnmarked.step (hu : WaitsUnmarked w) (h : Transition H w e w')
    (hjoin : JoinsUnmarked w e) : WaitsUnmarked w' := by
  intro c call' o hcall' hphase'
  rcases (callsStep_of_transition h).call_cases hcall' with hold | ⟨-, hnew⟩ | ⟨call, hcall, hmoved⟩
  · exact hu c call' o hold hphase'
  · cases hnew with
    | miss hplan hmiss => cases hmiss <;> rcases hphase' with h | ⟨r, h⟩ <;> cases h
    | hit => rcases hphase' with h | ⟨r, h⟩ <;> cases h
  · cases hmoved with
    | wait hphase hactive =>
        rcases hphase' with h | ⟨r, h⟩ <;> cases h
        exact hjoin call o hcall hactive
    | wake hphase howner hentry hdone =>
        rcases hphase' with h | ⟨r, h⟩ <;> cases h
        exact hu c call o hcall (.inl hphase)
    | advance hadv => cases hadv <;> rcases hphase' with h | ⟨r, h⟩ <;> cases h
    | publish hphase =>
        dsimp only at hphase'
        split at hphase' <;> rcases hphase' with h | ⟨r, h⟩ <;> cases h
    | _ => rcases hphase' with h | ⟨r, h⟩ <;> cases h

/-! ## Every run -/

structure BarrierInv (H : Bytes → Digest) (w : World) : Prop where
  history : History H w
  agreed : Agreed w
  numbered : Numbered w
  marked : Marked w
  served : ServedUnmarked w
  waits : WaitsUnmarked w

/-- A fresh process meets the barrier. -/
theorem barrierInv_init (H : Bytes → Digest) (p : Process) : BarrierInv H { process := p } where
  history := history_init H p
  agreed := agreed_init p
  numbered := numbered_init p
  marked := fun k entry h => by simp at h
  served := fun _ _ _ _ h => nomatch h
  waits := fun _ _ _ h => nomatch h

/-- A step that keeps the barrier keeps the invariant. -/
theorem BarrierInv.step (hi : BarrierInv H w) (h : Transition H w e w')
    (hscope : Undisturbed w e) (hkeeps : KeepsBarrier w e) : BarrierInv H w' where
  history := hi.history.step h
  agreed := hi.agreed.step hi.history.wellFormed h
  numbered := hi.numbered.step hi.history h
    (by cases e <;> first | rfl | exact hscope.elim) hkeeps.2
  marked := hi.marked.step hi.history h (fun id gen he => by subst he; exact hscope.elim)
    (fun t valid k l he => by subst he; exact hscope.elim)
  served := hi.served.step hi.marked h
  waits := hi.waits.step h hkeeps.1

/-- An owner that returned an artifact committed it. -/
theorem BarrierInv.owned (hi : BarrierInv H w) {c : CallId} {call : Call} {res : CompilationResult}
    (hcall : w.calls c = some call) {entry : InflightEntry} (hentry : call.entry = some entry)
    (hdone : entry.outcome = some (.ok res)) :
    ∃ m ∈ w.log, m.call = c ∧ res.artifactId = m.id := by
  have hcoherent := hi.history.wellFormed.coherent c call hcall
  rw [hentry] at hcoherent
  obtain ⟨m, hm, hmc, -, hres⟩ :=
    hi.history.recorded.owned c call res hcall (coherent_done hcoherent hdone)
  exact ⟨m, hm, hmc, hres.artifactId⟩

/-- INTERNAL: the invariant is the barrier, and more. -/
theorem BarrierInv.barrierHolds (hi : BarrierInv H w) : BarrierHolds w := by
  intro c call served res m hcall hphase hm hbarrier hid
  cases served with
  | cache o =>
      obtain ⟨m', hm', hcall', -, hres⟩ := hi.history.recorded.served c call o res hcall hphase
      have heq := hi.numbered.call_eq hm' hm (hres.artifactId.symm.trans hid)
      exact hi.served c call o _ hcall hphase (hcall' ▸ heq ▸ hbarrier)
  | waiter o =>
      obtain ⟨owner, entry, howner, hentry, hdone⟩ := hi.agreed c call o _ hcall hphase
      obtain ⟨m', hm', hcall', hres⟩ := hi.owned howner hentry hdone
      have heq := hi.numbered.call_eq hm' hm (hres.symm.trans hid)
      exact hi.waits c call o hcall (.inr ⟨_, hphase⟩) (hcall' ▸ heq ▸ hbarrier)
  | owner =>
      obtain ⟨m', hm', hcall', -, hres⟩ := hi.history.recorded.owned c call res hcall hphase
      have heq := hi.numbered.call_eq hm' hm (hres.artifactId.symm.trans hid)
      have hlt := (hi.history.commits.barrier c call m.call hcall hbarrier).2
      exact absurd (heq.symm.trans hcall') hlt.ne

/-- Invalidation is a barrier in every run in which nobody joins an owner whose artifact was
marked before, and the artifact counter does not come round.
SOURCE: Fabric.cpp:217-274, 359-471 -/
theorem barrier_holds (p : Process) (hscope : Meets (step H) Undisturbed { process := p } es)
    (hkeeps : Meets (step H) KeepsBarrier { process := p } es)
    (hrun : exec (step H) { process := p } es = some w) : BarrierHolds w := by
  have hboth : Meets (step H) (fun w e => Undisturbed w e ∧ KeepsBarrier w e) { process := p } es :=
    hscope.and hkeeps
  have hi : BarrierInv H w := by
    refine exec_induction ?_ hboth hrun (barrierInv_init H p)
    intro s e s' hs hstep hi
    exact hi.step (transition_of_step hstep) hs.1 hs.2
  exact hi.barrierHolds

/-! ## Two runs -/

/-- A check that is enough for the condition: there is nobody to wait for, and no call of the
process has the number. -/
def alone (w : World) : Event → Bool
  | .join c => (w.calls c).all fun call => (w.activeOwner call.key).isNone
  | .number _ => allCalls w fun x =>
      decide (drawn x.phase ≠ some (.fromU64 (w.impl.artifactCounter + 1)))
  | _ => true

/-- INTERNAL: a call that is alone keeps the barrier. -/
theorem keepsBarrier_of_alone (hw : WellFormed w) (h : alone w e = true) : KeepsBarrier w e := by
  cases e with
  | join c =>
      refine ⟨fun call o hcall hactive => ?_, trivial⟩
      rw [alone, hcall, Option.all_some, hactive] at h
      cases h
  | number c => exact ⟨trivial, fun d x hx => of_decide_eq_true (hw.of_allCalls h hx)⟩
  | _ => exact ⟨trivial, trivial⟩

/-- An owner completes before anybody else comes, and a later call compiles anew. -/
def completeThenCompile : List Event :=
  firstSteps {} ++ ([.complete 0, .invalidate (.id (.fromU64 2)), .compile {} 2 1, .join 1] ++
    (ownerSteps 1 { executable := [2] } ++ [.commit 1, .complete 1]))

/-- An invalidation while a call compiles, which then fails. -/
theorem barrier_holds_complete : ∃ w, exec (step fun _ => .zero) { process := unstored }
    completeThenCompile = some w ∧ BarrierHolds w := by
  obtain ⟨w, hrun⟩ := Option.isSome_iff_exists.mp (show (exec (step fun _ => .zero)
    { process := unstored } completeThenCompile).isSome = true by decide +kernel)
  have halone : Meets (step fun _ => .zero) (fun w e => alone w e = true) { process := unstored }
      completeThenCompile := meets_of_checks (fun _ _ h => h) (by decide +kernel)
  refine ⟨w, hrun, barrier_holds unstored ?_ ?_ hrun⟩
  · refine meets_of_forall ?_
    simp [completeThenCompile, firstSteps, ownerSteps, Undisturbed]
  · exact halone.of_invariant (fun _ _ _ _ hs hw => hw.step (transition_of_step hs))
      (fun _ _ _ h _ hw => keepsBarrier_of_alone hw h) (.init unstored) hrun

/-- A call starts after the invalidation, and before the owner of the artifact completes. -/
def compileThenComplete : List Event :=
  firstSteps {} ++ ([.invalidate (.id (.fromU64 2))] ++ ([.compile {} 2 1] ++
    [.join 1, .complete 0, .wake 1]))

/-- A call's barrier is what has been invalidated when it starts. -/
theorem barrier_of_compile {request : CompilationRequest} {n : UInt64} {now : Int64}
    (h : step H w (.compile request n now) = some w') {call : Call}
    (hcall : w'.calls w.nextCall = some call) (hfresh : w.calls w.nextCall = none) :
    call.barrier = w.invalidated := by
  rcases (callsStep_of_transition (transition_of_step h)).call_cases hcall with
    hold | ⟨-, hnew⟩ | ⟨call₀, hcall₀, -⟩
  · rw [hfresh] at hold
    cases hold
  · cases hnew <;> rfl
  · rw [hfresh] at hcall₀
    cases hcall₀

/-- The later call is handed the invalidated artifact. -/
theorem not_barrier_holds : ∃ w, Meets (step fun _ => .zero) Undisturbed { process := unstored }
      compileThenComplete ∧
    exec (step fun _ => .zero) { process := unstored } compileThenComplete = some w ∧
    ¬ BarrierHolds w := by
  let H : Bytes → Digest := fun _ => .zero
  have hrun : (exec (step H) { process := unstored } compileThenComplete).any (fun w =>
      (w.log.any fun m => decide (m.call = 0 ∧ m.id = .fromU64 2)) &&
        (returned w 1).any fun x => decide (x.1 = .waiter 0) &&
          x.2.toOption.any fun res => decide (res.artifactId = .fromU64 2)) = true := by
    decide +kernel
  obtain ⟨w, hexec, hw⟩ := (Option.any_eq_true _ _).mp hrun
  simp only [Bool.and_eq_true, List.any_eq_true, Option.any_eq_true, decide_eq_true_eq] at hw
  obtain ⟨⟨m, hm, hmcall, hmid⟩, ⟨served, result⟩, hreturned, rfl, res, hres, hresid⟩ := hw
  obtain ⟨call, hcall, hphase⟩ := returned_eq_some.mp hreturned
  have hscope : ∀ e ∈ compileThenComplete, ∀ s, Undisturbed s e := by
    simp [compileThenComplete, firstSteps, ownerSteps, Undisturbed]
  refine ⟨w, meets_of_forall hscope, hexec, fun hholds => ?_⟩
  -- the artifact is marked when the second call starts
  have hfirst : (exec (step H) { process := unstored } (firstSteps {})).any (fun w =>
      decide (w.nextCall = 1) && w.impl.cache.toList.any fun p =>
        decide (p.2.descriptor.id = .fromU64 2 ∧ p.2.origin = 0)) = true := by decide +kernel
  have hsecond : (exec (step H) { process := unstored } (firstSteps {} ++
      ([.invalidate (.id (.fromU64 2))] ++ [.compile {} 2 1]))).any
        (fun w => (w.calls 1).isSome) = true := by decide +kernel
  obtain ⟨w₁, h₁, hrest⟩ := exec_append.mp hexec
  obtain ⟨w₂, h₂, hrest⟩ := exec_append.mp hrest
  obtain ⟨w₃, h₃, hrest⟩ := exec_append.mp hrest
  rw [h₁, Option.any_some, Bool.and_eq_true, decide_eq_true_eq, List.any_eq_true] at hfirst
  obtain ⟨hnext, ⟨k, entry⟩, hmem, hentry⟩ := hfirst
  obtain ⟨hid, horigin⟩ := of_decide_eq_true hentry
  rw [exec_append.mpr ⟨w₁, h₁, exec_append.mpr ⟨w₂, h₂, h₃⟩⟩, Option.any_some,
    Option.isSome_iff_exists] at hsecond
  obtain ⟨call₃, hcall₃⟩ := hsecond
  have hw₁ : WellFormed w₁ := wellFormed_exec (.init unstored) h₁
  have hw₂ : WellFormed w₂ := wellFormed_exec hw₁ h₂
  have hinv : w₂ = w₁.invalidate (.id (.fromU64 2)) := by
    rw [exec_singleton, step, World.locked] at h₂
    split at h₂ <;> cases h₂
    rfl
  have hmarked : w₂.invalidated 0 := by
    rw [hinv]
    exact .inr ⟨k, entry, Std.ExtTreeMap.mem_toList_iff_getElem?_eq_some.mp hmem,
      decide_eq_true hid, horigin⟩
  have hnext₂ : w₂.nextCall = 1 := by
    rw [hinv]
    exact hnext
  have hbarrier : call₃.barrier = w₂.invalidated :=
    barrier_of_compile (exec_singleton.mp h₃) (hnext₂ ▸ hcall₃) (hw₂.fresh _ le_rfl)
  obtain ⟨call', hcall', hlater⟩ := later_exec (wellFormed_exec hw₂ h₃)
    (meets_of_all (p := fun e => !isRestart e) (fun s e h => by simpa [SameProcess] using h)
      (by decide)) hrest 1 call₃ hcall₃
  rw [hcall, Option.some_inj] at hcall'
  subst hcall'
  have hbarrier' : call.barrier m.call := by
    rw [hlater.barrier, hbarrier, hmcall]
    exact hmarked
  obtain rfl : result = .ok res := eq_ok_of_toOption hres
  exact hholds 1 call _ res m hcall hphase hm hbarrier' (hresid.trans hmid.symm)

end CompilationFabric.Analysis
