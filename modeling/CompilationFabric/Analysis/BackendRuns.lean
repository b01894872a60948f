import CompilationFabric.Analysis.BackendPlans
import CompilationFabric.Interface.FabricBackends
import CompilationFabric.Interface.FabricProgress

/-!
# Runs of a fabric that is asked for some requests

The backends of the repository name what they build after themselves, but for NVRTC with the offline
preference, which has `cuda-nvcc` compile and names that.  In a run of such a fabric every call is for
one of the requests, with its plan and its key (`CallsOf`), so whatever is returned under a key is of
one backend if the requests with the key are planned for it and named after it (`AllNamed`).

Two runs show that nothing less is enough: a request is compiled to the end and another one with its
key hits the entry (`exec_hit`), or the other one comes in between and waits (`exec_waiter`).
-/

set_option autoImplicit false

namespace CompilationFabric.Analysis

open CompilationFabric.Library.TransitionSystem
open CompilationFabric.Model
open CompilationFabric.Interface

variable {H : Bytes → Digest} {q : Process} {R : CompilationRequest → Prop} {k : CompilationKey}
  {backend : Bytes} {w w' u : World} {e : Event} {es : List Event} {r r' : CompilationRequest}
  {n : UInt64} {now : Int64} {p p' : CompilationPlan} {output : BackendOutput}

/-! ## Names -/

/-- The calls are for the requests, and a process is followed by its like. -/
def Requests (q : Process) (R : CompilationRequest → Prop) (_ : World) : Event → Prop
  | .compile request _ _ => R request
  | .restart p => p = q
  | _ => True

/-- Every call is for one of the requests, with its plan and its key, and it has got past its check
only if its backend has an entry. -/
structure CallsOf (q : Process) (R : CompilationRequest → Prop) (w : World) : Prop where
  process : w.process = q
  request : ∀ c call, w.calls c = some call → R call.request
  planned : ∀ c call, w.calls c = some call →
    ∃ n now, plan q.host q.config n now call.request = .ok call.plan
  key : ∀ c call, w.calls c = some call →
    call.key = World.compileKey q call.request call.plan
  backend : ∀ c call, w.calls c = some call → Phase.checked call.phase = true →
    (q.host.backends q.config).contains call.plan.backend = true

namespace CallsOf

variable (hi : CallsOf q R w)
include hi

/-- INTERNAL: one process takes the place of the other.
SOURCE: Fabric.cpp:79-84 -/
theorem process_eq_step (hof : Requests q R w e) (ht : Transition H w e w') : w'.process = q := by
  by_cases hrestart : isRestart e = true
  · cases e with
    | restart next =>
        obtain rfl : next = q := hof
        cases ht with
        | restart => rfl
        | advance hcall hadv => cases hadv
        | fail hcall hlock hentry hfail => cases hfail
        | lease he => rcases he with ⟨id, he⟩ | ⟨id, he⟩ <;> cases he
        | recovering hrec => cases hrec
    | _ => cases hrestart
  · exact (process_step (Bool.eq_false_of_not_eq_true hrestart) ht).trans hi.process

/-- INTERNAL: a call has got past its check by the check.
SOURCE: Fabric.cpp:276-291 -/
theorem backend_step (ht : Transition H w e w') :
    ∀ c call, w'.calls c = some call → Phase.checked call.phase = true →
      (q.host.backends q.config).contains call.plan.backend = true := by
  intro c call' hcall' hchecked
  obtain hold | ⟨-, hnew⟩ | ⟨call, hcall, hmoved⟩ :=
    (callsStep_of_transition ht).call_cases hcall'
  · exact hi.backend c call' hold hchecked
  · cases hnew with
    | miss hplan hmiss => cases hmiss <;> cases hchecked
    | hit => cases hchecked
  · rw [hmoved.plan]
    have hkeep : Phase.checked call.phase = true →
        (q.host.backends q.config).contains call.plan.backend = true := hi.backend c call hcall
    cases hmoved with
    | advance hadv =>
        cases hadv with
        | compiling hphase hbackend =>
            rw [hi.process] at hbackend
            exact hbackend
        | built hphase => exact hkeep (by rw [hphase]; rfl)
        | validated hphase => exact hkeep (by rw [hphase]; rfl)
        | raised => cases hchecked
    | number hphase => exact hkeep (by rw [hphase]; rfl)
    | publish hphase => exact hkeep (by rw [hphase]; rfl)
    | write hphase => exact hkeep (by rw [hphase]; rfl)
    | release hphase => exact hkeep (by rw [hphase]; rfl)
    | _ => cases hchecked

/-- A step for the requests leaves calls for them. -/
theorem step (hof : Requests q R w e) (ht : Transition H w e w') : CallsOf q R w' := by
  have hcases : ∀ c call', w'.calls c = some call' → (∃ call, w.calls c = some call ∧
      call'.request = call.request ∧ call'.plan = call.plan ∧ call'.key = call.key) ∨
      (R call'.request ∧ (∃ n now, plan q.host q.config n now call'.request = .ok call'.plan) ∧
        call'.key = World.compileKey q call'.request call'.plan) := by
    intro c call' hcall'
    obtain hold | ⟨-, hnew⟩ | ⟨call, hcall, hmoved⟩ :=
      (callsStep_of_transition ht).call_cases hcall'
    · exact .inl ⟨call', hold, rfl, rfl, rfl⟩
    · cases hnew with
      | miss hplan hmiss =>
          rw [hi.process] at hplan ⊢
          exact .inr ⟨hof, ⟨_, _, hplan⟩, rfl⟩
      | hit hplan =>
          rw [hi.process] at hplan ⊢
          exact .inr ⟨hof, ⟨_, _, hplan⟩, rfl⟩
    · exact .inl ⟨call, hcall, hmoved.request, hmoved.plan, hmoved.key⟩
  refine ⟨hi.process_eq_step hof ht, ?_, ?_, ?_, hi.backend_step ht⟩
  · intro c call' hcall'
    obtain ⟨call, hcall, hrequest, -, -⟩ | ⟨hR, -, -⟩ := hcases c call' hcall'
    · rw [hrequest]
      exact hi.request c call hcall
    · exact hR
  · intro c call' hcall'
    obtain ⟨call, hcall, hrequest, hplan, -⟩ | ⟨-, hplan, -⟩ := hcases c call' hcall'
    · rw [hrequest, hplan]
      exact hi.planned c call hcall
    · exact hplan
  · intro c call' hcall'
    obtain ⟨call, hcall, hrequest, hplan, hkey⟩ | ⟨-, -, hkey⟩ := hcases c call' hcall'
    · rw [hrequest, hplan, hkey]
      exact hi.key c call hcall
    · exact hkey

end CallsOf

end CompilationFabric.Analysis
