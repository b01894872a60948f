import CompilationFabric.Interface.FabricCommits

/-!
# What becomes of an output

From the moment an owner has its output from the backend, the call carries nothing else
(`Holds`): the executable that is validated is that of the output, and so is the one that is
committed and the one that the call returns.
-/

set_option autoImplicit false

namespace CompilationFabric.Interface

open CompilationFabric.Library.TransitionSystem
open CompilationFabric.Model

variable {H : Bytes → Digest} {w w' : World} {e : Event} {es : List Event} {c : CallId}
  {call call' : Call} {output : BackendOutput}

/-- A call that is past its build, with the output that it got there. -/
def Holds (output : BackendOutput) : Phase → Prop
  | .built b | .numbered b _ => b.output = output
  | .validated v | .storing v _ | .committed v => v.build.output = output
  | .returned _ (.ok res) => res.artifactBytes = output.executable
  | .returned _ (.error _) | .raised => True
  | .missed | .waiting _ | .checking | .compiling => False

/-- The call does not give its output up. -/
theorem Holds.moved (h : Moved H w c call e call') (ho : Holds output call.phase) :
    Holds output call'.phase := by
  cases h with
  | wait hphase => rw [hphase] at ho; exact ho.elim
  | own hphase => rw [hphase] at ho; exact ho.elim
  | wake hphase => rw [hphase] at ho; exact ho.elim
  | advance hadv =>
      cases hadv with
      | compiling hphase => rw [hphase] at ho; exact ho.elim
      | built hphase => rw [hphase] at ho; exact ho.elim
      | validated hphase => rw [hphase] at ho; exact ho
      | raised => trivial
  | fail => trivial
  | number hphase => rw [hphase] at ho; exact ho
  | publish hphase =>
      rw [hphase] at ho
      dsimp only
      split
      · exact ho
      · exact ho
  | write hphase => rw [hphase] at ho; exact ho
  | release hphase => rw [hphase] at ho; exact ho
  | complete hphase =>
      rw [hphase] at ho
      exact congrArg BackendOutput.executable ho

/-- The invariant of one call. -/
structure Holding (c : CallId) (output : BackendOutput) (w : World) : Prop where
  started : c < w.nextCall
  call : ∀ call, w.calls c = some call → Holds output call.phase
  log : ∀ m ∈ w.log, m.call = c → m.bytes = output.executable

/-- Every step leaves the call with its output. -/
theorem Holding.step (hh : Holding c output w) (h : Transition H w e w') :
    Holding c output w' where
  started := hh.started.trans_le (nextCall_mono h)
  call := by
    intro call' hcall'
    obtain hold | ⟨hnew, -⟩ | ⟨call, hcall, hmoved⟩ :=
      (callsStep_of_transition h).call_cases hcall'
    · exact hh.call call' hold
    · exact absurd hnew hh.started.ne
    · exact (hh.call call hcall).moved hmoved
  log := by
    intro m hm hmc
    obtain heq | ⟨o, call, v, -, hcall, hphase, rfl⟩ := log_cases h
    · exact hh.log m (heq ▸ hm) hmc
    · obtain rfl | hm := List.mem_cons.mp hm
      · obtain rfl : o = c := hmc
        have ho := hh.call call hcall
        rw [hphase] at ho
        exact congrArg BackendOutput.executable ho
      · exact hh.log m hm hmc

/-- Every run leaves the call with its output. -/
theorem holding_exec (hh : Holding c output w) (h : exec (step H) w es = some w') :
    Holding c output w' :=
  exec_invariant (fun _ _ _ hs hi => hi.step (transition_of_step hs)) h hh

/-- A call that compiles has not committed anything. -/
theorem holding_of_build {run : BackendRun} {ms : Int64} {b : Build} (hh : History H w)
    (hcall : w.calls c = some call) (hbuild : backendBuild call.request run = .ok b)
    (h : step H w (.build c run ms) = some w') : Holding c b.output w' := by
  have hphase : call.phase = .compiling ∧
      w' = w.setCall c { call with phase := .built { b with compileMs := ms } } := by
    obtain ⟨u, hu, h⟩ := Option.bind_eq_some_iff.mp h
    obtain rfl := Option.some.inj (hcall.symm.trans hu)
    split at h
    · next hcompiling =>
      rw [hbuild] at h
      exact ⟨hcompiling, (Option.some.inj h).symm⟩
    · cases h
  obtain ⟨hcompiling, rfl⟩ := hphase
  refine ⟨hh.wellFormed.lt_nextCall hcall, ?_, ?_⟩
  · intro call' hcall'
    rw [World.setCall_calls, Function.update_self, Option.some_inj] at hcall'
    rw [← hcall']
    rfl
  · intro m hm hmc
    have hdone := hh.commits.after m hm call (hmc ▸ hcall)
    rw [hcompiling] at hdone
    cases hdone

end CompilationFabric.Interface
