import CompilationFabric.Library.MonadicMap
import CompilationFabric.Model.FabricSystem

/-!
# Backend calls that throw

What an owner does in its backend, with every call of the backend one that returns a value,
returns an error, or throws.  `compile` catches nothing, so the first exception leaves it, and the
fabric sees of that call only `raise`.

`step` is told what a backend has answered; here it is asked, in the order of the source.
-/

set_option autoImplicit false

namespace CompilationFabric.Model

open CompilationFabric.Library

/-- What a call of a backend comes to, or `none` when it throws. -/
abbrev BackendCall (α : Type) := Option (Result α)

/-! ## The calls of a build -/

/-- The calls for one variant. -/
structure VariantCalls where
  compiled : BackendCall BackendOutput
  nanos : UInt64 := 0
  validated : BackendCall ValidationDescriptor := some (.ok {})
  /-- `load`, without the module. -/
  loaded : BackendCall Unit := some (.ok ())
  /-- `executeSmoke`, whose answer is not looked at. -/
  smoke : BackendCall Digest := some (.ok .zero)
  measuredNanos : UInt64 := 0

/-- The calls of one `compile`. -/
structure BackendCalls where
  variants : ℕ → VariantCalls
  winner : BackendCall BackendOutput
  plain : BackendCall BackendOutput

/-- A variant is compiled, validated and measured.
SOURCE: Fabric.cpp:306-326 -/
def VariantCalls.run (v : VariantCalls) : Option VariantRun := do
  match ← v.compiled with
  | .error failure => return { compiled := .error failure }
  | .ok output =>
      let vd ← v.validated
      let unmeasured : VariantRun :=
        { compiled := .ok output, nanos := v.nanos, validated := vd, loaded := false }
      let passed := match vd with
        | .ok vd => vd.passed
        | .error _ => false
      if passed then
        match ← v.loaded with
        | .error _ => return unmeasured
        | .ok () =>
            let _ ← v.smoke
            return { unmeasured with loaded := true, measuredNanos := v.measuredNanos }
      else return unmeasured

/-- The winner is compiled once more.
SOURCE: Fabric.cpp:332-337 -/
def callWinner (cands : List AutotuneCandidate) (winner : BackendCall BackendOutput)
    (tuned : Build) : Option Build :=
  match selectWinner cands with
  | none => some tuned
  | some ix => winner.map fun wob =>
      match wob with
      | .error _ => tuned
      | .ok output =>
          { tuned with output, autotuneWinner := ((cands[ix]?).map (·.variantId)).getD [] }

/-- The request is compiled as it is when there is nothing yet.
SOURCE: Fabric.cpp:339, 341 -/
def callPlain (plain : BackendCall BackendOutput) (tuned : Build) : Option Build :=
  if tuned.output.executable = [] then
    plain.map fun wob =>
      match wob with
      | .error _ => tuned
      | .ok output => { tuned with output }
  else some tuned

/-- SOURCE: Fabric.cpp:300-339 -/
def autotuneCalls (r : CompilationRequest) (calls : BackendCalls) : Option Build := do
  let cands ← (List.range r.autotuneCandidates.toInt.toNat).mapM fun vi =>
    (calls.variants vi).run.map (evaluateVariant r vi)
  let tuned ← callWinner cands calls.winner { autotuned := true, autotuneCandidates := cands }
  callPlain calls.plain tuned

/-- SOURCE: Fabric.cpp:299-356 -/
def buildCalls (r : CompilationRequest) (calls : BackendCalls) : BackendCall Build :=
  let built :=
    if r.autotune && r.autotuneCandidates > 1 then (autotuneCalls r calls).map .ok
    else calls.plain.map fun bo => bo.map fun output => { output }
  built.map fun found => found.bind fun build =>
    if build.output.executable = [] then
      Err .BuildFailed (ascii "no candidate produced an artifact")
    else .ok build

/-! ## The answers -/

/-- Stands for the answer of a call that is not made, or that throws. -/
def noAnswer {α : Type} : Result α := Err .Internal []

/-- What the calls answer. -/
def BackendCalls.answers (calls : BackendCalls) : BackendRun where
  variants vi := (calls.variants vi).run.getD { compiled := noAnswer }
  winner := calls.winner.getD noAnswer
  plain := calls.plain.getD noAnswer

section

variable {r : CompilationRequest} {calls : BackendCalls} {cands : List AutotuneCandidate}
  {start tuned build : Build}

/-- INTERNAL: a winner's call that does not throw is its answer. -/
theorem callWinner_answers (h : callWinner cands calls.winner start = some tuned) :
    callWinner cands (some calls.answers.winner) start = some tuned := by
  unfold callWinner at h ⊢
  cases hselect : selectWinner cands with
  | none =>
      rw [hselect] at h
      exact h
  | some ix =>
      rw [hselect] at h
      obtain ⟨answer, hanswer, -⟩ := Option.map_eq_some_iff.mp h
      rw [hanswer] at h
      rw [BackendCalls.answers, hanswer, Option.getD_some]
      exact h

/-- INTERNAL: a plain call that does not throw is its answer. -/
theorem callPlain_answers (h : callPlain calls.plain tuned = some build) :
    callPlain (some calls.answers.plain) tuned = some build := by
  unfold callPlain at h ⊢
  by_cases hempty : tuned.output.executable = []
  · rw [if_pos hempty] at h ⊢
    obtain ⟨answer, hanswer, -⟩ := Option.map_eq_some_iff.mp h
    rw [hanswer] at h
    rw [BackendCalls.answers, hanswer, Option.getD_some]
    exact h
  · rw [if_neg hempty] at h ⊢
    exact h

/-- A plain call that fails leaves what was tuned. -/
theorem callPlain_error (failure : Failure) (tuned : Build) :
    callPlain (some (.error failure)) tuned = some tuned := by
  unfold callPlain
  split <;> rfl

/-- A plain call that succeeds gives its output when tuning has given none. -/
theorem callPlain_ok (output : BackendOutput) (tuned : Build) :
    callPlain (some (.ok output)) tuned =
      some (if tuned.output.executable = [] then { tuned with output } else tuned) := by
  unfold callPlain
  split <;> rfl

/-- Autotuning is the two calls after the variants, when both of them return. -/
theorem autotune_eq_callPlain {run : BackendRun}
    (hcands : cands = (List.range r.autotuneCandidates.toInt.toNat).map fun vi =>
      evaluateVariant r vi (run.variants vi))
    (h : callWinner cands (some run.winner)
      { autotuned := true, autotuneCandidates := cands } = some tuned) :
    callPlain (some run.plain) tuned = some (autotune r run) := by
  unfold callWinner at h
  unfold autotune
  dsimp only
  rw [← hcands]
  cases hselect : selectWinner cands with
  | none =>
      rw [hselect] at h
      cases h
      cases run.plain with
      | error failure => exact callPlain_error ..
      | ok output => exact callPlain_ok ..
  | some ix =>
      rw [hselect] at h
      cases hwinner : run.winner with
      | error failure =>
          rw [hwinner] at h
          cases h
          cases run.plain with
          | error failure => exact callPlain_error ..
          | ok output => exact callPlain_ok ..
      | ok won =>
          rw [hwinner] at h
          cases h
          cases run.plain with
          | error failure => exact callPlain_error ..
          | ok output => exact callPlain_ok ..

/-- When nothing throws, autotuning is what the answers make it. -/
theorem autotuneCalls_eq (h : autotuneCalls r calls = some build) :
    build = autotune r calls.answers := by
  unfold autotuneCalls at h
  obtain ⟨cands, hcands, h⟩ := Option.bind_eq_some_iff.mp h
  have hvariants : cands = (List.range r.autotuneCandidates.toInt.toNat).map fun vi =>
      evaluateVariant r vi (calls.answers.variants vi) := by
    refine MonadicMap.eq_map_of_forall₂ (fun vi ac hac => ?_)
      (MonadicMap.forall₂_of_mapM_some hcands)
    obtain ⟨run, hrun, rfl⟩ := Option.map_eq_some_iff.mp hac
    simp only [BackendCalls.answers, hrun, Option.getD_some]
  obtain ⟨tuned, hwinner, hplain⟩ := Option.bind_eq_some_iff.mp h
  have hauto := autotune_eq_callPlain hvariants (callWinner_answers hwinner)
  exact Option.some.inj ((callPlain_answers hplain).symm.trans hauto)

end

/-- When nothing throws, a build is what the answers make it. -/
theorem buildCalls_eq {r : CompilationRequest} {calls : BackendCalls} {build : Result Build}
    (h : buildCalls r calls = some build) : build = backendBuild r calls.answers := by
  obtain ⟨found, hfound, rfl⟩ := Option.map_eq_some_iff.mp h
  unfold backendBuild
  split at hfound
  · next hauto =>
    obtain ⟨tuned, htuned, rfl⟩ := Option.map_eq_some_iff.mp hfound
    rw [if_pos hauto, autotuneCalls_eq htuned]
    rfl
  · next hauto =>
    obtain ⟨answer, hanswer, rfl⟩ := Option.map_eq_some_iff.mp hfound
    rw [if_neg hauto, BackendCalls.answers, hanswer, Option.getD_some]
    rfl

/-! ## Steps -/

/-- The calls of its backend that an owner makes at once. -/
inductive OwnerCall where
  /-- `checkCompatible`. -/
  | check (answer : BackendCall Unit)
  | build (calls : BackendCalls) (compileMs : Int64)
  | validate (answer : BackendCall ValidationDescriptor) (times : Timestamps)
      (validateMs : Int64)

namespace OwnerCall

/-- Whether the call comes next. -/
def due : OwnerCall → Phase → Bool
  | .check _, .checking => true
  | .build _ _, .compiling => true
  | .validate _ _ _, .numbered _ _ => true
  | _, _ => false

/-- Whether an exception leaves it.  A backend that is not registered is not asked. -/
def throws (p : Process) (call : Call) : OwnerCall → Bool
  | .check answer => (p.host.backends p.config).contains call.plan.backend && answer.isNone
  | .build calls _ => (buildCalls call.request calls).isNone
  | .validate answer _ _ => answer.isNone

/-- What the fabric sees of it. -/
def event (p : Process) (call : Call) (c : CallId) (a : OwnerCall) : Event :=
  if a.throws p call then .raise c
  else match a with
  | .check answer => .check c (answer.getD noAnswer)
  | .build calls compileMs => .build c calls.answers compileMs
  | .validate answer times validateMs => .validate c (answer.getD noAnswer) times validateMs

end OwnerCall

/-- An owner's call of its backend, or any other step. -/
inductive CallEvent where
  | backend (c : CallId) (a : OwnerCall)
  | other (e : Event)

/-- The steps in which an owner has called its backend. -/
def asksBackend : Event → Bool
  | .check _ _ | .build _ _ _ | .validate _ _ _ _ | .raise _ => true
  | _ => false

/-- The step of the fabric that an event is. -/
def CallEvent.event (w : World) : CallEvent → Option Event
  | .backend c a => do
      let call ← w.calls c
      if a.due call.phase then some (a.event w.process call c) else none
  | .other e => if asksBackend e then none else some e

/-- The step function with backends that may throw. -/
def callStep (H : Bytes → Digest) (w : World) (e : CallEvent) : Option World :=
  (e.event w).bind (step H w)

end CompilationFabric.Model
