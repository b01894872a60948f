import CompilationFabric.Interface.RequestJson
import CompilationFabric.Interface.SubmitProgress

/-!
# Local and distributed admission

A Submit is planned by the coordinator's own fabric, which knows the CPU backend alone, and a
worker is looked for whatever the plan is.  So a request that the planner refuses is dispatched
like any other, and no request is ever dispatched to a worker that is not a CPU worker.
-/

set_option autoImplicit false

namespace CompilationFabric.Analysis

open CompilationFabric.Interface
open CompilationFabric.Model

variable {H : Bytes → Digest} {validate : CompilationRequest → ValidationDescriptor} {w : Network}
  {r : CompilationRequest} {n : UInt64} {now : Int64} {ok : Bool}

/-- The backend that a worker has advertised.
SOURCE: Distributed.cpp:273 -/
def advertised (caps : Json) : Bytes := (capability caps "backend").getD cpuBackend

/-- Handling a Submit agrees with the planner: a request that cannot be planned is rejected and
nothing is dispatched, a dispatch goes to a worker that has advertised the backend asked for, and
no CPU worker reports the success of a CUDA request. -/
structure AdmissionAgrees (H : Bytes → Digest)
    (validate : CompilationRequest → ValidationDescriptor) (w : Network) (r : CompilationRequest)
    (n : UInt64) (now : Int64) (ok : Bool) : Prop where
  rejects : (∃ e, plan w.host (coordinatorConfig w.root) n now r = .error e) →
    ∃ w' x code message, Network.serve H w (.submit r n now ok) = some w' ∧
      w'.submits w.nextSubmit = some x ∧ x.phase = .replied (.reject code message) ∧
      w'.dispatches = w.dispatches
  dispatches : ∀ w' x D, Network.serve H w (.submit r n now ok) = some w' →
    w'.submits w.nextSubmit = some x → x.phase = .waiting → w'.dispatches w.nextSubmit = some D →
    ∃ caps, w.coordinator.workers[D.env.workerId]? = some caps ∧
      (r.backend ≠ [] → advertised caps = r.backend) ∧
      (wantsCuda r = true → advertised caps = cpuBackend → ∀ stages artifactId res,
        workerReport H validate stages artifactId D ≠ some (res, true))

/-! ## The planner of the coordinator -/

/-- INTERNAL: the coordinator's own configuration offers the CPU backend alone.
SOURCE: Distributed.cpp:117-118 -/
theorem backends_coordinatorConfig (hown : w.host.registered = []) :
    w.host.backends (coordinatorConfig w.root) = [cpuBackend] := by
  unfold Host.backends coordinatorConfig
  rw [hown]
  rfl

/-- Without further backends the planner refuses what is neither the CPU backend nor `cuda-nvcc`. -/
theorem plan_eq_error_iff (n : UInt64) (now : Int64) (hown : w.host.registered = []) :
    (∃ e, plan w.host (coordinatorConfig w.root) n now r = .error e) ↔
      r.backend ≠ [] ∧ r.backend ≠ cpuBackend ∧ r.backend ≠ nvccBackend := by
  unfold plan
  rw [backends_coordinatorConfig hown]
  split
  · next h => simpa [Err] using h
  · next h => simpa using h

/-- No worker is looked for that is not a CPU worker. -/
theorem wantCuda_submitOf (hown : w.host.registered = []) :
    (submitOf H w r n now).wantCuda = false := by
  have hselect : selectBackend w.host (coordinatorConfig w.root) r = cpuBackend := by
    have hno : ([cpuBackend] : List Bytes).contains nvrtcBackend = false := by decide
    unfold selectBackend
    rw [backends_coordinatorConfig hown, hno, Bool.and_false, if_neg Bool.false_ne_true]
  have hplan : (submitPlan w.host w.root n now r).backend ≠ nvrtcBackend := by
    unfold submitPlan
    split
    · next p hp =>
      unfold plan at hp
      split at hp
      · cases hp
      · obtain rfl := Except.ok.inj hp
        simp only [hselect]
        decide
    · decide
  unfold submitOf
  simpa using hplan

/-- INTERNAL: a Submit has the key of its request. -/
theorem keyHex_submitOf : (submitOf H w r n now).keyHex = keyHexOf H w.host w.root r := by
  exact congrArg (fun key => key.toHex H) (submitKey_submitPlan w.host w.root n now r)

/-- The worker that is chosen has advertised the CPU backend, or no backend. -/
theorem advertised_of_dispatchTarget {m : DistributedCoordinator} {worker : WorkerId}
    (h : dispatchTarget m false ok = some worker) :
    ∃ caps, m.workers[worker]? = some caps ∧ advertised caps = cpuBackend := by
  have hselect : m.selectWorker false = some worker := (Option.filter_eq_some_iff.mp h).1
  obtain ⟨entry, hfind, hid⟩ := Option.map_eq_some_iff.mp hselect
  obtain ⟨id, caps⟩ := entry
  obtain rfl : id = worker := hid
  have hcapable := List.find?_some hfind
  have hmem := List.mem_of_find?_eq_some hfind
  refine ⟨caps, Std.ExtTreeMap.mem_toList_iff_getElem?_eq_some.mp hmem, ?_⟩
  simpa [capable, advertised] using hcapable

/-! ## The worker -/

/-- The CPU backend accepts the source of the request, and its artifact matches the reference. -/
def CompilesOnCpu (validate : CompilationRequest → ValidationDescriptor)
    (r : CompilationRequest) : Prop :=
  (∃ p, CpuBackend.parseSource r.source = some (.ok p)) ∧
    (validate (wireRequest r)).passed = true

/-- A worker reports a success when its CPU backend does. -/
theorem reports_success_iff (H : Bytes → Digest)
    (validate : CompilationRequest → ValidationDescriptor) (D : Dispatch) :
    (∃ stages artifactId res,
      workerReport H validate stages artifactId D = some (res, true)) ↔
      CompilesOnCpu validate D.request := by
  have hreport : ∀ stages artifactId, workerReport H validate stages artifactId D =
      (CpuBackend.parseSource D.request.source).map fun parsed =>
        workerResult H (wireRequest D.request).requestId D.key D.env.attemptId artifactId
          (CpuBackend.compile (wireRequest D.request) parsed (validate (wireRequest D.request))
            stages) := by
    intro stages artifactId
    unfold workerReport
    rw [fromJson_parse_dump, Option.bind_eq_bind, Option.bind_some]
    unfold CpuBackend.compileSource
    rw [show (wireRequest D.request).source = D.request.source from rfl]
    cases CpuBackend.parseSource D.request.source with
    | none => rfl
    | some parsed => rfl
  simp only [hreport, Option.map_eq_some_iff]
  constructor
  · rintro ⟨stages, artifactId, res, parsed, hparse, hresult⟩
    cases parsed with
    | error e => cases hresult
    | ok p => exact ⟨⟨p, hparse⟩, congrArg Prod.snd hresult⟩
  · rintro ⟨⟨p, hparse⟩, hpassed⟩
    exact ⟨[], {}, _, .ok p, hparse, Prod.ext rfl hpassed⟩

/-! ## When they agree -/

/-- The requests that admission agrees on with the planner, in a given state. -/
structure Admissible (H : Bytes → Digest) (validate : CompilationRequest → ValidationDescriptor)
    (w : Network) (r : CompilationRequest) (ok : Bool) : Prop where
  /-- A published result is returned whatever the planner says. -/
  hit : (w.coordinator.published[keyHexOf H w.host w.root r]?).isSome →
    r.backend = [] ∨ r.backend = cpuBackend ∨ r.backend = nvccBackend
  /-- The first CPU worker gets whatever is not published. -/
  miss : w.coordinator.published[keyHexOf H w.host w.root r]? = none →
    (dispatchTarget w.coordinator false ok).isSome →
    (r.backend = [] ∨ r.backend = cpuBackend) ∧
      (wantsCuda r = true → ¬ CompilesOnCpu validate r)

/-- What is to be shown of a Submit that has come to its end. -/
theorem admissionAgrees_iff_of_progress {w' : Network} {phase : SubmitPhase}
    (hserve : Network.serve H w (.submit r n now ok) = some w')
    (hprogress : Progress w w.nextSubmit (submitOf H w r n now) ok w' phase) :
    AdmissionAgrees H validate w r n now ok ↔
      ((∃ e, plan w.host (coordinatorConfig w.root) n now r = .error e) →
        (∃ code message, phase = .replied (.reject code message)) ∧
          w'.dispatches = w.dispatches) ∧
      (phase = .waiting → ∀ D, w'.dispatches w.nextSubmit = some D →
        ∃ caps, w.coordinator.workers[D.env.workerId]? = some caps ∧
          (r.backend ≠ [] → advertised caps = r.backend) ∧
          (wantsCuda r = true → advertised caps = cpuBackend →
            ∀ stages artifactId res,
              workerReport H validate stages artifactId D ≠ some (res, true))) := by
  constructor
  · intro h
    refine ⟨fun herror => ?_, fun hwaiting D hD => ?_⟩
    · obtain ⟨w₂, x, code, message, hserve₂, hx, hphase, hsame⟩ := h.rejects herror
      rw [hserve, Option.some_inj] at hserve₂
      subst hserve₂
      rw [hprogress.submit, Option.some_inj] at hx
      subst hx
      exact ⟨⟨code, message, hphase⟩, hsame⟩
    · exact h.dispatches w' _ D hserve hprogress.submit hwaiting hD
  · rintro ⟨hrejects, hdispatches⟩
    refine ⟨fun herror => ?_, fun w₂ x D hserve₂ hx hphase hD => ?_⟩
    · obtain ⟨⟨code, message, hphase⟩, hsame⟩ := hrejects herror
      exact ⟨w', _, code, message, hserve, hprogress.submit, hphase, hsame⟩
    · rw [hserve, Option.some_inj] at hserve₂
      subst hserve₂
      rw [hprogress.submit, Option.some_inj] at hx
      subst hx
      exact hdispatches hphase D hD

/-- A dispatch agrees with the planner when the request asks for the CPU, or for nothing, and no
CUDA request comes back as a success. -/
theorem dispatch_agrees_iff (hown : w.host.registered = []) {caps : Json} {D : Dispatch}
    (hrequest : D.request = r) (hcaps : w.coordinator.workers[D.env.workerId]? = some caps)
    (hcpu : advertised caps = cpuBackend) :
    ((∀ e, plan w.host (coordinatorConfig w.root) n now r ≠ .error e) ∧
      ∃ caps, w.coordinator.workers[D.env.workerId]? = some caps ∧
        (r.backend ≠ [] → advertised caps = r.backend) ∧
        (wantsCuda r = true → advertised caps = cpuBackend →
          ∀ stages artifactId res,
            workerReport H validate stages artifactId D ≠ some (res, true))) ↔
      (r.backend = [] ∨ r.backend = cpuBackend) ∧
        (wantsCuda r = true → ¬ CompilesOnCpu validate r) := by
  have hreport := reports_success_iff H validate D
  rw [hrequest] at hreport
  constructor
  · rintro ⟨-, caps', hcaps', hbackend, hsuccess⟩
    rw [hcaps, Option.some_inj] at hcaps'
    subst hcaps'
    refine ⟨?_, fun hwants hcompiles => ?_⟩
    · rw [or_iff_not_imp_left]
      intro hne
      rw [← hbackend hne, hcpu]
    · obtain ⟨stages, artifactId, res, hres⟩ := hreport.mpr hcompiles
      exact hsuccess hwants hcpu stages artifactId res hres
  · rintro ⟨hbackend, hcompiles⟩
    refine ⟨fun e herror => ?_, caps, hcaps, fun hne => ?_, ?_⟩
    · obtain ⟨hne, hnocpu, -⟩ := (plan_eq_error_iff n now hown).mp ⟨e, herror⟩
      exact hbackend.elim hne hnocpu
    · rw [hcpu, hbackend.resolve_left hne]
    · intro hwants _ stages artifactId res hres
      exact hcompiles hwants (hreport.mp ⟨stages, artifactId, res, hres⟩)

/-- Only admissible requests are handled as the planner says. -/
theorem admissible_of_agrees (hown : w.host.registered = [])
    (h : AdmissionAgrees H validate w r n now ok) : Admissible H validate w r ok := by
  obtain ⟨w', phase, hserve, hprogress, hend⟩ := progress_serve H w r n now ok
  have hcuda : (submitOf H w r n now).wantCuda = false := wantCuda_submitOf hown
  have hkey : (submitOf H w r n now).keyHex = keyHexOf H w.host w.root r := keyHex_submitOf
  obtain ⟨hrejects, hdispatch⟩ := (admissionAgrees_iff_of_progress hserve hprogress).mp h
  have hplan : (∀ code message, phase ≠ .replied (.reject code message)) →
      ∀ e, plan w.host (coordinatorConfig w.root) n now r ≠ .error e := by
    intro hphase e herror
    obtain ⟨⟨code, message, hrejected⟩, -⟩ := hrejects ⟨e, herror⟩
    exact hphase code message hrejected
  cases hprogress.reached with
  | @waiting worker hpub htarget =>
      obtain ⟨D, hD, hrequest, rfl⟩ := hprogress.sentTo htarget
      rw [hcuda] at htarget
      rw [hkey] at hpub
      obtain ⟨caps, hcaps, hcpu⟩ := advertised_of_dispatchTarget htarget
      refine ⟨fun hsome => ?_, fun _ _ => ?_⟩
      · rw [hpub] at hsome
        cases hsome
      · exact (dispatch_agrees_iff hown hrequest hcaps hcpu).mp
          ⟨hplan (by simp), hdispatch rfl D hD⟩
  | hit hpub =>
      rw [hkey] at hpub
      refine ⟨fun _ => ?_, fun hnone => ?_⟩
      · by_contra hunknown
        obtain ⟨e, herror⟩ := (plan_eq_error_iff n now hown).mpr
          (by simpa only [not_or] using hunknown)
        exact hplan (by simp) e herror
      · rw [hnone] at hpub
        cases hpub
  | rejected hpub hnone =>
      rw [hkey] at hpub
      rw [hcuda] at hnone
      refine ⟨fun hsome => ?_, fun _ hsome => ?_⟩
      · rw [hpub] at hsome
        cases hsome
      · rw [hnone] at hsome
        cases hsome
  | _ => cases hend

/-- Admissible requests are handled as the planner says. -/
theorem agrees_of_admissible (hown : w.host.registered = []) (h : Admissible H validate w r ok) :
    AdmissionAgrees H validate w r n now ok := by
  obtain ⟨w', phase, hserve, hprogress, hend⟩ := progress_serve H w r n now ok
  have hcuda : (submitOf H w r n now).wantCuda = false := wantCuda_submitOf hown
  have hkey : (submitOf H w r n now).keyHex = keyHexOf H w.host w.root r := keyHex_submitOf
  apply (admissionAgrees_iff_of_progress hserve hprogress).mpr
  cases hprogress.reached with
  | @waiting worker hpub htarget =>
      obtain ⟨D, hD, hrequest, rfl⟩ := hprogress.sentTo htarget
      rw [hcuda] at htarget
      rw [hkey] at hpub
      obtain ⟨caps, hcaps, hcpu⟩ := advertised_of_dispatchTarget htarget
      obtain ⟨hplan, hdispatch⟩ := (dispatch_agrees_iff hown hrequest hcaps hcpu).mpr
        (h.miss hpub (by rw [htarget]; rfl))
      refine ⟨fun ⟨e, herror⟩ => absurd herror (hplan e), fun _ D' hD' => ?_⟩
      rw [hD, Option.some_inj] at hD'
      subst hD'
      exact hdispatch
  | hit hpub =>
      rw [hkey] at hpub
      refine ⟨fun herror => ?_, fun hno => nomatch hno⟩
      obtain ⟨hne, hnocpu, hnonvcc⟩ := (plan_eq_error_iff n now hown).mp herror
      obtain hbackend | hbackend | hbackend := h.hit hpub
      · exact absurd hbackend hne
      · exact absurd hbackend hnocpu
      · exact absurd hbackend hnonvcc
  | rejected hpub hnone =>
      exact ⟨fun _ => ⟨⟨_, _, rfl⟩, (hprogress.unsent (by simp)).1⟩, fun hno => nomatch hno⟩
  | _ => cases hend

/-- Admission agrees with the planner exactly for the admissible requests.
SOURCE: Distributed.cpp:114-119, Distributed.cpp:247-288, Fabric.cpp:129-178 -/
theorem admissionAgrees_iff (hown : w.host.registered = []) :
    AdmissionAgrees H validate w r n now ok ↔ Admissible H validate w r ok :=
  ⟨admissible_of_agrees hown, agrees_of_admissible hown⟩

/-- A coordinator with one CPU worker. -/
def oneCpuWorker : Network :=
  ({} : Network).register { workerId := 1 } (.ofFields [("backend", .str cpuBackend)])

/-- INTERNAL: the only worker is the one that is found. -/
theorem dispatchTarget_oneCpuWorker :
    dispatchTarget oneCpuWorker.coordinator false true = some 1 := by
  decide +kernel

/-- A request for the CPU backend, with one worker that has it. -/
theorem admissionAgrees_iff_cpu :
    AdmissionAgrees (fun _ => .zero) (fun _ => {}) oneCpuWorker { backend := cpuBackend } 0 0
      true := by
  apply (admissionAgrees_iff rfl).mpr
  have hcpu : wantsCuda { backend := cpuBackend } = false := by decide
  refine ⟨fun _ => .inr (.inl rfl), fun _ _ => ⟨.inr rfl, fun hwants => ?_⟩⟩
  rw [hcpu] at hwants
  cases hwants

/-- A request for CUDA is dispatched to the CPU worker, though it cannot be planned. -/
theorem not_admissionAgrees :
    ¬ AdmissionAgrees (fun _ => .zero) (fun _ => {}) oneCpuWorker { backend := nvrtcBackend } 0 0
      true := by
  intro h
  have hmiss := (admissible_of_agrees rfl h).miss (by simp [oneCpuWorker, Network.register])
    (by rw [dispatchTarget_oneCpuWorker]; rfl)
  have hbackend := hmiss.1
  revert hbackend
  decide

end CompilationFabric.Analysis
