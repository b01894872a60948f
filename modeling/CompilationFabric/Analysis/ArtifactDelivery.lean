import CompilationFabric.Interface.ResultWire

/-!
# Delivery of the artifact

What a client obtains of a worker's result.  The coordinator keeps the JSON of the result, in
which the artifact's bytes do not appear, and `resultFromJson` makes of it a result without
bytes; so the tail of every Result frame is empty (`Obtains.artifactBytes_eq`), and an
executable never is.
-/

set_option autoImplicit false

namespace CompilationFabric.Analysis

open CompilationFabric.Interface
open CompilationFabric.Model

-- kept folded, or elaboration runs it on a result's members
attribute [local irreducible] Printable

variable {H : Bytes → Digest} {outEnv rEnv : ProtoEnvelope} {reused : Bool}

/-! ## The way to the client -/

/-- The coordinator's answer from what it keeps of a result: for the client that waits for it,
or for one whose Submit finds it published.
SOURCE: Distributed.cpp:211, Distributed.cpp:258-261 -/
def replyOf (kept : Json) (reused : Bool) : CompilationResult :=
  { resultFromJson kept with reused }

/-- INTERNAL: a reply has the artifact of the JSON that was kept. -/
theorem artifact_replyOf (kept : Json) (reused : Bool) :
    (replyOf kept reused).artifact = (resultFromJson kept).artifact := rfl

/-- A client obtains `got` when the worker reports `sent`: both frames are sent, both payloads
decode, and the coordinator takes the report for a success.  The answer is a Result frame, as
`resultFromJson` leaves the error at `Ok`. -/
def Obtains (H : Bytes → Digest) (outEnv rEnv : ProtoEnvelope) (sent : CompilationResult × Bool)
    (reused : Bool) (got : CompilationResult) : Prop :=
  let report := encodeCompileResult outEnv sent.2 (sent.1.toJson H)
  Sendable { type := .CompileResult, payload := report } ∧
    ∃ kept, decodeCompileResult report = .ok (kept, true) ∧
      let reply := encodeResult H rEnv (replyOf kept reused)
      Sendable { type := .Result, payload := reply } ∧ decodeResult reply = .ok (.ok got)

/-- Whatever the worker reports, the client obtains no bytes. -/
theorem Obtains.artifactBytes_eq {sent : CompilationResult × Bool} {got : CompilationResult}
    (h : Obtains H outEnv rEnv sent reused got) : got.artifactBytes = [] := by
  obtain ⟨-, kept, -, hsend, hdecode⟩ := h
  obtain ⟨res, hres, -, hbytes⟩ := decodeResult_encodeResult H rEnv (r := replyOf kept reused) rfl
    (length_payload_of_sendable hsend)
  have heq : res = got := by
    rw [hdecode] at hres
    exact (Except.ok.inj (Except.ok.inj hres)).symm
  rw [← heq, hbytes]
  rfl

/-- A success is delivered when both frames are small enough to send. -/
theorem exists_obtains {sent : CompilationResult} (hcandidates : sent.autotuneCandidates = [])
    (hreport : Sendable
      { type := .CompileResult, payload := encodeCompileResult outEnv true (sent.toJson H) })
    (hreply : Sendable
      { type := .Result, payload := encodeResult H rEnv (replyOf (reread (sent.toJson H)) reused) }) :
    ∃ got, Obtains H outEnv rEnv (sent, true) reused got := by
  have hkept := decodeCompileResult_encodeCompileResult outEnv true
    (printable_result H hcandidates) (length_payload_of_sendable hreport)
  obtain ⟨got, hgot, -, -⟩ := decodeResult_encodeResult H rEnv
    (r := replyOf (reread (sent.toJson H)) reused) rfl (length_payload_of_sendable hreply)
  exact ⟨got, hreport, _, hkept, hreply, hgot⟩

/-! ## The executable -/

variable {r : CompilationRequest} {parsed : Result CpuProgram} {validation : ValidationDescriptor}
  {stages : List StageResult} {bo : BackendOutput} {requestId : CompilationRequestId}
  {key : CompilationKey} {attemptId : CompilationAttemptId} {artifactId : ArtifactId}

/-- The client of a compile by a worker obtains the worker's executable, under its digest. -/
def Delivered (H : Bytes → Digest) (outEnv rEnv : ProtoEnvelope) (sent : CompilationResult × Bool)
    (reused : Bool) (bo : BackendOutput) : Prop :=
  ∃ got, Obtains H outEnv rEnv sent reused got ∧ got.artifactBytes = bo.executable

/-- No client obtains the executable of any compile, in a fresh reply or in a later one.
SOURCE: Distributed.cpp:22-35, Distributed.cpp:83-103, Protocol.cpp:187-240,
Request.cpp:166-196 -/
theorem not_delivered (hcompile : CpuBackend.compile r parsed validation stages = .ok bo) :
    ¬ Delivered H outEnv rEnv (workerResult H requestId key attemptId artifactId (.ok bo))
      reused bo := by
  rintro ⟨got, hobtains, hbytes⟩
  obtain ⟨p, hp⟩ := CpuBackend.executable_of_compile hcompile
  have hempty : CpuBackend.encode p = [] := by
    rw [← hp, ← hbytes]
    exact hobtains.artifactBytes_eq
  exact CpuBackend.encode_ne_nil p hempty

/-! ## A delivered result -/

/-- The worker's output for a program that negates its input. -/
def negation : BackendOutput :=
  match CpuBackend.compile {} (.ok { ops := [{ kind := .Neg }] }) { passed := true } [] with
  | .ok bo => bo
  | .error _ => {}

/-- INTERNAL: a negation is compiled to bytecode. -/
theorem compile_negation :
    CpuBackend.compile {} (.ok { ops := [{ kind := .Neg }] }) { passed := true } [] =
      .ok negation := rfl

/-- The result that the worker reports of it. -/
def negationResult : CompilationResult :=
  (workerResult (fun _ => .zero) {} {} {} {} (.ok negation)).1

/-- The worker's report of it fits into a frame. -/
theorem sendable_report : Sendable
    { type := .CompileResult
      payload := encodeCompileResult {} true (negationResult.toJson fun _ => .zero) } :=
  sendable_compileResult _ _ _ (by decide +kernel)

/-- So does the coordinator's reply. -/
theorem sendable_reply : Sendable
    { type := .Result
      payload := encodeResult (fun _ => .zero) {}
        (replyOf (reread (negationResult.toJson fun _ => .zero)) false) } := by
  apply sendable_result
  rw [resultSize, artifact_replyOf, artifact_resultFromJson]
  decide +kernel

/-- The bytecode of a negation does not arrive with its descriptor. -/
theorem not_delivered_negation :
    CpuBackend.compile {} (.ok { ops := [{ kind := .Neg }] }) { passed := true } [] =
      .ok negation ∧
    ¬ Delivered (fun _ => .zero) {} {}
      (workerResult (fun _ => .zero) {} {} {} {} (.ok negation)) false negation :=
  ⟨compile_negation, not_delivered compile_negation⟩

/-- The negation is compiled and validated, and its client obtains a result, without bytes. -/
theorem obtains_without_bytes :
    ∃ bo got, CpuBackend.compile {} (.ok { ops := [{ kind := .Neg }] }) { passed := true } [] =
        .ok bo ∧
      Obtains (fun _ => .zero) {} {} (workerResult (fun _ => .zero) {} {} {} {} (.ok bo)) false
        got ∧
      got.artifactBytes ≠ bo.executable := by
  obtain ⟨got, hgot⟩ := exists_obtains
    (show negationResult.autotuneCandidates = [] from rfl) sendable_report sendable_reply
  refine ⟨negation, got, compile_negation, hgot, ?_⟩
  rw [hgot.artifactBytes_eq]
  obtain ⟨p, hp⟩ := CpuBackend.executable_of_compile compile_negation
  rw [hp]
  exact (CpuBackend.encode_ne_nil p).symm

end CompilationFabric.Analysis
