import CompilationFabric.Model.CpuBackend
import CompilationFabric.Model.Protocol

/-!
# The way of a result

How the result of a worker's compile travels: `CompilationResult::toJson`, the payload of a
CompileResult frame, the projection `resultFromJson` the coordinator keeps of it, and the
payload of a Result frame with its tail of artifact bytes.
-/

set_option autoImplicit false

namespace CompilationFabric.Model

open CompilationFabric.Library
open Json

/-! ## Results as JSON -/

/-- SOURCE: Core.cpp:12-79 -/
def errorCodeName : ErrorCode → Bytes
  | .Ok => ascii "Ok"
  | .InvalidArgument => ascii "InvalidArgument"
  | .InvalidSource => ascii "InvalidSource"
  | .UnsupportedIR => ascii "UnsupportedIR"
  | .CompilerMissing => ascii "CompilerMissing"
  | .BackendMissing => ascii "BackendMissing"
  | .TargetUnsupported => ascii "TargetUnsupported"
  | .ArchitectureMismatch => ascii "ArchitectureMismatch"
  | .ABIMismatch => ascii "ABIMismatch"
  | .DatatypeMismatch => ascii "DatatypeMismatch"
  | .LayoutMismatch => ascii "LayoutMismatch"
  | .ShapeMismatch => ascii "ShapeMismatch"
  | .QuantizationMismatch => ascii "QuantizationMismatch"
  | .PrecisionMismatch => ascii "PrecisionMismatch"
  | .InvalidSpecialization => ascii "InvalidSpecialization"
  | .InvalidKey => ascii "InvalidKey"
  | .MalformedKey => ascii "MalformedKey"
  | .MalformedFrame => ascii "MalformedFrame"
  | .ProtocolVersionMismatch => ascii "ProtocolVersionMismatch"
  | .UnknownMessageType => ascii "UnknownMessageType"
  | .FrameTooLarge => ascii "FrameTooLarge"
  | .TruncatedFrame => ascii "TruncatedFrame"
  | .StaleEpoch => ascii "StaleEpoch"
  | .StaleWorkerBoot => ascii "StaleWorkerBoot"
  | .StaleGeneration => ascii "StaleGeneration"
  | .StaleAttempt => ascii "StaleAttempt"
  | .StaleArtifact => ascii "StaleArtifact"
  | .DuplicateCompletion => ascii "DuplicateCompletion"
  | .DuplicateRequest => ascii "DuplicateRequest"
  | .DuplicateAttempt => ascii "DuplicateAttempt"
  | .DuplicateArtifact => ascii "DuplicateArtifact"
  | .ObsoleteAttempt => ascii "ObsoleteAttempt"
  | .InvalidStateTransition => ascii "InvalidStateTransition"
  | .LifecycleConflict => ascii "LifecycleConflict"
  | .ArtifactCorrupt => ascii "ArtifactCorrupt"
  | .ArtifactTruncated => ascii "ArtifactTruncated"
  | .ArtifactInvalid => ascii "ArtifactInvalid"
  | .MetadataCorrupt => ascii "MetadataCorrupt"
  | .PersistenceFailure => ascii "PersistenceFailure"
  | .PersistenceVersionUnknown => ascii "PersistenceVersionUnknown"
  | .TrailingGarbage => ascii "TrailingGarbage"
  | .PolicyRejected => ascii "PolicyRejected"
  | .NotDeployable => ascii "NotDeployable"
  | .NotValid => ascii "NotValid"
  | .ConcurrentModification => ascii "ConcurrentModification"
  | .ReentrancyLocked => ascii "ReentrancyLocked"
  | .NoBackend => ascii "NoBackend"
  | .NoToolchain => ascii "NoToolchain"
  | .NotFound => ascii "NotFound"
  | .Internal => ascii "Internal"
  | .NotImplemented => ascii "NotImplemented"
  | .ValidationFailed => ascii "ValidationFailed"
  | .LoadFailed => ascii "LoadFailed"
  | .ExecutionFailed => ascii "ExecutionFailed"
  | .BuildFailed => ascii "BuildFailed"
  | .Cancelled => ascii "Cancelled"
  | .IOError => ascii "IOError"
  | .Timeout => ascii "Timeout"
  | .GenerationRollback => ascii "GenerationRollback"
  | .NoActiveUsers => ascii "NoActiveUsers"
  | .LeaseUnderflow => ascii "LeaseUnderflow"
  | .RaceDetected => ascii "RaceDetected"
  | .OverSizedFrame => ascii "OverSizedFrame"

/-- SOURCE: Request.cpp:188-192 -/
def AutotuneCandidate.toJson (a : AutotuneCandidate) : Json :=
  ofFields
    [("variant_id", .str a.variantId), ("flags", a.flags), ("validated", .boolean a.validated),
      ("perf_ms", .number (Binary64.ofRat a.perfMs)), ("artifact_id", .str a.artifactId.toHex),
      ("reason", .str a.reason)]

def CompilationResult.members (H : Bytes → Digest) (r : CompilationResult) :
    List (String × Json) :=
  [("request_id", .str r.requestId.toHex), ("plan_id", .str r.planId.toHex),
    ("attempt_id", .str r.attemptId.toHex), ("artifact_id", .str r.artifactId.toHex),
    ("generation", ofU64 r.generation), ("key", .str (r.key.toHex H)),
    ("artifact", r.artifact.toJson), ("reused", .boolean r.reused),
    ("validated", .boolean r.validated), ("deployable", .boolean r.deployable),
    ("reference_matched", .boolean r.referenceMatched),
    ("compatibility_decision", .str r.compatibilityDecision),
    ("error", .str (errorCodeName r.error)), ("error_message", .str r.errorMessage),
    ("compile_ms", ofI64 r.compileMs), ("total_ms", ofI64 r.totalMs),
    ("backend_used", .str r.backendUsed), ("autotuned", .boolean r.autotuned),
    ("autotune_winner", .str r.autotuneWinner),
    ("autotune_candidates", .array (r.autotuneCandidates.map AutotuneCandidate.toJson))]

/-- SOURCE: Request.cpp:166-196 -/
def CompilationResult.toJson (H : Bytes → Digest) (r : CompilationResult) : Json :=
  ofFields (r.members H)

/-- The fields that the coordinator keeps.
SOURCE: Distributed.cpp:22-35 -/
def resultFromJson (j : Json) : CompilationResult :=
  { requestId := (TypedId.parse (jstr j "request_id")).getD {}
    attemptId := (TypedId.parse (jstr j "attempt_id")).getD {}
    artifactId := (TypedId.parse (jstr j "artifact_id")).getD {}
    generation := jnum j "generation"
    artifact := ((j.get "artifact").bind ArtifactDescriptor.fromJson).getD {}
    validated := jbool j "validated"
    deployable := jbool j "deployable"
    referenceMatched := jbool j "reference_matched"
    backendUsed := jstr j "backend_used"
    errorMessage := jstr j "error_message" }

/-! ## Payloads -/

/-- SOURCE: Distributed.cpp:14 -/
def kEnvSize : ℕ := 8 + 4 + 16 + 8 + 8 + 16 + 16 + 16 + 8

/-- The envelope that a payload begins with, or an empty one.
SOURCE: Distributed.cpp:15-21 -/
def readEnv (payload : Bytes) : ProtoEnvelope :=
  if payload.length < kEnvSize then {}
  else match ProtoEnvelope.decode (payload.take kEnvSize) with
    | .ok e => e
    | .error _ => {}

/-- SOURCE: Protocol.cpp:187-194 -/
def encodeCompileResult (env : ProtoEnvelope) (success : Bool) (result : Json) : Bytes :=
  env.encode ++ CanonicalWriter.u8 (if success then 1 else 0) ++ CanonicalWriter.string result.dump

/-- The result and the success flag.
SOURCE: Protocol.cpp:195-205 -/
def decodeCompileResult (payload : Bytes) : Throwing (Json × Bool) := do
  let (_, _, r) := readEnvelope ⟨payload, 0⟩ {}
  match r.u8 with
  | none => return (.object [], false)
  | some (s, r) =>
      let success := s ≠ 0
      match ← r.str with
      | none => return (.object [], success)
      | some (res, _) => return ((Json.parse res).getD (.object []), success)

/-- SOURCE: Protocol.cpp:207-215 -/
def encodeResult (H : Bytes → Digest) (env : ProtoEnvelope) (result : CompilationResult) : Bytes :=
  env.encode ++ CanonicalWriter.string (result.toJson H).dump ++
    CanonicalWriter.u64 (UInt64.ofNat result.artifactBytes.length) ++ result.artifactBytes

/-- SOURCE: Protocol.cpp:216-240 -/
def decodeResult (payload : Bytes) : Throwing (Result CompilationResult) := do
  let (_, _, r) := readEnvelope ⟨payload, 0⟩ {}
  match ← r.str with
  | none => return Err .MalformedFrame (ascii "truncated result json")
  | some (rjson, r) =>
      match Json.parse rjson with
      | none => return Err .MalformedFrame (ascii "result JSON parse failed")
      | some j =>
          let res : CompilationResult :=
            { requestId := (TypedId.parse (jstr j "request_id")).getD {}
              planId := (TypedId.parse (jstr j "plan_id")).getD {}
              attemptId := (TypedId.parse (jstr j "attempt_id")).getD {}
              artifactId := (TypedId.parse (jstr j "artifact_id")).getD {}
              generation := jnum j "generation"
              artifact := ((j.get "artifact").bind ArtifactDescriptor.fromJson).getD {}
              reused := jbool j "reused"
              validated := jbool j "validated"
              deployable := jbool j "deployable"
              referenceMatched := jbool j "reference_matched"
              backendUsed := jstr j "backend_used" }
          match r.u64 with
          | none => return Err .MalformedFrame (ascii "truncated artifact len")
          | some (byteLen, r) =>
              match r.rawBlob byteLen.toNat with
              | none => return Err .MalformedFrame (ascii "truncated artifact bytes")
              | some (ab, _) =>
                  if ab.length ≠ byteLen.toNat then
                    return Err .MalformedFrame (ascii "truncated artifact bytes")
                  else return .ok { res with artifactBytes := ab }

/-! ## Frames -/

/-- SOURCE: Protocol.hpp:24-37 -/
inductive MsgType where
  | Register | Capabilities | Submit | DispatchCompile | CompileResult | Result | CacheHit
  | Invalidate | Heartbeat | Shutdown | Reject | Control
  deriving DecidableEq, Repr

/-- `static_cast<uint32_t>(f.type)`; the values start at 1. -/
def MsgType.toUInt32 (t : MsgType) : UInt32 := UInt32.ofNat (t.ctorIdx + 1)

/-- SOURCE: Protocol.hpp:48-53 -/
structure ProtoFrame where
  type : MsgType := .Heartbeat
  flags : UInt32 := 0
  seq : UInt32 := 0
  payload : Bytes := []

def kProtocolVersion : UInt32 := 1
def kMaxFrameSize : ℕ := 2 ^ 20

/-- SOURCE: Protocol.cpp:56-65 -/
def encodeFrameBody (f : ProtoFrame) : Bytes :=
  CanonicalWriter.u32 kProtocolVersion ++ CanonicalWriter.u32 f.type.toUInt32 ++
    CanonicalWriter.u32 f.flags ++ CanonicalWriter.u32 f.seq ++ CanonicalWriter.string f.payload

/-- The frames that `sendFrame` does not refuse for their size.
SOURCE: Protocol.cpp:356-365 -/
def Sendable (f : ProtoFrame) : Prop := (encodeFrameBody f).length ≤ kMaxFrameSize

instance (f : ProtoFrame) : Decidable (Sendable f) := inferInstanceAs (Decidable (_ ≤ _))

/-- INTERNAL: the payload of a frame that can be sent fits into the address space. -/
theorem length_payload_of_sendable {f : ProtoFrame} (h : Sendable f) :
    f.payload.length < sizeMod := by
  simp only [Sendable, encodeFrameBody, List.length_append, CanonicalWriter.length_u32,
    CanonicalWriter.length_string, kMaxFrameSize] at h
  simp only [sizeMod]
  omega

/-! ## The worker -/

/-- The result a worker reports of one dispatch, and its success flag; `artifactId` comes from
the clock.
SOURCE: Distributed.cpp:78-99 -/
def workerResult (H : Bytes → Digest) (requestId : CompilationRequestId) (key : CompilationKey)
    (attemptId : CompilationAttemptId) (artifactId : ArtifactId) (compiled : Result BackendOutput) :
    CompilationResult × Bool :=
  match compiled with
  | .error _ => ({}, false)
  | .ok bo =>
      ({ requestId := requestId
         key := key
         attemptId := attemptId
         artifactId := artifactId
         generation := 1
         validated := bo.validation.passed
         deployable := bo.validation.passed
         referenceMatched := bo.validation.referenceComparison
         backendUsed := cpuBackend
         artifactBytes := bo.executable
         artifact :=
           { backend := bo.backend
             specialization := bo.specialization
             validation := bo.validation
             contentDigest := H bo.executable }
         error := if bo.validation.passed then .Ok else .ValidationFailed },
        bo.validation.passed)

end CompilationFabric.Model
