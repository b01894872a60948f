import CompilationFabric.Model.Coordinator
import CompilationFabric.Model.CpuSource

/-!
# Frames handled one at a time

`Network.serve` handles one frame to its end before the next one: a Submit until its client
waits or has its reply, a CompileResult until the handler is back at its loop.  It takes the
steps of `Network.step` in the order of the thread that handles the frame.
-/

set_option autoImplicit false

namespace CompilationFabric.Model

/-- The next step of the thread of a Submit; `ok` is the channel's answer to the dispatch. -/
def SubmitPhase.next (s : SubmitId) (ok : Bool) : SubmitPhase → Option NetworkEvent
  | .bound => some (.lookup s)
  | .missed => some (.select s)
  | .selected _ => some (.pend s)
  | .stamping _ _ => some (.stamp s)
  | .stamped _ => some (.findChannel s)
  | .sending _ _ => some (.send s ok)
  | .failed _ _ => some (.giveUp s)
  | .waiting | .replied _ => none

/-- The next step of the handler of a worker connection, with a frame at hand. -/
def ConnPhase.next (c : ConnId) : ConnPhase → Option NetworkEvent
  | .checking _ .registry => some (.authorize c)
  | .checking _ _ => some (.check c)
  | .accepted _ => some (.resolve c)
  | .keyed _ _ => some (.publish c)
  | .idle | .ended => none

namespace Network

/-- A thread runs until it has no next step. -/
def drain (H : Bytes → Digest) (next : Network → Option NetworkEvent) : ℕ → Network →
    Option Network
  | 0, w => some w
  | n + 1, w =>
      match next w with
      | none => some w
      | some e => (step H w e).bind (drain H next n)

/-- The longest ways of a Submit and of a CompileResult frame. -/
def submitSteps : ℕ := 10
def completionSteps : ℕ := 6

/-- The next step of the Submit with a given number. -/
def nextOfSubmit (s : SubmitId) (ok : Bool) (w : Network) : Option NetworkEvent :=
  (w.submits s).bind fun x => x.phase.next s ok

/-- The next step of the handler of a connection. -/
def nextOfConn (c : ConnId) (w : Network) : Option NetworkEvent :=
  (w.conns c).bind fun x => x.phase.next c

end Network

/-- A frame that the coordinator handles, or a client that is answered. -/
inductive CoordinatorFrame where
  | submit (request : CompilationRequest) (planCounter : UInt64) (now : Int64) (ok : Bool)
  | answer (s : SubmitId)
  | invalidate (r : CompilationRequestId)
  | rollEpoch
  | bumpCacheGeneration
  | bumpToolchainGeneration
  | register (env : ProtoEnvelope) (caps : Json)
  | completion (c : ConnId) (f : Completion)
  | lost (c : ConnId)
  | shutdown (c : ConnId)

/-- One frame, from its arrival to the end of its handling. -/
def Network.serve (H : Bytes → Digest) (w : Network) : CoordinatorFrame → Option Network
  | .submit r n now ok =>
      drain H (nextOfSubmit w.nextSubmit ok) submitSteps (w.submit H r n now)
  | .answer s => step H w (.wake s)
  | .invalidate r => step H w (.invalidate r)
  | .rollEpoch => step H w .rollEpoch
  | .bumpCacheGeneration => step H w .bumpCacheGeneration
  | .bumpToolchainGeneration => step H w .bumpToolchainGeneration
  | .register env caps => step H w (.register env caps)
  | .completion c f => (step H w (.receive c f)).bind (drain H (nextOfConn c) completionSteps)
  | .lost c => step H w (.lost c)
  | .shutdown c => step H w (.shutdown c)

/-- What a worker reports of a dispatch, with its success flag.  Whatever it has advertised, it
compiles what the JSON keeps of the request with its CPU backend; `validate` is what running the
artifact against the reference shows.
SOURCE: Distributed.cpp:69-104 -/
def workerReport (H : Bytes → Digest) (validate : CompilationRequest → ValidationDescriptor)
    (stages : List StageResult) (artifactId : ArtifactId) (D : Dispatch) :
    Option (CompilationResult × Bool) := do
  let req ← (Json.parse D.request.toJson.dump).bind CompilationRequest.fromJson
  let compiled ← CpuBackend.compileSource req (validate req) stages
  some (workerResult H req.requestId D.key D.env.attemptId artifactId compiled)

end CompilationFabric.Model
