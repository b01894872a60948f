import CompilationFabric.Model.Planning
import CompilationFabric.Model.ResultProtocol

/-!
# The state of a coordinator

The maps and counters of `DistributedCoordinator`, the Submit frames and the worker
connections that its threads are handling, and the frames that are under way to the workers.

Every Submit frame is handled on its own: a client sends the next one on a connection only
when it has the reply, so several frames in flight mean several connections.  A thread gives
up the lock, or reads a counter without it, at the points where its `SubmitPhase` or its
`ConnPhase` changes.  A promise goes by the number of the Submit that made it.

Four fields keep history that no operation reads: the dispatches that were answered, the
attempts that are open, and which publication put an entry where it is.
-/

set_option autoImplicit false

namespace CompilationFabric.Model

abbrev WorkerId := UInt32

/-- The number of a Submit frame, in the order of arrival. -/
abbrev SubmitId := ℕ

/-- The number of a worker connection, in the order of the Register frames. -/
abbrev ConnId := ℕ

/-! ## The coordinator -/

/-- SOURCE: Distributed.hpp:67-84 -/
structure DistributedCoordinator where
  epoch : UInt64 := 1
  cacheGen : UInt64 := 1
  toolchainGen : UInt64 := 1
  workers : Std.ExtTreeMap WorkerId Json compare := ∅
  workerChannels : Std.ExtTreeMap WorkerId ConnId compare := ∅
  pending : Std.ExtTreeMap Bytes SubmitId compare := ∅
  reqToKey : Std.ExtTreeMap Bytes Bytes compare := ∅
  published : Std.ExtTreeMap Bytes Json compare := ∅
  artifactGen : Std.ExtTreeMap Bytes UInt64 compare := ∅
  completed : UInt64 := 0
  rejectedStale : UInt64 := 0
  dispatched : UInt64 := 0
  duplicateSuppressed : UInt64 := 0

/-! ## Submit frames -/

/-- What a client is sent. -/
inductive Reply where
  | result (res : CompilationResult)
  | reject (code : ErrorCode) (message : Bytes)

/-- The fields of a dispatch's envelope, in the order they are filled in.
SOURCE: Distributed.cpp:283-284 -/
inductive Stamp where
  | epoch | cacheGen | toolchainGen | attemptId
  deriving DecidableEq, Repr

/-- The progress of one Submit frame.
SOURCE: Distributed.cpp:227-296 -/
inductive SubmitPhase where
  /-- The request id is bound to the key; the lookup is next. -/
  | bound
  /-- Nothing is published under the key. -/
  | missed
  | selected (worker : WorkerId)
  /-- The promise is pending; the envelope still lacks the given field. -/
  | stamping (env : ProtoEnvelope) (next : Stamp)
  | stamped (env : ProtoEnvelope)
  | sending (env : ProtoEnvelope) (channel : ConnId)
  /-- The dispatch has failed; its pending entry is removed next. -/
  | failed (code : ErrorCode) (message : Bytes)
  | waiting
  | replied (reply : Reply)

/-- A Submit frame that is being handled. -/
structure Submit where
  request : CompilationRequest
  wantCuda : Bool
  key : CompilationKey
  keyHex : Bytes
  phase : SubmitPhase

/-- A DispatchCompile frame that was sent. -/
structure Dispatch where
  channel : ConnId
  env : ProtoEnvelope
  request : CompilationRequest
  key : CompilationKey

/-! ## Worker connections -/

/-- A CompileResult frame. -/
structure Completion where
  env : ProtoEnvelope
  success : Bool := true
  result : Json
  /-- INTERNAL: the dispatch that the worker compiled. -/
  answers : Option SubmitId := none

/-- The parts of `rejectStalePublication` that read one counter or take the lock.
SOURCE: Distributed.cpp:161-177 -/
inductive AuthorityCheck where
  | epoch | cacheGen | toolchainGen | registry
  deriving DecidableEq, Repr

/-- The progress of one worker connection.
SOURCE: Distributed.cpp:179-216 -/
inductive ConnPhase where
  /-- Waiting for the next frame. -/
  | idle
  | checking (f : Completion) (next : AuthorityCheck)
  /-- The frame has passed every check and reports a success. -/
  | accepted (f : Completion)
  | keyed (f : Completion) (pubKey : Bytes)
  | ended

/-- A worker connection, by the envelope it registered with. -/
structure WorkerConn where
  env : ProtoEnvelope
  phase : ConnPhase

/-- The handler of the connection has not returned. -/
def ConnPhase.running : ConnPhase → Bool
  | .ended => false
  | _ => true

/-- The frame that is being handled. -/
def ConnPhase.frame : ConnPhase → Option Completion
  | .checking f _ => some f
  | .accepted f => some f
  | .keyed f _ => some f
  | _ => none

/-- The frame that has passed `rejectStalePublication`. -/
def ConnPhase.authorized : ConnPhase → Option Completion
  | .accepted f => some f
  | .keyed f _ => some f
  | _ => none

/-! ## The whole -/

/-- One dispatch, as an envelope names it. -/
structure Attempt where
  requestId : CompilationRequestId
  attemptId : CompilationAttemptId
  workerId : WorkerId
  deriving DecidableEq

/-- The attempt that an envelope names. -/
def ProtoEnvelope.attempt (env : ProtoEnvelope) : Attempt :=
  ⟨env.requestId, env.attemptId, env.workerId⟩

/-- Where an entry of `published_` comes from. -/
structure Publication where
  number : ℕ
  answers : Option SubmitId

/-- A coordinator with its clients and its workers. -/
structure Network where
  host : Host := {}
  root : Bytes := []
  coordinator : DistributedCoordinator := {}
  submits : SubmitId → Option Submit := fun _ => none
  nextSubmit : SubmitId := 0
  promises : SubmitId → Option CompilationResult := fun _ => none
  dispatches : SubmitId → Option Dispatch := fun _ => none
  conns : ConnId → Option WorkerConn := fun _ => none
  nextConn : ConnId := 0
  /-- INTERNAL: the dispatches whose answer has been handled. -/
  processed : SubmitId → Bool := fun _ => false
  /-- INTERNAL: the dispatches that no completion was accepted for, the latest first. -/
  attempts : List Attempt := []
  /-- INTERNAL: the publication an entry comes from. -/
  publications : Bytes → Option Publication := fun _ => none
  publicationCount : ℕ := 0

namespace Network

/-- A coordinator before its first connection.
SOURCE: Distributed.cpp:115-120 -/
def init (host : Host) (root : Bytes) (epoch cacheGen toolchainGen : UInt64) : Network :=
  { host, root, coordinator := { epoch, cacheGen, toolchainGen } }

/-- The Submit moves on. -/
def setPhase (w : Network) (s : SubmitId) (x : Submit) (phase : SubmitPhase) : Network :=
  { w with submits := Function.update w.submits s (some { x with phase }) }

/-- The worker connection moves on. -/
def setConn (w : Network) (c : ConnId) (x : WorkerConn) (phase : ConnPhase) : Network :=
  { w with conns := Function.update w.conns c (some { x with phase }) }

end Network

end CompilationFabric.Model
