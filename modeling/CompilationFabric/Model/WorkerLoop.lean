import CompilationFabric.Model.CpuValidation
import CompilationFabric.Model.Dispatch

/-!
# The loop of a worker

`DistributedWorker::run` behind its registration.  An iteration takes what `recvFrame` returns and
what the clock says, and leaves frames to send; whether they can be sent is not looked at.

The payload of a dispatch is used as if it had been decoded: `dr->first` of a `Result` without a
value throws a `logic_error`, which nothing catches.  Nor is a `bad_alloc` caught: an execution of the
compiled program takes two vectors of as many numbers as the request's shape says.  Whether there is
the memory for them, and how deep the parser may call itself, is for the machine to say, and a turn
takes it from there.
-/

set_option autoImplicit false

namespace CompilationFabric.Model

namespace Json

/-- How deep the arrays and objects of a text stand in one another, behind a part that has left
`depth` of them open and may have ended within a string. -/
def nestingFrom (inString : Bool) (depth : ℕ) (s : Bytes) : ℕ :=
  match s with
  | [] => depth
  | c :: s =>
      if inString then
        if c = backslash then
          match s with
          | [] => depth
          | e :: s =>
              if e = letterU then
                match s with
                | _ :: _ :: _ :: _ :: s => nestingFrom true depth s
                | _ => depth
              else nestingFrom true depth s
        else nestingFrom (c ≠ quote) depth s
      else if c = openBrace ∨ c = openBracket then
        max (depth + 1) (nestingFrom false (depth + 1) s)
      else if c = closeBrace ∨ c = closeBracket then nestingFrom false (depth - 1) s
      else nestingFrom (c = quote) depth s

/-- How many calls of `parseObject` and `parseArray` stand in one another for a text that is
accepted; for any other text there are no more.
SOURCE: Json.cpp:74-122 -/
def nesting (text : Bytes) : ℕ := nestingFrom false 0 text

example : nesting (ascii "\x7b\"a\":[[1],\"[\\\"[[\"]\x7d") = 3 := by decide +kernel

end Json

namespace CpuBackend

/-- The vectors `in` and `out` of an execution.
SOURCE: CpuBackend.cpp:176, 189-190 -/
def allocateVectors (allocates : UInt32 → Bool) (p : StoredProgram) : Throwing Unit :=
  if allocates (elementCount p.shapeN) then return () else throw .badAlloc

/-- The vectors of the check: of what the artifact decodes to, and of the reference.
SOURCE: CpuBackend.cpp:316-320 -/
def allocateCheck (allocates : ℕ → UInt32 → Bool) (prog : CpuProgram) : Throwing Unit := do
  match ← decode (encode prog) with
  | .error _ => return ()
  | .ok dec =>
      allocateVectors (allocates 0) dec
      allocateVectors (allocates 1) prog.stored

end CpuBackend

/-- `CpuBackend::compile` with the check of what it has compiled, in the `double`s of the machine;
none where `parseSource` is not defined.  The last execution is for the digest of the reference.
SOURCE: CpuBackend.cpp:270-362 -/
def Doubles.compileChecked {V : Type} (F : Doubles V) (allocates : ℕ → UInt32 → Bool)
    (r : CompilationRequest) (durationMs : Int64) (stages : List StageResult) :
    Option (Throwing (Result BackendOutput)) :=
  (CpuBackend.parseSource r.source).map fun parsed =>
    match parsed with
    | .error e => return .error e
    | .ok p => do
        let prog := CpuBackend.optimize r (CpuBackend.specialize r p)
        CpuBackend.allocateCheck allocates prog
        let v ← F.checkCompiled (V := V) r prog durationMs
        CpuBackend.allocateVectors (allocates 2) prog.stored
        return CpuBackend.compile r (.ok p) v.descriptor stages

/-- SOURCE: Distributed.hpp:28-37 -/
structure DistributedWorker where
  id : UInt32
  boot : WorkerBootId

/-- What an iteration takes from outside. -/
structure WorkerTurn where
  /-- What `recvFrame` returns. -/
  received : Result ProtoFrame
  /-- `recvFrame` refuses larger frames. -/
  fits : ∀ f, received = .ok f → Sendable f
  nanos : UInt64
  durationMs : Int64
  stages : List StageResult
  /-- The stack of the worker holds that many calls of the parser in one another. -/
  stackHolds : ℕ → Bool
  /-- The vectors of that many numbers can be allocated, for each execution of the iteration. -/
  allocates : ℕ → UInt32 → Bool

/-- Where the loop is, or how it was left. -/
inductive WorkerStatus where
  | running
  | returned (code : Int32)
  /-- An exception of a function that `run` calls. -/
  | threw (e : CxxException)
  /-- The `logic_error` of `Result::value`, with its message. -/
  | noValue (message : Bytes)
  /-- What the program does is not defined. -/
  | undefined

/-- SOURCE: Core.hpp:113-123 -/
def valueOf {α : Type} : Result α → Except WorkerStatus α
  | .ok v => .ok v
  | .error e => .error (.noValue (ascii "Result::value() on non-ok result: " ++ e.message))

namespace DistributedWorker

variable {V : Type} (F : Doubles V) (H : Bytes → Digest) (w : DistributedWorker)

/-- The frame that answers a dispatch.
SOURCE: Distributed.cpp:102-105 -/
def answer (dispEnv : ProtoEnvelope) (req : CompilationRequest)
    (report : CompilationResult × Bool) : ProtoFrame :=
  let outEnv : ProtoEnvelope :=
    { epoch := dispEnv.epoch
      workerId := w.id
      bootId := w.boot
      cacheGen := dispEnv.cacheGen
      toolchainGen := dispEnv.toolchainGen
      requestId := req.requestId
      attemptId := dispEnv.attemptId
      artifactId := report.1.artifactId
      artifactGen := report.1.generation }
  { type := .CompileResult
    payload := encodeCompileResult outEnv report.2 (report.1.toJson H) }

/-- The text that `decodeDispatch` gives to `Json::parse`.
SOURCE: Protocol.cpp:172-176 -/
def requestText (payload : Bytes) : Option Bytes :=
  match (readEnvelope ⟨payload, 0⟩ {}).2.2.str with
  | .ok (some (reqJson, _)) => some reqJson
  | _ => none

/-- SOURCE: Distributed.cpp:74-105 -/
def dispatch (t : WorkerTurn) (payload : Bytes) : Except WorkerStatus ProtoFrame := do
  let dispEnv := readEnv payload
  if (requestText payload).any fun text => !t.stackHolds (Json.nesting text) then
    throw .undefined
  let dr ← (decodeDispatch payload).mapError .threw
  let (req, key) ← valueOf dr
  match F.compileChecked t.allocates req t.durationMs t.stages with
  | none => .error .undefined
  | some compiled =>
      let bo ← compiled.mapError .threw
      let artifactId := TypedId.fromU64 (t.nanos &&& 0x7FFFFFFFFFFFFFFF)
      return w.answer H dispEnv req
        (workerResult H req.requestId key dispEnv.attemptId artifactId bo)

/-- An iteration: where it leaves the loop, and the frames it sends.
SOURCE: Distributed.cpp:67-106 -/
def iterate (t : WorkerTurn) : WorkerStatus × List ProtoFrame :=
  match t.received with
  | .error _ => (.returned 1, [])
  | .ok f =>
      match f.type with
      | .Shutdown => (.returned 0, [])
      | .Heartbeat => (.running, [{ type := .Heartbeat }])
      | .DispatchCompile =>
          match w.dispatch F H t f.payload with
          | .error status => (status, [])
          | .ok crf => (.running, [crf])
      | _ => (.running, [])

/-- A run so far. -/
structure Run where
  status : WorkerStatus := .running
  sent : List ProtoFrame := []

/-- The next iteration, if the loop has not been left. -/
def step (s : Run) (t : WorkerTurn) : Run :=
  match s.status with
  | .running => ⟨(w.iterate F H t).1, s.sent ++ (w.iterate F H t).2⟩
  | _ => s

/-- SOURCE: Distributed.cpp:67-108 -/
def run (turns : List WorkerTurn) : Run := turns.foldl (w.step F H) {}

end DistributedWorker

end CompilationFabric.Model
