import CompilationFabric.Model.Request

/-!
# Envelopes and the Submit payload

The part of `Protocol.cpp` that carries a request from a client to the coordinator: the
envelope of identities every message begins with, and the payload of a Submit frame.

`decodeSubmit` reads the request through `CanonicalReader.str`, so it may leave by an
exception; every other failure is a `MalformedFrame`.  The envelope in front is skipped
whether it decodes or not.
-/

set_option autoImplicit false

namespace CompilationFabric.Model

/-! ## The envelope -/

/-- SOURCE: Protocol.hpp:60-73 -/
structure ProtoEnvelope where
  epoch : UInt64 := 0
  workerId : UInt32 := 0
  bootId : WorkerBootId := {}
  cacheGen : UInt64 := 0
  toolchainGen : UInt64 := 0
  requestId : CompilationRequestId := {}
  attemptId : CompilationAttemptId := {}
  artifactId : ArtifactId := {}
  artifactGen : UInt64 := 0
  deriving DecidableEq

/-- SOURCE: Protocol.cpp:85-92 -/
def ProtoEnvelope.encode (e : ProtoEnvelope) : Bytes :=
  CanonicalWriter.u64 e.epoch ++ CanonicalWriter.u32 e.workerId ++
    CanonicalWriter.u128 e.bootId.raw ++ CanonicalWriter.u64 e.cacheGen ++
    CanonicalWriter.u64 e.toolchainGen ++ CanonicalWriter.u128 e.requestId.raw ++
    CanonicalWriter.u128 e.attemptId.raw ++ CanonicalWriter.u128 e.artifactId.raw ++
    CanonicalWriter.u64 e.artifactGen

/-- A field that has to be there, or the error that it is not. -/
def orTruncated {α : Type} (field : Option α) (message : String) : Result α :=
  match field with
  | some v => .ok v
  | none => Err .TruncatedFrame (ascii message)

/-- SOURCE: Protocol.cpp:93-110 -/
def ProtoEnvelope.decode (bytes : Bytes) : Result ProtoEnvelope := do
  let r : CanonicalReader := ⟨bytes, 0⟩
  let (epoch, r) ← orTruncated r.u64 "truncated epoch"
  let (workerId, r) ← orTruncated r.u32 "truncated worker id"
  let (boot, r) ← orTruncated r.u128 "truncated boot id"
  let (cacheGen, r) ← orTruncated r.u64 "truncated cache gen"
  let (toolchainGen, r) ← orTruncated r.u64 "truncated toolchain gen"
  let (rid, r) ← orTruncated r.u128 "truncated request id"
  let (aid, r) ← orTruncated r.u128 "truncated attempt id"
  let (arid, r) ← orTruncated r.u128 "truncated artifact id"
  let (artifactGen, r) ← orTruncated r.u64 "truncated artifact gen"
  if r.hasRemaining then Err .TrailingGarbage (ascii "trailing garbage in envelope")
  else return ⟨epoch, workerId, ⟨boot⟩, cacheGen, toolchainGen, ⟨rid⟩, ⟨aid⟩, ⟨arid⟩, artifactGen⟩

/-- SOURCE: Protocol.cpp:22 -/
def kEnvelopeSize : ℕ := 8 + 4 + 16 + 8 + 8 + 16 + 16 + 16 + 8

/-- The reader moves past the envelope's bytes when they are there, decoded or not.
SOURCE: Protocol.cpp:23-29 -/
def readEnvelope (r : CanonicalReader) (e : ProtoEnvelope) :
    Bool × ProtoEnvelope × CanonicalReader :=
  match r.rawBlob kEnvelopeSize with
  | none => (false, e, r)
  | some (es, r) =>
      match ProtoEnvelope.decode es with
      | .error _ => (false, e, r)
      | .ok dec => (true, dec, r)

/-- An envelope is a hundred bytes long. -/
theorem length_encode (e : ProtoEnvelope) : e.encode.length = kEnvelopeSize := by
  simp [ProtoEnvelope.encode, kEnvelopeSize]

/-! ## Submit -/

/-- SOURCE: Protocol.cpp:144-149 -/
def encodeSubmit (env : ProtoEnvelope) (req : CompilationRequest) : Bytes :=
  env.encode ++ CanonicalWriter.string req.toJson.dump

/-- SOURCE: Protocol.cpp:150-160 -/
def decodeSubmit (payload : Bytes) : Throwing (Result CompilationRequest) := do
  let (_, _, r) := readEnvelope ⟨payload, 0⟩ {}
  match ← r.str with
  | none => return Err .MalformedFrame (ascii "truncated request payload")
  | some (reqJson, _) =>
      match Json.parse reqJson with
      | none => return Err .MalformedFrame (ascii "request JSON parse failed")
      | some j =>
          match CompilationRequest.fromJson j with
          | none => return Err .MalformedFrame (ascii "request decode failed")
          | some req => return .ok req

end CompilationFabric.Model
