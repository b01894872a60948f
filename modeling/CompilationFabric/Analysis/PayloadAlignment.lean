import CompilationFabric.Analysis.FrameBodies
import CompilationFabric.Analysis.ReaderBounds
import CompilationFabric.Analysis.StrictPayloads
import CompilationFabric.Interface.ResultWire
import CompilationFabric.Model.WorkerPayloads

/-!
# Envelopes and payloads are read where they were written

Every payload is an envelope with something behind it, and each decoder skips the envelope before
it reads its own fields.  An envelope is its one hundred bytes and the other way round
(`decode_encode`, `encode_of_decode`), so what stands behind it is read from the first byte on
(`reader_readEnvelope`), and `readEnv`, which has a size of its own, finds the envelope in front.
-/

set_option autoImplicit false

namespace CompilationFabric.Analysis

open CompilationFabric.Model
open CompilationFabric.Interface

variable {e : ProtoEnvelope}

/-! ## The envelope -/

/-- INTERNAL: a field that is there is handed on. -/
theorem orTruncated_bind {α β : Type} {field : Option α} {v : α} (h : field = some v)
    (message : String) (f : α → Result β) : (orTruncated field message >>= f) = f v := by
  rw [h]
  rfl

/-- An envelope is decoded when its fields are there and nothing is behind them. -/
theorem decode_of_reads {bytes : Bytes} {r₁ r₂ r₃ r₄ r₅ r₆ r₇ r₈ r₉ : CanonicalReader}
    (h₁ : (CanonicalReader.after [] bytes).u64 = some (e.epoch, r₁))
    (h₂ : r₁.u32 = some (e.workerId, r₂)) (h₃ : r₂.u128 = some (e.bootId.raw, r₃))
    (h₄ : r₃.u64 = some (e.cacheGen, r₄)) (h₅ : r₄.u64 = some (e.toolchainGen, r₅))
    (h₆ : r₅.u128 = some (e.requestId.raw, r₆)) (h₇ : r₆.u128 = some (e.attemptId.raw, r₇))
    (h₈ : r₇.u128 = some (e.artifactId.raw, r₈)) (h₉ : r₈.u64 = some (e.artifactGen, r₉))
    (hend : r₉.hasRemaining = false) : ProtoEnvelope.decode bytes = .ok e := by
  unfold ProtoEnvelope.decode
  rw [← CanonicalReader.after_nil]
  apply (orTruncated_bind h₁ _ _).trans
  apply (orTruncated_bind h₂ _ _).trans
  apply (orTruncated_bind h₃ _ _).trans
  apply (orTruncated_bind h₄ _ _).trans
  apply (orTruncated_bind h₅ _ _).trans
  apply (orTruncated_bind h₆ _ _).trans
  apply (orTruncated_bind h₇ _ _).trans
  apply (orTruncated_bind h₈ _ _).trans
  apply (orTruncated_bind h₉ _ _).trans
  apply if_neg
  rw [hend]
  exact Bool.false_ne_true

/-- The fields are read in the order in which they were written.
SOURCE: Protocol.cpp:85-110 -/
theorem decode_encode (e : ProtoEnvelope) : ProtoEnvelope.decode e.encode = .ok e := by
  have hsplit : e.encode = CanonicalWriter.u64 e.epoch ++ (CanonicalWriter.u32 e.workerId ++
      (CanonicalWriter.u128 e.bootId.raw ++ (CanonicalWriter.u64 e.cacheGen ++
        (CanonicalWriter.u64 e.toolchainGen ++ (CanonicalWriter.u128 e.requestId.raw ++
          (CanonicalWriter.u128 e.attemptId.raw ++ (CanonicalWriter.u128 e.artifactId.raw ++
            (CanonicalWriter.u64 e.artifactGen ++ [])))))))) := by
    simp [ProtoEnvelope.encode]
  have hsize : e.encode.length < sizeMod := by
    rw [length_encode]
    decide
  rw [hsplit, ← List.nil_append (CanonicalWriter.u64 e.epoch ++ _)] at hsize
  have hepoch := CanonicalReader.u64_after [] _ hsize
  rw [List.nil_append] at hepoch
  rw [hsplit]
  apply decode_of_reads hepoch
    (CanonicalReader.u32_after _ _ (by simp [sizeMod]))
    (CanonicalReader.u128_after _ _ (by simp [sizeMod]))
    (CanonicalReader.u64_after _ _ (by simp [sizeMod]))
    (CanonicalReader.u64_after _ _ (by simp [sizeMod]))
    (CanonicalReader.u128_after _ _ (by simp [sizeMod]))
    (CanonicalReader.u128_after _ _ (by simp [sizeMod]))
    (CanonicalReader.u128_after _ _ (by simp [sizeMod]))
    (CanonicalReader.u64_after _ _ (by simp [sizeMod]))
  rw [CanonicalReader.hasRemaining_after]
  rfl

/-- What is decoded has the size of an envelope. -/
theorem length_of_decode {bytes : Bytes} (h : ProtoEnvelope.decode bytes = .ok e) :
    bytes.length = kEnvelopeSize := by
  unfold ProtoEnvelope.decode at h
  obtain ⟨⟨epoch, r₁⟩, h₁, h⟩ := bind_eq_ok h
  obtain ⟨⟨workerId, r₂⟩, h₂, h⟩ := bind_eq_ok h
  obtain ⟨⟨boot, r₃⟩, h₃, h⟩ := bind_eq_ok h
  obtain ⟨⟨cacheGen, r₄⟩, h₄, h⟩ := bind_eq_ok h
  obtain ⟨⟨toolchainGen, r₅⟩, h₅, h⟩ := bind_eq_ok h
  obtain ⟨⟨rid, r₆⟩, h₆, h⟩ := bind_eq_ok h
  obtain ⟨⟨aid, r₇⟩, h₇, h⟩ := bind_eq_ok h
  obtain ⟨⟨arid, r₈⟩, h₈, h⟩ := bind_eq_ok h
  obtain ⟨⟨artifactGen, r₉⟩, h₉, h⟩ := bind_eq_ok h
  -- the cursor starts at zero, so no read comes near the end of the address space
  obtain rfl : r₁ = ⟨bytes, 8⟩ :=
    (moves_u64 (show 0 + 8 < sizeMod by decide) (orTruncated_eq_ok.mp h₁)).1
  obtain rfl : r₂ = ⟨bytes, 12⟩ :=
    (moves_u32 (show 8 + 4 < sizeMod by decide) (orTruncated_eq_ok.mp h₂)).1
  obtain rfl : r₃ = ⟨bytes, 28⟩ :=
    (moves_u128 (show 12 + 16 < sizeMod by decide) (orTruncated_eq_ok.mp h₃)).1
  obtain rfl : r₄ = ⟨bytes, 36⟩ :=
    (moves_u64 (show 28 + 8 < sizeMod by decide) (orTruncated_eq_ok.mp h₄)).1
  obtain rfl : r₅ = ⟨bytes, 44⟩ :=
    (moves_u64 (show 36 + 8 < sizeMod by decide) (orTruncated_eq_ok.mp h₅)).1
  obtain rfl : r₆ = ⟨bytes, 60⟩ :=
    (moves_u128 (show 44 + 16 < sizeMod by decide) (orTruncated_eq_ok.mp h₆)).1
  obtain rfl : r₇ = ⟨bytes, 76⟩ :=
    (moves_u128 (show 60 + 16 < sizeMod by decide) (orTruncated_eq_ok.mp h₇)).1
  obtain rfl : r₈ = ⟨bytes, 92⟩ :=
    (moves_u128 (show 76 + 16 < sizeMod by decide) (orTruncated_eq_ok.mp h₈)).1
  obtain ⟨rfl, hle⟩ := moves_u64 (show 92 + 8 < sizeMod by decide) (orTruncated_eq_ok.mp h₉)
  dsimp only at h hle
  split at h
  · cases h
  · next hend =>
    simp only [CanonicalReader.hasRemaining, decide_eq_true_eq] at hend
    unfold kEnvelopeSize
    omega

/-- An envelope that is decoded is written as the bytes it was decoded from. -/
theorem encode_of_decode {bytes : Bytes} (h : ProtoEnvelope.decode bytes = .ok e) :
    e.encode = bytes := by
  obtain ⟨e', rfl⟩ := exists_encode (length_of_decode h)
  rw [decode_encode, Except.ok.injEq] at h
  rw [h]

/-- The envelope in front of a payload.
SOURCE: Distributed.cpp:15-21 -/
theorem readEnv_append (e : ProtoEnvelope) (rest : Bytes) : readEnv (e.encode ++ rest) = e := by
  have hlen : e.encode.length = kEnvSize := length_encode e
  unfold readEnv
  rw [if_neg (by rw [List.length_append]; omega), ← hlen, List.take_left, decode_encode]

/-! ## The payloads -/

/-- A registration is read back.
SOURCE: Protocol.cpp:128-142 -/
theorem decodeRegister_encode {j : Json} (hj : Json.parse j.dump = some j)
    (hsize : (encodeRegister e j).length < sizeMod) :
    decodeRegister (encodeRegister e j) = .ok j := by
  unfold encodeRegister at hsize ⊢
  have hstr := CanonicalReader.str_after e.encode [] (s := j.dump) (by rwa [List.append_nil])
  rw [List.append_nil] at hstr
  rw [decodeRegister]
  simp only [reader_readEnvelope e hsize, hstr, hj, bind, Except.bind]
  rfl

/-- The code of a rejection is read back. -/
theorem decodeRejectCode_encode (reason : ErrorCode) {msg : Bytes}
    (hsize : (encodeReject e reason msg).length < sizeMod) :
    decodeRejectCode (encodeReject e reason msg) = some reason := by
  simp only [encodeReject, List.append_assoc] at hsize ⊢
  have hcode := CanonicalReader.u32_after e.encode (CanonicalWriter.string msg) hsize
  rw [decodeRejectCode]
  simp only [reader_readEnvelope e hsize, hcode, ErrorCode.ofUInt32_toUInt32]

/-- A payload with one string in it fits into the address space. -/
theorem length_payload_lt {s : Bytes} (hs : s.length ≤ maxObjectSize) :
    e.encode.length + 4 + (CanonicalWriter.string s).length < sizeMod := by
  rw [length_encode, CanonicalWriter.length_string]
  unfold maxObjectSize at hs
  unfold kEnvelopeSize sizeMod
  omega

/-- Envelopes are their bytes, and every payload gives back the envelope and the fields that it was
written from.
SOURCE: Protocol.cpp:21-29, 85-142, 187-205, 242-254, Distributed.cpp:14-21 -/
theorem codecs_aligned (e : ProtoEnvelope) :
    (e.encode.length = kEnvelopeSize ∧ kEnvelopeSize = kEnvSize ∧
      ProtoEnvelope.decode e.encode = .ok e ∧
      ∀ bytes, ProtoEnvelope.decode bytes = .ok e → e.encode = bytes) ∧
    (∀ (s : Bool) (j : Json), Json.parse j.dump = some j → j.dump.length ≤ maxObjectSize →
      (decodeCompileResult (encodeCompileResult e s j) = .ok (j, s) ∧
        readEnv (encodeCompileResult e s j) = e) ∧
      decodeRegister (encodeRegister e j) = .ok j ∧ readEnv (encodeRegister e j) = e) ∧
    ∀ (c : ErrorCode) (msg : Bytes), msg.length ≤ maxObjectSize →
      decodeRejectCode (encodeReject e c msg) = some c ∧ readEnv (encodeReject e c msg) = e := by
  refine ⟨⟨length_encode e, rfl, decode_encode e, fun _ => encode_of_decode⟩, ?_, ?_⟩
  · intro s j hj hdump
    have hsize := length_payload_lt (e := e) hdump
    refine ⟨⟨decodeCompileResult_of_parse e s hj ?_, ?_⟩, decodeRegister_encode hj ?_,
      readEnv_append e _⟩
    · simp only [encodeCompileResult, CanonicalWriter.u8, List.length_append, List.length_singleton]
      omega
    · simp only [encodeCompileResult, List.append_assoc, readEnv_append]
    · simp only [encodeRegister, List.length_append]
      omega
  · intro c msg hmsg
    have hsize := length_payload_lt (e := e) hmsg
    constructor
    · apply decodeRejectCode_encode
      simp only [encodeReject, List.length_append, CanonicalWriter.length_u32]
      omega
    · simp only [encodeReject, List.append_assoc, readEnv_append]

/-- An envelope with a value of its own in every field. -/
def filledEnvelope : ProtoEnvelope where
  epoch := 1
  workerId := 2
  bootId := ⟨⟨3, 4⟩⟩
  cacheGen := 5
  toolchainGen := 6
  requestId := ⟨⟨7, 8⟩⟩
  attemptId := ⟨⟨9, 10⟩⟩
  artifactId := ⟨⟨11, 12⟩⟩
  artifactGen := 13

/-- An object with a member. -/
def namedWorker : Json := .object [(ascii "name", .str (ascii "worker"))]

/-- INTERNAL: the object comes back from its text. -/
theorem parse_dump_namedWorker : Json.parse namedWorker.dump = some namedWorker := by
  have hprint : PrintableMembers [(ascii "name", .str (ascii "worker"))] :=
    ⟨fun _ h => (nomatch h), trivial, trivial⟩
  exact parse_dump (v := namedWorker) hprint

/-- The envelope in front of a result, of a registration and of a message, each of them read back
with it. -/
theorem codecs_aligned_filled :
    ProtoEnvelope.decode filledEnvelope.encode = .ok filledEnvelope ∧
      (decodeCompileResult (encodeCompileResult filledEnvelope true namedWorker) =
          .ok (namedWorker, true) ∧
        readEnv (encodeCompileResult filledEnvelope true namedWorker) = filledEnvelope) ∧
      (decodeRegister (encodeRegister filledEnvelope namedWorker) = .ok namedWorker ∧
        readEnv (encodeRegister filledEnvelope namedWorker) = filledEnvelope) ∧
      decodeRejectCode (encodeReject filledEnvelope .StaleEpoch (ascii "stale epoch")) =
        some .StaleEpoch ∧
      readEnv (encodeReject filledEnvelope .StaleEpoch (ascii "stale epoch")) =
        filledEnvelope := by
  obtain ⟨⟨-, -, hdecode, -⟩, hjson, hreject⟩ := codecs_aligned filledEnvelope
  obtain ⟨hresult, hregister⟩ := hjson true namedWorker parse_dump_namedWorker (by decide +kernel)
  exact ⟨hdecode, hresult, hregister,
    hreject .StaleEpoch (ascii "stale epoch") (by decide +kernel)⟩

end CompilationFabric.Analysis
