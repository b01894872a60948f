import CompilationFabric.Interface.DescriptorSize
import CompilationFabric.Interface.RequestJson
import CompilationFabric.Model.ResultProtocol

/-!
# Results over the wire

What comes out of the payload of a CompileResult frame and of the payload of a Result frame:
the one carries the JSON of a result, the other that JSON and the artifact's bytes behind it.
-/

set_option autoImplicit false

namespace CompilationFabric.Interface

open CompilationFabric.Library.Binary64
open CompilationFabric.Model
open CompilationFabric.Model.Json

-- kept folded, or elaboration runs it on a result's members
attribute [local irreducible] Printable

/-! ## The JSON of a result -/

/-- An artifact descriptor can be printed. -/
theorem printable_artifact (a : ArtifactDescriptor) : Printable a.toJson :=
  printable_ofFields (printable_artifact_members a)

/-- A result without autotune candidates, whose flags would be arbitrary JSON. -/
theorem printable_result (H : Bytes → Digest) {r : CompilationResult}
    (hcandidates : r.autotuneCandidates = []) : Printable (r.toJson H) := by
  have hempty : Printable (.array []) :=
    printable_array_map (f := fun s : Bytes => .str s) printable_str []
  refine printable_ofFields ?_
  simp [CompilationResult.members, hcandidates, printable_artifact, hempty]

/-- The request that the JSON of a result names. -/
def namedRequest (j : Json) : CompilationRequestId :=
  (TypedId.parse (jstr j "request_id")).getD {}

/-- INTERNAL: no key of a result comes twice. -/
theorem keys_result (H : Bytes → Digest) (r : CompilationResult) :
    ((r.members H).map fun f => ascii f.1).Nodup := by
  simp only [CompilationResult.members, List.map]
  decide +kernel

/-- A printed and parsed result names the request that it is for. -/
theorem namedRequest_toJson (H : Bytes → Digest) (r : CompilationResult) :
    namedRequest (reread (r.toJson H)) = r.requestId := by
  have hmem : ("request_id", Json.str r.requestId.toHex) ∈ r.members H := List.mem_cons_self
  have hget := get_reread_ofFields (keys_result H r) hmem
  unfold namedRequest jstr CompilationResult.toJson
  rw [hget]
  simp [reread]

/-- INTERNAL: no key of an artifact descriptor comes twice. -/
theorem keys_artifact (a : ArtifactDescriptor) : (a.members.map fun f => ascii f.1).Nodup := by
  simp only [ArtifactDescriptor.members, List.map]
  decide +kernel

/-- The artifact that comes back. -/
theorem artifact_resultFromJson (H : Bytes → Digest) (r : CompilationResult) :
    (resultFromJson (reread (r.toJson H))).artifact = wireArtifact r.artifact := by
  have hmem : ("artifact", r.artifact.toJson) ∈ r.members H := by simp [CompilationResult.members]
  have hget := get_reread_ofFields (keys_result H r) hmem
  have hartifact : ArtifactDescriptor.fromJson (reread r.artifact.toJson) =
      some (wireArtifact r.artifact) := by
    have hkeys := keys_artifact r.artifact
    rw [← List.append_nil r.artifact.members] at hkeys
    have hwire := fromJson_reread_artifact r.artifact hkeys
    rwa [List.append_nil] at hwire
  unfold resultFromJson CompilationResult.toJson
  rw [hget, Option.bind_some, hartifact, Option.getD_some]

/-- The id of a result is the one that its JSON names. -/
@[simp] theorem requestId_resultFromJson (j : Json) :
    (resultFromJson j).requestId = namedRequest j := rfl

/-- No candidates are read. -/
@[simp] theorem autotuneCandidates_resultFromJson (j : Json) :
    (resultFromJson j).autotuneCandidates = [] := rfl

/-- The projection keeps no bytes. -/
@[simp] theorem artifactBytes_resultFromJson (j : Json) :
    (resultFromJson j).artifactBytes = [] := rfl

/-! ## How long they are -/

/-- INTERNAL: the names of a result are short. -/
theorem namesSize_result (H : Bytes → Digest) (r : CompilationResult) :
    2 + namesSize (r.members H) ≤ 3000 := by
  simp only [namesSize, CompilationResult.members, List.map]
  decide +kernel

/-- The values of a result, with those of its artifact one by one. -/
def resultSize (H : Bytes → Digest) (r : CompilationResult) : ℕ :=
  valuesSize ((r.members H).take 6) + valuesSize ((r.members H).drop 7) + artifactSize r.artifact

/-- INTERNAL: the names of an artifact descriptor are short. -/
theorem namesSize_artifact (a : ArtifactDescriptor) : 2 + namesSize a.members ≤ 3000 := by
  simp only [namesSize, ArtifactDescriptor.members, List.map]
  decide +kernel

/-- The text of a result is bounded by its strings and lists. -/
theorem length_dump_result_le (H : Bytes → Digest) (r : CompilationResult) :
    (r.toJson H).dump.length ≤ 27000 + resultSize H r := by
  have hsplit : r.members H = (r.members H).take 6 ++
      ([("artifact", r.artifact.toJson)] ++ (r.members H).drop 7) := rfl
  have hartifact : valuesSize [("artifact", r.artifact.toJson)] ≤
      3000 + valuesSize r.artifact.members := by
    simp only [valuesSize, List.map_cons, List.map_nil, List.sum_cons, List.sum_nil, Nat.add_zero]
    exact length_dump_ofFields_le (namesSize_artifact r.artifact)
  have hnested := valuesSize_artifact_le r.artifact
  have hjson := length_dump_ofFields_le (namesSize_result H r)
  rw [hsplit, valuesSize_append, valuesSize_append, ← hsplit] at hjson
  unfold resultSize CompilationResult.toJson
  omega

/-- A CompileResult of bounded size fits into a frame. -/
theorem sendable_compileResult (H : Bytes → Digest) (env : ProtoEnvelope) (success : Bool)
    {r : CompilationResult} (hsize : resultSize H r ≤ 1000000) :
    Sendable { type := .CompileResult
               payload := encodeCompileResult env success (r.toJson H) } := by
  have hjson := length_dump_result_le H r
  have henv := length_encode env
  have hflag : ∀ v, (CanonicalWriter.u8 v).length = 1 := fun _ => rfl
  simp only [Sendable, encodeFrameBody, encodeCompileResult, List.length_append, hflag,
    CanonicalWriter.length_u32, CanonicalWriter.length_string, kMaxFrameSize]
  rw [kEnvelopeSize] at henv
  omega

/-- A Result of bounded size fits into a frame. -/
theorem sendable_result (H : Bytes → Digest) (env : ProtoEnvelope) {r : CompilationResult}
    (hsize : resultSize H r + r.artifactBytes.length ≤ 1000000) :
    Sendable { type := .Result, payload := encodeResult H env r } := by
  have hjson := length_dump_result_le H r
  have henv := length_encode env
  simp only [Sendable, encodeFrameBody, encodeResult, List.length_append,
    CanonicalWriter.length_u32, CanonicalWriter.length_u64, CanonicalWriter.length_string,
    kMaxFrameSize]
  rw [kEnvelopeSize] at henv
  omega

/-! ## The payloads -/

/-- What the result's JSON parses to, and the flag as it was. -/
theorem decodeCompileResult_of_parse (env : ProtoEnvelope) (success : Bool) {j j' : Json}
    (hj : Json.parse j.dump = some j')
    (hsize : (encodeCompileResult env success j).length < sizeMod) :
    decodeCompileResult (encodeCompileResult env success j) = .ok (j', success) := by
  simp only [encodeCompileResult, List.append_assoc] at hsize ⊢
  have hflag := CanonicalReader.u8_after env.encode (CanonicalWriter.string j.dump) hsize
  have hstr := CanonicalReader.str_after
    (env.encode ++ CanonicalWriter.u8 (if success then 1 else 0)) [] (s := j.dump) (by
      simpa using hsize)
  rw [List.append_nil] at hstr
  rw [decodeCompileResult]
  simp only [reader_readEnvelope env hsize, hflag, hstr, hj, bind, Except.bind]
  cases success <;> rfl

/-- The result's JSON with its numbers reread. -/
theorem decodeCompileResult_encodeCompileResult (env : ProtoEnvelope) (success : Bool) {j : Json}
    (hj : Printable j) (hsize : (encodeCompileResult env success j).length < sizeMod) :
    decodeCompileResult (encodeCompileResult env success j) = .ok (reread j, success) :=
  decodeCompileResult_of_parse env success (parse_dump hj) hsize

/-- The request of a Result payload and its tail are what was put there. -/
theorem decodeResult_encodeResult (H : Bytes → Digest) (env : ProtoEnvelope)
    {r : CompilationResult} (hr : r.autotuneCandidates = [])
    (hsize : (encodeResult H env r).length < sizeMod) :
    ∃ res, decodeResult (encodeResult H env r) = .ok (.ok res) ∧
      res.requestId = r.requestId ∧ res.artifactBytes = r.artifactBytes := by
  simp only [encodeResult, List.append_assoc] at hsize ⊢
  have hstr := CanonicalReader.str_after env.encode _ hsize
  have hlen := CanonicalReader.u64_after
    (env.encode ++ CanonicalWriter.string (r.toJson H).dump) r.artifactBytes
    (v := UInt64.ofNat r.artifactBytes.length) (by simpa using hsize)
  have hnat : (UInt64.ofNat r.artifactBytes.length).toNat = r.artifactBytes.length := by
    rw [UInt64.toNat_ofNat']
    simp only [List.length_append, sizeMod] at hsize
    omega
  have hblob := CanonicalReader.rawBlob_after
    (env.encode ++ CanonicalWriter.string (r.toJson H).dump ++
      CanonicalWriter.u64 (UInt64.ofNat r.artifactBytes.length))
    r.artifactBytes [] (by simpa using hsize) rfl
  rw [List.append_nil] at hblob
  rw [decodeResult]
  simp only [reader_readEnvelope env hsize, hstr, parse_dump (printable_result H hr), hlen, hblob,
    hnat, bind, Except.bind, ne_eq, not_true_eq_false, if_false]
  refine ⟨_, rfl, ?_, rfl⟩
  have hnamed := namedRequest_toJson H r
  unfold namedRequest at hnamed
  dsimp only
  exact hnamed

end CompilationFabric.Interface
