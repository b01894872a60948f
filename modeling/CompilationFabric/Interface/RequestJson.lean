import CompilationFabric.Interface.DescriptorJson
import CompilationFabric.Model.Protocol

/-!
# Requests through a Submit frame

What the coordinator decodes from the Submit frame of a request.  `wireRequest` is the
request that arrives: the enumerations are back at their defaults, the integers are what a
double and its printed text keep of them, and everything else is as it was sent.

`decodeSubmit_encodeSubmit` is the whole way: envelope, JSON text, parser and decoder.
-/

set_option autoImplicit false

namespace CompilationFabric.Interface

open CompilationFabric.Library.Binary64
open CompilationFabric.Model
open CompilationFabric.Model.Json

-- kept folded, or elaboration runs it on a request's members
attribute [local irreducible] Printable

/-! ## The JSON of a request -/

/-- INTERNAL: no key of a request comes twice. -/
theorem keys_request (r : CompilationRequest) : (r.members.map fun f => ascii f.1).Nodup := by
  simp only [CompilationRequest.members, List.map]
  decide +kernel

/-- A list of ids can be printed. -/
theorem printable_idArray (v : List Id128) : Printable (idArray v) :=
  printable_array_map (f := fun e : Id128 => .str e.toHex) (fun e => printable_str e.toHex) v

/-- A list of numbers can be printed. -/
theorem printable_u64Array (v : List UInt64) : Printable (u64Array v) :=
  printable_array_map printable_ofU64 v

/-- A request can be printed. -/
theorem printable_request (r : CompilationRequest) : Printable r.toJson := by
  refine printable_ofFields ?_
  simp [CompilationRequest.members, printable_idArray, printable_u64Array, printable_i64Array]

/-- A list of ids is read back unchanged. -/
theorem parse_reread_idArray (v : List Id128) :
    ((reread (idArray v)).asArray.getD []).filterMap (fun e => Id128.parse e.asString) = v := by
  rw [idArray, reread, rereadElements_map, asArray, Option.getD_some, List.filterMap_map]
  simp [Function.comp_def, reread, asString, Id128.parse_toHex]

/-- A list of numbers is read back as each of them crosses the wire. -/
theorem toUInt64_reread_u64Array (v : List UInt64) :
    ((reread (u64Array v)).asArray.getD []).map (fun e => toUInt64 e.asNumber) =
      v.map wireU64 := by
  rw [u64Array, reread, rereadElements_map, asArray, Option.getD_some, List.map_map]
  apply List.map_congr_left
  intro e _
  simp [ofU64, reread, asNumber, wireU64]

/-- The request that comes back. -/
def wireRequest (r : CompilationRequest) : CompilationRequest :=
  { r with
    datatype := .None
    layout := .None
    rank := wireU64 r.rank
    staticShape := r.staticShape.map wireI64
    alignment := wireU64 r.alignment
    quantization := .None
    precision := .None
    debugRelease := .Release
    determinism := .Unspecified
    reproducibility := .Unspecified
    dependencyGenerations := r.dependencyGenerations.map wireU64
    autotuneSeed := wireU64 r.autotuneSeed
    optimizeLevel := if r.optimizeLevel ≤ 0 then 1 else r.optimizeLevel }

/-- A request is read back as it crosses the wire. -/
theorem fromJson_reread_request (r : CompilationRequest) :
    CompilationRequest.fromJson (reread r.toJson) = some (wireRequest r) := by
  have hget : ∀ key, (r.members.lookup key).isSome →
      (reread r.toJson).get key = (r.members.lookup key).map reread :=
    fun _ => get_reread_lookup (keys_request r)
  have hint : ∀ n : Int32, (toUInt64 (rereadNumber (ofInt n.toInt))).toUInt32.toInt32 = n :=
    wireInt_eq
  simp [CompilationRequest.fromJson, jstr, jbool, jnum, jarray, hget,
    CompilationRequest.members, List.lookup_cons, parse_reread_idArray,
    toInt64_reread_i64Array, toUInt64_reread_u64Array]
  simp [reread, ofU64, ofI32, hint, wireRequest, wireU64]

/-- The text of a request parses to what its numbers are reread as. -/
theorem parse_dump_request (r : CompilationRequest) :
    Json.parse r.toJson.dump = some (reread r.toJson) :=
  parse_dump (printable_request r)

/-- The text of a request is read back as the request that arrives. -/
theorem fromJson_parse_dump (r : CompilationRequest) :
    (Json.parse r.toJson.dump).bind CompilationRequest.fromJson = some (wireRequest r) := by
  rw [parse_dump_request, Option.bind_some]
  exact fromJson_reread_request r

/-! ## The frame -/

/-- The reader that is left behind an envelope. -/
theorem reader_readEnvelope (env : ProtoEnvelope) {rest : Bytes}
    (hsize : (env.encode ++ rest).length < sizeMod) :
    (readEnvelope ⟨env.encode ++ rest, 0⟩ {}).2.2 = CanonicalReader.after env.encode rest := by
  have hblob := CanonicalReader.rawBlob_after [] env.encode rest hsize (length_encode env)
  rw [CanonicalReader.after_nil, List.nil_append] at hblob
  rw [readEnvelope, hblob]
  simp only
  split <;> rfl

/-- What `decodeSubmit` makes of the text behind an envelope. -/
theorem decodeSubmit_text (env : ProtoEnvelope) {text : Bytes} {j : Json} {r : CompilationRequest}
    (hsize : (env.encode ++ CanonicalWriter.string text).length < sizeMod)
    (hparse : Json.parse text = some j) (hreq : CompilationRequest.fromJson j = some r) :
    decodeSubmit (env.encode ++ CanonicalWriter.string text) = .ok (.ok r) := by
  have hstr := CanonicalReader.str_after env.encode [] (s := text)
    (by rwa [List.append_nil])
  rw [List.append_nil] at hstr
  rw [decodeSubmit]
  simp only [reader_readEnvelope env hsize, hstr, hparse, hreq, bind, Except.bind]
  rfl

/-- A Submit payload decodes to the request that its JSON keeps. -/
theorem decodeSubmit_encodeSubmit (env : ProtoEnvelope) (r : CompilationRequest)
    (hsize : (encodeSubmit env r).length < sizeMod) :
    decodeSubmit (encodeSubmit env r) = .ok (.ok (wireRequest r)) :=
  decodeSubmit_text env hsize (parse_dump_request r) (fromJson_reread_request r)

end CompilationFabric.Interface
