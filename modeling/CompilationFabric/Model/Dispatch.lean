import CompilationFabric.Model.ResultProtocol

/-!
# The Dispatch payload

What the coordinator sends a worker to compile: the envelope of the attempt, the request as JSON
and the bytes of its key.
-/

set_option autoImplicit false

namespace CompilationFabric.Model

/-- SOURCE: Protocol.cpp:162-170 -/
def encodeDispatch (env : ProtoEnvelope) (req : CompilationRequest) (key : CompilationKey) :
    Bytes :=
  let kbytes := makeCanonicalFields key.fields
  env.encode ++ CanonicalWriter.string req.toJson.dump ++
    CanonicalWriter.u64 (UInt64.ofNat kbytes.length) ++ kbytes

/-- SOURCE: Protocol.cpp:171-185 -/
def decodeDispatch (payload : Bytes) : Throwing (Result (CompilationRequest × CompilationKey)) := do
  let (_, _, r) := readEnvelope ⟨payload, 0⟩ {}
  match ← r.str with
  | none => return Err .MalformedFrame (ascii "truncated dispatch request")
  | some (reqJson, r) =>
      match Json.parse reqJson with
      | none => return Err .MalformedFrame (ascii "dispatch JSON parse failed")
      | some j =>
          match CompilationRequest.fromJson j with
          | none => return Err .MalformedFrame (ascii "dispatch request decode failed")
          | some req =>
              match r.u64 with
              | none => return Err .MalformedFrame (ascii "truncated key len")
              | some (keyLen, r) =>
                  match r.rawBlob keyLen.toNat with
                  | none => return Err .MalformedFrame (ascii "truncated key")
                  | some (kb, _) =>
                      if kb.length ≠ keyLen.toNat then
                        return Err .MalformedFrame (ascii "truncated key")
                      else
                        match CompilationKey.fromCanonicalBytes kb with
                        | none => return Err .MalformedFrame (ascii "dispatch key decode failed")
                        | some key => return .ok (req, key)

end CompilationFabric.Model
