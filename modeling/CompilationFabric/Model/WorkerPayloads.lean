import CompilationFabric.Model.ResultProtocol

/-!
# The Register and Reject payloads

What a worker announces itself with, and what the coordinator answers when it turns a frame down.
Behind the envelope the one has the capabilities as JSON and the other the number of an error code
with its message.

A number is cast to `ErrorCode` without a check; one that names no code has no value here.
-/

set_option autoImplicit false

namespace CompilationFabric.Model

/-- SOURCE: Protocol.cpp:128-134 -/
def encodeRegister (env : ProtoEnvelope) (capabilities : Json) : Bytes :=
  env.encode ++ CanonicalWriter.string capabilities.dump

/-- Capabilities that cannot be read are none.
SOURCE: Protocol.cpp:135-142 -/
def decodeRegister (payload : Bytes) : Throwing Json := do
  let (_, _, r) := readEnvelope ⟨payload, 0⟩ {}
  let caps := match ← r.str with
    | some (caps, _) => caps
    | none => []
  return (Json.parse caps).getD (.object [])

/-- `static_cast<uint32_t>(reason)`. -/
def ErrorCode.toUInt32 (c : ErrorCode) : UInt32 := UInt32.ofNat c.ctorIdx

/-- `static_cast<ErrorCode>(c)`. -/
def ErrorCode.ofUInt32 (c : UInt32) : Option ErrorCode :=
  if c ≤ ErrorCode.OverSizedFrame.toUInt32 then some (.ofNat c.toNat) else none

/-- SOURCE: Protocol.cpp:242-248 -/
def encodeReject (env : ProtoEnvelope) (reason : ErrorCode) (msg : Bytes) : Bytes :=
  env.encode ++ CanonicalWriter.u32 reason.toUInt32 ++ CanonicalWriter.string msg

/-- SOURCE: Protocol.cpp:249-254 -/
def decodeRejectCode (payload : Bytes) : Option ErrorCode :=
  let (_, _, r) := readEnvelope ⟨payload, 0⟩ {}
  match r.u32 with
  | none => some .MalformedFrame
  | some (c, _) => ErrorCode.ofUInt32 c

/-- A code is read back from its number. -/
@[simp] theorem ErrorCode.ofUInt32_toUInt32 (c : ErrorCode) :
    ErrorCode.ofUInt32 c.toUInt32 = some c := by
  cases c <;> decide

end CompilationFabric.Model
