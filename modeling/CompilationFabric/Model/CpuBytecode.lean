import CompilationFabric.Model.CpuBackend
import CompilationFabric.Model.ResultProtocol

/-!
# CPU bytecode

The artifact of the CPU backend and its decoder.  The enumerations of a program are bytes in
memory, and the decoder casts into them whatever byte the artifact holds, so a program is modelled
here with its bytes: `StoredProgram` has every value a `CpuProgram` can have, and `stored` embeds
the programs that the source text can name.
-/

set_option autoImplicit false

namespace CompilationFabric.Model

/-- A `CpuOp`; any byte may be its kind.
SOURCE: CpuBackend.hpp:16-20 -/
structure StoredOp where
  kind : UInt8 := 0
  scalar : UInt64 := 0
  n : UInt32 := 0
  deriving DecidableEq, Repr

/-- A `CpuProgram`; any byte may be its datatype.
SOURCE: CpuBackend.hpp:23-30 -/
structure StoredProgram where
  name : Bytes := []
  ops : List StoredOp := []
  datatype : UInt8 := 0
  shapeN : UInt64 := 0
  alignment : UInt32 := 0
  launchConfig : Bytes := []
  deriving DecidableEq, Repr

def CpuOp.stored (op : CpuOp) : StoredOp :=
  { kind := op.kind.toUInt8, scalar := op.scalar, n := op.n }

def CpuProgram.stored (p : CpuProgram) : StoredProgram :=
  { name := p.name
    ops := p.ops.map CpuOp.stored
    datatype := p.datatype.toUInt8
    shapeN := p.shapeN
    alignment := p.alignment
    launchConfig := p.launchConfig }

namespace CpuBackend

/-! ## Encoding -/

/-- SOURCE: CpuBackend.cpp:138-142 -/
def encodeStoredOp (op : StoredOp) : Bytes :=
  CanonicalWriter.u8 op.kind ++ CanonicalWriter.u64 op.scalar ++ CanonicalWriter.u32 op.n

/-- SOURCE: CpuBackend.cpp:128-144 -/
def encodeStored (p : StoredProgram) : Bytes :=
  CanonicalWriter.u32 kCpuMagic ++ CanonicalWriter.u32 kCpuVersion ++
    CanonicalWriter.string p.name ++ CanonicalWriter.u64 p.shapeN ++
    CanonicalWriter.u8 p.datatype ++ CanonicalWriter.u32 p.alignment ++
    CanonicalWriter.string p.launchConfig ++
    CanonicalWriter.u32 (UInt32.ofNat p.ops.length) ++ p.ops.flatMap encodeStoredOp

/-- The encoder of `CpuBackend` writes the bytes that are stored. -/
theorem encode_eq (p : CpuProgram) : encode p = encodeStored p.stored := by
  unfold encode encodeStored CpuProgram.stored
  rw [List.flatMap_map, List.length_map]
  rfl

/-! ## Decoding -/

/-- A field that has to be there, or the error that it is not. -/
def orCorrupt {α : Type} (field : Option α) (message : String) : Result α :=
  match field with
  | some v => .ok v
  | none => Err .ArtifactCorrupt (ascii message)

/-- SOURCE: CpuBackend.cpp:147-150 -/
def decodeHeader (r : CanonicalReader) : Result CanonicalReader :=
  match r.u32 with
  | none => Err .ArtifactCorrupt (ascii "CPU artifact magic mismatch")
  | some (magic, r) =>
      if magic ≠ kCpuMagic then Err .ArtifactCorrupt (ascii "CPU artifact magic mismatch")
      else
        match r.u32 with
        | none => Err .ArtifactInvalid (ascii "CPU artifact version unsupported")
        | some (version, r) =>
            if version ≠ kCpuVersion then
              Err .ArtifactInvalid (ascii "CPU artifact version unsupported")
            else .ok r

/-- The shape, the datatype and the alignment.
SOURCE: CpuBackend.cpp:153-158 -/
def decodeShape (r : CanonicalReader) : Result ((UInt64 × UInt8 × UInt32) × CanonicalReader) := do
  let (shape, r) ← orCorrupt r.u64 "CPU artifact truncated shape"
  let (dt, r) ← orCorrupt r.u8 "CPU artifact truncated datatype"
  let (align, r) ← orCorrupt r.u32 "CPU artifact truncated alignment"
  return ((shape, dt, align), r)

/-- SOURCE: CpuBackend.cpp:162-168 -/
def decodeOp (r : CanonicalReader) : Result (StoredOp × CanonicalReader) := do
  let (kind, r) ← orCorrupt r.u8 "CPU artifact truncated op"
  let (scalar, r) ← orCorrupt r.u64 "CPU artifact truncated scalar"
  let (n, r) ← orCorrupt r.u32 "CPU artifact truncated op n"
  return ({ kind, scalar, n }, r)

/-- `for (uint32_t i = 0; i < nops; ++i)`. -/
def decodeOps : ℕ → CanonicalReader → Result (List StoredOp × CanonicalReader)
  | 0, r => .ok ([], r)
  | n + 1, r => do
      let (op, r) ← decodeOp r
      let (ops, r) ← decodeOps n r
      return (op :: ops, r)

/-- The counted operations, up to the end of the artifact.
SOURCE: CpuBackend.cpp:160-172 -/
def decodeBody (r : CanonicalReader) : Result (List StoredOp) := do
  let (nops, r) ← orCorrupt r.u32 "CPU artifact truncated op count"
  if nops > 4096 then Err .ArtifactCorrupt (ascii "CPU artifact op count out of range")
  else
    let (ops, r) ← decodeOps nops.toNat r
    if r.hasRemaining then Err .ArtifactCorrupt (ascii "CPU artifact trailing garbage")
    else if ops = [] then Err .ArtifactCorrupt (ascii "CPU artifact no ops")
    else return ops

/-- SOURCE: CpuBackend.cpp:146-173 -/
def decode (bytes : Bytes) : Throwing (Result StoredProgram) := do
  match decodeHeader ⟨bytes, 0⟩ with
  | .error e => return .error e
  | .ok r =>
      match ← r.str with
      | none => return Err .ArtifactCorrupt (ascii "CPU artifact truncated name")
      | some (name, r) =>
          match decodeShape r with
          | .error e => return .error e
          | .ok ((shapeN, datatype, alignment), r) =>
              match ← r.str with
              | none => return Err .ArtifactCorrupt (ascii "CPU artifact truncated launch config")
              | some (launchConfig, r) =>
                  return (decodeBody r).map fun ops =>
                    { name, ops, datatype, shapeN, alignment, launchConfig }

end CpuBackend

end CompilationFabric.Model
