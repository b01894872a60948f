import CompilationFabric.Model.Planning

/-!
# The CPU backend

The programs of `CpuBackend.cpp` and the artifact they are compiled to.  A scalar is the bit
pattern of its `double`, which is what the artifact holds.

`compile` takes what `parseSource` finds in the source and what running the artifact against
the reference shows as arguments: the one is text processing in front of it, the other
floating-point arithmetic behind it, and neither changes the bytes.
-/

set_option autoImplicit false

namespace CompilationFabric.Model

/-! ## Programs -/

/-- SOURCE: CpuBackend.hpp:14 -/
inductive CpuOpKind where
  | Nop | Add | Sub | Mul | Scale | Abs | Neg | Sum | Max | Min | Id
  deriving DecidableEq, Repr

/-- `static_cast<uint8_t>(op.kind)`. -/
def CpuOpKind.toUInt8 (k : CpuOpKind) : UInt8 := UInt8.ofNat k.ctorIdx

/-- SOURCE: CpuBackend.hpp:16-20 -/
structure CpuOp where
  kind : CpuOpKind := .Nop
  scalar : UInt64 := 0
  n : UInt32 := 0
  deriving DecidableEq, Repr

/-- SOURCE: CpuBackend.hpp:23-30 -/
structure CpuProgram where
  name : Bytes := []
  ops : List CpuOp := []
  datatype : Datatype := .F32
  shapeN : UInt64 := 0
  alignment : UInt32 := 0
  launchConfig : Bytes := []
  deriving DecidableEq

namespace CpuBackend

def kCpuMagic : UInt32 := 0x43464231
def kCpuVersion : UInt32 := 1

/-- SOURCE: CpuBackend.cpp:138-142 -/
def encodeOp (op : CpuOp) : Bytes :=
  CanonicalWriter.u8 op.kind.toUInt8 ++ CanonicalWriter.u64 op.scalar ++ CanonicalWriter.u32 op.n

/-- SOURCE: CpuBackend.cpp:128-144 -/
def encode (p : CpuProgram) : Bytes :=
  CanonicalWriter.u32 kCpuMagic ++ CanonicalWriter.u32 kCpuVersion ++
    CanonicalWriter.string p.name ++ CanonicalWriter.u64 p.shapeN ++
    CanonicalWriter.u8 p.datatype.toUInt8 ++ CanonicalWriter.u32 p.alignment ++
    CanonicalWriter.string p.launchConfig ++
    CanonicalWriter.u32 (UInt32.ofNat p.ops.length) ++ p.ops.flatMap encodeOp

/-- An artifact holds at least its magic number. -/
theorem encode_ne_nil (p : CpuProgram) : encode p ≠ [] := by
  intro h
  have hlen := congrArg List.length h
  simp [encode] at hlen

/-! ## Compilation -/

/-- The program under the request's declared specialization.
SOURCE: CpuBackend.cpp:279-283 -/
def specialize (r : CompilationRequest) (p : CpuProgram) : CpuProgram :=
  let datatype := if r.datatype ≠ .None then r.datatype else p.datatype
  let declared := match r.staticShape with
    | d :: _ => d.toUInt64
    | [] => p.shapeN
  let shapeN :=
    if r.rank ≠ 0 then max declared (if r.staticShape = [] then r.rank else declared)
    else declared
  { p with datatype, shapeN, launchConfig := r.launchSpecialization }

/-- The bit patterns of `1.0`, `0.0` and `-0.0`. -/
def one : UInt64 := 0x3FF0000000000000
def isZero (scalar : UInt64) : Bool := scalar = 0 || scalar = 0x8000000000000000

/-- The operations that folding keeps.
SOURCE: CpuBackend.cpp:292-300 -/
def survives (op : CpuOp) : Bool :=
  match op.kind with
  | .Nop => false
  | .Scale => op.scalar ≠ one
  | .Add | .Sub => !isZero op.scalar
  | _ => true

/-- SOURCE: CpuBackend.cpp:287-304 -/
def optimize (r : CompilationRequest) (p : CpuProgram) : CpuProgram :=
  let opt := if 0 < r.optimizeLevel then p.ops.filter survives else p.ops
  { p with ops := if opt = [] then p.ops else opt }

/-- SOURCE: CpuBackend.cpp:270-337 -/
def compile (r : CompilationRequest) (parsed : Result CpuProgram)
    (validation : ValidationDescriptor) (stages : List StageResult) : Result BackendOutput :=
  parsed.map fun p =>
    let prog := optimize r (specialize r p)
    { executable := encode prog
      format := .Bytecode
      backend :=
        { id := cpuBackend
          name := ascii "deterministic-cpu"
          compilerId := ascii "cf-cpu"
          compilerVersion := ascii "1.0.0"
          codeGenerator := ascii "cf-cpu-codegen"
          optimizer := ascii "cf-cpu-opt"
          linker := ascii "cf-cpu-link"
          runtime := ascii "cf-cpu-runtime"
          targetArchitecture := ascii "host-x86_64"
          isSyntheticCPU := true }
      compiler :=
        { id := ascii "cf-cpu"
          version := ascii "1.0.0"
          vendor := ascii "CompilationFabric"
          backendType := cpuBackend }
      specialization :=
        { datatype := prog.datatype
          shape := [prog.shapeN.toInt64]
          launchSpecialization := prog.launchConfig }
      validation := validation
      stages := stages }

/-- What is compiled is the artifact of a program. -/
theorem executable_of_compile {r : CompilationRequest} {parsed : Result CpuProgram}
    {validation : ValidationDescriptor} {stages : List StageResult} {out : BackendOutput}
    (h : compile r parsed validation stages = .ok out) : ∃ p, out.executable = encode p := by
  cases parsed with
  | error failure => cases h
  | ok p =>
      cases h
      exact ⟨_, rfl⟩

end CpuBackend

end CompilationFabric.Model
