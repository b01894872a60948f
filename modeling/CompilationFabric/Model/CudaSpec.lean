import CompilationFabric.Model.CpuExecution

/-!
# The CUDA backend's specialization

`CudaSpec` is what a CUDA kernel is generated from: one operation with its scalar and the launch
parameters.  `CudaBackend::compile` takes it from the last operation of the source and leaves it in
the artifact's `launchSpecialization` as text, where validation reads it back.
-/

set_option autoImplicit false

namespace CompilationFabric.Model

open CompilationFabric.Library

/-- SOURCE: Cuda.cpp:73-79 -/
def opKindFor (s : Bytes) : CpuOpKind :=
  (lookup [("add", CpuOpKind.Add), ("sub", .Sub), ("mul", .Mul), ("scale", .Scale), ("abs", .Abs),
    ("neg", .Neg), ("sum", .Sum), ("max", .Max), ("min", .Min)] s).getD .Id

/-- SOURCE: Cuda.cpp:80-85 -/
def opNameFor : CpuOpKind → Bytes
  | .Add => ascii "add" | .Sub => ascii "sub" | .Mul => ascii "mul" | .Scale => ascii "scale"
  | .Abs => ascii "abs" | .Neg => ascii "neg" | .Sum => ascii "sum" | .Max => ascii "max"
  | .Min => ascii "min" | _ => ascii "id"

/-- SOURCE: Cuda.cpp:87-93 -/
structure CudaSpec where
  op : Bytes := ascii "scale"
  scalar : UInt64 := CpuBackend.one
  n : UInt32 := 1024
  dt : Datatype := .F32
  block : Int32 := 256
  reduce : Bool := false
  deriving DecidableEq

namespace CudaSpec

def semicolon : UInt8 := 59

/-- The text of one member, behind its name. -/
def member (name : String) (val : Bytes) : Bytes := ascii name ++ CpuBackend.equalsSign :: val

/-- SOURCE: Cuda.cpp:95-99 -/
def encode (s : CudaSpec) : Bytes :=
  member "op" s.op ++ semicolon :: (member "scalar" (Numerals.fixedText s.scalar) ++
    semicolon :: (member "n" (DecimalText.natText s.n.toNat) ++
      semicolon :: (member "dt" (datatypeName s.dt) ++
        semicolon :: (member "block" (DecimalText.intText s.block.toInt) ++
          semicolon :: member "reduce" (ascii (if s.reduce then "1" else "0"))))))

/-- SOURCE: Cuda.cpp:105-113 -/
def set (s : CudaSpec) (token : Bytes) : CudaSpec :=
  match CpuBackend.splitPair token with
  | none => s
  | some (k, v) =>
      if k = ascii "op" then { s with op := v }
      else if k = ascii "scalar" then { s with scalar := Numerals.strtod v }
      else if k = ascii "n" then { s with n := (Numerals.strtoull v).toUInt32 }
      else if k = ascii "dt" then { s with dt := (datatypeFromName v).getD s.dt }
      else if k = ascii "block" then
        { s with block := (Numerals.strtoull v).toUInt32.toInt32 }
      else if k = ascii "reduce" then { s with reduce := v = ascii "1" }
      else s

/-- SOURCE: Cuda.cpp:100-116 -/
def parse (s : Bytes) : CudaSpec := (Numerals.getlines semicolon s).foldl set {}

end CudaSpec

namespace CudaBackend

/-- `op.kind == Sum || op.kind == Max || op.kind == Min`. -/
def isReduction (kind : CpuOpKind) : Bool := kind = .Sum || kind = .Max || kind = .Min

/-- SOURCE: Cuda.cpp:383-393 -/
def buildSpec (r : CompilationRequest) (prog : Result CpuProgram) : CudaSpec :=
  let base : CudaSpec :=
    { n := match r.staticShape with
        | [] => (if r.rank ≠ 0 then r.rank else 1024).toUInt32
        | d :: _ => d.toUInt64.toUInt32
      dt := if r.datatype ≠ .None then r.datatype else .F32
      block := if r.blockSize ≠ 0 then r.blockSize else 256 }
  let spec : CudaSpec := match prog with
    | .error _ => base
    | .ok p =>
        match p.ops.getLast? with
        | none => base
        | some op =>
            { base with
              op := opNameFor op.kind
              scalar := op.scalar
              reduce := isReduction op.kind }
  if spec.op = ascii "scale" ∧ CpuBackend.isZero spec.scalar then
    { spec with scalar := CpuBackend.one }
  else spec

/-- The specialization of the artifact, when the toolchain has succeeded.
SOURCE: Cuda.cpp:395-405, 437-439 -/
def specialization (r : CompilationRequest) (prog : Result CpuProgram) :
    SpecializationDescriptor :=
  let spec := buildSpec r prog
  { datatype := spec.dt
    shape := [Int64.ofInt spec.n.toNat]
    architecture :=
      if r.backend = nvccBackend ∨ r.offlinePreferred then
        orElse r.targetArchitecture (ascii "sm_120")
      else ascii "sm_120"
    launchSpecialization := spec.encode }

/-- SOURCE: Cuda.cpp:449-454 -/
def computeCudaReference {K : Type*} [Ring K] [LinearOrder K] (A : Arithmetic K)
    (d : SpecializationDescriptor) (seed : UInt64) (n : UInt32) (dt : Datatype) : List K :=
  let spec := CudaSpec.parse d.launchSpecialization
  CpuBackend.execute A
    { shapeN := n.toUInt64
      datatype := if dt ≠ .None then dt else spec.dt
      ops := [{ kind := opKindFor spec.op, scalar := spec.scalar, n := n }] } seed

end CudaBackend

end CompilationFabric.Model
