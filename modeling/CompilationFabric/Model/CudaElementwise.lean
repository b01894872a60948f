import CompilationFabric.Model.CpuExecution
import CompilationFabric.Model.CudaLaunch
import Mathlib.Data.List.ProdSigma

/-!
# The generated elementwise kernel

Every thread of the grid computes an index in 32-bit words, reads it as an `int`, and handles that
element unless the index is past the end.  A read or a write outside of the buffers is undefined,
and so is then what the launch does.  The threads run in any order.
-/

set_option autoImplicit false

namespace CompilationFabric.Model

namespace CudaKernel

variable {V : Type}

/-- `blockIdx.x*blockDim.x + threadIdx.x`.
SOURCE: Cuda.cpp:155 -/
def threadIndex (blockDim : UInt32) (thread : ℕ × ℕ) : Int32 :=
  (UInt32.ofNat thread.1 * blockDim + UInt32.ofNat thread.2).toInt32

/-- A cell of a buffer, by the index that is used for it. -/
def cellOf (buffer : List V) (i : Int32) : Option ℕ :=
  if 0 ≤ i ∧ i.toInt.toNat < buffer.length then some i.toInt.toNat else none

/-- One thread; `math` is what the kernel makes of an element.
SOURCE: Cuda.cpp:155-156 -/
def elementThread (math : V → V) (input : List V) (n : Int32) (blockDim : UInt32) (out : List V)
    (thread : ℕ × ℕ) : Option (List V) :=
  let i := threadIndex blockDim thread
  if i < n then do
    let source ← cellOf input i
    let x ← input[source]?
    let target ← cellOf out i
    return out.set target (math x)
  else some out

/-- The threads of a launch, by their block and their place in it. -/
def threads (launch : CudaBackend.Launch) : List (ℕ × ℕ) :=
  List.range launch.gridX.toNat ×ˢ List.range launch.blkX.toNat

/-- The output of a launch whose threads run in the given order. -/
def launchElementwise (math : V → V) (input out : List V) (launch : CudaBackend.Launch)
    (order : List (ℕ × ℕ)) : Option (List V) :=
  order.foldlM (elementThread math input launch.n.toInt32 launch.blkX) out

variable {K : Type} [Ring K] [LinearOrder K]

/-- What the kernel's type makes of a number. -/
def roundT (A : Arithmetic K) (dt : Datatype) (x : K) : K :=
  if dt = .F64 then A.round .F64 x else A.round .F32 x

/-- `in`, as it is copied to the device.
SOURCE: Cuda.cpp:477-478 -/
def deviceInput (A : Arithmetic K) (n : UInt32) (dt : Datatype) (seed : UInt64) : List K :=
  (CpuBackend.hostInput A n dt seed).map fun x => if dt = .F64 then x else A.round .F32 x

/-- The argument `scalar`.
SOURCE: Cuda.cpp:496-497 -/
def argScalar (A : Arithmetic K) (spec : CudaSpec) (dt : Datatype) : K :=
  if dt = .F64 then A.value spec.scalar else A.round .F32 (A.value spec.scalar)

/-- SOURCE: Cuda.cpp:119-128 -/
def elementwiseMath (A : Arithmetic K) (spec : CudaSpec) (scalar x : K) : K :=
  roundT A spec.dt
    (if spec.op = ascii "add" then x + scalar
    else if spec.op = ascii "sub" then x - scalar
    else if spec.op = ascii "mul" then x * scalar
    else if spec.op = ascii "scale" then x * scalar
    else if spec.op = ascii "abs" then |x|
    else if spec.op = ascii "neg" then -x
    else x)

end CudaKernel

end CompilationFabric.Model
