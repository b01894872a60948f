import CompilationFabric.Library.TreeReduction
import CompilationFabric.Model.CudaSpec
import Mathlib.Data.Rat.Defs

/-!
# The generated reduction kernel

What the kernel of a reduction does, statement by statement, in exact arithmetic: the numbers are
rationals, and the values of its type are those that a finite `float` or `double` can be at most.

Every thread first accumulates its share of the input in a variable of its own, over an `int`
index; the block then reduces the accumulators in shared memory.  A read outside of the input is
undefined, and so is then what the kernel does.
-/

set_option autoImplicit false

namespace CompilationFabric.Model

namespace CudaKernel

open CompilationFabric.Library

/-- `FLT_MAX` or `DBL_MAX`, for the type of the kernel. -/
def maxValue (dt : Datatype) : ℚ :=
  if dt = .F64 then (2 ^ 53 - 1) * 2 ^ 971 else (2 ^ 24 - 1) * 2 ^ 104

/-- A number in the range of the kernel's type. -/
abbrev KernelValue (dt : Datatype) := { x : ℚ // |x| ≤ maxValue dt }

/-- SOURCE: Cuda.cpp:136-137 -/
def initv (spec : CudaSpec) : ℚ :=
  if spec.op = ascii "max" then -maxValue spec.dt
  else if spec.op = ascii "min" then maxValue spec.dt
  else 0

/-- What becomes of an accumulator, and of the lower of two cells.
SOURCE: Cuda.cpp:142-144, 149-151 -/
def combine (spec : CudaSpec) (acc x : ℚ) : ℚ :=
  if spec.op = ascii "sum" then acc + x
  else if spec.op = ascii "max" then if acc > x then acc else x
  else if acc < x then acc else x

/-- `in[i]`. -/
def elementAt (input : List ℚ) (i : Int32) : Option ℚ :=
  if i < 0 then none else input[i.toInt.toNat]?

/-- The loop of one thread from an index on; there are never more rounds than elements and one.
SOURCE: Cuda.cpp:141-145 -/
def accumulate (spec : CudaSpec) (input : List ℚ) (n : Int32) (blockDim : ℕ) :
    ℕ → Int32 → ℚ → Option ℚ
  | 0, _, _ => none
  | rounds + 1, i, acc =>
      if i < n then
        (elementAt input i).bind fun x =>
          accumulate spec input n blockDim rounds (i + Int32.ofNat blockDim) (combine spec acc x)
      else some acc

/-- One block; the schedule is the order in which the threads reach the barrier of a stride.
SOURCE: Cuda.cpp:138-153 -/
def kernel (spec : CudaSpec) (input : List ℚ) (n : Int32) (blockDim : ℕ)
    (schedule : ℕ → List ℕ) : Option ℚ :=
  let accs := (List.range blockDim).mapM fun tid =>
    accumulate spec input n blockDim (input.length + 1) (Int32.ofNat tid) (initv spec)
  accs.map fun accs =>
    TreeReduction.tree (combine spec) blockDim schedule (fun tid => accs.getD tid 0) 0

/-- SOURCE: Cuda.cpp:487 -/
def blockSize (n : UInt32) : ℕ := min n.toNat 1024

end CudaKernel

end CompilationFabric.Model
