import CompilationFabric.Model.CpuSource
import Mathlib.Algebra.Order.Ring.Abs

/-!
# Running a CPU program

`CpuBackend::execute` in exact arithmetic.  The numbers are those of any ordered ring; how a
datatype rounds, what number a bit pattern stands for and what the host input is are data of an
`Arithmetic`.  Of rounding only its idempotence is known, and of the bit patterns that the two
zeros and the one are what they should be.
-/

set_option autoImplicit false

namespace CompilationFabric.Model

/-- The numbers that programs run on. -/
structure Arithmetic (K : Type*) [Ring K] where
  /-- `rr`. -/
  round : Datatype → K → K
  round_round : ∀ d x, round d (round d x) = round d x
  /-- The number of a `double`. -/
  value : UInt64 → K
  value_of_isZero : ∀ b, CpuBackend.isZero b = true → value b = 0
  value_one : value CpuBackend.one = 1
  /-- The unrounded host input, by index and seed. -/
  wave : ℕ → UInt64 → K

namespace CpuBackend

variable {K : Type*} [Ring K] [LinearOrder K]

/-- SOURCE: CpuBackend.cpp:175-179 -/
def hostInput (A : Arithmetic K) (n : UInt32) (d : Datatype) (seed : UInt64) : List K :=
  (List.range n.toNat).map fun i => A.round d (A.wave i seed)

/-- What an operation makes of one element, before rounding.
SOURCE: CpuBackend.cpp:203-211 -/
def element (A : Arithmetic K) (op : CpuOp) (x : K) : K :=
  match op.kind with
  | .Add => x + A.value op.scalar
  | .Sub => x - A.value op.scalar
  | .Mul | .Scale => x * A.value op.scalar
  | .Abs => |x|
  | .Neg => -x
  | _ => x

/-- What a reduction makes of the elements, before rounding.
SOURCE: CpuBackend.cpp:219-224 -/
def reduce (kind : CpuOpKind) (xs : List K) : K :=
  match kind with
  | .Sum => xs.foldl (· + ·) 0
  | .Max => xs.foldl max (xs.headD 0)
  | _ => xs.foldl min (xs.headD 0)

/-- SOURCE: CpuBackend.cpp:193-229 -/
def applyOp (A : Arithmetic K) (d : Datatype) (xs : List K) (op : CpuOp) : List K :=
  match op.kind with
  | .Nop => xs
  | .Sum | .Max | .Min => [A.round d (reduce op.kind xs)]
  | _ => xs.map fun x => A.round d (element A op x)

/-- SOURCE: CpuBackend.cpp:188-232 -/
def execute (A : Arithmetic K) (p : CpuProgram) (seed : UInt64) : List K :=
  p.ops.foldl (applyOp A p.datatype) (hostInput A (elementCount p.shapeN) p.datatype seed)

end CpuBackend

end CompilationFabric.Model
