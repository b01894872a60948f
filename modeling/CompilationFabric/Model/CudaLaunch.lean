import CompilationFabric.Model.CudaKernel

/-!
# What validation launches

`CudaBackend::validate` takes the number of elements and their type from the specialization of the
artifact, and what the text in it holds for the rest: the shape of the launch, the scalar of the
kernel and the program that the output is compared with.
-/

set_option autoImplicit false

namespace CompilationFabric.Model

open CompilationFabric.Library

namespace CudaBackend

/-- `std::llabs`, of which the smallest number has none. -/
def llabs (x : Int64) : Int64 := if x < 0 then -x else x

/-- `dt == Datatype::F64 ? 8 : 4`. -/
def elementSize (dt : Datatype) : UInt32 := if dt = .F64 then 8 else 4

/-- The arguments of `cuLaunchKernel` and of the buffers in front of it. -/
structure Launch where
  n : UInt32
  dt : Datatype
  gridX : UInt32
  blkX : UInt32
  sharedMem : UInt32
  scalar : UInt64
  deriving DecidableEq

/-- A block of a reduction has a thread for every element as far as it can, and a grid has enough
blocks for all elements otherwise.
SOURCE: Cuda.cpp:484-498 -/
def launchOf (spec : CudaSpec) (n : UInt32) (dt : Datatype) : Launch :=
  if spec.reduce then
    let b := UInt32.ofNat (CudaKernel.blockSize n)
    { n, dt, gridX := 1, blkX := b, sharedMem := b * elementSize dt, scalar := spec.scalar }
  else
    let block := (if spec.block ≠ 0 then spec.block else 256).toUInt32
    { n, dt, gridX := (n + block - 1) / block, blkX := block, sharedMem := 0,
      scalar := spec.scalar }

/-- The program of one operation that the output is compared with.
SOURCE: Cuda.cpp:451-452 -/
def referenceProgram (spec : CudaSpec) (n : UInt32) (dt : Datatype) : CpuProgram :=
  { shapeN := n.toUInt64
    datatype := if dt ≠ .None then dt else spec.dt
    ops := [{ kind := opKindFor spec.op, scalar := spec.scalar, n := n }] }

/-- SOURCE: Cuda.cpp:465 -/
def elementsRead (spec : CudaSpec) (d : SpecializationDescriptor) : UInt32 :=
  match d.shape with
  | [] => spec.n
  | x :: _ => (llabs x).toUInt64.toUInt32

/-- SOURCE: Cuda.cpp:466 -/
def datatypeRead (spec : CudaSpec) (d : SpecializationDescriptor) : Datatype :=
  if d.datatype ≠ .None then d.datatype else spec.dt

/-- What validation launches, and what it compares the output with.
SOURCE: Cuda.cpp:464-466, 484-498, 508 -/
def validationRun (d : SpecializationDescriptor) : Launch × CpuProgram :=
  let spec := CudaSpec.parse d.launchSpecialization
  let n := elementsRead spec d
  let dt := datatypeRead spec d
  (launchOf spec n dt, referenceProgram spec n dt)

/-- The specialization of an artifact that is compiled from a specification.
SOURCE: Cuda.cpp:399-403, 437-439 -/
def specializationOf (spec : CudaSpec) (architecture : Bytes) : SpecializationDescriptor :=
  { datatype := spec.dt
    shape := [Int64.ofInt spec.n.toNat]
    architecture
    launchSpecialization := spec.encode }

end CudaBackend

namespace CudaKernel

/-- `out[0]` after the launch of validation, from the kernel that is generated for a reduction.  It
is generated only when `reduce` is set, and launched with one block only then.
SOURCE: Cuda.cpp:135-153, 485-498 -/
def launch (spec : CudaSpec) (input : List ℚ) (n : UInt32) (schedule : ℕ → List ℕ) : Option ℚ :=
  let run := CudaBackend.launchOf spec n spec.dt
  if spec.reduce then kernel spec input run.n.toInt32 run.blkX.toNat schedule else none

/-- What is launched when `reduce` is set: one block of `min(n, 1024)` threads. -/
theorem launch_eq {spec : CudaSpec} (h : spec.reduce = true) (input : List ℚ) (n : UInt32)
    (schedule : ℕ → List ℕ) :
    launch spec input n schedule = kernel spec input n.toInt32 (blockSize n) schedule := by
  have hsize : (UInt32.ofNat (blockSize n)).toNat = blockSize n := by
    apply UInt32.toNat_ofNat_of_lt'
    exact (min_le_right _ _).trans_lt (by decide)
  unfold launch CudaBackend.launchOf
  simp only [h, if_true, hsize]

end CudaKernel

end CompilationFabric.Model
