import CompilationFabric.Interface.CudaSpecText
import CompilationFabric.Library.FixedNotation
import CompilationFabric.Model.CudaLaunch

/-!
# The text of a specialization is read back but for its datatype

`CudaSpec::parse` takes the default datatype whatever `CudaSpec::encode` has written, since the
text has the qualified name of a datatype and the table only the plain ones.  All the rest comes
back (`parse_encode_of_printsExactly`), and the descriptor that the compilation leaves has the
datatype a second time, which validation prefers (`validationRun_specializationOf`).
-/

set_option autoImplicit false

namespace CompilationFabric.Analysis

open CompilationFabric.Library
open CompilationFabric.Model
open CompilationFabric.Model.CudaBackend

variable {s : CudaSpec}

/-- No generated name has the separator in it. -/
theorem semicolon_not_mem_opNameFor (kind : CpuOpKind) :
    CudaSpec.semicolon ∉ opNameFor kind := by
  cases kind <;> decide

/-- All comes back but the datatype. -/
theorem parse_encode_of_printsExactly (kind : CpuOpKind) (hop : s.op = opNameFor kind)
    (hscalar : Numerals.PrintsExactly s.scalar) :
    CudaSpec.parse s.encode = { s with dt := .F32 } := by
  have hno : CudaSpec.semicolon ∉ s.op := by
    rw [hop]
    exact semicolon_not_mem_opNameFor kind
  rw [Interface.parse_encode hno, Numerals.strtod_fixedText hscalar]

/-! ## What validation takes from it -/

/-- The element count of a shape is the one that was written. -/
theorem llabs_ofInt (n : UInt32) : (llabs (Int64.ofInt n.toNat)).toUInt64.toUInt32 = n := by
  have hlt := n.toNat_lt
  have hint : (Int64.ofInt n.toNat).toInt = n.toNat :=
    Int64.toInt_ofInt_of_le (by omega) (by omega)
  have hnonneg : ¬ Int64.ofInt n.toNat < 0 := by
    rw [Int64.lt_iff_toInt_lt, hint, Int64.toInt_zero]
    omega
  unfold llabs
  rw [if_neg hnonneg, Binary64.toUInt64_ofInt, Numerals.ofInt_natCast]
  apply UInt32.toNat_inj.mp
  simp

/-- INTERNAL: validation has the element count of the specialization. -/
theorem elementsRead_specializationOf (spec s : CudaSpec) (architecture : Bytes) :
    elementsRead spec (specializationOf s architecture) = s.n := llabs_ofInt s.n

/-- With a datatype in the descriptor the text's own is never asked for. -/
theorem validationRun_specializationOf (kind : CpuOpKind) (hop : s.op = opNameFor kind)
    (hscalar : Numerals.PrintsExactly s.scalar) (hdt : s.dt ≠ .None) (architecture : Bytes) :
    validationRun (specializationOf s architecture) =
      (launchOf s s.n s.dt, referenceProgram s s.n s.dt) := by
  have hparse : CudaSpec.parse (specializationOf s architecture).launchSpecialization =
      { s with dt := .F32 } := parse_encode_of_printsExactly kind hop hscalar
  have hread : ∀ spec, datatypeRead spec (specializationOf s architecture) = s.dt :=
    fun _ => if_pos hdt
  unfold validationRun
  simp only [hparse, elementsRead_specializationOf, hread]
  unfold launchOf referenceProgram
  simp only [if_pos hdt]

/-! ## The round trip -/

/-- A specialization comes back from its text, and validation launches and compares what was
compiled. -/
structure ReadsBack (s : CudaSpec) : Prop where
  parse : CudaSpec.parse s.encode = s
  run : ∀ architecture, validationRun (specializationOf s architecture) =
    (launchOf s s.n s.dt, referenceProgram s s.n s.dt)

/-- Only the default datatype comes back.
SOURCE: Cuda.cpp:95-116, Semantic.cpp:7-26 -/
theorem readsBack_iff (kind : CpuOpKind) (hop : s.op = opNameFor kind)
    (hscalar : Numerals.PrintsExactly s.scalar) : ReadsBack s ↔ s.dt = .F32 := by
  have hparse := parse_encode_of_printsExactly kind hop hscalar
  constructor
  · intro h
    have hdt := congrArg CudaSpec.dt (hparse.symm.trans h.parse)
    exact hdt.symm
  · intro hdt
    have hsame : { s with dt := .F32 } = s := by rw [← hdt]
    have hsome : s.dt ≠ .None := by
      rw [hdt]
      decide
    exact ⟨hparse.trans hsame, validationRun_specializationOf kind hop hscalar hsome⟩

/-- The pattern of two and a half. -/
def twoAndAHalf : UInt64 := 0x4004000000000000

/-- Two and a half has fewer than six decimals. -/
theorem printsExactly_twoAndAHalf : Numerals.PrintsExactly twoAndAHalf := by
  have hvalue : Numerals.ratOfBits twoAndAHalf = some (5 / 2) := by
    decide +kernel
  unfold Numerals.PrintsExactly
  rw [hvalue]
  exact ⟨2500000, by norm_num⟩

/-- An absolute value, on fewer elements and in smaller blocks than the default. -/
def absSpec : CudaSpec where
  op := opNameFor .Abs
  scalar := twoAndAHalf
  n := 640
  block := 64

/-- It is read back. -/
theorem readsBack_abs : ReadsBack absSpec :=
  (readsBack_iff .Abs rfl printsExactly_twoAndAHalf).mpr rfl

/-- A specialization in double precision comes back in single precision. -/
theorem not_readsBack : ¬ ReadsBack { dt := .F64 } := by
  intro h
  have hdt := congrArg CudaSpec.dt h.parse
  revert hdt
  decide +kernel

end CompilationFabric.Analysis
