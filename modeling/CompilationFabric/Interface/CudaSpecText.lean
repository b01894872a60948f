import CompilationFabric.Model.CudaSpec

/-!
# The text of a CUDA specialization

What `CudaSpec::parse` reads from the text of `CudaSpec::encode`: everything that was written,
but the scalar as its six decimals give it and always the default datatype, whose printed name no
table has.
-/

set_option autoImplicit false

namespace CompilationFabric.Interface

open CompilationFabric.Library
open CompilationFabric.Model
open CompilationFabric.Model.CudaSpec
open CompilationFabric.Model.CpuBackend

/-- The members of a text are found where they were written. -/
theorem splitPair_member {name : String} (h : equalsSign ∉ ascii name) (val : Bytes) :
    splitPair (member name val) = some (ascii name, val) := by
  have hall : ∀ c ∈ ascii name, decide (c ≠ equalsSign) = true := by
    intro c hc
    rw [decide_eq_true_eq]
    rintro rfl
    exact h hc
  unfold splitPair member
  rw [if_pos (by simp), List.takeWhile_append_of_pos hall, List.dropWhile_append_of_pos hall]
  simp

/-- INTERNAL: a member has no separator when its name and its text have none. -/
theorem not_mem_member {name : String} {val : Bytes} (hname : semicolon ∉ ascii name)
    (hval : semicolon ∉ val) : semicolon ∉ member name val := by
  unfold member
  rw [List.mem_append, List.mem_cons]
  rintro (h | h | h)
  · exact hname h
  · cases h
  · exact hval h

/-- The parts of the text of a specialization. -/
theorem getlines_encode {s : CudaSpec} (hop : semicolon ∉ s.op) :
    Numerals.getlines semicolon s.encode =
      [member "op" s.op, member "scalar" (Numerals.fixedText s.scalar),
        member "n" (DecimalText.natText s.n.toNat), member "dt" (datatypeName s.dt),
        member "block" (DecimalText.intText s.block.toInt),
        member "reduce" (ascii (if s.reduce then "1" else "0"))] := by
  have hdigit : ∀ n, semicolon ∉ DecimalText.natText n := fun n h => by
    have hc := Numerals.isDigit_of_mem_natText h
    revert hc
    decide
  have hint : ∀ z, semicolon ∉ DecimalText.intText z := by
    intro z
    unfold DecimalText.intText
    split
    · rw [List.mem_cons, not_or]
      exact ⟨by decide, hdigit _⟩
    · exact hdigit _
  have hdt : semicolon ∉ datatypeName s.dt := by
    cases s.dt <;> decide +kernel
  have hlast : semicolon ∉ ascii (if s.reduce then "1" else "0") := by
    cases s.reduce <;> decide
  unfold CudaSpec.encode
  rw [Numerals.getlines_cons (not_mem_member (by decide) hop),
    Numerals.getlines_cons (not_mem_member (by decide)
      (Numerals.not_mem_fixedText _ (by decide) (by decide))),
    Numerals.getlines_cons (not_mem_member (by decide) (hdigit _)),
    Numerals.getlines_cons (not_mem_member (by decide) hdt),
    Numerals.getlines_cons (not_mem_member (by decide) (hint _)),
    Numerals.getlines_singleton (not_mem_member (by decide) hlast) (by simp [member])]

/-- A member sets the field of its name.
SOURCE: Cuda.cpp:95-116 -/
theorem set_member (name : String) (h : equalsSign ∉ ascii name) (s : CudaSpec) (v : Bytes) :
    s.set (member name v) =
      if ascii name = ascii "op" then { s with op := v }
      else if ascii name = ascii "scalar" then { s with scalar := Numerals.strtod v }
      else if ascii name = ascii "n" then { s with n := (Numerals.strtoull v).toUInt32 }
      else if ascii name = ascii "dt" then { s with dt := (datatypeFromName v).getD s.dt }
      else if ascii name = ascii "block" then
        { s with block := (Numerals.strtoull v).toUInt32.toInt32 }
      else if ascii name = ascii "reduce" then { s with reduce := v = ascii "1" }
      else s := by
  unfold CudaSpec.set
  rw [splitPair_member h]

/-- What is read back from the text of a specialization.
SOURCE: Cuda.cpp:95-116 -/
theorem parse_encode {s : CudaSpec} (hop : semicolon ∉ s.op) :
    CudaSpec.parse s.encode =
      { s with scalar := Numerals.strtod (Numerals.fixedText s.scalar), dt := .F32 } := by
  have hn : (Numerals.strtoull (DecimalText.natText s.n.toNat)).toUInt32 = s.n := by
    rw [Numerals.strtoull_natText (by have := s.n.toNat_lt; omega)]
    apply UInt32.toNat_inj.mp
    simp
  have hblock : (Numerals.strtoull (DecimalText.intText s.block.toInt)).toUInt32.toInt32 =
      s.block := by
    have hnarrow : (Int64.ofInt s.block.toInt).toUInt64.toUInt32.toInt32 =
        (Int64.ofInt s.block.toInt).toInt32 := by
      apply Int32.toBitVec_inj.mp
      rw [Int64.toBitVec_toInt32, BitVec.signExtend_eq_setWidth_of_le _ (by decide)]
      simp
    have hlo := s.block.le_toInt
    have hhi := s.block.toInt_lt
    rw [Numerals.strtoull_intText (by omega) (by omega), hnarrow, Int64.toInt32_ofInt,
      Int32.ofInt_toInt]
  have hreduce : decide (ascii (if s.reduce then "1" else "0") = ascii "1") = s.reduce := by
    cases s.reduce <;> decide
  unfold CudaSpec.parse
  rw [getlines_encode hop]
  simp only [List.foldl_cons, List.foldl_nil]
  rw [set_member "op" (by decide), if_pos rfl, set_member "scalar" (by decide),
    if_neg (by decide), if_pos rfl, set_member "n" (by decide), if_neg (by decide),
    if_neg (by decide), if_pos rfl, set_member "dt" (by decide), if_neg (by decide),
    if_neg (by decide), if_neg (by decide), if_pos rfl, set_member "block" (by decide),
    if_neg (by decide), if_neg (by decide), if_neg (by decide), if_neg (by decide), if_pos rfl,
    set_member "reduce" (by decide), if_neg (by decide), if_neg (by decide), if_neg (by decide),
    if_neg (by decide), if_neg (by decide), if_pos rfl, hn, hblock, hreduce,
    datatypeFromName_datatypeName]
  rfl

end CompilationFabric.Interface
