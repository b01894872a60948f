import CompilationFabric.Analysis.BytecodeBijection
import CompilationFabric.Model.CpuSource

/-!
# Artifacts that decode

The decoder of the CPU backend takes at most 4096 operations; the parser, the folding and the
encoder have no such limit.  What decides is how many operations the folding leaves
(`length_optimize`): up to the limit the artifact decodes to the program it was made of, by the
bijection of the bytecode, and above it no artifact decodes to that program, since what is decoded
has at most 4096.
-/

set_option autoImplicit false

namespace CompilationFabric.Analysis

open CompilationFabric.Library
open CompilationFabric.Model
open CompilationFabric.Model.CpuBackend

variable {r : CompilationRequest} {p : CpuProgram}

/-- The artifact decodes to the program that was encoded. -/
def DecodesBack (r : CompilationRequest) (p : CpuProgram) (out : BackendOutput) : Prop :=
  decode out.executable = .ok (.ok (optimize r (specialize r p)).stored)

/-- How many of a source's operations are in the artifact: all of them when nothing is folded, or
when the folding would leave none. -/
def operationsKept (r : CompilationRequest) (ops : List CpuOp) : ℕ :=
  if 0 < r.optimizeLevel ∧ ∃ op ∈ ops, survives op = true then ops.countP survives
  else ops.length

/-- INTERNAL: the optimiser keeps the operations that it keeps. -/
theorem length_optimize (r : CompilationRequest) (p : CpuProgram) :
    (optimize r p).ops.length = operationsKept r p.ops := by
  unfold optimize operationsKept
  by_cases hlevel : 0 < r.optimizeLevel
  · by_cases hsome : ∃ op ∈ p.ops, survives op = true
    · have hne : p.ops.filter survives ≠ [] := by
        rw [ne_eq, List.filter_eq_nil_iff]
        push Not
        exact hsome
      simp only [hlevel, hsome, if_true, hne, if_false, and_self, List.countP_eq_length_filter]
    · have hnil : p.ops.filter survives = [] := by
        rw [List.filter_eq_nil_iff]
        push Not at hsome
        exact hsome
      simp only [hlevel, hsome, if_true, hnil, and_false, if_false]
  · simp only [hlevel, if_false, false_and, ite_self]

/-- INTERNAL: operations that all survive are kept. -/
theorem operationsKept_of_survive {ops : List CpuOp} (h : ∀ op ∈ ops, survives op = true) :
    operationsKept r ops = ops.length := by
  unfold operationsKept
  rw [List.countP_eq_length.mpr h, ite_self]

/-- INTERNAL: the optimiser never leaves a program without operations. -/
theorem ops_ne_nil_of_optimize (h : p.ops ≠ []) : (optimize r p).ops ≠ [] := by
  unfold optimize
  dsimp only
  generalize (if 0 < r.optimizeLevel then p.ops.filter survives else p.ops) = kept
  split
  · exact h
  · assumption

/-- An artifact of a program decodes to it up to the limit of the decoder. -/
theorem decode_encode_iff (hne : p.ops ≠ []) (hsize : (encode p).length ≤ maxObjectSize) :
    decode (encode p) = .ok (.ok p.stored) ↔ p.ops.length ≤ 4096 := by
  have hlength : p.stored.ops.length = p.ops.length := List.length_map _
  rw [encode_eq] at hsize ⊢
  rw [← hlength]
  constructor
  · exact fun h => (decode_eq_ok hsize h).2.2
  · intro hle
    have hne' : p.stored.ops ≠ [] := by
      rw [← List.length_pos_iff, hlength]
      exact List.length_pos_of_ne_nil hne
    exact decode_encodeStored hne' hle (lt_sizeMod hsize)

/-- The artifact that a request is compiled to decodes to the program that was encoded if and only
if at most 4096 operations are left of its source.
SOURCE: CpuBackend.cpp:79-173, 270-337 -/
theorem decodesBack_iff {validation : ValidationDescriptor} {stages : List StageResult}
    {out : BackendOutput} (hparse : parseSource r.source = some (.ok p))
    (hout : compileSource r validation stages = some (.ok out))
    (hsize : out.executable.length ≤ maxObjectSize) :
    DecodesBack r p out ↔ operationsKept r p.ops ≤ 4096 := by
  obtain ⟨q, hparse', hexecutable⟩ := compileSource_eq_ok hout
  obtain rfl := Except.ok.inj (Option.some.inj (hparse.symm.trans hparse'))
  have hne : (specialize r p).ops ≠ [] := ops_ne_nil_of_parseSource (p := p) hparse
  rw [hexecutable] at hsize
  rw [DecodesBack, hexecutable, decode_encode_iff (ops_ne_nil_of_optimize hne) hsize,
    length_optimize]
  rfl

/-- A negation is compiled and decoded. -/
theorem decodesBack_negation :
    ∃ out, compileSource { source := ascii "neg" } {} [] = some (.ok out) ∧
      DecodesBack { source := ascii "neg" }
        { ops := [{ kind := .Neg, n := 1024 }], shapeN := 1024, name := ascii "cf-kernel" } out := by
  have hparse : parseSource (ascii "neg") = some (.ok
      { ops := [{ kind := .Neg, n := 1024 }], shapeN := 1024, name := ascii "cf-kernel" }) := by
    decide +kernel
  have hout := congrArg (Option.map fun parsed => compile { source := ascii "neg" } parsed {} [])
    hparse
  exact ⟨_, hout, (decodesBack_iff hparse hout (by decide +kernel)).mpr (by decide +kernel)⟩

/-! ## A source of many operations -/

/-- Lines that negate the elements. -/
def negations (n : ℕ) : Bytes := (List.replicate n (ascii "neg\n")).flatten

/-- INTERNAL: the lines of many negations. -/
theorem getlines_negations (n : ℕ) :
    Numerals.getlines newline (negations n) = List.replicate n (ascii "neg") := by
  induction n with
  | zero => rfl
  | succ n ih =>
      have hcons : negations (n + 1) = ascii "neg" ++ newline :: negations n := rfl
      rw [hcons, Numerals.getlines_cons (by decide), ih]
      rfl

/-- INTERNAL: many lines are parsed to as many negations. -/
theorem readLines_negations (n : ℕ) (p : CpuProgram) :
    readLines p (List.replicate n (ascii "neg")) = some (.ok { p with
      ops := p.ops ++ List.replicate n { kind := .Neg, n := elementCount p.shapeN } }) := by
  induction n generalizing p with
  | zero =>
      rw [List.replicate_zero, List.replicate_zero, List.append_nil]
      rfl
  | succ n ih =>
      have hread : readLine p (ascii "neg") =
          .operation { kind := .Neg, n := elementCount p.shapeN } := rfl
      rw [List.replicate_succ, readLines, hread, List.replicate_succ]
      dsimp only
      rw [ih, List.append_assoc]
      rfl

/-- A source of many negations is parsed. -/
theorem parseSource_negations (n : ℕ) :
    ∃ p, parseSource (negations (n + 1)) = some (.ok p) ∧ p.name = ascii "cf-kernel" ∧
      p.ops = List.replicate (n + 1) { kind := .Neg, n := 1024 } := by
  rw [parseSource, getlines_negations, readLines_negations, Option.map_some]
  exact ⟨_, rfl, rfl, rfl⟩

/-- INTERNAL: the length of the bytecode by its parts. -/
theorem length_encodeStored (q : StoredProgram) :
    (encodeStored q).length = 41 + q.name.length + q.launchConfig.length + 13 * q.ops.length := by
  have hu8 : ∀ v, (CanonicalWriter.u8 v).length = 1 := fun _ => rfl
  have hop : ∀ op : StoredOp, (encodeStoredOp op).length = 13 := by
    intro op
    simp [encodeStoredOp, hu8]
  have hops : (q.ops.flatMap encodeStoredOp).length = 13 * q.ops.length := by
    rw [List.length_flatMap, List.map_congr_left fun op _ => hop op, List.map_const',
      List.sum_replicate_nat, Nat.mul_comm]
  unfold encodeStored
  simp only [List.length_append, hops, hu8, CanonicalWriter.length_string,
    CanonicalWriter.length_u32, CanonicalWriter.length_u64]
  omega

/-- INTERNAL: the length of an encoded program by its parts. -/
theorem length_encodeProgram (p : CpuProgram) :
    (encode p).length = 41 + p.name.length + p.launchConfig.length + 13 * p.ops.length := by
  rw [encode_eq, length_encodeStored]
  simp [CpuProgram.stored]

/-- 4097 operations are more than the decoder takes. -/
theorem not_decodesBack :
    ¬ ∀ (r : CompilationRequest) (validation : ValidationDescriptor) (stages : List StageResult)
        (p : CpuProgram) (out : BackendOutput), parseSource r.source = some (.ok p) →
      compileSource r validation stages = some (.ok out) →
        out.executable.length ≤ maxObjectSize → DecodesBack r p out := by
  intro hall
  obtain ⟨p, hparse, hname, hops⟩ := parseSource_negations 4096
  let r : CompilationRequest := { source := negations 4097 }
  have hout := congrArg (Option.map fun parsed => compile r parsed {} []) hparse
  have hlength : (optimize r (specialize r p)).ops.length = 4097 := by
    rw [length_optimize]
    change operationsKept r p.ops = 4097
    rw [operationsKept_of_survive, hops, List.length_replicate]
    intro op hop
    rw [hops] at hop
    rw [List.eq_of_mem_replicate hop]
    rfl
  have hne : (optimize r (specialize r p)).ops ≠ [] := by
    rw [← List.length_pos_iff, hlength]
    decide
  have hsize : (encode (optimize r (specialize r p))).length ≤ maxObjectSize := by
    rw [length_encodeProgram, hlength]
    change 41 + p.name.length + 0 + 13 * 4097 ≤ maxObjectSize
    rw [hname]
    decide
  have hle := (decode_encode_iff hne hsize).mp (hall r {} [] p _ hparse hout hsize)
  omega

end CompilationFabric.Analysis
