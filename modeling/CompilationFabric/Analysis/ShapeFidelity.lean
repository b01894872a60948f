import CompilationFabric.Analysis.CacheKeySufficiency
import CompilationFabric.Analysis.DecodableArtifacts
import CompilationFabric.Model.CpuValidation

/-!
# The shape an artifact was executed at

A run takes as many elements as the low half of the recorded shape says, or 1024 for a shape of
zero, and validation compares two runs that both do so.  The number of elements is the recorded one
exactly when that is a positive number of 32 bits, which is a condition on the static shape and the
rank of the request and on what the source declares (`elementsFit_iff`).
-/

set_option autoImplicit false

namespace CompilationFabric.Analysis

open CompilationFabric.Interface
open CompilationFabric.Library
open CompilationFabric.Model
open CompilationFabric.Model.CpuBackend

variable {V : Type} {F : Doubles V} {H : Bytes → Digest} {r : CompilationRequest} {p : CpuProgram}
  {out : BackendOutput} {v : Validation V}

/-! ## The property -/

/-- A validation that passes: the one of the compilation itself, or a later one of its artifact,
under any descriptor. -/
inductive Passes (F : Doubles V) (H : Bytes → Digest) (r : CompilationRequest) (p : CpuProgram)
    (out : BackendOutput) (v : Validation V) : Prop where
  | compile (durationMs : Int64) (stages : List StageResult)
      (hcheck : F.checkCompiled r (optimize r (specialize r p)) durationMs = .ok v)
      (hout : compileSource r v.descriptor stages = some (.ok out))
      (hpassed : v.descriptor.passed = true)
  | validate (validation : ValidationDescriptor) (stages : List StageResult)
      (descriptor : ArtifactDescriptor)
      (hout : compileSource r validation stages = some (.ok out))
      (hvalidate : F.validate H descriptor out.executable = .ok v)
      (hpassed : v.descriptor.passed = true)

/-- The reference took as many elements as are recorded in the artifact and next to it. -/
def ExecutedAtShape (out : BackendOutput) (v : Validation V) : Prop :=
  ∃ shapeN : ℕ, 0 < shapeN ∧
    (∃ q, decode out.executable = .ok (.ok q) ∧ q.shapeN.toNat = shapeN) ∧
      out.specialization.shape.map (·.toInt) = [(shapeN : ℤ)] ∧
        ∃ ref, v.reference = some ref ∧ ref.input.length = shapeN

/-- The first extent of the static shape is a positive number of 32 bits; without one, so are the
shape of the source and the rank, unless there is none. -/
def ElementsFit (r : CompilationRequest) (p : CpuProgram) : Prop :=
  match r.staticShape with
  | extent :: _ => 0 < extent.toInt ∧ extent.toInt < 2 ^ 32
  | [] => p.shapeN.toNat < 2 ^ 32 ∧ r.rank.toNat < 2 ^ 32

/-! ## The recorded shape -/

/-- INTERNAL: a derived shape is not zero. -/
theorem derivedShape_ne_zero (ops : List CpuOp) : derivedShape ops ≠ 0 := by
  unfold derivedShape
  dsimp only
  split
  · decide
  · assumption

/-- A source that is accepted has a shape. -/
theorem shapeN_ne_zero {source : Bytes} (h : parseSource source = some (.ok p)) : p.shapeN ≠ 0 := by
  obtain ⟨lines, -, hfinish⟩ := Option.map_eq_some_iff.mp h
  cases lines with
  | error e => cases hfinish
  | ok q =>
      simp only [Except.bind, finishSource] at hfinish
      split at hfinish
      · cases hfinish
      · obtain rfl := Except.ok.inj hfinish
        dsimp only
        split
        · exact derivedShape_ne_zero q.ops
        · assumption

/-- INTERNAL: the larger of two numbers. -/
theorem toNat_max (a b : UInt64) : (max a b).toNat = max a.toNat b.toNat := by
  change (if a ≤ b then b else a).toNat = _
  by_cases h : a ≤ b
  · rw [if_pos h, Nat.max_eq_right (UInt64.le_iff_toNat_le.mp h)]
  · rw [UInt64.le_iff_toNat_le] at h
    rw [if_neg (UInt64.le_iff_toNat_le.not.mpr h), Nat.max_eq_left (Nat.le_of_not_le h)]

/-- INTERNAL: an extent fits when it is positive and below `2 ^ 32`. -/
theorem extent_fits_iff (extent : Int64) :
    0 < extent.toUInt64.toNat ∧ extent.toUInt64.toNat < 2 ^ 32 ↔
      0 < extent.toInt ∧ extent.toInt < 2 ^ 32 := by
  have hcast : extent.toInt = Int.bmod extent.toUInt64.toNat (2 ^ 64) :=
    BitVec.toInt_eq_toNat_bmod _
  have hlt := extent.toUInt64.toNat_lt
  rw [hcast, Int.bmod_def]
  omega

/-- The specialized shape is in range exactly when the elements fit. -/
theorem elementsFit_iff (h : p.shapeN ≠ 0) :
    0 < (specialize r p).shapeN.toNat ∧ (specialize r p).shapeN.toNat < 2 ^ 32 ↔
      ElementsFit r p := by
  have hpos : 0 < p.shapeN.toNat :=
    Nat.pos_of_ne_zero fun hzero => h (UInt64.toNat_inj.mp hzero)
  unfold specialize ElementsFit
  cases hshape : r.staticShape with
  | cons extent extents =>
      dsimp only
      rw [← extent_fits_iff]
      simp only [reduceCtorEq, if_false, toNat_max, max_self, apply_ite UInt64.toNat, ite_self]
  | nil =>
      by_cases hrank : r.rank = 0
      · simp only [hrank, ne_eq, not_true_eq_false, if_false, UInt64.toNat_zero]
        omega
      · simp only [hrank, ne_eq, not_false_eq_true, if_true, toNat_max]
        omega

/-! ## The elements a run takes -/

/-- INTERNAL: the input has the length that was asked for. -/
theorem length_hostInput (n : UInt32) (dt : UInt8) (seed : UInt64) :
    (F.hostInput n dt seed).length = n.toNat := by
  rw [Doubles.hostInput, List.length_map, List.length_range]

/-- The low half of the shape is the shape if and only if there is no more of it. -/
theorem length_input_iff (q : StoredProgram) (seed : UInt64) :
    (0 < q.shapeN.toNat ∧ (F.execute q seed).input.length = q.shapeN.toNat) ↔
      0 < q.shapeN.toNat ∧ q.shapeN.toNat < 2 ^ 32 := by
  have hinput : (F.execute q seed).input.length = (elementCount q.shapeN).toNat :=
    length_hostInput ..
  rw [hinput]
  refine and_congr_right fun hpos => ?_
  have hne : q.shapeN ≠ 0 := fun hzero => by simp [hzero] at hpos
  rw [elementCount, if_pos hne, UInt64.toNat_toUInt32]
  constructor
  · intro h
    rw [← h]
    exact Nat.mod_lt _ (by decide)
  · exact Nat.mod_eq_of_lt

/-- An artifact records the shape of the program it was made of. -/
theorem shapeN_of_decode {p q : StoredProgram} (hsize : (encodeStored p).length ≤ maxObjectSize)
    (h : decode (encodeStored p) = .ok (.ok q)) : q.shapeN = p.shapeN := by
  rw [decode_encodeStored_eq (lt_sizeMod hsize)] at h
  obtain ⟨ops, -, rfl⟩ := map_eq_ok (Except.ok.inj h)
  rfl

/-! ## Validations -/

/-- A compilation that passes its check has decoded its artifact and run the reference. -/
theorem reference_of_checkCompiled {prog : CpuProgram} {durationMs : Int64}
    (h : F.checkCompiled r prog durationMs = .ok v) (hpassed : v.descriptor.passed = true) :
    ∃ q, decode (encode prog) = .ok (.ok q) ∧
      v.reference = some (F.execute prog.stored (Doubles.makeSeedFrom r)) := by
  obtain ⟨dec, hdecode, h⟩ := bind_eq_ok h
  cases dec with
  | error e =>
      cases h
      cases hpassed
  | ok q =>
      cases h
      exact ⟨q, hdecode, rfl⟩

/-- So has a validation that passes, with the program that it decoded as its own reference. -/
theorem reference_of_validate {descriptor : ArtifactDescriptor} {executable : Bytes}
    (h : F.validate H descriptor executable = .ok v) (hpassed : v.descriptor.passed = true) :
    ∃ q seed, decode executable = .ok (.ok q) ∧ v.reference = some (F.execute q seed) := by
  obtain ⟨dec, hdecode, h⟩ := bind_eq_ok h
  cases dec with
  | error e =>
      cases h
      cases hpassed
  | ok q =>
      cases h
      exact ⟨q, _, hdecode, rfl⟩

/-- A compilation describes and encodes the specialized shape. -/
theorem shape_of_compileSource {validation : ValidationDescriptor} {stages : List StageResult}
    (hparse : parseSource r.source = some (.ok p))
    (hout : compileSource r validation stages = some (.ok out)) :
    out.executable = encode (optimize r (specialize r p)) ∧
      out.specialization.shape = [(specialize r p).shapeN.toInt64] := by
  rw [compileSource, hparse] at hout
  obtain rfl := Except.ok.inj (Option.some.inj hout)
  exact ⟨rfl, rfl⟩

/-- Both kinds of validation run a reference at the shape of the specialized program, which is the
one that is recorded. -/
theorem Passes.exists_reference (h : Passes F H r p out v)
    (hparse : parseSource r.source = some (.ok p)) (hsize : out.executable.length ≤ maxObjectSize) :
    ∃ q ref seed, decode out.executable = .ok (.ok q) ∧ q.shapeN = (specialize r p).shapeN ∧
      v.reference = some (F.execute ref seed) ∧ ref.shapeN = (specialize r p).shapeN ∧
        out.specialization.shape = [(specialize r p).shapeN.toInt64] := by
  cases h with
  | compile durationMs stages hcheck hout hpassed =>
      obtain ⟨hexecutable, hshape⟩ := shape_of_compileSource hparse hout
      obtain ⟨q, hdecode, hreference⟩ := reference_of_checkCompiled hcheck hpassed
      rw [hexecutable] at hsize ⊢
      rw [encode_eq] at hsize hdecode ⊢
      exact ⟨q, _, _, hdecode, shapeN_of_decode hsize hdecode, hreference, rfl, hshape⟩
  | validate validation stages descriptor hout hvalidate hpassed =>
      obtain ⟨hexecutable, hshape⟩ := shape_of_compileSource hparse hout
      obtain ⟨q, seed, hdecode, hreference⟩ := reference_of_validate hvalidate hpassed
      rw [hexecutable] at hsize hdecode ⊢
      rw [encode_eq] at hsize hdecode ⊢
      have hshapeN := shapeN_of_decode hsize hdecode
      exact ⟨q, q, seed, hdecode, hshapeN, hreference, hshapeN, hshape⟩

/-- A number of 32 bits stays what it is as a signed one. -/
theorem toInt_toInt64 {n : UInt64} (h : n.toNat < 2 ^ 32) : n.toInt64.toInt = n.toNat := by
  have hcast : n.toInt64.toInt = Int.bmod n.toNat (2 ^ 64) := BitVec.toInt_eq_toNat_bmod _
  rw [hcast, Int.bmod_eq_of_le] <;> omega

/-- INTERNAL: what passes is executed at its shape exactly when the shape is in range. -/
theorem Passes.executed_iff (h : Passes F H r p out v)
    (hparse : parseSource r.source = some (.ok p)) (hsize : out.executable.length ≤ maxObjectSize) :
    ExecutedAtShape out v ↔
      0 < (specialize r p).shapeN.toNat ∧ (specialize r p).shapeN.toNat < 2 ^ 32 := by
  obtain ⟨q, ref, seed, hdecode, hq, hreference, href, hshape⟩ := h.exists_reference hparse hsize
  rw [← href, ← length_input_iff (F := F) ref seed]
  constructor
  · rintro ⟨shapeN, hpos, ⟨q', hdecode', rfl⟩, -, run, hrun, hlength⟩
    rw [hdecode] at hdecode'
    obtain rfl := Except.ok.inj (Except.ok.inj hdecode')
    rw [hreference] at hrun
    obtain rfl := Option.some.inj hrun
    rw [hq, ← href] at hpos hlength
    exact ⟨hpos, hlength⟩
  · rintro ⟨hpos, hlength⟩
    have hlt := ((length_input_iff (F := F) ref seed).mp ⟨hpos, hlength⟩).2
    refine ⟨ref.shapeN.toNat, hpos, ⟨q, hdecode, by rw [hq, href]⟩, ?_, _, hreference, hlength⟩
    rw [hshape, ← href, List.map_singleton, toInt_toInt64 hlt]

/-- INTERNAL: an output is like itself. -/
theorem sameOutput_self (hne : ∀ x, F.ne x x = false) (xs : List V) :
    F.sameOutput xs xs = true := by
  rw [Doubles.sameOutput, decide_eq_true rfl, Bool.true_and, List.all_eq_true]
  intro pair hpair
  rw [List.zip_eq_zipWith, List.zipWith_self, List.mem_map] at hpair
  obtain ⟨x, -, rfl⟩ := hpair
  rw [hne]
  rfl

/-- Without `NaN`, every artifact that is decoded passes. -/
theorem exists_passes (hne : ∀ x, F.ne x x = false) (hparse : parseSource r.source = some (.ok p))
    (hkept : operationsKept r p.ops ≤ 4096)
    (hsize : (encode (optimize r (specialize r p))).length ≤ maxObjectSize) :
    ∃ out v, Passes F H r p out v ∧ out.executable = encode (optimize r (specialize r p)) := by
  have hops : (specialize r p).ops ≠ [] := ops_ne_nil_of_parseSource (p := p) hparse
  have hdecode := (decode_encode_iff (ops_ne_nil_of_optimize hops) hsize).mpr
    (by rw [length_optimize]; exact hkept)
  have hmatch := sameOutput_self hne (F.execute (optimize r (specialize r p)).stored
    (Doubles.makeSeedFrom r)).output
  obtain ⟨v, hcheck, hpassed⟩ : ∃ v, F.checkCompiled r (optimize r (specialize r p)) 0 = .ok v ∧
      v.descriptor.passed = true := by
    unfold Doubles.checkCompiled
    rw [hdecode]
    exact ⟨_, rfl, hmatch⟩
  have hout := congrArg (Option.map fun parsed => compile r parsed v.descriptor []) hparse
  exact ⟨_, v, .compile 0 [] hcheck hout hpassed, rfl⟩

/-- An artifact that passes was executed at its shape if and only if the request and the source
declare a positive number of elements of 32 bits.
SOURCE: CpuBackend.cpp:175-237, 278-337, 364-383 -/
theorem executedAtShape_iff (hpasses : Passes F H r p out v)
    (hparse : parseSource r.source = some (.ok p)) (hsize : out.executable.length ≤ maxObjectSize) :
    ExecutedAtShape out v ↔ ElementsFit r p := by
  rw [hpasses.executed_iff hparse hsize, elementsFit_iff (shapeN_ne_zero hparse)]

/-- Numbers without `NaN` and without rounding. -/
def exactDoubles : Doubles ℚ := Doubles.ofArithmetic plainArithmetic

/-- A request for negated elements, in a static shape. -/
def negatedRequest (extent : Int64) : CompilationRequest :=
  { source := ascii "neg", staticShape := [extent] }

def negatedProgram : CpuProgram :=
  { ops := [{ kind := .Neg, n := 1024 }], shapeN := 1024, name := ascii "cf-kernel" }

/-- INTERNAL: the source of a negation is parsed. -/
theorem parseSource_negation (extent : Int64) :
    parseSource (negatedRequest extent).source = some (.ok negatedProgram) := by
  change parseSource (ascii "neg") = some (.ok negatedProgram)
  decide +kernel

/-- A negation passes at any extent. -/
theorem exists_passes_negated (H : Bytes → Digest) (extent : Int64) :
    ∃ out v, Passes exactDoubles H (negatedRequest extent) negatedProgram out v ∧
      out.executable.length ≤ maxObjectSize := by
  have hops : (optimize (negatedRequest extent)
      (specialize (negatedRequest extent) negatedProgram)).ops = negatedProgram.ops := rfl
  have hsize : (encode (optimize (negatedRequest extent)
      (specialize (negatedRequest extent) negatedProgram))).length ≤ maxObjectSize := by
    rw [length_encodeProgram, hops]
    change 41 + (ascii "cf-kernel").length + 0 + 13 * 1 ≤ maxObjectSize
    decide
  have hkept : operationsKept (negatedRequest extent) negatedProgram.ops ≤ 4096 := by
    rw [operationsKept_of_survive (by decide)]
    decide
  obtain ⟨out, v, hpasses, hexecutable⟩ := exists_passes (H := H)
    (F := exactDoubles) (fun x => decide_eq_false (not_not.mpr rfl))
    (parseSource_negation extent) hkept hsize
  exact ⟨out, v, hpasses, hexecutable ▸ hsize⟩

/-- At two elements it is executed at its shape. -/
theorem executedAtShape_negated :
    ∃ out v, Passes exactDoubles (fun _ => .zero) (negatedRequest 2) negatedProgram out v ∧
      ExecutedAtShape out v := by
  obtain ⟨out, v, hpasses, hsize⟩ := exists_passes_negated (fun _ => .zero) 2
  exact ⟨out, v, hpasses,
    (executedAtShape_iff hpasses (parseSource_negation 2) hsize).mpr ⟨by decide, by decide⟩⟩

/-- An extent of 2³² + 1 is executed in one element. -/
theorem not_executedAtShape :
    ¬ ∀ (V : Type) (F : Doubles V) (H : Bytes → Digest) (r : CompilationRequest) (p : CpuProgram)
        (out : BackendOutput) (v : Validation V), Passes F H r p out v →
      parseSource r.source = some (.ok p) → out.executable.length ≤ maxObjectSize →
        ExecutedAtShape out v := by
  intro hall
  obtain ⟨out, v, hpasses, hsize⟩ := exists_passes_negated (fun _ => .zero) (2 ^ 32 + 1)
  have hparse := parseSource_negation (2 ^ 32 + 1)
  have hlt := ((hpasses.executed_iff hparse hsize).mp
    (hall _ _ _ _ _ out v hpasses hparse hsize)).2
  revert hlt
  decide

end CompilationFabric.Analysis
