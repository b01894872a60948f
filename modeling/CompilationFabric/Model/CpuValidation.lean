import CompilationFabric.Model.CpuBytecode
import CompilationFabric.Model.CpuExecution

/-!
# Validation of a CPU artifact

The program that an artifact decodes to is run against the program that was encoded, or against
itself, in the `double`s of the machine.  Nothing is known about these but that they have the
operations the code uses: `Doubles` is any such type, and exact numbers are one
(`Doubles.ofArithmetic`).  A run keeps the elements it took and those it delivers.
-/

set_option autoImplicit false

namespace CompilationFabric.Model

/-- What the code does with a `double`. -/
structure Doubles (V : Type) where
  /-- To a `float` and back. -/
  toFloat : V → V
  /-- The number of a bit pattern. -/
  value : UInt64 → V
  /-- The unrounded host input, by index and seed. -/
  wave : ℕ → UInt64 → V
  zero : V
  add : V → V → V
  sub : V → V → V
  mul : V → V → V
  fabs : V → V
  neg : V → V
  less : V → V → Bool
  ne : V → V → Bool

/-- A run, from its input to its output. -/
structure Execution (V : Type) where
  input : List V
  output : List V

/-- What a validation reports, with the run of the reference unless there was none. -/
structure Validation (V : Type) where
  descriptor : ValidationDescriptor
  reference : Option (Execution V)

namespace Doubles

variable {V : Type} (F : Doubles V)

/-- Numbers without `NaN`. -/
def ofArithmetic {K : Type} [Ring K] [LinearOrder K] (A : Arithmetic K) : Doubles K where
  toFloat := A.round .F32
  value := A.value
  wave := A.wave
  zero := 0
  add := (· + ·)
  sub := (· - ·)
  mul := (· * ·)
  fabs x := |x|
  neg x := -x
  less x y := x < y
  ne x y := x ≠ y

/-- SOURCE: CpuBackend.cpp:54-57 -/
def rr (v : V) (dt : UInt8) : V := if dt = Datatype.F32.toUInt8 then F.toFloat v else v

/-- SOURCE: CpuBackend.cpp:175-179 -/
def hostInput (n : UInt32) (dt : UInt8) (seed : UInt64) : List V :=
  (List.range n.toNat).map fun i => F.rr (F.wave i seed) dt

/-- The operation whose `case` a byte takes. -/
def caseOf (kind : UInt8) : Option CpuOpKind :=
  [CpuOpKind.Nop, .Add, .Sub, .Mul, .Scale, .Abs, .Neg, .Sum, .Max, .Min, .Id].find?
    fun k => k.toUInt8 = kind

/-- The case of the stored kind is the kind. -/
@[simp] theorem caseOf_toUInt8 (kind : CpuOpKind) : caseOf kind.toUInt8 = some kind := by
  cases kind <;> rfl

/-- SOURCE: CpuBackend.cpp:193-229 -/
def applyOp (dt : UInt8) (out : List V) (op : StoredOp) : List V :=
  match caseOf op.kind with
  | some .Add => out.map fun x => F.rr (F.add x (F.value op.scalar)) dt
  | some .Sub => out.map fun x => F.rr (F.sub x (F.value op.scalar)) dt
  | some .Mul | some .Scale => out.map fun x => F.rr (F.mul x (F.value op.scalar)) dt
  | some .Abs => out.map fun x => F.rr (F.fabs x) dt
  | some .Neg => out.map fun x => F.rr (F.neg x) dt
  | some .Id => out.map fun x => F.rr x dt
  | some .Sum => [F.rr (out.foldl F.add F.zero) dt]
  | some .Max =>
      [F.rr (out.foldl (fun acc x => if F.less acc x then x else acc) (out.headD F.zero)) dt]
  | some .Min =>
      [F.rr (out.foldl (fun acc x => if F.less x acc then x else acc) (out.headD F.zero)) dt]
  | some .Nop | none => out

/-- SOURCE: CpuBackend.cpp:188-232 -/
def execute (p : StoredProgram) (seed : UInt64) : Execution V :=
  let input := F.hostInput (CpuBackend.elementCount p.shapeN) p.datatype seed
  { input, output := p.ops.foldl (F.applyOp p.datatype) input }

/-- SOURCE: CpuBackend.cpp:234-237 -/
def reference (p : StoredProgram) (seed : UInt64) : Execution V := F.execute p seed

/-- SOURCE: CpuBackend.cpp:321-322, 378-379 -/
def sameOutput (out ref : List V) : Bool :=
  out.length = ref.length && (out.zip ref).all fun pair => !F.ne pair.1 pair.2

/-- SOURCE: CpuBackend.cpp:48-53 -/
def makeSeedFrom (r : CompilationRequest) : UInt64 :=
  let h := r.sourceDigest.bytes.foldl (fun h b => h * 131 + b.toUInt64) 0x9e3779b97f4a7c15
  (h ^^^ (r.autotuneSeed * 2654435761)) &&& 0x7FFFFFFF

/-- The check of what has just been compiled.
SOURCE: CpuBackend.cpp:312-337 -/
def checkCompiled (r : CompilationRequest) (prog : CpuProgram) (durationMs : Int64) :
    Throwing (Validation V) := do
  let vd : ValidationDescriptor :=
    { executed := true, method := ascii "cpu-execute-reference", durationMs }
  match ← CpuBackend.decode (CpuBackend.encode prog) with
  | .error e => return ⟨{ vd with passed := false, message := e.message }, none⟩
  | .ok dec =>
      let out := F.execute dec (makeSeedFrom r)
      let ref := F.reference prog.stored (makeSeedFrom r)
      let isMatch := F.sameOutput out.output ref.output
      return ⟨{ vd with
        contentDigestOk := true
        formatOk := true
        architectureOk := true
        abiOk := true
        dependencyOk := true
        metadataConsistent := true
        referenceComparison := isMatch
        executionSmoke := true
        loadable := true
        passed := isMatch
        message := if isMatch then [] else ascii "CPU reference comparison mismatch" }, some ref⟩

/-- SOURCE: CpuBackend.cpp:364-383 -/
def validate (H : Bytes → Digest) (descriptor : ArtifactDescriptor) (executable : Bytes) :
    Throwing (Validation V) := do
  let vd : ValidationDescriptor := { executed := true, method := ascii "cpu-execute-reference" }
  match ← CpuBackend.decode executable with
  | .error e => return ⟨{ vd with passed := false, message := e.message }, none⟩
  | .ok dec =>
      let contentDigestOk := descriptor.contentDigest = .zero ∨
        descriptor.contentDigest = H executable
      let seed := descriptor.keyDigest.bytes.foldl (fun seed b => seed * 131 + b.toUInt64) 0
      let out := F.execute dec seed
      let ref := F.reference dec seed
      let isMatch := F.sameOutput out.output ref.output
      let passed := isMatch && contentDigestOk
      return ⟨{ vd with
        contentDigestOk := contentDigestOk
        formatOk := true
        architectureOk := true
        abiOk := true
        dependencyOk := true
        metadataConsistent := true
        referenceComparison := isMatch
        executionSmoke := true
        loadable := true
        passed := passed
        message := if passed then []
          else ascii "CPU validation failed: " ++
            ascii (if isMatch then "content digest mismatch" else "reference mismatch") },
        some ref⟩

/-! ## Exact numbers -/

variable {K : Type} [Ring K] [LinearOrder K] {A : Arithmetic K}

/-- INTERNAL: where only single precision rounds, rounding as in `execute` is rounding to the
datatype. -/
theorem rr_ofArithmetic (hround : ∀ d, d ≠ .F32 → ∀ x, A.round d x = x) (d : Datatype) (x : K) :
    (ofArithmetic A).rr x d.toUInt8 = A.round d x := by
  unfold rr
  by_cases hd : d = .F32
  · rw [hd]
    exact if_pos rfl
  · rw [if_neg fun h => hd (Datatype.toUInt8_injective h), hround d hd]

/-- INTERNAL: in exact numbers a stored operation is applied as the operation is. -/
theorem applyOp_ofArithmetic (hround : ∀ d, d ≠ .F32 → ∀ x, A.round d x = x) (d : Datatype)
    (out : List K) (op : CpuOp) :
    (ofArithmetic A).applyOp d.toUInt8 out op.stored = CpuBackend.applyOp A d out op := by
  have hrr := rr_ofArithmetic (A := A) hround d
  have hless : ∀ x y, (ofArithmetic A).less x y = true ↔ x < y := fun x y => decide_eq_true_iff
  have hmax : (fun acc x => if (ofArithmetic A).less acc x then x else acc) = max := by
    funext acc x
    rcases lt_or_ge acc x with hlt | hge
    · rw [max_eq_right hlt.le, if_pos ((hless _ _).mpr hlt)]
    · rw [max_eq_left hge, if_neg fun h => hge.not_gt ((hless _ _).mp h)]
  have hmin : (fun acc x => if (ofArithmetic A).less x acc then x else acc) = min := by
    funext acc x
    rcases lt_or_ge x acc with hlt | hge
    · rw [min_eq_right hlt.le, if_pos ((hless _ _).mpr hlt)]
    · rw [min_eq_left hge, if_neg fun h => hge.not_gt ((hless _ _).mp h)]
  unfold applyOp CpuBackend.applyOp CpuBackend.element CpuBackend.reduce CpuOp.stored
  cases op.kind <;> simp only [caseOf_toUInt8, hrr, hmax, hmin] <;> rfl

/-- In exact numbers this is the run of the program. -/
theorem execute_ofArithmetic (hround : ∀ d, d ≠ .F32 → ∀ x, A.round d x = x) (p : CpuProgram)
    (seed : UInt64) :
    ((ofArithmetic A).execute p.stored seed).output = CpuBackend.execute A p seed := by
  have hinput : ∀ n, (ofArithmetic A).hostInput n p.datatype.toUInt8 seed =
      CpuBackend.hostInput A n p.datatype seed := by
    intro n
    exact List.map_congr_left fun i _ => rr_ofArithmetic hround p.datatype _
  have hops : ∀ out, p.stored.ops.foldl ((ofArithmetic A).applyOp p.datatype.toUInt8) out =
      p.ops.foldl (CpuBackend.applyOp A p.datatype) out := by
    intro out
    unfold CpuProgram.stored
    rw [List.foldl_map]
    congr 1
    funext out op
    exact applyOp_ofArithmetic hround p.datatype out op
  unfold execute CpuBackend.execute
  rw [← hinput, ← hops]
  rfl

end Doubles

end CompilationFabric.Model
