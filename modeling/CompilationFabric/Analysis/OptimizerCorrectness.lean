import CompilationFabric.Analysis.DecodableArtifacts
import CompilationFabric.Analysis.ShapeFidelity
import CompilationFabric.Library.FloatArithmetic

/-!
# The optimiser on the doubles of the machine

In exact arithmetic folding preserves every program.  The code folds in `double`s, where `x + 0.0`
is not `x` for `x = -0.0` and a sum may overflow or be no number at all.  The doubles are Lean's own
here (`machine`), and the single-precision rounding after every operation is the conversion to
`float` and back.

What a folded operation changes is the sign of a zero, and no operation that programs have makes
more of that sign than another sign of a zero (`applyOp_congr`).  So the folded program delivers the
same numbers as the plain one, and the check of what has been compiled fails on nothing but `NaN`.
-/

set_option autoImplicit false

namespace CompilationFabric.Analysis

open CompilationFabric.Interface
open CompilationFabric.Library.FloatArithmetic
open CompilationFabric.Model
open CompilationFabric.Model.CpuBackend

/-- The doubles of the machine.
SOURCE: CpuBackend.cpp:54-57, 177 -/
def machine : Doubles Float where
  toFloat x := widen (narrow x)
  value := Float.ofBits
  wave i seed :=
    Float.sin ((seed % 100000).toFloat * 0.000517 + (UInt32.ofNat i).toFloat * 0.012345) * 1000.0
  zero := Float.ofBits 0
  add := (· + ·)
  sub := (· - ·)
  mul := (· * ·)
  fabs := Float.abs
  neg x := -x
  less x y := x < y
  ne x y := x != y

variable {dt : UInt8} {x y : Float} {xs ys : List Float} {op : CpuOp}

/-! ## Alike vectors -/

/-- Vectors of the same numbers. -/
abbrev AlikeAll : List Float → List Float → Prop := List.Forall₂ Alike

/-- INTERNAL: a list is like itself. -/
theorem AlikeAll.refl (xs : List Float) : AlikeAll xs xs :=
  List.forall₂_same.mpr fun x _ => Alike.refl x

/-- INTERNAL: what is alike is alike one after the other. -/
theorem AlikeAll.trans {zs : List Float} (h : AlikeAll xs ys) (h' : AlikeAll ys zs) :
    AlikeAll xs zs := by
  induction h generalizing zs with
  | nil => exact h'
  | cons hxy _ ih =>
      cases h' with
      | cons hyz hrest => exact .cons (hxy.trans hyz) (ih hrest)

/-- INTERNAL: what is alike is alike either way. -/
theorem AlikeAll.symm (h : AlikeAll xs ys) : AlikeAll ys xs :=
  List.Forall₂.flip (h.imp fun _ _ hxy => hxy.symm)

/-- Rounding keeps floats alike.
SOURCE: CpuBackend.cpp:54-57 -/
theorem rr_alike (h : Alike x y) : Alike (machine.rr x dt) (machine.rr y dt) := by
  unfold Doubles.rr
  split
  · exact h.single
  · exact h

/-- What is rounded is rounded to itself. -/
theorem rr_rr (x : Float) : machine.rr (machine.rr x dt) dt = machine.rr x dt := by
  unfold Doubles.rr
  split
  · exact single_single x
  · rfl

/-- INTERNAL: a map keeps lists alike when its function does. -/
theorem map_alike {f : Float → Float} (hf : ∀ x y, Alike x y → Alike (f x) (f y))
    (h : AlikeAll xs ys) : AlikeAll (xs.map f) (ys.map f) :=
  List.forall₂_map_left_iff.mpr (List.forall₂_map_right_iff.mpr (h.imp hf))

/-- INTERNAL: a fold keeps lists alike when its function does. -/
theorem foldl_alike {f : Float → Float → Float}
    (hf : ∀ x x' y y', Alike x x' → Alike y y' → Alike (f x y) (f x' y')) {a b : Float}
    (hab : Alike a b) (h : AlikeAll xs ys) : Alike (xs.foldl f a) (ys.foldl f b) := by
  induction h generalizing a b with
  | nil => exact hab
  | cons hxy _ ih => exact ih (hf _ _ _ _ hab hxy)

/-- INTERNAL: alike lists have alike first elements. -/
theorem headD_alike (h : AlikeAll xs ys) (a : Float) : Alike (xs.headD a) (ys.headD a) := by
  cases h with
  | nil => exact .refl a
  | cons hxy _ => exact hxy

/-- A choice by comparison. -/
theorem ite_less_alike {p q p' q' a b a' b' : Float} (hp : Alike p p') (hq : Alike q q')
    (ha : Alike a a') (hb : Alike b b') :
    Alike (if machine.less p q then a else b) (if machine.less p' q' then a' else b') := by
  have hiff : machine.less p q = true ↔ machine.less p' q' = true := by
    change decide (p < q) = true ↔ decide (p' < q') = true
    rw [decide_eq_true_iff, decide_eq_true_iff]
    exact hp.lt_iff hq
  by_cases hless : machine.less p q = true
  · rw [if_pos hless, if_pos (hiff.mp hless)]
    exact ha
  · rw [if_neg hless, if_neg (hless ∘ hiff.mpr)]
    exact hb

/-- An operation makes the same numbers of the same numbers. -/
theorem applyOp_congr (h : AlikeAll xs ys) :
    AlikeAll (machine.applyOp dt xs op.stored) (machine.applyOp dt ys op.stored) := by
  have hone : ∀ {a b : Float}, Alike a b → AlikeAll [machine.rr a dt] [machine.rr b dt] :=
    fun hab => .cons (rr_alike hab) .nil
  unfold Doubles.applyOp CpuOp.stored
  cases hkind : op.kind <;> simp only [Doubles.caseOf_toUInt8]
  case Nop => exact h
  case Add => exact map_alike (fun x y hxy => rr_alike (hxy.add (.refl _))) h
  case Sub => exact map_alike (fun x y hxy => rr_alike (hxy.sub (.refl _))) h
  case Mul => exact map_alike (fun x y hxy => rr_alike (hxy.mul (.refl _))) h
  case Scale => exact map_alike (fun x y hxy => rr_alike (hxy.mul (.refl _))) h
  case Abs => exact map_alike (fun x y hxy => rr_alike hxy.abs) h
  case Neg => exact map_alike (fun x y hxy => rr_alike hxy.neg) h
  case Id => exact map_alike (fun x y hxy => rr_alike hxy) h
  case Sum => exact hone (foldl_alike (fun _ _ _ _ ha hb => ha.add hb) (.refl _) h)
  case Max =>
    exact hone (foldl_alike (fun _ _ _ _ ha hb => ite_less_alike ha hb hb ha) (headD_alike h _) h)
  case Min =>
    exact hone (foldl_alike (fun _ _ _ _ ha hb => ite_less_alike hb ha hb ha) (headD_alike h _) h)

/-! ## Folding -/

/-- Every element of the vector is rounded. -/
def Single (dt : UInt8) (xs : List Float) : Prop := ∀ x ∈ xs, machine.rr x dt = x

/-- The input of an execution is rounded. -/
theorem single_hostInput (n : UInt32) (seed : UInt64) : Single dt (machine.hostInput n dt seed) := by
  intro x hx
  obtain ⟨i, -, rfl⟩ := List.mem_map.mp hx
  exact rr_rr _

/-- So is what an operation makes of it. -/
theorem Single.applyOp (h : Single dt xs) (op : CpuOp) :
    Single dt (machine.applyOp dt xs op.stored) := by
  have hmap : ∀ f : Float → Float, Single dt (xs.map fun x => machine.rr (f x) dt) := by
    intro f x hx
    obtain ⟨y, -, rfl⟩ := List.mem_map.mp hx
    exact rr_rr _
  have hone : ∀ a, Single dt [machine.rr a dt] := by
    intro a x hx
    rw [List.mem_singleton.mp hx]
    exact rr_rr _
  unfold Doubles.applyOp CpuOp.stored
  cases op.kind <;> simp only [Doubles.caseOf_toUInt8]
  case Nop => exact h
  case Sum => exact hone _
  case Max => exact hone _
  case Min => exact hone _
  all_goals exact hmap _

/-- Elements that an operation does not change but for the sign of a zero. -/
theorem map_rr_alike {f : Float → Float} (h : Single dt xs) (hf : ∀ x, Alike (f x) x) :
    AlikeAll (xs.map fun x => machine.rr (f x) dt) xs := by
  induction xs with
  | nil => exact .nil
  | cons x xs ih =>
      have hx := h x (by simp)
      refine .cons ?_ (ih fun y hy => h y (by simp [hy]))
      rw [← hx]
      exact rr_alike (by rw [hx]; exact hf x)

/-- INTERNAL: the two zeros have the value zero. -/
theorem isZero_value {b : UInt64} (h : isZero b = true) : IsZero (Float.ofBits b) := by
  unfold isZero at h
  rw [Bool.or_eq_true, decide_eq_true_iff, decide_eq_true_iff] at h
  rcases h with rfl | rfl
  · exact ⟨.positive, rfl⟩
  · exact ⟨.negative, rfl⟩

/-- INTERNAL: one, unpacked. -/
theorem unpack_one : (Float.ofBits one).toModel.unpack = unpackedOne 52 := rfl

/-- An operation that folding leaves out changes at most the signs of zeros. -/
theorem applyOp_of_folded (h : Single dt xs) (hop : survives op = false) :
    AlikeAll (machine.applyOp dt xs op.stored) xs := by
  unfold survives at hop
  unfold Doubles.applyOp CpuOp.stored
  cases hkind : op.kind <;> simp only [hkind, Doubles.caseOf_toUInt8] at hop ⊢
  case Nop => exact AlikeAll.refl xs
  case Add => exact map_rr_alike h fun x => add_zero_alike x (isZero_value (by simpa using hop))
  case Sub => exact map_rr_alike h fun x => sub_zero_alike x (isZero_value (by simpa using hop))
  case Scale =>
    have hone : op.scalar = one := by simpa using hop
    rw [hone]
    exact map_rr_alike h fun x => mul_one_alike x unpack_one
  all_goals cases hop

/-- Operations that folding leaves out leave a sequence alike, by induction on it. -/
theorem foldl_filter_alike (ops : List CpuOp) (hxs : Single dt xs) (hys : Single dt ys)
    (h : AlikeAll ys xs) :
    AlikeAll ((ops.filter survives).foldl (fun out op => machine.applyOp dt out op.stored) ys)
      (ops.foldl (fun out op => machine.applyOp dt out op.stored) xs) := by
  induction ops generalizing xs ys with
  | nil => exact h
  | cons op ops ih =>
      rw [List.foldl_cons, List.filter_cons]
      split
      · exact ih (hxs.applyOp op) (hys.applyOp op) (applyOp_congr h)
      · next hop =>
        have hfolded := applyOp_of_folded hxs (by simpa using hop)
        exact ih (hxs.applyOp op) hys (h.trans hfolded.symm)

/-- INTERNAL: an execution applies its operations in order. -/
theorem execute_eq_foldl (p : CpuProgram) (seed : UInt64) :
    (machine.execute p.stored seed).output =
      p.ops.foldl (fun out op => machine.applyOp p.datatype.toUInt8 out op.stored)
        (machine.hostInput (elementCount p.shapeN) p.datatype.toUInt8 seed) := by
  change (p.ops.map CpuOp.stored).foldl (machine.applyOp p.datatype.toUInt8) _ = _
  rw [List.foldl_map]
  rfl

/-- The optimised program delivers the numbers of the plain one. -/
theorem execute_optimize_alike (r : CompilationRequest) (p : CpuProgram) (seed : UInt64) :
    AlikeAll (machine.execute (optimize r p).stored seed).output
      (machine.execute p.stored seed).output := by
  have hsingle : Single p.datatype.toUInt8 _ := single_hostInput (elementCount p.shapeN) seed
  rw [execute_eq_foldl, execute_eq_foldl]
  unfold optimize
  by_cases hlevel : 0 < r.optimizeLevel
  · simp only [if_pos hlevel]
    split
    · exact AlikeAll.refl _
    · exact foldl_filter_alike p.ops hsingle hsingle (AlikeAll.refl _)
  · simp only [if_neg hlevel, ite_self]
    exact AlikeAll.refl _

/-! ## The check of what has been compiled -/

/-- An output is equal to itself unless there is `NaN` in it. -/
theorem sameOutput_self_iff (xs : List Float) :
    machine.sameOutput xs xs = true ↔ ∀ x ∈ xs, x.toModel.isNaN = false := by
  have hne : ∀ x, machine.ne x x = x.toModel.isNaN := by
    intro x
    change (!(x == x)) = _
    rw [beq_self_iff, Bool.not_not]
  unfold Doubles.sameOutput
  rw [decide_eq_true rfl, Bool.true_and, List.all_eq_true, List.zip_eq_zipWith,
    List.zipWith_self]
  simp [hne]

/-- Alike lists have numbers alike. -/
theorem isNaN_alike (h : AlikeAll xs ys) :
    (∀ x ∈ xs, x.toModel.isNaN = false) ↔ ∀ y ∈ ys, y.toModel.isNaN = false := by
  induction h with
  | nil => exact Iff.rfl
  | cons hxy _ ih =>
      simp only [List.forall_mem_cons, ih, hxy.isNaN_eq]

/-- Nothing is decoded from an artifact of too many operations. -/
theorem length_ops_of_decode {p q : StoredProgram} (hsize : (encodeStored p).length ≤ maxObjectSize)
    (h : decode (encodeStored p) = .ok (.ok q)) : p.ops.length ≤ 4096 := by
  obtain ⟨hencode, -, hle⟩ := decode_eq_ok hsize h
  rw [decode_encodeStored_eq (lt_sizeMod hsize)] at h
  obtain ⟨ops, -, rfl⟩ := map_eq_ok (Except.ok.inj h)
  have hlength := congrArg List.length hencode
  rw [length_encodeStored, length_encodeStored] at hlength
  dsimp only at hle hlength
  omega

/-- An artifact of too many operations is rejected. -/
theorem decode_eq_error {p : StoredProgram} (hsize : (encodeStored p).length ≤ maxObjectSize)
    (h : ¬ p.ops.length ≤ 4096) : ∃ e, decode (encodeStored p) = .ok (.error e) := by
  have hdecode := decode_encodeStored_eq (lt_sizeMod hsize)
  cases hbody : decodeBody (CanonicalReader.after (frontBytes p) (bodyBytes p.ops)) with
  | error e =>
      rw [hbody] at hdecode
      exact ⟨e, hdecode⟩
  | ok ops =>
      rw [hbody] at hdecode
      exact absurd (length_ops_of_decode hsize hdecode) h

/-- What the optimiser makes of a program computes what the program does, and its check passes
unless an output is no number. -/
structure OptimizesFaithfully (r : CompilationRequest) (p : CpuProgram) : Prop where
  output : ∀ seed, AlikeAll (machine.execute (optimize r p).stored seed).output
    (machine.execute p.stored seed).output
  passed : ∀ durationMs, ∃ v, machine.checkCompiled r (optimize r p) durationMs = .ok v ∧
    (v.descriptor.passed = true ↔ (optimize r p).ops.length ≤ 4096 ∧
      ∀ x ∈ (machine.execute p.stored (Doubles.makeSeedFrom r)).output, x.toModel.isNaN = false)

/-- Every program that a source specializes to, at every optimization level.
SOURCE: CpuBackend.cpp:188-237, 283-337 -/
theorem optimizer_faithful (r : CompilationRequest) (q : CpuProgram)
    (hparse : parseSource r.source = some (.ok q))
    (hsize : (encode (optimize r (specialize r q))).length ≤ maxObjectSize) :
    OptimizesFaithfully r (specialize r q) := by
  have hne : (optimize r (specialize r q)).ops ≠ [] :=
    ops_ne_nil_of_optimize (ops_ne_nil_of_parseSource (p := q) hparse)
  have hdecodes := decode_encode_iff hne hsize
  refine ⟨execute_optimize_alike r _, fun durationMs => ?_⟩
  have hnan := isNaN_alike (execute_optimize_alike r (specialize r q) (Doubles.makeSeedFrom r))
  generalize optimize r (specialize r q) = prog at *
  rw [← hnan, ← sameOutput_self_iff]
  by_cases hlength : prog.ops.length ≤ 4096
  · refine ⟨_, by rw [Doubles.checkCompiled, hdecodes.mpr hlength]; rfl, ?_⟩
    exact (and_iff_right hlength).symm
  · obtain ⟨e, he⟩ : ∃ e, decode (encode prog) = .ok (.error e) := by
      rw [encode_eq] at hsize ⊢
      apply decode_eq_error hsize
      rwa [CpuProgram.stored, List.length_map]
    refine ⟨_, by rw [Doubles.checkCompiled, he]; rfl, ?_⟩
    simp [hlength]

/-- A source with an operation to drop. -/
def droppedRequest : CompilationRequest := { source := ascii "neg\nnop", optimizeLevel := 2 }

/-- What it is parsed to. -/
def droppedProgram : CpuProgram :=
  { name := ascii "cf-kernel"
    ops := [{ kind := .Neg, n := 1024 }, { kind := .Nop, n := 1024 }]
    shapeN := 1024 }

/-- A program from which an operation is dropped. -/
theorem optimizer_faithful_dropped :
    OptimizesFaithfully droppedRequest (specialize droppedRequest droppedProgram) :=
  optimizer_faithful droppedRequest droppedProgram (by decide +kernel) (by decide +kernel)

end CompilationFabric.Analysis
