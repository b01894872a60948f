import CompilationFabric.Analysis.CacheKeySufficiency
import CompilationFabric.Interface.CudaSpecText

/-!
# What a CUDA artifact is compared with

Validation runs the one operation that the artifact's specialization names, and the CPU program of
the source runs all of its operations.  In exact arithmetic a program maps every element up to
its first reduction and goes on with one number behind it, so the two outputs can be compared
element by element: they agree exactly when the last operation, with the scalar that its six
decimals give, already does to the host input what the whole program does.
-/

set_option autoImplicit false

namespace CompilationFabric.Analysis

open CompilationFabric.Library
open CompilationFabric.Model
open CompilationFabric.Model.CpuBackend
open CompilationFabric.Model.CudaBackend

variable {K : Type*} [Ring K] {A : Arithmetic K} {d : Datatype} {xs : List K} {op : CpuOp}

/-- The same numbers without rounding. -/
def exact (A : Arithmetic K) : Arithmetic K :=
  { A with
    round := fun _ x => x
    round_round := fun _ _ => rfl }

/-- The host input without rounding. -/
def waves (A : Arithmetic K) (n : ℕ) (seed : UInt64) : List K :=
  (List.range n).map fun i => A.wave i seed

/-- INTERNAL: the input has the length that was asked for. -/
theorem length_waves (n : ℕ) (seed : UInt64) : (waves A n seed).length = n := by
  unfold waves
  rw [List.length_map, List.length_range]

variable [LinearOrder K]

/-! ## Programs in exact arithmetic -/

/-- What a list of operations makes of one element.  A reduction of one element is the element. -/
def through (A : Arithmetic K) (ops : List CpuOp) (x : K) : K :=
  ops.foldl (fun x op => element A op x) x

/-- The number that a program delivers, unless it has no reduction. -/
def delivered (A : Arithmetic K) : List CpuOp → List K → Option K
  | [], _ => none
  | op :: ops, xs =>
      if isReduction op.kind then some (through A ops (reduce op.kind xs))
      else delivered A ops (xs.map (element A op))

/-- INTERNAL: an elementwise operation goes over the elements. -/
theorem applyOp_of_elementwise (h : isReduction op.kind = false) :
    applyOp (exact A) d xs op = xs.map (element A op) := by
  unfold CpuBackend.applyOp
  cases hkind : op.kind <;> simp only [hkind] at h ⊢
  case Nop =>
    have hid : element A op = id := by
      funext x
      simp only [element, hkind, id]
    rw [hid, List.map_id]
  case Sum | Max | Min => cases h
  all_goals rfl

/-- INTERNAL: a reduction leaves one element. -/
theorem applyOp_of_reduction (h : isReduction op.kind = true) :
    applyOp (exact A) d xs op = [reduce op.kind xs] := by
  unfold CpuBackend.applyOp
  cases hkind : op.kind <;> simp only [hkind] at h ⊢
  case Sum | Max | Min => rfl
  all_goals cases h

/-- INTERNAL: reducing one element applies the operation to it. -/
theorem reduce_singleton (h : isReduction op.kind = true) (x : K) :
    reduce op.kind [x] = element A op x := by
  unfold reduce element
  cases hkind : op.kind <;> simp only [hkind] at h ⊢
  case Sum => simp
  case Max => simp
  case Min => simp
  all_goals cases h

/-- One number stays one number. -/
theorem foldl_applyOp_singleton (ops : List CpuOp) (x : K) :
    ops.foldl (applyOp (exact A) d) [x] = [through A ops x] := by
  induction ops generalizing x with
  | nil => rfl
  | cons op ops ih =>
      have hstep : applyOp (exact A) d [x] op = [element A op x] := by
        cases h : isReduction op.kind with
        | true => rw [applyOp_of_reduction h, reduce_singleton h]
        | false => rw [applyOp_of_elementwise h, List.map_singleton]
      rw [List.foldl_cons, hstep, ih]
      rfl

/-- A program without a reduction maps the elements, and one with a reduction delivers one
number. -/
theorem foldl_applyOp_exact (ops : List CpuOp) (xs : List K) :
    ops.foldl (applyOp (exact A) d) xs =
      match delivered A ops xs with
      | none => xs.map (through A ops)
      | some y => [y] := by
  induction ops generalizing xs with
  | nil =>
      unfold delivered through
      simp
  | cons op ops ih =>
      unfold delivered
      rw [List.foldl_cons]
      cases h : isReduction op.kind with
      | true =>
          rw [applyOp_of_reduction h, foldl_applyOp_singleton, if_pos rfl]
      | false =>
          rw [applyOp_of_elementwise h, ih, if_neg Bool.false_ne_true]
          split
          · rw [List.map_map]
            rfl
          · rfl

/-- Only a program without a reduction delivers nothing. -/
theorem delivered_eq_none_iff {ops : List CpuOp} :
    delivered A ops xs = none ↔ ∀ op ∈ ops, isReduction op.kind = false := by
  induction ops generalizing xs with
  | nil => simp [delivered]
  | cons op ops ih =>
      unfold delivered
      rw [List.forall_mem_cons]
      cases h : isReduction op.kind with
      | true => simp
      | false => simp [ih]

/-! ## The reference -/

/-- The operation that the specialization of an artifact names: the operations have other names,
the scalar six decimals, and a zero scale is taken as one. -/
def readBack (op : CpuOp) : CpuOp :=
  { op with
    kind := opKindFor (opNameFor op.kind)
    scalar := Numerals.strtod (Numerals.fixedText
      (if opNameFor op.kind = ascii "scale" ∧ isZero op.scalar then one else op.scalar)) }

/-- INTERNAL: a reduction is read back as itself. -/
theorem readBack_kind_of_reduction (h : isReduction op.kind = true) :
    (readBack op).kind = op.kind := by
  unfold readBack
  cases hkind : op.kind <;> simp only [hkind] at h ⊢
  case Sum | Max | Min => decide
  all_goals cases h

/-- INTERNAL: what is read back is a reduction exactly when the operation is. -/
theorem isReduction_readBack (op : CpuOp) :
    isReduction (readBack op).kind = isReduction op.kind := by
  change isReduction (opKindFor (opNameFor op.kind)) = isReduction op.kind
  cases op.kind <;> decide

/-- The specialization has the name of the last operation.
SOURCE: Cuda.cpp:383-393 -/
theorem buildSpec_op (r : CompilationRequest) {p : CpuProgram} {last : CpuOp}
    (hlast : p.ops.getLast? = some last) : (buildSpec r (.ok p)).op = opNameFor last.kind := by
  unfold buildSpec
  simp only [hlast]
  split
  · rfl
  · rfl

/-- The specialization has the scalar of the last operation, but for a scale by zero. -/
theorem buildSpec_scalar (r : CompilationRequest) {p : CpuProgram} {last : CpuOp}
    (hlast : p.ops.getLast? = some last) :
    (buildSpec r (.ok p)).scalar =
      if opNameFor last.kind = ascii "scale" ∧ isZero last.scalar then one else last.scalar := by
  unfold buildSpec
  simp only [hlast]
  split
  · rfl
  · rfl

/-- INTERNAL: a count that is not zero is itself. -/
theorem elementCount_toUInt64 {n : UInt32} (hn : n ≠ 0) : elementCount n.toUInt64 = n := by
  have hne : n.toUInt64 ≠ 0 := by
    intro h
    apply hn
    apply UInt32.toNat_inj.mp
    simpa using congrArg UInt64.toNat h
  unfold elementCount
  rw [if_pos hne, UInt32.toUInt32_toUInt64]

/-- The reference runs the last operation of the source on the host input. -/
theorem computeCudaReference_eq (A : Arithmetic K) (r : CompilationRequest) {p : CpuProgram}
    {last : CpuOp} (hlast : p.ops.getLast? = some last) (seed : UInt64) {n : UInt32} (hn : n ≠ 0)
    (d : Datatype) :
    computeCudaReference (exact A) (specialization r (.ok p)) seed n d =
      applyOp (exact A) d (waves A n.toNat seed) (readBack last) := by
  have hop : CudaSpec.semicolon ∉ (buildSpec r (.ok p)).op := by
    rw [buildSpec_op r hlast]
    cases last.kind <;> decide
  unfold computeCudaReference specialization
  simp only [Interface.parse_encode hop]
  unfold execute
  simp only [elementCount_toUInt64 hn, List.foldl_cons, List.foldl_nil, buildSpec_op r hlast,
    buildSpec_scalar r hlast]
  rfl

/-- What the program of a source does in `n` elements, for every seed. -/
theorem execute_exact (A : Arithmetic K) (p : CpuProgram) (seed : UInt64) {n : UInt32}
    (hn : n ≠ 0) (d : Datatype) :
    execute (exact A) { p with shapeN := n.toUInt64, datatype := d } seed =
      match delivered A p.ops (waves A n.toNat seed) with
      | none => (waves A n.toNat seed).map (through A p.ops)
      | some y => [y] := by
  unfold execute
  simp only [elementCount_toUInt64 hn]
  exact foldl_applyOp_exact p.ops _

/-! ## When the two agree -/

/-- Validation checks the program that was asked for: whatever the rest of the request, the
reference of the artifact is the output of the program. -/
def ChecksSource (A : Arithmetic K) (source : Bytes) : Prop :=
  ∀ (r : CompilationRequest) p, r.source = source → parseSource source = some (.ok p) →
    ∀ n : UInt32, n ≠ 0 → ∀ d seed,
      computeCudaReference A (specialization r (.ok p)) seed n d =
        execute A { p with shapeN := n.toUInt64, datatype := d } seed

/-- The last operation, as it is read back, does what all of them do to the host input. -/
structure Absorbs (A : Arithmetic K) (ops : List CpuOp) (last : CpuOp) : Prop where
  /-- In front of an operation on elements there is no reduction. -/
  elementwise : isReduction last.kind = false → ∀ op ∈ ops, isReduction op.kind = false
  element : isReduction last.kind = false → ∀ i seed, i + 1 < 2 ^ 32 →
    through A ops (A.wave i seed) = CpuBackend.element A (readBack last) (A.wave i seed)
  number : isReduction last.kind = true → ∀ n seed, 0 < n → n < 2 ^ 32 →
    delivered A ops (waves A n seed) = some (reduce last.kind (waves A n seed))

/-- One input, with the last operation and with all of them. -/
def SameOutcome (A : Arithmetic K) (ops : List CpuOp) (last : CpuOp) (xs : List K) : Prop :=
  if isReduction last.kind then delivered A ops xs = some (reduce last.kind xs)
  else
    xs.map (element A (readBack last)) =
      match delivered A ops xs with
      | none => xs.map (through A ops)
      | some y => [y]

/-- The comparison in `n` elements is that of the host input. -/
theorem reference_eq_execute_iff (A : Arithmetic K) (r : CompilationRequest) {p : CpuProgram}
    {last : CpuOp} (hlast : p.ops.getLast? = some last) (seed : UInt64) {n : UInt32} (hn : n ≠ 0)
    (d : Datatype) :
    computeCudaReference (exact A) (specialization r (.ok p)) seed n d =
        execute (exact A) { p with shapeN := n.toUInt64, datatype := d } seed ↔
      SameOutcome A p.ops last (waves A n.toNat seed) := by
  unfold SameOutcome
  rw [computeCudaReference_eq A r hlast seed hn, execute_exact A p seed hn]
  cases h : isReduction last.kind with
  | false =>
      rw [applyOp_of_elementwise ((isReduction_readBack last).trans h),
        if_neg Bool.false_ne_true]
  | true =>
      rw [applyOp_of_reduction ((isReduction_readBack last).trans h),
        readBack_kind_of_reduction h, if_pos rfl]
      cases hdelivered : delivered A p.ops (waves A n.toNat seed) with
      | none =>
          have hno := delivered_eq_none_iff.mp hdelivered last (List.mem_of_getLast? hlast)
          rw [h] at hno
          cases hno
      | some y => simp [eq_comm]

/-- A reduction leaves one number where an operation on elements leaves two. -/
theorem elementwise_of_sameOutcome {ops : List CpuOp} {last : CpuOp}
    (hlast : isReduction last.kind = false) (h : SameOutcome A ops last (waves A 2 0)) :
    ∀ op ∈ ops, isReduction op.kind = false := by
  apply (delivered_eq_none_iff (A := A)).mp
  cases hdelivered : delivered A ops (waves A 2 0) with
  | none => rfl
  | some y =>
      unfold SameOutcome at h
      simp only [hlast, Bool.false_eq_true, if_false, hdelivered] at h
      have hlength := congrArg List.length h
      rw [List.length_map, length_waves] at hlength
      cases hlength

/-- Elementwise programs agree when every element does. -/
theorem sameOutcome_of_elementwise {ops : List CpuOp} {last : CpuOp}
    (hlast : isReduction last.kind = false) (hops : ∀ op ∈ ops, isReduction op.kind = false) :
    SameOutcome A ops last xs ↔ ∀ x ∈ xs, through A ops x = element A (readBack last) x := by
  unfold SameOutcome
  simp only [hlast, Bool.false_eq_true, if_false, delivered_eq_none_iff.mpr hops,
    List.map_inj_left, eq_comm]

/-- The last operation absorbs the others when it has the outcome of all of them in any number
of elements. -/
theorem absorbs_iff {ops : List CpuOp} {last : CpuOp} :
    Absorbs A ops last ↔
      ∀ n seed, 0 < n → n < 2 ^ 32 → SameOutcome A ops last (waves A n seed) := by
  cases hlast : isReduction last.kind with
  | true =>
      have hsame : ∀ xs, SameOutcome A ops last xs ↔
          delivered A ops xs = some (reduce last.kind xs) := by
        intro xs
        unfold SameOutcome
        rw [if_pos hlast]
      simp only [hsame]
      constructor
      · intro h
        exact h.number hlast
      · intro h
        refine ⟨fun hno => ?_, fun hno => ?_, fun _ => h⟩
        · rw [hlast] at hno
          cases hno
        · rw [hlast] at hno
          cases hno
  | false =>
      constructor
      · intro h n seed _ hn
        rw [sameOutcome_of_elementwise hlast (h.elementwise hlast)]
        intro x hx
        obtain ⟨i, hi, rfl⟩ := List.mem_map.mp hx
        rw [List.mem_range] at hi
        exact h.element hlast i seed (by omega)
      · intro h
        have hops := elementwise_of_sameOutcome hlast (h 2 0 (by decide) (by decide))
        refine ⟨fun _ => hops, fun _ i seed hi => ?_, fun hno => ?_⟩
        · apply (sameOutcome_of_elementwise hlast hops).mp (h (i + 1) seed (by omega) hi)
          exact List.mem_map.mpr ⟨i, List.mem_range.mpr (Nat.lt_succ_self i), rfl⟩
        · rw [hlast] at hno
          cases hno

/-- INTERNAL: an operation is read back with its effect when its scalar is. -/
theorem element_readBack (h : A.value (readBack op).scalar = A.value op.scalar) (x : K) :
    element A (readBack op) x = element A op x := by
  have hkind : (readBack op).kind = opKindFor (opNameFor op.kind) := rfl
  unfold element
  rw [hkind, h]
  cases op.kind <;> rfl

/-- Operations that change no element are absorbed by any operation whose scalar has the number
of its text. -/
theorem absorbs_of_neutral {earlier : List CpuOp} {last : CpuOp}
    (hkind : ∀ op ∈ earlier, isReduction op.kind = false)
    (hneutral : ∀ op ∈ earlier, ∀ x, element A op x = x)
    (hscalar : A.value (readBack last).scalar = A.value last.scalar) :
    Absorbs A (earlier ++ [last]) last := by
  induction earlier with
  | nil =>
      refine ⟨fun hlast => ?_, fun hlast i seed _ => ?_, fun hlast n seed _ _ => ?_⟩
      · simpa using hlast
      · exact (element_readBack hscalar _).symm
      · simp [delivered, hlast, through]
  | cons op earlier ih =>
      obtain ⟨hop, hkind⟩ := List.forall_mem_cons.mp hkind
      obtain ⟨hid, hneutral⟩ := List.forall_mem_cons.mp hneutral
      have hrest := ih hkind hneutral
      refine ⟨fun hlast => ?_, fun hlast i seed hi => ?_, fun hlast n seed hpos hn => ?_⟩
      · exact List.forall_mem_cons.mpr ⟨hop, hrest.elementwise hlast⟩
      · have hthrough : through A (op :: earlier ++ [last]) (A.wave i seed) =
            through A (earlier ++ [last]) (element A op (A.wave i seed)) := rfl
        rw [hthrough, hid, hrest.element hlast i seed hi]
      · have hmap : (waves A n seed).map (element A op) = waves A n seed := by
          rw [funext hid, List.map_id']
        rw [List.cons_append, delivered, if_neg (by simp [hop]), hmap]
        exact hrest.number hlast n seed hpos hn

/-- Validation checks exactly the programs that their last operation absorbs.
SOURCE: Cuda.cpp:383-439, Cuda.cpp:449-454, CpuBackend.cpp:188-232 -/
theorem checksSource_iff (A : Arithmetic K) (source : Bytes) :
    ChecksSource (exact A) source ↔
      ∀ p last, parseSource source = some (.ok p) → p.ops.getLast? = some last →
        Absorbs A p.ops last := by
  constructor
  · intro h p last hparse hlast
    rw [absorbs_iff]
    intro n seed hpos hlt
    have htoNat : (UInt32.ofNat n).toNat = n := UInt32.toNat_ofNat_of_lt' hlt
    have hne : UInt32.ofNat n ≠ 0 := by
      intro hzero
      rw [hzero] at htoNat
      exact hpos.ne htoNat
    have hsame := (reference_eq_execute_iff A _ hlast seed hne .None).mp
      (h { source } p rfl hparse _ hne .None seed)
    rwa [htoNat] at hsame
  · rintro h r p rfl hparse n hn d seed
    have hlast := List.getLast?_eq_some_getLast (ops_ne_nil_of_parseSource hparse)
    have hpos : 0 < n.toNat := by
      apply Nat.pos_of_ne_zero
      intro hzero
      exact hn (UInt32.toNat_inj.mp hzero)
    apply (reference_eq_execute_iff A r hlast seed hn d).mpr
    exact absorbs_iff.mp (h p _ hparse hlast) _ seed hpos n.toNat_lt

/-- A source of two operations. -/
def twoAdditions : Bytes := ascii "add scalar=1\nadd scalar=2"

def twoAdditionsOps : List CpuOp :=
  [{ kind := .Add, scalar := one, n := 1024 },
    { kind := .Add, scalar := 0x4000000000000000, n := 1024 }]

/-- INTERNAL: the source of two additions is parsed. -/
theorem parseSource_twoAdditions :
    parseSource twoAdditions =
      some (.ok { ops := twoAdditionsOps, shapeN := 1024, name := ascii "cf-kernel" }) := by
  decide +kernel

/-- The reference adds two to every element and the program three. -/
theorem not_checksSource : ¬ ChecksSource (exact plainArithmetic) twoAdditions := by
  intro h
  have hsame := (reference_eq_execute_iff plainArithmetic _ rfl 0 (by decide) .F32).mp
    (h { source := twoAdditions } _ rfl parseSource_twoAdditions 1 (by decide) .F32 0)
  revert hsame
  unfold SameOutcome
  decide +kernel

end CompilationFabric.Analysis
