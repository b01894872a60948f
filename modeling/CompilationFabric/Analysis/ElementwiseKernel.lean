import CompilationFabric.Analysis.CudaReference
import CompilationFabric.Library.MonadicMap
import CompilationFabric.Model.CudaElementwise

/-!
# What the elementwise kernel computes

A launch has at least one thread for every element, and the threads past the end do nothing, as long
as their indices are ints.  A grid of more than `2 ^ 31` threads has one whose index is negative, and
that one reads in front of the buffer.  So the kernel computes what the reference computes, in
whatever order its threads run, exactly when the elements and the whole grid are in the range of
`int`.
-/

set_option autoImplicit false

namespace CompilationFabric.Analysis

open CompilationFabric.Library
open CompilationFabric.Model
open CompilationFabric.Model.CpuBackend
open CompilationFabric.Model.CudaBackend
open CompilationFabric.Model.CudaKernel

variable {V : Type} {math : V → V} {input out out' : List V} {n : Int32} {blockDim : UInt32}
  {order : List (ℕ × ℕ)} {t : ℕ × ℕ} {j : ℕ}

/-! ## One thread -/

/-- The element of a thread. -/
def elementOf (blockDim : UInt32) (t : ℕ × ℕ) : ℕ := t.1 * blockDim.toNat + t.2

/-- INTERNAL: a count below `2 ^ 31` is itself as an `int`. -/
theorem toInt_toInt32_of_lt {x : UInt32} (h : x.toNat < 2 ^ 31) : x.toInt32.toInt = x.toNat := by
  have hcast : x.toInt32.toInt = Int.bmod x.toNat (2 ^ 32) := BitVec.toInt_eq_toNat_bmod _
  rw [hcast, Int.bmod_eq_of_le] <;> omega

/-- INTERNAL: any other count is negative as an `int`. -/
theorem toInt_toInt32_of_ge {x : UInt32} (h : 2 ^ 31 ≤ x.toNat) : x.toInt32.toInt < 0 := by
  have hcast : x.toInt32.toInt = Int.bmod x.toNat (2 ^ 32) := BitVec.toInt_eq_toNat_bmod _
  have hlt := x.toNat_lt
  rw [hcast, Int.bmod_def]
  omega

/-- INTERNAL: the index of a thread, when it does not wrap. -/
theorem toNat_index (h : elementOf blockDim t < 2 ^ 32) :
    (UInt32.ofNat t.1 * blockDim + UInt32.ofNat t.2).toNat = elementOf blockDim t := by
  unfold elementOf at h ⊢
  rw [UInt32.toNat_add, UInt32.toNat_mul, UInt32.toNat_ofNat', UInt32.toNat_ofNat']
  rw [Nat.add_mod, Nat.mod_mod, Nat.mul_mod, Nat.mod_mod, ← Nat.mul_mod, Nat.mod_mod, ← Nat.add_mod,
    Nat.mod_eq_of_lt h]

/-- INTERNAL: an index in range has its cell. -/
theorem cellOf_of_lt {i : Int32} (hi : i.toInt = j) (hj : j < input.length) :
    cellOf input i = some j := by
  have hcell : i.toInt.toNat = j := by rw [hi, Int.toNat_natCast]
  have hnonneg : (0 : Int32) ≤ i := by
    rw [Int32.le_iff_toInt_le, hi]
    exact Int.natCast_nonneg j
  rw [cellOf, if_pos ⟨hnonneg, hcell ▸ hj⟩, hcell]

/-- INTERNAL: a negative index has none. -/
theorem cellOf_of_neg {i : Int32} (hi : i.toInt < 0) : cellOf input i = none := by
  apply if_neg
  rintro ⟨hnonneg, -⟩
  rw [Int32.le_iff_toInt_le] at hnonneg
  exact absurd hi (not_lt.mpr hnonneg)

/-- The index of a thread. -/
theorem toInt_threadIndex (h : elementOf blockDim t < 2 ^ 31) :
    (threadIndex blockDim t).toInt = elementOf blockDim t := by
  have hnat : (UInt32.ofNat t.1 * blockDim + UInt32.ofNat t.2).toNat = elementOf blockDim t :=
    toNat_index (by omega)
  rw [threadIndex, toInt_toInt32_of_lt (by omega), hnat]

/-- A thread with an element. -/
theorem elementThread_of_lt (hn : n.toInt = input.length) (hout : out.length = input.length)
    (hrange : elementOf blockDim t < 2 ^ 31) (h : elementOf blockDim t < input.length) :
    elementThread math input n blockDim out t =
      some (out.set (elementOf blockDim t) (math input[elementOf blockDim t])) := by
  have hindex := toInt_threadIndex hrange
  have hlt : threadIndex blockDim t < n := by
    rw [Int32.lt_iff_toInt_lt, hindex, hn]
    exact_mod_cast h
  unfold elementThread
  rw [if_pos hlt, cellOf_of_lt hindex h, cellOf_of_lt hindex (hout ▸ h)]
  simp [h]

/-- A thread past the end. -/
theorem elementThread_of_ge (hn : n.toInt = input.length)
    (hrange : elementOf blockDim t < 2 ^ 31) (h : input.length ≤ elementOf blockDim t) :
    elementThread math input n blockDim out t = some out := by
  have hlt : ¬ threadIndex blockDim t < n := by
    rw [Int32.lt_iff_toInt_lt, toInt_threadIndex hrange, hn]
    omega
  exact if_neg hlt

/-- A thread whose index has become negative. -/
theorem elementThread_of_overflow (hn : 0 ≤ n.toInt) (hlow : 2 ^ 31 ≤ elementOf blockDim t)
    (hhigh : elementOf blockDim t < 2 ^ 32) :
    elementThread math input n blockDim out t = none := by
  have hneg : (threadIndex blockDim t).toInt < 0 := by
    apply toInt_toInt32_of_ge
    rw [toNat_index hhigh]
    exact hlow
  have hlt : threadIndex blockDim t < n := by
    rw [Int32.lt_iff_toInt_lt]
    omega
  unfold elementThread
  rw [if_pos hlt, cellOf_of_neg hneg]
  rfl

/-- For a negative number of elements, no thread writes anything. -/
theorem elementThread_of_neg (hn : n.toInt < 0)
    (h : elementThread math input n blockDim out t = some out') : out' = out := by
  unfold elementThread at h
  dsimp only at h
  split at h
  · next hlt =>
    rw [Int32.lt_iff_toInt_lt] at hlt
    rw [cellOf_of_neg (by omega)] at h
    cases h
  · exact (Option.some.inj h).symm

/-! ## All threads -/

/-- What a run leaves in the output, cell by cell: the result where a thread has been, and what was
there where none has. -/
structure Written (math : V → V) (input : List V) (blockDim : UInt32) (out : List V)
    (order : List (ℕ × ℕ)) (out' : List V) : Prop where
  length : out'.length = out.length
  done : ∀ t ∈ order, ∀ j, elementOf blockDim t = j → j < input.length →
    out'[j]? = (input.map math)[j]?
  kept : ∀ j, (∀ t ∈ order, elementOf blockDim t ≠ j) → out'[j]? = out[j]?

/-- INTERNAL: threads in range write their elements, by induction on their order. -/
theorem exists_written (hn : n.toInt = input.length) (hout : out.length = input.length)
    (hrange : ∀ t ∈ order, elementOf blockDim t < 2 ^ 31) :
    ∃ out', order.foldlM (elementThread math input n blockDim) out = some out' ∧
      Written math input blockDim out order out' := by
  induction order generalizing out with
  | nil => exact ⟨out, rfl, rfl, by simp, fun _ _ => rfl⟩
  | cons t order ih =>
      have hrest : ∀ s ∈ order, elementOf blockDim s < 2 ^ 31 := fun s hs => hrange s (by simp [hs])
      by_cases h : elementOf blockDim t < input.length
      · have hset : (out.set (elementOf blockDim t) (math input[elementOf blockDim t])).length =
            input.length := by
          rw [List.length_set, hout]
        obtain ⟨out', hrun, hwritten⟩ := ih hset hrest
        refine ⟨out', ?_, by simpa using hwritten.length, ?_, ?_⟩
        · rw [List.foldlM_cons, elementThread_of_lt hn hout (hrange t (by simp)) h]
          exact hrun
        · rintro s hs j rfl hj
          by_cases hlater : ∃ u ∈ order, elementOf blockDim u = elementOf blockDim s
          · obtain ⟨u, hu, heq⟩ := hlater
            exact hwritten.done u hu _ heq hj
          · have hst : s = t := by
              rcases List.mem_cons.mp hs with rfl | hs
              · rfl
              · exact absurd ⟨s, hs, rfl⟩ hlater
            subst hst
            rw [hwritten.kept _ fun u hu heq => hlater ⟨u, hu, heq⟩]
            rw [List.getElem?_set_self (hout ▸ hj)]
            simp [hj]
        · intro j hj
          rw [hwritten.kept j fun u hu => hj u (by simp [hu])]
          exact List.getElem?_set_ne (hj t (by simp))
      · obtain ⟨out', hrun, hwritten⟩ := ih hout hrest
        refine ⟨out', ?_, hwritten.length, ?_, ?_⟩
        · rw [List.foldlM_cons, elementThread_of_ge hn (hrange t (by simp)) (not_lt.mp h)]
          exact hrun
        · rintro s hs j rfl hj
          rcases List.mem_cons.mp hs with rfl | hs
          · exact absurd hj h
          · exact hwritten.done s hs _ rfl hj
        · intro j hj
          exact hwritten.kept j fun u hu => hj u (by simp [hu])

/-- One thread that reads outside of the input is enough. -/
theorem foldlM_eq_none {α β : Type} {f : β → α → Option β} {xs : List α} {x : α} (hx : x ∈ xs)
    (h : ∀ b, f b x = none) (b : β) : xs.foldlM f b = none := by
  induction xs generalizing b with
  | nil => cases hx
  | cons y ys ih =>
      rw [List.foldlM_cons]
      rcases List.mem_cons.mp hx with rfl | hx
      · rw [h]
        rfl
      · cases f b y with
        | none => rfl
        | some b' => exact ih hx b'

/-- INTERNAL: for a negative count no thread writes. -/
theorem foldlM_of_neg (hn : n.toInt < 0)
    (h : order.foldlM (elementThread math input n blockDim) out = some out') : out' = out := by
  induction order generalizing out with
  | nil => exact (Option.some.inj h).symm
  | cons t order ih =>
      rw [List.foldlM_cons] at h
      obtain ⟨out₁, hfirst, hrest⟩ := Option.bind_eq_some_iff.mp h
      obtain rfl := elementThread_of_neg hn hfirst
      exact ih hrest

/-! ## The grid -/

section Grid

variable {spec : CudaSpec}

/-- The threads of a block, and of the grid. -/
theorem gridX_eq (hreduce : spec.reduce = false)
    (hblock : 0 < (launchOf spec spec.n spec.dt).blkX.toNat)
    (hfits : spec.n.toNat + (launchOf spec spec.n spec.dt).blkX.toNat ≤ 2 ^ 32) :
    (launchOf spec spec.n spec.dt).gridX.toNat =
      (spec.n.toNat + (launchOf spec spec.n spec.dt).blkX.toNat - 1) /
        (launchOf spec spec.n spec.dt).blkX.toNat := by
  simp only [launchOf, hreduce, Bool.false_eq_true, if_false] at hblock hfits ⊢
  generalize (if spec.block ≠ 0 then spec.block else 256).toUInt32 = block at hblock hfits ⊢
  have hsum : (spec.n + block - 1).toNat = spec.n.toNat + block.toNat - 1 := by
    have hlt := spec.n.toNat_lt
    rw [UInt32.toNat_sub, UInt32.toNat_add]
    have : (1 : UInt32).toNat = 1 := rfl
    omega
  rw [UInt32.toNat_div, hsum]

/-- INTERNAL: the threads of a launch. -/
theorem mem_threads {launch : Launch} {t : ℕ × ℕ} :
    t ∈ threads launch ↔ t.1 < launch.gridX.toNat ∧ t.2 < launch.blkX.toNat := by
  obtain ⟨b, i⟩ := t
  rw [threads, List.mem_product, List.mem_range, List.mem_range]

/-- No element is without a thread. -/
theorem exists_thread {launch : Launch} {j : ℕ} (hblock : 0 < launch.blkX.toNat)
    (h : j < launch.gridX.toNat * launch.blkX.toNat) :
    ∃ t ∈ threads launch, elementOf launch.blkX t = j := by
  refine ⟨(j / launch.blkX.toNat, j % launch.blkX.toNat), mem_threads.mpr ⟨?_, ?_⟩, ?_⟩
  · exact (Nat.div_lt_iff_lt_mul hblock).mpr h
  · exact Nat.mod_lt j hblock
  · exact Nat.div_add_mod' j _

/-- INTERNAL: the elements of a launch are no more than its threads. -/
theorem elementOf_lt {launch : Launch} {t : ℕ × ℕ} (ht : t ∈ threads launch) :
    elementOf launch.blkX t < launch.gridX.toNat * launch.blkX.toNat := by
  obtain ⟨hb, hi⟩ := mem_threads.mp ht
  calc elementOf launch.blkX t < t.1 * launch.blkX.toNat + launch.blkX.toNat :=
        Nat.add_lt_add_left hi _
    _ = (t.1 + 1) * launch.blkX.toNat := (Nat.succ_mul _ _).symm
    _ ≤ launch.gridX.toNat * launch.blkX.toNat := Nat.mul_le_mul_right _ hb

/-- The numbers of elements and of threads are in the range of `int`. -/
def InRange (launch : Launch) : Prop :=
  launch.n.toNat < 2 ^ 31 ∧ launch.gridX.toNat * launch.blkX.toNat ≤ 2 ^ 31

/-- Every launch of the kernel delivers what `math` makes of the elements. -/
def MapsAll (math : V → V) (input : List V) (launch : Launch) : Prop :=
  ∀ out order, out.length = input.length → order.Perm (threads launch) →
    launchElementwise math input out launch order = some (input.map math)

/-- A launch in range writes every element. -/
theorem mapsAll_of_inRange {launch : Launch} (hlength : input.length = launch.n.toNat)
    (hblock : 0 < launch.blkX.toNat)
    (hgrid : launch.n.toNat ≤ launch.gridX.toNat * launch.blkX.toNat) (h : InRange launch) :
    MapsAll math input launch := by
  intro out order hout horder
  have hn : launch.n.toInt32.toInt = input.length := by
    rw [toInt_toInt32_of_lt h.1, hlength]
  have hrange : ∀ t ∈ order, elementOf launch.blkX t < 2 ^ 31 := by
    intro t ht
    exact lt_of_lt_of_le (elementOf_lt (horder.mem_iff.mp ht)) h.2
  obtain ⟨out', hrun, hwritten⟩ : ∃ out', launchElementwise math input out launch order =
      some out' ∧ Written math input launch.blkX out order out' := exists_written hn hout hrange
  rw [hrun, Option.some_inj]
  apply List.ext_getElem?
  intro j
  by_cases hj : j < input.length
  · obtain ⟨t, ht, helement⟩ := exists_thread (j := j) hblock (by omega)
    exact hwritten.done t (horder.mem_iff.mpr ht) j helement hj
  · rw [List.getElem?_eq_none (by rw [hwritten.length]; omega),
      List.getElem?_eq_none (by rw [List.length_map]; omega)]

/-- A launch that writes every element is in range. -/
theorem inRange_of_mapsAll [Nontrivial V] {launch : Launch}
    (hlength : input.length = launch.n.toNat) (hn : launch.n ≠ 0) (hblock : 0 < launch.blkX.toNat)
    (h : MapsAll math input launch) : InRange launch := by
  have hpos : 0 < input.length := by
    rw [hlength]
    exact Nat.pos_of_ne_zero fun hzero => hn (UInt32.toNat_inj.mp hzero)
  have hsmall : launch.n.toNat < 2 ^ 31 := by
    by_contra hlarge
    have hneg : launch.n.toInt32.toInt < 0 := toInt_toInt32_of_ge (not_lt.mp hlarge)
    -- the output is left as it was, whatever that is
    obtain ⟨v, hv⟩ := exists_ne (math input[0])
    have hrun := h (List.replicate input.length v) _ (by simp) (List.Perm.refl _)
    have hsame := foldlM_of_neg hneg hrun
    have hfirst := congrArg (fun xs => xs[0]?) hsame
    simp [hpos] at hfirst
    exact hv hfirst.symm
  refine ⟨hsmall, not_lt.mp fun hlarge => ?_⟩
  obtain ⟨t, ht, helement⟩ := exists_thread (j := 2 ^ 31) hblock hlarge
  have hn' : 0 ≤ launch.n.toInt32.toInt := by
    rw [toInt_toInt32_of_lt hsmall]
    exact Int.natCast_nonneg _
  have hnone : launchElementwise math input input launch (threads launch) = none := by
    apply foldlM_eq_none ht
    intro b
    exact elementThread_of_overflow hn' helement.ge (by rw [helement]; decide)
  rw [h input _ rfl (List.Perm.refl _)] at hnone
  cases hnone

/-! ## The reference -/

variable {K : Type} [Ring K] {A : Arithmetic K}

/-- The input on the device is the host input, and the scalar the one of the specification. -/
theorem deviceInput_eq (hdt : spec.dt = .F32 ∨ spec.dt = .F64) (n : UInt32) (seed : UInt64) :
    deviceInput A n spec.dt seed = hostInput A n spec.dt seed := by
  unfold deviceInput
  rw [← List.map_id (hostInput A n spec.dt seed), List.map_map]
  apply List.map_congr_left
  intro x hx
  rcases hdt with h | h
  · obtain ⟨i, -, rfl⟩ := List.mem_map.mp hx
    rw [h]
    exact A.round_round .F32 _
  · rw [h]
    rfl

/-- INTERNAL: the scalar of the kernel has the number of the specialization's. -/
theorem argScalar_eq (hdt : spec.dt = .F32 ∨ spec.dt = .F64)
    (hscalar : spec.dt = .F32 → A.round .F32 (A.value spec.scalar) = A.value spec.scalar) :
    argScalar A spec spec.dt = A.value spec.scalar := by
  rcases hdt with h | h
  · rw [argScalar, h]
    exact hscalar h
  · rw [argScalar, h]
    rfl

variable [LinearOrder K]

/-- The kernel makes of an element what the reference makes of it. -/
theorem elementwiseMath_eq (hdt : spec.dt = .F32 ∨ spec.dt = .F64)
    (hop : isReduction (opKindFor spec.op) = false) (n : UInt32) (x : K) :
    elementwiseMath A spec (A.value spec.scalar) x =
      A.round spec.dt (element A { kind := opKindFor spec.op, scalar := spec.scalar, n := n } x) := by
  have hround : ∀ y, roundT A spec.dt y = A.round spec.dt y := by
    intro y
    rcases hdt with h | h <;> rw [h] <;> rfl
  rw [elementwiseMath, hround]
  congr 1
  -- the names that the kernel's text has a statement for, and those of reductions
  by_cases hadd : spec.op = ascii "add"
  · rw [hadd]
    rfl
  by_cases hsub : spec.op = ascii "sub"
  · rw [hsub]
    rfl
  by_cases hmul : spec.op = ascii "mul"
  · rw [hmul]
    rfl
  by_cases hscale : spec.op = ascii "scale"
  · rw [hscale]
    rfl
  by_cases habs : spec.op = ascii "abs"
  · rw [habs]
    rfl
  by_cases hneg : spec.op = ascii "neg"
  · rw [hneg]
    rfl
  have hid : opKindFor spec.op = .Id := by
    by_cases hsum : spec.op = ascii "sum"
    · rw [hsum] at hop
      cases hop
    by_cases hmax : spec.op = ascii "max"
    · rw [hmax] at hop
      cases hop
    by_cases hmin : spec.op = ascii "min"
    · rw [hmin] at hop
      cases hop
    have hne : ∀ {s : Bytes}, spec.op ≠ s → (s == spec.op) = false := by
      intro s hs
      rw [beq_eq_false_iff_ne]
      exact hs.symm
    simp only [opKindFor, lookup, List.find?_cons, List.find?_nil, hne hadd, hne hsub, hne hmul,
      hne hscale, hne habs, hne hneg, hne hsum, hne hmax, hne hmin]
    rfl
  rw [if_neg hadd, if_neg hsub, if_neg hmul, if_neg hscale, if_neg habs, if_neg hneg]
  simp only [element, hid]

/-- The reference is one pass over the host input. -/
theorem execute_referenceProgram (hdt : spec.dt = .F32 ∨ spec.dt = .F64) (hn : spec.n ≠ 0)
    (hop : isReduction (opKindFor spec.op) = false) (seed : UInt64) :
    execute A (referenceProgram spec spec.n spec.dt) seed =
      (hostInput A spec.n spec.dt seed).map
        (elementwiseMath A spec (A.value spec.scalar)) := by
  have hnone : spec.dt ≠ .None := by
    rcases hdt with h | h <;> rw [h] <;> decide
  have hmath : elementwiseMath A spec (A.value spec.scalar) = fun x => A.round spec.dt
      (element A { kind := opKindFor spec.op, scalar := spec.scalar, n := spec.n } x) := by
    funext x
    exact elementwiseMath_eq hdt hop spec.n x
  rw [hmath]
  unfold execute referenceProgram
  simp only [if_pos hnone, elementCount_toUInt64 hn, List.foldl_cons, List.foldl_nil]
  unfold applyOp
  cases hkind : opKindFor spec.op <;> simp only [hkind] at hop ⊢ <;> cases hop
  -- only a `Nop` is left, which rounds nothing: the host input is rounded already
  exact (map_element_eq (rounded_hostInput _ seed) fun x => rfl).symm

/-! ## The launch of validation -/

/-- Every launch delivers the reference, whatever is in the output before. -/
def DeliversReference (A : Arithmetic K) (spec : CudaSpec) (seed : UInt64) : Prop :=
  ∀ out order, out.length = spec.n.toNat →
    order.Perm (threads (launchOf spec spec.n spec.dt)) →
    launchElementwise (elementwiseMath A spec (argScalar A spec spec.dt))
        (deviceInput A spec.n spec.dt seed) out (launchOf spec spec.n spec.dt) order =
      some (execute A (referenceProgram spec spec.n spec.dt) seed)

/-- The elementwise kernel of validation, with a block that a device takes and a scalar of the
kernel's type, computes what it is compared with if and only if its elements and its threads are in
the range of `int`.
SOURCE: Cuda.cpp:119-128, 155-156, 475-498 -/
theorem delivers_reference_iff [Nontrivial K] (A : Arithmetic K) (spec : CudaSpec) (seed : UInt64)
    (hreduce : spec.reduce = false) (hop : isReduction (opKindFor spec.op) = false)
    (hdt : spec.dt = .F32 ∨ spec.dt = .F64)
    (hscalar : spec.dt = .F32 → A.round .F32 (A.value spec.scalar) = A.value spec.scalar)
    (hn : spec.n ≠ 0) (hblock : 0 < (launchOf spec spec.n spec.dt).blkX.toNat)
    (hdevice : (launchOf spec spec.n spec.dt).blkX.toNat ≤ 1024) :
    DeliversReference A spec seed ↔ InRange (launchOf spec spec.n spec.dt) := by
  have hlaunch : (launchOf spec spec.n spec.dt).n = spec.n := by
    unfold launchOf
    split <;> rfl
  have hlength : (hostInput A spec.n spec.dt seed).length = (launchOf spec spec.n spec.dt).n.toNat := by
    rw [hlaunch, CpuBackend.hostInput, List.length_map, List.length_range]
  have hmaps : DeliversReference A spec seed ↔
      MapsAll (elementwiseMath A spec (A.value spec.scalar)) (hostInput A spec.n spec.dt seed)
        (launchOf spec spec.n spec.dt) := by
    unfold DeliversReference MapsAll
    rw [argScalar_eq hdt hscalar, deviceInput_eq hdt, execute_referenceProgram hdt hn hop, hlength,
      hlaunch]
  rw [hmaps]
  constructor
  · intro h
    exact inRange_of_mapsAll hlength (by rwa [hlaunch]) hblock h
  · intro h
    have hsmall := h.1
    rw [hlaunch] at hsmall
    apply mapsAll_of_inRange hlength hblock _ h
    rw [hlaunch, gridX_eq hreduce hblock (by omega)]
    have hdiv := Nat.lt_div_mul_add hblock
      (a := spec.n.toNat + (launchOf spec spec.n spec.dt).blkX.toNat - 1)
    omega

/-- Five elements in blocks of two are computed as the reference computes them. -/
theorem delivers_reference_iff_scale :
    DeliversReference plainArithmetic { n := 5, block := 2 } 0 :=
  (delivers_reference_iff plainArithmetic { n := 5, block := 2 } 0 rfl (by decide) (.inl rfl)
    (fun _ => rfl) (by decide) (by decide) (by decide)).mpr ⟨by decide, by decide⟩

end Grid

end CompilationFabric.Analysis
