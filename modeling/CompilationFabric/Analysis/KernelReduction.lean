import CompilationFabric.Library.MonadicMap
import CompilationFabric.Model.CudaLaunch
import Mathlib.Algebra.BigOperators.Intervals
import Mathlib.Algebra.Order.Ring.Rat
import Mathlib.Data.Nat.ModEq
import Mathlib.Tactic.NormNum

/-!
# What the reduction kernel reduces

The accumulators of a block hold every element of the input once, as long as the index of a thread
does not overflow.  The tree over them loses none exactly when their number is a power of two, which
a block of fewer than 1024 threads has only for such sizes of the input.
-/

set_option autoImplicit false

namespace CompilationFabric.Analysis

open CompilationFabric.Library
open CompilationFabric.Model
open CompilationFabric.Model.CudaKernel

variable {spec : CudaSpec}

/-! ## The property -/

/-- The kernel is the one that is generated for a sum, a maximum or a minimum: `reduce` is set, and
the operation is one of the three. -/
def IsReduction (spec : CudaSpec) : Prop :=
  spec.reduce = true ∧ (spec.op = ascii "sum" ∨ spec.op = ascii "max" ∨ spec.op = ascii "min")

/-- The number is the sum, the maximum or the minimum. -/
def Reduces (spec : CudaSpec) (xs : List ℚ) (v : ℚ) : Prop :=
  if spec.op = ascii "sum" then v = xs.sum
  else if spec.op = ascii "max" then v ∈ xs ∧ ∀ x ∈ xs, x ≤ v
  else v ∈ xs ∧ ∀ x ∈ xs, v ≤ x

/-- The threads that reach each barrier are those of the block. -/
def RespectsBarriers (n : UInt32) (schedule : ℕ → List ℕ) : Prop :=
  ∀ st, (schedule st).Perm (List.range (blockSize n))

/-- The kernel reduces every input of a length, in whatever order its threads run. -/
def ReducesEverything (spec : CudaSpec) (n : UInt32) : Prop :=
  ∀ (input : List (KernelValue spec.dt)) (schedule : ℕ → List ℕ), input.length = n.toNat →
    RespectsBarriers n schedule → ∃ v, launch spec (input.map (·.val)) n schedule = some v ∧
      Reduces spec (input.map (·.val)) v

/-! ## The operation -/

/-- A sum adds. -/
theorem combine_sum (h : spec.op = ascii "sum") : combine spec = (· + ·) := by
  funext a b
  rw [combine, if_pos h]

/-- A maximum takes the larger one. -/
theorem combine_max (h : spec.op = ascii "max") : combine spec = max := by
  funext a b
  rw [combine, if_neg (by rw [h]; decide), if_pos h]
  split
  · next hlt => rw [max_eq_left hlt.le]
  · next hle => rw [max_eq_right (not_lt.mp hle)]

/-- A minimum takes the smaller one. -/
theorem combine_min (h : spec.op = ascii "min") : combine spec = min := by
  funext a b
  rw [combine, if_neg (by rw [h]; decide), if_neg (by rw [h]; decide)]
  split
  · next hlt => rw [min_eq_left hlt.le]
  · next hle => rw [min_eq_right (not_lt.mp hle)]

/-- A sum starts at zero. -/
theorem initv_sum (h : spec.op = ascii "sum") : initv spec = 0 := by
  rw [initv, if_neg (by rw [h]; decide), if_neg (by rw [h]; decide)]

/-- A maximum starts at the least number. -/
theorem initv_max (h : spec.op = ascii "max") : initv spec = -maxValue spec.dt := by
  rw [initv, if_pos h]

/-- A minimum starts at the largest number. -/
theorem initv_min (h : spec.op = ascii "min") : initv spec = maxValue spec.dt := by
  rw [initv, if_neg (by rw [h]; decide), if_pos h]

/-- The operation of a reduction commutes. -/
theorem commutative_combine (h : IsReduction spec) : Std.Commutative (combine spec) := by
  rcases h.2 with h | h | h
  · exact combine_sum h ▸ ⟨add_comm⟩
  · exact combine_max h ▸ ⟨max_comm⟩
  · exact combine_min h ▸ ⟨min_comm⟩

/-- The operation of a reduction associates. -/
theorem associative_combine (h : IsReduction spec) : Std.Associative (combine spec) := by
  rcases h.2 with h | h | h
  · exact combine_sum h ▸ ⟨add_assoc⟩
  · exact combine_max h ▸ ⟨max_assoc⟩
  · exact combine_min h ▸ ⟨min_assoc⟩

/-- The start of a reduction is absorbed by itself. -/
theorem combine_initv (h : IsReduction spec) :
    combine spec (initv spec) (initv spec) = initv spec := by
  rcases h.2 with h | h | h
  · rw [combine_sum h, initv_sum h]
    exact add_zero 0
  · rw [combine_max h, max_self]
  · rw [combine_min h, min_self]

/-! ## The accumulators -/

variable {input : List ℚ} {n i : Int32} {b j rounds : ℕ} {acc : ℚ}

/-- INTERNAL: an index in range has its element. -/
theorem elementAt_of_lt (hi : i.toInt = j) (hj : j < input.length) :
    elementAt input i = some (input.getD j 0) := by
  have hnonneg : ¬ i < 0 := by
    rw [Int32.lt_iff_toInt_lt, hi]
    exact not_lt.mpr (Int.natCast_nonneg j)
  rw [elementAt, if_neg hnonneg, hi, Int.toNat_natCast, List.getD_eq_getElem?_getD,
    List.getElem?_eq_getElem hj, Option.getD_some]

/-- The next index, as long as there is no overflow. -/
theorem toInt_next (hi : i.toInt = j) (hb : b < 2 ^ 31) (hfits : j + b < 2 ^ 31) :
    (i + Int32.ofNat b).toInt = (j + b : ℕ) := by
  rw [Int32.toInt_add, hi, Int32.toInt_ofNat_of_lt hb, Int.bmod_eq_of_le] <;> omega

/-- With one, it is negative. -/
theorem toInt_overflow (hi : i.toInt = j) (hj : j < 2 ^ 31) (hb : b < 2 ^ 31)
    (hover : 2 ^ 31 ≤ j + b) : (i + Int32.ofNat b).toInt < 0 := by
  rw [Int32.toInt_add, hi, Int32.toInt_ofNat_of_lt hb, Int.bmod_def]
  omega

/-- The elements that a thread still has to take from an index on. -/
def remaining (n b j : ℕ) : Finset ℕ := (Finset.range n).filter fun k => j ≤ k ∧ k % b = j % b

/-- INTERNAL: behind the end nothing remains. -/
theorem remaining_of_le {n b j : ℕ} (h : n ≤ j) : remaining n b j = ∅ :=
  Finset.filter_false_of_mem fun k hk hj => by
    rw [Finset.mem_range] at hk
    omega

/-- INTERNAL: an element remains, and those a block further. -/
theorem remaining_of_lt {n b j : ℕ} (hb : 0 < b) (h : j < n) :
    remaining n b j = insert j (remaining n b (j + b)) := by
  ext k
  simp only [remaining, Finset.mem_insert, Finset.mem_filter, Finset.mem_range, Nat.add_mod_right]
  constructor
  · rintro ⟨hk, hj, hmod⟩
    by_cases heq : k = j
    · exact .inl heq
    · have hdvd : b ∣ k - j := (Nat.modEq_iff_dvd' hj).mp hmod.symm
      have hle := Nat.le_of_dvd (by omega) hdvd
      exact .inr ⟨hk, by omega, hmod⟩
  · rintro (rfl | ⟨hk, hj, hmod⟩)
    · exact ⟨h, le_rfl, rfl⟩
    · exact ⟨hk, by omega, hmod⟩

/-- INTERNAL: an element is not among those a block further. -/
theorem notMem_remaining {n b j : ℕ} (hb : 0 < b) : j ∉ remaining n b (j + b) := by
  unfold remaining
  rw [Finset.mem_filter]
  omega

/-- INTERNAL: a thread has the elements of its own residue. -/
theorem remaining_start {n b t : ℕ} (ht : t < b) :
    remaining n b t = (Finset.range n).filter (· % b = t) := by
  refine Finset.filter_congr fun k _ => ?_
  rw [Nat.mod_eq_of_lt ht]
  constructor
  · exact And.right
  · intro hmod
    exact ⟨hmod ▸ Nat.mod_le k b, hmod⟩

section Fold

variable [Std.Commutative (combine spec)] [Std.Associative (combine spec)]

/-- Without an overflow a thread takes all that remain. -/
theorem accumulate_eq (hn : n.toInt = input.length) (hb : 0 < b) (hfits : input.length + b ≤ 2 ^ 31)
    (hi : i.toInt = j) (hpos : 0 < rounds) (hrounds : input.length < rounds + j) :
    accumulate spec input n b rounds i acc =
      some ((remaining input.length b j).fold (combine spec) acc (input.getD · 0)) := by
  induction rounds generalizing i j acc with
  | zero => exact absurd hpos (lt_irrefl 0)
  | succ rounds ih =>
      unfold accumulate
      by_cases hlt : j < input.length
      · have hless : i < n := by
          rw [Int32.lt_iff_toInt_lt, hi, hn]
          exact_mod_cast hlt
        rw [if_pos hless, elementAt_of_lt hi hlt, Option.bind_some,
          ih (toInt_next hi (by omega) (by omega)) (by omega) (by omega), remaining_of_lt hb hlt,
          Finset.fold_insert (notMem_remaining hb), ← TreeReduction.op_fold (combine spec),
          @Std.Commutative.comm ℚ (combine spec) _ acc]
      · have hge : ¬ i < n := by
          rw [Int32.lt_iff_toInt_lt, hi, hn]
          exact_mod_cast hlt
        rw [if_neg hge, remaining_of_le (not_lt.mp hlt), Finset.fold_empty]

/-- The accumulator of a thread. -/
def cell (spec : CudaSpec) [Std.Commutative (combine spec)] [Std.Associative (combine spec)]
    (input : List ℚ) (b t : ℕ) : ℚ :=
  ((Finset.range input.length).filter (· % b = t)).fold (combine spec) (initv spec)
    (input.getD · 0)

end Fold

/-- The tree runs over whatever the threads have accumulated. -/
theorem kernel_of_accumulators {schedule : ℕ → List ℕ} {g : ℕ → ℚ}
    (h : ∀ t < b, accumulate spec input n b (input.length + 1) (Int32.ofNat t) (initv spec) =
      some (g t)) :
    kernel spec input n b schedule =
      some (TreeReduction.tree (combine spec) b schedule (fun t => if t < b then g t else 0) 0) := by
  have hcells : (fun t => ((List.range b).map g).getD t 0) = fun t => if t < b then g t else 0 := by
    funext t
    rw [List.getD_eq_getElem?_getD, List.getElem?_map]
    split
    · next ht => rw [List.getElem?_range ht, Option.map_some, Option.getD_some]
    · next ht =>
      rw [List.getElem?_eq_none (by rw [List.length_range]; omega), Option.map_none,
        Option.getD_none]
  unfold kernel
  rw [MonadicMap.mapM_eq_pure fun t ht => h t (List.mem_range.mp ht), Option.pure_def,
    Option.map_some, hcells]

/-! ## Blocks that reduce everything -/

section Fold

variable [Std.Commutative (combine spec)] [Std.Associative (combine spec)]

/-- The kernel is the tree over what the threads have accumulated, when no index wraps. -/
theorem kernel_eq {schedule : ℕ → List ℕ} (hn : n.toInt = input.length)
    (hb : 0 < b) (hfits : input.length + b ≤ 2 ^ 31) :
    kernel spec input n b schedule = some (TreeReduction.tree (combine spec) b schedule
      (fun t => if t < b then cell spec input b t else 0) 0) := by
  refine kernel_of_accumulators fun t ht => ?_
  rw [accumulate_eq hn hb hfits (Int32.toInt_ofNat_of_lt (by omega)) (by omega) (by omega),
    remaining_start ht]
  rfl

/-- A power of two many accumulators are reduced to the fold over the input. -/
theorem kernel_eq_fold (hinit : combine spec (initv spec) (initv spec) = initv spec)
    {schedule : ℕ → List ℕ} {k : ℕ} (hb : b = 2 ^ k)
    (hschedule : ∀ st, (schedule st).Perm (List.range b)) (hn : n.toInt = input.length)
    (hfits : input.length + b ≤ 2 ^ 31) :
    kernel spec input n b schedule = some
      ((Finset.range input.length).fold (combine spec) (initv spec) (input.getD · 0)) := by
  subst hb
  have hpos : 0 < 2 ^ k := Nat.two_pow_pos k
  rw [kernel_eq hn hpos hfits, TreeReduction.tree_eq_fold hinit hschedule]
  · refine congrArg some (Eq.trans (Finset.fold_congr fun t ht => ?_)
      (TreeReduction.fold_range_mod hinit hpos _ _))
    rw [if_pos (Finset.mem_range.mp ht)]
    rfl
  · intro t ht
    rw [if_pos ht]
    exact TreeReduction.absorb_fold hinit _ _

end Fold

/-- INTERNAL: the sum over the indices is that of the list. -/
theorem sum_range_getD (xs : List ℚ) : ∑ i ∈ Finset.range xs.length, xs.getD i 0 = xs.sum := by
  induction xs with
  | nil => rfl
  | cons x xs ih =>
      rw [List.length_cons, Finset.sum_range_succ', List.sum_cons, ← ih, add_comm]
      rfl

/-- The fold of a maximum over elements that are not below its start is the greatest of them. -/
theorem fold_max {α : Type*} [LinearOrder α] {xs : List α} {d e : α} (hxs : xs ≠ [])
    (hall : ∀ x ∈ xs, e ≤ x) :
    (Finset.range xs.length).fold max e (xs.getD · d) ∈ xs ∧
      ∀ x ∈ xs, x ≤ (Finset.range xs.length).fold max e (xs.getD · d) := by
  have hmem : ∀ i ∈ Finset.range xs.length, xs.getD i d ∈ xs := by
    intro i hi
    rw [List.getD_eq_getElem?_getD, List.getElem?_eq_getElem (Finset.mem_range.mp hi),
      Option.getD_some]
    exact List.getElem_mem _
  have hle : ∀ x ∈ xs, x ≤ (Finset.range xs.length).fold max e (xs.getD · d) := by
    intro x hx
    obtain ⟨i, hi, rfl⟩ := List.getElem_of_mem hx
    refine Finset.le_fold_max _ |>.mpr (.inr ⟨i, Finset.mem_range.mpr hi, ?_⟩)
    rw [List.getD_eq_getElem?_getD, List.getElem?_eq_getElem hi, Option.getD_some]
  refine ⟨?_, hle⟩
  rcases (Finset.le_fold_max _).mp (le_refl ((Finset.range xs.length).fold max e (xs.getD · d)))
    with hstart | ⟨i, hi, hless⟩
  · obtain ⟨x, hx⟩ := List.exists_mem_of_ne_nil xs hxs
    have heq := le_antisymm (hle x hx) (hstart.trans (hall x hx))
    exact heq ▸ hx
  · have heq := le_antisymm (hle _ (hmem i hi)) hless
    exact heq ▸ hmem i hi

/-- The fold over the elements is the reduction. -/
theorem reduces_fold [Std.Commutative (combine spec)] [Std.Associative (combine spec)]
    (h : IsReduction spec) (hinput : input ≠ []) (hrange : ∀ x ∈ input, |x| ≤ maxValue spec.dt) :
    Reduces spec input
      ((Finset.range input.length).fold (combine spec) (initv spec) (input.getD · 0)) := by
  rcases h.2 with h | h | h
  · rw [Reduces, if_pos h]
    simp only [combine_sum h, initv_sum h]
    exact sum_range_getD input
  · rw [Reduces, if_neg (by rw [h]; decide), if_pos h]
    simp only [combine_max h, initv_max h]
    exact fold_max hinput fun x hx => (abs_le.mp (hrange x hx)).1
  · rw [Reduces, if_neg (by rw [h]; decide), if_neg (by rw [h]; decide)]
    simp only [combine_min h, initv_min h]
    exact fold_max (α := ℚᵒᵈ) hinput fun x hx => (abs_le.mp (hrange x hx)).2

/-- INTERNAL: the count as the kernel's `int`. -/
theorem toInt_argN (n : UInt32) : n.toInt32.toInt = Int.bmod n.toNat (2 ^ 32) :=
  BitVec.toInt_eq_toNat_bmod _

/-- INTERNAL: a count below `2 ^ 31` is itself. -/
theorem toInt_argN_of_lt {n : UInt32} (h : n.toNat < 2 ^ 31) : n.toInt32.toInt = n.toNat := by
  rw [toInt_argN, Int.bmod_eq_of_le] <;> omega

/-- A block of a power of two reduces everything, when no index wraps. -/
theorem reducesEverything_of_pow {n : UInt32} (h : IsReduction spec) (hn : 1 ≤ n.toNat) {k : ℕ}
    (hblock : blockSize n = 2 ^ k) (hfits : n.toNat + blockSize n ≤ 2 ^ 31) :
    ReducesEverything spec n := by
  have := commutative_combine h
  have := associative_combine h
  intro input schedule hlength hschedule
  have hvals : (input.map (·.val)).length = n.toNat := by rw [List.length_map, hlength]
  have hpos : 0 < blockSize n := hblock ▸ Nat.two_pow_pos k
  refine ⟨_, (launch_eq h.1 _ _ _).trans
    (kernel_eq_fold (combine_initv h) hblock hschedule ?_ ?_), reduces_fold h ?_ ?_⟩
  · rw [toInt_argN_of_lt (by omega), hvals]
  · rw [hvals]
    exact hfits
  · intro hnil
    rw [hnil] at hvals
    exact absurd hvals.symm (Nat.ne_of_gt hn)
  · intro x hx
    obtain ⟨x, -, rfl⟩ := List.mem_map.mp hx
    exact x.property

/-! ## Blocks that do not -/

/-- INTERNAL: the largest number is above one. -/
theorem one_lt_maxValue (dt : Datatype) : 1 < maxValue dt := by
  unfold maxValue
  split
  · refine lt_of_lt_of_le ?_ (le_mul_of_one_le_right ?_ (one_le_pow₀ one_le_two)) <;> norm_num
  · refine lt_of_lt_of_le ?_ (le_mul_of_one_le_right ?_ (one_le_pow₀ one_le_two)) <;> norm_num

/-- What is put among zeros so that it is their sum, their maximum or their minimum. -/
def outlier (spec : CudaSpec) : ℚ := if spec.op = ascii "min" then -1 else 1

/-- Zeros, and the outlier at an index. -/
def withOutlier (spec : CudaSpec) (n t : ℕ) : List ℚ := (List.replicate n 0).set t (outlier spec)

/-- INTERNAL: the input has the length that was asked for. -/
theorem length_withOutlier (n t : ℕ) : (withOutlier spec n t).length = n := by
  rw [withOutlier, List.length_set, List.length_replicate]

/-- INTERNAL: its elements are zeros and the outlier. -/
theorem mem_withOutlier {n t : ℕ} {x : ℚ} (h : x ∈ withOutlier spec n t) :
    x = 0 ∨ x = outlier spec := by
  rcases List.mem_or_eq_of_mem_set h with h | h
  · exact .inl (List.eq_of_mem_replicate h)
  · exact .inr h

/-- INTERNAL: the outlier is in it. -/
theorem outlier_mem {n t : ℕ} (ht : t < n) : outlier spec ∈ withOutlier spec n t :=
  List.mem_set (by rwa [List.length_replicate]) _

/-- INTERNAL: the outlier is in range. -/
theorem abs_outlier : |outlier spec| = 1 := by
  unfold outlier
  split
  · rw [abs_neg, abs_one]
  · exact abs_one

/-- They are in the range of the kernel's type. -/
theorem exists_values {xs : List ℚ} (h : ∀ x ∈ xs, x = 0 ∨ x = outlier spec) :
    ∃ input : List (KernelValue spec.dt), input.map (·.val) = xs := by
  have hrange : ∀ x ∈ xs, |x| ≤ maxValue spec.dt := by
    intro x hx
    have hone := (one_lt_maxValue spec.dt).le
    rcases h x hx with rfl | rfl
    · exact abs_zero.trans_le (zero_le_one.trans hone)
    · exact abs_outlier.trans_le hone
  exact CanLift.prf xs hrange

/-- The reduction of an input with an outlier is the outlier. -/
theorem eq_outlier_of_reduces {n t : ℕ} {v : ℚ} (h : IsReduction spec) (ht : t < n)
    (hv : Reduces spec (withOutlier spec n t) v) : v = outlier spec := by
  rcases h.2 with h | h | h
  · rw [Reduces, if_pos h] at hv
    rw [hv, withOutlier, List.sum_set]
    simp [ht]
  · rw [Reduces, if_neg (by rw [h]; decide), if_pos h] at hv
    have hle := hv.2 _ (outlier_mem ht)
    have hone : outlier spec = 1 := if_neg (by rw [h]; decide)
    rcases mem_withOutlier hv.1 with rfl | rfl
    · rw [hone] at hle
      exact absurd hle (by norm_num)
    · rfl
  · rw [Reduces, if_neg (by rw [h]; decide), if_neg (by rw [h]; decide)] at hv
    have hle := hv.2 _ (outlier_mem ht)
    have hone : outlier spec = -1 := if_pos h
    rcases mem_withOutlier hv.1 with rfl | rfl
    · rw [hone] at hle
      exact absurd hle (by norm_num)
    · rfl

/-- The reduction of zeros is zero. -/
theorem eq_zero_of_reduces {n : ℕ} {v : ℚ} (hv : Reduces spec (List.replicate n 0) v) :
    v = 0 := by
  unfold Reduces at hv
  split at hv
  · simpa using hv
  · split at hv <;> exact List.eq_of_mem_replicate hv.1

/-- INTERNAL: no reduction starts at the outlier. -/
theorem initv_ne_outlier (h : IsReduction spec) : initv spec ≠ outlier spec := by
  have hmax := one_lt_maxValue spec.dt
  unfold outlier
  rcases h.2 with h | h | h
  · rw [initv_sum h]
    split <;> norm_num
  · rw [initv_max h, if_neg (by rw [h]; decide)]
    exact (by linarith : -maxValue spec.dt < 1).ne
  · rw [initv_min h, if_pos h]
    exact (by linarith : -1 < maxValue spec.dt).ne'

/-- The block that reduces everything returns the outlier, wherever it is. -/
theorem ReducesEverything.launch_outlier {n : UInt32} {t : ℕ} (hall : ReducesEverything spec n)
    (h : IsReduction spec) (ht : t < n.toNat) :
    launch spec (withOutlier spec n.toNat t) n (fun _ => List.range (blockSize n)) =
      some (outlier spec) := by
  have hvalues : ∀ x ∈ withOutlier spec n.toNat t, x = 0 ∨ x = outlier spec :=
    fun x hx => mem_withOutlier hx
  obtain ⟨input, hinput⟩ := exists_values hvalues
  obtain ⟨v, hv, hreduces⟩ := hall input (fun _ => List.range (blockSize n))
    (by rw [← List.length_map (·.val), hinput, length_withOutlier]) fun _ => List.Perm.refl _
  rw [hinput] at hv hreduces
  rw [hv, eq_outlier_of_reduces h ht hreduces]

/-- INTERNAL: from 1024 elements on a block has 1024 threads. -/
theorem blockSize_of_ge {n : UInt32} (h : 1024 ≤ n.toNat) : blockSize n = 1024 := min_eq_right h

/-- From 2³¹ on `argN` is negative, and no thread takes anything. -/
theorem not_reducesEverything_of_negative {n : UInt32} (h : IsReduction spec)
    (hn : 2 ^ 31 ≤ n.toNat) : ¬ ReducesEverything spec n := by
  intro hall
  have := commutative_combine h
  have := associative_combine h
  have hneg : n.toInt32.toInt < 0 := by
    rw [toInt_argN, Int.bmod_def]
    have := n.toNat_lt
    omega
  have hacc : ∀ t < 1024, accumulate spec (withOutlier spec n.toNat 0) n.toInt32 1024
      ((withOutlier spec n.toNat 0).length + 1) (Int32.ofNat t) (initv spec) =
        some (initv spec) := by
    intro t ht
    have hge : ¬ Int32.ofNat t < n.toInt32 := by
      rw [Int32.lt_iff_toInt_lt, Int32.toInt_ofNat_of_lt (by omega)]
      omega
    rw [accumulate, if_neg hge]
  have htree : TreeReduction.tree (combine spec) 1024 (fun _ => List.range 1024)
      (fun t => if t < 1024 then initv spec else 0) 0 = initv spec := by
    have hpow : 1024 = 2 ^ 10 := rfl
    rw [hpow, TreeReduction.tree_eq_fold (combine_initv h) fun _ => List.Perm.refl _]
    · rw [Finset.fold_congr fun t ht => if_pos (Finset.mem_range.mp ht),
        Finset.fold_const _ (by rw [combine_initv h, combine_initv h]),
        if_neg (Finset.nonempty_range_iff.mpr (Nat.two_pow_pos 10).ne').ne_empty, combine_initv h]
    · intro t ht
      rw [if_pos ht, combine_initv h]
  have hlaunch := hall.launch_outlier (t := 0) h (by omega)
  rw [launch_eq h.1, blockSize_of_ge (by omega), kernel_of_accumulators hacc, htree] at hlaunch
  exact initv_ne_outlier h (Option.some.inj hlaunch)

/-- INTERNAL: a negative index ends the kernel. -/
theorem accumulate_of_negative (hi : i < 0) (hless : i < n) :
    accumulate spec input n b rounds i acc = none := by
  cases rounds with
  | zero => rfl
  | succ rounds => rw [accumulate, if_pos hless, elementAt, if_pos hi, Option.bind_none]

/-- Above 2³¹ - 1024 the index of thread 0 runs over. -/
theorem accumulate_overflow (hn : n.toInt = input.length) (hlength : 2 ^ 31 - 1024 < input.length)
    (hlt : input.length < 2 ^ 31) (hi : i.toInt = j) (hdvd : 1024 ∣ j)
    (hj : j ≤ 2 ^ 31 - 1024) : accumulate spec input n 1024 rounds i acc = none := by
  induction rounds generalizing i j acc with
  | zero => rfl
  | succ rounds ih =>
      have hless : i < n := by
        rw [Int32.lt_iff_toInt_lt, hi, hn]
        exact_mod_cast hj.trans_lt hlength
      rw [accumulate, if_pos hless, elementAt_of_lt hi (by omega), Option.bind_some]
      by_cases hlast : j + 1024 < 2 ^ 31
      · exact ih (toInt_next hi (by omega) hlast) (by omega) (by omega)
      · have hneg := toInt_overflow (b := 1024) hi (by omega) (by omega) (by omega)
        refine accumulate_of_negative ?_ ?_
        · rw [Int32.lt_iff_toInt_lt]
          exact hneg
        · rw [Int32.lt_iff_toInt_lt, hn]
          omega

/-- Close below `2 ^ 31` elements an index wraps, and nothing is reduced. -/
theorem not_reducesEverything_of_overflow {n : UInt32} (h : IsReduction spec)
    (hn : 2 ^ 31 - 1024 < n.toNat) (hlt : n.toNat < 2 ^ 31) : ¬ ReducesEverything spec n := by
  intro hall
  have hlaunch := hall.launch_outlier (t := 0) h (by omega)
  have hlength : (withOutlier spec n.toNat 0).length = n.toNat := length_withOutlier _ _
  have hover : accumulate spec (withOutlier spec n.toNat 0) n.toInt32 1024
      ((withOutlier spec n.toNat 0).length + 1) (Int32.ofNat 0) (initv spec) = none :=
    accumulate_overflow (j := 0) (by rw [toInt_argN_of_lt hlt, hlength]) (hlength.symm ▸ hn)
      (hlength.symm ▸ hlt) rfl (dvd_zero _) (Nat.zero_le _)
  rw [launch_eq h.1, blockSize_of_ge (by omega), kernel,
    MonadicMap.mapM_eq_none (List.mem_range.mpr (by decide)) hover, Option.map_none] at hlaunch
  cases hlaunch

/-- The outlier among zeros goes unnoticed at the cell that the tree leaves out. -/
theorem not_reducesEverything_of_dropped {n : UInt32} (h : IsReduction spec) (hn : 1 ≤ n.toNat)
    (hpow : ∀ k, n.toNat ≠ 2 ^ k) (hsmall : n.toNat < 1024) : ¬ ReducesEverything spec n := by
  intro hall
  have := commutative_combine h
  have := associative_combine h
  have hblock : blockSize n = n.toNat := min_eq_left hsmall.le
  obtain ⟨t, ht, hdrop⟩ := TreeReduction.exists_dropped (combine spec) hn hpow
  have hkernel : ∀ xs : List ℚ, xs.length = n.toNat →
      launch spec xs n (fun _ => List.range (blockSize n)) =
        some (TreeReduction.tree (combine spec) n.toNat (fun _ => List.range n.toNat)
          (fun s => if s < n.toNat then cell spec xs n.toNat s else 0) 0) := by
    intro xs hxs
    rw [launch_eq h.1, hblock]
    exact kernel_eq (by rw [toInt_argN_of_lt (by omega), hxs]) hn (by omega)
  have hzeros : (List.replicate n.toNat (0 : ℚ)).length = n.toNat := List.length_replicate
  have hagree : ∀ s < n.toNat, s ≠ t → cell spec (List.replicate n.toNat 0) n.toNat s =
      cell spec (withOutlier spec n.toNat t) n.toNat s := by
    intro s hs hne
    unfold cell
    rw [hzeros, length_withOutlier]
    refine Finset.fold_congr fun k hk => ?_
    obtain ⟨hrange, rfl⟩ := Finset.mem_filter.mp hk
    rw [Nat.mod_eq_of_lt (Finset.mem_range.mp hrange)] at hne
    rw [withOutlier, List.getD_eq_getElem?_getD, List.getD_eq_getElem?_getD,
      List.getElem?_set_ne hne.symm]
  have hsame : launch spec (List.replicate n.toNat 0) n (fun _ => List.range (blockSize n)) =
      some (outlier spec) := by
    rw [← hall.launch_outlier h ht, hkernel _ hzeros, hkernel _ (length_withOutlier _ _)]
    refine congrArg some (hdrop _ _ _ (fun _ => List.Perm.refl _) fun s hs hne => ?_)
    rw [if_pos hs, if_pos hs, hagree s hs hne]
  have hvalues : ∀ x ∈ List.replicate n.toNat (0 : ℚ), x = 0 ∨ x = outlier spec :=
    fun x hx => .inl (List.eq_of_mem_replicate hx)
  obtain ⟨input, hinput⟩ := exists_values hvalues
  obtain ⟨v, hv, hreduces⟩ := hall input (fun _ => List.range (blockSize n))
    (by rw [← List.length_map (·.val), hinput, hzeros]) fun _ => List.Perm.refl _
  rw [hinput] at hv hreduces
  rw [hsame, eq_zero_of_reduces hreduces] at hv
  have habs : |outlier spec| = 1 := abs_outlier
  refine absurd habs ?_
  rw [Option.some.inj hv, abs_zero]
  exact zero_ne_one

/-- The kernel reduces every input of a length that is a power of two or at least the size of a full
block, up to where the index of a thread overflows. -/
theorem reducesEverything_iff {n : UInt32} (h : IsReduction spec) (hn : 1 ≤ n.toNat) :
    ReducesEverything spec n ↔
      ((∃ k, n.toNat = 2 ^ k) ∨ 1024 ≤ n.toNat) ∧ n.toNat ≤ 2 ^ 31 - 1024 := by
  constructor
  · intro hall
    refine ⟨?_, ?_⟩
    · by_contra hbad
      obtain ⟨hpow, hsmall⟩ := not_or.mp hbad
      exact not_reducesEverything_of_dropped h hn (not_exists.mp hpow) (not_le.mp hsmall) hall
    · by_contra hlarge
      rcases lt_or_ge n.toNat (2 ^ 31) with hlt | hge
      · exact not_reducesEverything_of_overflow h (not_le.mp hlarge) hlt hall
      · exact not_reducesEverything_of_negative h hge hall
  · rintro ⟨hsize, hfits⟩
    by_cases hfull : 1024 ≤ n.toNat
    · have hblock := blockSize_of_ge hfull
      exact reducesEverything_of_pow (k := 10) h hn hblock (by omega)
    · obtain ⟨k, hk⟩ := hsize.resolve_right hfull
      have hblock : blockSize n = n.toNat := min_eq_left (by omega)
      exact reducesEverything_of_pow (k := k) h hn (hblock.trans hk) (by omega)

/-- The kernel of a sum. -/
def sumSpec : CudaSpec := { op := ascii "sum", dt := .F32, reduce := true }

/-- A block of four threads reduces four numbers. -/
theorem reducesEverything_four : ReducesEverything sumSpec 4 :=
  (reducesEverything_iff ⟨rfl, .inl rfl⟩ (by decide)).mpr ⟨.inl ⟨2, rfl⟩, by decide⟩

/-- Three threads leave out the last accumulator. -/
theorem not_reducesEverything :
    ¬ ∀ (spec : CudaSpec) (n : UInt32), IsReduction spec → 1 ≤ n.toNat →
      ReducesEverything spec n := by
  intro hall
  have hthree : launch sumSpec [0, 0, 1] 3 (fun _ => [0, 1, 2]) = some 0 := by decide +kernel
  have hone := ReducesEverything.launch_outlier (t := 2) (hall sumSpec 3 ⟨rfl, .inl rfl⟩ (by decide))
    ⟨rfl, .inl rfl⟩ (by decide)
  exact absurd (hthree.symm.trans hone) (by decide +kernel)

end CompilationFabric.Analysis
