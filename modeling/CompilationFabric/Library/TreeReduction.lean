import Mathlib.Algebra.Ring.Parity
import Mathlib.Data.Finset.Fold
import Mathlib.Data.Finset.Range
import Mathlib.Data.List.Induction
import Mathlib.Logic.Function.Basic

/-!
# Reduction by halving

A block of threads reduces the cells of its shared memory: for every stride, each thread below the
stride combines its cell with the one a stride further, and a barrier separates the strides.
Between two barriers the threads run in any order (`interval_eq_halve`), as none of them reads a
cell that another one writes.

The strides are the halves of the number of threads, rounded down.  When that number is a power of
two, cell 0 ends with all of the cells (`tree_eq_fold`); otherwise there is a cell that it does not
depend on (`exists_dropped`).
-/

set_option autoImplicit false

namespace CompilationFabric.Library.TreeReduction

variable {α : Type*} (op : α → α → α)

/-! ## The reduction -/

/-- A thread at a stride. -/
def threadStep (st : ℕ) (sh : ℕ → α) (t : ℕ) : ℕ → α :=
  if t < st then Function.update sh t (op (sh t) (sh (t + st))) else sh

/-- The threads between two barriers, in the order in which they get there. -/
def interval (st : ℕ) (order : List ℕ) (sh : ℕ → α) : ℕ → α := order.foldl (threadStep op st) sh

/-- `for (st = first; st > 0; st /= 2)`, for that many rounds at most. -/
def strides : ℕ → ℕ → List ℕ
  | 0, _ => []
  | rounds + 1, st => if 0 < st then st :: strides rounds (st / 2) else []

/-- The reduction by `b` threads. -/
def tree (b : ℕ) (schedule : ℕ → List ℕ) (sh : ℕ → α) : ℕ → α :=
  (strides b (b / 2)).foldl (fun sh st => interval op st (schedule st) sh) sh

/-- All threads at a stride, at once. -/
def halve (st : ℕ) (sh : ℕ → α) : ℕ → α :=
  fun t => if t < st then op (sh t) (sh (t + st)) else sh t

/-! ## Between two barriers -/

variable {op}

/-- After an interval exactly the threads that ran in it have halved. -/
theorem interval_apply {st : ℕ} {order : List ℕ} (hnodup : order.Nodup) (sh : ℕ → α) :
    ∀ t, interval op st order sh t = if t ∈ order then halve op st sh t else sh t := by
  induction order using List.reverseRecOn with
  | nil => exact fun t => rfl
  | append_singleton order u ih =>
      intro t
      obtain ⟨hbefore, -, hdisjoint⟩ := List.nodup_append.mp hnodup
      have hu : u ∉ order := fun hmem => hdisjoint u hmem u (List.mem_singleton.mpr rfl) rfl
      have hprev := ih hbefore
      have hself : interval op st order sh u = sh u := by rw [hprev, if_neg hu]
      -- the cell that is read is above the stride, where nobody writes
      have hread : interval op st order sh (u + st) = sh (u + st) := by
        have hstay : halve op st sh (u + st) = sh (u + st) := if_neg (by omega)
        rw [hprev, hstay, ite_self]
      have hlast : interval op st (order ++ [u]) sh = threadStep op st (interval op st order sh) u :=
        List.foldl_concat ..
      rw [hlast, threadStep]
      by_cases htu : t = u
      · subst htu
        have hmem : t ∈ order ++ [t] := List.mem_append_right _ (List.mem_singleton.mpr rfl)
        rw [if_pos hmem]
        unfold halve
        split
        · rw [Function.update_self, hself, hread]
        · exact hself
      · have hmem : t ∈ order ++ [u] ↔ t ∈ order := by simp [htu]
        rw [if_congr hmem rfl rfl, ← hprev]
        split
        · rw [Function.update_of_ne htu]
        · rfl

/-- The order of the threads does not matter. -/
theorem interval_eq_halve {b st : ℕ} {order : List ℕ} (horder : order.Perm (List.range b))
    (hst : st ≤ b) (sh : ℕ → α) : interval op st order sh = halve op st sh := by
  funext t
  rw [interval_apply (horder.nodup_iff.mpr List.nodup_range)]
  split
  · rfl
  · next hmem =>
    rw [horder.mem_iff, List.mem_range] at hmem
    rw [halve, if_neg (by omega)]

/-! ## Halving -/

variable (op) in
/-- The cells after the rounds from a stride on. -/
def halvings (rounds st : ℕ) (sh : ℕ → α) : ℕ → α :=
  (strides rounds st).foldl (fun sh st => halve op st sh) sh

/-- INTERNAL: the first of several halvings. -/
theorem halvings_succ (rounds st : ℕ) (sh : ℕ → α) :
    halvings op (rounds + 1) st sh =
      if 0 < st then halvings op rounds (st / 2) (halve op st sh) else sh := by
  rw [halvings, strides]
  split <;> rfl

/-- INTERNAL: strides do not grow. -/
theorem mem_strides {rounds st s : ℕ} (h : s ∈ strides rounds st) : s ≤ st := by
  induction rounds generalizing st with
  | zero => cases h
  | succ rounds ih =>
      unfold strides at h
      split at h
      · rcases List.mem_cons.mp h with rfl | h
        · exact le_rfl
        · exact (ih h).trans (Nat.div_le_self ..)
      · cases h

/-- The tree halves in every schedule, whatever the order of the threads. -/
theorem tree_eq_halvings {b : ℕ} {schedule : ℕ → List ℕ}
    (hschedule : ∀ st, (schedule st).Perm (List.range b)) (sh : ℕ → α) :
    tree op b schedule sh = halvings op b (b / 2) sh := by
  have hall : ∀ s ∈ strides b (b / 2), s ≤ b := fun s hs =>
    (mem_strides hs).trans (Nat.div_le_self ..)
  unfold tree halvings
  revert hall
  generalize strides b (b / 2) = ss
  intro hall
  induction ss generalizing sh with
  | nil => rfl
  | cons st ss ih =>
      rw [List.foldl_cons, List.foldl_cons, interval_eq_halve (hschedule st) (hall st (by simp))]
      exact ih _ fun s hs => hall s (by simp [hs])

/-! ## Powers of two -/

section Fold

variable [Std.Commutative op] [Std.Associative op] {e : α}

variable (op) in
/-- INTERNAL: an element may be moved out of a fold. -/
theorem op_fold {ι : Type*} [DecidableEq ι] (s : Finset ι) (f : ι → α) (a b : α) :
    s.fold op (op a b) f = op a (s.fold op b f) := by
  induction s using Finset.induction_on with
  | empty => rfl
  | insert i s hi ih =>
      rw [Finset.fold_insert hi, Finset.fold_insert hi, ih, ← @Std.Associative.assoc α op,
        @Std.Commutative.comm α op _ (f i) a, @Std.Associative.assoc α op]

/-- A fold absorbs what it starts from. -/
theorem absorb_fold {ι : Type*} [DecidableEq ι] (he : op e e = e) (s : Finset ι) (f : ι → α) :
    op e (s.fold op e f) = s.fold op e f := by
  rw [← op_fold op, he]

/-- A fold over a range is split in two. -/
theorem fold_range_add (he : op e e = e) (m k : ℕ) (f : ℕ → α) :
    (Finset.range (m + k)).fold op e f =
      op ((Finset.range m).fold op e f) ((Finset.range k).fold op e fun i => f (m + i)) := by
  induction k with
  | zero =>
      rw [Finset.range_zero, Finset.fold_empty, @Std.Commutative.comm α op, absorb_fold he]
      rfl
  | succ k ih =>
      rw [← Nat.add_assoc, Finset.range_add_one, Finset.range_add_one,
        Finset.fold_insert Finset.notMem_range_self, Finset.fold_insert Finset.notMem_range_self, ih,
        ← @Std.Associative.assoc α op, ← @Std.Associative.assoc α op,
        @Std.Commutative.comm α op _ (f (m + k))]

/-- The residue classes together are all of the indices. -/
theorem fold_range_mod (he : op e e = e) {b : ℕ} (hb : 0 < b) (n : ℕ) (f : ℕ → α) :
    (Finset.range b).fold op e (fun t => ((Finset.range n).filter (· % b = t)).fold op e f) =
      (Finset.range n).fold op e f := by
  have hpart : ∀ m, (Finset.range m).fold op e
      (fun t => ((Finset.range n).filter (· % b = t)).fold op e f) =
        ((Finset.range n).filter (· % b < m)).fold op e f := by
    intro m
    induction m with
    | zero => simp
    | succ m ih =>
        have hdisjoint : Disjoint ((Finset.range n).filter (· % b = m))
            ((Finset.range n).filter (· % b < m)) :=
          Finset.disjoint_filter.mpr fun i _ heq => by omega
        have hunion : (Finset.range n).filter (· % b < m + 1) =
            ((Finset.range n).filter (· % b = m)).disjUnion
              ((Finset.range n).filter (· % b < m)) hdisjoint := by
          ext i
          rw [Finset.mem_disjUnion, Finset.mem_filter, Finset.mem_filter, Finset.mem_filter,
            Nat.lt_succ_iff_lt_or_eq, and_or_left, or_comm]
        have hfold := @Finset.fold_disjUnion ℕ α op _ _ f _ _ e e hdisjoint
        rw [Finset.range_add_one, Finset.fold_insert Finset.notMem_range_self, ih, hunion, ← hfold,
          he]
  rw [hpart b, Finset.filter_true_of_mem fun i _ => Nat.mod_lt i hb]

/-- A tree over a power of two folds all elements, when the neutral element is absorbed. -/
theorem halvings_eq_fold (he : op e e = e) {k rounds : ℕ} (hrounds : k ≤ rounds) {sh : ℕ → α}
    (habsorb : ∀ t < 2 ^ k, op e (sh t) = sh t) :
    halvings op rounds (2 ^ k / 2) sh 0 = (Finset.range (2 ^ k)).fold op e sh := by
  induction k generalizing rounds sh with
  | zero =>
      have hnone : halvings op rounds (2 ^ 0 / 2) sh = sh := by
        cases rounds with
        | zero => rfl
        | succ rounds => rw [halvings_succ, if_neg (by decide)]
      rw [hnone, pow_zero, Finset.range_one, Finset.fold_singleton,
        @Std.Commutative.comm α op, habsorb 0 (by simp)]
  | succ k ih =>
      obtain ⟨rounds, rfl⟩ : ∃ r, rounds = r + 1 := ⟨rounds - 1, by omega⟩
      have hpow : 2 ^ (k + 1) = 2 ^ k + 2 ^ k := by rw [pow_succ, Nat.mul_two]
      have hpos : 0 < 2 ^ k := Nat.two_pow_pos k
      have hst : 2 ^ (k + 1) / 2 = 2 ^ k := by omega
      have hhalve : ∀ t ∈ Finset.range (2 ^ k), halve op (2 ^ k) sh t =
          op (sh t) (sh (2 ^ k + t)) := by
        intro t ht
        rw [halve, if_pos (Finset.mem_range.mp ht), Nat.add_comm]
      rw [hst, halvings_succ, if_pos hpos, ih (by omega), Finset.fold_congr hhalve, hpow,
        fold_range_add he, ← @Finset.fold_op_distrib ℕ α op, he]
      intro t ht
      rw [halve, if_pos ht, ← @Std.Associative.assoc α op, habsorb t (by omega)]

/-- A power of two many threads reduce all of their cells. -/
theorem tree_eq_fold (he : op e e = e) {k : ℕ} {schedule : ℕ → List ℕ}
    (hschedule : ∀ st, (schedule st).Perm (List.range (2 ^ k))) {sh : ℕ → α}
    (habsorb : ∀ t < 2 ^ k, op e (sh t) = sh t) :
    tree op (2 ^ k) schedule sh 0 = (Finset.range (2 ^ k)).fold op e sh := by
  rw [tree_eq_halvings hschedule]
  exact halvings_eq_fold he Nat.lt_two_pow_self.le habsorb

end Fold

/-! ## Other numbers -/

/-- Only cells below twice the stride are read. -/
theorem halvings_congr {rounds st m : ℕ} (hm : 0 < m) (hst : 2 * st ≤ m) {sh sh' : ℕ → α}
    (h : ∀ s < m, sh s = sh' s) : halvings op rounds st sh 0 = halvings op rounds st sh' 0 := by
  induction rounds generalizing st m sh sh' with
  | zero => exact h 0 hm
  | succ rounds ih =>
      rw [halvings_succ, halvings_succ]
      split
      · next hpos =>
        refine ih hpos (by omega) fun s hs => ?_
        rw [halve, halve, if_pos hs, if_pos hs, h s (by omega), h (s + st) (by omega)]
      · exact h 0 hm

variable (op) in
/-- A tree over any other number of threads leaves an element out. -/
theorem exists_dropped_halvings {b : ℕ} (hb : 0 < b) (hpow : ∀ k, b ≠ 2 ^ k) (rounds : ℕ) :
    ∃ t < b, 0 < t ∧ ∀ sh sh' : ℕ → α, (∀ s < b, s ≠ t → sh s = sh' s) →
      halvings op rounds (b / 2) sh 0 = halvings op rounds (b / 2) sh' 0 := by
  induction b using Nat.strong_induction_on generalizing rounds with
  | _ b ih =>
      have hone : b ≠ 1 := hpow 0
      have htwo : b ≠ 2 := hpow 1
      obtain ⟨m, rfl | rfl⟩ := Nat.even_or_odd' b
      · -- the cell that the next round on half of the cells drops
        have hhalf : 2 * m / 2 = m := by omega
        have hpow' : ∀ k, m ≠ 2 ^ k := fun k hk => hpow (k + 1) (by rw [pow_succ, hk, Nat.mul_comm])
        obtain ⟨t, ht, hpos, hdrop⟩ := ih m (by omega) (by omega) hpow' (rounds - 1)
        refine ⟨t, by omega, hpos, fun sh sh' hagree => ?_⟩
        cases rounds with
        | zero => exact hagree 0 (by omega) (by omega)
        | succ rounds =>
            rw [hhalf, halvings_succ, halvings_succ, if_pos (by omega), if_pos (by omega)]
            refine hdrop _ _ fun s hs hne => ?_
            rw [halve, halve, if_pos hs, if_pos hs, hagree s (by omega) hne,
              hagree (s + m) (by omega) (by omega)]
      · -- the last cell
        have hhalf : (2 * m + 1) / 2 = m := by omega
        refine ⟨2 * m, by omega, by omega, fun sh sh' hagree => ?_⟩
        rw [hhalf]
        exact halvings_congr (m := 2 * m) (by omega) le_rfl fun s hs =>
          hagree s (by omega) (by omega)

variable (op) in
/-- Any other number of threads leaves out a cell. -/
theorem exists_dropped {b : ℕ} (hb : 0 < b) (hpow : ∀ k, b ≠ 2 ^ k) :
    ∃ t < b, ∀ (schedule : ℕ → List ℕ) (sh sh' : ℕ → α),
      (∀ st, (schedule st).Perm (List.range b)) → (∀ s < b, s ≠ t → sh s = sh' s) →
        tree op b schedule sh 0 = tree op b schedule sh' 0 := by
  obtain ⟨t, ht, -, hdrop⟩ := exists_dropped_halvings op hb hpow b
  refine ⟨t, ht, fun schedule sh sh' hschedule hagree => ?_⟩
  rw [tree_eq_halvings hschedule, tree_eq_halvings hschedule]
  exact hdrop sh sh' hagree

end CompilationFabric.Library.TreeReduction
