import Mathlib.Data.List.Basic
import Mathlib.Algebra.Order.Ring.Nat
import Mathlib.Tactic.Ring

/-!
# Absorbing a stream block by block

A hash, a cipher mode or a record layer consumes its input in blocks of a fixed size
and keeps what does not yet fill one.  `absorb f n s xs` is that computation on the
whole input: it feeds every whole block of `n` elements at the front of `xs` to `f`
and returns the state with the elements left over.

Two facts make the chunking of the input irrelevant.  `absorb_append`: absorbing `xs`
and then, behind what it left over, `ys` is absorbing `xs ++ ys`.  `absorb_blocks`: an
input that is a whole number of blocks leaves nothing over, and its state is the fold
of `f` over the blocks in order.
-/

set_option autoImplicit false

namespace CompilationFabric.Library.BlockStream

section Absorb

variable {σ α : Type} (f : σ → List α → σ) (n : ℕ)

/-- The state after the whole blocks of `xs`, and the elements behind them. -/
def absorb (s : σ) (xs : List α) : σ × List α :=
  if 0 < n ∧ n ≤ xs.length then absorb (f s (xs.take n)) (xs.drop n) else (s, xs)
termination_by xs.length
decreasing_by
  rw [List.length_drop]
  omega

/-- The `i`-th block of `n` elements of `xs`. -/
def block (xs : List α) (i : ℕ) : List α := (xs.drop (n * i)).take n

variable {n}

/-- Less than a block is kept as it is. -/
theorem absorb_of_lt {s : σ} {xs : List α} (h : xs.length < n) : absorb f n s xs = (s, xs) := by
  rw [absorb, if_neg (by omega)]

/-- A block that is complete is taken off the front. -/
theorem absorb_of_le {s : σ} {xs : List α} (hn : 0 < n) (h : n ≤ xs.length) :
    absorb f n s xs = absorb f n (f s (xs.take n)) (xs.drop n) := by
  rw [absorb, if_pos ⟨hn, h⟩]

/-- A full block in front of the input is fed to `f` first. -/
theorem absorb_block_append {s : σ} {b : List α} (hn : 0 < n) (hb : b.length = n) (xs : List α) :
    absorb f n s (b ++ xs) = absorb f n (f s b) xs := by
  rw [absorb_of_le f hn (by rw [List.length_append]; omega), List.take_left' hb,
    List.drop_left' hb]

/-- What is left over is the input's remainder. -/
theorem length_absorb (hn : 0 < n) (s : σ) (xs : List α) :
    (absorb f n s xs).2.length = xs.length % n := by
  by_cases h : n ≤ xs.length
  · rw [absorb_of_le f hn h, length_absorb hn, List.length_drop, ← Nat.mod_eq_sub_mod h]
  · rw [absorb_of_lt f (by omega), Nat.mod_eq_of_lt (by omega)]
termination_by xs.length
decreasing_by
  rw [List.length_drop]
  omega

/-- An input may be absorbed in two pieces, the second behind what the first left over. -/
theorem absorb_append (hn : 0 < n) (s : σ) (xs ys : List α) :
    absorb f n s (xs ++ ys) =
      absorb f n (absorb f n s xs).1 ((absorb f n s xs).2 ++ ys) := by
  by_cases h : n ≤ xs.length
  · have hsplit : xs ++ ys = xs.take n ++ (xs.drop n ++ ys) := by
      rw [← List.append_assoc, List.take_append_drop]
    rw [hsplit, absorb_block_append f hn (List.length_take_of_le h), absorb_append hn,
      absorb_of_le f hn h]
  · rw [absorb_of_lt f (show xs.length < n by omega)]
termination_by xs.length
decreasing_by
  rw [List.length_drop]
  omega

/-- A whole number of blocks is absorbed completely, block by block. -/
theorem absorb_blocks (hn : 0 < n) (N : ℕ) (s : σ) {xs : List α} (h : xs.length = n * N) :
    absorb f n s xs = ((List.range N).foldl (fun s i => f s (block n xs i)) s, []) := by
  induction N generalizing s xs with
  | zero =>
      have hxs : xs = [] := List.eq_nil_of_length_eq_zero h
      rw [hxs, absorb_of_lt f hn]
      rfl
  | succ N ih =>
      rw [Nat.mul_succ] at h
      have hdrop : (xs.drop n).length = n * N := by
        rw [List.length_drop]
        omega
      have hfirst : block n xs 0 = xs.take n := by simp [block]
      have hrest : ∀ i, block n (xs.drop n) i = block n xs (i + 1) := by
        intro i
        rw [block, block, List.drop_drop, Nat.mul_succ, Nat.add_comm]
      rw [absorb_of_le f hn (by omega), ih _ hdrop, List.range_succ_eq_map, List.foldl_cons,
        List.foldl_map, hfirst]
      simp only [hrest, Nat.succ_eq_add_one]

end Absorb

end CompilationFabric.Library.BlockStream
