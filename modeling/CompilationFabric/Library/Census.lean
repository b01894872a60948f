import Mathlib.Algebra.BigOperators.Group.Finset.Basic
import Mathlib.Algebra.Order.BigOperators.Group.Finset
import Mathlib.Data.Finset.Range

/-!
# Census of numbered participants

A system numbers its participants in the order in which they come, and some of the numbers may
be unused.  `total f calls n` adds up `f` over the participants with a number below `n`.

A step of the system touches one participant: it moves (`total_update`), it is new (`total_enter`),
or the next number is given away unused (`total_skip`).  So a law between the totals and other
quantities of the state is proved from what one participant contributes before and after.
-/

set_option autoImplicit false

namespace CompilationFabric.Library.Census

variable {α : Type*} {f g : α → ℕ} {calls : ℕ → Option α} {n c : ℕ} {x y : α}

/-- The sum of `f` over the participants with a number below `n`. -/
def total (f : α → ℕ) (calls : ℕ → Option α) (n : ℕ) : ℕ :=
  ∑ c ∈ Finset.range n, (calls c).elim 0 f

/-- Where nothing is, nothing is counted. -/
@[simp] theorem total_none : total f (fun _ => none) n = 0 := by
  unfold total
  apply Finset.sum_eq_zero
  simp

/-- Numbers at and above the bound do not count. -/
theorem total_congr {calls' : ℕ → Option α} (h : ∀ c < n, calls c = calls' c) :
    total f calls n = total f calls' n := by
  unfold total
  apply Finset.sum_congr rfl
  intro c hc
  rw [h c (Finset.mem_range.mp hc)]

/-- What stands under a number changes. -/
theorem total_set (hc : c < n) (o : Option α) :
    total f (Function.update calls c o) n + (calls c).elim 0 f = total f calls n + o.elim 0 f := by
  have hmem := Finset.mem_range.mpr hc
  have hrest : ∑ d ∈ (Finset.range n).erase c, (Function.update calls c o d).elim 0 f =
      ∑ d ∈ (Finset.range n).erase c, (calls d).elim 0 f := by
    apply Finset.sum_congr rfl
    intro d hd
    rw [Function.update_of_ne (Finset.ne_of_mem_erase hd)]
  unfold total
  rw [← Finset.add_sum_erase _ _ hmem, ← Finset.add_sum_erase _ _ hmem, Function.update_self,
    hrest]
  omega

/-- A participant moves. -/
theorem total_update (hc : c < n) (hx : calls c = some x) :
    total f (Function.update calls c (some y)) n + f x = total f calls n + f y := by
  have hset : _ + _ = total f calls n + _ := total_set hc (some y)
  rwa [hx, Option.elim_some, Option.elim_some] at hset

/-- A participant comes with the next number. -/
theorem total_enter :
    total f (Function.update calls n (some y)) (n + 1) = total f calls n + f y := by
  have hsame : total f (Function.update calls n (some y)) n = total f calls n :=
    total_congr fun c hc => Function.update_of_ne hc.ne _ _
  unfold total at hsame ⊢
  rw [Finset.sum_range_succ, hsame, Function.update_self, Option.elim_some]

/-- The next number is given away unused. -/
theorem total_skip (h : calls n = none) : total f calls (n + 1) = total f calls n := by
  unfold total
  rw [Finset.sum_range_succ, h, Option.elim_none, add_zero]

/-- A sum is counted by its summands. -/
theorem total_add : total (fun x => f x + g x) calls n = total f calls n + total g calls n := by
  unfold total
  rw [← Finset.sum_add_distrib]
  apply Finset.sum_congr rfl
  intro c _
  cases calls c <;> rfl

/-- A larger weight gives a larger total. -/
theorem total_mono (h : ∀ x, f x ≤ g x) : total f calls n ≤ total g calls n := by
  unfold total
  apply Finset.sum_le_sum
  intro c _
  cases calls c with
  | none => exact le_rfl
  | some x => exact h x

/-- Quantities that agree on every participant have the same total. -/
theorem total_eq_of_forall (h : ∀ c < n, ∀ x, calls c = some x → f x = g x) :
    total f calls n = total g calls n := by
  unfold total
  apply Finset.sum_congr rfl
  intro c hc
  cases hx : calls c with
  | none => rfl
  | some x => exact h c (Finset.mem_range.mp hc) x hx

end CompilationFabric.Library.Census
