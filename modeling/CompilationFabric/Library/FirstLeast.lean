import Mathlib.Data.List.Range
import Mathlib.Order.Lattice

/-!
# The first of the least

A search over the indices below a bound for the least score, where an index need not have one.  A
loop that only replaces what it has found by something strictly below finds the first of the least
(`search_eq_some`), and nothing when there is no score at all (`search_eq_none_iff`).
-/

set_option autoImplicit false

namespace CompilationFabric.Library.FirstLeast

variable {α : Type*} [LinearOrder α] (score : ℕ → Option α)

/-- One round: a score is kept until a lower one comes. -/
def improve (best : Option (ℕ × α)) (i : ℕ) : Option (ℕ × α) :=
  match score i with
  | none => best
  | some x => if best.all (fun b => x < b.2) then some (i, x) else best

/-- The loop. -/
def search (n : ℕ) : Option (ℕ × α) := (List.range n).foldl (improve score) none

/-- The index has the least score, and those before it have greater ones. -/
structure IsFirstLeast (n i : ℕ) (x : α) : Prop where
  lt : i < n
  attained : score i = some x
  least : ∀ j < n, ∀ y, score j = some y → x ≤ y
  first : ∀ j < i, ∀ y, score j = some y → x < y

variable {n i : ℕ} {x : α}

/-- A candidate without a score changes nothing. -/
theorem improve_of_none (h : score i = none) (best : Option (ℕ × α)) :
    improve score best i = best := by
  unfold improve
  rw [h]

/-- A candidate replaces the best one only when its score is smaller. -/
theorem improve_of_some (h : score i = some x) (best : Option (ℕ × α)) :
    improve score best i = if best.all (fun b => x < b.2) then some (i, x) else best := by
  unfold improve
  rw [h]

/-- INTERNAL: no candidates, no best one. -/
@[simp] theorem search_zero : search score 0 = none := rfl

/-- INTERNAL: the last candidate is compared with the best of the earlier ones. -/
theorem search_succ (n : ℕ) : search score (n + 1) = improve score (search score n) n := by
  unfold search
  rw [List.range_succ, List.foldl_append, List.foldl_cons, List.foldl_nil]

variable {score}

/-- A bound that is further by an index without a lower score changes nothing. -/
theorem IsFirstLeast.succ (h : IsFirstLeast score n i x)
    (hn : ∀ y, score n = some y → x ≤ y) : IsFirstLeast score (n + 1) i x where
  lt := Nat.lt_succ_of_lt h.lt
  attained := h.attained
  least := by
    intro j hj y hy
    obtain hlt | rfl := Nat.lt_succ_iff_lt_or_eq.mp hj
    · exact h.least j hlt y hy
    · exact hn y hy
  first := h.first

/-- A lower score than all before is the first of the least. -/
theorem isFirstLeast_of_lt (hx : score n = some x)
    (hlt : ∀ j < n, ∀ y, score j = some y → x < y) : IsFirstLeast score (n + 1) n x where
  lt := Nat.lt_succ_self n
  attained := hx
  least := by
    intro j hj y hy
    obtain hj | rfl := Nat.lt_succ_iff_lt_or_eq.mp hj
    · exact (hlt j hj y hy).le
    · rw [hx, Option.some_inj] at hy
      exact hy.le
  first := hlt

/-- What the loop has found after `n` rounds. -/
theorem search_spec (score : ℕ → Option α) (n : ℕ) :
    match search score n with
    | none => ∀ j < n, score j = none
    | some b => IsFirstLeast score n b.1 b.2 := by
  induction n with
  | zero => exact fun j hj => absurd hj (Nat.not_lt_zero j)
  | succ n ih =>
      rw [search_succ]
      cases hscore : score n with
      | none =>
          rw [improve_of_none score hscore]
          cases hbest : search score n with
          | none =>
              rw [hbest] at ih
              intro j hj
              obtain hlt | rfl := Nat.lt_succ_iff_lt_or_eq.mp hj
              · exact ih j hlt
              · exact hscore
          | some b =>
              rw [hbest] at ih
              exact ih.succ fun y hy => by rw [hscore] at hy; cases hy
      | some x =>
          rw [improve_of_some score hscore]
          cases hbest : search score n with
          | none =>
              rw [hbest] at ih
              apply isFirstLeast_of_lt hscore
              intro j hj y hy
              rw [ih j hj] at hy
              cases hy
          | some b =>
              rw [hbest] at ih
              by_cases hlt : x < b.2
              · simp only [Option.all_some, hlt, decide_true, if_true]
                exact isFirstLeast_of_lt hscore fun j hj y hy => hlt.trans_le (ih.least j hj y hy)
              · simp only [Option.all_some, hlt, decide_false, Bool.false_eq_true, if_false]
                apply ih.succ
                intro y hy
                rw [hscore, Option.some_inj] at hy
                exact hy ▸ not_lt.mp hlt

/-- What the search finds is the first candidate with the least score. -/
theorem search_eq_some (h : search score n = some (i, x)) : IsFirstLeast score n i x := by
  have hspec := search_spec score n
  rw [h] at hspec
  exact hspec

/-- The search finds nothing exactly when no candidate has a score. -/
theorem search_eq_none_iff : search score n = none ↔ ∀ j < n, score j = none := by
  constructor
  · intro h
    have hspec := search_spec score n
    rw [h] at hspec
    exact hspec
  · intro h
    cases hbest : search score n with
    | none => rfl
    | some b =>
        have hfirst := search_eq_some hbest
        have hscore := hfirst.attained
        rw [h b.1 hfirst.lt] at hscore
        cases hscore

end CompilationFabric.Library.FirstLeast
