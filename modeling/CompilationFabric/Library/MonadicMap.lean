import Mathlib.Data.List.Forall2

/-!
# Mapping a list with failure

What `mapM` comes to when no element fails, and what a result says of the elements: it goes through
the two lists in step, so a fact about it is an induction on `List.Forall₂`.
-/

set_option autoImplicit false

namespace CompilationFabric.Library.MonadicMap

/-- Without an effect it is the map. -/
theorem mapM_eq_pure {m : Type → Type} [Monad m] [LawfulMonad m] {α β : Type} {f : α → m β}
    {g : α → β} {xs : List α} (h : ∀ x ∈ xs, f x = pure (g x)) :
    xs.mapM f = pure (xs.map g) := by
  induction xs with
  | nil => exact List.mapM_nil
  | cons x xs ih =>
      rw [List.forall_mem_cons] at h
      rw [List.mapM_cons, h.1, ih h.2, pure_bind, pure_bind, List.map_cons]

variable {α β ε : Type} {xs : List α} {ys : List β}

/-- Every element of the result comes from the element in its place. -/
theorem forall₂_of_mapM_some {f : α → Option β} (h : xs.mapM f = some ys) :
    List.Forall₂ (fun x y => f x = some y) xs ys := by
  induction xs generalizing ys with
  | nil =>
      cases h
      exact .nil
  | cons x xs ih =>
      rw [List.mapM_cons] at h
      obtain ⟨y, hy, h⟩ := Option.bind_eq_some_iff.mp h
      obtain ⟨zs, hzs, h⟩ := Option.bind_eq_some_iff.mp h
      cases h
      exact .cons hy (ih hzs)

/-- When the map succeeds every element has its image. -/
theorem forall₂_of_mapM_ok {f : α → Except ε β} (h : xs.mapM f = .ok ys) :
    List.Forall₂ (fun x y => f x = .ok y) xs ys := by
  induction xs generalizing ys with
  | nil =>
      cases h
      exact .nil
  | cons x xs ih =>
      rw [List.mapM_cons] at h
      cases hy : f x with
      | error e =>
          rw [hy] at h
          cases h
      | ok y =>
          cases hzs : xs.mapM f with
          | error e =>
              rw [hy, hzs] at h
              cases h
          | ok zs =>
              rw [hy, hzs] at h
              cases h
              exact .cons hy (ih hzs)

/-- Lists that go in step have something for every element. -/
theorem exists_of_mem {R : α → β → Prop} (h : List.Forall₂ R xs ys) :
    ∀ x ∈ xs, ∃ y, R x y := by
  induction h with
  | nil => exact fun x hx => absurd hx (List.not_mem_nil)
  | cons hR _ ih => exact List.forall_mem_cons.mpr ⟨⟨_, hR⟩, ih⟩

/-- One element without an image leaves the list without one. -/
theorem mapM_eq_none {f : α → Option β} {x : α} (hmem : x ∈ xs) (h : f x = none) :
    xs.mapM f = none := by
  cases hys : xs.mapM f with
  | none => rfl
  | some ys =>
      obtain ⟨y, hy⟩ := exists_of_mem (forall₂_of_mapM_some hys) x hmem
      rw [h] at hy
      cases hy

/-- A function of the first list. -/
theorem eq_map_of_forall₂ {R : α → β → Prop} {g : α → β} (hg : ∀ x y, R x y → g x = y)
    (h : List.Forall₂ R xs ys) : ys = xs.map g := by
  induction h with
  | nil => rfl
  | cons hR _ ih => rw [List.map_cons, hg _ _ hR, ih]

end CompilationFabric.Library.MonadicMap
