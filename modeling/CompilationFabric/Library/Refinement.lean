import CompilationFabric.Library.TransitionSystem

/-!
# Forward simulation

The abstract system is a relation whose steps carry a label, and a `Path` is a run of it.  The
concrete system is a step function; `observe` says what is seen of a step, and `abs` what a state is
a picture of.  When every step is one of the abstract system with the label that is seen
(`Simulates`), every run is a path with the labels that are seen of it.
-/

set_option autoImplicit false

namespace CompilationFabric.Library.TransitionSystem

variable {σ ε τ α : Type*}

/-- A run of the abstract system. -/
inductive Path (R : τ → α → τ → Prop) : τ → List α → τ → Prop
  | nil (r : τ) : Path R r [] r
  | cons {r s t : τ} {a : α} {as : List α} (h : R r a s) (hrest : Path R s as t) :
      Path R r (a :: as) t

variable {R : τ → α → τ → Prop} {r t : τ} {a : α} {as bs : List α}

/-- INTERNAL: the empty path stays where it is. -/
theorem path_nil : Path R r [] t ↔ r = t := by
  constructor
  · rintro ⟨⟩
    rfl
  · rintro rfl
    exact .nil r

/-- A path is split where its labels are. -/
theorem path_append : Path R r (as ++ bs) t ↔ ∃ s, Path R r as s ∧ Path R s bs t := by
  constructor
  · intro h
    induction as generalizing r with
    | nil => exact ⟨r, .nil r, h⟩
    | cons a as ih =>
        cases h with
        | cons ha hrest =>
            obtain ⟨s, has, hbs⟩ := ih hrest
            exact ⟨s, .cons ha has, hbs⟩
  · rintro ⟨s, has, hbs⟩
    induction has with
    | nil => exact hbs
    | cons ha _ ih => exact .cons ha (ih hbs)

/-- INTERNAL: a path of one label is a step. -/
theorem path_singleton : Path R r [a] t ↔ R r a t := by
  constructor
  · rintro (_ | ⟨ha, ⟨⟩⟩)
    exact ha
  · exact fun ha => .cons ha (.nil t)

/-- What is seen of a run. -/
def labels (step : σ → ε → Option σ) (observe : σ → ε → σ → α) (s : σ) : List ε → List α
  | [] => []
  | e :: es => ((step s e).map fun s' => observe s e s' :: labels step observe s' es).getD []

variable {step : σ → ε → Option σ} {observe : σ → ε → σ → α} {abs : σ → τ} {I : σ → Prop}

/-- In states with the invariant, every step is one of the abstract system. -/
structure Simulates (step : σ → ε → Option σ) (observe : σ → ε → σ → α) (R : τ → α → τ → Prop)
    (abs : σ → τ) (I : σ → Prop) : Prop where
  keeps : ∀ s e s', step s e = some s' → I s → I s'
  simulates : ∀ s e s', step s e = some s' → I s → R (abs s) (observe s e s') (abs s')

/-- A run is a path of the abstract system. -/
theorem Simulates.path (h : Simulates step observe R abs I) {s t : σ} {es : List ε} (hs : I s)
    (hexec : exec step s es = some t) : Path R (abs s) (labels step observe s es) (abs t) := by
  induction es generalizing s with
  | nil =>
      rw [exec_nil, Option.some_inj] at hexec
      exact hexec ▸ .nil _
  | cons e es ih =>
      obtain ⟨u, hu, hrest⟩ := exec_cons.mp hexec
      rw [labels, hu]
      exact .cons (h.simulates s e u hu hs) (ih (h.keeps s e u hu hs) hrest)

end CompilationFabric.Library.TransitionSystem
