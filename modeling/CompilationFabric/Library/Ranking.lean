import CompilationFabric.Library.TransitionSystem

/-!
# Ranked transition systems

Some of the events are internal: the system takes them by itself, and nobody has to ask for
them.  A rank is a number that every internal step makes smaller, in the states with an
invariant that the internal steps keep.

Then the internal steps come to an end whichever of them are taken, after at most as many as
the rank says (`length_le_rank`), and they can always be taken until none is left
(`exists_halted`).
-/

set_option autoImplicit false

namespace CompilationFabric.Library.TransitionSystem

variable {σ ε : Type*}

/-- No internal event can happen. -/
def Halted (step : σ → ε → Option σ) (internal : ε → Prop) (s : σ) : Prop :=
  ∀ e, internal e → step s e = none

/-- Every internal step keeps the invariant and makes the rank smaller. -/
structure Ranked (step : σ → ε → Option σ) (internal : ε → Prop) (I : σ → Prop)
    (rank : σ → ℕ) : Prop where
  keeps : ∀ s e s', internal e → step s e = some s' → I s → I s'
  lowers : ∀ s e s', internal e → step s e = some s' → I s → rank s' < rank s

variable {step : σ → ε → Option σ} {internal : ε → Prop} {I : σ → Prop} {rank : σ → ℕ} {s t : σ}
  {es : List ε}

namespace Ranked

/-- What is left of the rank after a run of internal steps. -/
theorem length_add_rank_le (h : Ranked step internal I rank) (hs : I s)
    (hes : ∀ e ∈ es, internal e) (hexec : exec step s es = some t) :
    es.length + rank t ≤ rank s := by
  induction es generalizing s with
  | nil =>
      rw [exec_nil, Option.some_inj] at hexec
      simp [hexec]
  | cons e es ih =>
      obtain ⟨s', he, hrest⟩ := exec_cons.mp hexec
      have hinternal := hes e List.mem_cons_self
      have hlower := h.lowers s e s' hinternal he hs
      have hlater := ih (h.keeps s e s' hinternal he hs)
        (fun f hf => hes f (List.mem_cons_of_mem e hf)) hrest
      rw [List.length_cons]
      omega

/-- A run of internal steps is no longer than the rank of its first state. -/
theorem length_le_rank (h : Ranked step internal I rank) (hs : I s)
    (hes : ∀ e ∈ es, internal e) (hexec : exec step s es = some t) : es.length ≤ rank s :=
  Nat.le_trans (Nat.le_add_right _ _) (h.length_add_rank_le hs hes hexec)

/-- A run of internal steps that cannot be continued. -/
theorem exists_halted (h : Ranked step internal I rank) (hs : I s) :
    ∃ es t, (∀ e ∈ es, internal e) ∧ exec step s es = some t ∧ Halted step internal t := by
  induction hn : rank s using Nat.strongRecOn generalizing s with
  | ind n ih =>
      by_cases hhalted : Halted step internal s
      · exact ⟨[], s, fun _ he => absurd he List.not_mem_nil, exec_nil s, hhalted⟩
      · obtain ⟨e, hinternal, he⟩ : ∃ e, internal e ∧ step s e ≠ none := by
          simpa [Halted] using hhalted
        obtain ⟨s', he⟩ := Option.ne_none_iff_exists'.mp he
        obtain ⟨es, t, hes, hexec, ht⟩ := ih (rank s')
          (hn ▸ h.lowers s e s' hinternal he hs) (h.keeps s e s' hinternal he hs) rfl
        refine ⟨e :: es, t, ?_, exec_cons.mpr ⟨s', he, hexec⟩, ht⟩
        intro f hf
        rcases List.mem_cons.mp hf with rfl | hf
        · exact hinternal
        · exact hes f hf

end Ranked

end CompilationFabric.Library.TransitionSystem
