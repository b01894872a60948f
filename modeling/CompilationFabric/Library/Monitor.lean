import CompilationFabric.Library.TransitionSystem

/-!
# Monitored transition systems

A monitor watches a system: beside the state of the system it keeps one of its own, which each step
updates from the state before the step and the event.  It may see more of an event than the system
does.

The system does not notice: every run of it can be monitored (`exists_monitored`).
-/

set_option autoImplicit false

namespace CompilationFabric.Library.TransitionSystem

variable {σ ε ι μ : Type*}

/-- The step of a system with its monitor. -/
def monitored (step : σ → ε → Option σ) (event : ι → ε) (watch : μ → σ → ι → μ)
    (s : σ × μ) (i : ι) : Option (σ × μ) :=
  (step s.1 (event i)).map fun t => (t, watch s.2 s.1 i)

variable {step : σ → ε → Option σ} {event : ι → ε} {watch : μ → σ → ι → μ} {s t : σ × μ}
  {is : List ι}

/-- A monitored step is a step, and the monitor watches it. -/
theorem monitored_eq_some {i : ι} :
    monitored step event watch s i = some t ↔
      step s.1 (event i) = some t.1 ∧ watch s.2 s.1 i = t.2 := by
  unfold monitored
  rw [Option.map_eq_some_iff]
  constructor
  · rintro ⟨u, hu, rfl⟩
    exact ⟨hu, rfl⟩
  · rintro ⟨hstep, hwatch⟩
    exact ⟨t.1, hstep, by rw [hwatch]⟩

/-- A run of the system, monitored. -/
theorem exists_monitored {u : σ} (h : exec step s.1 (is.map event) = some u) :
    ∃ m, exec (monitored step event watch) s is = some (u, m) := by
  induction is generalizing s with
  | nil =>
      rw [List.map_nil, exec_nil, Option.some_inj] at h
      exact ⟨s.2, by rw [exec_nil, ← h]⟩
  | cons i is ih =>
      rw [List.map_cons] at h
      obtain ⟨s', hs', hrest⟩ := exec_cons.mp h
      obtain ⟨m, hm⟩ := ih (s := (s', watch s.2 s.1 i)) hrest
      exact ⟨m, exec_cons.mpr ⟨_, monitored_eq_some.mpr ⟨hs', rfl⟩, hm⟩⟩

end CompilationFabric.Library.TransitionSystem
