import CompilationFabric.Library.Refinement
import Mathlib.Logic.Function.Basic

/-!
# Registries

What a cache, a store or a table of results is for, whatever they are made of: under a key there is
the version that was last published there, until it is retired.  A registry is the map from the keys
to the versions that are current, and an `Act` is all that can happen to it.

`current_iff` is the law of a registry: a version is current exactly when some act has brought it
and every act since has kept it.  So it is only by its acts that a registry answers.
-/

set_option autoImplicit false

namespace CompilationFabric.Library.Registry

open CompilationFabric.Library.TransitionSystem

variable {K V O : Type*}

/-- What can happen to a registry; `O` is what is seen of a version that is served. -/
inductive Act (K V O : Type*) where
  | silent
  | publish (k : K) (v : V)
  /-- Versions come back, each in place of what is there. -/
  | restore (versions : K → Option V)
  | retire (selects : K → V → Bool)
  | clear
  | serve (k : K) (seen : O)
  | miss (k : K)

variable [DecidableEq K]

/-- The registry after an act. -/
def Act.apply (r : K → Option V) : Act K V O → K → Option V
  | .publish k v => Function.update r k (some v)
  | .restore versions => fun k => (versions k).or (r k)
  | .retire selects => fun k => (r k).filter fun v => !selects k v
  | .clear => fun _ => none
  | _ => r

/-- Only a version that is current is served, and only where there is none is nothing served. -/
def Act.Allowed (seen : V → O) (r : K → Option V) : Act K V O → Prop
  | .serve k o => ∃ v, r k = some v ∧ seen v = o
  | .miss k => r k = none
  | _ => True

/-- The registry as a system. -/
def Step (seen : V → O) (r : K → Option V) (a : Act K V O) (r' : K → Option V) : Prop :=
  a.Allowed seen r ∧ r' = a.apply r

/-! ## The law -/

/-- The act makes the version current. -/
def Act.Brings (k : K) (v : V) : Act K V O → Prop
  | .publish k' v' => k' = k ∧ v' = v
  | .restore versions => versions k = some v
  | _ => False

/-- The act leaves the version current. -/
def Act.Keeps (k : K) (v : V) : Act K V O → Prop
  | .publish k' _ => k' ≠ k
  | .restore versions => versions k = none
  | .retire selects => selects k v = false
  | .clear => False
  | _ => True

variable {seen : V → O} {r r' : K → Option V} {a : Act K V O} {as : List (Act K V O)} {k : K} {v : V}

/-- After an act a key has what it brings, or what it had before and keeps. -/
theorem apply_eq_some_iff :
    a.apply r k = some v ↔ a.Brings k v ∨ a.Keeps k v ∧ r k = some v := by
  cases a with
  | publish k' v' =>
      by_cases hk : k' = k
      · simp [Act.apply, Act.Brings, Act.Keeps, hk]
      · simp [Act.apply, Act.Brings, Act.Keeps, hk, Function.update_of_ne (Ne.symm hk)]
  | restore versions =>
      cases hv : versions k <;> simp [Act.apply, Act.Brings, Act.Keeps, hv]
  | retire selects =>
      simp only [Act.apply, Act.Brings, Act.Keeps, Option.filter_eq_some_iff, Bool.not_eq_true',
        false_or]
      exact and_comm
  | clear => simp [Act.apply, Act.Brings, Act.Keeps]
  | _ => simp [Act.apply, Act.Brings, Act.Keeps]

/-- The version is the last that came under its key, and it has not been retired. -/
def Current (as : List (Act K V O)) (k : K) (v : V) : Prop :=
  ∃ pre a post, as = pre ++ a :: post ∧ a.Brings k v ∧ ∀ b ∈ post, b.Keeps k v

omit [DecidableEq K] in
/-- Before the first act nothing is current. -/
theorem not_current_nil : ¬ Current ([] : List (Act K V O)) k v := by
  rintro ⟨pre, a, post, h, -⟩
  simp at h

omit [DecidableEq K] in
/-- What is current after one more act. -/
theorem current_append_singleton :
    Current (as ++ [a]) k v ↔ a.Brings k v ∨ a.Keeps k v ∧ Current as k v := by
  constructor
  · rintro ⟨pre, b, post, h, hb, hpost⟩
    rcases List.eq_nil_or_concat post with rfl | ⟨post, c, rfl⟩
    · obtain ⟨-, hab⟩ := List.append_inj' h rfl
      cases hab
      exact .inl hb
    · rw [List.concat_eq_append] at h hpost
      rw [← List.cons_append, ← List.append_assoc] at h
      obtain ⟨rfl, hac⟩ := List.append_inj' h rfl
      cases hac
      refine .inr ⟨hpost a (by simp), pre, b, post, rfl, hb, fun c hc => hpost c (by simp [hc])⟩
  · rintro (ha | ⟨ha, pre, b, post, rfl, hb, hpost⟩)
    · exact ⟨as, a, [], rfl, ha, by simp⟩
    · refine ⟨pre, b, post ++ [a], by simp, hb, ?_⟩
      simp only [List.mem_append, List.mem_singleton]
      rintro c (hc | rfl)
      · exact hpost c hc
      · exact ha

/-- What is current is what the acts say. -/
theorem current_iff (h : Path (Step seen) (fun _ => none) as r) : r k = some v ↔ Current as k v := by
  induction as using List.reverseRecOn generalizing r with
  | nil =>
      rw [path_nil] at h
      rw [← h]
      constructor
      · intro hnone
        cases hnone
      · intro hcurrent
        exact absurd hcurrent not_current_nil
  | append_singleton as a ih =>
      obtain ⟨s, hs, ha⟩ := path_append.mp h
      obtain ⟨-, rfl⟩ := path_singleton.mp ha
      rw [apply_eq_some_iff, ih hs, current_append_singleton]

end CompilationFabric.Library.Registry
