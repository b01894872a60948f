import Mathlib.Data.List.Induction
import Mathlib.Logic.Function.Iterate

/-!
# Runs of a labelled transition system

A system is a partial step function: `step s e` is `none` when the event `e` cannot happen
in the state `s`.  A run is a list of events, and `exec` is where it leads.

`Meets` says that every event of a run satisfies a condition on the event and the state it
happens in.  The induction rules come in three forms: an invariant of the states
(`exec_induction`), a reflexive and transitive relation between the first and the last
state (`exec_rel`), and a quantity that the events of a kind change (`exec_count`).
-/

set_option autoImplicit false

namespace CompilationFabric.Library.TransitionSystem

variable {σ ε : Type*}

/-- The state a run leads to, if every event of it can happen. -/
def exec (step : σ → ε → Option σ) (s : σ) : List ε → Option σ
  | [] => some s
  | e :: es => (step s e).bind fun s' => exec step s' es

/-- Every event of the run satisfies the condition in the state it happens in. -/
def Meets (step : σ → ε → Option σ) (P : σ → ε → Prop) (s : σ) : List ε → Prop
  | [] => True
  | e :: es => P s e ∧ ∀ s', step s e = some s' → Meets step P s' es

variable {step : σ → ε → Option σ} {P : σ → ε → Prop}

/-- No steps lead nowhere. -/
@[simp] theorem exec_nil (s : σ) : exec step s [] = some s := rfl

/-- A run begins with its first step. -/
theorem exec_cons {s t : σ} {e : ε} {es : List ε} :
    exec step s (e :: es) = some t ↔ ∃ s', step s e = some s' ∧ exec step s' es = some t := by
  rw [exec, Option.bind_eq_some_iff]

/-- A run is split into two runs. -/
theorem exec_append {s t : σ} {es fs : List ε} :
    exec step s (es ++ fs) = some t ↔ ∃ s', exec step s es = some s' ∧ exec step s' fs = some t := by
  induction es generalizing s with
  | nil => simp
  | cons e es ih =>
      rw [List.cons_append, exec_cons]
      constructor
      · rintro ⟨s₁, he, hrest⟩
        obtain ⟨s', hes, hfs⟩ := ih.mp hrest
        exact ⟨s', exec_cons.mpr ⟨s₁, he, hes⟩, hfs⟩
      · rintro ⟨s', hes, hfs⟩
        obtain ⟨s₁, he, hes⟩ := exec_cons.mp hes
        exact ⟨s₁, he, ih.mpr ⟨s', hes, hfs⟩⟩

/-- A run of one step is that step. -/
theorem exec_singleton {s t : σ} {e : ε} : exec step s [e] = some t ↔ step s e = some t := by
  rw [exec_cons]
  simp

/-- A condition on events alone is met by a run of such events. -/
theorem meets_of_forall {s : σ} {es : List ε} (h : ∀ e ∈ es, ∀ s, P s e) :
    Meets step P s es := by
  induction es generalizing s with
  | nil => trivial
  | cons e es ih =>
      exact ⟨h e (by simp) s, fun s' _ => ih fun f hf => h f (by simp [hf])⟩

/-- The same, with the events checked one by one. -/
theorem meets_of_all {p : ε → Bool} (hp : ∀ s e, p e = true → P s e) {s : σ} {es : List ε}
    (h : es.all p = true) : Meets step P s es :=
  meets_of_forall fun e he s => hp s e (List.all_eq_true.mp h e he)

/-- A check of the states that a run goes through. -/
def checks (step : σ → ε → Option σ) (p : σ → ε → Bool) (s : σ) : List ε → Bool
  | [] => true
  | e :: es => p s e && (step s e).all fun s' => checks step p s' es

/-- What is checked along a run holds along it. -/
theorem meets_of_checks {p : σ → ε → Bool} (hp : ∀ s e, p s e = true → P s e) {s : σ}
    {es : List ε} (h : checks step p s es = true) : Meets step P s es := by
  induction es generalizing s with
  | nil => trivial
  | cons e es ih =>
      rw [checks, Bool.and_eq_true] at h
      refine ⟨hp s e h.1, fun s' hs' => ih ?_⟩
      have hrest := h.2
      rwa [hs', Option.all_some] at hrest

/-- A condition may be weakened along a run. -/
theorem Meets.imp {P' : σ → ε → Prop} {s : σ} {es : List ε} (h : Meets step P s es)
    (himp : ∀ s e, P s e → P' s e) : Meets step P' s es := by
  induction es generalizing s with
  | nil => trivial
  | cons e es ih => exact ⟨himp s e h.1, fun s' hs' => ih (h.2 s' hs')⟩

/-- Two conditions may be joined along a run. -/
theorem Meets.and {P' : σ → ε → Prop} {s : σ} {es : List ε} (h : Meets step P s es)
    (h' : Meets step P' s es) : Meets step (fun s e => P s e ∧ P' s e) s es := by
  induction es generalizing s with
  | nil => trivial
  | cons e es ih =>
      exact ⟨⟨h.1, h'.1⟩, fun s' hs' => ih (h.2 s' hs') (h'.2 s' hs')⟩

/-- A condition along a run holds along its first part. -/
theorem Meets.append_left {s : σ} {es fs : List ε} (h : Meets step P s (es ++ fs)) :
    Meets step P s es := by
  induction es generalizing s with
  | nil => trivial
  | cons e es ih => exact ⟨h.1, fun s' hs' => ih (h.2 s' hs')⟩

/-- A condition that holds along both parts holds along the run. -/
theorem Meets.append {s : σ} {es fs : List ε} (h : Meets step P s es)
    (hrest : ∀ t, exec step s es = some t → Meets step P t fs) :
    Meets step P s (es ++ fs) := by
  induction es generalizing s with
  | nil => exact hrest s rfl
  | cons e es ih =>
      refine ⟨h.1, fun s' hs' => ih (h.2 s' hs') fun t ht => hrest t ?_⟩
      exact exec_cons.mpr ⟨s', hs', ht⟩

/-- A condition along a run holds along its second part, from where the first one ends. -/
theorem Meets.append_right {s t : σ} {es fs : List ε} (h : Meets step P s (es ++ fs))
    (hexec : exec step s es = some t) : Meets step P t fs := by
  induction es generalizing s with
  | nil =>
      rw [exec_nil, Option.some_inj] at hexec
      exact hexec ▸ h
  | cons e es ih =>
      obtain ⟨s', he, hes⟩ := exec_cons.mp hexec
      exact ih (h.2 s' he) hes

/-- A run meets a condition when every step that it can get to does. -/
theorem meets_iff_forall {s : σ} {es : List ε} :
    Meets step P s es ↔
      ∀ pre e mid t, es = pre ++ e :: mid → exec step s pre = some t → P t e := by
  constructor
  · rintro h pre e mid t rfl hpre
    exact (h.append_right hpre).1
  · intro h
    induction es generalizing s with
    | nil => trivial
    | cons e es ih =>
        refine ⟨h [] e es s rfl rfl, fun s' hs' => ih fun pre f mid t hes hpre => ?_⟩
        exact h (e :: pre) f mid t (congrArg (e :: ·) hes) (exec_cons.mpr ⟨s', hs', hpre⟩)

/-- Two conditions that agree on the steps within a scope, in every state with an invariant that
the steps that meet them keep, are met by the same runs within the scope. -/
theorem meets_congr_of {S P' : σ → ε → Prop} {I : σ → Prop}
    (hiff : ∀ s e s', S s e → I s → step s e = some s' → (P s e ↔ P' s e))
    (hstep : ∀ s e s', S s e → P s e → step s e = some s' → I s → I s') {s t : σ} {es : List ε}
    (hs : I s) (hscope : Meets step S s es) (hexec : exec step s es = some t) :
    Meets step P s es ↔ Meets step P' s es := by
  induction es generalizing s with
  | nil => exact Iff.rfl
  | cons e es ih =>
      obtain ⟨s', he, hes⟩ := exec_cons.mp hexec
      have hrest : ∀ u, step s e = some u → u = s' := fun u hu => by
        rw [he, Option.some_inj] at hu
        exact hu.symm
      have hnext : P s e → (Meets step P s' es ↔ Meets step P' s' es) := fun hp =>
        ih (hstep s e s' hscope.1 hp he hs) (hscope.2 s' he) hes
      constructor
      · rintro ⟨hp, hps⟩
        refine ⟨(hiff s e s' hscope.1 hs he).mp hp, fun u hu => ?_⟩
        obtain rfl := hrest u hu
        exact (hnext hp).mp (hps u he)
      · rintro ⟨hp', hps⟩
        have hp := (hiff s e s' hscope.1 hs he).mpr hp'
        refine ⟨hp, fun u hu => ?_⟩
        obtain rfl := hrest u hu
        exact (hnext hp).mpr (hps u he)

/-- The same for every step. -/
theorem meets_congr {P' : σ → ε → Prop} {I : σ → Prop}
    (hiff : ∀ s e s', I s → step s e = some s' → (P s e ↔ P' s e))
    (hstep : ∀ s e s', P s e → step s e = some s' → I s → I s') {s t : σ} {es : List ε}
    (hs : I s) (hexec : exec step s es = some t) : Meets step P s es ↔ Meets step P' s es :=
  meets_congr_of (S := fun _ _ => True) (fun s e s' _ => hiff s e s')
    (fun s e s' _ => hstep s e s') hs (meets_of_forall fun _ _ _ => trivial) hexec

/-- An invariant that every allowed step keeps holds at the end of every allowed run. -/
theorem exec_induction {I : σ → Prop}
    (hstep : ∀ s e s', P s e → step s e = some s' → I s → I s') {s t : σ} {es : List ε}
    (hmeets : Meets step P s es) (hexec : exec step s es = some t) (hs : I s) : I t := by
  induction es generalizing s with
  | nil =>
      rw [exec_nil, Option.some_inj] at hexec
      exact hexec ▸ hs
  | cons e es ih =>
      obtain ⟨s', he, hes⟩ := exec_cons.mp hexec
      exact ih (hmeets.2 s' he) hes (hstep s e s' hmeets.1 he hs)

/-- An invariant that every step keeps holds at the end of every run. -/
theorem exec_invariant {I : σ → Prop} (hstep : ∀ s e s', step s e = some s' → I s → I s')
    {s t : σ} {es : List ε} (hexec : exec step s es = some t) (hs : I s) : I t :=
  exec_induction (P := fun _ _ => True) (fun s e s' _ => hstep s e s')
    (meets_of_forall fun _ _ _ => trivial) hexec hs

/-- What an invariant and the condition say of a step holds of every step of an allowed run. -/
theorem Meets.of_invariant {P' : σ → ε → Prop} {I : σ → Prop} {s t : σ} {es : List ε}
    (hmeets : Meets step P s es)
    (hstep : ∀ s e s', P s e → step s e = some s' → I s → I s')
    (himp : ∀ s e s', P s e → step s e = some s' → I s → P' s e) (hs : I s)
    (hexec : exec step s es = some t) : Meets step P' s es := by
  induction es generalizing s with
  | nil => trivial
  | cons e es ih =>
      obtain ⟨s', he, hes⟩ := exec_cons.mp hexec
      refine ⟨himp s e s' hmeets.1 he hs, fun u hu => ?_⟩
      obtain rfl : s' = u := Option.some.inj (he.symm.trans hu)
      exact ih (hmeets.2 s' he) (hstep s e s' hmeets.1 he hs) hes

/-- What an invariant says of a step that a run goes on from to `t` holds of every step of a run
to `t`. -/
theorem meets_of_suffix {I : σ → Prop} {t : σ} (hstep : ∀ s e s', step s e = some s' → I s → I s')
    (himp : ∀ s e s' es, step s e = some s' → I s → exec step s' es = some t → P s e) {s : σ}
    {es : List ε} (hs : I s) (hexec : exec step s es = some t) : Meets step P s es := by
  induction es generalizing s with
  | nil => trivial
  | cons e es ih =>
      obtain ⟨s', he, hes⟩ := exec_cons.mp hexec
      refine ⟨himp s e s' es he hs hes, fun u hu => ?_⟩
      obtain rfl : s' = u := Option.some.inj (he.symm.trans hu)
      exact ih (hstep s e s' he hs) hes

/-- What an allowed step makes of the run so far and the state it has led to. -/
theorem exec_trace {I : List ε → σ → Prop} {s t : σ} {es : List ε} (hnil : I [] s)
    (hstep : ∀ es t e t', exec step s es = some t → I es t → P t e → step t e = some t' →
      I (es ++ [e]) t') (hmeets : Meets step P s es) (hexec : exec step s es = some t) : I es t := by
  induction es using List.reverseRecOn generalizing t with
  | nil =>
      rw [exec_nil, Option.some_inj] at hexec
      exact hexec ▸ hnil
  | append_singleton es e ih =>
      obtain ⟨u, hu, hlast⟩ := exec_append.mp hexec
      exact hstep es u e t hu (ih hmeets.append_left hu) (hmeets.append_right hu).1
        (exec_singleton.mp hlast)

/-- A relation that every allowed step lies in relates the two ends of an allowed run. -/
theorem exec_rel {R : σ → σ → Prop} (hrefl : ∀ s, R s s)
    (htrans : ∀ s t u, R s t → R t u → R s u)
    (hstep : ∀ s e s', P s e → step s e = some s' → R s s') {s t : σ} {es : List ε}
    (hmeets : Meets step P s es) (hexec : exec step s es = some t) : R s t := by
  induction es generalizing s with
  | nil =>
      rw [exec_nil, Option.some_inj] at hexec
      exact hexec ▸ hrefl s
  | cons e es ih =>
      obtain ⟨s', he, hes⟩ := exec_cons.mp hexec
      exact htrans s s' t (hstep s e s' hmeets.1 he) (ih (hmeets.2 s' he) hes)

/-- A quantity that only the events of a kind change, each in the same way, counts them. -/
theorem exec_count {α : Type*} {f : σ → α} {next : α → α} {p : ε → Bool}
    (hstep : ∀ s e s', P s e → step s e = some s' → f s' = if p e then next (f s) else f s)
    {s t : σ} {es : List ε} (hmeets : Meets step P s es) (hexec : exec step s es = some t) :
    f t = next^[es.countP p] (f s) := by
  induction es generalizing s with
  | nil =>
      rw [exec_nil, Option.some_inj] at hexec
      simp [hexec]
  | cons e es ih =>
      obtain ⟨s', he, hes⟩ := exec_cons.mp hexec
      rw [ih (hmeets.2 s' he) hes, hstep s e s' hmeets.1 he]
      by_cases hp : p e
      · rw [if_pos hp, List.countP_cons_of_pos hp, Function.iterate_succ_apply]
      · rw [if_neg hp, List.countP_cons_of_neg hp]

end CompilationFabric.Library.TransitionSystem
