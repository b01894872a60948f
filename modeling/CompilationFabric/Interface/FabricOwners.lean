import CompilationFabric.Interface.FabricFlight

/-!
# Who owns an in-flight entry

The entry of an owner that is not done is the one the in-flight map holds for its key
(`Listed`).  A call takes the ownership only when the map has no such entry for its key, so there is
never more than one of them a key, whatever the calls do and however they end.
-/

set_option autoImplicit false

namespace CompilationFabric.Interface

open CompilationFabric.Library.TransitionSystem
open CompilationFabric.Model

variable {H : Bytes → Digest} {w w' : World} {e : Event} {es : List Event} {c d o : CallId}
  {call call' owner : Call} {entry : InflightEntry} {k : CompilationKey}

/-- The call owns an entry that is not done. -/
def Unfinished (w : World) (c : CallId) (call : Call) : Prop :=
  w.calls c = some call ∧ ∃ entry, call.entry = some entry ∧ entry.outcome = none

/-- The in-flight map holds every entry that is not done. -/
def Listed (w : World) : Prop :=
  ∀ c call, Unfinished w c call → w.impl.inflight[call.key]? = some c

/-- A fresh process has no entries. -/
theorem listed_init (p : Process) : Listed { process := p } := fun _ _ h => nomatch h.1

/-- An entry that is not done has its owner found. -/
theorem activeOwner_of_unfinished (hl : Listed w) (h : Unfinished w c call) :
    w.activeOwner call.key = some c := by
  have hinflight := hl c call h
  obtain ⟨hcall, entry, hentry, hnone⟩ := h
  unfold World.activeOwner
  simp only [hinflight, hcall, hentry, hnone, bind, Option.bind_some, Option.isNone_none, if_true]

/-- An active owner is one whose entry is not done. -/
theorem unfinished_of_activeOwner (hw : WellFormed w) (h : w.activeOwner k = some o) :
    ∃ owner, Unfinished w o owner ∧ owner.key = k := by
  obtain ⟨hinflight, owner, entry, howner, hentry, hnone⟩ := WellFormed.activeOwner_eq_some h
  obtain ⟨owner', howner', -, hkey⟩ := hw.inflight k o hinflight
  rw [howner, Option.some_inj] at howner'
  exact ⟨owner, ⟨howner, entry, hentry, hnone⟩, howner' ▸ hkey⟩

/-- A key has one owner whose entry is not done. -/
theorem owner_unique (hl : Listed w) {u x : Call} (hu : Unfinished w c u) (hx : Unfinished w d x)
    (hkey : u.key = x.key) : c = d := by
  have hc := hl c u hu
  rw [hkey, hl d x hx, Option.some_inj] at hc
  exact hc.symm

/-- INTERNAL: a join without an active owner makes the call the owner. -/
theorem own_of_join (h : Transition H w (.join c) w') (hcall : w.calls c = some call)
    (hactive : w.activeOwner call.key = none) :
    w' = w.own c call := by
  cases h with
  | wait hcall' hphase' hlock hactive' =>
      rw [hcall, Option.some_inj] at hcall'
      subst hcall'
      rw [hactive] at hactive'
      cases hactive'
  | own hcall' =>
      rw [hcall, Option.some_inj] at hcall'
      subst hcall'
      rfl
  | advance hcall' hadv => cases hadv
  | fail hcall' hlock hentry hfail => cases hfail
  | lease he => obtain ⟨_, he⟩ | ⟨_, he⟩ := he <;> cases he
  | recovering hrec => cases hrec

/-- An entry that is not done after a step was there before, or the call takes the ownership. -/
theorem unfinished_before (h : Transition H w e w') (hu : Unfinished w' c call') :
    (∃ call, Unfinished w c call ∧ call.key = call'.key) ∨
      ∃ call, e = .join c ∧ w.calls c = some call ∧ w.activeOwner call.key = none ∧
        w' = w.own c call := by
  obtain ⟨hcall', entry, hentry, hnone⟩ := hu
  rcases (callsStep_of_transition h).call_cases hcall' with hold | ⟨-, hnew⟩ | ⟨call, hcall, hmoved⟩
  · exact .inl ⟨call', ⟨hold, entry, hentry, hnone⟩, rfl⟩
  · cases hnew <;> cases hentry
  · cases hmoved with
    | own hphase hactive => exact .inr ⟨call, rfl, hcall, hactive, own_of_join h hcall hactive⟩
    | fail hentry' =>
        cases hentry
        cases hnone
    | complete hphase hentry' =>
        cases hentry
        cases hnone
    | _ => exact .inl ⟨call, ⟨hcall, entry, hentry, hnone⟩, rfl⟩

/-- Nobody takes the entry of an owner that is not done out of the map. -/
theorem inflight_of_unfinished (hl : Listed w) (hu : Unfinished w c call)
    (hsame : isRestart e = false) (h : Transition H w e w') :
    w'.impl.inflight[call.key]? = some c := by
  have hinflight := hl c call hu
  rcases inflight_cases hsame h with heq | ⟨d, x, -, -, -, hactive, heq⟩
  · rw [heq, hinflight]
  · rw [heq, Std.ExtTreeMap.getElem?_insert]
    split
    · next hkey =>
      -- the new owner would have found this one
      have hsome := activeOwner_of_unfinished hl hu
      rw [← Std.LawfulEqOrd.compare_eq_iff_eq.mp hkey, hactive] at hsome
      cases hsome
    · exact hinflight

/-- Every step keeps the entries listed that are not done. -/
theorem Listed.step (hl : Listed w) (h : Transition H w e w') : Listed w' := by
  intro c call' hu
  have hsame : isRestart e = false := by
    by_contra hrestart
    rw [Unfinished, (calls_of_restart h (Bool.eq_true_of_not_eq_false hrestart)).1] at hu
    cases hu.1
  rcases unfinished_before h hu with ⟨call, hold, hkey⟩ | ⟨call, -, hcall, -, rfl⟩
  · exact hkey ▸ inflight_of_unfinished hl hold hsame h
  · obtain ⟨hcall', -⟩ := hu
    rw [show (w.own c call).calls c = _ from Function.update_self .., Option.some_inj] at hcall'
    subst hcall'
    exact Std.ExtTreeMap.getElem?_insert_self

/-! ## Owners that execute -/

/-- A call that was left by an exception has no entry. -/
def Unraised (w : World) : Prop :=
  ∀ c call, w.calls c = some call → call.phase = .raised → call.entry = none

/-- A step without an exception leaves no call between its entry and the throw. -/
theorem Unraised.step (hu : Unraised w) (h : Transition H w e w') (hno : ∀ c, e ≠ .raise c) :
    Unraised w' := by
  intro c call' hcall' hphase'
  rcases (callsStep_of_transition h).call_cases hcall' with hold | ⟨-, hnew⟩ | ⟨call, hcall, hmoved⟩
  · exact hu c call' hold hphase'
  · cases hnew <;> rfl
  · cases hmoved with
    | advance hadv =>
        cases hadv with
        | raised => exact absurd rfl (hno c)
        | _ => cases hphase'
    | publish =>
        dsimp only at hphase'
        split at hphase' <;> cases hphase'
    | _ => cases hphase'

/-- The owner of an entry that is not done is executing. -/
theorem running_of_unraised (hw : WellFormed w) (hr : Unraised w) (hu : Unfinished w c call) :
    call.phase.owning = true := by
  obtain ⟨hcall, entry, hentry, hnone⟩ := hu
  have hcoherent := hw.coherent c call hcall
  rw [hentry] at hcoherent
  cases hphase : call.phase with
  | missed => rw [hphase] at hcoherent; cases hcoherent
  | waiting => rw [hphase] at hcoherent; cases hcoherent
  | raised =>
      rw [hr c call hcall hphase] at hentry
      cases hentry
  | returned served r =>
      rw [hphase] at hcoherent
      rw [coherent_returned hcoherent] at hnone
      cases hnone
  | _ => rfl

end CompilationFabric.Interface
