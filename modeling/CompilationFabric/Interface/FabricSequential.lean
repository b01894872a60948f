import CompilationFabric.Interface.FabricHistory

/-!
# Sequential runs

A run in which an operation only starts when nothing is under way.  One call is busy then at a time
(`OneAtATime`), and what it has put into the cache is there when it returns.  The only call that can
ever wait is one of a key whose owner was left by an exception, and it waits for good.
-/

set_option autoImplicit false

namespace CompilationFabric.Interface

open CompilationFabric.Library.TransitionSystem
open CompilationFabric.Model

variable {H : Bytes → Digest} {w w' : World} {e : Event} {es : List Event} {c d : CallId}
  {call call' : Call} {v : Validated}

/-! ## Operations in turn -/

/-- The call has neither returned nor been left by an exception. -/
def busy : Phase → Bool
  | .returned _ _ | .raised => false
  | _ => true

/-- Nothing is under way. -/
structure Idle (w : World) : Prop where
  calls : ∀ c call, w.calls c = some call → busy call.phase = false
  recoveries : ∀ t, w.recoveries t = none

/-- The events that an operation starts with. -/
def starts : Event → Bool
  | .compile _ _ _ | .invalidate _ | .supersede _ _ | .acquire _ | .release _ | .recover _ => true
  | _ => false

/-- An operation starts when nothing is under way. -/
def Sequential (w : World) (e : Event) : Prop := starts e = true → Idle w

/-- What holds in a sequential run. -/
structure OneAtATime (w : World) : Prop where
  one : ∀ c d u x, w.calls c = some u → w.calls d = some x → busy u.phase = true →
    busy x.phase = true → c = d
  quiet : ∀ c u, w.calls c = some u → busy u.phase = true → ∀ t, w.recoveries t = none
  waits : ∀ c u o, w.calls c = some u → u.phase = .waiting o →
    ∃ owner, w.calls o = some owner ∧ owner.phase = .raised
  cached : ∀ c u v, w.calls c = some u → u.phase.published = some v →
    ∃ entry, w.impl.cache[u.key]? = some entry ∧ entry.key = u.key ∧ entry.descriptor = v.art ∧
      entry.bytes = v.build.output.executable

/-- A fresh process is idle. -/
theorem oneAtATime_init (p : Process) : OneAtATime { process := p } where
  one _ _ _ _ h := nomatch h
  quiet _ _ h := nomatch h
  waits _ _ _ h := nomatch h
  cached _ _ _ h := nomatch h

/-! ## Calls that are over -/

/-- INTERNAL: an owner is busy. -/
theorem busy_of_owning {p : Phase} (h : p.owning = true) : busy p = true := by
  cases p <;> first | rfl | cases h

/-- INTERNAL: a call that has published is busy. -/
theorem busy_of_published {p : Phase} (h : p.published = some v) : busy p = true := by
  cases p <;> first | rfl | cases h

/-- A call that moves was busy. -/
theorem Moved.busy_before (h : Moved H w c call e call') : busy call.phase = true := by
  cases h with
  | wait hphase => rw [hphase]; rfl
  | own hphase => rw [hphase]; rfl
  | wake hphase => rw [hphase]; rfl
  | advance hadv => exact busy_of_owning hadv.owning
  | fail hentry hfail => exact busy_of_owning hfail.owning
  | number hphase => rw [hphase]; rfl
  | publish hphase => rw [hphase]; rfl
  | write hphase => rw [hphase]; rfl
  | release hphase => rw [hphase]; rfl
  | complete hphase => rw [hphase]; rfl

/-- A busy call was busy before, or it has just started. -/
theorem busy_before (h : Transition H w e w') (hseq : Sequential w e)
    (hcall' : w'.calls c = some call') (hbusy : busy call'.phase = true) :
    (∃ call, w.calls c = some call ∧ busy call.phase = true) ∨
      c = w.nextCall ∧ Idle w ∧ ∃ request n now, e = .compile request n now := by
  rcases (callsStep_of_transition h).call_cases hcall' with hold | ⟨hc, hnew⟩ | ⟨u, hu, hmoved⟩
  · exact .inl ⟨call', hold, hbusy⟩
  · cases hnew with
    | miss => exact .inr ⟨hc, hseq rfl, _, _, _, rfl⟩
    | hit => exact .inr ⟨hc, hseq rfl, _, _, _, rfl⟩
  · exact .inl ⟨u, hu, hmoved.busy_before⟩

/-- A call that is over stays as it is. -/
theorem calls_of_over (hw : WellFormed w) (h : Transition H w e w') (hsame : isRestart e = false)
    (hcall : w.calls c = some call) (hover : busy call.phase = false) :
    w'.calls c = some call := by
  cases callsStep_of_transition h with
  | same hcalls => rw [hcalls, hcall]
  | entered hnew hcalls =>
      have hc : c ≠ w.nextCall := (hw.lt_nextCall hcall).ne
      rw [hcalls, Function.update_of_ne hc, hcall]
  | @moved d u u' hu hmoved hcalls =>
      have hc : c ≠ d := by
        rintro rfl
        rw [hcall, Option.some_inj] at hu
        rw [hu, hmoved.busy_before] at hover
        cases hover
      rw [hcalls, Function.update_of_ne hc, hcall]
  | ended hrestart =>
      rw [hsame] at hrestart
      cases hrestart

/-- A recovery that is under way was before, or has just started. -/
theorem recovery_before (h : Transition H w e w') {t : ℕ} {p : RecoverPhase}
    (hp : w'.recoveries t = some p) :
    (∃ s q, w.recoveries s = some q) ∨ ∃ names, e = .recover names := by
  cases h with
  | recover => exact .inr ⟨_, rfl⟩
  | removeTmp hphase => exact .inl ⟨_, _, hphase⟩
  | recovering hrec =>
      cases hrec with
      | listed hphase => exact .inl ⟨_, _, hphase⟩
      | thrown hphase => exact .inl ⟨_, _, hphase⟩
      | noMeta hphase => exact .inl ⟨_, _, hphase⟩
      | foundMeta hphase => exact .inl ⟨_, _, hphase⟩
      | dropped hphase => exact .inl ⟨_, _, hphase⟩
      | kept hphase => exact .inl ⟨_, _, hphase⟩
  | recoverInsert hlock hphase => exact .inl ⟨_, _, hphase⟩
  | write hcall hphase hwrite => cases hwrite <;> exact .inl ⟨t, p, hp⟩
  | restart => cases hp
  | _ => exact .inl ⟨t, p, hp⟩

/-! ## One call at a time -/

namespace OneAtATime

/-- INTERNAL: a sequential step keeps one call busy at most. -/
theorem one_step (ho : OneAtATime w) (h : Transition H w e w') (hseq : Sequential w e) :
    ∀ c d u x, w'.calls c = some u → w'.calls d = some x → busy u.phase = true →
      busy x.phase = true → c = d := by
  intro c d u x hu hx hbu hbx
  rcases busy_before h hseq hu hbu with ⟨u₀, hu₀, hbu₀⟩ | ⟨hc, hidle, -⟩
  · rcases busy_before h hseq hx hbx with ⟨x₀, hx₀, hbx₀⟩ | ⟨-, hidle, -⟩
    · exact ho.one c d u₀ x₀ hu₀ hx₀ hbu₀ hbx₀
    · rw [hidle.calls c u₀ hu₀] at hbu₀
      cases hbu₀
  · rcases busy_before h hseq hx hbx with ⟨x₀, hx₀, hbx₀⟩ | ⟨hd, -⟩
    · rw [hidle.calls d x₀ hx₀] at hbx₀
      cases hbx₀
    · exact hc.trans hd.symm

/-- INTERNAL: a sequential step recovers nothing beside a busy call. -/
theorem quiet_step (ho : OneAtATime w) (h : Transition H w e w') (hseq : Sequential w e) :
    ∀ c u, w'.calls c = some u → busy u.phase = true → ∀ t, w'.recoveries t = none := by
  intro c u hu hbusy t
  apply Option.eq_none_iff_forall_ne_some.mpr
  intro p hp
  rcases recovery_before h hp with ⟨s, q, hq⟩ | ⟨names, rfl⟩
  · have hnone : w.recoveries s = none := by
      rcases busy_before h hseq hu hbusy with ⟨u₀, hu₀, hbusy₀⟩ | ⟨-, hidle, -⟩
      · exact ho.quiet c u₀ hu₀ hbusy₀ s
      · exact hidle.recoveries s
    rw [hnone] at hq
    cases hq
  · rcases busy_before h hseq hu hbusy with ⟨u₀, hu₀, hbusy₀⟩ | ⟨-, -, _, _, _, hevent⟩
    · rw [(hseq rfl).calls c u₀ hu₀] at hbusy₀
      cases hbusy₀
    · cases hevent

/-- INTERNAL: a sequential step lets a call wait for an owner that has thrown only. -/
theorem waits_step (ho : OneAtATime w) (hw : WellFormed w) (h : Transition H w e w') :
    ∀ c u o, w'.calls c = some u → u.phase = .waiting o →
      ∃ owner, w'.calls o = some owner ∧ owner.phase = .raised := by
  intro c u' o hu' hphase'
  have hsame : isRestart e = false := by
    by_contra hrestart
    rw [(calls_of_restart h (Bool.eq_true_of_not_eq_false hrestart)).1] at hu'
    cases hu'
  -- whoever waits, waits for a call that was left by an exception before
  have hbefore : ∃ owner, w.calls o = some owner ∧ owner.phase = .raised := by
    rcases (callsStep_of_transition h).call_cases hu' with hold | ⟨-, hnew⟩ | ⟨u, hu, hmoved⟩
    · exact ho.waits c u' o hold hphase'
    · cases hnew with
      | miss hplan hmiss => cases hmiss <;> cases hphase'
      | hit => cases hphase'
    · cases hmoved with
      | wait hphase hactive =>
          cases hphase'
          obtain ⟨-, owner, entry, howner, hentry, hnone⟩ := WellFormed.activeOwner_eq_some hactive
          have hcoherent := hw.coherent o owner howner
          refine ⟨owner, howner, ?_⟩
          cases hover : busy owner.phase with
          | true =>
              -- the owner would be the call itself, which has no entry yet
              obtain rfl := ho.one c o u owner hu howner (by rw [hphase]; rfl) hover
              rw [hu, Option.some_inj] at howner
              subst howner
              rw [hphase, hentry] at hcoherent
              cases hcoherent
          | false =>
              cases hp : owner.phase with
              | raised => rfl
              | returned s r =>
                  rw [hp, hentry] at hcoherent
                  rw [coherent_returned hcoherent] at hnone
                  cases hnone
              | _ => rw [hp] at hover; cases hover
      | advance hadv => cases hadv <;> cases hphase'
      | publish =>
          dsimp only at hphase'
          split at hphase' <;> cases hphase'
      | _ => cases hphase'
  obtain ⟨owner, howner, hraised⟩ := hbefore
  exact ⟨owner, calls_of_over hw h hsame howner (by rw [hraised]; rfl), hraised⟩

/-- While a call is busy, the cache changes by its own commit alone. -/
theorem cache_of_busy (ho : OneAtATime w) (h : Transition H w e w') (hseq : Sequential w e)
    (hsame : isRestart e = false) (hcall : w.calls c = some call)
    (hbusy : busy call.phase = true) :
    w'.impl.cache = w.impl.cache ∨ ∃ v, call.phase = .validated v ∧ w' = w.publish c call v := by
  have hidle : ¬ Idle w := by
    intro hidle
    rw [hidle.calls c call hcall] at hbusy
    cases hbusy
  cases h with
  | hit => exact absurd (hseq rfl) hidle
  | invalidate => exact absurd (hseq rfl) hidle
  | supersede => exact absurd (hseq rfl) hidle
  | @publish d u v entry hu hphase =>
      obtain rfl := ho.one c d call u hcall hu hbusy (by rw [hphase]; rfl)
      rw [hcall, Option.some_inj] at hu
      subst hu
      exact .inr ⟨v, hphase, rfl⟩
  | recoverInsert hlock hphase =>
      rw [ho.quiet c call hcall hbusy] at hphase
      cases hphase
  | restart => cases hsame
  | write hu hphase hwrite => cases hwrite <;> exact .inl rfl
  | _ => exact .inl rfl

/-- INTERNAL: a sequential step keeps what a call has published under its key. -/
theorem cached_step (ho : OneAtATime w) (h : Transition H w e w') (hseq : Sequential w e) :
    ∀ c u v, w'.calls c = some u → u.phase.published = some v →
      ∃ entry, w'.impl.cache[u.key]? = some entry ∧ entry.key = u.key ∧
        entry.descriptor = v.art ∧ entry.bytes = v.build.output.executable := by
  intro c u' v hu' hpub
  have hsame : isRestart e = false := by
    by_contra hrestart
    rw [(calls_of_restart h (Bool.eq_true_of_not_eq_false hrestart)).1] at hu'
    cases hu'
  rcases publication_cases h hu' hpub with ⟨u, hu, hkey, hold⟩ | ⟨u, -, hkey, -, -, rfl⟩
  · rw [← hkey]
    rcases ho.cache_of_busy h hseq hsame hu (busy_of_published hold) with heq | ⟨v', hphase, -⟩
    · rw [heq]
      exact ho.cached c u v hu hold
    · rw [hphase] at hold
      cases hold
  · rw [← hkey]
    exact ⟨_, Std.ExtTreeMap.getElem?_insert_self, rfl, rfl, rfl⟩

/-- A sequential step keeps the invariant. -/
theorem step (ho : OneAtATime w) (hw : WellFormed w) (h : Transition H w e w')
    (hseq : Sequential w e) : OneAtATime w' where
  one := ho.one_step h hseq
  quiet := ho.quiet_step h hseq
  waits := ho.waits_step hw h
  cached := ho.cached_step h hseq

end OneAtATime

/-- A sequential run keeps the invariant. -/
theorem oneAtATime_exec (p : Process) (hseq : Meets (step H) Sequential { process := p } es)
    (h : exec (step H) { process := p } es = some w) : OneAtATime w := by
  have hinv : WellFormed w ∧ OneAtATime w :=
    exec_induction (I := fun u => WellFormed u ∧ OneAtATime u) (fun _ _ _ hs hstep hu =>
      ⟨hu.1.step (transition_of_step hstep), hu.2.step hu.1 (transition_of_step hstep) hs⟩) hseq h
      ⟨.init p, oneAtATime_init p⟩
  exact hinv.2

end CompilationFabric.Interface
