import CompilationFabric.Interface.FabricInvariant

/-!
# What a step does to the calls

A step touches at most one call.  `CallsStep` says which: a new call enters, past its lookup
(`Entered`), or a call that is there moves on (`Moved`).  An invariant about calls is proved
from these two lists, and the lists keep what the step found, so that nothing has to be taken
out of the transition again.

`Later` is what follows for a call that one looks at again: within a process lifetime it
keeps what it was made for, its entry keeps the generations it was created under and never
changes its outcome, and a call that has returned stays as it is.
-/

set_option autoImplicit false

namespace CompilationFabric.Interface

open CompilationFabric.Library.TransitionSystem
open CompilationFabric.Model

variable {H : Bytes → Digest} {w w' w'' : World} {e : Event} {c : CallId} {call call' : Call}

/-! ## The call a step touches -/

/-- A call after its first step. -/
inductive Entered (H : Bytes → Digest) (w : World) : Event → Call → Prop
  | miss {request : CompilationRequest} {n : UInt64} {now : Int64} {p : CompilationPlan}
      {phase : Phase} (hplan : plan w.process.host w.process.config n now request = .ok p)
      (hmiss : Misses w (World.compileKey w.process request p) phase) :
      Entered H w (.compile request n now)
        { request, plan := p, phase, key := World.compileKey w.process request p
          barrier := w.invalidated }
  | hit {request : CompilationRequest} {n : UInt64} {now : Int64} {p : CompilationPlan}
      {e : CacheEntry} {outcome : CompatibilityOutcome}
      (hplan : plan w.process.host w.process.config n now request = .ok p)
      (he : w.impl.cache[World.compileKey w.process request p]? = some e)
      (hfast : World.fastPath w.process.config.compatibilityPolicy
        (World.compileKey w.process request p) e = .ok (some outcome)) :
      Entered H w (.compile request n now)
        { request, plan := p, key := World.compileKey w.process request p
          phase := .returned (.cache e.origin) (.ok (hitResult H request p
            (World.compileKey w.process request p) outcome (e.touch now)))
          barrier := w.invalidated }

/-- A call before and after a step of its own. -/
inductive Moved (H : Bytes → Digest) (w : World) (c : CallId) (u : Call) : Event → Call → Prop
  | wait {o : CallId} (hphase : u.phase = .missed) (hactive : w.activeOwner u.key = some o) :
      Moved H w c u (.join c) { u with phase := .waiting o }
  | own (hphase : u.phase = .missed) (hactive : w.activeOwner u.key = none) :
      Moved H w c u (.join c) { u with
        phase := .checking
        entry := some {
          attempt := TypedId.fromU64 (w.impl.artifactCounter + 1)
          baseCacheGen := w.impl.cacheGen
          baseToolchainGen := w.impl.toolchainGen } }
  | wake {o : CallId} {owner : Call} {entry : InflightEntry} {result : Result CompilationResult}
      (hphase : u.phase = .waiting o) (howner : w.calls o = some owner)
      (hentry : owner.entry = some entry) (hdone : entry.outcome = some result) :
      Moved H w c u (.wake c) { u with phase := .returned (.waiter o) result }
  | advance {phase : Phase} {e : Event} (hadv : Advances H w c u e phase) :
      Moved H w c u e { u with phase := phase }
  | fail {entry : InflightEntry} {failure : Failure} {e : Event} (hentry : u.entry = some entry)
      (hfail : Fails w c u e failure) :
      Moved H w c u e { u with
        phase := .returned .owner (.error failure)
        entry := some { entry with outcome := some (.error failure) } }
  | number {b : Build} (hphase : u.phase = .built b) :
      Moved H w c u (.number c) { u with
        phase := .numbered b (TypedId.fromU64 (w.impl.artifactCounter + 1)) }
  | publish {v : Validated} {entry : InflightEntry} (hphase : u.phase = .validated v)
      (hentry : u.entry = some entry) (hcache : entry.baseCacheGen = w.impl.cacheGen)
      (htoolchain : entry.baseToolchainGen = w.impl.toolchainGen) :
      Moved H w c u (.commit c) { u with
        phase := if w.process.config.persistenceEnabled && w.process.config.persistOnCompile
          then .storing v .metaTmp else .committed v }
  | write {v : Validated} {stage stage' : StoreStage} (hphase : u.phase = .storing v stage) :
      Moved H w c u (.storeStep c true) { u with phase := .storing v stage' }
  | release {v : Validated} {stage : StoreStage} {ok : Bool}
      (hphase : u.phase = .storing v stage) :
      Moved H w c u (.storeStep c ok) { u with phase := .committed v }
  | complete {v : Validated} {entry : InflightEntry} (hphase : u.phase = .committed v)
      (hentry : u.entry = some entry) :
      Moved H w c u (.complete c) { u with
        phase := .returned .owner (.ok (v.result H u entry.attempt))
        entry := some { entry with outcome := some (.ok (v.result H u entry.attempt)) } }

/-- A call keeps its key. -/
theorem Moved.key (h : Moved H w c call e call') : call'.key = call.key := by cases h <;> rfl

/-- A call keeps its request. -/
theorem Moved.request (h : Moved H w c call e call') : call'.request = call.request := by
  cases h <;> rfl

/-- A call keeps its plan. -/
theorem Moved.plan (h : Moved H w c call e call') : call'.plan = call.plan := by cases h <;> rfl

/-- How a step of its own makes a call return. -/
inductive ReturnsBy (H : Bytes → Digest) (w : World) (c : CallId) (u : Call) :
    Event → Served → Result CompilationResult → Prop
  | wake {o : CallId} {owner : Call} {entry : InflightEntry} {result : Result CompilationResult}
      (hphase : u.phase = .waiting o) (howner : w.calls o = some owner)
      (hentry : owner.entry = some entry) (hdone : entry.outcome = some result) :
      ReturnsBy H w c u (.wake c) (.waiter o) result
  | fail {entry : InflightEntry} {failure : Failure} {e : Event} (hentry : u.entry = some entry)
      (hfail : Fails w c u e failure) : ReturnsBy H w c u e .owner (.error failure)
  | complete {v : Validated} {entry : InflightEntry} (hphase : u.phase = .committed v)
      (hentry : u.entry = some entry) :
      ReturnsBy H w c u (.complete c) .owner (.ok (v.result H u entry.attempt))

/-- A call that has returned was woken, has failed or has completed. -/
theorem Moved.returnsBy {u u' : Call} {s : Served} {r : Result CompilationResult}
    (h : Moved H w c u e u') (hphase : u'.phase = .returned s r) : ReturnsBy H w c u e s r := by
  cases h with
  | wake hwaiting howner hentry hdone =>
      cases hphase
      exact .wake hwaiting howner hentry hdone
  | fail hentry hfail =>
      cases hphase
      exact .fail hentry hfail
  | complete hcommitted hentry =>
      cases hphase
      exact .complete hcommitted hentry
  | advance hadv => cases hadv <;> cases hphase
  | publish hvalidated =>
      dsimp only at hphase
      split at hphase <;> cases hphase
  | _ => cases hphase

/-- Whichever file step it is, only the phase of the call changes. -/
theorem Writes.calls {v : Validated} {stage : StoreStage} (h : Writes H w c call v stage w') :
    ∃ p, w'.calls = Function.update w.calls c (some { call with phase := p }) := by
  cases h <;> exact ⟨_, rfl⟩

/-- The events that end a process. -/
def isRestart : Event → Bool
  | .restart _ => true
  | _ => false

/-- What a step does to the calls. -/
inductive CallsStep (H : Bytes → Digest) (w : World) (e : Event) (w' : World) : Prop
  | same (hcalls : w'.calls = w.calls) (hnext : w.nextCall ≤ w'.nextCall)
  | entered {call : Call} (h : Entered H w e call)
      (hcalls : w'.calls = Function.update w.calls w.nextCall (some call))
      (hnext : w'.nextCall = w.nextCall + 1)
  | moved {c : CallId} {u u' : Call} (hcall : w.calls c = some u) (h : Moved H w c u e u')
      (hcalls : w'.calls = Function.update w.calls c (some u')) (hnext : w'.nextCall = w.nextCall)
  | ended (hrestart : isRestart e = true) (hcalls : w'.calls = fun _ => none)
      (hnext : w'.nextCall = w.nextCall)

/-- What a step does to the calls, whatever else it does. -/
theorem callsStep_of_transition (h : Transition H w e w') : CallsStep H w e w' := by
  cases h with
  | refuse => exact .same rfl (Nat.le_succ _)
  | miss hplan hlock hmiss => exact .entered (.miss hplan hmiss) rfl rfl
  | hit hplan hlock he hfast => exact .entered (.hit hplan he hfast) rfl rfl
  | wait hcall hphase hlock hactive => exact .moved hcall (.wait hphase hactive) rfl rfl
  | own hcall hphase hlock hactive => exact .moved hcall (.own hphase hactive) rfl rfl
  | wake hcall hphase hlock howner hentry hdone =>
      exact .moved hcall (.wake hphase howner hentry hdone) rfl rfl
  | advance hcall hadv => exact .moved hcall (.advance hadv) rfl rfl
  | fail hcall hlock hentry hfail => exact .moved hcall (.fail hentry hfail) rfl rfl
  | number hcall hphase => exact .moved hcall (.number hphase) rfl rfl
  | publish hcall hphase hentry hlock hcache htoolchain =>
      exact .moved hcall (.publish hphase hentry hcache htoolchain) rfl rfl
  | write hcall hphase hwrite =>
      cases hwrite with
      | metaTmp => exact .moved hcall (.write hphase) rfl rfl
      | metaRename => exact .moved hcall (.write hphase) rfl rfl
      | binTmp => exact .moved hcall (.write hphase) rfl rfl
      | binRename => exact .moved hcall (.release hphase) rfl rfl
  | release hcall hphase => exact .moved hcall (.release hphase) rfl rfl
  | complete hcall hphase hlock hentry => exact .moved hcall (.complete hphase hentry) rfl rfl
  | invalidate => exact .same rfl le_rfl
  | supersede => exact .same rfl le_rfl
  | lease => exact .same rfl le_rfl
  | recoverOff => exact .same rfl le_rfl
  | recover => exact .same rfl le_rfl
  | removeTmp => exact .same rfl le_rfl
  | recovering => exact .same rfl le_rfl
  | recoverInsert => exact .same rfl le_rfl
  | restart => exact .ended rfl rfl rfl

/-- A call of the state after a step: unchanged, new, or moved. -/
theorem CallsStep.call_cases (h : CallsStep H w e w') (hcall : w'.calls c = some call') :
    w.calls c = some call' ∨ (c = w.nextCall ∧ Entered H w e call') ∨
      ∃ call, w.calls c = some call ∧ Moved H w c call e call' := by
  cases h with
  | same hcalls => exact .inl (hcalls ▸ hcall)
  | entered h hcalls =>
      rw [hcalls] at hcall
      by_cases hc : c = w.nextCall
      · subst hc
        rw [Function.update_self, Option.some_inj] at hcall
        exact .inr (.inl ⟨rfl, hcall ▸ h⟩)
      · rw [Function.update_of_ne hc] at hcall
        exact .inl hcall
  | @moved d u u' hu h hcalls =>
      rw [hcalls] at hcall
      by_cases hc : c = d
      · subst hc
        rw [Function.update_self, Option.some_inj] at hcall
        exact .inr (.inr ⟨u, hu, hcall ▸ h⟩)
      · rw [Function.update_of_ne hc] at hcall
        exact .inl hcall
  | ended hrestart hcalls =>
      rw [hcalls] at hcall
      cases hcall

/-! ## What a call keeps -/

/-- An entry under the same generations, with its outcome if it had one. -/
structure EntryLater (a b : InflightEntry) : Prop where
  attempt : b.attempt = a.attempt
  cacheGen : b.baseCacheGen = a.baseCacheGen
  toolchainGen : b.baseToolchainGen = a.baseToolchainGen
  outcome : ∀ r, a.outcome = some r → b.outcome = some r

/-- The same call at a later time. -/
structure CallLater (a b : Call) : Prop where
  request : b.request = a.request
  plan : b.plan = a.plan
  key : b.key = a.key
  barrier : b.barrier = a.barrier
  entry : ∀ x, a.entry = some x → ∃ y, b.entry = some y ∧ EntryLater x y
  returned : ∀ s r, a.phase = .returned s r → b.phase = .returned s r

/-- Every call is still there, later. -/
def Later (w w' : World) : Prop :=
  ∀ c call, w.calls c = some call → ∃ call', w'.calls c = some call' ∧ CallLater call call'

/-- INTERNAL: an entry is no later than itself. -/
theorem EntryLater.refl (a : InflightEntry) : EntryLater a a := ⟨rfl, rfl, rfl, fun _ h => h⟩

/-- INTERNAL: a call is no later than itself. -/
theorem CallLater.refl (a : Call) : CallLater a a :=
  ⟨rfl, rfl, rfl, rfl, fun x hx => ⟨x, hx, .refl x⟩, fun _ _ h => h⟩

/-- INTERNAL: what comes later than later comes later. -/
theorem CallLater.trans {a b d : Call} (hab : CallLater a b) (hbd : CallLater b d) :
    CallLater a d where
  request := hbd.request.trans hab.request
  plan := hbd.plan.trans hab.plan
  key := hbd.key.trans hab.key
  barrier := hbd.barrier.trans hab.barrier
  entry x hx := by
    obtain ⟨y, hy, hxy⟩ := hab.entry x hx
    obtain ⟨z, hz, hyz⟩ := hbd.entry y hy
    exact ⟨z, hz, hyz.attempt.trans hxy.attempt, hyz.cacheGen.trans hxy.cacheGen,
      hyz.toolchainGen.trans hxy.toolchainGen, fun r hr => hyz.outcome r (hxy.outcome r hr)⟩
  returned s r h := hbd.returned s r (hab.returned s r h)

namespace Later

/-- INTERNAL: no step, nothing later. -/
theorem refl (w : World) : Later w w := fun _ call h => ⟨call, h, .refl call⟩

/-- INTERNAL: one step after the other. -/
theorem trans (h : Later w w') (h' : Later w' w'') : Later w w'' := by
  intro c call hcall
  obtain ⟨call', hcall', hlater⟩ := h c call hcall
  obtain ⟨call'', hcall'', hlater'⟩ := h' c call' hcall'
  exact ⟨call'', hcall'', hlater.trans hlater'⟩

/-- INTERNAL: a step that leaves the calls alone. -/
theorem of_calls_eq (h : w'.calls = w.calls) : Later w w' :=
  fun _ call hcall => ⟨call, h ▸ hcall, .refl call⟩

/-- One call moves on. -/
theorem of_update (hcall : w.calls c = some call) (hlater : CallLater call call')
    (hcalls : w'.calls = Function.update w.calls c (some call')) : Later w w' := by
  intro d u hu
  rw [hcalls]
  by_cases hd : d = c
  · subst hd
    rw [hcall, Option.some_inj] at hu
    exact ⟨call', Function.update_self .., hu ▸ hlater⟩
  · exact ⟨u, by rw [Function.update_of_ne hd, hu], .refl u⟩

/-- A new call starts. -/
theorem of_enter (hw : WellFormed w)
    (hcalls : w'.calls = Function.update w.calls w.nextCall (some call)) : Later w w' := by
  intro d u hu
  have hd : d ≠ w.nextCall := by
    rintro rfl
    rw [hw.fresh _ le_rfl] at hu
    cases hu
  exact ⟨u, by rw [hcalls, Function.update_of_ne hd, hu], .refl u⟩

end Later

/-- A call whose phase changes and which had not returned. -/
theorem CallLater.of_phase {p : Phase} (hphase : ∀ s r, call.phase ≠ .returned s r) :
    CallLater call { call with phase := p } :=
  ⟨rfl, rfl, rfl, rfl, fun x hx => ⟨x, hx, .refl x⟩, fun s r h => absurd h (hphase s r)⟩

/-- An owner whose entry is done with a result. -/
theorem CallLater.of_finished {entry : InflightEntry} {r : Result CompilationResult}
    (hentry : call.entry = some entry) (hnone : entry.outcome = none)
    (hphase : ∀ s r, call.phase ≠ .returned s r) :
    CallLater call { call with
      phase := .returned .owner r
      entry := some { entry with outcome := some r } } where
  request := rfl
  plan := rfl
  key := rfl
  barrier := rfl
  entry x hx := by
    rw [hentry, Option.some_inj] at hx
    subst hx
    exact ⟨_, rfl, rfl, rfl, rfl, fun r' hr => by rw [hnone] at hr; cases hr⟩
  returned s r h := absurd h (hphase s r)

/-- Whoever moves on by itself or gives up is an owner. -/
theorem Advances.owning {p : Phase} (h : Advances H w c call e p) : call.phase.owning = true := by
  cases h with
  | compiling hphase => rw [hphase]; rfl
  | built hphase => rw [hphase]; rfl
  | validated hphase => rw [hphase]; rfl
  | raised hphase => rcases hphase with h | h | ⟨b, id, h⟩ <;> rw [h] <;> rfl

/-- Only an owner gives up. -/
theorem Fails.owning {f : Failure} (h : Fails w c call e f) : call.phase.owning = true := by
  cases h with
  | noBackend hphase => rw [hphase]; rfl
  | incompatible hphase => rw [hphase]; rfl
  | build hphase => rw [hphase]; rfl
  | validation hphase => rw [hphase]; rfl
  | notPassed hphase => rw [hphase]; rfl
  | stale hphase => rw [hphase]; rfl

/-- An owner has not returned. -/
theorem Phase.not_returned_of_owning {p : Phase} (h : p.owning = true) (s : Served)
    (r : Result CompilationResult) : p ≠ .returned s r := by
  rintro rfl
  cases h

/-- A call that moves becomes a later one. -/
theorem Moved.later (h : Moved H w c call e call') (hcoherent : Coherent call.phase call.entry) :
    CallLater call call' := by
  cases h with
  | wait hphase => exact .of_phase fun _ _ h => nomatch hphase.symm.trans h
  | own hphase hactive =>
      rw [hphase] at hcoherent
      exact ⟨rfl, rfl, rfl, rfl, fun x hx => (nomatch hcoherent.symm.trans hx), fun s r h =>
        nomatch hphase.symm.trans h⟩
  | wake hphase => exact .of_phase fun _ _ h => nomatch hphase.symm.trans h
  | advance hadv => exact .of_phase (Phase.not_returned_of_owning hadv.owning)
  | fail hentry hfail =>
      obtain ⟨x, hx, hnone⟩ := coherent_owning hcoherent hfail.owning
      rw [hentry, Option.some_inj] at hx
      exact .of_finished hentry (hx ▸ hnone) (Phase.not_returned_of_owning hfail.owning)
  | number hphase => exact .of_phase fun _ _ h => nomatch hphase.symm.trans h
  | publish hphase => exact .of_phase fun _ _ h => nomatch hphase.symm.trans h
  | write hphase => exact .of_phase fun _ _ h => nomatch hphase.symm.trans h
  | release hphase => exact .of_phase fun _ _ h => nomatch hphase.symm.trans h
  | complete hphase hentry =>
      obtain ⟨x, hx, hnone⟩ := coherent_owning hcoherent (by rw [hphase]; rfl)
      rw [hentry, Option.some_inj] at hx
      exact .of_finished hentry (hx ▸ hnone) fun _ _ h => nomatch hphase.symm.trans h

/-- A step within a lifetime leaves every call there. -/
theorem later_of_transition (hw : WellFormed w) (h : Transition H w e w')
    (hsame : isRestart e = false) : Later w w' := by
  cases callsStep_of_transition h with
  | same hcalls => exact .of_calls_eq hcalls
  | entered h hcalls => exact .of_enter hw hcalls
  | moved hcall h hcalls => exact .of_update hcall (h.later (hw.coherent _ _ hcall)) hcalls
  | ended hrestart => rw [hsame] at hrestart; cases hrestart

end CompilationFabric.Interface
