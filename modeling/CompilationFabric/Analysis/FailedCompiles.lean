import CompilationFabric.Interface.FabricOwners

/-!
# Compiles that fail

A compile that returns an error has not touched the cache, the store or the generations in any of
its steps, wherever it gave up and whatever other calls did in between.  If it was the owner of an
in-flight entry, that entry is done with the error, whoever waited for it gets the same error, and
the key is free again.
-/

set_option autoImplicit false

namespace CompilationFabric.Analysis

open CompilationFabric.Library.TransitionSystem
open CompilationFabric.Model
open CompilationFabric.Interface

variable {H : Bytes → Digest} {w w' : World} {e : Event} {es : List Event} {c d : CallId}
  {call : Call} {failure : Failure} {k : CompilationKey}

/-! ## The property -/

/-- The call that a step is one of. -/
def actor (w : World) : Event → Option CallId
  | .compile _ _ _ => some w.nextCall
  | .join c | .wake c | .check c _ | .build c _ _ | .number c | .validate c _ _ _ | .raise c
  | .commit c | .storeStep c _ | .complete c => some c
  | _ => none

/-- The call has returned an error. -/
inductive Failed (w : World) (c : CallId) (failure : Failure) : Prop
  | refused (h : w.refused c = some failure)
  | returned {call : Call} {served : Served} (hcall : w.calls c = some call)
      (hphase : call.phase = .returned served (.error failure))

/-- What the cache, the store and the generations are is the same. -/
structure Untouched (w w' : World) : Prop where
  cache : w'.impl.cache = w.impl.cache
  dir : w'.dir = w.dir
  cacheGen : w'.impl.cacheGen = w.impl.cacheGen
  toolchainGen : w'.impl.toolchainGen = w.impl.toolchainGen

/-- Nobody owns the key, and the next compile of it that the cache does not serve becomes the owner. -/
structure CanTakeOver (H : Bytes → Digest) (w : World) (k : CompilationKey) : Prop where
  free : w.activeOwner k = none
  next : ∀ request n now p, plan w.process.host w.process.config n now request = .ok p →
    World.compileKey w.process request p = k → w.impl.lock = none →
    (∀ e, w.impl.cache[k]? = some e →
      World.fastPath w.process.config.compatibilityPolicy k e = .ok none) →
    ∃ u x, exec (step H) w [.compile request n now, .join w.nextCall] = some u ∧
      Unfinished u w.nextCall x ∧ x.key = k

/-- The step is not one of the call, or it touches nothing; and if the call returns with it as an
owner, its key can be taken over. -/
def StepLeavesNoTrace (H : Bytes → Digest) (c : CallId) (w : World) (e : Event) : Prop :=
  actor w e = some c → ∀ w', step H w e = some w' → Untouched w w' ∧
    ∀ call r, w'.calls c = some call → call.phase = .returned .owner r → CanTakeOver H w' call.key

/-- What is left of the call. -/
structure LeavesNoTrace (H : Bytes → Digest) (w : World) (c : CallId) (failure : Failure) :
    Prop where
  /-- Its entry is done with the error. -/
  entry : ∀ call, w.calls c = some call → call.phase = .returned .owner (.error failure) →
    ∃ entry, call.entry = some entry ∧ entry.outcome = some (.error failure)
  /-- Whoever has waited for it has got the error, -/
  told : ∀ d x r, w.calls d = some x → x.phase = .returned (.waiter c) r → r = .error failure
  /-- and whoever still waits is going to. -/
  wakes : ∀ d x, w.calls d = some x → x.phase = .waiting c → w.impl.lock = none →
    step H w (.wake d) =
      some (w.setCall d { x with phase := .returned (.waiter c) (.error failure) })
  /-- It does not own a key any more. -/
  released : ∀ k, w.activeOwner k ≠ some c

/-! ## What a call touches -/

/-- The call has published its artifact, or returned a cached one. -/
def Succeeding (w : World) (c : CallId) : Prop :=
  ∃ call, w.calls c = some call ∧
    (hasCommitted call.phase = true ∨ ∃ o res, call.phase = .returned (.cache o) (.ok res))

/-- A step of a call touches nothing, or the call is one that succeeds. -/
theorem untouched_or_succeeding (h : Transition H w e w') (hactor : actor w e = some c) :
    Untouched w w' ∨ Succeeding w' c := by
  cases h with
  | refuse => exact .inl ⟨rfl, rfl, rfl, rfl⟩
  | miss => exact .inl ⟨rfl, rfl, rfl, rfl⟩
  | hit =>
      cases hactor
      exact .inr ⟨_, Function.update_self .., .inr ⟨_, _, rfl⟩⟩
  | publish =>
      cases hactor
      refine .inr ⟨_, Function.update_self .., .inl ?_⟩
      dsimp only
      split <;> rfl
  | write hcall hphase hwrite =>
      cases hactor
      cases hwrite <;> exact .inr ⟨_, Function.update_self .., .inl rfl⟩
  | release => exact .inl ⟨rfl, rfl, rfl, rfl⟩
  | advance hcall hadv => exact .inl ⟨rfl, rfl, rfl, rfl⟩
  | fail => exact .inl ⟨rfl, rfl, rfl, rfl⟩
  | complete => exact .inl ⟨rfl, rfl, rfl, rfl⟩
  | wait => exact .inl ⟨rfl, rfl, rfl, rfl⟩
  | own => exact .inl ⟨rfl, rfl, rfl, rfl⟩
  | wake => exact .inl ⟨rfl, rfl, rfl, rfl⟩
  | number => exact .inl ⟨rfl, rfl, rfl, rfl⟩
  | lease he => exact .inl ⟨rfl, rfl, rfl, rfl⟩
  | recovering hrec => exact .inl ⟨rfl, rfl, rfl, rfl⟩
  | _ => cases hactor

/-- A call that succeeds goes on to, until its process ends. -/
theorem succeeding_step (hw : WellFormed w) (h : Transition H w e w') (hs : Succeeding w c) :
    w'.calls c = none ∨ Succeeding w' c := by
  obtain ⟨call, hcall, hphase⟩ := hs
  cases hcall' : w'.calls c with
  | none => exact .inl rfl
  | some call' =>
      refine .inr ⟨call', hcall', ?_⟩
      rcases (callsStep_of_transition h).call_cases hcall' with hold | ⟨rfl, -⟩ | ⟨u, hu, hmoved⟩
      · rw [hcall, Option.some_inj] at hold
        exact hold ▸ hphase
      · rw [hw.fresh _ le_rfl] at hcall
        cases hcall
      · rw [hcall, Option.some_inj] at hu
        subst hu
        rcases hphase with hcommitted | ⟨o, res, hreturned⟩
        · exact .inl (hmoved.staysCommitted hcommitted)
        · exact .inr ⟨o, res, (hmoved.later (hw.coherent c call hcall)).returned _ _ hreturned⟩

/-! ## Refused calls -/

/-- A refused call is an old one, and no other than that. -/
def Apart (w : World) : Prop :=
  ∀ c failure, w.refused c = some failure → c < w.nextCall ∧ w.calls c = none

/-- INTERNAL: a call was refused before, or has just been. -/
theorem refused_before (h : Transition H w e w') (hrefused : w'.refused c = some failure) :
    w.refused c = some failure ∨
      c = w.nextCall ∧ w'.calls = w.calls ∧ w'.nextCall = w.nextCall + 1 := by
  cases h with
  | refuse =>
      by_cases hc : c = w.nextCall
      · exact .inr ⟨hc, rfl, rfl⟩
      · exact .inl ((Function.update_of_ne hc ..).symm.trans hrefused)
  | write hcall hphase hwrite => cases hwrite <;> exact .inl hrefused
  | restart => cases hrefused
  | _ => exact .inl hrefused

/-- Every step keeps refused calls apart from the others. -/
theorem Apart.step (ha : Apart w) (hw : WellFormed w) (h : Transition H w e w') : Apart w' := by
  intro c failure hrefused
  rcases refused_before h hrefused with hold | ⟨rfl, hcalls, hnext⟩
  · obtain ⟨hlt, hnone⟩ := ha c failure hold
    refine ⟨hlt.trans_le (nextCall_mono h), Option.eq_none_iff_forall_ne_some.mpr ?_⟩
    intro call hcall
    rcases (callsStep_of_transition h).call_cases hcall with hcall | ⟨rfl, -⟩ | ⟨u, hcall, -⟩
    · rw [hnone] at hcall
      cases hcall
    · exact absurd hlt (lt_irrefl _)
    · rw [hnone] at hcall
      cases hcall
  · rw [hnext, hcalls]
    exact ⟨Nat.lt_succ_self _, hw.fresh _ le_rfl⟩

/-! ## A call that succeeds does not fail -/

/-- The call has started, has not been refused, and succeeds unless its process has ended. -/
structure Spared (w : World) (c : CallId) : Prop where
  started : c < w.nextCall
  notRefused : w.refused c = none
  succeeding : w.calls c = none ∨ Succeeding w c

/-- Every step leaves a call that did not fail without a trace of failure. -/
theorem Spared.step (hs : Spared w c) (hw : WellFormed w) (h : Transition H w e w') :
    Spared w' c where
  started := hs.started.trans_le (nextCall_mono h)
  notRefused := by
    apply Option.eq_none_iff_forall_ne_some.mpr
    intro failure hrefused
    rcases refused_before h hrefused with hold | ⟨hc, -⟩
    · rw [hs.notRefused] at hold
      cases hold
    · exact hs.started.ne hc
  succeeding := by
    rcases hs.succeeding with hnone | hsucceeding
    · refine .inl (Option.eq_none_iff_forall_ne_some.mpr fun call hcall => ?_)
      rcases (callsStep_of_transition h).call_cases hcall with hcall | ⟨hc, -⟩ | ⟨u, hcall, -⟩
      · rw [hnone] at hcall
        cases hcall
      · exact hs.started.ne hc
      · rw [hnone] at hcall
        cases hcall
    · exact succeeding_step hw h hsucceeding

/-- INTERNAL: a spared call has not failed. -/
theorem Spared.not_failed (hs : Spared w c) : ¬ Failed w c failure := by
  rintro (hrefused | ⟨hcall, hphase⟩)
  · rw [hs.notRefused] at hrefused
    cases hrefused
  · rcases hs.succeeding with hnone | ⟨call, hcall', hok⟩
    · rw [hnone] at hcall
      cases hcall
    · rw [hcall, Option.some_inj] at hcall'
      subst hcall'
      rw [hphase] at hok
      rcases hok with hcommitted | ⟨o, res, hok⟩
      · unfold hasCommitted at hcommitted
        split at hcommitted <;> simp_all
      · cases hok

/-- A call that is spared does not fail in any run. -/
theorem not_failed_exec (hs : Spared w c) (hw : WellFormed w)
    (h : exec (step H) w es = some w') : ¬ Failed w' c failure := by
  have hinv : WellFormed w' ∧ Spared w' c :=
    exec_invariant (I := fun u => WellFormed u ∧ Spared u c) (fun _ _ _ hstep hu =>
      ⟨hu.1.step (transition_of_step hstep), hu.2.step hu.1 (transition_of_step hstep)⟩) h ⟨hw, hs⟩
  exact hinv.2.not_failed

/-! ## Taking over -/

/-- INTERNAL: an owner that moves on is the actor. -/
theorem actor_of_advances {phase : Phase} (h : Advances H w c call e phase) :
    actor w e = some c := by
  cases h <;> rfl

/-- INTERNAL: an owner that gives up is the actor. -/
theorem actor_of_fails (h : Fails w c call e failure) : actor w e = some c := by
  cases h <;> rfl

/-- The call that a step is one of has just started, or moves. -/
theorem moved_of_actor (hw : WellFormed w) (h : Transition H w e w') (hactor : actor w e = some c)
    (hcall' : w'.calls c = some call) :
    Entered H w e call ∨ ∃ u, w.calls c = some u ∧ Moved H w c u e call := by
  have hself : ∀ {d u}, actor w e = some d → w'.calls = Function.update w.calls d (some u) →
      d = c ∧ u = call := by
    intro d u hd hcalls
    rw [hactor, Option.some_inj] at hd
    rw [hcalls, hd, Function.update_self, Option.some_inj] at hcall'
    exact ⟨hd.symm, hcall'⟩
  have hmoves : ∀ {d u u'}, w.calls d = some u → Moved H w d u e u' → actor w e = some d →
      w'.calls = Function.update w.calls d (some u') →
      Entered H w e call ∨ ∃ u, w.calls c = some u ∧ Moved H w c u e call := by
    intro d u u' hu hmoved hd hcalls
    obtain ⟨rfl, rfl⟩ := hself hd hcalls
    exact .inr ⟨u, hu, hmoved⟩
  cases h with
  | refuse =>
      cases hactor
      rw [show w.calls _ = none from hw.fresh _ le_rfl] at hcall'
      cases hcall'
  | miss hplan hlock hmiss =>
      obtain ⟨-, rfl⟩ := hself rfl rfl
      exact .inl (.miss hplan hmiss)
  | hit hplan hlock he hfast =>
      obtain ⟨-, rfl⟩ := hself rfl rfl
      exact .inl (.hit hplan he hfast)
  | wait hcall hphase hlock hactive => exact hmoves hcall (.wait hphase hactive) rfl rfl
  | own hcall hphase hlock hactive => exact hmoves hcall (.own hphase hactive) rfl rfl
  | wake hcall hphase hlock howner hentry hdone =>
      exact hmoves hcall (.wake hphase howner hentry hdone) rfl rfl
  | advance hcall hadv => exact hmoves hcall (.advance hadv) (actor_of_advances hadv) rfl
  | fail hcall hlock hentry hfail => exact hmoves hcall (.fail hentry hfail) (actor_of_fails hfail) rfl
  | number hcall hphase => exact hmoves hcall (.number hphase) rfl rfl
  | publish hcall hphase hentry hlock hcache htoolchain =>
      exact hmoves hcall (.publish hphase hentry hcache htoolchain) rfl rfl
  | write hcall hphase hwrite =>
      cases hwrite with
      | metaTmp => exact hmoves hcall (.write hphase) rfl rfl
      | metaRename => exact hmoves hcall (.write hphase) rfl rfl
      | binTmp => exact hmoves hcall (.write hphase) rfl rfl
      | binRename => exact hmoves hcall (.release hphase) rfl rfl
  | release hcall hphase => exact hmoves hcall (.release hphase) rfl rfl
  | complete hcall hphase hlock hentry => exact hmoves hcall (.complete hphase hentry) rfl rfl
  | lease he => obtain ⟨_, rfl⟩ | ⟨_, rfl⟩ := he <;> cases hactor
  | recovering hrec => cases hrec <;> cases hactor
  | _ => cases hactor

/-- Whoever returns as an owner has completed the entry with what it returns. -/
theorem done_of_moved {call' : Call} {r : Result CompilationResult}
    (h : Moved H w c call e call') (hphase : call'.phase = .returned .owner r) :
    call.phase.owning = true ∧ call'.key = call.key ∧
      ∃ entry, call'.entry = some entry ∧ entry.outcome = some r := by
  cases h with
  | fail hentry hfail =>
      cases hphase
      exact ⟨hfail.owning, rfl, _, rfl, rfl⟩
  | complete hp =>
      cases hphase
      exact ⟨by rw [hp]; rfl, rfl, _, rfl, rfl⟩
  | advance hadv => cases hadv <;> cases hphase
  | publish =>
      dsimp only at hphase
      split at hphase <;> cases hphase
  | _ => cases hphase

/-- The key of an owner that returns is free. -/
theorem free_of_return (hl : Listed w) (hw : WellFormed w) (h : Transition H w e w')
    (hactor : actor w e = some c) (hcall' : w'.calls c = some call)
    {r : Result CompilationResult} (hphase : call.phase = .returned .owner r) :
    w'.activeOwner call.key = none := by
  rcases moved_of_actor hw h hactor hcall' with henter | ⟨u, hu, hmoved⟩
  · cases henter with
    | miss hplan hmiss =>
        obtain _ | _ := hmiss <;> cases hphase
    | hit => cases hphase
  · obtain ⟨howning, hkey, entry, hentry, hdone⟩ := done_of_moved hmoved hphase
    have hunfinished : Unfinished w c u := ⟨hu, coherent_owning (hw.coherent c u hu) howning⟩
    have hsame : isRestart e = false := by
      cases e with
      | restart => cases hactor
      | _ => rfl
    have hinflight := inflight_of_unfinished hl hunfinished hsame h
    exact activeOwner_of_done (hkey ▸ hinflight) hcall' hentry hdone

/-- A key without an active owner can be taken over. -/
theorem canTakeOver_of_free (hfree : w.activeOwner k = none) : CanTakeOver H w k where
  free := hfree
  next request n now p hplan hkey hlock hmiss := by
    subst hkey
    have hcompile := compile_of_miss (H := H) hplan hlock hmiss
    have hjoin := join_of_inactive (H := H) (w := w.enter request p .missed)
      (Function.update_self w.nextCall _ _) rfl hlock (activeOwner_enter hfree)
    exact ⟨_, _, exec_cons.mpr ⟨_, hcompile, exec_singleton.mpr hjoin⟩,
      ⟨Function.update_self .., _, rfl, rfl⟩, rfl⟩

/-! ## Failed compiles leave no trace -/

/-- No step of a call that is going to fail leaves a trace. -/
theorem stepLeavesNoTrace (hw : WellFormed w) (hl : Listed w) (ha : Apart w) {u : World}
    (h : step H w e = some w') (hrest : exec (step H) w' es = some u)
    (hfailed : Failed u c failure) : StepLeavesNoTrace H c w e := by
  intro hactor v hv
  obtain rfl : w' = v := Option.some.inj (h.symm.trans hv)
  have ht := transition_of_step h
  constructor
  · rcases untouched_or_succeeding ht hactor with huntouched | hsucceeding
    · exact huntouched
    · -- then it would not fail in the end
      obtain ⟨call, hcall, -⟩ := id hsucceeding
      have hspared : Spared w' c :=
        { started := (hw.step ht).lt_nextCall hcall
          notRefused := by
            apply Option.eq_none_iff_forall_ne_some.mpr
            intro f hrefused
            rw [(ha.step hw ht c f hrefused).2] at hcall
            cases hcall
          succeeding := .inr hsucceeding }
      exact absurd hfailed (not_failed_exec hspared (hw.step ht) hrest)
  · intro call r hcall hphase
    exact canTakeOver_of_free (free_of_return hl hw ht hactor hcall hphase)

/-- What a call that has failed has left. -/
theorem leavesNoTrace (hw : WellFormed w) (hagreed : Agreed w) (ha : Apart w)
    (hfailed : Failed w c failure) : LeavesNoTrace H w c failure := by
  -- an entry of the call is done with the error
  have hdone : ∀ call entry, w.calls c = some call → call.entry = some entry →
      entry.outcome = some (.error failure) := by
    intro call entry hcall hentry
    rcases hfailed with hrefused | ⟨hcall', hphase⟩
    · rw [(ha c failure hrefused).2] at hcall
      cases hcall
    · rw [hcall, Option.some_inj] at hcall'
      subst hcall'
      have hcoherent := hw.coherent c call hcall
      rw [hphase, hentry] at hcoherent
      exact coherent_returned hcoherent
  refine ⟨?_, ?_, ?_, ?_⟩
  · intro call hcall hphase
    have hcoherent := hw.coherent c call hcall
    rw [hphase] at hcoherent
    exact hcoherent
  · intro d x r hx hphase
    obtain ⟨owner, entry, howner, hentry, hresult⟩ := hagreed d x c r hx hphase
    rw [hdone owner entry howner hentry, Option.some_inj] at hresult
    exact hresult.symm
  · intro d x hx hphase hlock
    obtain ⟨owner, howner, hsome, -⟩ := hw.waiting d x c hx hphase
    obtain ⟨entry, hentry⟩ := Option.isSome_iff_exists.mp hsome
    exact wake_of_done hx hphase howner hentry (hdone owner entry howner hentry) hlock
  · intro k hactive
    obtain ⟨owner, ⟨howner, entry, hentry, hnone⟩, -⟩ := unfinished_of_activeOwner hw hactive
    rw [hdone owner entry howner hentry] at hnone
    cases hnone

/-- A compile that fails leaves no trace, whatever happens while it runs.
SOURCE: Fabric.cpp:252-420 -/
theorem failed_leavesNoTrace (H : Bytes → Digest) (p : Process) (es : List Event) (w : World)
    (c : CallId) (failure : Failure) (h : exec (step H) { process := p } es = some w)
    (hfailed : Failed w c failure) :
    Meets (step H) (StepLeavesNoTrace H c) { process := p } es ∧ LeavesNoTrace H w c failure := by
  have hinit : WellFormed ({ process := p } : World) ∧ Listed ({ process := p } : World) ∧
      Apart ({ process := p } : World) := ⟨.init p, listed_init p, fun _ _ h => nomatch h⟩
  have hstep : ∀ (u : World) e u', step H u e = some u' → WellFormed u ∧ Listed u ∧ Apart u →
      WellFormed u' ∧ Listed u' ∧ Apart u' := by
    rintro u e u' hu ⟨hw, hl, ha⟩
    have ht := transition_of_step hu
    exact ⟨hw.step ht, hl.step ht, ha.step hw ht⟩
  obtain ⟨hw, -, ha⟩ := exec_invariant hstep h hinit
  refine ⟨meets_of_suffix hstep ?_ hinit h, leavesNoTrace hw ?_ ha hfailed⟩
  · rintro u e u' es' hu ⟨hwu, hlu, hau⟩ hrest
    exact stepLeavesNoTrace hwu hlu hau hu hrest hfailed
  · exact agreed_exec (.init p) (agreed_init p) h

/-- A call waits for another, whose backend produces nothing. -/
theorem failed_leavesNoTrace_empty : ∃ w failure,
    exec (step fun _ => .zero) { process := unstored }
      [.compile {} 1 0, .compile {} 2 0, .join 0, .join 1, .check 0 (.ok ()),
        .build 0 { variants := fun _ => { compiled := .ok {} }, winner := .ok {}, plain := .ok {} }
          0, .wake 1] = some w ∧
      Failed w 0 failure ∧ (∃ x, w.calls 1 = some x ∧
        x.phase = .returned (.waiter 0) (.error failure)) ∧
      LeavesNoTrace (fun _ => .zero) w 0 failure := by
  obtain ⟨w, hrun, hw⟩ := (Option.any_eq_true _ _).mp (show
    (exec (step fun _ => .zero) { process := unstored }
      [.compile {} 1 0, .compile {} 2 0, .join 0, .join 1, .check 0 (.ok ()),
        .build 0 { variants := fun _ => { compiled := .ok {} }, winner := .ok {}, plain := .ok {} }
          0, .wake 1]).any (fun w =>
        ((returned w 0).any fun x => decide (x.1 = .owner) && !x.2.isOk) &&
          (returned w 1).any fun x => decide (x.1 = .waiter 0)) = true by decide +kernel)
  simp only [Bool.and_eq_true, Option.any_eq_true, decide_eq_true_eq] at hw
  obtain ⟨⟨⟨served, result⟩, howner, rfl, herror⟩, ⟨served, r⟩, hwaiter, rfl⟩ := hw
  cases result with
  | ok res => cases herror
  | error failure =>
      obtain ⟨call, hcall, hphase⟩ := returned_eq_some.mp howner
      obtain ⟨x, hx, hxphase⟩ := returned_eq_some.mp hwaiter
      have hfailed : Failed w 0 failure := .returned hcall hphase
      have hleaves := (failed_leavesNoTrace _ unstored _ w 0 failure hrun hfailed).2
      obtain rfl := hleaves.told 1 x r hx hxphase
      exact ⟨w, failure, hrun, hfailed, ⟨x, hx, hxphase⟩, hleaves⟩

end CompilationFabric.Analysis
