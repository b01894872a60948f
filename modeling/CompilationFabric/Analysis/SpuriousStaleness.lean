import CompilationFabric.Interface.FabricStaleness

/-!
# Staleness without an invalidation

A call waits for whoever owns the in-flight entry of its key, without a look at the generations
that the entry was made under.  So it may come back with `StaleGeneration` though nothing was
invalidated since it started: exactly when, at its start, the entry of its key is of an owner that
an invalidation has overtaken and that has its commit still before it.
-/

set_option autoImplicit false

namespace CompilationFabric.Analysis

open CompilationFabric.Library.TransitionSystem
open CompilationFabric.Model
open CompilationFabric.Interface

variable {H : Bytes → Digest} {w w₁ w' : World} {e : Event} {es : List Event} {c o : CallId}
  {call owner : Call} {entry : InflightEntry} {r : CompilationRequest} {n : UInt64} {now : Int64}

/-! ## The property -/

/-- The call was refused with `StaleGeneration`, or has returned it. -/
def ReturnsStale (w : World) (c : CallId) : Prop :=
  ∃ failure : Failure, failure.code = .StaleGeneration ∧ (w.refused c = some failure ∨
    ∃ call s, w.calls c = some call ∧ call.phase = .returned s (.error failure))

/-- Whatever steps are taken from here, the call does not return `StaleGeneration` as long as
nothing is invalidated. -/
def NeverStale (H : Bytes → Digest) (w : World) (c : CallId) : Prop :=
  ∀ es w', Meets (step H) Quiet w es → exec (step H) w es = some w' → ¬ ReturnsStale w' c

/-- The call has missed the cache, and an owner of its key is under way to its commit under
generations that are not the present ones.
SOURCE: Fabric.cpp:255-268 -/
def StartsBehind (w : World) (c : CallId) : Prop :=
  ∃ call o, w.calls c = some call ∧ call.phase = .missed ∧ w.activeOwner call.key = some o ∧
    Doomed w o

/-- A compile that starts has a number of its own, and the lock is free for it. -/
theorem start_cases (h : Transition H w (.compile r n now) w₁) :
    w₁.nextCall = w.nextCall + 1 ∧ (w₁.calls = w.calls ∨ w₁.impl.lock = none) := by
  cases h with
  | refuse => exact ⟨rfl, .inl rfl⟩
  | miss hplan hlock => exact ⟨rfl, .inr hlock⟩
  | hit hplan hlock => exact ⟨rfl, .inr hlock⟩
  | advance hcall hadv => cases hadv
  | fail hcall hlock hentry hfail => cases hfail
  | lease he => obtain ⟨id, he⟩ | ⟨id, he⟩ := he <;> cases he
  | recovering hrec => cases hrec

/-! ## No other way -/

/-- The planner refuses a request for its backend alone. -/
theorem code_of_plan {h : Host} {config : CompilationFabricConfig} {failure : Failure}
    (hplan : plan h config n now r = .error failure) : failure.code ≠ .StaleGeneration := by
  unfold plan at hplan
  split at hplan
  · cases hplan
    intro hcode
    cases hcode
  · cases hplan

/-- No call is ever refused as stale. -/
theorem refused_step (h : Transition H w e w')
    (hw : ∀ d failure, w.refused d = some failure → failure.code ≠ .StaleGeneration) :
    ∀ d failure, w'.refused d = some failure → failure.code ≠ .StaleGeneration := by
  intro d failure hfailure
  cases h with
  | refuse hplan =>
      dsimp only at hfailure
      rw [Function.update_apply] at hfailure
      split at hfailure
      · cases hfailure
        exact code_of_plan hplan
      · exact hw d failure hfailure
  | write hcall hphase hwrite => cases hwrite <;> exact hw d failure hfailure
  | restart => cases hfailure
  | _ => exact hw d failure hfailure

/-- A call that has just come in has not got anything from anybody. -/
theorem startsBehind_of_exposed (hw : WellFormed w) (h : Transition H w (.compile r n now) w₁)
    (hx : Exposed w₁ w.nextCall) : StartsBehind w₁ w.nextCall := by
  have hnew : ∀ {call}, w₁.calls w.nextCall = some call → Entered H w (.compile r n now) call := by
    intro call hcall
    obtain hold | ⟨-, hnew⟩ | ⟨call, hold, -⟩ := (callsStep_of_transition h).call_cases hcall
    · exact absurd (hw.lt_nextCall hold) (lt_irrefl _)
    · exact hnew
    · exact absurd (hw.lt_nextCall hold) (lt_irrefl _)
  have hnone : ∀ {call entry}, w₁.calls w.nextCall = some call → call.entry ≠ some entry := by
    intro call entry hcall hentry
    cases hnew hcall <;> cases hentry
  cases hx with
  | missed hcall hphase hactive hd => exact ⟨_, _, hcall, hphase, hactive, hd⟩
  | waiting hcall hphase =>
      cases hnew hcall with
      | miss hplan hmiss => cases hmiss <;> cases hphase
      | hit => cases hphase
  | owner ht =>
      obtain ⟨owner, entry, howner, hentry, -⟩ | ⟨owner, entry, failure, howner, hentry, -⟩ := ht
      · exact absurd hentry (hnone howner)
      · exact absurd hentry (hnone howner)
  | returned hcall hphase =>
      cases hnew hcall with
      | miss hplan hmiss => cases hmiss <;> cases hphase
      | hit => cases hphase

/-- A call that is not exposed stays so while nothing is invalidated. -/
theorem not_exposed_exec (hw : WellFormed w) (hc : c < w.nextCall)
    (hq : Meets (step H) Quiet w es) (hsame : Meets (step H) SameProcess w es)
    (hrun : exec (step H) w es = some w') (hx : ¬ Exposed w c) : ¬ Exposed w' c := by
  have hinv : WellFormed w' ∧ c < w'.nextCall ∧ ¬ Exposed w' c := by
    refine exec_induction (I := fun u => WellFormed u ∧ c < u.nextCall ∧ ¬ Exposed u c) ?_
      (hq.and hsame) hrun ⟨hw, hc, hx⟩
    rintro u e u' ⟨hquiet, hs⟩ hstep ⟨hu, hlt, hno⟩
    have htrans := transition_of_step hstep
    refine ⟨hu.step htrans, ?_, fun hx' => hno (exposed_step hu hquiet hs htrans hlt hx')⟩
    cases callsStep_of_transition htrans with
    | same _ hnext => exact hlt.trans_le hnext
    | entered _ _ hnext =>
        rw [hnext]
        exact Nat.lt_succ_of_lt hlt
    | moved _ _ _ hnext =>
        rw [hnext]
        exact hlt
    | ended _ _ hnext =>
        rw [hnext]
        exact hlt
  exact hinv.2.2

/-! ## The way that is left -/

/-- Undisturbed, the owner gets to its commit, under the same generations. -/
def ReachesCommit (H : Bytes → Digest) (w : World) (o : CallId) (entry : InflightEntry) : Prop :=
  ∃ es w' owner v, Meets (step H) Quiet w es ∧ exec (step H) w es = some w' ∧
    w'.calls = Function.update w.calls o (some owner) ∧ owner.phase = .validated v ∧
    owner.entry = some entry ∧ w'.impl.lock = none ∧ (Outdated w entry → Outdated w' entry)

/-- INTERNAL: an owner reaches its commit after one more quiet step. -/
theorem ReachesCommit.cons {owner₁ : Call} (hstep : step H w e = some w₁) (hq : Quiet w e)
    (hcalls : w₁.calls = Function.update w.calls o (some owner₁))
    (hout : Outdated w entry → Outdated w₁ entry) (h : ReachesCommit H w₁ o entry) :
    ReachesCommit H w o entry := by
  obtain ⟨es, w', owner, v, hquiet, hrun, hcalls', hphase, hentry, hlock, hout'⟩ := h
  refine ⟨e :: es, w', owner, v, ⟨hq, fun u hu => ?_⟩, exec_cons.mpr ⟨w₁, hstep, hrun⟩, ?_, hphase,
    hentry, hlock, fun h => hout' (hout h)⟩
  · obtain rfl := Option.some.inj (hstep.symm.trans hu)
    exact hquiet
  · rw [hcalls', hcalls, Function.update_idem]

section Owner

variable (howner : w.calls o = some owner) (hentry : owner.entry = some entry)
  (hlock : w.impl.lock = none)
include howner hentry hlock

/-- INTERNAL: a validated owner is at its commit. -/
theorem reachesCommit_validated {v : Validated} (hphase : owner.phase = .validated v) :
    ReachesCommit H w o entry :=
  ⟨[], w, owner, v, trivial, exec_nil w, by rw [← howner, Function.update_eq_self], hphase, hentry,
    hlock, id⟩

/-- INTERNAL: a numbered owner reaches its commit. -/
theorem reachesCommit_numbered {b : Build} {id : ArtifactId}
    (hphase : owner.phase = .numbered b id) : ReachesCommit H w o entry := by
  have hstep : step H w (.validate o (.ok { passed := true }) {} 0) = some _ :=
    validate_of_passed howner hphase hentry rfl
  refine .cons hstep (fun _ h => nomatch h) rfl (fun h => h) ?_
  exact reachesCommit_validated (Function.update_self ..) hentry hlock rfl

/-- INTERNAL: an owner that has built reaches its commit. -/
theorem reachesCommit_built {b : Build} (hphase : owner.phase = .built b) :
    ReachesCommit H w o entry := by
  refine .cons (number_of_built howner hphase) trivial rfl (fun h => h) ?_
  exact reachesCommit_numbered (Function.update_self ..) hentry hlock rfl

/-- INTERNAL: a compiling owner reaches its commit. -/
theorem reachesCommit_compiling (hphase : owner.phase = .compiling) :
    ReachesCommit H w o entry := by
  have hexecutable : ({ executable := [1] } : BackendOutput).executable ≠ [] := by simp
  obtain ⟨b, hbuild, -⟩ := backendBuild_uniformRun owner.request hexecutable
  have hstep : step H w (.build o (uniformRun { executable := [1] }) 0) = some _ :=
    build_of_ok howner hphase hbuild
  refine .cons hstep ?_ rfl (fun h => h) ?_
  · intro call f hcall hfails
    obtain rfl := Option.some.inj (howner.symm.trans hcall)
    rw [hbuild] at hfails
    cases hfails
  · exact reachesCommit_built (Function.update_self ..) hentry hlock rfl

/-- INTERNAL: an owner with a known backend reaches its commit. -/
theorem reachesCommit_checking (hphase : owner.phase = .checking)
    (hbackend : (w.process.host.backends w.process.config).contains owner.plan.backend = true) :
    ReachesCommit H w o entry := by
  refine .cons (check_of_backend howner hphase hbackend) (fun _ h => nomatch h) rfl (fun h => h) ?_
  exact reachesCommit_compiling (Function.update_self ..) hentry hlock rfl

/-- An owner that heads for its commit can reach it without an invalidation. -/
theorem reachesCommit_of_headsForCommit (hheads : headsForCommit w owner = true) :
    ReachesCommit H w o entry := by
  unfold headsForCommit at hheads
  split at hheads
  · next hphase => exact reachesCommit_checking howner hentry hlock hphase hheads
  · next hphase => exact reachesCommit_compiling howner hentry hlock hphase
  · next hphase => exact reachesCommit_built howner hentry hlock hphase
  · next hphase => exact reachesCommit_numbered howner hentry hlock hphase
  · next hphase => exact reachesCommit_validated howner hentry hlock hphase
  · cases hheads

end Owner

/-- A call that starts behind an outdated owner waits for it, and is told that it is stale. -/
theorem exists_stale_run (hlock : w.impl.lock = none)
    (hbehind : StartsBehind w c) :
    ∃ es w', Meets (step H) Quiet w es ∧ exec (step H) w es = some w' ∧ ReturnsStale w' c := by
  obtain ⟨call, o, hcall, hphase, hactive, owner, entry, howner, hentry, hout, hheads⟩ := hbehind
  have hne : c ≠ o := by
    rintro rfl
    obtain rfl := Option.some.inj (hcall.symm.trans howner)
    have howning := owning_of_headsForCommit hheads
    rw [hphase] at howning
    cases howning
  have hjoin := join_of_active (H := H) hcall hphase hlock hactive
  have howner₁ : (w.setCall c { call with phase := .waiting o }).calls o = some owner :=
    (Function.update_of_ne hne.symm _ _).trans howner
  obtain ⟨es, u, owner', v, hquiet, hrun, hcalls, hvalidated, hentry', hlock', hout'⟩ :=
    reachesCommit_of_headsForCommit (H := H) howner₁ hentry hlock hheads
  have howner' : u.calls o = some owner' := by rw [hcalls, Function.update_self]
  have hcommit := commit_of_outdated (H := H) howner' hvalidated hentry' hlock' (hout' hout)
  have hwaiter : (finished u o owner' entry staleResult).calls c =
      some { call with phase := .waiting o } := by
    change Function.update u.calls o _ c = _
    rw [Function.update_of_ne hne, hcalls, Function.update_of_ne hne]
    exact Function.update_self ..
  have hwake := wake_of_done (H := H) hwaiter rfl (Function.update_self ..) rfl rfl hlock'
  refine ⟨.join c :: (es ++ [.commit o, .wake c]), _, ⟨trivial, fun w₁ hw₁ => ?_⟩,
    exec_cons.mpr ⟨_, hjoin, exec_append.mpr ⟨u, hrun, exec_cons.mpr ⟨_, hcommit,
      exec_singleton.mpr hwake⟩⟩⟩,
    ⟨.StaleGeneration, World.staleMessage⟩, rfl, .inr ⟨_, _, Function.update_self .., rfl⟩⟩
  obtain rfl := Option.some.inj (hjoin.symm.trans hw₁)
  exact hquiet.append fun _ _ => ⟨trivial, fun _ _ => ⟨trivial, fun _ _ => trivial⟩⟩

/-! ## Every interleaving -/

/-- In every run of a fabric, a call never returns `StaleGeneration` without an invalidation while
it runs, exactly if it does not start behind an outdated owner.
SOURCE: Fabric.cpp:217-274, 397-404 -/
theorem neverStale_iff (H : Bytes → Digest) (p : Process) {es : List Event} {w w₁ : World}
    (hrun : exec (step H) { process := p } es = some w) {r : CompilationRequest} {n : UInt64}
    {now : Int64} (hstart : step H w (.compile r n now) = some w₁) :
    NeverStale H w₁ w.nextCall ↔ ¬ StartsBehind w₁ w.nextCall := by
  have hw := wellFormed_exec (.init p) hrun
  have htrans := transition_of_step hstart
  have hw₁ := hw.step htrans
  have hstarted := start_cases htrans
  constructor
  · rintro hnever hbehind
    have hlock : w₁.impl.lock = none := by
      refine hstarted.2.resolve_left fun hcalls => ?_
      obtain ⟨call, o, hcall, -⟩ := hbehind
      rw [hcalls, hw.fresh _ le_rfl] at hcall
      cases hcall
    obtain ⟨fs, w', hquiet, hexec, hstale⟩ := exists_stale_run hlock hbehind
    exact hnever fs w' hquiet hexec hstale
  · rintro hclear fs w' hquiet hexec ⟨failure, hcode, hrefused | ⟨call, s, hcall, hphase⟩⟩
    · have hall := exec_invariant
        (I := fun u : World => ∀ d failure, u.refused d = some failure →
          failure.code ≠ .StaleGeneration)
        (fun _ _ _ hstep hu => refused_step (transition_of_step hstep) hu)
        (exec_append.mpr ⟨w, hrun, exec_cons.mpr ⟨w₁, hstart, hexec⟩⟩)
        (fun _ _ h => nomatch h)
      exact hall _ _ hrefused hcode
    · have hc : w.nextCall < w₁.nextCall := by
        rw [hstarted.1]
        exact Nat.lt_succ_self _
      have hsame := sameProcess_of_call hexec hc (by rw [hcall]; simp)
      have hx : ¬ Exposed w₁ w.nextCall := fun hx => hclear (startsBehind_of_exposed hw htrans hx)
      exact not_exposed_exec hw₁ hc hquiet hsame hexec hx (.returned hcall hphase hcode)

/-! ## Two calls -/

/-- A check that is enough for not starting behind anybody. -/
def startsLevel (w : World) (c : CallId) : Bool :=
  (w.calls c).all fun call => (w.activeOwner call.key).all fun o => (w.calls o).all fun owner =>
    owner.entry.all fun entry => entry.baseCacheGen = w.impl.cacheGen &&
      entry.baseToolchainGen = w.impl.toolchainGen

/-- INTERNAL: what is checked of a call does not start behind. -/
theorem not_startsBehind_of_check (h : startsLevel w c = true) : ¬ StartsBehind w c := by
  rintro ⟨call, o, hcall, -, hactive, owner, entry, howner, hentry, hout, -⟩
  simp only [startsLevel, hcall, hactive, howner, hentry, Option.all_some, Bool.and_eq_true,
    decide_eq_true_eq] at h
  obtain hcache | htoolchain := hout
  · exact hcache h.1
  · exact htoolchain h.2

/-- The second call starts while the first one compiles. -/
theorem neverStale_iff_level :
    ∃ w w₁, exec (step fun _ => .zero) { process := unstored } [.compile {} 1 0, .join 0] = some w ∧
      step (fun _ => .zero) w (.compile {} 2 0) = some w₁ ∧
      NeverStale (fun _ => .zero) w₁ w.nextCall := by
  obtain ⟨w₁, hrun, hlevel⟩ := (Option.any_eq_true _ _).mp (show
    (exec (step fun _ => .zero) { process := unstored }
      ([.compile {} 1 0, .join 0] ++ [.compile {} 2 0])).any (fun u =>
        startsLevel u (u.nextCall - 1)) = true by decide +kernel)
  obtain ⟨w, hbefore, hstart⟩ := exec_append.mp hrun
  replace hstart := exec_singleton.mp hstart
  have hnumber := (start_cases (transition_of_step hstart)).1
  rw [hnumber, Nat.add_sub_cancel] at hlevel
  exact ⟨w, w₁, hbefore, hstart,
    (neverStale_iff _ unstored hbefore hstart).mpr (not_startsBehind_of_check hlevel)⟩

/-- An artifact that nobody has is invalidated while the first call compiles. -/
def overtaken : List Event := [.compile {} 1 0, .join 0, .invalidate (.id {})]

/-- The second call waits for it, and nothing is invalidated any more. -/
def staleWait : List Event :=
  .join 1 :: (ownerSteps 0 { executable := [1] } ++ [.commit 0, .wake 1])

/-- A check that is enough for `Quiet`. -/
def quiet (w : World) : Event → Bool
  | .check _ (.ok _) | .validate _ (.ok _) _ _ => true
  | .build c run _ => (w.calls c).all fun call => (backendBuild call.request run).isOk
  | .join _ | .number _ | .commit _ | .wake _ => true
  | _ => false

/-- INTERNAL: what is checked of a step is quiet. -/
theorem quiet_of_check (h : quiet w e = true) : Quiet w e := by
  cases e with
  | check c outcome =>
      cases outcome with
      | ok u => exact fun _ hf => nomatch hf
      | error f => cases h
  | build c run ms =>
      intro call f hcall hf
      rw [quiet, hcall, Option.all_some, hf] at h
      cases h
  | validate c outcome times ms =>
      cases outcome with
      | ok vd => exact fun _ hf => nomatch hf
      | error f => cases h
  | join | number | commit | wake => trivial
  | _ => cases h

def toldStale (w : World) : Bool :=
  match returned w 1 with
  | some (_, .error failure) => failure.code = .StaleGeneration
  | _ => false

/-- INTERNAL: what is checked of a state is a stale return. -/
theorem returnsStale_of_check (h : toldStale w = true) : ReturnsStale w 1 := by
  unfold toldStale at h
  split at h
  · next s failure hreturned =>
    exact ⟨failure, of_decide_eq_true h, .inr ((returned_eq_some.mp hreturned).imp
      fun call hcall => ⟨s, hcall⟩)⟩
  · cases h

/-- The second call starts after the invalidation, and returns `StaleGeneration`. -/
theorem not_neverStale :
    ∃ w w₁ w₂, exec (step fun _ => .zero) { process := unstored } overtaken = some w ∧
      step (fun _ => .zero) w (.compile {} 2 0) = some w₁ ∧ w.nextCall = 1 ∧
      Meets (step fun _ => .zero) Quiet w₁ staleWait ∧
      exec (step fun _ => .zero) w₁ staleWait = some w₂ ∧ ReturnsStale w₂ 1 := by
  obtain ⟨w, hbefore, hw⟩ := (Option.any_eq_true _ _).mp (show
    (exec (step fun _ => .zero) { process := unstored } overtaken).any (fun u =>
      u.nextCall = 1 && (step (fun _ => .zero) u (.compile {} 2 0)).any fun u₁ =>
        checks (step fun _ => .zero) quiet u₁ staleWait &&
          (exec (step fun _ => .zero) u₁ staleWait).any toldStale) = true by decide +kernel)
  rw [Bool.and_eq_true, decide_eq_true_eq] at hw
  obtain ⟨w₁, hstart, hw₁⟩ := (Option.any_eq_true _ _).mp hw.2
  rw [Bool.and_eq_true] at hw₁
  obtain ⟨w₂, hrun, hstale⟩ := (Option.any_eq_true _ _).mp hw₁.2
  exact ⟨w, w₁, w₂, hbefore, hstart, hw.1, meets_of_checks (fun _ _ h => quiet_of_check h) hw₁.1,
    hrun, returnsStale_of_check hstale⟩

end CompilationFabric.Analysis
