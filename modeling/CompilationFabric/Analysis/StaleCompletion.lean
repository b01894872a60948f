import CompilationFabric.Interface.FabricRuns

/-!
# Stale completions are rejected

An owner captures both generations when it takes ownership and compares them again when it
commits.  Every `invalidateBy*` advances the cache generation in between, so the commit
publishes exactly when none of them has run since, as long as fewer than `2 ^ 64` have.

The run is arbitrary on both sides: any number of other calls, of any keys, recoveries and
supersessions, before the ownership, between it and the commit, and afterwards.
-/

set_option autoImplicit false

namespace CompilationFabric.Analysis

open CompilationFabric.Library.TransitionSystem
open CompilationFabric.Model
open CompilationFabric.Interface

variable {H : Bytes → Digest} {w w' : World} {es : List Event} {c : CallId}

/-- The call owns the in-flight entry of its key. -/
def owns (w : World) (c : CallId) : Bool :=
  match w.calls c with
  | some call => call.phase.owning
  | none => false

/-- The commit step puts the artifact of the call into the cache, under the call's key. -/
def Publishes (w w' : World) (c : CallId) : Prop :=
  ∃ call v, w.calls c = some call ∧ call.phase = .validated v ∧
    w'.impl.cache = w.impl.cache.insert call.key
      { key := call.key
        descriptor := v.art
        bytes := v.build.output.executable
        baseCacheGen := w.impl.cacheGen
        baseToolchainGen := w.impl.toolchainGen
        origin := c }

/-- The owner has been told that it is stale. -/
def ReturnedStale (w : World) (c : CallId) : Prop :=
  ∃ call, w.calls c = some call ∧ call.phase = .returned .owner staleResult

/-- Every waiter of the owner has been told so, or will be told so when it wakes. -/
def WaitersStale (H : Bytes → Digest) (w : World) (c : CallId) : Prop :=
  ∀ d call, w.calls d = some call →
    (∀ r, call.phase = .returned (.waiter c) r → r = staleResult) ∧
    (call.phase = .waiting c → w.impl.lock = none →
      step H w (.wake d) =
        some (w.setCall d { call with phase := .returned (.waiter c) staleResult }))

/-- An owner that takes ownership has the generations of that moment in its entry. -/
theorem entry_of_join (h : Transition H w (.join c) w') (howns : owns w' c = true) :
    ∃ call entry, w'.calls c = some call ∧ call.entry = some entry ∧
      entry.baseCacheGen = w'.impl.cacheGen ∧ entry.baseToolchainGen = w'.impl.toolchainGen := by
  cases h with
  | wait hcall hphase hlock hactive =>
      rw [owns, World.setCall_calls, Function.update_self] at howns
      cases howns
  | own hcall hphase hlock hactive => exact ⟨_, _, Function.update_self .., rfl, rfl, rfl⟩
  | advance hcall hadv => cases hadv
  | fail hcall hlock hentry hfail => cases hfail
  | lease he => rcases he with ⟨id, he⟩ | ⟨id, he⟩ <;> cases he
  | recovering h => cases h

/-- Whoever waits on an entry that is done as stale sees it. -/
theorem waitersStale_of_done (ha : Agreed w) {owner : Call} {entry : InflightEntry}
    (howner : w.calls c = some owner) (hentry : owner.entry = some entry)
    (hdone : entry.outcome = some staleResult) : WaitersStale H w c := by
  intro d call hcall
  constructor
  · intro r hphase
    obtain ⟨owner', entry', howner', hentry', hr⟩ := ha d call c r hcall hphase
    rw [howner, Option.some_inj] at howner'
    subst howner'
    rw [hentry, Option.some_inj] at hentry'
    subst hentry'
    exact Option.some.inj (hr.symm.trans hdone)
  · intro hphase hlock
    change w.wake d = _
    simp only [World.wake, hcall, hphase, howner, hentry, hdone, Option.bind_eq_bind,
      Option.bind_some, if_pos hlock]

/-- Nobody waits on a call of a process that is over. -/
theorem waitersStale_of_gone (hw : WellFormed w) (ha : Agreed w) (hgone : w.calls c = none) :
    WaitersStale H w c := by
  intro d call hcall
  constructor
  · intro r hphase
    obtain ⟨owner, entry, howner, -⟩ := ha d call c r hcall hphase
    rw [hgone] at howner
    cases howner
  · intro hphase
    obtain ⟨owner, howner, -⟩ := hw.waiting d call c hcall hphase
    rw [hgone] at howner
    cases howner

/-- A stale entry stays stale, whatever happens afterwards. -/
theorem waitersStale_exec (hw : WellFormed w) (ha : Agreed w) {owner : Call}
    {entry : InflightEntry} (howner : w.calls c = some owner) (hentry : owner.entry = some entry)
    (hdone : entry.outcome = some staleResult) (h : exec (step H) w es = some w') :
    WaitersStale H w' c := by
  have hw' := wellFormed_exec hw h
  have ha' := agreed_exec hw ha h
  by_cases hgone : w'.calls c = none
  · exact waitersStale_of_gone hw' ha' hgone
  · have hsame := sameProcess_of_call h (hw.lt_nextCall howner) hgone
    obtain ⟨owner', howner', hlater⟩ := later_exec hw hsame h c _ howner
    obtain ⟨entry', hentry', hel⟩ := hlater.entry _ hentry
    exact waitersStale_of_done ha' howner' hentry' (hel.outcome _ hdone)

/-- The entry of a call that is still there has the generations it was created under, and the
counters have moved by the invalidations since. -/
theorem generations_exec (hw : WellFormed w) (h : exec (step H) w es = some w') {call call' : Call}
    {entry entry' : InflightEntry} (hcall : w.calls c = some call) (hentry : call.entry = some entry)
    (hcall' : w'.calls c = some call') (hentry' : call'.entry = some entry')
    (hcache : entry.baseCacheGen = w.impl.cacheGen)
    (htool : entry.baseToolchainGen = w.impl.toolchainGen) :
    w'.impl.cacheGen = entry'.baseCacheGen + UInt64.ofNat (es.countP isInvalidation) ∧
      w'.impl.toolchainGen =
        entry'.baseToolchainGen + UInt64.ofNat (es.countP isToolchainInvalidation) := by
  have hsame := sameProcess_of_call h (hw.lt_nextCall hcall) (by simp [hcall'])
  obtain ⟨call'', hcall'', hlater⟩ := later_exec hw hsame h c call hcall
  rw [hcall', Option.some_inj] at hcall''
  subst hcall''
  obtain ⟨entry'', hentry'', hel⟩ := hlater.entry entry hentry
  rw [hentry', Option.some_inj] at hentry''
  subst hentry''
  rw [hel.cacheGen, hel.toolchainGen, hcache, htool]
  exact ⟨cacheGen_exec hsame h, toolchainGen_exec hsame h⟩

/-- INTERNAL: an invalidation of the toolchain is an invalidation. -/
theorem countP_toolchain_le (es : List Event) :
    es.countP isToolchainInvalidation ≤ es.countP isInvalidation :=
  List.countP_mono_left fun e _ he => by cases e <;> first | rfl | cases he

/-- Fewer than `2 ^ 64` steps of a counter bring it back only when there were none. -/
theorem eq_zero_of_eq_add {g : UInt64} {n : ℕ} (hn : n < 2 ^ 64)
    (h : g = g + UInt64.ofNat n) : n = 0 := by
  have hzero : UInt64.ofNat n = 0 := by simpa using h.symm
  have hnat : (UInt64.ofNat n).toNat = 0 := congrArg UInt64.toNat hzero
  rwa [UInt64.toNat_ofNat', Nat.mod_eq_of_lt hn] at hnat

/-- An owner publishes exactly when no invalidation has run since it took ownership; otherwise
it and all its waiters get `StaleGeneration` and the cache is left alone.
SOURCE: Fabric.cpp:267-274, 397-420, 454-498 -/
theorem commit_publishes_or_stale (H : Bytes → Digest) (p : Process) {before between : List Event}
    {w₁ w₂ w₃ w₄ : World} {c : CallId}
    (hbefore : exec (step H) { process := p } before = some w₁)
    (hjoin : step H w₁ (.join c) = some w₂) (howns : owns w₂ c = true)
    (hbetween : exec (step H) w₂ between = some w₃)
    (hcommit : step H w₃ (.commit c) = some w₄)
    (hbound : between.countP isInvalidation < 2 ^ 64) :
    (between.countP isInvalidation = 0 → Publishes w₃ w₄ c) ∧
    (0 < between.countP isInvalidation →
      w₄.impl.cache = w₃.impl.cache ∧ ReturnedStale w₄ c ∧
      ∀ after w₅, exec (step H) w₄ after = some w₅ → WaitersStale H w₅ c) := by
  have htjoin := transition_of_step hjoin
  have htcommit := transition_of_step hcommit
  have hw₁ : WellFormed w₁ := wellFormed_exec (.init p) hbefore
  have hw₂ : WellFormed w₂ := hw₁.step htjoin
  have hw₃ : WellFormed w₃ := wellFormed_exec hw₂ hbetween
  have ha₁ : Agreed w₁ := agreed_exec (.init p) (agreed_init p) hbefore
  have ha₃ : Agreed w₃ := agreed_exec hw₂ (ha₁.step hw₁ htjoin) hbetween
  obtain ⟨call₂, entry₂, hcall₂, hentry₂, hcache, htool⟩ := entry_of_join htjoin howns
  obtain ⟨call, v, entry, hcall, hphase, hentry, hways⟩ := commit_cases htcommit
  obtain ⟨hgen, htgen⟩ :=
    generations_exec hw₂ hbetween hcall₂ hentry₂ hcall hentry hcache htool
  constructor
  · intro hzero
    have htzero := Nat.le_zero.mp (hzero ▸ countP_toolchain_le between)
    rw [hzero] at hgen
    rw [htzero] at htgen
    rcases hways with ⟨-, -, hpub⟩ | ⟨hstale, -⟩
    · exact ⟨call, v, hcall, hphase, by rw [hpub]; rfl⟩
    · simp [hgen, htgen] at hstale
  · intro hpos
    rcases hways with ⟨hfresh, -, -⟩ | ⟨-, hfin⟩
    · have hnone := eq_zero_of_eq_add hbound (hfresh.trans hgen)
      omega
    · have hself : w₄.calls c = some { call with
          phase := .returned .owner staleResult
          entry := some { entry with outcome := some staleResult } } := by
        rw [hfin]
        exact Function.update_self ..
      refine ⟨by rw [hfin]; rfl, ⟨_, hself, rfl⟩, fun after w₅ hafter => ?_⟩
      exact waitersStale_exec (hw₃.step htcommit) (ha₃.step hw₃ htcommit) hself rfl rfl hafter

/-- An artifact is invalidated by an identity nobody has while a call compiles, and the call
comes back stale. -/
theorem commit_publishes_or_stale_once :
    ∃ w₃ w₄ : World, step (fun _ => .zero) w₃ (.commit 0) = some w₄ ∧
      w₄.impl.cache = w₃.impl.cache ∧ ReturnedStale w₄ 0 := by
  let H : Bytes → Digest := fun _ => .zero
  let p : Process := { config := { persistenceEnabled := false } }
  let before : List Event := [.compile {} 1 0]
  let between := ownerSteps 0 { executable := [1] } ++ [.invalidate (.id {})]
  obtain ⟨w₄, hrun⟩ := Option.isSome_iff_exists.mp (show (exec (step H) { process := p }
    (before ++ ([.join 0] ++ (between ++ [.commit 0])))).isSome = true by decide +kernel)
  obtain ⟨w₁, hbefore, hrun⟩ := exec_append.mp hrun
  obtain ⟨w₂, hjoin, hrun⟩ := exec_append.mp hrun
  obtain ⟨w₃, hbetween, hcommit⟩ := exec_append.mp hrun
  have howns : (exec (step H) { process := p } (before ++ [.join 0])).map (owns · 0) =
      some true := by decide +kernel
  rw [exec_append.mpr ⟨w₁, hbefore, hjoin⟩, Option.map_some, Option.some_inj] at howns
  have hstale := (commit_publishes_or_stale H p hbefore (exec_singleton.mp hjoin) howns hbetween
    (exec_singleton.mp hcommit) (by decide)).2 (by decide)
  exact ⟨w₃, w₄, exec_singleton.mp hcommit, hstale.1, hstale.2.1⟩

end CompilationFabric.Analysis
