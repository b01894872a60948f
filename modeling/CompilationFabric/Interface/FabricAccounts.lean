import CompilationFabric.Interface.FabricRuns
import CompilationFabric.Library.Census
import CompilationFabric.Model.FabricMetrics

/-!
# The accounts of a fabric

An account is a counter, or a few of them together, that says how many calls are or have been in
some situation.  `Account.shares` is that situation, so what a fabric has counted can be compared
with the calls it has (`Accounted`).

Failures are one account: the three counters of it tell apart at which point an owner gave up,
which its result does not say.  An owner that gives up because its backend is not registered
is in none of them.
-/

set_option autoImplicit false

namespace CompilationFabric.Interface

open CompilationFabric.Library.TransitionSystem
open CompilationFabric.Library.Census
open CompilationFabric.Model

variable {H : Bytes → Digest} {w w' : World} {m : Metrics} {e : Event} {c : CallId}
  {call call' : Call} {o : Observability} {now : Int64}

/-! ## Reading the counters -/

/-- The value of a counter. -/
def reading (o : Observability) (m : Metric) : Int64 := o.get m.name

/-- Counting adds to the reading of one counter. -/
theorem reading_count {m m' : Metric} {delta : Int64} :
    reading (o.count m.name delta) m' =
      if m' = m then reading o m + delta else reading o m' := by
  unfold reading
  rw [Observability.get_count]
  by_cases h : m' = m
  · rw [if_pos (congrArg Metric.name h), if_pos h]
  · rw [if_neg fun hname => h (Metric.name_injective hname), if_neg h]

/-- Setting sets the reading of one counter. -/
theorem reading_set {m m' : Metric} {value : Int64} :
    reading (o.set m.name value) m' = if m' = m then value else reading o m' := by
  unfold reading
  rw [Observability.get_set]
  by_cases h : m' = m
  · rw [if_pos (congrArg Metric.name h), if_pos h]
  · rw [if_neg fun hname => h (Metric.name_injective hname), if_neg h]

/-- An event leaves the readings alone. -/
@[simp] theorem reading_recordEvent {m : Metric} {type : Bytes} {data : Json} :
    reading (o.recordEvent now type data) m = reading o m := rfl

/-- The counter that a call changes. -/
def ObsCall.metric : ObsCall → Option Metric
  | .count m _ | .set m _ | .next m => some m
  | .recordEvent _ _ => none

/-- A call leaves the other counters alone. -/
theorem reading_apply_of_ne {x : ObsCall} {m : Metric} (h : ObsCall.metric x ≠ some m) :
    reading (o.apply now x) m = reading o m := by
  cases x with
  | count m' delta =>
      rw [Observability.apply, reading_count, if_neg]
      rintro rfl
      exact h rfl
  | set m' value =>
      rw [Observability.apply, reading_set, if_neg]
      rintro rfl
      exact h rfl
  | next m' =>
      rw [Observability.apply, reading_set, if_neg]
      rintro rfl
      exact h rfl
  | recordEvent => rfl

/-! ## Accounts -/

inductive Account where
  /-- Served from the cache, as `cache_hits` and as `reused_builds` say. -/
  | hits | reused
  | misses | waiters | woken | completed | failed | artifacts

/-- The counters of an account. -/
def Account.metrics : Account → List Metric
  | .hits => [.cacheHits]
  | .reused => [.reusedBuilds]
  | .misses => [.cacheMisses]
  | .waiters => [.singleflightWaiters]
  | .woken => [.singleflightWaitCompletions]
  | .completed => [.singleflightCompletions]
  | .failed => [.compileFailures, .validationFailures, .staleAuthorityRejections]
  | .artifacts => [.compiledArtifacts]

/-- What the counters of an account add up to. -/
def balance (o : Observability) (a : Account) : Int64 :=
  a.metrics.foldr (fun m sum => reading o m + sum) 0

/-- The backend of a plan is registered. -/
def backendKnown (p : Process) (plan : CompilationPlan) : Bool :=
  (p.host.backends p.config).contains plan.backend

/-- The calls that an account is of. -/
def Account.shares (p : Process) (a : Account) (call : Call) : Bool :=
  match a, call.phase with
  | .hits, .returned (.cache _) _ | .reused, .returned (.cache _) _ => true
  | .misses, .returned (.cache _) _ => false
  | .misses, .raised => call.entry.isSome
  | .misses, _ => true
  | .waiters, .waiting _ | .waiters, .returned (.waiter _) _ => true
  | .woken, .returned (.waiter _) _ => true
  | .completed, .returned .owner (.ok _) => true
  | .failed, .returned .owner (.error _) => backendKnown p call.plan
  | .artifacts, .storing _ _ | .artifacts, .committed _
  | .artifacts, .returned .owner (.ok _) => true
  | _, _ => false

/-- One for a call of the account. -/
def Account.share (p : Process) (a : Account) (call : Call) : ℕ := (a.shares p call).toNat

/-- The calls of an account, counted. -/
def tally (w : World) (a : Account) : ℕ := total (a.share w.process) w.calls w.nextCall

/-- What has been counted is what there is. -/
def Accounted (w : World) (o : Observability) : Prop :=
  ∀ a, balance o a = Int64.ofNat (tally w a)

/-! ## What the calls of a step add -/

/-- What a call adds to an account. -/
def gain (a : Account) : ObsCall → ℕ
  | .count m _ => (decide (m ∈ a.metrics)).toNat
  | _ => 0

def gains (a : Account) (xs : List ObsCall) : ℕ := (xs.map (gain a)).sum

/-- Counters of an account go up by one. -/
def Regular (a : Account) : ObsCall → Prop
  | .count m delta => m ∈ a.metrics → delta = 1
  | .set m _ | .next m => m ∉ a.metrics
  | .recordEvent _ _ => True

/-- INTERNAL: no calls, no gain. -/
@[simp] theorem gains_nil (a : Account) : gains a [] = 0 := rfl

/-- INTERNAL: gains add up. -/
@[simp] theorem gains_append (a : Account) (xs ys : List ObsCall) :
    gains a (xs ++ ys) = gains a xs + gains a ys := by
  simp [gains]

/-- INTERNAL: counting once gains one for an account that has the counter. -/
@[simp] theorem gains_counts (a : Account) (m : Metric) :
    gains a (counts m) = (decide (m ∈ a.metrics)).toNat := by
  simp [gains, counts, gain]

/-- INTERNAL: a call for another counter leaves the balance alone. -/
theorem balance_apply_of_not_mem {a : Account} {x : ObsCall}
    (h : ∀ m ∈ a.metrics, ObsCall.metric x ≠ some m) :
    balance (o.apply now x) a = balance o a := by
  unfold balance
  refine List.foldr_ext _ _ _ fun m hm sum => ?_
  rw [reading_apply_of_ne (h m hm)]

/-- A counter of an account, counted. -/
theorem balance_count {a : Account} {m : Metric} (hm : m ∈ a.metrics) :
    balance (o.count m.name 1) a = balance o a + 1 := by
  have hthree : ∀ x y z : Int64, x + 1 + (y + (z + 0)) = x + (y + (z + 0)) + 1 ∧
      x + (y + 1 + (z + 0)) = x + (y + (z + 0)) + 1 ∧
      x + (y + (z + 1 + 0)) = x + (y + (z + 0)) + 1 := by
    intro x y z
    refine ⟨?_, ?_, ?_⟩ <;> simp only [Int64.add_zero] <;> grind
  cases a with
  | failed =>
      simp only [Account.metrics, List.mem_cons, List.not_mem_nil, or_false] at hm
      rcases hm with rfl | rfl | rfl <;>
        simp only [balance, Account.metrics, List.foldr, reading_count, reduceCtorEq, if_true,
          if_false, hthree]
  | _ =>
      simp only [Account.metrics, List.mem_cons, List.not_mem_nil, or_false] at hm
      subst hm
      simp only [balance, Account.metrics, List.foldr, reading_count, if_true, Int64.add_zero]

/-- A regular call moves the balance by what it gains. -/
theorem balance_apply {a : Account} {x : ObsCall} (h : Regular a x) :
    balance (o.apply now x) a = balance o a + Int64.ofNat (gain a x) := by
  cases x with
  | count m delta =>
      by_cases hm : m ∈ a.metrics
      · obtain rfl := h hm
        rw [Observability.apply, balance_count hm, gain, decide_eq_true hm]
        rfl
      · rw [balance_apply_of_not_mem, gain, decide_eq_false hm]
        · exact (Int64.add_zero _).symm
        · rintro m' hm' ⟨⟩
          exact hm hm'
  | set m value =>
      rw [balance_apply_of_not_mem]
      · exact (Int64.add_zero _).symm
      · rintro m' hm' ⟨⟩
        exact h hm'
  | next m =>
      rw [balance_apply_of_not_mem]
      · exact (Int64.add_zero _).symm
      · rintro m' hm' ⟨⟩
        exact h hm'
  | recordEvent => exact (Int64.add_zero _).symm

/-- Regular calls move the balance by what they gain, by induction on them. -/
theorem balance_applyAll {a : Account} {xs : List ObsCall} (h : ∀ x ∈ xs, Regular a x) :
    balance (o.applyAll now xs) a = balance o a + Int64.ofNat (gains a xs) := by
  induction xs generalizing o with
  | nil => exact (Int64.add_zero _).symm
  | cons x xs ih =>
      change balance ((o.apply now x).applyAll now xs) a = _
      rw [ih fun y hy => h y (List.mem_cons_of_mem x hy), balance_apply (h x List.mem_cons_self),
        show gains a (x :: xs) = gain a x + gains a xs by simp [gains], Int64.ofNat_add,
        Int64.add_assoc]

/-! ## The calls that a step makes -/

/-- The calls that a step can make: it counts one, `recover` counts what it has found, and what is
set is the cache generation, to what it is after the step. -/
inductive Makes (w : World) (e : Event) : ObsCall → Prop
  | one {m : Metric} (h : m ≠ .cacheGeneration ∧ m ≠ .toolchainGeneration ∧ m ≠ .coordinatorEpoch) :
      Makes w e (.count m 1)
  | corrupted (delta : Int64) : Makes w e (.count .corruptionDetected delta)
  | orphans (delta : Int64) : Makes w e (.count .orphanTempsRemoved delta)
  | recovery : Makes w e (.next .recoveryCount)
  | generation (h : isInvalidation e = false) :
      Makes w e (.set .cacheGeneration w.impl.cacheGen.toInt64)
  | advanced (h : isInvalidation e = true) :
      Makes w e (.set .cacheGeneration (w.impl.cacheGen + 1).toInt64)
  | event (type : Bytes) (data : Json) : Makes w e (.recordEvent type data)

/-- INTERNAL: no calls are made. -/
theorem makes_nil : ∀ x ∈ ([] : List ObsCall), Makes w e x :=
  fun _ hx => absurd hx List.not_mem_nil

/-- INTERNAL: calls are made one by one. -/
theorem makes_cons {x : ObsCall} {xs : List ObsCall} (hx : Makes w e x)
    (hxs : ∀ y ∈ xs, Makes w e y) : ∀ y ∈ x :: xs, Makes w e y := by
  intro y hy
  rcases List.mem_cons.mp hy with rfl | hy
  · exact hx
  · exact hxs y hy

/-- INTERNAL: calls are made one group after the other. -/
theorem makes_append {xs ys : List ObsCall} (hxs : ∀ x ∈ xs, Makes w e x)
    (hys : ∀ x ∈ ys, Makes w e x) : ∀ x ∈ xs ++ ys, Makes w e x := by
  intro x hx
  rcases List.mem_append.mp hx with hx | hx
  · exact hxs x hx
  · exact hys x hx

/-- INTERNAL: counting once is one of the calls that a step makes. -/
theorem makes_counts {m : Metric}
    (h : m ≠ .cacheGeneration ∧ m ≠ .toolchainGeneration ∧ m ≠ .coordinatorEpoch := by simp) :
    ∀ x ∈ counts m, Makes w e x :=
  makes_cons (.one h) makes_nil

/-- The calls that `compile` makes when it starts.
SOURCE: Fabric.cpp:217-250 -/
theorem makes_compileObs {request : CompilationRequest} {n : UInt64} {now : Int64} :
    ∀ x ∈ w.compileObs request n now, Makes w e x := by
  unfold World.compileObs
  split
  · exact makes_nil
  · dsimp only
    split
    · exact makes_counts
    · split
      · exact makes_nil
      · exact makes_counts
      · exact makes_append makes_counts makes_counts

/-- The calls that a build makes. -/
theorem makes_buildObs {run : BackendRun} : ∀ x ∈ World.buildObs call run, Makes w e x := by
  unfold World.buildObs
  dsimp only
  split
  · exact makes_nil
  · apply makes_append makes_counts
    split
    · exact makes_nil
    · split
      · exact makes_cons (.event _ _) makes_nil
      · exact makes_nil

/-- The calls that a commit makes. -/
theorem makes_commitObs (he : isInvalidation e = false) :
    ∀ x ∈ w.commitObs call, Makes w e x := by
  unfold World.commitObs
  split
  · split
    · exact makes_counts
    · exact makes_append makes_counts
        (makes_cons (.generation he) (makes_cons (.event _ _) makes_nil))
  · exact makes_nil

/-- The calls that a store makes. -/
theorem makes_storeObs {ok : Bool} : ∀ x ∈ w.storeObs H call ok, Makes w e x := by
  unfold World.storeObs
  split
  · dsimp only
    split
    · exact makes_counts
    · split
      · split
        · exact makes_nil
        · exact makes_counts
      · split
        · exact makes_nil
        · exact makes_counts
      · exact makes_nil
  · exact makes_nil

/-- The calls that a recovery makes. -/
theorem makes_recoverObs {report : RecoveryReport} {valid : List Loaded} :
    ∀ x ∈ World.recoverObs report valid, Makes w e x := by
  unfold World.recoverObs
  apply makes_append
  · intro x hx
    obtain ⟨l, -, hx⟩ := List.mem_flatMap.mp hx
    exact makes_counts (by simp) x hx
  · exact makes_cons (.corrupted _) (makes_cons (.orphans _)
      (makes_cons .recovery (makes_cons (.event _ _) makes_nil)))

/-- A step makes no other calls. -/
theorem makes_obsCalls (reports : ℕ → RecoveryReport) (e : Event) :
    ∀ x ∈ w.obsCalls H reports e, Makes w e x := by
  have hcall : ∀ (c : CallId) (f : Call → List ObsCall), (∀ call, ∀ x ∈ f call, Makes w e x) →
      ∀ x ∈ ((w.calls c).map f).getD [], Makes w e x := by
    intro c f hf
    cases w.calls c with
    | none => exact makes_nil
    | some call => exact hf call
  cases e with
  | compile => exact makes_compileObs
  | join c =>
      refine hcall c _ fun call => ?_
      unfold World.joinObs
      split
      · exact makes_counts
      · exact makes_nil
  | wake c => exact makes_counts
  | check c outcome =>
      refine hcall c _ fun call => ?_
      unfold World.checkObs
      split
      · exact makes_nil
      · split
        · exact makes_counts
        · exact makes_nil
  | build c => exact hcall c _ fun call => makes_buildObs
  | validate c outcome times ms =>
      change ∀ x ∈ World.validateObs outcome, _
      unfold World.validateObs
      split
      · exact makes_counts
      · split
        · exact makes_nil
        · exact makes_counts
  | commit c => exact hcall c _ fun call => makes_commitObs rfl
  | storeStep c => exact hcall c _ fun call => makes_storeObs
  | complete c => exact makes_counts
  | invalidate authority =>
      change ∀ x ∈ w.invalidateObs H authority, _
      unfold World.invalidateObs
      apply makes_append (makes_append (makes_cons (.advanced rfl) makes_nil) makes_counts)
      split
      · exact makes_cons (.event _ _) makes_nil
      · exact makes_nil
  | supersede id gen => exact makes_counts
  | acquire id =>
      change ∀ x ∈ w.acquireObs id, _
      unfold World.acquireObs
      split
      · exact makes_counts
      · exact makes_nil
  | release id =>
      change ∀ x ∈ w.releaseObs id, _
      unfold World.releaseObs
      split
      · exact makes_nil
      · exact makes_counts
  | recoverInsert t =>
      unfold World.obsCalls
      dsimp only
      split
      · exact makes_recoverObs
      · exact makes_nil
  | _ => exact makes_nil

/-- None of them is a second one of an account. -/
theorem Makes.regular {x : ObsCall} (h : Makes w e x) (a : Account) : Regular a x := by
  cases h with
  | one => exact fun _ => rfl
  | corrupted => cases a <;> simp [Regular, Account.metrics]
  | orphans => cases a <;> simp [Regular, Account.metrics]
  | recovery => cases a <;> simp [Regular, Account.metrics]
  | generation => cases a <;> simp [Regular, Account.metrics]
  | advanced => cases a <;> simp [Regular, Account.metrics]
  | event => trivial

/-- What the calls of a step add to an account. -/
theorem balance_obsCalls (reports : ℕ → RecoveryReport) (e : Event) (a : Account) :
    balance (o.applyAll now (w.obsCalls H reports e)) a =
      balance o a + Int64.ofNat (gains a (w.obsCalls H reports e)) :=
  balance_applyAll fun x hx => (makes_obsCalls reports e x hx).regular a

/-! ## Generations -/

/-- A counter that shows a value goes on to show it while nothing else is set. -/
theorem reading_of_settled {xs : List ObsCall} {m : Metric} {value : Int64}
    (h : reading o m = value)
    (hxs : ∀ x ∈ xs, ObsCall.metric x = some m → x = .set m value) :
    reading (o.applyAll now xs) m = value := by
  induction xs generalizing o with
  | nil => exact h
  | cons x xs ih =>
      refine ih ?_ fun y hy => hxs y (List.mem_cons_of_mem x hy)
      by_cases hx : ObsCall.metric x = some m
      · rw [hxs x List.mem_cons_self hx, Observability.apply, reading_set, if_pos rfl]
      · rw [reading_apply_of_ne hx, h]

/-- The generations as the counters show them: the toolchain's is set in the constructor only. -/
structure ShowsGenerations (w : World) (o : Observability) : Prop where
  cacheGen : reading o .cacheGeneration = w.impl.cacheGen.toInt64
  toolchainGen : reading o .toolchainGeneration = 1
  epoch : reading o .coordinatorEpoch = 1

/-- Nothing is counted in the constructor. -/
theorem accounted_init (p : Process) (hcalls : w.calls = fun _ => none) :
    Accounted w (({} : Observability).applyAll now (World.constructorObs p)) := by
  intro a
  unfold tally
  rw [hcalls, total_none]
  have hempty : ∀ m, reading {} m = 0 := fun m => by
    simp [reading, Observability.get]
  cases a <;>
    simp [balance, Account.metrics, Observability.applyAll, World.constructorObs,
      Observability.apply, reading_set, hempty]

/-- The constructor sets the two generations.
SOURCE: Fabric.cpp:109-112 -/
theorem ShowsGenerations.init (p : Process) (hgen : w.impl.cacheGen = 1) :
    ShowsGenerations w (({} : Observability).applyAll now (World.constructorObs p)) := by
  constructor <;>
    simp [Observability.applyAll, World.constructorObs, Observability.apply, reading_set, hgen]

/-- A restart begins with the first generation. -/
theorem cacheGen_of_restart (h : Transition H w e w') (he : isRestart e = true) :
    w'.impl.cacheGen = 1 := by
  cases h with
  | restart => rfl
  | advance hcall hadv => cases hadv <;> cases he
  | fail hcall hlock hentry hfail => cases hfail <;> cases he
  | lease he' => rcases he' with ⟨id, rfl⟩ | ⟨id, rfl⟩ <;> cases he
  | recovering h => cases h <;> cases he
  | _ => cases he

/-- An invalidation sets the generation first, and to what it will be. -/
theorem obsCalls_invalidate (reports : ℕ → RecoveryReport) (authority : Authority) :
    ∃ xs, w.obsCalls H reports (.invalidate authority) =
        .set .cacheGeneration (w.impl.cacheGen + 1).toInt64 :: xs ∧
      ∀ x ∈ xs, ObsCall.metric x ≠ some .cacheGeneration := by
  refine ⟨_, rfl, fun x hx => ?_⟩
  rcases List.mem_append.mp hx with hx | hx
  · rw [List.mem_singleton.mp hx]
    simp [ObsCall.metric]
  · cases authority with
    | key k =>
        rw [List.mem_singleton.mp hx]
        simp [ObsCall.metric]
    | _ => exact absurd hx List.not_mem_nil

/-- Every step leaves the two generations on display. -/
theorem ShowsGenerations.step (hs : ShowsGenerations w o) (h : Transition H w e w')
    (hsame : isRestart e = false) (reports : ℕ → RecoveryReport) :
    ShowsGenerations w' (o.applyAll now (w.obsCalls H reports e)) := by
  have hmakes := makes_obsCalls (w := w) (H := H) reports e
  have hgen := cacheGen_step hsame h
  refine ⟨?_, ?_, ?_⟩
  · by_cases he : isInvalidation e = true
    · rw [hgen, if_pos he]
      cases e with
      | invalidate authority =>
          obtain ⟨xs, hxs, hrest⟩ := obsCalls_invalidate (w := w) (H := H) reports authority
          rw [hxs]
          change reading ((o.set Metric.cacheGeneration.name _).applyAll now xs) _ = _
          apply reading_of_settled
          · rw [reading_set, if_pos rfl]
          · exact fun x hx hmetric => absurd hmetric (hrest x hx)
      | _ => cases he
    · rw [hgen, if_neg he]
      refine reading_of_settled hs.cacheGen fun x hx hmetric => ?_
      cases hmakes x hx with
      | one hne => exact absurd (Option.some.inj hmetric) hne.1
      | generation => rfl
      | advanced hadv => exact absurd hadv he
      | _ => cases hmetric
  · refine reading_of_settled hs.toolchainGen fun x hx hmetric => ?_
    cases hmakes x hx with
    | one hne => exact absurd (Option.some.inj hmetric) hne.2.1
    | _ => cases hmetric
  · refine reading_of_settled hs.epoch fun x hx hmetric => ?_
    cases hmakes x hx with
    | one hne => exact absurd (Option.some.inj hmetric) hne.2.2
    | _ => cases hmetric

end CompilationFabric.Interface
