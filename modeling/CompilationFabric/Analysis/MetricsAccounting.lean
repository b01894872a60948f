import CompilationFabric.Interface.FabricAccounts

/-!
# The counters account for the calls

`compile` counts in many places, each under the lock or not at all, and on every path the right
number of times: whatever the calls do, `cache_misses` is the number of calls that are past a
lookup that served nothing, and so on for each account.

What follows for whoever reads the counters is `Reconciled`: the misses are the waiters, the owners
that completed, the owners that failed, and the calls that are still under way or that were lost:
to an exception, or to a backend that is not registered, which nothing counts.
-/

set_option autoImplicit false

namespace CompilationFabric.Analysis

open CompilationFabric.Library.TransitionSystem
open CompilationFabric.Library.Census
open CompilationFabric.Model
open CompilationFabric.Interface

variable {H : Bytes → Digest} {w w' : World} {o : Observability} {e : Event} {c : CallId}
  {call call' : Call} {now : Int64} {reports : ℕ → RecoveryReport}

/-! ## Backends that were there -/

/-- The phases of an owner whose backend has been looked up. -/
def pastCheck : Phase → Bool
  | .compiling | .built _ | .numbered _ _ | .validated _ => true
  | _ => false

/-- Such an owner's backend is registered. -/
def KnownBackends (w : World) : Prop :=
  ∀ c call, w.calls c = some call → pastCheck call.phase = true →
    backendKnown w.process call.plan = true

/-- Every step keeps the backends of the calls known. -/
theorem KnownBackends.step (hk : KnownBackends w) (h : Transition H w e w') :
    KnownBackends w' := by
  by_cases hrestart : isRestart e = true
  · intro c call hcall
    rw [(calls_of_restart h hrestart).1] at hcall
    cases hcall
  intro c call' hcall' hpast
  rw [process_step (Bool.eq_false_of_not_eq_true hrestart) h]
  rcases (callsStep_of_transition h).call_cases hcall' with hold | ⟨-, hnew⟩ | ⟨call, hcall, hmoved⟩
  · exact hk c call' hold hpast
  · cases hnew with
    | miss hplan hmiss => cases hmiss <;> cases hpast
    | hit => cases hpast
  · have hbefore := hk c call hcall
    cases hmoved with
    | advance hadv =>
        cases hadv with
        | compiling hphase hbackend => exact hbackend
        | built hphase => exact hbefore (by rw [hphase]; rfl)
        | validated hphase => exact hbefore (by rw [hphase]; rfl)
        | raised => cases hpast
    | number hphase => exact hbefore (by rw [hphase]; rfl)
    | publish =>
        dsimp only at hpast
        split at hpast <;> cases hpast
    | _ => cases hpast

/-! ## One step -/

/-- The calls stay as they are, and nothing is added to the accounts. -/
theorem accounted_same (ha : Accounted w o) (hw : WellFormed w) (hprocess : w'.process = w.process)
    (hcalls : w'.calls = w.calls) (hnext : w'.nextCall = w.nextCall ∨ w'.nextCall = w.nextCall + 1)
    (hgains : ∀ a, gains a (w.obsCalls H reports e) = 0) :
    Accounted w' (o.applyAll now (w.obsCalls H reports e)) := by
  intro a
  rw [balance_obsCalls reports e, hgains, ha a]
  unfold tally
  rw [hprocess, hcalls]
  rcases hnext with hnext | hnext
  · rw [hnext]
    exact Int64.add_zero _
  · rw [hnext, total_skip (hw.fresh _ le_rfl)]
    exact Int64.add_zero _

/-- A new call comes with what is counted. -/
theorem accounted_enter (ha : Accounted w o) (hprocess : w'.process = w.process)
    (hcalls : w'.calls = Function.update w.calls w.nextCall (some call))
    (hnext : w'.nextCall = w.nextCall + 1)
    (hgains : ∀ a, gains a (w.obsCalls H reports e) = Account.share w.process a call) :
    Accounted w' (o.applyAll now (w.obsCalls H reports e)) := by
  intro a
  rw [balance_obsCalls reports e, hgains, ha a]
  unfold tally
  rw [hprocess, hcalls, hnext, total_enter, Int64.ofNat_add]

/-- A call moves, and what is counted is what it comes into. -/
theorem accounted_move (ha : Accounted w o) (hw : WellFormed w) (hcall : w.calls c = some call)
    (hprocess : w'.process = w.process)
    (hcalls : w'.calls = Function.update w.calls c (some call')) (hnext : w'.nextCall = w.nextCall)
    (hgains : ∀ a, Account.share w.process a call + gains a (w.obsCalls H reports e) =
      Account.share w.process a call') :
    Accounted w' (o.applyAll now (w.obsCalls H reports e)) := by
  intro a
  have hupdate := total_update (f := Account.share w.process a) (y := call')
    (hw.lt_nextCall hcall) hcall
  rw [balance_obsCalls reports e, ha a, ← Int64.ofNat_add]
  unfold tally
  rw [hprocess, hcalls, hnext]
  congr 1
  have hgain := hgains a
  omega

/-- INTERNAL: what a compile counts when it misses. -/
theorem compileObs_of_missed {request : CompilationRequest} {n : UInt64} {now : Int64}
    {p : CompilationPlan} (hplan : plan w.process.host w.process.config n now request = .ok p)
    (hmiss : ∀ e, w.impl.cache[World.compileKey w.process request p]? = some e →
      World.fastPath w.process.config.compatibilityPolicy (World.compileKey w.process request p) e =
        .ok none) :
    w.compileObs request n now = counts .cacheMisses := by
  simp only [World.compileObs, hplan]
  cases hcache : w.impl.cache[World.compileKey w.process request p]? with
  | none => rfl
  | some e => simp only [hmiss e hcache]

/-- An owner that gives up is counted as a failure, unless nothing has looked at its backend. -/
theorem share_add_gains_of_fails {f : Failure} (hk : KnownBackends w)
    (hcall : w.calls c = some call) (hfail : Fails w c call e f) {entry : Option InflightEntry}
    (a : Account) :
    Account.share w.process a call + gains a (w.obsCalls H reports e) =
      Account.share w.process a { call with
        phase := .returned .owner (.error f)
        entry := entry } := by
  cases hfail with
  | @noBackend outcome hphase hbackend =>
      have hunknown : backendKnown w.process call.plan = false := Bool.eq_false_of_not_eq_true hbackend
      have hnone : w.obsCalls H reports (.check c outcome) = [] := by
        simp only [World.obsCalls, World.checkObs, hcall, Option.map_some, Option.getD_some,
          if_pos hbackend]
      rw [hnone, gains_nil]
      cases a <;> simp [Account.share, Account.shares, hphase, hunknown]
  | incompatible hphase =>
      have hcheck : w.obsCalls H reports (.check c (.error f)) =
          w.checkObs call (.error f) := by
        simp only [World.obsCalls, hcall, Option.map_some, Option.getD_some]
      have hobs : w.checkObs call (.error f) =
          if backendKnown w.process call.plan then counts .compileFailures else [] := by
        unfold World.checkObs backendKnown
        split <;> simp_all
      rw [hcheck, hobs]
      cases hbackend : backendKnown w.process call.plan <;>
        cases a <;> simp [Account.share, Account.shares, Account.metrics, hphase, hbackend]
  | @build run ms failure hphase hbuild =>
      have hbackend := hk c call hcall (by rw [hphase]; rfl)
      have hcount : gains a (w.obsCalls H reports (.build c run ms)) =
          gains a (counts .compileFailures) := by
        simp only [World.obsCalls, World.buildObs, hcall, Option.map_some, Option.getD_some, hbuild,
          gains_append]
        rw [Nat.add_eq_left]
        split
        · rfl
        · split <;> rfl
      rw [hcount, gains_counts]
      cases a <;> simp [Account.share, Account.shares, Account.metrics, hphase, hbackend]
  | validation hphase =>
      have hbackend := hk c call hcall (by rw [hphase]; rfl)
      simp only [World.obsCalls, World.validateObs, gains_counts]
      cases a <;> simp [Account.share, Account.shares, Account.metrics, hphase, hbackend]
  | notPassed hphase hpassed =>
      have hbackend := hk c call hcall (by rw [hphase]; rfl)
      simp only [World.obsCalls, World.validateObs, hpassed, Bool.false_eq_true, if_false,
        gains_counts]
      cases a <;> simp [Account.share, Account.shares, Account.metrics, hphase, hbackend]
  | stale hphase hentry hstale =>
      have hbackend := hk c call hcall (by rw [hphase]; rfl)
      have hcommit : w.obsCalls H reports (.commit c) = counts .staleAuthorityRejections := by
        simp only [World.obsCalls, World.commitObs, hcall, hphase, hentry, Option.map_some,
          Option.getD_some, if_pos hstale]
      rw [hcommit, gains_counts]
      cases a <;> simp [Account.share, Account.shares, Account.metrics, hphase, hbackend]

/-! What a fabric counts beside the accounts. -/

/-- INTERNAL: a file step counts for no account. -/
theorem gains_storeStep (a : Account) (ok : Bool) :
    gains a (w.obsCalls H reports (.storeStep c ok)) = 0 := by
  have hfailure : gains a (counts .persistenceFailures) = 0 := by cases a <;> rfl
  have hstore : ∀ call, gains a (w.storeObs H call ok) = 0 := by
    intro call
    unfold World.storeObs
    split
    · dsimp only
      split
      · exact hfailure
      · split
        · split <;> first | rfl | exact hfailure
        · split <;> first | rfl | exact hfailure
        · rfl
    · rfl
  simp only [World.obsCalls]
  cases w.calls c with
  | none => rfl
  | some call => exact hstore call

/-- INTERNAL: an invalidation counts for no account. -/
theorem gains_invalidate (a : Account) (by' : Authority) :
    gains a (w.obsCalls H reports (.invalidate by')) = 0 := by
  cases by' <;> cases a <;> rfl

/-- INTERNAL: a lease counts for no account. -/
theorem gains_lease (a : Account) (he : (∃ id, e = .acquire id) ∨ ∃ id, e = .release id) :
    gains a (w.obsCalls H reports e) = 0 := by
  rcases he with ⟨id, rfl⟩ | ⟨id, rfl⟩
  · simp only [World.obsCalls, World.acquireObs]
    split
    · cases a <;> rfl
    · rfl
  · simp only [World.obsCalls, World.releaseObs]
    split
    · rfl
    · cases a <;> rfl

/-- INTERNAL: a recovery counts for no account. -/
theorem gains_recoverInsert {t : ℕ} {valid : List Loaded}
    (hphase : w.recoveries t = some (.loading [] valid)) (a : Account) :
    gains a (w.obsCalls H reports (.recoverInsert t)) = 0 := by
  have hrecovered : gains a (counts .recoveredArtifacts) = 0 := by cases a <;> rfl
  have hvalid : ∀ valid : List Loaded,
      gains a (valid.flatMap fun _ => counts .recoveredArtifacts) = 0 := by
    intro valid
    induction valid with
    | nil => rfl
    | cons l valid ih => rw [List.flatMap_cons, gains_append, hrecovered, ih]
  simp only [World.obsCalls, hphase, World.recoverObs, gains_append, hvalid]
  cases a <;> rfl

/-- INTERNAL: one step keeps the accounts, by one case for each way it can end. -/
theorem accounted_step (ha : Accounted w o) (hw : WellFormed w) (hk : KnownBackends w)
    (h : Transition H w e w') (hsame : isRestart e = false) :
    Accounted w' (o.applyAll now (w.obsCalls H reports e)) := by
  cases h with
  | refuse hplan =>
      refine accounted_same ha hw rfl rfl (.inr rfl) fun a => ?_
      simp [World.obsCalls, World.compileObs, hplan]
  | miss hplan hlock hmiss =>
      refine accounted_enter ha rfl rfl rfl fun a => ?_
      cases hmiss with
      | missed h =>
          simp only [World.obsCalls, compileObs_of_missed hplan h, gains_counts]
          cases a <;> rfl
      | raised he h =>
          simp only [World.obsCalls, World.compileObs, hplan, he, h, gains_nil]
          cases a <;> rfl
  | hit hplan hlock he hfast =>
      refine accounted_enter ha rfl rfl rfl fun a => ?_
      simp only [World.obsCalls, World.compileObs, hplan, he, hfast, gains_append, gains_counts]
      cases a <;> rfl
  | wait hcall hphase hlock hactive =>
      refine accounted_move ha hw hcall rfl rfl rfl fun a => ?_
      cases a <;> simp [World.obsCalls, World.joinObs, hcall, hactive, Account.share,
        Account.shares, Account.metrics, hphase]
  | own hcall hphase hlock hactive =>
      refine accounted_move ha hw hcall rfl rfl rfl fun a => ?_
      cases a <;> simp [World.obsCalls, World.joinObs, hcall, hactive, Account.share,
        Account.shares, hphase]
  | wake hcall hphase =>
      refine accounted_move ha hw hcall rfl rfl rfl fun a => ?_
      cases a <;> simp [World.obsCalls, Account.share, Account.shares, Account.metrics, hphase]
  | advance hcall hadv =>
      refine accounted_move ha hw hcall rfl rfl rfl fun a => ?_
      cases hadv with
      | compiling hphase hbackend =>
          cases a <;> simp [World.obsCalls, World.checkObs, hcall, Account.share, Account.shares,
            hphase]
      | built hphase hbuild =>
          cases a <;> simp [World.obsCalls, World.buildObs, hcall, hbuild, Account.share,
            Account.shares, hphase]
      | validated hphase hentry hpassed =>
          cases a <;> simp [World.obsCalls, World.validateObs, hpassed, Account.share,
            Account.shares, hphase]
      | raised hphase =>
          have howning := Advances.owning (.raised (H := H) (w := w) (c := 0) hphase)
          obtain ⟨entry, hentry, -⟩ := coherent_owning (hw.coherent _ _ hcall) howning
          rcases hphase with hphase | hphase | ⟨b, id, hphase⟩ <;>
            cases a <;> simp [World.obsCalls, Account.share, Account.shares, hphase, hentry]
  | fail hcall hlock hentry hfail =>
      exact accounted_move ha hw hcall rfl rfl rfl (share_add_gains_of_fails hk hcall hfail)
  | number hcall hphase =>
      refine accounted_move ha hw hcall rfl rfl rfl fun a => ?_
      cases a <;> simp [World.obsCalls, Account.share, Account.shares, hphase]
  | @publish c call v entry hcall hphase hentry hlock hcache htoolchain =>
      refine accounted_move ha hw hcall rfl rfl rfl fun a => ?_
      have hcommit : gains a (w.obsCalls H reports (.commit c)) =
          gains a (counts .compiledArtifacts) := by
        simp only [World.obsCalls, World.commitObs, hcall, hphase, hentry, Option.map_some,
          Option.getD_some, hcache, htoolchain, ne_eq, not_true_eq_false, or_self, if_false]
        rfl
      rw [hcommit, gains_counts]
      split <;> cases a <;> simp [Account.share, Account.shares, Account.metrics, hphase]
  | write hcall hphase hwrite =>
      cases hwrite <;> refine accounted_move ha hw hcall rfl rfl rfl fun a => ?_ <;>
        rw [gains_storeStep] <;> cases a <;>
          simp [Account.share, Account.shares, hphase]
  | release hcall hphase =>
      refine accounted_move ha hw hcall rfl rfl rfl fun a => ?_
      rw [gains_storeStep]
      cases a <;> simp [Account.share, Account.shares, hphase]
  | complete hcall hphase hlock hentry =>
      refine accounted_move ha hw hcall rfl rfl rfl fun a => ?_
      cases a <;> simp [World.obsCalls, Account.share, Account.shares, Account.metrics, hphase]
  | invalidate => exact accounted_same ha hw rfl rfl (.inl rfl) fun a => gains_invalidate a _
  | supersede =>
      refine accounted_same ha hw rfl rfl (.inl rfl) fun a => ?_
      cases a <;> rfl
  | lease he => exact accounted_same ha hw rfl rfl (.inl rfl) fun a => gains_lease a he
  | recovering hrec =>
      refine accounted_same ha hw rfl rfl (.inl rfl) fun a => ?_
      cases hrec <;> rfl
  | recoverInsert hlock hphase =>
      exact accounted_same ha hw rfl rfl (.inl rfl) (gains_recoverInsert hphase)
  | restart => cases hsame
  | _ => exact accounted_same ha hw rfl rfl (.inl rfl) fun a => rfl

/-! ## Every run -/

/-- The calls that no account has yet: those under way that wait for nobody, and those that were
lost, to an exception or to a backend that is not registered. -/
def unsettled (p : Process) (call : Call) : Bool :=
  match call.phase with
  | .waiting _ | .returned (.cache _) _ | .returned (.waiter _) _
  | .returned .owner (.ok _) => false
  | .returned .owner (.error _) => !backendKnown p call.plan
  | .raised => call.entry.isSome
  | _ => true

/-- What the counters say of each other. -/
structure Reconciled (w : World) (o : Observability) : Prop where
  misses : reading o .cacheMisses =
    reading o .singleflightWaiters + reading o .singleflightCompletions +
      (reading o .compileFailures + reading o .validationFailures +
        reading o .staleAuthorityRejections) +
      Int64.ofNat (total (fun call => (unsettled w.process call).toNat) w.calls w.nextCall)
  hits : reading o .cacheHits = reading o .reusedBuilds
  /-- When every call has returned, -/
  returned : (∀ c call, w.calls c = some call → ∃ served r, call.phase = .returned served r) →
    reading o .singleflightWaiters = reading o .singleflightWaitCompletions ∧
      reading o .compiledArtifacts = reading o .singleflightCompletions

/-- INTERNAL: a miss waits, completes, fails, or is still under way. -/
theorem share_misses (p : Process) (call : Call) :
    Account.share p .misses call = Account.share p .waiters call +
      Account.share p .completed call + Account.share p .failed call +
        (unsettled p call).toNat := by
  unfold Account.share Account.shares unsettled
  cases hphase : call.phase with
  | returned served r =>
      cases served with
      | owner =>
          cases r with
          | ok => rfl
          | error => cases backendKnown p call.plan <;> rfl
      | _ => rfl
  | raised => simp
  | _ => rfl

/-- A balance of one counter. -/
theorem reading_of_accounted (ha : Accounted w o) {a : Account} {m : Metric}
    (hmetrics : a.metrics = [m]) : reading o m = Int64.ofNat (tally w a) := by
  rw [← ha a, balance, hmetrics]
  exact (Int64.add_zero _).symm

/-- The accounts reconcile the counters with the history. -/
theorem reconciled_of_accounted (ha : Accounted w o) : Reconciled w o := by
  have hmisses := reading_of_accounted ha (a := .misses) rfl
  have hwaiters := reading_of_accounted ha (a := .waiters) rfl
  have hcompleted := reading_of_accounted ha (a := .completed) rfl
  have hfailed : reading o .compileFailures + reading o .validationFailures +
      reading o .staleAuthorityRejections = Int64.ofNat (tally w .failed) := by
    rw [← ha .failed]
    simp only [balance, Account.metrics, List.foldr, Int64.add_zero, Int64.add_assoc]
  refine ⟨?_, ?_, fun hreturned => ⟨?_, ?_⟩⟩
  · rw [hmisses, hwaiters, hcompleted, hfailed, ← Int64.ofNat_add, ← Int64.ofNat_add,
      ← Int64.ofNat_add]
    unfold tally
    rw [← total_add, ← total_add, ← total_add]
    congr 2
    funext call
    exact share_misses w.process call
  · rw [reading_of_accounted ha (a := .hits) rfl, reading_of_accounted ha (a := .reused) rfl]
    congr 1
    refine total_eq_of_forall fun c _ call _ => ?_
    unfold Account.share Account.shares
    cases call.phase with
    | returned served r => cases served <;> rfl
    | _ => rfl
  · rw [hwaiters, reading_of_accounted ha (a := .woken) rfl]
    congr 1
    refine total_eq_of_forall fun c _ call hcall => ?_
    obtain ⟨served, r, hphase⟩ := hreturned c call hcall
    cases served <;> simp [Account.share, Account.shares, hphase]
  · rw [hcompleted, reading_of_accounted ha (a := .artifacts) rfl]
    congr 1
    refine total_eq_of_forall fun c _ call hcall => ?_
    obtain ⟨served, r, hphase⟩ := hreturned c call hcall
    cases served <;> cases r <;> simp [Account.share, Account.shares, hphase]

/-- What holds of a fabric and its metrics. -/
structure Metered (s : World × Metrics) : Prop where
  wellFormed : WellFormed s.1
  backends : KnownBackends s.1
  accounted : Accounted s.1 s.2.obs
  generations : ShowsGenerations s.1 s.2.obs

/-- A fresh process and its counters. -/
theorem Metered.init (p : Process) (started : Int64) : Metered (meteredInit p started) where
  wellFormed := .init p
  backends c call h := by cases h
  accounted := accounted_init p rfl
  generations := .init p rfl

/-- INTERNAL: what the monitor makes of the counters. -/
theorem obs_watch {m : Metrics} (hsame : isRestart e = false) :
    (watch H m w (e, now)).obs = m.obs.applyAll now (w.obsCalls H m.reports e) := by
  cases e <;> first | rfl | cases hsame

/-- Every step keeps the counters with the history. -/
theorem Metered.step {s s' : World × Metrics} {i : Event × Int64} (hs : Metered s)
    (h : meteredStep H s i = some s') : Metered s' := by
  obtain ⟨w, m⟩ := s
  obtain ⟨w', m'⟩ := s'
  obtain ⟨e, now⟩ := i
  obtain ⟨hstep, hwatch⟩ := monitored_eq_some.mp h
  have htrans : Transition H w e w' := transition_of_step hstep
  obtain rfl : watch H m w (e, now) = m' := hwatch
  have hwell := hs.wellFormed.step htrans
  have hknown := hs.backends.step htrans
  by_cases he : isRestart e = true
  · cases e with
    | restart p =>
        exact ⟨hwell, hknown, accounted_init p (calls_of_restart htrans he).1,
          .init p (cacheGen_of_restart htrans he)⟩
    | _ => cases he
  · have hsame := Bool.eq_false_of_not_eq_true he
    refine ⟨hwell, hknown, ?_, ?_⟩
    · rw [obs_watch hsame]
      exact accounted_step hs.accounted hs.wellFormed hs.backends htrans hsame
    · rw [obs_watch hsame]
      exact hs.generations.step htrans hsame m.reports

/-- In every run of a fabric, restarts included, the counters account for the calls.
SOURCE: Fabric.cpp:109-112, 217-437, 454-507 -/
theorem metrics_account (H : Bytes → Digest) (p : Process) (started : Int64)
    (is : List (Event × Int64)) (w : World) (m : Metrics)
    (hexec : exec (meteredStep H) (meteredInit p started) is = some (w, m)) :
    Accounted w m.obs ∧ ShowsGenerations w m.obs ∧ Reconciled w m.obs := by
  have hmetered : Metered (w, m) :=
    exec_invariant (fun _ _ _ hstep hs => hs.step hstep) hexec (.init p started)
  exact ⟨hmetered.accounted, hmetered.generations, reconciled_of_accounted hmetered.accounted⟩

/-- A call that compiles, one that waits for it, one that it is served to, and an invalidation. -/
def meteredRun : List Event :=
  [.compile {} 1 0, .compile {} 2 0, .join 0, .join 1] ++ ownerSteps 0 { executable := [1] } ++
    [.commit 0, .complete 0, .wake 1, .compile {} 3 0, .invalidate (.key {})]

/-- Two calls for one key, and their counters. -/
theorem metrics_account_shared : ∃ w m,
    exec (meteredStep fun _ => .zero) (meteredInit unstored 0) (meteredRun.map (·, 0)) =
      some (w, m) ∧ Reconciled w m.obs := by
  obtain ⟨w, hrun⟩ := Option.isSome_iff_exists.mp (show (exec (step fun _ => .zero)
    { process := unstored } meteredRun).isSome = true by decide +kernel)
  have hevents : (meteredRun.map fun e => (e, (0 : Int64))).map Prod.fst = meteredRun := by
    rw [List.map_map]
    exact List.map_id _
  obtain ⟨m, hmetered⟩ : ∃ m, exec (meteredStep fun _ => .zero) (meteredInit unstored 0)
      (meteredRun.map (·, 0)) = some (w, m) := exists_monitored (hevents ▸ hrun)
  exact ⟨w, m, hmetered, (metrics_account _ unstored 0 _ w m hmetered).2.2⟩

end CompilationFabric.Analysis
