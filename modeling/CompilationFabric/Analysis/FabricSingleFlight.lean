import CompilationFabric.Interface.FabricFlight

/-!
# Single flight

Whether concurrent calls of one key share one compile.  A call looks into the cache in one
critical section and into the in-flight entries in the next.  Between the two, another call can
commit the artifact and complete its entry; then the first finds neither, becomes an owner itself,
and commits a second artifact over the first.  When no call takes the ownership so late, one
artifact is committed, and everybody gets it.
-/

set_option autoImplicit false

namespace CompilationFabric.Analysis

open CompilationFabric.Library.TransitionSystem
open CompilationFabric.Model
open CompilationFabric.Interface

variable {H : Bytes → Digest} {w₀ w w' : World} {e : Event} {es : List Event}
  {k : CompilationKey} {c d : CallId} {call : Call} {m : Commit}

/-! ## The property -/

/-- The steps of a call that is there. -/
def isCallStep : Event → Bool
  | .join _ | .wake _ | .check _ _ | .build _ _ _ | .number _ | .validate _ _ _ _ | .commit _
  | .storeStep _ _ | .complete _ => true
  | _ => false

/-- At most one artifact is committed for the key, every call that has returned has returned it,
and as long as one has not, some call can go on. -/
structure SingleFlight (H : Bytes → Digest) (k : CompilationKey) (w₀ w : World) : Prop where
  once : ∀ m ∈ w.log, ∀ m' ∈ w.log, m ∉ w₀.log → m' ∉ w₀.log → m.key = k → m'.key = k → m = m'
  agree : ∃ id gen, ∀ c call s r, Started k w₀ w c call → call.phase = .returned s r →
    ∃ res, r = .ok res ∧ res.artifactId = id ∧ res.generation = gen
  progress : ∀ c call, Started k w₀ w c call → (∀ s r, call.phase ≠ .returned s r) →
    ∃ e, isCallStep e = true ∧ Smooth k w e ∧ (step H w e).isSome = true

/-! ## One artifact -/

/-- INTERNAL: a call that has committed has an entry. -/
theorem entry_of_hasCommitted (hw : WellFormed w) (hcall : w.calls c = some call)
    (hphase : hasCommitted call.phase = true) : call.entry.isSome := by
  have hcoherent := hw.coherent c call hcall
  cases hp : call.phase with
  | storing v stage => rw [hp] at hcoherent; obtain ⟨e, he, -⟩ := hcoherent; rw [he]; rfl
  | committed v => rw [hp] at hcoherent; obtain ⟨e, he, -⟩ := hcoherent; rw [he]; rfl
  | returned s r =>
      rw [hp] at hcoherent hphase
      cases s with
      | owner => obtain ⟨e, he, -⟩ := hcoherent; rw [he]; rfl
      | _ => cases hphase
  | _ => rw [hp] at hphase; cases hphase

/-- The artifacts committed for the key since `w₀` are one. -/
theorem commit_unique (hf : Flight k w₀ w) (hh : History H w) :
    ∀ m ∈ w.log, ∀ m' ∈ w.log, m ∉ w₀.log → m' ∉ w₀.log → m.key = k → m'.key = k → m = m' := by
  intro m hm m' hm' hnew hnew' hkey hkey'
  obtain ⟨u, hu⟩ := (hf.commits m hm hkey).resolve_left hnew
  obtain ⟨x, hx⟩ := (hf.commits m' hm' hkey').resolve_left hnew'
  have hentry := entry_of_hasCommitted hh.wellFormed hu.here (hh.commits.after m hm u hu.here)
  have hentry' := entry_of_hasCommitted hh.wellFormed hx.here (hh.commits.after m' hm' x hx.here)
  exact hh.commits.once m hm m' hm' (hf.owners m.call m'.call u x hu hx hentry hentry')

/-- What a call returns has been committed for the key since `w₀`. -/
theorem commit_of_returned (hf : Flight k w₀ w) (hh : History H w) (ha : Agreed w)
    (hs : Started k w₀ w c call) {s : Served} {r : Result CompilationResult}
    (hphase : call.phase = .returned s r) :
    ∃ res, r = .ok res ∧ ∃ m ∈ w.log, m.key = k ∧ w₀.nextCall ≤ m.call ∧
      res.artifactId = m.id ∧ res.generation = m.generation := by
  obtain ⟨res, rfl⟩ := hf.answers c call s r hs hphase
  refine ⟨res, rfl, ?_⟩
  cases s with
  | cache o =>
      obtain ⟨m, hm, rfl, hkey, hres⟩ := hh.recorded.served c call o res hs.here hphase
      obtain ⟨owner, ho⟩ := hf.sources c call m.call hs (by rw [hphase]; rfl)
      exact ⟨m, hm, hkey.trans hs.key, ho.since, hres.artifactId, hres.generation⟩
  | waiter o =>
      obtain ⟨owner, entry, howner, hentry, hdone⟩ := ha c call o _ hs.here hphase
      obtain ⟨owner', ho⟩ := hf.sources c call o hs (by rw [hphase]; rfl)
      obtain rfl := Option.some.inj (howner.symm.trans ho.here)
      have hcoherent := hh.wellFormed.coherent o owner howner
      rw [hentry] at hcoherent
      obtain ⟨m, hm, rfl, hkey, hres⟩ :=
        hh.recorded.owned o owner res howner (coherent_done hcoherent hdone)
      exact ⟨m, hm, hkey.trans ho.key, ho.since, hres.artifactId, hres.generation⟩
  | owner =>
      obtain ⟨m, hm, rfl, hkey, hres⟩ := hh.recorded.owned c call res hs.here hphase
      exact ⟨m, hm, hkey.trans hs.key, hs.since, hres.artifactId, hres.generation⟩

/-! ## Nobody is stuck -/

/-- A call can go on. -/
def GoesOn (H : Bytes → Digest) (k : CompilationKey) (w : World) : Prop :=
  ∃ e, isCallStep e = true ∧ Smooth k w e ∧ (step H w e).isSome = true

/-- INTERNAL: a smooth step of a call goes on with the key. -/
theorem GoesOn.of_step {e : Event} {w' : World} (h : step H w e = some w')
    (hcall : isCallStep e = true) (hs : Smooth k w e) : GoesOn H k w :=
  ⟨e, hcall, hs, by rw [h]; rfl⟩

/-- Whoever holds the lock can write on. -/
theorem goesOn_of_locked (hw : WellFormed w) (hlock : w.impl.lock ≠ none) : GoesOn H k w := by
  obtain ⟨d, hd⟩ := Option.ne_none_iff_exists'.mp hlock
  obtain ⟨x, hx, hstoring⟩ := (hw.lock d).mp hd
  cases hphase : x.phase with
  | storing v stage =>
      have hfails : step H w (.storeStep d false) = some (w.release d x v) := by
        simp only [step, World.storeStep, hx, hphase, bind, Option.bind_some, true_or, if_true]
      exact .of_step hfails rfl trivial
  | _ => rw [hphase] at hstoring; cases hstoring

/-- An owner can go on, when the lock is free. -/
theorem goesOn_of_owning (hf : Flight k w₀ w) (hw : WellFormed w) (hs : Started k w₀ w c call)
    (howning : call.phase.owning = true) (hlock : w.impl.lock = none) : GoesOn H k w := by
  obtain ⟨entry, hentry, -⟩ := coherent_owning (hw.coherent c call hs.here) howning
  cases hphase : call.phase with
  | checking =>
      exact .of_step (check_of_backend hs.here hphase (hf.backend c call hs)) rfl fun _ _ _ => rfl
  | compiling =>
      obtain ⟨b, hbuild, -⟩ := backendBuild_uniformRun call.request
        (show ({ executable := [1] } : BackendOutput).executable ≠ [] by decide)
      have hstep : step H w (.build c (uniformRun { executable := [1] }) 0) = some _ :=
        build_of_ok hs.here hphase hbuild
      refine .of_step hstep rfl fun u hu _ => ?_
      rw [hs.here, Option.some_inj] at hu
      exact ⟨b, hu ▸ hbuild⟩
  | built b => exact .of_step (number_of_built hs.here hphase) rfl trivial
  | numbered b id =>
      have hstep : step H w (.validate c (.ok { passed := true }) {} 0) = some _ :=
        validate_of_passed hs.here hphase hentry rfl
      exact .of_step hstep rfl fun _ _ _ => ⟨_, rfl, rfl⟩
  | validated v =>
      obtain ⟨hcache, htoolchain⟩ := hf.current c call entry hs hentry
      exact .of_step (commit_of_current hs.here hphase hentry hlock hcache htoolchain) rfl trivial
  | storing v stage =>
      have hheld := (hw.lock c).mpr ⟨call, hs.here, by rw [hphase]; rfl⟩
      rw [hlock] at hheld
      cases hheld
  | committed v => exact .of_step (complete_of_committed hs.here hphase hentry hlock) rfl trivial
  | _ => rw [hphase] at howning; cases howning

/-- An entry that is not done belongs to an owner that has not been left by an exception. -/
theorem owning_of_undone {phase : Phase} {entry : InflightEntry} (h : Coherent phase (some entry))
    (hnone : entry.outcome = none) (hruns : phase ≠ .raised) : phase.owning = true := by
  cases phase with
  | missed => cases h
  | waiting o => cases h
  | returned s r =>
      rw [coherent_returned h] at hnone
      cases hnone
  | raised => exact absurd rfl hruns
  | _ => rfl

/-- As long as a call has not returned, some call can go on. -/
theorem goesOn (hf : Flight k w₀ w) (hw : WellFormed w) (hs : Started k w₀ w c call)
    (hreturned : ∀ s r, call.phase ≠ .returned s r) : GoesOn H k w := by
  by_cases hlock : w.impl.lock = none
  · cases hphase : call.phase with
    | missed =>
        cases hactive : w.activeOwner call.key with
        | none => exact .of_step (join_of_inactive hs.here hphase hlock hactive) rfl trivial
        | some o => exact .of_step (join_of_active hs.here hphase hlock hactive) rfl trivial
    | waiting o =>
        obtain ⟨owner, ho⟩ := hf.sources c call o hs (by rw [hphase]; rfl)
        obtain ⟨owner', howner', hentry, -⟩ := hw.waiting c call o hs.here hphase
        obtain rfl := Option.some.inj (ho.here.symm.trans howner')
        obtain ⟨entry, hentry⟩ := Option.isSome_iff_exists.mp hentry
        cases hdone : entry.outcome with
        | some r =>
            exact .of_step (wake_of_done hs.here hphase ho.here hentry hdone hlock) rfl trivial
        | none =>
            have hcoherent := hw.coherent o owner ho.here
            rw [hentry] at hcoherent
            exact goesOn_of_owning hf hw ho
              (owning_of_undone hcoherent hdone (hf.runs o owner ho)) hlock
    | returned s r => exact absurd hphase (hreturned s r)
    | raised => exact absurd hphase (hf.runs c call hs)
    | _ => exact goesOn_of_owning hf hw hs (by rw [hphase]; rfl) hlock
  · exact goesOn_of_locked hw hlock

/-! ## Every run -/

/-- The calls of a key share one compile in every run in which none of them takes the ownership
when the artifact is in the cache.
SOURCE: Fabric.cpp:217-274, 397-437 -/
theorem fabric_single_flight (p : Process) {before : List Event}
    (hbefore : exec (step H) { process := p } before = some w₀)
    (hsettled : ∀ c call, w₀.calls c = some call → call.key = k → ∃ s r, call.phase = .returned s r)
    (hcache : w₀.impl.cache[k]? = none) (hsmooth : Meets (step H) (Smooth k) w₀ es)
    (howns : Meets (step H) (OwnsUncached k) w₀ es) (hrun : exec (step H) w₀ es = some w) :
    SingleFlight H k w₀ w := by
  have hh₀ : History H w₀ := history_exec (history_init H p) hbefore
  have ha₀ : Agreed w₀ := agreed_exec (.init p) (agreed_init p) hbefore
  obtain ⟨hf, hh, ha⟩ : Flight k w₀ w ∧ History H w ∧ Agreed w := by
    refine exec_induction (I := fun u => Flight k w₀ u ∧ History H u ∧ Agreed u) ?_
      (hsmooth.and howns) hrun ⟨flight_init hh₀.wellFormed hh₀.commits hsettled hcache, hh₀, ha₀⟩
    rintro s e s' ⟨hs, hown⟩ hstep ⟨hf, hh, ha⟩
    have htrans := transition_of_step hstep
    exact ⟨hf.step hh htrans hs hown, hh.step htrans, ha.step hh.wellFormed htrans⟩
  refine ⟨commit_unique hf hh, ?_, fun c call hs hreturned => goesOn hf hh.wellFormed hs hreturned⟩
  have hnew : ∀ m : Commit, w₀.nextCall ≤ m.call → m ∉ w₀.log := fun m hge hm =>
    absurd (hh₀.commits.started m hm) (not_lt.mpr hge)
  by_cases hcommit : ∃ m ∈ w.log, m.key = k ∧ w₀.nextCall ≤ m.call
  · obtain ⟨m, hm, hkey, hsince⟩ := hcommit
    refine ⟨m.id, m.generation, fun c call s r hs hphase => ?_⟩
    obtain ⟨res, hr, m', hm', hkey', hsince', hid, hgen⟩ := commit_of_returned hf hh ha hs hphase
    obtain rfl := commit_unique hf hh m hm m' hm' (hnew m hsince) (hnew m' hsince') hkey hkey'
    exact ⟨res, hr, hid, hgen⟩
  · refine ⟨{}, 0, fun c call s r hs hphase => ?_⟩
    obtain ⟨res, -, m, hm, hkey, hsince, -⟩ := commit_of_returned hf hh ha hs hphase
    exact absurd ⟨m, hm, hkey, hsince⟩ hcommit

/-! ## Two runs -/

/-- The key of the default request. -/
def defaultKey : CompilationKey :=
  World.compileKey unstored {} ((plan {} unstored.config 1 0 {}).toOption.getD {})

/-- A check that is enough for a smooth run. -/
def smooth (w : World) : Event → Bool
  | .compile request n now => match plan w.process.host w.process.config n now request with
    | .ok p => (w.process.host.backends w.process.config).contains p.backend
    | .error _ => true
  | .check _ (.ok ()) => true
  | .build c run _ => (w.calls c).all fun call => (backendBuild call.request run).isOk
  | .validate _ (.ok vd) _ _ => vd.passed
  | .join _ | .wake _ | .number _ | .commit _ | .complete _ => true
  | _ => false

/-- INTERNAL: what is checked of a step makes it smooth. -/
theorem smooth_of_check (h : smooth w e = true) : Smooth k w e := by
  cases e with
  | compile request n now =>
      intro p hplan _
      rw [smooth, hplan] at h
      exact h
  | check c outcome =>
      cases outcome with
      | ok u => exact fun _ _ _ => rfl
      | error f => cases h
  | build c run ms =>
      intro call hcall _
      rw [smooth, hcall, Option.all_some] at h
      cases hbuild : backendBuild call.request run with
      | ok b => exact ⟨b, rfl⟩
      | error f => rw [hbuild] at h; cases h
  | validate c outcome times ms =>
      cases outcome with
      | ok vd => exact fun _ _ _ => ⟨vd, rfl, h⟩
      | error f => cases h
  | join | wake | number | commit | complete => trivial
  | _ => cases h

/-- A check that is enough for an ownership in time. -/
def ownsInTime (w : World) : Event → Bool
  | .join c => (w.calls c).all fun call =>
      (w.activeOwner call.key).isSome || (w.impl.cache[call.key]?).isNone
  | _ => true

/-- INTERNAL: what is checked of a step makes an owner of an uncached key. -/
theorem ownsUncached_of_check (h : ownsInTime w e = true) : OwnsUncached k w e := by
  cases e with
  | join c =>
      rintro call hcall rfl hactive
      rw [ownsInTime, hcall, Option.all_some, hactive] at h
      exact Option.isNone_iff_eq_none.mp h
  | _ => trivial

/-- Two calls, of which the second waits for the first, and a third. -/
def sharedRun : List Event :=
  [.compile {} 1 0, .compile {} 2 0, .join 0, .join 1] ++ ownerSteps 0 { executable := [1] } ++
    [.commit 0, .complete 0, .wake 1, .compile {} 3 0]

/-- Two calls for one key, of which one compiles. -/
theorem fabric_single_flight_shared : ∃ w, exec (step fun _ => .zero) { process := unstored }
    sharedRun = some w ∧ SingleFlight (fun _ => .zero) defaultKey { process := unstored } w := by
  obtain ⟨w, hrun⟩ := Option.isSome_iff_exists.mp (show (exec (step fun _ => .zero)
    { process := unstored } sharedRun).isSome = true by decide +kernel)
  refine ⟨w, hrun, fabric_single_flight unstored (exec_nil _) (fun _ _ h => nomatch h)
    (by simp) ?_ ?_ hrun⟩
  · exact meets_of_checks (fun _ _ h => smooth_of_check h) (by decide +kernel)
  · exact meets_of_checks (fun _ _ h => ownsUncached_of_check h) (by decide +kernel)

/-- Two calls, of which the second takes the ownership when the first is through. -/
def lateRun : List Event :=
  [.compile {} 1 0, .compile {} 2 0, .join 0] ++ ownerSteps 0 { executable := [1] } ++
    [.commit 0, .complete 0, .join 1] ++ ownerSteps 1 { executable := [1] } ++
    [.commit 1, .complete 1]

/-- Both commit an artifact. -/
theorem not_fabric_single_flight : ∃ w,
    Meets (step fun _ => .zero) (Smooth defaultKey) { process := unstored } lateRun ∧
    exec (step fun _ => .zero) { process := unstored } lateRun = some w ∧
    ¬ SingleFlight (fun _ => .zero) defaultKey { process := unstored } w := by
  have hrun : (exec (step fun _ => .zero) { process := unstored } lateRun).any (fun w =>
      (w.log.any fun m => decide (m.call = 0 ∧ m.key = defaultKey)) &&
        w.log.any fun m => decide (m.call = 1 ∧ m.key = defaultKey)) = true := by decide +kernel
  obtain ⟨w, hexec, hw⟩ := (Option.any_eq_true _ _).mp hrun
  rw [Bool.and_eq_true, List.any_eq_true, List.any_eq_true] at hw
  obtain ⟨⟨m, hm, hfirst⟩, m', hm', hsecond⟩ := hw
  obtain ⟨hcall, hkey⟩ := of_decide_eq_true hfirst
  obtain ⟨hcall', hkey'⟩ := of_decide_eq_true hsecond
  refine ⟨w, meets_of_checks (fun _ _ h => smooth_of_check h) (by decide +kernel), hexec, ?_⟩
  intro hflight
  have heq := hflight.once m hm m' hm' (fun h => nomatch h) (fun h => nomatch h) hkey hkey'
  rw [heq, hcall'] at hcall
  cases hcall

end CompilationFabric.Analysis
