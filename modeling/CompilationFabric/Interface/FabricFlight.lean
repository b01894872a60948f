import CompilationFabric.Interface.FabricCommits
import CompilationFabric.Interface.FabricProgress

/-!
# The calls of one key

What holds among the calls of one key while nothing is invalidated, superseded or recovered, and
the backend does its work for them (`Smooth`).  The state `w₀` is the one that the calls start
from, and a call is `Started` when it is of the key and came later.

As long as none of them takes the ownership when the artifact is there already (`OwnsUncached`),
one call of them at most ever owns an in-flight entry (`Flight.owners`), and everything else
follows from that: whoever waits, waits for it, and the entry in the cache is its own.
-/

set_option autoImplicit false

namespace CompilationFabric.Interface

open CompilationFabric.Library.TransitionSystem
open CompilationFabric.Model

variable {H : Bytes → Digest} {w₀ w w' : World} {e : Event} {k : CompilationKey} {c d : CallId}
  {call call' : Call} {m : Commit}

/-! ## The conditions -/

/-- Nothing is invalidated, superseded or recovered, the process goes on, and for the calls of the
key the backend is there, succeeds and validates. -/
def Smooth (k : CompilationKey) (w : World) : Event → Prop
  | .compile request n now => ∀ p, plan w.process.host w.process.config n now request = .ok p →
      World.compileKey w.process request p = k →
      (w.process.host.backends w.process.config).contains p.backend = true
  | .check c outcome => ∀ call, w.calls c = some call → call.key = k → outcome = .ok ()
  | .build c run _ => ∀ call, w.calls c = some call → call.key = k →
      ∃ b, backendBuild call.request run = .ok b
  | .validate c outcome _ _ => ∀ call, w.calls c = some call → call.key = k →
      ∃ vd, outcome = .ok vd ∧ vd.passed = true
  | .raise c => ∀ call, w.calls c = some call → call.key ≠ k
  | .invalidate _ | .supersede _ _ | .recoverInsert _ | .restart _ => False
  | _ => True

/-- A call of the key that finds no owner to wait for finds no artifact in the cache either.
SOURCE: Fabric.cpp:255-274 -/
def OwnsUncached (k : CompilationKey) (w : World) : Event → Prop
  | .join c => ∀ call, w.calls c = some call → call.key = k → w.activeOwner k = none →
      w.impl.cache[k]? = none
  | _ => True

/-! ## The calls -/

/-- A call of the key that came after `w₀`. -/
structure Started (k : CompilationKey) (w₀ w : World) (c : CallId) (call : Call) : Prop where
  since : w₀.nextCall ≤ c
  here : w.calls c = some call
  key : call.key = k

/-- How a call gets by its result or is going to. -/
def servedBy : Phase → Option CallId
  | .waiting o | .returned (.waiter o) _ | .returned (.cache o) _ => some o
  | _ => none

/-- The invariant. -/
structure Flight (k : CompilationKey) (w₀ w : World) : Prop where
  next : w₀.nextCall ≤ w.nextCall
  /-- The earlier calls of the key have returned. -/
  settled : ∀ c call, c < w₀.nextCall → w.calls c = some call → call.key = k →
    ∃ s r, call.phase = .returned s r
  commits : ∀ m ∈ w.log, m.key = k → m ∈ w₀.log ∨ ∃ call, Started k w₀ w m.call call
  owners : ∀ c d u x, Started k w₀ w c u → Started k w₀ w d x → u.entry.isSome →
    x.entry.isSome → c = d
  inflight : ∀ c u, Started k w₀ w c u → u.entry.isSome → w.impl.inflight[k]? = some c
  current : ∀ c u entry, Started k w₀ w c u → u.entry = some entry →
    entry.baseCacheGen = w.impl.cacheGen ∧ entry.baseToolchainGen = w.impl.toolchainGen
  backend : ∀ c u, Started k w₀ w c u →
    (w.process.host.backends w.process.config).contains u.plan.backend = true
  answers : ∀ c u s r, Started k w₀ w c u → u.phase = .returned s r → ∃ res, r = .ok res
  runs : ∀ c u, Started k w₀ w c u → u.phase ≠ .raised
  sources : ∀ c u o, Started k w₀ w c u → servedBy u.phase = some o →
    ∃ owner, Started k w₀ w o owner
  cached : ∀ entry, w.impl.cache[k]? = some entry →
    entry.descriptor.state = ascii "Deployable" ∧ ∃ owner, Started k w₀ w entry.origin owner
  kept : ∀ m ∈ w.log, m.key = k → w₀.nextCall ≤ m.call → w.impl.cache[k]? ≠ none

/-- The calls start when no call of the key is under way and its artifact is not there. -/
theorem flight_init (hw : WellFormed w₀) (hl : CommitLog w₀)
    (hsettled : ∀ c call, w₀.calls c = some call → call.key = k → ∃ s r, call.phase = .returned s r)
    (hcache : w₀.impl.cache[k]? = none) : Flight k w₀ w₀ := by
  have hnone : ∀ {c u}, ¬ Started k w₀ w₀ c u := fun hs =>
    absurd (hw.lt_nextCall hs.here) (not_lt.mpr hs.since)
  exact {
    next := le_rfl
    settled := fun c call _ => hsettled c call
    commits := fun m hm _ => .inl hm
    owners := fun _ _ _ _ hs => absurd hs hnone
    inflight := fun _ _ hs => absurd hs hnone
    current := fun _ _ _ hs => absurd hs hnone
    backend := fun _ _ hs => absurd hs hnone
    answers := fun _ _ _ _ hs => absurd hs hnone
    runs := fun _ _ hs => absurd hs hnone
    sources := fun _ _ _ hs => absurd hs hnone
    cached := fun entry h => by rw [hcache] at h; cases h
    kept := fun m hm _ hge => absurd (hl.started m hm) (not_lt.mpr hge) }

/-! ## Single steps -/

/-- A started call was there before, has just entered, or has moved on. -/
theorem started_cases (h : Transition H w e w') (hs : Started k w₀ w' c call') :
    Started k w₀ w c call' ∨ Entered H w e call' ∨
      ∃ call, Started k w₀ w c call ∧ Moved H w c call e call' := by
  rcases (callsStep_of_transition h).call_cases hs.here with hold | ⟨-, hnew⟩ |
    ⟨call, hcall, hmoved⟩
  · exact .inl ⟨hs.since, hold, hs.key⟩
  · exact .inr (.inl hnew)
  · exact .inr (.inr ⟨call, ⟨hs.since, hcall, hmoved.key.symm.trans hs.key⟩, hmoved⟩)

/-- A started call stays one. -/
theorem Started.later (hs : Started k w₀ w c call) (hw : WellFormed w) (h : Transition H w e w')
    (hsame : isRestart e = false) : ∃ call, Started k w₀ w' c call := by
  obtain ⟨call', hcall', hl⟩ := later_of_transition hw h hsame c call hs.here
  exact ⟨call', hs.since, hcall', hl.key.trans hs.key⟩

/-- A call that has an entry had it before, or takes the ownership. -/
theorem Moved.entry_cases (h : Moved H w c call e call') (hentry : call'.entry.isSome) :
    call.entry.isSome ∨ e = .join c ∧ call.phase = .missed ∧ w.activeOwner call.key = none := by
  cases h with
  | own hphase hactive => exact .inr ⟨rfl, hphase, hactive⟩
  | fail hentry' => exact .inl (by rw [hentry']; rfl)
  | complete hphase hentry' => exact .inl (by rw [hentry']; rfl)
  | _ => exact .inl hentry

/-- INTERNAL: an owner was one before, or it has just joined without one. -/
theorem owner_before (h : Transition H w e w') (hs : Started k w₀ w' c call')
    (hentry : call'.entry.isSome) :
    (∃ call, Started k w₀ w c call ∧ call.entry.isSome) ∨
      ∃ call, e = .join c ∧ Started k w₀ w c call ∧ w.activeOwner k = none ∧
        w'.impl.inflight = w.impl.inflight.insert k c := by
  rcases started_cases h hs with hold | hnew | ⟨call, hold, hmoved⟩
  · exact .inl ⟨call', hold, hentry⟩
  · cases hnew <;> cases hentry
  · rcases hmoved.entry_cases hentry with hsome | ⟨rfl, -, hactive⟩
    · exact .inl ⟨call, hold, hsome⟩
    · refine .inr ⟨call, rfl, hold, hold.key ▸ hactive, ?_⟩
      cases h with
      | wait hcall hphase hlock hactive' =>
          rw [hold.here, Option.some_inj] at hcall
          rw [← hcall, hactive] at hactive'
          cases hactive'
      | own hcall =>
          rw [hold.here, Option.some_inj] at hcall
          rw [← hold.key, hcall]
          rfl
      | advance hcall hadv => cases hadv
      | fail hcall hlock hentry hfail => cases hfail
      | lease he => rcases he with ⟨id, he⟩ | ⟨id, he⟩ <;> cases he
      | recovering hrec => cases hrec

/-- INTERNAL: a smooth step is no restart. -/
theorem sameProcess_of_smooth (hs : Smooth k w e) : isRestart e = false := by
  cases e with
  | restart p => exact hs.elim
  | _ => rfl

/-- INTERNAL: a smooth step invalidates nothing of the key. -/
theorem not_invalidation_of_smooth (hs : Smooth k w e) : isInvalidation e = false := by
  cases e with
  | invalidate a => exact hs.elim
  | _ => rfl

/-- INTERNAL: a smooth step leaves the toolchain generation alone. -/
theorem not_toolchainInvalidation_of_smooth (hs : Smooth k w e) :
    isToolchainInvalidation e = false := by
  cases e with
  | invalidate a => exact hs.elim
  | _ => rfl

/-- The in-flight entries change when a call takes the ownership. -/
theorem inflight_cases (hsame : isRestart e = false) (h : Transition H w e w') :
    w'.impl.inflight = w.impl.inflight ∨ ∃ c call, e = .join c ∧ w.calls c = some call ∧
      call.phase = .missed ∧ w.activeOwner call.key = none ∧
      w'.impl.inflight = w.impl.inflight.insert call.key c := by
  cases h with
  | own hcall hphase hlock hactive => exact .inr ⟨_, _, rfl, hcall, hphase, hactive, rfl⟩
  | write hcall hphase hwrite => cases hwrite <;> exact .inl rfl
  | restart => cases hsame
  | _ => exact .inl rfl

/-- An entry stays in the cache, though it may change. -/
theorem cached_mono (hsame : isRestart e = false) (h : Transition H w e w')
    (hcache : w.impl.cache[k]? ≠ none) : w'.impl.cache[k]? ≠ none := by
  cases h with
  | hit =>
      change (w.impl.cache.insert _ _)[k]? ≠ none
      rw [Std.ExtTreeMap.getElem?_insert]
      split
      · exact Option.some_ne_none _
      · exact hcache
  | publish =>
      change (w.impl.cache.insert _ _)[k]? ≠ none
      rw [Std.ExtTreeMap.getElem?_insert]
      split
      · exact Option.some_ne_none _
      · exact hcache
  | invalidate =>
      change (w.impl.cache.map _)[k]? ≠ none
      rwa [Std.ExtTreeMap.getElem?_map, Ne, Option.map_eq_none_iff]
  | supersede =>
      change (w.impl.cache.map _)[k]? ≠ none
      rwa [Std.ExtTreeMap.getElem?_map, Ne, Option.map_eq_none_iff]
  | recoverInsert =>
      change (recoveredCache w _)[k]? ≠ none
      rw [getElem?_recoveredCache, Ne, Option.map_eq_none_iff, Option.or_eq_none_iff]
      exact fun h => hcache h.2
  | write hcall hphase hwrite => cases hwrite <;> exact hcache
  | restart => cases hsame
  | _ => exact hcache

/-! ## The owner -/

namespace Flight

/-- A call that is not through is a started one. -/
theorem since_of_phase (hf : Flight k w₀ w) (hcall : w.calls c = some call) (hkey : call.key = k)
    (hphase : ∀ s r, call.phase ≠ .returned s r) : Started k w₀ w c call := by
  refine ⟨?_, hcall, hkey⟩
  by_contra hlt
  obtain ⟨s, r, hreturned⟩ := hf.settled c call (not_le.mp hlt) hcall hkey
  exact hphase s r hreturned

/-- An owner whose entry is done has committed, and its artifact is in the cache. -/
theorem cached_of_done (hf : Flight k w₀ w) (hh : History H w) (hs : Started k w₀ w c call)
    {entry : InflightEntry} {r : Result CompilationResult} (hentry : call.entry = some entry)
    (hdone : entry.outcome = some r) : w.impl.cache[k]? ≠ none := by
  have hcoherent := hh.wellFormed.coherent c call hs.here
  rw [hentry] at hcoherent
  have hphase := coherent_done hcoherent hdone
  obtain ⟨res, rfl⟩ := hf.answers c call _ r hs hphase
  obtain ⟨m, hm, hmc, hkey, -⟩ := hh.recorded.owned c call res hs.here hphase
  exact hf.kept m hm (hkey.trans hs.key) (hmc ▸ hs.since)

/-- When nobody is to be waited for and nothing is cached, nobody has owned an entry. -/
theorem no_owner (hf : Flight k w₀ w) (hh : History H w) (hactive : w.activeOwner k = none)
    (hcache : w.impl.cache[k]? = none) (hs : Started k w₀ w c call) : call.entry = none := by
  cases hentry : call.entry with
  | none => rfl
  | some entry =>
      have hinflight := hf.inflight c call hs (by rw [hentry]; rfl)
      cases hdone : entry.outcome with
      | some r => exact absurd hcache (hf.cached_of_done hh hs hentry hdone)
      | none =>
          simp [World.activeOwner, hinflight, hs.here, hentry, hdone] at hactive

/-- INTERNAL: one step keeps the owners of the key to one. -/
theorem owners_step (hf : Flight k w₀ w) (hh : History H w) (h : Transition H w e w')
    (howns : OwnsUncached k w e) :
    ∀ c d u x, Started k w₀ w' c u → Started k w₀ w' d x → u.entry.isSome → x.entry.isSome →
      c = d := by
  intro c d u x hu hx hentry hentry'
  -- a call that takes the ownership is the first to do so
  have hfirst : ∀ {c call d x}, e = .join c → Started k w₀ w c call → w.activeOwner k = none →
      Started k w₀ w d x → ¬ x.entry.isSome := by
    rintro c call d x rfl hs hactive hx hsome
    rw [hf.no_owner hh hactive (howns call hs.here hs.key hactive) hx] at hsome
    cases hsome
  rcases owner_before h hu hentry with ⟨u₀, hu₀, hsome⟩ | ⟨u₀, he, hu₀, hactive, -⟩ <;>
    rcases owner_before h hx hentry' with ⟨x₀, hx₀, hsome'⟩ | ⟨x₀, he', hx₀, hactive', -⟩
  · exact hf.owners c d u₀ x₀ hu₀ hx₀ hsome hsome'
  · exact absurd hsome (hfirst he' hx₀ hactive' hu₀)
  · exact absurd hsome' (hfirst he hu₀ hactive hx₀)
  · exact Event.join.inj (he.symm.trans he')

/-- INTERNAL: one step keeps the owner listed under the key. -/
theorem inflight_step (hf : Flight k w₀ w) (hh : History H w) (h : Transition H w e w')
    (hsame : isRestart e = false) (howns : OwnsUncached k w e) :
    ∀ c u, Started k w₀ w' c u → u.entry.isSome → w'.impl.inflight[k]? = some c := by
  intro c u hu hentry
  rcases owner_before h hu hentry with ⟨u₀, hu₀, hsome⟩ | ⟨u₀, -, -, -, heq⟩
  · have hold := hf.inflight c u₀ hu₀ hsome
    rcases inflight_cases hsame h with heq | ⟨d, x, rfl, hx, hphase, hactive, heq⟩
    · rw [heq, hold]
    · rw [heq, Std.ExtTreeMap.getElem?_insert]
      split
      · next hk =>
        -- the new owner would be of the same key
        have hkey := Std.LawfulEqOrd.compare_eq_iff_eq.mp hk
        rw [hkey] at hactive
        rw [hf.no_owner hh hactive (howns x hx hkey hactive) hu₀] at hsome
        cases hsome
      · exact hold
  · rw [heq]
    exact Std.ExtTreeMap.getElem?_insert_self

/-- INTERNAL: the earlier calls stay where they have returned. -/
theorem settled_step (hf : Flight k w₀ w) (hw : WellFormed w) (h : Transition H w e w') :
    ∀ c call, c < w₀.nextCall → w'.calls c = some call → call.key = k →
      ∃ s r, call.phase = .returned s r := by
  intro c call' hc hcall' hkey
  rcases (callsStep_of_transition h).call_cases hcall' with hold | ⟨rfl, -⟩ | ⟨call, hcall, hmoved⟩
  · exact hf.settled c call' hc hold hkey
  · exact absurd hc (not_lt.mpr hf.next)
  · obtain ⟨s, r, hreturned⟩ := hf.settled c call hc hcall (hmoved.key.symm.trans hkey)
    exact ⟨s, r, (hmoved.later (hw.coherent c call hcall)).returned s r hreturned⟩

/-- INTERNAL: one step commits the key for a started call only. -/
theorem commits_step (hf : Flight k w₀ w) (hw : WellFormed w) (h : Transition H w e w')
    (hsame : isRestart e = false) :
    ∀ m ∈ w'.log, m.key = k → m ∈ w₀.log ∨ ∃ call, Started k w₀ w' m.call call := by
  intro m hm hkey
  have hold : m ∈ w.log → m ∈ w₀.log ∨ ∃ call, Started k w₀ w' m.call call := fun hm =>
    (hf.commits m hm hkey).imp_right fun ⟨_, hs⟩ => hs.later hw h hsame
  rcases log_cases h with heq | ⟨c, call, v, -, hcall, hphase, rfl⟩
  · exact hold (heq ▸ hm)
  · rcases List.mem_cons.mp hm with rfl | hm
    · have hs := hf.since_of_phase hcall hkey fun s r hr => nomatch hphase.symm.trans hr
      exact .inr (hs.later hw h hsame)
    · exact hold hm

/-- INTERNAL: a smooth step leaves the owners' generations current. -/
theorem current_step (hf : Flight k w₀ w) (h : Transition H w e w') (hs : Smooth k w e) :
    ∀ c u entry, Started k w₀ w' c u → u.entry = some entry →
      entry.baseCacheGen = w'.impl.cacheGen ∧
      entry.baseToolchainGen = w'.impl.toolchainGen := by
  intro c u' entry' hu' hentry'
  have hcache : w'.impl.cacheGen = w.impl.cacheGen := by
    rw [cacheGen_step (sameProcess_of_smooth hs) h, not_invalidation_of_smooth hs]
    rfl
  have htoolchain : w'.impl.toolchainGen = w.impl.toolchainGen := by
    rw [toolchainGen_step (sameProcess_of_smooth hs) h, not_toolchainInvalidation_of_smooth hs]
    rfl
  rw [hcache, htoolchain]
  rcases started_cases h hu' with hold | hnew | ⟨u, hu, hmoved⟩
  · exact hf.current c u' entry' hold hentry'
  · cases hnew <;> cases hentry'
  · cases hmoved with
    | own => cases hentry'; exact ⟨rfl, rfl⟩
    | @fail entry failure e hentry => cases hentry'; exact hf.current c u entry hu hentry
    | @complete v entry hphase hentry => cases hentry'; exact hf.current c u entry hu hentry
    | _ => exact hf.current c u entry' hu hentry'

/-- INTERNAL: a smooth step leaves every started call its backend. -/
theorem backend_step (hf : Flight k w₀ w) (h : Transition H w e w') (hs : Smooth k w e) :
    ∀ c u, Started k w₀ w' c u →
      (w'.process.host.backends w'.process.config).contains u.plan.backend = true := by
  intro c u' hu'
  rw [process_step (sameProcess_of_smooth hs) h]
  rcases started_cases h hu' with hold | hnew | ⟨u, hu, hmoved⟩
  · exact hf.backend c u' hold
  · cases hnew with
    | miss hplan hmiss => exact hs _ hplan hu'.key
    | hit hplan => exact hs _ hplan hu'.key
  · rw [hmoved.plan]
    exact hf.backend c u hu

/-- An owner of the key does not give up. -/
theorem not_fails (hf : Flight k w₀ w) (hu : Started k w₀ w c call) (hs : Smooth k w e)
    {f : Failure} : ¬ Fails w c call e f := by
  intro hfail
  cases hfail with
  | noBackend hphase hbackend => exact hbackend (hf.backend c call hu)
  | incompatible hphase => cases hs call hu.here hu.key
  | build hphase hbuild =>
      obtain ⟨b, hb⟩ := hs call hu.here hu.key
      rw [hb] at hbuild
      cases hbuild
  | validation hphase =>
      obtain ⟨vd, hvd, -⟩ := hs call hu.here hu.key
      cases hvd
  | notPassed hphase hpassed =>
      obtain ⟨vd, hvd, hp⟩ := hs call hu.here hu.key
      cases hvd
      rw [hp] at hpassed
      cases hpassed
  | stale hphase hentry hstale =>
      obtain ⟨hcache, htoolchain⟩ := hf.current c call _ hu hentry
      exact hstale.elim (fun h => h hcache) fun h => h htoolchain

/-- INTERNAL: a smooth step answers a started call with a result. -/
theorem answers_step (hf : Flight k w₀ w) (hw : WellFormed w) (h : Transition H w e w')
    (hs : Smooth k w e) :
    ∀ c u s r, Started k w₀ w' c u → u.phase = .returned s r → ∃ res, r = .ok res := by
  intro c u' s r hu' hphase'
  rcases started_cases h hu' with hold | hnew | ⟨u, hu, hmoved⟩
  · exact hf.answers c u' s r hold hphase'
  · cases hnew with
    | miss hplan hmiss => cases hmiss <;> cases hphase'
    | hit => cases hphase'; exact ⟨_, rfl⟩
  · cases hmoved.returnsBy hphase' with
    | wake hphase howner hentry hdone =>
        obtain ⟨owner, ho⟩ := hf.sources c u _ hu (by rw [hphase]; rfl)
        rw [ho.here, Option.some_inj] at howner
        subst howner
        have hcoherent := hw.coherent _ owner ho.here
        rw [hentry] at hcoherent
        exact hf.answers _ owner _ _ ho (coherent_done hcoherent hdone)
    | fail hentry hfail => exact absurd hfail (hf.not_fails hu hs)
    | complete => exact ⟨_, rfl⟩

/-- INTERNAL: a smooth step lets no started call throw. -/
theorem runs_step (hf : Flight k w₀ w) (hr : Recorded H w) (h : Transition H w e w')
    (hs : Smooth k w e) : ∀ c u, Started k w₀ w' c u → u.phase ≠ .raised := by
  intro c u' hu' hphase'
  rcases started_cases h hu' with hold | hnew | ⟨u, hu, hmoved⟩
  · exact hf.runs c u' hold hphase'
  · cases hnew with
    | hit => cases hphase'
    | miss hplan hmiss =>
        cases hmiss with
        | missed => cases hphase'
        | raised he hraised =>
            obtain ⟨m, -, hof⟩ := hr.cache _ _ he
            rw [fastPath_of_deployable hof.key (hf.cached _ (hu'.key ▸ he)).1] at hraised
            cases hraised
  · cases hmoved with
    | advance hadv =>
        cases hadv with
        | raised hphase => exact hs u hu.here hu.key
        | _ => cases hphase'
    | publish hphase =>
        dsimp only at hphase'
        split at hphase' <;> cases hphase'
    | _ => cases hphase'

/-- INTERNAL: a smooth step leaves the key's entry deployable, and that of a started call. -/
theorem cached_step (hf : Flight k w₀ w) (hh : History H w) (h : Transition H w e w')
    (hs : Smooth k w e) : ∀ entry, w'.impl.cache[k]? = some entry →
      entry.descriptor.state = ascii "Deployable" ∧
      ∃ owner, Started k w₀ w' entry.origin owner := by
  intro entry hentry
  have hlater : ∀ {c call}, Started k w₀ w c call → ∃ call, Started k w₀ w' c call :=
    fun hs' => hs'.later hh.wellFormed h (sameProcess_of_smooth hs)
  have hold : ∀ e₀, w.impl.cache[k]? = some e₀ → e₀.descriptor.state = ascii "Deployable" ∧
      ∃ owner, Started k w₀ w' e₀.origin owner := fun e₀ he₀ =>
    (hf.cached e₀ he₀).imp_right fun ⟨_, ho⟩ => hlater ho
  cases cacheStep_of_transition h hentry with
  | kept he₀ => exact hold entry he₀
  | @touched _ _ e₀ _ he₀ => exact hold e₀ he₀
  | @published c call v hcall hphase hkey =>
      have hstarted := hf.since_of_phase hcall hkey fun s r hr => nomatch hphase.symm.trans hr
      exact ⟨(hh.recorded.carried c call v hcall (by rw [hphase]; rfl)).2.state,
        hlater hstarted⟩
  | invalidated => exact hs.elim
  | passed => exact hs.elim
  | superseded => exact hs.elim
  | unloaded => exact hs.elim
  | recovered => exact hs.elim

/-- INTERNAL: one step leaves an artifact of the key in the cache once it is committed. -/
theorem kept_step (hf : Flight k w₀ w) (h : Transition H w e w') (hsame : isRestart e = false) :
    ∀ m ∈ w'.log, m.key = k → w₀.nextCall ≤ m.call → w'.impl.cache[k]? ≠ none := by
  intro m hm hkey hsince
  rcases log_cases h with heq | ⟨c, call, v, -, -, -, rfl⟩
  · exact cached_mono hsame h (hf.kept m (heq ▸ hm) hkey hsince)
  · rcases List.mem_cons.mp hm with rfl | hm
    · change (w.impl.cache.insert _ _)[k]? ≠ none
      rw [show call.key = k from hkey, Std.ExtTreeMap.getElem?_insert_self]
      exact Option.some_ne_none _
    · exact cached_mono hsame h (hf.kept m hm hkey hsince)

/-- INTERNAL: one step serves a started call from a started call only. -/
theorem sources_step (hf : Flight k w₀ w) (hw : WellFormed w) (h : Transition H w e w')
    (hsame : isRestart e = false) :
    ∀ c u o, Started k w₀ w' c u → servedBy u.phase = some o →
      ∃ owner, Started k w₀ w' o owner := by
  intro c u' o hu' hserved
  suffices hbefore : ∃ owner, Started k w₀ w o owner from
    hbefore.elim fun owner ho => ho.later hw h hsame
  rcases started_cases h hu' with hold | hnew | ⟨u, hu, hmoved⟩
  · exact hf.sources c u' o hold hserved
  · cases hnew with
    | miss hplan hmiss => cases hmiss <;> cases hserved
    | hit hplan he => cases hserved; exact (hf.cached _ (hu'.key ▸ he)).2
  · cases hmoved with
    | wait hphase hactive =>
        cases hserved
        -- an earlier owner has returned, and its entry is done
        obtain ⟨hinflight, owner, entry, howner, hentry, hnone⟩ :=
          WellFormed.activeOwner_eq_some hactive
        obtain ⟨owner', howner', -, hkey⟩ := hw.inflight _ _ hinflight
        rw [howner, Option.some_inj] at howner'
        subst howner'
        refine ⟨owner, hf.since_of_phase howner (hkey.trans hu.key) fun s r hreturned => ?_⟩
        have hcoherent := hw.coherent _ owner howner
        rw [hreturned, hentry] at hcoherent
        rw [coherent_returned hcoherent] at hnone
        cases hnone
    | wake hphase => exact hf.sources c u o hu (by rw [hphase]; exact hserved)
    | advance hadv => cases hadv <;> cases hserved
    | publish hphase =>
        dsimp only at hserved
        split at hserved <;> cases hserved
    | _ => cases hserved

/-- A smooth step keeps the invariant. -/
theorem step (hf : Flight k w₀ w) (hh : History H w) (h : Transition H w e w')
    (hs : Smooth k w e) (howns : OwnsUncached k w e) : Flight k w₀ w' where
  next := hf.next.trans (nextCall_mono h)
  settled := hf.settled_step hh.wellFormed h
  commits := hf.commits_step hh.wellFormed h (sameProcess_of_smooth hs)
  owners := hf.owners_step hh h howns
  inflight := hf.inflight_step hh h (sameProcess_of_smooth hs) howns
  current := hf.current_step h hs
  backend := hf.backend_step h hs
  answers := hf.answers_step hh.wellFormed h hs
  runs := hf.runs_step hh.recorded h hs
  sources := hf.sources_step hh.wellFormed h (sameProcess_of_smooth hs)
  cached := hf.cached_step hh h hs
  kept := hf.kept_step h (sameProcess_of_smooth hs)

end Flight

end CompilationFabric.Interface
