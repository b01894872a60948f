import CompilationFabric.Interface.FabricFlight
import CompilationFabric.Interface.FabricProgress
import CompilationFabric.Interface.FabricSequential

/-!
# Published artifacts are stable

What a compile has returned in a sequential run is what every later compile under the key returns,
from the cache.  The entry that the result was made from is in the cache when the call returns.  No
call under the key gets past its lookup after that, so nobody commits over the entry; a hit only
changes when and how often the artifact was used.
-/

set_option autoImplicit false

namespace CompilationFabric.Analysis

open CompilationFabric.Library.TransitionSystem
open CompilationFabric.Model
open CompilationFabric.Interface

variable {H : Bytes → Digest} {w w' : World} {e : Event} {es : List Event} {c : CallId}
  {call : Call} {res : CompilationResult} {k : CompilationKey} {entry : CacheEntry}

/-! ## The property -/

/-- A compile of the process returns a result in the step from `w` to `w'`. -/
structure ReturnsOk (w w' : World) (c : CallId) (call : Call) (res : CompilationResult) :
    Prop where
  before : ∀ u, w.calls c = some u → busy u.phase = true
  here : w'.calls c = some call
  result : ∃ served, call.phase = .returned served (.ok res)

/-- The artifact is not invalidated or superseded, nothing is recovered, and the process goes on. -/
def LeavesAlone (id : ArtifactId) (_ : World) : Event → Prop
  | .invalidate _ | .recover _ | .restart _ => False
  | .supersede id' _ => id' ≠ id
  | _ => True

/-- Two results are of the same artifact. -/
structure SameArtifact (res res' : CompilationResult) : Prop where
  artifactId : res'.artifactId = res.artifactId
  generation : res'.generation = res.generation
  contentDigest : res'.artifact.contentDigest = res.artifact.contentDigest
  bytes : res'.artifactBytes = res.artifactBytes

/-! ## The entry of a result -/

/-- The cache serves the artifact of the result from the entry. -/
structure Offers (k : CompilationKey) (res : CompilationResult) (entry : CacheEntry) : Prop where
  key : entry.key = k
  state : entry.descriptor.state = ascii "Deployable"
  artifactId : entry.descriptor.id = res.artifactId
  generation : entry.descriptor.generation = res.generation
  contentDigest : entry.descriptor.contentDigest = res.artifact.contentDigest
  bytes : entry.bytes = res.artifactBytes

/-- INTERNAL: touching an entry leaves what it offers. -/
theorem Offers.touch (h : Offers k res entry) (now : Int64) : Offers k res (entry.touch now) :=
  ⟨h.key, h.state, h.artifactId, h.generation, h.contentDigest, h.bytes⟩

/-- The cache offers the artifact of the result, and no call under the key is busy. -/
structure Settled (k : CompilationKey) (res : CompilationResult) (w : World) : Prop where
  entry : ∃ entry, w.impl.cache[k]? = some entry ∧ Offers k res entry
  calls : ∀ d u, w.calls d = some u → u.key = k → busy u.phase = false
  recoveries : ∀ t, w.recoveries t = none

/-- Nobody holds the lock when nothing is under way. -/
theorem lock_of_idle (hw : WellFormed w) (hidle : Idle w) : w.impl.lock = none := by
  apply Option.eq_none_iff_forall_ne_some.mpr
  intro c hlock
  obtain ⟨call, hcall, hstoring⟩ := (hw.lock c).mp hlock
  have hover := hidle.calls c call hcall
  cases hphase : call.phase with
  | storing v stage => rw [hphase] at hover; cases hover
  | _ => rw [hphase] at hstoring; cases hstoring

/-! ## When a call returns -/

/-- Whoever returns a result was busy before, or is a new call. -/
theorem ReturnsOk.busy_or_new (h : Transition H w e w') (hret : ReturnsOk w w' c call res) :
    (∃ u, w.calls c = some u ∧ busy u.phase = true ∧ Moved H w c u e call) ∨
      c = w.nextCall ∧ Entered H w e call := by
  rcases (callsStep_of_transition h).call_cases hret.here with hold | hnew | ⟨u, hu, hmoved⟩
  · obtain ⟨served, hphase⟩ := hret.result
    have hbusy := hret.before call hold
    rw [hphase] at hbusy
    cases hbusy
  · exact .inr hnew
  · exact .inl ⟨u, hu, hret.before u hu, hmoved⟩

/-- Nothing is under way when a call has returned. -/
theorem idle_of_returnsOk (ho : OneAtATime w) (h : Transition H w e w') (hseq : Sequential w e)
    (hret : ReturnsOk w w' c call res) : Idle w' := by
  obtain ⟨served, hphase⟩ := hret.result
  have hover : ¬ busy call.phase = true := by
    rw [hphase]
    exact Bool.false_ne_true
  have hnew : ∀ {u}, Entered H w e u → Idle w ∧ ∀ names, e ≠ .recover names := by
    intro u henter
    cases henter <;> exact ⟨hseq rfl, nofun⟩
  constructor
  · intro d u hu
    by_contra hbusy
    have hbusy := Bool.eq_true_of_not_eq_false hbusy
    have hne : c ≠ d := by
      rintro rfl
      rw [hret.here, Option.some_inj] at hu
      exact hover (hu ▸ hbusy)
    rcases hret.busy_or_new h with ⟨x, hx, hbx, -⟩ | ⟨hc, henter⟩
    · rcases busy_before h hseq hu hbusy with ⟨y, hy, hby⟩ | ⟨-, hidle, -⟩
      · exact hne (ho.one c d x y hx hy hbx hby)
      · rw [hidle.calls c x hx] at hbx
        cases hbx
    · rcases busy_before h hseq hu hbusy with ⟨y, hy, hby⟩ | ⟨hd, -⟩
      · rw [(hnew henter).1.calls d y hy] at hby
        cases hby
      · exact hne (hc.trans hd.symm)
  · intro t
    apply Option.eq_none_iff_forall_ne_some.mpr
    intro p hp
    rcases hret.busy_or_new h with ⟨x, hx, hbx, -⟩ | ⟨-, henter⟩
    · rcases recovery_before h hp with ⟨s, q, hq⟩ | ⟨names, rfl⟩
      · rw [ho.quiet c x hx hbx] at hq
        cases hq
      · rw [(hseq rfl).calls c x hx] at hbx
        cases hbx
    · obtain ⟨hidle, hnot⟩ := hnew henter
      rcases recovery_before h hp with ⟨s, q, hq⟩ | ⟨names, hrecover⟩
      · rw [hidle.recoveries] at hq
        cases hq
      · exact hnot names hrecover

/-- The artifact that a call returns is in the cache then. -/
theorem offers_of_returnsOk (hw : WellFormed w) (hr : Recorded H w) (ho : OneAtATime w)
    (h : step H w e = some w') (hseq : Sequential w e) (hret : ReturnsOk w w' c call res) :
    ∃ entry, w'.impl.cache[call.key]? = some entry ∧ Offers call.key res entry := by
  obtain ⟨served, hphase⟩ := hret.result
  have ht := transition_of_step h
  rcases hret.busy_or_new ht with ⟨u, hu, hbusy, hmoved⟩ | ⟨-, henter⟩
  · have hkey := hmoved.key
    cases hmoved with
    | wake hwaiting howner hentry hdone =>
        -- the owner was left by an exception, so its entry is never done
        obtain ⟨owner, howner', hraised⟩ := ho.waits c u _ hu hwaiting
        rw [howner, Option.some_inj] at howner'
        subst howner'
        have hcoherent := hw.coherent _ _ howner
        rw [hraised] at hcoherent
        rw [hcoherent _ hentry] at hdone
        cases hdone
    | complete hcommitted hentry =>
        cases hphase
        obtain ⟨entry, he, hek, hdescriptor, hbytes⟩ :=
          ho.cached c u _ hu (by rw [hcommitted]; rfl)
        obtain ⟨hdesc, heligible⟩ := hr.carried c u _ hu (by rw [hcommitted]; rfl)
        rcases ho.cache_of_busy ht hseq rfl hu hbusy with heq | ⟨v', hvalidated, -⟩
        · refine ⟨entry, by rw [heq]; exact he, hek, ?_, ?_, ?_, ?_, hbytes⟩
          · rw [hdescriptor]
            exact heligible.state
          · rw [hdescriptor]
            rfl
          · rw [hdescriptor]
            rfl
          · rw [hdescriptor]
            rfl
        · rw [hcommitted] at hvalidated
          cases hvalidated
    | advance hadv => cases hadv <;> cases hphase
    | publish =>
        dsimp only at hphase
        split at hphase <;> cases hphase
    | _ => cases hphase
  · cases henter with
    | miss hplan hmiss => cases hmiss <;> cases hphase
    | @hit request n now p entry outcome hplan he hfast =>
        cases hphase
        rw [compile_of_hit hplan (lock_of_idle hw (hseq rfl)) he hfast, Option.some_inj] at h
        subst h
        obtain ⟨m, -, hof⟩ := hr.cache _ entry he
        exact ⟨entry.touch now, Std.ExtTreeMap.getElem?_insert_self, hof.key,
          (fastPath_eq_some hfast).1, rfl, rfl, rfl, rfl⟩

/-- A call that returns leaves its result settled. -/
theorem settled_of_returnsOk (hw : WellFormed w) (hr : Recorded H w) (ho : OneAtATime w)
    (h : step H w e = some w') (hseq : Sequential w e) (hret : ReturnsOk w w' c call res) :
    Settled call.key res w' := by
  have hidle := idle_of_returnsOk ho (transition_of_step h) hseq hret
  exact ⟨offers_of_returnsOk hw hr ho h hseq hret, fun d u hu _ => hidle.calls d u hu,
    hidle.recoveries⟩

/-! ## From then on -/

namespace Settled

/-- INTERNAL: a step that leaves the artifact alone keeps its entry. -/
theorem entry_step (hs : Settled k res w) (h : Transition H w e w')
    (halone : LeavesAlone res.artifactId w e) :
    ∃ entry, w'.impl.cache[k]? = some entry ∧ Offers k res entry := by
  obtain ⟨entry, hentry, hoffers⟩ := hs.entry
  cases h with
  | @hit request n now p e₀ outcome hplan hlock he₀ hfast =>
      change ∃ entry, (w.impl.cache.insert _ _)[k]? = some entry ∧ _
      rw [Std.ExtTreeMap.getElem?_insert]
      split
      · next hk =>
        rw [Std.LawfulEqOrd.compare_eq_iff_eq.mp hk, hentry, Option.some_inj] at he₀
        subst he₀
        exact ⟨_, rfl, hoffers.touch now⟩
      · exact ⟨entry, hentry, hoffers⟩
  | @publish c u v entry' hcall hphase =>
      change ∃ entry, (w.impl.cache.insert _ _)[k]? = some entry ∧ _
      rw [Std.ExtTreeMap.getElem?_insert]
      split
      · next hk =>
        -- a call under the key does not get there
        have hover := hs.calls c u hcall (Std.LawfulEqOrd.compare_eq_iff_eq.mp hk)
        rw [hphase] at hover
        cases hover
      · exact ⟨entry, hentry, hoffers⟩
  | invalidate => exact halone.elim
  | @supersede id gen =>
      change ∃ entry, (w.impl.cache.map _)[k]? = some entry ∧ _
      rw [Std.ExtTreeMap.getElem?_map, hentry, Option.map_some]
      have hne : ¬ (entry.descriptor.id = id ∧ entry.descriptor.generation < gen) := by
        rintro ⟨hid, -⟩
        exact halone (hid.symm.trans hoffers.artifactId)
      rw [if_neg hne]
      exact ⟨entry, rfl, hoffers⟩
  | recoverInsert hlock hphase =>
      rw [hs.recoveries] at hphase
      cases hphase
  | restart => exact halone.elim
  | write hcall hphase hwrite => cases hwrite <;> exact ⟨entry, hentry, hoffers⟩
  | _ => exact ⟨entry, hentry, hoffers⟩

/-- A compile under the key is served from the cache. -/
theorem calls_step (hs : Settled k res w) (h : Transition H w e w') :
    ∀ d u, w'.calls d = some u → u.key = k → busy u.phase = false := by
  intro d u' hu' hkey
  rcases (callsStep_of_transition h).call_cases hu' with hold | ⟨-, hnew⟩ | ⟨u, hu, hmoved⟩
  · exact hs.calls d u' hold hkey
  · cases hnew with
    | miss hplan hmiss =>
        cases hmiss with
        | missed hnone =>
            obtain ⟨entry, hentry, hoffers⟩ := hs.entry
            rw [← hkey] at hentry hoffers
            have hfast := hnone entry hentry
            rw [fastPath_of_deployable hoffers.key hoffers.state] at hfast
            cases hfast
        | raised => rfl
    | hit => rfl
  · have hover := hs.calls d u hu (hmoved.key ▸ hkey)
    rw [hmoved.busy_before] at hover
    cases hover

/-- A step that leaves the artifact alone keeps it settled. -/
theorem step (hs : Settled k res w) (h : Transition H w e w')
    (halone : LeavesAlone res.artifactId w e) : Settled k res w' where
  entry := hs.entry_step h halone
  calls := hs.calls_step h
  recoveries t := by
    apply Option.eq_none_iff_forall_ne_some.mpr
    intro p hp
    rcases recovery_before h hp with ⟨s, q, hq⟩ | ⟨names, rfl⟩
    · rw [hs.recoveries] at hq
      cases hq
    · exact halone

end Settled

/-- What a call has returned under a key is what every later compile under the key returns, as long
as nobody invalidates, supersedes or recovers.
SOURCE: Fabric.cpp:217-250, 397-420 -/
theorem published_stable (H : Bytes → Digest) (q : Process) (before after : List Event) (e : Event)
    (w₀ w₁ w₂ : World) (c : CallId) (call : Call) (res : CompilationResult)
    (request : CompilationRequest) (n : UInt64) (now : Int64) (p : CompilationPlan)
    (hseq : Meets (step H) Sequential { process := q }
      (before ++ e :: (after ++ [.compile request n now])))
    (hbefore : exec (step H) { process := q } before = some w₀) (hstep : step H w₀ e = some w₁)
    (hreturns : ReturnsOk w₀ w₁ c call res) (hafter : exec (step H) w₁ after = some w₂)
    (halone : Meets (step H) (LeavesAlone res.artifactId) w₁ after)
    (hplan : plan w₂.process.host w₂.process.config n now request = .ok p)
    (hkey : World.compileKey w₂.process request p = call.key) :
    ∃ w₃ o res', step H w₂ (.compile request n now) = some w₃ ∧
      returned w₃ w₂.nextCall = some (.cache o, .ok res') ∧ res'.reused = true ∧
      SameArtifact res res' := by
  have hrest := hseq.append_right hbefore
  have hlast : Sequential w₂ (.compile request n now) := ((hrest.2 w₁ hstep).append_right hafter).1
  have hw₀ := wellFormed_exec (.init q) hbefore
  have hw₂ := wellFormed_exec (hw₀.step (transition_of_step hstep)) hafter
  have hsettled : Settled call.key res w₁ :=
    settled_of_returnsOk hw₀ (recorded_exec q hbefore).2 (oneAtATime_exec q hseq.append_left hbefore)
      hstep hrest.1 hreturns
  have hlater : Settled call.key res w₂ :=
    exec_induction (fun _ _ _ ha hu hs => hs.step (transition_of_step hu) ha) halone hafter hsettled
  obtain ⟨entry, hentry, hoffers⟩ := hlater.entry
  rw [← hkey] at hentry hoffers
  have hfast := fastPath_of_deployable hoffers.key hoffers.state
    w₂.process.config.compatibilityPolicy
  refine ⟨_, entry.origin, _, compile_of_hit hplan (lock_of_idle hw₂ (hlast rfl)) hentry hfast,
    returned_eq_some.mpr ⟨_, Function.update_self .., rfl⟩, rfl, ?_⟩
  exact ⟨hoffers.artifactId, hoffers.generation, hoffers.contentDigest, hoffers.bytes⟩

/-- The checks of a sequential run without a recovery. -/
theorem sequential_of_checks (q : Process) (hchecks : checks (step H) (fun w e =>
      (match e with | .recover _ => false | _ => true) &&
        (!starts e || allCalls w fun call => !busy call.phase)) { process := q } es = true)
    (h : exec (step H) { process := q } es = some w) :
    Meets (step H) Sequential { process := q } es := by
  refine Meets.of_invariant (P := fun w e => (∀ names, e ≠ .recover names) ∧
      (starts e = true → allCalls w (fun call => !busy call.phase) = true))
    (I := fun u => WellFormed u ∧ ∀ t, u.recoveries t = none) ?_ ?_ ?_ ⟨.init q, fun _ => rfl⟩ h
  · refine meets_of_checks (fun u e hcheck => ?_) hchecks
    rw [Bool.and_eq_true] at hcheck
    refine ⟨?_, fun hstarts => ?_⟩
    · rintro names rfl
      cases hcheck.1
    · have hrest := hcheck.2
      rwa [hstarts] at hrest
  · rintro u e u' ⟨hnot, -⟩ hu ⟨hw, hnone⟩
    refine ⟨hw.step (transition_of_step hu), fun t => Option.eq_none_iff_forall_ne_some.mpr ?_⟩
    intro p hp
    rcases recovery_before (transition_of_step hu) hp with ⟨s, r, hr⟩ | ⟨names, he⟩
    · rw [hnone] at hr
      cases hr
    · exact hnot names he
  · rintro u e u' ⟨-, hcheck⟩ - ⟨hw, hnone⟩ hstarts
    refine ⟨fun c call hcall => ?_, hnone⟩
    have hover := hw.of_allCalls (hcheck hstarts) hcall
    rwa [Bool.not_eq_true'] at hover

/-- A compile up to its last step. -/
def publishedOnce : List Event :=
  [.compile {} 1 0, .join 0] ++ ownerSteps 0 { executable := [1] } ++ [.commit 0]

/-- Its artifact is leased, a compile of another key fails, and another artifact is superseded. -/
def inBetween : List Event :=
  [.acquire (.fromU64 2), .compile { source := [1] } 2 0, .join 1,
    .check 1 (.error ⟨.TargetUnsupported, []⟩), .supersede (.fromU64 9) 5]

/-- INTERNAL: the steps in between leave the artifact alone. -/
theorem leavesAlone_inBetween (w : World) :
    Meets (step H) (LeavesAlone (.fromU64 2)) w inBetween := by
  have hother : (TypedId.fromU64 9 : ArtifactId) ≠ .fromU64 2 := by decide
  unfold inBetween
  exact ⟨trivial, fun _ _ => ⟨trivial, fun _ _ => ⟨trivial, fun _ _ => ⟨trivial, fun _ _ =>
    ⟨hother, fun _ _ => trivial⟩⟩⟩⟩⟩

/-- Between two compiles of a key a compile of another one fails. -/
theorem published_stable_once : ∃ (w₂ w₃ : World) (o : CallId) (res res' : CompilationResult),
    step (fun _ => .zero) w₂ (.compile {} 3 7) = some w₃ ∧
      returned w₃ w₂.nextCall = some (.cache o, .ok res') ∧ res'.reused = true ∧
      SameArtifact res res' := by
  let H : Bytes → Digest := fun _ => .zero
  obtain ⟨w₀, hbefore, hw₀⟩ := (Option.any_eq_true _ _).mp (show
    (exec (step H) { process := unstored } publishedOnce).any (fun w =>
      (w.calls 0).all fun u => busy u.phase) = true by decide +kernel)
  obtain ⟨w₁, hrun, hw₁⟩ := (Option.any_eq_true _ _).mp (show
    (exec (step H) { process := unstored } (publishedOnce ++ [.complete 0])).any (fun w =>
      (w.calls 0).any fun call =>
        ((returned w 0).any fun x =>
          x.2.toOption.any fun res => decide (res.artifactId = .fromU64 2)) &&
          (plan unstored.host unstored.config 3 7 {}).toOption.any fun p =>
            decide (World.compileKey unstored {} p = call.key)) = true by decide +kernel)
  obtain ⟨w₃, hwhole⟩ := Option.isSome_iff_exists.mp (show (exec (step H) { process := unstored }
    (publishedOnce ++ .complete 0 :: (inBetween ++ [.compile {} 3 7]))).isSome = true by
      decide +kernel)
  obtain ⟨w₀', hbefore', hstep⟩ := exec_append.mp hrun
  obtain rfl : w₀ = w₀' := Option.some.inj (hbefore.symm.trans hbefore')
  rw [exec_singleton] at hstep
  have hseq : Meets (step H) Sequential { process := unstored }
      (publishedOnce ++ .complete 0 :: (inBetween ++ [.compile {} 3 7])) :=
    sequential_of_checks unstored (by decide +kernel) hwhole
  obtain ⟨u, hu, hrest⟩ := exec_append.mp hwhole
  obtain rfl : w₀ = u := Option.some.inj (hbefore.symm.trans hu)
  obtain ⟨u, hu, hrest⟩ := exec_cons.mp hrest
  obtain rfl : w₁ = u := Option.some.inj (hstep.symm.trans hu)
  obtain ⟨w₂, hafter, -⟩ := exec_append.mp hrest
  obtain ⟨call, hcall, hcheck⟩ := (Option.any_eq_true _ _).mp hw₁
  have hsame : Meets (step H) SameProcess { process := unstored }
      (publishedOnce ++ .complete 0 :: inBetween) :=
    meets_of_all (p := fun e => isRestart e == false) (fun _ _ h => beq_iff_eq.mp h) (by decide)
  have hprocess : w₂.process = unstored := process_exec hsame
    (exec_append.mpr ⟨w₀, hbefore, exec_cons.mpr ⟨w₁, hstep, hafter⟩⟩)
  simp only [Bool.and_eq_true, Option.any_eq_true, decide_eq_true_eq] at hcheck
  obtain ⟨⟨⟨served, result⟩, hreturned, res, hres, hid⟩, p, hplan, hkey⟩ := hcheck
  obtain ⟨call', hcall', hphase⟩ := returned_eq_some.mp hreturned
  rw [hcall, Option.some_inj] at hcall'
  subst hcall'
  obtain rfl : result = .ok res := eq_ok_of_toOption hres
  have hreturns : ReturnsOk w₀ w₁ 0 call res := by
    refine ⟨fun x hx => ?_, hcall, served, hphase⟩
    rwa [hx, Option.all_some] at hw₀
  have halone := leavesAlone_inBetween (H := H) w₁
  rw [← hid] at halone
  obtain ⟨w₃, o, res', h⟩ := published_stable H unstored publishedOnce inBetween (.complete 0)
    w₀ w₁ w₂ 0 call res {} 3 7 p hseq hbefore hstep hreturns hafter halone
    (hprocess ▸ eq_ok_of_toOption hplan) (hprocess ▸ hkey)
  exact ⟨w₂, w₃, o, res, res', h⟩

end CompilationFabric.Analysis
