import CompilationFabric.Interface.CoordinatorRuns

/-!
# Publication under authority

Whether a completion is published under the authority it was checked against.  The counters
are read without the lock, the registry and the pending entry under it, and the publication
is a critical section of its own; so a publication is current as long as nothing moves in
between: no counter is advanced that a frame being handled has already passed, and no two
frames that have passed every check compete for a pending entry or an artifact generation.
-/

set_option autoImplicit false

namespace CompilationFabric.Analysis

open CompilationFabric.Library.TransitionSystem
open CompilationFabric.Model
open CompilationFabric.Interface

variable {H : Bytes → Digest} {w w' : Network} {e : NetworkEvent} {c : ConnId}
  {u u' : WorkerConn} {f : Completion}

/-! ## The property and the condition -/

/-- The artifact generation of an envelope is above the one on record. -/
def AboveRecorded (m : DistributedCoordinator) (env : ProtoEnvelope) : Prop :=
  ∀ g, m.artifactGen[env.artifactId.toHex]? = some g → g < env.artifactGen

/-- A publication is current: the envelope has the counters of this moment and a new artifact
generation, and the same write consumes the pending entry of its request. -/
def PublishesCurrent (H : Bytes → Digest) (w : Network) (e : NetworkEvent) : Prop :=
  ∀ c u f k w', e = .publish c → w.conns c = some u → u.phase = .keyed f k →
    Network.step H w e = some w' →
      f.env.epoch = w.coordinator.epoch ∧ f.env.cacheGen = w.coordinator.cacheGen ∧
      f.env.toolchainGen = w.coordinator.toolchainGen ∧ AboveRecorded w.coordinator f.env ∧
      ∃ s, w.coordinator.pending[f.env.requestId.toHex]? = some s ∧
        w'.coordinator.pending[f.env.requestId.toHex]? = none ∧
        w'.promises s = some (resultFromJson f.result)

/-- The frame that has passed a comparison with a counter. -/
def passed (p : ConnPhase) (check : AuthorityCheck) : Option Completion :=
  match p with
  | .checking f next => if check.ctorIdx < next.ctorIdx then some f else none
  | .accepted f => some f
  | .keyed f _ => some f
  | _ => none

/-- The counter that an event advances. -/
def advanced : NetworkEvent → Option AuthorityCheck
  | .rollEpoch => some .epoch
  | .bumpCacheGeneration => some .cacheGen
  | .bumpToolchainGeneration => some .toolchainGen
  | _ => none

/-- Two frames that can both be published under what each was checked against, `f` first. -/
def Compatible (f g : Completion) : Prop :=
  g.env.requestId ≠ f.env.requestId ∧
    (g.env.artifactId = f.env.artifactId → f.env.artifactGen < g.env.artifactGen)

/-- Nothing moves under a frame that is being handled: a counter is advanced when no frame has
passed it, a publication leaves what other frames were checked against, and a failed dispatch
does not remove the pending entry of a frame that has passed every check. -/
def KeepsChecked (w : Network) (e : NetworkEvent) : Prop :=
  (∀ check, advanced e = some check → ∀ c u, w.conns c = some u → passed u.phase check = none) ∧
  (∀ c u f, e = .publish c → w.conns c = some u → u.phase.authorized = some f →
    ∀ c' u' g, c' ≠ c → w.conns c' = some u' → u'.phase.authorized = some g → Compatible f g) ∧
  ∀ s x, e = .giveUp s → w.submits s = some x →
    ∀ c u f, w.conns c = some u → u.phase.authorized = some f →
      f.env.requestId ≠ x.request.requestId

/-! ## The invariant -/

/-- What a frame that is being handled has passed still holds. -/
structure Checked (w : Network) : Prop where
  counters : ∀ c u f check, w.conns c = some u → passed u.phase check = some f →
    w.coordinator.counterMatches f.env check = true
  fresh : ∀ c u f, w.conns c = some u → u.phase.authorized = some f →
    AboveRecorded w.coordinator f.env
  pending : ∀ c u f, w.conns c = some u → u.phase.authorized = some f →
    f.env.requestId.toHex ∈ w.coordinator.pending

/-- INTERNAL: a step that does not advance a counter leaves its comparison. -/
theorem counterMatches_kept (h : NetworkTransition H w e w') {check : AuthorityCheck}
    (hcheck : advanced e ≠ some check) (env : ProtoEnvelope) :
    w'.coordinator.counterMatches env check = w.coordinator.counterMatches env check := by
  cases h with
  | rollEpoch => cases check <;> first | rfl | exact absurd rfl hcheck
  | bumpCacheGeneration => cases check <;> first | rfl | exact absurd rfl hcheck
  | bumpToolchainGeneration => cases check <;> first | rfl | exact absurd rfl hcheck
  | _ => cases check <;> rfl

/-- A comparison is passed by the step that makes it. -/
theorem passed_cases {check : AuthorityCheck} (h : NetworkTransition H w e w')
    (hu' : w'.conns c = some u') (hf : passed u'.phase check = some f) :
    ∃ u, w.conns c = some u ∧ (passed u.phase check = some f ∨
      w.coordinator.counterMatches f.env check = true) := by
  rcases conn_cases h hu' with hu | ⟨u, p, hu, rfl, hsteps⟩ | hidle
  · exact ⟨u', hu, .inl hf⟩
  · refine ⟨u, hu, ?_⟩
    cases hsteps with
    | handle hmove =>
        cases hmove with
        | receive hphase => simp [passed, AuthorityCheck.ctorIdx] at hf
        | @checked g next hphase hnext hmatch =>
            rw [hphase]
            by_cases heq : check = next
            · subst heq
              have hfg : g = f := by
                simp only [passed] at hf
                split at hf
                · exact Option.some.inj hf
                · cases hf
              exact .inr (hfg ▸ hmatch)
            · refine .inl ?_
              revert hf
              cases check <;> cases next <;>
                simp_all [passed, AuthorityCheck.next, AuthorityCheck.ctorIdx]
        | @accepted g hphase hauth =>
            rw [hphase]
            cases check with
            | registry => exact .inr rfl
            | _ => exact .inl hf
    | resolve hphase => exact .inl (by rw [hphase]; exact hf)
    | idle => cases hf
    | ended => cases hf
  · rw [hidle] at hf
    cases hf

/-- What is authorized is not below what is recorded, and its request is pending.
SOURCE: Distributed.cpp:161-176 -/
theorem authorizes_spec {m : DistributedCoordinator} {env : ProtoEnvelope}
    (h : m.authorizes env = true) :
    AboveRecorded m env ∧ env.requestId.toHex ∈ m.pending := by
  simp only [DistributedCoordinator.authorizes, DistributedCoordinator.freshArtifact,
    Bool.and_eq_true] at h
  obtain ⟨⟨-, -, hfresh⟩, hpending⟩ := h
  refine ⟨fun g hg => ?_, hpending⟩
  rw [hg] at hfresh
  simpa using hfresh

/-- A frame stays above what another one records, when that one is below it. -/
theorem lt_of_recordGeneration {gens : Std.ExtTreeMap Bytes UInt64 compare}
    {env env' : ProtoEnvelope} (habove : ∀ g, gens[env.artifactId.toHex]? = some g →
      g < env.artifactGen)
    (hlt : env.artifactId = env'.artifactId → env'.artifactGen < env.artifactGen) :
    ∀ g, (recordGeneration gens env')[env.artifactId.toHex]? = some g → g < env.artifactGen := by
  have hinsert : ∀ g, (gens.insert env'.artifactId.toHex env'.artifactGen)[
      env.artifactId.toHex]? = some g → g < env.artifactGen := by
    intro g hg
    rw [Std.ExtTreeMap.getElem?_insert] at hg
    split at hg
    · next heq =>
      obtain rfl := Option.some.inj hg
      exact hlt (TypedId.toHex_injective (by simpa using heq)).symm
    · exact habove g hg
  unfold recordGeneration
  split
  · split
    · exact hinsert
    · exact habove
  · exact hinsert

/-- What a publication leaves of another frame that has passed every check. -/
theorem Checked.after_publish (hw : Checked w) {g : Completion} {k : Bytes}
    {pending : Std.ExtTreeMap Bytes SubmitId compare} {duplicates : UInt64}
    {promises : SubmitId → Option CompilationResult} (hres : Resolves w f pending duplicates promises)
    {d : ConnId} {v : WorkerConn} (hv : w.conns d = some v) (hg : v.phase.authorized = some g)
    (hcompatible : Compatible f g) :
    AboveRecorded (publishedAs w c u f k pending duplicates promises).coordinator g.env ∧
      g.env.requestId.toHex ∈ pending := by
  refine ⟨lt_of_recordGeneration (hw.fresh d v g hv hg) hcompatible.2, ?_⟩
  have hold := hw.pending d v g hv hg
  cases hres with
  | pending hs =>
      rw [Std.ExtTreeMap.mem_erase]
      refine ⟨?_, hold⟩
      have hne : f.env.requestId.toHex ≠ g.env.requestId.toHex := fun h =>
        hcompatible.1 (TypedId.toHex_injective h).symm
      simpa using hne
  | duplicate hnone => exact hold

/-- A comparison that was passed still holds, when the counter is advanced only while nobody has
passed it. -/
theorem counters_step
    (hcounters : ∀ c u f check, w.conns c = some u → passed u.phase check = some f →
      w.coordinator.counterMatches f.env check = true)
    (hclear : ∀ check, advanced e = some check → ∀ c u, w.conns c = some u →
      passed u.phase check = none) (h : NetworkTransition H w e w') :
    ∀ c u f check, w'.conns c = some u → passed u.phase check = some f →
      w'.coordinator.counterMatches f.env check = true := by
  intro c u' f check hu' hf
  obtain ⟨u, hu, hold⟩ := passed_cases h hu' hf
  by_cases hadv : advanced e = some check
  · -- nobody has passed the counter, and advancing it moves no handler
    have hnone := hclear check hadv
    have hconns : w'.conns = w.conns := by
      cases h with
      | rollEpoch => rfl
      | bumpCacheGeneration => rfl
      | bumpToolchainGeneration => rfl
      | move hx hm => cases hm <;> cases hadv
      | handle hx hm => cases hm <;> cases hadv
      | dismiss hx hm => cases hm <;> cases hadv
      | _ => cases hadv
    rw [hconns] at hu'
    rw [hnone c u' hu'] at hf
    cases hf
  · rw [counterMatches_kept h hadv]
    rcases hold with hold | hmatch
    · exact hcounters c u f check hu hold
    · exact hmatch

/-- A step that advances no counter under a checked frame keeps the invariant. -/
theorem Checked.step (hw : Checked w) (hkeeps : KeepsChecked w e)
    (h : NetworkTransition H w e w') : Checked w' where
  counters := counters_step hw.counters hkeeps.1 h
  fresh := by
    intro c u' f hu' hf
    obtain ⟨u, hu, hold⟩ := authorized_cases h hu' hf
    rcases hold with hold | ⟨rfl, -, hauth⟩
    · cases h with
      | @publish d v g k pending duplicates promises hv hphase hres =>
          have hcd : c ≠ d := by
            rintro rfl
            rcases setConn_cases (w := w) hu' with ⟨-, rfl⟩ | ⟨hne, -⟩
            · cases hf
            · exact hne rfl
          exact (hw.after_publish hres hu hold
            (hkeeps.2.1 d v g rfl hv (by rw [hphase]; rfl) c u f hcd hu hold)).1
      | _ => exact hw.fresh c u f hu hold
    · cases h with
      | handle hx hm => exact (authorizes_spec hauth).1
      | dismiss hx hm => exact (authorizes_spec hauth).1
      | move hx hm => cases hm
  pending := by
    intro c u' f hu' hf
    obtain ⟨u, hu, hold⟩ := authorized_cases h hu' hf
    rcases hold with hold | ⟨rfl, -, hauth⟩
    · have hpending := hw.pending c u f hu hold
      cases h with
      | pend hx hphase => exact Std.ExtTreeMap.mem_insert.mpr (.inr hpending)
      | @giveUp s x code message hx hphase =>
          refine Std.ExtTreeMap.mem_erase.mpr ⟨?_, hpending⟩
          have hne := hkeeps.2.2 s x rfl hx c u f hu hold
          have hhex : x.request.requestId.toHex ≠ f.env.requestId.toHex := fun h =>
            hne (TypedId.toHex_injective h).symm
          simpa using hhex
      | @publish d v g k pending duplicates promises hv hphase hres =>
          have hcd : c ≠ d := by
            rintro rfl
            rcases setConn_cases (w := w) hu' with ⟨-, rfl⟩ | ⟨hne, -⟩
            · cases hf
            · exact hne rfl
          exact (hw.after_publish (c := d) (u := v) (k := k) hres hu hold
            (hkeeps.2.1 d v g rfl hv (by rw [hphase]; rfl) c u f hcd hu hold)).2
      | _ => exact hpending
    · cases h with
      | handle hx hm => exact (authorizes_spec hauth).2
      | dismiss hx hm => exact (authorizes_spec hauth).2
      | move hx hm => cases hm

/-- A frame that is still what it was checked to be is published as that. -/
theorem publishesCurrent_of_checked (hw : Checked w) : PublishesCurrent H w e := by
  rintro c u f k w' rfl hu hphase hstep
  have hpassed : ∀ check, passed u.phase check = some f := fun check => by rw [hphase]; rfl
  have hauth : u.phase.authorized = some f := by rw [hphase]; rfl
  refine ⟨by simpa [DistributedCoordinator.counterMatches] using hw.counters c u f .epoch hu (hpassed _),
    by simpa [DistributedCoordinator.counterMatches] using hw.counters c u f .cacheGen hu (hpassed _),
    by simpa [DistributedCoordinator.counterMatches] using
      hw.counters c u f .toolchainGen hu (hpassed _), hw.fresh c u f hu hauth, ?_⟩
  have hmem := hw.pending c u f hu hauth
  rw [Std.ExtTreeMap.mem_iff_isSome_getElem?] at hmem
  obtain ⟨s, hs⟩ := Option.isSome_iff_exists.mp hmem
  refine ⟨s, hs, ?_⟩
  cases networkTransition_of_step hstep with
  | publish hv hphase' hres =>
      rw [hu, Option.some_inj] at hv
      subst hv
      rw [hphase] at hphase'
      cases hphase'
      cases hres with
      | pending hs' =>
          rw [hs, Option.some_inj] at hs'
          subst hs'
          exact ⟨by simp [publishedAs], Function.update_self ..⟩
      | duplicate hnone =>
          rw [hs] at hnone
          cases hnone
  | move hx hm => cases hm
  | handle hx hm => cases hm
  | dismiss hx hm => cases hm

/-! ## Runs -/

/-- A fresh coordinator has checked nothing. -/
theorem checked_init (host : Host) (root : Bytes) (epoch cacheGen toolchainGen : UInt64) :
    Checked (.init host root epoch cacheGen toolchainGen) := by
  constructor <;> intros <;> simp_all [Network.init]

/-- In a run in which nothing moves under a frame that is being handled, every publication is
current and consumes the pending entry of its request.
SOURCE: Distributed.cpp:161-177, 196-215 -/
theorem publishes_under_authority (host : Host) (root : Bytes)
    (epoch cacheGen toolchainGen : UInt64) {es : List NetworkEvent}
    (hmeets : Meets (Network.step H) KeepsChecked (.init host root epoch cacheGen toolchainGen) es)
    (hrun : exec (Network.step H) (.init host root epoch cacheGen toolchainGen) es = some w) :
    Meets (Network.step H) (PublishesCurrent H) (.init host root epoch cacheGen toolchainGen)
      es := by
  refine hmeets.of_invariant (I := Checked) ?_ ?_ (checked_init ..) hrun
  · intro v e v' hkeeps hstep hv
    exact hv.step hkeeps (networkTransition_of_step hstep)
  · intro v e v' _ _ hv
    exact publishesCurrent_of_checked hv

/-! ## One worker, and two -/

/-- The events that the condition says nothing about. -/
def isQuiet : NetworkEvent → Bool
  | .rollEpoch | .bumpCacheGeneration | .bumpToolchainGeneration | .publish _ | .giveUp _ => false
  | _ => true

/-- INTERNAL: a quiet step advances no counter. -/
theorem keepsChecked_of_quiet (he : isQuiet e = true) : KeepsChecked w e := by
  have hnone : advanced e = none := by cases e <;> first | rfl | cases he
  refine ⟨fun check h => ?_, fun c u f h => ?_, fun s x h => ?_⟩
  · rw [hnone] at h
    cases h
  · subst h
    cases he
  · subst h
    cases he

/-- The first answer, up to its publication. -/
def untilPublished : List NetworkEvent :=
  firstDispatch ++ [.receive 0 firstAnswer, .check 0, .check 0, .check 0, .authorize 0, .resolve 0]

/-- The first result is published under its authority. -/
theorem publishes_under_authority_first :
    Meets (Network.step byteSum) (PublishesCurrent byteSum) (.init {} [] 1 1 1)
      (untilPublished ++ [.publish 0]) := by
  obtain ⟨w, hw⟩ := Option.isSome_iff_exists.mp (show
    (exec (Network.step byteSum) (.init {} [] 1 1 1) (untilPublished ++ [.publish 0])).isSome =
      true by decide +kernel)
  obtain ⟨w₁, hw₁, hone⟩ := (Option.any_eq_true _ _).mp (show
    (exec (Network.step byteSum) (.init {} [] 1 1 1) untilPublished).any
      (fun w => w.nextConn = 1) = true by decide +kernel)
  have hwf := networkWellFormed_exec (networkWellFormed_init byteSum {} [] 1 1 1) hw₁
  refine publishes_under_authority {} [] 1 1 1 (Meets.append ?_ fun t ht => ?_) hw
  · exact meets_of_all (fun _ _ => keepsChecked_of_quiet) rfl
  · obtain rfl : w₁ = t := Option.some.inj (hw₁.symm.trans ht)
    refine ⟨?_, fun _ _ => trivial⟩
    refine ⟨(fun _ h => nomatch h), ?_, (fun _ _ h => nomatch h)⟩
    rintro c u f he hu hf c' u' g hne hu' hg
    obtain rfl : 0 = c := NetworkEvent.publish.inj he
    have hge : w₁.nextConn ≤ c' := by
      rw [of_decide_eq_true hone]
      exact Nat.one_le_iff_ne_zero.mpr hne
    rw [hwf.freshConn c' hge] at hu'
    cases hu'

/-- A publication is next that is not current. -/
def publishesStale (c : ConnId) (w : Network) : Bool :=
  match w.conns c with
  | some u =>
      match u.phase with
      | .keyed f _ => (w.publish c).isSome && (f.env.epoch ≠ w.coordinator.epoch ||
          !w.coordinator.pending.contains f.env.requestId.toHex)
      | _ => false
  | none => false

/-- INTERNAL: what is checked of a state is a stale publication. -/
theorem not_publishesCurrent_of_stale (h : publishesStale c w = true) :
    ¬ PublishesCurrent H w (.publish c) := by
  unfold publishesStale at h
  split at h
  · next u hu =>
    split at h
    · next f k hphase =>
      rw [Bool.and_eq_true, Bool.or_eq_true] at h
      obtain ⟨w', hw'⟩ := Option.isSome_iff_exists.mp h.1
      intro hcurrent
      obtain ⟨hepoch, -, -, -, s, hs, -⟩ := hcurrent c u f k w' rfl hu hphase hw'
      rcases h.2 with hstale | hstale
      · exact absurd hepoch (of_decide_eq_true hstale)
      · rw [Std.ExtTreeMap.contains_eq_isSome_getElem?, hs] at hstale
        cases hstale
    · cases h
  · cases h

/-- A second worker sends a completion for the request of the first one. -/
def secondWorker : List NetworkEvent :=
  [workerUp 7 {}, workerUp 8 {}, .submit firstRequest 0 0] ++ dispatchSteps 0 ++
    [.receive 0 firstAnswer, .check 0, .check 0, .check 0, .authorize 0, .resolve 0,
      .receive 1 { firstAnswer with
        env := { firstAnswer.env with workerId := 8, artifactId := TypedId.fromU64 1 }
        answers := none },
      .check 1, .check 1, .check 1, .authorize 1, .resolve 1, .publish 0]

/-- The epoch is rolled after the check and before the publication; and two completions of one
request are checked before either is published. -/
theorem not_publishesCurrent :
    ¬ Meets (Network.step byteSum) (PublishesCurrent byteSum) (.init {} [] 1 1 1)
      ((untilPublished ++ [.rollEpoch]) ++ [.publish 0]) ∧
    ¬ Meets (Network.step byteSum) (PublishesCurrent byteSum) (.init {} [] 1 1 1)
      (secondWorker ++ [.publish 1]) := by
  constructor
  · obtain ⟨w, hw, hstale⟩ := (Option.any_eq_true _ _).mp (show
      (exec (Network.step byteSum) (.init {} [] 1 1 1) (untilPublished ++ [.rollEpoch])).any
        (publishesStale 0) = true by decide +kernel)
    exact fun h => not_publishesCurrent_of_stale hstale (h.append_right hw).1
  · obtain ⟨w, hw, hstale⟩ := (Option.any_eq_true _ _).mp (show
      (exec (Network.step byteSum) (.init {} [] 1 1 1) secondWorker).any (publishesStale 1) =
        true by decide +kernel)
    exact fun h => not_publishesCurrent_of_stale hstale (h.append_right hw).1

end CompilationFabric.Analysis
