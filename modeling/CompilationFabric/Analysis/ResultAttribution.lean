import CompilationFabric.Interface.CoordinatorRuns
import CompilationFabric.Interface.FabricHistory
import CompilationFabric.Interface.ResultWire

/-!
# Whose result a request gets

The id of a request is no part of its key, so requests with different ids share a compile.  The
fabric puts the id of the call into what it takes from the cache and into what the call compiled
itself; a waiter is handed the result of the owner as it is.  The coordinator puts the id into no
result at all: a Result frame names the request that the worker's JSON names, which is the one that
was dispatched, and not the one that finds the JSON published.
-/

set_option autoImplicit false

namespace CompilationFabric.Analysis

open CompilationFabric.Library.TransitionSystem
open CompilationFabric.Model
open CompilationFabric.Interface

variable {H : Bytes → Digest}

/-! ## The fabric -/

section Fabric

variable {w w' : World} {e : Event}

/-- Every call that has returned a result has returned one for its own request. -/
def CallsAttributed (w : World) : Prop :=
  ∀ c call s res, w.calls c = some call → call.phase = .returned s (.ok res) →
    res.requestId = call.request.requestId

/-- A waiter whose owner has a result has the owner's request id.
SOURCE: Fabric.cpp:255-268 -/
def WaitsForOwn (w : World) : Event → Prop
  | .wake c => ∀ call o owner res, w.calls c = some call → call.phase = .waiting o →
      w.calls o = some owner → owner.phase = .returned .owner (.ok res) →
      owner.request.requestId = call.request.requestId
  | _ => True

/-- What a waiter takes is what its owner has returned. -/
theorem returned_of_done (hw : WellFormed w) {o : CallId} {owner : Call} {entry : InflightEntry}
    {result : Result CompilationResult} (howner : w.calls o = some owner)
    (hentry : owner.entry = some entry) (hdone : entry.outcome = some result) :
    owner.phase = .returned .owner result := by
  have hcoherent := hw.coherent o owner howner
  rw [hentry] at hcoherent
  exact coherent_done hcoherent hdone

/-- A step that waits for its own request keeps the results of calls with them. -/
theorem callsAttributed_step (ha : CallsAttributed w) (hw : WellFormed w)
    (h : Transition H w e w') (hown : WaitsForOwn w e) : CallsAttributed w' := by
  intro c call' s res hcall' hphase'
  obtain hold | ⟨-, hnew⟩ | ⟨call, hcall, hmoved⟩ :=
    (callsStep_of_transition h).call_cases hcall'
  · exact ha c call' s res hold hphase'
  · cases hnew with
    | miss hplan hmiss => cases hmiss <;> cases hphase'
    | hit hplan he =>
        cases hphase'
        rfl
  · rw [hmoved.request]
    generalize hr : (Except.ok res : Result CompilationResult) = result at hphase'
    cases hmoved.returnsBy hphase' with
    | wake hwaiting howner hentry hdone =>
        have hreturned := returned_of_done hw howner hentry hdone
        rw [← hr] at hreturned
        rw [ha _ _ _ _ howner hreturned]
        exact hown _ _ _ _ hcall hwaiting howner hreturned
    | fail => cases hr
    | complete =>
        cases hr
        rfl

/-- A waiter that is woken to a result for its own request has waited for its own request. -/
theorem waitsForOwn_of_attributed (ha : CallsAttributed w) (hw : WellFormed w)
    (h : Transition H w e w') (ha' : CallsAttributed w') : WaitsForOwn w e := by
  cases e with
  | wake c =>
      intro call o owner res hcall hwaiting howner hreturned
      cases h with
      | wake hcall' hwaiting' hlock howner' hentry hdone =>
          obtain rfl := Option.some.inj (hcall.symm.trans hcall')
          rw [hwaiting] at hwaiting'
          cases hwaiting'
          obtain rfl := Option.some.inj (howner.symm.trans howner')
          have hresult := returned_of_done hw howner hentry hdone
          rw [hreturned] at hresult
          cases hresult
          rw [← ha o owner _ res howner hreturned]
          have hwoken := ha' c { call with phase := .returned (.waiter o) (.ok res) } _ res
            (Function.update_self ..) rfl
          exact hwoken
      | advance hcall' hadv => cases hadv
      | fail hcall' hlock hentry hfail => cases hfail
      | lease he => obtain ⟨id, he⟩ | ⟨id, he⟩ := he <;> cases he
      | recovering hrec => cases hrec
  | _ => trivial

/-- A fresh process has returned nothing. -/
theorem callsAttributed_init (p : Process) : CallsAttributed { process := p } :=
  fun _ _ _ _ h => nomatch h

/-- The calls of a run get their own results exactly if every waiter waits for its own. -/
theorem meets_callsAttributed (p : Process) {es : List Event}
    (hrun : exec (step H) { process := p } es = some w) :
    Meets (step H) (fun u e => ∀ u', step H u e = some u' → CallsAttributed u')
        { process := p } es ↔
      Meets (step H) WaitsForOwn { process := p } es := by
  refine meets_congr (I := fun u => WellFormed u ∧ CallsAttributed u) ?_ ?_
    ⟨.init p, callsAttributed_init p⟩ hrun
  · rintro u e u' ⟨hw, ha⟩ hstep
    constructor
    · intro hnext
      exact waitsForOwn_of_attributed ha hw (transition_of_step hstep) (hnext u' hstep)
    · intro hown v hv
      exact callsAttributed_step ha hw (transition_of_step hv) hown
  · rintro u e u' hnext hstep ⟨hw, -⟩
    exact ⟨hw.step (transition_of_step hstep), hnext u' hstep⟩

end Fabric

/-! ## The coordinator -/

section Coordinator

variable {w w' : Network} {e : NetworkEvent} {s : SubmitId} {x : Submit}

/-- The frame that answers a Submit with a result.
SOURCE: Distributed.cpp:261-263, 292-296 -/
def resultFrame (H : Bytes → Digest) (x : Submit) (res : CompilationResult) : ProtoFrame :=
  { type := .Result, payload := encodeResult H { requestId := x.request.requestId } res }

/-- Every Result frame that is sent for a Submit decodes to a result for its own request. -/
def FramesAttributed (H : Bytes → Digest) (w : Network) : Prop :=
  ∀ s x res, w.submits s = some x → x.phase = .replied (.result res) →
    Sendable (resultFrame H x res) →
    ∃ got, decodeResult (resultFrame H x res).payload = .ok (.ok got) ∧
      got.requestId = x.request.requestId

/-- A report of success names the request that its envelope names. -/
def ReportsOwn (_ : Network) : NetworkEvent → Prop
  | .receive _ f => f.success = true → namedRequest f.result = f.env.requestId
  | _ => True

/-- What a Submit finds published names its own request, or it does not fit into a frame.
SOURCE: Distributed.cpp:257-267 -/
def FindsOwn (H : Bytes → Digest) (w : Network) : NetworkEvent → Prop
  | .lookup s => ∀ x hit, w.submits s = some x → x.phase = .bound →
      w.coordinator.published[x.keyHex]? = some hit →
      Sendable (resultFrame H x { resultFromJson hit with reused := true }) →
      namedRequest hit = x.request.requestId
  | _ => True

/-- The envelope of a worker's report names the request that it has compiled.
SOURCE: Distributed.cpp:83-106 -/
theorem reportsOwn_workerResult (w : Network) (c : ConnId) (requestId : CompilationRequestId)
    (key : CompilationKey) (attemptId : CompilationAttemptId) (artifactId : ArtifactId)
    (compiled : Result BackendOutput) (env : ProtoEnvelope) (answers : Option SubmitId) :
    let report := workerResult H requestId key attemptId artifactId compiled
    ReportsOwn w (.receive c
      { env := { env with requestId }, success := report.2, result := reread (report.1.toJson H)
        answers }) := by
  intro report hsuccess
  rw [namedRequest_toJson]
  cases compiled with
  | ok bo => rfl
  | error failure => cases hsuccess

/-- The decoded result is for the request that the encoded one is for. -/
theorem frameAttributed_iff {res : CompilationResult} (hres : res.autotuneCandidates = [])
    (hsend : Sendable (resultFrame H x res)) :
    (∃ got, decodeResult (resultFrame H x res).payload = .ok (.ok got) ∧
      got.requestId = x.request.requestId) ↔ res.requestId = x.request.requestId := by
  obtain ⟨got, hgot, hid, -⟩ := decodeResult_encodeResult H
    { requestId := x.request.requestId } hres (length_payload_of_sendable hsend)
  constructor
  · rintro ⟨got', hgot', hown⟩
    have heq := hgot.symm.trans hgot'
    obtain rfl := Except.ok.inj (Except.ok.inj heq)
    rw [← hid, hown]
  · intro hown
    exact ⟨got, hgot, hid.trans hown⟩

/-- The invariant. -/
structure ClientsAttributed (H : Bytes → Digest) (w : Network) : Prop where
  reports : ∀ c u f, w.conns c = some u → u.phase.frame = some f → f.success = true →
    namedRequest f.result = f.env.requestId
  promises : ∀ s res, w.promises s = some res → ∃ x j, w.submits s = some x ∧
    res = resultFromJson j ∧ namedRequest j = x.request.requestId
  frames : FramesAttributed H w

/-- A fresh coordinator has answered nothing. -/
theorem clientsAttributed_init (host : Host) (root : Bytes) (epoch cacheGen toolchainGen : UInt64) :
    ClientsAttributed H (.init host root epoch cacheGen toolchainGen) where
  reports _ _ _ h := nomatch h
  promises _ _ h := nomatch h
  frames _ _ _ h := nomatch h

namespace ClientsAttributed

variable (ha : ClientsAttributed H w)
include ha

/-- INTERNAL: one step keeps reports of success to their own requests. -/
theorem reports_step (h : NetworkTransition H w e w') (hreports : ReportsOwn w e) :
    ∀ c u f, w'.conns c = some u → u.phase.frame = some f → f.success = true →
      namedRequest f.result = f.env.requestId := by
  intro c u' f hu' hf
  obtain ⟨u, hu, hf⟩ | rfl := frame_cases h hu' hf
  · exact ha.reports c u f hu hf
  · exact hreports

/-- INTERNAL: one step keeps the promises to their own requests. -/
theorem promises_step (hw : NetworkWellFormed H w) (h : NetworkTransition H w e w') :
    ∀ s res, w'.promises s = some res → ∃ x j, w'.submits s = some x ∧
      res = resultFromJson j ∧ namedRequest j = x.request.requestId := by
  intro s res hres
  obtain hold | ⟨c, u, f, pubKey, -, hu, hphase, hs, rfl⟩ := promise_cases h hres
  · obtain ⟨x, j, hx, hj, hid⟩ := ha.promises s res hold
    obtain ⟨p, hp⟩ := submit_kept hw h hx
    exact ⟨_, j, hp, hj, hid⟩
  · -- the report is for the request id that the promise is pending under
    obtain ⟨x, hx, hpending, -⟩ := hw.pending _ s hs
    obtain ⟨p, hp⟩ := submit_kept hw h hx
    have hsuccess := hw.success c u f hu (by rw [hphase]; rfl)
    have hnamed := ha.reports c u f hu (by rw [hphase]; rfl) hsuccess
    refine ⟨_, f.result, hp, rfl, ?_⟩
    rw [hnamed]
    exact (TypedId.toHex_injective hpending).symm

/-- INTERNAL: a step that finds its own request's result keeps the replies with it. -/
theorem frames_step (h : NetworkTransition H w e w') (hfinds : FindsOwn H w e) :
    FramesAttributed H w' := by
  intro s x' res hx' hreplied hsend
  obtain hx | ⟨x, p, hx, rfl, hsteps⟩ | ⟨-, hphase, -⟩ := submit_cases h hx'
  · exact ha.frames s x' res hx hreplied hsend
  · cases hsteps with
    | move hmove =>
        cases hmove with
        | @hit j hphase hpub =>
            cases hreplied
            exact (frameAttributed_iff rfl hsend).mpr (hfinds x j hx hphase hpub hsend)
        | @wake res' hphase hres =>
            obtain ⟨y, j, hy, rfl, hid⟩ := ha.promises s res' hres
            obtain rfl := Option.some.inj (hx.symm.trans hy)
            cases hreplied
            exact (frameAttributed_iff rfl hsend).mpr hid
        | _ => cases hreplied
    | _ => cases hreplied
  · rw [hphase] at hreplied
    cases hreplied

/-- A step under both conditions keeps the invariant. -/
theorem step (hw : NetworkWellFormed H w) (h : NetworkTransition H w e w')
    (hreports : ReportsOwn w e) (hframes : FramesAttributed H w') : ClientsAttributed H w' where
  reports := ha.reports_step h hreports
  promises := ha.promises_step hw h
  frames := hframes

end ClientsAttributed

/-- A Submit that is answered from what is published, with its own request, has found its own. -/
theorem findsOwn_of_attributed (hstep : Network.step H w e = some w')
    (hframes : FramesAttributed H w') : FindsOwn H w e := by
  cases e with
  | lookup s =>
      intro x hit hx hphase hpub hsend
      have hanswered : w.lookupPublished s = some (w.setPhase s x
          (.replied (.result { resultFromJson hit with reused := true }))) := by
        simp only [Network.lookupPublished, hx, hphase, hpub, bind, Option.bind_some]
      obtain rfl := Option.some.inj (hstep.symm.trans hanswered)
      have hframe := hframes s
        { x with phase := .replied (.result { resultFromJson hit with reused := true }) } _
        (Function.update_self ..) rfl hsend
      exact (frameAttributed_iff rfl hsend).mp hframe
  | _ => trivial

/-- The clients of a run get their own results exactly if every Submit finds its own published. -/
theorem meets_framesAttributed (host : Host) (root : Bytes) (epoch cacheGen toolchainGen : UInt64)
    {es : List NetworkEvent}
    (hreports : Meets (Network.step H) ReportsOwn (.init host root epoch cacheGen toolchainGen) es)
    (hrun : exec (Network.step H) (.init host root epoch cacheGen toolchainGen) es = some w) :
    Meets (Network.step H) (fun u e => ∀ u', Network.step H u e = some u' → FramesAttributed H u')
        (.init host root epoch cacheGen toolchainGen) es ↔
      Meets (Network.step H) (FindsOwn H) (.init host root epoch cacheGen toolchainGen) es := by
  refine meets_congr_of (I := fun u => NetworkWellFormed H u ∧ ClientsAttributed H u) ?_ ?_
    ⟨networkWellFormed_init .., clientsAttributed_init ..⟩ hreports hrun
  · rintro u e u' - ⟨hw, ha⟩ hstep
    constructor
    · intro hnext
      exact findsOwn_of_attributed hstep (hnext u' hstep)
    · intro hfinds v hv
      exact ha.frames_step (networkTransition_of_step hv) hfinds
  · rintro u e u' hreport hnext hstep ⟨hw, ha⟩
    have htrans := networkTransition_of_step hstep
    exact ⟨hw.step htrans, ha.step hw htrans hreport (hnext u' hstep)⟩

end Coordinator

/-! ## Both -/

/-- Every result is for the request of the call, or of the client, that it is given to, in every
state of a run of a fabric and of a run of a coordinator. -/
structure AttributesResults (H : Bytes → Digest) (w : World) (es : List Event) (n : Network)
    (ms : List NetworkEvent) : Prop where
  calls : Meets (step H) (fun u e => ∀ u', step H u e = some u' → CallsAttributed u') w es
  frames : Meets (Network.step H)
    (fun u e => ∀ u', Network.step H u e = some u' → FramesAttributed H u') n ms

/-- Results are attributed to their requesters exactly if every waiter waits for a call with its own
request id, and every Submit that finds something published finds a result for its own.
SOURCE: Fabric.cpp:225-274, 422-437, Distributed.cpp:22-35, 197-215, 247-296 -/
theorem attributesResults_iff (H : Bytes → Digest) (p : Process) (host : Host) (root : Bytes)
    (epoch cacheGen toolchainGen : UInt64) {es : List Event} {ms : List NetworkEvent} {w : World}
    {n : Network} (hcalls : exec (step H) { process := p } es = some w)
    (hframes : exec (Network.step H) (.init host root epoch cacheGen toolchainGen) ms = some n)
    (hreports : Meets (Network.step H) ReportsOwn (.init host root epoch cacheGen toolchainGen)
      ms) :
    AttributesResults H { process := p } es (.init host root epoch cacheGen toolchainGen) ms ↔
      Meets (step H) WaitsForOwn { process := p } es ∧
      Meets (Network.step H) (FindsOwn H) (.init host root epoch cacheGen toolchainGen) ms := by
  rw [← meets_callsAttributed p hcalls,
    ← meets_framesAttributed host root epoch cacheGen toolchainGen hreports hframes]
  exact ⟨fun h => ⟨h.calls, h.frames⟩, fun h => ⟨h.1, h.2⟩⟩

/-! ## Two requests with one key -/

/-- The second call waits for the first. -/
def sharedSteps (first second : CompilationRequest) : List Event :=
  [.compile first 1 0, .compile second 2 0, .join 0, .join 1] ++
    ownerSteps 0 { executable := [1] } ++ [.commit 0, .complete 0, .wake 1]

/-- The second Submit comes when the first one is answered. -/
def repeatedSteps (second : CompilationRequest) : List NetworkEvent :=
  firstDispatch ++ (completionSteps 0 firstAnswer ++ [.wake 0, .submit second 0 0, .lookup 1])

/-- INTERNAL: the workers of the run report their own requests. -/
theorem reportsOwn_repeatedSteps (second : CompilationRequest) {w : Network} :
    Meets (Network.step byteSum) ReportsOwn w (repeatedSteps second) := by
  apply meets_of_forall
  intro e he u
  cases e with
  | receive c f =>
      have hfirst : f = firstAnswer := by
        simp [repeatedSteps, firstDispatch, workerUp, dispatchSteps, completionSteps] at he
        exact he.2
      rw [hfirst]
      intro _
      rfl
  | _ => trivial

/-- A check that is enough for `WaitsForOwn`. -/
def waitsForOwn (w : World) : Event → Bool
  | .wake c => (w.calls c).all fun call => match call.phase with
    | .waiting o => (w.calls o).all fun owner =>
        owner.request.requestId = call.request.requestId
    | _ => true
  | _ => true

/-- INTERNAL: what is checked of a step waits for its own request. -/
theorem waitsForOwn_of_check {w : World} {e : Event} (h : waitsForOwn w e = true) :
    WaitsForOwn w e := by
  cases e with
  | wake c =>
      intro call o owner res hcall hwaiting howner hreturned
      simp only [waitsForOwn, hcall, hwaiting, howner, Option.all_some] at h
      exact of_decide_eq_true h
  | _ => trivial

/-- A check that is enough for `FindsOwn`. -/
def findsOwn (w : Network) : NetworkEvent → Bool
  | .lookup s => (w.submits s).all fun x =>
      (w.coordinator.published[x.keyHex]?).all fun hit =>
        namedRequest hit = x.request.requestId
  | _ => true

/-- INTERNAL: what is checked of a step finds its own request's result. -/
theorem findsOwn_of_check {w : Network} {e : NetworkEvent} (h : findsOwn w e = true) :
    FindsOwn H w e := by
  cases e with
  | lookup s =>
      intro x hit hx hphase hpub hsend
      rw [findsOwn, hx, Option.all_some, hpub, Option.all_some] at h
      exact of_decide_eq_true h
  | _ => trivial

/-- The same request both times. -/
theorem attributesResults_same :
    AttributesResults byteSum { process := unstored } (sharedSteps {} {}) (.init {} [] 1 1 1)
      (repeatedSteps firstRequest) := by
  obtain ⟨w, hw⟩ := Option.isSome_iff_exists.mp (show
    (exec (step byteSum) { process := unstored } (sharedSteps {} {})).isSome = true by
      decide +kernel)
  obtain ⟨n, hn⟩ := Option.isSome_iff_exists.mp (show
    (exec (Network.step byteSum) (.init {} [] 1 1 1) (repeatedSteps firstRequest)).isSome = true by
      decide +kernel)
  refine (attributesResults_iff byteSum unstored {} [] 1 1 1 hw hn
    (reportsOwn_repeatedSteps firstRequest)).mpr ⟨?_, ?_⟩
  · exact meets_of_checks (fun _ _ h => waitsForOwn_of_check h) (by decide +kernel)
  · exact meets_of_checks (fun _ _ h => findsOwn_of_check h) (by decide +kernel)

/-- A request that differs from the first in its id alone. -/
def otherId : CompilationRequest := { requestId := TypedId.fromU64 1 }

/-- The second call has waited, and its result names the first request. -/
def mislabelled (w : World) : Bool :=
  match returned w 1 with
  | some (_, .ok res) => res.requestId = {} && (w.calls 1).any (·.request.requestId ≠ {})
  | _ => false

/-- The second Submit is answered from what the first one left. -/
def answersFirst (n : Network) : Bool :=
  match n.submits 1 with
  | some x => match x.phase with
    | .replied (.result res) => res.requestId = {} && x.request.requestId ≠ {} &&
        resultSize byteSum res + res.artifactBytes.length ≤ 1000000 &&
        res.autotuneCandidates.isEmpty
    | _ => false
  | none => false

/-- The waiter and the second client are given results for the first request, although the worker
reports the request that it has compiled. -/
theorem not_attributesResults :
    ∃ w n, exec (step byteSum) { process := unstored } (sharedSteps {} otherId) = some w ∧
      exec (Network.step byteSum) (.init {} [] 1 1 1) (repeatedSteps otherId) = some n ∧
      Meets (Network.step byteSum) ReportsOwn (.init {} [] 1 1 1) (repeatedSteps otherId) ∧
      ¬ CallsAttributed w ∧ ¬ FramesAttributed byteSum n := by
  obtain ⟨w, hw, hmis⟩ := (Option.any_eq_true _ _).mp (show
    (exec (step byteSum) { process := unstored } (sharedSteps {} otherId)).any mislabelled = true by
      decide +kernel)
  obtain ⟨n, hn, hfirst⟩ := (Option.any_eq_true _ _).mp (show
    (exec (Network.step byteSum) (.init {} [] 1 1 1) (repeatedSteps otherId)).any answersFirst =
      true by decide +kernel)
  refine ⟨w, n, hw, hn, reportsOwn_repeatedSteps otherId, ?_, ?_⟩
  · intro ha
    unfold mislabelled at hmis
    split at hmis
    · next s res hreturned =>
      obtain ⟨call, hcall, hphase⟩ := returned_eq_some.mp hreturned
      simp only [hcall, Option.any_some, Bool.and_eq_true, decide_eq_true_eq] at hmis
      have hown := ha 1 call s res hcall hphase
      exact hmis.2 (hown.symm.trans hmis.1)
    · cases hmis
  · intro ha
    unfold answersFirst at hfirst
    split at hfirst
    · next x hx =>
      split at hfirst
      · next res hreplied =>
        simp only [Bool.and_eq_true, decide_eq_true_eq, List.isEmpty_iff] at hfirst
        obtain ⟨⟨⟨hid, hother⟩, hsize⟩, hcandidates⟩ := hfirst
        have hsend : Sendable (resultFrame byteSum x res) := sendable_result _ _ hsize
        have hframe := ha 1 x res hx hreplied hsend
        rw [frameAttributed_iff hcandidates hsend, hid] at hframe
        exact hother hframe.symm
      · cases hfirst
    · cases hfirst

end CompilationFabric.Analysis
