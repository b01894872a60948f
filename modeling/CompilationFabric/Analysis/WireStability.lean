import CompilationFabric.Analysis.ArtifactDelivery
import CompilationFabric.Analysis.ResultAttribution
import CompilationFabric.Analysis.StrictPayloads
import CompilationFabric.Interface.WireSettled
import CompilationFabric.Model.SharedChannel

/-!
# The wire changes a request once

A request goes over the wire twice, to the coordinator and from there to a worker, and a result
does too.  The first trip loses what the JSON form does not keep, and the second loses nothing:
the worker compiles the very request that the coordinator planned, under the very key, and the
client reads the very result that the coordinator was going to send.  Only the error message of a
result is written and not read.

The invariant is that whatever the coordinator holds has come over the wire (`OverWire`); it is kept
by every step of every thread.
-/

set_option autoImplicit false

namespace CompilationFabric.Analysis

open CompilationFabric.Interface
open CompilationFabric.Library.TransitionSystem
open CompilationFabric.Model

-- kept folded, or elaboration runs it on a record's members
attribute [local irreducible] Printable

variable {H : Bytes → Digest} {w w' : Network} {e : NetworkEvent} {es : List NetworkEvent}

/-! ## The second trip of a request -/

/-- A Dispatch payload decodes to what the JSON keeps of the request, and to the key.
SOURCE: Protocol.cpp:162-185 -/
theorem decodeDispatch_encodeDispatch (env : ProtoEnvelope) (r : CompilationRequest)
    {key : CompilationKey} (hkey : key.Sorted)
    (hsend : Sendable (SharedChannel.dispatchFrame env r key)) :
    decodeDispatch (SharedChannel.dispatchFrame env r key).payload =
      .ok (.ok (wireRequest r, key)) := by
  have hpayload : (SharedChannel.dispatchFrame env r key).payload = env.encode ++
      (CanonicalWriter.string r.toJson.dump ++
        (CanonicalWriter.string (makeCanonicalFields key.fields) ++ [])) := by
    simp [SharedChannel.dispatchFrame, encodeDispatch, CanonicalWriter.string]
  have hlen : (SharedChannel.dispatchFrame env r key).payload.length ≤ kMaxFrameSize := by
    simp only [Sendable, encodeFrameBody, List.length_append, CanonicalWriter.length_string] at hsend
    omega
  have hsize := length_payload_of_sendable hsend
  rw [hpayload] at hlen hsize ⊢
  have hfields : (makeCanonicalFields key.fields).length < sizeMod := by
    simp only [List.length_append, CanonicalWriter.length_string] at hsize
    omega
  refine (decodeDispatch_eq_ok_iff ?_ (reader_readEnvelope env hsize)).mpr ?_
  · rw [kMaxFrameSize] at hlen
    rw [maxObjectSize]
    omega
  · exact ⟨r.toJson.dump, makeCanonicalFields key.fields, [], reread r.toJson,
      parse_dump_request r, fromJson_reread_request r,
      CompilationKey.fromCanonicalBytes_makeCanonicalFields hkey hfields, rfl⟩

/-! ## The second trip of a result -/

/-- The JSON of a report, as the coordinator has parsed it. -/
def Reported (H : Bytes → Digest) (j : Json) : Prop :=
  ∃ res : CompilationResult, res.autotuneCandidates = [] ∧ j = reread (res.toJson H)

/-- The result that comes back. -/
def wireResult (r : CompilationResult) : CompilationResult :=
  { requestId := r.requestId
    planId := r.planId
    attemptId := r.attemptId
    artifactId := r.artifactId
    generation := wireU64 r.generation
    artifact := wireArtifact r.artifact
    reused := r.reused
    validated := r.validated
    deployable := r.deployable
    referenceMatched := r.referenceMatched
    backendUsed := r.backendUsed
    artifactBytes := r.artifactBytes }

/-- INTERNAL: an artifact is read back as it crosses the wire. -/
theorem fromJson_reread_artifact_toJson (a : ArtifactDescriptor) :
    ArtifactDescriptor.fromJson (reread a.toJson) = some (wireArtifact a) := by
  have hkeys := keys_artifact a
  rw [← List.append_nil a.members] at hkeys
  have hwire := fromJson_reread_artifact a hkeys
  rwa [List.append_nil] at hwire

/-- A Result payload decodes to what the JSON keeps of the result, and to its bytes.
SOURCE: Protocol.cpp:207-240 -/
theorem decodeResult_resultFrame {x : Submit} {r : CompilationResult}
    (hr : r.autotuneCandidates = []) (hsend : Sendable (resultFrame H x r)) :
    decodeResult (resultFrame H x r).payload = .ok (.ok (wireResult r)) := by
  have hpayload : (resultFrame H x r).payload =
      ProtoEnvelope.encode { requestId := x.request.requestId } ++
        (CanonicalWriter.string (r.toJson H).dump ++
          (CanonicalWriter.string r.artifactBytes ++ [])) := by
    simp [resultFrame, encodeResult, CanonicalWriter.string]
  have hsize := length_payload_of_sendable hsend
  rw [hpayload] at hsize ⊢
  generalize ({ requestId := x.request.requestId } : ProtoEnvelope) = env at hsize ⊢
  have hstr := CanonicalReader.str_after env.encode _ hsize
  obtain ⟨base, rd, hlen, hnat, hblob⟩ := checkedBlob_after
    (env.encode ++ CanonicalWriter.string (r.toJson H).dump) r.artifactBytes [] (by simpa using hsize)
  rw [decodeResult]
  simp only [reader_readEnvelope env hsize, hstr, parse_dump (printable_result H hr), hlen, hblob,
    hnat, bind, Except.bind, ne_eq, not_true_eq_false, if_false]
  have hget : ∀ key, ((r.members H).lookup key).isSome →
      (reread (r.toJson H)).get key = ((r.members H).lookup key).map reread :=
    fun _ => get_reread_lookup (keys_result H r)
  have hartifact := fromJson_reread_artifact_toJson r.artifact
  simp [Json.jstr, Json.jbool, Json.jnum, hget, CompilationResult.members, List.lookup_cons,
    hartifact]
  simp [reread, Json.ofU64, wireU64, wireResult]
  rfl

/-- What the coordinator takes from a report.
SOURCE: Distributed.cpp:22-35 -/
theorem resultFromJson_reread (r : CompilationResult) :
    resultFromJson (reread (r.toJson H)) =
      { wireResult r with
        planId := {}, reused := false, artifactBytes := [], errorMessage := r.errorMessage } := by
  have hget : ∀ key, ((r.members H).lookup key).isSome →
      (reread (r.toJson H)).get key = ((r.members H).lookup key).map reread :=
    fun _ => get_reread_lookup (keys_result H r)
  have hartifact := fromJson_reread_artifact_toJson r.artifact
  simp [resultFromJson, Json.jstr, Json.jbool, Json.jnum, hget, CompilationResult.members,
    List.lookup_cons, hartifact]
  simp [reread, Json.ofU64, wireU64, wireResult]

/-- The answer to a client, for the one that waits or for one that finds the result published. -/
def Answer (H : Bytes → Digest) (res : CompilationResult) : Prop :=
  ∃ j reused, Reported H j ∧ res = { resultFromJson j with reused }

/-- The second trip loses the error message and nothing else. -/
theorem wireResult_answer {res : CompilationResult} (h : Answer H res) :
    wireResult res = { res with errorMessage := [] } := by
  obtain ⟨j, reused, ⟨r, -, rfl⟩, rfl⟩ := h
  rw [resultFromJson_reread]
  simp [wireResult, wireU64_wireU64, wireArtifact_wireArtifact]

/-- An answer has no candidates. -/
theorem autotuneCandidates_answer {res : CompilationResult} (h : Answer H res) :
    res.autotuneCandidates = [] := by
  obtain ⟨j, reused, -, rfl⟩ := h
  rfl

/-! ## What the coordinator holds -/

/-- What a frame brings was written by the program's own encoders.
SOURCE: Distributed.cpp:97-105, 353-357 -/
def CameOver (H : Bytes → Digest) : NetworkEvent → Prop
  | .submit r _ _ => ∃ env r₀,
      Sendable { type := .Submit, payload := encodeSubmit env r₀ } ∧
      decodeSubmit (encodeSubmit env r₀) = .ok (.ok r)
  | .receive _ f => ∃ (env : ProtoEnvelope) (res : CompilationResult), res.autotuneCandidates = [] ∧
      Sendable { type := .CompileResult
                 payload := encodeCompileResult env f.success (res.toJson H) } ∧
      decodeCompileResult (encodeCompileResult env f.success (res.toJson H)) =
        .ok (f.result, f.success)
  | _ => True

/-- A request that came over crosses the wire unchanged. -/
theorem wireRequest_of_cameOver {r : CompilationRequest} {n : UInt64} {now : Int64}
    (h : CameOver H (.submit r n now)) : wireRequest r = r := by
  obtain ⟨env, r₀, hsend, hdecode⟩ := h
  rw [decodeSubmit_encodeSubmit env r₀ (length_payload_of_sendable hsend), Except.ok.injEq,
    Except.ok.injEq] at hdecode
  rw [← hdecode, wireRequest_wireRequest]

/-- What a worker reports came over the wire. -/
theorem reported_of_cameOver {c : ConnId} {f : Completion} (h : CameOver H (.receive c f)) :
    Reported H f.result := by
  obtain ⟨env, res, hres, hsend, hdecode⟩ := h
  rw [decodeCompileResult_encodeCompileResult env f.success (printable_result H hres)
    (length_payload_of_sendable hsend), Except.ok.injEq, Prod.mk.injEq] at hdecode
  exact ⟨res, hres, hdecode.1.symm⟩

/-- Whatever the coordinator holds has come over the wire. -/
structure OverWire (H : Bytes → Digest) (w : Network) : Prop where
  requests : ∀ s x, w.submits s = some x → wireRequest x.request = x.request
  keys : ∀ s x, w.submits s = some x → x.key.Sorted
  frames : ∀ c u f, w.conns c = some u → u.phase.frame = some f → Reported H f.result
  published : ∀ (k : Bytes) j, w.coordinator.published[k]? = some j → Reported H j
  promises : ∀ s res, w.promises s = some res → Answer H res
  sent : ∀ s x res, w.submits s = some x → x.phase = .replied (.result res) → Answer H res

/-- A fresh coordinator has nothing from the wire. -/
theorem overWire_init (host : Host) (root : Bytes) (epoch cacheGen toolchainGen : UInt64) :
    OverWire H (.init host root epoch cacheGen toolchainGen) where
  requests _ _ h := by cases h
  keys _ _ h := by cases h
  frames _ _ _ h := by cases h
  published k j hj := by
    change (∅ : Std.ExtTreeMap Bytes Json compare)[k]? = some j at hj
    simp at hj
  promises _ _ h := by cases h
  sent _ _ _ h := by cases h

namespace OverWire

/-- INTERNAL: one step keeps the requests to what came over. -/
theorem requests_step (ho : OverWire H w) (h : NetworkTransition H w e w') (hc : CameOver H e) :
    ∀ s x, w'.submits s = some x → wireRequest x.request = x.request := by
  intro s x' hx'
  obtain hx | ⟨x, p, hx, rfl, -⟩ | ⟨-, -, r, n, now, rfl, rfl⟩ := submit_cases h hx'
  · exact ho.requests s x' hx
  · exact ho.requests s x hx
  · exact wireRequest_of_cameOver hc

/-- INTERNAL: one step keeps the keys sorted. -/
theorem keys_step (ho : OverWire H w) (h : NetworkTransition H w e w') :
    ∀ s x, w'.submits s = some x → x.key.Sorted := by
  intro s x' hx'
  obtain hx | ⟨x, p, hx, rfl, -⟩ | ⟨rfl, -, r, n, now, rfl, -⟩ := submit_cases h hx'
  · exact ho.keys s x' hx
  · exact ho.keys s x hx
  · cases h with
    | submit =>
        simp only [Network.submit, Function.update_self, Option.some.injEq] at hx'
        subst hx'
        exact sorted_buildCompilationKey ..
    | move hx h => cases h
    | handle hu h => cases h
    | dismiss hu h => cases h

/-- INTERNAL: one step keeps the frames to reports that came over. -/
theorem frames_step (ho : OverWire H w) (h : NetworkTransition H w e w') (hc : CameOver H e) :
    ∀ c u f, w'.conns c = some u → u.phase.frame = some f → Reported H f.result := by
  intro c u' f hu' hf
  obtain ⟨u, hu, hf⟩ | rfl := frame_cases h hu' hf
  · exact ho.frames c u f hu hf
  · exact reported_of_cameOver hc

/-- A handler publishes the frame that it is at. -/
theorem reported_of_keyed (ho : OverWire H w) {c : ConnId} {u : WorkerConn} {f : Completion}
    {pubKey : Bytes} (hu : w.conns c = some u) (hphase : u.phase = .keyed f pubKey) :
    Reported H f.result := by
  apply ho.frames c u f hu
  rw [hphase]
  rfl

/-- INTERNAL: one step keeps what is published to such reports. -/
theorem published_step (ho : OverWire H w) (h : NetworkTransition H w e w') :
    ∀ (k : Bytes) j, w'.coordinator.published[k]? = some j → Reported H j := by
  intro k j hj
  obtain ⟨hsame, -, -⟩ | ⟨r, -, rfl⟩ | ⟨c, u, f, pubKey, _, _, _, rfl, hu, hphase, -, rfl⟩ :=
    published_cases h
  · rw [hsame] at hj
    exact ho.published k j hj
  · simp only [Network.invalidate, Std.ExtTreeMap.getElem?_erase] at hj
    split at hj
    · cases hj
    · exact ho.published k j hj
  · simp only [publishedAs, Std.ExtTreeMap.getElem?_insert] at hj
    split at hj
    · rw [← Option.some.inj hj]
      exact ho.reported_of_keyed hu hphase
    · exact ho.published k j hj

/-- INTERNAL: one step keeps the promises to answers of such reports. -/
theorem promises_step (ho : OverWire H w) (h : NetworkTransition H w e w') :
    ∀ s res, w'.promises s = some res → Answer H res := by
  intro s res hres
  obtain hold | ⟨c, u, f, pubKey, -, hu, hphase, -, rfl⟩ := promise_cases h hres
  · exact ho.promises s res hold
  · exact ⟨f.result, false, ho.reported_of_keyed hu hphase, rfl⟩

/-- INTERNAL: one step keeps the replies to answers of such reports. -/
theorem sent_step (ho : OverWire H w) (h : NetworkTransition H w e w') :
    ∀ s x res, w'.submits s = some x → x.phase = .replied (.result res) → Answer H res := by
  intro s x' res hx' hreplied
  obtain hx | ⟨x, p, hx, rfl, hsteps⟩ | ⟨-, hphase, -⟩ := submit_cases h hx'
  · exact ho.sent s x' res hx hreplied
  · cases hsteps with
    | move hmove =>
        cases hmove with
        | @hit j hphase hpub =>
            cases hreplied
            exact ⟨j, true, ho.published _ j hpub, rfl⟩
        | @wake res' hphase hres =>
            by_cases hok : res'.error = .Ok
            · simp only [hok, if_true, SubmitPhase.replied.injEq, Reply.result.injEq] at hreplied
              exact hreplied ▸ ho.promises s res' hres
            · simp [hok] at hreplied
        | _ => cases hreplied
    | _ => cases hreplied
  · rw [hphase] at hreplied
    cases hreplied

/-- A step whose payload came over keeps the invariant. -/
theorem step (ho : OverWire H w) (h : NetworkTransition H w e w') (hc : CameOver H e) :
    OverWire H w' where
  requests := ho.requests_step h hc
  keys := ho.keys_step h
  frames := ho.frames_step h hc
  published := ho.published_step h
  promises := ho.promises_step h
  sent := ho.sent_step h

end OverWire

/-! ## Every run -/

/-- What leaves the coordinator arrives as the coordinator holds it: a worker reads the request and
the key of its dispatch, which is the key of that request, and a client reads the result that it is
answered, but for the error message. -/
structure SecondTripKeeps (H : Bytes → Digest) (w : Network) : Prop where
  dispatches : ∀ s D, w.dispatches s = some D →
    D.key.toHex H = keyHexOf H w.host w.root D.request ∧
    (Sendable (SharedChannel.dispatchFrame D.env D.request D.key) →
      decodeDispatch (SharedChannel.dispatchFrame D.env D.request D.key).payload =
        .ok (.ok (D.request, D.key)))
  replies : ∀ s x res, w.submits s = some x → x.phase = .replied (.result res) →
    Sendable (resultFrame H x res) →
    decodeResult (resultFrame H x res).payload = .ok (.ok { res with errorMessage := [] })

/-- What came over crosses the wire a second time unchanged. -/
theorem secondTripKeeps_of_overWire (hw : NetworkWellFormed H w) (ho : OverWire H w) :
    SecondTripKeeps H w where
  dispatches := by
    intro s D hD
    obtain ⟨x, hx, -, hrequest, hkey, -⟩ := hw.dispatch s D hD
    obtain ⟨hhex, hkeyOf⟩ := hw.key s x hx
    rw [hrequest, hkey]
    refine ⟨hhex.symm.trans hkeyOf, fun hsend => ?_⟩
    rw [decodeDispatch_encodeDispatch D.env x.request (ho.keys s x hx) hsend, ho.requests s x hx]
  replies := by
    intro s x res hx hphase hsend
    have hanswer := ho.sent s x res hx hphase
    rw [decodeResult_resultFrame (autotuneCandidates_answer hanswer) hsend,
      wireResult_answer hanswer]

/-- In every run of a coordinator whose clients and workers write their frames with the program's
encoders, whatever the interleaving of its threads.
SOURCE: Distributed.cpp:240-296, Protocol.cpp:144-240 -/
theorem second_trip_keeps (H : Bytes → Digest) (host : Host) (root : Bytes)
    (epoch cacheGen toolchainGen : UInt64) (es : List NetworkEvent) (w : Network)
    (hover : ∀ e ∈ es, CameOver H e)
    (hexec : exec (Network.step H) (.init host root epoch cacheGen toolchainGen) es = some w) :
    SecondTripKeeps H w := by
  have hmeets : Meets (Network.step H) (fun _ e => CameOver H e)
      (.init host root epoch cacheGen toolchainGen) es :=
    meets_of_forall fun e he _ => hover e he
  have hinv := exec_induction
    (fun _ _ _ hc hs ho => OverWire.step ho (networkTransition_of_step hs) hc) hmeets hexec
    (overWire_init host root epoch cacheGen toolchainGen)
  exact secondTripKeeps_of_overWire (networkWellFormed_exec (networkWellFormed_init ..) hexec) hinv

/-! ## A request that changes on its first trip -/

/-- The client asks for a datatype, and for no optimisation. -/
def typedRequest : CompilationRequest := { rank := 2, datatype := .F32, optimizeLevel := 0 }

/-- Neither arrives. -/
def arrivedRequest : CompilationRequest := { rank := 2 }

/-- INTERNAL: the request as it arrives. -/
theorem wireRequest_typedRequest : wireRequest typedRequest = arrivedRequest := by
  have hsmall : ∀ n : UInt64, n.toNat < 2 ^ 53 → wireU64 n = n := by
    intro n hn
    have habs : |(n.toNat : ℤ)| < 2 ^ 53 := by
      rw [abs_of_nonneg (Int.natCast_nonneg _)]
      omega
    exact (wireU64_eq_iff n).mpr (.inl ⟨by omega, exact_of_lt habs⟩)
  have hrank : wireU64 2 = 2 := hsmall 2 (by decide)
  have hzero : wireU64 0 = 0 := hsmall 0 (by decide)
  simp [wireRequest, typedRequest, arrivedRequest, hrank, hzero]

/-- The worker's report on the negation. -/
def negationReport : Completion :=
  answerTo 0 7 {} {} 1 {} (reread (negationResult.toJson fun _ => .zero))

/-- The request is dispatched and answered, and then submitted again. -/
def arrivesTwice : List NetworkEvent :=
  [workerUp 7 {}, .submit arrivedRequest 0 0] ++ dispatchSteps 0 ++
    completionSteps 0 negationReport ++ [.wake 0, .submit arrivedRequest 0 0, .lookup 1]

/-- INTERNAL: the payloads of the run came over. -/
theorem cameOver_arrivesTwice : ∀ e ∈ arrivesTwice, CameOver (fun _ => .zero) e := by
  have hsubmit : Sendable { type := .Submit, payload := encodeSubmit {} typedRequest } := by
    decide +kernel
  intro e he
  cases e with
  | submit r n now =>
      have hr : r = arrivedRequest := by
        simp [arrivesTwice, workerUp, dispatchSteps, completionSteps] at he
        exact he.1
      refine ⟨{}, typedRequest, hsubmit, ?_⟩
      rw [hr, ← wireRequest_typedRequest]
      exact decodeSubmit_encodeSubmit _ _ (length_payload_of_sendable hsubmit)
  | receive c f =>
      have hf : f = negationReport := by
        simp [arrivesTwice, workerUp, dispatchSteps, completionSteps] at he
        exact he.2
      rw [hf]
      exact ⟨{}, negationResult, rfl, sendable_report, decodeCompileResult_encodeCompileResult _ _
        (printable_result _ rfl) (length_payload_of_sendable sendable_report)⟩
  | _ => trivial

/-- A request with a datatype, and its second trip. -/
theorem second_trip_keeps_twice : ∃ w,
    exec (Network.step fun _ => .zero) (.init {} [] 1 1 1) arrivesTwice = some w ∧
      SecondTripKeeps (fun _ => .zero) w := by
  obtain ⟨w, hrun⟩ := Option.isSome_iff_exists.mp (show (exec (Network.step fun _ => .zero)
    (.init {} [] 1 1 1) arrivesTwice).isSome = true by decide +kernel)
  exact ⟨w, hrun, second_trip_keeps _ {} [] 1 1 1 arrivesTwice w cameOver_arrivesTwice hrun⟩

end CompilationFabric.Analysis
