import CompilationFabric.Library.TransitionSystem
import CompilationFabric.Model.Coordinator

/-!
# What a step of the coordinator can do

`NetworkTransition` lists the ways a step ends, each with its guard and the state it leads
to, and `networkTransition_of_step` says that the step function does nothing else.

Most steps only move one thread on: `SubmitMoves` are the steps after which only the phase of
a Submit is another one, `ConnMoves` those after which only the phase of a worker connection
is.  `Dismissed` is a frame that the handler is done with and has not published.
-/

set_option autoImplicit false

namespace CompilationFabric.Interface

open CompilationFabric.Library.TransitionSystem
open CompilationFabric.Model

variable {H : Bytes → Digest} {w w' : Network} {e : NetworkEvent}

/-! ## The ways -/

/-- The envelope with one more counter in it. -/
def stampCounter (m : DistributedCoordinator) (env : ProtoEnvelope) : Stamp → ProtoEnvelope
  | .epoch => { env with epoch := m.epoch }
  | .cacheGen => { env with cacheGen := m.cacheGen }
  | .toolchainGen => { env with toolchainGen := m.toolchainGen }
  | .attemptId => env

/-- The field after a counter. -/
def nextStamp : Stamp → Stamp
  | .epoch => .cacheGen
  | .cacheGen => .toolchainGen
  | .toolchainGen => .attemptId
  | .attemptId => .attemptId

/-- A Submit moves on, and nothing else changes. -/
inductive SubmitMoves (w : Network) (s : SubmitId) (x : Submit) :
    NetworkEvent → SubmitPhase → Prop
  | hit {j : Json} (hphase : x.phase = .bound)
      (hpub : w.coordinator.published[x.keyHex]? = some j) :
      SubmitMoves w s x (.lookup s) (.replied (.result { resultFromJson j with reused := true }))
  | miss (hphase : x.phase = .bound) (hpub : w.coordinator.published[x.keyHex]? = none) :
      SubmitMoves w s x (.lookup s) .missed
  | select {worker : WorkerId} (hphase : x.phase = .missed)
      (hworker : w.coordinator.selectWorker x.wantCuda = some worker) :
      SubmitMoves w s x (.select s) (.selected worker)
  | noWorker (hphase : x.phase = .missed)
      (hworker : w.coordinator.selectWorker x.wantCuda = none) :
      SubmitMoves w s x (.select s)
        (.replied (.reject .NoBackend (ascii "no capable worker")))
  | counter {env : ProtoEnvelope} {next : Stamp} (hphase : x.phase = .stamping env next)
      (hnext : next ≠ .attemptId) :
      SubmitMoves w s x (.stamp s)
        (.stamping (stampCounter w.coordinator env next) (nextStamp next))
  | channel {env : ProtoEnvelope} {c : ConnId} (hphase : x.phase = .stamped env)
      (hchannel : w.coordinator.workerChannels[env.workerId]? = some c) :
      SubmitMoves w s x (.findChannel s) (.sending env c)
  | noChannel {env : ProtoEnvelope} (hphase : x.phase = .stamped env)
      (hchannel : w.coordinator.workerChannels[env.workerId]? = none) :
      SubmitMoves w s x (.findChannel s) (.failed .NoBackend (ascii "worker gone"))
  | unsent {env : ProtoEnvelope} {c : ConnId} (hphase : x.phase = .sending env c) :
      SubmitMoves w s x (.send s false) (.failed .IOError (ascii "dispatch failed"))
  | wake {res : CompilationResult} (hphase : x.phase = .waiting)
      (hres : w.promises s = some res) :
      SubmitMoves w s x (.wake s) (.replied
        (if res.error = .Ok then .result res else .reject res.error res.errorMessage))

/-- The handler of a worker connection moves on, and nothing else changes. -/
inductive ConnMoves (w : Network) (c : ConnId) (x : WorkerConn) : NetworkEvent → ConnPhase → Prop
  | receive {f : Completion} (hphase : x.phase = .idle)
      (hanswers : ∀ d, f.answers = some d → w.answers c f d = true) :
      ConnMoves w c x (.receive c f) (.checking f .epoch)
  | checked {f : Completion} {next : AuthorityCheck} (hphase : x.phase = .checking f next)
      (hnext : next ≠ .registry) (hmatch : w.coordinator.counterMatches f.env next = true) :
      ConnMoves w c x (.check c) (.checking f next.next)
  | accepted {f : Completion} (hphase : x.phase = .checking f .registry)
      (hauth : w.coordinator.authorizes f.env = true) (hsuccess : f.success = true) :
      ConnMoves w c x (.authorize c) (.accepted f)

/-- The handler is done with a frame that it does not publish; `stale` when it counts it. -/
inductive Dismissed (w : Network) (c : ConnId) (x : WorkerConn) (f : Completion) :
    NetworkEvent → Bool → Prop
  | counter {next : AuthorityCheck} (hphase : x.phase = .checking f next)
      (hnext : next ≠ .registry) (hmatch : w.coordinator.counterMatches f.env next = false) :
      Dismissed w c x f (.check c) true
  | unauthorized (hphase : x.phase = .checking f .registry)
      (hauth : w.coordinator.authorizes f.env = false) : Dismissed w c x f (.authorize c) true
  | failure (hphase : x.phase = .checking f .registry)
      (hauth : w.coordinator.authorizes f.env = true) (hsuccess : f.success = false) :
      Dismissed w c x f (.authorize c) false

/-- A frame is dismissed while it is checked. -/
theorem Dismissed.checking {c : ConnId} {x : WorkerConn} {f : Completion} {stale : Bool}
    (h : Dismissed w c x f e stale) : ∃ next, x.phase = .checking f next := by
  cases h with
  | counter hphase => exact ⟨_, hphase⟩
  | unauthorized hphase => exact ⟨_, hphase⟩
  | failure hphase => exact ⟨_, hphase⟩

/-- A handler that only moves on runs before and after. -/
theorem ConnMoves.running {c : ConnId} {x : WorkerConn} {phase : ConnPhase}
    (h : ConnMoves w c x e phase) : x.phase.running = true ∧ phase.running = true := by
  cases h with
  | receive hphase => exact ⟨by rw [hphase]; rfl, rfl⟩
  | checked hphase => exact ⟨by rw [hphase]; rfl, rfl⟩
  | accepted hphase => exact ⟨by rw [hphase]; rfl, rfl⟩

/-- The state after a dismissal. -/
def dismiss (w : Network) (c : ConnId) (x : WorkerConn) (f : Completion) (stale : Bool) :
    Network :=
  { w.finish c x f with
    coordinator := { w.coordinator with
      rejectedStale :=
        if stale then w.coordinator.rejectedStale + 1 else w.coordinator.rejectedStale } }

/-- The promise is pending under the request id.
SOURCE: Distributed.cpp:279-281 -/
def pended (w : Network) (s : SubmitId) (x : Submit) (worker : WorkerId) : Network :=
  { w.setPhase s x (.stamping { workerId := worker, requestId := x.request.requestId } .epoch) with
    coordinator := { w.coordinator with
      pending := w.coordinator.pending.insert x.request.requestId.toHex s } }

/-- The attempt has its number. -/
def numbered (w : Network) (s : SubmitId) (x : Submit) (env : ProtoEnvelope) : Network :=
  { w.setPhase s x
      (.stamped { env with attemptId := TypedId.fromU64 (w.coordinator.dispatched + 1) }) with
    coordinator := { w.coordinator with dispatched := w.coordinator.dispatched + 1 } }

/-- The dispatch is under way. -/
def dispatched (w : Network) (s : SubmitId) (x : Submit) (env : ProtoEnvelope) (c : ConnId) :
    Network :=
  { w.setPhase s x .waiting with
    dispatches := Function.update w.dispatches s
      (some { channel := c, env, request := x.request, key := x.key })
    attempts := env.attempt :: w.attempts }

/-- The pending entry of the request id is gone. -/
def gaveUp (w : Network) (s : SubmitId) (x : Submit) (code : ErrorCode) (message : Bytes) :
    Network :=
  { w.setPhase s x (.replied (.reject code message)) with
    coordinator := { w.coordinator with
      pending := w.coordinator.pending.erase x.request.requestId.toHex } }

/-- The key to publish a frame under. -/
def pubKeyOf (m : DistributedCoordinator) (env : ProtoEnvelope) : Bytes :=
  (m.reqToKey[env.requestId.toHex]?).getD env.requestId.toHex

/-- The frame has its key. -/
def resolved (w : Network) (c : ConnId) (x : WorkerConn) (f : Completion) : Network :=
  { w.setConn c x (.keyed f (pubKeyOf w.coordinator f.env)) with
    coordinator := { w.coordinator with completed := w.coordinator.completed + 1 } }

/-- The result is published; `pending` and `duplicates` differ between the two ways. -/
def publishedAs (w : Network) (c : ConnId) (x : WorkerConn) (f : Completion) (pubKey : Bytes)
    (pending : Std.ExtTreeMap Bytes SubmitId compare) (duplicates : UInt64)
    (promises : SubmitId → Option CompilationResult) : Network :=
  { w.finish c x f with
    coordinator := { w.coordinator with
      published := w.coordinator.published.insert pubKey f.result
      artifactGen := recordGeneration w.coordinator.artifactGen f.env
      pending := pending
      duplicateSuppressed := duplicates }
    promises := promises
    attempts := w.attempts.erase f.env.attempt
    publications := Function.update w.publications pubKey (some ⟨w.publicationCount, f.answers⟩)
    publicationCount := w.publicationCount + 1 }

/-- What a publication does with the promise that is pending for its request. -/
inductive Resolves (w : Network) (f : Completion) :
    Std.ExtTreeMap Bytes SubmitId compare → UInt64 → (SubmitId → Option CompilationResult) → Prop
  | pending {s : SubmitId} (hs : w.coordinator.pending[f.env.requestId.toHex]? = some s) :
      Resolves w f (w.coordinator.pending.erase f.env.requestId.toHex)
        w.coordinator.duplicateSuppressed
        (Function.update w.promises s (some (resultFromJson f.result)))
  | duplicate (hnone : w.coordinator.pending[f.env.requestId.toHex]? = none) :
      Resolves w f w.coordinator.pending (w.coordinator.duplicateSuppressed + 1) w.promises

/-- The connection's entries are gone with it. -/
def disconnected (w : Network) (c : ConnId) (x : WorkerConn) : Network :=
  { w.setConn c x .ended with
    coordinator := { w.coordinator with
      workers := w.coordinator.workers.erase x.env.workerId
      workerChannels := w.coordinator.workerChannels.erase x.env.workerId } }

/-- Every way a step can end. -/
inductive NetworkTransition (H : Bytes → Digest) (w : Network) : NetworkEvent → Network → Prop
  | submit {r : CompilationRequest} {n : UInt64} {now : Int64} :
      NetworkTransition H w (.submit r n now) (w.submit H r n now)
  | move {s : SubmitId} {x : Submit} {e : NetworkEvent} {phase : SubmitPhase}
      (hx : w.submits s = some x) (h : SubmitMoves w s x e phase) :
      NetworkTransition H w e (w.setPhase s x phase)
  | pend {s : SubmitId} {x : Submit} {worker : WorkerId} (hx : w.submits s = some x)
      (hphase : x.phase = .selected worker) :
      NetworkTransition H w (.pend s) (pended w s x worker)
  | attempt {s : SubmitId} {x : Submit} {env : ProtoEnvelope} (hx : w.submits s = some x)
      (hphase : x.phase = .stamping env .attemptId) :
      NetworkTransition H w (.stamp s) (numbered w s x env)
  | sent {s : SubmitId} {x : Submit} {env : ProtoEnvelope} {c : ConnId}
      (hx : w.submits s = some x) (hphase : x.phase = .sending env c) :
      NetworkTransition H w (.send s true) (dispatched w s x env c)
  | giveUp {s : SubmitId} {x : Submit} {code : ErrorCode} {message : Bytes}
      (hx : w.submits s = some x) (hphase : x.phase = .failed code message) :
      NetworkTransition H w (.giveUp s) (gaveUp w s x code message)
  | invalidate {r : CompilationRequestId} : NetworkTransition H w (.invalidate r) (w.invalidate r)
  | rollEpoch : NetworkTransition H w .rollEpoch w.rollEpoch
  | bumpCacheGeneration : NetworkTransition H w .bumpCacheGeneration w.bumpCacheGeneration
  | bumpToolchainGeneration :
      NetworkTransition H w .bumpToolchainGeneration w.bumpToolchainGeneration
  | register {env : ProtoEnvelope} {caps : Json} :
      NetworkTransition H w (.register env caps) (w.register env caps)
  | handle {c : ConnId} {x : WorkerConn} {e : NetworkEvent} {phase : ConnPhase}
      (hx : w.conns c = some x) (h : ConnMoves w c x e phase) :
      NetworkTransition H w e (w.setConn c x phase)
  | dismiss {c : ConnId} {x : WorkerConn} {f : Completion} {e : NetworkEvent} {stale : Bool}
      (hx : w.conns c = some x) (h : Dismissed w c x f e stale) :
      NetworkTransition H w e (dismiss w c x f stale)
  | resolve {c : ConnId} {x : WorkerConn} {f : Completion} (hx : w.conns c = some x)
      (hphase : x.phase = .accepted f) : NetworkTransition H w (.resolve c) (resolved w c x f)
  | publish {c : ConnId} {x : WorkerConn} {f : Completion} {pubKey : Bytes}
      {pending : Std.ExtTreeMap Bytes SubmitId compare} {duplicates : UInt64}
      {promises : SubmitId → Option CompilationResult} (hx : w.conns c = some x)
      (hphase : x.phase = .keyed f pubKey) (h : Resolves w f pending duplicates promises) :
      NetworkTransition H w (.publish c)
        (publishedAs w c x f pubKey pending duplicates promises)
  | lost {c : ConnId} {x : WorkerConn} (hx : w.conns c = some x) (hphase : x.phase = .idle) :
      NetworkTransition H w (.lost c) (disconnected w c x)
  | shutdown {c : ConnId} {x : WorkerConn} (hx : w.conns c = some x) (hphase : x.phase = .idle) :
      NetworkTransition H w (.shutdown c) (w.setConn c x .ended)

/-! ## Every step is one of them -/

/-- INTERNAL: the ways a lookup ends.
SOURCE: Distributed.cpp:257-267 -/
theorem transition_lookup {s : SubmitId} (h : w.lookupPublished s = some w') :
    NetworkTransition H w (.lookup s) w' := by
  obtain ⟨x, hx, h⟩ := Option.bind_eq_some_iff.mp h
  split at h
  · next hphase =>
    split at h
    · next hit hpub =>
      cases h
      exact .move hx (.hit hphase hpub)
    · next hpub =>
      cases h
      exact .move hx (.miss hphase hpub)
  · cases h

/-- INTERNAL: the ways a selection ends.
SOURCE: Distributed.cpp:268-277 -/
theorem transition_select {s : SubmitId} (h : w.selectWorker s = some w') :
    NetworkTransition H w (.select s) w' := by
  obtain ⟨x, hx, h⟩ := Option.bind_eq_some_iff.mp h
  split at h
  · next hphase =>
    split at h
    · next hworker =>
      cases h
      exact .move hx (.select hphase hworker)
    · next hworker =>
      cases h
      exact .move hx (.noWorker hphase hworker)
  · cases h

/-- INTERNAL: the promise is made in one way.
SOURCE: Distributed.cpp:279-281 -/
theorem transition_pend {s : SubmitId} (h : w.pend s = some w') :
    NetworkTransition H w (.pend s) w' := by
  obtain ⟨x, hx, h⟩ := Option.bind_eq_some_iff.mp h
  split at h
  · next hphase =>
    cases h
    exact .pend hx hphase
  · cases h

/-- INTERNAL: the ways a field of the envelope is filled. -/
theorem transition_stamp {s : SubmitId} (h : w.stamp s = some w') :
    NetworkTransition H w (.stamp s) w' := by
  obtain ⟨x, hx, h⟩ := Option.bind_eq_some_iff.mp h
  split at h
  · next hphase =>
    cases h
    exact .move hx (.counter hphase (by simp))
  · next hphase =>
    cases h
    exact .move hx (.counter hphase (by simp))
  · next hphase =>
    cases h
    exact .move hx (.counter hphase (by simp))
  · next hphase =>
    cases h
    exact .attempt hx hphase
  · cases h

/-- INTERNAL: the worker has a channel or it has none. -/
theorem transition_findChannel {s : SubmitId} (h : w.findChannel s = some w') :
    NetworkTransition H w (.findChannel s) w' := by
  obtain ⟨x, hx, h⟩ := Option.bind_eq_some_iff.mp h
  split at h
  · next hphase =>
    split at h
    · next hchannel =>
      cases h
      exact .move hx (.channel hphase hchannel)
    · next hchannel =>
      cases h
      exact .move hx (.noChannel hphase hchannel)
  · cases h

/-- INTERNAL: a dispatch is sent or it is not. -/
theorem transition_send {s : SubmitId} {ok : Bool} (h : w.sendDispatch s ok = some w') :
    NetworkTransition H w (.send s ok) w' := by
  obtain ⟨x, hx, h⟩ := Option.bind_eq_some_iff.mp h
  split at h
  · next hphase =>
    cases ok with
    | true =>
        cases h
        exact .sent hx hphase
    | false =>
        cases h
        exact .move hx (.unsent hphase)
  · cases h

/-- INTERNAL: a Submit gives up in one way. -/
theorem transition_giveUp {s : SubmitId} (h : w.giveUp s = some w') :
    NetworkTransition H w (.giveUp s) w' := by
  obtain ⟨x, hx, h⟩ := Option.bind_eq_some_iff.mp h
  split at h
  · next hphase =>
    cases h
    exact .giveUp hx hphase
  · cases h

/-- INTERNAL: a Submit wakes up to its result. -/
theorem transition_networkWake {s : SubmitId} (h : w.wake s = some w') :
    NetworkTransition H w (.wake s) w' := by
  obtain ⟨x, hx, h⟩ := Option.bind_eq_some_iff.mp h
  split at h
  · next hphase =>
    obtain ⟨res, hres, h⟩ := Option.bind_eq_some_iff.mp h
    cases h
    exact .move hx (.wake hphase hres)
  · cases h

/-- INTERNAL: the ways a frame is received. -/
theorem transition_receive {c : ConnId} {f : Completion} (h : w.receive c f = some w') :
    NetworkTransition H w (.receive c f) w' := by
  obtain ⟨x, hx, h⟩ := Option.bind_eq_some_iff.mp h
  split at h
  · next hphase =>
    split at h
    · next hanswers =>
      cases h
      exact .handle hx (.receive hphase fun d hd => Option.all_eq_true _ _ |>.mp hanswers d hd)
    · cases h
  · cases h

/-- INTERNAL: the ways the worker of a frame is checked. -/
theorem transition_networkCheck {c : ConnId} (h : w.check c = some w') :
    NetworkTransition H w (.check c) w' := by
  obtain ⟨x, hx, h⟩ := Option.bind_eq_some_iff.mp h
  split at h
  · cases h
  · next f next hnot hphase =>
    have hnext : next ≠ .registry := by
      rintro rfl
      exact hnot rfl
    split at h
    · next hmatch =>
      cases h
      exact .handle hx (.checked hphase hnext hmatch)
    · next hmatch =>
      cases h
      exact .dismiss hx (.counter hphase hnext (Bool.eq_false_of_not_eq_true hmatch))
  · cases h

/-- INTERNAL: the ways the authority of a frame is checked. -/
theorem transition_authorize {c : ConnId} (h : w.authorize c = some w') :
    NetworkTransition H w (.authorize c) w' := by
  obtain ⟨x, hx, h⟩ := Option.bind_eq_some_iff.mp h
  split at h
  · next hphase =>
    split at h
    · next hauth =>
      split at h
      · next hsuccess =>
        cases h
        exact .handle hx (.accepted hphase hauth hsuccess)
      · next hsuccess =>
        cases h
        exact .dismiss hx (.failure hphase hauth (Bool.eq_false_of_not_eq_true hsuccess))
    · next hauth =>
      cases h
      exact .dismiss hx (.unauthorized hphase (Bool.eq_false_of_not_eq_true hauth))
  · cases h

/-- INTERNAL: the key of a frame is found in one way. -/
theorem transition_resolve {c : ConnId} (h : w.resolve c = some w') :
    NetworkTransition H w (.resolve c) w' := by
  obtain ⟨x, hx, h⟩ := Option.bind_eq_some_iff.mp h
  split at h
  · next hphase =>
    cases h
    exact .resolve hx hphase
  · cases h

/-- INTERNAL: the ways a result is published. -/
theorem transition_publish {c : ConnId} (h : w.publish c = some w') :
    NetworkTransition H w (.publish c) w' := by
  obtain ⟨x, hx, h⟩ := Option.bind_eq_some_iff.mp h
  split at h
  · next f pubKey hphase =>
    dsimp only at h
    split at h
    · next s hs =>
      cases h
      exact .publish hx hphase (.pending hs)
    · next hnone =>
      cases h
      exact .publish hx hphase (.duplicate hnone)
  · cases h

/-- INTERNAL: the ways a connection is lost. -/
theorem transition_lost {c : ConnId} (h : w.lost c = some w') :
    NetworkTransition H w (.lost c) w' := by
  obtain ⟨x, hx, h⟩ := Option.bind_eq_some_iff.mp h
  split at h
  · next hphase =>
    cases h
    exact .lost hx hphase
  · cases h

/-- INTERNAL: the ways a connection is shut down. -/
theorem transition_shutdown {c : ConnId} (h : w.shutdown c = some w') :
    NetworkTransition H w (.shutdown c) w' := by
  obtain ⟨x, hx, h⟩ := Option.bind_eq_some_iff.mp h
  split at h
  · next hphase =>
    cases h
    exact .shutdown hx hphase
  · cases h

/-- Every step is a transition. -/
theorem networkTransition_of_step (h : Network.step H w e = some w') :
    NetworkTransition H w e w' := by
  cases e with
  | submit r n now =>
      cases h
      exact .submit
  | lookup s => exact transition_lookup h
  | select s => exact transition_select h
  | pend s => exact transition_pend h
  | stamp s => exact transition_stamp h
  | findChannel s => exact transition_findChannel h
  | send s ok => exact transition_send h
  | giveUp s => exact transition_giveUp h
  | wake s => exact transition_networkWake h
  | invalidate r =>
      cases h
      exact .invalidate
  | rollEpoch =>
      cases h
      exact .rollEpoch
  | bumpCacheGeneration =>
      cases h
      exact .bumpCacheGeneration
  | bumpToolchainGeneration =>
      cases h
      exact .bumpToolchainGeneration
  | register env caps =>
      cases h
      exact .register
  | receive c f => exact transition_receive h
  | check c => exact transition_networkCheck h
  | authorize c => exact transition_authorize h
  | resolve c => exact transition_resolve h
  | publish c => exact transition_publish h
  | lost c => exact transition_lost h
  | shutdown c => exact transition_shutdown h

end CompilationFabric.Interface
