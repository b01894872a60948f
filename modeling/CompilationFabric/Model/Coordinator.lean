import CompilationFabric.Model.CoordinatorState

/-!
# The coordinator

The operations of `DistributedCoordinator`: what a Submit, an Invalidate and a Control frame
do, and what the handler of a worker connection does with a Register frame and with every
CompileResult frame after it.  `Network.step` puts them together over one type of events; an
event is one critical section, one atomic access, or one frame that comes or goes.

Frames are decoded here: a payload that does not decode is rejected before anything is read
or written.  Whether a dispatch can be sent is the channel's answer.
-/

set_option autoImplicit false

namespace CompilationFabric.Model

/-! ## Keys -/

/-- The configuration of the coordinator's own fabric, which it only plans with.
SOURCE: Distributed.cpp:117-118 -/
def coordinatorConfig (root : Bytes) : CompilationFabricConfig :=
  { artifactRoot := root, persistenceEnabled := false, allowCuda := false }

/-- The plan of a request, or an empty one.
SOURCE: Distributed.cpp:250-251 -/
def submitPlan (h : Host) (root : Bytes) (counter : UInt64) (now : Int64)
    (r : CompilationRequest) : CompilationPlan :=
  match plan h (coordinatorConfig root) counter now r with
  | .ok p => p
  | .error _ => {}

/-- SOURCE: Distributed.cpp:253-254 -/
def submitKey (r : CompilationRequest) (p : CompilationPlan) : CompilationKey :=
  buildCompilationKey r p
    { compiler := ascii "cf-cpu", backend := cpuBackend, frontend := ascii "cf-frontend" }

/-- The key the coordinator computes for a request, as it is looked up. -/
def keyHexOf (H : Bytes → Digest) (h : Host) (root : Bytes) (r : CompilationRequest) : Bytes :=
  (submitKey r (submitPlan h root 0 0 r)).toHex H

/-- Neither the number nor the time of a plan is part of the key. -/
theorem submitKey_submitPlan (h : Host) (root : Bytes) (counter : UInt64) (now : Int64)
    (r : CompilationRequest) :
    submitKey r (submitPlan h root counter now r) = submitKey r (submitPlan h root 0 0 r) := by
  unfold submitPlan plan
  by_cases hback : r.backend ≠ [] ∧
      ¬ (h.backends (coordinatorConfig root)).contains r.backend ∧ r.backend ≠ nvccBackend
  · simp only [if_pos hback]
  · simp only [if_neg hback]
    rfl

/-! ## Capabilities -/

/-- A text that a worker has advertised. -/
def capability (caps : Json) (name : String) : Option Bytes :=
  match caps.get name with
  | some (.str s) => some s
  | _ => none

/-- SOURCE: Distributed.cpp:273-275 -/
def capable (wantCuda : Bool) (caps : Json) : Bool :=
  let bk := (capability caps "backend").getD cpuBackend
  bk = if wantCuda then nvrtcBackend else cpuBackend

namespace DistributedCoordinator

/-- The first capable worker, in the order of the ids.
SOURCE: Distributed.cpp:268-277 -/
def selectWorker (m : DistributedCoordinator) (wantCuda : Bool) : Option WorkerId :=
  (m.workers.toList.find? fun p => capable wantCuda p.2).map Prod.fst

/-- One of the comparisons with a counter that `rejectStalePublication` begins with.
SOURCE: Distributed.cpp:162-163 -/
def counterMatches (m : DistributedCoordinator) (env : ProtoEnvelope) : AuthorityCheck → Bool
  | .epoch => env.epoch = m.epoch
  | .cacheGen => env.cacheGen = m.cacheGen
  | .toolchainGen => env.toolchainGen = m.toolchainGen
  | .registry => true

/-- The artifact generation is not zero, and above the one on record.
SOURCE: Distributed.cpp:169-171 -/
def freshArtifact (m : DistributedCoordinator) (env : ProtoEnvelope) : Bool :=
  env.artifactGen ≠ 0 &&
    match m.artifactGen[env.artifactId.toHex]? with
    | some gen => gen < env.artifactGen
    | none => true

/-- The part of `rejectStalePublication` under the lock.
SOURCE: Distributed.cpp:164-175 -/
def authorizes (m : DistributedCoordinator) (env : ProtoEnvelope) : Bool :=
  (m.workers[env.workerId]?.bind fun caps => capability caps "boot_id") = some env.bootId.toHex &&
    m.freshArtifact env && m.pending.contains env.requestId.toHex

end DistributedCoordinator

/-- SOURCE: Distributed.cpp:209-210 -/
def recordGeneration (gens : Std.ExtTreeMap Bytes UInt64 compare) (env : ProtoEnvelope) :
    Std.ExtTreeMap Bytes UInt64 compare :=
  match gens[env.artifactId.toHex]? with
  | some gen =>
      if gen < env.artifactGen then gens.insert env.artifactId.toHex env.artifactGen else gens
  | none => gens.insert env.artifactId.toHex env.artifactGen

/-- The check after a given one. -/
def AuthorityCheck.next : AuthorityCheck → AuthorityCheck
  | .epoch => .cacheGen
  | .cacheGen => .toolchainGen
  | .toolchainGen => .registry
  | .registry => .registry

namespace Network

/-! ## A Submit frame -/

/-- The key is computed, and the request id is bound to it.
SOURCE: Distributed.cpp:247-256 -/
def submit (H : Bytes → Digest) (w : Network) (request : CompilationRequest)
    (planCounter : UInt64) (now : Int64) : Network :=
  let plan := submitPlan w.host w.root planCounter now request
  let key := submitKey request plan
  { w with
    coordinator := { w.coordinator with
      reqToKey := w.coordinator.reqToKey.insert request.requestId.toHex (key.toHex H) }
    submits := Function.update w.submits w.nextSubmit
      (some { request, key, wantCuda := plan.backend = nvrtcBackend, keyHex := key.toHex H
              phase := .bound })
    nextSubmit := w.nextSubmit + 1 }

/-- SOURCE: Distributed.cpp:257-267 -/
def lookupPublished (w : Network) (s : SubmitId) : Option Network := do
  let x ← w.submits s
  match x.phase with
  | .bound =>
      match w.coordinator.published[x.keyHex]? with
      | some hit =>
          some (w.setPhase s x (.replied (.result { resultFromJson hit with reused := true })))
      | none => some (w.setPhase s x .missed)
  | _ => none

/-- SOURCE: Distributed.cpp:268-278 -/
def selectWorker (w : Network) (s : SubmitId) : Option Network := do
  let x ← w.submits s
  match x.phase with
  | .missed =>
      match w.coordinator.selectWorker x.wantCuda with
      | some selected => some (w.setPhase s x (.selected selected))
      | none =>
          some (w.setPhase s x (.replied (.reject .NoBackend (ascii "no capable worker"))))
  | _ => none

/-- SOURCE: Distributed.cpp:279-281 -/
def pend (w : Network) (s : SubmitId) : Option Network := do
  let x ← w.submits s
  match x.phase with
  | .selected worker =>
      some { w.setPhase s x
          (.stamping { workerId := worker, requestId := x.request.requestId } .epoch) with
        coordinator := { w.coordinator with
          pending := w.coordinator.pending.insert x.request.requestId.toHex s } }
  | _ => none

/-- The next field of the envelope; the attempt's number is drawn from `dispatched_`.
SOURCE: Distributed.cpp:282-283 -/
def stamp (w : Network) (s : SubmitId) : Option Network := do
  let x ← w.submits s
  match x.phase with
  | .stamping env .epoch =>
      some (w.setPhase s x (.stamping { env with epoch := w.coordinator.epoch } .cacheGen))
  | .stamping env .cacheGen =>
      some (w.setPhase s x
        (.stamping { env with cacheGen := w.coordinator.cacheGen } .toolchainGen))
  | .stamping env .toolchainGen =>
      some (w.setPhase s x
        (.stamping { env with toolchainGen := w.coordinator.toolchainGen } .attemptId))
  | .stamping env .attemptId =>
      let attempt := w.coordinator.dispatched + 1
      some { w.setPhase s x (.stamped { env with attemptId := TypedId.fromU64 attempt }) with
        coordinator := { w.coordinator with dispatched := attempt } }
  | _ => none

/-- SOURCE: Distributed.cpp:284-286 -/
def findChannel (w : Network) (s : SubmitId) : Option Network := do
  let x ← w.submits s
  match x.phase with
  | .stamped env =>
      match w.coordinator.workerChannels[env.workerId]? with
      | some channel => some (w.setPhase s x (.sending env channel))
      | none => some (w.setPhase s x (.failed .NoBackend (ascii "worker gone")))
  | _ => none

/-- SOURCE: Distributed.cpp:287-288 -/
def sendDispatch (w : Network) (s : SubmitId) (ok : Bool) : Option Network := do
  let x ← w.submits s
  match x.phase with
  | .sending env channel =>
      if ok then
        some { w.setPhase s x .waiting with
          dispatches := Function.update w.dispatches s
            (some { channel, env, request := x.request, key := x.key })
          attempts := env.attempt :: w.attempts }
      else some (w.setPhase s x (.failed .IOError (ascii "dispatch failed")))
  | _ => none

/-- SOURCE: Distributed.cpp:286, 288 -/
def giveUp (w : Network) (s : SubmitId) : Option Network := do
  let x ← w.submits s
  match x.phase with
  | .failed code message =>
      some { w.setPhase s x (.replied (.reject code message)) with
        coordinator := { w.coordinator with
          pending := w.coordinator.pending.erase x.request.requestId.toHex } }
  | _ => none

/-- The future is ready.
SOURCE: Distributed.cpp:289-295 -/
def wake (w : Network) (s : SubmitId) : Option Network := do
  let x ← w.submits s
  match x.phase with
  | .waiting =>
      let res ← w.promises s
      some (w.setPhase s x (.replied
        (if res.error = .Ok then .result res else .reject res.error res.errorMessage)))
  | _ => none

/-! ## Invalidate and Control frames -/

/-- SOURCE: Distributed.cpp:241-245 -/
def invalidate (w : Network) (r : CompilationRequestId) : Network :=
  { w with
    coordinator := { w.coordinator with
      published := w.coordinator.published.erase r.toHex }
    publications := Function.update w.publications r.toHex none }

/-- SOURCE: Distributed.cpp:121 -/
def rollEpoch (w : Network) : Network :=
  { w with coordinator := { w.coordinator with epoch := w.coordinator.epoch + 1 } }

/-- SOURCE: Distributed.cpp:122 -/
def bumpCacheGeneration (w : Network) : Network :=
  { w with coordinator := { w.coordinator with cacheGen := w.coordinator.cacheGen + 1 } }

/-- SOURCE: Distributed.cpp:123 -/
def bumpToolchainGeneration (w : Network) : Network :=
  { w with
    coordinator := { w.coordinator with toolchainGen := w.coordinator.toolchainGen + 1 } }

/-! ## A worker connection -/

/-- SOURCE: Distributed.cpp:179-187 -/
def register (w : Network) (env : ProtoEnvelope) (caps : Json) : Network :=
  { w with
    coordinator := { w.coordinator with
      workers := w.coordinator.workers.insert env.workerId caps
      workerChannels := w.coordinator.workerChannels.insert env.workerId w.nextConn }
    conns := Function.update w.conns w.nextConn (some { env, phase := .idle })
    nextConn := w.nextConn + 1 }

/-- The frame answers the dispatch it says: that was sent on the connection and is not answered
yet, and the worker has copied its ids. -/
def answers (w : Network) (c : ConnId) (f : Completion) (d : SubmitId) : Bool :=
  match w.dispatches d with
  | some D =>
      !w.processed d && D.channel = c && D.env.requestId = f.env.requestId &&
        D.env.attemptId = f.env.attemptId
  | none => false

/-- SOURCE: Distributed.cpp:189-197 -/
def receive (w : Network) (c : ConnId) (f : Completion) : Option Network := do
  let x ← w.conns c
  match x.phase with
  | .idle =>
      if f.answers.all (w.answers c f) then some (w.setConn c x (.checking f .epoch)) else none
  | _ => none

/-- The handler is done with a frame. -/
def finish (w : Network) (c : ConnId) (x : WorkerConn) (f : Completion) : Network :=
  { w.setConn c x .idle with processed := fun d => w.processed d || f.answers = some d }

/-- A frame that is counted in `rejectedStale_`. -/
def rejectStale (w : Network) (c : ConnId) (x : WorkerConn) (f : Completion) : Network :=
  { w.finish c x f with
    coordinator := { w.coordinator with rejectedStale := w.coordinator.rejectedStale + 1 } }

/-- SOURCE: Distributed.cpp:162-163 -/
def check (w : Network) (c : ConnId) : Option Network := do
  let x ← w.conns c
  match x.phase with
  | .checking _ .registry => none
  | .checking f next =>
      if w.coordinator.counterMatches f.env next then
        some (w.setConn c x (.checking f next.next))
      else some (w.rejectStale c x f)
  | _ => none

/-- SOURCE: Distributed.cpp:164-176, 196-198 -/
def authorize (w : Network) (c : ConnId) : Option Network := do
  let x ← w.conns c
  match x.phase with
  | .checking f .registry =>
      if w.coordinator.authorizes f.env then
        if f.success then some (w.setConn c x (.accepted f)) else some (w.finish c x f)
      else some (w.rejectStale c x f)
  | _ => none

/-- The key to publish under: what the request id is bound to now.
SOURCE: Distributed.cpp:202-205 -/
def resolve (w : Network) (c : ConnId) : Option Network := do
  let x ← w.conns c
  match x.phase with
  | .accepted f =>
      let keyStr := f.env.requestId.toHex
      let pubKey := (w.coordinator.reqToKey[keyStr]?).getD keyStr
      some { w.setConn c x (.keyed f pubKey) with
        coordinator := { w.coordinator with completed := w.coordinator.completed + 1 } }
  | _ => none

/-- SOURCE: Distributed.cpp:206-214 -/
def publish (w : Network) (c : ConnId) : Option Network := do
  let x ← w.conns c
  match x.phase with
  | .keyed f pubKey =>
      let keyStr := f.env.requestId.toHex
      let m := { w.coordinator with
        published := w.coordinator.published.insert pubKey f.result
        artifactGen := recordGeneration w.coordinator.artifactGen f.env }
      let w' : Network :=
        { w.finish c x f with
          attempts := w.attempts.erase f.env.attempt
          publications := Function.update w.publications pubKey
            (some ⟨w.publicationCount, f.answers⟩)
          publicationCount := w.publicationCount + 1 }
      match w.coordinator.pending[keyStr]? with
      | some s =>
          some { w' with
            coordinator := { m with pending := m.pending.erase keyStr }
            promises := Function.update w.promises s (some (resultFromJson f.result)) }
      | none =>
          some { w' with
            coordinator := { m with duplicateSuppressed := m.duplicateSuppressed + 1 } }
  | _ => none

/-- SOURCE: Distributed.cpp:190-191 -/
def lost (w : Network) (c : ConnId) : Option Network := do
  let x ← w.conns c
  match x.phase with
  | .idle =>
      some { w.setConn c x .ended with
        coordinator := { w.coordinator with
          workers := w.coordinator.workers.erase x.env.workerId
          workerChannels := w.coordinator.workerChannels.erase x.env.workerId } }
  | _ => none

/-- SOURCE: Distributed.cpp:193 -/
def shutdown (w : Network) (c : ConnId) : Option Network := do
  let x ← w.conns c
  match x.phase with
  | .idle => some (w.setConn c x .ended)
  | _ => none

end Network

/-! ## Steps -/

/-- One step of a coordinator, with what comes from outside in it. -/
inductive NetworkEvent where
  | submit (request : CompilationRequest) (planCounter : UInt64) (now : Int64)
  | lookup (s : SubmitId)
  | select (s : SubmitId)
  | pend (s : SubmitId)
  | stamp (s : SubmitId)
  | findChannel (s : SubmitId)
  | send (s : SubmitId) (ok : Bool)
  | giveUp (s : SubmitId)
  | wake (s : SubmitId)
  | invalidate (r : CompilationRequestId)
  | rollEpoch
  | bumpCacheGeneration
  | bumpToolchainGeneration
  | register (env : ProtoEnvelope) (caps : Json)
  | receive (c : ConnId) (f : Completion)
  | check (c : ConnId)
  | authorize (c : ConnId)
  | resolve (c : ConnId)
  | publish (c : ConnId)
  | lost (c : ConnId)
  | shutdown (c : ConnId)

/-- The step function; `H` is `Sha256::hash`. -/
def Network.step (H : Bytes → Digest) (w : Network) : NetworkEvent → Option Network
  | .submit request planCounter now => some (w.submit H request planCounter now)
  | .lookup s => w.lookupPublished s
  | .select s => w.selectWorker s
  | .pend s => w.pend s
  | .stamp s => w.stamp s
  | .findChannel s => w.findChannel s
  | .send s ok => w.sendDispatch s ok
  | .giveUp s => w.giveUp s
  | .wake s => w.wake s
  | .invalidate r => some (w.invalidate r)
  | .rollEpoch => some w.rollEpoch
  | .bumpCacheGeneration => some w.bumpCacheGeneration
  | .bumpToolchainGeneration => some w.bumpToolchainGeneration
  | .register env caps => some (w.register env caps)
  | .receive c f => w.receive c f
  | .check c => w.check c
  | .authorize c => w.authorize c
  | .resolve c => w.resolve c
  | .publish c => w.publish c
  | .lost c => w.lost c
  | .shutdown c => w.shutdown c

end CompilationFabric.Model
