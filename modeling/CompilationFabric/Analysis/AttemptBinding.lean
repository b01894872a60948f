import CompilationFabric.Interface.SubmitProgress

/-!
# Attempts

Whether a CompileResult frame has an effect only for the attempt that its request is waiting
for.  The checks read the worker, the artifact generation and the pending entry, and none of
them reads the attempt id, so a frame is held to its attempt only by what happens around it:
no request id is dispatched again while a dispatch of it can still be answered, and what comes
from the workers under the counters of the day are first answers (`InTurn`).

Then every dispatch that can still be answered is the open attempt of its request id, and the only
one of it (`Bound`).
-/

set_option autoImplicit false

namespace CompilationFabric.Analysis

open CompilationFabric.Library.TransitionSystem
open CompilationFabric.Model
open CompilationFabric.Interface

variable {H : Bytes → Digest} {w w' : Network} {c : ConnId} {f : Completion}
  {m : CoordinatorFrame} {d d' : SubmitId} {D D' : Dispatch}

/-! ## The property -/

/-- The latest dispatch of a request that no completion was accepted for. -/
def openAttempt (w : Network) (r : CompilationRequestId) : Option Attempt :=
  w.attempts.find? fun a => a.requestId = r

/-- The worker that has registered on a connection. -/
def workerOf (w : Network) (c : ConnId) : Option WorkerId :=
  (w.conns c).map fun u => u.env.workerId

/-- The frame names the attempt that its request is waiting for, and comes from the worker
that the attempt was dispatched to. -/
def OwnAttempt (w : Network) (c : ConnId) (f : Completion) : Prop :=
  openAttempt w f.env.requestId = some f.env.attempt ∧ workerOf w c = some f.env.workerId

/-- The coordinator without its counters of frames. -/
def uncounted (m : DistributedCoordinator) : DistributedCoordinator :=
  { m with completed := 0, rejectedStale := 0, dispatched := 0, duplicateSuppressed := 0 }

/-- A CompileResult frame changes what is published, pending or recorded for its own attempt
only, and any other frame changes nothing but counters. -/
def KeepsToAttempts (H : Bytes → Digest) (w : Network) : CoordinatorFrame → Prop
  | .completion c f => ∀ w', Network.serve H w (.completion c f) = some w' →
      (w'.coordinator.published ≠ w.coordinator.published ∨
        w'.coordinator.pending ≠ w.coordinator.pending ∨
        w'.coordinator.artifactGen ≠ w.coordinator.artifactGen → OwnAttempt w c f) ∧
      (¬ OwnAttempt w c f → uncounted w'.coordinator = uncounted w.coordinator)
  | _ => True

/-! ## The condition -/

/-- The dispatch was made under the counters that the coordinator has now. -/
structure Current (m : DistributedCoordinator) (env : ProtoEnvelope) : Prop where
  epoch : env.epoch = m.epoch
  cacheGen : env.cacheGen = m.cacheGen
  toolchainGen : env.toolchainGen = m.toolchainGen

/-- The dispatch has not been answered, and the connection that it was sent on is there. -/
structure Unreported (w : Network) (d : SubmitId) (D : Dispatch) : Prop where
  sent : w.dispatches d = some D
  unprocessed : w.processed d = false
  running : ∃ u, w.conns D.channel = some u ∧ u.phase.running = true

/-- The dispatch can still be answered. -/
structure Awaited (w : Network) (d : SubmitId) (D : Dispatch) : Prop
    extends Unreported w d D where
  current : Current w.coordinator D.env

/-- The worker of the connection answers a dispatch that was sent to it there, with its own id and
with the counters of the dispatch; `Network.answers` says that it is the first answer, with the
request id and the attempt id of the dispatch.
SOURCE: Distributed.cpp:100-104 -/
structure FirstAnswer (w : Network) (c : ConnId) (f : Completion) (d : SubmitId) (D : Dispatch) :
    Prop where
  answers : f.answers = some d
  dispatch : w.dispatches d = some D
  epoch : f.env.epoch = D.env.epoch
  cacheGen : f.env.cacheGen = D.env.cacheGen
  toolchainGen : f.env.toolchainGen = D.env.toolchainGen
  worker : workerOf w c = some f.env.workerId

/-- The Submit is dispatched: it is not a hit, and there is a worker that takes it. -/
def Dispatched (w : Network) (x : Submit) (ok : Bool) : Prop :=
  w.coordinator.published[x.keyHex]? = none ∧
    (dispatchTarget w.coordinator x.wantCuda ok).isSome = true

/-- A request id is not dispatched while a dispatch of it is awaited; a success that is reported
under the present counters is a first answer; and no counter comes back to a value that an
unanswered dispatch has. -/
def InTurn (H : Bytes → Digest) (w : Network) : CoordinatorFrame → Prop
  | .submit r n now ok => Dispatched w (submitOf H w r n now) ok →
      ∀ d D, Awaited w d D → D.env.requestId ≠ r.requestId
  | .completion c f => f.success = true → Current w.coordinator f.env →
      ∃ d D, FirstAnswer w c f d D
  | .rollEpoch => ∀ d D, Unreported w d D → D.env.epoch ≠ w.coordinator.epoch + 1
  | .bumpCacheGeneration =>
      ∀ d D, Unreported w d D → D.env.cacheGen ≠ w.coordinator.cacheGen + 1
  | .bumpToolchainGeneration =>
      ∀ d D, Unreported w d D → D.env.toolchainGen ≠ w.coordinator.toolchainGen + 1
  | _ => True

/-! ## The invariant -/

/-- A dispatch is to the worker of its connection; and one that is awaited is the open attempt of its
request id, and the only one of it that is awaited. -/
structure Bound (H : Bytes → Digest) (w : Network) : Prop where
  wellFormed : NetworkWellFormed H w
  channels : ∀ (k : WorkerId) c, w.coordinator.workerChannels[k]? = some c → workerOf w c = some k
  worker : ∀ d D, w.dispatches d = some D → workerOf w D.channel = some D.env.workerId
  attempt : ∀ d D, Awaited w d D → openAttempt w D.env.requestId = some D.env.attempt
  single : ∀ d D d' D', Awaited w d D → Awaited w d' D' →
    D.env.requestId = D'.env.requestId → d = d'

/-- INTERNAL: a new coordinator awaits nothing. -/
theorem bound_init (H : Bytes → Digest) (host : Host) (root : Bytes)
    (epoch cacheGen toolchainGen : UInt64) :
    Bound H (.init host root epoch cacheGen toolchainGen) where
  wellFormed := networkWellFormed_init H ..
  channels k c h := by simp [Network.init] at h
  worker _ _ h := nomatch h
  attempt _ _ h := nomatch h.sent
  single _ _ _ _ h := nomatch h.sent

/-! ## One frame -/

/-- Nothing is sent, and what is awaited afterwards has been awaited, as the same attempt. -/
structure Fewer (w w' : Network) : Prop where
  channels : ∀ (k : WorkerId) c, w'.coordinator.workerChannels[k]? = some c →
    w.coordinator.workerChannels[k]? = some c ∨ workerOf w' c = some k
  workers : ∀ c k, workerOf w c = some k → workerOf w' c = some k
  dispatches : w'.dispatches = w.dispatches
  awaited : ∀ d D, Awaited w' d D → Awaited w d D
  attempts : ∀ d D, Awaited w' d D →
    openAttempt w' D.env.requestId = openAttempt w D.env.requestId

/-- INTERNAL: where nothing is sent, the invariant stays. -/
theorem Bound.of_fewer (hb : Bound H w) (hw' : NetworkWellFormed H w') (h : Fewer w w') :
    Bound H w' where
  wellFormed := hw'
  channels k c hc := (h.channels k c hc).elim (fun hold => h.workers c k (hb.channels k c hold)) id
  worker d D hD := h.workers _ _ (hb.worker d D (h.dispatches ▸ hD))
  attempt d D hD := (h.attempts d D hD).trans (hb.attempt d D (h.awaited d D hD))
  single d D d' D' hD hD' := hb.single d D d' D' (h.awaited d D hD) (h.awaited d' D' hD')

/-- INTERNAL: a step that leaves the connections and the dispatches alone, and the counters. -/
theorem Fewer.of_same (hconns : w'.conns = w.conns)
    (hchannels : w'.coordinator.workerChannels = w.coordinator.workerChannels)
    (hdispatches : w'.dispatches = w.dispatches) (hprocessed : w'.processed = w.processed)
    (hattempts : w'.attempts = w.attempts)
    (hcurrent : ∀ d D, Unreported w d D → Current w'.coordinator D.env →
      Current w.coordinator D.env) : Fewer w w' := by
  have hworker : workerOf w' = workerOf w := by
    unfold workerOf
    rw [hconns]
  have hunreported : ∀ {d D}, Unreported w' d D → Unreported w d D := by
    intro d D h
    obtain ⟨hsent, hopen, hrunning⟩ := h
    rw [hdispatches] at hsent
    rw [hprocessed] at hopen
    rw [hconns] at hrunning
    exact ⟨hsent, hopen, hrunning⟩
  constructor
  · intro k c hc
    rw [hchannels] at hc
    exact .inl hc
  · intro c k hk
    rw [hworker]
    exact hk
  · exact hdispatches
  · intro d D h
    have hd := hunreported h.toUnreported
    exact ⟨hd, hcurrent d D hd h.current⟩
  · intro d D _
    unfold openAttempt
    rw [hattempts]

/-- INTERNAL: the counters stay. -/
theorem current_of_eq {m m' : DistributedCoordinator} {env : ProtoEnvelope}
    (hepoch : m'.epoch = m.epoch) (hcache : m'.cacheGen = m.cacheGen)
    (htoolchain : m'.toolchainGen = m.toolchainGen) (h : Current m' env) : Current m env :=
  ⟨h.epoch.trans hepoch, h.cacheGen.trans hcache, h.toolchainGen.trans htoolchain⟩

/-- INTERNAL: the worker of a connection is the one that has registered on it. -/
theorem workerOf_setConn {u : WorkerConn} (hu : w.conns c = some u) (phase : ConnPhase) :
    workerOf (w.setConn c u phase) = workerOf w := by
  funext c'
  unfold workerOf
  by_cases hc : c' = c
  · subst hc
    have hmoved : (w.setConn c' u phase).conns c' = some { u with phase } :=
      Function.update_self ..
    rw [hu, hmoved]
    rfl
  · exact congrArg _ (Function.update_of_ne hc _ _)

/-- INTERNAL: a connection that runs after a handler has moved on ran before. -/
theorem running_of_setConn {u v : WorkerConn} {phase : ConnPhase} {c' : ConnId}
    (hu : w.conns c = some u) (hidle : u.phase = .idle)
    (hv : (w.setConn c u phase).conns c' = some v) (hrunning : v.phase.running = true) :
    ∃ v, w.conns c' = some v ∧ v.phase.running = true := by
  obtain ⟨rfl, -⟩ | ⟨-, hold⟩ := setConn_cases hv
  · exact ⟨u, hu, by rw [hidle]; rfl⟩
  · exact ⟨v, hold, hrunning⟩

/-- INTERNAL: a step of a handler, which may answer dispatches and close the channel. -/
theorem Fewer.of_conn {u : WorkerConn} {phase : ConnPhase} (hu : w.conns c = some u)
    (hidle : u.phase = .idle) (hconns : w'.conns = (w.setConn c u phase).conns)
    (hchannels : ∀ (k : WorkerId) c, w'.coordinator.workerChannels[k]? = some c →
      w.coordinator.workerChannels[k]? = some c)
    (hdispatches : w'.dispatches = w.dispatches)
    (hprocessed : ∀ d, w'.processed d = false → w.processed d = false)
    (hcurrent : ∀ env, Current w'.coordinator env → Current w.coordinator env)
    (hattempts : ∀ d D, Awaited w d D → w'.processed d = false →
      openAttempt w' D.env.requestId = openAttempt w D.env.requestId) : Fewer w w' := by
  have hworker : workerOf w' = workerOf w := by
    rw [← workerOf_setConn hu phase]
    unfold workerOf
    rw [hconns]
  have hawaited : ∀ d D, Awaited w' d D → Awaited w d D := by
    intro d D h
    obtain ⟨v, hv, hrunning⟩ := h.running
    rw [hconns] at hv
    exact {
      sent := hdispatches ▸ h.sent
      unprocessed := hprocessed d h.unprocessed
      running := running_of_setConn hu hidle hv hrunning
      current := hcurrent _ h.current }
  constructor
  · exact fun k c hc => .inl (hchannels k c hc)
  · intro c k hk
    rw [hworker]
    exact hk
  · exact hdispatches
  · exact hawaited
  · exact fun d D h => hattempts d D (hawaited d D h) h.unprocessed

/-- INTERNAL: taking an attempt of another request id out leaves the open attempt. -/
theorem find?_erase_of_ne {l : List Attempt} {a : Attempt} {r : CompilationRequestId}
    (hne : a.requestId ≠ r) : ((l.erase a).find? fun b => b.requestId = r) =
      l.find? fun b => b.requestId = r := by
  induction l with
  | nil => rfl
  | cons b l ih =>
      rw [List.erase_cons]
      split
      · next heq =>
        obtain rfl : b = a := by simpa using heq
        rw [List.find?_cons_of_neg (by simpa using hne)]
      · by_cases hb : b.requestId = r
        · rw [List.find?_cons_of_pos (by simpa using hb), List.find?_cons_of_pos (by simpa using hb)]
        · rw [List.find?_cons_of_neg (by simpa using hb), List.find?_cons_of_neg (by simpa using hb),
            ih]

/-- INTERNAL: what is awaited after a dispatch is the dispatch, or has been awaited. -/
theorem awaited_of_sends {s : SubmitId} {x : Submit} {ok : Bool}
    (hkept : Interface.Undisturbed w w') (hsends : Sends w s x ok w' D) (h : Awaited w' d' D') :
    (d' = s ∧ D' = D) ∨ (d' ≠ s ∧ Awaited w d' D') := by
  have hsent := h.sent
  have hopen := h.unprocessed
  have hrunning := h.running
  rw [hsends.dispatches] at hsent
  rw [hkept.processed] at hopen
  rw [hkept.conns] at hrunning
  by_cases hd : d' = s
  · subst hd
    rw [Function.update_self, Option.some_inj] at hsent
    exact .inl ⟨rfl, hsent.symm⟩
  · rw [Function.update_of_ne hd] at hsent
    exact .inr ⟨hd, ⟨hsent, hopen, hrunning⟩,
      current_of_eq hkept.epoch hkept.cacheGen hkept.toolchainGen h.current⟩

namespace Bound

variable (hb : Bound H w)
include hb

/-! ### A CompileResult frame -/

/-- What is accepted in turn is the answer to an awaited dispatch, and names it.
SOURCE: Distributed.cpp:100-104, 161-177 -/
theorem own_of_accepts (hturn : InTurn H w (.completion c f)) {u : WorkerConn}
    (hu : w.conns c = some u) (hidle : u.phase = .idle)
    (hanswers : ∀ d, f.answers = some d → w.answers c f d = true) (hacc : Accepts w.coordinator f) :
    ∃ d D, f.answers = some d ∧ Awaited w d D ∧ f.env.attempt = D.env.attempt ∧
      OwnAttempt w c f := by
  obtain ⟨d, D, hfirst⟩ := hturn hacc.success ⟨hacc.epoch, hacc.cacheGen, hacc.toolchainGen⟩
  obtain ⟨hopen, D', hD', rfl, hrequest, hattempt⟩ :=
    answers_eq_true.mp (hanswers d hfirst.answers)
  obtain rfl : D' = D := Option.some.inj (hD'.symm.trans hfirst.dispatch)
  have hawaited : Awaited w d D' :=
    { sent := hD'
      unprocessed := hopen
      running := ⟨u, hu, by rw [hidle]; rfl⟩
      current :=
        { epoch := hfirst.epoch.symm.trans hacc.epoch
          cacheGen := hfirst.cacheGen.symm.trans hacc.cacheGen
          toolchainGen := hfirst.toolchainGen.symm.trans hacc.toolchainGen } }
  have hworker : D'.env.workerId = f.env.workerId :=
    Option.some.inj ((hb.worker d D' hD').symm.trans hfirst.worker)
  have hsame : f.env.attempt = D'.env.attempt := by
    unfold ProtoEnvelope.attempt
    rw [hrequest, hattempt, hworker]
  refine ⟨d, D', hfirst.answers, hawaited, hsame, ?_, hfirst.worker⟩
  rw [hsame, ← hrequest]
  exact hb.attempt d D' hawaited

/-- INTERNAL: an answer takes its own attempt out, and the others stay. -/
theorem completion (hturn : InTurn H w (.completion c f)) (hw' : NetworkWellFormed H w')
    (h : Network.serve H w (.completion c f) = some w') : Bound H w' := by
  obtain ⟨u, hu, hidle, hanswers, hhandles⟩ := serve_completion h
  apply hb.of_fewer hw'
  have hprocessed : ∀ d, (w.processed d || f.answers = some d) = false → w.processed d = false :=
    fun d hd => (Bool.or_eq_false_iff.mp hd).1
  cases hhandles with
  | dismissed =>
      exact .of_conn hu hidle rfl (fun _ _ hc => hc) rfl hprocessed
        (fun _ hc => ⟨hc.epoch, hc.cacheGen, hc.toolchainGen⟩) (fun _ _ _ _ => rfl)
  | accepted hacc =>
      obtain ⟨d, D, hd, hawaited, hsame, -⟩ := hb.own_of_accepts hturn hu hidle hanswers hacc
      refine .of_conn hu hidle rfl (fun _ _ hc => hc) rfl hprocessed
        (fun _ hc => ⟨hc.epoch, hc.cacheGen, hc.toolchainGen⟩) ?_
      intro d' D' hawaited' hopen
      apply find?_erase_of_ne
      intro hrequest
      have hid : D.env.requestId = D'.env.requestId := by
        rw [← hrequest, hsame]
        rfl
      obtain rfl := hb.single d D d' D' hawaited hawaited' hid
      exact absurd hd (by simpa using (Bool.or_eq_false_iff.mp hopen).2)

/-! ### A Submit frame -/

/-- A request id that is dispatched in turn has the new dispatch as its open attempt, and no other
one is awaited.
SOURCE: Distributed.cpp:279-288 -/
theorem sends {s : SubmitId} {x : Submit} {ok : Bool} (hw' : NetworkWellFormed H w')
    (hkept : Interface.Undisturbed w w') (hsends : Sends w s x ok w' D)
    (hturn : ∀ d D, Awaited w d D → D.env.requestId ≠ x.request.requestId) : Bound H w' := by
  have hworker : workerOf w' = workerOf w := by
    unfold workerOf
    rw [hkept.conns]
  constructor
  · exact hw'
  · intro k c hc
    rw [hkept.channels] at hc
    rw [hworker]
    exact hb.channels k c hc
  · intro d' D' hD'
    rw [hworker]
    rw [hsends.dispatches] at hD'
    by_cases hd : d' = s
    · subst hd
      rw [Function.update_self, Option.some_inj] at hD'
      subst hD'
      exact hb.channels _ _ hsends.channel
    · rw [Function.update_of_ne hd] at hD'
      exact hb.worker d' D' hD'
  · intro d' D' h
    unfold openAttempt
    rw [hsends.attempts]
    obtain ⟨-, rfl⟩ | ⟨-, hold⟩ := awaited_of_sends hkept hsends h
    · rw [List.find?_cons_of_pos (by simp [ProtoEnvelope.attempt])]
    · have hne : ¬ D.env.attempt.requestId = D'.env.requestId := by
        intro heq
        exact hturn d' D' hold (heq.symm.trans hsends.requestId)
      rw [List.find?_cons_of_neg (by simpa using hne)]
      exact hb.attempt d' D' hold
  · intro d₁ D₁ d₂ D₂ h₁ h₂ hid
    obtain ⟨rfl, rfl⟩ | ⟨hd₁, hold₁⟩ := awaited_of_sends hkept hsends h₁ <;>
      obtain ⟨rfl, rfl⟩ | ⟨hd₂, hold₂⟩ := awaited_of_sends hkept hsends h₂
    · rfl
    · exact absurd (hid.symm.trans hsends.requestId) (hturn d₂ D₂ hold₂)
    · exact absurd (hid.trans hsends.requestId) (hturn d₁ D₁ hold₁)
    · exact hb.single d₁ D₁ d₂ D₂ hold₁ hold₂ hid

/-- INTERNAL: a Submit that is not dispatched leaves everything as it is. -/
theorem submit {r : CompilationRequest} {n : UInt64} {now : Int64} {ok : Bool}
    (hturn : InTurn H w (.submit r n now ok)) (hw' : NetworkWellFormed H w')
    (h : Network.serve H w (.submit r n now ok) = some w') : Bound H w' := by
  obtain ⟨w₁, phase, hserve, hprogress, -⟩ := progress_serve H w r n now ok
  obtain rfl : w₁ = w' := Option.some.inj (hserve.symm.trans h)
  by_cases hphase : phase = .waiting
  · subst hphase
    obtain ⟨D, hsends⟩ := hprogress.sent rfl
    have hdispatched : Dispatched w (submitOf H w r n now) ok := by
      cases hprogress.reached with
      | waiting hpub htarget => exact ⟨hpub, by rw [htarget]; rfl⟩
    exact hb.sends hw' hprogress.kept hsends (hturn hdispatched)
  · obtain ⟨hdispatches, hattempts⟩ := hprogress.unsent hphase
    have hkept := hprogress.kept
    exact hb.of_fewer hw' (.of_same hkept.conns hkept.channels hdispatches hkept.processed
      hattempts fun _ _ _ => current_of_eq hkept.epoch hkept.cacheGen hkept.toolchainGen)

/-! ### Connections -/

/-- INTERNAL: a new connection has nothing sent on it.
SOURCE: Distributed.cpp:179-187 -/
theorem register (env : ProtoEnvelope) (caps : Json)
    (hw' : NetworkWellFormed H (w.register env caps)) : Bound H (w.register env caps) := by
  have hnone : w.conns w.nextConn = none := hb.wellFormed.freshConn _ le_rfl
  have hkeep : ∀ c k, workerOf w c = some k →
      (w.register env caps).conns c = w.conns c := by
    intro c k hk
    apply Function.update_of_ne
    rintro rfl
    rw [workerOf, hnone] at hk
    cases hk
  apply hb.of_fewer hw'
  constructor
  · intro k c hc
    simp only [Network.register, Std.ExtTreeMap.getElem?_insert] at hc
    split at hc
    · next heq =>
      obtain rfl : env.workerId = k := by simpa using heq
      obtain rfl := Option.some.inj hc
      refine .inr (congrArg (Option.map fun u : WorkerConn => u.env.workerId)
        (?_ : (w.register env caps).conns w.nextConn = some { env, phase := .idle }))
      exact Function.update_self ..
    · exact .inl hc
  · intro c k hk
    rw [workerOf, hkeep c k hk]
    exact hk
  · rfl
  · intro d D h
    have hrunning := h.running
    rw [hkeep _ _ (hb.worker d D h.sent)] at hrunning
    exact ⟨⟨h.sent, h.unprocessed, hrunning⟩, h.current.epoch, h.current.cacheGen,
      h.current.toolchainGen⟩
  · exact fun _ _ _ => rfl

/-- A frame that is handled in turn keeps the invariant. -/
theorem step (hturn : InTurn H w m) (h : Network.serve H w m = some w') : Bound H w' := by
  obtain ⟨es, hrun⟩ := exec_of_serve h
  have hw' := networkWellFormed_exec hb.wellFormed hrun
  cases m with
  | submit r n now ok => exact hb.submit hturn hw' h
  | completion c f => exact hb.completion hturn hw' h
  | register env caps =>
      obtain rfl := Option.some.inj h
      exact hb.register env caps hw'
  | answer s =>
      have hstep : Network.step H w (.wake s) = some w' := h
      cases networkTransition_of_step hstep with
      | move hx hm =>
          exact hb.of_fewer hw' (.of_same rfl rfl rfl rfl rfl fun _ _ _ => current_of_eq rfl rfl rfl)
      | handle hx hm => cases hm
      | dismiss hx hm => cases hm
  | invalidate r =>
      obtain rfl := Option.some.inj h
      exact hb.of_fewer hw' (.of_same rfl rfl rfl rfl rfl fun _ _ _ => current_of_eq rfl rfl rfl)
  | rollEpoch =>
      obtain rfl := Option.some.inj h
      exact hb.of_fewer hw' (.of_same rfl rfl rfl rfl rfl fun d D hd hc =>
        absurd hc.epoch (hturn d D hd))
  | bumpCacheGeneration =>
      obtain rfl := Option.some.inj h
      exact hb.of_fewer hw' (.of_same rfl rfl rfl rfl rfl fun d D hd hc =>
        absurd hc.cacheGen (hturn d D hd))
  | bumpToolchainGeneration =>
      obtain rfl := Option.some.inj h
      exact hb.of_fewer hw' (.of_same rfl rfl rfl rfl rfl fun d D hd hc =>
        absurd hc.toolchainGen (hturn d D hd))
  | lost c =>
      have hstep : Network.step H w (.lost c) = some w' := h
      cases networkTransition_of_step hstep with
      | move hx hm => cases hm
      | handle hx hm => cases hm
      | dismiss hx hm => cases hm
      | lost hx hphase =>
          refine hb.of_fewer hw' (.of_conn hx hphase rfl ?_ rfl (fun _ hd => hd)
            (fun _ => current_of_eq rfl rfl rfl) (fun _ _ _ _ => rfl))
          intro k c' hc'
          simp only [disconnected, Std.ExtTreeMap.getElem?_erase] at hc'
          split at hc'
          · cases hc'
          · exact hc'
  | shutdown c =>
      have hstep : Network.step H w (.shutdown c) = some w' := h
      cases networkTransition_of_step hstep with
      | move hx hm => cases hm
      | handle hx hm => cases hm
      | dismiss hx hm => cases hm
      | shutdown hx hphase =>
          exact hb.of_fewer hw' (.of_conn hx hphase rfl (fun _ _ hc => hc) rfl (fun _ hd => hd)
            (fun _ => current_of_eq rfl rfl rfl) (fun _ _ _ _ => rfl))

end Bound

/-! ## Every run of frames -/

/-- A CompileResult frame keeps to its attempt exactly if it is its own or is not accepted: an
accepted one consumes the pending entry of its request id.
SOURCE: Distributed.cpp:202-214 -/
theorem keepsToAttempts_iff_own (h : Network.serve H w (.completion c f) = some w') :
    KeepsToAttempts H w (.completion c f) ↔ (Accepts w.coordinator f → OwnAttempt w c f) := by
  obtain ⟨u, -, -, -, hhandles⟩ := serve_completion h
  have hserve : ∀ w₁, Network.serve H w (.completion c f) = some w₁ → w₁ = w' :=
    fun w₁ h₁ => Option.some.inj (h₁.symm.trans h)
  constructor
  · intro hkeeps hacc
    apply (hkeeps w' h).1
    right
    left
    cases hhandles with
    | dismissed hrefused => exact absurd hacc hrefused
    | accepted _ hres =>
        have hpending : f.env.requestId.toHex ∈ w.coordinator.pending := by
          have hauth := hacc.authorized
          simp only [DistributedCoordinator.authorizes, Bool.and_eq_true] at hauth
          exact hauth.2
        intro heq
        cases hres with
        | pending hs =>
            rw [← heq] at hpending
            simp [accept, publishedAs] at hpending
        | duplicate hnone =>
            rw [Std.ExtTreeMap.mem_iff_isSome_getElem?, hnone] at hpending
            cases hpending
  · intro hown w₁ h₁
    obtain rfl := hserve w₁ h₁
    cases hhandles with
    | accepted hacc =>
        have hmine := hown hacc
        exact ⟨fun _ => hmine, fun hnot => absurd hmine hnot⟩
    | dismissed =>
        refine ⟨?_, fun _ => rfl⟩
        rintro (hne | hne | hne)
        · exact absurd rfl hne
        · exact absurd rfl hne
        · exact absurd rfl hne

/-- In every run of frames that are handled one at a time, and that come in turn, completions keep
to their attempts.
SOURCE: Distributed.cpp:161-215, 279-288 -/
theorem keepsToAttempts_of_inTurn (H : Bytes → Digest) (host : Host) (root : Bytes)
    (epoch cacheGen toolchainGen : UInt64) {ms : List CoordinatorFrame}
    (hturn : Meets (Network.serve H) (InTurn H) (.init host root epoch cacheGen toolchainGen) ms)
    (hrun : exec (Network.serve H) (.init host root epoch cacheGen toolchainGen) ms = some w) :
    Meets (Network.serve H) (KeepsToAttempts H) (.init host root epoch cacheGen toolchainGen)
      ms := by
  refine hturn.of_invariant (I := Bound H) ?_ ?_ (bound_init H ..) hrun
  · intro u m u' hm hserve hb
    exact hb.step hm hserve
  · intro u m u' hm hserve hb
    cases m with
    | completion c f =>
        rw [keepsToAttempts_iff_own hserve]
        intro hacc
        obtain ⟨v, hv, hidle, hanswers, -⟩ := serve_completion hserve
        obtain ⟨d, D, -, -, -, hown⟩ := hb.own_of_accepts hm hv hidle hanswers hacc
        exact hown
    | _ => trivial

/-- A worker registers, with an empty boot id. -/
def registerFrame (id : WorkerId) : CoordinatorFrame :=
  .register { workerId := id }
    (.object [(ascii "boot_id", .str (({} : WorkerBootId).toHex))])

/-- Worker 7 is dispatched the first request. -/
def firstFrames : List CoordinatorFrame := [registerFrame 7, .submit firstRequest 0 0 true]

/-- The first dispatch is to worker 7, under the first counters. -/
def sentFirst (w : Network) : Bool :=
  (w.dispatches 0).any (fun D => D.env.epoch = 1 && D.env.cacheGen = 1 && D.env.toolchainGen = 1) &&
    workerOf w 0 = some 7

/-- Its answer is that of the open attempt. -/
theorem keepsToAttempts_of_inTurn_first :
    Meets (Network.serve byteSum) (KeepsToAttempts byteSum) (.init {} [] 1 1 1)
      (firstFrames ++ [.completion 0 firstAnswer]) := by
  obtain ⟨w, hw⟩ := Option.isSome_iff_exists.mp (show
    (exec (Network.serve byteSum) (.init {} [] 1 1 1)
      (firstFrames ++ [.completion 0 firstAnswer])).isSome = true by decide +kernel)
  refine keepsToAttempts_of_inTurn byteSum {} [] 1 1 1 (Meets.append ⟨trivial, ?_⟩ ?_) hw
  · intro t ht
    obtain rfl := Option.some.inj ht
    exact ⟨fun _ d D hawaited => (nomatch hawaited.sent), fun _ _ => trivial⟩
  · intro t ht
    refine ⟨fun _ _ => ?_, fun _ _ => trivial⟩
    have hsent : (exec (Network.serve byteSum) (.init {} [] 1 1 1) firstFrames).any sentFirst =
        true := by decide +kernel
    rw [ht, Option.any_some] at hsent
    simp only [sentFirst, Bool.and_eq_true, Option.any_eq_true, decide_eq_true_eq] at hsent
    obtain ⟨⟨D, hD, ⟨hepoch, hcache⟩, htoolchain⟩, hworker⟩ := hsent
    exact ⟨0, D, rfl, hD, hepoch.symm, hcache.symm, htoolchain.symm, hworker⟩

instance : Decidable (OwnAttempt w c f) := inferInstanceAs (Decidable (_ ∧ _))

instance (m : DistributedCoordinator) : Decidable (Accepts m f) :=
  decidable_of_iff (f.success = true ∧ f.env.epoch = m.epoch ∧ f.env.cacheGen = m.cacheGen ∧
      f.env.toolchainGen = m.toolchainGen ∧ m.authorizes f.env = true)
    ⟨fun ⟨hs, he, hc, ht, ha⟩ => ⟨hs, he, hc, ht, ha⟩,
      fun h => ⟨h.success, h.epoch, h.cacheGen, h.toolchainGen, h.authorized⟩⟩

/-- The frame passes the checks, and its attempt is not the one that the request waits for. -/
def acceptsForeign (H : Bytes → Digest) (c : ConnId) (f : Completion) (w : Network) : Bool :=
  !decide (OwnAttempt w c f) && decide (Accepts w.coordinator f) &&
    (Network.serve H w (.completion c f)).isSome

/-- INTERNAL: such a frame changes what is pending. -/
theorem not_keepsToAttempts_of_foreign (h : acceptsForeign H c f w = true) :
    ¬ KeepsToAttempts H w (.completion c f) := by
  simp only [acceptsForeign, Bool.and_eq_true, Bool.not_eq_true', decide_eq_false_iff_not,
    decide_eq_true_eq] at h
  obtain ⟨⟨hnot, hacc⟩, hserve⟩ := h
  obtain ⟨w', hw'⟩ := Option.isSome_iff_exists.mp hserve
  rw [keepsToAttempts_iff_own hw']
  exact fun hown => hnot (hown hacc)

/-- A completion for the first request from a worker it was not dispatched to. -/
def foreignAnswer : Completion :=
  { firstAnswer with env := { firstAnswer.env with workerId := 8 }, answers := none }

/-- The request is submitted again, and the completion of its first attempt is accepted for the
second; and a completion is accepted from a worker that was dispatched nothing. -/
theorem not_keepsToAttempts :
    ¬ Meets (Network.serve byteSum) (KeepsToAttempts byteSum) (.init {} [] 1 1 1)
      ((firstFrames ++ [.submit firstRequest 1 0 true]) ++ [.completion 0 firstAnswer]) ∧
    ¬ Meets (Network.serve byteSum) (KeepsToAttempts byteSum) (.init {} [] 1 1 1)
      ((registerFrame 8 :: firstFrames) ++ [.completion 0 foreignAnswer]) := by
  constructor
  · obtain ⟨w, hw, hforeign⟩ := (Option.any_eq_true _ _).mp (show
      (exec (Network.serve byteSum) (.init {} [] 1 1 1)
        (firstFrames ++ [.submit firstRequest 1 0 true])).any
        (acceptsForeign byteSum 0 firstAnswer) = true by decide +kernel)
    exact fun h => not_keepsToAttempts_of_foreign hforeign (h.append_right hw).1
  · obtain ⟨w, hw, hforeign⟩ := (Option.any_eq_true _ _).mp (show
      (exec (Network.serve byteSum) (.init {} [] 1 1 1) (registerFrame 8 :: firstFrames)).any
        (acceptsForeign byteSum 0 foreignAnswer) = true by decide +kernel)
    exact fun h => not_keepsToAttempts_of_foreign hforeign (h.append_right hw).1

end CompilationFabric.Analysis
