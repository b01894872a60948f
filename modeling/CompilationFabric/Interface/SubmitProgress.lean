import CompilationFabric.Interface.CoordinatorServe

/-!
# How a Submit is decided

A Submit that nothing disturbs is decided by the maps of the coordinator as its frame finds them:
it is a hit, or it goes to the worker that `dispatchTarget` names, or it is rejected.  `Reached`
says phase by phase what has been decided, one step keeps it (`Progress.next`), and so does the
whole way to the end (`progress_serve`).
-/

set_option autoImplicit false

namespace CompilationFabric.Interface

open CompilationFabric.Library.TransitionSystem
open CompilationFabric.Model

variable {H : Bytes → Digest} {w w₁ w₂ : Network} {e : NetworkEvent} {s : SubmitId} {x : Submit}
  {ok : Bool} {p : SubmitPhase} {m : DistributedCoordinator}

/-! ## The way of a Submit -/

/-- The steps that a Submit takes before it is at rest, at most. -/
def SubmitPhase.left : SubmitPhase → ℕ
  | .bound => 10
  | .missed => 9
  | .selected _ => 8
  | .stamping _ .epoch => 7
  | .stamping _ .cacheGen => 6
  | .stamping _ .toolchainGen => 5
  | .stamping _ .attemptId => 4
  | .stamped _ => 3
  | .sending _ _ => 2
  | .failed _ _ => 1
  | .waiting | .replied _ => 0

/-- INTERNAL: a Submit without steps left is at rest. -/
theorem next_eq_none_of_left (p : SubmitPhase) (h : SubmitPhase.left p = 0) :
    p.next s ok = none := by
  cases p with
  | stamping env next => cases next <;> cases h
  | waiting => rfl
  | replied reply => rfl
  | _ => cases h

/-! ## What is decided -/

/-- The worker that a Submit without a hit is dispatched to: the first capable one, if it has a
channel and the channel takes the frame.
SOURCE: Distributed.cpp:268-288 -/
def dispatchTarget (m : DistributedCoordinator) (wantCuda ok : Bool) : Option WorkerId :=
  (m.selectWorker wantCuda).filter fun worker => (m.workerChannels[worker]?).isSome && ok

/-- What the maps have decided when a phase is reached. -/
inductive Reached (m : DistributedCoordinator) (x : Submit) (ok : Bool) : SubmitPhase → Prop
  | bound : Reached m x ok .bound
  | missed (hpub : m.published[x.keyHex]? = none) : Reached m x ok .missed
  | selected {worker : WorkerId} (hpub : m.published[x.keyHex]? = none)
      (hworker : m.selectWorker x.wantCuda = some worker) : Reached m x ok (.selected worker)
  | stamping {env : ProtoEnvelope} {next : Stamp} (hpub : m.published[x.keyHex]? = none)
      (hworker : m.selectWorker x.wantCuda = some env.workerId) :
      Reached m x ok (.stamping env next)
  | stamped {env : ProtoEnvelope} (hpub : m.published[x.keyHex]? = none)
      (hworker : m.selectWorker x.wantCuda = some env.workerId) : Reached m x ok (.stamped env)
  | sending {env : ProtoEnvelope} {c : ConnId} (hpub : m.published[x.keyHex]? = none)
      (hworker : m.selectWorker x.wantCuda = some env.workerId)
      (hchannel : m.workerChannels[env.workerId]? = some c) : Reached m x ok (.sending env c)
  | failed {code : ErrorCode} {message : Bytes} (hpub : m.published[x.keyHex]? = none)
      (hnone : dispatchTarget m x.wantCuda ok = none) : Reached m x ok (.failed code message)
  | waiting {worker : WorkerId} (hpub : m.published[x.keyHex]? = none)
      (htarget : dispatchTarget m x.wantCuda ok = some worker) : Reached m x ok .waiting
  | hit {res : CompilationResult} (hpub : (m.published[x.keyHex]?).isSome) :
      Reached m x ok (.replied (.result res))
  | rejected {code : ErrorCode} {message : Bytes} (hpub : m.published[x.keyHex]? = none)
      (hnone : dispatchTarget m x.wantCuda ok = none) :
      Reached m x ok (.replied (.reject code message))

/-- The dispatch of a Submit to a worker is under way. -/
def SentTo (w : Network) (s : SubmitId) (request : CompilationRequest) (worker : WorkerId) :
    Prop :=
  ∃ D, w.dispatches s = some D ∧ D.request = request ∧ D.env.workerId = worker

/-- What the frame of a Submit leaves as it is: the maps that it is decided by, the counters, the
worker connections, and which dispatches are answered. -/
structure Undisturbed (w w₁ : Network) : Prop where
  workers : w₁.coordinator.workers = w.coordinator.workers
  channels : w₁.coordinator.workerChannels = w.coordinator.workerChannels
  published : w₁.coordinator.published = w.coordinator.published
  epoch : w₁.coordinator.epoch = w.coordinator.epoch
  cacheGen : w₁.coordinator.cacheGen = w.coordinator.cacheGen
  toolchainGen : w₁.coordinator.toolchainGen = w.coordinator.toolchainGen
  conns : w₁.conns = w.conns
  processed : w₁.processed = w.processed

/-- INTERNAL: one step after another. -/
theorem Undisturbed.trans (h : Undisturbed w w₁) (h' : Undisturbed w₁ w₂) : Undisturbed w w₂ where
  workers := h'.workers.trans h.workers
  channels := h'.channels.trans h.channels
  published := h'.published.trans h.published
  epoch := h'.epoch.trans h.epoch
  cacheGen := h'.cacheGen.trans h.cacheGen
  toolchainGen := h'.toolchainGen.trans h.toolchainGen
  conns := h'.conns.trans h.conns
  processed := h'.processed.trans h.processed

/-- The one dispatch that the frame of a Submit has sent, over the channel of the worker. -/
structure Sends (w : Network) (s : SubmitId) (x : Submit) (ok : Bool) (w₁ : Network)
    (D : Dispatch) : Prop where
  dispatches : w₁.dispatches = Function.update w.dispatches s (some D)
  attempts : w₁.attempts = D.env.attempt :: w.attempts
  request : D.request = x.request
  requestId : D.env.requestId = x.request.requestId
  channel : w.coordinator.workerChannels[D.env.workerId]? = some D.channel
  target : dispatchTarget w.coordinator x.wantCuda ok = some D.env.workerId

/-- The Submit has got to a phase from the state `w`, undisturbed. -/
structure Progress (w : Network) (s : SubmitId) (x : Submit) (ok : Bool) (w₁ : Network)
    (p : SubmitPhase) : Prop where
  submit : w₁.submits s = some { x with phase := p }
  kept : Undisturbed w w₁
  reached : Reached w.coordinator x ok p
  envelope : ∀ env, envelope p = some env → env.requestId = x.request.requestId
  /-- Only a Submit whose client waits has sent anything. -/
  unsent : p ≠ .waiting → w₁.dispatches = w.dispatches ∧ w₁.attempts = w.attempts
  sent : p = .waiting → ∃ D, Sends w s x ok w₁ D

/-- The dispatch goes to the worker that has been decided on. -/
theorem Progress.sentTo (h : Progress w s x ok w₁ .waiting) {worker : WorkerId}
    (htarget : dispatchTarget w.coordinator x.wantCuda ok = some worker) :
    SentTo w₁ s x.request worker := by
  obtain ⟨D, hsends⟩ := h.sent rfl
  refine ⟨D, ?_, hsends.request, Option.some.inj (hsends.target.symm.trans htarget)⟩
  rw [hsends.dispatches]
  exact Function.update_self ..

/-- A step that sends nothing and leaves the maps of the decision alone. -/
theorem Progress.move {q : SubmitPhase} (h : Progress w s x ok w₁ p) (hp : p ≠ .waiting)
    (hq : q ≠ .waiting) (hreached : Reached w.coordinator x ok q)
    (henvelope : ∀ env, Interface.envelope q = some env → env.requestId = x.request.requestId)
    (hsubmit : w₂.submits s = some { x with phase := q }) (hkept : Undisturbed w₁ w₂)
    (hdispatches : w₂.dispatches = w₁.dispatches) (hattempts : w₂.attempts = w₁.attempts) :
    Progress w s x ok w₂ q :=
  { submit := hsubmit
    kept := h.kept.trans hkept
    reached := hreached
    envelope := henvelope
    unsent := fun _ => ⟨hdispatches.trans (h.unsent hp).1, hattempts.trans (h.unsent hp).2⟩
    sent := fun hwaiting => absurd hwaiting hq }

/-- A step after which only the phase of the Submit is another one. -/
theorem Progress.setPhase {q : SubmitPhase} (h : Progress w s x ok w₁ p) (hp : p ≠ .waiting)
    (hq : q ≠ .waiting) (hreached : Reached w.coordinator x ok q)
    (henvelope : ∀ env, Interface.envelope q = some env → env.requestId = x.request.requestId) :
    Progress w s x ok (w₁.setPhase s { x with phase := p } q) q :=
  h.move hp hq hreached henvelope (Function.update_self ..)
    ⟨rfl, rfl, rfl, rfl, rfl, rfl, rfl, rfl⟩ rfl rfl

/-- INTERNAL: the selection looks at the workers only. -/
theorem selectWorker_congr {m₁ m₂ : DistributedCoordinator} (h : m₁.workers = m₂.workers)
    (wantCuda : Bool) : m₁.selectWorker wantCuda = m₂.selectWorker wantCuda := by
  unfold DistributedCoordinator.selectWorker
  rw [h]

/-- INTERNAL: a worker without a channel is sent nothing. -/
theorem dispatchTarget_of_noChannel {wantCuda : Bool} {worker : WorkerId}
    (hworker : m.selectWorker wantCuda = some worker)
    (hchannel : m.workerChannels[worker]? = none) : dispatchTarget m wantCuda ok = none := by
  unfold dispatchTarget
  rw [hworker, Option.filter_some, hchannel]
  rfl

/-- INTERNAL: a worker with a channel is sent the dispatch when the send succeeds. -/
theorem dispatchTarget_of_channel (ok : Bool) {wantCuda : Bool} {worker : WorkerId} {c : ConnId}
    (hworker : m.selectWorker wantCuda = some worker)
    (hchannel : m.workerChannels[worker]? = some c) :
    dispatchTarget m wantCuda ok = if ok then some worker else none := by
  unfold dispatchTarget
  rw [hworker, Option.filter_some, hchannel]
  rfl

/-- INTERNAL: without a worker nothing is sent. -/
theorem dispatchTarget_of_noWorker {wantCuda : Bool} (h : m.selectWorker wantCuda = none) :
    dispatchTarget m wantCuda ok = none := by
  unfold dispatchTarget
  rw [h]
  rfl

/-- INTERNAL: a phase without an envelope. -/
theorem envelope_of_none {q : SubmitPhase} (hnone : Interface.envelope q = none) :
    ∀ env, Interface.envelope q = some env → env.requestId = x.request.requestId := by
  intro env henv
  rw [hnone] at henv
  cases henv

/-- The thread stamps the next field of the envelope.
SOURCE: Distributed.cpp:282-283 -/
theorem Progress.stamp {env : ProtoEnvelope} {next : Stamp}
    (h : Progress w s x ok w₁ (.stamping env next))
    (hpub : w.coordinator.published[x.keyHex]? = none)
    (hworker : w.coordinator.selectWorker x.wantCuda = some env.workerId) :
    ∃ w₂ q, Network.step H w₁ (.stamp s) = some w₂ ∧ Progress w s x ok w₂ q ∧
      SubmitPhase.left q < SubmitPhase.left (.stamping env next) := by
  have hx := h.submit
  have hid : env.requestId = x.request.requestId := h.envelope env rfl
  cases next with
  | attemptId =>
      refine ⟨numbered w₁ s { x with phase := .stamping env .attemptId } env,
        .stamped { env with attemptId := TypedId.fromU64 (w₁.coordinator.dispatched + 1) },
        ?_, h.move (by simp) (by simp) (.stamped hpub hworker) ?_ (Function.update_self ..)
          ⟨rfl, rfl, rfl, rfl, rfl, rfl, rfl, rfl⟩ rfl rfl, Nat.lt_succ_self _⟩
      · simp [Network.step, Network.stamp, hx, numbered]
      · rintro _ ⟨⟩
        exact hid
  | epoch =>
      refine ⟨_, .stamping (stampCounter w₁.coordinator env .epoch) .cacheGen, ?_,
        h.setPhase (by simp) (by simp) (.stamping hpub hworker) ?_, Nat.lt_succ_self _⟩
      · simp [Network.step, Network.stamp, hx, stampCounter]
      · rintro _ ⟨⟩
        exact hid
  | cacheGen =>
      refine ⟨_, .stamping (stampCounter w₁.coordinator env .cacheGen) .toolchainGen, ?_,
        h.setPhase (by simp) (by simp) (.stamping hpub hworker) ?_, Nat.lt_succ_self _⟩
      · simp [Network.step, Network.stamp, hx, stampCounter]
      · rintro _ ⟨⟩
        exact hid
  | toolchainGen =>
      refine ⟨_, .stamping (stampCounter w₁.coordinator env .toolchainGen) .attemptId, ?_,
        h.setPhase (by simp) (by simp) (.stamping hpub hworker) ?_, Nat.lt_succ_self _⟩
      · simp [Network.step, Network.stamp, hx, stampCounter]
      · rintro _ ⟨⟩
        exact hid

/-- The thread sends the dispatch, or fails to.
SOURCE: Distributed.cpp:287-288 -/
theorem Progress.send {env : ProtoEnvelope} {channel : ConnId}
    (h : Progress w s x ok w₁ (.sending env channel))
    (hworker : w.coordinator.selectWorker x.wantCuda = some env.workerId)
    (hchannel : w.coordinator.workerChannels[env.workerId]? = some channel)
    (hpub : w.coordinator.published[x.keyHex]? = none) :
    ∃ w₂ q, Network.step H w₁ (.send s ok) = some w₂ ∧ Progress w s x ok w₂ q ∧
      SubmitPhase.left q < SubmitPhase.left (.sending env channel) := by
  have hx := h.submit
  have htarget := dispatchTarget_of_channel ok hworker hchannel
  cases ok with
  | true =>
      have hunsent := h.unsent (by simp)
      refine ⟨dispatched w₁ s { x with phase := .sending env channel } env channel, .waiting,
        by simp [Network.step, Network.sendDispatch, hx, dispatched],
        { submit := Function.update_self ..
          kept := h.kept.trans ⟨rfl, rfl, rfl, rfl, rfl, rfl, rfl, rfl⟩
          reached := .waiting hpub htarget
          envelope := envelope_of_none rfl
          unsent := fun hno => absurd rfl hno
          sent := fun _ => ⟨{ channel, env, request := x.request, key := x.key }, ?_⟩ },
        Nat.zero_lt_succ _⟩
      exact {
        dispatches := by rw [← hunsent.1]; rfl
        attempts := by rw [← hunsent.2]; rfl
        request := rfl
        requestId := h.envelope env rfl
        channel := hchannel
        target := htarget }
  | false =>
      refine ⟨_, .failed .IOError (ascii "dispatch failed"), ?_,
        h.setPhase (by simp) (by simp) (.failed hpub htarget) (envelope_of_none rfl),
        Nat.lt_succ_self _⟩
      simp [Network.step, Network.sendDispatch, hx]

/-- One step of the Submit's thread.
SOURCE: Distributed.cpp:257-288 -/
theorem Progress.next (h : Progress w s x ok w₁ p) (he : p.next s ok = some e) :
    ∃ w₂ q, Network.step H w₁ e = some w₂ ∧ Progress w s x ok w₂ q ∧
      SubmitPhase.left q < SubmitPhase.left p := by
  have hx := h.submit
  have hselect := selectWorker_congr h.kept.workers x.wantCuda
  cases h.reached with
  | bound =>
      cases he
      cases hpub : w.coordinator.published[x.keyHex]? with
      | some hit =>
          refine ⟨_, .replied (.result { resultFromJson hit with reused := true }), ?_,
            h.setPhase (by simp) (by simp) (.hit (by simp [hpub])) (envelope_of_none rfl),
            Nat.zero_lt_succ _⟩
          simp [Network.step, Network.lookupPublished, hx, h.kept.published, hpub]
      | none =>
          refine ⟨_, .missed, ?_, h.setPhase (by simp) (by simp) (.missed hpub)
            (envelope_of_none rfl), Nat.lt_succ_self _⟩
          simp [Network.step, Network.lookupPublished, hx, h.kept.published, hpub]
  | missed hpub =>
      cases he
      cases hworker : w.coordinator.selectWorker x.wantCuda with
      | some selected =>
          refine ⟨_, .selected selected, ?_,
            h.setPhase (by simp) (by simp) (.selected hpub hworker) (envelope_of_none rfl),
            Nat.lt_succ_self _⟩
          simp [Network.step, Network.selectWorker, hx, hselect, hworker]
      | none =>
          refine ⟨_, .replied (.reject .NoBackend (ascii "no capable worker")), ?_,
            h.setPhase (by simp) (by simp) (.rejected hpub (dispatchTarget_of_noWorker hworker))
              (envelope_of_none rfl), Nat.zero_lt_succ _⟩
          simp [Network.step, Network.selectWorker, hx, hselect, hworker]
  | @selected worker hpub hworker =>
      cases he
      refine ⟨pended w₁ s { x with phase := .selected worker } worker, _, ?_,
        h.move (by simp) (by simp) (.stamping hpub hworker) ?_ (Function.update_self ..)
          ⟨rfl, rfl, rfl, rfl, rfl, rfl, rfl, rfl⟩ rfl rfl, Nat.lt_succ_self _⟩
      · simp [Network.step, Network.pend, hx, pended]
      · rintro _ ⟨⟩
        rfl
  | stamping hpub hworker =>
      cases he
      exact h.stamp hpub hworker
  | @stamped env hpub hworker =>
      cases he
      cases hchannel : w.coordinator.workerChannels[env.workerId]? with
      | some channel =>
          refine ⟨_, .sending env channel, ?_,
            h.setPhase (by simp) (by simp) (.sending hpub hworker hchannel) ?_,
            Nat.lt_succ_self _⟩
          · simp [Network.step, Network.findChannel, hx, h.kept.channels, hchannel]
          · rintro _ ⟨⟩
            exact h.envelope env rfl
      | none =>
          refine ⟨_, .failed .NoBackend (ascii "worker gone"), ?_,
            h.setPhase (by simp) (by simp)
              (.failed hpub (dispatchTarget_of_noChannel hworker hchannel))
              (envelope_of_none rfl),
            Nat.lt_of_lt_of_le Nat.one_lt_two (Nat.le_succ _)⟩
          simp [Network.step, Network.findChannel, hx, h.kept.channels, hchannel]
  | sending hpub hworker hchannel =>
      cases he
      exact h.send hworker hchannel hpub
  | @failed code message hpub hnone =>
      cases he
      refine ⟨gaveUp w₁ s { x with phase := .failed code message } code message, _, ?_,
        h.move (by simp) (by simp) (.rejected hpub hnone) (envelope_of_none rfl)
          (Function.update_self ..) ⟨rfl, rfl, rfl, rfl, rfl, rfl, rfl, rfl⟩ rfl rfl,
        Nat.zero_lt_succ _⟩
      simp [Network.step, Network.giveUp, hx, gaveUp]
  | waiting => cases he
  | hit => cases he
  | rejected => cases he

/-- The steps of the thread lead to its end.
SOURCE: Distributed.cpp:257-288 -/
theorem Progress.drain (h : Progress w s x ok w₁ p) {n : ℕ} (hn : SubmitPhase.left p ≤ n) :
    ∃ w' q, Network.drain H (Network.nextOfSubmit s ok) n w₁ = some w' ∧
      Progress w s x ok w' q ∧ q.next s ok = none := by
  induction n generalizing w₁ p with
  | zero => exact ⟨w₁, p, rfl, h, next_eq_none_of_left _ (Nat.le_zero.mp hn)⟩
  | succ n ih =>
      have hnext : Network.nextOfSubmit s ok w₁ = p.next s ok := by
        rw [Network.nextOfSubmit, h.submit]
        rfl
      cases he : p.next s ok with
      | none =>
          refine ⟨w₁, p, ?_, h, he⟩
          rw [Network.drain, hnext, he]
      | some e =>
          obtain ⟨w₂, q, hstep, hq, hlt⟩ := h.next (H := H) he
          obtain ⟨w', q', hrest, hend⟩ := ih hq (Nat.le_of_lt_succ (hlt.trans_le hn))
          refine ⟨w', q', ?_, hend⟩
          rw [Network.drain, hnext, he]
          exact Option.bind_eq_some_iff.mpr ⟨w₂, hstep, hrest⟩

/-! ## The whole frame -/

/-- The Submit of a request, when its frame has come in. -/
def submitOf (H : Bytes → Digest) (w : Network) (r : CompilationRequest) (n : UInt64)
    (now : Int64) : Submit :=
  let plan := submitPlan w.host w.root n now r
  let key := submitKey r plan
  { request := r, key, wantCuda := plan.backend = nvrtcBackend, keyHex := key.toHex H
    phase := .bound }

/-- A Submit frame is handled to its end. -/
theorem progress_serve (H : Bytes → Digest) (w : Network) (r : CompilationRequest) (n : UInt64)
    (now : Int64) (ok : Bool) :
    ∃ w' q, Network.serve H w (.submit r n now ok) = some w' ∧
      Progress w w.nextSubmit (submitOf H w r n now) ok w' q ∧
      q.next w.nextSubmit ok = none := by
  have hstart : Progress w w.nextSubmit (submitOf H w r n now) ok (w.submit H r n now) .bound :=
    { submit := Function.update_self ..
      kept := ⟨rfl, rfl, rfl, rfl, rfl, rfl, rfl, rfl⟩
      reached := .bound
      envelope := envelope_of_none rfl
      unsent := fun _ => ⟨rfl, rfl⟩
      sent := fun hno => nomatch hno }
  exact hstart.drain (le_refl Network.submitSteps)

end CompilationFabric.Interface
