import CompilationFabric.Analysis.WorkerRegistry
import CompilationFabric.Interface.CoordinatorRuns

/-!
# Pending requests

Whether somebody is left who can answer a client that waits.  An entry of `pending_` is
removed by a publication and by a failed dispatch only: the handler drops a frame that fails a
check or reports a failure without a word to the client, and neither the end of a worker
connection nor an advance of a counter looks into `pending_`.  So no client is left alone
exactly as long as none of these happens to a dispatch that is not answered yet, and no
second Submit takes its request id.
-/

set_option autoImplicit false

namespace CompilationFabric.Analysis

open CompilationFabric.Library.TransitionSystem
open CompilationFabric.Model
open CompilationFabric.Interface

variable {H : Bytes → Digest} {w w' : Network} {e : NetworkEvent} {s t : SubmitId} {c : ConnId}
  {x : Submit} {D : Dispatch} {r : Bytes}

/-! ## The property and the condition -/

/-- The promise is pending, and the dispatch is being made or given up. -/
def dispatching : SubmitPhase → Bool
  | .stamping _ _ | .stamped _ | .sending _ _ | .failed _ _ => true
  | _ => false

/-- A dispatch that can still be answered. -/
structure Alive (w : Network) (s : SubmitId) (D : Dispatch) : Prop where
  registered : w.coordinator.workerChannels[D.env.workerId]? = some D.channel
  running : RunsAs w D.channel D.env.workerId
  unprocessed : w.processed s = false
  epoch : D.env.epoch = w.coordinator.epoch
  cacheGen : D.env.cacheGen = w.coordinator.cacheGen
  toolchainGen : D.env.toolchainGen = w.coordinator.toolchainGen

/-- The promise of a client that waits is pending, and a pending entry belongs to a dispatch
that can still be answered, or whose Submit has not sent it yet. -/
structure NoOrphans (w : Network) : Prop where
  stored : ∀ s x, w.submits s = some x → x.phase = .waiting → w.promises s = none →
    w.coordinator.pending[Submit.idHex x]? = some s
  alive : ∀ (r : Bytes) s, w.coordinator.pending[r]? = some s → ∃ x, w.submits s = some x ∧
    (dispatching x.phase = true ∨ ∃ D, w.dispatches s = some D ∧ Alive w s D)

/-- The step leaves no orphan behind. -/
def LeavesNoOrphan (H : Bytes → Digest) (w : Network) (e : NetworkEvent) : Prop :=
  ∀ w', Network.step H w e = some w' → NoOrphans w'

/-- The dispatch was sent, and its promise is pending. -/
def Unanswered (w : Network) (s : SubmitId) (D : Dispatch) : Prop :=
  w.dispatches s = some D ∧ ∃ r : Bytes, w.coordinator.pending[r]? = some s

/-- Nothing happens to a dispatch that is not answered yet: no Submit takes or removes its
pending entry, no counter is advanced, its worker id is not registered again, its connection is
not lost and not shut down, and a frame that answers it passes the checks and reports a
success.  A dispatch is sent to a running connection of its worker, with current counters and
its own pending entry. -/
def KeepsPending (w : Network) : NetworkEvent → Prop
  | .pend s => ∀ x t, w.submits s = some x →
      w.coordinator.pending[Submit.idHex x]? = some t → w.dispatches t = none
  | .giveUp s => ∀ x t, w.submits s = some x →
      w.coordinator.pending[Submit.idHex x]? = some t → w.dispatches t = none
  | .send s true => ∀ x env c, w.submits s = some x → x.phase = .sending env c →
      w.promises s = none → w.coordinator.pending[Submit.idHex x]? = some s ∧
        w.coordinator.workerChannels[env.workerId]? = some c ∧ RunsAs w c env.workerId ∧
        env.epoch = w.coordinator.epoch ∧ env.cacheGen = w.coordinator.cacheGen ∧
        env.toolchainGen = w.coordinator.toolchainGen
  | .rollEpoch => ∀ t D, ¬ Unanswered w t D
  | .bumpCacheGeneration => ∀ t D, ¬ Unanswered w t D
  | .bumpToolchainGeneration => ∀ t D, ¬ Unanswered w t D
  | .register env _ => ∀ t D, Unanswered w t D → D.env.workerId ≠ env.workerId
  | .lost c => ∀ u t D, w.conns c = some u → Unanswered w t D → D.env.workerId ≠ u.env.workerId
  | .shutdown c => ∀ t D, Unanswered w t D → D.channel ≠ c
  | .check c => ∀ u f next t D, w.conns c = some u → u.phase = .checking f next →
      f.answers = some t → Unanswered w t D → w.coordinator.counterMatches f.env next = true
  | .authorize c => ∀ u f next t D, w.conns c = some u → u.phase = .checking f next →
      f.answers = some t → Unanswered w t D →
        w.coordinator.authorizes f.env = true ∧ f.success = true
  | _ => True

/-! ## What goes with a pending entry -/

/-- Only a dispatch that was sent is processed. -/
def ProcessedSent (w : Network) : Prop := ∀ d, w.processed d = true → w.dispatches d ≠ none

/-- Every step keeps what is processed among what was sent. -/
theorem ProcessedSent.step (hp : ProcessedSent w) (hw : NetworkWellFormed H w)
    (h : NetworkTransition H w e w') : ProcessedSent w' := by
  have hfinish : ∀ {c : ConnId} {u : WorkerConn} {f : Completion}, w.conns c = some u →
      u.phase.frame = some f → ∀ d, (w.finish c u f).processed d = true →
      w.dispatches d ≠ none := by
    intro c u f hu hf d hd
    rcases Bool.or_eq_true_iff.mp hd with hd | hd
    · exact hp d hd
    · obtain ⟨-, D, hD, -⟩ :=
        answers_eq_true.mp (hw.answers c u f d hu hf (of_decide_eq_true hd))
      simp [hD]
  cases h with
  | sent hx hphase =>
      intro d hd
      obtain ⟨D, hD⟩ := Option.ne_none_iff_exists'.mp (hp d hd)
      rw [dispatch_kept hw (.sent hx hphase) hD]
      simp
  | dismiss hu h =>
      obtain ⟨next, hphase⟩ := h.checking
      exact hfinish hu (by rw [hphase]; rfl)
  | publish hu hphase h => exact hfinish hu (by rw [hphase]; rfl)
  | _ => exact hp

/-- A Submit whose dispatch was sent and whose promise is pending waits. -/
theorem waiting_of_unanswered (hw : NetworkWellFormed H w) (h : Unanswered w s D) :
    ∃ x, w.submits s = some x ∧ x.phase = .waiting ∧ w.promises s = none ∧
      w.coordinator.pending[Submit.idHex x]? = some s ∧
      Submit.idHex x = D.env.requestId.toHex := by
  obtain ⟨hD, r, hr⟩ := h
  obtain ⟨x, hx, hafter, -, -, hid⟩ := hw.dispatch s D hD
  obtain ⟨y, hy, rfl, hwait, hnone⟩ := hw.pending r s hr
  rw [hx, Option.some_inj] at hy
  subst hy
  refine ⟨x, hx, ?_, hnone, hr, by rw [Submit.idHex, hid]⟩
  cases hphase : x.phase <;> simp [hphase, afterSend, awaiting] at hafter hwait ⊢

/-- Where there are no orphans an unanswered dispatch has its worker. -/
theorem alive_of_unanswered (hw : NetworkWellFormed H w) (hn : NoOrphans w)
    (h : Unanswered w s D) : Alive w s D := by
  obtain ⟨x, hx, hphase, -⟩ := waiting_of_unanswered hw h
  obtain ⟨hD, r, hr⟩ := h
  obtain ⟨y, hy, hdisp | ⟨D', hD', halive⟩⟩ := hn.alive r s hr
  · rw [hx, Option.some_inj] at hy
    subst hy
    rw [hphase] at hdisp
    cases hdisp
  · rw [hD, Option.some_inj] at hD'
    exact hD' ▸ halive

/-- A client that waits without a result has an unanswered dispatch. -/
theorem dispatches_of_waiting (hn : NoOrphans w) (hx : w.submits s = some x)
    (hphase : x.phase = .waiting) (hnone : w.promises s = none) : w.dispatches s ≠ none := by
  obtain ⟨y, hy, hdisp | ⟨D, hD, -⟩⟩ := hn.alive _ s (hn.stored s x hx hphase hnone)
  · rw [hx, Option.some_inj] at hy
    subst hy
    rw [hphase] at hdisp
    cases hdisp
  · simp [hD]

/-! ## A step that meets the condition -/

/-- The Submits and the promises stay, and the dispatches stay alive. -/
theorem NoOrphans.of_alive (hn : NoOrphans w) (hsubmits : w'.submits = w.submits)
    (hpromises : w'.promises = w.promises) (hdispatches : w'.dispatches = w.dispatches)
    (hpending : w'.coordinator.pending = w.coordinator.pending)
    (halive : ∀ s D, Unanswered w s D → Alive w s D → Alive w' s D) : NoOrphans w' where
  stored := by
    rw [hsubmits, hpromises, hpending]
    exact hn.stored
  alive := by
    rw [hsubmits, hdispatches, hpending]
    intro r s hs
    obtain ⟨x, hx, hdisp | ⟨D, hD, hold⟩⟩ := hn.alive r s hs
    · exact ⟨x, hx, .inl hdisp⟩
    · exact ⟨x, hx, .inr ⟨D, hD, halive s D ⟨hD, r, hs⟩ hold⟩⟩

/-- A Submit moves on to a phase in which it does not wait. -/
theorem NoOrphans.setPhase (hn : NoOrphans w) (hx : w.submits s = some x) {p : SubmitPhase}
    (hwait : p ≠ .waiting)
    (hdisp : ∀ r : Bytes, w.coordinator.pending[r]? = some s → dispatching p = true) :
    NoOrphans (w.setPhase s x p) where
  stored := by
    intro t y hy hphase hnone
    rcases setPhase_cases hy with ⟨-, rfl⟩ | ⟨-, hy⟩
    · exact absurd hphase hwait
    · exact hn.stored t y hy hphase hnone
  alive := by
    intro r t ht
    by_cases hts : t = s
    · subst hts
      exact ⟨_, Function.update_self .., .inl (hdisp r ht)⟩
    · obtain ⟨y, hy, h⟩ := hn.alive r t ht
      refine ⟨y, (Function.update_of_ne hts _ _).trans hy, h.imp_right ?_⟩
      rintro ⟨D, hD, halive⟩
      exact ⟨D, hD, { halive with }⟩

/-- Without a pending entry there is nothing to show for the Submit. -/
theorem not_pending_of_phase (hw : NetworkWellFormed H w) (hx : w.submits s = some x)
    (hphase : awaiting x.phase = false) (hs : w.coordinator.pending[r]? = some s) : False := by
  obtain ⟨y, hy, -, hwait, -⟩ := hw.pending r s hs
  rw [hx, Option.some_inj] at hy
  subst hy
  rw [hphase] at hwait
  cases hwait

/-- INTERNAL: a Submit that moves on alone leaves no orphan. -/
theorem NoOrphans.move (hn : NoOrphans w) (hw : NetworkWellFormed H w)
    (hx : w.submits s = some x) {p : SubmitPhase} (h : SubmitMoves w s x e p) :
    NoOrphans (w.setPhase s x p) := by
  cases h with
  | hit hphase =>
      exact hn.setPhase hx (by simp) fun r hr =>
        (not_pending_of_phase hw hx (by rw [hphase]; rfl) hr).elim
  | miss hphase =>
      exact hn.setPhase hx (by simp) fun r hr =>
        (not_pending_of_phase hw hx (by rw [hphase]; rfl) hr).elim
  | select hphase =>
      exact hn.setPhase hx (by simp) fun r hr =>
        (not_pending_of_phase hw hx (by rw [hphase]; rfl) hr).elim
  | noWorker hphase =>
      exact hn.setPhase hx (by simp) fun r hr =>
        (not_pending_of_phase hw hx (by rw [hphase]; rfl) hr).elim
  | counter hphase => exact hn.setPhase hx (by simp) fun _ _ => rfl
  | channel hphase => exact hn.setPhase hx (by simp) fun _ _ => rfl
  | noChannel hphase => exact hn.setPhase hx (by simp) fun _ _ => rfl
  | unsent hphase => exact hn.setPhase hx (by simp) fun _ _ => rfl
  | wake hphase hres =>
      -- A promise that is kept is not pending any more.
      refine hn.setPhase hx (by split <;> simp) fun r hr => ?_
      obtain ⟨-, -, -, -, hnone⟩ := hw.pending r s hr
      rw [hres] at hnone
      cases hnone

/-- A new Submit does not wait. -/
theorem NoOrphans.submit (hn : NoOrphans w) (hw : NetworkWellFormed H w) (r : CompilationRequest)
    (n : UInt64) (now : Int64) : NoOrphans (w.submit H r n now) where
  stored := by
    intro t y hy hphase hnone
    by_cases ht : t = w.nextSubmit
    · subst ht
      simp only [Network.submit, Function.update_self, Option.some.injEq] at hy
      subst hy
      cases hphase
    · exact hn.stored t y ((Function.update_of_ne ht _ _).symm.trans hy) hphase hnone
  alive := by
    intro k t ht
    obtain ⟨y, hy, h⟩ := hn.alive k t ht
    have hne : t ≠ w.nextSubmit := by
      rintro rfl
      rw [hw.freshSubmit _ le_rfl] at hy
      cases hy
    refine ⟨y, (Function.update_of_ne hne _ _).trans hy, h.imp_right ?_⟩
    rintro ⟨D, hD, halive⟩
    exact ⟨D, hD, { halive with }⟩

/-- INTERNAL: a promise under a free id leaves no orphan. -/
theorem NoOrphans.pend (hn : NoOrphans w) (hx : w.submits s = some x) {worker : WorkerId}
    (hfree : ∀ t, w.coordinator.pending[Submit.idHex x]? = some t → w.dispatches t = none) :
    NoOrphans (pended w s x worker) where
  stored := by
    intro t y hy hphase hnone
    rcases setPhase_cases hy with ⟨-, rfl⟩ | ⟨-, hy⟩
    · cases hphase
    · have hold := hn.stored t y hy hphase hnone
      simp only [pended, Std.ExtTreeMap.getElem?_insert]
      split
      · next heq =>
        -- The entry that would be replaced is that of a client that waits.
        have hid : Submit.idHex x = Submit.idHex y := by simpa [Submit.idHex] using heq
        exact absurd (hfree t (hid ▸ hold)) (dispatches_of_waiting hn hy hphase hnone)
      · exact hold
  alive := by
    intro k t ht
    by_cases hts : t = s
    · subst hts
      exact ⟨_, Function.update_self .., .inl rfl⟩
    · simp only [pended, Std.ExtTreeMap.getElem?_insert] at ht
      split at ht
      · exact absurd (Option.some.inj ht).symm hts
      · obtain ⟨y, hy, h⟩ := hn.alive k t ht
        refine ⟨y, (Function.update_of_ne hts _ _).trans hy, h.imp_right ?_⟩
        rintro ⟨D, hD, halive⟩
        exact ⟨D, hD, { halive with }⟩

/-- INTERNAL: numbering an attempt leaves no orphan. -/
theorem NoOrphans.attempt (hn : NoOrphans w) (hx : w.submits s = some x)
    {env : ProtoEnvelope} : NoOrphans (numbered w s x env) := by
  have hmove : NoOrphans (w.setPhase s x
      (.stamped { env with attemptId := TypedId.fromU64 (w.coordinator.dispatched + 1) })) :=
    hn.setPhase hx (by simp) fun _ _ => rfl
  exact hmove.of_alive rfl rfl rfl rfl fun _ _ _ halive => { halive with }

/-- A dispatch that is sent under the condition can be answered. -/
theorem NoOrphans.sent (hn : NoOrphans w) (hw : NetworkWellFormed H w) (hp : ProcessedSent w)
    (hx : w.submits s = some x) {env : ProtoEnvelope} (hphase : x.phase = .sending env c)
    (hsend : w.promises s = none → w.coordinator.pending[Submit.idHex x]? = some s ∧
      w.coordinator.workerChannels[env.workerId]? = some c ∧ RunsAs w c env.workerId ∧
      env.epoch = w.coordinator.epoch ∧ env.cacheGen = w.coordinator.cacheGen ∧
      env.toolchainGen = w.coordinator.toolchainGen) : NoOrphans (dispatched w s x env c) where
  stored := by
    intro t y hy hphase' hnone
    rcases setPhase_cases hy with ⟨rfl, rfl⟩ | ⟨-, hy⟩
    · exact (hsend hnone).1
    · exact hn.stored t y hy hphase' hnone
  alive := by
    intro k t ht
    by_cases hts : t = s
    · subst hts
      obtain ⟨-, -, -, -, hnone⟩ := hw.pending k t ht
      obtain ⟨-, hchannel, hruns, hepoch, hcache, htool⟩ := hsend hnone
      have hproc : w.processed t = false := by
        by_contra h
        exact hp t (Bool.eq_true_of_not_eq_false h)
          (hw.dispatches_eq_none hx (by rw [hphase]; rfl))
      exact ⟨_, Function.update_self .., .inr ⟨_, Function.update_self ..,
        ⟨hchannel, hruns, hproc, hepoch, hcache, htool⟩⟩⟩
    · obtain ⟨y, hy, h⟩ := hn.alive k t ht
      refine ⟨y, (Function.update_of_ne hts _ _).trans hy, h.imp_right ?_⟩
      rintro ⟨D, hD, halive⟩
      exact ⟨D, (Function.update_of_ne hts _ _).trans hD, { halive with }⟩

/-- INTERNAL: giving up a free id leaves no orphan. -/
theorem NoOrphans.giveUp (hn : NoOrphans w) (hw : NetworkWellFormed H w)
    (hx : w.submits s = some x) {code : ErrorCode} {message : Bytes}
    (hfree : ∀ t, w.coordinator.pending[Submit.idHex x]? = some t → w.dispatches t = none) :
    NoOrphans (gaveUp w s x code message) where
  stored := by
    intro t y hy hphase hnone
    rcases setPhase_cases hy with ⟨-, rfl⟩ | ⟨-, hy⟩
    · cases hphase
    · have hold := hn.stored t y hy hphase hnone
      simp only [gaveUp, Std.ExtTreeMap.getElem?_erase]
      split
      · next heq =>
        have hid : Submit.idHex x = Submit.idHex y := by simpa [Submit.idHex] using heq
        exact absurd (hfree t (hid ▸ hold)) (dispatches_of_waiting hn hy hphase hnone)
      · exact hold
  alive := by
    intro k t ht
    simp only [gaveUp, Std.ExtTreeMap.getElem?_erase] at ht
    split at ht
    · cases ht
    · next hne =>
      obtain ⟨y, hy, h⟩ := hn.alive k t ht
      have hts : t ≠ s := by
        rintro rfl
        obtain ⟨z, hz, hid, -⟩ := hw.pending k t ht
        rw [hx, Option.some_inj] at hz
        subst hz
        exact hne (by simpa [Submit.idHex] using hid)
      refine ⟨y, (Function.update_of_ne hts _ _).trans hy, h.imp_right ?_⟩
      rintro ⟨D, hD, halive⟩
      exact ⟨D, hD, { halive with }⟩

/-! ## The worker connections -/

/-- INTERNAL: a worker that stays connected stays alive. -/
theorem Alive.setConn (h : Alive w s D) {u : WorkerConn} {p : ConnPhase}
    (hu : w.conns c = some u) (hrunning : u.phase.running = true) (hp : p.running = true) :
    Alive (w.setConn c u p) s D :=
  { h with running := (runsAs_setConn hu hrunning hp _).mpr h.running }

/-- The connections that are registered are the old ones. -/
theorem Alive.register (h : Alive w s D) (hw : NetworkWellFormed H w) {env : ProtoEnvelope}
    {caps : Json} (hid : D.env.workerId ≠ env.workerId) : Alive (w.register env caps) s D := by
  obtain ⟨u, hu, hruns⟩ := h.running
  have hne : D.channel ≠ w.nextConn := by
    intro heq
    rw [hw.freshConn _ heq.ge] at hu
    cases hu
  refine { h with registered := ?_, running := ?_ }
  · simp only [Network.register, Std.ExtTreeMap.getElem?_insert]
    rw [if_neg (by simpa using hid.symm)]
    exact h.registered
  · exact ⟨u, (Function.update_of_ne hne _ _).trans hu, hruns⟩

/-- INTERNAL: shutting down another connection leaves the worker alive. -/
theorem Alive.shutdown (h : Alive w s D) {u : WorkerConn} (hc : D.channel ≠ c) :
    Alive (w.setConn c u .ended) s D := by
  obtain ⟨v, hv, hruns⟩ := h.running
  exact { h with running := ⟨v, (Function.update_of_ne hc _ _).trans hv, hruns⟩ }

/-- INTERNAL: losing another worker leaves this one alive. -/
theorem Alive.lost (h : Alive w s D) {u : WorkerConn} (hu : w.conns c = some u)
    (hid : D.env.workerId ≠ u.env.workerId) : Alive (disconnected w c u) s D := by
  have hc : D.channel ≠ c := by
    rintro rfl
    obtain ⟨v, hv, -, hvid⟩ := h.running
    rw [hu, Option.some_inj] at hv
    exact hid (hv ▸ hvid.symm)
  refine { h.shutdown hc with registered := ?_ }
  simp only [disconnected, Std.ExtTreeMap.getElem?_erase]
  rw [if_neg (by simpa using hid.symm)]
  exact h.registered

/-- Handling a frame to its end leaves a dispatch alive that it does not answer. -/
theorem Alive.finish (h : Alive w s D) {u : WorkerConn} {f : Completion}
    (hu : w.conns c = some u) (hrunning : u.phase.running = true) (hf : f.answers ≠ some s) :
    Alive (w.finish c u f) s D := by
  refine { h.setConn hu hrunning (p := .idle) rfl with unprocessed := ?_ }
  simp [Network.finish, h.unprocessed, hf]

/-- A publication keeps the promise that is pending for its request, and no other. -/
theorem NoOrphans.publish (hn : NoOrphans w) (hw : NetworkWellFormed H w) {u : WorkerConn}
    (hu : w.conns c = some u) {f : Completion} {pubKey : Bytes}
    {pending : Std.ExtTreeMap Bytes SubmitId compare} {duplicates : UInt64}
    {promises : SubmitId → Option CompilationResult} (hphase : u.phase = .keyed f pubKey)
    (h : Resolves w f pending duplicates promises) :
    NoOrphans (publishedAs w c u f pubKey pending duplicates promises) := by
  have hrunning : u.phase.running = true := by
    rw [hphase]
    rfl
  -- An entry that stays is not under the request id of the frame, so it is not answered by it.
  have hother : ∀ {k : Bytes} {t : SubmitId} {D : Dispatch}, w.coordinator.pending[k]? = some t →
      w.dispatches t = some D → k ≠ f.env.requestId.toHex → Alive w t D →
      Alive (w.finish c u f) t D := by
    intro k t D ht hD hk halive
    refine halive.finish hu hrunning fun hans => ?_
    obtain ⟨-, D', hD', -, hid, -⟩ :=
      answers_eq_true.mp (hw.answers c u f t hu (by rw [hphase]; rfl) hans)
    rw [hD, Option.some_inj] at hD'
    subst hD'
    obtain ⟨y, hy, -, -, hpend, hhex⟩ := waiting_of_unanswered hw ⟨hD, k, ht⟩
    obtain ⟨z, hz, hzk, -⟩ := hw.pending k t ht
    rw [hy, Option.some_inj] at hz
    subst hz
    exact hk (by rw [← hzk, hhex, hid])
  cases h with
  | @pending s hs =>
      obtain ⟨x, hx, hid, -⟩ := hw.pending _ s hs
      constructor
      · intro t y hy hwait hnone
        have hts : t ≠ s := by
          rintro rfl
          simp [publishedAs] at hnone
        have hold := hn.stored t y hy hwait ((Function.update_of_ne hts _ _).symm.trans hnone)
        simp only [publishedAs, Std.ExtTreeMap.getElem?_erase]
        split
        · next heq =>
          have hk : f.env.requestId.toHex = Submit.idHex y := by simpa using heq
          rw [← hk, hs, Option.some_inj] at hold
          exact absurd hold.symm hts
        · exact hold
      · intro k t ht
        simp only [publishedAs, Std.ExtTreeMap.getElem?_erase] at ht
        split at ht
        · cases ht
        · next hne =>
          obtain ⟨y, hy, hdisp | ⟨D, hD, halive⟩⟩ := hn.alive k t ht
          · exact ⟨y, hy, .inl hdisp⟩
          · have hk : k ≠ f.env.requestId.toHex := fun heq => hne (by simp [heq])
            exact ⟨y, hy, .inr ⟨D, hD, { hother ht hD hk halive with }⟩⟩
  | duplicate hnone =>
      refine ⟨hn.stored, fun k t ht => ?_⟩
      obtain ⟨y, hy, hdisp | ⟨D, hD, halive⟩⟩ := hn.alive k t ht
      · exact ⟨y, hy, .inl hdisp⟩
      · refine ⟨y, hy, .inr ⟨D, hD, { hother ht hD ?_ halive with }⟩⟩
        rintro rfl
        have hsome : w.coordinator.pending[f.env.requestId.toHex]? = some t := ht
        rw [hnone] at hsome
        cases hsome

/-- A frame that is dismissed under the condition answers no unanswered dispatch. -/
theorem not_answers_of_dismissed {u : WorkerConn} {f : Completion} {stale : Bool}
    (hu : w.conns c = some u) (h : Dismissed w c u f e stale) (hcond : KeepsPending w e)
    (hD : Unanswered w s D) : f.answers ≠ some s := by
  intro hans
  cases h with
  | counter hphase hnext hmatch =>
      rw [hcond u f _ s D hu hphase hans hD] at hmatch
      cases hmatch
  | unauthorized hphase hauth =>
      rw [(hcond u f _ s D hu hphase hans hD).1] at hauth
      cases hauth
  | failure hphase hauth hsuccess =>
      rw [(hcond u f _ s D hu hphase hans hD).2] at hsuccess
      cases hsuccess

/-- Every step that meets the condition. -/
theorem NoOrphans.step (hn : NoOrphans w) (hw : NetworkWellFormed H w) (hp : ProcessedSent w)
    (h : NetworkTransition H w e w') (hcond : KeepsPending w e) : NoOrphans w' := by
  cases h with
  | submit => exact hn.submit hw _ _ _
  | move hx h => exact hn.move hw hx h
  | pend hx hphase => exact hn.pend hx fun t => hcond _ t hx
  | attempt hx hphase => exact hn.attempt hx
  | sent hx hphase => exact hn.sent hw hp hx hphase (hcond _ _ _ hx hphase)
  | giveUp hx hphase => exact hn.giveUp hw hx fun t => hcond _ t hx
  | invalidate => exact hn.of_alive rfl rfl rfl rfl fun _ _ _ halive => { halive with }
  | rollEpoch => exact hn.of_alive rfl rfl rfl rfl fun t D hD _ => absurd hD (hcond t D)
  | bumpCacheGeneration =>
      exact hn.of_alive rfl rfl rfl rfl fun t D hD _ => absurd hD (hcond t D)
  | bumpToolchainGeneration =>
      exact hn.of_alive rfl rfl rfl rfl fun t D hD _ => absurd hD (hcond t D)
  | register =>
      exact hn.of_alive rfl rfl rfl rfl fun t D hD halive => halive.register hw (hcond t D hD)
  | @handle c u e p hu h =>
      exact hn.of_alive rfl rfl rfl rfl fun t D _ halive =>
        halive.setConn hu h.running.1 h.running.2
  | @dismiss c u f e stale hu h =>
      have hrunning : u.phase.running = true := by
        obtain ⟨next, hphase⟩ := h.checking
        rw [hphase]
        rfl
      exact hn.of_alive rfl rfl rfl rfl fun t D hD halive =>
        { halive.finish hu hrunning (not_answers_of_dismissed hu h hcond hD) with }
  | resolve hu hphase =>
      exact hn.of_alive rfl rfl rfl rfl fun t D _ halive =>
        { halive.setConn hu (by rw [hphase]; rfl) (p := .keyed _ _) rfl with }
  | publish hu hphase h => exact hn.publish hw hu hphase h
  | lost hu hphase =>
      exact hn.of_alive rfl rfl rfl rfl fun t D hD halive =>
        halive.lost hu (hcond _ t D hu hD)
  | shutdown hu hphase =>
      exact hn.of_alive rfl rfl rfl rfl fun t D hD halive => halive.shutdown (hcond t D hD)

/-! ## A step that leaves no orphan -/

/-- An unanswered dispatch has to be alive where no orphan is left. -/
theorem alive_after (hw : NetworkWellFormed H w) (h : NetworkTransition H w e w')
    (hn' : NoOrphans w') (hD : Unanswered w s D)
    (hpending : w'.coordinator.pending = w.coordinator.pending) : Alive w' s D := by
  obtain ⟨r, hr⟩ := hD.2
  exact alive_of_unanswered (hw.step h) hn'
    ⟨dispatch_kept hw h hD.1, r, by rw [hpending]; exact hr⟩

/-- The pending entry of a client that waits is neither replaced nor removed. -/
theorem dispatches_eq_none_of_stored (hw : NetworkWellFormed H w) (hn' : NoOrphans w')
    {p : SubmitPhase}
    (hx : w.submits s = some x) (hphase : x.phase ≠ .waiting)
    (hsubmits : w'.submits = (w.setPhase s x p).submits) (hpromises : w'.promises = w.promises)
    (hgone : w'.coordinator.pending[Submit.idHex x]? ≠ some t)
    (ht : w.coordinator.pending[Submit.idHex x]? = some t) : w.dispatches t = none := by
  by_contra hsome
  obtain ⟨D, hD⟩ := Option.ne_none_iff_exists'.mp hsome
  obtain ⟨y, hy, hwait, hnone, hpend, -⟩ := waiting_of_unanswered hw ⟨hD, _, ht⟩
  have hts : t ≠ s := by
    rintro rfl
    rw [hx, Option.some_inj] at hy
    exact hphase (hy ▸ hwait)
  have hid : Submit.idHex y = Submit.idHex x := by
    obtain ⟨z, hz, hzid, -⟩ := hw.pending _ t ht
    rw [hy, Option.some_inj] at hz
    exact hz ▸ hzid
  refine hgone (hid ▸ hn'.stored t y ?_ hwait ?_)
  · rw [hsubmits]
    exact (Function.update_of_ne hts _ _).trans hy
  · rw [hpromises]
    exact hnone

/-- A step that leaves no orphan keeps what is pending. -/
theorem keepsPending_of_noOrphans (hw : NetworkWellFormed H w) (hn : NoOrphans w)
    (h : NetworkTransition H w e w') (hn' : NoOrphans w') : KeepsPending w e := by
  cases h with
  | submit => trivial
  | @move s x e p hx h => cases h <;> trivial
  | @pend s x worker hx hphase =>
      intro y t hy ht
      rw [hx, Option.some_inj] at hy
      subst hy
      refine dispatches_eq_none_of_stored hw hn' hx (by simp [hphase]) rfl rfl ?_ ht
      intro hst
      have hself : (pended w s x worker).coordinator.pending[Submit.idHex x]? = some s := by
        simp [pended, Submit.idHex]
      rw [hself, Option.some_inj] at hst
      subst hst
      exact not_pending_of_phase hw hx (by rw [hphase]; rfl) ht
  | attempt => trivial
  | @sent s x env c hx hphase =>
      intro y env' c' hy hphase' hnone
      rw [hx, Option.some_inj] at hy
      subst hy
      rw [hphase] at hphase'
      cases hphase'
      have hstored := hn'.stored s _ (Function.update_self ..) rfl hnone
      have halive : Alive (dispatched w s x env c) s _ :=
        alive_of_unanswered (hw.sent hx hphase) hn' ⟨Function.update_self .., _, hstored⟩
      exact ⟨hstored, halive.registered, halive.running, halive.epoch, halive.cacheGen,
        halive.toolchainGen⟩
  | @giveUp s x code message hx hphase =>
      intro y t hy ht
      rw [hx, Option.some_inj] at hy
      subst hy
      refine dispatches_eq_none_of_stored hw hn' hx (by simp [hphase]) rfl rfl ?_ ht
      simp [gaveUp, Submit.idHex]
  | invalidate => trivial
  | rollEpoch =>
      intro t D hD
      have hnew := (alive_after hw .rollEpoch hn' hD rfl).epoch
      rw [(alive_of_unanswered hw hn hD).epoch] at hnew
      exact absurd hnew (by simp [Network.rollEpoch])
  | bumpCacheGeneration =>
      intro t D hD
      have hnew := (alive_after hw .bumpCacheGeneration hn' hD rfl).cacheGen
      rw [(alive_of_unanswered hw hn hD).cacheGen] at hnew
      exact absurd hnew (by simp [Network.bumpCacheGeneration])
  | bumpToolchainGeneration =>
      intro t D hD
      have hnew := (alive_after hw .bumpToolchainGeneration hn' hD rfl).toolchainGen
      rw [(alive_of_unanswered hw hn hD).toolchainGen] at hnew
      exact absurd hnew (by simp [Network.bumpToolchainGeneration])
  | @register env caps =>
      intro t D hD hid
      -- The id has the new channel, and the dispatch went to an old one.
      have hnew := (alive_after hw .register hn' hD rfl).registered
      obtain ⟨u, hu, -⟩ := (alive_of_unanswered hw hn hD).running
      simp only [Network.register, hid, Std.ExtTreeMap.getElem?_insert_self,
        Option.some_inj] at hnew
      rw [hw.freshConn _ hnew.le] at hu
      cases hu
  | @handle c u e p hu h =>
      cases h with
      | receive hphase => trivial
      | checked hphase hnext hmatch =>
          intro v f next t D hv hphase' _ _
          rw [hu, Option.some_inj] at hv
          subst hv
          rw [hphase] at hphase'
          cases hphase'
          exact hmatch
      | accepted hphase hauth hsuccess =>
          intro v f next t D hv hphase' _ _
          rw [hu, Option.some_inj] at hv
          subst hv
          rw [hphase] at hphase'
          cases hphase'
          exact ⟨hauth, hsuccess⟩
  | @dismiss c u f e stale hu h =>
      -- The dispatch that the frame answers is processed, and still pending.
      have hanswers : ∀ t D, f.answers = some t → ¬ Unanswered w t D := by
        intro t D hans hD
        have hproc := (alive_after hw (.dismiss hu h) hn' hD rfl).unprocessed
        simp [Interface.dismiss, Network.finish, hans] at hproc
      have hchecked : ∀ v g next t D, w.conns c = some v → v.phase = .checking g next →
          g.answers = some t → ¬ Unanswered w t D := by
        intro v g next t D hv hphase' hans
        rw [hu, Option.some_inj] at hv
        subst hv
        obtain ⟨next', hphase⟩ := h.checking
        rw [hphase] at hphase'
        cases hphase'
        exact hanswers t D hans
      cases h with
      | counter hphase =>
          intro v g next t D hv hphase' hans hD
          exact absurd hD (hchecked v g next t D hv hphase' hans)
      | unauthorized hphase =>
          intro v g next t D hv hphase' hans hD
          exact absurd hD (hchecked v g next t D hv hphase' hans)
      | failure hphase =>
          intro v g next t D hv hphase' hans hD
          exact absurd hD (hchecked v g next t D hv hphase' hans)
  | resolve => trivial
  | publish => trivial
  | @lost c u hu hphase =>
      intro v t D hv hD hid
      rw [hu, Option.some_inj] at hv
      subst hv
      have hnew := (alive_after hw (.lost hu hphase) hn' hD rfl).registered
      simp [disconnected, hid] at hnew
  | @shutdown c u hu hphase =>
      intro t D hD hc
      obtain ⟨v, hv, hrunning, -⟩ := (alive_after hw (.shutdown hu hphase) hn' hD rfl).running
      rw [hc] at hv
      simp only [Network.setConn, Function.update_self, Option.some.injEq] at hv
      subst hv
      cases hrunning

/-! ## Every run -/

/-- What the induction over a run carries. -/
structure PendingInv (H : Bytes → Digest) (w : Network) : Prop where
  wellFormed : NetworkWellFormed H w
  processed : ProcessedSent w
  noOrphans : NoOrphans w

/-- A fresh coordinator has nothing pending. -/
theorem pendingInv_init (H : Bytes → Digest) (host : Host) (root : Bytes)
    (epoch cacheGen toolchainGen : UInt64) :
    PendingInv H (.init host root epoch cacheGen toolchainGen) where
  wellFormed := networkWellFormed_init H host root epoch cacheGen toolchainGen
  processed := fun _ h => nomatch h
  noOrphans := ⟨(fun _ _ h => nomatch h), fun _ _ h => by simp [Network.init] at h⟩

/-- In every run, every state is without orphans exactly when every step meets the condition. -/
theorem no_orphans_iff (host : Host) (root : Bytes) (epoch cacheGen toolchainGen : UInt64)
    {es : List NetworkEvent}
    (h : exec (Network.step H) (.init host root epoch cacheGen toolchainGen) es = some w) :
    Meets (Network.step H) (LeavesNoOrphan H) (.init host root epoch cacheGen toolchainGen) es ↔
      Meets (Network.step H) KeepsPending (.init host root epoch cacheGen toolchainGen) es := by
  refine meets_congr ?_ ?_ (pendingInv_init H host root epoch cacheGen toolchainGen) h
  · intro w e w' hinv hstep
    have htrans := networkTransition_of_step hstep
    constructor
    · intro hleaves
      exact keepsPending_of_noOrphans hinv.wellFormed hinv.noOrphans htrans (hleaves w' hstep)
    · intro hkeeps u hu
      obtain rfl : w' = u := Option.some.inj (hstep.symm.trans hu)
      exact hinv.noOrphans.step hinv.wellFormed hinv.processed htrans hkeeps
  · intro w e w' hleaves hstep hinv
    have htrans := networkTransition_of_step hstep
    exact
      { wellFormed := hinv.wellFormed.step htrans
        processed := hinv.processed.step hinv.wellFormed htrans
        noOrphans := hleaves w' hstep }

/-- The condition, for states with nothing pending at the events that could touch it. -/
def keepsPendingCheck (w : Network) : NetworkEvent → Bool
  | .send s true => (w.submits s).all fun x =>
      match x.phase with
      | .sending env c =>
          w.coordinator.pending[Submit.idHex x]? = some s &&
            w.coordinator.workerChannels[env.workerId]? = some c &&
            (w.conns c).any (fun u => u.phase.running && u.env.workerId = env.workerId) &&
            env.epoch = w.coordinator.epoch && env.cacheGen = w.coordinator.cacheGen &&
            env.toolchainGen = w.coordinator.toolchainGen
      | _ => true
  | .check c => (w.conns c).all fun u =>
      match u.phase with
      | .checking f next => w.coordinator.counterMatches f.env next
      | _ => true
  | .authorize c => (w.conns c).all fun u =>
      match u.phase with
      | .checking f _ => w.coordinator.authorizes f.env && f.success
      | _ => true
  | .pend _ | .giveUp _ | .rollEpoch | .bumpCacheGeneration | .bumpToolchainGeneration
  | .register _ _ | .lost _ | .shutdown _ => w.coordinator.pending.isEmpty
  | _ => true

/-- INTERNAL: what is checked of a step keeps what is pending. -/
theorem keepsPending_of_check (h : keepsPendingCheck w e = true) : KeepsPending w e := by
  have hempty : w.coordinator.pending.isEmpty = true →
      ∀ (r : Bytes) (t : SubmitId), w.coordinator.pending[r]? ≠ some t := by
    intro hempty r t
    rw [Std.ExtTreeMap.isEmpty_iff.mp hempty]
    simp
  cases e with
  | pend s => exact fun x t _ ht => absurd ht (hempty h _ t)
  | giveUp s => exact fun x t _ ht => absurd ht (hempty h _ t)
  | send s ok =>
      cases ok with
      | false => trivial
      | true =>
          intro x env c hx hphase _
          simp only [keepsPendingCheck, hx, Option.all_some, hphase, Bool.and_eq_true,
            decide_eq_true_eq, Option.any_eq_true] at h
          obtain ⟨⟨⟨⟨⟨hpend, hchannel⟩, u, hu, hruns⟩, hepoch⟩, hcache⟩, htool⟩ := h
          exact ⟨hpend, hchannel, ⟨u, hu, hruns⟩, hepoch, hcache, htool⟩
  | rollEpoch => exact fun t D hD => hD.2.elim fun r hr => hempty h r t hr
  | bumpCacheGeneration => exact fun t D hD => hD.2.elim fun r hr => hempty h r t hr
  | bumpToolchainGeneration => exact fun t D hD => hD.2.elim fun r hr => hempty h r t hr
  | register env caps => exact fun t D hD => hD.2.elim fun r hr => absurd hr (hempty h r t)
  | lost c => exact fun u t D _ hD => hD.2.elim fun r hr => absurd hr (hempty h r t)
  | shutdown c => exact fun t D hD => hD.2.elim fun r hr => absurd hr (hempty h r t)
  | check c =>
      intro u f next t D hu hphase _ _
      simpa only [keepsPendingCheck, hu, Option.all_some, hphase] using h
  | authorize c =>
      intro u f next t D hu hphase _ _
      simpa only [keepsPendingCheck, hu, Option.all_some, hphase, Bool.and_eq_true] using h
  | _ => trivial

/-- A request is dispatched and answered, and the client has its reply. -/
theorem no_orphans_iff_answered :
    Meets (Network.step byteSum) (LeavesNoOrphan byteSum) (.init {} [] 1 1 1)
      (firstDispatch ++ completionSteps 0 firstAnswer ++ [.wake 0]) := by
  obtain ⟨w, hw⟩ := Option.isSome_iff_exists.mp (show
    (exec (Network.step byteSum) (.init {} [] 1 1 1)
      (firstDispatch ++ completionSteps 0 firstAnswer ++ [.wake 0])).isSome = true by
    decide +kernel)
  exact (no_orphans_iff {} [] 1 1 1 hw).mpr
    (meets_of_checks (fun _ _ => keepsPending_of_check) (by decide +kernel))

/-- A client waits, and its dispatch cannot be answered any more or its promise is not the one
that is pending. -/
def orphaned (s : SubmitId) (w : Network) : Bool :=
  match w.submits s, w.dispatches s with
  | some x, some D =>
      (match x.phase with | .waiting => true | _ => false) && (w.promises s).isNone &&
        (w.coordinator.pending[Submit.idHex x]? ≠ some s || w.processed s ||
          w.coordinator.workerChannels[D.env.workerId]? ≠ some D.channel ||
          D.env.epoch ≠ w.coordinator.epoch)
  | _, _ => false

/-- INTERNAL: what is checked of a state is an orphan. -/
theorem not_noOrphans_of_orphaned (h : orphaned s w = true) : ¬ NoOrphans w := by
  unfold orphaned at h
  split at h
  · next x D hx hD =>
    simp only [Bool.and_eq_true, Bool.or_eq_true, decide_eq_true_eq, Option.isNone_iff_eq_none] at h
    obtain ⟨⟨hwait, hnone⟩, hbad⟩ := h
    have hphase : x.phase = .waiting := by
      split at hwait
      · assumption
      · cases hwait
    intro hn
    have hstored := hn.stored s x hx hphase hnone
    obtain ⟨y, hy, hdisp | ⟨D', hD', halive⟩⟩ := hn.alive _ s hstored
    · rw [hx, Option.some_inj] at hy
      rw [← hy, hphase] at hdisp
      cases hdisp
    · rw [hD, Option.some_inj] at hD'
      subst hD'
      rcases hbad with ((hbad | hbad) | hbad) | hbad
      · exact hbad hstored
      · rw [halive.unprocessed] at hbad
        cases hbad
      · exact hbad halive.registered
      · exact hbad halive.epoch
  · cases h

/-- INTERNAL: a run that ends with an orphan has left one. -/
theorem not_meets_of_orphaned {es : List NetworkEvent}
    (h : (exec (Network.step H) (.init {} [] 1 1 1) es).any (orphaned s) = true) :
    ¬ Meets (Network.step H) (LeavesNoOrphan H) (.init {} [] 1 1 1) es := by
  obtain ⟨w, hw, horphaned⟩ := (Option.any_eq_true _ _).mp h
  intro hmeets
  exact not_noOrphans_of_orphaned horphaned
    (exec_induction (fun _ _ w' hleaves hstep _ => hleaves w' hstep) hmeets hw
      (pendingInv_init H {} [] 1 1 1).noOrphans)

/-- The dispatched compilation fails; the worker's connection is lost; the epoch is rolled; and
the request is submitted again. -/
theorem not_no_orphans :
    ¬ Meets (Network.step byteSum) (LeavesNoOrphan byteSum) (.init {} [] 1 1 1)
      (firstDispatch ++ [.receive 0 { firstAnswer with success := false }, .check 0, .check 0,
        .check 0, .authorize 0]) ∧
    ¬ Meets (Network.step byteSum) (LeavesNoOrphan byteSum) (.init {} [] 1 1 1)
      (firstDispatch ++ [.lost 0]) ∧
    ¬ Meets (Network.step byteSum) (LeavesNoOrphan byteSum) (.init {} [] 1 1 1)
      (firstDispatch ++ [.rollEpoch]) ∧
    ¬ Meets (Network.step byteSum) (LeavesNoOrphan byteSum) (.init {} [] 1 1 1)
      (firstDispatch ++ [.submit firstRequest 1 0, .lookup 1, .select 1, .pend 1]) :=
  ⟨not_meets_of_orphaned (s := 0) (by decide +kernel),
    not_meets_of_orphaned (s := 0) (by decide +kernel),
    not_meets_of_orphaned (s := 0) (by decide +kernel),
    not_meets_of_orphaned (s := 0) (by decide +kernel)⟩

end CompilationFabric.Analysis
