import CompilationFabric.Interface.CoordinatorTransition

/-!
# What holds of every coordinator state

`NetworkWellFormed` relates the maps to the Submit frames behind them: a pending entry is the
promise of a Submit of that request id, a dispatch carries what its Submit has computed, and
a frame that a handler is working on answers a dispatch of that connection which nobody has
answered before.
-/

set_option autoImplicit false

namespace CompilationFabric.Interface

open CompilationFabric.Library.TransitionSystem
open CompilationFabric.Model

variable {H : Bytes → Digest} {w w' : Network} {e : NetworkEvent} {s t : SubmitId}
  {x y : Submit} {c : ConnId}

/-! ## Phases -/

/-- The envelope of the dispatch that is being made. -/
def envelope : SubmitPhase → Option ProtoEnvelope
  | .stamping env _ => some env
  | .stamped env => some env
  | .sending env _ => some env
  | _ => none

/-- The Submit has missed and has not sent its dispatch yet. -/
def preparing : SubmitPhase → Bool
  | .missed | .selected _ | .stamping _ _ | .stamped _ | .sending _ _ => true
  | _ => false

/-- The Submit has put its promise into `pending_` and has no reply yet. -/
def awaiting : SubmitPhase → Bool
  | .stamping _ _ | .stamped _ | .sending _ _ | .failed _ _ | .waiting => true
  | _ => false

/-- The Submit is past the point where its promise is made. -/
def promised : SubmitPhase → Bool
  | .bound | .missed | .selected _ => false
  | _ => true

/-- The dispatch of the Submit can have been sent. -/
def afterSend : SubmitPhase → Bool
  | .waiting | .replied _ => true
  | _ => false

/-- The request id, as the maps have it. -/
def Submit.idHex (x : Submit) : Bytes := x.request.requestId.toHex

/-- A dispatch that no handled frame has answered. -/
def Outstanding (w : Network) (s : SubmitId) : Prop :=
  w.dispatches s ≠ none ∧ w.processed s = false

/-! ## The invariant -/

structure NetworkWellFormed (H : Bytes → Digest) (w : Network) : Prop where
  freshSubmit : ∀ s, w.nextSubmit ≤ s → w.submits s = none
  freshConn : ∀ c, w.nextConn ≤ c → w.conns c = none
  /-- A Submit has the key of its request. -/
  key : ∀ s x, w.submits s = some x →
    x.keyHex = x.key.toHex H ∧ x.keyHex = keyHexOf H w.host w.root x.request
  /-- Its request id is bound. -/
  bound : ∀ s x, w.submits s = some x → ∃ k, w.coordinator.reqToKey[Submit.idHex x]? = some k
  envelope : ∀ s x env, w.submits s = some x → envelope x.phase = some env →
    env.requestId = x.request.requestId
  dispatch : ∀ s D, w.dispatches s = some D → ∃ x, w.submits s = some x ∧
    afterSend x.phase = true ∧ D.request = x.request ∧ D.key = x.key ∧
    D.env.requestId = x.request.requestId
  /-- A pending entry is the promise of a Submit of that request id that has no reply yet. -/
  pending : ∀ (r : Bytes) s, w.coordinator.pending[r]? = some s → ∃ x, w.submits s = some x ∧
    Submit.idHex x = r ∧ awaiting x.phase = true ∧ w.promises s = none
  promise : ∀ s res, w.promises s = some res → ∃ x, w.submits s = some x ∧
    promised x.phase = true
  /-- A frame that is being handled answers an outstanding dispatch on its connection. -/
  answers : ∀ c x f d, w.conns c = some x → x.phase.frame = some f → f.answers = some d →
    w.answers c f d = true
  success : ∀ c x f, w.conns c = some x → x.phase.authorized = some f → f.success = true

/-- A coordinator without clients and workers is well formed. -/
theorem networkWellFormed_init (H : Bytes → Digest) (host : Host) (root : Bytes)
    (epoch cacheGen toolchainGen : UInt64) :
    NetworkWellFormed H (.init host root epoch cacheGen toolchainGen) := by
  constructor <;> intros <;> simp_all [Network.init]

/-! ## Small facts -/

/-- INTERNAL: after one Submit has moved, a Submit is that one or as before. -/
theorem setPhase_cases {p : SubmitPhase} (h : (w.setPhase s x p).submits t = some y) :
    (t = s ∧ y = { x with phase := p }) ∨ (t ≠ s ∧ w.submits t = some y) := by
  by_cases hts : t = s
  · subst hts
    simp only [Network.setPhase, Function.update_self, Option.some.injEq] at h
    exact .inl ⟨rfl, h.symm⟩
  · simp only [Network.setPhase, Function.update_of_ne hts] at h
    exact .inr ⟨hts, h⟩

/-- INTERNAL: after one connection has moved, a connection is that one or as before. -/
theorem setConn_cases {d : ConnId} {u v : WorkerConn} {p : ConnPhase}
    (h : (w.setConn c u p).conns d = some v) :
    (d = c ∧ v = { u with phase := p }) ∨ (d ≠ c ∧ w.conns d = some v) := by
  by_cases hdc : d = c
  · subst hdc
    simp only [Network.setConn, Function.update_self, Option.some.injEq] at h
    exact .inl ⟨rfl, h.symm⟩
  · simp only [Network.setConn, Function.update_of_ne hdc] at h
    exact .inr ⟨hdc, h⟩

/-- A frame answers the open dispatch of its connection, request and attempt. -/
theorem answers_eq_true {f : Completion} {d : SubmitId} :
    w.answers c f d = true ↔ w.processed d = false ∧ ∃ D, w.dispatches d = some D ∧
      D.channel = c ∧ D.env.requestId = f.env.requestId ∧
      D.env.attemptId = f.env.attemptId := by
  unfold Network.answers
  cases hD : w.dispatches d with
  | none => simp
  | some D => simp [and_assoc]

/-! ## The Submit frames -/

namespace NetworkWellFormed

/-- A new Submit, with its request id bound. -/
theorem submit (hw : NetworkWellFormed H w) (r : CompilationRequest) (n : UInt64) (now : Int64) :
    NetworkWellFormed H (w.submit H r n now) := by
  have hnone := hw.freshSubmit w.nextSubmit le_rfl
  have hother : ∀ {t y}, w.submits t = some y → t ≠ w.nextSubmit := by
    rintro t y hy rfl
    rw [hnone] at hy
    cases hy
  have hkeep : ∀ {t y}, w.submits t = some y → (w.submit H r n now).submits t = some y :=
    fun hy => (Function.update_of_ne (hother hy) _ _).trans hy
  have hcases : ∀ {t y}, (w.submit H r n now).submits t = some y →
      w.submits t = some y ∨ t = w.nextSubmit ∧ y.request = r ∧ y.phase = .bound ∧
        y.keyHex = y.key.toHex H ∧ y.keyHex = keyHexOf H w.host w.root r := by
    intro t y hy
    by_cases ht : t = w.nextSubmit
    · subst ht
      simp only [Network.submit, Function.update_self, Option.some.injEq] at hy
      subst hy
      refine .inr ⟨rfl, rfl, rfl, rfl, ?_⟩
      rw [keyHexOf, ← submitKey_submitPlan w.host w.root n now r]
    · exact .inl ((Function.update_of_ne ht _ _).symm.trans hy)
  constructor
  · intro t ht
    have hlt : w.nextSubmit < t := ht
    exact (Function.update_of_ne hlt.ne' _ _).trans (hw.freshSubmit t hlt.le)
  · exact hw.freshConn
  · intro t y hy
    rcases hcases hy with hy | ⟨-, hreq, -, hkey, hhex⟩
    · exact hw.key t y hy
    · rw [hreq]
      exact ⟨hkey, hhex⟩
  · intro t y hy
    simp only [Network.submit, Std.ExtTreeMap.getElem?_insert]
    split
    · exact ⟨_, rfl⟩
    · next hne =>
      rcases hcases hy with hy | ⟨-, hreq, -⟩
      · exact hw.bound t y hy
      · exact absurd (by simp [Submit.idHex, hreq]) hne
  · intro t y env hy henv
    rcases hcases hy with hy | ⟨-, -, hphase, -⟩
    · exact hw.envelope t y env hy henv
    · rw [hphase] at henv
      cases henv
  · intro t D hD
    obtain ⟨y, hy, hrest⟩ := hw.dispatch t D hD
    exact ⟨y, hkeep hy, hrest⟩
  · intro r' t ht
    obtain ⟨y, hy, hrest⟩ := hw.pending r' t ht
    exact ⟨y, hkeep hy, hrest⟩
  · intro t res hres
    obtain ⟨y, hy, hrest⟩ := hw.promise t res hres
    exact ⟨y, hkeep hy, hrest⟩
  · exact hw.answers
  · exact hw.success

/-- A Submit moves on, with its envelope kept and without going back. -/
theorem move (hw : NetworkWellFormed H w) (hx : w.submits s = some x) {p : SubmitPhase}
    (henv : ∀ env, Interface.envelope p = some env → env.requestId = x.request.requestId)
    (hsend : afterSend x.phase = true → afterSend p = true)
    (hawait : awaiting x.phase = true → w.promises s = none →
      w.coordinator.pending[Submit.idHex x]? = some s → awaiting p = true)
    (hpromised : promised x.phase = true → promised p = true) :
    NetworkWellFormed H (w.setPhase s x p) := by
  have hkeep : ∀ {t y}, w.submits t = some y →
      ∃ q, (w.setPhase s x p).submits t = some { y with phase := q } ∧
        (t = s ∧ y = x ∧ q = p ∨ t ≠ s ∧ q = y.phase) := by
    intro t y hy
    by_cases hts : t = s
    · subst hts
      rw [hx, Option.some_inj] at hy
      subst hy
      exact ⟨p, Function.update_self .., .inl ⟨rfl, rfl, rfl⟩⟩
    · exact ⟨y.phase, (Function.update_of_ne hts _ _).trans hy, .inr ⟨hts, rfl⟩⟩
  constructor
  · intro t ht
    have hne : t ≠ s := by
      rintro rfl
      rw [hw.freshSubmit t ht] at hx
      cases hx
    exact (Function.update_of_ne hne _ _).trans (hw.freshSubmit t ht)
  · exact hw.freshConn
  · intro t y hy
    rcases setPhase_cases hy with ⟨-, rfl⟩ | ⟨-, hy⟩
    · exact hw.key s x hx
    · exact hw.key t y hy
  · intro t y hy
    rcases setPhase_cases hy with ⟨-, rfl⟩ | ⟨-, hy⟩
    · exact hw.bound s x hx
    · exact hw.bound t y hy
  · intro t y env hy h
    rcases setPhase_cases hy with ⟨-, rfl⟩ | ⟨-, hy⟩
    · exact henv env h
    · exact hw.envelope t y env hy h
  · intro t D hD
    obtain ⟨y, hy, hafter, hrest⟩ := hw.dispatch t D hD
    obtain ⟨q, hq, hcase⟩ := hkeep hy
    refine ⟨_, hq, ?_, hrest⟩
    rcases hcase with ⟨-, rfl, rfl⟩ | ⟨-, rfl⟩
    · exact hsend hafter
    · exact hafter
  · intro r t ht
    obtain ⟨y, hy, hid, hwait, hnone⟩ := hw.pending r t ht
    obtain ⟨q, hq, hcase⟩ := hkeep hy
    refine ⟨_, hq, hid, ?_, hnone⟩
    rcases hcase with ⟨rfl, rfl, rfl⟩ | ⟨-, rfl⟩
    · exact hawait hwait hnone (hid ▸ ht)
    · exact hwait
  · intro t res hres
    obtain ⟨y, hy, hp⟩ := hw.promise t res hres
    obtain ⟨q, hq, hcase⟩ := hkeep hy
    refine ⟨_, hq, ?_⟩
    rcases hcase with ⟨-, rfl, rfl⟩ | ⟨-, rfl⟩
    · exact hpromised hp
    · exact hp
  · exact hw.answers
  · exact hw.success

/-- INTERNAL: a Submit that moves on alone keeps the invariant. -/
theorem submitMoves (hw : NetworkWellFormed H w) (hx : w.submits s = some x) {p : SubmitPhase}
    (h : SubmitMoves w s x e p) : NetworkWellFormed H (w.setPhase s x p) := by
  cases h with
  | hit hphase => refine hw.move hx ?_ ?_ ?_ ?_ <;> simp [hphase, Interface.envelope, awaiting,
      afterSend, promised]
  | miss hphase => refine hw.move hx ?_ ?_ ?_ ?_ <;> simp [hphase, Interface.envelope, awaiting,
      afterSend, promised]
  | select hphase => refine hw.move hx ?_ ?_ ?_ ?_ <;> simp [hphase, Interface.envelope, awaiting,
      afterSend, promised]
  | noWorker hphase => refine hw.move hx ?_ ?_ ?_ ?_ <;> simp [hphase, Interface.envelope,
      awaiting, afterSend, promised]
  | @counter env next hphase hnext =>
      have hid := hw.envelope s x env hx (by rw [hphase]; rfl)
      refine hw.move hx ?_ ?_ ?_ ?_
      · rintro env' henv'
        obtain rfl := Option.some.inj henv'
        cases next <;> exact hid
      all_goals simp [hphase, awaiting, afterSend, promised]
  | @channel env c hphase hchannel =>
      have hid := hw.envelope s x env hx (by rw [hphase]; rfl)
      refine hw.move hx ?_ ?_ ?_ ?_ <;> simp [hphase, Interface.envelope, awaiting, afterSend,
        promised, hid]
  | noChannel hphase => refine hw.move hx ?_ ?_ ?_ ?_ <;> simp [hphase, Interface.envelope,
      awaiting, afterSend, promised]
  | unsent hphase => refine hw.move hx ?_ ?_ ?_ ?_ <;> simp [hphase, Interface.envelope, awaiting,
      afterSend, promised]
  | wake hphase hres => refine hw.move hx ?_ ?_ ?_ ?_ <;> simp [hphase, Interface.envelope,
      awaiting, afterSend, promised, hres]

/-- A Submit that is not past its send has no dispatch. -/
theorem dispatches_eq_none (hw : NetworkWellFormed H w) (hx : w.submits s = some x)
    (hphase : afterSend x.phase = false) : w.dispatches s = none := by
  by_contra hsome
  obtain ⟨D, hD⟩ := Option.ne_none_iff_exists'.mp hsome
  obtain ⟨y, hy, hafter, -⟩ := hw.dispatch s D hD
  rw [hx, Option.some_inj] at hy
  subst hy
  rw [hphase] at hafter
  cases hafter

/-- A Submit that is not yet pending has no promise. -/
theorem promises_eq_none (hw : NetworkWellFormed H w) (hx : w.submits s = some x)
    (hphase : promised x.phase = false) : w.promises s = none := by
  by_contra hsome
  obtain ⟨res, hres⟩ := Option.ne_none_iff_exists'.mp hsome
  obtain ⟨y, hy, hp⟩ := hw.promise s res hres
  rw [hx, Option.some_inj] at hy
  subst hy
  rw [hphase] at hp
  cases hp

/-- INTERNAL: making the promise keeps the invariant. -/
theorem pend (hw : NetworkWellFormed H w) (hx : w.submits s = some x) {worker : WorkerId}
    (hphase : x.phase = .selected worker) : NetworkWellFormed H (pended w s x worker) := by
  have hmove : NetworkWellFormed H (w.setPhase s x
      (.stamping { workerId := worker, requestId := x.request.requestId } .epoch)) := by
    refine hw.move hx ?_ ?_ ?_ ?_ <;> simp [hphase, Interface.envelope, awaiting, afterSend,
      promised]
  refine { hmove with pending := ?_ }
  intro r t ht
  simp only [pended, Std.ExtTreeMap.getElem?_insert] at ht
  split at ht
  · next heq =>
    obtain rfl := Option.some.inj ht
    exact ⟨_, Function.update_self .., by simpa [Submit.idHex] using heq, rfl,
      hw.promises_eq_none hx (by rw [hphase]; rfl)⟩
  · exact hmove.pending r t ht

/-- INTERNAL: numbering the attempt keeps the invariant. -/
theorem attempt (hw : NetworkWellFormed H w) (hx : w.submits s = some x) {env : ProtoEnvelope}
    (hphase : x.phase = .stamping env .attemptId) : NetworkWellFormed H (numbered w s x env) := by
  have hid := hw.envelope s x env hx (by rw [hphase]; rfl)
  have hmove : NetworkWellFormed H (w.setPhase s x
      (.stamped { env with attemptId := TypedId.fromU64 (w.coordinator.dispatched + 1) })) := by
    refine hw.move hx ?_ ?_ ?_ ?_ <;> simp [hphase, Interface.envelope, awaiting, afterSend,
      promised, hid]
  exact { hmove with }

/-- INTERNAL: sending the dispatch keeps the invariant. -/
theorem sent (hw : NetworkWellFormed H w) (hx : w.submits s = some x) {env : ProtoEnvelope}
    (hphase : x.phase = .sending env c) : NetworkWellFormed H (dispatched w s x env c) := by
  have hid := hw.envelope s x env hx (by rw [hphase]; rfl)
  have hnone := hw.dispatches_eq_none hx (by rw [hphase]; rfl)
  have hmove : NetworkWellFormed H (w.setPhase s x .waiting) := by
    refine hw.move hx ?_ ?_ ?_ ?_ <;> simp [hphase, Interface.envelope, awaiting, afterSend,
      promised]
  refine { hmove with dispatch := ?_, answers := ?_ }
  · intro t D hD
    by_cases hts : t = s
    · subst hts
      simp only [dispatched, Function.update_self, Option.some.injEq] at hD
      subst hD
      exact ⟨_, Function.update_self .., rfl, rfl, rfl, hid⟩
    · simp only [dispatched, Function.update_of_ne hts] at hD
      exact hmove.dispatch t D hD
  · intro c' y f d hy hf hd
    obtain ⟨hproc, D, hD, hrest⟩ := answers_eq_true.mp (hw.answers c' y f d hy hf hd)
    have hds : d ≠ s := by
      rintro rfl
      rw [hnone] at hD
      cases hD
    exact answers_eq_true.mpr ⟨hproc, D, (Function.update_of_ne hds _ _).trans hD, hrest⟩

/-- Removing a pending entry. -/
theorem erasePending (hw : NetworkWellFormed H w) (r : Bytes) :
    NetworkWellFormed H { w with
      coordinator := { w.coordinator with pending := w.coordinator.pending.erase r } } := by
  refine { hw with pending := ?_ }
  intro r' t ht
  rw [Std.ExtTreeMap.getElem?_erase] at ht
  split at ht
  · cases ht
  · exact hw.pending r' t ht

/-- INTERNAL: giving up keeps the invariant. -/
theorem giveUp (hw : NetworkWellFormed H w) (hx : w.submits s = some x) {code : ErrorCode}
    {message : Bytes} (hphase : x.phase = .failed code message) :
    NetworkWellFormed H (gaveUp w s x code message) := by
  refine (hw.erasePending (Submit.idHex x)).move hx ?_ ?_ ?_ ?_
  · simp [Interface.envelope]
  · simp [hphase, afterSend]
  · simp
  · simp [promised]

/-! ## The worker connections -/

/-- A handler moves on; `processed` may grow by the dispatch of its frame when it is done. -/
theorem moveConn (hw : NetworkWellFormed H w) {u : WorkerConn} (hu : w.conns c = some u)
    {p : ConnPhase}
    (hframe : ∀ f d, p.frame = some f → f.answers = some d → w.answers c f d = true)
    (hsuccess : ∀ f, p.authorized = some f → f.success = true) :
    NetworkWellFormed H (w.setConn c u p) := by
  refine { hw with freshConn := ?_, answers := ?_, success := ?_ }
  · intro d hd
    have hne : d ≠ c := by
      rintro rfl
      rw [hw.freshConn d hd] at hu
      cases hu
    exact (Function.update_of_ne hne _ _).trans (hw.freshConn d hd)
  · intro d v f a hv hf ha
    rcases setConn_cases hv with ⟨rfl, rfl⟩ | ⟨-, hv⟩
    · exact hframe f a hf ha
    · exact hw.answers d v f a hv hf ha
  · intro d v f hv hf
    rcases setConn_cases hv with ⟨-, rfl⟩ | ⟨-, hv⟩
    · exact hsuccess f hf
    · exact hw.success d v f hv hf

/-- Two connections do not handle answers to one dispatch. -/
theorem conn_eq_of_answers (hw : NetworkWellFormed H w) {c' : ConnId} {u u' : WorkerConn}
    {f f' : Completion} {d : SubmitId} (hu : w.conns c = some u) (hf : u.phase.frame = some f)
    (hd : f.answers = some d) (hu' : w.conns c' = some u') (hf' : u'.phase.frame = some f')
    (hd' : f'.answers = some d) : c = c' := by
  obtain ⟨-, D, hD, hc, -⟩ := answers_eq_true.mp (hw.answers c u f d hu hf hd)
  obtain ⟨-, D', hD', hc', -⟩ := answers_eq_true.mp (hw.answers c' u' f' d hu' hf' hd')
  rw [hD, Option.some_inj] at hD'
  rw [← hc, hD', hc']

/-- INTERNAL: the end of a frame keeps the invariant. -/
theorem finish (hw : NetworkWellFormed H w) {u : WorkerConn} (hu : w.conns c = some u)
    {f : Completion} (hf : u.phase.frame = some f) : NetworkWellFormed H (w.finish c u f) := by
  have hmove : NetworkWellFormed H (w.setConn c u .idle) :=
    hw.moveConn hu (by simp [ConnPhase.frame]) (by simp [ConnPhase.authorized])
  refine { hmove with answers := ?_ }
  intro c' v g d hv hg hd
  rcases setConn_cases hv with ⟨-, rfl⟩ | ⟨hne, hv⟩
  · cases hg
  · obtain ⟨hproc, hrest⟩ := answers_eq_true.mp (hw.answers c' v g d hv hg hd)
    refine answers_eq_true.mpr ⟨?_, hrest⟩
    have hother : f.answers ≠ some d := fun h =>
      hne (hw.conn_eq_of_answers hu hf h hv hg hd).symm
    simp [Network.finish, hproc, hother]

/-- INTERNAL: a connection that moves on alone keeps the invariant. -/
theorem connMoves (hw : NetworkWellFormed H w) {u : WorkerConn} (hu : w.conns c = some u)
    {p : ConnPhase} (h : ConnMoves w c u e p) : NetworkWellFormed H (w.setConn c u p) := by
  cases h with
  | receive hphase hanswers =>
      refine hw.moveConn hu ?_ (by simp [ConnPhase.authorized])
      rintro g d hg hd
      obtain rfl := Option.some.inj hg
      exact hanswers d hd
  | checked hphase hnext hmatch =>
      refine hw.moveConn hu ?_ (by simp [ConnPhase.authorized])
      rintro g d hg hd
      obtain rfl := Option.some.inj hg
      exact hw.answers c u _ d hu (by rw [hphase]; rfl) hd
  | accepted hphase hauth hsuccess =>
      refine hw.moveConn hu ?_ ?_
      · rintro g d hg hd
        obtain rfl := Option.some.inj hg
        exact hw.answers c u _ d hu (by rw [hphase]; rfl) hd
      · rintro g hg
        obtain rfl := Option.some.inj hg
        exact hsuccess

/-- INTERNAL: dismissing a frame keeps the invariant. -/
theorem dismiss (hw : NetworkWellFormed H w) {u : WorkerConn} (hu : w.conns c = some u)
    {f : Completion} {stale : Bool} (h : Dismissed w c u f e stale) :
    NetworkWellFormed H (Interface.dismiss w c u f stale) := by
  have hframe : u.phase.frame = some f := by
    obtain ⟨next, hphase⟩ := h.checking
    rw [hphase]
    rfl
  exact { hw.finish hu hframe with }

/-- INTERNAL: finding the key of a frame keeps the invariant. -/
theorem resolve (hw : NetworkWellFormed H w) {u : WorkerConn} (hu : w.conns c = some u)
    {f : Completion} (hphase : u.phase = .accepted f) :
    NetworkWellFormed H (resolved w c u f) := by
  have hmove : NetworkWellFormed H (w.setConn c u (.keyed f (pubKeyOf w.coordinator f.env))) := by
    refine hw.moveConn hu ?_ ?_
    · rintro g d hg hd
      obtain rfl := Option.some.inj hg
      exact hw.answers c u _ d hu (by rw [hphase]; rfl) hd
    · rintro g hg
      obtain rfl := Option.some.inj hg
      exact hw.success c u _ hu (by rw [hphase]; rfl)
  exact { hmove with }

/-- INTERNAL: publishing a result keeps the invariant. -/
theorem publish (hw : NetworkWellFormed H w) {u : WorkerConn} (hu : w.conns c = some u)
    {f : Completion} {pubKey : Bytes} {pending : Std.ExtTreeMap Bytes SubmitId compare}
    {duplicates : UInt64} {promises : SubmitId → Option CompilationResult}
    (hphase : u.phase = .keyed f pubKey) (h : Resolves w f pending duplicates promises) :
    NetworkWellFormed H (publishedAs w c u f pubKey pending duplicates promises) := by
  have hfinish := hw.finish hu (f := f) (by rw [hphase]; rfl)
  cases h with
  | @pending s hs =>
      obtain ⟨x, hx, hid, hwait, -⟩ := hw.pending _ s hs
      refine { hfinish with pending := ?_, promise := ?_ }
      · intro r t ht
        simp only [publishedAs, Std.ExtTreeMap.getElem?_erase] at ht
        split at ht
        · cases ht
        · next hne =>
          obtain ⟨y, hy, hidy, hwaity, hnone⟩ := hw.pending r t ht
          have hts : t ≠ s := by
            rintro rfl
            rw [hx, Option.some_inj] at hy
            subst hy
            exact hne (by simp [← hid, hidy])
          exact ⟨y, hy, hidy, hwaity, (Function.update_of_ne hts _ _).trans hnone⟩
      · intro t res hres
        by_cases hts : t = s
        · subst hts
          refine ⟨x, hx, ?_⟩
          cases hp : x.phase <;> simp [hp, awaiting, promised] at hwait ⊢
        · exact hw.promise t res ((Function.update_of_ne hts _ _).symm.trans hres)
  | duplicate hnone => exact { hfinish with }

/-- INTERNAL: a new worker connection keeps the invariant. -/
theorem register (hw : NetworkWellFormed H w) (env : ProtoEnvelope) (caps : Json) :
    NetworkWellFormed H (w.register env caps) := by
  have hcases : ∀ {d v}, (w.register env caps).conns d = some v →
      v.phase = .idle ∨ w.conns d = some v := by
    intro d v hv
    by_cases hd : d = w.nextConn
    · subst hd
      simp only [Network.register, Function.update_self, Option.some.injEq] at hv
      exact .inl (hv ▸ rfl)
    · exact .inr ((Function.update_of_ne hd _ _).symm.trans hv)
  refine { hw with freshConn := ?_, answers := ?_, success := ?_ }
  · intro d hd
    have hlt : w.nextConn < d := hd
    exact (Function.update_of_ne hlt.ne' _ _).trans (hw.freshConn d hlt.le)
  · intro d v f a hv hf ha
    rcases hcases hv with hidle | hv
    · rw [hidle] at hf
      cases hf
    · exact hw.answers d v f a hv hf ha
  · intro d v f hv hf
    rcases hcases hv with hidle | hv
    · rw [hidle] at hf
      cases hf
    · exact hw.success d v f hv hf

/-- INTERNAL: the end of a connection keeps the invariant. -/
theorem ended (hw : NetworkWellFormed H w) {u : WorkerConn} (hu : w.conns c = some u) :
    NetworkWellFormed H (w.setConn c u .ended) :=
  hw.moveConn hu (by simp [ConnPhase.frame]) (by simp [ConnPhase.authorized])

/-! ## Every step -/

/-- Every step keeps the invariant, by one case for each way it can end. -/
theorem step (hw : NetworkWellFormed H w) (h : NetworkTransition H w e w') :
    NetworkWellFormed H w' := by
  cases h with
  | submit => exact hw.submit _ _ _
  | move hx h => exact hw.submitMoves hx h
  | pend hx hphase => exact hw.pend hx hphase
  | attempt hx hphase => exact hw.attempt hx hphase
  | sent hx hphase => exact hw.sent hx hphase
  | giveUp hx hphase => exact hw.giveUp hx hphase
  | invalidate => exact { hw with }
  | rollEpoch => exact { hw with }
  | bumpCacheGeneration => exact { hw with }
  | bumpToolchainGeneration => exact { hw with }
  | register => exact hw.register _ _
  | handle hx h => exact hw.connMoves hx h
  | dismiss hx h => exact hw.dismiss hx h
  | resolve hx hphase => exact hw.resolve hx hphase
  | publish hx hphase h => exact hw.publish hx hphase h
  | lost hx hphase => exact { hw.ended hx with }
  | shutdown hx hphase => exact hw.ended hx

end NetworkWellFormed

end CompilationFabric.Interface
