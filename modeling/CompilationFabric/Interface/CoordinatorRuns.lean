import CompilationFabric.Interface.CoordinatorInvariant

/-!
# Runs of the coordinator

What one step does to each of the maps and to a single Submit, read off the list of
transitions once for the invariants that follow.
-/

set_option autoImplicit false

namespace CompilationFabric.Interface

open CompilationFabric.Library.TransitionSystem
open CompilationFabric.Model

variable {H : Bytes → Digest} {w w' : Network} {e : NetworkEvent} {es : List NetworkEvent}
  {s : SubmitId} {x x' : Submit} {c : ConnId}

/-- Every run keeps the invariant. -/
theorem networkWellFormed_exec (hw : NetworkWellFormed H w)
    (h : exec (Network.step H) w es = some w') : NetworkWellFormed H w' :=
  exec_invariant (fun _ _ _ hs hw => hw.step (networkTransition_of_step hs)) h hw

/-! ## A single Submit -/

/-- The steps of a Submit that has arrived. -/
inductive SubmitSteps (w : Network) (s : SubmitId) (x : Submit) :
    NetworkEvent → SubmitPhase → Prop
  | move {e : NetworkEvent} {p : SubmitPhase} (h : SubmitMoves w s x e p) : SubmitSteps w s x e p
  | pend {worker : WorkerId} (hphase : x.phase = .selected worker) :
      SubmitSteps w s x (.pend s)
        (.stamping { workerId := worker, requestId := x.request.requestId } .epoch)
  | attempt {env : ProtoEnvelope} (hphase : x.phase = .stamping env .attemptId) :
      SubmitSteps w s x (.stamp s)
        (.stamped { env with attemptId := TypedId.fromU64 (w.coordinator.dispatched + 1) })
  | sent {env : ProtoEnvelope} {c : ConnId} (hphase : x.phase = .sending env c) :
      SubmitSteps w s x (.send s true) .waiting
  | giveUp {code : ErrorCode} {message : Bytes} (hphase : x.phase = .failed code message) :
      SubmitSteps w s x (.giveUp s) (.replied (.reject code message))

/-- A Submit is as it was, or it has made its own step, or it has just arrived. -/
theorem submit_cases (h : NetworkTransition H w e w') (hx' : w'.submits s = some x') :
    w.submits s = some x' ∨
    (∃ x p, w.submits s = some x ∧ x' = { x with phase := p } ∧ SubmitSteps w s x e p) ∨
    (s = w.nextSubmit ∧ x'.phase = .bound ∧
      ∃ r n now, e = .submit r n now ∧ x'.request = r) := by
  have hmove : ∀ {t : SubmitId} {y : Submit} {p : SubmitPhase}, w.submits t = some y →
      SubmitSteps w t y e p → (w.setPhase t y p).submits s = some x' →
      w.submits s = some x' ∨
      (∃ x p, w.submits s = some x ∧ x' = { x with phase := p } ∧ SubmitSteps w s x e p) ∨
      (s = w.nextSubmit ∧ x'.phase = .bound ∧
        ∃ r n now, e = .submit r n now ∧ x'.request = r) := by
    intro t y p hy hsteps hs
    rcases setPhase_cases hs with ⟨rfl, rfl⟩ | ⟨-, hs⟩
    · exact .inr (.inl ⟨y, p, hy, rfl, hsteps⟩)
    · exact .inl hs
  cases h with
  | @submit r n now =>
      by_cases hs : s = w.nextSubmit
      · subst hs
        simp only [Network.submit, Function.update_self, Option.some.injEq] at hx'
        subst hx'
        exact .inr (.inr ⟨rfl, rfl, r, n, now, rfl, rfl⟩)
      · exact .inl ((Function.update_of_ne hs _ _).symm.trans hx')
  | move hx h => exact hmove hx (.move h) hx'
  | pend hx hphase => exact hmove hx (.pend hphase) hx'
  | attempt hx hphase => exact hmove hx (.attempt hphase) hx'
  | sent hx hphase => exact hmove hx (.sent hphase) hx'
  | giveUp hx hphase => exact hmove hx (.giveUp hphase) hx'
  | _ => exact .inl hx'

/-- A Submit stays, with everything but its phase. -/
theorem submit_kept (hw : NetworkWellFormed H w) (h : NetworkTransition H w e w')
    (hx : w.submits s = some x) : ∃ p, w'.submits s = some { x with phase := p } := by
  have hmove : ∀ {t : SubmitId} {y : Submit} {p : SubmitPhase}, w.submits t = some y →
      ∃ q, (w.setPhase t y p).submits s = some { x with phase := q } := by
    intro t y p hy
    by_cases hst : s = t
    · subst hst
      rw [hx, Option.some_inj] at hy
      subst hy
      exact ⟨p, Function.update_self ..⟩
    · exact ⟨x.phase, (Function.update_of_ne hst _ _).trans hx⟩
  cases h with
  | submit =>
      have hne : s ≠ w.nextSubmit := by
        rintro rfl
        rw [hw.freshSubmit _ le_rfl] at hx
        cases hx
      exact ⟨x.phase, (Function.update_of_ne hne _ _).trans hx⟩
  | move hy h => exact hmove hy
  | pend hy hphase => exact hmove hy
  | attempt hy hphase => exact hmove hy
  | sent hy hphase => exact hmove hy
  | giveUp hy hphase => exact hmove hy
  | _ => exact ⟨x.phase, hx⟩

/-! ## A single worker connection -/

/-- The steps of the handler of a connection. -/
inductive ConnSteps (w : Network) (c : ConnId) (u : WorkerConn) : NetworkEvent → ConnPhase → Prop
  | handle {e : NetworkEvent} {p : ConnPhase} (h : ConnMoves w c u e p) : ConnSteps w c u e p
  | resolve {f : Completion} (hphase : u.phase = .accepted f) :
      ConnSteps w c u (.resolve c) (.keyed f (pubKeyOf w.coordinator f.env))
  | idle {e : NetworkEvent} : ConnSteps w c u e .idle
  | ended {e : NetworkEvent} : ConnSteps w c u e .ended

/-- A connection is as it was, or its handler has made a step, or it has just registered. -/
theorem conn_cases {u' : WorkerConn} (h : NetworkTransition H w e w')
    (hu' : w'.conns c = some u') :
    w.conns c = some u' ∨
    (∃ u p, w.conns c = some u ∧ u' = { u with phase := p } ∧ ConnSteps w c u e p) ∨
    u'.phase = .idle := by
  have hmove : ∀ {d : ConnId} {v : WorkerConn} {p : ConnPhase}, w.conns d = some v →
      ConnSteps w d v e p → (w.setConn d v p).conns c = some u' →
      w.conns c = some u' ∨
      (∃ u p, w.conns c = some u ∧ u' = { u with phase := p } ∧ ConnSteps w c u e p) ∨
      u'.phase = .idle := by
    intro d v p hv hsteps hc
    rcases setConn_cases hc with ⟨rfl, rfl⟩ | ⟨-, hc⟩
    · exact .inr (.inl ⟨v, p, hv, rfl, hsteps⟩)
    · exact .inl hc
  cases h with
  | register =>
      by_cases hc : c = w.nextConn
      · subst hc
        simp only [Network.register, Function.update_self, Option.some.injEq] at hu'
        subst hu'
        exact .inr (.inr rfl)
      · exact .inl ((Function.update_of_ne hc _ _).symm.trans hu')
  | handle hx h => exact hmove hx (.handle h) hu'
  | dismiss hx h => exact hmove hx .idle hu'
  | resolve hx hphase => exact hmove hx (.resolve hphase) hu'
  | publish hx hphase h => exact hmove hx .idle hu'
  | lost hx hphase => exact hmove hx .ended hu'
  | shutdown hx hphase => exact hmove hx .ended hu'
  | _ => exact .inl hu'

/-- A frame that is being handled has been handled before, or was just received. -/
theorem frame_cases {u' : WorkerConn} {f : Completion} (h : NetworkTransition H w e w')
    (hu' : w'.conns c = some u') (hf : u'.phase.frame = some f) :
    (∃ u, w.conns c = some u ∧ u.phase.frame = some f) ∨ e = .receive c f := by
  rcases conn_cases h hu' with hu | ⟨u, p, hu, rfl, hsteps⟩ | hidle
  · exact .inl ⟨u', hu, hf⟩
  · cases hsteps with
    | handle hmove =>
        cases hmove with
        | receive hphase hanswers =>
            obtain rfl := Option.some.inj hf
            exact .inr rfl
        | checked hphase => exact .inl ⟨u, hu, by rw [hphase]; exact hf⟩
        | accepted hphase => exact .inl ⟨u, hu, by rw [hphase]; exact hf⟩
    | resolve hphase => exact .inl ⟨u, hu, by rw [hphase]; exact hf⟩
    | idle => cases hf
    | ended => cases hf
  · rw [hidle] at hf
    cases hf

/-- A frame that has passed every check had passed them before, or has just done so. -/
theorem authorized_cases {u' : WorkerConn} {f : Completion} (h : NetworkTransition H w e w')
    (hu' : w'.conns c = some u') (hf : u'.phase.authorized = some f) :
    ∃ u, w.conns c = some u ∧ (u.phase.authorized = some f ∨
      e = .authorize c ∧ u.phase = .checking f .registry ∧
        w.coordinator.authorizes f.env = true) := by
  rcases conn_cases h hu' with hu | ⟨u, p, hu, rfl, hsteps⟩ | hidle
  · exact ⟨u', hu, .inl hf⟩
  · refine ⟨u, hu, ?_⟩
    cases hsteps with
    | handle hmove =>
        cases hmove with
        | receive hphase => cases hf
        | checked hphase => cases hf
        | accepted hphase hauth =>
            obtain rfl := Option.some.inj hf
            exact .inr ⟨rfl, hphase, hauth⟩
    | resolve hphase => exact .inl (by rw [hphase]; exact hf)
    | idle => cases hf
    | ended => cases hf
  · rw [hidle] at hf
    cases hf

/-- A frame has had its key, or has just been given the key that its request id is bound to. -/
theorem keyed_cases {u' : WorkerConn} {f : Completion} {k : Bytes}
    (h : NetworkTransition H w e w') (hu' : w'.conns c = some u')
    (hphase' : u'.phase = .keyed f k) :
    w.conns c = some u' ∨
      ∃ u, w.conns c = some u ∧ u.phase = .accepted f ∧ k = pubKeyOf w.coordinator f.env := by
  rcases conn_cases h hu' with hu | ⟨u, p, hu, rfl, hsteps⟩ | hidle
  · exact .inl hu
  · cases hsteps with
    | handle hmove => cases hmove <;> cases hphase'
    | resolve hphase =>
        cases hphase'
        exact .inr ⟨u, hu, hphase, rfl⟩
    | idle => cases hphase'
    | ended => cases hphase'
  · rw [hidle] at hphase'
    cases hphase'

/-! ## The maps -/

/-- A promise is an old one, or has just been kept by a publication. -/
theorem promise_cases (h : NetworkTransition H w e w') {res : CompilationResult}
    (hres : w'.promises s = some res) :
    w.promises s = some res ∨
      ∃ c u f pubKey, e = .publish c ∧ w.conns c = some u ∧ u.phase = .keyed f pubKey ∧
        w.coordinator.pending[f.env.requestId.toHex]? = some s ∧
        res = resultFromJson f.result := by
  cases h with
  | @publish c u f pubKey pending duplicates promises hu hphase h =>
      cases h with
      | @pending t ht =>
          by_cases hst : s = t
          · subst hst
            simp only [publishedAs, Function.update_self, Option.some.injEq] at hres
            exact .inr ⟨c, u, f, pubKey, rfl, hu, hphase, ht, hres.symm⟩
          · exact .inl ((Function.update_of_ne hst _ _).symm.trans hres)
      | duplicate hnone => exact .inl hres
  | _ => exact .inl hres

/-- No step changes the host or the store's root. -/
theorem host_kept (h : NetworkTransition H w e w') : w'.host = w.host ∧ w'.root = w.root := by
  cases h <;> exact ⟨rfl, rfl⟩

/-- A request id is bound by a Submit, and by nothing else. -/
theorem reqToKey_cases (h : NetworkTransition H w e w') :
    w'.coordinator.reqToKey = w.coordinator.reqToKey ∨
      ∃ r n now, e = .submit r n now ∧ w' = w.submit H r n now := by
  cases h with
  | @submit r n now => exact .inr ⟨r, n, now, rfl, rfl⟩
  | _ => exact .inl rfl

/-- Results are published by the last step of a handler, and removed by an invalidation. -/
theorem published_cases (h : NetworkTransition H w e w') :
    (w'.coordinator.published = w.coordinator.published ∧ w'.publications = w.publications ∧
      w'.publicationCount = w.publicationCount) ∨
    (∃ r, e = .invalidate r ∧ w' = w.invalidate r) ∨
    ∃ c u f pubKey pending duplicates promises, e = .publish c ∧ w.conns c = some u ∧
      u.phase = .keyed f pubKey ∧ Resolves w f pending duplicates promises ∧
      w' = publishedAs w c u f pubKey pending duplicates promises := by
  cases h with
  | @invalidate r => exact .inr (.inl ⟨r, rfl, rfl⟩)
  | publish hx hphase h => exact .inr (.inr ⟨_, _, _, _, _, _, _, rfl, hx, hphase, h, rfl⟩)
  | _ => exact .inl ⟨rfl, rfl, rfl⟩

/-- A pending entry is an old one, or that of a Submit which has just made its promise. -/
theorem pending_cases (h : NetworkTransition H w e w') {r : Bytes}
    (hs : w'.coordinator.pending[r]? = some s) :
    w.coordinator.pending[r]? = some s ∨
      (e = .pend s ∧ ∃ x, w.submits s = some x ∧ Submit.idHex x = r) := by
  have herase : ∀ {k : Bytes}, (w.coordinator.pending.erase k)[r]? = some s →
      w.coordinator.pending[r]? = some s := by
    intro k hk
    rw [Std.ExtTreeMap.getElem?_erase] at hk
    split at hk
    · cases hk
    · exact hk
  cases h with
  | @pend t x worker hx hphase =>
      simp only [pended, Std.ExtTreeMap.getElem?_insert] at hs
      split at hs
      · next heq =>
        obtain rfl := Option.some.inj hs
        exact .inr ⟨rfl, x, hx, by simpa [Submit.idHex] using heq⟩
      · exact .inl hs
  | giveUp hx hphase => exact .inl (herase hs)
  | publish hx hphase h =>
      cases h with
      | pending ht => exact .inl (herase hs)
      | duplicate hnone => exact .inl hs
  | _ => exact .inl hs

/-! ## Dispatches -/

/-- A dispatch stays as it was sent. -/
theorem dispatch_kept (hw : NetworkWellFormed H w) (h : NetworkTransition H w e w')
    {D : Dispatch} (hD : w.dispatches s = some D) : w'.dispatches s = some D := by
  cases h with
  | @sent t x env c hx hphase =>
      have hst : s ≠ t := by
        rintro rfl
        rw [hw.dispatches_eq_none hx (by rw [hphase]; rfl)] at hD
        cases hD
      exact (Function.update_of_ne hst _ _).trans hD
  | _ => exact hD

/-- A dispatch is an old one, or has just been sent. -/
theorem dispatch_cases (h : NetworkTransition H w e w') {D : Dispatch}
    (hD : w'.dispatches s = some D) :
    w.dispatches s = some D ∨
      (e = .send s true ∧ ∃ x, w.submits s = some x ∧ x.phase = .sending D.env D.channel ∧
        D.key = x.key) := by
  cases h with
  | @sent t x env c hx hphase =>
      by_cases hst : s = t
      · subst hst
        simp only [dispatched, Function.update_self, Option.some.injEq] at hD
        subst hD
        exact .inr ⟨rfl, x, hx, hphase, rfl⟩
      · exact .inl ((Function.update_of_ne hst _ _).symm.trans hD)
  | _ => exact .inl hD

/-- What is processed stays so. -/
theorem processed_mono (h : NetworkTransition H w e w') (hs : w'.processed s = false) :
    w.processed s = false := by
  have hfinish : ∀ {f : Completion}, (w.processed s || f.answers = some s) = false →
      w.processed s = false := fun h => (Bool.or_eq_false_iff.mp h).1
  cases h with
  | dismiss hx h => exact hfinish hs
  | publish hx hphase h => exact hfinish hs
  | _ => exact hs

/-- A dispatch is outstanding since it was sent. -/
theorem outstanding_cases (h : NetworkTransition H w e w') (hs : Outstanding w' s) :
    Outstanding w s ∨ ∃ x env c, w.submits s = some x ∧ x.phase = .sending env c := by
  obtain ⟨hsome, hproc⟩ := hs
  obtain ⟨D, hD⟩ := Option.ne_none_iff_exists'.mp hsome
  rcases dispatch_cases h hD with hD | ⟨-, x, hx, hphase, -⟩
  · exact .inl ⟨by simp [hD], processed_mono h hproc⟩
  · exact .inr ⟨x, _, _, hx, hphase⟩

/-! ## Pieces of runs -/

/-- A worker registers, with its boot id. -/
def workerUp (id : WorkerId) (boot : WorkerBootId) : NetworkEvent :=
  .register { workerId := id, bootId := boot } (.object [(ascii "boot_id", .str boot.toHex)])

/-- A digest that tells some keys apart: the sum of the bytes. -/
def byteSum (b : Bytes) : Digest := ⟨List.replicate 31 0 ++ [b.foldl (· + ·) 0], rfl⟩

/-- A Submit from its missed lookup to its dispatch. -/
def dispatchSteps (s : SubmitId) : List NetworkEvent :=
  [.lookup s, .select s, .pend s, .stamp s, .stamp s, .stamp s, .stamp s, .findChannel s,
    .send s true]

/-- What the handler of a connection does with a frame that passes every check. -/
def completionSteps (c : ConnId) (f : Completion) : List NetworkEvent :=
  [.receive c f, .check c, .check c, .check c, .authorize c, .resolve c, .publish c]

/-- The answer of a worker to the dispatch of a Submit, under the first authority. -/
def answerTo (s : SubmitId) (id : WorkerId) (boot : WorkerBootId) (r : CompilationRequestId)
    (attempt : UInt64) (artifact : ArtifactId) (result : Json) : Completion :=
  { env :=
      { epoch := 1, workerId := id, bootId := boot, cacheGen := 1, toolchainGen := 1
        requestId := r, attemptId := TypedId.fromU64 attempt, artifactId := artifact
        artifactGen := 1 }
    result
    answers := some s }

def firstRequest : CompilationRequest := {}

/-- Worker 7 is dispatched the first request. -/
def firstDispatch : List NetworkEvent := [workerUp 7 {}, .submit firstRequest 0 0] ++ dispatchSteps 0

/-- Its answer. -/
def firstAnswer : Completion := answerTo 0 7 {} {} 1 {} (.object [])

end CompilationFabric.Interface
