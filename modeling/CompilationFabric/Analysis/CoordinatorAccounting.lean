import CompilationFabric.Interface.CoordinatorRuns
import CompilationFabric.Library.Census
import CompilationFabric.Library.Monitor

/-!
# The coordinator's counters account for its frames

Every CompileResult frame that a worker sends is checked, and then counted once: in `completed_`,
in `rejected_stale_`, or nowhere when it reports a failure.  A frame that completes is published,
and a publication keeps a promise or is counted in `duplicate_suppressed_`.  None of this is one
critical section, so the laws have the frames under way in them (`Balanced`).

The ledger is kept beside the coordinator, and no operation reads it.
-/

set_option autoImplicit false

namespace CompilationFabric.Analysis

open CompilationFabric.Library.TransitionSystem
open CompilationFabric.Library.Census
open CompilationFabric.Model
open CompilationFabric.Interface

variable {H : Bytes → Digest} {w w' : Network} {e : NetworkEvent} {s : SubmitId} {c : ConnId}
  {u : WorkerConn} {f : Completion}

/-! ## The ledger -/

/-- The frames that came, and those that reported a failure under current authority. -/
structure Ledger where
  received : ℕ := 0
  failures : ℕ := 0

/-- The frame of a connection reports a failure, and nothing else is wrong with it. -/
def reportsFailure (m : DistributedCoordinator) (u : WorkerConn) : Bool :=
  match u.phase with
  | .checking f .registry => m.authorizes f.env && !f.success
  | _ => false

/-- What an event adds to the ledger. -/
def record (l : Ledger) (w : Network) : NetworkEvent → Ledger
  | .receive _ _ => { l with received := l.received + 1 }
  | .authorize c =>
      if (w.conns c).any (reportsFailure w.coordinator) then
        { l with failures := l.failures + 1 }
      else l
  | _ => l

/-- A coordinator with its ledger. -/
def ledgerStep (H : Bytes → Digest) : Network × Ledger → NetworkEvent → Option (Network × Ledger) :=
  monitored (Network.step H) id record

/-! ## The laws -/

/-- The frame of the connection is being checked, or is not counted yet. -/
def underCheck (u : WorkerConn) : ℕ :=
  match u.phase with
  | .checking _ _ | .accepted _ => 1
  | _ => 0

/-- The frame of the connection is counted and not published yet. -/
def unpublished (u : WorkerConn) : ℕ :=
  match u.phase with
  | .keyed _ _ => 1
  | _ => 0

/-- The promises that have been kept. -/
def keptPromises (w : Network) : ℕ := total (fun _ => 1) w.promises w.nextSubmit

structure Balanced (w : Network) (l : Ledger) : Prop where
  frames : UInt64.ofNat l.received =
    w.coordinator.completed + w.coordinator.rejectedStale + UInt64.ofNat l.failures +
      UInt64.ofNat (total underCheck w.conns w.nextConn)
  completions : w.coordinator.completed =
    UInt64.ofNat w.publicationCount + UInt64.ofNat (total unpublished w.conns w.nextConn)
  publications : UInt64.ofNat w.publicationCount =
    w.coordinator.duplicateSuppressed + UInt64.ofNat (keptPromises w)

/-- A fresh coordinator and an empty ledger balance. -/
theorem balanced_init (host : Host) (root : Bytes) (epoch cacheGen toolchainGen : UInt64) :
    Balanced (.init host root epoch cacheGen toolchainGen) {} where
  frames := rfl
  completions := rfl
  publications := rfl

/-! ## One step -/

/-- Nothing that is counted changes. -/
theorem Balanced.congr {l : Ledger} (hb : Balanced w l)
    (hcompleted : w'.coordinator.completed = w.coordinator.completed)
    (hstale : w'.coordinator.rejectedStale = w.coordinator.rejectedStale)
    (hduplicates : w'.coordinator.duplicateSuppressed = w.coordinator.duplicateSuppressed)
    (hconns : w'.conns = w.conns) (hnext : w'.nextConn = w.nextConn)
    (hcount : w'.publicationCount = w.publicationCount) (hkept : keptPromises w' = keptPromises w) :
    Balanced w' l where
  frames := by rw [hcompleted, hstale, hconns, hnext, hb.frames]
  completions := by rw [hcompleted, hconns, hnext, hcount, hb.completions]
  publications := by rw [hduplicates, hcount, hkept, hb.publications]

/-- INTERNAL: moving a connection leaves the coordinator alone. -/
@[simp] theorem setConn_coordinator (w : Network) (c : ConnId) (u : WorkerConn) (p : ConnPhase) :
    (w.setConn c u p).coordinator = w.coordinator := rfl

/-- A connection moves, and with it what it holds. -/
theorem total_setConn (hw : NetworkWellFormed H w) (hu : w.conns c = some u) (g : WorkerConn → ℕ)
    (p : ConnPhase) :
    UInt64.ofNat (total g (w.setConn c u p).conns w.nextConn) + UInt64.ofNat (g u) =
      UInt64.ofNat (total g w.conns w.nextConn) + UInt64.ofNat (g { u with phase := p }) := by
  have hlt : c < w.nextConn := by
    by_contra hge
    rw [hw.freshConn c (not_lt.mp hge)] at hu
    cases hu
  rw [← UInt64.ofNat_add, ← UInt64.ofNat_add]
  exact congrArg UInt64.ofNat (total_update hlt hu)

/-- The handler of a connection moves, without a publication. -/
theorem Balanced.move {l l' : Ledger} (hb : Balanced w l) (hw : NetworkWellFormed H w)
    (hu : w.conns c = some u) (p : ConnPhase) (hconns : w'.conns = (w.setConn c u p).conns)
    (hnext : w'.nextConn = w.nextConn) (hcount : w'.publicationCount = w.publicationCount)
    (hkept : keptPromises w' = keptPromises w)
    (hduplicates : w'.coordinator.duplicateSuppressed = w.coordinator.duplicateSuppressed)
    (hframes : UInt64.ofNat l'.received + UInt64.ofNat (underCheck u) +
        w.coordinator.completed + w.coordinator.rejectedStale + UInt64.ofNat l.failures =
      UInt64.ofNat l.received + UInt64.ofNat (underCheck { u with phase := p }) +
        w'.coordinator.completed + w'.coordinator.rejectedStale + UInt64.ofNat l'.failures)
    (hcompletions : w'.coordinator.completed + UInt64.ofNat (unpublished u) =
      w.coordinator.completed + UInt64.ofNat (unpublished { u with phase := p })) :
    Balanced w' l' := by
  have hcheck := total_setConn hw hu underCheck p
  have hunpublished := total_setConn hw hu unpublished p
  have hreceived := hb.frames
  have hcompleted := hb.completions
  refine ⟨?_, ?_, ?_⟩
  · rw [hconns, hnext]
    grind
  · rw [hconns, hnext, hcount]
    grind
  · rw [hcount, hduplicates, hkept]
    exact hb.publications

/-- A frame that is counted is published, with a promise that is kept or without. -/
theorem Balanced.publish {l : Ledger} (hb : Balanced w l) (hw : NetworkWellFormed H w)
    (hu : w.conns c = some u) {pubKey : Bytes} (hphase : u.phase = .keyed f pubKey)
    {pending : Std.ExtTreeMap Bytes SubmitId compare} {duplicates : UInt64}
    {promises : SubmitId → Option CompilationResult} (h : Resolves w f pending duplicates promises) :
    Balanced (publishedAs w c u f pubKey pending duplicates promises) l := by
  have hcheck := total_setConn hw hu underCheck .idle
  have hunpublished := total_setConn hw hu unpublished .idle
  simp only [underCheck, unpublished, hphase] at hcheck hunpublished
  refine ⟨?_, ?_, ?_⟩
  · have hreceived := hb.frames
    change UInt64.ofNat l.received = w.coordinator.completed + w.coordinator.rejectedStale +
      UInt64.ofNat l.failures +
      UInt64.ofNat (total underCheck (w.setConn c u .idle).conns w.nextConn)
    grind
  · have hcompleted := hb.completions
    change w.coordinator.completed = UInt64.ofNat (w.publicationCount + 1) +
      UInt64.ofNat (total unpublished (w.setConn c u .idle).conns w.nextConn)
    rw [UInt64.ofNat_add]
    grind
  · have hpublications := hb.publications
    change UInt64.ofNat (w.publicationCount + 1) = duplicates +
      UInt64.ofNat (total (fun _ => 1) promises w.nextSubmit)
    rw [UInt64.ofNat_add, hpublications]
    unfold keptPromises
    cases h with
    | @pending t ht =>
        -- the promise that is pending has not been kept before
        obtain ⟨x, hx, -, -, hnone⟩ := hw.pending _ _ ht
        have hlt : t < w.nextSubmit := by
          by_contra hge
          rw [hw.freshSubmit t (not_lt.mp hge)] at hx
          cases hx
        have hset : _ + _ = total (fun _ => 1) w.promises w.nextSubmit + _ :=
          total_set hlt (some (resultFromJson f.result))
        rw [hnone, Option.elim_none, add_zero, Option.elim_some] at hset
        rw [hset, UInt64.ofNat_add, UInt64.add_assoc]
    | duplicate hnone => grind

/-- Every step keeps the coordinator and the ledger in balance. -/
theorem Balanced.step {l : Ledger} (hb : Balanced w l) (hw : NetworkWellFormed H w)
    (h : NetworkTransition H w e w') : Balanced w' (record l w e) := by
  cases h with
  | submit =>
      refine hb.congr rfl rfl rfl rfl rfl rfl (total_skip ?_)
      change w.promises w.nextSubmit = none
      cases hp : w.promises w.nextSubmit with
      | none => rfl
      | some res =>
          obtain ⟨x, hx, -⟩ := hw.promise _ res hp
          rw [hw.freshSubmit _ le_rfl] at hx
          cases hx
  | move hx h => cases h <;> exact hb.congr rfl rfl rfl rfl rfl rfl rfl
  | register =>
      have hnew : ∀ (g : WorkerConn → ℕ) (u : WorkerConn), g u = 0 →
          total g (Function.update w.conns w.nextConn (some u)) (w.nextConn + 1) =
            total g w.conns w.nextConn := by
        intro g u hg
        rw [total_enter, hg, add_zero]
      refine ⟨?_, ?_, hb.publications⟩
      · exact hb.frames.trans (congrArg _ (congrArg _ (hnew underCheck _ rfl).symm))
      · exact hb.completions.trans (congrArg _ (congrArg _ (hnew unpublished _ rfl).symm))
  | handle hx h =>
      cases h with
      | receive hphase hanswers =>
          refine hb.move hw hx _ rfl rfl rfl rfl rfl ?_ ?_
          · simp only [record, underCheck, hphase, setConn_coordinator, UInt64.ofNat_add]
            grind
          · simp [unpublished, hphase]
      | checked hphase hnext hmatch =>
          refine hb.move hw hx _ rfl rfl rfl rfl rfl ?_ ?_
          · simp [record, underCheck, hphase]
          · simp [unpublished, hphase]
      | accepted hphase hauth hsuccess =>
          refine hb.move hw hx _ rfl rfl rfl rfl rfl ?_ ?_
          · simp [record, underCheck, hphase, reportsFailure, hx, hsuccess]
          · simp [unpublished, hphase]
  | dismiss hx h =>
      cases h with
      | counter hphase hnext hmatch =>
          refine hb.move hw hx .idle rfl rfl rfl rfl rfl ?_ ?_
          · simp only [record, underCheck, hphase, dismiss, if_true]
            grind
          · simp [unpublished, hphase, dismiss]
      | unauthorized hphase hauth =>
          refine hb.move hw hx .idle rfl rfl rfl rfl rfl ?_ ?_
          · simp only [record, underCheck, hphase, reportsFailure, hx, hauth, dismiss,
              Option.any_some, Bool.false_and, Bool.false_eq_true, if_true, if_false]
            grind
          · simp [unpublished, hphase, dismiss]
      | failure hphase hauth hsuccess =>
          refine hb.move hw hx .idle rfl rfl rfl rfl rfl ?_ ?_
          · simp only [record, underCheck, hphase, reportsFailure, hx, hauth, hsuccess, dismiss,
              Option.any_some, Bool.not_false, Bool.and_self, Bool.false_eq_true, if_true,
              if_false, UInt64.ofNat_add]
            grind
          · simp [unpublished, hphase, dismiss]
  | resolve hx hphase =>
      refine hb.move hw hx _ rfl rfl rfl rfl rfl ?_ ?_
      · simp only [record, underCheck, hphase, resolved]
        grind
      · simp [unpublished, hphase, resolved]
  | publish hx hphase h => exact hb.publish hw hx hphase h
  | lost hx hphase =>
      refine hb.move hw hx .ended rfl rfl rfl rfl rfl ?_ ?_
      · simp [record, underCheck, hphase, disconnected]
      · simp [unpublished, hphase, disconnected]
  | shutdown hx hphase =>
      refine hb.move hw hx .ended rfl rfl rfl rfl rfl ?_ ?_
      · simp [record, underCheck, hphase]
      · simp [unpublished, hphase]
  | _ => exact hb.congr rfl rfl rfl rfl rfl rfl rfl

/-! ## Attempt numbers -/

/-- The envelope of a Submit that has drawn its number and has no dispatch yet. -/
def drawnEnvelope : SubmitPhase → Option ProtoEnvelope
  | .stamped env => some env
  | .sending env _ => some env
  | _ => none

/-- The Submit has the attempt: in its dispatch, or in the envelope of the dispatch to be. -/
def HasAttempt (w : Network) (s : SubmitId) (a : CompilationAttemptId) : Prop :=
  (∃ D, w.dispatches s = some D ∧ D.env.attemptId = a) ∨
    ∃ x env, w.submits s = some x ∧ drawnEnvelope x.phase = some env ∧ env.attemptId = a

/-- The attempts so far have the numbers from one to `k`, each of them once. -/
structure NumberedUpTo (k : ℕ) (w : Network) : Prop where
  counter : w.coordinator.dispatched = UInt64.ofNat k
  bounded : ∀ s a, HasAttempt w s a → ∃ n, n ≤ k ∧ a = TypedId.fromU64 (UInt64.ofNat n)
  once : ∀ s t a, HasAttempt w s a → HasAttempt w t a → s = t

/-- An attempt is an old one, or its number has just been drawn. -/
theorem hasAttempt_cases (h : NetworkTransition H w e w') {a : CompilationAttemptId}
    (ha : HasAttempt w' s a) :
    HasAttempt w s a ∨ ∃ x env, w.submits s = some x ∧ x.phase = .stamping env .attemptId ∧
      e = .stamp s ∧ a = TypedId.fromU64 (w.coordinator.dispatched + 1) := by
  rcases ha with ⟨D, hD, rfl⟩ | ⟨x', env, hx', henv, rfl⟩
  · rcases dispatch_cases h hD with hold | ⟨-, x, hx, hphase, -⟩
    · exact .inl (.inl ⟨D, hold, rfl⟩)
    · exact .inl (.inr ⟨x, D.env, hx, by rw [hphase]; rfl, rfl⟩)
  · rcases submit_cases h hx' with hold | ⟨x, p, hx, rfl, hsteps⟩ | ⟨-, hbound, -⟩
    · exact .inl (.inr ⟨x', env, hold, henv, rfl⟩)
    · cases hsteps with
      | move hmove =>
          cases hmove with
          | channel hphase hchannel =>
              cases henv
              exact .inl (.inr ⟨x, _, hx, by rw [hphase]; rfl, rfl⟩)
          | _ => cases henv
      | attempt hphase =>
          cases henv
          exact .inr ⟨x, _, hx, hphase, rfl, rfl⟩
      | _ => cases henv
    · rw [hbound] at henv
      cases henv

/-- INTERNAL: only a stamp counts a dispatch. -/
theorem dispatched_cases (h : NetworkTransition H w e w') :
    w'.coordinator.dispatched = w.coordinator.dispatched ∨
      (∃ s, e = .stamp s) ∧ w'.coordinator.dispatched = w.coordinator.dispatched + 1 := by
  cases h with
  | attempt hx hphase => exact .inr ⟨⟨_, rfl⟩, rfl⟩
  | _ => exact .inl rfl

/-- The last stamp draws a number. -/
theorem dispatched_of_stamp (h : NetworkTransition H w (.stamp s) w') {x : Submit}
    {env : ProtoEnvelope} (hx : w.submits s = some x) (hphase : x.phase = .stamping env .attemptId) :
    w'.coordinator.dispatched = w.coordinator.dispatched + 1 := by
  cases h with
  | move hx' h =>
      cases h with
      | counter hphase' hnext =>
          rw [hx, Option.some_inj] at hx'
          rw [← hx', hphase] at hphase'
          cases hphase'
          exact absurd rfl hnext
  | attempt => rfl
  | handle hx h => cases h
  | dismiss hx h => cases h

/-- INTERNAL: different numbers are different attempts. -/
theorem fromU64_injective {m n : UInt64}
    (h : (TypedId.fromU64 m : CompilationAttemptId) = TypedId.fromU64 n) : m = n := by
  simpa [TypedId.fromU64, Id128.fromU64] using h

/-- The events that can draw an attempt number. -/
def isStamp : NetworkEvent → Bool
  | .stamp _ => true
  | _ => false

/-- INTERNAL: a step gives one number more at most. -/
theorem NumberedUpTo.step {k : ℕ} (hn : NumberedUpTo k w) (h : NetworkTransition H w e w')
    (hk : k + (isStamp e).toNat < 2 ^ 64) :
    ∃ k' ≤ k + (isStamp e).toNat, NumberedUpTo k' w' := by
  rcases dispatched_cases h with hsame | ⟨⟨r, rfl⟩, hnext⟩
  · have hold : ∀ s a, HasAttempt w' s a → HasAttempt w s a := by
      intro s a ha
      rcases hasAttempt_cases h ha with hold | ⟨x, env, hx, hphase, rfl, -⟩
      · exact hold
      · rw [dispatched_of_stamp h hx hphase] at hsame
        exact absurd hsame (by grind)
    exact ⟨k, Nat.le_add_right k _, hsame.trans hn.counter, fun s a ha => hn.bounded s a (hold s a ha),
      fun s t a hs ht => hn.once s t a (hold s a hs) (hold t a ht)⟩
  · change k + 1 < 2 ^ 64 at hk
    -- the next number is not one of those that are given out
    have hnew : ∀ s, ¬ HasAttempt w s (TypedId.fromU64 (w.coordinator.dispatched + 1)) := by
      intro s hs
      obtain ⟨n, hle, heq⟩ := hn.bounded s _ hs
      have hword := congrArg UInt64.toNat (fromU64_injective heq)
      rw [hn.counter, UInt64.toNat_add, UInt64.toNat_ofNat', UInt64.toNat_ofNat'] at hword
      rw [Nat.mod_eq_of_lt (show k < 2 ^ 64 by omega), Nat.mod_eq_of_lt (show n < 2 ^ 64 by omega),
        UInt64.toNat_one, Nat.mod_eq_of_lt hk] at hword
      omega
    have hcases : ∀ s a, HasAttempt w' s a → HasAttempt w s a ∨
        s = r ∧ a = TypedId.fromU64 (w.coordinator.dispatched + 1) := by
      intro s a ha
      rcases hasAttempt_cases h ha with hold | ⟨x, env, -, -, he, heq⟩
      · exact .inl hold
      · cases he
        exact .inr ⟨rfl, heq⟩
    refine ⟨k + 1, le_rfl, by rw [hnext, hn.counter, UInt64.ofNat_add]; rfl, ?_, ?_⟩
    · intro s a ha
      rcases hcases s a ha with hold | ⟨-, rfl⟩
      · obtain ⟨n, hle, heq⟩ := hn.bounded s a hold
        exact ⟨n, Nat.le_succ_of_le hle, heq⟩
      · exact ⟨k + 1, le_rfl, by rw [hn.counter, UInt64.ofNat_add]; rfl⟩
    · intro s t a hs ht
      rcases hcases s a hs with hold | ⟨rfl, heq⟩
      · rcases hcases t a ht with hold' | ⟨rfl, heq⟩
        · exact hn.once s t a hold hold'
        · exact absurd (heq ▸ hold) (hnew s)
      · rcases hcases t a ht with hold' | ⟨rfl, -⟩
        · exact absurd (heq ▸ hold') (hnew t)
        · rfl

/-! ## Every run -/

def isReceive : NetworkEvent → Bool
  | .receive _ _ => true
  | _ => false

/-- INTERNAL: the ledger counts the frames that are received. -/
theorem received_record (l : Ledger) (w : Network) (e : NetworkEvent) :
    (record l w e).received = l.received + (isReceive e).toNat := by
  cases e with
  | authorize c =>
      unfold record
      dsimp only
      split <;> rfl
  | _ => rfl

/-- In every run of a coordinator the counters account for the frames that its workers have sent.
SOURCE: Distributed.cpp:161-216 -/
theorem coordinator_accounts (H : Bytes → Digest) (host : Host) (root : Bytes)
    (epoch cacheGen toolchainGen : UInt64) (es : List NetworkEvent) (w : Network) (l : Ledger)
    (hexec : exec (ledgerStep H) (.init host root epoch cacheGen toolchainGen, {}) es =
      some (w, l)) :
    Balanced w l ∧ l.received = es.countP isReceive := by
  have hinv : NetworkWellFormed H w ∧ Balanced w l := by
    refine exec_invariant (I := fun s : Network × Ledger => NetworkWellFormed H s.1 ∧
      Balanced s.1 s.2) ?_ hexec ⟨networkWellFormed_init .., balanced_init ..⟩
    rintro ⟨u, k⟩ e ⟨u', k'⟩ hstep ⟨hw, hb⟩
    obtain ⟨hstep, hrecord⟩ := monitored_eq_some.mp hstep
    have htrans : NetworkTransition H u e u' := networkTransition_of_step hstep
    obtain rfl : record k u e = k' := hrecord
    exact ⟨hw.step htrans, hb.step hw htrans⟩
  refine ⟨hinv.2, ?_⟩
  refine exec_trace (P := fun _ _ => True)
    (I := fun es (s : Network × Ledger) => s.2.received = es.countP isReceive) rfl ?_
    (meets_of_forall fun _ _ _ => trivial) hexec
  intro es s e s' _ hreceived _ hstep
  obtain ⟨-, hrecord⟩ := monitored_eq_some.mp hstep
  rw [← hrecord, received_record, hreceived, List.countP_append]
  cases h : isReceive e <;> simp [h]

/-- A fresh coordinator has numbered nothing. -/
theorem numbered_init (host : Host) (root : Bytes) (epoch cacheGen toolchainGen : UInt64) :
    NumberedUpTo 0 (.init host root epoch cacheGen toolchainGen) := by
  have hnone : ∀ s a, ¬ HasAttempt (.init host root epoch cacheGen toolchainGen) s a := by
    rintro s a (⟨D, hD, -⟩ | ⟨x, env, hx, -⟩)
    · cases hD
    · cases hx
  exact ⟨rfl, fun s a ha => absurd ha (hnone s a), fun s _ a ha => absurd ha (hnone s a)⟩

/-- The dispatches of a coordinator have different attempt ids.
SOURCE: Distributed.cpp:282-288 -/
theorem attempts_distinct (H : Bytes → Digest) (host : Host) (root : Bytes)
    (epoch cacheGen toolchainGen : UInt64) (es : List NetworkEvent) (w : Network)
    (hexec : exec (Network.step H) (.init host root epoch cacheGen toolchainGen) es = some w)
    (hstamps : es.countP isStamp < 2 ^ 64) (s t : SubmitId) (D E : Dispatch)
    (hD : w.dispatches s = some D) (hE : w.dispatches t = some E) (hne : s ≠ t) :
    D.env.attemptId ≠ E.env.attemptId := by
  have hnumbered : es.countP isStamp < 2 ^ 64 →
      ∃ k ≤ es.countP isStamp, NumberedUpTo k w := by
    refine exec_trace (P := fun _ _ => True) (I := fun es (w : Network) =>
      es.countP isStamp < 2 ^ 64 → ∃ k ≤ es.countP isStamp, NumberedUpTo k w)
      (fun _ => ⟨0, le_rfl, numbered_init ..⟩) ?_ (meets_of_forall fun _ _ _ => trivial) hexec
    intro es u e u' _ hn _ hstep hlt
    have hcount : (es ++ [e]).countP isStamp = es.countP isStamp + (isStamp e).toNat := by
      rw [List.countP_append]
      cases h : isStamp e <;> simp [h]
    obtain ⟨k, hk, hn⟩ := hn (by omega)
    obtain ⟨k', hk', hn'⟩ := hn.step (networkTransition_of_step hstep) (by omega)
    exact ⟨k', by omega, hn'⟩
  obtain ⟨k, -, hn⟩ := hnumbered hstamps
  intro hattempt
  exact hne (hn.once s t _ (.inl ⟨D, hD, rfl⟩) (.inl ⟨E, hE, hattempt.symm⟩))

/-- Two Submit frames of one request are dispatched, and the first dispatch is answered. -/
def twoDispatches : List NetworkEvent :=
  firstDispatch ++ [.submit firstRequest 0 0] ++ dispatchSteps 1 ++ completionSteps 0 firstAnswer

/-- Two dispatches, and a ledger that balances. -/
theorem coordinator_accounts_two : ∃ w l,
    exec (ledgerStep byteSum) (.init {} [] 1 1 1, {}) twoDispatches = some (w, l) ∧
      Balanced w l := by
  obtain ⟨w, hrun⟩ := Option.isSome_iff_exists.mp (show (exec (Network.step byteSum)
    (.init {} [] 1 1 1) twoDispatches).isSome = true by decide +kernel)
  obtain ⟨l, hledger⟩ : ∃ l, exec (ledgerStep byteSum) (.init {} [] 1 1 1, {}) twoDispatches =
      some (w, l) := exists_monitored (by rwa [List.map_id])
  exact ⟨w, l, hledger, (coordinator_accounts _ {} [] 1 1 1 _ w l hledger).1⟩

/-- Two dispatches, and two attempts. -/
theorem attempts_distinct_two : ∃ w D E,
    exec (Network.step byteSum) (.init {} [] 1 1 1) twoDispatches = some w ∧
      w.dispatches 0 = some D ∧ w.dispatches 1 = some E ∧
      D.env.attemptId ≠ E.env.attemptId := by
  have hrun : (exec (Network.step byteSum) (.init {} [] 1 1 1) twoDispatches).any (fun w =>
      (w.dispatches 0).isSome && (w.dispatches 1).isSome) = true := by decide +kernel
  obtain ⟨w, hexec, hw⟩ := (Option.any_eq_true _ _).mp hrun
  rw [Bool.and_eq_true, Option.isSome_iff_exists, Option.isSome_iff_exists] at hw
  obtain ⟨⟨D, hD⟩, E, hE⟩ := hw
  exact ⟨w, D, E, hexec, hD, hE,
    attempts_distinct _ {} [] 1 1 1 twoDispatches w hexec (by decide) 0 1 D E hD hE zero_ne_one⟩

end CompilationFabric.Analysis
