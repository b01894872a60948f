import CompilationFabric.Interface.CoordinatorRuns

/-!
# Invalidation at the coordinator

Whether a Submit after an acknowledged Invalidate can still be answered with an older result.
Results are published under keys and an Invalidate erases under its request id, so it removes
nothing, and a compile that is under way publishes its result afterwards as if nothing had
happened.  What is left is `invalidation_takes_effect`: later Submits get newer results when
there was nothing to invalidate, published or on its way.
-/

set_option autoImplicit false

namespace CompilationFabric.Analysis

open CompilationFabric.Library.TransitionSystem
open CompilationFabric.Model
open CompilationFabric.Interface

variable {H : Bytes → Digest} {w w' w₀ : Network} {e : NetworkEvent} {s : SubmitId} {k : Bytes}
  {r : CompilationRequestId}

/-! ## The property and the condition -/

/-- What is published under the key was published after the state `w₀`, and compiled for a
dispatch that was sent after it. -/
def NewerThan (w₀ w : Network) (k : Bytes) : Prop :=
  ∃ p, w.publications k = some p ∧ w₀.publicationCount ≤ p.number ∧
    ∀ d, p.answers = some d → w₀.dispatches d = none

/-- A Submit that arrived after `w₀` and is about to be answered from `published_`, under the
key, gets a newer result. -/
def AnswersNewer (w₀ w : Network) (k : Bytes) : Prop :=
  ∀ s x j, w₀.nextSubmit ≤ s → w.submits s = some x → x.phase = .bound → x.keyHex = k →
    w.coordinator.published[x.keyHex]? = some j → NewerThan w₀ w k

/-- Nothing is published under the key, no outstanding dispatch has a request id that is bound
to it, and no handler is about to publish under it. -/
structure NothingUnder (w : Network) (k : Bytes) : Prop where
  published : w.coordinator.published[k]? = none
  dispatches : ∀ d D, w.dispatches d = some D → w.processed d = false →
    w.coordinator.reqToKey[D.env.requestId.toHex]? ≠ some k
  handlers : ∀ c u f, w.conns c = some u → u.phase ≠ .keyed f k

/-- No Submit binds a request id to the key while a dispatch of it from before `w₀` is
outstanding. -/
def BindsClear (H : Bytes → Digest) (w₀ : Network) (k : Bytes) (w : Network) (e : NetworkEvent) :
    Prop :=
  match e with
  | .submit r _ _ => ∀ d D, w₀.dispatches d = some D → w.processed d = false →
      D.env.requestId = r.requestId → keyHexOf H w.host w.root r ≠ k
  | _ => True

/-! ## After the invalidation -/

/-- What holds from the invalidation on: whatever comes from before it stays away from the
key. -/
structure Since (w₀ w : Network) (k : Bytes) : Prop where
  newer : ∀ j, w.coordinator.published[k]? = some j → NewerThan w₀ w k
  count : w₀.publicationCount ≤ w.publicationCount
  kept : ∀ d D, w₀.dispatches d = some D → w.dispatches d = some D
  unbound : ∀ d D, w₀.dispatches d = some D → w.processed d = false →
    w.coordinator.reqToKey[D.env.requestId.toHex]? ≠ some k
  keyed : ∀ c u f d, w.conns c = some u → u.phase = .keyed f k → f.answers = some d →
    w₀.dispatches d = none

/-- After an invalidation nothing older is under way. -/
theorem since_invalidate (hclear : NothingUnder w₀ k) : Since w₀ (w₀.invalidate r) k where
  newer := by
    intro j hj
    simp only [Network.invalidate, Std.ExtTreeMap.getElem?_erase] at hj
    split at hj
    · cases hj
    · rw [hclear.published] at hj
      cases hj
  count := le_rfl
  kept := fun _ _ hD => hD
  unbound := hclear.dispatches
  keyed := fun c u f _ hu hphase _ => absurd hphase (hclear.handlers c u f hu)

/-- The key of a frame that answers an old dispatch is another one. -/
theorem Since.pubKeyOf_ne (hs : Since w₀ w k) (hw : NetworkWellFormed H w) {c : ConnId}
    {u : WorkerConn} {f : Completion} {d : SubmitId} {D : Dispatch} (hu : w.conns c = some u)
    (hf : u.phase.frame = some f) (hd : f.answers = some d) (hD : w₀.dispatches d = some D) :
    pubKeyOf w.coordinator f.env ≠ k := by
  obtain ⟨hproc, D', hD', -, hid, -⟩ := answers_eq_true.mp (hw.answers c u f d hu hf hd)
  obtain rfl : D = D' := Option.some.inj ((hs.kept d D hD).symm.trans hD')
  obtain ⟨x, hx, -, -, -, hid'⟩ := hw.dispatch d D hD'
  obtain ⟨k', hk'⟩ := hw.bound d x hx
  have hne := hs.unbound d D hD hproc
  rw [Submit.idHex, ← hid', hid] at hk'
  rw [hid, hk'] at hne
  rw [pubKeyOf, hk', Option.getD_some]
  exact fun h => hne (congrArg some h)

/-- Every step keeps what is under way newer than the invalidation. -/
theorem Since.step (hs : Since w₀ w k) (hw : NetworkWellFormed H w)
    (hbinds : BindsClear H w₀ k w e) (h : NetworkTransition H w e w') : Since w₀ w' k where
  newer := by
    intro j hj
    rcases published_cases h with ⟨hpub, hpubs, -⟩ | ⟨r, -, rfl⟩ | ⟨c, u, f, pubKey, pending,
      duplicates, promises, -, hu, hphase, -, rfl⟩
    · rw [hpub] at hj
      obtain ⟨p, hp, hrest⟩ := hs.newer j hj
      exact ⟨p, by rw [hpubs, hp], hrest⟩
    · simp only [Network.invalidate, Std.ExtTreeMap.getElem?_erase] at hj
      split at hj
      · cases hj
      · next hne =>
        obtain ⟨p, hp, hrest⟩ := hs.newer j hj
        have hk : k ≠ r.toHex := fun h => hne (by simp [h])
        exact ⟨p, (Function.update_of_ne hk _ _).trans hp, hrest⟩
    · by_cases hk : k = pubKey
      · subst hk
        exact ⟨⟨w.publicationCount, f.answers⟩, Function.update_self .., hs.count,
          fun d hd => hs.keyed c u f d hu hphase hd⟩
      · simp only [publishedAs, Std.ExtTreeMap.getElem?_insert] at hj
        rw [if_neg (by simpa using Ne.symm hk)] at hj
        obtain ⟨p, hp, hrest⟩ := hs.newer j hj
        exact ⟨p, (Function.update_of_ne hk _ _).trans hp, hrest⟩
  count := by
    rcases published_cases h with ⟨-, -, hcount⟩ | ⟨r, -, rfl⟩ | ⟨c, u, f, pubKey, pending,
      duplicates, promises, -, -, -, -, rfl⟩
    · rw [hcount]
      exact hs.count
    · exact hs.count
    · exact hs.count.trans (Nat.le_succ _)
  kept := fun d D hD => dispatch_kept hw h (hs.kept d D hD)
  unbound := by
    intro d D hD hproc
    have hproc₀ := processed_mono h hproc
    rcases reqToKey_cases h with hsame | ⟨r, n, now, rfl, rfl⟩
    · rw [hsame]
      exact hs.unbound d D hD hproc₀
    · simp only [Network.submit, Std.ExtTreeMap.getElem?_insert]
      split
      · next heq =>
        have hid : D.env.requestId = r.requestId :=
          (TypedId.toHex_injective (by simpa using heq)).symm
        have hne := hbinds d D hD hproc₀ hid
        rw [keyHexOf, ← submitKey_submitPlan w.host w.root n now r] at hne
        exact fun h => hne (Option.some.inj h)
      · exact hs.unbound d D hD hproc₀
  keyed := by
    intro c u' f d hu' hphase' hd
    rcases keyed_cases h hu' hphase' with hu | ⟨u, hu, hphase, hk⟩
    · exact hs.keyed c u' f d hu hphase' hd
    · by_contra hsome
      obtain ⟨D, hD⟩ := Option.ne_none_iff_exists'.mp hsome
      exact hs.pubKeyOf_ne hw hu (by rw [hphase]; rfl) hd hD hk.symm

/-! ## Runs -/

/-- After an Invalidate for a request id, a later Submit of the key that the id was bound to
is answered from `published_` only with a newer result, when there was nothing under the key
to invalidate and no later Submit binds an older dispatch to it.
SOURCE: Distributed.cpp:196-215, 241-267 -/
theorem invalidation_takes_effect (host : Host) (root : Bytes)
    (epoch cacheGen toolchainGen : UInt64) {pre mid : List NetworkEvent}
    (hpre : exec (Network.step H) (.init host root epoch cacheGen toolchainGen) pre = some w₀)
    (hclear : ∀ k, w₀.coordinator.reqToKey[r.toHex]? = some k → NothingUnder w₀ k ∧
      Meets (Network.step H) (BindsClear H w₀ k) (w₀.invalidate r) mid)
    (hmid : exec (Network.step H) w₀ (.invalidate r :: mid) = some w) :
    ∀ k, w₀.coordinator.reqToKey[r.toHex]? = some k → AnswersNewer w₀ w k := by
  intro k hk
  obtain ⟨hnothing, hbinds⟩ := hclear k hk
  obtain ⟨w₁, hinv, hmid⟩ := exec_cons.mp hmid
  obtain rfl : w₀.invalidate r = w₁ := Option.some.inj hinv
  have hw₀ := networkWellFormed_exec (networkWellFormed_init H ..) hpre
  have hw₁ := hw₀.step (networkTransition_of_step hinv)
  have hboth : NetworkWellFormed H w ∧ Since w₀ w k := by
    refine exec_induction (I := fun u => NetworkWellFormed H u ∧ Since w₀ u k) ?_ hbinds hmid
      ⟨hw₁, since_invalidate hnothing⟩
    rintro u e u' hb hu ⟨hw, hs⟩
    have htrans := networkTransition_of_step hu
    exact ⟨hw.step htrans, hs.step hw hb htrans⟩
  intro s x j _ _ _ hx hj
  rw [hx] at hj
  exact hboth.2.newer j hj

/-! ## Before and after the dispatch -/

/-- The request is invalidated before it is dispatched; then it is compiled, and submitted
again. -/
theorem invalidation_takes_effect_early :
    ∃ w₀ w, exec (Network.step byteSum) (.init {} [] 1 1 1)
        [workerUp 7 {}, .submit firstRequest 0 0] = some w₀ ∧
      exec (Network.step byteSum) w₀ (.invalidate {} ::
        (dispatchSteps 0 ++ completionSteps 0 firstAnswer ++ [.submit firstRequest 0 0])) =
          some w ∧
      ∀ k, w₀.coordinator.reqToKey[firstRequest.requestId.toHex]? = some k →
        AnswersNewer w₀ w k := by
  obtain ⟨w, hw⟩ := Option.isSome_iff_exists.mp (show
    (exec (Network.step byteSum) (.init {} [] 1 1 1) ([workerUp 7 {}, .submit firstRequest 0 0] ++
      (.invalidate {} :: (dispatchSteps 0 ++ completionSteps 0 firstAnswer ++
        [.submit firstRequest 0 0])))).isSome = true by decide +kernel)
  obtain ⟨w₀, hpre, hmid⟩ := exec_append.mp hw
  refine ⟨w₀, w, hpre, hmid, invalidation_takes_effect {} [] 1 1 1 hpre ?_ hmid⟩
  cases hpre
  intro k _
  refine ⟨⟨rfl, fun d D hD => ?_, fun c u f hu hphase => ?_⟩, meets_of_forall fun e _ u => ?_⟩
  · cases hD
  · by_cases hc : c = 0
    · subst hc
      cases hu
      cases hphase
    · cases (Function.update_of_ne hc _ _).symm.trans hu
  · cases e with
    | submit r n now =>
        intro d D hD
        cases hD
    | _ => trivial

/-- The key of the first request. -/
def firstKey : Bytes := keyHexOf byteSum {} [] firstRequest

/-- One result is published, and the request id is bound to its key. -/
def onePublished (w : Network) : Bool :=
  w.publicationCount = 1 && w.nextSubmit = 1 &&
    w.coordinator.reqToKey[firstRequest.requestId.toHex]? = some firstKey

/-- The second Submit is about to be answered with that result. -/
def hitsFirst (w : Network) : Bool :=
  match w.submits 1, w.publications firstKey with
  | some x, some p =>
      (match x.phase with
        | .bound => true
        | _ => false) && x.keyHex = firstKey && (w.coordinator.published[x.keyHex]?).isSome &&
        p.number = 0
  | _, _ => false

/-- A result is published, its request invalidated and submitted again: the answer is the old
result. -/
theorem not_answersNewer :
    ∃ w₀ w k, exec (Network.step byteSum) (.init {} [] 1 1 1)
        (firstDispatch ++ completionSteps 0 firstAnswer) = some w₀ ∧
      exec (Network.step byteSum) w₀ [.invalidate {}, .submit firstRequest 0 0] = some w ∧
      w₀.coordinator.reqToKey[firstRequest.requestId.toHex]? = some k ∧
      ¬ AnswersNewer w₀ w k := by
  obtain ⟨w, hw, hhit⟩ := (Option.any_eq_true _ _).mp (show
    (exec (Network.step byteSum) (.init {} [] 1 1 1) ((firstDispatch ++
      completionSteps 0 firstAnswer) ++ [.invalidate {}, .submit firstRequest 0 0])).any
        hitsFirst = true by decide +kernel)
  obtain ⟨w₀, hw₀, hone⟩ := (Option.any_eq_true _ _).mp (show
    (exec (Network.step byteSum) (.init {} [] 1 1 1)
      (firstDispatch ++ completionSteps 0 firstAnswer)).any onePublished = true by decide +kernel)
  obtain ⟨w₁, hpre, hmid⟩ := exec_append.mp hw
  obtain rfl : w₀ = w₁ := Option.some.inj (hw₀.symm.trans hpre)
  simp only [onePublished, Bool.and_eq_true, decide_eq_true_eq] at hone
  obtain ⟨⟨hcount, hnext⟩, hkey⟩ := hone
  refine ⟨w₀, w, firstKey, hpre, hmid, hkey, fun hnewer => ?_⟩
  unfold hitsFirst at hhit
  split at hhit
  · next x p hx hp =>
    simp only [Bool.and_eq_true, decide_eq_true_eq] at hhit
    obtain ⟨⟨⟨hphase, hxkey⟩, hpub⟩, hnumber⟩ := hhit
    obtain ⟨j, hj⟩ := Option.isSome_iff_exists.mp hpub
    have hbound : x.phase = .bound := by
      split at hphase
      · next h => exact h
      · cases hphase
    obtain ⟨p', hp', hle, -⟩ := hnewer 1 x j hnext.le hx hbound hxkey hj
    obtain rfl : p = p' := Option.some.inj (hp.symm.trans hp')
    omega
  · cases hhit

end CompilationFabric.Analysis
