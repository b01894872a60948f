import CompilationFabric.Interface.CoordinatorRuns

/-!
# Results and keys at the coordinator

Whether what is published under a key, and what a client is sent, was compiled from a request
with that key.  A completion is published under the key its request id is bound to when it
arrives, and it goes to whoever has a promise pending under that id; both are overwritten by
the next Submit with the id.  So results agree with keys as long as a request id is not bound
to another key while something of it is under way (`results_agree`).
-/

set_option autoImplicit false

namespace CompilationFabric.Analysis

open CompilationFabric.Library.TransitionSystem
open CompilationFabric.Model
open CompilationFabric.Interface

variable {H : Bytes → Digest} {w w' : Network} {e : NetworkEvent} {s t : SubmitId}
  {x x' : Submit} {Compiled : CompilationRequest → Json → Prop}

/-! ## The property and the condition -/

/-- What is published under a key, and what a client is sent, is compiled from a request with
the key; `Compiled r j` says that `j` is a result of compiling `r`. -/
structure ResultsAgree (H : Bytes → Digest) (Compiled : CompilationRequest → Json → Prop)
    (w : Network) : Prop where
  published : ∀ (k : Bytes) j, w.coordinator.published[k]? = some j →
    ∃ r, Compiled r j ∧ keyHexOf H w.host w.root r = k
  replies : ∀ s x res, w.submits s = some x → x.phase = .replied (.result res) →
    ∃ r j reused, Compiled r j ∧ keyHexOf H w.host w.root r = x.keyHex ∧
      res = { resultFromJson j with reused }

/-- Every frame answers a dispatch, with the result of compiling the dispatched request. -/
def HonestAnswers (Compiled : CompilationRequest → Json → Prop) (w : Network) (e : NetworkEvent) :
    Prop :=
  match e with
  | .receive _ f => ∃ d D, f.answers = some d ∧ w.dispatches d = some D ∧
      (f.success = true → Compiled D.request f.result)
  | _ => True

/-- The Submit has not sent its dispatch yet, or the dispatch is outstanding, or the promise is
pending. -/
def UnderWay (w : Network) (s : SubmitId) (x : Submit) : Prop :=
  x.phase = .bound ∨ preparing x.phase = true ∨ Outstanding w s ∨
    w.coordinator.pending[Submit.idHex x]? = some s

/-- A request id is bound to the key of everything that is under way with the id. -/
def BindsAgree (H : Bytes → Digest) (w : Network) (e : NetworkEvent) : Prop :=
  match e with
  | .submit r _ _ => ∀ s x, w.submits s = some x → x.request.requestId = r.requestId →
      UnderWay w s x → x.keyHex = keyHexOf H w.host w.root r
  | _ => True

/-! ## The invariant -/

structure Agreement (H : Bytes → Digest) (Compiled : CompilationRequest → Json → Prop)
    (w : Network) : Prop extends ResultsAgree H Compiled w where
  promises : ∀ s res, w.promises s = some res → ∃ x r j, w.submits s = some x ∧ Compiled r j ∧
    keyHexOf H w.host w.root r = x.keyHex ∧ res = resultFromJson j
  /-- The request id of what is under way is bound to its key. -/
  underWay : ∀ s x, w.submits s = some x → UnderWay w s x →
    w.coordinator.reqToKey[Submit.idHex x]? = some x.keyHex
  honest : ∀ c u f, w.conns c = some u → u.phase.frame = some f →
    ∃ d D, f.answers = some d ∧ w.dispatches d = some D ∧
      (f.success = true → Compiled D.request f.result)
  keyed : ∀ c u f k, w.conns c = some u → u.phase = .keyed f k →
    ∃ d x, f.answers = some d ∧ w.submits d = some x ∧ k = x.keyHex

/-- What is under way has been so, or is a new Submit. -/
theorem underWay_cases (h : NetworkTransition H w e w') (hx' : w'.submits s = some x')
    (hway : UnderWay w' s x') :
    (∃ x, w.submits s = some x ∧ x.keyHex = x'.keyHex ∧ Submit.idHex x = Submit.idHex x' ∧
      UnderWay w s x) ∨
    (s = w.nextSubmit ∧ ∃ r n now, e = .submit r n now ∧ x'.request = r) := by
  have hlate : Outstanding w' s ∨ w'.coordinator.pending[Submit.idHex x']? = some s →
      ∀ x, w.submits s = some x → Submit.idHex x = Submit.idHex x' →
        UnderWay w s x := by
    rintro (hout | hpend) x hx hid
    · rcases outstanding_cases h hout with hout | ⟨y, env, c, hy, hphase⟩
      · exact .inr (.inr (.inl hout))
      · rw [hx, Option.some_inj] at hy
        subst hy
        exact .inr (.inl (by rw [hphase]; rfl))
    · rcases pending_cases h hpend with hpend | ⟨rfl, -⟩
      · exact .inr (.inr (.inr (hid ▸ hpend)))
      · cases h with
        | pend hy hphase =>
            rw [hx, Option.some_inj] at hy
            subst hy
            exact .inr (.inl (by rw [hphase]; rfl))
        | move hy h => cases h
        | handle hy h => cases h
        | dismiss hy h => cases h
  rcases submit_cases h hx' with hx | ⟨x, p, hx, rfl, hsteps⟩ | ⟨rfl, -, r, n, now, he, hr⟩
  · refine .inl ⟨x', hx, rfl, rfl, ?_⟩
    rcases hway with hbound | hprep | hway
    · exact .inl hbound
    · exact .inr (.inl hprep)
    · exact hlate hway x' hx rfl
  · refine .inl ⟨x, hx, rfl, rfl, ?_⟩
    rcases hway with hbound | hprep | hway
    · cases hsteps with
      | move hmove => cases hmove <;> cases hbound
      | _ => cases hbound
    · cases hsteps with
      | move hmove =>
          cases hmove with
          | miss hphase => exact .inl hphase
          | select hphase => exact .inr (.inl (by rw [hphase]; rfl))
          | counter hphase => exact .inr (.inl (by rw [hphase]; rfl))
          | channel hphase => exact .inr (.inl (by rw [hphase]; rfl))
          | _ => cases hprep
      | pend hphase => exact .inr (.inl (by rw [hphase]; rfl))
      | attempt hphase => exact .inr (.inl (by rw [hphase]; rfl))
      | _ => cases hprep
    · exact hlate hway x hx rfl
  · exact .inr ⟨rfl, r, n, now, he, hr⟩

/-- The Submit behind the dispatch that a handled frame answers. -/
theorem answered_submit (hw : NetworkWellFormed H w) (ha : Agreement H Compiled w) {c : ConnId}
    {u : WorkerConn} {f : Completion} (hu : w.conns c = some u)
    (hf : u.phase.frame = some f) :
    ∃ d x, f.answers = some d ∧ w.submits d = some x ∧ UnderWay w d x ∧
      Submit.idHex x = f.env.requestId.toHex ∧ (f.success = true → Compiled x.request f.result) := by
  obtain ⟨d, D, hd, hD, hcompiled⟩ := ha.honest c u f hu hf
  obtain ⟨hproc, D', hD', -, hid, -⟩ := answers_eq_true.mp (hw.answers c u f d hu hf hd)
  rw [hD, Option.some_inj] at hD'
  subst hD'
  obtain ⟨x, hx, -, hreq, -, hid'⟩ := hw.dispatch d D hD
  refine ⟨d, x, hd, hx, .inr (.inr (.inl ⟨by simp [hD], hproc⟩)), ?_, hreq ▸ hcompiled⟩
  rw [Submit.idHex, ← hid', hid]

/-! ## Single steps -/

/-- INTERNAL: one step publishes results of their own keys only. -/
theorem published_agree_step (hw : NetworkWellFormed H w) (ha : Agreement H Compiled w)
    (h : NetworkTransition H w e w') {k : Bytes} {j : Json}
    (hj : w'.coordinator.published[k]? = some j) :
    ∃ r, Compiled r j ∧ keyHexOf H w.host w.root r = k := by
  rcases published_cases h with ⟨hpub, -⟩ | ⟨r, -, rfl⟩ | ⟨c, u, f, pubKey, pending,
    duplicates, promises, -, hu, hphase, -, rfl⟩
  · rw [hpub] at hj
    exact ha.published k j hj
  · simp only [Network.invalidate, Std.ExtTreeMap.getElem?_erase] at hj
    split at hj
    · cases hj
    · exact ha.published k j hj
  · simp only [publishedAs, Std.ExtTreeMap.getElem?_insert] at hj
    split at hj
    · next heq =>
      obtain rfl := Option.some.inj hj
      obtain ⟨d, x, hd, hx, hk⟩ := ha.keyed c u f pubKey hu hphase
      obtain ⟨d', x', hd', hx', -, -, hcompiled⟩ :=
        answered_submit hw ha hu (f := f) (by rw [hphase]; rfl)
      obtain rfl : d = d' := Option.some.inj (hd.symm.trans hd')
      obtain rfl : x = x' := Option.some.inj (hx.symm.trans hx')
      refine ⟨x.request, hcompiled (hw.success c u f hu (by rw [hphase]; rfl)), ?_⟩
      rw [← (hw.key d x hx).2, ← hk]
      simpa using heq
    · exact ha.published k j hj

/-- A client is sent what is published, or what its promise got. -/
theorem replies_agree_step (ha : Agreement H Compiled w) (h : NetworkTransition H w e w')
    {res : CompilationResult} (hx' : w'.submits s = some x')
    (hreply : x'.phase = .replied (.result res)) :
    ∃ r j reused, Compiled r j ∧ keyHexOf H w.host w.root r = x'.keyHex ∧
      res = { resultFromJson j with reused } := by
  rcases submit_cases h hx' with hx | ⟨x, p, hx, rfl, hsteps⟩ | ⟨-, hphase, -⟩
  · exact ha.replies s x' res hx hreply
  · cases hsteps with
    | move hmove =>
        cases hmove with
        | @hit j hphase hpub =>
            cases hreply
            obtain ⟨r, hcompiled, hkey⟩ := ha.published x.keyHex j hpub
            exact ⟨r, j, true, hcompiled, hkey, rfl⟩
        | @wake res' hphase hres =>
            obtain ⟨y, r, j, hy, hcompiled, hkey, rfl⟩ := ha.promises s res' hres
            rw [hx, Option.some_inj] at hy
            subst hy
            dsimp only at hreply
            split at hreply
            · cases hreply
              exact ⟨r, j, false, hcompiled, hkey, rfl⟩
            · cases hreply
        | _ => cases hreply
    | _ => cases hreply
  · rw [hphase] at hreply
    cases hreply

/-- INTERNAL: one step fulfils promises with results of their own keys only. -/
theorem promises_agree_step (hw : NetworkWellFormed H w) (ha : Agreement H Compiled w)
    (h : NetworkTransition H w e w') {res : CompilationResult} (hres : w'.promises s = some res) :
    ∃ x r j, w'.submits s = some x ∧ Compiled r j ∧ keyHexOf H w.host w.root r = x.keyHex ∧
      res = resultFromJson j := by
  have hkeep : ∀ {x r j}, w.submits s = some x → Compiled r j →
      keyHexOf H w.host w.root r = x.keyHex → res = resultFromJson j →
      ∃ x r j, w'.submits s = some x ∧ Compiled r j ∧
        keyHexOf H w.host w.root r = x.keyHex ∧ res = resultFromJson j := by
    intro x r j hx hcompiled hkey hj
    obtain ⟨p, hp⟩ := submit_kept hw h hx
    exact ⟨_, r, j, hp, hcompiled, hkey, hj⟩
  rcases promise_cases h hres with hres | ⟨c, u, f, pubKey, -, hu, hphase, hs, rfl⟩
  · obtain ⟨x, r, j, hx, hcompiled, hkey, hj⟩ := ha.promises s res hres
    exact hkeep hx hcompiled hkey hj
  · -- the promise and the dispatch are under way with one request id, so under one key
    obtain ⟨x, hx, hid, -⟩ := hw.pending _ s hs
    have hsway : UnderWay w s x := .inr (.inr (.inr (by rw [hid]; exact hs)))
    obtain ⟨d, y, hd, hy, hdway, hidy, hcompiled⟩ :=
      answered_submit hw ha hu (f := f) (by rw [hphase]; rfl)
    have hboundx := ha.underWay s x hx hsway
    have hboundy := ha.underWay d y hy hdway
    rw [hid] at hboundx
    rw [hidy, hboundx, Option.some_inj] at hboundy
    refine hkeep hx (hcompiled (hw.success c u f hu (by rw [hphase]; rfl))) ?_ rfl
    rw [hboundy, (hw.key d y hy).2]

/-- INTERNAL: one step keeps a Submit under way bound to its own key. -/
theorem underWay_agree_step (ha : Agreement H Compiled w) (hbinds : BindsAgree H w e)
    (h : NetworkTransition H w e w') (hx' : w'.submits s = some x') (hway : UnderWay w' s x') :
    w'.coordinator.reqToKey[Submit.idHex x']? = some x'.keyHex := by
  rcases underWay_cases h hx' hway with ⟨x, hx, hkey, hid, hold⟩ | ⟨rfl, r, n, now, rfl, hr⟩
  · rw [← hkey, ← hid]
    rcases reqToKey_cases h with hsame | ⟨r, n, now, rfl, rfl⟩
    · rw [hsame]
      exact ha.underWay s x hx hold
    · simp only [Network.submit, Std.ExtTreeMap.getElem?_insert]
      split
      · next heq =>
        have hreq : x.request.requestId = r.requestId :=
          (TypedId.toHex_injective (by simpa [Submit.idHex] using heq)).symm
        rw [hbinds s x hx hreq hold, keyHexOf, ← submitKey_submitPlan w.host w.root n now r]
      · exact ha.underWay s x hx hold
  · cases h with
    | submit =>
        simp only [Network.submit, Function.update_self, Option.some.injEq] at hx'
        subst hx'
        simp [Network.submit, Submit.idHex]
    | move hy h => cases h
    | handle hy h => cases h
    | dismiss hy h => cases h

/-- INTERNAL: one step finds a frame the key of the dispatch that it answers. -/
theorem keyed_agree_step (hw : NetworkWellFormed H w) (ha : Agreement H Compiled w)
    (h : NetworkTransition H w e w') {c : ConnId} {u' : WorkerConn} {f : Completion} {k : Bytes}
    (hu' : w'.conns c = some u') (hphase' : u'.phase = .keyed f k) :
    ∃ d x, f.answers = some d ∧ w'.submits d = some x ∧ k = x.keyHex := by
  have hkeep : ∀ {d x}, f.answers = some d → w.submits d = some x → k = x.keyHex →
      ∃ d x, f.answers = some d ∧ w'.submits d = some x ∧ k = x.keyHex := by
    intro d x hd hx hk
    obtain ⟨p, hp⟩ := submit_kept hw h hx
    exact ⟨d, _, hd, hp, hk⟩
  rcases keyed_cases h hu' hphase' with hu | ⟨u, hu, hphase, rfl⟩
  · obtain ⟨d, x, hd, hx, hk⟩ := ha.keyed c u' f k hu hphase'
    exact hkeep hd hx hk
  · obtain ⟨d, x, hd, hx, hway, hid, -⟩ :=
      answered_submit hw ha hu (f := f) (by rw [hphase]; rfl)
    refine hkeep hd hx ?_
    rw [pubKeyOf, ← hid, ha.underWay d x hx hway, Option.getD_some]

/-- Every step with honest workers and agreeing bindings keeps the agreement. -/
theorem Agreement.step (hw : NetworkWellFormed H w) (ha : Agreement H Compiled w)
    (hhonest : HonestAnswers Compiled w e) (hbinds : BindsAgree H w e)
    (h : NetworkTransition H w e w') : Agreement H Compiled w' := by
  obtain ⟨hhost, hroot⟩ := host_kept h
  refine ⟨⟨?_, ?_⟩, ?_, fun s x' => underWay_agree_step ha hbinds h, ?_,
    fun c u' f k => keyed_agree_step hw ha h⟩
  · intro k j hj
    rw [hhost, hroot]
    exact published_agree_step hw ha h hj
  · intro s x' res hx' hreply
    rw [hhost, hroot]
    exact replies_agree_step ha h hx' hreply
  · intro s res hres
    rw [hhost, hroot]
    exact promises_agree_step hw ha h hres
  · intro c u' f hu' hf
    rcases frame_cases h hu' hf with ⟨u, hu, hf⟩ | rfl
    · obtain ⟨d, D, hd, hD, hcompiled⟩ := ha.honest c u f hu hf
      exact ⟨d, D, hd, dispatch_kept hw h hD, hcompiled⟩
    · obtain ⟨d, D, hd, hD, hcompiled⟩ := hhonest
      exact ⟨d, D, hd, dispatch_kept hw h hD, hcompiled⟩

/-- A fresh coordinator has nothing to disagree on. -/
theorem agreement_init (host : Host) (root : Bytes) (epoch cacheGen toolchainGen : UInt64) :
    Agreement H Compiled (.init host root epoch cacheGen toolchainGen) := by
  refine ⟨⟨?_, ?_⟩, ?_, ?_, ?_, ?_⟩ <;> intros <;> simp_all [Network.init]

/-! ## Runs -/

/-- With honest workers, results agree with keys in every state of a run in which request ids
are not bound to another key while something of them is under way.
SOURCE: Distributed.cpp:179-216, 227-296 -/
theorem results_agree (Compiled : CompilationRequest → Json → Prop) (host : Host) (root : Bytes)
    (epoch cacheGen toolchainGen : UInt64) {es : List NetworkEvent}
    (hmeets : Meets (Network.step H) (fun w e => HonestAnswers Compiled w e ∧ BindsAgree H w e)
      (.init host root epoch cacheGen toolchainGen) es)
    (hrun : exec (Network.step H) (.init host root epoch cacheGen toolchainGen) es = some w) :
    ResultsAgree H Compiled w := by
  have hboth : NetworkWellFormed H w ∧ Agreement H Compiled w := by
    refine exec_induction (I := fun u => NetworkWellFormed H u ∧ Agreement H Compiled u) ?_
      hmeets hrun ⟨networkWellFormed_init .., agreement_init ..⟩
    rintro u e u' ⟨hhonest, hbinds⟩ hu ⟨hw, ha⟩
    have htrans := networkTransition_of_step hu
    exact ⟨hw.step htrans, ha.step hw hhonest hbinds htrans⟩
  exact hboth.2.toResultsAgree

/-! ## A request id that is used again -/

/-- A request with the id of the first one, and another key. -/
def otherRequest : CompilationRequest := { source := [1] }

def dispatchesFirst (w : Network) : Bool :=
  match w.dispatches 0 with
  | some D => D.request = firstRequest
  | none => false

/-- Neither a request nor an answer arrives. -/
def isInner : NetworkEvent → Bool
  | .submit _ _ _ => false
  | .receive _ _ => false
  | _ => true

/-- INTERNAL: a step inside the coordinator meets both conditions. -/
theorem conditions_of_inner (he : isInner e = true) :
    HonestAnswers Compiled w e ∧ BindsAgree H w e := by
  cases e with
  | submit r n now => cases he
  | receive c f => cases he
  | _ => exact ⟨trivial, trivial⟩

/-- INTERNAL: the first dispatch meets both conditions. -/
theorem meets_firstDispatch :
    Meets (Network.step byteSum)
      (fun w e => HonestAnswers (fun r _ => r = firstRequest) w e ∧ BindsAgree byteSum w e)
      (.init {} [] 1 1 1) firstDispatch := by
  refine ⟨⟨trivial, trivial⟩, fun w₁ h₁ => ⟨⟨trivial, ?_⟩, fun w₂ _ => ?_⟩⟩
  · cases h₁
    rintro s x hx
    cases hx
  · exact meets_of_all (fun _ _ => conditions_of_inner) rfl

/-- An answer with the result of the first request is honest. -/
theorem honest_firstAnswer {w : Network} (hw : dispatchesFirst w = true) :
    HonestAnswers (fun r _ => r = firstRequest) w (.receive 0 firstAnswer) := by
  unfold dispatchesFirst at hw
  split at hw
  · next D hD => exact ⟨0, D, rfl, hD, fun _ => of_decide_eq_true hw⟩
  · cases hw

/-- The client of the first request is answered. -/
theorem results_agree_firstAnswer :
    ∃ w, exec (Network.step byteSum) (.init {} [] 1 1 1)
        (firstDispatch ++ (completionSteps 0 firstAnswer ++ [.wake 0])) = some w ∧
      ResultsAgree byteSum (fun r _ => r = firstRequest) w := by
  obtain ⟨w₁, hw₁, hfirst⟩ := (Option.any_eq_true _ _).mp (show
    (exec (Network.step byteSum) (.init {} [] 1 1 1) firstDispatch).any dispatchesFirst = true by
      decide +kernel)
  obtain ⟨w, hw⟩ := Option.isSome_iff_exists.mp (show
    (exec (Network.step byteSum) (.init {} [] 1 1 1)
      (firstDispatch ++ (completionSteps 0 firstAnswer ++ [.wake 0]))).isSome = true by
      decide +kernel)
  refine ⟨w, hw, results_agree (fun r _ => r = firstRequest) {} [] 1 1 1 ?_ hw⟩
  refine meets_firstDispatch.append fun t ht => ?_
  obtain rfl : w₁ = t := Option.some.inj (hw₁.symm.trans ht)
  exact ⟨⟨honest_firstAnswer hfirst, trivial⟩, fun _ _ =>
    meets_of_all (fun _ _ => conditions_of_inner) rfl⟩

/-- A second Submit reuses the request id before the first one is answered. -/
def reusedId : List NetworkEvent := firstDispatch ++ [.submit otherRequest 0 0]

/-- Something is published under the key of the other request. -/
def otherPublished (w : Network) : Bool :=
  w.coordinator.published.contains (keyHexOf byteSum {} [] otherRequest) && w.host = {} &&
    w.root = []

/-- Then the result of the first request is published under the key of the second, although
the worker is honest. -/
theorem not_resultsAgree :
    ∃ w, exec (Network.step byteSum) (.init {} [] 1 1 1)
        (reusedId ++ completionSteps 0 firstAnswer) = some w ∧
      Meets (Network.step byteSum) (HonestAnswers fun r _ => r = firstRequest)
        (.init {} [] 1 1 1) (reusedId ++ completionSteps 0 firstAnswer) ∧
      ¬ ResultsAgree byteSum (fun r _ => r = firstRequest) w := by
  obtain ⟨w₁, hw₁, hfirst⟩ := (Option.any_eq_true _ _).mp (show
    (exec (Network.step byteSum) (.init {} [] 1 1 1) reusedId).any dispatchesFirst = true by
      decide +kernel)
  obtain ⟨w, hw, hother⟩ := (Option.any_eq_true _ _).mp (show
    (exec (Network.step byteSum) (.init {} [] 1 1 1)
      (reusedId ++ completionSteps 0 firstAnswer)).any otherPublished = true by decide +kernel)
  simp only [otherPublished, Bool.and_eq_true, decide_eq_true_eq] at hother
  obtain ⟨⟨hpub, hhost⟩, hroot⟩ := hother
  refine ⟨w, hw, ?_, fun hagree => ?_⟩
  · refine Meets.append ?_ fun t ht => ?_
    · refine (meets_firstDispatch.imp fun _ _ h => h.1).append fun _ _ => ?_
      exact ⟨trivial, fun _ _ => trivial⟩
    · obtain rfl : w₁ = t := Option.some.inj (hw₁.symm.trans ht)
      exact ⟨honest_firstAnswer hfirst, fun _ _ =>
        meets_of_all (fun _ _ he => (conditions_of_inner (H := byteSum) he).1) rfl⟩
  · rw [Std.ExtTreeMap.contains_eq_isSome_getElem?] at hpub
    obtain ⟨j, hj⟩ := Option.isSome_iff_exists.mp hpub
    obtain ⟨r, rfl, hkey⟩ := hagree.published _ j hj
    rw [hhost, hroot] at hkey
    exact absurd hkey (by decide +kernel)

end CompilationFabric.Analysis
