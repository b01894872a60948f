import CompilationFabric.Analysis.CoordinatorInvalidation
import CompilationFabric.Analysis.PublicationAuthority

/-!
# Generation bumps and published results

Whether a Submit can be answered from `published_` with a result of an older authority.  The
counters are compared with those of a CompileResult when it arrives, and never again: a counter that
is advanced removes nothing from `published_`, a lookup does not ask under which counters an entry
was accepted, and a counter can be advanced between the comparison and the publication.  When
neither happens, every answer is current, whatever is submitted and whenever; and only then.
-/

set_option autoImplicit false

namespace CompilationFabric.Analysis

open CompilationFabric.Library.TransitionSystem
open CompilationFabric.Model
open CompilationFabric.Interface

variable {H : Bytes → Digest} {w w' w₀ : Network} {e : NetworkEvent} {es : List NetworkEvent}
  {k : Bytes} {j : Json}

/-! ## The property -/

/-- The three counters of the envelope are those of the coordinator. -/
structure UnderCurrent (m : DistributedCoordinator) (env : ProtoEnvelope) : Prop where
  epoch : env.epoch = m.epoch
  cacheGen : env.cacheGen = m.cacheGen
  toolchainGen : env.toolchainGen = m.toolchainGen

/-- The entry under the key is the one that a publication of the run has made, and the coordinator
still has the counters that the frame was accepted under. -/
def AcceptedUnderCurrent (H : Bytes → Digest) (start : Network) (es : List NetworkEvent)
    (w : Network) (k : Bytes) (j : Json) : Prop :=
  ∃ pre c mid w₀ u f, es = pre ++ .publish c :: mid ∧
    exec (Network.step H) start pre = some w₀ ∧ w₀.conns c = some u ∧ u.phase = .keyed f k ∧
    w.publications k = some ⟨w₀.publicationCount, f.answers⟩ ∧ j = f.result ∧
    UnderCurrent w.coordinator f.env

/-- The entry under the key was published after every step of the run that has advanced a
counter. -/
def PublishedSinceAdvances (H : Bytes → Digest) (start : Network) (es : List NetworkEvent)
    (w : Network) (k : Bytes) : Prop :=
  ∀ pre e mid w₀, es = pre ++ e :: mid → (advanced e).isSome = true →
    exec (Network.step H) start pre = some w₀ →
    ∃ p, w.publications k = some p ∧ w₀.publicationCount ≤ p.number

/-- Every Submit that is about to be answered from `published_` gets a current result. -/
def AnswersCurrent (H : Bytes → Digest) (start : Network) (es : List NetworkEvent) (w : Network) :
    Prop :=
  ∀ s x j, w.submits s = some x → x.phase = .bound →
    w.coordinator.published[x.keyHex]? = some j →
    AcceptedUnderCurrent H start es w x.keyHex j ∧ PublishedSinceAdvances H start es w x.keyHex

/-- At every point of the run, whatever is submitted next. -/
def RetiresResults (H : Bytes → Digest) (start : Network) (es : List NetworkEvent) : Prop :=
  ∀ pre mid w r n now, es = pre ++ mid → exec (Network.step H) start pre = some w →
    AnswersCurrent H start (pre ++ [.submit r n now]) (w.submit H r n now)

/-- A counter is advanced while nothing is published, and a result is published while the counters
are still those of its frame. -/
structure StaysCurrent (w : Network) (e : NetworkEvent) : Prop where
  advance : (advanced e).isSome = true → ∀ k : Bytes, w.coordinator.published[k]? = none
  publish : ∀ c u f k, e = .publish c → w.conns c = some u → u.phase = .keyed f k →
    UnderCurrent w.coordinator f.env

/-! ## The run so far -/

/-- What holds of a run and the state it has led to. -/
structure Retires (H : Bytes → Digest) (start : Network) (es : List NetworkEvent) (w : Network) :
    Prop where
  current : ∀ k j, w.coordinator.published[k]? = some j →
    AcceptedUnderCurrent H start es w k j
  since : ∀ k j, w.coordinator.published[k]? = some j →
    PublishedSinceAdvances H start es w k

/-- INTERNAL: publications are numbered upwards. -/
theorem count_mono (h : NetworkTransition H w e w') : w.publicationCount ≤ w'.publicationCount := by
  rcases published_cases h with ⟨-, -, hcount⟩ | ⟨r, -, rfl⟩ | ⟨c, u, f, pubKey, pending,
    duplicates, promises, -, -, -, -, rfl⟩
  · exact hcount.ge
  · exact le_rfl
  · exact Nat.le_succ _

/-- Only a counter's own event changes it. -/
theorem underCurrent_kept (h : NetworkTransition H w e w') (hadv : advanced e = none)
    {env : ProtoEnvelope} (hcurrent : UnderCurrent w.coordinator env) :
    UnderCurrent w'.coordinator env := by
  cases h with
  | rollEpoch => cases hadv
  | bumpCacheGeneration => cases hadv
  | bumpToolchainGeneration => cases hadv
  | _ => exact ⟨hcurrent.epoch, hcurrent.cacheGen, hcurrent.toolchainGen⟩

/-- INTERNAL: so they are over a run. -/
theorem count_exec (h : exec (Network.step H) w es = some w') :
    w.publicationCount ≤ w'.publicationCount :=
  exec_rel (R := fun u u' : Network => u.publicationCount ≤ u'.publicationCount)
    (P := fun _ _ => True) (fun _ => le_rfl) (fun _ _ _ => le_trans)
    (fun _ _ _ _ hstep => count_mono (networkTransition_of_step hstep))
    (meets_of_forall fun _ _ _ => trivial) h

/-- A step of a longer run is its last one, or one of the run before it. -/
theorem snoc_eq_split {ε : Type*} {es pre mid : List ε} {e e' : ε}
    (h : es ++ [e] = pre ++ e' :: mid) : es = pre ∧ e = e' ∨ ∃ mid', es = pre ++ e' :: mid' := by
  rcases List.eq_nil_or_concat mid with rfl | ⟨mid', x, rfl⟩
  · exact .inl (List.append_singleton_inj.mp h)
  · rw [List.concat_eq_append, ← List.cons_append, ← List.append_assoc,
      List.append_singleton_inj] at h
    exact .inr ⟨mid', h.1⟩

variable {start : Network}

/-- An entry that stays comes from where it came from. -/
theorem AcceptedUnderCurrent.later (h : AcceptedUnderCurrent H start es w k j)
    (hkept : w'.publications k = w.publications k)
    (hcurrent : ∀ env, UnderCurrent w.coordinator env → UnderCurrent w'.coordinator env) :
    AcceptedUnderCurrent H start (es ++ [e]) w' k j := by
  obtain ⟨pre, c, mid, w₀, u, f, rfl, hpre, hu, hphase, hpub, hj, hunder⟩ := h
  refine ⟨pre, c, mid ++ [e], w₀, u, f, ?_, hpre, hu, hphase, ?_, hj, hcurrent _ hunder⟩
  · simp
  · rw [hkept, hpub]

/-- INTERNAL: a publication stays after the advances when there is no new one. -/
theorem PublishedSinceAdvances.later (h : PublishedSinceAdvances H start es w k)
    (hkept : w'.publications k = w.publications k) (hadv : advanced e = none) :
    PublishedSinceAdvances H start (es ++ [e]) w' k := by
  intro pre e' mid w₀ hsplit hadvanced hpre
  rw [hkept]
  rcases snoc_eq_split hsplit with ⟨-, rfl⟩ | ⟨mid', hes⟩
  · rw [hadv] at hadvanced
    cases hadvanced
  · exact h pre e' mid' w₀ hes hadvanced hpre

namespace Retires

/-- A fresh coordinator has published nothing. -/
theorem init (host : Host) (root : Bytes) (epoch cacheGen toolchainGen : UInt64) :
    Retires H (.init host root epoch cacheGen toolchainGen) []
      (.init host root epoch cacheGen toolchainGen) where
  current k _ h := by simp [Network.init] at h
  since k _ h := by simp [Network.init] at h

/-- A step that leaves no outdated publication keeps the invariant. -/
theorem step (hr : Retires H start es w) (hrun : exec (Network.step H) start es = some w)
    (hstays : StaysCurrent w e) (hstep : Network.step H w e = some w') :
    Retires H start (es ++ [e]) w' := by
  have ht := networkTransition_of_step hstep
  have hkeep : advanced e = none → ∀ {k j}, w.coordinator.published[k]? = some j →
      w'.publications k = w.publications k → AcceptedUnderCurrent H start (es ++ [e]) w' k j ∧
        PublishedSinceAdvances H start (es ++ [e]) w' k := fun hadv k j hj hkept =>
    ⟨(hr.current k j hj).later hkept fun _ => underCurrent_kept ht hadv,
      (hr.since k j hj).later hkept hadv⟩
  suffices h : ∀ k j, w'.coordinator.published[k]? = some j →
      AcceptedUnderCurrent H start (es ++ [e]) w' k j ∧
        PublishedSinceAdvances H start (es ++ [e]) w' k from
    ⟨fun k j hj => (h k j hj).1, fun k j hj => (h k j hj).2⟩
  intro k j hj
  rcases published_cases ht with ⟨hpub, hpubs, -⟩ | ⟨r, rfl, rfl⟩ | ⟨c, u, f, pubKey, pending,
    duplicates, promises, rfl, hu, hphase, hres, rfl⟩
  · rw [hpub] at hj
    cases hadv : advanced e with
    | some check =>
        -- there is nothing that the advance would have to retire
        rw [hstays.advance (by rw [hadv]; rfl) k] at hj
        cases hj
    | none => exact hkeep hadv hj (congrFun hpubs k)
  · simp only [Network.invalidate, Std.ExtTreeMap.getElem?_erase] at hj
    split at hj
    · cases hj
    · next hne =>
      have hk : k ≠ r.toHex := fun h => hne (by simp [h])
      exact hkeep rfl hj (Function.update_of_ne hk _ _)
  · by_cases hk : k = pubKey
    · subst hk
      simp only [publishedAs, Std.ExtTreeMap.getElem?_insert_self, Option.some.injEq] at hj
      refine ⟨⟨es, c, [], w, u, f, rfl, hrun, hu, hphase, Function.update_self .., hj.symm, ?_⟩, ?_⟩
      · obtain ⟨hepoch, hcache, htoolchain⟩ := hstays.publish c u f k rfl hu hphase
        exact ⟨hepoch, hcache, htoolchain⟩
      · intro pre e' mid w₀ hsplit hadvanced hpre
        refine ⟨_, Function.update_self .., ?_⟩
        rcases snoc_eq_split hsplit with ⟨-, rfl⟩ | ⟨mid', hes⟩
        · cases hadvanced
        · rw [hes] at hrun
          obtain ⟨w₀', hpre', hrest⟩ := exec_append.mp hrun
          obtain rfl : w₀ = w₀' := Option.some.inj (hpre.symm.trans hpre')
          exact count_exec hrest
    · simp only [publishedAs, Std.ExtTreeMap.getElem?_insert] at hj
      rw [if_neg (by simpa using Ne.symm hk)] at hj
      exact hkeep rfl hj (Function.update_of_ne hk _ _)

end Retires

/-- A run that stays current answers currently. -/
theorem answersCurrent_of_stays (hinit : Retires H start [] start)
    (hstays : Meets (Network.step H) StaysCurrent start es)
    (hrun : exec (Network.step H) start es = some w) : AnswersCurrent H start es w := by
  have hr : Retires H start es w :=
    exec_trace hinit (fun _ _ _ _ hes hr hs hstep => hr.step hes hs hstep) hstays hrun
  intro s x j _ _ hj
  exact ⟨hr.current _ j hj, hr.since _ j hj⟩

/-- Runs that leave no outdated publication retire results. -/
theorem retiresResults_of_stays (hinit : Retires H start [] start)
    (hstays : Meets (Network.step H) StaysCurrent start es) : RetiresResults H start es := by
  rintro pre mid w r n now rfl hpre
  refine answersCurrent_of_stays hinit (hstays.append_left.append fun t ht => ?_)
    (exec_append.mpr ⟨w, hpre, exec_singleton.mpr rfl⟩)
  exact ⟨⟨(fun h => nomatch h), (fun _ _ _ _ h => nomatch h)⟩, fun _ _ => trivial⟩

/-! ## Keys that can be submitted again -/

/-- What is published can be submitted for: the keys are those of requests. -/
structure Requested (H : Bytes → Digest) (w : Network) : Prop where
  bound : ∀ (id k : Bytes), w.coordinator.reqToKey[id]? = some k →
    ∃ r, keyHexOf H w.host w.root r = k
  authorized : ∀ c u f, w.conns c = some u → u.phase.authorized = some f →
    ∃ k, w.coordinator.reqToKey[f.env.requestId.toHex]? = some k
  keyed : ∀ c u f k, w.conns c = some u → u.phase = .keyed f k →
    ∃ r, keyHexOf H w.host w.root r = k
  published : ∀ k j, w.coordinator.published[k]? = some j →
    (∃ r, keyHexOf H w.host w.root r = k) ∧
      ∃ p, w.publications k = some p ∧ p.number < w.publicationCount

namespace Requested

/-- A fresh coordinator has no bindings. -/
theorem init (H : Bytes → Digest) (host : Host) (root : Bytes)
    (epoch cacheGen toolchainGen : UInt64) :
    Requested H (.init host root epoch cacheGen toolchainGen) where
  bound id k h := by simp [Network.init] at h
  authorized _ _ _ h := nomatch h
  keyed _ _ _ _ h := nomatch h
  published k j h := by simp [Network.init] at h

/-- Every step keeps the bindings to requests. -/
theorem step (hr : Requested H w) (hw : NetworkWellFormed H w) (h : NetworkTransition H w e w') :
    Requested H w' := by
  obtain ⟨hhost, hroot⟩ := host_kept h
  -- a request id that is bound stays so
  have hbound : ∀ {id : Bytes}, (∃ k, w.coordinator.reqToKey[id]? = some k) →
      ∃ k, w'.coordinator.reqToKey[id]? = some k := by
    rintro id ⟨k, hk⟩
    rcases reqToKey_cases h with hsame | ⟨r, n, now, rfl, rfl⟩
    · exact ⟨k, hsame ▸ hk⟩
    · simp only [Network.submit, Std.ExtTreeMap.getElem?_insert]
      split
      · exact ⟨_, rfl⟩
      · exact ⟨k, hk⟩
  constructor
  · rw [hhost, hroot]
    intro id k hk
    rcases reqToKey_cases h with hsame | ⟨r, n, now, rfl, rfl⟩
    · exact hr.bound id k (hsame ▸ hk)
    · simp only [Network.submit, Std.ExtTreeMap.getElem?_insert] at hk
      split at hk
      · cases hk
        exact ⟨r, by rw [keyHexOf, ← submitKey_submitPlan w.host w.root n now r]⟩
      · exact hr.bound id k hk
  · intro c u' f hu' hf
    obtain ⟨u, hu, hold | ⟨-, -, hauth⟩⟩ := authorized_cases h hu' hf
    · exact hbound (hr.authorized c u f hu hold)
    · obtain ⟨s, hs⟩ := Option.isSome_iff_exists.mp
        (Std.ExtTreeMap.mem_iff_isSome_getElem?.mp (authorizes_spec hauth).2)
      obtain ⟨x, hx, hid, -⟩ := hw.pending _ s hs
      exact hbound (hid ▸ hw.bound s x hx)
  · rw [hhost, hroot]
    intro c u' f k hu' hphase'
    rcases keyed_cases h hu' hphase' with hu | ⟨u, hu, hphase, rfl⟩
    · exact hr.keyed c u' f k hu hphase'
    · obtain ⟨k, hk⟩ := hr.authorized c u f hu (by rw [hphase]; rfl)
      rw [pubKeyOf, hk, Option.getD_some]
      exact hr.bound _ k hk
  · rw [hhost, hroot]
    intro k j hj
    rcases published_cases h with ⟨hpub, hpubs, hcount⟩ | ⟨r, rfl, rfl⟩ | ⟨c, u, f, pubKey, pending,
      duplicates, promises, rfl, hu, hphase, hres, rfl⟩
    · rw [hpubs, hcount]
      exact hr.published k j (hpub ▸ hj)
    · simp only [Network.invalidate, Std.ExtTreeMap.getElem?_erase] at hj
      split at hj
      · cases hj
      · next hne =>
        have hk : k ≠ r.toHex := fun h => hne (by simp [h])
        obtain ⟨hrequest, p, hp, hlt⟩ := hr.published k j hj
        exact ⟨hrequest, p, (Function.update_of_ne hk _ _).trans hp, hlt⟩
    · by_cases hk : k = pubKey
      · subst hk
        exact ⟨hr.keyed c u f k hu hphase, _, Function.update_self .., Nat.lt_succ_self _⟩
      · simp only [publishedAs, Std.ExtTreeMap.getElem?_insert] at hj
        rw [if_neg (by simpa using Ne.symm hk)] at hj
        obtain ⟨hrequest, p, hp, hlt⟩ := hr.published k j hj
        exact ⟨hrequest, p, (Function.update_of_ne hk _ _).trans hp, hlt.trans (Nat.lt_succ_self _)⟩

end Requested

/-- Every run keeps the bindings to requests. -/
theorem requested_exec (host : Host) (root : Bytes) (epoch cacheGen toolchainGen : UInt64)
    (hrun : exec (Network.step H) (.init host root epoch cacheGen toolchainGen) es = some w) :
    Requested H w := by
  have hinv : NetworkWellFormed H w ∧ Requested H w :=
    exec_invariant (I := fun u => NetworkWellFormed H u ∧ Requested H u)
      (fun _ _ _ hstep hu => ⟨hu.1.step (networkTransition_of_step hstep),
        hu.2.step hu.1 (networkTransition_of_step hstep)⟩) hrun
      ⟨networkWellFormed_init H .., .init H ..⟩
  exact hinv.2

/-! ## Only then -/

/-- INTERNAL: a publication is counted. -/
theorem count_publish {c : ConnId} (h : NetworkTransition H w (.publish c) w') :
    w'.publicationCount = w.publicationCount + 1 := by
  cases h with
  | publish => rfl
  | move hx hm => cases hm
  | handle hx hm => cases hm
  | dismiss hx hm => cases hm

/-- Whatever is published can be asked for in the next step. -/
theorem answer_of_published (hretires : RetiresResults H start es) {pre mid : List NetworkEvent}
    (hes : es = pre ++ mid) (hpre : exec (Network.step H) start pre = some w)
    (hr : Requested H w) (hj : w.coordinator.published[k]? = some j) : ∃ r,
      AcceptedUnderCurrent H start (pre ++ [.submit r 0 0]) (w.submit H r 0 0) k j ∧
        PublishedSinceAdvances H start (pre ++ [.submit r 0 0]) (w.submit H r 0 0) k := by
  obtain ⟨⟨r, rfl⟩, -⟩ := hr.published k j hj
  have hkey : (submitKey r (submitPlan w.host w.root 0 0 r)).toHex H =
      keyHexOf H w.host w.root r := rfl
  exact ⟨r, hretires pre mid w r 0 0 hes hpre w.nextSubmit _ j (Function.update_self ..) rfl
    (hkey ▸ hj)⟩

/-- A counter that is advanced while something is published has not retired it. -/
theorem advance_of_retires (hretires : RetiresResults H start es) {pre mid : List NetworkEvent}
    (hes : es = pre ++ e :: mid) (hpre : exec (Network.step H) start pre = some w)
    (hstep : Network.step H w e = some w') (hr : Requested H w) (hr' : Requested H w')
    (hadv : (advanced e).isSome = true) (k : Bytes) : w.coordinator.published[k]? = none := by
  apply Option.eq_none_iff_forall_ne_some.mpr
  intro j hj
  have hsame : w'.coordinator.published = w.coordinator.published ∧
      w'.publications = w.publications := by
    rcases published_cases (networkTransition_of_step hstep) with ⟨hpub, hpubs, -⟩ | ⟨r, rfl, -⟩ |
      ⟨c, u, f, pubKey, pending, duplicates, promises, rfl, -⟩
    · exact ⟨hpub, hpubs⟩
    · cases hadv
    · cases hadv
  obtain ⟨r, -, hsince⟩ := answer_of_published hretires (hes.trans (List.append_cons ..))
    (exec_append.mpr ⟨w, hpre, exec_singleton.mpr hstep⟩) hr' (hsame.1 ▸ hj)
  obtain ⟨-, p, hp, hlt⟩ := hr.published k j hj
  obtain ⟨p', hp', hle⟩ := hsince pre e [.submit r 0 0] w (by simp) hadv hpre
  change w'.publications k = some p' at hp'
  rw [hsame.2, hp, Option.some_inj] at hp'
  subst hp'
  omega

/-- A result is published under the counters of its frame. -/
theorem publish_of_retires (hretires : RetiresResults H start es) {pre mid : List NetworkEvent}
    {c : ConnId} {u : WorkerConn} {f : Completion} (hes : es = pre ++ .publish c :: mid)
    (hpre : exec (Network.step H) start pre = some w)
    (hstep : Network.step H w (.publish c) = some w') (hr' : Requested H w')
    (hu : w.conns c = some u) (hphase : u.phase = .keyed f k) :
    UnderCurrent w.coordinator f.env := by
  have ht := networkTransition_of_step hstep
  obtain ⟨pending, duplicates, promises, rfl⟩ : ∃ pending duplicates promises,
      w' = publishedAs w c u f k pending duplicates promises := by
    cases ht with
    | publish hu' hphase' hres =>
        rw [hu, Option.some_inj] at hu'
        subst hu'
        rw [hphase] at hphase'
        cases hphase'
        exact ⟨_, _, _, rfl⟩
    | move hx hm => cases hm
    | handle hx hm => cases hm
    | dismiss hx hm => cases hm
  obtain ⟨r, haccepted, -⟩ := answer_of_published (k := k) (j := f.result) hretires
    (hes.trans (List.append_cons ..)) (exec_append.mpr ⟨w, hpre, exec_singleton.mpr hstep⟩) hr'
    (by simp [publishedAs])
  obtain ⟨pre', c', mid', w₀, u', f', hsplit, hpre', hu', hphase', hpub, -, hunder⟩ := haccepted
  -- the publication that the answer comes from is this one
  have hnumber : w.publicationCount = w₀.publicationCount := by
    change Function.update w.publications k _ k = _ at hpub
    rw [Function.update_self, Option.some_inj] at hpub
    exact congrArg Publication.number hpub
  rcases snoc_eq_split hsplit with ⟨-, hevent⟩ | ⟨mid'', hsplit⟩
  · cases hevent
  · rcases snoc_eq_split hsplit with ⟨rfl, hevent⟩ | ⟨rest, rfl⟩
    · cases hevent
      obtain rfl : w = w₀ := Option.some.inj (hpre.symm.trans hpre')
      rw [hu, Option.some_inj] at hu'
      subst hu'
      rw [hphase] at hphase'
      cases hphase'
      exact ⟨hunder.epoch, hunder.cacheGen, hunder.toolchainGen⟩
    · obtain ⟨v, hv, hrest⟩ := exec_append.mp hpre
      obtain rfl : w₀ = v := Option.some.inj (hpre'.symm.trans hv)
      obtain ⟨v', hpublish, hrest⟩ := exec_cons.mp hrest
      have hcount := count_publish (networkTransition_of_step hpublish)
      have hle := count_exec hrest
      omega

/-! ## Runs -/

/-- At every point of a run, whatever is submitted next is answered from `published_` with results
of the current authority alone, published after every advance, if and only if counters are only
advanced while nothing is published, and results published under the counters of their frames.
SOURCE: Distributed.cpp:121-123, 205-214, 227-267 -/
theorem retiresResults_iff (host : Host) (root : Bytes) (epoch cacheGen toolchainGen : UInt64)
    {es : List NetworkEvent}
    (hrun : exec (Network.step H) (.init host root epoch cacheGen toolchainGen) es = some w) :
    RetiresResults H (.init host root epoch cacheGen toolchainGen) es ↔
      Meets (Network.step H) StaysCurrent (.init host root epoch cacheGen toolchainGen) es := by
  constructor
  · intro hretires
    refine meets_iff_forall.mpr fun pre e mid u hes hpre => ?_
    obtain ⟨v, hv, hrest⟩ := exec_append.mp (hes ▸ hrun)
    obtain rfl : u = v := Option.some.inj (hpre.symm.trans hv)
    obtain ⟨u', hstep, -⟩ := exec_cons.mp hrest
    have hr := requested_exec host root epoch cacheGen toolchainGen hpre
    have hr' := requested_exec host root epoch cacheGen toolchainGen
      (exec_append.mpr ⟨u, hpre, exec_singleton.mpr hstep⟩)
    refine ⟨advance_of_retires hretires hes hpre hstep hr hr', ?_⟩
    rintro c v f k rfl hv hphase
    exact publish_of_retires hretires hes hpre hstep hr' hv hphase
  · exact retiresResults_of_stays (.init host root epoch cacheGen toolchainGen)

/-- A check of the steps of a run. -/
def staysCurrent (w : Network) (e : NetworkEvent) : Bool :=
  ((advanced e).isNone || w.coordinator.published.isEmpty) && match e with
    | .publish c => (w.conns c).all fun u => match u.phase with
      | .keyed f _ => f.env.epoch = w.coordinator.epoch &&
          f.env.cacheGen = w.coordinator.cacheGen && f.env.toolchainGen = w.coordinator.toolchainGen
      | _ => true
    | _ => true

/-- INTERNAL: what is checked of a step leaves no outdated publication. -/
theorem staysCurrent_of_check (h : staysCurrent w e = true) : StaysCurrent w e := by
  unfold staysCurrent at h
  rw [Bool.and_eq_true, Bool.or_eq_true, Option.isNone_iff_eq_none] at h
  obtain ⟨hadvance, hpublish⟩ := h
  constructor
  · intro hadv k
    rcases hadvance with hnone | hempty
    · rw [hnone] at hadv
      cases hadv
    · rw [Std.ExtTreeMap.isEmpty_iff.mp hempty]
      exact Std.ExtTreeMap.getElem?_empty
  · rintro c u f k rfl hu hphase
    simp only [hu, Option.all_some, hphase, Bool.and_eq_true, decide_eq_true_eq] at hpublish
    exact ⟨hpublish.1.1, hpublish.1.2, hpublish.2⟩

/-- The epoch is rolled before the first result is published. -/
theorem retiresResults_first : ∃ w,
    exec (Network.step byteSum) (.init {} [] 0 1 1)
      (.rollEpoch :: (firstDispatch ++ completionSteps 0 firstAnswer)) = some w ∧
      w.publicationCount = 1 ∧ RetiresResults byteSum (.init {} [] 0 1 1)
        (.rollEpoch :: (firstDispatch ++ completionSteps 0 firstAnswer)) := by
  obtain ⟨w, hrun, hw⟩ := (Option.any_eq_true _ _).mp (show
    (exec (Network.step byteSum) (.init {} [] 0 1 1)
      (.rollEpoch :: (firstDispatch ++ completionSteps 0 firstAnswer))).any
        (fun w => w.publicationCount == 1) = true by decide +kernel)
  refine ⟨w, hrun, beq_iff_eq.mp hw, (retiresResults_iff {} [] 0 1 1 hrun).mpr ?_⟩
  exact meets_of_checks (fun _ _ => staysCurrent_of_check) (by decide +kernel)

/-- The epoch is rolled after a result is published, and the request submitted again: the answer is
the old result. -/
theorem not_answersCurrent : ∃ w, exec (Network.step byteSum) (.init {} [] 1 1 1)
      ((firstDispatch ++ completionSteps 0 firstAnswer) ++
        [.rollEpoch, .submit firstRequest 0 0]) = some w ∧
      ¬ AnswersCurrent byteSum (.init {} [] 1 1 1)
        ((firstDispatch ++ completionSteps 0 firstAnswer) ++
          [.rollEpoch, .submit firstRequest 0 0]) w := by
  obtain ⟨w, hw, hhit⟩ := (Option.any_eq_true _ _).mp (show
    (exec (Network.step byteSum) (.init {} [] 1 1 1) ((firstDispatch ++
      completionSteps 0 firstAnswer) ++ [.rollEpoch, .submit firstRequest 0 0])).any
        hitsFirst = true by decide +kernel)
  obtain ⟨w₀, hw₀, hone⟩ := (Option.any_eq_true _ _).mp (show
    (exec (Network.step byteSum) (.init {} [] 1 1 1)
      (firstDispatch ++ completionSteps 0 firstAnswer)).any onePublished = true by decide +kernel)
  refine ⟨w, hw, fun hcurrent => ?_⟩
  simp only [onePublished, Bool.and_eq_true, decide_eq_true_eq] at hone
  obtain ⟨⟨hcount, -⟩, -⟩ := hone
  unfold hitsFirst at hhit
  split at hhit
  · next x p hx hp =>
    simp only [Bool.and_eq_true, decide_eq_true_eq] at hhit
    obtain ⟨⟨⟨hphase, hxkey⟩, hpub⟩, hnumber⟩ := hhit
    obtain ⟨j, hj⟩ := Option.isSome_iff_exists.mp hpub
    have hbound : x.phase = .bound := by
      split at hphase
      · next h => exact h
      · cases hphase
    obtain ⟨-, hsince⟩ := hcurrent 1 x j hx hbound hj
    obtain ⟨p', hp', hle⟩ := hsince _ .rollEpoch [.submit firstRequest 0 0] w₀ rfl rfl hw₀
    rw [hxkey, hp, Option.some_inj] at hp'
    subst hp'
    omega
  · cases hhit

end CompilationFabric.Analysis
