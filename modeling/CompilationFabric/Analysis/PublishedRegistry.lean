import CompilationFabric.Interface.CoordinatorRuns
import CompilationFabric.Library.Registry

/-!
# The coordinator refines a registry

`published_` is a registry too: a worker's result is published under a key until an Invalidate
frame names the key, and a Submit is served what is there.  The registry is seen by the frames that
come and go (`observeNetwork`), and by them alone one can tell what the next Submit is served.

The registry has no part in what a waiting client is sent: its promise is kept by the step that
publishes, under whatever key.  So where a client's result comes from is a second invariant
(`Stems`): it is a result that some worker was seen to publish, and nothing else is ever sent.
-/

set_option autoImplicit false

namespace CompilationFabric.Analysis

open CompilationFabric.Library.TransitionSystem
open CompilationFabric.Library.Registry
open CompilationFabric.Model
open CompilationFabric.Interface

variable {H : Bytes → Digest} {w w' : Network} {e : NetworkEvent} {es : List NetworkEvent}
  {s : SubmitId} {x : Submit}

/-! ## What is seen -/

/-- What a client is sent for a published result.
SOURCE: Distributed.cpp:260-261 -/
def servedResult (j : Json) : CompilationResult := { resultFromJson j with reused := true }

/-- What can be seen of a coordinator's registry. -/
abbrev NetworkAct := Act Bytes Json CompilationResult

/-- The registry of the model. -/
abbrev NetworkStep := Step (K := Bytes) servedResult

/-- What is published under a key. -/
def publishedOf (w : Network) : Bytes → Option Json := fun k => w.coordinator.published[k]?

/-- A lookup, by the phase it leads to. -/
def seenOfLookup (x : Submit) : NetworkAct :=
  match x.phase with
  | .replied (.result res) => .serve x.keyHex res
  | .missed => .miss x.keyHex
  | _ => .silent

/-- A publication, by the frame that the handler is at. -/
def seenOfPublish (u : WorkerConn) : NetworkAct :=
  match u.phase with
  | .keyed f pubKey => .publish pubKey f.result
  | _ => .silent

/-- What is seen of a step. -/
def observeNetwork (w : Network) (e : NetworkEvent) (w' : Network) : NetworkAct :=
  match e with
  | .lookup s => ((w'.submits s).map seenOfLookup).getD .silent
  | .publish c => ((w.conns c).map seenOfPublish).getD .silent
  | .invalidate r => .retire fun k _ => k = r.toHex
  | _ => .silent

/-! ## One step -/

/-- A Submit that has arrived is seen when it looks up. -/
theorem networkStep_of_move {phase : SubmitPhase} (h : SubmitMoves w s x e phase) :
    NetworkStep (publishedOf w) (observeNetwork w e (w.setPhase s x phase)) (publishedOf w) := by
  have hsubmit : (w.setPhase s x phase).submits s = some { x with phase } := by
    simp [Network.setPhase]
  cases h with
  | @hit j hphase hpub =>
      simp only [observeNetwork, hsubmit, Option.map_some, Option.getD_some, seenOfLookup]
      exact ⟨⟨j, hpub, rfl⟩, rfl⟩
  | miss hphase hpub =>
      simp only [observeNetwork, hsubmit, Option.map_some, Option.getD_some, seenOfLookup]
      exact ⟨hpub, rfl⟩
  | _ => exact ⟨trivial, rfl⟩

/-- A publication is seen with its key. -/
theorem observeNetwork_publish {c : ConnId} {u : WorkerConn} {f : Completion} {pubKey : Bytes}
    (hu : w.conns c = some u) (hphase : u.phase = .keyed f pubKey) :
    observeNetwork w (.publish c) w' = .publish pubKey f.result := by
  simp [observeNetwork, hu, seenOfPublish, hphase]

/-- INTERNAL: a publication updates the registry at its key. -/
theorem publishedOf_insert {m : DistributedCoordinator} {k : Bytes} {j : Json}
    (hm : w'.coordinator.published = m.published.insert k j) :
    publishedOf w' = Function.update (fun k => m.published[k]?) k (some j) := by
  funext k'
  unfold publishedOf
  rw [hm, Std.ExtTreeMap.getElem?_insert]
  by_cases hk : k' = k
  · rw [hk, Function.update_self, if_pos (Std.LawfulEqOrd.compare_eq_iff_eq.mpr rfl)]
  · rw [Function.update_of_ne hk, if_neg fun h =>
      hk (Std.LawfulEqOrd.compare_eq_iff_eq.mp h).symm]

/-- INTERNAL: an invalidation takes out the key of the request id's text. -/
theorem publishedOf_invalidate {r : CompilationRequestId} :
    publishedOf (w.invalidate r) =
      fun k => (publishedOf w k).filter fun _ => !decide (k = r.toHex) := by
  funext k
  unfold publishedOf Network.invalidate
  simp only [Std.ExtTreeMap.getElem?_erase]
  by_cases hk : k = r.toHex
  · simp [hk]
  · rw [if_neg fun h => hk (Std.LawfulEqOrd.compare_eq_iff_eq.mp h).symm]
    cases w.coordinator.published[k]? <;> simp [hk, Option.filter]

/-- Every step is an act of the registry. -/
theorem networkStep_of_transition (h : NetworkTransition H w e w') :
    NetworkStep (publishedOf w) (observeNetwork w e w') (publishedOf w') := by
  cases h with
  | move _ h => exact networkStep_of_move h
  | publish hu hphase h =>
      rw [observeNetwork_publish hu hphase]
      exact ⟨trivial, publishedOf_insert rfl⟩
  | invalidate => exact ⟨trivial, publishedOf_invalidate⟩
  | handle hu h => cases h <;> exact ⟨trivial, rfl⟩
  | dismiss hu h => cases h <;> exact ⟨trivial, rfl⟩
  | _ => exact ⟨trivial, rfl⟩

/-- The coordinator simulates the registry. -/
theorem network_simulates (H : Bytes → Digest) :
    Simulates (Network.step H) observeNetwork NetworkStep publishedOf fun _ => True where
  keeps _ _ _ _ _ := trivial
  simulates _ _ _ hstep _ := networkStep_of_transition (networkTransition_of_step hstep)

/-! ## What clients are sent -/

/-- The result is one that was published. -/
def Published (acts : List NetworkAct) (j : Json) : Prop := ∃ k, .publish k j ∈ acts

/-- What is kept for a client, and what one has been sent, was published. -/
structure Stems (acts : List NetworkAct) (w : Network) : Prop where
  published : ∀ (k : Bytes) (j : Json), w.coordinator.published[k]? = some j → Published acts j
  promises : ∀ s res, w.promises s = some res → ∃ j, Published acts j ∧ res = resultFromJson j
  sent : ∀ s x res, w.submits s = some x → x.phase = .replied (.result res) →
    ∃ j, Published acts j ∧ (res = resultFromJson j ∨ res = servedResult j)

variable {acts : List NetworkAct}

/-- INTERNAL: what was published stays so after another act. -/
theorem Published.append {j : Json} {act : NetworkAct} (h : Published acts j) :
    Published (acts ++ [act]) j := by
  obtain ⟨k, hk⟩ := h
  exact ⟨k, List.mem_append_left _ hk⟩

/-- INTERNAL: a publication publishes. -/
theorem published_of_publish {c : ConnId} {u : WorkerConn} {f : Completion} {pubKey : Bytes}
    (hu : w.conns c = some u) (hphase : u.phase = .keyed f pubKey) :
    Published (acts ++ [observeNetwork w (.publish c) w']) f.result := by
  rw [observeNetwork_publish hu hphase]
  exact ⟨pubKey, by simp⟩

namespace Stems

/-- INTERNAL: one step keeps the results to what was published. -/
theorem published_step (hs : Stems acts w) (h : NetworkTransition H w e w') :
    ∀ (k : Bytes) (j : Json), w'.coordinator.published[k]? = some j →
      Published (acts ++ [observeNetwork w e w']) j := by
  intro k j hj
  obtain ⟨hsame, -, -⟩ | ⟨r, -, rfl⟩ | ⟨c, u, f, pubKey, _, _, _, rfl, hu, hphase, -, rfl⟩ :=
    published_cases h
  · rw [hsame] at hj
    exact (hs.published k j hj).append
  · have hkept : publishedOf (w.invalidate r) k = some j := hj
    rw [publishedOf_invalidate] at hkept
    exact (hs.published k j (Option.filter_eq_some_iff.mp hkept).1).append
  · have hinsert : publishedOf (publishedAs w c u f pubKey _ _ _) k = some j := hj
    rw [publishedOf_insert rfl] at hinsert
    by_cases hk : k = pubKey
    · rw [hk, Function.update_self, Option.some_inj] at hinsert
      exact hinsert ▸ published_of_publish hu hphase
    · rw [Function.update_of_ne hk] at hinsert
      exact (hs.published k j hinsert).append

/-- INTERNAL: one step keeps the promises to what was published. -/
theorem promises_step (hs : Stems acts w) (h : NetworkTransition H w e w') :
    ∀ s res, w'.promises s = some res →
      ∃ j, Published (acts ++ [observeNetwork w e w']) j ∧ res = resultFromJson j := by
  intro s res hres
  obtain hold | ⟨c, u, f, pubKey, rfl, hu, hphase, -, rfl⟩ := promise_cases h hres
  · obtain ⟨j, hj, hresult⟩ := hs.promises s res hold
    exact ⟨j, hj.append, hresult⟩
  · exact ⟨f.result, published_of_publish hu hphase, rfl⟩

/-- INTERNAL: one step keeps the replies to what was published. -/
theorem sent_step (hs : Stems acts w) (h : NetworkTransition H w e w') :
    ∀ s x res, w'.submits s = some x → x.phase = .replied (.result res) →
      ∃ j, Published (acts ++ [observeNetwork w e w']) j ∧
        (res = resultFromJson j ∨ res = servedResult j) := by
  intro s x' res hx' hreplied
  obtain hx | ⟨x, p, hx, rfl, hsteps⟩ | ⟨-, hphase, -⟩ := submit_cases h hx'
  · obtain ⟨j, hj, hresult⟩ := hs.sent s x' res hx hreplied
    exact ⟨j, hj.append, hresult⟩
  · cases hsteps with
    | move hmove =>
        cases hmove with
        | @hit j hphase hpub =>
            cases hreplied
            exact ⟨j, (hs.published _ j hpub).append, .inr rfl⟩
        | @wake res' hphase hres =>
            obtain ⟨j, hj, rfl⟩ := hs.promises s res' hres
            by_cases hok : (resultFromJson j).error = .Ok
            · simp only [hok, if_true, SubmitPhase.replied.injEq, Reply.result.injEq] at hreplied
              exact ⟨j, hj.append, .inl hreplied.symm⟩
            · simp [hok] at hreplied
        | _ => cases hreplied
    | _ => cases hreplied
  · rw [hphase] at hreplied
    cases hreplied

/-- Every step keeps all results to what was published. -/
theorem step (hs : Stems acts w) (h : NetworkTransition H w e w') :
    Stems (acts ++ [observeNetwork w e w']) w' where
  published := hs.published_step h
  promises := hs.promises_step h
  sent := hs.sent_step h

/-- A fresh coordinator has published nothing. -/
theorem init (host : Host) (root : Bytes) (epoch cacheGen toolchainGen : UInt64) :
    Stems [] (.init host root epoch cacheGen toolchainGen) where
  published k j hj := by
    change (∅ : Std.ExtTreeMap Bytes Json compare)[k]? = some j at hj
    simp at hj
  promises _ _ h := by cases h
  sent _ _ _ h := by cases h

/-- Every run, with what is seen of it. -/
theorem exec (hs : Stems acts w) (hexec : exec (Network.step H) w es = some w') :
    Stems (acts ++ labels (Network.step H) observeNetwork w es) w' := by
  induction es generalizing w acts with
  | nil =>
      rw [exec_nil, Option.some_inj] at hexec
      subst hexec
      simpa [labels] using hs
  | cons e es ih =>
      obtain ⟨u, hu, hrest⟩ := exec_cons.mp hexec
      have hrun := ih (hs.step (networkTransition_of_step hu)) hrest
      rw [List.append_assoc, List.singleton_append] at hrun
      simpa [labels, hu] using hrun

end Stems

/-! ## Every run -/

/-- What has been seen of a coordinator. -/
def seenOfNetwork (H : Bytes → Digest) (host : Host) (root : Bytes)
    (epoch cacheGen toolchainGen : UInt64) (es : List NetworkEvent) : List NetworkAct :=
  labels (Network.step H) observeNetwork (.init host root epoch cacheGen toolchainGen) es

/-- After what has been seen, the coordinator does what a registry does: a Submit that looks up is
served the current result of its key, and misses where there is none, and no client has been sent
a result that no worker published. -/
structure RefinesPublished (H : Bytes → Digest) (acts : List NetworkAct) (w : Network) : Prop where
  path : Path NetworkStep (fun _ => none) acts (publishedOf w)
  current : ∀ k j, publishedOf w k = some j ↔ Current acts k j
  served : ∀ s x w' j, w.submits s = some x → Network.step H w (.lookup s) = some w' →
    Current acts x.keyHex j → observeNetwork w (.lookup s) w' = .serve x.keyHex (servedResult j)
  missed : ∀ s x w', w.submits s = some x → Network.step H w (.lookup s) = some w' →
    (∀ j, ¬ Current acts x.keyHex j) → observeNetwork w (.lookup s) w' = .miss x.keyHex
  sent : ∀ s x res, w.submits s = some x → x.phase = .replied (.result res) →
    ∃ j, Published acts j ∧ (res = resultFromJson j ∨ res = servedResult j)

/-- A lookup serves what is published and misses otherwise. -/
theorem observeNetwork_lookup (hx : w.submits s = some x)
    (h : NetworkTransition H w (.lookup s) w') :
    observeNetwork w (.lookup s) w' =
      match publishedOf w x.keyHex with
      | some j => .serve x.keyHex (servedResult j)
      | none => .miss x.keyHex := by
  cases h with
  | @move _ y _ phase hy h =>
      cases h with
      | hit hphase hpub =>
          rw [hx, Option.some_inj] at hy
          subst hy
          rw [show publishedOf w x.keyHex = _ from hpub]
          simp [observeNetwork, Network.setPhase, seenOfLookup, servedResult]
      | miss hphase hpub =>
          rw [hx, Option.some_inj] at hy
          subst hy
          rw [show publishedOf w x.keyHex = _ from hpub]
          simp [observeNetwork, Network.setPhase, seenOfLookup]
  | handle hu h => cases h
  | dismiss hu h => cases h

/-- In every run of a coordinator, whatever the interleaving of its threads.
SOURCE: Distributed.cpp:199-214, 241-245, 257-267, 289-295 -/
theorem coordinator_refines_registry (H : Bytes → Digest) (host : Host) (root : Bytes)
    (epoch cacheGen toolchainGen : UInt64) (es : List NetworkEvent) (w : Network)
    (hexec : exec (Network.step H) (.init host root epoch cacheGen toolchainGen) es = some w) :
    RefinesPublished H (seenOfNetwork H host root epoch cacheGen toolchainGen es) w := by
  have hpath := (network_simulates H).path trivial hexec
  have hempty : publishedOf (.init host root epoch cacheGen toolchainGen) = fun _ => none := by
    funext k
    change (∅ : Std.ExtTreeMap Bytes Json compare)[k]? = none
    simp
  rw [hempty] at hpath
  have hsent := ((Stems.init host root epoch cacheGen toolchainGen).exec hexec).sent
  refine ⟨hpath, fun k j => current_iff hpath, ?_, ?_, hsent⟩
  · intro s x w' j hx hstep hj
    rw [observeNetwork_lookup hx (networkTransition_of_step hstep), (current_iff hpath).mpr hj]
  · intro s x w' hx hstep hnone
    have hmiss : publishedOf w x.keyHex = none := by
      apply Option.eq_none_iff_forall_ne_some.mpr
      intro j hj
      exact hnone j ((current_iff hpath).mp hj)
    rw [observeNetwork_lookup hx (networkTransition_of_step hstep), hmiss]

/-- A result is published, its client woken, and the next Submit of the key served it. -/
def servedTwice : List NetworkEvent :=
  firstDispatch ++ completionSteps 0 firstAnswer ++ [.wake 0, .submit firstRequest 0 0, .lookup 1]

/-- One result, served twice. -/
theorem coordinator_refines_registry_twice : ∃ w,
    exec (Network.step byteSum) (.init {} [] 1 1 1) servedTwice = some w ∧
      RefinesPublished byteSum (seenOfNetwork byteSum {} [] 1 1 1 servedTwice) w := by
  obtain ⟨w, hrun⟩ := Option.isSome_iff_exists.mp (show (exec (Network.step byteSum)
    (.init {} [] 1 1 1) servedTwice).isSome = true by decide +kernel)
  exact ⟨w, hrun, coordinator_refines_registry byteSum {} [] 1 1 1 servedTwice w hrun⟩

end CompilationFabric.Analysis
