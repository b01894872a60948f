import CompilationFabric.Interface.CoordinatorRuns
import CompilationFabric.Model.CoordinatorServe

/-!
# What handling one frame does

`Network.serve` is a run of steps (`exec_of_serve`).  What a CompileResult frame does depends on
whether it passes the checks in the state it arrives in (`serve_completion`).
-/

set_option autoImplicit false

namespace CompilationFabric.Interface

open CompilationFabric.Library.TransitionSystem
open CompilationFabric.Model

variable {H : Bytes → Digest} {w w' : Network} {e : NetworkEvent} {m : CoordinatorFrame}
  {s : SubmitId} {c : ConnId} {f : Completion}

/-! ## Serving is a run -/

/-- INTERNAL: steps that are taken while there is a next one are a run. -/
theorem exec_of_drain {next : Network → Option NetworkEvent} {n : ℕ}
    (h : Network.drain H next n w = some w') : ∃ es, exec (Network.step H) w es = some w' := by
  induction n generalizing w with
  | zero => exact ⟨[], h⟩
  | succ n ih =>
      rw [Network.drain] at h
      split at h
      · exact ⟨[], h⟩
      · next e he =>
        obtain ⟨w₁, hstep, hrest⟩ := Option.bind_eq_some_iff.mp h
        obtain ⟨es, hes⟩ := ih hrest
        exact ⟨e :: es, exec_cons.mpr ⟨w₁, hstep, hes⟩⟩

/-- A frame that is handled to its end is a run of steps. -/
theorem exec_of_serve (h : Network.serve H w m = some w') :
    ∃ es, exec (Network.step H) w es = some w' := by
  cases m with
  | submit r n now ok =>
      obtain ⟨es, hes⟩ := exec_of_drain h
      exact ⟨.submit r n now :: es, exec_cons.mpr ⟨_, rfl, hes⟩⟩
  | completion c f =>
      obtain ⟨w₁, hstep, hrest⟩ := Option.bind_eq_some_iff.mp h
      obtain ⟨es, hes⟩ := exec_of_drain hrest
      exact ⟨.receive c f :: es, exec_cons.mpr ⟨w₁, hstep, hes⟩⟩
  | answer s => exact ⟨[.wake s], exec_singleton.mpr h⟩
  | invalidate r => exact ⟨[.invalidate r], exec_singleton.mpr h⟩
  | rollEpoch => exact ⟨[.rollEpoch], exec_singleton.mpr h⟩
  | bumpCacheGeneration => exact ⟨[.bumpCacheGeneration], exec_singleton.mpr h⟩
  | bumpToolchainGeneration => exact ⟨[.bumpToolchainGeneration], exec_singleton.mpr h⟩
  | register env caps => exact ⟨[.register env caps], exec_singleton.mpr h⟩
  | lost c => exact ⟨[.lost c], exec_singleton.mpr h⟩
  | shutdown c => exact ⟨[.shutdown c], exec_singleton.mpr h⟩

/-- Every sequence of frames is a run of steps. -/
theorem exec_of_frames {ms : List CoordinatorFrame}
    (h : exec (Network.serve H) w ms = some w') : ∃ es, exec (Network.step H) w es = some w' := by
  induction ms generalizing w with
  | nil => exact ⟨[], h⟩
  | cons m ms ih =>
      obtain ⟨w₁, hserve, hrest⟩ := exec_cons.mp h
      obtain ⟨es, hes⟩ := exec_of_serve hserve
      obtain ⟨fs, hfs⟩ := ih hrest
      exact ⟨es ++ fs, exec_append.mpr ⟨w₁, hes, hfs⟩⟩

/-! ## A CompileResult frame -/

/-- The frame reports a success and passes every check of `rejectStalePublication`. -/
structure Accepts (m : DistributedCoordinator) (f : Completion) : Prop where
  success : f.success = true
  epoch : f.env.epoch = m.epoch
  cacheGen : f.env.cacheGen = m.cacheGen
  toolchainGen : f.env.toolchainGen = m.toolchainGen
  authorized : m.authorizes f.env = true

/-- The frame is published under the key that its request id is bound to, and counted. -/
def accept (w : Network) (c : ConnId) (u : WorkerConn) (f : Completion)
    (pending : Std.ExtTreeMap Bytes SubmitId compare) (duplicates : UInt64)
    (promises : SubmitId → Option CompilationResult) : Network :=
  let w' := publishedAs w c u f (pubKeyOf w.coordinator f.env) pending duplicates promises
  { w' with coordinator := { w'.coordinator with completed := w.coordinator.completed + 1 } }

/-- The two ways in which the handling of a CompileResult frame ends. -/
inductive Handles (w : Network) (c : ConnId) (u : WorkerConn) (f : Completion) : Network → Prop
  | accepted {pending : Std.ExtTreeMap Bytes SubmitId compare} {duplicates : UInt64}
      {promises : SubmitId → Option CompilationResult} (hacc : Accepts w.coordinator f)
      (hres : Resolves w f pending duplicates promises) :
      Handles w c u f (accept w c u f pending duplicates promises)
  | dismissed {stale : Bool} (hrefused : ¬ Accepts w.coordinator f) :
      Handles w c u f (dismiss w c u f stale)

variable {u : WorkerConn} {phase q : ConnPhase} {n : ℕ}

/-- INTERNAL: the last phase of a handler is the one that counts. -/
theorem setConn_setConn :
    (w.setConn c u phase).setConn c { u with phase } q = w.setConn c u q := by
  simp [Network.setConn]

/-- INTERNAL: where a handler has been does not show in its dismissal. -/
theorem dismiss_setConn {stale : Bool} :
    dismiss (w.setConn c u phase) c { u with phase } f stale = dismiss w c u f stale := by
  simp [dismiss, Network.finish, Network.setConn]

/-- INTERNAL: a handler takes its next step. -/
theorem drain_step
    (h : Network.drain H (Network.nextOfConn c) (n + 1) (w.setConn c u phase) = some w')
    (he : phase.next c = some e) : ∃ w₁, NetworkTransition H (w.setConn c u phase) e w₁ ∧
      Network.drain H (Network.nextOfConn c) n w₁ = some w' := by
  have hu : (w.setConn c u phase).conns c = some { u with phase } := Function.update_self ..
  have hnext : Network.nextOfConn c (w.setConn c u phase) = some e := by
    rw [Network.nextOfConn, hu]
    exact he
  rw [Network.drain, hnext] at h
  obtain ⟨w₁, hstep, hrest⟩ := Option.bind_eq_some_iff.mp h
  exact ⟨w₁, networkTransition_of_step hstep, hrest⟩

/-- INTERNAL: a handler that is back at its loop is at rest. -/
theorem drain_rest (h : Network.drain H (Network.nextOfConn c) n w = some w')
    (hu : w.conns c = some { u with phase := .idle }) : w' = w := by
  have hnext : Network.nextOfConn c w = none := by
    rw [Network.nextOfConn, hu]
    rfl
  cases n with
  | zero => exact (Option.some.inj h).symm
  | succ n =>
      rw [Network.drain, hnext] at h
      exact (Option.some.inj h).symm

/-- INTERNAL: a handler that has dismissed its frame is done. -/
theorem drain_dismissed {stale : Bool}
    (h : Network.drain H (Network.nextOfConn c) n
      (dismiss (w.setConn c u phase) c { u with phase } f stale) = some w') :
    w' = dismiss w c u f stale := by
  rw [dismiss_setConn] at h
  exact drain_rest h (Function.update_self ..)

/-- INTERNAL: the connection of a handler at one of its steps. -/
theorem conn_of_setConn {v : WorkerConn} (hv : (w.setConn c u phase).conns c = some v) :
    v = { u with phase } := by
  have hu : (w.setConn c u phase).conns c = some { u with phase } := Function.update_self ..
  exact Option.some.inj (hv.symm.trans hu)

/-- One comparison with a counter.
SOURCE: Distributed.cpp:162-163 -/
theorem drain_check {next : AuthorityCheck}
    (h : Network.drain H (Network.nextOfConn c) (n + 1)
      (w.setConn c u (.checking f next)) = some w') (hnext : next ≠ .registry) :
    (w.coordinator.counterMatches f.env next = false ∧ ∃ stale, w' = dismiss w c u f stale) ∨
    (w.coordinator.counterMatches f.env next = true ∧
      Network.drain H (Network.nextOfConn c) n (w.setConn c u (.checking f next.next)) =
        some w') := by
  have he : ConnPhase.next c (.checking f next) = some (.check c) := by
    cases next <;> first | rfl | exact absurd rfl hnext
  obtain ⟨w₁, htrans, hrest⟩ := drain_step h he
  cases htrans with
  | move hx hm => cases hm
  | handle hv hm =>
      cases hm with
      | checked hphase hnext' hmatch =>
          obtain rfl := conn_of_setConn hv
          cases hphase
          rw [setConn_setConn] at hrest
          exact .inr ⟨hmatch, hrest⟩
  | dismiss hv hm =>
      cases hm with
      | counter hphase hnext' hmatch =>
          obtain rfl := conn_of_setConn hv
          cases hphase
          exact .inl ⟨hmatch, _, drain_dismissed hrest⟩

/-- The check under the lock.
SOURCE: Distributed.cpp:164-176, 196-198 -/
theorem drain_registry
    (h : Network.drain H (Network.nextOfConn c) (n + 1)
      (w.setConn c u (.checking f .registry)) = some w') :
    ((f.success = false ∨ w.coordinator.authorizes f.env = false) ∧
      ∃ stale, w' = dismiss w c u f stale) ∨
    (f.success = true ∧ w.coordinator.authorizes f.env = true ∧
      Network.drain H (Network.nextOfConn c) n (w.setConn c u (.accepted f)) = some w') := by
  obtain ⟨w₁, htrans, hrest⟩ := drain_step h (rfl : ConnPhase.next c (.checking f .registry) = some (.authorize c))
  cases htrans with
  | move hx hm => cases hm
  | handle hv hm =>
      cases hm with
      | accepted hphase hauth hsuccess =>
          obtain rfl := conn_of_setConn hv
          cases hphase
          rw [setConn_setConn] at hrest
          exact .inr ⟨hsuccess, hauth, hrest⟩
  | dismiss hv hm =>
      cases hm with
      | unauthorized hphase hauth =>
          obtain rfl := conn_of_setConn hv
          cases hphase
          exact .inl ⟨.inr hauth, _, drain_dismissed hrest⟩
      | failure hphase hauth hsuccess =>
          obtain rfl := conn_of_setConn hv
          cases hphase
          exact .inl ⟨.inl hsuccess, _, drain_dismissed hrest⟩

/-- A frame that has passed every check is published.
SOURCE: Distributed.cpp:199-214 -/
theorem drain_accepted
    (h : Network.drain H (Network.nextOfConn c) (n + 2) (w.setConn c u (.accepted f)) = some w') :
    ∃ pending duplicates promises, Resolves w f pending duplicates promises ∧
      w' = accept w c u f pending duplicates promises := by
  obtain ⟨w₁, htrans, hrest⟩ := drain_step h (rfl : ConnPhase.next c (.accepted f) = some (.resolve c))
  cases htrans with
  | move hx hm => cases hm
  | handle hv hm => cases hm
  | dismiss hv hm => cases hm
  | resolve hv hphase =>
      obtain rfl := conn_of_setConn hv
      cases hphase
      -- the frame is counted, and its key is read
      have hcounted : resolved (w.setConn c u (.accepted f)) c
          { u with phase := .accepted f } f =
          ({ w with coordinator := { w.coordinator with
              completed := w.coordinator.completed + 1 } } : Network).setConn c u
            (.keyed f (pubKeyOf w.coordinator f.env)) := by
        simp [resolved, Network.setConn]
      rw [hcounted] at hrest
      obtain ⟨w₂, htrans, hrest⟩ := drain_step hrest
        (rfl : ConnPhase.next c (.keyed f (pubKeyOf w.coordinator f.env)) = some (.publish c))
      cases htrans with
      | move hx hm => cases hm
      | handle hv hm => cases hm
      | dismiss hv hm => cases hm
      | @publish _ _ _ _ pending duplicates promises hv hphase hres =>
          obtain rfl := conn_of_setConn hv
          cases hphase
          have hidle := drain_rest hrest (Function.update_self ..)
          refine ⟨pending, duplicates, promises, ?_, ?_⟩
          · cases hres with
            | pending hs => exact .pending hs
            | duplicate hnone => exact .duplicate hnone
          · rw [hidle]
            simp [publishedAs, accept, Network.finish, Network.setConn]

/-- A CompileResult frame is published if it is accepted, and dismissed otherwise; either way the
handler is back at its loop.
SOURCE: Distributed.cpp:161-214 -/
theorem serve_completion (h : Network.serve H w (.completion c f) = some w') :
    ∃ u, w.conns c = some u ∧ u.phase = .idle ∧
      (∀ d, f.answers = some d → w.answers c f d = true) ∧ Handles w c u f w' := by
  obtain ⟨w₁, hstep, hrest⟩ := Option.bind_eq_some_iff.mp h
  have htrans := networkTransition_of_step hstep
  cases htrans with
  | move hx hm => cases hm
  | dismiss hv hm => cases hm
  | @handle c u e p hu hm =>
  cases hm with
  | receive hphase hanswers =>
  refine ⟨u, hu, hphase, hanswers, ?_⟩
  have hcounter : ∀ {check}, w.coordinator.counterMatches f.env check = false →
      ¬ Accepts w.coordinator f := by
    intro check hno hacc
    cases check with
    | epoch => simp [DistributedCoordinator.counterMatches, hacc.epoch] at hno
    | cacheGen => simp [DistributedCoordinator.counterMatches, hacc.cacheGen] at hno
    | toolchainGen => simp [DistributedCoordinator.counterMatches, hacc.toolchainGen] at hno
    | registry => cases hno
  obtain ⟨hno, stale, rfl⟩ | ⟨hepoch, hrest⟩ := drain_check hrest (by simp)
  · exact .dismissed (hcounter hno)
  obtain ⟨hno, stale, rfl⟩ | ⟨hcache, hrest⟩ := drain_check hrest (by simp [AuthorityCheck.next])
  · exact .dismissed (hcounter hno)
  obtain ⟨hno, stale, rfl⟩ | ⟨htoolchain, hrest⟩ :=
    drain_check hrest (by simp [AuthorityCheck.next])
  · exact .dismissed (hcounter hno)
  obtain ⟨hno, stale, rfl⟩ | ⟨hsuccess, hauth, hrest⟩ := drain_registry hrest
  · apply Handles.dismissed
    intro hacc
    obtain hno | hno := hno
    · rw [hacc.success] at hno
      cases hno
    · rw [hacc.authorized] at hno
      cases hno
  · obtain ⟨pending, duplicates, promises, hres, rfl⟩ := drain_accepted hrest
    exact .accepted
      { success := hsuccess
        epoch := of_decide_eq_true hepoch
        cacheGen := of_decide_eq_true hcache
        toolchainGen := of_decide_eq_true htoolchain
        authorized := hauth } hres

end CompilationFabric.Interface
