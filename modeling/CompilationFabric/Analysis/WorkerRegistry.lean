import CompilationFabric.Interface.CoordinatorTransition

/-!
# The worker registry

`workers_` and `workerChannels_` under any order of registrations, orderly shutdowns and lost
connections.  The handler erases by worker id when its connection is lost and does not erase
at all on a Shutdown frame; so the entries of an id stay those of its latest registration
that still runs exactly as long as no replaced connection is lost and every connection that
shuts down has been replaced.
-/

set_option autoImplicit false

namespace CompilationFabric.Analysis

open CompilationFabric.Library.TransitionSystem
open CompilationFabric.Model
open CompilationFabric.Interface

variable {H : Bytes → Digest} {w w' : Network} {e : NetworkEvent} {c : ConnId} {id : WorkerId}

/-! ## The invariant -/

/-- The handler of a connection that registered the id is running. -/
def RunsAs (w : Network) (c : ConnId) (id : WorkerId) : Prop :=
  ∃ x, w.conns c = some x ∧ x.phase.running = true ∧ x.env.workerId = id

/-- The two maps have the same ids, and the channel of an id is that of its latest
registration that is running. -/
structure RegistryOk (w : Network) : Prop where
  ids : ∀ id : WorkerId, id ∈ w.coordinator.workers ↔ id ∈ w.coordinator.workerChannels
  latest : ∀ (id : WorkerId) (c : ConnId), w.coordinator.workerChannels[id]? = some c →
    RunsAs w c id ∧ ∀ c', RunsAs w c' id → c' ≤ c

/-- The connection whose handler returns in an event. -/
def endOf : NetworkEvent → Option ConnId
  | .lost c => some c
  | .shutdown c => some c
  | _ => none

/-- The end of a connection leaves the entries of a newer one alone. -/
def SparesNewer (w : Network) (e : NetworkEvent) (w' : Network) : Prop :=
  ∀ c, endOf e = some c → ∀ (id : WorkerId) (c' : ConnId), c < c' →
    w.coordinator.workerChannels[id]? = some c' →
    w'.coordinator.workerChannels[id]? = some c' ∧
      w'.coordinator.workers[id]? = w.coordinator.workers[id]?

/-- The step keeps the registry, and what it ends leaves newer entries alone. -/
def KeepsRegistry (H : Bytes → Digest) (w : Network) (e : NetworkEvent) : Prop :=
  ∀ w', Network.step H w e = some w' → RegistryOk w' ∧ SparesNewer w e w'

/-- A connection that is lost has not been replaced, and one that shuts down has. -/
def EndsInOrder (w : Network) (e : NetworkEvent) : Prop :=
  match e with
  | .lost c => ∀ x, w.conns c = some x →
      ∀ c', w.coordinator.workerChannels[x.env.workerId]? = some c' → c' = c
  | .shutdown c => ∀ x, w.conns c = some x →
      w.coordinator.workerChannels[x.env.workerId]? ≠ some c
  | _ => True

/-! ## What a step does to the registry -/

/-- The numbers of connections to come are not taken. -/
def FreshConns (w : Network) : Prop := ∀ c, w.nextConn ≤ c → w.conns c = none

/-- INTERNAL: a connection that moves on runs as the worker it ran as. -/
theorem runsAs_setConn {x : WorkerConn} {phase : ConnPhase} (hx : w.conns c = some x)
    (hrunning : x.phase.running = true) (hphase : phase.running = true) (d : ConnId) :
    RunsAs (w.setConn c x phase) d id ↔ RunsAs w d id := by
  by_cases hd : d = c
  · subst hd
    simp [RunsAs, Network.setConn, hx, hrunning, hphase]
  · simp [RunsAs, Network.setConn, Function.update_of_ne hd]

/-- INTERNAL: a connection that moves on is none of the fresh ones. -/
theorem freshConns_setConn {x : WorkerConn} {phase : ConnPhase} (hx : w.conns c = some x)
    (hw : FreshConns w) : FreshConns (w.setConn c x phase) := by
  intro d hd
  have hne : d ≠ c := by
    rintro rfl
    rw [hw d hd] at hx
    cases hx
  exact (Function.update_of_ne hne _ _).trans (hw d hd)

/-- Every step keeps the later connections fresh. -/
theorem freshConns_of_transition (hw : FreshConns w) (h : NetworkTransition H w e w') :
    FreshConns w' := by
  cases h with
  | register =>
      intro d hd
      have hlt : w.nextConn < d := hd
      exact (Function.update_of_ne hlt.ne' _ _).trans (hw d hlt.le)
  | handle hx h => exact freshConns_setConn hx hw
  | dismiss hx h => exact freshConns_setConn (w := w) hx hw
  | resolve hx hphase => exact freshConns_setConn (w := w) hx hw
  | publish hx hphase h => exact freshConns_setConn (w := w) hx hw
  | lost hx hphase => exact freshConns_setConn (w := w) hx hw
  | shutdown hx hphase => exact freshConns_setConn (w := w) hx hw
  | _ => exact hw

/-- Only registrations and ends of connections touch the registry. -/
theorem registry_of_transition (h : NetworkTransition H w e w') (hend : endOf e = none)
    (hreg : ∀ env caps, e ≠ .register env caps) :
    w'.coordinator.workers = w.coordinator.workers ∧
      w'.coordinator.workerChannels = w.coordinator.workerChannels ∧
      ∀ c id, RunsAs w' c id ↔ RunsAs w c id := by
  cases h with
  | @handle c x e phase hx h =>
      exact ⟨rfl, rfl, fun d _ => runsAs_setConn hx h.running.1 h.running.2 d⟩
  | @dismiss c x f e stale hx h =>
      have hrunning : x.phase.running = true := by
        obtain ⟨next, hphase⟩ := h.checking
        rw [hphase]
        rfl
      exact ⟨rfl, rfl, fun d _ => runsAs_setConn (w := w) hx hrunning rfl d⟩
  | resolve hx hphase =>
      exact ⟨rfl, rfl, fun d _ => runsAs_setConn (w := w) hx (by rw [hphase]; rfl) rfl d⟩
  | publish hx hphase h =>
      exact ⟨rfl, rfl, fun d _ => runsAs_setConn (w := w) hx (by rw [hphase]; rfl) rfl d⟩
  | register => exact absurd rfl (hreg _ _)
  | lost hx hphase => cases hend
  | shutdown hx hphase => cases hend
  | _ => exact ⟨rfl, rfl, fun _ _ => Iff.rfl⟩

/-- INTERNAL: a step that changes neither the maps nor the connections. -/
theorem RegistryOk.of_same (hw : RegistryOk w)
    (hsame : w'.coordinator.workers = w.coordinator.workers ∧
      w'.coordinator.workerChannels = w.coordinator.workerChannels ∧
      ∀ c id, RunsAs w' c id ↔ RunsAs w c id) : RegistryOk w' where
  ids := by
    rw [hsame.1, hsame.2.1]
    exact hw.ids
  latest := by
    intro id c hc
    rw [hsame.2.1] at hc
    obtain ⟨hruns, hle⟩ := hw.latest id c hc
    exact ⟨(hsame.2.2 c id).mpr hruns, fun c' hc' => hle c' ((hsame.2.2 c' id).mp hc')⟩

/-- A registration is the latest of its id. -/
theorem RegistryOk.register {env : ProtoEnvelope} {caps : Json} (hw : RegistryOk w)
    (hfresh : FreshConns w) : RegistryOk (w.register env caps) where
  ids := by
    intro id
    simp only [Network.register, Std.ExtTreeMap.mem_insert, hw.ids id]
  latest := by
    intro id c hc
    have hold : ∀ d id, d ≠ w.nextConn →
        (RunsAs (w.register env caps) d id ↔ RunsAs w d id) := by
      intro d id hd
      simp [RunsAs, Network.register, Function.update_of_ne hd]
    have hlt : ∀ d id, RunsAs w d id → d < w.nextConn := by
      rintro d id ⟨x, hx, -⟩
      by_contra hge
      rw [hfresh d (not_lt.mp hge)] at hx
      cases hx
    simp only [Network.register, Std.ExtTreeMap.getElem?_insert] at hc
    split at hc
    · next heq =>
      obtain rfl : env.workerId = id := by simpa using heq
      obtain rfl : w.nextConn = c := Option.some.inj hc
      refine ⟨⟨_, Function.update_self .., rfl, rfl⟩, fun d hd => ?_⟩
      by_cases hne : d = w.nextConn
      · exact hne.le
      · exact (hlt d _ ((hold d _ hne).mp hd)).le
    · next hne =>
      obtain ⟨hruns, hle⟩ := hw.latest id c hc
      refine ⟨(hold c id (hlt c id hruns).ne).mpr hruns, fun d hd => ?_⟩
      by_cases hd' : d = w.nextConn
      · subst hd'
        obtain ⟨x, hx, -, hid⟩ := hd
        simp only [Network.register, Function.update_self, Option.some.injEq] at hx
        subst hx
        exact absurd (by simpa using hid) hne
      · exact hle d ((hold d id hd').mp hd)

/-- The connections that run after one has ended. -/
theorem runsAs_ended {x : WorkerConn} {d : ConnId} {u : Network}
    (hu : u.conns = Function.update w.conns c (some { x with phase := .ended })) :
    RunsAs u d id ↔ d ≠ c ∧ RunsAs w d id := by
  by_cases hd : d = c
  · subst hd
    simp [RunsAs, hu, ConnPhase.running]
  · simp [RunsAs, hu, hd]

/-- A lost connection takes the entries of its id with it. -/
theorem lost_iff {x : WorkerConn} (hw : RegistryOk w) (hx : w.conns c = some x)
    (hphase : x.phase = .idle) :
    RegistryOk (disconnected w c x) ∧ SparesNewer w (.lost c) (disconnected w c x) ↔
      ∀ c', w.coordinator.workerChannels[x.env.workerId]? = some c' → c' = c := by
  have hruns : RunsAs w c x.env.workerId := ⟨x, hx, by rw [hphase]; rfl, rfl⟩
  constructor
  · rintro ⟨-, hspares⟩ c' hc'
    by_contra hne
    have hlt : c < c' := lt_of_le_of_ne ((hw.latest _ _ hc').2 c hruns) (Ne.symm hne)
    have hkept := (hspares c rfl _ _ hlt hc').1
    simp [disconnected] at hkept
  · intro honly
    constructor
    · constructor
      · intro id
        simp only [disconnected, Std.ExtTreeMap.mem_erase, hw.ids id]
      · intro id d hd
        simp only [disconnected, Std.ExtTreeMap.getElem?_erase] at hd
        split at hd
        · cases hd
        · next hne =>
          obtain ⟨hdruns, hle⟩ := hw.latest id d hd
          have hdc : d ≠ c := by
            rintro rfl
            obtain ⟨y, hy, -, hid⟩ := hdruns
            rw [hx, Option.some_inj] at hy
            subst hy
            exact hne (by simp [hid])
          refine ⟨(runsAs_ended rfl).mpr ⟨hdc, hdruns⟩, fun d' hd' => ?_⟩
          exact hle d' ((runsAs_ended rfl).mp hd').2
    · rintro d hd id c' hlt hc'
      obtain rfl : c = d := Option.some.inj hd
      have hne : id ≠ x.env.workerId := by
        rintro rfl
        exact hlt.ne' (honly c' hc')
      have hcmp : compare x.env.workerId id ≠ .eq := by
        simpa using Ne.symm hne
      simp [disconnected, Std.ExtTreeMap.getElem?_erase, hcmp, hc']

/-- A connection that shuts down leaves the maps as they are. -/
theorem shutdown_iff {x : WorkerConn} (hw : RegistryOk w) (hx : w.conns c = some x) :
    RegistryOk (w.setConn c x .ended) ∧ SparesNewer w (.shutdown c) (w.setConn c x .ended) ↔
      w.coordinator.workerChannels[x.env.workerId]? ≠ some c := by
  constructor
  · rintro ⟨hok, -⟩ hc
    obtain ⟨hruns, -⟩ := hok.latest x.env.workerId c hc
    exact ((runsAs_ended rfl).mp hruns).1 rfl
  · intro hnot
    refine ⟨⟨hw.ids, ?_⟩, fun _ _ _ _ _ hc' => ⟨hc', rfl⟩⟩
    intro id d hd
    obtain ⟨hdruns, hle⟩ := hw.latest id d hd
    have hdc : d ≠ c := by
      rintro rfl
      obtain ⟨y, hy, -, hid⟩ := hdruns
      rw [hx, Option.some_inj] at hy
      subst hy
      rw [hid] at hnot
      exact hnot hd
    exact ⟨(runsAs_ended rfl).mpr ⟨hdc, hdruns⟩,
      fun d' hd' => hle d' ((runsAs_ended rfl).mp hd').2⟩

/-! ## Runs -/

/-- From a state that is in order, a step keeps the registry exactly when what it ends is in
order. -/
theorem keepsRegistry_iff (hw : RegistryOk w) (hfresh : FreshConns w)
    (hstep : Network.step H w e = some w') : KeepsRegistry H w e ↔ EndsInOrder w e := by
  have hdet : KeepsRegistry H w e ↔ RegistryOk w' ∧ SparesNewer w e w' := by
    constructor
    · exact fun h => h w' hstep
    · intro h u hu
      rw [hstep, Option.some_inj] at hu
      exact hu ▸ h
  rw [hdet]
  have htrans := networkTransition_of_step hstep
  by_cases hend : endOf e = none
  · have hspares : SparesNewer w e w' := fun c hc => by
      rw [hend] at hc
      cases hc
    have horder : EndsInOrder w e := by
      cases e with
      | lost c => cases hend
      | shutdown c => cases hend
      | _ => trivial
    have hok : RegistryOk w' := by
      by_cases hreg : ∃ env caps, e = .register env caps
      · obtain ⟨env, caps, rfl⟩ := hreg
        cases htrans with
        | register => exact hw.register hfresh
        | move hx h => cases h
        | handle hx h => cases h
        | dismiss hx h => cases h
      · push Not at hreg
        exact hw.of_same (registry_of_transition htrans hend hreg)
    exact ⟨fun _ => horder, fun _ => ⟨hok, hspares⟩⟩
  · cases e with
    | lost c =>
        cases htrans with
        | lost hx hphase =>
            rw [lost_iff hw hx hphase]
            constructor
            · intro h x' hx'
              rw [hx, Option.some_inj] at hx'
              exact hx' ▸ h
            · exact fun h => h _ hx
        | move hx h => cases h
        | handle hx h => cases h
        | dismiss hx h => cases h
    | shutdown c =>
        cases htrans with
        | shutdown hx hphase =>
            rw [shutdown_iff hw hx]
            constructor
            · intro h x' hx'
              rw [hx, Option.some_inj] at hx'
              exact hx' ▸ h
            · exact fun h => h _ hx
        | move hx h => cases h
        | handle hx h => cases h
        | dismiss hx h => cases h
    | _ => exact absurd rfl hend

/-- A fresh coordinator has no workers. -/
theorem registryOk_init (host : Host) (root : Bytes) (epoch cacheGen toolchainGen : UInt64) :
    RegistryOk (.init host root epoch cacheGen toolchainGen) where
  ids := by simp [Network.init]
  latest := by simp [Network.init]

/-- A run keeps the registry in every state, and no end of a replaced connection touches the
entries of a newer one, exactly when its connections end in order.
SOURCE: Distributed.cpp:179-216, 298-306 -/
theorem registry_kept_iff (host : Host) (root : Bytes) (epoch cacheGen toolchainGen : UInt64)
    {es : List NetworkEvent}
    (hrun : exec (Network.step H) (.init host root epoch cacheGen toolchainGen) es = some w) :
    Meets (Network.step H) (KeepsRegistry H) (.init host root epoch cacheGen toolchainGen) es ↔
      Meets (Network.step H) EndsInOrder (.init host root epoch cacheGen toolchainGen) es := by
  refine meets_congr (I := fun u => RegistryOk u ∧ FreshConns u) ?_ ?_
    ⟨registryOk_init .., fun _ _ => rfl⟩ hrun
  · rintro s e s' ⟨hok, hfresh⟩ hstep
    exact keepsRegistry_iff hok hfresh hstep
  · rintro s e s' hkeeps hstep ⟨hok, hfresh⟩
    exact ⟨(hkeeps s' hstep).1,
      freshConns_of_transition hfresh (networkTransition_of_step hstep)⟩

/-! ## A restarted worker -/

/-- What worker 7 registers with. -/
def workerSeven : NetworkEvent := .register { workerId := 7 } (.object [])

/-- A worker registers again before its first connection is shut down in order, and is lost
at last. -/
theorem registry_kept_restart :
    Meets (Network.step fun _ => .zero) (KeepsRegistry fun _ => .zero) (.init {} [] 1 1 1)
      [workerSeven, workerSeven, .shutdown 0, .lost 1] := by
  refine (registry_kept_iff {} [] 1 1 1 rfl).mpr ?_
  refine ⟨trivial, fun w₁ h₁ => ⟨trivial, fun w₂ h₂ => ?_⟩⟩
  cases h₁
  cases h₂
  refine ⟨fun x hx => ?_, fun w₃ h₃ => ⟨fun x hx => ?_, fun _ _ => trivial⟩⟩
  · cases hx
    decide
  · cases h₃
    cases hx
    decide

/-- The first connection is lost instead, with the entries of the second; and a worker that
shuts down stays registered. -/
theorem registry_not_kept :
    ¬ Meets (Network.step fun _ => .zero) (KeepsRegistry fun _ => .zero) (.init {} [] 1 1 1)
      [workerSeven, workerSeven, .lost 0] ∧
    ¬ Meets (Network.step fun _ => .zero) (KeepsRegistry fun _ => .zero) (.init {} [] 1 1 1)
      [workerSeven, .shutdown 0] := by
  constructor
  · intro h
    have hspares := ((((h.2 _ rfl).2 _ rfl).1 _ rfl).2 0 rfl 7 1 (by decide) (by decide)).1
    exact absurd hspares (by decide)
  · intro h
    have hok := ((h.2 _ rfl).1 _ rfl).1
    obtain ⟨⟨x, hx, hruns, -⟩, -⟩ := hok.latest 7 0 (by decide)
    cases hx
    cases hruns

end CompilationFabric.Analysis
