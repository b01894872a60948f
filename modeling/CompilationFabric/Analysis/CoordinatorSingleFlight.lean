import CompilationFabric.Interface.CoordinatorRuns

/-!
# Single flight at the coordinator

Whether two compiles of one key can be in flight at the workers.  A Submit looks into
`published_` only, where a key appears when its compile is over; nothing records that a
compile is under way.  So a second dispatch of a key is sent whenever a lookup misses during
the first one, and `single_flight` says that there is no other way.
-/

set_option autoImplicit false

namespace CompilationFabric.Analysis

open CompilationFabric.Library.TransitionSystem
open CompilationFabric.Model
open CompilationFabric.Interface

variable {H : Bytes → Digest} {w w' : Network} {e : NetworkEvent} {s t : SubmitId}
  {x x' : Submit}

/-! ## The property and the condition -/

/-- A dispatch is sent when no dispatch of its key is outstanding. -/
def SendsAlone (H : Bytes → Digest) (w : Network) (e : NetworkEvent) : Prop :=
  match e with
  | .send s true => ∀ x, w.submits s = some x → ∀ d D, w.dispatches d = some D →
      w.processed d = false → D.key.toHex H ≠ x.key.toHex H
  | _ => True

/-- At most one compile of a key is in flight. -/
def OneInFlight (H : Bytes → Digest) (w : Network) : Prop :=
  ∀ d d' D D', w.dispatches d = some D → w.dispatches d' = some D' → w.processed d = false →
    w.processed d' = false → D.key.toHex H = D'.key.toHex H → d = d'

/-- The Submit is between its missed lookup and its dispatch, or the dispatch is outstanding. -/
def Busy (w : Network) (s : SubmitId) (x : Submit) : Prop :=
  preparing x.phase = true ∨ Outstanding w s

/-- A lookup misses only when no Submit of the key is busy. -/
def MissesAlone (w : Network) (e : NetworkEvent) : Prop :=
  match e with
  | .lookup s => ∀ x, w.submits s = some x → w.coordinator.published[x.keyHex]? = none →
      ∀ t y, w.submits t = some y → Busy w t y → y.keyHex ≠ x.keyHex
  | _ => True

def isLookup : NetworkEvent → Bool
  | .lookup _ => true
  | _ => false

/-- INTERNAL: only a lookup misses. -/
theorem missesAlone_of_not_lookup (he : (!isLookup e) = true) : MissesAlone w e := by
  cases e with
  | lookup s => cases he
  | _ => trivial

/-! ## Who is busy -/

/-- Two busy Submits have different keys. -/
def BusyOnce (w : Network) : Prop :=
  ∀ s t x y, w.submits s = some x → w.submits t = some y → Busy w s x → Busy w t y →
    x.keyHex = y.keyHex → s = t

/-- A missed lookup is the only step that makes a Submit busy. -/
theorem busy_cases (hw : NetworkWellFormed H w) (h : NetworkTransition H w e w')
    (hx' : w'.submits s = some x') (hbusy : Busy w' s x') :
    ∃ x, w.submits s = some x ∧ x.keyHex = x'.keyHex ∧
      (Busy w s x ∨ e = .lookup s ∧ w.coordinator.published[x.keyHex]? = none) := by
  have hout : Outstanding w' s → ∀ x, w.submits s = some x → Busy w s x := by
    intro hout x hx
    rcases outstanding_cases h hout with hout | ⟨y, env, c, hy, hphase⟩
    · exact .inr hout
    · rw [hx, Option.some_inj] at hy
      subst hy
      exact .inl (by rw [hphase]; rfl)
  rcases submit_cases h hx' with hx | ⟨x, p, hx, rfl, hsteps⟩ | ⟨rfl, hphase, -⟩
  · refine ⟨x', hx, rfl, .inl ?_⟩
    rcases hbusy with hprep | hbusy
    · exact .inl hprep
    · exact hout hbusy x' hx
  · refine ⟨x, hx, rfl, ?_⟩
    rcases hbusy with hprep | hbusy
    · cases hsteps with
      | move hmove =>
          cases hmove with
          | miss hphase hpub => exact .inr ⟨rfl, hpub⟩
          | hit hphase => cases hprep
          | select hphase => exact .inl (.inl (by rw [hphase]; rfl))
          | noWorker hphase => cases hprep
          | counter hphase => exact .inl (.inl (by rw [hphase]; rfl))
          | channel hphase => exact .inl (.inl (by rw [hphase]; rfl))
          | noChannel hphase => cases hprep
          | unsent hphase => cases hprep
          | wake hphase => cases hprep
      | pend hphase => exact .inl (.inl (by rw [hphase]; rfl))
      | attempt hphase => exact .inl (.inl (by rw [hphase]; rfl))
      | sent hphase => cases hprep
      | giveUp hphase => cases hprep
    · exact .inl (hout hbusy x hx)
  · have hnone := hw.freshSubmit w.nextSubmit le_rfl
    rcases hbusy with hprep | hbusy
    · rw [hphase] at hprep
      cases hprep
    · rcases outstanding_cases h hbusy with ⟨hsome, -⟩ | ⟨y, env, c, hy, -⟩
      · obtain ⟨D, hD⟩ := Option.ne_none_iff_exists'.mp hsome
        obtain ⟨y, hy, -⟩ := hw.dispatch _ D hD
        rw [hnone] at hy
        cases hy
      · rw [hnone] at hy
        cases hy

/-- Every step keeps busy Submits to different keys. -/
theorem BusyOnce.step (hw : NetworkWellFormed H w) (hbusy : BusyOnce w)
    (hmisses : MissesAlone w e) (h : NetworkTransition H w e w') : BusyOnce w' := by
  -- a Submit that misses now finds nobody of its key busy
  have halone : ∀ {s t : SubmitId} {x y : Submit}, w.submits s = some x →
      e = .lookup s → w.coordinator.published[x.keyHex]? = none → w.submits t = some y →
      Busy w t y → x.keyHex = y.keyHex → s = t := by
    rintro s t x y hx rfl hpub hy hyb hkey
    exact absurd hkey.symm (hmisses x hx hpub t y hy hyb)
  intro s t x' y' hx' hy' hsb htb hkey
  obtain ⟨x, hx, hxk, hs⟩ := busy_cases hw h hx' hsb
  obtain ⟨y, hy, hyk, ht⟩ := busy_cases hw h hy' htb
  have hkey' : x.keyHex = y.keyHex := by rw [hxk, hyk, hkey]
  rcases hs with hs | ⟨hes, hspub⟩
  · rcases ht with ht | ⟨het, htpub⟩
    · exact hbusy s t x y hx hy hs ht hkey'
    · exact (halone hy het htpub hx hs hkey'.symm).symm
  · rcases ht with ht | ⟨het, -⟩
    · exact halone hx hes hspub hy ht hkey'
    · rw [hes] at het
      exact NetworkEvent.lookup.inj het

/-- An outstanding dispatch is that of a busy Submit. -/
theorem busy_of_dispatch (hw : NetworkWellFormed H w) {D : Dispatch}
    (hD : w.dispatches s = some D) (hproc : w.processed s = false) :
    ∃ x, w.submits s = some x ∧ Busy w s x ∧ x.keyHex = D.key.toHex H := by
  obtain ⟨x, hx, -, -, hkey, -⟩ := hw.dispatch s D hD
  exact ⟨x, hx, .inr ⟨by simp [hD], hproc⟩, by rw [hkey, (hw.key s x hx).1]⟩

/-- Where busy Submits have different keys, so do the dispatches in flight. -/
theorem OneInFlight.of_busyOnce (hw : NetworkWellFormed H w) (hbusy : BusyOnce w) :
    OneInFlight H w := by
  intro d d' D D' hD hD' hproc hproc' hkey
  obtain ⟨x, hx, hxb, hxk⟩ := busy_of_dispatch hw hD hproc
  obtain ⟨y, hy, hyb, hyk⟩ := busy_of_dispatch hw hD' hproc'
  exact hbusy d d' x y hx hy hxb hyb (by rw [hxk, hyk, hkey])

/-- INTERNAL: and so does a dispatch that is sent. -/
theorem sendsAlone_of_busyOnce (hw : NetworkWellFormed H w) (hbusy : BusyOnce w)
    (h : NetworkTransition H w e w') : SendsAlone H w e := by
  cases h with
  | @sent s x env c hx hphase =>
      intro y hy d D hD hproc hkey
      rw [hx, Option.some_inj] at hy
      subst hy
      obtain ⟨z, hz, hzb, hzk⟩ := busy_of_dispatch hw hD hproc
      obtain rfl := hbusy d s z x hz hx hzb (.inl (by rw [hphase]; rfl))
        (by rw [hzk, hkey, (hw.key s x hx).1])
      rw [hw.dispatches_eq_none hx (by rw [hphase]; rfl)] at hD
      cases hD
  | move hx hmove => cases hmove <;> trivial
  | handle hx hmove => cases hmove <;> trivial
  | dismiss hx hmove => cases hmove <;> trivial
  | _ => trivial

/-! ## Runs -/

/-- In a run whose lookups miss only when no Submit of the key is busy, no dispatch is sent
during another one of its key.
SOURCE: Distributed.cpp:247-296 -/
theorem single_flight (host : Host) (root : Bytes) (epoch cacheGen toolchainGen : UInt64)
    {es : List NetworkEvent}
    (hmeets : Meets (Network.step H) MissesAlone (.init host root epoch cacheGen toolchainGen) es)
    (hrun : exec (Network.step H) (.init host root epoch cacheGen toolchainGen) es = some w) :
    Meets (Network.step H) (SendsAlone H) (.init host root epoch cacheGen toolchainGen) es ∧
      OneInFlight H w := by
  have hinit : NetworkWellFormed H (.init host root epoch cacheGen toolchainGen) ∧
      BusyOnce (.init host root epoch cacheGen toolchainGen) :=
    ⟨networkWellFormed_init .., fun s t x y hx => by cases hx⟩
  have hstep : ∀ u e u', MissesAlone u e → Network.step H u e = some u' →
      NetworkWellFormed H u ∧ BusyOnce u → NetworkWellFormed H u' ∧ BusyOnce u' := by
    rintro u e u' hmiss hu ⟨hw, hbusy⟩
    have htrans := networkTransition_of_step hu
    exact ⟨hw.step htrans, hbusy.step hw hmiss htrans⟩
  constructor
  · refine hmeets.of_invariant hstep ?_ hinit hrun
    rintro u e u' - hu ⟨hw, hbusy⟩
    exact sendsAlone_of_busyOnce hw hbusy (networkTransition_of_step hu)
  · obtain ⟨hw, hbusy⟩ := exec_induction hstep hmeets hrun hinit
    exact .of_busyOnce hw hbusy

/-! ## Two clients -/

/-- One client, and one dispatch in flight. -/
theorem single_flight_oneClient :
    ∃ w, exec (Network.step fun _ => .zero) (.init {} [] 1 1 1) firstDispatch = some w ∧
      Meets (Network.step fun _ => .zero) (SendsAlone fun _ => .zero) (.init {} [] 1 1 1)
        firstDispatch ∧
      OneInFlight (fun _ => .zero) w := by
  obtain ⟨w, hw⟩ := Option.isSome_iff_exists.mp (show
    (exec (Network.step fun _ => .zero) (.init {} [] 1 1 1) firstDispatch).isSome = true by
      decide +kernel)
  refine ⟨w, hw, single_flight {} [] 1 1 1 ?_ hw⟩
  refine ⟨trivial, fun w₁ h₁ => ⟨trivial, fun w₂ h₂ => ⟨?_, fun w₃ _ => ?_⟩⟩⟩
  · cases h₁
    cases h₂
    intro x hx hpub t y hy hbusy
    -- the only Submit there is has not looked yet
    have hphase : y.phase = .bound := by
      by_cases ht : t = 0
      · subst ht
        cases hy
        rfl
      · cases (Function.update_of_ne ht _ _).symm.trans hy
    rcases hbusy with hprep | ⟨hsome, -⟩
    · rw [hphase] at hprep
      cases hprep
    · exact absurd rfl hsome
  · exact meets_of_all (fun _ _ => missesAlone_of_not_lookup) rfl

/-- The dispatches of two Submits have one key, and neither is answered. -/
def collides (w : Network) : Bool :=
  match w.dispatches 0, w.dispatches 1 with
  | some D, some D' => !w.processed 0 && !w.processed 1 && D.key.toHex (fun _ => .zero) =
      D'.key.toHex fun _ => .zero
  | _, _ => false

/-- Two clients submit one request under two request ids, and both are dispatched. -/
theorem not_oneInFlight :
    ∃ w, exec (Network.step fun _ => .zero) (.init {} [] 1 1 1)
        ([workerUp 7 {}, .submit {} 0 0, .submit { requestId := TypedId.fromU64 1 } 0 0] ++
          dispatchSteps 0 ++ dispatchSteps 1) = some w ∧
      ¬ OneInFlight (fun _ => .zero) w := by
  obtain ⟨w, hw, hcollides⟩ := (Option.any_eq_true _ _).mp (show
    (exec (Network.step fun _ => .zero) (.init {} [] 1 1 1)
        ([workerUp 7 {}, .submit {} 0 0, .submit { requestId := TypedId.fromU64 1 } 0 0] ++
          dispatchSteps 0 ++ dispatchSteps 1)).any collides = true by decide +kernel)
  refine ⟨w, hw, fun hone => ?_⟩
  unfold collides at hcollides
  split at hcollides
  · next D D' hD hD' =>
    simp only [Bool.and_eq_true, Bool.not_eq_true', decide_eq_true_eq] at hcollides
    exact absurd (hone 0 1 D D' hD hD' hcollides.1.1 hcollides.1.2 hcollides.2) (by decide)
  · cases hcollides

end CompilationFabric.Analysis
