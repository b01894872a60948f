import CompilationFabric.Interface.FabricPlacement

/-!
# The backend of an artifact

A result reports the backend of the plan when the call compiled it, and the backend that is named in
the artifact when it came from the cache.  For one key and one backend: if every call under the key
that compiles is planned for the backend, and what is built under the key names it (`NamedFor`), then
whatever is found under the key names it (`Attributed`), in the calls, in the cache, in the store and
in the hands of a `recover`, whoever compiled it and whoever it is returned to.
-/

set_option autoImplicit false

namespace CompilationFabric.Interface

open CompilationFabric.Library.TransitionSystem
open CompilationFabric.Model

variable {H : Bytes → Digest} {k : CompilationKey} {backend : Bytes} {w w' : World} {e : Event}
  {es : List Event} {c : CallId} {call call' : Call}

/-! ## The condition on a run -/

/-- A call under the key that passes the check is planned for the backend, and what is built under
the key names it. -/
def NamedFor (k : CompilationKey) (backend : Bytes) (w : World) : Event → Prop
  | .check c _ => ∀ call, w.calls c = some call → call.key = k →
      (w.process.host.backends w.process.config).contains call.plan.backend = true →
      call.plan.backend = backend
  | .build c run _ => ∀ call b, w.calls c = some call → call.key = k → call.phase = .compiling →
      backendBuild call.request run = .ok b → b.output.backend.id = backend
  | _ => True

/-! ## The invariant -/

/-- The call has passed the check of its backend, and has not returned. -/
def Phase.checked : Phase → Bool
  | .compiling | .built _ | .numbered _ _ | .validated _ | .storing _ _ | .committed _ => true
  | _ => false

/-- What the backend has built for a call whose artifact is not described yet. -/
def undescribed : Phase → Option Build
  | .built b => some b
  | .numbered b _ => some b
  | _ => none

/-- The result is of the backend, and so is the artifact in it. -/
structure ComesFrom (backend : Bytes) (r : CompilationResult) : Prop where
  used : r.backendUsed = backend
  artifact : r.artifact.backend.id = backend

/-- A record under the key names the backend. -/
def RecordNames (k : CompilationKey) (backend : Bytes) (r : PersistedRecord) : Prop :=
  r.key = k → r.descriptor.backend.id = backend

/-- Everything under the key is of the backend. -/
structure Attributed (H : Bytes → Digest) (k : CompilationKey) (backend : Bytes) (w : World) :
    Prop where
  planned : ∀ c call, w.calls c = some call → call.key = k → Phase.checked call.phase = true →
    call.plan.backend = backend
  builds : ∀ c call b, w.calls c = some call → call.key = k → undescribed call.phase = some b →
    b.output.backend.id = backend
  artifacts : ∀ c call v, w.calls c = some call → call.key = k → carried call.phase = some v →
    v.art.backend.id = backend
  results : ∀ c call s r, w.calls c = some call → call.key = k →
    call.phase = .returned s (.ok r) → ComesFrom backend r
  cache : ∀ entry, w.impl.cache[k]? = some entry → entry.descriptor.backend.id = backend
  files : ∀ id gen r, loadMeta H w.dir[metaPath id gen]? id gen = .ok (.ok r) →
    RecordNames k backend r
  recoveries : ∀ t p l, w.recoveries t = some p → l ∈ loads p → RecordNames k backend l.record

namespace Attributed

variable (ha : Attributed H k backend w)
include ha

/-! ## Calls -/

/-- INTERNAL: the check is what a call passes on its way to the backend.
SOURCE: Fabric.cpp:276-291 -/
theorem planned_step (h : Transition H w e w') (hnamed : NamedFor k backend w e) :
    ∀ c call, w'.calls c = some call → call.key = k → Phase.checked call.phase = true →
      call.plan.backend = backend := by
  intro c call' hcall' hkey hchecked
  obtain hold | ⟨-, hnew⟩ | ⟨call, hcall, hmoved⟩ :=
    (callsStep_of_transition h).call_cases hcall'
  · exact ha.planned c call' hold hkey hchecked
  · cases hnew with
    | miss hplan hmiss => cases hmiss <;> cases hchecked
    | hit => cases hchecked
  · rw [hmoved.key] at hkey
    rw [hmoved.plan]
    have hkeep : Phase.checked call.phase = true → call.plan.backend = backend :=
      ha.planned c call hcall hkey
    cases hmoved with
    | advance hadv =>
        cases hadv with
        | compiling hphase hbackend => exact hnamed call hcall hkey hbackend
        | built hphase => exact hkeep (by rw [hphase]; rfl)
        | validated hphase => exact hkeep (by rw [hphase]; rfl)
        | raised => cases hchecked
    | number hphase => exact hkeep (by rw [hphase]; rfl)
    | publish hphase => exact hkeep (by rw [hphase]; rfl)
    | write hphase => exact hkeep (by rw [hphase]; rfl)
    | release hphase => exact hkeep (by rw [hphase]; rfl)
    | _ => cases hchecked

/-- INTERNAL: what is built is kept until it is described.
SOURCE: Fabric.cpp:292-362 -/
theorem builds_step (h : Transition H w e w') (hnamed : NamedFor k backend w e) :
    ∀ c call b, w'.calls c = some call → call.key = k → undescribed call.phase = some b →
      b.output.backend.id = backend := by
  intro c call' b hcall' hkey hb
  obtain hold | ⟨-, hnew⟩ | ⟨call, hcall, hmoved⟩ :=
    (callsStep_of_transition h).call_cases hcall'
  · exact ha.builds c call' b hold hkey hb
  · cases hnew with
    | miss hplan hmiss => cases hmiss <;> cases hb
    | hit => cases hb
  · rw [hmoved.key] at hkey
    cases hmoved with
    | advance hadv =>
        cases hadv with
        | built hphase hbuild =>
            cases hb
            have hnames := hnamed call _ hcall hkey hphase hbuild
            exact hnames
        | compiling => cases hb
        | validated => cases hb
        | raised => cases hb
    | number hphase =>
        cases hb
        exact ha.builds c call b hcall hkey (by rw [hphase]; rfl)
    | publish =>
        dsimp only at hb
        split at hb <;> cases hb
    | _ => cases hb

/-- INTERNAL: the descriptor takes the backend of what is built.
SOURCE: Fabric.cpp:363-375 -/
theorem artifacts_step (h : Transition H w e w') :
    ∀ c call v, w'.calls c = some call → call.key = k → carried call.phase = some v →
      v.art.backend.id = backend := by
  intro c call' v hcall' hkey hv
  obtain hold | ⟨-, hnew⟩ | ⟨call, hcall, hmoved⟩ :=
    (callsStep_of_transition h).call_cases hcall'
  · exact ha.artifacts c call' v hold hkey hv
  · cases hnew with
    | miss hplan hmiss => cases hmiss <;> cases hv
    | hit => cases hv
  · rw [hmoved.key] at hkey
    cases hmoved with
    | advance hadv =>
        cases hadv with
        | validated hphase =>
            cases hv
            exact ha.builds c call _ hcall hkey (by rw [hphase]; rfl)
        | compiling => cases hv
        | built => cases hv
        | raised => cases hv
    | publish hphase =>
        have hsame : carried call.phase = some v := by
          rw [hphase]
          dsimp only at hv
          split at hv <;> exact hv
        exact ha.artifacts c call v hcall hkey hsame
    | write hphase =>
        cases hv
        exact ha.artifacts c call v hcall hkey (by rw [hphase]; rfl)
    | release hphase =>
        cases hv
        exact ha.artifacts c call v hcall hkey (by rw [hphase]; rfl)
    | _ => cases hv

/-- INTERNAL: a hit reports what the entry names, an owner what it was planned for, and a waiter
what its owner has reported.
SOURCE: Fabric.cpp:237-247, 262-265, 422-437 -/
theorem results_step (hw : WellFormed w) (h : Transition H w e w') :
    ∀ c call s r, w'.calls c = some call → call.key = k → call.phase = .returned s (.ok r) →
      ComesFrom backend r := by
  intro c call' s r hcall' hkey hphase'
  obtain hold | ⟨-, hnew⟩ | ⟨call, hcall, hmoved⟩ :=
    (callsStep_of_transition h).call_cases hcall'
  · exact ha.results c call' s r hold hkey hphase'
  · cases hnew with
    | miss hplan hmiss => cases hmiss <;> cases hphase'
    | hit hplan he =>
        cases hphase'
        obtain rfl := hkey
        have hnames := ha.cache _ he
        exact ⟨hnames, hnames⟩
  · rw [hmoved.key] at hkey
    generalize hr : (Except.ok r : Result CompilationResult) = result at hphase'
    cases hmoved.returnsBy hphase' with
    | wake hwaiting howner hentry hdone =>
        -- the owner has returned the result, under the same key
        obtain ⟨owner, howner', -, hsame⟩ := hw.waiting c call _ hcall hwaiting
        obtain rfl := Option.some.inj (howner.symm.trans howner')
        have hcoherent := hw.coherent _ _ howner
        rw [hentry] at hcoherent
        have hreturned := coherent_done hcoherent hdone
        rw [← hr] at hreturned
        exact ha.results _ _ _ r howner (hsame.trans hkey) hreturned
    | fail => cases hr
    | complete hcommitted hentry =>
        cases hr
        exact ⟨ha.planned c call hcall hkey (by rw [hcommitted]; rfl),
          ha.artifacts c call _ hcall hkey (by rw [hcommitted]; rfl)⟩

/-! ## The cache and the store -/

/-- INTERNAL: an entry is published by a call under the key, or recovered from a record of it. -/
theorem cache_step (h : Transition H w e w') :
    ∀ entry, w'.impl.cache[k]? = some entry → entry.descriptor.backend.id = backend := by
  intro entry hentry
  have hkeep : ∀ {e₀}, w.impl.cache[k]? = some e₀ → e₀.descriptor.backend = entry.descriptor.backend →
      entry.descriptor.backend.id = backend := by
    intro e₀ he₀ hsame
    rw [← hsame]
    exact ha.cache e₀ he₀
  cases cacheStep_of_transition h hentry with
  | kept he => exact hkeep he rfl
  | touched he => exact hkeep he rfl
  | published hcall hphase hkey => exact ha.artifacts _ _ _ hcall hkey (by rw [hphase]; rfl)
  | invalidated he => exact hkeep he rfl
  | passed he => exact hkeep he rfl
  | superseded he => exact hkeep he rfl
  | unloaded he => exact hkeep he rfl
  | recovered hphase hlast =>
      obtain ⟨hl, hkey⟩ := mem_of_lastLoaded hlast
      exact ha.recoveries _ _ _ hphase hl hkey

/-- INTERNAL: a file of metadata is the record of the call that has written it.
SOURCE: Persistence.cpp:128-136 -/
theorem files_step (hr : Recorded H w) (hclean : CleansTmp w) (h : Transition H w e w') :
    ∀ id gen r, loadMeta H w'.dir[metaPath id gen]? id gen = .ok (.ok r) →
      RecordNames k backend r := by
  intro id gen r hload
  have hkeep : w'.dir[metaPath id gen]? = w.dir[metaPath id gen]? → RecordNames k backend r := by
    intro hsame
    rw [hsame] at hload
    exact ha.files id gen r hload
  rcases dir_sources h with hsame | ⟨c, call, v, stage, -, hcall, hphase, hwrite⟩ |
    ⟨t, name, todo, hcleaning, hgone⟩
  · exact hkeep (by rw [hsame])
  · by_cases hplace : stage = .metaRename ∧ id = v.art.id ∧ gen = v.art.generation
    · obtain ⟨rfl, rfl, rfl⟩ := hplace
      cases hwrite with
      | metaRename hsize hdir =>
          obtain ⟨bytes, htmp, hdest, -⟩ := rename_eq_some hdir
          obtain rfl := hr.tmp c call v bytes hcall hphase htmp
          have hwire := loadMeta_encodeMeta (H := H) (r := v.record call.key)
            (hr.sorted c call hcall) hsize v.art.id v.art.generation
          rw [hdest, hwire, Except.ok.injEq, Except.ok.injEq] at hload
          obtain rfl := hload
          exact fun hkey => ha.artifacts c call v hcall hkey (by rw [hphase]; rfl)
    · exact hkeep (hwrite.meta_eq hplace).1
  · apply hkeep
    rw [hgone, getElem?_of_cleaning hclean hcleaning (isTmp_metaPath _ _)]

/-- INTERNAL: a `recover` holds what it has read from the files. -/
theorem recoveries_step (h : Transition H w e w') :
    ∀ t p l, w'.recoveries t = some p → l ∈ loads p → RecordNames k backend l.record := by
  intro t p l hp hl
  rcases loaded_cases h hp hl with ⟨p', l', hold, hl', -, hkey, hdescriptor⟩ | ⟨id, gen, hload, -⟩
  · intro hk
    rw [← hdescriptor]
    exact ha.recoveries t p' l' hold hl' (hkey.trans hk)
  · exact ha.files id gen l.record hload

/-- Every step of a run keeps the backend of what is under the key. -/
theorem step (hw : WellFormed w) (hr : Recorded H w) (hclean : CleansTmp w)
    (h : Transition H w e w') (hnamed : NamedFor k backend w e) : Attributed H k backend w' where
  planned := ha.planned_step h hnamed
  builds := ha.builds_step h hnamed
  artifacts := ha.artifacts_step h
  results := ha.results_step hw h
  cache := ha.cache_step h
  files := ha.files_step hr hclean h
  recoveries := ha.recoveries_step h

end Attributed

end CompilationFabric.Interface
