import CompilationFabric.Interface.FabricFlight

/-!
# Where a stale result comes from

While nothing is invalidated, an owner is rejected as stale only if its entry was outdated before
(`Doomed`), and a call returns that only if it could have done so all along (`Exposed`): it waits
for such an owner, or its next step makes it wait for one.
-/

set_option autoImplicit false

namespace CompilationFabric.Interface

open CompilationFabric.Library.TransitionSystem
open CompilationFabric.Model

variable {H : Bytes → Digest} {w w' : World} {e : Event} {es : List Event} {c o : CallId}
  {call call' : Call} {k : CompilationKey}

/-- Nothing is invalidated, and no backend answers with `StaleGeneration` itself. -/
def Quiet (w : World) : Event → Prop
  | .invalidate _ => False
  | .check _ outcome => ∀ f, outcome = .error f → f.code ≠ .StaleGeneration
  | .build c run _ => ∀ call f, w.calls c = some call → backendBuild call.request run = .error f →
      f.code ≠ .StaleGeneration
  | .validate _ outcome _ _ => ∀ f, outcome = .error f → f.code ≠ .StaleGeneration
  | _ => True

/-- INTERNAL: a quiet step invalidates nothing. -/
theorem not_invalidation_of_quiet (hq : Quiet w e) : isInvalidation e = false := by
  cases e with
  | invalidate => exact hq.elim
  | _ => rfl

/-! ## Owners -/

/-- A generation has advanced since the entry was made. -/
def Outdated (w : World) (entry : InflightEntry) : Prop :=
  entry.baseCacheGen ≠ w.impl.cacheGen ∨ entry.baseToolchainGen ≠ w.impl.toolchainGen

/-- The owner has its commit before it, unless it gives up or is left by an exception. -/
def headsForCommit (w : World) (call : Call) : Bool :=
  match call.phase with
  | .checking => (w.process.host.backends w.process.config).contains call.plan.backend
  | .compiling | .built _ | .numbered _ _ | .validated _ => true
  | _ => false

/-- The commit of the owner is going to be rejected. -/
def Doomed (w : World) (o : CallId) : Prop :=
  ∃ owner entry, w.calls o = some owner ∧ owner.entry = some entry ∧ Outdated w entry ∧
    headsForCommit w owner = true

/-- The entry of the owner is done as stale. -/
def DoneStale (w : World) (o : CallId) : Prop :=
  ∃ owner entry failure, w.calls o = some owner ∧ owner.entry = some entry ∧
    entry.outcome = some (.error failure) ∧ failure.code = .StaleGeneration

/-- INTERNAL: only an owner has its commit before it. -/
theorem owning_of_headsForCommit (h : headsForCommit w call = true) :
    call.phase.owning = true := by
  unfold headsForCommit at h
  split at h
  · next hphase => rw [hphase]; rfl
  · next hphase => rw [hphase]; rfl
  · next hphase => rw [hphase]; rfl
  · next hphase => rw [hphase]; rfl
  · next hphase => rw [hphase]; rfl
  · cases h

/-- What is outdated after a step was outdated before it. -/
theorem outdated_step (hq : Quiet w e) (hsame : isRestart e = false) (h : Transition H w e w')
    {entry : InflightEntry} (hout : Outdated w' entry) : Outdated w entry := by
  unfold Outdated at hout ⊢
  have htool : isToolchainInvalidation e = false := by
    cases e with
    | invalidate => exact hq.elim
    | _ => rfl
  rw [cacheGen_step hsame h, toolchainGen_step hsame h, not_invalidation_of_quiet hq, htool] at hout
  exact hout

/-- A doomed owner was doomed before. -/
theorem doomed_step (hq : Quiet w e) (hsame : isRestart e = false) (h : Transition H w e w')
    (hd : Doomed w' o) : Doomed w o := by
  obtain ⟨owner', entry, howner', hentry, hout, hheads⟩ := hd
  replace hout := outdated_step hq hsame h hout
  have hprocess := process_step hsame h
  unfold headsForCommit at hheads
  rw [hprocess] at hheads
  obtain hold | ⟨-, hnew⟩ | ⟨owner, howner, hmoved⟩ :=
    (callsStep_of_transition h).call_cases howner'
  · exact ⟨owner', entry, hold, hentry, hout, hheads⟩
  · cases hnew <;> cases hentry
  · -- the phase it comes from heads for the commit as well
    have hbefore : headsForCommit w owner = true → owner.entry = some entry → Doomed w o :=
      fun hheads hentry => ⟨owner, entry, howner, hentry, hout, hheads⟩
    unfold headsForCommit at hbefore
    cases hmoved with
    | own =>
        cases hentry
        exact absurd hout (by simp [Outdated])
    | advance hadv =>
        cases hadv with
        | compiling hphase hbackend => exact hbefore (by rw [hphase]; exact hbackend) hentry
        | built hphase => exact hbefore (by rw [hphase]) hentry
        | validated hphase => exact hbefore (by rw [hphase]) hentry
        | raised => cases hheads
    | number hphase => exact hbefore (by rw [hphase]) hentry
    | publish =>
        cases hpersists : w.process.config.persistenceEnabled && w.process.config.persistOnCompile
          <;> simp [hpersists] at hheads
    | _ => cases hheads

/-- Only a doomed owner gives up as stale. -/
theorem doomed_of_fails (hq : Quiet w e) (hcall : w.calls o = some call) {failure : Failure}
    (hfail : Fails w o call e failure) (hcode : failure.code = .StaleGeneration) : Doomed w o := by
  cases hfail with
  | noBackend => cases hcode
  | incompatible => exact absurd hcode (hq _ rfl)
  | build hphase hbuild => exact absurd hcode (hq _ _ hcall hbuild)
  | validation => exact absurd hcode (hq _ rfl)
  | notPassed => cases hcode
  | stale hphase hentry hstale =>
      exact ⟨call, _, hcall, hentry, hstale, by unfold headsForCommit; rw [hphase]⟩

/-- An owner whose entry is done as stale was so before, or doomed. -/
theorem doneStale_step (hq : Quiet w e) (h : Transition H w e w') (hd : DoneStale w' o) :
    DoneStale w o ∨ Doomed w o := by
  obtain ⟨owner', entry, failure, howner', hentry, hdone, hcode⟩ := hd
  obtain hold | ⟨-, hnew⟩ | ⟨owner, howner, hmoved⟩ :=
    (callsStep_of_transition h).call_cases howner'
  · exact .inl ⟨owner', entry, failure, hold, hentry, hdone, hcode⟩
  · cases hnew <;> cases hentry
  · cases hmoved with
    | own =>
        cases hentry
        cases hdone
    | fail hentry' hfail =>
        cases hentry
        cases hdone
        exact .inr (doomed_of_fails hq howner hfail hcode)
    | complete =>
        cases hentry
        cases hdone
    | _ => exact .inl ⟨owner, entry, failure, howner, hentry, hdone, hcode⟩

/-- Whoever waits for the owner is told that it is stale, or is going to be. -/
def Tainted (w : World) (o : CallId) : Prop := Doomed w o ∨ DoneStale w o

/-- A quiet step taints no owner. -/
theorem tainted_step (hq : Quiet w e) (hsame : isRestart e = false) (h : Transition H w e w')
    (ht : Tainted w' o) : Tainted w o := by
  obtain hd | hd := ht
  · exact .inl (doomed_step hq hsame h hd)
  · exact (doneStale_step hq h hd).symm

/-- An owner that is doomed is not done. -/
theorem undone_of_doomed (hw : WellFormed w) (hd : Doomed w o) :
    ∃ owner entry, w.calls o = some owner ∧ owner.entry = some entry ∧ entry.outcome = none := by
  obtain ⟨owner, entry, howner, -, -, hheads⟩ := hd
  obtain ⟨entry, hentry, hnone⟩ :=
    coherent_owning (hw.coherent o owner howner) (owning_of_headsForCommit hheads)
  exact ⟨owner, entry, howner, hentry, hnone⟩

/-- An active owner is listed and has no outcome yet. -/
theorem activeOwner_eq_some :
    w.activeOwner k = some o ↔ w.impl.inflight[k]? = some o ∧
      ∃ owner entry, w.calls o = some owner ∧ owner.entry = some entry ∧ entry.outcome = none := by
  unfold World.activeOwner
  constructor
  · intro h
    obtain ⟨o', hin, h⟩ := Option.bind_eq_some_iff.mp h
    obtain ⟨owner, howner, h⟩ := Option.bind_eq_some_iff.mp h
    obtain ⟨entry, hentry, h⟩ := Option.bind_eq_some_iff.mp h
    split at h
    · next hnone =>
      cases h
      exact ⟨hin, owner, entry, howner, hentry, Option.isNone_iff_eq_none.mp hnone⟩
    · cases h
  · rintro ⟨hin, owner, entry, howner, hentry, hnone⟩
    simp only [hin, howner, hentry, hnone, bind, Option.bind_some, Option.isNone_none, if_true]

/-- A doomed owner that is to be waited for was to be waited for before. -/
theorem activeOwner_step (hw : WellFormed w) (hsame : isRestart e = false)
    (h : Transition H w e w') (hd : Doomed w o) (hactive : w'.activeOwner k = some o) :
    w.activeOwner k = some o := by
  have hundone := undone_of_doomed hw hd
  rw [activeOwner_eq_some] at hactive ⊢
  refine ⟨?_, hundone⟩
  obtain heq | ⟨d, call, -, hcall, hphase, -, heq⟩ := inflight_cases hsame h
  · rw [← heq]
    exact hactive.1
  · rw [heq, Std.ExtTreeMap.getElem?_insert] at hactive
    split at hactive
    · -- whoever takes the ownership now had no entry
      obtain rfl := Option.some.inj hactive.1
      obtain ⟨owner, entry, howner, hentry, -⟩ := hundone
      obtain rfl := Option.some.inj (hcall.symm.trans howner)
      have hcoherent := hw.coherent d call hcall
      rw [hphase] at hcoherent
      exact absurd (hcoherent.symm.trans hentry) (by simp)
    · exact hactive.1

/-! ## Calls -/

/-- The call has returned `StaleGeneration`, or does so unless something comes between. -/
inductive Exposed (w : World) (c : CallId) : Prop
  | missed {call : Call} {o : CallId} (hcall : w.calls c = some call)
      (hphase : call.phase = .missed) (hactive : w.activeOwner call.key = some o)
      (hdoomed : Doomed w o)
  | waiting {call : Call} {o : CallId} (hcall : w.calls c = some call)
      (hphase : call.phase = .waiting o) (htainted : Tainted w o)
  | owner (htainted : Tainted w c)
  | returned {call : Call} {s : Served} {failure : Failure} (hcall : w.calls c = some call)
      (hphase : call.phase = .returned s (.error failure))
      (hcode : failure.code = .StaleGeneration)

/-- A call that is exposed was exposed before. -/
theorem exposed_step (hw : WellFormed w) (hq : Quiet w e) (hsame : isRestart e = false)
    (h : Transition H w e w') (hc : c < w.nextCall) (hx : Exposed w' c) : Exposed w c := by
  have hcases : ∀ {call'}, w'.calls c = some call' → w.calls c = some call' ∨
      ∃ call, w.calls c = some call ∧ Moved H w c call e call' := by
    intro call' hcall'
    obtain hold | ⟨rfl, -⟩ | hmoved := (callsStep_of_transition h).call_cases hcall'
    · exact .inl hold
    · exact absurd hc (lt_irrefl _)
    · exact .inr hmoved
  cases hx with
  | owner ht => exact .owner (tainted_step hq hsame h ht)
  | @missed call' o hcall' hphase' hactive hd =>
      replace hd := doomed_step hq hsame h hd
      replace hactive := activeOwner_step hw hsame h hd hactive
      obtain hold | ⟨call, hcall, hmoved⟩ := hcases hcall'
      · exact .missed hold hphase' hactive hd
      · cases hmoved with
        | advance hadv => cases hadv <;> cases hphase'
        | publish =>
            dsimp only at hphase'
            split at hphase' <;> cases hphase'
        | _ => cases hphase'
  | @waiting call' o hcall' hphase' ht =>
      replace ht := tainted_step hq hsame h ht
      obtain hold | ⟨call, hcall, hmoved⟩ := hcases hcall'
      · exact .waiting hold hphase' ht
      · cases hmoved with
        | wait hphase hactive =>
            cases hphase'
            obtain hd | ⟨owner, entry, failure, howner, hentry, hdone, -⟩ := ht
            · exact .missed hcall hphase hactive hd
            · -- an owner that is done is nobody's to wait for
              obtain ⟨-, owner', entry', howner', hentry', hnone⟩ :=
                activeOwner_eq_some.mp hactive
              obtain rfl := Option.some.inj (howner.symm.trans howner')
              obtain rfl := Option.some.inj (hentry.symm.trans hentry')
              rw [hdone] at hnone
              cases hnone
        | advance hadv => cases hadv <;> cases hphase'
        | publish =>
            dsimp only at hphase'
            split at hphase' <;> cases hphase'
        | _ => cases hphase'
  | @returned call' s failure hcall' hphase' hcode =>
      obtain hold | ⟨call, hcall, hmoved⟩ := hcases hcall'
      · exact .returned hold hphase' hcode
      · generalize hr : (Except.error failure : Result CompilationResult) = r at hphase'
        cases hmoved.returnsBy hphase' with
        | wake hwaiting howner hentry hdone =>
            rw [← hr] at hdone
            exact .waiting hcall hwaiting (.inr ⟨_, _, failure, howner, hentry, hdone, hcode⟩)
        | fail hentry hfail =>
            cases hr
            exact .owner (.inl (doomed_of_fails hq hcall hfail hcode))
        | complete => cases hr

end CompilationFabric.Interface
