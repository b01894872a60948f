import CompilationFabric.Interface.FabricOwners
import CompilationFabric.Interface.FabricRuns
import CompilationFabric.Model.BackendCalls

/-!
# Entries that an exception leaves behind

`compile` completes its in-flight entry by hand on every path that returns, and on no other.  So an
owner that returns leaves a done entry, whatever its backend answers, and an owner that is left by
an exception of its backend never does: whoever waits for that entry waits for ever, and every
later call for the key joins them.
-/

set_option autoImplicit false

namespace CompilationFabric.Analysis

open CompilationFabric.Library.TransitionSystem
open CompilationFabric.Model
open CompilationFabric.Interface

variable {H : Bytes → Digest} {w w' : World} {e : CallEvent} {c : CallId} {a : OwnerCall}
  {call : Call}

/-! ## The property -/

/-- The call has returned, or has been left by an exception. -/
def hasEnded : Phase → Bool
  | .returned _ _ | .raised => true
  | _ => false

/-- No entry is left without an owner. -/
structure NoneAbandoned (w : World) : Prop where
  /-- The entry of a call that has ended is done. -/
  done : ∀ c call entry, w.calls c = some call → hasEnded call.phase = true →
    call.entry = some entry → entry.outcome.isSome
  /-- A call waits for an entry that is done, or whose owner is executing, -/
  awaited : ∀ c call o, w.calls c = some call → call.phase = .waiting o →
    ∃ owner entry, w.calls o = some owner ∧ owner.entry = some entry ∧
      (entry.outcome.isSome ∨ owner.phase.owning = true)
  /-- and a later call can only come to wait for one of the latter. -/
  joined : ∀ k o, w.activeOwner k = some o →
    ∃ owner, w.calls o = some owner ∧ owner.phase.owning = true

/-- A call that an owner makes of its backend throws. -/
def throws (w : World) : CallEvent → Bool
  | .backend c a => (w.calls c).any (a.throws w.process)
  | .other _ => false

/-! ## Steps -/

/-- A step is one of the fabric. -/
theorem transition_of_callStep (h : callStep H w e = some w') :
    ∃ f, e.event w = some f ∧ Transition H w f w' := by
  obtain ⟨f, hf, hstep⟩ := Option.bind_eq_some_iff.mp h
  exact ⟨f, hf, transition_of_step hstep⟩

/-- Every step of the calls keeps the invariant of the fabric. -/
theorem wellFormed_callStep (hw : WellFormed w) (h : callStep H w e = some w') : WellFormed w' := by
  obtain ⟨f, -, htrans⟩ := transition_of_callStep h
  exact hw.step htrans

/-- A call that throws is seen as an exception, and no other step is. -/
theorem throws_iff {f : Event} (hf : e.event w = some f) :
    throws w e = true ↔ ∃ c, f = .raise c := by
  cases e with
  | other e =>
      simp only [CallEvent.event, Option.ite_none_left_eq_some, Option.some_inj] at hf
      obtain ⟨hother, rfl⟩ := hf
      constructor
      · intro h
        cases h
      · rintro ⟨c, rfl⟩
        exact absurd rfl hother
  | backend c a =>
      obtain ⟨call, hcall, hdue⟩ := Option.bind_eq_some_iff.mp hf
      simp only [Option.ite_none_right_eq_some, Option.some_inj] at hdue
      obtain ⟨-, rfl⟩ := hdue
      rw [throws, hcall, Option.any_some]
      unfold OwnerCall.event
      constructor
      · intro hthrows
        exact ⟨c, if_pos hthrows⟩
      · rintro ⟨d, heq⟩
        by_contra hno
        rw [if_neg hno] at heq
        cases a <;> cases heq

/-- An exception leaves the entry of its owner as it is. -/
theorem abandoned_of_raise (hw : WellFormed w) (h : Transition H w (.raise c) w') :
    ¬ NoneAbandoned w' := by
  intro hnone
  obtain ⟨call, hcall, hphase⟩ : ∃ call : Call, w'.calls c = some { call with phase := .raised } ∧
      ∃ entry, call.entry = some entry ∧ entry.outcome = none := by
    cases h with
    | advance hcall hadv =>
        cases hadv with
        | raised hphase =>
            refine ⟨_, Function.update_self .., coherent_owning (hw.coherent c _ hcall) ?_⟩
            rcases hphase with hphase | hphase | ⟨b, id, hphase⟩ <;> rw [hphase] <;> rfl
    | fail hcall hlock hentry hfail => cases hfail
    | lease he => obtain ⟨_, he⟩ | ⟨_, he⟩ := he <;> cases he
    | recovering hrec => cases hrec
  obtain ⟨entry, hentry, hopen⟩ := hphase
  have hdone := hnone.done c _ entry hcall rfl hentry
  rw [hopen] at hdone
  cases hdone

/-- When no owner has been left by an exception, nothing is abandoned. -/
theorem noneAbandoned_of_unraised (hw : WellFormed w) (hu : Unraised w) : NoneAbandoned w where
  done c call entry hcall hended hentry := by
    by_contra hopen
    rw [Option.not_isSome_iff_eq_none] at hopen
    have howning := running_of_unraised hw hu ⟨hcall, entry, hentry, hopen⟩
    cases hphase : call.phase <;> rw [hphase] at hended howning <;> cases hended <;> cases howning
  awaited c call o hcall hphase := by
    obtain ⟨owner, howner, hentry, -⟩ := hw.waiting c call o hcall hphase
    obtain ⟨entry, hentry⟩ := Option.isSome_iff_exists.mp hentry
    refine ⟨owner, entry, howner, hentry, ?_⟩
    cases hopen : entry.outcome with
    | some r => exact .inl rfl
    | none => exact .inr (running_of_unraised hw hu ⟨howner, entry, hentry, hopen⟩)
  joined k o ho := by
    obtain ⟨owner, hopen, -⟩ := unfinished_of_activeOwner hw ho
    exact ⟨owner, hopen.1, running_of_unraised hw hu hopen⟩

/-- The converse. -/
theorem NoneAbandoned.unraised (hw : WellFormed w) (h : NoneAbandoned w) : Unraised w := by
  intro c call hcall hphase
  cases hentry : call.entry with
  | none => rfl
  | some entry =>
      have hdone := h.done c call entry hcall (by rw [hphase]; rfl) hentry
      have hcoherent := hw.coherent c call hcall
      rw [hphase] at hcoherent
      rw [hcoherent entry hentry] at hdone
      cases hdone

/-! ## Runs -/

/-- A run abandons no entry, in any state that it goes through, exactly when no call of a backend
throws in it.
SOURCE: Fabric.cpp:252-391, CpuBackend.cpp:175-192 -/
theorem noneAbandoned_iff (H : Bytes → Digest) (p : Process) (es : List CallEvent) (w : World)
    (hrun : exec (callStep H) { process := p } es = some w) :
    Meets (callStep H) (fun w e => ∀ w', callStep H w e = some w' → NoneAbandoned w')
        { process := p } es ↔
      Meets (callStep H) (fun w e => ¬ throws w e = true) { process := p } es := by
  refine meets_congr (I := fun w => WellFormed w ∧ Unraised w) ?_ ?_
    ⟨WellFormed.init p, fun _ _ h => (nomatch h)⟩ hrun
  · rintro w e w' ⟨hw, hu⟩ hstep
    obtain ⟨f, hf, htrans⟩ := transition_of_callStep hstep
    rw [throws_iff hf, not_exists]
    constructor
    · rintro hnone c rfl
      exact abandoned_of_raise hw htrans (hnone w' hstep)
    · intro hno w'' hw''
      obtain rfl := Option.some.inj (hstep.symm.trans hw'')
      exact noneAbandoned_of_unraised (hw.step htrans) (hu.step htrans hno)
  · rintro w e w' hnone hstep ⟨hw, -⟩
    have hw' := wellFormed_callStep hw hstep
    exact ⟨hw', (hnone w' hstep).unraised hw'⟩

/-! ## Two runs -/

/-- A backend that answers every call of a build with the same output. -/
def sameAnswer (answer : BackendCall BackendOutput) : BackendCalls where
  variants _ := { compiled := answer }
  winner := answer
  plain := answer

/-- A call up to its build. -/
def upToBuild (request : CompilationRequest) (answer : BackendCall BackendOutput) :
    List CallEvent :=
  [.other (.compile request 1 0), .other (.join 0), .backend 0 (.check (some (.ok ()))),
    .backend 0 (.build (sameAnswer answer) 0)]

/-- Autotuning, a second call that waits, and the owner's return. -/
def answeredSteps : List CallEvent :=
  let request : CompilationRequest := { autotune := true, autotuneCandidates := 2 }
  upToBuild request (some (.ok { executable := [1] })) ++
    [.other (.compile request 1 0), .other (.join 1), .other (.number 0),
      .backend 0 (.validate (some (.ok { passed := true })) {} 0), .other (.commit 0),
      .other (.complete 0)]

/-- Nothing throws, so nothing is abandoned. -/
theorem noneAbandoned_answered :
    Meets (callStep fun _ => .zero)
      (fun w e => ∀ w', callStep (fun _ => .zero) w e = some w' → NoneAbandoned w')
      { process := unstored } answeredSteps := by
  obtain ⟨w, hrun⟩ := Option.isSome_iff_exists.mp (show
    (exec (callStep fun _ => .zero) { process := unstored } answeredSteps).isSome = true by
      decide +kernel)
  refine (noneAbandoned_iff _ unstored _ w hrun).mpr ?_
  exact meets_of_checks (p := fun w e => !throws w e)
    (fun w e h => by simpa using h) (by decide +kernel)

/-- The request needs two vectors of 2^32 - 1 doubles to be validated, and the allocation throws;
the next request for the key joins a call that is gone. -/
def exhaustedSteps : List CallEvent :=
  let request : CompilationRequest := { source := ascii "add", staticShape := [-1] }
  upToBuild request none ++ [.other (.compile request 1 0), .other (.join 1)]

/-- The phase of a call that waits for the owner. -/
def waitsFor (owner : CallId) : Phase → Bool
  | .waiting o => o = owner
  | _ => false

/-- INTERNAL: the phase is that of a waiter of the owner. -/
theorem waitsFor_eq_true {owner : CallId} {phase : Phase} :
    waitsFor owner phase = true ↔ phase = .waiting owner := by
  cases phase <;> simp [waitsFor]

/-- A vector too large for the memory leaves an entry, and a call that waits for it, for good. -/
theorem not_noneAbandoned : ∃ w : World,
    exec (callStep fun _ => .zero) { process := unstored } exhaustedSteps = some w ∧
      ¬ NoneAbandoned w := by
  obtain ⟨w, hrun, hw⟩ := (Option.any_eq_true _ _).mp (show
    (exec (callStep fun _ => .zero) { process := unstored } exhaustedSteps).any (fun w =>
      ((w.calls 1).any fun call => waitsFor 0 call.phase) &&
      (w.calls 0).any fun owner => !owner.phase.owning &&
        owner.entry.all fun entry => entry.outcome.isNone) = true by decide +kernel)
  refine ⟨w, hrun, fun hnone => ?_⟩
  simp only [Bool.and_eq_true, Option.any_eq_true] at hw
  obtain ⟨⟨call, hcall, hwaiting⟩, owner, howner, hgone, hopen⟩ := hw
  obtain ⟨owner', entry, howner', hentry, hdone⟩ :=
    hnone.awaited 1 call 0 hcall (waitsFor_eq_true.mp hwaiting)
  rw [howner, Option.some_inj] at howner'
  subst howner'
  rw [hentry, Option.all_some, Option.isNone_iff_eq_none] at hopen
  rw [hopen] at hdone
  rcases hdone with hdone | hdone
  · cases hdone
  · rw [hdone] at hgone
    cases hgone

end CompilationFabric.Analysis
