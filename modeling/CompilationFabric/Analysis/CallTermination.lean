import CompilationFabric.Analysis.AbandonedEntries
import CompilationFabric.Interface.FabricOwners
import CompilationFabric.Interface.FabricRank

/-!
# Every call ends

`compile` blocks in two places, the condition variable of an in-flight entry and the lock, and
an owner loops nowhere.  So the calls of a fabric cannot block one another: as long as one of
them is under way, one of them can take its next step, whatever the backend answers.  And they
cannot go on for ever either, since each step is one of at most `rank w` that are left.

The one way for a call not to end is the one of the abandoned entries: it waits for an owner
that was left by an exception of its backend (`Stranded`).
-/

set_option autoImplicit false

namespace CompilationFabric.Analysis

open CompilationFabric.Library.TransitionSystem
open CompilationFabric.Model
open CompilationFabric.Interface

variable {H : Bytes → Digest} {w w' : World} {e : Event} {es : List Event} {c : CallId}
  {call : Call}

/-! ## The property -/

/-- The call waits for an owner that was left by an exception. -/
def Stranded (w : World) (call : Call) : Prop :=
  ∃ o owner, call.phase = .waiting o ∧ w.calls o = some owner ∧ owner.phase = .raised

/-- Every call has ended, or will never. -/
structure AllEnded (w : World) : Prop where
  calls : ∀ c call, w.calls c = some call → hasEnded call.phase = true ∨ Stranded w call
  recoveries : ∀ t, w.recoveries t = none
  lock : w.impl.lock = none

/-- The calls come to their end by themselves: at most `rank w` steps are left, they can be taken
until none is possible, and then every call has ended. -/
structure Terminates (H : Bytes → Digest) (w : World) : Prop where
  bounded : ∀ es w', (∀ e ∈ es, advances e = true) → exec (step H) w es = some w' →
    es.length ≤ rank w
  halts : ∃ es w', (∀ e ∈ es, progresses e = true) ∧ exec (step H) w es = some w' ∧
    Halted (step H) (progresses · = true) w'
  ended : ∀ es w', (∀ e ∈ es, advances e = true) → exec (step H) w es = some w' →
    Halted (step H) (progresses · = true) w' → AllEnded w'

/-! ## Nothing blocks -/

/-- INTERNAL: where a step can be taken the fabric has not halted. -/
theorem exists_step_of_isSome (he : progresses e = true) (h : (step H w e).isSome) :
    ¬ Halted (step H) (progresses · = true) w := by
  intro hhalted
  rw [hhalted e he] at h
  cases h

/-- Whoever holds the lock can go on. -/
theorem lock_of_halted (hw : WellFormed w) (hhalted : Halted (step H) (progresses · = true) w) :
    w.impl.lock = none := by
  cases hlock : w.impl.lock with
  | none => rfl
  | some c =>
      obtain ⟨call, hcall, hstoring⟩ := (hw.lock c).mp hlock
      cases hphase : call.phase with
      | storing v stage =>
          refine absurd hhalted (exists_step_of_isSome (e := .storeStep c false) rfl ?_)
          simp [step, World.storeStep, hcall, hphase]
      | _ =>
          rw [hphase] at hstoring
          cases hstoring

/-- An owner whose entry is not done can go on, whatever its backend answers. -/
theorem not_halted_of_owning (hw : WellFormed w) (hlock : w.impl.lock = none)
    (hcall : w.calls c = some call) (howning : call.phase.owning = true) :
    ¬ Halted (step H) (progresses · = true) w := by
  obtain ⟨entry, hentry, -⟩ := coherent_owning (hw.coherent c call hcall) howning
  cases hphase : call.phase with
  | checking =>
      refine exists_step_of_isSome (e := .check c (.error ⟨.Ok, []⟩)) rfl ?_
      simp only [step, World.check, hcall, hphase, bind, Option.bind_some]
      split <;> simp [World.finish, hlock, hentry]
  | compiling =>
      refine exists_step_of_isSome
        (e := .build c { variants := fun _ => { compiled := .error ⟨.Ok, []⟩ }
                         winner := .error ⟨.Ok, []⟩
                         plain := .error ⟨.Ok, []⟩ } 0) rfl ?_
      simp only [step, World.build, hcall, hphase, bind, Option.bind_some]
      split <;> simp [World.finish, hlock, hentry]
  | built b =>
      refine exists_step_of_isSome (e := .number c) rfl ?_
      simp [step, World.number, hcall, hphase]
  | numbered b id =>
      refine exists_step_of_isSome (e := .validate c (.error ⟨.Ok, []⟩) {} 0) rfl ?_
      simp [step, World.validate, hcall, hphase, hentry, World.finish, hlock]
  | validated v =>
      refine exists_step_of_isSome (e := .commit c) rfl ?_
      simp only [step, World.commit, hcall, hphase, hentry, hlock, bind, Option.bind_some, if_true]
      split <;> simp [World.finish, hlock, hentry]
  | storing v stage =>
      refine exists_step_of_isSome (e := .storeStep c false) rfl ?_
      simp [step, World.storeStep, hcall, hphase]
  | committed v =>
      refine exists_step_of_isSome (e := .complete c) rfl ?_
      simp [step, World.complete, hcall, hphase, hentry, World.finish, hlock]
  | _ =>
      rw [hphase] at howning
      cases howning

/-- A call that is past its lookup can decide who owns its key. -/
theorem not_halted_of_missed (hlock : w.impl.lock = none) (hcall : w.calls c = some call)
    (hphase : call.phase = .missed) : ¬ Halted (step H) (progresses · = true) w := by
  refine exists_step_of_isSome (e := .join c) rfl ?_
  simp only [step, World.join, hcall, hphase, hlock, bind, Option.bind_some, if_true]
  split <;> rfl

/-- A call that waits is woken, or its owner goes on, or it is stranded. -/
theorem stranded_of_waiting (hw : WellFormed w) (hlock : w.impl.lock = none)
    (hhalted : Halted (step H) (progresses · = true) w) (hcall : w.calls c = some call) {o : CallId}
    (hphase : call.phase = .waiting o) : Stranded w call := by
  obtain ⟨owner, howner, hentry, -⟩ := hw.waiting c call o hcall hphase
  obtain ⟨entry, hentry⟩ := Option.isSome_iff_exists.mp hentry
  have hcoherent := hw.coherent o owner howner
  cases hdone : entry.outcome with
  | some r =>
      refine absurd hhalted (exists_step_of_isSome (e := .wake c) rfl ?_)
      rw [wake_of_done hcall hphase howner hentry hdone hlock]
      rfl
  | none =>
      refine ⟨o, owner, hphase, howner, ?_⟩
      rw [hentry] at hcoherent
      cases howning : owner.phase.owning with
      | true => exact absurd hhalted (not_halted_of_owning hw hlock howner howning)
      | false =>
          cases hown : owner.phase with
          | raised => rfl
          | returned served r =>
              rw [hown] at hcoherent
              rw [coherent_returned hcoherent] at hdone
              cases hdone
          | missed => rw [hown] at hcoherent; cases hcoherent
          | waiting => rw [hown] at hcoherent; cases hcoherent
          | _ => rw [hown] at howning; cases howning

/-- A `recover` call can always go on. -/
theorem recoveries_of_halted (hlock : w.impl.lock = none)
    (hhalted : Halted (step H) (progresses · = true) w) (t : ℕ) : w.recoveries t = none := by
  cases hphase : w.recoveries t with
  | none => rfl
  | some p =>
      cases p with
      | cleaning todo =>
          cases todo with
          | nil =>
              refine absurd hhalted (exists_step_of_isSome (e := .listRecords t w.dir.keys) rfl ?_)
              simp [step, World.listRecords, hphase]
          | cons name todo =>
              refine absurd hhalted (exists_step_of_isSome (e := .removeTmp t) rfl ?_)
              simp [step, World.removeTmp, hphase]
      | loading todo valid =>
          cases todo with
          | nil =>
              refine absurd hhalted (exists_step_of_isSome (e := .recoverInsert t) rfl ?_)
              simp [step, World.recoverInsert, hphase, hlock]
          | cons name todo =>
              refine absurd hhalted (exists_step_of_isSome (e := .readMeta t) rfl ?_)
              simp only [step, World.readMeta, hphase]
              split <;> rfl
      | content id gen found todo valid =>
          refine absurd hhalted (exists_step_of_isSome (e := .readContent t) rfl ?_)
          simp only [step, World.readContent, hphase]
          split
          · rfl
          · split <;> rfl

/-- When nothing goes on by itself, everything has ended. -/
theorem allEnded_of_halted (hw : WellFormed w)
    (hhalted : Halted (step H) (progresses · = true) w) : AllEnded w := by
  have hlock := lock_of_halted hw hhalted
  refine ⟨fun c call hcall => ?_, recoveries_of_halted hlock hhalted, hlock⟩
  cases hphase : call.phase with
  | returned => exact .inl rfl
  | raised => exact .inl rfl
  | missed => exact absurd hhalted (not_halted_of_missed hlock hcall hphase)
  | waiting o => exact .inr (stranded_of_waiting hw hlock hhalted hcall hphase)
  | _ => exact absurd hhalted (not_halted_of_owning hw hlock hcall (by rw [hphase]; rfl))

/-! ## Every run -/

/-- INTERNAL: a step that makes progress advances. -/
theorem progresses_advances (he : progresses e = true) : advances e = true := by
  cases e <;> first | exact he | rfl

/-- Without an exception of a backend no call is stranded. -/
theorem not_stranded (hw : WellFormed w) (hu : Unraised w) (hcall : w.calls c = some call) :
    ¬ Stranded w call := by
  rintro ⟨o, owner, hphase, howner, hraised⟩
  obtain ⟨owner', howner', hentry, -⟩ := hw.waiting c call o hcall hphase
  rw [howner, Option.some_inj] at howner'
  rw [← howner', hu o owner howner hraised] at hentry
  cases hentry

/-- In a run without exceptions no call is left between its entry and the throw. -/
theorem unraised_exec {p : Process} (hexec : exec (step H) { process := p } es = some w)
    (hno : ∀ c, Event.raise c ∉ es) : Unraised w := by
  have hmeets : Meets (step H) (fun _ e => ∀ c, e ≠ .raise c) { process := p } es :=
    meets_of_forall fun e he _ c hc => hno c (hc ▸ he)
  exact exec_induction (fun _ _ _ he hs hu => hu.step (transition_of_step hs) he) hmeets hexec
    fun _ _ h => nomatch h

/-- In every state that a fabric gets to, across restarts and whatever has been called and however
the calls interleave, the calls come to their end by themselves; and unless a backend has thrown,
they all do.
SOURCE: Fabric.cpp:217-437, 561-585 -/
theorem calls_terminate (H : Bytes → Digest) (p : Process) (es : List Event) (w : World)
    (hexec : exec (step H) { process := p } es = some w) :
    Terminates H w ∧ ((∀ c, Event.raise c ∉ es) →
      ∀ c call, w.calls c = some call → ¬ Stranded w call) := by
  have hn := enrolled_exec hexec
  refine ⟨⟨fun es' w' hes' hexec' => ranked.length_le_rank hn hes' hexec', ?_, ?_⟩, ?_⟩
  · have hranked : Ranked (step H) (progresses · = true) Enrolled rank :=
      ⟨fun s e s' he => ranked.keeps s e s' (progresses_advances he),
        fun s e s' he => ranked.lowers s e s' (progresses_advances he)⟩
    exact hranked.exists_halted hn
  · intro es' w' hes' hexec' hhalted
    exact allEnded_of_halted (wellFormed_exec hn.wellFormed hexec') hhalted
  · intro hno c call hcall
    exact not_stranded hn.wellFormed (unraised_exec hexec hno) hcall

/-- Two calls under one key, of which the second waits for the first. -/
theorem calls_terminate_waiting : ∃ w, exec (step fun _ => .zero) {}
    [.compile {} 1 0, .compile {} 2 0, .join 0, .join 1] = some w ∧
    Terminates (fun _ => .zero) w := by
  obtain ⟨w, hrun⟩ := Option.isSome_iff_exists.mp (show (exec (step fun _ => .zero) {}
    [.compile {} 1 0, .compile {} 2 0, .join 0, .join 1]).isSome = true by decide +kernel)
  exact ⟨w, hrun, (calls_terminate _ {} _ w hrun).1⟩

end CompilationFabric.Analysis
