import CompilationFabric.Interface.FabricCommits

/-!
# Artifact numbers

Every owner draws the number of its artifact from the process's counter.  The counter is an
`atomic<uint64_t>`, so it comes back to a number only after a whole round; as long as no call
draws a number that another one has (`DrawsFresh`), the numbers of a process tell its artifacts
apart (`Numbered`).
-/

set_option autoImplicit false

namespace CompilationFabric.Interface

open CompilationFabric.Library.TransitionSystem
open CompilationFabric.Model

variable {H : Bytes → Digest} {w w' : World} {e : Event} {es : List Event} {c : CallId}
  {call call' : Call} {id : ArtifactId}

/-- The number that the artifact of a call has. -/
def drawn : Phase → Option ArtifactId
  | .numbered _ id => some id
  | .validated v | .storing v _ | .committed v => some v.art.id
  | .returned .owner (.ok res) => some res.artifactId
  | _ => none

/-- The number a call draws is not one that another call of the process has.
SOURCE: Fabric.cpp:362 -/
def DrawsFresh (w : World) : Event → Prop
  | .number _ => ∀ d x, w.calls d = some x →
      drawn x.phase ≠ some (.fromU64 (w.impl.artifactCounter + 1))
  | _ => True

/-- No two calls have one number, and a committed artifact has that of its call. -/
structure Numbered (w : World) : Prop where
  distinct : ∀ c d u x id, w.calls c = some u → w.calls d = some x → drawn u.phase = some id →
    drawn x.phase = some id → c = d
  log : ∀ m ∈ w.log, ∃ call, w.calls m.call = some call ∧ drawn call.phase = some m.id

/-- A fresh process has drawn no number. -/
theorem numbered_init (p : Process) : Numbered { process := p } where
  distinct _ _ _ _ _ h := nomatch h
  log _ h := nomatch h

/-- A call has the number that it had, or draws one. -/
theorem Moved.drawn_before (h : Moved H w c call e call') (hdrawn : drawn call'.phase = some id) :
    drawn call.phase = some id ∨
      (e = .number c ∧ id = .fromU64 (w.impl.artifactCounter + 1)) := by
  cases h with
  | advance hadv =>
      cases hadv with
      | validated hphase hentry hpassed => exact .inl (by rw [hphase]; exact hdrawn)
      | _ => cases hdrawn
  | number hphase => exact .inr ⟨rfl, (Option.some.inj hdrawn).symm⟩
  | publish hphase =>
      rw [hphase]
      dsimp only at hdrawn
      split at hdrawn <;> exact .inl hdrawn
  | write hphase => exact .inl (by rw [hphase]; exact hdrawn)
  | release hphase => exact .inl (by rw [hphase]; exact hdrawn)
  | complete hphase => exact .inl (by rw [hphase]; exact hdrawn)
  | _ => cases hdrawn

/-- A call that has committed keeps its number. -/
theorem Moved.keepsDrawn (h : Moved H w c call e call')
    (hphase : hasCommitted call.phase = true) : drawn call'.phase =
      drawn call.phase := by
  obtain ⟨v, ⟨stage, hp, hp' | ⟨stage', hp'⟩⟩ | ⟨attempt, hp, hp'⟩⟩ := h.committed_cases hphase <;>
    rw [hp, hp'] <;> rfl

/-- A call that has a number after a step had it before, or has drawn it in the step. -/
theorem drawn_before (h : Transition H w e w') (hcall' : w'.calls c = some call')
    (hdrawn : drawn call'.phase = some id) :
    (∃ call, w.calls c = some call ∧ drawn call.phase = some id) ∨
      (e = .number c ∧ id = .fromU64 (w.impl.artifactCounter + 1)) := by
  rcases (callsStep_of_transition h).call_cases hcall' with hold | ⟨-, hnew⟩ | ⟨call, hcall, hmoved⟩
  · exact .inl ⟨call', hold, hdrawn⟩
  · cases hnew with
    | miss hplan hmiss => cases hmiss <;> cases hdrawn
    | hit => cases hdrawn
  · exact (hmoved.drawn_before hdrawn).imp_left fun hd => ⟨call, hcall, hd⟩

/-- The commits that were there before. -/
theorem Numbered.log_step (hn : Numbered w) (hh : History H w) (h : Transition H w e w')
    (hsame : isRestart e = false) {m : Commit} (hm : m ∈ w.log) :
    ∃ call, w'.calls m.call = some call ∧ drawn call.phase = some m.id := by
  obtain ⟨call, hcall, hdrawn⟩ := hn.log m hm
  obtain ⟨call', hcall', -⟩ := later_of_transition hh.wellFormed h hsame m.call call hcall
  refine ⟨call', hcall', ?_⟩
  rcases (callsStep_of_transition h).call_cases hcall' with hold | ⟨hnew, -⟩ | ⟨u, hu, hmoved⟩
  · rw [hcall, Option.some_inj] at hold
    exact hold ▸ hdrawn
  · exact absurd hnew (hh.commits.started m hm).ne
  · rw [hcall, Option.some_inj] at hu
    subst hu
    rw [hmoved.keepsDrawn (hh.commits.after m hm call hcall), hdrawn]

/-- A step that draws a fresh number keeps the numbers apart. -/
theorem Numbered.step (hn : Numbered w) (hh : History H w) (h : Transition H w e w')
    (hsame : isRestart e = false) (hfresh : DrawsFresh w e) : Numbered w' where
  distinct := by
    intro c d u x id hu hx hdu hdx
    rcases drawn_before h hu hdu with ⟨u₀, hu₀, hdu₀⟩ | ⟨rfl, rfl⟩ <;>
      rcases drawn_before h hx hdx with ⟨x₀, hx₀, hdx₀⟩ | ⟨he, hid⟩
    · exact hn.distinct c d u₀ x₀ id hu₀ hx₀ hdu₀ hdx₀
    · subst he hid
      exact absurd hdu₀ (hfresh c u₀ hu₀)
    · exact absurd hdx₀ (hfresh d x₀ hx₀)
    · exact Event.number.inj he
  log := by
    intro m hm
    rcases log_cases h with heq | ⟨c, call, v, -, -, -, rfl⟩
    · exact hn.log_step hh h hsame (heq ▸ hm)
    · rcases List.mem_cons.mp hm with rfl | hm
      · refine ⟨_, Function.update_self .., ?_⟩
        dsimp only
        split <;> rfl
      · exact hn.log_step hh h hsame hm

/-- Two commits of one number are one commit. -/
theorem Numbered.call_eq (hn : Numbered w) {m m' : Commit} (hm : m ∈ w.log) (hm' : m' ∈ w.log)
    (hid : m.id = m'.id) : m.call = m'.call := by
  obtain ⟨u, hu, hdu⟩ := hn.log m hm
  obtain ⟨x, hx, hdx⟩ := hn.log m' hm'
  exact hn.distinct m.call m'.call u x m.id hu hx hdu (hid ▸ hdx)

end CompilationFabric.Interface
