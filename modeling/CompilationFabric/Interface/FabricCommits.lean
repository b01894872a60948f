import CompilationFabric.Interface.FabricHistory

/-!
# Who has committed, and what has been marked

A call commits at most once, and a call that has not committed yet is not marked by an
invalidation (`CommitLog`).  So whatever an invalidation had marked before a call started was
committed by an earlier call.  An entry whose artifact is marked says so (`Marked`), as long as
nothing writes over the mark.
-/

set_option autoImplicit false

namespace CompilationFabric.Interface

open CompilationFabric.Library.TransitionSystem
open CompilationFabric.Model

variable {H : Bytes → Digest} {w w' : World} {e : Event} {es : List Event} {c o : CallId}
  {call call' : Call} {m : Commit}

/-- The artifact of the call has gone into the cache. -/
def hasCommitted : Phase → Bool
  | .storing _ _ | .committed _ | .returned .owner (.ok _) => true
  | _ => false

/-- What the log of commits says about the calls. -/
structure CommitLog (w : World) : Prop where
  started : ∀ m ∈ w.log, m.call < w.nextCall
  after : ∀ m ∈ w.log, ∀ call, w.calls m.call = some call → hasCommitted call.phase = true
  once : ∀ m ∈ w.log, ∀ m' ∈ w.log, m.call = m'.call → m = m'
  invalidated : ∀ o, w.invalidated o → ∃ m ∈ w.log, m.call = o
  /-- What was marked before a call started was committed by an earlier call. -/
  barrier : ∀ c call o, w.calls c = some call → call.barrier o → w.invalidated o ∧ o < c

/-- A fresh process has committed nothing. -/
theorem commitLog_init (p : Process) : CommitLog { process := p } where
  started _ h := nomatch h
  after _ h := nomatch h
  once _ h := nomatch h
  invalidated _ h := h.elim
  barrier _ _ _ h := nomatch h

/-- What a call does once it has committed. -/
theorem Moved.committed_cases (h : Moved H w c call e call')
    (hphase : hasCommitted call.phase = true) :
    ∃ v, (∃ stage, call.phase = .storing v stage ∧
        (call'.phase = .committed v ∨ ∃ stage', call'.phase = .storing v stage')) ∨
      ∃ attempt, call.phase = .committed v ∧
        call'.phase = .returned .owner (.ok (v.result H call attempt)) := by
  cases h with
  | wait hp => rw [hp] at hphase; cases hphase
  | own hp => rw [hp] at hphase; cases hphase
  | wake hp => rw [hp] at hphase; cases hphase
  | advance hadv =>
      cases hadv with
      | compiling hp => rw [hp] at hphase; cases hphase
      | built hp => rw [hp] at hphase; cases hphase
      | validated hp => rw [hp] at hphase; cases hphase
      | raised hp => rcases hp with hp | hp | ⟨b, id, hp⟩ <;> rw [hp] at hphase <;> cases hphase
  | fail hentry hfail =>
      cases hfail with
      | noBackend hp => rw [hp] at hphase; cases hphase
      | incompatible hp => rw [hp] at hphase; cases hphase
      | build hp => rw [hp] at hphase; cases hphase
      | validation hp => rw [hp] at hphase; cases hphase
      | notPassed hp => rw [hp] at hphase; cases hphase
      | stale hp => rw [hp] at hphase; cases hphase
  | number hp => rw [hp] at hphase; cases hphase
  | publish hp => rw [hp] at hphase; cases hphase
  | write hp => exact ⟨_, .inl ⟨_, hp, .inr ⟨_, rfl⟩⟩⟩
  | release hp => exact ⟨_, .inl ⟨_, hp, .inl rfl⟩⟩
  | complete hp => exact ⟨_, .inr ⟨_, hp, rfl⟩⟩

/-- A call that has committed stays one. -/
theorem Moved.staysCommitted (h : Moved H w c call e call')
    (hphase : hasCommitted call.phase = true) : hasCommitted call'.phase = true := by
  obtain ⟨v, ⟨stage, -, hp | ⟨stage', hp⟩⟩ | ⟨attempt, -, hp⟩⟩ := h.committed_cases hphase <;>
    rw [hp] <;> rfl

/-- The log grows by a publication alone. -/
theorem log_cases (h : Transition H w e w') :
    w'.log = w.log ∨ ∃ c call v, e = .commit c ∧ w.calls c = some call ∧
      call.phase = .validated v ∧ w' = w.publish c call v := by
  cases h with
  | publish hcall hphase => exact .inr ⟨_, _, _, rfl, hcall, hphase, rfl⟩
  | write hcall hphase hwrite => cases hwrite <;> exact .inl rfl
  | _ => exact .inl rfl

/-- Marks are made by an invalidation, of artifacts that are in the cache. -/
theorem invalidated_cases (h : Transition H w e w') (ho : w'.invalidated o) :
    w.invalidated o ∨ ∃ a k entry, e = .invalidate a ∧ w' = w.invalidate a ∧
      w.impl.cache[k]? = some entry ∧ a.selects k entry = true ∧ entry.origin = o := by
  cases h with
  | @invalidate a hlock =>
      rcases ho with ho | ⟨k, entry, hentry, hselects, horigin⟩
      · exact .inl ho
      · exact .inr ⟨a, k, entry, rfl, rfl, hentry, hselects, horigin⟩
  | write hcall hphase hwrite => cases hwrite <;> exact .inl ho
  | _ => exact .inl ho

/-- What has been invalidated stays so. -/
theorem invalidated_mono (h : Transition H w e w') (ho : w.invalidated o) : w'.invalidated o := by
  cases h with
  | invalidate => exact .inl ho
  | write hcall hphase hwrite => cases hwrite <;> exact ho
  | _ => exact ho

/-- Calls are numbered upwards. -/
theorem nextCall_mono (h : Transition H w e w') : w.nextCall ≤ w'.nextCall := by
  cases callsStep_of_transition h with
  | same hcalls hnext => exact hnext
  | entered h hcalls hnext => exact hnext ▸ Nat.le_succ _
  | moved hcall h hcalls hnext => exact hnext.ge
  | ended hrestart hcalls hnext => exact hnext.ge

namespace CommitLog

/-- A call that is about to commit has not done so. -/
theorem not_mem_of_validated (hl : CommitLog w) (hcall : w.calls c = some call) {v : Validated}
    (hphase : call.phase = .validated v) (hm : m ∈ w.log) : m.call ≠ c := by
  rintro rfl
  have hdone := hl.after m hm call hcall
  rw [hphase] at hdone
  cases hdone

/-- The commits that were there before. -/
theorem after_step (hl : CommitLog w) (h : Transition H w e w') (hm : m ∈ w.log) :
    ∀ call, w'.calls m.call = some call → hasCommitted call.phase = true := by
  intro call' hcall'
  rcases (callsStep_of_transition h).call_cases hcall' with hold | ⟨hnew, -⟩ | ⟨call, hcall, hmoved⟩
  · exact hl.after m hm call' hold
  · exact absurd hnew (hl.started m hm).ne
  · exact hmoved.staysCommitted (hl.after m hm call hcall)

/-- Every step keeps the log of the commits in order. -/
theorem step (hl : CommitLog w) (hw : WellFormed w) (hr : Recorded H w)
    (h : Transition H w e w') : CommitLog w' := by
  have hlog := log_cases h
  refine ⟨?_, ?_, ?_, ?_, ?_⟩
  · intro m hm
    rcases hlog with heq | ⟨c, call, v, -, hcall, -, rfl⟩
    · exact (hl.started m (heq ▸ hm)).trans_le (nextCall_mono h)
    · rcases List.mem_cons.mp hm with rfl | hm
      · exact hw.lt_nextCall hcall
      · exact hl.started m hm
  · intro m hm
    rcases hlog with heq | ⟨c, call, v, -, hcall, hphase, rfl⟩
    · exact hl.after_step h (heq ▸ hm)
    · rcases List.mem_cons.mp hm with rfl | hm
      · intro call' hcall'
        simp only [World.publish, World.setCall_calls, Function.update_self,
          Option.some.injEq] at hcall'
        subst hcall'
        dsimp only
        split <;> rfl
      · exact hl.after_step h hm
  · intro m hm m' hm' hcalls
    rcases hlog with heq | ⟨c, call, v, -, hcall, hphase, rfl⟩
    · exact hl.once m (heq ▸ hm) m' (heq ▸ hm') hcalls
    · rcases List.mem_cons.mp hm with rfl | hm <;> rcases List.mem_cons.mp hm' with rfl | hm'
      · rfl
      · exact absurd hcalls.symm (hl.not_mem_of_validated hcall hphase hm')
      · exact absurd hcalls (hl.not_mem_of_validated hcall hphase hm)
      · exact hl.once m hm m' hm' hcalls
  · intro o ho
    rcases invalidated_cases h ho with hold | ⟨a, k, entry, -, -, hentry, -, rfl⟩
    · obtain ⟨m, hm, hmo⟩ := hl.invalidated o hold
      exact ⟨m, mem_log_of_transition h hm, hmo⟩
    · obtain ⟨m, hm, hof⟩ := hr.cache k entry hentry
      exact ⟨m, mem_log_of_transition h hm, hof.origin⟩
  · intro c call' o hcall' ho
    rcases (callsStep_of_transition h).call_cases hcall' with hold | ⟨rfl, hnew⟩ | ⟨call, hcall, hmoved⟩
    · obtain ⟨hinv, hlt⟩ := hl.barrier c call' o hold ho
      exact ⟨invalidated_mono h hinv, hlt⟩
    · have hinv : w.invalidated o := by cases hnew <;> exact ho
      obtain ⟨m, hm, rfl⟩ := hl.invalidated o hinv
      exact ⟨invalidated_mono h hinv, hl.started m hm⟩
    · have hbarrier : call.barrier o := by cases hmoved <;> exact ho
      obtain ⟨hinv, hlt⟩ := hl.barrier c call o hcall hbarrier
      exact ⟨invalidated_mono h hinv, hlt⟩

end CommitLog

/-- Every run keeps its history. -/
structure History (H : Bytes → Digest) (w : World) : Prop where
  wellFormed : WellFormed w
  recorded : Recorded H w
  commits : CommitLog w

/-- The history of a fresh process. -/
theorem history_init (H : Bytes → Digest) (p : Process) : History H { process := p } :=
  ⟨.init p, recorded_init H p, commitLog_init p⟩

/-- Every step keeps the history. -/
theorem History.step (hh : History H w) (h : Transition H w e w') : History H w' :=
  ⟨hh.wellFormed.step h, hh.recorded.step hh.wellFormed h,
    hh.commits.step hh.wellFormed hh.recorded h⟩

/-- Every run keeps the history. -/
theorem history_exec (hh : History H w) (h : exec (step H) w es = some w') : History H w' :=
  exec_invariant (fun _ _ _ hs hh => hh.step (transition_of_step hs)) h hh

/-- An entry goes back to one commit. -/
theorem History.commit_unique (hh : History H w) {k k' : CompilationKey} {e₁ e₂ : CacheEntry}
    (h₁ : w.impl.cache[k]? = some e₁) (h₂ : w.impl.cache[k']? = some e₂)
    (horigin : e₁.origin = e₂.origin) : k = k' := by
  obtain ⟨m₁, hm₁, hof₁⟩ := hh.recorded.cache k e₁ h₁
  obtain ⟨m₂, hm₂, hof₂⟩ := hh.recorded.cache k' e₂ h₂
  have heq := hh.commits.once m₁ hm₁ m₂ hm₂ (by rw [hof₁.origin, hof₂.origin, horigin])
  rw [← hof₁.commitKey, ← hof₂.commitKey, heq]

/-! ## The marks -/

/-- A marked artifact says so. -/
def Marked (w : World) : Prop :=
  ∀ (k : CompilationKey) (e : CacheEntry), w.impl.cache[k]? = some e → w.invalidated e.origin →
    e.descriptor.state = ascii "Invalidated"

/-- A supersession writes over the mark, and a recovery over the descriptor; nothing else does. -/
theorem Marked.step (hm : Marked w) (hh : History H w) (h : Transition H w e w')
    (hsupersede : ∀ id gen, e ≠ .supersede id gen)
    (hrecover : ∀ t valid k l, e = .recoverInsert t → w.recoveries t = some (.loading [] valid) →
      lastLoaded valid k = some l → ¬ w.invalidated l.origin) : Marked w' := by
  intro k entry hentry hinv
  cases cacheStep_of_transition h hentry with
  | kept he₀ hmarks => exact hm k entry he₀ (hmarks ▸ hinv)
  | @touched _ _ e₀ _ he₀ hmarks => exact hm k e₀ he₀ (hmarks ▸ hinv)
  | @published c call v hcall hphase hkey =>
      -- what a call puts into the cache has not been there before
      obtain ⟨m, hm', hmc⟩ := hh.commits.invalidated c hinv
      exact absurd hmc (hh.commits.not_mem_of_validated hcall hphase hm')
  | invalidated he₀ => rfl
  | passed he₀ hselects =>
      rcases hinv with hold | ⟨k', e', he', hselects', horigin⟩
      · exact hm k entry he₀ hold
      · -- another entry of the same commit would be the same entry
        obtain rfl := hh.commit_unique he' he₀ horigin
        rw [he₀, Option.some_inj] at he'
        rw [← he', hselects] at hselects'
        cases hselects'
  | superseded => exact absurd rfl (hsupersede _ _)
  | @unloaded _ _ e₀ he₀ hmarks => exact hm k e₀ he₀ (hmarks ▸ hinv)
  | recovered hphase hlast hmarks => exact absurd (hmarks ▸ hinv) (hrecover _ _ k _ rfl hphase hlast)

/-- No call was served a marked artifact from the cache. -/
def ServedUnmarked (w : World) : Prop :=
  ∀ c call o r, w.calls c = some call → call.phase = .returned (.cache o) r → ¬ call.barrier o

/-- A step serves no call from an entry that has been marked. -/
theorem ServedUnmarked.step (hs : ServedUnmarked w) (hm : Marked w) (h : Transition H w e w') :
    ServedUnmarked w' := by
  intro c call' o r hcall' hphase'
  rcases (callsStep_of_transition h).call_cases hcall' with hold | ⟨-, hnew⟩ | ⟨call, hcall, hmoved⟩
  · exact hs c call' o r hold hphase'
  · cases hnew with
    | miss hplan hmiss => cases hmiss <;> cases hphase'
    | hit hplan he hfast =>
        cases hphase'
        intro hinv
        have hstate := (fastPath_eq_some hfast).1
        rw [hm _ _ he hinv] at hstate
        exact absurd hstate (by decide)
  · cases hmoved.returnsBy hphase'

end CompilationFabric.Interface
