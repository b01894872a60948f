import CompilationFabric.Interface.FabricCalls

/-!
# Runs of the fabric

What a run keeps: every run is well formed, and within one process lifetime its calls are
`Later` at the end.  A call that was served as a waiter has the result of its owner
(`Agreed`).  The cache generation counts the invalidations, and the toolchain generation
those by compiler generation.
-/

set_option autoImplicit false

namespace CompilationFabric.Interface

open CompilationFabric.Library.TransitionSystem
open CompilationFabric.Model

/-- The events that are an `invalidateBy*` call. -/
def isInvalidation : Event → Bool
  | .invalidate _ => true
  | _ => false

/-- The events that advance the toolchain generation. -/
def isToolchainInvalidation : Event → Bool
  | .invalidate a => a.advancesToolchain
  | _ => false

/-- The run stays within one process lifetime. -/
def SameProcess (_ : World) (e : Event) : Prop := isRestart e = false

/-- What a call has returned, and how it came by it. -/
def returned (w : World) (c : CallId) : Option (Served × Result CompilationResult) := do
  let call ← w.calls c
  match call.phase with
  | .returned served result => some (served, result)
  | _ => none

variable {H : Bytes → Digest} {w w' w'' : World} {e : Event} {es : List Event} {c : CallId}
  {call call' : Call}

/-- A call has returned when its phase says so. -/
theorem returned_eq_some {served : Served} {result : Result CompilationResult} :
    returned w c = some (served, result) ↔
      ∃ call, w.calls c = some call ∧ call.phase = .returned served result := by
  unfold returned
  cases hcall : w.calls c with
  | none => simp
  | some call =>
      change (match call.phase with
        | .returned served result => some (served, result)
        | _ => none) = _ ↔ _
      cases hphase : call.phase <;> simp [hphase]

/-- INTERNAL: what is there is no error. -/
theorem eq_ok_of_toOption {ε α : Type} {x : Except ε α} {a : α} (h : x.toOption = some a) :
    x = .ok a := by
  cases x with
  | error e => cases h
  | ok b =>
      cases h
      rfl

/-- The steps of an owner whose backend succeeds and validates, up to its commit. -/
def ownerSteps (c : CallId) (output : BackendOutput) : List Event :=
  [.check c (.ok ()),
    .build c { variants := fun _ => { compiled := .ok output }
               winner := .ok output
               plain := .ok output } 0,
    .number c,
    .validate c (.ok { passed := true }) {} 0]

/-- A fabric without a store. -/
def unstored : Process := { config := { persistenceEnabled := false } }

/-! ## What a run keeps -/

/-- Every run keeps the invariant. -/
theorem wellFormed_exec (hw : WellFormed w) (h : exec (step H) w es = some w') :
    WellFormed w' :=
  exec_invariant (fun _ _ _ hs hw => hw.step (transition_of_step hs)) h hw

/-- In a run without a restart every call becomes a later one. -/
theorem later_exec (hw : WellFormed w) (hsame : Meets (step H) SameProcess w es)
    (h : exec (step H) w es = some w') : Later w w' := by
  have hboth : WellFormed w' ∧ Later w w' := by
    refine exec_induction (I := fun u => WellFormed u ∧ Later w u) ?_ hsame h ⟨hw, .refl w⟩
    rintro s e s' hs hstep ⟨hwf, hlater⟩
    have htrans := transition_of_step hstep
    exact ⟨hwf.step htrans, hlater.trans (later_of_transition hwf htrans hs)⟩
  exact hboth.2

/-- A number is given to one call only: a call of an earlier process does not come back. -/
theorem gone_exec (h : exec (step H) w es = some w') (hc : c < w.nextCall)
    (hgone : w.calls c = none) : w'.calls c = none := by
  have hboth : c < w'.nextCall ∧ w'.calls c = none := by
    refine exec_invariant (I := fun u => c < u.nextCall ∧ u.calls c = none) ?_ h ⟨hc, hgone⟩
    rintro s e s' hstep ⟨hlt, hnone⟩
    cases callsStep_of_transition (transition_of_step hstep) with
    | same hcalls hnext => exact ⟨hlt.trans_le hnext, hcalls ▸ hnone⟩
    | entered h hcalls hnext =>
        rw [hnext, hcalls, Function.update_of_ne hlt.ne]
        exact ⟨Nat.lt_succ_of_lt hlt, hnone⟩
    | @moved d u u' hu h hcalls hnext =>
        have hne : c ≠ d := by
          rintro rfl
          rw [hnone] at hu
          cases hu
        rw [hnext, hcalls, Function.update_of_ne hne]
        exact ⟨hlt, hnone⟩
    | ended hrestart hcalls hnext => exact ⟨hnext ▸ hlt, by rw [hcalls]⟩
  exact hboth.2

/-- A restart leaves no calls, and goes on with their numbers. -/
theorem calls_of_restart (h : Transition H w e w') (he : isRestart e = true) :
    w'.calls = (fun _ => none) ∧ w'.nextCall = w.nextCall := by
  cases h with
  | restart => exact ⟨rfl, rfl⟩
  | advance hcall hadv => cases hadv <;> cases he
  | fail hcall hlock hentry hfail => cases hfail <;> cases he
  | lease he' => rcases he' with ⟨id, rfl⟩ | ⟨id, rfl⟩ <;> cases he
  | recovering h => cases h <;> cases he
  | _ => cases he

/-- A run at whose end a call of the first state is still there has no restart in it. -/
theorem sameProcess_of_call (h : exec (step H) w es = some w') (hc : c < w.nextCall)
    (hcall : w'.calls c ≠ none) : Meets (step H) SameProcess w es := by
  induction es generalizing w with
  | nil => trivial
  | cons e es ih =>
      obtain ⟨s, hstep, hes⟩ := exec_cons.mp h
      have hstep' := callsStep_of_transition (transition_of_step hstep)
      have hsame : isRestart e = false := by
        by_contra hrestart
        obtain ⟨hcalls, hnext⟩ := calls_of_restart (transition_of_step hstep)
          (Bool.eq_true_of_not_eq_false hrestart)
        exact hcall (gone_exec hes (hnext ▸ hc) (by rw [hcalls]))
      have hlt : c < s.nextCall := by
        cases hstep' with
        | same hcalls hnext => exact hc.trans_le hnext
        | entered h hcalls hnext => exact hnext ▸ Nat.lt_succ_of_lt hc
        | moved hcall h hcalls hnext => exact hnext ▸ hc
        | ended hrestart hcalls hnext => exact hnext ▸ hc
      refine ⟨hsame, fun s' hs' => ?_⟩
      rw [hstep, Option.some_inj] at hs'
      exact hs' ▸ ih hes hlt

/-- Whoever was served as a waiter has what the owner's entry was completed with. -/
def Agreed (w : World) : Prop :=
  ∀ c call o r, w.calls c = some call → call.phase = .returned (.waiter o) r →
    ∃ owner entry, w.calls o = some owner ∧ owner.entry = some entry ∧ entry.outcome = some r

/-- Every step keeps waiters and owners in agreement. -/
theorem Agreed.step (hw : WellFormed w) (ha : Agreed w) (h : Transition H w e w') :
    Agreed w' := by
  intro c call' o r hcall' hphase'
  -- an owner that was done before the step still is, with the same outcome
  have hkeep : ∀ owner entry, w.calls o = some owner → owner.entry = some entry →
      entry.outcome = some r → ∃ owner entry, w'.calls o = some owner ∧
        owner.entry = some entry ∧ entry.outcome = some r := by
    intro owner entry howner hentry hdone
    have hsame : isRestart e = false := by
      by_contra hrestart
      rw [(calls_of_restart h (Bool.eq_true_of_not_eq_false hrestart)).1] at hcall'
      cases hcall'
    obtain ⟨owner', howner', hlater⟩ := later_of_transition hw h hsame o owner howner
    obtain ⟨entry', hentry', hel⟩ := hlater.entry entry hentry
    exact ⟨owner', entry', howner', hentry', hel.outcome r hdone⟩
  rcases (callsStep_of_transition h).call_cases hcall' with hold | ⟨-, hnew⟩ | ⟨call, hcall, hmoved⟩
  · obtain ⟨owner, entry, howner, hentry, hdone⟩ := ha c call' o r hold hphase'
    exact hkeep owner entry howner hentry hdone
  · cases hnew with
    | miss hplan hmiss => cases hmiss <;> cases hphase'
    | hit => cases hphase'
  · cases hmoved.returnsBy hphase' with
    | wake hphase howner hentry hdone => exact hkeep _ _ howner hentry hdone

/-- Every run keeps waiters and owners in agreement. -/
theorem agreed_exec (hw : WellFormed w) (ha : Agreed w) (h : exec (step H) w es = some w') :
    Agreed w' := by
  have hboth : WellFormed w' ∧ Agreed w' := by
    refine exec_invariant (I := fun u => WellFormed u ∧ Agreed u) ?_ h ⟨hw, ha⟩
    rintro s e s' hstep ⟨hwf, hagreed⟩
    have htrans := transition_of_step hstep
    exact ⟨hwf.step htrans, hagreed.step hwf htrans⟩
  exact hboth.2

/-- A fresh process has no waiters. -/
theorem agreed_init (p : Process) : Agreed { process := p } := fun _ _ _ _ h => nomatch h

/-! ## The process and its generations -/

/-- Only a restart changes the process. -/
theorem process_step (hsame : isRestart e = false) (h : Transition H w e w') :
    w'.process = w.process := by
  cases h with
  | advance hcall hadv => cases hadv <;> rfl
  | fail hcall hlock hentry hfail => cases hfail <;> rfl
  | write hcall hphase hwrite => cases hwrite <;> rfl
  | restart => cases hsame
  | _ => rfl

/-- A run without a restart stays in its process. -/
theorem process_exec (hsame : Meets (step H) SameProcess w es)
    (h : exec (step H) w es = some w') : w'.process = w.process :=
  exec_rel (R := fun u u' : World => u'.process = u.process) (fun _ => rfl)
    (fun _ _ _ h h' => h'.trans h)
    (fun _ _ _ hs hstep => process_step hs (transition_of_step hstep)) hsame h

/-- The cache generation counts the invalidations. -/
theorem cacheGen_step (hsame : isRestart e = false) (h : Transition H w e w') :
    w'.impl.cacheGen = if isInvalidation e then w.impl.cacheGen + 1 else w.impl.cacheGen := by
  cases h with
  | advance hcall hadv => cases hadv <;> rfl
  | fail hcall hlock hentry hfail => cases hfail <;> rfl
  | write hcall hphase hwrite => cases hwrite <;> rfl
  | lease he => rcases he with ⟨id, rfl⟩ | ⟨id, rfl⟩ <;> rfl
  | recovering h => cases h <;> rfl
  | restart => cases hsame
  | _ => rfl

/-- The toolchain generation counts those of the toolchain. -/
theorem toolchainGen_step (hsame : isRestart e = false) (h : Transition H w e w') :
    w'.impl.toolchainGen =
      if isToolchainInvalidation e then w.impl.toolchainGen + 1 else w.impl.toolchainGen := by
  cases h with
  | advance hcall hadv => cases hadv <;> rfl
  | fail hcall hlock hentry hfail => cases hfail <;> rfl
  | write hcall hphase hwrite => cases hwrite <;> rfl
  | lease he => rcases he with ⟨id, rfl⟩ | ⟨id, rfl⟩ <;> rfl
  | recovering h => cases h <;> rfl
  | restart => cases hsame
  | _ => rfl

/-- Adding one `n` times adds `n`, modulo the word size. -/
theorem iterate_succ_eq (g : UInt64) (n : ℕ) : (fun x => x + 1)^[n] g = g + UInt64.ofNat n := by
  induction n with
  | zero => simp
  | succ n ih =>
      rw [Function.iterate_succ_apply', ih, UInt64.ofNat_add, UInt64.add_assoc]
      rfl

/-- The cache generation counts the invalidations, modulo the word size. -/
theorem cacheGen_exec (hsame : Meets (step H) SameProcess w es)
    (h : exec (step H) w es = some w') :
    w'.impl.cacheGen = w.impl.cacheGen + UInt64.ofNat (es.countP isInvalidation) := by
  rw [← iterate_succ_eq]
  exact exec_count (f := fun u : World => u.impl.cacheGen)
    (fun _ _ _ hs hstep => cacheGen_step hs (transition_of_step hstep)) hsame h

/-- Over a run it counts them all, modulo `2 ^ 64`. -/
theorem toolchainGen_exec (hsame : Meets (step H) SameProcess w es)
    (h : exec (step H) w es = some w') :
    w'.impl.toolchainGen =
      w.impl.toolchainGen + UInt64.ofNat (es.countP isToolchainInvalidation) := by
  rw [← iterate_succ_eq]
  exact exec_count (f := fun u : World => u.impl.toolchainGen)
    (fun _ _ _ hs hstep => toolchainGen_step hs (transition_of_step hstep)) hsame h

end CompilationFabric.Interface
