import CompilationFabric.Interface.FabricTransition

/-!
# Calls, entries and the lock

The invariant every statement about runs of the fabric starts from (`WellFormed`): a call
that owns an in-flight entry has one, which is done exactly when the call has returned;
whoever waits, and whatever `inflight` holds, points to an owner of the same key; and the
lock is held exactly by the call that is writing its record.

`WellFormed.move` is the one argument behind it.  A step of a call rewrites that call alone,
so a case has to say what its new phase and entry are and nothing about the others.
-/

set_option autoImplicit false

namespace CompilationFabric.Interface

open CompilationFabric.Library.TransitionSystem
open CompilationFabric.Model

/-! ## What a phase says about the entry -/

/-- The call is between two file steps of its store. -/
def storing : Phase → Bool
  | .storing _ _ => true
  | _ => false

/-- The entry of a call in a phase: none before ownership, not done while the call goes on,
and done with the call's own result afterwards. -/
def Coherent (phase : Phase) (entry : Option InflightEntry) : Prop :=
  match phase with
  | .missed | .waiting _ | .returned (.cache _) _ | .returned (.waiter _) _ => entry = none
  | .returned .owner r => ∃ e, entry = some e ∧ e.outcome = some r
  | .raised => ∀ e, entry = some e → e.outcome = none
  | _ => ∃ e, entry = some e ∧ e.outcome = none

/-- The number is of a call under the key that has become an owner. -/
def OwnerOf (w : World) (key : CompilationKey) (o : CallId) : Prop :=
  ∃ owner, w.calls o = some owner ∧ owner.entry.isSome ∧ owner.key = key

/-- The structural invariant. -/
structure WellFormed (w : World) : Prop where
  fresh : ∀ c, w.nextCall ≤ c → w.calls c = none
  coherent : ∀ c call, w.calls c = some call → Coherent call.phase call.entry
  waiting : ∀ c call o, w.calls c = some call → call.phase = .waiting o → OwnerOf w call.key o
  inflight : ∀ key o, w.impl.inflight[key]? = some o → OwnerOf w key o
  lock : ∀ c, w.impl.lock = some c ↔ ∃ call, w.calls c = some call ∧ storing call.phase = true

/-- A check of every call there has been. -/
def allCalls (w : World) (p : Call → Bool) : Bool :=
  (List.range w.nextCall).all fun c => (w.calls c).all p

variable {H : Bytes → Digest} {w w' : World} {e : Event} {c : CallId} {call call' : Call}

/-- An owner's entry is there and not done. -/
theorem coherent_owning {phase : Phase} {entry : Option InflightEntry}
    (h : Coherent phase entry) (howning : phase.owning = true) :
    ∃ e, entry = some e ∧ e.outcome = none := by
  cases phase <;> first | exact h | simp [Phase.owning] at howning

/-- An entry that is done is done with what its owner returned. -/
theorem coherent_done {phase : Phase} {entry : InflightEntry} {r : Result CompilationResult}
    (h : Coherent phase (some entry)) (hdone : entry.outcome = some r) :
    phase = .returned .owner r := by
  cases phase with
  | returned served result =>
      cases served with
      | owner =>
          obtain ⟨e, he, hresult⟩ := h
          rw [← Option.some.inj he, hdone, Option.some_inj] at hresult
          rw [hresult]
      | _ => cases h
  | missed => cases h
  | waiting o => cases h
  | raised =>
      rw [h entry rfl] at hdone
      cases hdone
  | _ =>
      obtain ⟨e, he, hnone⟩ := h
      rw [← Option.some.inj he, hdone] at hnone
      cases hnone

/-- A call that has returned and has an entry is done with it. -/
theorem coherent_returned {served : Served} {r : Result CompilationResult} {entry : InflightEntry}
    (h : Coherent (.returned served r) (some entry)) : entry.outcome = some r := by
  cases served with
  | owner =>
      obtain ⟨e, he, hresult⟩ := h
      rw [Option.some.inj he, hresult]
  | _ => cases h

/-- INTERNAL: an owner stays one when the owning calls do. -/
theorem OwnerOf.mono {key : CompilationKey} {o : CallId} (h : OwnerOf w key o)
    (hcalls : ∀ c call, w.calls c = some call → call.entry.isSome →
      ∃ call', w'.calls c = some call' ∧ call'.entry.isSome ∧ call'.key = call.key) :
    OwnerOf w' key o := by
  obtain ⟨owner, howner, hentry, hkey⟩ := h
  obtain ⟨owner', howner', hentry', hkey'⟩ := hcalls o owner howner hentry
  exact ⟨owner', howner', hentry', hkey'.trans hkey⟩

namespace WellFormed

/-- A fresh process is well formed. -/
theorem init (p : Process) : WellFormed { process := p } where
  fresh _ _ := rfl
  coherent _ _ h := by cases h
  waiting _ _ _ h := by cases h
  inflight key o h := by simp at h
  lock c := by simp

/-- A call has a number that has been given out. -/
theorem lt_nextCall (hw : WellFormed w) (hcall : w.calls c = some call) : c < w.nextCall := by
  by_contra hge
  rw [hw.fresh c (not_lt.mp hge)] at hcall
  cases hcall

/-- INTERNAL: what is checked of all calls holds of each. -/
theorem of_allCalls (hw : WellFormed w) {p : Call → Bool} (h : allCalls w p = true)
    (hcall : w.calls c = some call) : p call = true := by
  have hall := List.all_eq_true.mp h c (List.mem_range.mpr (hw.lt_nextCall hcall))
  rwa [hcall, Option.all_some] at hall

/-- A step that leaves the calls, the in-flight map and the lock alone. -/
theorem congr (hw : WellFormed w) (hcalls : w'.calls = w.calls)
    (hnext : w.nextCall ≤ w'.nextCall) (hinflight : w'.impl.inflight = w.impl.inflight)
    (hlock : w'.impl.lock = w.impl.lock) : WellFormed w' where
  fresh c hc := by
    rw [hcalls]
    exact hw.fresh c (hnext.trans hc)
  coherent c call h := hw.coherent c call (hcalls ▸ h)
  waiting c call o h hphase :=
    (hw.waiting c call o (hcalls ▸ h) hphase).mono fun c call hcall hentry =>
      ⟨call, hcalls ▸ hcall, hentry, rfl⟩
  inflight key o h :=
    (hw.inflight key o (hinflight ▸ h)).mono fun c call hcall hentry =>
      ⟨call, hcalls ▸ hcall, hentry, rfl⟩
  lock c := by rw [hlock, hcalls, hw.lock]

/-- A step of one call, which keeps its key and does not lose its entry. -/
theorem move (hw : WellFormed w) (hcall : w.calls c = some call)
    (hcalls : w'.calls = Function.update w.calls c (some call'))
    (hnext : w'.nextCall = w.nextCall) (hkey : call'.key = call.key)
    (hkeep : call.entry.isSome → call'.entry.isSome)
    (hcoherent : Coherent call'.phase call'.entry)
    (hwaiting : ∀ o, call'.phase = .waiting o → OwnerOf w call.key o)
    (hinflight : ∀ key o, w'.impl.inflight[key]? = some o →
      w.impl.inflight[key]? = some o ∨ key = call.key ∧ o = c ∧ call'.entry.isSome)
    (hlock : w'.impl.lock = if storing call'.phase then some c
      else if storing call.phase then none else w.impl.lock)
    (hfree : storing call'.phase = true → storing call.phase = false → w.impl.lock = none) :
    WellFormed w' := by
  have hmono : ∀ d u, w.calls d = some u → u.entry.isSome →
      ∃ u', w'.calls d = some u' ∧ u'.entry.isSome ∧ u'.key = u.key := by
    intro d u hu hentry
    by_cases hd : d = c
    · subst hd
      rw [hcall, Option.some_inj] at hu
      subst hu
      exact ⟨call', by rw [hcalls, Function.update_self], hkeep hentry, hkey⟩
    · exact ⟨u, by rw [hcalls, Function.update_of_ne hd, hu], hentry, rfl⟩
  have hself : w'.calls c = some call' := by rw [hcalls, Function.update_self]
  have hother : ∀ d, d ≠ c → w'.calls d = w.calls d := fun d hd => by
    rw [hcalls, Function.update_of_ne hd]
  refine ⟨?_, ?_, ?_, ?_, ?_⟩
  · intro d hd
    rw [hnext] at hd
    have hne : d ≠ c := by
      rintro rfl
      rw [hw.fresh d hd] at hcall
      cases hcall
    rw [hother d hne, hw.fresh d hd]
  · intro d u hu
    by_cases hd : d = c
    · subst hd
      rw [hself, Option.some_inj] at hu
      exact hu ▸ hcoherent
    · exact hw.coherent d u (hother d hd ▸ hu)
  · intro d u o hu hphase
    by_cases hd : d = c
    · subst hd
      rw [hself, Option.some_inj] at hu
      subst hu
      exact hkey ▸ (hwaiting o hphase).mono hmono
    · exact (hw.waiting d u o (hother d hd ▸ hu) hphase).mono hmono
  · intro key o ho
    rcases hinflight key o ho with hold | ⟨rfl, rfl, hentry⟩
    · exact (hw.inflight key o hold).mono hmono
    · exact ⟨call', hself, hentry, hkey⟩
  · intro d
    rw [hlock]
    by_cases hd : d = c
    · subst hd
      rw [hself]
      by_cases hs : storing call'.phase
      · simp [hs]
      · by_cases hs₀ : storing call.phase
        · simp [hs, hs₀]
        · have hnot : w.impl.lock ≠ some d := by
            rw [Ne, hw.lock]
            rintro ⟨u, hu, hus⟩
            rw [hcall, Option.some_inj] at hu
            exact hs₀ (hu ▸ hus)
          simp [hs, hs₀, hnot]
    · rw [hother d hd]
      by_cases hs : storing call'.phase
      · -- the lock was free, or it was the same call's
        rw [if_pos hs]
        have hnone : ¬ ∃ u, w.calls d = some u ∧ storing u.phase = true := by
          rw [← hw.lock]
          intro hlock'
          by_cases hs₀ : storing call.phase
          · have hc := (hw.lock c).mpr ⟨call, hcall, hs₀⟩
            rw [hlock', Option.some_inj] at hc
            exact hd hc
          · rw [hfree hs (Bool.eq_false_of_not_eq_true hs₀)] at hlock'
            cases hlock'
        simp [hnone, Ne.symm hd]
      · rw [if_neg hs]
        by_cases hs₀ : storing call.phase
        · have hc := (hw.lock c).mpr ⟨call, hcall, hs₀⟩
          have hnone : ¬ ∃ u, w.calls d = some u ∧ storing u.phase = true := by
            rw [← hw.lock, hc, Option.some_inj]
            exact fun h => hd h.symm
          simp [hs₀, hnone]
        · rw [if_neg hs₀, hw.lock]

/-- A new call. -/
theorem enter (hw : WellFormed w) (hcalls : w'.calls = Function.update w.calls w.nextCall (some call))
    (hnext : w'.nextCall = w.nextCall + 1) (hinflight : w'.impl.inflight = w.impl.inflight)
    (hlock : w'.impl.lock = w.impl.lock) (hcoherent : Coherent call.phase call.entry)
    (hwaiting : ∀ o, call.phase ≠ .waiting o) (hstoring : storing call.phase = false) :
    WellFormed w' := by
  have hnew : w.calls w.nextCall = none := hw.fresh _ le_rfl
  have hself : w'.calls w.nextCall = some call := by rw [hcalls, Function.update_self]
  have hother : ∀ d, d ≠ w.nextCall → w'.calls d = w.calls d := fun d hd => by
    rw [hcalls, Function.update_of_ne hd]
  have hmono : ∀ d u, w.calls d = some u → u.entry.isSome →
      ∃ u', w'.calls d = some u' ∧ u'.entry.isSome ∧ u'.key = u.key := by
    intro d u hu hentry
    have hd : d ≠ w.nextCall := by
      rintro rfl
      rw [hnew] at hu
      cases hu
    exact ⟨u, by rw [hother d hd, hu], hentry, rfl⟩
  refine ⟨?_, ?_, ?_, ?_, ?_⟩
  · intro d hd
    rw [hnext] at hd
    rw [hother d (Nat.lt_of_succ_le hd).ne', hw.fresh d (Nat.le_of_succ_le hd)]
  · intro d u hu
    by_cases hd : d = w.nextCall
    · subst hd
      rw [hself, Option.some_inj] at hu
      exact hu ▸ hcoherent
    · exact hw.coherent d u (hother d hd ▸ hu)
  · intro d u o hu hphase
    by_cases hd : d = w.nextCall
    · subst hd
      rw [hself, Option.some_inj] at hu
      exact absurd (hu ▸ hphase) (hwaiting o)
    · exact (hw.waiting d u o (hother d hd ▸ hu) hphase).mono hmono
  · intro key o ho
    exact (hw.inflight key o (hinflight ▸ ho)).mono hmono
  · intro d
    rw [hlock, hw.lock]
    by_cases hd : d = w.nextCall
    · subst hd
      simp [hnew, hself, hstoring]
    · rw [hother d hd]

/-- An active owner is listed and has no outcome yet. -/
theorem activeOwner_eq_some {key : CompilationKey} {o : CallId}
    (h : w.activeOwner key = some o) :
    w.impl.inflight[key]? = some o ∧
      ∃ owner entry, w.calls o = some owner ∧ owner.entry = some entry ∧ entry.outcome = none := by
  obtain ⟨o', ho, h⟩ := Option.bind_eq_some_iff.mp h
  obtain ⟨owner, howner, h⟩ := Option.bind_eq_some_iff.mp h
  obtain ⟨entry, hentry, h⟩ := Option.bind_eq_some_iff.mp h
  split at h
  · next hnone =>
    cases h
    exact ⟨ho, owner, entry, howner, hentry, Option.isNone_iff_eq_none.mp hnone⟩
  · cases h

/-- Every step keeps the invariant, by one case for each way it can end. -/
theorem step (hw : WellFormed w) (h : Transition H w e w') : WellFormed w' := by
  cases h with
  | refuse => exact hw.congr rfl (Nat.le_succ _) rfl rfl
  | miss hplan hlock hmiss =>
      cases hmiss with
      | missed h => exact hw.enter rfl rfl rfl rfl rfl (fun _ h => nomatch h) rfl
      | raised he h =>
          exact hw.enter rfl rfl rfl rfl (fun _ h => nomatch h) (fun _ h => nomatch h) rfl
  | hit => exact hw.enter rfl rfl rfl rfl rfl (fun _ h => nomatch h) rfl
  | @wait c o call hcall hphase hlock hactive =>
      have hcoherent := hw.coherent c call hcall
      rw [hphase] at hcoherent
      refine hw.move hcall rfl rfl rfl id hcoherent ?_ (fun _ _ h => .inl h) ?_ (by simp [storing])
      · rintro o' ⟨⟩
        exact hw.inflight _ _ (activeOwner_eq_some hactive).1
      · simp [storing, hphase]
  | @own c call hcall hphase hlock hactive =>
      refine hw.move hcall rfl rfl rfl (fun _ => rfl) ⟨_, rfl, rfl⟩ (fun _ h => nomatch h) ?_ ?_
        (by simp [storing])
      · intro key o ho
        change (w.impl.inflight.insert call.key c)[key]? = some o at ho
        rw [Std.ExtTreeMap.getElem?_insert] at ho
        split at ho
        · next hkey =>
          cases ho
          exact .inr ⟨(Std.LawfulEqOrd.compare_eq_iff_eq.mp hkey).symm, rfl, rfl⟩
        · exact .inl ho
      · simp [storing, hphase, World.own]
  | wake hcall hphase hlock howner hentry hdone =>
      have hcoherent := hw.coherent _ _ hcall
      rw [hphase] at hcoherent
      refine hw.move hcall rfl rfl rfl id hcoherent (fun _ h => nomatch h) (fun _ _ h => .inl h) ?_
        (by simp [storing])
      simp [storing, hphase]
  | advance hcall hadv =>
      have hcoherent := hw.coherent _ _ hcall
      cases hadv with
      | compiling hphase hbackend =>
          rw [hphase] at hcoherent
          refine hw.move hcall rfl rfl rfl id hcoherent (fun _ h => nomatch h)
            (fun _ _ h => .inl h) ?_ (by simp [storing])
          simp [storing, hphase]
      | built hphase hbuild =>
          rw [hphase] at hcoherent
          refine hw.move hcall rfl rfl rfl id hcoherent (fun _ h => nomatch h)
            (fun _ _ h => .inl h) ?_ (by simp [storing])
          simp [storing, hphase]
      | validated hphase hentry hpassed =>
          rw [hphase] at hcoherent
          refine hw.move hcall rfl rfl rfl id hcoherent (fun _ h => nomatch h)
            (fun _ _ h => .inl h) ?_ (by simp [storing])
          simp [storing, hphase]
      | raised hphase =>
          obtain ⟨entry, hentry, hnone⟩ := coherent_owning hcoherent (by
            rcases hphase with hphase | hphase | ⟨b, id, hphase⟩ <;> rw [hphase] <;> rfl)
          refine hw.move hcall rfl rfl rfl id
            (fun e he => Option.some.inj (hentry.symm.trans he) ▸ hnone) (fun _ h => nomatch h)
            (fun _ _ h => .inl h) ?_ (by simp [storing])
          rcases hphase with hphase | hphase | ⟨b, id, hphase⟩ <;> simp [storing, hphase]
  | fail hcall hlock hentry hfail =>
      refine hw.move hcall rfl rfl rfl (fun _ => rfl) ⟨_, rfl, rfl⟩ (fun _ h => nomatch h)
        (fun _ _ h => .inl h) ?_ (by simp [storing])
      simp [storing, finished, hlock]
  | number hcall hphase =>
      have hcoherent := hw.coherent _ _ hcall
      rw [hphase] at hcoherent
      refine hw.move hcall rfl rfl rfl id hcoherent (fun _ h => nomatch h) (fun _ _ h => .inl h) ?_
        (by simp [storing])
      simp [storing, hphase]
  | publish hcall hphase hentry hlock hcache htoolchain =>
      have hcoherent := hw.coherent _ _ hcall
      rw [hphase] at hcoherent
      refine hw.move hcall rfl rfl rfl id ?_ ?_ (fun _ _ h => .inl h) ?_ (fun _ _ => hlock)
      · dsimp only
        split <;> exact hcoherent
      · intro o ho
        dsimp only at ho
        split at ho <;> cases ho
      · simp only [World.publish, hphase, storing]
        split <;> simp [hlock]
  | write hcall hphase hwrite =>
      have hcoherent := hw.coherent _ _ hcall
      rw [hphase] at hcoherent
      have hlock := (hw.lock _).mpr ⟨_, hcall, by rw [hphase]; rfl⟩
      cases hwrite with
      | metaTmp hsize =>
          refine hw.move hcall rfl rfl rfl id hcoherent (fun _ h => nomatch h)
            (fun _ _ h => .inl h) ?_ (by simp [storing, hphase])
          simp [storing, hlock]
      | metaRename hsize hdir =>
          refine hw.move hcall rfl rfl rfl id hcoherent (fun _ h => nomatch h)
            (fun _ _ h => .inl h) ?_ (by simp [storing, hphase])
          simp [storing, hlock]
      | binTmp =>
          refine hw.move hcall rfl rfl rfl id hcoherent (fun _ h => nomatch h)
            (fun _ _ h => .inl h) ?_ (by simp [storing, hphase])
          simp [storing, hlock]
      | binRename hdir =>
          refine hw.move hcall rfl rfl rfl id hcoherent (fun _ h => nomatch h)
            (fun _ _ h => .inl h) ?_ (by simp [storing])
          simp [storing, hphase, World.release]
  | release hcall hphase =>
      have hcoherent := hw.coherent _ _ hcall
      rw [hphase] at hcoherent
      refine hw.move hcall rfl rfl rfl id hcoherent (fun _ h => nomatch h) (fun _ _ h => .inl h) ?_
        (by simp [storing])
      simp [storing, hphase, World.release]
  | complete hcall hphase hlock hentry =>
      refine hw.move hcall rfl rfl rfl (fun _ => rfl) ⟨_, rfl, rfl⟩ (fun _ h => nomatch h)
        (fun _ _ h => .inl h) ?_ (by simp [storing])
      simp [storing, finished, hlock]
  | invalidate => exact hw.congr rfl le_rfl rfl rfl
  | supersede => exact hw.congr rfl le_rfl rfl rfl
  | lease => exact hw.congr rfl le_rfl rfl rfl
  | recoverOff => exact hw.congr rfl le_rfl rfl rfl
  | recover => exact hw.congr rfl le_rfl rfl rfl
  | removeTmp => exact hw.congr rfl le_rfl rfl rfl
  | recovering => exact hw.congr rfl le_rfl rfl rfl
  | recoverInsert => exact hw.congr rfl le_rfl rfl rfl
  | restart =>
      exact {
        fresh := fun _ _ => rfl
        coherent := fun _ _ h => by cases h
        waiting := fun _ _ _ h => by cases h
        inflight := fun key o h => by simp at h
        lock := fun c => by simp }

end WellFormed

end CompilationFabric.Interface
