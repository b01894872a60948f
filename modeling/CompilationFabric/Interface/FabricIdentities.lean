import CompilationFabric.Interface.FabricNumbers
import CompilationFabric.Interface.RecordFile

/-!
# The identities that are in use

An artifact is in use (`Live`) while it is in the cache, has a file in the store, or has been
loaded by a `recover`.  When every call draws a number that no artifact in use has, and no other
call on its way to a commit (`DrawsUnused`), the artifacts in use have different numbers, across
restarts, and a store finds the names of its files free (`Identities`).
-/

set_option autoImplicit false

namespace CompilationFabric.Interface

open CompilationFabric.Library.TransitionSystem
open CompilationFabric.Model

variable {H : Bytes → Digest} {w w' : World} {e : Event} {es : List Event} {c o : CallId}
  {call call' : Call} {v : Validated} {stage : StoreStage} {id : ArtifactId}
  {gen : ArtifactGeneration} {m : Commit}

/-! ## Artifacts in use -/

/-- The store has a file of that name. -/
def Present (w : World) (id : ArtifactId) (gen : ArtifactGeneration) : Prop :=
  w.dir[metaPath id gen]? ≠ none ∨ w.dir[binPath id gen]? ≠ none

/-- The records a `recover` has read. -/
def loads : RecoverPhase → List Loaded
  | .cleaning _ => []
  | .loading _ valid => valid
  | .content _ _ found _ valid => found :: valid

/-- The artifact that the call has committed is in use. -/
inductive Live (w : World) (o : CallId) : Prop
  | cached {k : CompilationKey} {entry : CacheEntry} (h : w.impl.cache[k]? = some entry)
      (ho : entry.origin = o)
  | stored {id : ArtifactId} {gen : ArtifactGeneration} (h : Present w id gen)
      (ho : w.writers (metaPath id gen) = o)
  | loaded {t : ℕ} {p : RecoverPhase} {l : Loaded} (h : w.recoveries t = some p)
      (hl : l ∈ loads p) (ho : l.origin = o)
  | storing {call : Call} {v : Validated} {stage : StoreStage} (h : w.calls o = some call)
      (hphase : call.phase = .storing v stage)

/-- The number of an artifact that is not committed yet. -/
def pending : Phase → Option ArtifactId
  | .numbered _ id => some id
  | .validated v => some v.art.id
  | _ => none

/-- The number a call draws is not in use, and no other call is going to commit it.
SOURCE: Fabric.cpp:362 -/
def DrawsUnused (w : World) : Event → Prop
  | .number _ =>
      (∀ m ∈ w.log, Live w m.call → m.id ≠ .fromU64 (w.impl.artifactCounter + 1)) ∧
      ∀ d x, w.calls d = some x → pending x.phase ≠ some (.fromU64 (w.impl.artifactCounter + 1))
  | _ => True

/-! ## What a step does to a store -/

/-- A call that is storing was there already, has just committed, or has made a file step. -/
theorem storing_cases (h : Transition H w e w') (hcall' : w'.calls c = some call')
    (hphase' : call'.phase = .storing v stage) :
    w.calls c = some call' ∨
    (∃ call, e = .commit c ∧ w.calls c = some call ∧ call.phase = .validated v ∧
      stage = .metaTmp ∧ w' = w.publish c call v) ∨
    ∃ call stage₀, e = .storeStep c true ∧ w.calls c = some call ∧
      call.phase = .storing v stage₀ ∧ Writes H w c call v stage₀ w' := by
  rcases (callsStep_of_transition h).call_cases hcall' with hold | ⟨-, hnew⟩ | ⟨u, hu, hmoved⟩
  · exact .inl hold
  · cases hnew with
    | miss hplan hmiss => cases hmiss <;> cases hphase'
    | hit => cases hphase'
  · cases hmoved with
    | advance hadv => cases hadv <;> cases hphase'
    | publish hphase =>
        obtain ⟨call₂, v₂, entry₂, hcall₂, hphase₂, -, hways⟩ := commit_cases h
        rw [hu, Option.some_inj] at hcall₂
        subst hcall₂
        rcases hways with ⟨-, -, rfl⟩ | ⟨-, rfl⟩
        · rw [hphase, Phase.validated.injEq] at hphase₂
          subst hphase₂
          dsimp only at hphase'
          split at hphase' <;> cases hphase'
          exact .inr (.inl ⟨u, rfl, hu, hphase, rfl, rfl⟩)
        · rw [finished, World.setCall_calls, Function.update_self, Option.some_inj] at hcall'
          have hsame := congrArg Call.phase hcall'
          dsimp only at hsame hphase'
          rw [hphase'] at hsame
          cases hsame
    | write hphase =>
        cases hphase'
        cases h with
        | write hcall₂ hphase₂ hwrite =>
            rw [hu, Option.some_inj] at hcall₂
            subst hcall₂
            rw [hphase] at hphase₂
            cases hphase₂
            exact .inr (.inr ⟨u, _, rfl, hu, hphase, hwrite⟩)
        | release hcall₂ hphase₂ =>
            rw [World.release, World.setCall_calls, Function.update_self, Option.some_inj] at hcall'
            cases congrArg Call.phase hcall'
        | advance hcall₂ hadv => cases hadv
        | fail hcall₂ hlock hentry hfail => cases hfail
        | lease he => rcases he with ⟨id, he⟩ | ⟨id, he⟩ <;> cases he
        | recovering hrec => cases hrec
    | _ => cases hphase'

/-- New files come from the file steps of a store. -/
theorem dir_cases (h : Transition H w e w') :
    (w'.writers = w.writers ∧ ∀ name : Bytes, w.dir[name]? = none → w'.dir[name]? = none) ∨
    ∃ c call v stage, e = .storeStep c true ∧ w.calls c = some call ∧
      call.phase = .storing v stage ∧ Writes H w c call v stage w' := by
  cases h with
  | write hcall hphase hwrite => exact .inr ⟨_, _, _, _, rfl, hcall, hphase, hwrite⟩
  | @removeTmp t name todo =>
      refine .inl ⟨rfl, fun other hother => ?_⟩
      dsimp only
      rw [Std.ExtTreeMap.getElem?_erase, hother, ite_self]
  | _ => exact .inl ⟨rfl, fun _ h => h⟩

/-- A file step moves its call on. -/
theorem Writes.moves (h : Writes H w c call v stage w') (hcall' : w'.calls c = some call') :
    call'.phase ≠ .storing v stage := by
  cases h <;>
    rw [show (_ : World).calls c = _ from Function.update_self .., Option.some_inj] at hcall' <;>
    subst hcall' <;> exact fun h => nomatch h

/-- While a call stores, only its own steps write files. -/
theorem storing_step (hw : WellFormed w) (h : Transition H w e w')
    (hcall' : w'.calls c = some call') (hphase' : call'.phase = .storing v stage) :
    (w.calls c = some call' ∧ w'.writers = w.writers ∧
      ∀ name : Bytes, w.dir[name]? = none → w'.dir[name]? = none) ∨
    (∃ call, w.calls c = some call ∧ call.phase = .validated v ∧ stage = .metaTmp ∧
      w' = w.publish c call v) ∨
    ∃ call stage₀, w.calls c = some call ∧ call.phase = .storing v stage₀ ∧
      Writes H w c call v stage₀ w' := by
  rcases storing_cases h hcall' hphase' with hold | ⟨call, -, hrest⟩ | ⟨call, stage₀, -, hrest⟩
  · rcases dir_cases h with ⟨hwriters, hdir⟩ | ⟨d, call, v₂, stage₂, -, hcall, hphase, hwrite⟩
    · exact .inl ⟨hold, hwriters, hdir⟩
    · obtain rfl := storing_unique hw hold hcall (by rw [hphase']; rfl) (by rw [hphase]; rfl)
      rw [hold, Option.some_inj] at hcall
      subst hcall
      exact absurd hphase (hwrite.moves hcall')
  · exact .inr (.inl ⟨call, hrest⟩)
  · exact .inr (.inr ⟨call, stage₀, hrest⟩)

/-- A file step puts the metadata in place in its second step. -/
theorem Writes.meta_eq (h : Writes H w c call v stage w')
    (hne : ¬ (stage = .metaRename ∧ id = v.art.id ∧ gen = v.art.generation)) :
    w'.dir[metaPath id gen]? = w.dir[metaPath id gen]? ∧
      w'.writers (metaPath id gen) = w.writers (metaPath id gen) := by
  cases h with
  | metaTmp => exact ⟨getElem?_writeTmp_of_ne _ _ (metaPath_ne_tmpPath _ _ _), rfl⟩
  | metaRename hsize hdir =>
      have hname : metaPath id gen ≠ metaPath v.art.id v.art.generation := fun heq =>
        hne ⟨rfl, metaPath_inj.mp heq⟩
      obtain ⟨bytes, -, -, hother⟩ := rename_eq_some hdir
      exact ⟨hother _ hname (metaPath_ne_tmpPath _ _ _), Function.update_of_ne hname ..⟩
  | binTmp => exact ⟨getElem?_writeTmp_of_ne _ _ (metaPath_ne_tmpPath _ _ _), rfl⟩
  | binRename hdir =>
      obtain ⟨bytes, -, -, hother⟩ := rename_eq_some hdir
      exact ⟨hother _ (metaPath_ne_binPath _ _ _ _) (metaPath_ne_tmpPath _ _ _), rfl⟩

/-- And the content in its last. -/
theorem Writes.bin_eq (h : Writes H w c call v stage w')
    (hne : ¬ (stage = .binRename ∧ id = v.art.id ∧ gen = v.art.generation)) :
    w'.dir[binPath id gen]? = w.dir[binPath id gen]? := by
  cases h with
  | metaTmp => exact getElem?_writeTmp_of_ne _ _ (binPath_ne_tmpPath _ _ _)
  | metaRename hsize hdir =>
      obtain ⟨bytes, -, -, hother⟩ := rename_eq_some hdir
      exact hother _ (metaPath_ne_binPath _ _ _ _).symm (binPath_ne_tmpPath _ _ _)
  | binTmp => exact getElem?_writeTmp_of_ne _ _ (binPath_ne_tmpPath _ _ _)
  | binRename hdir =>
      have hname : binPath id gen ≠ binPath v.art.id v.art.generation := fun heq =>
        hne ⟨rfl, binPath_inj.mp heq⟩
      obtain ⟨bytes, -, -, hother⟩ := rename_eq_some hdir
      exact hother _ hname (binPath_ne_tmpPath _ _ _)

/-- INTERNAL: the rename makes the call the writer of the file. -/
theorem Writes.writers_of_metaRename (h : Writes H w c call v .metaRename w') :
    w'.writers (metaPath v.art.id v.art.generation) = c := by
  cases h
  exact Function.update_self ..

/-! ## The invariant -/

/-- The artifacts in use have different numbers, and none of them has that of a call that is still
on its way; the names of the files that a store is going to write are free. -/
structure Identities (w : World) : Prop where
  distinct : ∀ m ∈ w.log, ∀ m' ∈ w.log, Live w m.call → Live w m'.call → m.id = m'.id → m = m'
  unused : ∀ c call id, w.calls c = some call → pending call.phase = some id →
    ∀ m ∈ w.log, Live w m.call → m.id ≠ id
  pending : ∀ c d u x id, w.calls c = some u → w.calls d = some x → pending u.phase = some id →
    pending x.phase = some id → c = d
  contents : ∀ id gen, w.dir[binPath id gen]? ≠ none →
    ∃ m ∈ w.log, m.call = w.writers (metaPath id gen) ∧ m.id = id
  writing : ∀ c call v stage, w.calls c = some call → call.phase = .storing v stage →
    stage = .binTmp ∨ stage = .binRename →
    w.writers (metaPath v.art.id v.art.generation) = c
  free : ∀ c call v stage, w.calls c = some call → call.phase = .storing v stage →
    w.dir[binPath v.art.id v.art.generation]? = none ∧
    (stage = .metaTmp ∨ stage = .metaRename →
      w.dir[metaPath v.art.id v.art.generation]? = none)

/-- The step has put the artifact of the call into the cache. -/
def Published (w : World) (e : Event) (w' : World) (o : CallId) : Prop :=
  ∃ call v, e = .commit o ∧ w.calls o = some call ∧ call.phase = .validated v ∧
    w' = w.publish o call v

/-- INTERNAL: what is cached after a step was live before, or has just been published. -/
theorem live_of_cached (h : Transition H w e w') {k : CompilationKey} {entry : CacheEntry}
    (hentry : w'.impl.cache[k]? = some entry) :
    Live w entry.origin ∨ Published w e w' entry.origin := by
  cases cacheStep_of_transition h hentry with
  | kept he₀ => exact .inl (.cached he₀ rfl)
  | touched he₀ => exact .inl (.cached he₀ rfl)
  | @published c call v hcall hphase hkey => exact .inr ⟨call, v, rfl, hcall, hphase, rfl⟩
  | invalidated he₀ => exact .inl (.cached he₀ rfl)
  | passed he₀ => exact .inl (.cached he₀ rfl)
  | superseded he₀ => exact .inl (.cached he₀ rfl)
  | unloaded he₀ => exact .inl (.cached he₀ rfl)
  | recovered hphase hlast => exact .inl (.loaded hphase (mem_of_lastLoaded hlast).1 rfl)

/-- INTERNAL: what is on the disk after a step was live before. -/
theorem live_of_present (hi : Identities w) (h : Transition H w e w') (hp : Present w' id gen) :
    Live w (w'.writers (metaPath id gen)) := by
  rcases dir_cases h with ⟨hwriters, hdir⟩ | ⟨c, call, v, stage, -, hcall, hphase, hwrite⟩
  · refine @Live.stored _ _ id gen (hp.imp ?_ ?_) (by rw [hwriters])
    · exact fun hne hold => hne (hdir _ hold)
    · exact fun hne hold => hne (hdir _ hold)
  · by_cases hmeta : stage = .metaRename ∧ id = v.art.id ∧ gen = v.art.generation
    · obtain ⟨rfl, rfl, rfl⟩ := hmeta
      rw [hwrite.writers_of_metaRename]
      exact .storing hcall hphase
    · obtain ⟨hfile, hwriter⟩ := hwrite.meta_eq hmeta
      rw [hwriter]
      by_cases hbin : stage = .binRename ∧ id = v.art.id ∧ gen = v.art.generation
      · obtain ⟨rfl, rfl, rfl⟩ := hbin
        rw [hi.writing c call v _ hcall hphase (.inr rfl)]
        exact .storing hcall hphase
      · rw [Present, hfile, hwrite.bin_eq hbin] at hp
        exact .stored hp rfl

/-- What a `recover` holds after a step it held before, but for the content, or it has just read it
from a file. -/
theorem loaded_cases (h : Transition H w e w') {t : ℕ} {p : RecoverPhase} {l : Loaded}
    (hp : w'.recoveries t = some p) (hl : l ∈ loads p) :
    (∃ p' l', w.recoveries t = some p' ∧ l' ∈ loads p' ∧ l'.origin = l.origin ∧
      l'.record.key = l.record.key ∧ l'.record.descriptor = l.record.descriptor) ∨
    ∃ id gen, loadMeta H w.dir[metaPath id gen]? id gen = .ok (.ok l.record) ∧
      l.origin = w.writers (metaPath id gen) := by
  have hkeep : ∀ {p'}, w.recoveries t = some p' → l ∈ loads p' →
      ∃ p' l', w.recoveries t = some p' ∧ l' ∈ loads p' ∧ l'.origin = l.origin ∧
        l'.record.key = l.record.key ∧ l'.record.descriptor = l.record.descriptor :=
    fun hold hmem => ⟨_, l, hold, hmem, rfl, rfl, rfl⟩
  cases h with
  | recover hnames =>
      rcases of_update_eq_some (f := w.recoveries) hp with ⟨-, ⟨⟩⟩ | hold
      · cases hl
      · exact .inl (hkeep hold hl)
  | removeTmp hphase =>
      rcases of_update_eq_some (f := w.recoveries) hp with ⟨-, ⟨⟩⟩ | hold
      · cases hl
      · exact .inl (hkeep hold hl)
  | recovering hrec =>
      rcases of_update_eq_some (f := w.recoveries) hp with ⟨rfl, hnext⟩ | hold
      · cases hrec with
        | listed => cases hnext; cases hl
        | thrown => cases hnext
        | noMeta hphase => cases hnext; exact .inl (hkeep hphase hl)
        | @foundMeta id gen todo valid record hphase hload =>
            cases hnext
            rcases List.mem_cons.mp hl with rfl | hl
            · exact .inr ⟨id, gen, hload, rfl⟩
            · exact .inl (hkeep hphase hl)
        | dropped hphase => cases hnext; exact .inl (hkeep hphase (List.mem_cons_of_mem _ hl))
        | @kept id gen found todo valid record hphase hload =>
            cases hnext
            rcases List.mem_append.mp hl with hl | hl
            · exact .inl (hkeep hphase (List.mem_cons_of_mem _ hl))
            · obtain rfl := List.mem_singleton.mp hl
              obtain ⟨bin, -, rfl, -⟩ := loadContent_eq_ok hload
              exact .inl ⟨_, found, hphase, List.mem_cons_self, rfl, rfl, rfl⟩
      · exact .inl (hkeep hold hl)
  | recoverInsert hlock hphase =>
      rcases of_update_eq_some (f := w.recoveries) hp with ⟨-, ⟨⟩⟩ | hold
      exact .inl (hkeep hold hl)
  | write hcall hphase hwrite => cases hwrite <;> exact .inl (hkeep hp hl)
  | restart => cases hp
  | _ => exact .inl (hkeep hp hl)

/-- A record that has been loaded is of an artifact that was in use. -/
theorem live_of_loaded (h : Transition H w e w') {t : ℕ} {p : RecoverPhase} {l : Loaded}
    (hp : w'.recoveries t = some p) (hl : l ∈ loads p) : Live w l.origin := by
  rcases loaded_cases h hp hl with ⟨p', l', hold, hl', horigin, -, -⟩ |
    ⟨id, gen, hload, horigin⟩
  · exact .loaded hold hl' horigin
  · refine @Live.stored _ _ id gen (.inl fun hnone => ?_) horigin.symm
    rw [hnone] at hload
    cases hload

/-- An artifact in use after a step was in use before it, or has just gone into the cache. -/
theorem live_before (hi : Identities w) (h : Transition H w e w') (ho : Live w' o) :
    Live w o ∨ Published w e w' o := by
  cases ho with
  | cached hentry ho => exact ho ▸ live_of_cached h hentry
  | stored hp ho => exact .inl (ho ▸ live_of_present hi h hp)
  | loaded hp hl ho => exact .inl (ho ▸ live_of_loaded h hp hl)
  | storing hcall hphase =>
      rcases storing_cases h hcall hphase with hold | ⟨call, he, hc, hv, -, hw'⟩ |
        ⟨call, stage, -, hc, hs, -⟩
      · exact .inl (.storing hold hphase)
      · exact .inr ⟨call, _, he, hc, hv, hw'⟩
      · exact .inl (.storing hc hs)

/-- A commit that was there before is in use after a step only if it was before. -/
theorem live_of_mem (hi : Identities w) (hh : History H w) (h : Transition H w e w')
    (hm : m ∈ w.log) (ho : Live w' m.call) : Live w m.call := by
  rcases live_before hi h ho with hold | ⟨call, v, -, hcall, hphase, -⟩
  · exact hold
  · exact absurd rfl (hh.commits.not_mem_of_validated hcall hphase hm)

/-! ## Steps -/

/-- A call on its way to a commit was so before, or draws its number in the step. -/
theorem pending_before (h : Transition H w e w') (hcall' : w'.calls c = some call')
    (hpending : pending call'.phase = some id) :
    (∃ call, w.calls c = some call ∧ pending call.phase = some id) ∨
      (e = .number c ∧ id = .fromU64 (w.impl.artifactCounter + 1)) := by
  rcases (callsStep_of_transition h).call_cases hcall' with hold | ⟨-, hnew⟩ | ⟨call, hcall, hmoved⟩
  · exact .inl ⟨call', hold, hpending⟩
  · cases hnew with
    | miss hplan hmiss => cases hmiss <;> cases hpending
    | hit => cases hpending
  · cases hmoved with
    | advance hadv =>
        cases hadv with
        | validated hphase hentry hpassed =>
            exact .inl ⟨call, hcall, by rw [hphase]; exact hpending⟩
        | _ => cases hpending
    | number hphase => exact .inr ⟨rfl, (Option.some.inj hpending).symm⟩
    | publish hphase =>
        dsimp only at hpending
        split at hpending <;> cases hpending
    | _ => cases hpending

/-- A call that has just committed is not on its way any more. -/
theorem pending_publish (w : World) (c : CallId) (call : Call) (v : Validated)
    (hcall' : (w.publish c call v).calls c = some call') : pending call'.phase = none := by
  rw [World.publish, World.setCall_calls, Function.update_self, Option.some_inj] at hcall'
  subst hcall'
  dsimp only
  split <;> rfl

namespace Identities

/-- INTERNAL: one step keeps the numbers in use distinct. -/
theorem distinct_step (hi : Identities w) (hh : History H w) (h : Transition H w e w') :
    ∀ m ∈ w'.log, ∀ m' ∈ w'.log, Live w' m.call → Live w' m'.call → m.id = m'.id → m = m' := by
  intro m hm m' hm' hlive hlive' hid
  rcases log_cases h with heq | ⟨c, call, v, -, hcall, hphase, rfl⟩
  · rw [heq] at hm hm'
    exact hi.distinct m hm m' hm' (live_of_mem hi hh h hm hlive) (live_of_mem hi hh h hm' hlive') hid
  · -- the number of the new artifact was not in use
    have hunused : ∀ m ∈ w.log, Live w m.call → m.id ≠ v.art.id :=
      hi.unused c call v.art.id hcall (by rw [hphase]; rfl)
    rcases List.mem_cons.mp hm with rfl | hm <;> rcases List.mem_cons.mp hm' with rfl | hm'
    · rfl
    · exact absurd hid.symm (hunused m' hm' (live_of_mem hi hh h hm' hlive'))
    · exact absurd hid (hunused m hm (live_of_mem hi hh h hm hlive))
    · exact hi.distinct m hm m' hm' (live_of_mem hi hh h hm hlive)
        (live_of_mem hi hh h hm' hlive') hid

/-- INTERNAL: one step draws no number that is in use. -/
theorem unused_step (hi : Identities w) (hh : History H w) (h : Transition H w e w')
    (hdraws : DrawsUnused w e) :
    ∀ c call id, w'.calls c = some call → Interface.pending call.phase = some id →
      ∀ m ∈ w'.log, Live w' m.call → m.id ≠ id := by
  intro c call' id hcall' hpending m hm hlive
  have hbefore := pending_before h hcall' hpending
  have hold : m ∈ w.log → m.id ≠ id := by
    intro hm
    have hlive' := live_of_mem hi hh h hm hlive
    rcases hbefore with ⟨call, hcall, hp⟩ | ⟨rfl, rfl⟩
    · exact hi.unused c call id hcall hp m hm hlive'
    · exact hdraws.1 m hm hlive'
  rcases log_cases h with heq | ⟨d, x, v, rfl, hx, hphase, rfl⟩
  · exact hold (heq ▸ hm)
  · rcases List.mem_cons.mp hm with rfl | hm
    · rintro rfl
      obtain ⟨call, hcall, hp⟩ := hbefore.resolve_right fun hn => nomatch hn.1
      obtain rfl := hi.pending c d call x v.art.id hcall hx hp (by rw [hphase]; rfl)
      rw [pending_publish w c x v hcall'] at hpending
      cases hpending
    · exact hold hm

/-- INTERNAL: one step draws no number that a call has drawn already. -/
theorem pending_step (hi : Identities w) (h : Transition H w e w') (hdraws : DrawsUnused w e) :
    ∀ c d u x id, w'.calls c = some u → w'.calls d = some x →
      Interface.pending u.phase = some id → Interface.pending x.phase = some id → c = d := by
  intro c d u x id hu hx hpu hpx
  rcases pending_before h hu hpu with ⟨u₀, hu₀, hpu₀⟩ | ⟨rfl, rfl⟩ <;>
    rcases pending_before h hx hpx with ⟨x₀, hx₀, hpx₀⟩ | ⟨he, hid⟩
  · exact hi.pending c d u₀ x₀ id hu₀ hx₀ hpu₀ hpx₀
  · subst he hid
    exact absurd hpu₀ (hdraws.2 c u₀ hu₀)
  · exact absurd hpx₀ (hdraws.2 d x₀ hx₀)
  · exact Event.number.inj he

/-- INTERNAL: one step keeps every content file that of a commit. -/
theorem contents_step (hi : Identities w) (hh : History H w) (h : Transition H w e w') :
    ∀ id gen, w'.dir[binPath id gen]? ≠ none →
      ∃ m ∈ w'.log, m.call = w'.writers (metaPath id gen) ∧ m.id = id := by
  intro id gen hfile
  rcases dir_cases h with ⟨hwriters, hdir⟩ | ⟨c, call, v, stage, -, hcall, hphase, hwrite⟩
  · obtain ⟨m, hm, hcall, hid⟩ := hi.contents id gen fun hnone => hfile (hdir _ hnone)
    exact ⟨m, mem_log_of_transition h hm, by rw [hcall, hwriters], hid⟩
  · have hcommit := mem_log_of_transition h
      (hh.recorded.published c call v hcall (by rw [hphase]; rfl))
    by_cases hmeta : stage = .metaRename ∧ id = v.art.id ∧ gen = v.art.generation
    · obtain ⟨rfl, rfl, rfl⟩ := hmeta
      exact ⟨_, hcommit, hwrite.writers_of_metaRename.symm, rfl⟩
    · rw [(hwrite.meta_eq hmeta).2]
      by_cases hbin : stage = .binRename ∧ id = v.art.id ∧ gen = v.art.generation
      · obtain ⟨rfl, rfl, rfl⟩ := hbin
        exact ⟨_, hcommit, (hi.writing c call v _ hcall hphase (.inr rfl)).symm, rfl⟩
      · rw [hwrite.bin_eq hbin] at hfile
        obtain ⟨m, hm, hrest⟩ := hi.contents id gen hfile
        exact ⟨m, mem_log_of_transition h hm, hrest⟩

/-- INTERNAL: one step keeps a store the writer of its own metadata. -/
theorem writing_step (hi : Identities w) (hw : WellFormed w) (h : Transition H w e w') :
    ∀ c call v stage, w'.calls c = some call → call.phase = .storing v stage →
      stage = .binTmp ∨ stage = .binRename →
      w'.writers (metaPath v.art.id v.art.generation) = c := by
  intro c call' v stage hcall' hphase' hstage
  rcases storing_step hw h hcall' hphase' with ⟨hold, hwriters, -⟩ | ⟨call, -, -, rfl, -⟩ |
    ⟨call, stage₀, hcall, hphase, hwrite⟩
  · rw [hwriters]
    exact hi.writing c call' v stage hold hphase' hstage
  · rcases hstage with h | h <;> cases h
  · by_cases hmeta : stage₀ = .metaRename
    · subst hmeta
      exact hwrite.writers_of_metaRename
    · rw [(hwrite.meta_eq fun hm => hmeta hm.1).2]
      refine hi.writing c call v stage₀ hcall hphase ?_
      cases hwrite with
      | metaTmp =>
          rw [World.setCall_calls, Function.update_self, Option.some_inj] at hcall'
          subst hcall'
          cases hphase'
          rcases hstage with h | h <;> cases h
      | metaRename => exact absurd rfl hmeta
      | binTmp => exact .inl rfl
      | binRename => exact .inr rfl

/-- The names of a new artifact's files are free. -/
theorem free_of_validated (hi : Identities w) (hh : History H w) (hcall : w.calls c = some call)
    (hphase : call.phase = .validated v) :
    w.dir[binPath v.art.id v.art.generation]? = none ∧
      w.dir[metaPath v.art.id v.art.generation]? = none := by
  have hunused : ∀ m ∈ w.log, Live w m.call → m.id ≠ v.art.id :=
    hi.unused c call v.art.id hcall (by rw [hphase]; rfl)
  constructor
  · by_contra hfile
    obtain ⟨m, hm, hwriter, hid⟩ := hi.contents _ _ hfile
    exact hunused m hm (.stored (.inr hfile) hwriter.symm) hid
  · by_contra hfile
    obtain ⟨file, hfile'⟩ := Option.ne_none_iff_exists'.mp hfile
    obtain ⟨m, hm, hwriter, hid, -⟩ := hh.recorded.files _ _ file hfile'
    exact hunused m hm (.stored (.inl hfile) hwriter.symm) hid

/-- INTERNAL: one step keeps the names free that a store is going to write. -/
theorem free_step (hi : Identities w) (hh : History H w) (h : Transition H w e w') :
    ∀ c call v stage, w'.calls c = some call → call.phase = .storing v stage →
      w'.dir[binPath v.art.id v.art.generation]? = none ∧
      (stage = .metaTmp ∨ stage = .metaRename →
        w'.dir[metaPath v.art.id v.art.generation]? = none) := by
  intro c call' v stage hcall' hphase'
  rcases storing_step hh.wellFormed h hcall' hphase' with ⟨hold, -, hdir⟩ |
    ⟨call, hcall, hphase, -, rfl⟩ | ⟨call, stage₀, hcall, hphase, hwrite⟩
  · obtain ⟨hbin, hmeta⟩ := hi.free c call' v stage hold hphase'
    exact ⟨hdir _ hbin, fun hs => hdir _ (hmeta hs)⟩
  · obtain ⟨hbin, hmeta⟩ := hi.free_of_validated hh hcall hphase
    exact ⟨hbin, fun _ => hmeta⟩
  · obtain ⟨hbin, hmeta⟩ := hi.free c call v stage₀ hcall hphase
    by_cases hlast : stage₀ = .binRename
    · subst hlast
      cases hwrite
      rw [World.release, World.setCall_calls, Function.update_self, Option.some_inj] at hcall'
      subst hcall'
      cases hphase'
    · refine ⟨by rw [hwrite.bin_eq fun hb => hlast hb.1, hbin], fun hs => ?_⟩
      cases hwrite with
      | metaTmp =>
          exact (getElem?_writeTmp_of_ne _ _ (metaPath_ne_tmpPath _ _ _)).trans (hmeta (.inl rfl))
      | binRename => exact absurd rfl hlast
      | _ =>
          rw [World.setCall_calls, Function.update_self, Option.some_inj] at hcall'
          subst hcall'
          cases hphase'
          rcases hs with h | h <;> cases h

/-- A step that draws an unused number keeps the invariant. -/
theorem step (hi : Identities w) (hh : History H w) (h : Transition H w e w')
    (hdraws : DrawsUnused w e) : Identities w' where
  distinct := hi.distinct_step hh h
  unused := hi.unused_step hh h hdraws
  pending := hi.pending_step h hdraws
  contents := hi.contents_step hh h
  writing := hi.writing_step hh.wellFormed h
  free := hi.free_step hh h

end Identities

end CompilationFabric.Interface
