import CompilationFabric.Interface.FabricCache

/-!
# Everything comes from a commit

The invariant that ties the state of a fabric to the commits so far (`Recorded`): every
artifact a call carries is one it is about to commit or has committed, every metadata file
was written by the compile its ghost names and holds that compile's record, every record a
`recover` has loaded and every cache entry goes back to a commit, and so does every result
that a call returned.  It holds in every run, with crashes and restarts anywhere.
-/

set_option autoImplicit false

namespace CompilationFabric.Interface

open CompilationFabric.Library.TransitionSystem
open CompilationFabric.Model

variable {H : Bytes → Digest} {w w' : World} {e : Event} {es : List Event} {c : CallId}
  {call : Call} {v : Validated}

/-! ## The invariant -/

/-- The validated artifact a call carries, before its commit and after. -/
def carried : Phase → Option Validated
  | .validated v => some v
  | .storing v _ => some v
  | .committed v => some v
  | _ => none

/-- A result reports a committed artifact, with content that matches the digest. -/
structure ResultOf (H : Bytes → Digest) (res : CompilationResult) (m : Commit) : Prop where
  artifactId : res.artifactId = m.id
  generation : res.generation = m.generation
  contentDigest : res.artifact.contentDigest = H m.bytes
  content : H m.bytes = .zero ∨ H res.artifactBytes = H m.bytes
  validated : res.validated = true

/-- A loaded record goes back to a commit. -/
def LoadedFrom (H : Bytes → Digest) (log : List Commit) (l : Loaded) : Prop :=
  ∃ m ∈ log, m.call = l.origin ∧ Restores H l.record m

/-- So does everything a `recover` has read. -/
def RecoversFrom (H : Bytes → Digest) (log : List Commit) : RecoverPhase → Prop
  | .cleaning _ => True
  | .loading _ valid => ∀ l ∈ valid, LoadedFrom H log l
  | .content id gen found _ valid =>
      (∃ m ∈ log, m.call = found.origin ∧ m.id = id ∧ m.generation = gen ∧
        Reads H found.record m) ∧ ∀ l ∈ valid, LoadedFrom H log l

/-- A metadata file is one of the commit of its writer. -/
def Files (H : Bytes → Digest) (w : World) : Prop :=
  ∀ id gen file, w.dir[metaPath id gen]? = some file →
    ∃ m ∈ w.log, m.call = w.writers (metaPath id gen) ∧ m.id = id ∧ m.generation = gen ∧
      MetaFile H file m

/-- The invariant. -/
structure Recorded (H : Bytes → Digest) (w : World) : Prop where
  sorted : ∀ c call, w.calls c = some call → call.key.Sorted
  carried : ∀ c call v, w.calls c = some call → carried call.phase = some v →
    Describes H v.art (commitOf c call v) ∧ Eligible v.art
  published : ∀ c call v, w.calls c = some call → call.phase.published = some v →
    commitOf c call v ∈ w.log
  tmp : ∀ c call v file, w.calls c = some call → call.phase = .storing v .metaRename →
    w.dir[tmpPath (metaPath v.art.id v.art.generation)]? = some file →
    file = encodeMeta H (v.record call.key)
  files : Files H w
  recoveries : ∀ t p, w.recoveries t = some p → RecoversFrom H w.log p
  cache : ∀ k e, w.impl.cache[k]? = some e → ∃ m ∈ w.log, EntryOf H k e m
  served : ∀ c call o res, w.calls c = some call →
    call.phase = .returned (.cache o) (.ok res) →
    ∃ m ∈ w.log, m.call = o ∧ m.key = call.key ∧ ResultOf H res m
  owned : ∀ c call res, w.calls c = some call → call.phase = .returned .owner (.ok res) →
    ∃ m ∈ w.log, m.call = c ∧ m.key = call.key ∧ ResultOf H res m

/-- A fresh process has recorded nothing. -/
theorem recorded_init (H : Bytes → Digest) (p : Process) : Recorded H { process := p } where
  sorted _ _ h := nomatch h
  carried _ _ _ h := nomatch h
  published _ _ _ h := nomatch h
  tmp _ _ _ _ h := nomatch h
  files _ _ _ h := by simp at h
  recoveries _ _ h := nomatch h
  cache _ _ h := by simp at h
  served _ _ _ _ h := nomatch h
  owned _ _ _ h := nomatch h

/-! ## The log only grows -/

/-- No commit leaves the log. -/
theorem mem_log_of_transition (h : Transition H w e w') {m : Commit} (hm : m ∈ w.log) :
    m ∈ w'.log := by
  cases h with
  | publish => exact List.mem_cons_of_mem _ hm
  | write hcall hphase hwrite => cases hwrite <;> exact hm
  | _ => exact hm

/-- INTERNAL: a record stays that of a commit when the log grows. -/
theorem LoadedFrom.mono {log log' : List Commit} {l : Loaded} (h : LoadedFrom H log l)
    (hsub : ∀ m ∈ log, m ∈ log') : LoadedFrom H log' l := by
  obtain ⟨m, hm, hrest⟩ := h
  exact ⟨m, hsub m hm, hrest⟩

/-- INTERNAL: so does a recovery. -/
theorem RecoversFrom.mono {log log' : List Commit} {p : RecoverPhase} (h : RecoversFrom H log p)
    (hsub : ∀ m ∈ log, m ∈ log') : RecoversFrom H log' p := by
  cases p with
  | cleaning todo => trivial
  | loading todo valid => exact fun l hl => (h l hl).mono hsub
  | content id gen found todo valid =>
      obtain ⟨⟨m, hm, hrest⟩, hvalid⟩ := h
      exact ⟨⟨m, hsub m hm, hrest⟩, fun l hl => (hvalid l hl).mono hsub⟩

/-! ## Calls -/

/-- INTERNAL: a key that `compile` derives is sorted. -/
theorem sorted_compileKey (p : Process) (request : CompilationRequest) (plan : CompilationPlan) :
    (World.compileKey p request plan).Sorted :=
  sorted_buildCompilationKey ..

/-- INTERNAL: one step keeps the keys of the calls sorted. -/
theorem sorted_step (hr : ∀ c call, w.calls c = some call → call.key.Sorted)
    (h : Transition H w e w') : ∀ c call, w'.calls c = some call → call.key.Sorted := by
  intro c call' hcall'
  rcases (callsStep_of_transition h).call_cases hcall' with hold | ⟨-, hnew⟩ | ⟨call, hcall, hmoved⟩
  · exact hr c call' hold
  · cases hnew with
    | miss => exact sorted_compileKey ..
    | hit => exact sorted_compileKey ..
  · cases hmoved <;> exact hr c call hcall

/-- What a validation that passed puts together. -/
theorem describes_validated (H : Bytes → Digest) (config : CompilationFabricConfig) (c : CallId)
    (call : Call) (attempt : CompilationAttemptId) (b : Build) (id : ArtifactId)
    (gen : ArtifactGeneration) (times : Timestamps) {vd : ValidationDescriptor}
    (hpassed : vd.passed = true) (ms : Int64) :
    let v : Validated := ⟨b, deployableArtifact call.plan
      (describe H config call attempt b id gen times) vd, ms⟩
    Describes H v.art (commitOf c call v) ∧ Eligible v.art :=
  ⟨⟨rfl, rfl, rfl⟩, ⟨rfl, hpassed, rfl⟩⟩

/-- INTERNAL: one step keeps what a call carries described and eligible. -/
theorem carried_step (hr : Recorded H w) (h : Transition H w e w') :
    ∀ c call v, w'.calls c = some call → carried call.phase = some v →
      Describes H v.art (commitOf c call v) ∧ Eligible v.art := by
  intro c call' v hcall' hcarried
  rcases (callsStep_of_transition h).call_cases hcall' with hold | ⟨-, hnew⟩ | ⟨call, hcall, hmoved⟩
  · exact hr.carried c call' v hold hcarried
  · cases hnew with
    | miss hplan hmiss => cases hmiss <;> cases hcarried
    | hit => cases hcarried
  · cases hmoved with
    | advance hadv =>
        cases hadv with
        | validated hphase hentry hpassed =>
            cases hcarried
            exact describes_validated H _ c call _ _ _ _ _ hpassed _
        | _ => cases hcarried
    | publish hphase =>
        have hv : carried call.phase = some v := by
          rw [hphase]
          dsimp only at hcarried
          split at hcarried <;> exact hcarried
        exact hr.carried c call v hcall hv
    | write hphase =>
        exact hr.carried c call v hcall (by rw [hphase]; exact hcarried)
    | release hphase =>
        exact hr.carried c call v hcall (by rw [hphase]; exact hcarried)
    | _ => cases hcarried

/-- A call that has published an artifact had before, or has just committed it. -/
theorem publication_cases {call' : Call} (h : Transition H w e w') (hcall' : w'.calls c = some call')
    (hpub : call'.phase.published = some v) :
    (∃ call, w.calls c = some call ∧ call.key = call'.key ∧ call.phase.published = some v) ∨
      ∃ call, w.calls c = some call ∧ call.key = call'.key ∧ call.phase = .validated v ∧
        e = .commit c ∧ w' = w.publish c call v := by
  rcases (callsStep_of_transition h).call_cases hcall' with hold | ⟨-, hnew⟩ | ⟨call, hcall, hmoved⟩
  · exact .inl ⟨call', hold, rfl, hpub⟩
  · cases hnew with
    | miss hplan hmiss => cases hmiss <;> cases hpub
    | hit => cases hpub
  · cases hmoved with
    | advance hadv => cases hadv <;> cases hpub
    | @publish v' entry hphase hentry hcache htoolchain =>
        have hv : v' = v := by
          dsimp only at hpub
          split at hpub <;> exact Option.some.inj hpub
        subst hv
        obtain ⟨call₂, v₂, entry₂, hcall₂, hphase₂, -, hways⟩ := commit_cases h
        rw [hcall, Option.some_inj] at hcall₂
        subst hcall₂
        rcases hways with ⟨-, -, rfl⟩ | ⟨-, rfl⟩
        · rw [hphase, Phase.validated.injEq] at hphase₂
          exact .inr ⟨call, hcall, rfl, hphase, rfl, hphase₂ ▸ rfl⟩
        · -- a stale owner has returned
          rw [finished, World.setCall_calls, Function.update_self, Option.some_inj] at hcall'
          have hphase' := congrArg Call.phase hcall'
          dsimp only at hphase'
          split at hphase' <;> cases hphase'
    | write hphase => exact .inl ⟨call, hcall, rfl, by rw [hphase]; exact hpub⟩
    | release hphase => exact .inl ⟨call, hcall, rfl, by rw [hphase]; exact hpub⟩
    | _ => cases hpub

/-- INTERNAL: one step keeps what is published in the log. -/
theorem published_step (hr : Recorded H w) (h : Transition H w e w') :
    ∀ c call v, w'.calls c = some call → call.phase.published = some v →
      commitOf c call v ∈ w'.log := by
  intro c call' v hcall' hpub
  rcases publication_cases h hcall' hpub with ⟨call, hcall, hkey, hold⟩ | ⟨call, -, hkey, -, -, rfl⟩
  · have hmem := mem_log_of_transition h (hr.published c call v hcall hold)
    rwa [commitOf, hkey] at hmem
  · rw [commitOf, ← hkey]
    exact List.mem_cons_self

/-! ## Files -/

/-- The call that holds the lock is the only one that is storing. -/
theorem storing_unique (hw : WellFormed w) {c d : CallId} {u x : Call} (hu : w.calls c = some u)
    (hx : w.calls d = some x) (hsu : storing u.phase = true) (hsx : storing x.phase = true) :
    c = d := by
  have hc := (hw.lock c).mpr ⟨u, hu, hsu⟩
  have hd := (hw.lock d).mpr ⟨x, hx, hsx⟩
  exact Option.some.inj (hc.symm.trans hd)

/-- A call gets between the two steps of its metadata file by the first of them alone. -/
theorem before_metaRename (h : Transition H w e w') (hcall : w'.calls c = some call)
    (hphase : call.phase = .storing v .metaRename) :
    w.calls c = some call ∨ e = .storeStep c true := by
  rcases (callsStep_of_transition h).call_cases hcall with hold | ⟨-, hnew⟩ | ⟨u, hu, hmoved⟩
  · exact .inl hold
  · cases hnew with
    | miss hplan hmiss => cases hmiss <;> cases hphase
    | hit => cases hphase
  · cases hmoved with
    | advance hadv => cases hadv <;> cases hphase
    | publish hphase' =>
        dsimp only at hphase
        split at hphase <;> cases hphase
    | write => exact .inr rfl
    | _ => cases hphase

/-- INTERNAL: one step keeps the temporary file of a store as it was written. -/
theorem tmp_step (hw : WellFormed w) (hr : Recorded H w) (h : Transition H w e w') :
    ∀ c call v file, w'.calls c = some call → call.phase = .storing v .metaRename →
      w'.dir[tmpPath (metaPath v.art.id v.art.generation)]? = some file →
      file = encodeMeta H (v.record call.key) := by
  intro c call v file hcall hphase hfile
  have hbefore := before_metaRename h hcall hphase
  have hkeep : w.calls c = some call ∨ e = .storeStep c true → e ≠ .storeStep c true →
      w.dir[tmpPath (metaPath v.art.id v.art.generation)]? = some file →
      file = encodeMeta H (v.record call.key) := fun hbefore hne hold =>
    hr.tmp c call v file (hbefore.resolve_right hne) hphase hold
  cases h with
  | @write d u v₂ stage w' hu hphase₂ hwrite =>
      by_cases hd : c = d
      · subst hd
        cases hwrite with
        | metaTmp hsize =>
            rw [World.setCall_calls, Function.update_self, Option.some_inj] at hcall
            subst hcall
            cases hphase
            rw [getElem?_writeTmp_self, Option.some_inj] at hfile
            exact hfile.symm
        | metaRename hsize hdir =>
            rw [World.setCall_calls, Function.update_self, Option.some_inj] at hcall
            subst hcall
            cases hphase
        | binTmp =>
            rw [World.setCall_calls, Function.update_self, Option.some_inj] at hcall
            subst hcall
            cases hphase
        | binRename hdir =>
            rw [World.release, World.setCall_calls, Function.update_self, Option.some_inj] at hcall
            subst hcall
            cases hphase
      · -- another call is storing, so this one is not
        obtain ⟨p, hcalls⟩ := hwrite.calls
        rw [hcalls, Function.update_of_ne hd] at hcall
        exact absurd (storing_unique hw hcall hu (by rw [hphase]; rfl) (by rw [hphase₂]; rfl)) hd
  | @release d u v₂ stage ok hu hphase₂ =>
      rw [World.release, World.setCall_calls] at hcall
      by_cases hd : c = d
      · subst hd
        rw [Function.update_self, Option.some_inj] at hcall
        subst hcall
        cases hphase
      · rw [Function.update_of_ne hd] at hcall
        exact hr.tmp c call v file hcall hphase hfile
  | @removeTmp t name todo =>
      rw [Std.ExtTreeMap.getElem?_erase] at hfile
      split at hfile
      · cases hfile
      · refine hkeep hbefore ?_ hfile
        rintro ⟨⟩
  | advance hu hadv =>
      refine hkeep hbefore ?_ hfile
      rintro rfl
      cases hadv
  | fail hu hlock hentry hfail =>
      refine hkeep hbefore ?_ hfile
      rintro rfl
      cases hfail
  | lease he =>
      refine hkeep hbefore ?_ hfile
      rcases he with ⟨id, rfl⟩ | ⟨id, rfl⟩ <;> rintro ⟨⟩
  | recovering hrec =>
      refine hkeep hbefore ?_ hfile
      rintro rfl
      cases hrec
  | _ =>
      refine hkeep hbefore ?_ hfile
      rintro ⟨⟩

/-- A file that is there after a step was there before, unless the step renamed it in place. -/
theorem files_step (hr : Recorded H w) (h : Transition H w e w') :
    Files H w' := by
  intro id gen file hfile
  have hkeep : w.dir[metaPath id gen]? = some file →
      w'.writers (metaPath id gen) = w.writers (metaPath id gen) →
      ∃ m ∈ w'.log, m.call = w'.writers (metaPath id gen) ∧ m.id = id ∧ m.generation = gen ∧
        MetaFile H file m := by
    intro hold hwriter
    obtain ⟨m, hm, hcall, hrest⟩ := hr.files id gen file hold
    exact ⟨m, mem_log_of_transition h hm, hcall.trans hwriter.symm, hrest⟩
  cases h with
  | @write c u v stage w' hu hphase hwrite =>
      cases hwrite with
      | metaTmp hsize =>
          rw [getElem?_writeTmp_of_ne _ _ (metaPath_ne_tmpPath _ _ _)] at hfile
          exact hkeep hfile rfl
      | metaRename hsize hdir =>
          obtain ⟨bytes, htmp, hdest, hother⟩ := rename_eq_some hdir
          by_cases hname : metaPath id gen = metaPath v.art.id v.art.generation
          · obtain ⟨rfl, rfl⟩ := metaPath_inj.mp hname
            rw [hdest, Option.some_inj] at hfile
            subst hfile
            have hrecord := hr.tmp c u v bytes hu hphase htmp
            obtain ⟨hdesc, heligible⟩ := hr.carried c u v hu (by rw [hphase]; rfl)
            refine ⟨commitOf c u v, hr.published c u v hu (by rw [hphase]; rfl),
              by simp [commitOf], rfl, rfl, v.record u.key, hrecord, ?_,
              hr.sorted c u hu, rfl, rfl, hdesc, heligible, rfl⟩
            rw [hrecord]
            exact hsize
          · rw [hother _ hname (metaPath_ne_tmpPath _ _ _)] at hfile
            exact hkeep hfile (Function.update_of_ne hname ..)
      | binTmp =>
          rw [getElem?_writeTmp_of_ne _ _ (metaPath_ne_tmpPath _ _ _)] at hfile
          exact hkeep hfile rfl
      | binRename hdir =>
          obtain ⟨bytes, htmp, hdest, hother⟩ := rename_eq_some hdir
          rw [hother _ (metaPath_ne_binPath _ _ _ _) (metaPath_ne_tmpPath _ _ _)] at hfile
          exact hkeep hfile rfl
  | @removeTmp t name todo hphase =>
      rw [Std.ExtTreeMap.getElem?_erase] at hfile
      split at hfile
      · cases hfile
      · exact hkeep hfile rfl
  | _ => exact hkeep hfile rfl

/-! ## Recoveries -/

/-- INTERNAL: a value after an update is the new one or an old one. -/
theorem of_update_eq_some {α : Type*} {f : ℕ → Option α} {s t : ℕ} {x : Option α} {p : α}
    (h : Function.update f s x t = some p) : t = s ∧ x = some p ∨ f t = some p := by
  by_cases ht : t = s
  · subst ht
    exact .inl ⟨rfl, by rwa [Function.update_self] at h⟩
  · exact .inr (by rwa [Function.update_of_ne ht] at h)

/-- A file that is there and is found goes back to a commit, under the name it was found by. -/
theorem reads_of_loadMeta (hr : Recorded H w) {id : ArtifactId} {gen : ArtifactGeneration}
    {record : PersistedRecord}
    (hload : loadMeta H w.dir[metaPath id gen]? id gen = .ok (.ok record)) :
    ∃ m ∈ w.log, m.call = w.writers (metaPath id gen) ∧ m.id = id ∧ m.generation = gen ∧
      Reads H record m := by
  cases hfile : w.dir[metaPath id gen]? with
  | none =>
      rw [hfile] at hload
      cases hload
  | some file =>
      obtain ⟨m, hm, hcall, hid, hgen, hmeta⟩ := hr.files id gen file hfile
      obtain ⟨r, hr', hreads⟩ := loadMeta_of_metaFile hmeta id gen
      rw [hfile, hr', Except.ok.injEq, Except.ok.injEq] at hload
      exact ⟨m, hm, hcall, hid, hgen, hload ▸ hreads⟩

/-- INTERNAL: a step of a recovery goes on from commits. -/
theorem recoversFrom_of_recovers (hr : Recorded H w) {t : ℕ} {p : RecoverPhase}
    (h : Recovers H w t e (some p)) : RecoversFrom H w.log p := by
  cases h with
  | listed hphase hnames => exact fun l hl => nomatch hl
  | noMeta hphase hload =>
      have hvalid := hr.recoveries t _ hphase
      exact hvalid
  | foundMeta hphase hload =>
      have hvalid := hr.recoveries t _ hphase
      exact ⟨reads_of_loadMeta hr hload, hvalid⟩
  | dropped hphase hload => exact (hr.recoveries t _ hphase).2
  | kept hphase hload hvalid =>
      obtain ⟨⟨m, hm, hcall, rfl, rfl, hreads⟩, hvalid'⟩ := hr.recoveries t _ hphase
      intro l hl
      rcases List.mem_append.mp hl with hl | hl
      · exact hvalid' l hl
      · rw [List.mem_singleton.mp hl]
        exact ⟨m, hm, hcall, restores_of_loadContent hreads hload⟩

/-- INTERNAL: one step keeps every recovery to commits. -/
theorem recoveries_step (hr : Recorded H w) (h : Transition H w e w') :
    ∀ t p, w'.recoveries t = some p → RecoversFrom H w'.log p := by
  intro t p hp
  have hkeep : w.recoveries t = some p → RecoversFrom H w'.log p := fun hold =>
    (hr.recoveries t p hold).mono fun m hm => mem_log_of_transition h hm
  cases h with
  | recover hnames =>
      rcases of_update_eq_some (f := w.recoveries) hp with ⟨-, ⟨⟩⟩ | hold
      · trivial
      · exact hkeep hold
  | removeTmp hphase =>
      rcases of_update_eq_some (f := w.recoveries) hp with ⟨-, ⟨⟩⟩ | hold
      · trivial
      · exact hkeep hold
  | recovering hrec =>
      rcases of_update_eq_some (f := w.recoveries) hp with ⟨-, rfl⟩ | hold
      · exact recoversFrom_of_recovers hr hrec
      · exact hkeep hold
  | recoverInsert hlock hphase =>
      rcases of_update_eq_some (f := w.recoveries) hp with ⟨-, ⟨⟩⟩ | hold
      exact hkeep hold
  | write hcall hphase hwrite => cases hwrite <;> exact hkeep hp
  | restart => cases hp
  | _ => exact hkeep hp

/-! ## The cache -/

/-- INTERNAL: one step keeps every cached entry that of a commit. -/
theorem cache_step (hr : Recorded H w) (h : Transition H w e w') :
    ∀ k e, w'.impl.cache[k]? = some e → ∃ m ∈ w'.log, EntryOf H k e m := by
  intro k entry hentry
  have hkeep : ∀ {e₀}, w.impl.cache[k]? = some e₀ →
      (∀ m, EntryOf H k e₀ m → EntryOf H k entry m) → ∃ m ∈ w'.log, EntryOf H k entry m := by
    intro e₀ he₀ hpass
    obtain ⟨m, hm, hof⟩ := hr.cache k e₀ he₀
    exact ⟨m, mem_log_of_transition h hm, hpass m hof⟩
  cases cacheStep_of_transition h hentry with
  | kept he₀ => exact hkeep he₀ fun _ hof => hof
  | @touched _ _ _ now he₀ => exact hkeep he₀ fun m hof => hof.touch now
  | @published c u v hu hphase hkey =>
      obtain ⟨hdesc, heligible⟩ := hr.carried c u v hu (by rw [hphase]; rfl)
      exact ⟨commitOf c u v, List.mem_cons_self, rfl, hkey, hkey, rfl, hdesc, .inr rfl,
        heligible.consistent⟩
  | invalidated he₀ => exact hkeep he₀ fun m hof => hof.invalidate
  | passed he₀ => exact hkeep he₀ fun _ hof => hof
  | superseded he₀ => exact hkeep he₀ fun m hof => hof.supersede
  | unloaded he₀ => exact hkeep he₀ fun m hof => hof.unload
  | @recovered t _ valid l hphase hlast hmarks =>
      obtain ⟨hl, hkey⟩ := mem_of_lastLoaded hlast
      obtain ⟨m, hm, horigin, hrestores⟩ := hr.recoveries t _ hphase l hl
      exact ⟨m, mem_log_of_transition h hm,
        hkey ▸ (entryOf_recovered hrestores horigin).unload⟩

/-! ## Results -/

/-- The fast path serves an entry that is `Deployable`. -/
theorem fastPath_of_deployable {k : CompilationKey} {entry : CacheEntry} (hkey : entry.key = k)
    (hstate : entry.descriptor.state = ascii "Deployable")
    (policy : CompilationCompatibilityPolicy) :
    World.fastPath policy k entry = .ok (some .ExactReusable) := by
  subst hkey
  have hdec := CompilationCompatibility.decide_deployable hstate
    (CompilationKey.beq_iff.mpr (.refl _) : (entry.key == entry.key) = true) policy
  unfold World.fastPath
  rw [hdec]
  simp only [bind, Except.bind, pure, Except.pure, hstate, decide_true, Bool.and_self, if_true]

/-- The fast path serves an entry when it is reusable and `Deployable`. -/
theorem fastPath_eq_some {policy : CompilationCompatibilityPolicy} {k : CompilationKey}
    {entry : CacheEntry} {outcome : CompatibilityOutcome}
    (h : World.fastPath policy k entry = .ok (some outcome)) :
    entry.descriptor.state = ascii "Deployable" ∧
      ∃ dec, CompilationCompatibility.decide entry.key k entry.descriptor policy = .ok dec ∧
        dec.reusable = true := by
  unfold World.fastPath at h
  cases hdec : CompilationCompatibility.decide entry.key k entry.descriptor policy with
  | error x =>
      rw [hdec] at h
      cases h
  | ok dec =>
      rw [hdec] at h
      change Except.ok (if _ then _ else _) = _ at h
      split at h
      · next hserve =>
        rw [Bool.and_eq_true, decide_eq_true_eq] at hserve
        exact ⟨hserve.2, dec, rfl, hserve.1⟩
      · cases h

/-- What a hit reports is the committed artifact the entry goes back to. -/
theorem resultOf_hit {k : CompilationKey} {entry : CacheEntry} {m : Commit}
    (hof : EntryOf H k entry m) (hstate : entry.descriptor.state = ascii "Deployable")
    (request : CompilationRequest) (p : CompilationPlan) (outcome : CompatibilityOutcome)
    (now : Int64) : ResultOf H (hitResult H request p k outcome (entry.touch now)) m where
  artifactId := hof.describes.id
  generation := hof.generation
  contentDigest := hof.describes.contentDigest
  content := hof.content
  validated := (hof.consistent.deployable hstate).1

/-- INTERNAL: an owner's result is that of its own commit. -/
theorem resultOf_owner (hdesc : Describes H v.art (commitOf c call v))
    (attempt : CompilationAttemptId) :
    ResultOf H (v.result H call attempt) (commitOf c call v) where
  artifactId := rfl
  generation := rfl
  contentDigest := hdesc.contentDigest
  content := .inr rfl
  validated := rfl

/-- INTERNAL: one step keeps what is served from the cache the result of a commit. -/
theorem served_step (hr : Recorded H w) (h : Transition H w e w') :
    ∀ c call o res, w'.calls c = some call → call.phase = .returned (.cache o) (.ok res) →
      ∃ m ∈ w'.log, m.call = o ∧ m.key = call.key ∧ ResultOf H res m := by
  intro c call' o res hcall' hphase'
  rcases (callsStep_of_transition h).call_cases hcall' with hold | ⟨-, hnew⟩ | ⟨call, hcall, hmoved⟩
  · obtain ⟨m, hm, hrest⟩ := hr.served c call' o res hold hphase'
    exact ⟨m, mem_log_of_transition h hm, hrest⟩
  · cases hnew with
    | miss hplan hmiss => cases hmiss <;> cases hphase'
    | hit hplan he hfast =>
        cases hphase'
        obtain ⟨m, hm, hof⟩ := hr.cache _ _ he
        exact ⟨m, mem_log_of_transition h hm, hof.origin, hof.commitKey,
          resultOf_hit hof (fastPath_eq_some hfast).1 _ _ _ _⟩
  · cases hmoved.returnsBy hphase'

/-- INTERNAL: one step keeps what an owner returns the result of its commit. -/
theorem owned_step (hr : Recorded H w) (h : Transition H w e w') :
    ∀ c call res, w'.calls c = some call → call.phase = .returned .owner (.ok res) →
      ∃ m ∈ w'.log, m.call = c ∧ m.key = call.key ∧ ResultOf H res m := by
  intro c call' res hcall' hphase'
  rcases (callsStep_of_transition h).call_cases hcall' with hold | ⟨-, hnew⟩ | ⟨call, hcall, hmoved⟩
  · obtain ⟨m, hm, hrest⟩ := hr.owned c call' res hold hphase'
    exact ⟨m, mem_log_of_transition h hm, hrest⟩
  · cases hnew with
    | miss hplan hmiss => cases hmiss <;> cases hphase'
    | hit => cases hphase'
  · rw [hmoved.key]
    cases hmoved.returnsBy hphase' with
    | complete hphase hentry =>
        have hcommit := hr.published c call _ hcall (by rw [hphase]; rfl)
        have hdesc := (hr.carried c call _ hcall (by rw [hphase]; rfl)).1
        exact ⟨_, mem_log_of_transition h hcommit, rfl, rfl, resultOf_owner hdesc _⟩

/-! ## Runs -/

/-- Every step keeps the invariant. -/
theorem Recorded.step (hw : WellFormed w) (hr : Recorded H w) (h : Transition H w e w') :
    Recorded H w' where
  sorted := sorted_step hr.sorted h
  carried := carried_step hr h
  published := published_step hr h
  tmp := tmp_step hw hr h
  files := files_step hr h
  recoveries := recoveries_step hr h
  cache := cache_step hr h
  served := served_step hr h
  owned := owned_step hr h

/-- Every run from an empty store is well formed and recorded. -/
theorem recorded_exec (p : Process) (h : exec (step H) { process := p } es = some w) :
    WellFormed w ∧ Recorded H w := by
  refine exec_invariant (I := fun u => WellFormed u ∧ Recorded H u) ?_ h
    ⟨.init p, recorded_init H p⟩
  rintro s e s' hstep ⟨hw, hr⟩
  have htrans := transition_of_step hstep
  exact ⟨hw.step htrans, hr.step hw htrans⟩

end CompilationFabric.Interface
