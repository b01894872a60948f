import CompilationFabric.Interface.FabricIdentities
import CompilationFabric.Interface.FabricRecovery

/-!
# Files that are in place

What becomes of the files of a record.  They change when a call renames a temporary file over them,
and at no other time: a `recover` removes temporary files only (`dir_sources`).  A call that is
storing has the files behind it in place, and its own bytes in the temporary file, whatever
`recover` removes meanwhile (`Placed`); and a record whose files are in place stays there until a
store of the same artifact and generation comes over it (`InPlace.step`).
-/

set_option autoImplicit false

namespace CompilationFabric.Interface

open CompilationFabric.Library.TransitionSystem
open CompilationFabric.Model

variable {H : Bytes → Digest} {w w' : World} {e : Event} {es : List Event} {c : CallId}
  {call : Call} {v : Validated} {stage : StoreStage} {r : PersistedRecord}

/-! ## The directory -/

/-- A step leaves the directory, or it is a file step, or it removes a file that a `recover` has on
its list. -/
theorem dir_sources (h : Transition H w e w') :
    w'.dir = w.dir ∨
    (∃ c call v stage, e = .storeStep c true ∧ w.calls c = some call ∧
      call.phase = .storing v stage ∧ Writes H w c call v stage w') ∨
    ∃ t name todo, w.recoveries t = some (.cleaning (name :: todo)) ∧
      w'.dir = w.dir.erase name := by
  cases h with
  | write hcall hphase hwrite => exact .inr (.inl ⟨_, _, _, _, rfl, hcall, hphase, hwrite⟩)
  | removeTmp hphase => exact .inr (.inr ⟨_, _, _, hphase, rfl⟩)
  | _ => exact .inl rfl

/-- Every `recover` has temporary files on its list. -/
def CleansTmp (w : World) : Prop :=
  ∀ t todo, w.recoveries t = some (.cleaning todo) → ∀ name ∈ todo, World.isTmp name = true

/-- Every step keeps the lists to temporary files. -/
theorem cleansTmp_step (hc : CleansTmp w) (h : Transition H w e w') : CleansTmp w' := by
  intro t todo htodo
  cases h with
  | recover hnames =>
      rcases of_update_eq_some (f := w.recoveries) htodo with ⟨-, heq⟩ | hold
      · cases heq
        intro name hname
        exact (List.mem_filter.mp hname).2
      · exact hc t todo hold
  | removeTmp hphase =>
      rcases of_update_eq_some (f := w.recoveries) htodo with ⟨-, heq⟩ | hold
      · cases heq
        intro name hname
        exact hc _ _ hphase name (List.mem_cons_of_mem _ hname)
      · exact hc t todo hold
  | recovering hrec =>
      rcases of_update_eq_some (f := w.recoveries) htodo with ⟨-, rfl⟩ | hold
      · cases hrec
      · exact hc t todo hold
  | recoverInsert hlock hphase =>
      rcases of_update_eq_some (f := w.recoveries) htodo with ⟨-, heq⟩ | hold
      · cases heq
      · exact hc t todo hold
  | write hcall hphase hwrite => cases hwrite <;> exact hc t todo htodo
  | restart => cases htodo
  | _ => exact hc t todo htodo

/-- A file with another name is still there when a temporary file is removed. -/
theorem getElem?_of_cleaning (hc : CleansTmp w) {t : ℕ} {gone name : Bytes} {todo : List Bytes}
    (hphase : w.recoveries t = some (.cleaning (gone :: todo))) (hname : World.isTmp name = false) :
    (w.dir.erase gone)[name]? = w.dir[name]? := by
  apply getElem?_erase_of_ne
  rintro rfl
  rw [hc t _ hphase _ List.mem_cons_self] at hname
  cases hname

/-- While a call stays where it is in its store, nothing but temporary files goes. -/
theorem dir_of_holding (hw : WellFormed w) (h : Transition H w e w') (hcall : w.calls c = some call)
    (hcall' : w'.calls c = some call) (hphase : call.phase = .storing v stage) :
    w'.dir = w.dir ∨ ∃ t name todo, w.recoveries t = some (.cleaning (name :: todo)) ∧
      w'.dir = w.dir.erase name := by
  rcases dir_sources h with hsame | ⟨d, x, v₂, stage₂, -, hx, hphase₂, hwrite⟩ | hgone
  · exact .inl hsame
  · obtain rfl := storing_unique hw hcall hx (by rw [hphase]; rfl) (by rw [hphase₂]; rfl)
    rw [hcall, Option.some_inj] at hx
    subst hx
    exact absurd hphase₂ (hwrite.moves hcall')
  · exact .inr hgone

/-! ## A store that is under way -/

/-- What a call that is storing has behind it. -/
structure Placed (H : Bytes → Digest) (w : World) : Prop where
  metaFile : ∀ c call v stage, w.calls c = some call → call.phase = .storing v stage →
    stage = .binTmp ∨ stage = .binRename →
    w.dir[metaPath v.art.id v.art.generation]? = some (encodeMeta H (v.record call.key)) ∧
      (encodeMeta H (v.record call.key)).length < sizeMod
  content : ∀ c call v bytes, w.calls c = some call → call.phase = .storing v .binRename →
    w.dir[tmpPath (binPath v.art.id v.art.generation)]? = some bytes →
    bytes = v.build.output.executable

/-- A fresh process stores nothing. -/
theorem placed_init (p : Process) : Placed H { process := p } where
  metaFile _ _ _ _ h := by cases h
  content _ _ _ _ h := by cases h

/-- INTERNAL: one step keeps the metadata of a store in place once it is renamed. -/
theorem metaFile_step (hp : Placed H w) (hw : WellFormed w) (hr : Recorded H w) (hc : CleansTmp w)
    (h : Transition H w e w') :
    ∀ c call v stage, w'.calls c = some call → call.phase = .storing v stage →
      stage = .binTmp ∨ stage = .binRename →
      w'.dir[metaPath v.art.id v.art.generation]? = some (encodeMeta H (v.record call.key)) ∧
        (encodeMeta H (v.record call.key)).length < sizeMod := by
  intro c call' v stage hcall' hphase' hstage
  rcases storing_cases h hcall' hphase' with hold | ⟨call, -, -, -, rfl, -⟩ |
    ⟨call, stage₀, -, hcall, hphase, hwrite⟩
  · have hbefore := hp.metaFile c call' v stage hold hphase' hstage
    rcases dir_of_holding hw h hold hcall' hphase' with hsame | ⟨t, name, todo, hclean, hgone⟩
    · rwa [hsame]
    · rwa [hgone, getElem?_of_cleaning hc hclean (isTmp_metaPath _ _)]
  · rcases hstage with h | h <;> cases h
  · cases hwrite with
    | metaTmp hsize =>
        rw [World.setCall_calls, Function.update_self, Option.some_inj] at hcall'
        subst hcall'
        cases hphase'
        rcases hstage with h | h <;> cases h
    | metaRename hsize hdir =>
        rw [World.setCall_calls, Function.update_self, Option.some_inj] at hcall'
        subst hcall'
        obtain ⟨bytes, htmp, hdest, -⟩ := rename_eq_some hdir
        rw [hr.tmp c call v bytes hcall hphase htmp] at hdest
        exact ⟨hdest, hsize⟩
    | binTmp =>
        rw [World.setCall_calls, Function.update_self, Option.some_inj] at hcall'
        subst hcall'
        rw [getElem?_writeTmp_of_ne _ _ (metaPath_ne_tmpPath _ _ _)]
        exact hp.metaFile c call v .binTmp hcall hphase (.inl rfl)
    | binRename hdir =>
        rw [World.release, World.setCall_calls, Function.update_self, Option.some_inj] at hcall'
        subst hcall'
        cases hphase'

/-- INTERNAL: one step keeps the temporary content of a store as it was written. -/
theorem content_step (hp : Placed H w) (hw : WellFormed w) (h : Transition H w e w') :
    ∀ c call v bytes, w'.calls c = some call → call.phase = .storing v .binRename →
      w'.dir[tmpPath (binPath v.art.id v.art.generation)]? = some bytes →
      bytes = v.build.output.executable := by
  intro c call' v bytes hcall' hphase' htmp
  rcases storing_cases h hcall' hphase' with hold | ⟨call, -, -, -, hstage, -⟩ |
    ⟨call, stage₀, -, hcall, hphase, hwrite⟩
  · rcases dir_of_holding hw h hold hcall' hphase' with hsame | ⟨t, name, todo, hclean, hgone⟩
    · rw [hsame] at htmp
      exact hp.content c call' v bytes hold hphase' htmp
    · rw [hgone, Std.ExtTreeMap.getElem?_erase] at htmp
      split at htmp
      · cases htmp
      · exact hp.content c call' v bytes hold hphase' htmp
  · cases hstage
  · cases hwrite with
    | metaTmp hsize =>
        rw [World.setCall_calls, Function.update_self, Option.some_inj] at hcall'
        subst hcall'
        cases hphase'
    | metaRename hsize hdir =>
        rw [World.setCall_calls, Function.update_self, Option.some_inj] at hcall'
        subst hcall'
        cases hphase'
    | binTmp =>
        rw [getElem?_writeTmp_self, Option.some_inj] at htmp
        exact htmp.symm
    | binRename hdir =>
        rw [World.release, World.setCall_calls, Function.update_self, Option.some_inj] at hcall'
        subst hcall'
        cases hphase'

/-- Every step keeps the invariant. -/
theorem Placed.step (hp : Placed H w) (hw : WellFormed w) (hr : Recorded H w) (hc : CleansTmp w)
    (h : Transition H w e w') : Placed H w' where
  metaFile := metaFile_step hp hw hr hc h
  content := content_step hp hw h

/-! ## A record that is stored -/

/-- The two files of a record are there, and its metadata can be read. -/
structure InPlace (H : Bytes → Digest) (w : World) (r : PersistedRecord) : Prop where
  metaFile : w.dir[metaPath r.id r.generation]? = some (encodeMeta H r)
  content : w.dir[binPath r.id r.generation]? = some r.contentBytes
  size : (encodeMeta H r).length < sizeMod

/-- A file step of a store that has the same artifact and generation. -/
def Overwrites (w : World) (r : PersistedRecord) (e : Event) : Prop :=
  ∃ c call v stage, e = .storeStep c true ∧ w.calls c = some call ∧
    call.phase = .storing v stage ∧ v.art.id = r.id ∧ v.art.generation = r.generation

/-- A step that does not overwrite a record leaves it in place. -/
theorem InPlace.step (hi : InPlace H w r) (hc : CleansTmp w) (h : Transition H w e w')
    (hover : ¬ Overwrites w r e) : InPlace H w' r := by
  rcases dir_sources h with hsame | ⟨c, call, v, stage, rfl, hcall, hphase, hwrite⟩ |
    ⟨t, name, todo, hclean, hgone⟩
  · exact ⟨by rw [hsame]; exact hi.metaFile, by rw [hsame]; exact hi.content, hi.size⟩
  · have hother : ¬ (r.id = v.art.id ∧ r.generation = v.art.generation) := fun heq =>
      hover ⟨c, call, v, stage, rfl, hcall, hphase, heq.1.symm, heq.2.symm⟩
    refine ⟨?_, ?_, hi.size⟩
    · rw [(hwrite.meta_eq fun hm => hother hm.2).1]
      exact hi.metaFile
    · rw [hwrite.bin_eq fun hm => hother hm.2]
      exact hi.content
  · refine ⟨?_, ?_, hi.size⟩
    · rw [hgone, getElem?_of_cleaning hc hclean (isTmp_metaPath _ _)]
      exact hi.metaFile
    · rw [hgone, getElem?_of_cleaning hc hclean (isTmp_binPath _ _)]
      exact hi.content

/-- The last file step of a call's store goes through.
SOURCE: Persistence.cpp:133-135 -/
def StoresRecord (H : Bytes → Digest) (w : World) (e : Event) (w' : World) (r : PersistedRecord) :
    Prop :=
  ∃ c call v, e = .storeStep c true ∧ w.calls c = some call ∧
    call.phase = .storing v .binRename ∧ r = v.record call.key ∧ Writes H w c call v .binRename w'

/-- The last step of a store puts its record in place. -/
theorem inPlace_of_stores (hp : Placed H w) (h : StoresRecord H w e w' r) : InPlace H w' r := by
  obtain ⟨c, call, v, -, hcall, hphase, rfl, hwrite⟩ := h
  obtain ⟨hmeta, hsize⟩ := hp.metaFile c call v _ hcall hphase (.inr rfl)
  refine ⟨?_, ?_, hsize⟩
  · change w'.dir[metaPath v.art.id v.art.generation]? = _
    rw [(hwrite.meta_eq fun hm => by cases hm.1).1]
    exact hmeta
  · cases hwrite with
    | binRename hdir =>
        obtain ⟨bytes, htmp, hdest, -⟩ := rename_eq_some hdir
        rw [hp.content c call v bytes hcall hphase htmp] at hdest
        exact hdest

end CompilationFabric.Interface
