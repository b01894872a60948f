import CompilationFabric.Interface.FabricStore
import CompilationFabric.Interface.FabricHistory
import CompilationFabric.Model.StoreCalls

/-!
# A whole recovery

What `recover` makes of a store, when nothing else happens meanwhile.  It removes the temporary
files, lists the metadata files, and loads the records one by one; the names that the directory
iterator yields decide in which order.  So the cache it leaves is a function of the list of names
(`cache_of_recoverRun`), and every list of names is one of a run (`exists_recoverRun`).

Which records there are does not depend on the order (`validRecord`): the name of a metadata file
gives back the artifact it is of (`parseMetaName_metaPath`).
-/

set_option autoImplicit false

namespace CompilationFabric.Interface

open CompilationFabric.Library
open CompilationFabric.Library.TransitionSystem
open CompilationFabric.Model

variable {H : Bytes → Digest} {w w' u : World} {t : ℕ} {names listing : List Bytes}

/-! ## Names -/

/-- INTERNAL: the suffix is one.
SOURCE: Persistence.cpp:172, 200 -/
theorem hasSuffix_iff {name suffix : Bytes} : hasSuffix name suffix = true ↔ suffix <:+ name := by
  unfold hasSuffix
  rw [Bool.and_eq_true, decide_eq_true_eq, decide_eq_true_eq]
  constructor
  · rintro ⟨-, h⟩
    rw [← h]
    exact List.drop_suffix _ _
  · rintro ⟨pre, rfl⟩
    simp

/-- INTERNAL: an id has no underscore in its text. -/
theorem underscore_notMem_toHex (id : ArtifactId) : underscore ∉ id.toHex := by
  have hword : ∀ w : UInt64, underscore ∉ wordToHex w := by
    intro w hmem
    rw [wordToHex, wordDigits_eq w le_rfl] at hmem
    obtain ⟨d, hd, heq⟩ := List.mem_map.mp hmem
    have hlt := Positional.mem_digits_lt (by omega) hd
    have hall : ∀ m : Fin 16, hexChar (UInt8.ofNat m) ≠ underscore := by decide
    exact hall ⟨d, hlt⟩ heq
  unfold TypedId.toHex Id128.toHex
  rw [List.mem_append, not_or]
  exact ⟨hword _, hword _⟩

/-- A metadata file is listed under the artifact that it is of.
SOURCE: Persistence.cpp:121-123, 171-182 -/
theorem parseMetaName_metaPath (id : ArtifactId) (gen : ArtifactGeneration) :
    parseMetaName (metaPath id gen) = some (id, gen) := by
  have hname : metaPath id gen =
      id.toHex ++ (underscore :: (DecimalText.natText gen.toNat ++ ascii ".meta")) := by
    simp only [metaPath, recordName, List.append_assoc]
    rfl
  have hsuffix : hasSuffix (metaPath id gen) (ascii ".meta") = true :=
    hasSuffix_iff.mpr (List.suffix_append _ _)
  have hhex : (metaPath id gen).takeWhile (· ≠ underscore) = id.toHex := by
    rw [hname, List.takeWhile_append_of_pos]
    · simp
    · intro c hc
      have hne : c ≠ underscore := fun h => underscore_notMem_toHex id (h ▸ hc)
      simpa using hne
  have hmem : underscore ∈ metaPath id gen := by
    rw [hname]
    simp
  have hlen : (ascii ".meta").length = 5 := by decide
  unfold parseMetaName
  rw [if_pos hsuffix, if_pos hmem]
  simp only [hhex]
  have hgen : ((metaPath id gen).drop (id.toHex.length + 1)).take
      ((metaPath id gen).length - (id.toHex.length + 1) - 5) =
        DecimalText.natText gen.toNat := by
    have hdrop : (metaPath id gen).drop (id.toHex.length + 1) =
        DecimalText.natText gen.toNat ++ ascii ".meta" := by
      rw [hname, ← List.drop_drop, List.drop_left, List.drop_one, List.tail_cons]
    have hcount : (metaPath id gen).length - (id.toHex.length + 1) - 5 =
        (DecimalText.natText gen.toNat).length := by
      rw [hname]
      simp only [List.length_append, List.length_cons, hlen]
      omega
    rw [hdrop, hcount, List.take_left]
  rw [hgen, Numerals.strtoull_natText gen.toNat_lt, UInt64.ofNat_toNat, TypedId.parse_toHex]
  rfl

/-- A metadata file is not cleaned away. -/
theorem isTmp_metaPath (id : ArtifactId) (gen : ArtifactGeneration) :
    World.isTmp (metaPath id gen) = false := by
  by_contra h
  obtain ⟨pre, hpre⟩ := hasSuffix_iff.mp (Bool.eq_true_of_not_eq_false h)
  exact metaPath_ne_tmpPath id gen pre hpre.symm

/-- A content file is not cleaned away. -/
theorem isTmp_binPath (id : ArtifactId) (gen : ArtifactGeneration) :
    World.isTmp (binPath id gen) = false := by
  by_contra h
  obtain ⟨pre, hpre⟩ := hasSuffix_iff.mp (Bool.eq_true_of_not_eq_false h)
  exact binPath_ne_tmpPath id gen pre hpre.symm

/-! ## The records of a store -/

/-- What a `recover` inserts when it finds this metadata.
SOURCE: Persistence.cpp:146-156, 206-214 -/
def keptRecord (H : Bytes → Digest) (w : World) (id : ArtifactId) (gen : ArtifactGeneration)
    (found : Loaded) : Option Loaded :=
  match loadContent H found.record w.dir[binPath id gen]? id gen with
  | .error _ => none
  | .ok record => if record.invalidated then none else some ⟨record, found.origin⟩

/-- The record of an artifact, when it loads and is not invalidated. -/
def validRecord (H : Bytes → Digest) (w : World) (x : ArtifactId × ArtifactGeneration) :
    Option Loaded :=
  match load H w.dir x.1 x.2 with
  | .ok (.ok record) =>
      if record.invalidated then none else some ⟨record, w.writers (metaPath x.1 x.2)⟩
  | _ => none

/-- Every metadata file reads without an exception. -/
def NeverThrows (H : Bytes → Digest) (w : World) : Prop :=
  ∀ id gen, ∃ r, loadMeta H w.dir[metaPath id gen]? id gen = .ok r

/-- INTERNAL: without metadata there is no record. -/
theorem validRecord_of_noMeta {id : ArtifactId} {gen : ArtifactGeneration} {failure : Failure}
    (hload : loadMeta H w.dir[metaPath id gen]? id gen = .ok (.error failure)) :
    validRecord H w (id, gen) = none := by
  simp only [validRecord, load, hload, bind, Except.bind, pure, Except.pure]

/-- INTERNAL: with metadata the content decides. -/
theorem validRecord_of_meta {id : ArtifactId} {gen : ArtifactGeneration} {record : PersistedRecord}
    (hload : loadMeta H w.dir[metaPath id gen]? id gen = .ok (.ok record)) :
    validRecord H w (id, gen) =
      keptRecord H w id gen ⟨record, w.writers (metaPath id gen)⟩ := by
  simp only [validRecord, keptRecord, load, hload, bind, Except.bind, pure, Except.pure]
  cases loadContent H record w.dir[binPath id gen]? id gen <;> rfl

/-- No file that the fabric has stored makes a load throw. -/
theorem neverThrows_of_recorded (hr : Recorded H w) : NeverThrows H w := by
  intro id gen
  cases hfile : w.dir[metaPath id gen]? with
  | none => exact ⟨_, rfl⟩
  | some file =>
      obtain ⟨m, -, -, -, -, hmeta⟩ := hr.files id gen file hfile
      obtain ⟨r, hload, -⟩ := loadMeta_of_metaFile hmeta id gen
      exact ⟨_, hload⟩

/-- A record that is found is one of a commit, and names its artifact. -/
theorem validRecord_spec (hr : Recorded H w) {x : ArtifactId × ArtifactGeneration} {l : Loaded}
    (h : validRecord H w x = some l) :
    metaPath x.1 x.2 ∈ w.dir ∧ l.record.descriptor.id = x.1 ∧ l.record.generation = x.2 ∧
      l.record.descriptor.generation = x.2 := by
  obtain ⟨id, gen⟩ := x
  obtain ⟨r, hload⟩ := neverThrows_of_recorded hr id gen
  cases r with
  | error failure =>
      rw [validRecord_of_noMeta hload] at h
      cases h
  | ok record =>
      have hmem : metaPath id gen ∈ w.dir := by
        rw [Std.ExtTreeMap.mem_iff_isSome_getElem?]
        cases hfile : w.dir[metaPath id gen]? with
        | some file => rfl
        | none =>
            rw [hfile] at hload
            cases hload
      obtain ⟨m, -, -, hid, hgen, hreads⟩ := reads_of_loadMeta hr hload
      rw [validRecord_of_meta hload, keptRecord] at h
      split at h
      · cases h
      · next record' hcontent =>
        obtain ⟨bin, -, rfl, -, hgen', -⟩ := loadContent_eq_ok hcontent
        split at h
        · cases h
        · cases h
          exact ⟨hmem, hreads.describes.id.trans hid, hgen', hreads.generation.trans hgen'⟩

/-- A record whose two files are there is found, under its own key. -/
theorem validRecord_of_files {r : PersistedRecord} (hsorted : r.key.Sorted)
    (hmeta : w.dir[metaPath r.id r.generation]? = some (encodeMeta H r))
    (hbin : w.dir[binPath r.id r.generation]? = some r.contentBytes)
    (hsize : (encodeMeta H r).length < sizeMod) (hid : r.descriptor.id = r.id)
    (hgen : wireU64 r.descriptor.generation = r.generation)
    (hdigest : r.descriptor.contentDigest = H r.contentBytes) (hvalid : r.invalidated = false) :
    ∃ l, validRecord H w (r.id, r.generation) = some l ∧ l.record.key = r.key := by
  obtain ⟨k, hk, hload⟩ := load_of_files hsize hmeta hbin
  rw [loadContent_wireRecord k hid hgen hdigest] at hload
  have hkey : k = r.key := CompilationKey.ext_fields (hk.trans (sortFields_of_sorted hsorted))
  refine ⟨⟨{ wireRecord r k with contentBytes := r.contentBytes },
    w.writers (metaPath r.id r.generation)⟩, ?_, hkey⟩
  have hvalid' : (wireRecord r k).invalidated = false := hvalid
  simp only [validRecord, hload, hvalid', Bool.false_eq_true, if_false]

/-! ## Removing the temporary files -/

/-- INTERNAL: a `recover` is where it is put. -/
theorem setRecovery_self (p : Option RecoverPhase) : (w.setRecovery t p).recoveries t = p :=
  Function.update_self ..

/-- INTERNAL: the last place counts. -/
theorem setRecovery_setRecovery (p q : Option RecoverPhase) :
    (w.setRecovery t p).setRecovery t q = w.setRecovery t q := by
  unfold World.setRecovery
  simp only [Function.update_idem]

/-- What is left behind the removal of files by their names. -/
theorem getElem?_removeFiles (dir : Directory) (names : List Bytes) (name : Bytes) :
    (removeFiles dir names)[name]? = if name ∈ names then none else dir[name]? := by
  induction names generalizing dir with
  | nil => simp [removeFiles]
  | cons gone names ih =>
      unfold removeFiles at ih ⊢
      rw [List.foldl_cons, ih]
      by_cases hmem : name ∈ names
      · rw [if_pos hmem, if_pos (List.mem_cons_of_mem _ hmem)]
      by_cases hgone : name = gone
      · subst hgone
        rw [if_neg hmem, if_pos List.mem_cons_self, Std.ExtTreeMap.getElem?_erase_self]
      · have hnot : name ∉ gone :: names := by simp [hgone, hmem]
        rw [if_neg hmem, if_neg hnot, getElem?_erase_of_ne dir hgone]

/-- The world in which a `recover` lists the records. -/
def cleanedWorld (w : World) (names : List Bytes) : World :=
  { w with
    dir := removeOrphans w.dir names
    nextRecovery := w.nextRecovery + 1 }

/-- INTERNAL: a file that is no leftover is untouched by the removal of the leftovers. -/
theorem getElem?_cleanedWorld {name : Bytes} (hname : World.isTmp name = false) :
    (cleanedWorld w names).dir[name]? = w.dir[name]? := by
  apply (getElem?_removeFiles w.dir (names.filter World.isTmp) name).trans
  apply if_neg
  intro hmem
  have htmp : World.isTmp name = true := (List.mem_filter.1 hmem).2
  exact absurd (hname.symm.trans htmp) Bool.false_ne_true

/-- The metadata of a record stay where they are. -/
theorem meta_cleanedWorld (id : ArtifactId) (gen : ArtifactGeneration) :
    (cleanedWorld w names).dir[metaPath id gen]? = w.dir[metaPath id gen]? :=
  getElem?_cleanedWorld (isTmp_metaPath id gen)

/-- Cleaning changes no record. -/
theorem validRecord_cleanedWorld (x : ArtifactId × ArtifactGeneration) :
    validRecord H (cleanedWorld w names) x = validRecord H w x := by
  have hbin : (cleanedWorld w names).dir[binPath x.1 x.2]? = w.dir[binPath x.1 x.2]? :=
    getElem?_cleanedWorld (isTmp_binPath x.1 x.2)
  unfold validRecord load
  rw [meta_cleanedWorld, hbin]
  rfl

/-- The temporary files are removed one by one. -/
theorem exec_removeTmp (todo : List Bytes) (dir : Directory) :
    exec (step H) ({ w with dir := dir }.setRecovery t (some (.cleaning todo)))
        (List.replicate todo.length (.removeTmp t)) =
      some ({ w with dir := removeFiles dir todo }.setRecovery t (some (.cleaning []))) := by
  induction todo generalizing dir with
  | nil => rfl
  | cons name todo ih =>
      have hstep : step H ({ w with dir := dir }.setRecovery t (some (.cleaning (name :: todo))))
          (.removeTmp t) = some ({ w with dir := dir.erase name }.setRecovery t
            (some (.cleaning todo))) := by
        change World.removeTmp _ t = _
        unfold World.removeTmp World.setRecovery
        simp only [Function.update_self, Function.update_idem]
      rw [List.length_cons, List.replicate_succ, exec_cons]
      exact ⟨_, hstep, ih _⟩

/-- A `recover` up to its list of records. -/
theorem exec_cleaning (hconfig : w.process.config.persistenceEnabled = true)
    (hnames : names.Perm w.dir.keys) :
    exec (step H) w (.recover names ::
        List.replicate (names.filter World.isTmp).length (.removeTmp w.nextRecovery)) =
      some ((cleanedWorld w names).setRecovery w.nextRecovery (some (.cleaning []))) := by
  have hstep : step H w (.recover names) =
      some { w.setRecovery w.nextRecovery (some (.cleaning (names.filter World.isTmp))) with
        nextRecovery := w.nextRecovery + 1 } := by
    change w.recover names = _
    unfold World.recover
    rw [if_pos hconfig, if_pos hnames]
  refine exec_cons.mpr ⟨_, hstep, ?_⟩
  exact exec_removeTmp (w := { w with nextRecovery := w.nextRecovery + 1 }) _ w.dir

/-! ## Loading the records -/

/-- The steps by which a `recover` loads its records. -/
def isRead (t : ℕ) : Event → Bool
  | .readMeta s | .readContent s => decide (s = t)
  | _ => false

/-- The records that a `recover` is going to insert. -/
def outcome (H : Bytes → Digest) (w : World) : RecoverPhase → List Loaded
  | .cleaning _ => []
  | .loading todo valid => valid ++ todo.filterMap (validRecord H w)
  | .content id gen found todo valid =>
      valid ++ ((keptRecord H w id gen found).toList ++ todo.filterMap (validRecord H w))

/-- INTERNAL: a filtered list by its first element. -/
theorem filterMap_cons_toList {α β : Type*} (f : α → Option β) (a : α) (as : List α) :
    (a :: as).filterMap f = (f a).toList ++ as.filterMap f := by
  cases h : f a with
  | none => rw [List.filterMap_cons_none h, Option.toList_none, List.nil_append]
  | some b => rw [List.filterMap_cons_some h, Option.toList_some, List.singleton_append]

/-- INTERNAL: a record whose content does not load is dropped, and so is an invalidated one. -/
theorem keptRecord_of_dropped {id : ArtifactId} {gen : ArtifactGeneration} {found : Loaded}
    (hload : ∀ record, loadContent H found.record w.dir[binPath id gen]? id gen = .ok record →
      record.invalidated = true) : keptRecord H w id gen found = none := by
  unfold keptRecord
  split
  · rfl
  · next record heq => rw [if_pos (hload record heq)]

/-- INTERNAL: a valid record is kept. -/
theorem keptRecord_of_kept {id : ArtifactId} {gen : ArtifactGeneration} {found : Loaded}
    {record : PersistedRecord}
    (hload : loadContent H found.record w.dir[binPath id gen]? id gen = .ok record)
    (hvalid : record.invalidated = false) :
    keptRecord H w id gen found = some ⟨record, found.origin⟩ := by
  unfold keptRecord
  rw [hload]
  simp [hvalid]

/-- Reading a file leaves the outcome as it is, unless it throws. -/
theorem outcome_of_recovers {e : Event} {p : RecoverPhase} {next : Option RecoverPhase}
    (he : isRead t e = true) (hphase : w.recoveries t = some p) (h : Recovers H w t e next) :
    ∀ q, next = some q → outcome H w q = outcome H w p := by
  rintro q rfl
  cases h with
  | listed => cases he
  | noMeta hp hload =>
      cases hphase.symm.trans hp
      rw [outcome, outcome, filterMap_cons_toList, validRecord_of_noMeta hload]
      rfl
  | foundMeta hp hload =>
      cases hphase.symm.trans hp
      rw [outcome, outcome, filterMap_cons_toList, validRecord_of_meta hload]
  | dropped hp hload =>
      cases hphase.symm.trans hp
      rw [outcome, outcome, keptRecord_of_dropped hload]
      rfl
  | kept hp hload hvalid =>
      cases hphase.symm.trans hp
      rw [outcome, outcome, keptRecord_of_kept hload hvalid, List.append_assoc]
      rfl

/-- Reading changes the recovery alone. -/
structure Reading (H : Bytes → Digest) (w : World) (t : ℕ) (valid : List Loaded) (u : World) :
    Prop where
  frame : ∃ p, u = w.setRecovery t p
  outcome : ∀ p, u.recoveries t = some p → outcome H w p = valid

/-- INTERNAL: a reading step moves its `recover` only. -/
theorem recovers_of_read {e : Event} (he : isRead t e = true) (h : Transition H w e w') :
    ∃ next, w' = w.setRecovery t next ∧ Recovers H w t e next := by
  cases h with
  | recovering hrec =>
      have hsame := hrec
      cases hrec with
      | listed => cases he
      | _ =>
          obtain rfl := of_decide_eq_true he
          exact ⟨_, rfl, hsame⟩
  | advance hcall hadv => cases hadv <;> cases he
  | fail hcall hlock hentry hfail => cases hfail <;> cases he
  | lease h => obtain ⟨_, rfl⟩ | ⟨_, rfl⟩ := h <;> cases he
  | _ => cases he

/-- A reading step goes on with the records that are left. -/
theorem Reading.step {valid : List Loaded} {e : Event} (h : Reading H w t valid u)
    (he : isRead t e = true) (hstep : step H u e = some w') : Reading H w t valid w' := by
  obtain ⟨⟨p, rfl⟩, houtcome⟩ := h
  obtain ⟨next, rfl, hrec⟩ := recovers_of_read he (transition_of_step hstep)
  refine ⟨⟨next, setRecovery_setRecovery p next⟩, fun q hq => ?_⟩
  rw [setRecovery_self] at hq
  obtain ⟨p', hp'⟩ : ∃ p', (w.setRecovery t p).recoveries t = some p' := by
    cases hrec <;> exact ⟨_, by assumption⟩
  exact (outcome_of_recovers he hp' hrec q hq).trans (houtcome p' hp')

/-- However the loading goes on, it ends with the same records. -/
theorem reading_exec {valid : List Loaded} {reads : List Event} (h : Reading H w t valid u)
    (hreads : ∀ e ∈ reads, isRead t e = true) (hexec : exec (step H) u reads = some w') :
    Reading H w t valid w' :=
  exec_induction (P := fun _ e => isRead t e = true) (fun _ _ _ he hstep hs => hs.step he hstep)
    (meets_of_forall fun e he _ => hreads e he) hexec h

/-- The loading can go on to its end when no file throws. -/
theorem exists_reads (hload : NeverThrows H w) (todo : List (ArtifactId × ArtifactGeneration))
    (valid : List Loaded) :
    ∃ reads, (∀ e ∈ reads, isRead t e = true) ∧
      exec (step H) (w.setRecovery t (some (.loading todo valid))) reads =
        some (w.setRecovery t (some (.loading [] (valid ++ todo.filterMap (validRecord H w))))) := by
  induction todo generalizing valid with
  | nil => exact ⟨[], by simp, by simp⟩
  | cons x todo ih =>
      obtain ⟨id, gen⟩ := x
      obtain ⟨r, hr⟩ := hload id gen
      obtain ⟨reads, hreads, hexec⟩ := ih (valid ++ (validRecord H w (id, gen)).toList)
      rw [filterMap_cons_toList, ← List.append_assoc]
      cases r with
      | error failure =>
          refine ⟨.readMeta t :: reads, by simpa [isRead] using hreads, exec_cons.mpr ⟨_, ?_, hexec⟩⟩
          change World.readMeta H _ t = _
          unfold World.readMeta
          rw [validRecord_of_noMeta hr]
          simp only [World.setRecovery, Function.update_self, Function.update_idem, hr,
            Option.toList_none, List.append_nil]
      | ok record =>
          refine ⟨.readMeta t :: .readContent t :: reads, by simpa [isRead] using hreads,
            exec_cons.mpr ⟨w.setRecovery t (some (.content id gen
              ⟨record, w.writers (metaPath id gen)⟩ todo valid)), ?_,
              exec_cons.mpr ⟨_, ?_, hexec⟩⟩⟩
          · change World.readMeta H _ t = _
            unfold World.readMeta
            simp only [World.setRecovery, Function.update_self, Function.update_idem, hr]
          · change World.readContent H _ t = _
            unfold World.readContent
            rw [validRecord_of_meta hr, keptRecord]
            simp only [World.setRecovery, Function.update_self, Function.update_idem]
            cases loadContent H record w.dir[binPath id gen]? id gen with
            | error failure => simp
            | ok record' => cases hinvalid : record'.invalidated <;> simp [hinvalid]

/-! ## The whole -/

/-- A `recover` call from its start to its return, with the names as the directory iterator
yields them before and after the temporary files are removed. -/
def recoverEvents (t : ℕ) (names listing : List Bytes) (reads : List Event) : List Event :=
  (.recover names :: List.replicate (names.filter World.isTmp).length (.removeTmp t)) ++
    (.listRecords t listing :: (reads ++ [.recoverInsert t]))

/-- A `recover` call alone, and where it leads.
SOURCE: Fabric.cpp:561-585, Persistence.cpp:192-216 -/
def RecoverRun (H : Bytes → Digest) (w : World) (names listing : List Bytes) (u : World) : Prop :=
  ∃ reads, (∀ e ∈ reads, isRead w.nextRecovery e = true) ∧
    exec (step H) w (recoverEvents w.nextRecovery names listing reads) = some u

/-- The records of a listing, in its order. -/
def recordsOf (H : Bytes → Digest) (w : World) (listing : List Bytes) : List Loaded :=
  (list listing).filterMap (validRecord H w)

/-- A listing of the files that are there without the temporary ones. -/
def Lists (w : World) (names listing : List Bytes) : Prop :=
  names.Perm w.dir.keys ∧ listing.Perm (cleanedWorld w names).dir.keys

/-- The cache after a `recover` is the one of the records in the order of the listing. -/
theorem cache_of_recoverRun (hconfig : w.process.config.persistenceEnabled = true)
    (h : RecoverRun H w names listing u) :
    Lists w names listing ∧ u.impl.cache = recoveredCache w (recordsOf H w listing) := by
  obtain ⟨reads, hreads, hexec⟩ := h
  obtain ⟨s, hclean, hrest⟩ := exec_append.mp hexec
  have hnames : names.Perm w.dir.keys := by
    obtain ⟨s', hstep, -⟩ := exec_cons.mp hclean
    change w.recover names = _ at hstep
    unfold World.recover at hstep
    rw [if_pos hconfig] at hstep
    by_contra hperm
    rw [if_neg hperm] at hstep
    cases hstep
  obtain rfl : _ = s := Option.some.inj ((exec_cleaning hconfig hnames).symm.trans hclean)
  obtain ⟨s', hlist, hrest⟩ := exec_cons.mp hrest
  obtain ⟨s'', hexec, hinsert⟩ := exec_append.mp hrest
  change World.listRecords _ _ listing = _ at hlist
  unfold World.listRecords at hlist
  rw [setRecovery_self] at hlist
  dsimp only at hlist
  split at hlist
  · next hlisting =>
    cases hlist
    have hreading : Reading H (cleanedWorld w names) w.nextRecovery
        ((list listing).filterMap (validRecord H (cleanedWorld w names))) s'' := by
      refine reading_exec ⟨⟨some (.loading (list listing) []), ?_⟩, ?_⟩ hreads hexec
      · exact setRecovery_setRecovery _ _
      · intro p hp
        rw [setRecovery_self] at hp
        cases hp
        rfl
    refine ⟨⟨hnames, hlisting⟩, ?_⟩
    have htrans := transition_of_step (exec_singleton.mp hinsert)
    obtain ⟨⟨p, rfl⟩, houtcome⟩ := hreading
    cases htrans with
    | @recoverInsert _ valid hlock hphase =>
        have hvalid := houtcome _ hphase
        rw [outcome, List.filterMap_nil, List.append_nil] at hvalid
        subst hvalid
        have hsame : validRecord H (cleanedWorld w names) = validRecord H w :=
          funext fun x => validRecord_cleanedWorld x
        rw [hsame]
        rfl
    | advance hcall hadv => cases hadv
    | fail hcall hlock hentry hfail => cases hfail
    | lease h => obtain ⟨_, h⟩ | ⟨_, h⟩ := h <;> cases h
    | recovering hrec => cases hrec
  · cases hlist

/-- Every order of the names is one in which a `recover` goes through.
SOURCE: Fabric.cpp:561-585, Persistence.cpp:192-216 -/
theorem exists_recoverRun (hconfig : w.process.config.persistenceEnabled = true)
    (hlock : w.impl.lock = none) (hload : NeverThrows H w) (hlists : Lists w names listing) :
    ∃ u, RecoverRun H w names listing u := by
  have hload' : NeverThrows H (cleanedWorld w names) := by
    intro id gen
    rw [meta_cleanedWorld]
    exact hload id gen
  obtain ⟨reads, hreads, hexec⟩ := exists_reads (t := w.nextRecovery) hload' (list listing) []
  have hlist : step H ((cleanedWorld w names).setRecovery w.nextRecovery (some (.cleaning [])))
      (.listRecords w.nextRecovery listing) =
        some ((cleanedWorld w names).setRecovery w.nextRecovery
          (some (.loading (list listing) []))) := by
    change World.listRecords _ _ listing = _
    unfold World.listRecords
    rw [setRecovery_self]
    dsimp only
    rw [setRecovery_setRecovery]
    exact if_pos hlists.2
  obtain ⟨u, hinsert⟩ : ∃ u, step H ((cleanedWorld w names).setRecovery w.nextRecovery
      (some (.loading [] ([] ++ (list listing).filterMap (validRecord H (cleanedWorld w names))))))
      (.recoverInsert w.nextRecovery) = some u := by
    change ∃ u, World.recoverInsert _ _ = some u
    unfold World.recoverInsert
    rw [setRecovery_self]
    dsimp only
    exact ⟨_, if_pos hlock⟩
  exact ⟨u, reads, hreads, exec_append.mpr ⟨_, exec_cleaning hconfig hlists.1,
    exec_cons.mpr ⟨_, hlist, exec_append.mpr ⟨_, hexec, exec_singleton.mpr hinsert⟩⟩⟩⟩

/-- The records of a listing are those of the store. -/
theorem mem_recordsOf (hr : Recorded H w) (hlists : Lists w names listing) {l : Loaded} :
    l ∈ recordsOf H w listing ↔ ∃ x, validRecord H w x = some l := by
  unfold recordsOf list
  rw [List.mem_filterMap]
  constructor
  · rintro ⟨x, -, hx⟩
    exact ⟨x, hx⟩
  · rintro ⟨x, hx⟩
    refine ⟨x, List.mem_filterMap.mpr ⟨metaPath x.1 x.2, ?_, parseMetaName_metaPath _ _⟩, hx⟩
    have hmem := (validRecord_spec hr hx).1
    rw [Std.ExtTreeMap.mem_iff_isSome_getElem?] at hmem
    rw [hlists.2.mem_iff, Std.ExtTreeMap.mem_keys, Std.ExtTreeMap.mem_iff_isSome_getElem?]
    rwa [meta_cleanedWorld]

end CompilationFabric.Interface
