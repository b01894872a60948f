import CompilationFabric.Interface.FabricRuns
import CompilationFabric.Library.Census
import CompilationFabric.Library.Ranking

/-!
# The work that is left

What a fabric takes by itself, once it has been called, are the steps of its `compile` calls
and of its `recover` calls.  `rank` bounds how many of them there can still be: each call
contributes the steps its phase is away from its return, and each `recover` call the files and
records it has still to go through.

A `recover` call that is removing temporary files has not listed the records yet.  How many there
will be depends on the files that the stores under way are going to write, and `listable` bounds
them.
-/

set_option autoImplicit false

namespace CompilationFabric.Interface

open CompilationFabric.Library.TransitionSystem
open CompilationFabric.Library.Census
open CompilationFabric.Model

variable {H : Bytes → Digest} {w w' : World} {e : Event} {es : List Event} {c : CallId}
  {call call' : Call}

/-! ## The events -/

/-- The steps that calls take by themselves, with a backend that answers. -/
def progresses : Event → Bool
  | .join _ | .wake _ | .check _ _ | .build _ _ _ | .number _ | .validate _ _ _ _ | .commit _
  | .storeStep _ _ | .complete _ | .removeTmp _ | .listRecords _ _ | .readMeta _
  | .readContent _ | .recoverInsert _ => true
  | _ => false

/-- The same, with a backend that may throw as well. -/
def advances : Event → Bool
  | .raise _ => true
  | e => progresses e

/-! ## The rank -/

/-- The file steps that a store still has. -/
def stageRank : StoreStage → ℕ
  | .metaTmp => 5
  | .metaRename => 4
  | .binTmp => 3
  | .binRename => 2

/-- The steps that a call still has. -/
def phaseRank : Phase → ℕ
  | .missed => 11
  | .checking => 10
  | .compiling => 9
  | .built _ => 8
  | .numbered _ _ => 7
  | .validated _ => 6
  | .storing _ stage => stageRank stage
  | .committed _ => 1
  | .waiting _ => 1
  | .returned _ _ => 0
  | .raised => 0

def callRank (call : Call) : ℕ := phaseRank call.phase

/-- The steps that the `compile` calls still have. -/
def callsRank (w : World) : ℕ := total callRank w.calls w.nextCall

/-- The files there are, and those that may still be written. -/
def listable (w : World) : ℕ := w.dir.size + callsRank w

/-- The steps that a `recover` call still has, when it will list at most `n` records. -/
def recoverRank (n : ℕ) : RecoverPhase → ℕ
  | .cleaning todo => todo.length + 2 * n + 2
  | .loading todo _ => 2 * todo.length + 1
  | .content _ _ _ todo _ => 2 * todo.length + 2

def recoveriesRank (w : World) : ℕ :=
  total (recoverRank (listable w)) w.recoveries w.nextRecovery

def rank (w : World) : ℕ := callsRank w + recoveriesRank w

/-! ## What the steps do to it -/

/-- INTERNAL: every file step has another step after it. -/
theorem one_lt_stageRank (stage : StoreStage) : 1 < stageRank stage := by
  cases stage <;> decide

/-- INTERNAL: more files, more steps. -/
theorem recoverRank_mono {m n : ℕ} (h : m ≤ n) (p : RecoverPhase) :
    recoverRank m p ≤ recoverRank n p := by
  cases p with
  | cleaning todo =>
      change todo.length + 2 * m + 2 ≤ todo.length + 2 * n + 2
      omega
  | loading => exact le_rfl
  | content => exact le_rfl

/-- The calls of a fabric have numbers below the next one, and so have its `recover` calls. -/
structure Enrolled (w : World) : Prop where
  wellFormed : WellFormed w
  fresh : ∀ t, w.nextRecovery ≤ t → w.recoveries t = none

/-- A fresh process has no calls. -/
theorem Enrolled.init (p : Process) : Enrolled { process := p } where
  wellFormed := .init p
  fresh _ _ := rfl

/-- A `recover` has a number that has been given out. -/
theorem Enrolled.lt_nextRecovery (hn : Enrolled w) {t : ℕ} {p : RecoverPhase}
    (h : w.recoveries t = some p) : t < w.nextRecovery := by
  by_contra hge
  rw [hn.fresh t (not_lt.mp hge)] at h
  cases h

/-- INTERNAL: a `recover` that moves on leaves the later numbers free. -/
theorem fresh_setRecovery {t : ℕ} {p : Option RecoverPhase} (hn : Enrolled w)
    (h : w.recoveries t ≠ none) :
    ∀ s, w.nextRecovery ≤ s → Function.update w.recoveries t p s = none := by
  intro s hs
  have hne : s ≠ t := by
    rintro rfl
    exact h (hn.fresh s hs)
  rw [Function.update_of_ne hne]
  exact hn.fresh s hs

/-- INTERNAL: only a `recover` that is under way moves on. -/
theorem Recovers.phase_ne {t : ℕ} {next : Option RecoverPhase} (h : Recovers H w t e next) :
    w.recoveries t ≠ none := by
  cases h with
  | listed hphase => rw [hphase]; exact Option.some_ne_none _
  | thrown hphase => rw [hphase]; exact Option.some_ne_none _
  | noMeta hphase => rw [hphase]; exact Option.some_ne_none _
  | foundMeta hphase => rw [hphase]; exact Option.some_ne_none _
  | dropped hphase => rw [hphase]; exact Option.some_ne_none _
  | kept hphase => rw [hphase]; exact Option.some_ne_none _

/-- Every step keeps the numbers below the next ones. -/
theorem Enrolled.step (hn : Enrolled w) (h : Transition H w e w') : Enrolled w' := by
  refine ⟨hn.wellFormed.step h, ?_⟩
  cases h with
  | advance hcall hadv => exact hn.fresh
  | fail hcall hlock hentry hfail => exact hn.fresh
  | write hcall hphase hwrite => cases hwrite <;> exact hn.fresh
  | recoverOff => exact fun t ht => hn.fresh t (Nat.le_of_succ_le ht)
  | recover hnames =>
      intro t ht
      change w.nextRecovery + 1 ≤ t at ht
      change Function.update w.recoveries w.nextRecovery _ t = none
      rw [Function.update_of_ne (Nat.lt_of_succ_le ht).ne']
      exact hn.fresh t (Nat.le_of_succ_le ht)
  | removeTmp hphase => exact fresh_setRecovery hn (by rw [hphase]; exact Option.some_ne_none _)
  | recovering hrec => exact fresh_setRecovery hn hrec.phase_ne
  | recoverInsert hlock hphase =>
      exact fresh_setRecovery hn (by rw [hphase]; exact Option.some_ne_none _)
  | restart => exact fun _ _ => rfl
  | _ => exact hn.fresh

/-- Every run keeps the numbers below the next ones. -/
theorem enrolled_exec {p : Process} (h : exec (step H) { process := p } es = some w) :
    Enrolled w :=
  exec_invariant (fun _ _ _ hs hn => hn.step (transition_of_step hs)) h (.init p)

/-! ## Steps of `compile` calls -/

/-- A call moves on, and at most one file is written. -/
theorem rank_lt_of_move (hn : Enrolled w) (hcall : w.calls c = some call)
    (hcalls : w'.calls = Function.update w.calls c (some call'))
    (hnext : w'.nextCall = w.nextCall) (hrank : callRank call' < callRank call)
    (hfiles : w'.dir.size ≤ w.dir.size + 1) (hrec : w'.recoveries = w.recoveries)
    (hnextRec : w'.nextRecovery = w.nextRecovery) : rank w' < rank w := by
  have hlower : callsRank w' < callsRank w := by
    have hupdate := total_update (f := callRank) (y := call')
      (hn.wellFormed.lt_nextCall hcall) hcall
    unfold callsRank
    rw [hcalls, hnext]
    omega
  have hlist : listable w' ≤ listable w := by
    unfold listable
    omega
  have hsame : recoveriesRank w' ≤ recoveriesRank w := by
    unfold recoveriesRank
    rw [hrec, hnextRec]
    exact total_mono (recoverRank_mono hlist)
  unfold rank
  omega

/-- INTERNAL: a write adds one file at most. -/
theorem size_writeTmp_le (dir : Directory) (dest bytes : Bytes) :
    (writeTmp dir dest bytes).size ≤ dir.size + 1 :=
  Std.ExtTreeMap.size_insert_le

/-- INTERNAL: a rename adds one file at most. -/
theorem size_rename_le {dir dir' : Directory} {dest : Bytes} (h : rename dir dest = some dir') :
    dir'.size ≤ dir.size + 1 := by
  obtain ⟨bytes, -, rfl⟩ := Option.map_eq_some_iff.mp h
  exact Std.ExtTreeMap.size_insert_le.trans (Nat.add_le_add_right Std.ExtTreeMap.size_erase_le 1)

/-- INTERNAL: an owner that moves on has fewer steps left. -/
theorem Advances.rank_lt {p : Phase} (h : Advances H w c call e p) :
    phaseRank p < phaseRank call.phase := by
  cases h with
  | compiling hphase => rw [hphase]; decide
  | built hphase => rw [hphase]; exact Nat.lt_succ_self 8
  | validated hphase => rw [hphase]; exact Nat.lt_succ_self 6
  | raised hphase =>
      rcases hphase with hphase | hphase | ⟨b, id, hphase⟩ <;> rw [hphase] <;>
        exact Nat.succ_pos _

/-- INTERNAL: an owner that gives up had steps left. -/
theorem Fails.rank_pos {f : Failure} (h : Fails w c call e f) : 0 < phaseRank call.phase := by
  cases h with
  | noBackend hphase => rw [hphase]; exact Nat.succ_pos _
  | incompatible hphase => rw [hphase]; exact Nat.succ_pos _
  | build hphase => rw [hphase]; exact Nat.succ_pos _
  | validation hphase => rw [hphase]; exact Nat.succ_pos _
  | notPassed hphase => rw [hphase]; exact Nat.succ_pos _
  | stale hphase => rw [hphase]; exact Nat.succ_pos _

/-- INTERNAL: a file step leaves fewer steps, though it may add a file. -/
theorem Writes.rank_lt {v : Validated} {stage : StoreStage} (hn : Enrolled w)
    (hcall : w.calls c = some call) (hphase : call.phase = .storing v stage)
    (h : Writes H w c call v stage w') : rank w' < rank w := by
  cases h with
  | metaTmp =>
      refine rank_lt_of_move hn hcall rfl rfl ?_ (size_writeTmp_le _ _ _) rfl rfl
      simp [callRank, phaseRank, stageRank, hphase]
  | metaRename hsize hdir =>
      refine rank_lt_of_move hn hcall rfl rfl ?_ (size_rename_le hdir) rfl rfl
      simp [callRank, phaseRank, stageRank, hphase]
  | binTmp =>
      refine rank_lt_of_move hn hcall rfl rfl ?_ (size_writeTmp_le _ _ _) rfl rfl
      simp [callRank, phaseRank, stageRank, hphase]
  | binRename hdir =>
      refine rank_lt_of_move hn hcall rfl rfl ?_ (size_rename_le hdir) rfl rfl
      simp [callRank, phaseRank, stageRank, hphase]

/-! ## Steps of `recover` calls -/

/-- A `recover` call moves on or returns, and no file is written. -/
theorem rank_lt_of_recovery {t : ℕ} {p : RecoverPhase} {next : Option RecoverPhase}
    (hn : Enrolled w) (hp : w.recoveries t = some p)
    (hcalls : w'.calls = w.calls) (hnext : w'.nextCall = w.nextCall)
    (hfiles : w'.dir.size ≤ w.dir.size)
    (hrec : w'.recoveries = Function.update w.recoveries t next)
    (hnextRec : w'.nextRecovery = w.nextRecovery)
    (hrank : next.elim 0 (recoverRank (listable w)) < recoverRank (listable w) p) :
    rank w' < rank w := by
  have hsame : callsRank w' = callsRank w := by
    unfold callsRank
    rw [hcalls, hnext]
  have hlist : listable w' ≤ listable w := by
    unfold listable
    omega
  have hmono : recoveriesRank w' ≤
      total (recoverRank (listable w)) (Function.update w.recoveries t next) w.nextRecovery := by
    unfold recoveriesRank
    rw [hrec, hnextRec]
    exact total_mono (recoverRank_mono hlist)
  have hset : _ + _ = total (recoverRank (listable w)) w.recoveries w.nextRecovery + _ :=
    total_set (hn.lt_nextRecovery hp) next
  rw [hp, Option.elim_some] at hset
  unfold rank
  rw [hsame]
  change _ + _ < callsRank w + total (recoverRank (listable w)) w.recoveries w.nextRecovery
  omega

/-- INTERNAL: the records that are listed are no more than the files that can be. -/
theorem length_list_le {names : List Bytes} (hnames : names.Perm w.dir.keys) :
    (list names).length ≤ listable w := by
  have hfilter : (list names).length ≤ names.length := List.length_filterMap_le _ _
  have hkeys : names.length = w.dir.size :=
    hnames.length_eq.trans Std.ExtTreeMap.length_keys
  unfold listable
  omega

/-- INTERNAL: a step of a `recover` leaves fewer steps. -/
theorem Recovers.rank_lt {t : ℕ} {next : Option RecoverPhase} (hn : Enrolled w)
    (h : Recovers H w t e next) : rank (w.setRecovery t next) < rank w := by
  cases h with
  | listed hphase hnames =>
      refine rank_lt_of_recovery hn hphase rfl rfl le_rfl rfl rfl ?_
      have hlist := length_list_le hnames
      simp only [Option.elim_some, recoverRank, List.length_nil]
      omega
  | thrown hphase =>
      exact rank_lt_of_recovery hn hphase rfl rfl le_rfl rfl rfl (Nat.succ_pos _)
  | noMeta hphase =>
      refine rank_lt_of_recovery hn hphase rfl rfl le_rfl rfl rfl ?_
      simp [recoverRank]
  | foundMeta hphase =>
      refine rank_lt_of_recovery hn hphase rfl rfl le_rfl rfl rfl ?_
      simp only [Option.elim_some, recoverRank, List.length_cons]
      omega
  | dropped hphase =>
      exact rank_lt_of_recovery hn hphase rfl rfl le_rfl rfl rfl (Nat.lt_succ_self _)
  | kept hphase =>
      exact rank_lt_of_recovery hn hphase rfl rfl le_rfl rfl rfl (Nat.lt_succ_self _)

/-! ## Every step -/

/-- Every step that advances leaves fewer of them. -/
theorem rank_lt_of_transition (hn : Enrolled w) (h : Transition H w e w')
    (he : advances e = true) : rank w' < rank w := by
  cases h with
  | wait hcall hphase =>
      refine rank_lt_of_move hn hcall rfl rfl ?_ (Nat.le_succ _) rfl rfl
      simp [callRank, phaseRank, hphase]
  | own hcall hphase =>
      refine rank_lt_of_move hn hcall rfl rfl ?_ (Nat.le_succ _) rfl rfl
      simp [callRank, phaseRank, hphase]
  | wake hcall hphase =>
      refine rank_lt_of_move hn hcall rfl rfl ?_ (Nat.le_succ _) rfl rfl
      simp [callRank, phaseRank, hphase]
  | advance hcall hadv =>
      exact rank_lt_of_move hn hcall rfl rfl hadv.rank_lt (Nat.le_succ _) rfl rfl
  | fail hcall hlock hentry hfail =>
      exact rank_lt_of_move hn hcall rfl rfl hfail.rank_pos (Nat.le_succ _) rfl rfl
  | number hcall hphase =>
      refine rank_lt_of_move hn hcall rfl rfl ?_ (Nat.le_succ _) rfl rfl
      simp [callRank, phaseRank, hphase]
  | publish hcall hphase =>
      refine rank_lt_of_move hn hcall rfl rfl ?_ (Nat.le_succ _) rfl rfl
      simp only [callRank, hphase]
      split <;> simp [phaseRank, stageRank]
  | write hcall hphase hwrite => exact hwrite.rank_lt hn hcall hphase
  | @release c call v stage ok hcall hphase =>
      refine rank_lt_of_move hn hcall rfl rfl ?_ (Nat.le_succ _) rfl rfl
      simp [callRank, phaseRank, hphase, one_lt_stageRank stage]
  | complete hcall hphase =>
      refine rank_lt_of_move hn hcall rfl rfl ?_ (Nat.le_succ _) rfl rfl
      simp [callRank, phaseRank, hphase]
  | lease hlease => rcases hlease with ⟨id, rfl⟩ | ⟨id, rfl⟩ <;> cases he
  | @removeTmp t name todo hphase =>
      refine rank_lt_of_recovery hn hphase rfl rfl Std.ExtTreeMap.size_erase_le rfl rfl ?_
      simp [recoverRank]
  | recovering hrec => exact hrec.rank_lt hn
  | recoverInsert hlock hphase =>
      refine rank_lt_of_recovery hn hphase rfl rfl le_rfl rfl rfl ?_
      simp [recoverRank]
  | _ => cases he

/-- The rank goes down. -/
theorem ranked : Ranked (step H) (fun e => advances e = true) Enrolled rank where
  keeps _ _ _ _ hs hn := hn.step (transition_of_step hs)
  lowers _ _ _ he hs hn := rank_lt_of_transition hn (transition_of_step hs) he

end CompilationFabric.Interface
