import CompilationFabric.Interface.FabricIdentities
import CompilationFabric.Interface.FabricOwners

/-!
# Exclusive ownership

How many owners a key has, and in which order its artifacts are committed.  A key has one owner at a
time, and what it commits has a number and a generation above those of every artifact committed
under the key before: its number is drawn from a counter that was at those generations at least, and
nobody else commits under the key before it does.

An owner whose backend throws is gone, with its entry in the map and not done.
-/

set_option autoImplicit false

namespace CompilationFabric.Analysis

open CompilationFabric.Library.TransitionSystem
open CompilationFabric.Model
open CompilationFabric.Interface

variable {H : Bytes → Digest} {w w' : World} {e : Event} {es : List Event} {c : CallId}
  {call call' : Call} {k : CompilationKey} {m : Commit} {id : ArtifactId}

/-! ## The property -/

/-- The process goes on, and nothing is recovered. -/
def OneLifetime (_ : World) : Event → Prop
  | .restart _ | .recover _ => False
  | _ => True

/-- `operator<` of the identities.
SOURCE: Core.hpp:171, 190 -/
def idLess (i j : ArtifactId) : Prop :=
  i.raw.hi < j.raw.hi ∨ i.raw.hi = j.raw.hi ∧ i.raw.lo < j.raw.lo

/-- A key has one owner, every entry that is not done has one that is executing, and the artifacts
of a key are committed with increasing numbers and generations. -/
structure Exclusive (w : World) : Prop where
  unique : ∀ c d u x, Unfinished w c u → Unfinished w d x → u.key = x.key → c = d
  running : ∀ c u, Unfinished w c u → u.phase.owning = true
  increasing : w.log.Pairwise fun m m' => m.key = m'.key →
    idLess m'.id m.id ∧ m'.generation < m.generation

/-- An owner draws the next number of the counter: for the attempt, or for its artifact.
SOURCE: Fabric.cpp:268, 362 -/
def draws (w : World) : Event → Prop
  | .join c => ∃ call, w.calls c = some call ∧ w.activeOwner call.key = none
  | .number _ => True
  | _ => False

/-- The backend does not throw, and the counter has not gone all the way round. -/
structure Regular (w : World) (e : Event) : Prop where
  noThrow : ∀ c, e ≠ .raise c
  noWrap : draws w e → w.impl.artifactCounter + 1 ≠ 0

/-- INTERNAL: in one lifetime there is no restart. -/
theorem sameProcess_of_oneLifetime (h : OneLifetime w e) : isRestart e = false := by
  cases e with
  | restart => exact h.elim
  | _ => rfl

/-! ## The counter -/

/-- INTERNAL: a counter that does not wrap grows. -/
theorem lt_succ_of_ne_zero {n : UInt64} (h : n + 1 ≠ 0) : n < n + 1 := by
  rw [UInt64.lt_iff_toNat_lt, UInt64.toNat_add]
  have hn := n.toNat_lt
  have hne : n.toNat + 1 ≠ 2 ^ 64 := by
    intro heq
    apply h
    rw [← UInt64.toNat_inj, UInt64.toNat_add]
    simp [heq]
  rw [Nat.mod_eq_of_lt (by simp; omega)]
  simp

/-- The counter stays where it is, or a number is drawn. -/
theorem counter_cases (h : Transition H w e w') (hlife : OneLifetime w e) :
    w'.impl.artifactCounter = w.impl.artifactCounter ∨
      w'.impl.artifactCounter = w.impl.artifactCounter + 1 ∧ draws w e := by
  cases h with
  | own hcall hphase hlock hactive => exact .inr ⟨rfl, _, hcall, hactive⟩
  | number => exact .inr ⟨rfl, trivial⟩
  | write hcall hphase hwrite => cases hwrite <;> exact .inl rfl
  | restart => exact hlife.elim
  | _ => exact .inl rfl

/-- INTERNAL: the counter does not go back. -/
theorem counter_mono (h : Transition H w e w') (hlife : OneLifetime w e) (hreg : Regular w e) :
    w.impl.artifactCounter ≤ w'.impl.artifactCounter := by
  rcases counter_cases h hlife with heq | ⟨heq, hdraws⟩
  · rw [heq]
    exact UInt64.le_refl _
  · rw [heq]
    exact UInt64.le_of_lt (lt_succ_of_ne_zero (hreg.noWrap hdraws))

/-- INTERNAL: a number that is drawn moves the counter. -/
theorem counter_of_number (h : Transition H w (.number c) w') :
    w'.impl.artifactCounter = w.impl.artifactCounter + 1 := by
  cases h with
  | number => rfl
  | advance hcall hadv => cases hadv
  | fail hcall hlock hentry hfail => cases hfail
  | lease he => obtain ⟨_, he⟩ | ⟨_, he⟩ := he <;> cases he
  | recovering hrec => cases hrec

/-- INTERNAL: ids are ordered as their numbers are. -/
theorem idLess_fromU64 {i j : UInt64} (h : i < j) : idLess (.fromU64 i) (.fromU64 j) :=
  .inr ⟨rfl, h⟩

/-! ## Numbers and generations -/

/-- Where the numbers and generations are. -/
structure Increasing (w : World) : Prop where
  log : ∀ m ∈ w.log, ∃ i, m.id = .fromU64 i ∧ i ≤ m.generation ∧
    m.generation ≤ w.impl.artifactCounter
  /-- A number that is drawn is above what was committed under the key. -/
  drawn : ∀ c u id, w.calls c = some u → pending u.phase = some id → ∃ i, id = .fromU64 i ∧
    i ≤ w.impl.artifactCounter ∧ ∀ m ∈ w.log, m.key = u.key → m.generation < i
  validated : ∀ c u v, w.calls c = some u → u.phase = .validated v →
    ∃ i, v.art.id = .fromU64 i ∧ i ≤ v.art.generation ∧
      v.art.generation ≤ w.impl.artifactCounter
  increasing : w.log.Pairwise fun m m' => m.key = m'.key →
    idLess m'.id m.id ∧ m'.generation < m.generation

namespace Increasing

/-- A fresh process has given no numbers. -/
theorem init (p : Process) : Increasing { process := p } where
  log _ h := nomatch h
  drawn _ _ _ h := nomatch h
  validated _ _ _ h := nomatch h
  increasing := .nil

/-- A call that commits is the owner of its key. -/
theorem unfinished_of_pending (hw : WellFormed w) (hcall : w.calls c = some call)
    (hpending : pending call.phase = some id) : Unfinished w c call := by
  refine ⟨hcall, coherent_owning (hw.coherent c call hcall) ?_⟩
  cases hphase : call.phase with
  | numbered => rfl
  | validated => rfl
  | _ => rw [hphase] at hpending; cases hpending

/-- INTERNAL: one step keeps the commits' numbers below the counter. -/
theorem log_step (hi : Increasing w) (h : Transition H w e w') (hlife : OneLifetime w e)
    (hreg : Regular w e) : ∀ m ∈ w'.log, ∃ i, m.id = .fromU64 i ∧ i ≤ m.generation ∧
      m.generation ≤ w'.impl.artifactCounter := by
  intro m hm
  have hmono := counter_mono h hlife hreg
  rcases log_cases h with heq | ⟨c, call, v, -, hcall, hphase, rfl⟩
  · obtain ⟨i, hid, hle, hgen⟩ := hi.log m (heq ▸ hm)
    exact ⟨i, hid, hle, UInt64.le_trans hgen hmono⟩
  · rcases List.mem_cons.mp hm with rfl | hm
    · exact hi.validated c call v hcall hphase
    · exact hi.log m hm

/-- INTERNAL: one step keeps what a call has drawn above the commits of its key. -/
theorem drawn_step (hi : Increasing w) (hw : WellFormed w) (hl : Listed w)
    (h : Transition H w e w') (hlife : OneLifetime w e) (hreg : Regular w e) :
    ∀ c u id, w'.calls c = some u → pending u.phase = some id → ∃ i, id = .fromU64 i ∧
      i ≤ w'.impl.artifactCounter ∧ ∀ m ∈ w'.log, m.key = u.key → m.generation < i := by
  intro c u' id hu' hpending
  rcases pending_before h hu' hpending with ⟨u, hu, hold⟩ | ⟨rfl, rfl⟩
  · obtain ⟨i, hid, hle, habove⟩ := hi.drawn c u id hu hold
    have hunfinished := unfinished_of_pending hw hu hold
    have hkey : u.key = u'.key := by
      obtain ⟨u'', hu'', hlater⟩ := later_of_transition hw h (sameProcess_of_oneLifetime hlife) c u hu
      rw [hu', Option.some_inj] at hu''
      exact hu'' ▸ hlater.key.symm
    refine ⟨i, hid, UInt64.le_trans hle (counter_mono h hlife hreg), fun m hm hmk => ?_⟩
    rcases log_cases h with heq | ⟨d, x, v, -, hx, hphase, rfl⟩
    · exact habove m (heq ▸ hm) (hmk.trans hkey.symm)
    · rcases List.mem_cons.mp hm with rfl | hm
      · -- whoever commits under the key is its owner, who has then committed
        have hcommits : Unfinished w d x :=
          have hpends : pending x.phase = some v.art.id := by rw [hphase]; rfl
          unfinished_of_pending hw hx hpends
        obtain rfl := owner_unique hl hunfinished hcommits (hkey.trans hmk.symm)
        rw [pending_publish w c x v hu'] at hpending
        cases hpending
      · exact habove m hm (hmk.trans hkey.symm)
  · have hcounter := counter_of_number h
    refine ⟨_, rfl, hcounter ▸ UInt64.le_refl _, fun m hm _ => ?_⟩
    rcases log_cases h with heq | ⟨_, _, _, hcommit, -⟩
    · obtain ⟨-, -, -, hgen⟩ := hi.log m (heq ▸ hm)
      exact UInt64.lt_of_le_of_lt hgen (lt_succ_of_ne_zero (hreg.noWrap trivial))
    · cases hcommit

/-- INTERNAL: one step keeps the generation of an artifact that is to be committed below the
counter. -/
theorem validated_step (hi : Increasing w) (h : Transition H w e w') (hlife : OneLifetime w e)
    (hreg : Regular w e) : ∀ c u v, w'.calls c = some u → u.phase = .validated v →
      ∃ i, v.art.id = .fromU64 i ∧ i ≤ v.art.generation ∧
        v.art.generation ≤ w'.impl.artifactCounter := by
  intro c u' v hu' hphase'
  have hmono := counter_mono h hlife hreg
  rcases (callsStep_of_transition h).call_cases hu' with hold | ⟨-, hnew⟩ | ⟨u, hu, hmoved⟩
  · obtain ⟨i, hid, hle, hgen⟩ := hi.validated c u' v hold hphase'
    exact ⟨i, hid, hle, UInt64.le_trans hgen hmono⟩
  · cases hnew with
    | miss hplan hmiss => cases hmiss <;> cases hphase'
    | hit => cases hphase'
  · cases hmoved with
    | advance hadv =>
        cases hadv with
        | validated hphase =>
            cases hphase'
            -- the generation is what the counter is at now
            obtain ⟨i, hid, hle, -⟩ := hi.drawn c u _ hu (by rw [hphase]; rfl)
            exact ⟨i, hid, hle, hmono⟩
        | _ => cases hphase'
    | publish =>
        dsimp only at hphase'
        split at hphase' <;> cases hphase'
    | _ => cases hphase'

/-- INTERNAL: one step commits a key with a larger number than before. -/
theorem increasing_step (hi : Increasing w) (h : Transition H w e w') :
    w'.log.Pairwise fun m m' => m.key = m'.key →
      idLess m'.id m.id ∧ m'.generation < m.generation := by
  rcases log_cases h with heq | ⟨c, call, v, -, hcall, hphase, rfl⟩
  · exact heq ▸ hi.increasing
  · refine List.pairwise_cons.mpr ⟨fun m hm hkey => ?_, hi.increasing⟩
    obtain ⟨i, hid, -, habove⟩ := hi.drawn c call v.art.id hcall (by rw [hphase]; rfl)
    obtain ⟨i', hid', hle', -⟩ := hi.validated c call v hcall hphase
    obtain ⟨j, hj, hjle, -⟩ := hi.log m hm
    have hlt : m.generation < i := habove m hm hkey.symm
    have heq : i = i' := by
      rw [hid'] at hid
      exact (congrArg (fun n : ArtifactId => n.raw.lo) hid).symm
    constructor
    · change idLess m.id v.art.id
      rw [hj, hid]
      exact idLess_fromU64 (UInt64.lt_of_le_of_lt hjle hlt)
    · exact UInt64.lt_of_lt_of_le (heq ▸ hlt) hle'

/-- A regular step keeps the numbers increasing. -/
theorem step (hi : Increasing w) (hw : WellFormed w) (hl : Listed w) (h : Transition H w e w')
    (hlife : OneLifetime w e) (hreg : Regular w e) : Increasing w' where
  log := hi.log_step h hlife hreg
  drawn := hi.drawn_step hw hl h hlife hreg
  validated := hi.validated_step h hlife hreg
  increasing := hi.increasing_step h

end Increasing

/-! ## Exclusive ownership -/

/-- What holds in a run in which no backend throws and the counter does not go round. -/
structure Regulated (w : World) : Prop where
  wellFormed : WellFormed w
  listed : Listed w
  unraised : Unraised w
  increasing : Increasing w

/-- A regular step keeps all three invariants. -/
theorem Regulated.step (hr : Regulated w) (h : Transition H w e w') (hlife : OneLifetime w e)
    (hreg : Regular w e) : Regulated w' where
  wellFormed := hr.wellFormed.step h
  listed := hr.listed.step h
  unraised := hr.unraised.step h hreg.noThrow
  increasing := hr.increasing.step hr.wellFormed hr.listed h hlife hreg

/-- The invariants leave one owner to a key. -/
theorem Regulated.exclusive (hr : Regulated w) : Exclusive w where
  unique _ _ _ _ hu hx hkey := owner_unique hr.listed hu hx hkey
  running _ _ hu := running_of_unraised hr.wellFormed hr.unraised hu
  increasing := hr.increasing.increasing

/-- As long as no backend throws and the counter does not go round, a key has one owner, which is
executing, and its artifacts have increasing numbers and generations.
SOURCE: Fabric.cpp:252-274, 359-437 -/
theorem ownership_exclusive (H : Bytes → Digest) (p : Process) (es : List Event) (w : World)
    (hlife : Meets (step H) OneLifetime { process := p } es)
    (hreg : Meets (step H) Regular { process := p } es)
    (h : exec (step H) { process := p } es = some w) : Exclusive w := by
  have hinit : Regulated { process := p } :=
    ⟨.init p, listed_init p, fun _ _ h => (nomatch h), .init p⟩
  have hend : Regulated w :=
    exec_induction (fun _ _ _ hs hstep hr => hr.step (transition_of_step hstep) hs.1 hs.2)
      (hlife.and hreg) h hinit
  exact hend.exclusive

/-- A key is compiled by two calls, invalidated and compiled again. -/
def recompiled : List Event :=
  [.compile {} 1 0, .compile {} 2 0, .join 0, .join 1] ++ ownerSteps 0 { executable := [1] } ++
    [.commit 0, .complete 0, .invalidate (.id (.fromU64 2)), .compile {} 3 0, .join 2] ++
    ownerSteps 2 { executable := [1] } ++ [.commit 2]

/-- The second artifact of the key is above the first. -/
theorem ownership_exclusive_twice : ∃ w : World,
    exec (step fun _ => .zero) { process := unstored } recompiled = some w ∧
      w.log.length = 2 ∧ Exclusive w := by
  obtain ⟨w, hrun, hw⟩ := (Option.any_eq_true _ _).mp (show
    (exec (step fun _ => .zero) { process := unstored } recompiled).any
      (fun w => w.log.length == 2) = true by decide +kernel)
  have hlife : Meets (step fun _ => .zero) OneLifetime { process := unstored } recompiled := by
    refine meets_of_all (p := fun e => match e with | .restart _ | .recover _ => false | _ => true)
      (fun _ e he => ?_) rfl
    cases e with
    | restart => cases he
    | recover => cases he
    | _ => trivial
  have hreg : Meets (step fun _ => .zero) Regular { process := unstored } recompiled := by
    refine meets_of_checks (p := fun w e => (match e with | .raise _ => false | _ => true) &&
      w.impl.artifactCounter + 1 != 0) (fun w e he => ?_) (by decide +kernel)
    rw [Bool.and_eq_true, bne_iff_ne] at he
    refine ⟨?_, fun _ => he.2⟩
    rintro c rfl
    cases he.1
  exact ⟨w, hrun, beq_iff_eq.mp hw, ownership_exclusive _ unstored _ w hlife hreg hrun⟩

/-- The program needs two vectors of 2^32 - 1 doubles to be run, and the allocation throws. -/
theorem not_exclusive : ∃ (es : List Event) (w : World),
    Meets (step fun _ => .zero) OneLifetime { process := unstored } es ∧
      exec (step fun _ => .zero) { process := unstored } es = some w ∧ ¬ Exclusive w := by
  obtain ⟨w, hrun, hw⟩ := (Option.any_eq_true _ _).mp (show
    (exec (step fun _ => .zero) { process := unstored }
      [.compile { source := ascii "shape=4294967295
add" } 1 0, .join 0, .check 0 (.ok ()),
        .raise 0]).any (fun w => (w.calls 0).any fun call =>
          !call.phase.owning && call.entry.any fun entry => entry.outcome.isNone) = true
    by decide +kernel)
  refine ⟨_, w, ?_, hrun, fun hexclusive => ?_⟩
  · exact ⟨trivial, fun _ _ => ⟨trivial, fun _ _ => ⟨trivial, fun _ _ => ⟨trivial, fun _ _ =>
      trivial⟩⟩⟩⟩
  · obtain ⟨call, hcall, hcheck⟩ := (Option.any_eq_true _ _).mp hw
    rw [Bool.and_eq_true] at hcheck
    obtain ⟨entry, hentry, hnone⟩ := (Option.any_eq_true _ _).mp hcheck.2
    have howning := hexclusive.running 0 call
      ⟨hcall, entry, hentry, Option.isNone_iff_eq_none.mp hnone⟩
    have hnot := hcheck.1
    rw [howning] at hnot
    cases hnot

end CompilationFabric.Analysis
