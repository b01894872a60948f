import CompilationFabric.Interface.FabricRuns
import CompilationFabric.Model.Leases

/-!
# Lease accounting

Every acquire adds one to the count of its artifact and every release takes one off, so the counts
are those of the leases that are held, as long as no artifact has more than 100000 of them: the next
acquire empties the vector of the artifact, and the leases that are held of it are not counted any
more.
-/

set_option autoImplicit false

namespace CompilationFabric.Analysis

open CompilationFabric.Library.TransitionSystem
open CompilationFabric.Model
open CompilationFabric.Interface

variable {w w' : World} {s s' : LeaseState} {e : LeaseEvent} {es pre : List LeaseEvent}

/-! ## The property -/

/-- An acquire that succeeds. -/
def grants (w : World) : LeaseEvent → Bool
  | .acquire id =>
      match w.acquireLease id with
      | .ok _ => true
      | .error _ => false
  | .release _ => false

def isRelease : LeaseEvent → Bool
  | .acquire _ => false
  | .release _ => true

def acquires (w : World) (es : List LeaseEvent) : ℕ := es.countP (grants w)

def releases (es : List LeaseEvent) : ℕ := es.countP isRelease

/-- At every point of the run, the active leases are those acquired less those released, and a
release that comes next succeeds. -/
def AccountsExactly (w : World) (es : List LeaseEvent) : Prop :=
  ∀ pre s, pre <+: es → exec (leaseStep w) {} pre = some s →
    s.table.active + releases pre = acquires w pre ∧
    ∀ lease ∈ s.held, pre ++ [.release lease] <+: es → (s.table.release lease).1 = .ok ()

/-- At no point of the run are more than 100000 leases of one artifact held. -/
def WithinCapacity (w : World) (es : List LeaseEvent) : Prop :=
  ∀ pre s, pre <+: es → exec (leaseStep w) {} pre = some s → ∀ id, heldOf s.held id ≤ 100000

/-! ## The callers -/

variable {held : List CompilationLease} {lease : CompilationLease}

/-- INTERNAL: one more lease that is held. -/
theorem heldOf_cons (held : List CompilationLease) (lease : CompilationLease) (id : ArtifactId) :
    heldOf (lease :: held) id = heldOf held id + if lease.id = id then 1 else 0 := by
  simp [heldOf, List.countP_cons]

/-- INTERNAL: one lease less that is held. -/
theorem heldOf_erase (hmem : lease ∈ held) (id : ArtifactId) :
    heldOf (held.erase lease) id + (if lease.id = id then 1 else 0) = heldOf held id := by
  have hperm := (List.perm_cons_erase hmem).countP_eq fun l : CompilationLease => decide (l.id = id)
  rw [List.countP_cons] at hperm
  unfold heldOf
  rw [hperm]
  simp

/-- INTERNAL: an artifact of a held lease is held. -/
theorem heldOf_pos (hmem : lease ∈ held) : 0 < heldOf held lease.id :=
  List.countP_pos_iff.mpr ⟨lease, hmem, decide_eq_true rfl⟩

/-- What is held is what has been acquired and not released. -/
theorem length_held (hrun : exec (leaseStep w) {} pre = some s) :
    s.held.length + releases pre = acquires w pre := by
  refine exec_trace (P := fun _ _ => True)
    (I := fun pre s => s.held.length + releases pre = acquires w pre) rfl ?_
    (meets_of_forall fun _ _ _ => trivial) hrun
  intro pre s e s' _ hcount _ hstep
  unfold releases acquires at hcount ⊢
  rw [List.countP_append, List.countP_append, List.countP_singleton, List.countP_singleton]
  cases e with
  | acquire id =>
      have hrelease : isRelease (.acquire id) = false := rfl
      unfold leaseStep at hstep
      dsimp only at hstep
      split at hstep
      · next failure hlease =>
        have hgrants : grants w (.acquire id) = false := by rw [grants, hlease]
        cases hstep
        rw [hgrants, hrelease]
        exact hcount
      · next lease hlease =>
        have hgrants : grants w (.acquire id) = true := by rw [grants, hlease]
        cases hstep
        rw [hgrants, hrelease, if_pos rfl, if_neg Bool.false_ne_true, List.length_cons]
        omega
  | release lease =>
      have hrelease : isRelease (.release lease) = true := rfl
      have hgrants : grants w (.release lease) = false := rfl
      unfold leaseStep at hstep
      dsimp only at hstep
      split at hstep
      · next hmem =>
        cases hstep
        have hpos := List.length_pos_of_mem hmem
        rw [hgrants, hrelease, if_pos rfl, if_neg Bool.false_ne_true]
        dsimp only
        rw [List.length_erase_of_mem hmem]
        omega
      · cases hstep

/-! ## The table -/

/-- The table counts the leases that are held. -/
structure ExactTable (s : LeaseState) : Prop where
  count : ∀ id, s.table.count id = heldOf s.held id
  active : s.table.active = s.held.length
  capacity : ∀ id, heldOf s.held id ≤ 100000

/-- The empty table is exact. -/
theorem exactTable_init : ExactTable {} where
  count _ := rfl
  active := rfl
  capacity _ := Nat.zero_le _

/-- A lease that is held is counted, so it can be released. -/
theorem ExactTable.release_eq (hs : ExactTable s) (hmem : lease ∈ s.held) :
    s.table.release lease = (.ok (), s.table.alter lease.id fun n => n - 1) := by
  have hpos := heldOf_pos hmem
  rw [LeaseTable.release, if_neg]
  rw [hs.count]
  omega

/-- INTERNAL: a release keeps the table exact. -/
theorem ExactTable.released (hs : ExactTable s) (hmem : lease ∈ s.held) :
    ExactTable ⟨s.table.alter lease.id fun n => n - 1, s.held.erase lease⟩ where
  count id := by
    have hid := heldOf_erase hmem id
    dsimp only
    rw [LeaseTable.count_alter, hs.count, hs.count]
    by_cases heq : id = lease.id
    · subst heq
      rw [if_pos rfl] at hid ⊢
      omega
    · rw [if_neg (Ne.symm heq)] at hid
      rw [if_neg heq]
      omega
  active := by
    have hactive := s.table.active_alter lease.id fun n => n - 1
    have hpos := heldOf_pos hmem
    have hlen := List.length_pos_of_mem hmem
    rw [hs.count, hs.active] at hactive
    dsimp only
    rw [List.length_erase_of_mem hmem]
    omega
  capacity id := by
    have hcap := hs.capacity id
    have hid := heldOf_erase hmem id
    dsimp only
    omega

/-- One more lease of an artifact is counted when there is room for it. -/
theorem ExactTable.acquired (hs : ExactTable s) (hroom : heldOf s.held lease.id < 100000) :
    ExactTable ⟨s.table.acquire lease.id, lease :: s.held⟩ where
  count id := by
    have hfits : ¬ heldOf s.held lease.id + 1 > 100000 := by omega
    dsimp only
    rw [LeaseTable.acquire, LeaseTable.count_alter, hs.count, hs.count, heldOf_cons, if_neg hfits]
    by_cases heq : id = lease.id
    · subst heq
      rw [if_pos rfl, if_pos rfl]
    · rw [if_neg heq, if_neg (Ne.symm heq)]
      rfl
  active := by
    have hactive := s.table.active_alter lease.id fun n => if n + 1 > 100000 then 0 else n + 1
    rw [hs.count, hs.active, if_neg (by omega)] at hactive
    dsimp only [LeaseTable.acquire]
    rw [List.length_cons]
    omega
  capacity id := by
    have hcap := hs.capacity id
    dsimp only
    rw [heldOf_cons]
    by_cases heq : lease.id = id
    · subst heq
      rw [if_pos rfl]
      omega
    · rw [if_neg heq]
      exact hcap

/-- When there is no room, the vector is emptied and the sum is wrong. -/
theorem ExactTable.active_overflow (hs : ExactTable s) (hfull : 100000 ≤ heldOf s.held lease.id) :
    (s.table.acquire lease.id).active < s.held.length + 1 := by
  have hactive := s.table.active_alter lease.id fun n => if n + 1 > 100000 then 0 else n + 1
  rw [hs.count, hs.active, if_pos (by omega)] at hactive
  unfold LeaseTable.acquire
  omega

/-- The lease that an acquire grants is of the artifact. -/
theorem id_of_acquireLease {id : ArtifactId} (h : w.acquireLease id = .ok lease) :
    lease.id = id := by
  unfold World.acquireLease at h
  split at h
  · cases h
  · cases h
    rfl

/-- A step keeps the table exact unless it takes an artifact beyond the capacity, and then the sum
is wrong at once. -/
theorem ExactTable.step (hs : ExactTable s) (h : leaseStep w s e = some s') :
    ExactTable s' ∨ s'.table.active < s'.held.length ∧ ∃ id, 100000 < heldOf s'.held id := by
  cases e with
  | release lease =>
      unfold leaseStep at h
      dsimp only at h
      split at h
      · next hmem =>
        cases h
        rw [hs.release_eq hmem]
        exact .inl (hs.released hmem)
      · cases h
  | acquire id =>
      unfold leaseStep at h
      dsimp only at h
      split at h
      · cases h
        exact .inl hs
      · next lease hlease =>
        cases h
        obtain rfl := id_of_acquireLease hlease
        by_cases hroom : heldOf s.held lease.id < 100000
        · exact .inl (hs.acquired hroom)
        · refine .inr ⟨hs.active_overflow (not_lt.mp hroom), lease.id, ?_⟩
          dsimp only
          rw [heldOf_cons, if_pos rfl]
          omega

/-! ## Runs -/

/-- A step condition that the points of a run meet makes the table exact all along it. -/
theorem exact_of_prefixes {P : List LeaseEvent → LeaseState → Prop}
    (hstep : ∀ pre s e s', ExactTable s → leaseStep w s e = some s' → P (pre ++ [e]) s' →
      ExactTable s')
    (hall : ∀ pre s, pre <+: es → exec (leaseStep w) {} pre = some s → P pre s) :
    ∀ pre s, pre <+: es → exec (leaseStep w) {} pre = some s → ExactTable s := by
  intro pre
  induction pre using List.reverseRecOn with
  | nil =>
      intro s _ hrun
      cases hrun
      exact exactTable_init
  | append_singleton pre e ih =>
      intro s hpre hrun
      obtain ⟨u, hu, hlast⟩ := exec_append.mp hrun
      have hexact := ih u ((List.prefix_append pre [e]).trans hpre) hu
      exact hstep pre u e s hexact (exec_singleton.mp hlast) (hall _ s hpre hrun)

/-- Runs that account exactly stay within the capacity. -/
theorem withinCapacity_of_accountsExactly (haccounts : AccountsExactly w es) :
    WithinCapacity w es := by
  have hexact := exact_of_prefixes (P := fun pre s =>
    s.table.active + releases pre = acquires w pre ∧ s.held.length + releases pre = acquires w pre)
    (fun _ _ _ _ hs hstep hsum => (hs.step hstep).resolve_right fun h => by omega)
    (fun pre s hpre hrun => ⟨(haccounts pre s hpre hrun).1, length_held hrun⟩)
  exact fun pre s hpre hrun => (hexact pre s hpre hrun).capacity

/-- Runs within the capacity account exactly, by induction on their steps. -/
theorem accountsExactly_of_withinCapacity (hcap : WithinCapacity w es) : AccountsExactly w es := by
  intro pre s hpre hrun
  have hs := exact_of_prefixes (P := fun _ s => ∀ id, heldOf s.held id ≤ 100000)
    (fun _ _ _ _ hs hstep hall => (hs.step hstep).resolve_right fun h =>
      h.2.elim fun id hid => absurd (hall id) (not_le.mpr hid)) hcap pre s hpre hrun
  refine ⟨?_, fun lease hmem _ => ?_⟩
  · rw [hs.active]
    exact length_held hrun
  · rw [hs.release_eq hmem]

/-- The accounting of a run is exact exactly when it never has more than 100000 leases of one
artifact.
SOURCE: Fabric.cpp:529-556, 630 -/
theorem accountsExactly_iff (w : World) (es : List LeaseEvent) :
    AccountsExactly w es ↔ WithinCapacity w es :=
  ⟨withinCapacity_of_accountsExactly, accountsExactly_of_withinCapacity⟩

/-- INTERNAL: acquiring one artifact again and again. -/
theorem exec_replicate {id : ArtifactId} (h : w.acquireLease id = .ok lease) (n : ℕ) :
    ∃ s, exec (leaseStep w) {} (List.replicate n (.acquire id)) = some s ∧
      s.held = List.replicate n lease := by
  induction n with
  | zero => exact ⟨{}, rfl, rfl⟩
  | succ n ih =>
      obtain ⟨s, hrun, hheld⟩ := ih
      refine ⟨⟨s.table.acquire id, lease :: s.held⟩, ?_, ?_⟩
      · rw [List.replicate_succ', exec_append]
        refine ⟨s, hrun, exec_singleton.mpr ?_⟩
        rw [leaseStep, h]
      · rw [hheld, List.replicate_succ]

/-- An artifact is compiled and leased 100001 times. -/
theorem not_accountsExactly : ∃ w : World,
    exec (step fun _ => .zero) { process := unstored } (.compile {} 1 0 :: .join 0 ::
      ownerSteps 0 { executable := [1] } ++ [.commit 0, .complete 0]) = some w ∧
      ¬ AccountsExactly w (List.replicate 100001 (.acquire (.fromU64 2))) := by
  obtain ⟨w, hw, hlease⟩ := (Option.any_eq_true _ _).mp (show
    (exec (step fun _ => .zero) { process := unstored } (.compile {} 1 0 :: .join 0 ::
      ownerSteps 0 { executable := [1] } ++ [.commit 0, .complete 0])).any (fun w =>
        grants w (.acquire (.fromU64 2))) = true by decide +kernel)
  refine ⟨w, hw, fun haccounts => ?_⟩
  unfold grants at hlease
  dsimp only at hlease
  split at hlease
  · next lease heq =>
    obtain ⟨s, hrun, hheld⟩ := exec_replicate heq 100001
    have hcap := withinCapacity_of_accountsExactly haccounts _ s (List.prefix_refl _) hrun lease.id
    rw [hheld, heldOf, List.countP_replicate, if_pos (decide_eq_true rfl)] at hcap
    omega
  · cases hlease

/-! ## The fabric -/

/-- The calls are steps of the fabric, and its counts are those of the table. -/
theorem leaseCounts_exec (H : Bytes → Digest) (hlock : w.impl.lock = none)
    (hcounts : ∀ id, w.impl.leaseCounts id = 0) (h : exec (leaseStep w) {} es = some s) :
    ∃ w', exec (step H) w (es.map LeaseEvent.event) = some w' ∧
      ∀ id, w'.impl.leaseCounts id = s.table.count id := by
  suffices hall : ∃ w', exec (step H) w (es.map LeaseEvent.event) = some w' ∧
      w'.impl.lock = none ∧ w'.impl.cache = w.impl.cache ∧
        ∀ id, w'.impl.leaseCounts id = s.table.count id by
    obtain ⟨w', hrun, -, -, hcount⟩ := hall
    exact ⟨w', hrun, hcount⟩
  refine exec_trace (P := fun _ _ => True) (I := fun es s => ∃ w',
    exec (step H) w (es.map LeaseEvent.event) = some w' ∧ w'.impl.lock = none ∧
      w'.impl.cache = w.impl.cache ∧ ∀ id, w'.impl.leaseCounts id = s.table.count id)
    ⟨w, rfl, hlock, rfl, hcounts⟩ ?_ (meets_of_forall fun _ _ _ => trivial) h
  rintro es s e s' - ⟨u, hrun, hfree, hcache, hcount⟩ - hstep
  suffices hnext : ∃ u', step H u e.event = some u' ∧ u'.impl.lock = none ∧
      u'.impl.cache = w.impl.cache ∧ ∀ id, u'.impl.leaseCounts id = s'.table.count id by
    obtain ⟨u', hu', hrest⟩ := hnext
    refine ⟨u', ?_, hrest⟩
    rw [List.map_append]
    exact exec_append.mpr ⟨u, hrun, exec_singleton.mpr hu'⟩
  cases e with
  | acquire id =>
      have hentry : u.entryOf id = w.entryOf id := by rw [World.entryOf, hcache, World.entryOf]
      refine ⟨u.acquire id, if_pos hfree, ?_⟩
      unfold leaseStep World.acquireLease at hstep
      unfold World.acquire
      rw [hentry]
      dsimp only at hstep
      cases hfound : w.entryOf id with
      | none =>
          rw [hfound] at hstep
          cases hstep
          exact ⟨hfree, hcache, hcount⟩
      | some entry =>
          rw [hfound] at hstep
          cases hstep
          refine ⟨hfree, hcache, fun other => ?_⟩
          dsimp only
          rw [LeaseTable.acquire, LeaseTable.count_alter, Function.update_apply, hcount, hcount]
  | release lease =>
      refine ⟨u.releaseLease lease.id, rfl, hfree, hcache, fun other => ?_⟩
      unfold leaseStep at hstep
      dsimp only at hstep
      split at hstep
      · cases hstep
        unfold World.releaseLease
        dsimp only
        rw [Function.update_apply, hcount, hcount, LeaseTable.count_release]
      · cases hstep

end CompilationFabric.Analysis
