import CompilationFabric.Model.FabricSystem

/-!
# Leases

The lease counts of a fabric, as `stats` reports them, and the callers that hold the leases.  The
table has one vector for every artifact that was ever leased; only its size is ever looked at.

A run is one of acquires and releases in which every release is of a lease that is held.
-/

set_option autoImplicit false

namespace CompilationFabric.Model

/-! ## The table -/

/-- The sizes of the vectors, by artifact.
SOURCE: Fabric.cpp:73 -/
abbrev LeaseTable := List (ArtifactId × ℕ)

namespace LeaseTable

/-- The size for an artifact; the vector of one that is not there is empty. -/
def count (t : LeaseTable) (id : ArtifactId) : ℕ :=
  match t with
  | [] => 0
  | (k, n) :: t => if k = id then n else count t id

/-- The vector of an artifact changes; `leaseCounts[id]` creates it when it is not there. -/
def alter (t : LeaseTable) (id : ArtifactId) (f : ℕ → ℕ) : LeaseTable :=
  match t with
  | [] => [(id, f 0)]
  | (k, n) :: t => if k = id then (k, f n) :: t else (k, n) :: alter t id f

/-- SOURCE: Fabric.cpp:537-538 -/
def acquire (t : LeaseTable) (id : ArtifactId) : LeaseTable :=
  t.alter id fun n => if n + 1 > 100000 then 0 else n + 1

/-- SOURCE: Fabric.cpp:544-556 -/
def release (t : LeaseTable) (lease : CompilationLease) : Result Unit × LeaseTable :=
  if t.count lease.id = 0 then (Err .LeaseUnderflow (ascii "lease underflow"), t)
  else (.ok (), t.alter lease.id fun n => n - 1)

/-- `active_leases`.
SOURCE: Fabric.cpp:630 -/
def active (t : LeaseTable) : ℕ := (t.map Prod.snd).sum

variable (t : LeaseTable) (id : ArtifactId) (f : ℕ → ℕ)

/-- INTERNAL: one count changes, and no other. -/
theorem count_alter (other : ArtifactId) :
    (t.alter id f).count other = if other = id then f (t.count id) else t.count other := by
  induction t with
  | nil => simp [alter, count, eq_comm]
  | cons p t ih =>
      obtain ⟨k, n⟩ := p
      unfold alter
      split
      · next heq =>
        subst heq
        simp only [count]
        by_cases h : k = other
        · subst h
          simp
        · rw [if_neg h, if_neg h, if_neg (Ne.symm h)]
      · next hne =>
        simp only [count, ih, if_neg hne]
        by_cases h : k = other
        · subst h
          rw [if_pos rfl, if_neg hne, if_pos rfl]
        · rw [if_neg h, if_neg h]

/-- INTERNAL: the total changes as the count does. -/
theorem active_alter : (t.alter id f).active + t.count id = t.active + f (t.count id) := by
  unfold active
  induction t with
  | nil => simp [alter, count]
  | cons p t ih =>
      obtain ⟨k, n⟩ := p
      unfold alter count
      split
      · simp only [List.map_cons, List.sum_cons]
        omega
      · simp only [List.map_cons, List.sum_cons]
        omega

/-- A release takes one lease of its own artifact, if there is one. -/
theorem count_release (lease : CompilationLease) (other : ArtifactId) :
    (t.release lease).2.count other =
      if other = lease.id then t.count lease.id - 1 else t.count other := by
  unfold release
  split
  · next hzero =>
    split
    · next heq => rw [heq, hzero]
    · rfl
  · exact count_alter t lease.id _ other

end LeaseTable

/-! ## Callers -/

/-- The table, and the leases that have been acquired and not released. -/
structure LeaseState where
  table : LeaseTable := []
  held : List CompilationLease := []

/-- The leases of an artifact among those that are held. -/
def heldOf (held : List CompilationLease) (id : ArtifactId) : ℕ := held.countP (·.id = id)

inductive LeaseEvent where
  | acquire (id : ArtifactId)
  | release (lease : CompilationLease)

/-- A call of `acquire`, or of `release` with a lease that is held.  The cache, which says what can
be leased, is that of `w`.
SOURCE: Fabric.cpp:529-556 -/
def leaseStep (w : World) (s : LeaseState) : LeaseEvent → Option LeaseState
  | .acquire id =>
      match w.acquireLease id with
      | .error _ => some s
      | .ok lease => some { table := s.table.acquire id, held := lease :: s.held }
  | .release lease =>
      if lease ∈ s.held then
        some { table := (s.table.release lease).2, held := s.held.erase lease }
      else none

/-- The step of the fabric that a call is. -/
def LeaseEvent.event : LeaseEvent → Event
  | .acquire id => .acquire id
  | .release lease => .release lease.id

end CompilationFabric.Model
