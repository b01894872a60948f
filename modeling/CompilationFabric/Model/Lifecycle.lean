import CompilationFabric.Model.Semantic
import Mathlib.Logic.Relation

/-!
# The lifecycle graph

`Lifecycle.hpp` and `Lifecycle.cpp`: the states of an artifact and the edges between them.  The
fabric keeps a state by its name, as text, so a text `Leads` to another when they are the names
of two states with a path between them.
-/

set_option autoImplicit false

namespace CompilationFabric.Model

/-- SOURCE: Lifecycle.hpp:15-19 -/
inductive State where
  | Submitted | Planning | Planned | Queued | Preparing | Compiling | Optimizing | Linking
  | Validating | Valid | Persisting | Persisted | Deployable | Deploying | Deployed | InUse
  | Superseded | InvalidationPending | Invalidated | Corrupt | Failed | Cancelled | Retired
  | Terminal
  deriving DecidableEq, Repr

/-- SOURCE: Lifecycle.cpp:7-35 -/
def stateName : State → Bytes
  | .Submitted => ascii "Submitted" | .Planning => ascii "Planning"
  | .Planned => ascii "Planned" | .Queued => ascii "Queued"
  | .Preparing => ascii "Preparing" | .Compiling => ascii "Compiling"
  | .Optimizing => ascii "Optimizing" | .Linking => ascii "Linking"
  | .Validating => ascii "Validating" | .Valid => ascii "Valid"
  | .Persisting => ascii "Persisting" | .Persisted => ascii "Persisted"
  | .Deployable => ascii "Deployable" | .Deploying => ascii "Deploying"
  | .Deployed => ascii "Deployed" | .InUse => ascii "InUse"
  | .Superseded => ascii "Superseded"
  | .InvalidationPending => ascii "InvalidationPending"
  | .Invalidated => ascii "Invalidated" | .Corrupt => ascii "Corrupt"
  | .Failed => ascii "Failed" | .Cancelled => ascii "Cancelled"
  | .Retired => ascii "Retired" | .Terminal => ascii "Terminal"

/-- SOURCE: Lifecycle.cpp:36-47 -/
def stateFromName : Bytes → Option State :=
  lookup [("Submitted", .Submitted), ("Planning", .Planning), ("Planned", .Planned),
    ("Queued", .Queued), ("Preparing", .Preparing), ("Compiling", .Compiling),
    ("Optimizing", .Optimizing), ("Linking", .Linking), ("Validating", .Validating),
    ("Valid", .Valid), ("Persisting", .Persisting), ("Persisted", .Persisted),
    ("Deployable", .Deployable), ("Deploying", .Deploying), ("Deployed", .Deployed),
    ("InUse", .InUse), ("Superseded", .Superseded),
    ("InvalidationPending", .InvalidationPending), ("Invalidated", .Invalidated),
    ("Corrupt", .Corrupt), ("Failed", .Failed), ("Cancelled", .Cancelled),
    ("Retired", .Retired), ("Terminal", .Terminal)]

/-- The two tables agree. -/
theorem stateFromName_stateName (s : State) : stateFromName (stateName s) = some s := by
  cases s <;> decide +kernel

/-- Different states have different names. -/
theorem stateName_injective : Function.Injective stateName := by
  intro s t h
  have hs := stateFromName_stateName s
  rw [h, stateFromName_stateName, Option.some_inj] at hs
  exact hs.symm

/-- SOURCE: Lifecycle.cpp:48-59 -/
def isTerminal : State → Bool
  | .Invalidated | .Corrupt | .Failed | .Cancelled | .Retired | .Terminal => true
  | _ => false

/-- The cases of the switch. -/
def edges : State → List State
  | .Submitted => [.Planning, .Failed, .Cancelled]
  | .Planning => [.Planned, .Failed, .Cancelled]
  | .Planned => [.Queued, .Failed, .Cancelled]
  | .Queued => [.Preparing, .Cancelled]
  | .Preparing => [.Compiling, .Failed, .Cancelled]
  | .Compiling => [.Optimizing, .Linking, .Validating, .Failed, .Cancelled]
  | .Optimizing => [.Linking, .Validating, .Failed, .Cancelled]
  | .Linking => [.Validating, .Failed, .Cancelled]
  | .Validating => [.Valid, .Persisting, .Failed, .Corrupt]
  | .Valid =>
      [.Persisting, .Persisted, .Deployable, .Deployed, .InUse, .Superseded,
        .InvalidationPending]
  | .Persisting => [.Persisted, .Deployable, .Failed, .InvalidationPending]
  | .Persisted => [.Deployable, .Deployed, .InUse, .Superseded, .InvalidationPending]
  | .Deployable => [.Deploying, .Deployed, .InUse, .Superseded, .InvalidationPending]
  | .Deploying => [.Deployed, .InUse, .Failed, .InvalidationPending]
  | .Deployed => [.InUse, .Superseded, .InvalidationPending]
  | .InUse => [.Deployed, .Superseded, .InvalidationPending]
  | .Superseded => [.InvalidationPending, .Retired]
  | .InvalidationPending => [.Invalidated, .Retired]
  | .Invalidated | .Corrupt | .Failed | .Cancelled | .Retired | .Terminal => []

/-- SOURCE: Lifecycle.cpp:72-127 -/
def canTransition (current next : State) : Bool :=
  if isTerminal current then false else (edges current).contains next

/-! ## Paths -/

/-- The reflexive and transitive closure of the edges. -/
def Reaches : State → State → Prop := Relation.ReflTransGen fun s t => canTransition s t = true

/-- An edge leads from state to state. -/
theorem Reaches.edge {s t : State} (h : canTransition s t = true) : Reaches s t := .single h

/-- A terminal state leads nowhere else. -/
theorem Reaches.of_terminal {s t : State} (h : Reaches s t) (hs : isTerminal s = true) : t = s := by
  rcases Relation.ReflTransGen.cases_head h with heq | ⟨u, hu, -⟩
  · exact heq.symm
  · rw [canTransition, if_pos hs] at hu
    cases hu

/-- What has been superseded is never deployable again. -/
theorem not_reaches_deployable : ¬ Reaches .Superseded .Deployable := by
  intro h
  -- the states that are left are closed under the edges
  have hclosed : ∀ t, Reaches .Superseded t →
      t ∈ [State.Superseded, .InvalidationPending, .Invalidated, .Retired] := by
    intro t ht
    induction ht with
    | refl => decide
    | @tail t u _ hu ih =>
        revert hu
        simp only [List.mem_cons, List.not_mem_nil, or_false] at ih
        rcases ih with rfl | rfl | rfl | rfl <;> cases u <;> decide
  exact absurd (hclosed _ h) (by decide)

/-- The one text names a state from which there is a path to the state that the other names. -/
def Leads (a b : Bytes) : Prop :=
  ∃ s t, a = stateName s ∧ b = stateName t ∧ Reaches s t

/-- INTERNAL: every name leads to itself. -/
theorem leads_refl (s : State) : Leads (stateName s) (stateName s) := ⟨s, s, rfl, rfl, .refl⟩

/-- Names lead where their states do. -/
theorem leads_stateName {s t : State} : Leads (stateName s) (stateName t) ↔ Reaches s t := by
  constructor
  · rintro ⟨s', t', hs, ht, h⟩
    rwa [stateName_injective hs, stateName_injective ht]
  · exact fun h => ⟨s, t, rfl, rfl, h⟩

end CompilationFabric.Model
