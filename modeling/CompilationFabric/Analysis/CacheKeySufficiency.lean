import CompilationFabric.Analysis.KeyInjectivity
import CompilationFabric.Model.CpuExecution

/-!
# What the CPU backend computes under one key

Two requests with equal keys are compiled to programs with equal outputs.  The key has the source
and the whole specialization, so the two programs differ only in what folding leaves out; and an
operation that is left out changes no vector whose elements are rounded.  Every vector that an
execution goes through is of that kind (`Rounded`).
-/

set_option autoImplicit false

namespace CompilationFabric.Analysis

open CompilationFabric.Library
open CompilationFabric.Model
open CompilationFabric.Model.CpuBackend

variable {K : Type*} [Ring K] {A : Arithmetic K} {d : Datatype} {xs : List K} {op : CpuOp}

/-! ## Folding -/

/-- Every element of the vector is rounded. -/
def Rounded (A : Arithmetic K) (d : Datatype) (xs : List K) : Prop := ∀ x ∈ xs, A.round d x = x

/-- The input of an execution is rounded. -/
theorem rounded_hostInput (n : UInt32) (seed : UInt64) : Rounded A d (hostInput A n d seed) := by
  intro x hx
  obtain ⟨i, -, rfl⟩ := List.mem_map.mp hx
  exact A.round_round d _

variable [LinearOrder K]

/-- So is what an operation makes of it. -/
theorem Rounded.applyOp (h : Rounded A d xs) (op : CpuOp) : Rounded A d (applyOp A d xs op) := by
  have hmap : Rounded A d (xs.map fun x => A.round d (element A op x)) := by
    intro x hx
    obtain ⟨y, -, rfl⟩ := List.mem_map.mp hx
    exact A.round_round d _
  have hone : Rounded A d [A.round d (reduce op.kind xs)] := by
    intro x hx
    rw [List.mem_singleton.mp hx]
    exact A.round_round d _
  unfold CpuBackend.applyOp
  split
  · exact h
  · exact hone
  · exact hone
  · exact hone
  · exact hmap

/-- Elements that an operation does not change stay as they are. -/
theorem map_element_eq (h : Rounded A d xs) (hop : ∀ x, element A op x = x) :
    (xs.map fun x => A.round d (element A op x)) = xs := by
  conv_rhs => rw [← List.map_id xs]
  apply List.map_congr_left
  intro x hx
  rw [hop x]
  exact h x hx

/-- An operation that folding leaves out changes nothing. -/
theorem applyOp_of_not_survives (h : Rounded A d xs) (hop : survives op = false) :
    applyOp A d xs op = xs := by
  unfold survives at hop
  unfold CpuBackend.applyOp
  cases hkind : op.kind <;> simp only [hkind] at hop ⊢
  case Add =>
    apply map_element_eq h
    intro x
    rw [element, hkind, A.value_of_isZero _ (by simpa using hop), add_zero]
  case Sub =>
    apply map_element_eq h
    intro x
    rw [element, hkind, A.value_of_isZero _ (by simpa using hop), sub_zero]
  case Scale =>
    have hone : op.scalar = one := by simpa using hop
    apply map_element_eq h
    intro x
    rw [element, hkind, hone, A.value_one, mul_one]
  all_goals cases hop

/-- Operations that folding leaves out change nothing in a sequence, by induction on it. -/
theorem foldl_filter_survives (ops : List CpuOp) (h : Rounded A d xs) :
    (ops.filter survives).foldl (applyOp A d) xs = ops.foldl (applyOp A d) xs := by
  induction ops generalizing xs with
  | nil => rfl
  | cons op ops ih =>
      rw [List.foldl_cons, ← ih (h.applyOp op), List.filter_cons]
      split
      · rfl
      · next hop =>
        rw [applyOp_of_not_survives h (by simpa using hop)]

/-- The optimiser preserves the output of every program. -/
theorem execute_optimize (A : Arithmetic K) (r : CompilationRequest) (p : CpuProgram)
    (seed : UInt64) : execute A (optimize r p) seed = execute A p seed := by
  have hrounded := rounded_hostInput (A := A) (d := p.datatype) (elementCount p.shapeN) seed
  unfold optimize execute
  by_cases hlevel : 0 < r.optimizeLevel
  · simp only [if_pos hlevel]
    split
    · rfl
    · exact foldl_filter_survives p.ops hrounded
  · simp only [if_neg hlevel, ite_self]

/-! ## Equal keys -/

/-- The program that a request's artifact is encoded from.
SOURCE: CpuBackend.cpp:279-309 -/
def compiledProgram (r : CompilationRequest) (p : CpuProgram) : CpuProgram :=
  optimize r (specialize r p)

/-- The two requests are compiled alike: both are rejected or both are accepted, and the programs
in the artifacts have the same output for every seed. -/
def CompiledAlike (A : Arithmetic K) (r₁ r₂ : CompilationRequest) : Prop :=
  ∀ v₁ v₂ s₁ s₂,
    ((∃ e, compileSource r₁ v₁ s₁ = some (.error e)) ↔
      ∃ e, compileSource r₂ v₂ s₂ = some (.error e)) ∧
    ((∃ out, compileSource r₁ v₁ s₁ = some (.ok out)) ↔
      ∃ out, compileSource r₂ v₂ s₂ = some (.ok out)) ∧
    ∀ out₁ out₂, compileSource r₁ v₁ s₁ = some (.ok out₁) →
      compileSource r₂ v₂ s₂ = some (.ok out₂) →
      ∃ p₁ p₂, parseSource r₁.source = some (.ok p₁) ∧ parseSource r₂.source = some (.ok p₂) ∧
        out₁.executable = encode (compiledProgram r₁ p₁) ∧
        out₂.executable = encode (compiledProgram r₂ p₂) ∧
        ∀ seed, execute A (compiledProgram r₁ p₁) seed = execute A (compiledProgram r₂ p₂) seed

/-- Requests with equal keys specialize a program alike. -/
theorem specialize_congr {r₁ r₂ : CompilationRequest} {p₁ p₂ : CompilationPlan}
    {t₁ t₂ : KeyToolchainContext} (h : SameIdentity r₁ p₁ t₁ r₂ p₂ t₂) (p : CpuProgram) :
    specialize r₁ p = specialize r₂ p := by
  unfold specialize
  rw [h.datatype, h.staticShape, h.rank, h.launchSpecialization]

/-- Requests of one identity are compiled alike. -/
theorem compiledAlike_of_sameIdentity (A : Arithmetic K) {r₁ r₂ : CompilationRequest}
    {p₁ p₂ : CompilationPlan} {t₁ t₂ : KeyToolchainContext}
    (h : SameIdentity r₁ p₁ t₁ r₂ p₂ t₂) : CompiledAlike A r₁ r₂ := by
  intro v₁ v₂ s₁ s₂
  -- whether a source is accepted does not depend on the rest of the request
  have haccepts : ∀ {r : CompilationRequest} {v : ValidationDescriptor} {s : List StageResult},
      ((∃ e, compileSource r v s = some (.error e)) ↔
        ∃ e, parseSource r.source = some (.error e)) ∧
      ((∃ out, compileSource r v s = some (.ok out)) ↔
        ∃ p, parseSource r.source = some (.ok p)) := by
    intro r v s
    unfold compileSource
    cases parseSource r.source with
    | none => simp
    | some parsed => cases parsed <;> simp [CpuBackend.compile, Except.map]
  refine ⟨?_, ?_, fun out₁ out₂ h₁ h₂ => ?_⟩
  · rw [haccepts.1, haccepts.1, h.source]
  · rw [haccepts.2, haccepts.2, h.source]
  · obtain ⟨p, hparse₁, hout₁⟩ := compileSource_eq_ok h₁
    obtain ⟨p', hparse₂, hout₂⟩ := compileSource_eq_ok h₂
    have hsame : p = p' := by
      rw [h.source, hparse₂, Option.some_inj, Except.ok.injEq] at hparse₁
      exact hparse₁.symm
    refine ⟨p, p', hparse₁, hparse₂, hout₁, hout₂, fun seed => ?_⟩
    rw [compiledProgram, compiledProgram, execute_optimize, execute_optimize,
      specialize_congr h, hsame]

/-- Requests that get equal keys from their own plans are compiled alike, and folding preserves
the output of every program.
SOURCE: CpuBackend.cpp:188-309, Request.cpp:198-263 -/
theorem cacheKey_sufficient (A : Arithmetic K) {h₁ h₂ : Host} {c₁ c₂ : CompilationFabricConfig}
    {n₁ n₂ : UInt64} {now₁ now₂ : Int64} {r₁ r₂ : CompilationRequest} {p₁ p₂ : CompilationPlan}
    {tc : KeyToolchainContext} (hp₁ : plan h₁ c₁ n₁ now₁ r₁ = .ok p₁)
    (hp₂ : plan h₂ c₂ n₂ now₂ r₂ = .ok p₂)
    (hkey : (buildCompilationKey r₁ p₁ tc == buildCompilationKey r₂ p₂ tc) = true) :
    CompiledAlike A r₁ r₂ ∧
      ∀ r p seed, execute A (optimize r p) seed = execute A p seed :=
  ⟨compiledAlike_of_sameIdentity A
      ((sameIdentity_iff_beq (plan_request hp₁) (plan_request hp₂)).mp hkey),
    execute_optimize A⟩

/-- The arithmetic of the rational numbers without rounding. -/
def plainArithmetic : Arithmetic ℚ where
  round := fun _ x => x
  round_round := fun _ _ => rfl
  value := fun b => (Numerals.ratOfBits b).getD 0
  value_of_isZero := by
    intro b hb
    obtain rfl | rfl : b = 0 ∨ b = 0x8000000000000000 := by simpa [isZero] using hb
    · decide +kernel
    · decide +kernel
  value_one := by decide +kernel
  wave := fun i _ => i

/-- A source that folding shortens. -/
def foldedRequest (optimizeLevel : Int32) : CompilationRequest :=
  { source := ascii "add scalar=0\nsum\nnop", optimizeLevel }

/-- A request at two levels of optimization, of which one folds. -/
theorem cacheKey_sufficient_folded :
    CompiledAlike plainArithmetic (foldedRequest 0) (foldedRequest 2) ∧
      ∀ r p seed, execute plainArithmetic (optimize r p) seed = execute plainArithmetic p seed := by
  have hkey : ∀ p₁ p₂, plan {} {} 0 0 (foldedRequest 0) = .ok p₁ →
      plan {} {} 0 0 (foldedRequest 2) = .ok p₂ →
      (buildCompilationKey (foldedRequest 0) p₁ {} == buildCompilationKey (foldedRequest 2) p₂ {}) =
        true := by
    rintro _ _ ⟨⟩ ⟨⟩
    decide +kernel
  exact cacheKey_sufficient plainArithmetic rfl rfl (hkey _ _ rfl rfl)

end CompilationFabric.Analysis
