import CompilationFabric.Analysis.KeyRelations
import CompilationFabric.Library.MonadicMap
import CompilationFabric.Model.Compatibility
import Mathlib.Data.List.ReduceOption

/-!
# Which differences a reuse decision tolerates

`decide` may report an artifact of another key as reusable in two ways: the policy allows an
equivalent target and only target fields differ, or the policy is not strict about the
environment and its fingerprint differs.  The second way looks at the flag that a field has
to be recompiled for, which neither a target field nor the namespace or the tenant sets, so
it also tolerates those (`decideByDiffs_reusable`).  `decide_sound_iff` is what that amounts
to: the decision is sound exactly when the fingerprint is not joined by such fields alone.
-/

set_option autoImplicit false

namespace CompilationFabric.Analysis

open CompilationFabric.Library
open CompilationFabric.Model
open CompilationFabric.Model.CompilationCompatibility

variable {a b : CompilationKey}

/-! ## Differing fields -/

def Differs (a b : CompilationKey) (f : KeyField) : Prop := a.findField f ≠ b.findField f

instance (a b : CompilationKey) (f : KeyField) : Decidable (Differs a b f) :=
  inferInstanceAs (Decidable (_ ≠ _))

/-- A target or architecture field, as the code classifies them. -/
def IsTarget (f : KeyField) : Prop := reasonForKeyField f = .ArchitectureChanged

/-- Keys are equal when no field differs. -/
theorem beq_iff_not_differs : (a == b) = true ↔ ∀ f, ¬ Differs a b f := by
  rw [CompilationKey.beq_iff, perm_iff_findTag]
  constructor
  · exact fun h f hf => hf (h _)
  · intro h t
    by_contra hne
    obtain ⟨f, rfl⟩ := CompilationKey.exists_field_of_findTag_ne hne
    exact h f hne

/-- One diff is of the field it was asked for, when that field differs. -/
theorem fieldDiff_eq_ok {f : KeyField} {o : Option FieldDiff} (h : fieldDiff a b f = .ok o) :
    o.map FieldDiff.field = if Differs a b f then some f else none := by
  unfold fieldDiff at h
  by_cases hf : a.findField f = b.findField f
  · rw [if_pos hf] at h
    cases h
    rw [if_neg (show ¬ Differs a b f from not_not.mpr hf)]
    rfl
  · rw [if_neg hf] at h
    rw [if_pos (show Differs a b f from hf)]
    cases hreq : renderSide (b.findField f) with
    | error x =>
        rw [hreq] at h
        cases h
    | ok req =>
        cases hart : renderSide (a.findField f) with
        | error x =>
            rw [hreq, hart] at h
            cases h
        | ok art =>
            rw [hreq, hart] at h
            cases h
            rfl

/-- The diffs are of the fields that differ. -/
theorem fields_mapM_fieldDiff {fields : List KeyField} {os : List (Option FieldDiff)}
    (h : fields.mapM (fieldDiff a b) = .ok os) :
    os.reduceOption.map FieldDiff.field = fields.filter fun f => Differs a b f := by
  have hstep := MonadicMap.forall₂_of_mapM_ok h
  clear h
  induction hstep with
  | nil => rfl
  | cons hf _ ih =>
      have ho := fieldDiff_eq_ok hf
      split at ho
      · next hd =>
        obtain ⟨d, rfl, hfield⟩ := Option.map_eq_some_iff.mp ho
        rw [List.reduceOption_cons_of_some, List.map_cons, ih, hfield,
          List.filter_cons_of_pos (by simpa using hd)]
      · next hd =>
        obtain rfl := Option.map_eq_none_iff.mp ho
        rw [List.reduceOption_cons_of_none, ih, List.filter_cons_of_neg (by simpa using hd)]

/-- A field is listed exactly when it differs. -/
theorem mem_fieldDiffs {diffs : List FieldDiff} (h : fieldDiffs a b = .ok diffs) (f : KeyField) :
    f ∈ diffs.map FieldDiff.field ↔ Differs a b f := by
  unfold fieldDiffs at h
  cases hos : keyFields.mapM (fieldDiff a b) with
  | error x =>
      rw [hos] at h
      cases h
  | ok os =>
      rw [hos] at h
      cases h
      rw [fields_mapM_fieldDiff hos, List.mem_filter]
      simp [mem_keyFields]

/-! ## The decision -/

/-- One field stands for the environment.
SOURCE: Compatibility.cpp:111-190 -/
theorem reason_eq_environment {f : KeyField} :
    reasonForKeyField f = .EnvironmentFingerprint ↔ f = .EnvFingerprint := by
  cases f <;> decide

/-- Two fields stand for the policy.
SOURCE: Compatibility.cpp:111-190 -/
theorem reason_eq_policy {f : KeyField} :
    reasonForKeyField f = .Policy ↔ f = .Namespace ∨ f = .Tenant := by
  cases f <;> decide

/-- The fields that do not ask for a recompilation by themselves. -/
def IsSoft (f : KeyField) : Prop :=
  f = .EnvFingerprint ∨ IsTarget f ∨ f = .Namespace ∨ f = .Tenant

/-- The soft fields by their reasons. -/
theorem isSoft_iff {f : KeyField} : IsSoft f ↔ reasonForKeyField f = .EnvironmentFingerprint ∨
    reasonForKeyField f = .ArchitectureChanged ∨ reasonForKeyField f = .Policy := by
  rw [IsSoft, IsTarget, reason_eq_environment, reason_eq_policy]

/-- When the fields that differ are tolerated. -/
theorem decideByDiffs_reusable {fields : List KeyField} {policy : CompilationCompatibilityPolicy} :
    (decideByDiffs fields policy).reusable = true ↔
      (policy.allowEquivalentTarget = true ∧ fields ≠ [] ∧ ∀ f ∈ fields, IsTarget f) ∨
      (policy.strictEnvironment = false ∧ .EnvFingerprint ∈ fields ∧ ∀ f ∈ fields, IsSoft f) := by
  have henv : (fields.map reasonForKeyField).contains .EnvironmentFingerprint = true ↔
      .EnvFingerprint ∈ fields := by
    rw [List.contains_iff_mem, List.mem_map]
    constructor
    · rintro ⟨f, hf, hreason⟩
      exact reason_eq_environment.mp hreason ▸ hf
    · exact fun h => ⟨_, h, rfl⟩
  have hhard : ((fields.map reasonForKeyField).any fun r =>
      r ≠ .EnvironmentFingerprint && r ≠ .ArchitectureChanged && r ≠ .Policy) = false ↔
      ∀ f ∈ fields, IsSoft f := by
    simp only [List.any_eq_false, List.mem_map, isSoft_iff]
    constructor
    · intro h f hf
      have hf' := h _ ⟨f, hf, rfl⟩
      simp only [Bool.and_eq_true, decide_eq_true_eq, not_and_or, not_not] at hf'
      tauto
    · rintro h _ ⟨f, hf, rfl⟩
      have hf' := h f hf
      simp only [Bool.and_eq_true, decide_eq_true_eq, not_and_or, not_not]
      tauto
  have htarget : ((fields.map reasonForKeyField).all (· = .ArchitectureChanged)) = true ↔
      ∀ f ∈ fields, IsTarget f := by
    simp [IsTarget]
  have hsome : (fields.map reasonForKeyField).contains .ArchitectureChanged = true ↔
      ∃ f ∈ fields, IsTarget f := by
    simp [IsTarget]
  unfold decideByDiffs
  dsimp only
  split
  · next hequivalent =>
    simp only [Bool.and_eq_true, Bool.not_eq_true', hhard, hsome, htarget] at hequivalent
    obtain ⟨⟨⟨-, hallow⟩, f, hf, -⟩, honly⟩ := hequivalent
    exact iff_of_true rfl (.inl ⟨hallow, List.ne_nil_of_mem hf, honly⟩)
  · next hequivalent =>
    split
    · next hruntime =>
      simp only [Bool.and_eq_true, Bool.not_eq_true', hhard, henv] at hruntime
      exact iff_of_true rfl (.inr ⟨hruntime.2, hruntime.1.2, hruntime.1.1⟩)
    · next hruntime =>
      refine iff_of_false (by simp) ?_
      rintro (⟨hallow, hne, honly⟩ | ⟨hstrict, hmem, hsoft⟩)
      · -- every field is a target, so none of them is hard or the fingerprint
        obtain ⟨f, hf⟩ := List.exists_mem_of_ne_nil _ hne
        have hnoenv : KeyField.EnvFingerprint ∉ fields := fun h => nomatch honly _ h
        rw [← henv, Bool.not_eq_true] at hnoenv
        refine hequivalent ?_
        simp only [Bool.and_eq_true, Bool.not_eq_true', hhard, hsome, htarget]
        exact ⟨⟨⟨⟨fun g hg => .inr (.inl (honly g hg)), hnoenv⟩, hallow⟩, f, hf, honly f hf⟩, honly⟩
      · refine hruntime ?_
        simp only [Bool.and_eq_true, Bool.not_eq_true', hhard, henv]
        exact ⟨⟨hsoft, hmem⟩, hstrict⟩

/-- The lifecycle states that are turned away before the keys are compared.
SOURCE: Compatibility.cpp:219-225 -/
def RejectedState (state : Bytes) : Prop :=
  state = ascii "Corrupt" ∨ state = ascii "Invalidated" ∨ state = ascii "Retired" ∨
    state = [] ∨ state = ascii "Invalid" ∨ state = ascii "Failed" ∨ state = ascii "Cancelled"

/-- What a decision is made from, once it is made. -/
theorem decide_reusable {artifact : ArtifactDescriptor} {policy : CompilationCompatibilityPolicy} :
    (∃ d, decide a b artifact policy = .ok d ∧ d.reusable = true) ↔
      ¬ RejectedState artifact.state ∧ ((a == b) = true ∨
        ∃ diffs, fieldDiffs a b = .ok diffs ∧
          (decideByDiffs (diffs.map FieldDiff.field) policy).reusable = true) := by
  have hrejected : ∀ {o : CompatibilityOutcome} {reasons : List CompatibilityReason} {detail : Bytes},
      RejectedState artifact.state →
      ((∃ d, (Except.ok ⟨o, false, reasons, detail⟩ : Throwing CompilationCompatibilityDecision) =
          .ok d ∧ d.reusable = true) ↔
        ¬ RejectedState artifact.state ∧ ((a == b) = true ∨ ∃ diffs, fieldDiffs a b = .ok diffs ∧
          (decideByDiffs (diffs.map FieldDiff.field) policy).reusable = true)) := by
    intro o reasons detail hstate
    refine iff_of_false ?_ fun h => h.1 hstate
    rintro ⟨d, ⟨⟩, hd⟩
    cases hd
  unfold CompilationCompatibility.decide
  dsimp only
  split
  · next hcorrupt => exact hrejected (.inl hcorrupt)
  · next hcorrupt =>
    split
    · next hstale => exact hrejected (.inr (hstale.imp_right .inl))
    · next hstale =>
      split
      · next hinvalid => exact hrejected (.inr (.inr (.inr hinvalid)))
      · next hinvalid =>
        have hstate : ¬ RejectedState artifact.state := by
          rintro (h | h | h | h)
          · exact hcorrupt h
          · exact hstale (.inl h)
          · exact hstale (.inr h)
          · exact hinvalid h
        split
        · next heq => exact iff_of_true ⟨_, rfl, rfl⟩ ⟨hstate, .inl heq⟩
        · next heq =>
          cases hdiffs : fieldDiffs a b with
          | error x => simp [bind, Except.bind, heq]
          | ok diffs => simp [bind, Except.bind, pure, Except.pure, heq, hstate]

/-- Reuse is reported only for an equal key, for an equivalent target where the policy allows
one, or where the environment alone differs and the policy is not strict about it. -/
def ReuseSound (a b : CompilationKey) (artifact : ArtifactDescriptor)
    (policy : CompilationCompatibilityPolicy) : Prop :=
  ∀ d, decide a b artifact policy = .ok d → d.reusable = true →
    (a == b) = true ∨
    (policy.allowEquivalentTarget = true ∧ ∀ f, Differs a b f → IsTarget f) ∨
    (policy.strictEnvironment = false ∧ ∀ f, Differs a b f ↔ f = .EnvFingerprint)

/-- The environment fingerprint differs, not alone, but only together with target fields, the
namespace or the tenant. -/
def EnvironmentJoined (a b : CompilationKey) : Prop :=
  Differs a b .EnvFingerprint ∧ (∃ f, Differs a b f ∧ f ≠ .EnvFingerprint) ∧
    ∀ f, Differs a b f → IsSoft f

/-- A decision is sound except when the policy is not strict about the environment and the
fingerprint is joined by such fields, for an artifact in a state that is looked at further
and values that can be rendered.
SOURCE: Compatibility.cpp:111-290 -/
theorem decide_sound_iff (a b : CompilationKey) (artifact : ArtifactDescriptor)
    (policy : CompilationCompatibilityPolicy) :
    ReuseSound a b artifact policy ↔
      ¬ (policy.strictEnvironment = false ∧ EnvironmentJoined a b ∧
        ¬ RejectedState artifact.state ∧ ∃ diffs, fieldDiffs a b = .ok diffs) := by
  constructor
  · rintro hsound ⟨hstrict, ⟨henv, ⟨f, hf, hne⟩, hsoft⟩, hstate, diffs, hdiffs⟩
    have hreusable : (decideByDiffs (diffs.map FieldDiff.field) policy).reusable = true :=
      decideByDiffs_reusable.mpr (.inr ⟨hstrict, (mem_fieldDiffs hdiffs _).mpr henv,
        fun g hg => hsoft g ((mem_fieldDiffs hdiffs g).mp hg)⟩)
    obtain ⟨d, hd, hd'⟩ := decide_reusable.mpr ⟨hstate, .inr ⟨diffs, hdiffs, hreusable⟩⟩
    rcases hsound d hd hd' with heq | ⟨-, honly⟩ | ⟨-, honly⟩
    · exact beq_iff_not_differs.mp heq f hf
    · exact nomatch honly _ henv
    · exact hne ((honly f).mp hf)
  · intro h d hd hreusable
    obtain ⟨hstate, heq | ⟨diffs, hdiffs, hby⟩⟩ := decide_reusable.mp ⟨d, hd, hreusable⟩
    · exact .inl heq
    · rcases decideByDiffs_reusable.mp hby with ⟨hallow, -, honly⟩ | ⟨hstrict, henv, hsoft⟩
      · exact .inr (.inl ⟨hallow, fun f hf => honly f ((mem_fieldDiffs hdiffs f).mpr hf)⟩)
      · refine .inr (.inr ⟨hstrict, fun f => ⟨fun hf => ?_, ?_⟩⟩)
        · by_contra hne
          refine h ⟨hstrict, ⟨(mem_fieldDiffs hdiffs _).mp henv, ⟨f, hf, hne⟩, fun g hg => ?_⟩,
            hstate, diffs, hdiffs⟩
          exact hsoft g ((mem_fieldDiffs hdiffs g).mpr hg)
        · rintro rfl
          exact (mem_fieldDiffs hdiffs _).mp henv

/-- Two keys that differ in the environment fingerprint and in the tenant. -/
def tenantKey (tenant fingerprint : Bytes) : CompilationKey :=
  CompilationKey.setAll [⟨.EnvFingerprint, fingerprint⟩, ⟨.Tenant, tenant⟩]

/-- An artifact of one tenant is reusable for another when the environment differs as well. -/
theorem not_sound_tenant :
    ¬ ReuseSound (tenantKey (ascii "a") (ascii "x")) (tenantKey (ascii "b") (ascii "y"))
      { state := ascii "Deployable" } { strictEnvironment := false } := by
  intro h
  have hreuse : (match CompilationCompatibility.decide (tenantKey (ascii "a") (ascii "x"))
      (tenantKey (ascii "b") (ascii "y")) { state := ascii "Deployable" }
      { strictEnvironment := false } with
    | .ok d => d.reusable
    | .error _ => false) = true := by decide +kernel
  split at hreuse
  · next d hok =>
    rcases h d hok hreuse with heq | ⟨hallow, -⟩ | ⟨-, honly⟩
    · exact absurd heq (by decide +kernel)
    · cases hallow
    · have htenant : Differs (tenantKey (ascii "a") (ascii "x"))
          (tenantKey (ascii "b") (ascii "y")) .Tenant := by decide +kernel
      exact nomatch (honly .Tenant).mp htenant
  · cases hreuse

end CompilationFabric.Analysis
