import CompilationFabric.Interface.ResultWire

/-!
# What a second trip over the wire changes

A number is rounded to a double when it is written and, from `2 ^ 63` on, to six significant
digits as well.  Both roundings keep what they return, so what came over the wire once comes
over it unchanged (`wireU64_wireU64`, `wireI64_wireI64`, `wireDuration_wireDuration`).  The
records are settled with their fields.
-/

set_option autoImplicit false

namespace CompilationFabric.Interface

open CompilationFabric.Library.Binary64
open CompilationFabric.Library.DecimalText
open CompilationFabric.Model
open CompilationFabric.Model.Json

-- kept folded, or elaboration runs it on a record's members
attribute [local irreducible] Printable

/-! ## Numbers -/

/-- What rounding an integer leaves is held exactly. -/
theorem exact_of_roundRat {n r : ℤ} (h : roundRat n = r) : Exact r := by
  have hround := roundRat_roundRat (n : ℚ)
  rwa [h] at hround

/-- The number that comes back of an unsigned integer is one that survives. -/
theorem rereadNumber_unsigned {n : ℤ} (hlo : 0 ≤ n) (hhi : n < 2 ^ 64) :
    ∃ (y : Finite) (v : ℤ), rereadNumber (ofInt n) = .finite y ∧ y.val = v ∧ 0 ≤ v ∧
      v < 2 ^ 64 ∧ Exact v ∧ (2 ^ 63 ≤ v → SixDigits v) := by
  obtain ⟨x, hx, hval⟩ := ofInt_finite (n := n) (by omega) (by omega)
  obtain ⟨r, hr⟩ := roundRat_intCast n
  have hupper : roundRat (n : ℚ) ≤ 2 ^ (64 : ℤ) := by
    refine (roundRat_le (by norm_num) ?_ ?_).1
    · exact le_trans (by norm_num) (Int.cast_nonneg hlo)
    · exact_mod_cast hhi.le
  have hlower : 0 ≤ roundRat (n : ℚ) := roundRat_nonneg (Int.cast_nonneg hlo)
  rw [hr] at hval hupper hlower
  have hr0 : 0 ≤ r := by exact_mod_cast hlower
  have hr64 : r ≤ 2 ^ 64 := by exact_mod_cast hupper
  rw [hx]
  rcases lt_or_ge r (2 ^ 63) with hlt | hge
  · exact ⟨x, r, rereadNumber_of_val hval (by omega) hlt, hval, hr0, by omega,
      exact_of_roundRat hr, fun h => absurd h (not_le.mpr hlt)⟩
  · have hxlarge : 2 ^ 63 ≤ x.val := by
      rw [hval]
      exact_mod_cast hge
    have hxhi : x.val ≤ 2 ^ 64 := by
      rw [hval]
      exact_mod_cast hr64
    obtain ⟨y, v, hy, hyv, hv0, hv64, hexact, hsix, -⟩ := ofRat_sixDigits hxlarge hxhi
    refine ⟨y, v, ?_, hyv, hv0.le, hv64, hexact, fun _ => hsix⟩
    rw [rereadNumber_of_large hxlarge, hy]

/-- `2 ^ 63` has nineteen digits, and the first six round down. -/
theorem sixDigits_two_pow : sixDigits (2 ^ 63) = (922337, 18) := by
  have hlog : Int.log 10 (2 ^ 63 : ℚ) = (13 : ℕ) + 5 := by
    rcases log_ten_large (a := 2 ^ 63) le_rfl (by norm_num) with ⟨hlog, -⟩ | ⟨-, hge⟩
    · exact hlog
    · exact absurd hge (by norm_num)
  have hround : roundHalfEven ((2 : ℚ) ^ 63 / 10 ^ 13) = 922337 := by
    apply le_antisymm
    · apply roundHalfEven_le_of_lt_half
      norm_num
    · apply le_roundHalfEven
      norm_num
  rw [sixDigits_of_log hlog, hround]
  rfl

/-- The number that comes back of a signed integer is one that a double holds; the largest
ones come back smaller than `2 ^ 63`. -/
theorem rereadNumber_signed {n : ℤ} (hlo : -2 ^ 63 ≤ n) (hhi : n < 2 ^ 63) :
    ∃ (y : Finite) (v : ℤ), rereadNumber (ofInt n) = .finite y ∧ y.val = v ∧ -2 ^ 63 ≤ v ∧
      v < 2 ^ 63 ∧ Exact v := by
  obtain ⟨x, hx, hval⟩ := ofInt_finite (n := n) (by omega) (by omega)
  obtain ⟨r, hr⟩ := roundRat_intCast n
  obtain ⟨hupper, hlower⟩ := roundRat_le (q := n) (e := 63) (by norm_num)
    (by exact_mod_cast hlo) (by exact_mod_cast hhi.le)
  rw [hr] at hval hupper hlower
  have hr63 : r ≤ 2 ^ 63 := by exact_mod_cast hupper
  have hr0 : -2 ^ 63 ≤ r := by exact_mod_cast hlower
  rw [hx]
  rcases lt_or_ge r (2 ^ 63) with hlt | hge
  · exact ⟨x, r, rereadNumber_of_val hval hr0 hlt, hval, hr0, hlt, exact_of_roundRat hr⟩
  · obtain rfl : r = 2 ^ 63 := le_antisymm hr63 hge
    have hx63 : x.val = 2 ^ 63 := by
      rw [hval]
      norm_num
    have hsix : SixDigits (922337 * 10 ^ 13) := ⟨922337, 13, by norm_num, by norm_num, rfl⟩
    have hexact : Exact (922337 * 10 ^ 13) := hsix.exact (by norm_num)
    obtain ⟨y, hy, hyval⟩ := ofInt_finite (n := 922337 * 10 ^ 13) (by norm_num) (by norm_num)
    refine ⟨y, 922337 * 10 ^ 13, ?_, ?_, by norm_num, by norm_num, hexact⟩
    · rw [rereadNumber_of_large hx63.ge, hx63, sixDigits_two_pow, ← hy, ofInt]
      norm_num
    · rw [hyval]
      exact hexact

/-- A `uint64_t` that has crossed the wire crosses it unchanged. -/
theorem wireU64_wireU64 (n : UInt64) : wireU64 (wireU64 n) = wireU64 n := by
  have hn := n.toNat_lt
  obtain ⟨y, v, hy, hyv, hv0, hv64, hexact, hsix⟩ :=
    rereadNumber_unsigned (n := n.toNat) (by omega) (by omega)
  have hw : wireU64 n = UInt64.ofInt v := by
    rw [wireU64, hy, toUInt64_of_val hyv (by omega) hv64]
  have hnat : ((wireU64 n).toNat : ℤ) = v := ((ofNat_wire hv0 hv64).mp hw.symm).symm
  rw [wireU64_eq_iff, SurvivesU64]
  rcases lt_or_ge v (2 ^ 63) with hlt | hge
  · left
    exact ⟨by omega, by rwa [hnat]⟩
  · right
    rw [hnat]
    exact ⟨by omega, hsix hge⟩

/-- An `int64_t` that has crossed the wire crosses it unchanged. -/
theorem wireI64_wireI64 (n : Int64) : wireI64 (wireI64 n) = wireI64 n := by
  obtain ⟨y, v, hy, hyv, hlo, hhi, hexact⟩ := rereadNumber_signed n.le_toInt n.toInt_lt
  rw [wireI64_eq_iff]
  rwa [wireI64, hy, toInt64_of_val hyv hlo hhi, Int64.toInt_ofInt_of_le hlo hhi]

/-- A duration that has crossed the wire crosses it unchanged. -/
theorem wireDuration_wireDuration (n : Int64) :
    wireDuration (wireDuration n) = wireDuration n := by
  obtain ⟨y, v, hy, hyv, hlo, hhi, hexact⟩ := rereadNumber_signed n.le_toInt n.toInt_lt
  apply wireDuration_of_exact
  have hw : wireDuration n = Int64.ofInt v := by
    rw [wireDuration, hy, toUInt64_of_val hyv hlo (by omega), ← toUInt64_ofInt]
    rfl
  rwa [hw, Int64.toInt_ofInt_of_le hlo hhi]

/-! ## Records -/

attribute [local simp] wireU64_wireU64 wireI64_wireI64 wireDuration_wireDuration

/-- A request that has crossed the wire crosses it unchanged. -/
theorem wireRequest_wireRequest (r : CompilationRequest) :
    wireRequest (wireRequest r) = wireRequest r := by
  simp only [wireRequest, List.map_map, Function.comp_def, wireU64_wireU64, wireI64_wireI64]
  split <;> rfl

/-- So does a target descriptor. -/
theorem wireTarget_wireTarget (t : TargetDescriptor) : wireTarget (wireTarget t) = wireTarget t := by
  simp [wireTarget]

/-- So does a specialization. -/
theorem wireSpecialization_wireSpecialization (s : SpecializationDescriptor) :
    wireSpecialization (wireSpecialization s) = wireSpecialization s := by
  simp [wireSpecialization, Function.comp_def]

/-- So does a validation descriptor. -/
theorem wireValidation_wireValidation (v : ValidationDescriptor) :
    wireValidation (wireValidation v) = wireValidation v := by
  simp [wireValidation]

/-- So does a deployment descriptor. -/
theorem wireDeployment_wireDeployment (d : DeploymentDescriptor) :
    wireDeployment (wireDeployment d) = wireDeployment d := by
  simp [wireDeployment]

/-- So does a provenance descriptor. -/
theorem wireProvenance_wireProvenance (p : ProvenanceDescriptor) :
    wireProvenance (wireProvenance p) = wireProvenance p := by
  simp [wireProvenance]

/-- So does an artifact descriptor. -/
theorem wireArtifact_wireArtifact (a : ArtifactDescriptor) :
    wireArtifact (wireArtifact a) = wireArtifact a := by
  simp [wireArtifact, wireTarget_wireTarget, wireSpecialization_wireSpecialization,
    wireValidation_wireValidation, wireDeployment_wireDeployment, wireProvenance_wireProvenance]

end CompilationFabric.Interface
