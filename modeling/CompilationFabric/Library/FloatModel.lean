import Mathlib

/-!
# Packed and unpacked floats

Lean's `Float` is a bit pattern, and its operations unpack it, compute and pack the result.  This is
what the pattern keeps of the unpacked form: a canonical float comes back when it is packed and
unpacked (`unpack_pack`), what is unpacked is canonical, and rounding leaves the value of a canonical
float alone, whatever power of two stands in front of its exponent (`round_coarse`, `round_fine`).
Everything is for an arbitrary format with a sign bit, an exponent and a mantissa.

The lemmas about packed components come with Batteries, which no smaller import of Mathlib has.
-/

set_option autoImplicit false

namespace CompilationFabric.Library.FloatModel

open Float.Model
open Float.Model.UnpackedFloat

variable {spec : Format} {s : Sign} {m k : ℕ} {e : ℤ}

/-- A float whose mantissa and exponent are those of its format. -/
def Canonical (spec : Format) : UnpackedFloat → Prop
  | .finite _ m e _ => m < 2 ^ spec.mantissaBits ∧ spec.minExponent ≤ e ∧
      (2 ^ spec.mantissaBitsWithoutImplicit ≤ m ∨ e = spec.minExponent)
  | _ => True

/-! ## Rounding what is exact -/

/-- Shifting a mantissa moves its highest bit. -/
theorem log2_shift (hm : 0 < m) (k : ℕ) : (m * 2 ^ k).log2 = m.log2 + k := by
  have hpos : 0 < m * 2 ^ k := Nat.mul_pos hm (Nat.two_pow_pos k)
  rw [Nat.log2_eq_iff hpos.ne']
  constructor
  · rw [pow_add]
    exact Nat.mul_le_mul_right _ (Nat.log2_self_le hm.ne')
  · rw [show m.log2 + k + 1 = m.log2 + 1 + k by omega, pow_add]
    exact Nat.mul_lt_mul_of_pos_right Nat.lt_log2_self (Nat.two_pow_pos k)

/-- Shifting the mantissa against the exponent leaves the total exponent alone. -/
theorem totalExponent_shift (hm : 0 < m) : totalExponent (m * 2 ^ k) (e - k) = totalExponent m e := by
  unfold totalExponent
  rw [log2_shift hm]
  push_cast
  ring

/-- The exponent that a canonical float has is that of its format. -/
theorem targetExponent_of_canonical {hm : 0 < m} (h : Canonical spec (.finite s m e hm)) :
    spec.targetExponent (totalExponent m e) = e := by
  obtain ⟨hlt, hmin, hnormal⟩ := h
  have hlog : m.log2 < spec.mantissaBits := (Nat.log2_lt hm.ne').mpr hlt
  have hbits : spec.mantissaBits = 1 + spec.mantissaBitsWithoutImplicit := rfl
  unfold Format.targetExponent totalExponent
  rcases hnormal with hnormal | rfl
  · have hle := (Nat.le_log2 hm.ne').mpr hnormal
    omega
  · omega

/-- Zeros that are shifted out leave nothing behind. -/
theorem shiftRight_exact (m k : ℕ) :
    (⟨m * 2 ^ k, false, false⟩ : ExtendedMantissa) >>> k = ⟨m, false, false⟩ := by
  change Nat.repeat ExtendedMantissa.shiftRightOne k _ = _
  induction k generalizing m with
  | zero => simp [Nat.repeat]
  | succ k ih =>
      rw [Nat.repeat, pow_succ, mul_comm _ 2, ← mul_assoc, ih]
      simp [ExtendedMantissa.shiftRightOne]

/-- INTERNAL: a canonical mantissa is shifted back to itself, exactly. -/
theorem shiftToTargetExponent_exact (hm : 0 < m)
    (h : spec.targetExponent (totalExponent m e) = e) :
    shiftToTargetExponent spec (m * 2 ^ k) (e - k) .exact = (⟨m, false, false⟩, e) := by
  unfold shiftToTargetExponent shiftToExponent
  simp only [totalExponent_shift hm, h, sub_sub_cancel, Int.toNat_natCast]
  rw [ExtendedMantissa.ofMantissaAndAccuracy, shiftRight_exact, sub_add_cancel]

/-- An exact canonical float is rounded to itself. -/
theorem roundWithAccuracy_exact (hm : 0 < m) (h : spec.targetExponent (totalExponent m e) = e) :
    roundWithAccuracy spec s (m * 2 ^ k) (e - k) .exact = .finite s m e hm := by
  have hfirst := shiftToTargetExponent_exact (k := k) hm h
  have hsecond := shiftToTargetExponent_exact (k := 0) hm h
  simp only [pow_zero, mul_one, Nat.cast_zero, sub_zero] at hsecond
  unfold roundWithAccuracy
  have hrounded : ExtendedMantissa.roundedMantissa ⟨m, false, false⟩ = m := rfl
  simp only [hfirst, hrounded, hsecond]
  exact dif_neg hm.ne'

/-- A float is rounded to itself, however its mantissa is shifted. -/
theorem round_coarse (hm : 0 < m) (h : spec.targetExponent (totalExponent m e) = e) :
    UnpackedFloat.round spec s (m * 2 ^ k) (e - k) = .finite s m e hm := by
  unfold UnpackedFloat.round decreaseExponent
  have hshift : (e - k - e).toNat = 0 := by omega
  simp only [totalExponent_shift hm, h, hshift, Nat.shiftLeft_zero, Nat.cast_zero, sub_zero]
  exact roundWithAccuracy_exact hm h

/-- The float in a finer format. -/
theorem round_fine (hm : 0 < m) (h : spec.targetExponent (totalExponent m e) = e - k) :
    UnpackedFloat.round spec s m e =
      .finite s (m * 2 ^ k) (e - k) (Nat.mul_pos hm (Nat.two_pow_pos k)) := by
  unfold UnpackedFloat.round decreaseExponent
  have hshift : (e - (e - k)).toNat = k := by omega
  have htarget : spec.targetExponent (totalExponent (m * 2 ^ k) (e - k)) = e - k := by
    rw [totalExponent_shift hm, h]
  have hround := roundWithAccuracy_exact (s := s) (k := 0) (Nat.mul_pos hm (Nat.two_pow_pos k))
    htarget
  simp only [pow_zero, mul_one, Nat.cast_zero, sub_zero] at hround
  simp only [h, hshift, Nat.shiftLeft_eq]
  exact hround

/-! ## Packing -/

/-- An infinity comes back. -/
@[simp] theorem unpack_pack_infinity :
    UnpackedFloat.unpack spec (UnpackedFloat.pack spec (.infinity s)) = .infinity s := by
  change UnpackedFloat.unpack spec (packComponents spec s (-1#_) 0#_) = _
  simp [UnpackedFloat.unpack]

/-- A float that is not a number comes back. -/
@[simp] theorem unpack_pack_notANumber :
    UnpackedFloat.unpack spec (UnpackedFloat.pack spec .notANumber) = .notANumber :=
  unpack_packedNaN

/-- A zero comes back with its sign. -/
@[simp] theorem unpack_pack_zero :
    UnpackedFloat.unpack spec (UnpackedFloat.pack spec (.zero s)) = .zero s :=
  unpack_packedZero

/-- The mantissa of a normal float. -/
theorem toNat_implicit {n : ℕ} (v : BitVec n) : (1#1 ++ v).toNat = 2 ^ n + v.toNat := by
  rw [BitVec.toNat_append, ← Nat.shiftLeft_add_eq_or_of_lt v.isLt, Nat.shiftLeft_eq]
  simp

/-- INTERNAL: an exponent field that is not the last one does not wrap. -/
theorem toNat_succ_ne_of_ne_last {v : BitVec spec.exponentBits} (h : v ≠ -1#_) :
    v.toNat + 1 ≠ 2 ^ spec.exponentBits := by
  intro hv
  apply h
  apply BitVec.eq_of_toNat_eq
  rw [BitVec.neg_one_eq_allOnes, BitVec.toNat_allOnes]
  omega

/-- INTERNAL: the least exponent of a format by its bias. -/
theorem minExponent_eq (spec : Format) :
    spec.minExponent = 1 - (spec.exponentBias + spec.mantissaBitsWithoutImplicit : ℤ) := by
  have hpos : 1 ≤ 2 ^ (spec.exponentBits - 1) := Nat.one_le_two_pow
  unfold Format.minExponent Format.exponentBias Format.mantissaBits
  push_cast [hpos]
  ring

/-- INTERNAL: the implicit bit doubles the mantissas. -/
theorem two_pow_mantissaBits (spec : Format) :
    2 ^ spec.mantissaBits = 2 * 2 ^ spec.mantissaBitsWithoutImplicit := by
  rw [Format.mantissaBits, pow_add, pow_one]

/-- What is unpacked is canonical. -/
theorem canonical_unpack (b : BitVec spec.numBits) :
    Canonical spec (UnpackedFloat.unpack spec b) := by
  have hmin := minExponent_eq spec
  have hlt := (unpackMantissa b).isLt
  have hsucc := two_pow_mantissaBits spec
  unfold UnpackedFloat.unpack
  dsimp only
  split
  · split <;> trivial
  · split
    · next hsub =>
      split
      · trivial
      · have hzero : (unpackExponent b).toNat = 0 := by rw [hsub, BitVec.toNat_ofNat, Nat.zero_mod]
        exact ⟨by omega, by omega, .inr (by omega)⟩
    · next hnormal =>
      have hpos : (unpackExponent b).toNat ≠ 0 := by
        intro h
        exact hnormal (BitVec.eq_of_toNat_eq h)
      refine ⟨?_, ?_, .inl ?_⟩
      · rw [toNat_implicit]
        omega
      · omega
      · rw [toNat_implicit]
        omega

/-- The exponent of a float that is not infinite. -/
def Fits (spec : Format) : UnpackedFloat → Prop
  | .finite _ _ e _ =>
      (e + spec.exponentBias + spec.mantissaBitsWithoutImplicit).toNat + 1 < 2 ^ spec.exponentBits
  | _ => True

/-- What is unpacked fits into its format. -/
theorem fits_unpack (hspec : 2 ≤ spec.exponentBits) (b : BitVec spec.numBits) :
    Fits spec (UnpackedFloat.unpack spec b) := by
  have hpow : 2 ^ 2 ≤ 2 ^ spec.exponentBits := Nat.pow_le_pow_right (by omega) hspec
  have hexp := (unpackExponent b).isLt
  unfold UnpackedFloat.unpack
  dsimp only
  split
  · split <;> trivial
  · next hfinite =>
    have hlast := toNat_succ_ne_of_ne_last hfinite
    split
    · next hsub =>
      split
      · trivial
      · have hzero : (unpackExponent b).toNat = 0 := by rw [hsub, BitVec.toNat_ofNat, Nat.zero_mod]
        unfold Fits
        omega
    · unfold Fits
      omega

/-- INTERNAL: the exponent fields of zero and of infinity differ. -/
theorem zero_ne_last (spec : Format) : (0#_ : BitVec spec.exponentBits) ≠ -1#_ := by
  intro h
  have hnat := congrArg BitVec.toNat h
  have hpow : 2 ^ 1 ≤ 2 ^ spec.exponentBits := Nat.pow_le_pow_right (by omega) spec.he
  rw [BitVec.neg_one_eq_allOnes, BitVec.toNat_allOnes, BitVec.toNat_ofNat, Nat.zero_mod] at hnat
  omega

/-- Packing takes nothing away from a subnormal float. -/
theorem unpack_subnormal (hm : 0 < m) (hlt : m < 2 ^ spec.mantissaBitsWithoutImplicit) :
    UnpackedFloat.unpack spec (packComponents spec s 0#_ (BitVec.ofNat _ m)) =
      .finite s m spec.minExponent hm := by
  have hnat : (BitVec.ofNat spec.mantissaBitsWithoutImplicit m).toNat = m := by
    rw [BitVec.toNat_ofNat, Nat.mod_eq_of_lt hlt]
  have hne : BitVec.ofNat spec.mantissaBitsWithoutImplicit m ≠ 0#_ := by
    intro h
    rw [h, BitVec.toNat_ofNat, Nat.zero_mod] at hnat
    omega
  simp only [UnpackedFloat.unpack, unpackSign_packComponents, unpackExponent_packComponents,
    unpackMantissa_packComponents, Sign.ofBitVec_toBitVec, zero_ne_last, hne, if_false, if_true,
    dite_false, hnat]
  congr 1
  rw [minExponent_eq, BitVec.toNat_ofNat, Nat.zero_mod]
  omega

/-- Packing takes nothing away from a normal float. -/
theorem unpack_normal (hm : 0 < m) {v : BitVec spec.exponentBits} (hzero : v ≠ 0#_)
    (hlast : v ≠ -1#_) (hle : 2 ^ spec.mantissaBitsWithoutImplicit ≤ m)
    (hlt : m < 2 ^ spec.mantissaBits) :
    UnpackedFloat.unpack spec (packComponents spec s v (BitVec.ofNat _ m)) =
      .finite s m (v.toNat - (spec.exponentBias + spec.mantissaBitsWithoutImplicit)) hm := by
  have hnat : (1#1 ++ BitVec.ofNat spec.mantissaBitsWithoutImplicit m).toNat = m := by
    have hsucc := two_pow_mantissaBits spec
    rw [toNat_implicit, BitVec.toNat_ofNat, Nat.mod_eq_sub_mod hle, Nat.mod_eq_of_lt (by omega)]
    omega
  simp only [UnpackedFloat.unpack, unpackSign_packComponents, unpackExponent_packComponents,
    unpackMantissa_packComponents, Sign.ofBitVec_toBitVec, hzero, hlast, if_false, hnat]

/-- Packing takes nothing away from a canonical float whose exponent fits. -/
theorem unpack_pack {hm : 0 < m} (h : Canonical spec (.finite s m e hm))
    (hfits : Fits spec (.finite s m e hm)) :
    UnpackedFloat.unpack spec (UnpackedFloat.pack spec (.finite s m e hm)) = .finite s m e hm := by
  unfold Fits at hfits
  obtain ⟨hlt, hle, hnormal⟩ := h
  have hmin := minExponent_eq spec
  have hbits : spec.mantissaBits = 1 + spec.mantissaBitsWithoutImplicit := rfl
  have hlog := (Nat.log2_lt hm.ne').mpr hlt
  unfold UnpackedFloat.pack
  dsimp only
  rw [if_neg (by omega)]
  generalize hv : (e + spec.exponentBias + spec.mantissaBitsWithoutImplicit).toNat = v at hfits
  have hnat : (BitVec.ofNat spec.exponentBits v).toNat = v := by
    rw [BitVec.toNat_ofNat, Nat.mod_eq_of_lt (by omega)]
  split
  · next hlog' =>
    rw [unpack_normal hm _ _ ((Nat.le_log2 hm.ne').mp (by omega)) hlt, hnat]
    · congr 1
      omega
    · intro h
      rw [h, BitVec.toNat_ofNat, Nat.zero_mod] at hnat
      omega
    · intro h
      rw [h, BitVec.neg_one_eq_allOnes, BitVec.toNat_allOnes] at hnat
      omega
  · next hlog' =>
    have hsmall : m < 2 ^ spec.mantissaBitsWithoutImplicit :=
      (Nat.log2_lt hm.ne').mp (by omega)
    rw [unpack_subnormal hm hsmall, hnormal.resolve_left (by omega)]

end CompilationFabric.Library.FloatModel
