import CompilationFabric.Library.FloatModel

/-!
# Floats up to the sign of zero

Most identities of real arithmetic fail for floats, but adding a zero, taking one away and
multiplying by one do not change a number.  They may change the sign of a zero, so equality is up to
that (`Alike`), and every operation takes alike arguments to alike results, `NaN` and the infinities
included.

`narrow` and `widen` are the conversions between the two formats; a number of the smaller one comes
back as it was.
-/

set_option autoImplicit false

namespace CompilationFabric.Library.FloatArithmetic

open Float.Model
open Float.Model.UnpackedFloat
open CompilationFabric.Library.FloatModel

variable {spec : Format} {a a' b b' : UnpackedFloat}

/-! ## Unpacked floats -/

/-- The same number: equal, or two zeros. -/
inductive AlikeUnpacked : UnpackedFloat → UnpackedFloat → Prop
  | refl (a : UnpackedFloat) : AlikeUnpacked a a
  | zero (s t : Sign) : AlikeUnpacked (.zero s) (.zero t)

namespace AlikeUnpacked

/-- Alike is symmetric. -/
theorem symm (h : AlikeUnpacked a b) : AlikeUnpacked b a := by
  cases h with
  | refl => exact .refl a
  | zero s t => exact .zero t s

/-- Alike is transitive. -/
theorem trans {c : UnpackedFloat} (h : AlikeUnpacked a b) (h' : AlikeUnpacked b c) :
    AlikeUnpacked a c := by
  cases h with
  | refl => exact h'
  | zero s t =>
      cases h' with
      | refl => exact .zero s t
      | zero _ u => exact .zero s u

/-- Sums of alike floats are alike. -/
theorem add (h : AlikeUnpacked a a') (h' : AlikeUnpacked b b') :
    AlikeUnpacked (UnpackedFloat.add spec a b) (UnpackedFloat.add spec a' b') := by
  have hzero : ∀ s t : Sign, ∃ u, UnpackedFloat.add spec (.zero s) (.zero t) = .zero u := by
    intro s t
    cases s <;> cases t <;> exact ⟨_, rfl⟩
  cases h with
  | refl =>
      cases h' with
      | refl => exact .refl _
      | zero s t =>
          cases a with
          | zero u =>
              obtain ⟨v, hv⟩ := hzero u s
              obtain ⟨v', hv'⟩ := hzero u t
              rw [hv, hv']
              exact .zero v v'
          | _ => exact .refl _
  | zero s t =>
      cases h' with
      | refl =>
          cases b with
          | zero u =>
              obtain ⟨v, hv⟩ := hzero s u
              obtain ⟨v', hv'⟩ := hzero t u
              rw [hv, hv']
              exact .zero v v'
          | _ => exact .refl _
      | zero u v =>
          obtain ⟨x, hx⟩ := hzero s u
          obtain ⟨x', hx'⟩ := hzero t v
          rw [hx, hx']
          exact .zero x x'

/-- Negations of alike floats are alike. -/
theorem neg (h : AlikeUnpacked a a') : AlikeUnpacked a.neg a'.neg := by
  cases h with
  | refl => exact .refl _
  | zero s t => exact .zero _ _

/-- Absolute values of alike floats are alike. -/
theorem abs (h : AlikeUnpacked a a') : AlikeUnpacked a.abs a'.abs := by
  cases h with
  | refl => exact .refl _
  | zero s t => exact .refl _

/-- Products of alike floats are alike. -/
theorem mul (h : AlikeUnpacked a a') (h' : AlikeUnpacked b b') :
    AlikeUnpacked (UnpackedFloat.mul spec a b) (UnpackedFloat.mul spec a' b') := by
  cases h with
  | refl =>
      cases h' with
      | refl => exact .refl _
      | zero s t => cases a <;> first | exact .refl _ | exact .zero _ _
  | zero s t =>
      cases h' with
      | refl => cases b <;> first | exact .refl _ | exact .zero _ _
      | zero u v => exact .zero _ _

end AlikeUnpacked

/-- Taking away is adding the opposite. -/
theorem sub_eq_add_neg : UnpackedFloat.sub spec a b = UnpackedFloat.add spec a b.neg := by
  have happly : ∀ (s : Sign) (n : ℤ), (-s).apply n = -s.apply n := by
    intro s n
    cases s
    · exact (neg_neg n).symm
    · rfl
  cases a <;> cases b <;>
    simp only [UnpackedFloat.sub, UnpackedFloat.add, UnpackedFloat.neg, happly, Int.sub_eq_add_neg]

/-- Differences of alike floats are alike. -/
theorem AlikeUnpacked.sub (h : AlikeUnpacked a a') (h' : AlikeUnpacked b b') :
    AlikeUnpacked (UnpackedFloat.sub spec a b) (UnpackedFloat.sub spec a' b') := by
  rw [sub_eq_add_neg, sub_eq_add_neg]
  exact h.add h'.neg

/-- Alike floats compare alike. -/
theorem AlikeUnpacked.compare_eq (h : AlikeUnpacked a a') (h' : AlikeUnpacked b b') :
    a.compare b = a'.compare b' := by
  cases h <;> cases h'
  case refl.refl => rfl
  case zero.zero => rfl
  case refl.zero =>
    cases a with
    | finite s => cases s <;> rfl
    | infinity s => cases s <;> rfl
    | _ => rfl
  case zero.refl =>
    cases b with
    | finite s => cases s <;> rfl
    | infinity s => cases s <;> rfl
    | _ => rfl

/-- Packing keeps floats alike. -/
theorem AlikeUnpacked.pack (h : AlikeUnpacked a b) :
    AlikeUnpacked (UnpackedFloat.unpack spec (UnpackedFloat.pack spec a))
      (UnpackedFloat.unpack spec (UnpackedFloat.pack spec b)) := by
  cases h with
  | refl => exact .refl _
  | zero s t =>
      rw [unpack_pack_zero, unpack_pack_zero]
      exact .zero s t

/-- Adding a zero. -/
theorem addZero_alike (a : UnpackedFloat) (s : Sign) :
    AlikeUnpacked (UnpackedFloat.add spec a (.zero s)) a := by
  cases a with
  | zero t => cases s <;> cases t <;> exact .zero _ _
  | _ => exact .refl _

/-- A power of two with the exponent that makes it one. -/
def unpackedOne (n : ℕ) : UnpackedFloat := .finite .positive (2 ^ n) (-n) (Nat.two_pow_pos n)

/-- Multiplying by one. -/
theorem mul_one_eq {n : ℕ} (h : Canonical spec a) : UnpackedFloat.mul spec a (unpackedOne n) = a := by
  have hsign : ∀ s : Sign, s * .positive = s := by
    intro s
    cases s <;> rfl
  cases a with
  | finite s m e hm =>
      simp only [UnpackedFloat.mul, unpackedOne, hsign]
      exact roundWithAccuracy_exact hm (targetExponent_of_canonical h)
  | _ => simp only [UnpackedFloat.mul, unpackedOne, hsign]

/-! ## The two formats -/

/-- A float in another format. -/
def convert (spec : Format) : UnpackedFloat → UnpackedFloat
  | .finite s m e _ => UnpackedFloat.round spec s m e
  | a => a

/-- Converting to another format keeps floats alike. -/
theorem AlikeUnpacked.convert (h : AlikeUnpacked a b) :
    AlikeUnpacked (convert spec a) (convert spec b) := by
  cases h with
  | refl => exact .refl _
  | zero s t => exact .zero s t

/-- `static_cast<float>` of a `double`. -/
def narrow (x : Float) : Float32 := .ofModel (.pack (convert .binary32 x.toModel.unpack))

/-- `static_cast<double>` of a `float`. -/
def widen (x : Float32) : Float := .ofModel (.pack (convert .binary64 x.toModel.unpack))

/-- A single-precision number as a double. -/
theorem unpack_convert_binary64 (h : Canonical .binary32 a) (hfits : Fits .binary32 a) :
    UnpackedFloat.unpack .binary64 (UnpackedFloat.pack .binary64 (convert .binary64 a)) =
      convert .binary64 a ∧ convert .binary32 (convert .binary64 a) = a := by
  cases a with
  | finite s m e hm =>
      have htarget := targetExponent_of_canonical h
      obtain ⟨hlt, hmin, -⟩ := h
      have hlog := (Nat.log2_lt hm.ne').mpr hlt
      have h32 : Format.binary32.minExponent = -149 := rfl
      have h64 : Format.binary64.minExponent = -1074 := rfl
      have hbits : Format.binary32.mantissaBits = 24 := rfl
      have hbits64 : Format.binary64.mantissaBits = 53 := rfl
      change (e + (127 : ℕ) + (23 : ℕ)).toNat + 1 < 2 ^ 8 at hfits
      -- the mantissa is shifted until it has 53 bits
      have hfine : Format.binary64.targetExponent (totalExponent m e) =
          e - ((52 - m.log2 : ℕ) : ℤ) := by
        unfold Format.targetExponent totalExponent
        omega
      have hround := round_fine (s := s) hm hfine
      have hpos := Nat.mul_pos hm (Nat.two_pow_pos (52 - m.log2))
      have hlog52 : (m * 2 ^ (52 - m.log2)).log2 = 52 := by
        rw [log2_shift hm]
        omega
      simp only [convert, hround]
      refine ⟨unpack_pack ⟨?_, by omega, .inl ?_⟩ ?_, round_coarse hm htarget⟩
      · exact (Nat.log2_lt hpos.ne').mp (by omega)
      · exact (Nat.le_log2 hpos.ne').mp hlog52.ge
      · change (e - _ + (1023 : ℕ) + (52 : ℕ)).toNat + 1 < 2 ^ 11
        omega
  | _ => simp [convert]

/-- Conversion to the larger format loses nothing. -/
theorem narrow_widen (y : Float32) : narrow (widen y) = y := by
  have hunpack : y.toModel.unpack = UnpackedFloat.unpack .binary32 y.toModel.toBits.toBitVec := rfl
  have hconvert := unpack_convert_binary64 (hunpack ▸ canonical_unpack _)
    (hunpack ▸ fits_unpack (by decide) _)
  have hwide : (widen y).toModel.unpack = convert .binary64 y.toModel.unpack := hconvert.1
  unfold narrow
  rw [hwide, hconvert.2]
  obtain ⟨⟨bits, hvalid⟩⟩ := y
  unfold Float32.Model.pack Float32.Model.unpack
  simp only [pack_unpack_of_valid hvalid]

/-! ## Doubles -/

/-- The same number: equal, or two zeros. -/
def Alike (x y : Float) : Prop := AlikeUnpacked x.toModel.unpack y.toModel.unpack

variable {x x' y y' : Float}

namespace Alike

/-- Every float is like itself. -/
theorem refl (x : Float) : Alike x x := AlikeUnpacked.refl _

/-- Alike is symmetric. -/
theorem symm (h : Alike x y) : Alike y x := AlikeUnpacked.symm h

/-- Alike is transitive. -/
theorem trans {z : Float} (h : Alike x y) (h' : Alike y z) : Alike x z := AlikeUnpacked.trans h h'

/-- Sums of alike floats are alike. -/
theorem add (h : Alike x x') (h' : Alike y y') : Alike (x + y) (x' + y') :=
  (AlikeUnpacked.add h h').pack

/-- Differences of alike floats are alike. -/
theorem sub (h : Alike x x') (h' : Alike y y') : Alike (x - y) (x' - y') :=
  (AlikeUnpacked.sub h h').pack

/-- Products of alike floats are alike. -/
theorem mul (h : Alike x x') (h' : Alike y y') : Alike (x * y) (x' * y') :=
  (AlikeUnpacked.mul h h').pack

/-- Negations of alike floats are alike. -/
theorem neg (h : Alike x x') : Alike (-x) (-x') := (AlikeUnpacked.neg h).pack

/-- Absolute values of alike floats are alike. -/
theorem abs (h : Alike x x') : Alike x.abs x'.abs := (AlikeUnpacked.abs h).pack

/-- Going through single precision keeps floats alike. -/
theorem single (h : Alike x x') : Alike (widen (narrow x)) (widen (narrow x')) := by
  have hnarrow : AlikeUnpacked (narrow x).toModel.unpack (narrow x').toModel.unpack :=
    (AlikeUnpacked.convert h).pack
  exact (AlikeUnpacked.convert hnarrow).pack

/-- Alike floats are ordered alike. -/
theorem lt_iff (h : Alike x x') (h' : Alike y y') : x < y ↔ x' < y' := by
  change decide ((x.toModel.unpack.compare y.toModel.unpack == some .lt) = true) = true ↔
    decide ((x'.toModel.unpack.compare y'.toModel.unpack == some .lt) = true) = true
  rw [AlikeUnpacked.compare_eq h h']

end Alike

/-- A float is packed back from its unpacked form. -/
theorem pack_unpack_toModel (x : Float) : Float.Model.pack x.toModel.unpack = x.toModel := by
  obtain ⟨⟨bits, hvalid⟩⟩ := x
  unfold Float.Model.pack Float.Model.unpack
  simp only [pack_unpack_of_valid hvalid]

/-- INTERNAL: floats are alike when their unpacked forms are. -/
theorem alike_of_unpacked (h : AlikeUnpacked a x.toModel.unpack) :
    Alike (.ofModel (.pack a)) x := by
  have hpack : AlikeUnpacked (Float.Model.unpack (.pack a))
      (Float.Model.unpack (.pack x.toModel.unpack)) := h.pack
  rw [pack_unpack_toModel] at hpack
  exact hpack

/-- One of the two zeros. -/
def IsZero (z : Float) : Prop := ∃ s, z.toModel.unpack = .zero s

variable {z : Float}

/-- Adding a zero of either sign gives a float like the one before. -/
theorem add_zero_alike (x : Float) (hz : IsZero z) : Alike (x + z) x := by
  obtain ⟨s, hs⟩ := hz
  change Alike (.ofModel (.pack (UnpackedFloat.add .binary64 x.toModel.unpack z.toModel.unpack))) x
  rw [hs]
  exact alike_of_unpacked (addZero_alike _ _)

/-- Subtracting a zero of either sign gives a float like the one before. -/
theorem sub_zero_alike (x : Float) (hz : IsZero z) : Alike (x - z) x := by
  obtain ⟨s, hs⟩ := hz
  change Alike (.ofModel (.pack (UnpackedFloat.sub .binary64 x.toModel.unpack z.toModel.unpack))) x
  rw [hs, sub_eq_add_neg]
  exact alike_of_unpacked (addZero_alike _ _)

/-- Multiplying by one gives a float like the one before. -/
theorem mul_one_alike (x : Float) {n : ℕ} (hz : z.toModel.unpack = unpackedOne n) :
    Alike (x * z) x := by
  change Alike (.ofModel (.pack (UnpackedFloat.mul .binary64 x.toModel.unpack z.toModel.unpack))) x
  have hcanonical : Canonical .binary64 x.toModel.unpack := canonical_unpack _
  rw [hz, mul_one_eq hcanonical]
  exact alike_of_unpacked (.refl _)

/-- Single-precision numbers stay as they are. -/
theorem single_single (x : Float) : widen (narrow (widen (narrow x))) = widen (narrow x) := by
  rw [narrow_widen]

/-- A number is equal to itself unless it is `NaN`. -/
theorem beq_self_iff (x : Float) : (x == x) = !x.toModel.isNaN := by
  change (x.toModel.unpack.compare x.toModel.unpack == some .eq) = !x.toModel.unpack.isNaN
  cases x.toModel.unpack with
  | finite s m e hm => cases s <;> simp [UnpackedFloat.compare, UnpackedFloat.isNaN]
  | infinity s => cases s <;> rfl
  | _ => rfl

/-- Of two alike floats both are numbers, or neither is. -/
theorem AlikeUnpacked.isNaN_eq (h : AlikeUnpacked a b) : a.isNaN = b.isNaN := by
  cases h <;> rfl

/-- Of two alike floats both are numbers, or neither is. -/
theorem Alike.isNaN_eq (h : Alike x y) : x.toModel.isNaN = y.toModel.isNaN :=
  AlikeUnpacked.isNaN_eq h

end CompilationFabric.Library.FloatArithmetic
