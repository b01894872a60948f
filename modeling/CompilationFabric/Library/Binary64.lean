import Mathlib.Data.Int.Log
import Mathlib.Data.Rat.Floor
import Mathlib.Algebra.Order.Field.Rat
import Mathlib.Tactic.FieldSimp
import Mathlib.Tactic.Linarith
import Mathlib.Tactic.NormNum
import Mathlib.Tactic.Ring

/-!
# Binary64 as rounded rationals

A finite double is a rational number that rounding to binary64 leaves alone, so the type
carries what makes it a double and no bit pattern has to be taken apart.  Rounding is to
nearest, ties to even, with 53 significant bits and a smallest exponent of `-1074`.  The
two zeros are one value here: nothing built on this library divides by a number or looks
at its sign bit.

`roundRat_of_eq` is the one fact about rounding the rest is derived from: a number with
an integer significand at an exponent not below the last place is a fixed point.

The conversions to integers are the x86-64 ones.  C++ leaves a conversion open when the
truncated value does not fit; the `cvttsd2si` instruction then gives the smallest
integer, and the unsigned conversion is built from it.
-/

set_option autoImplicit false

namespace CompilationFabric.Library.Binary64

/-! ## Rounding -/

/-- The nearest integer, ties to even. -/
def roundHalfEven (x : ℚ) : ℤ :=
  if Int.fract x < 1 / 2 then ⌊x⌋
  else if 1 / 2 < Int.fract x then ⌊x⌋ + 1
  else ⌊x⌋ + ⌊x⌋ % 2

/-- An integer is its own rounding. -/
@[simp] theorem roundHalfEven_intCast (n : ℤ) : roundHalfEven n = n := by
  simp [roundHalfEven]

/-- Rounding does not go below the floor. -/
theorem floor_le_roundHalfEven (x : ℚ) : ⌊x⌋ ≤ roundHalfEven x := by
  have hmod := Int.emod_nonneg ⌊x⌋ (show (2 : ℤ) ≠ 0 by decide)
  unfold roundHalfEven
  split_ifs <;> omega

/-- Rounding goes up by one from the floor at most. -/
theorem roundHalfEven_le_floor_add_one (x : ℚ) : roundHalfEven x ≤ ⌊x⌋ + 1 := by
  have hmod := Int.emod_lt_of_pos ⌊x⌋ (show (0 : ℤ) < 2 by decide)
  unfold roundHalfEven
  split_ifs <;> omega

/-- An integer bound from above holds of the rounding as well. -/
theorem roundHalfEven_le {x : ℚ} {n : ℤ} (h : x ≤ n) : roundHalfEven x ≤ n := by
  rcases lt_or_eq_of_le h with hlt | rfl
  · have hfloor : ⌊x⌋ < n := Int.floor_lt.mpr hlt
    have hle := roundHalfEven_le_floor_add_one x
    omega
  · rw [roundHalfEven_intCast]

/-- An integer bound from below holds of the rounding as well. -/
theorem le_roundHalfEven {x : ℚ} {n : ℤ} (h : (n : ℚ) ≤ x) : n ≤ roundHalfEven x :=
  (Int.le_floor.mpr h).trans (floor_le_roundHalfEven x)

/-- Less than a half above an integer is not rounded past it. -/
theorem roundHalfEven_le_of_lt_half {x : ℚ} {n : ℤ} (h : x < n + 1 / 2) : roundHalfEven x ≤ n := by
  rcases lt_or_ge ⌊x⌋ n with hlt | hge
  · have hle := roundHalfEven_le_floor_add_one x
    omega
  · have hxn : (⌊x⌋ : ℚ) ≤ x := Int.floor_le x
    have hfloor : ⌊x⌋ = n := by
      have : ⌊x⌋ < n + 1 := by
        rw [Int.floor_lt]
        push_cast
        linarith
      omega
    have hfract : Int.fract x < 1 / 2 := by
      rw [Int.fract, hfloor]
      linarith
    rw [roundHalfEven, if_pos hfract, hfloor]

/-- INTERNAL: a power of two is positive. -/
theorem two_zpow_pos (e : ℤ) : (0 : ℚ) < 2 ^ e := zpow_pos (by norm_num) e

/-- The exponent of the last place of a double of the magnitude of `q`. -/
def ulpExp (q : ℚ) : ℤ := max (Int.log 2 |q| - 52) (-1074)

/-- Rounding to 53 bits, before the overflow check. -/
def roundRat (q : ℚ) : ℚ := roundHalfEven (q / 2 ^ ulpExp q) * 2 ^ ulpExp q

/-- An integer significand at an exponent not below the last place rounds to itself. -/
theorem roundRat_of_eq {q : ℚ} {m e : ℤ} (hq : q = m * 2 ^ e) (he : ulpExp q ≤ e) :
    roundRat q = q := by
  have hint : q / 2 ^ ulpExp q = ((m * 2 ^ (e - ulpExp q).toNat : ℤ) : ℚ) := by
    have hsub : ((e - ulpExp q).toNat : ℤ) = e - ulpExp q := Int.toNat_of_nonneg (by omega)
    rw [div_eq_iff (two_zpow_pos _).ne']
    push_cast
    rw [← zpow_natCast, hsub, mul_assoc, ← zpow_add₀ (by norm_num), sub_add_cancel]
    exact hq
  have hne : (2 : ℚ) ^ ulpExp q ≠ 0 := (two_zpow_pos _).ne'
  rw [roundRat, hint, roundHalfEven_intCast, ← hint, div_mul_cancel₀ _ hne]

/-- A number is below `2 ^ 53` units in its last place. -/
theorem abs_lt_ulp (q : ℚ) : |q| < 2 ^ (ulpExp q + 53) := by
  have hlog := Int.lt_zpow_succ_log_self (b := 2) (by norm_num) |q|
  have hle : Int.log 2 |q| + 1 ≤ ulpExp q + 53 := by
    have := le_max_left (Int.log 2 |q| - 52) (-1074)
    rw [ulpExp]
    omega
  calc |q| < ((2 : ℕ) : ℚ) ^ (Int.log 2 |q| + 1) := hlog
    _ ≤ 2 ^ (ulpExp q + 53) := by
        rw [Nat.cast_ofNat]
        exact zpow_le_zpow_right₀ (by norm_num) hle

/-- The exponent of the last place is bounded by any exponent whose significands reach the
number. -/
theorem ulpExp_le {q : ℚ} {e : ℤ} (hq : q ≠ 0) (hlt : |q| < 2 ^ (e + 53)) (he : -1074 ≤ e) :
    ulpExp q ≤ e := by
  have hself := Int.zpow_log_le_self (b := 2) (by norm_num) (abs_pos.mpr hq)
  have hpow : ((2 : ℕ) : ℚ) ^ Int.log 2 |q| < ((2 : ℕ) : ℚ) ^ (e + 53) := by
    rw [Nat.cast_ofNat] at hself ⊢
    exact lt_of_le_of_lt hself hlt
  have hlog : Int.log 2 |q| < e + 53 := (zpow_lt_zpow_iff_right₀ (by norm_num)).mp hpow
  rw [ulpExp]
  omega

/-- The rounded significand has at most 53 bits, or is the next power of two. -/
theorem abs_significand_le (q : ℚ) : |roundHalfEven (q / 2 ^ ulpExp q)| ≤ 2 ^ 53 := by
  have hpos : (0 : ℚ) < 2 ^ ulpExp q := two_zpow_pos _
  have habs : |q / 2 ^ ulpExp q| < 2 ^ 53 := by
    rw [abs_div, abs_of_pos hpos, div_lt_iff₀ hpos]
    calc |q| < 2 ^ (ulpExp q + 53) := abs_lt_ulp q
      _ = 2 ^ 53 * 2 ^ ulpExp q := by
          rw [zpow_add₀ (by norm_num), mul_comm]
          norm_num
  rw [abs_lt] at habs
  rw [abs_le]
  constructor
  · exact le_roundHalfEven (by push_cast; exact habs.1.le)
  · exact roundHalfEven_le (by push_cast; exact habs.2.le)

/-- Rounding twice is rounding once. -/
theorem roundRat_roundRat (q : ℚ) : roundRat (roundRat q) = roundRat q := by
  set n := roundHalfEven (q / 2 ^ ulpExp q) with hn
  have hv : roundRat q = n * 2 ^ ulpExp q := rfl
  have hmin : -1074 ≤ ulpExp q := le_max_right _ _
  have hle : |n| ≤ 2 ^ 53 := abs_significand_le q
  by_cases hzero : n = 0
  · have hq0 : roundRat q = 0 := by rw [hv, hzero]; simp
    rw [hq0]
    simp [roundRat, roundHalfEven]
  have hvne : roundRat q ≠ 0 := by
    rw [hv]
    exact mul_ne_zero (by exact_mod_cast hzero) (two_zpow_pos _).ne'
  have hpos : (0 : ℚ) < 2 ^ ulpExp q := two_zpow_pos _
  have habs : |roundRat q| = |n| * 2 ^ ulpExp q := by
    rw [hv, abs_mul, abs_of_pos hpos, Int.cast_abs]
  rcases lt_or_eq_of_le hle with hlt | heq
  · apply roundRat_of_eq hv
    apply ulpExp_le hvne _ hmin
    have hltq : ((|n| : ℤ) : ℚ) < 2 ^ 53 := by exact_mod_cast hlt
    rw [habs, zpow_add₀ (by norm_num), mul_comm]
    exact mul_lt_mul_of_pos_left (by simpa using hltq) hpos
  · -- the significand rounded up to a power of two: one exponent higher, significand `±1`
    have hsign : (n : ℚ) = (n.sign : ℤ) * 2 ^ (53 : ℤ) := by
      have hsa := Int.sign_mul_abs n
      rw [heq] at hsa
      have hcast := congrArg (fun z : ℤ => (z : ℚ)) hsa
      push_cast at hcast
      rw [← hcast]
      norm_num
    have hv' : roundRat q = (n.sign : ℤ) * 2 ^ (ulpExp q + 53) := by
      rw [hv, hsign, zpow_add₀ (by norm_num)]
      ring
    apply roundRat_of_eq hv'
    apply ulpExp_le hvne _ (by omega)
    have heqq : ((|n| : ℤ) : ℚ) = 2 ^ (53 : ℤ) := by rw [heq]; norm_num
    rw [habs, heqq, ← zpow_add₀ (by norm_num)]
    exact zpow_lt_zpow_right₀ (by norm_num) (by omega)

/-- A power of two is an integer multiple of any smaller one. -/
theorem two_zpow_split {u e : ℤ} (h : u ≤ e) :
    (2 : ℚ) ^ e = ((2 ^ (e - u).toNat : ℤ) : ℚ) * 2 ^ u := by
  have hsub : ((e - u).toNat : ℤ) = e - u := Int.toNat_of_nonneg (by omega)
  push_cast
  rw [← zpow_natCast, hsub, ← zpow_add₀ (by norm_num), sub_add_cancel]

/-- Rounding does not leave a power of two it starts below. -/
theorem roundRat_le {q : ℚ} {e : ℤ} (he : 0 ≤ e) (hlo : -(2 ^ e) ≤ q) (hhi : q ≤ 2 ^ e) :
    roundRat q ≤ 2 ^ e ∧ -(2 ^ e) ≤ roundRat q := by
  have hulp : ulpExp q ≤ e := by
    by_cases hq : q = 0
    · rw [hq]
      simp [ulpExp]
      omega
    · apply ulpExp_le hq _ (by omega)
      calc |q| ≤ 2 ^ e := abs_le.mpr ⟨hlo, hhi⟩
        _ < 2 ^ (e + 53) := zpow_lt_zpow_right₀ (by norm_num) (by omega)
  have hpos := two_zpow_pos (ulpExp q)
  rw [two_zpow_split hulp] at hlo hhi ⊢
  rw [← neg_mul] at hlo ⊢
  have hup : roundHalfEven (q / 2 ^ ulpExp q) ≤ 2 ^ (e - ulpExp q).toNat :=
    roundHalfEven_le ((div_le_iff₀ hpos).mpr hhi)
  have hdown : -(2 ^ (e - ulpExp q).toNat) ≤ roundHalfEven (q / 2 ^ ulpExp q) :=
    le_roundHalfEven ((le_div_iff₀ hpos).mpr (by push_cast at hlo ⊢; exact hlo))
  rw [roundRat]
  constructor
  · exact mul_le_mul_of_nonneg_right (by exact_mod_cast hup) hpos.le
  · apply mul_le_mul_of_nonneg_right _ hpos.le
    have hcast : ((-(2 ^ (e - ulpExp q).toNat) : ℤ) : ℚ) ≤ roundHalfEven (q / 2 ^ ulpExp q) := by
      exact_mod_cast hdown
    push_cast at hcast ⊢
    exact hcast

/-- Rounding keeps the sign of a number that is not negative. -/
theorem roundRat_nonneg {q : ℚ} (h : 0 ≤ q) : 0 ≤ roundRat q := by
  have hpos := two_zpow_pos (ulpExp q)
  have hn : 0 ≤ roundHalfEven (q / 2 ^ ulpExp q) :=
    le_roundHalfEven (by rw [Int.cast_zero]; exact div_nonneg h hpos.le)
  exact mul_nonneg (by exact_mod_cast hn) hpos.le

/-- Rounding does not leave a power of two it starts above. -/
theorem le_roundRat {q : ℚ} {e : ℤ} (he : 0 ≤ e) (h : 2 ^ e ≤ q) : 2 ^ e ≤ roundRat q := by
  have hq0 : 0 < q := lt_of_lt_of_le (two_zpow_pos e) h
  have hpos := two_zpow_pos (ulpExp q)
  by_cases hle : ulpExp q ≤ e
  · rw [two_zpow_split hle] at h ⊢
    have hdown := le_roundHalfEven ((le_div_iff₀ hpos).mpr h)
    exact mul_le_mul_of_nonneg_right (by exact_mod_cast hdown) hpos.le
  · -- a last place above `2 ^ e` means the significand has 53 bits, so it is at least one
    have hlog : ulpExp q = Int.log 2 |q| - 52 := by
      rw [ulpExp] at hle ⊢
      omega
    have hself := Int.zpow_log_le_self (b := 2) (by norm_num) (abs_pos.mpr hq0.ne')
    rw [Nat.cast_ofNat, abs_of_pos hq0] at hself
    have hone : (1 : ℤ) ≤ roundHalfEven (q / 2 ^ ulpExp q) := by
      apply le_roundHalfEven
      rw [Int.cast_one, le_div_iff₀ hpos, one_mul]
      calc (2 : ℚ) ^ ulpExp q ≤ 2 ^ Int.log 2 q := by
            apply zpow_le_zpow_right₀ (by norm_num)
            rw [hlog, abs_of_pos hq0]
            omega
        _ ≤ q := hself
    calc (2 : ℚ) ^ e ≤ 2 ^ ulpExp q := zpow_le_zpow_right₀ (by norm_num) (by omega)
      _ = (1 : ℤ) * 2 ^ ulpExp q := by norm_num
      _ ≤ roundRat q := mul_le_mul_of_nonneg_right (by exact_mod_cast hone) hpos.le

/-- Rounding an integer gives an integer. -/
theorem roundRat_intCast (n : ℤ) : ∃ m : ℤ, roundRat n = m := by
  rcases le_total 0 (ulpExp (n : ℚ)) with h | h
  · refine ⟨roundHalfEven ((n : ℚ) / 2 ^ ulpExp (n : ℚ)) * 2 ^ (ulpExp (n : ℚ)).toNat, ?_⟩
    rw [roundRat]
    push_cast
    rw [← zpow_natCast, Int.toNat_of_nonneg h]
  · exact ⟨n, roundRat_of_eq (m := n) (e := 0) (by simp) h⟩

/-- A magnitude of at most 53 bits, shifted left, is represented exactly. -/
theorem roundRat_mul_two_pow {m : ℤ} {k : ℕ} (hm : |m| < 2 ^ 53) :
    roundRat ((m * 2 ^ k : ℤ) : ℚ) = ((m * 2 ^ k : ℤ) : ℚ) := by
  have hv : ((m * 2 ^ k : ℤ) : ℚ) = m * 2 ^ (k : ℤ) := by
    push_cast
    rw [zpow_natCast]
  by_cases hzero : ((m * 2 ^ k : ℤ) : ℚ) = 0
  · rw [hzero]
    simp [roundRat, roundHalfEven]
  apply roundRat_of_eq hv
  apply ulpExp_le hzero _ (by omega)
  have hltq : ((|m| : ℤ) : ℚ) < 2 ^ (53 : ℤ) := by
    rw [show (2 : ℚ) ^ (53 : ℤ) = ((2 ^ 53 : ℤ) : ℚ) by norm_num]
    exact_mod_cast hm
  rw [hv, abs_mul, abs_of_pos (two_zpow_pos _), zpow_add₀ (by norm_num), mul_comm, ← Int.cast_abs]
  exact mul_lt_mul_of_pos_left hltq (two_zpow_pos _)

/-! ## Doubles -/

/-- A finite double. -/
structure Finite where
  val : ℚ
  rounded : roundRat val = val
  bounded : |val| < 2 ^ (1024 : ℤ)
  deriving DecidableEq

/-- The value of a `double`, with the two zeros identified. -/
inductive Double where
  | finite (x : Finite)
  | inf (negative : Bool)
  | nan
  deriving DecidableEq

/-- The double nearest to a number. -/
def ofRat (q : ℚ) : Double :=
  if h : |roundRat q| < 2 ^ (1024 : ℤ) then .finite ⟨roundRat q, roundRat_roundRat q, h⟩
  else .inf (q < 0)

/-- `static_cast<double>` of an integer. -/
def ofInt (n : ℤ) : Double := ofRat n

/-- An integer that a double holds without rounding. -/
def Exact (n : ℤ) : Prop := roundRat n = n

instance (n : ℤ) : Decidable (Exact n) := inferInstanceAs (Decidable (_ = _))

/-- Truncation towards zero. -/
def trunc (q : ℚ) : ℤ := if 0 ≤ q then ⌊q⌋ else ⌈q⌉

/-- An integer is its own truncation. -/
@[simp] theorem trunc_intCast (n : ℤ) : trunc n = n := by
  simp [trunc]

/-- `static_cast<int64_t>`: the truncated value, or the smallest integer. -/
def toInt64 : Double → Int64
  | .finite x =>
      if -2 ^ 63 ≤ trunc x.val ∧ trunc x.val < 2 ^ 63 then Int64.ofInt (trunc x.val)
      else Int64.minValue
  | _ => Int64.minValue

/-- `static_cast<uint64_t>`: below `2 ^ 63` the signed conversion, and otherwise the signed
conversion of `d - 2 ^ 63` with its sign bit flipped. -/
def toUInt64 : Double → UInt64
  | .finite x =>
      if x.val < 2 ^ 63 then (toInt64 (.finite x)).toUInt64
      else if x.val < 2 ^ 64 then UInt64.ofInt (trunc x.val)
      else 0
  | .inf false => 0
  | _ => Int64.minValue.toUInt64

/-- `operator==` of doubles. -/
def Double.eq : Double → Double → Bool
  | .nan, _ => false
  | x, y => x = y

/-- A number between two powers of two in range rounds to a finite double. -/
theorem ofRat_of_bounded {q : ℚ} {e : ℕ} (he : e < 1024) (hlo : -(2 ^ (e : ℤ)) ≤ q)
    (hhi : q ≤ 2 ^ (e : ℤ)) :
    ∃ x : Finite, ofRat q = .finite x ∧ x.val = roundRat q := by
  have hround := roundRat_le (q := q) (e := e) (by omega) hlo hhi
  have hlt : |roundRat q| < 2 ^ (1024 : ℤ) := by
    calc |roundRat q| ≤ 2 ^ (e : ℤ) := abs_le.mpr ⟨hround.2, hround.1⟩
      _ < 2 ^ (1024 : ℤ) := zpow_lt_zpow_right₀ (by norm_num) (by omega)
  exact ⟨⟨roundRat q, roundRat_roundRat q, hlt⟩, dif_pos hlt, rfl⟩

/-- The double of a double's value is the double. -/
theorem ofRat_val (x : Finite) : ofRat x.val = .finite x := by
  have hlt : |roundRat x.val| < 2 ^ (1024 : ℤ) := by
    rw [x.rounded]
    exact x.bounded
  rw [ofRat, dif_pos hlt]
  congr 1
  cases x
  next hround _ => simp only [Finite.mk.injEq]; exact hround

/-- Every 64-bit integer is inside the finite range. -/
theorem ofInt_finite {n : ℤ} (hlo : -2 ^ 64 ≤ n) (hhi : n ≤ 2 ^ 64) :
    ∃ x : Finite, ofInt n = .finite x ∧ x.val = roundRat n := by
  apply ofRat_of_bounded (e := 64) (by omega)
  · rw [show -(2 : ℚ) ^ ((64 : ℕ) : ℤ) = ((-2 ^ 64 : ℤ) : ℚ) by norm_num]
    exact_mod_cast hlo
  · rw [show (2 : ℚ) ^ ((64 : ℕ) : ℤ) = ((2 ^ 64 : ℤ) : ℚ) by norm_num]
    exact_mod_cast hhi

/-- An integer in the range of `int64_t` is converted to itself. -/
theorem toInt64_of_val {x : Finite} {n : ℤ} (hx : x.val = n) (hlo : -2 ^ 63 ≤ n)
    (hhi : n < 2 ^ 63) : toInt64 (.finite x) = Int64.ofInt n := by
  rw [toInt64, hx, trunc_intCast, if_pos ⟨hlo, hhi⟩]

/-- From `2 ^ 63` on the conversion to `int64_t` gives the smallest value. -/
theorem toInt64_of_large {x : Finite} (hx : 2 ^ 63 ≤ x.val) :
    toInt64 (.finite x) = Int64.minValue := by
  have htrunc : 2 ^ 63 ≤ trunc x.val := by
    have hpos : 0 ≤ x.val := le_trans (by norm_num) hx
    rw [trunc, if_pos hpos, Int.le_floor]
    exact_mod_cast hx
  rw [toInt64, if_neg (by omega)]

/-- Reinterpreting a wrapped signed word is wrapping to the unsigned one. -/
theorem toUInt64_ofInt (n : ℤ) : (Int64.ofInt n).toUInt64 = UInt64.ofInt n := by
  apply UInt64.toNat_inj.mp
  have hleft : (Int64.ofInt n).toUInt64.toNat = (n % 2 ^ 64).toNat := BitVec.toNat_ofInt n
  have hlt : (n % 2 ^ 64).toNat < 2 ^ 64 := by omega
  rw [hleft, UInt64.ofInt, UInt64.toNat_ofNat', Nat.mod_eq_of_lt hlt]

/-- An integer in reach of `uint64_t` is converted modulo `2 ^ 64`. -/
theorem toUInt64_of_val {x : Finite} {n : ℤ} (hx : x.val = n) (hlo : -2 ^ 63 ≤ n)
    (hhi : n < 2 ^ 64) : toUInt64 (.finite x) = UInt64.ofInt n := by
  have hhiq : x.val < 2 ^ 64 := by
    rw [hx]
    exact_mod_cast hhi
  simp only [toUInt64]
  rcases lt_or_ge n (2 ^ 63) with hlt | hge
  · have hltq : x.val < 2 ^ 63 := by
      rw [hx]
      exact_mod_cast hlt
    rw [if_pos hltq, toInt64_of_val hx hlo hlt, toUInt64_ofInt]
  · have hgeq : ¬ x.val < 2 ^ 63 := by
      rw [hx, not_lt]
      exact_mod_cast hge
    rw [if_neg hgeq, if_pos hhiq, hx, trunc_intCast]

end CompilationFabric.Library.Binary64
