import CompilationFabric.Library.Numerals

/-!
# Fixed notation read back

`strtod` gives back the double whose `%f` text denotes it exactly (`strtod_fixedText`).

A pattern is its sign, its exponent field and its fraction.  The number it stands for has its last
place where the exponent field says (`ulpExp_magnitude`), so rounding leaves it alone and
`finiteBits` finds the two fields again; and six decimals without a remainder are the number
itself (`strtod_fixedDigits`).
-/

set_option autoImplicit false

namespace CompilationFabric.Library.Numerals

open Binary64 DecimalText

/-! ## The fields of a pattern -/

def exponentField (b : UInt64) : ℕ := b.toNat / 2 ^ 52 % 2 ^ 11

def fractionField (b : UInt64) : ℕ := b.toNat % 2 ^ 52

/-- The number of a pattern without its sign, by its exponent field and its fraction. -/
def magnitude (e f : ℕ) : ℚ :=
  if e = 0 then f * 2 ^ (-1074 : ℤ) else (2 ^ 52 + f) * 2 ^ ((e : ℤ) - 1075)

/-- A pattern is its three fields. -/
theorem toNat_eq_fields (b : UInt64) :
    b.toNat = signBit (isNegative b) + (exponentField b * 2 ^ 52 + fractionField b) := by
  have hlt := b.toNat_lt
  unfold signBit isNegative exponentField fractionField
  simp only [decide_eq_true_eq]
  split
  · omega
  · omega

/-- INTERNAL: the range of the fraction field. -/
theorem fractionField_lt (b : UInt64) : fractionField b < 2 ^ 52 := Nat.mod_lt _ (by norm_num)

/-- INTERNAL: the range of the exponent field. -/
theorem exponentField_lt (b : UInt64) : exponentField b < 2048 := Nat.mod_lt _ (by norm_num)

/-- The value of a pattern by its fields. -/
theorem ratOfBits_eq (b : UInt64) :
    ratOfBits b =
      if exponentField b = 2047 then none
      else
        some (if isNegative b then -magnitude (exponentField b) (fractionField b)
          else magnitude (exponentField b) (fractionField b)) := by
  unfold ratOfBits magnitude
  rfl

variable {e f : ℕ}

/-- INTERNAL: magnitudes are not negative. -/
theorem magnitude_nonneg : 0 ≤ magnitude e f := by
  have hf : (0 : ℚ) ≤ f := Nat.cast_nonneg f
  unfold magnitude
  split
  · exact mul_nonneg hf (two_zpow_pos _).le
  · exact mul_nonneg (by linarith) (two_zpow_pos _).le

/-- The sign of a pattern is not in its magnitude. -/
theorem abs_ratOfBits {b : UInt64} {q : ℚ} (h : ratOfBits b = some q) :
    exponentField b ≠ 2047 ∧ |q| = magnitude (exponentField b) (fractionField b) := by
  have habs := abs_of_nonneg (magnitude_nonneg (e := exponentField b) (f := fractionField b))
  rw [ratOfBits_eq] at h
  split at h
  · cases h
  · next hfinite =>
    cases h
    refine ⟨hfinite, ?_⟩
    split
    · rw [abs_neg, habs]
    · exact habs

/-! ## From a number to its fields -/

/-- The significand of a pattern, at its exponent. -/
theorem magnitude_eq (hf : f < 2 ^ 52) :
    ∃ m : ℕ, m < 2 ^ 53 ∧ magnitude e f = m * 2 ^ (max ((e : ℤ) - 1075) (-1074)) := by
  unfold magnitude
  split
  · next he =>
    refine ⟨f, by omega, ?_⟩
    rw [he]
    norm_num
  · next he =>
    refine ⟨2 ^ 52 + f, by omega, ?_⟩
    rw [max_eq_left (by omega)]
    push_cast
    rfl

/-- The last place is where the exponent field says. -/
theorem ulpExp_magnitude (hf : f < 2 ^ 52) (hne : magnitude e f ≠ 0) :
    ulpExp (magnitude e f) = max ((e : ℤ) - 1075) (-1074) := by
  obtain ⟨m, hm, heq⟩ := magnitude_eq (e := e) hf
  apply le_antisymm
  · apply ulpExp_le hne _ (le_max_right _ _)
    have hmq : (m : ℚ) < 2 ^ 53 := by exact_mod_cast hm
    rw [abs_of_nonneg magnitude_nonneg, heq, zpow_add₀ (by norm_num), mul_comm]
    exact mul_lt_mul_of_pos_left hmq (two_zpow_pos _)
  · apply max_le _ (le_max_right _ _)
    by_cases he : e = 0
    · rw [he]
      exact le_trans (by norm_num) (le_max_right _ _)
    · have hlow : ((2 : ℕ) : ℚ) ^ ((e : ℤ) - 1023) ≤ |magnitude e f| := by
        rw [abs_of_nonneg magnitude_nonneg, Nat.cast_ofNat, magnitude, if_neg he,
          show (e : ℤ) - 1023 = 52 + ((e : ℤ) - 1075) by ring, zpow_add₀ (by norm_num)]
        apply mul_le_mul_of_nonneg_right _ (two_zpow_pos _).le
        have hpos : (0 : ℚ) ≤ f := Nat.cast_nonneg f
        linarith
      have hlog := (Int.zpow_le_iff_le_log (by norm_num) (abs_pos.mpr hne)).mp hlow
      apply le_trans _ (le_max_left _ _)
      omega

/-- A pattern's number is a double. -/
theorem roundRat_magnitude (hf : f < 2 ^ 52) : roundRat (magnitude e f) = magnitude e f := by
  by_cases hne : magnitude e f = 0
  · rw [hne]
    simp [roundRat, roundHalfEven]
  · obtain ⟨m, -, heq⟩ := magnitude_eq (e := e) hf
    exact roundRat_of_eq (m := m) (by exact_mod_cast heq) (ulpExp_magnitude hf hne).le

/-- Every finite magnitude is below `2 ^ 1024`. -/
theorem magnitude_lt (he : e < 2047) (hf : f < 2 ^ 52) : magnitude e f < 2 ^ (1024 : ℤ) := by
  obtain ⟨m, hm, heq⟩ := magnitude_eq (e := e) hf
  have hmq : (m : ℚ) < 2 ^ (53 : ℤ) := by exact_mod_cast hm
  calc magnitude e f = m * 2 ^ (max ((e : ℤ) - 1075) (-1074)) := heq
    _ < 2 ^ (53 : ℤ) * 2 ^ (max ((e : ℤ) - 1075) (-1074)) :=
        mul_lt_mul_of_pos_right hmq (two_zpow_pos _)
    _ = 2 ^ (53 + max ((e : ℤ) - 1075) (-1074)) := by rw [zpow_add₀ (by norm_num)]
    _ ≤ 2 ^ (1024 : ℤ) := zpow_le_zpow_right₀ (by norm_num) (by omega)

/-- Only the two fields of zero have the magnitude zero. -/
theorem magnitude_eq_zero_iff : magnitude e f = 0 ↔ e = 0 ∧ f = 0 := by
  unfold magnitude
  split
  · next he => simp [he]
  · next he =>
    have hf : (0 : ℚ) ≤ f := Nat.cast_nonneg f
    have hne : (2 ^ 52 + (f : ℚ)) * 2 ^ ((e : ℤ) - 1075) ≠ 0 :=
      (mul_pos (by linarith) (two_zpow_pos _)).ne'
    simp only [he, hne, false_and]

/-- The fields are found again. -/
theorem finiteBits_magnitude (hf : f < 2 ^ 52) :
    finiteBits (magnitude e f) = e * 2 ^ 52 + f := by
  by_cases hzero : magnitude e f = 0
  · obtain ⟨rfl, rfl⟩ := magnitude_eq_zero_iff.mp hzero
    rw [hzero]
    simp [finiteBits]
  · have hulp := ulpExp_magnitude hf hzero
    have hpow : (2 : ℚ) ^ ulpExp (magnitude e f) ≠ 0 := (two_zpow_pos _).ne'
    have hsignificand :
        (|magnitude e f| / 2 ^ ulpExp (magnitude e f)).num.toNat =
          if e = 0 then f else 2 ^ 52 + f := by
      have hquot : |magnitude e f| / 2 ^ ulpExp (magnitude e f) =
          ((if e = 0 then f else 2 ^ 52 + f : ℕ) : ℚ) := by
        rw [abs_of_nonneg magnitude_nonneg, div_eq_iff hpow, hulp, magnitude]
        split
        · next he => simp [he]
        · next he =>
          rw [max_eq_left (by omega)]
          push_cast
          rfl
      rw [hquot, Rat.num_natCast, Int.toNat_natCast]
    unfold finiteBits
    simp only [hsignificand]
    rw [hulp]
    by_cases he : e = 0
    · rw [if_pos he, if_pos hf, he]
      omega
    · rw [if_neg he, if_neg (by omega), max_eq_left (by omega)]
      omega

/-- A pattern is the one of its number. -/
theorem toBits_abs {b : UInt64} {q : ℚ} (h : ratOfBits b = some q) :
    toBits (isNegative b) (ofRat |q|) = b := by
  obtain ⟨hfinite, habs⟩ := abs_ratOfBits h
  have hf := fractionField_lt b
  have he : exponentField b < 2047 := by
    have := exponentField_lt b
    omega
  have hbound : abs (roundRat |q|) < 2 ^ (1024 : ℤ) := by
    rw [habs, roundRat_magnitude hf, abs_of_nonneg magnitude_nonneg]
    exact magnitude_lt he hf
  rw [ofRat, dif_pos hbound, toBits]
  apply UInt64.toNat_inj.mp
  simp only [habs, roundRat_magnitude hf, finiteBits_magnitude hf, ← toNat_eq_fields]
  rw [UInt64.ofNat_toNat]

/-! ## From a text to its number -/

/-- Digits and a point are neither a name nor a hexadecimal numeral. -/
theorem readUnsigned_of_decimal {s : List UInt8} (hs : ∀ c ∈ s, isDigit c = true ∨ c = dot) :
    readUnsigned s = DecimalText.strtod s := by
  have hlower : ∀ c ∈ s, lower c = c ∧ c.toNat < 58 ∧ c ≠ minus ∧ c ≠ plus := by
    intro c hc
    obtain h | rfl := hs c hc
    · simp only [isDigit, Bool.and_eq_true, decide_eq_true_eq, UInt8.le_iff_toNat_le] at h
      have hlo : 48 ≤ c.toNat := h.1
      have hhi : c.toNat ≤ 57 := h.2
      refine ⟨?_, by omega, ?_, ?_⟩
      · unfold lower
        rw [if_neg]
        simp only [Bool.and_eq_true, decide_eq_true_eq, UInt8.le_iff_toNat_le, not_and]
        intro h65
        have h65 : 65 ≤ c.toNat := h65
        omega
      · rintro rfl
        exact absurd hlo (by decide)
      · rintro rfl
        exact absurd hlo (by decide)
    · decide
  cases s with
  | nil => rfl
  | cons c s =>
      obtain ⟨hc, hlt, hminus, hplus⟩ := hlower c List.mem_cons_self
      have hname : ∀ d rest, 58 ≤ d.toNat → ((c :: s).take 3).map lower ≠ d :: rest := by
        intro d rest hd h
        rw [List.take_succ_cons, List.map_cons, hc] at h
        injection h with h
        rw [h] at hlt
        omega
      have hinf : ((c :: s).take 3).map lower ≠ inf := hname 105 _ (by decide)
      have hnan : ((c :: s).take 3).map lower ≠ nan := hname 110 _ (by decide)
      unfold readUnsigned
      rw [if_neg hinf, if_neg hnan]
      cases s with
      | nil => exact if_neg (not_or.mpr ⟨hminus, hplus⟩)
      | cons x s =>
          obtain ⟨hx, hxlt, -⟩ := hlower x (List.mem_cons_of_mem _ List.mem_cons_self)
          have hhex : ¬ (c = digitChar 0 ∧ lower x = 120) := by
            rw [hx]
            rintro ⟨-, rfl⟩
            exact absurd hxlt (by decide)
          simp only [if_neg hhex]
          exact if_neg (not_or.mpr ⟨hminus, hplus⟩)

/-- The text of a magnitude has digits and a point only. -/
theorem decimal_of_mem_fixedDigits {a : ℚ} {c : UInt8} (h : c ∈ fixedDigits a) :
    isDigit c = true ∨ c = dot := by
  unfold fixedDigits at h
  rw [List.mem_append, List.mem_cons] at h
  obtain h | h | h := h
  · exact Or.inl (isDigit_of_mem_natText h)
  · exact Or.inr h
  · obtain ⟨d, hd, rfl⟩ := List.mem_map.mp h
    exact Or.inl (isDigit_digitChar (Positional.mem_digits_lt (by norm_num) hd))

/-- Six decimals without a remainder are the number. -/
theorem strtod_fixedDigits {a : ℚ} {m : ℕ} (ha : a * 10 ^ 6 = m) :
    DecimalText.strtod (fixedDigits a) = some (ofRat a) := by
  have hround : (roundHalfEven (a * 10 ^ 6)).toNat = m := by
    have hcast : a * 10 ^ 6 = ((m : ℤ) : ℚ) := by rw [ha, Int.cast_natCast]
    rw [hcast, roundHalfEven_intCast, Int.toNat_natCast]
  set ip := Positional.digits 10 (Nat.log 10 (m / 10 ^ 6) + 1) (m / 10 ^ 6) with hip
  set fp := Positional.digits 10 6 (m % 10 ^ 6) with hfp
  have htext : fixedDigits a = ip.map digitChar ++ dot :: fp.map digitChar := by
    simp only [fixedDigits, hround]
    rfl
  obtain ⟨d, ds, hd, hcons⟩ := natText_cons (m / 10 ^ 6)
  have hsign : readSign (fixedDigits a) = (false, fixedDigits a) := by
    have hfirst : fixedDigits a = digitChar d :: (ds ++ dot :: fp.map digitChar) := by
      rw [htext, ← List.cons_append, ← hcons]
      rfl
    rw [hfirst]
    exact readSign_digitChar hd _
  have hspan : spanDigits (fixedDigits a) = (ip, dot :: fp.map digitChar) := by
    rw [htext]
    exact spanDigits_map (natText_digits_lt _) (stopsDigits_cons rfl)
  have hfraction : readFraction (dot :: fp.map digitChar) = (fp, []) := by
    have hdigits : ∀ d ∈ fp, d < 10 := fun _ hd => Positional.mem_digits_lt (by norm_num) hd
    have h := spanDigits_map hdigits stopsDigits_nil
    rw [List.append_nil] at h
    rw [readFraction, if_pos rfl, h]
  have hlength : fp.length = 6 := Positional.length_digits 10 6 _
  have hvalue : Positional.value 10 (ip ++ fp) = m := by
    rw [Positional.value_append, hlength, hip, value_natText, hfp,
      Positional.value_digits_of_lt (Nat.mod_lt _ (by norm_num))]
    exact Nat.div_add_mod' m _
  have hne : ip ++ fp ≠ [] := by
    intro h
    have := congrArg List.length h
    rw [List.length_append, hlength] at this
    cases this
  have hnumber : (m : ℚ) * 10 ^ (0 - ((6 : ℕ) : ℤ)) = a := by
    rw [← ha]
    norm_num
    ring
  unfold DecimalText.strtod
  simp only [hsign, hspan, hfraction, if_neg hne, hvalue, readExponent, hlength, hnumber,
    Bool.false_eq_true, if_false]

/-! ## The round trip -/

/-- The `%f` text of a pattern denotes exactly what the pattern stands for: six decimals are
enough, or it is an infinity. -/
def PrintsExactly (b : UInt64) : Prop :=
  match ratOfBits b with
  | some q => ∃ z : ℤ, q * 10 ^ 6 = z
  | none => fractionField b = 0

/-- A sign in front of an unsigned numeral. -/
theorem strtod_sign {text : List UInt8} {d : Double} (negative : Bool)
    (hfirst : ∀ c ∈ text.head?, isSpace c = false ∧ c ≠ minus ∧ c ≠ plus)
    (hread : readUnsigned text = some d) :
    strtod (if negative then minus :: text else text) = toBits negative d := by
  have hspace : (if negative then minus :: text else text).dropWhile isSpace =
      if negative then minus :: text else text := by
    cases negative with
    | true => exact List.dropWhile_cons_of_neg (by decide)
    | false =>
        cases text with
        | nil => rfl
        | cons c text =>
            apply List.dropWhile_cons_of_neg
            rw [(hfirst c rfl).1]
            exact Bool.false_ne_true
  have hsign : readSign (if negative then minus :: text else text) = (negative, text) := by
    cases negative with
    | true => rfl
    | false =>
        cases text with
        | nil => rfl
        | cons c text =>
            obtain ⟨-, hminus, hplus⟩ := hfirst c rfl
            exact (if_neg hminus).trans (if_neg hplus)
  unfold strtod
  rw [hspace, hsign]
  simp only [hread]

/-- What is printed exactly is read back, with the sign of a zero. -/
theorem strtod_fixedText {b : UInt64} (h : PrintsExactly b) : strtod (fixedText b) = b := by
  cases hq : ratOfBits b with
  | some q =>
      simp only [PrintsExactly, hq] at h
      obtain ⟨z, hz⟩ := h
      have habs : |q| * 10 ^ 6 = (z.natAbs : ℚ) := by
        rw [Nat.cast_natAbs, Int.cast_abs, ← hz, abs_mul]
        norm_num
      have hread : readUnsigned (fixedDigits |q|) = some (ofRat |q|) := by
        rw [readUnsigned_of_decimal fun c hc => decimal_of_mem_fixedDigits hc]
        exact strtod_fixedDigits habs
      obtain ⟨d, ds, hd, hcons⟩ :=
        natText_cons ((roundHalfEven (|q| * 10 ^ 6)).toNat / 10 ^ 6)
      have hfirst : ∀ c ∈ (fixedDigits |q|).head?, isSpace c = false ∧ c ≠ minus ∧ c ≠ plus := by
        unfold fixedDigits
        dsimp only
        rw [hcons]
        intro c hc
        cases hc
        refine ⟨isSpace_digitChar hd, ?_, ?_⟩
        · intro heq
          have := isDigit_digitChar hd
          rw [heq] at this
          cases this
        · intro heq
          have := isDigit_digitChar hd
          rw [heq] at this
          cases this
      simp only [fixedText, hq]
      rw [strtod_sign (isNegative b) hfirst hread, toBits_abs hq]
  | none =>
      simp only [PrintsExactly, hq] at h
      have hinf : exponentField b = 2047 := by
        rw [ratOfBits_eq] at hq
        by_contra hne
        rw [if_neg hne] at hq
        cases hq
      have hfraction : b.toNat % 2 ^ 52 = 0 := h
      have hfields := toNat_eq_fields b
      rw [h, hinf] at hfields
      simp only [fixedText, hq]
      have hfirst : ∀ c ∈ inf.head?, isSpace c = false ∧ c ≠ minus ∧ c ≠ plus := by
        intro c hc
        cases hc
        exact ⟨by decide, by decide, by decide⟩
      have hread : readUnsigned inf = some (.inf false) := if_pos (by decide)
      rw [if_pos hfraction, strtod_sign (isNegative b) hfirst hread, toBits]
      apply UInt64.toNat_inj.mp
      have hlt := b.toNat_lt
      rw [UInt64.toNat_ofNat', hfields]
      unfold infBits
      omega

end CompilationFabric.Library.Numerals
