import CompilationFabric.Library.Positional
import CompilationFabric.Library.Binary64
import Mathlib.Data.List.TakeWhile

/-!
# Decimal text

The decimal text of integers and of doubles, as C and C++ streams write it, and its
reading by `strtod`.

* `natText` and `intText` are the shortest decimal numerals.
* `gText` is `%g` with its default precision of six significant digits: fixed notation
  for decimal exponents from `-4` to `5`, scientific notation otherwise, and no trailing
  zeros.
* `strtod` converts the longest prefix of a text that is a decimal numeral.

`strtod_intText` and `strtod_gTextPos` say what comes back, and `ofRat_sixDigits` which large
numbers come back unchanged.
-/

set_option autoImplicit false

namespace CompilationFabric.Library.DecimalText

open Binary64

/-! ## Characters -/

/-- The character of a decimal digit. -/
def digitChar (d : ℕ) : UInt8 := UInt8.ofNat (48 + d)

def isDigit (c : UInt8) : Bool := 48 ≤ c && c ≤ 57

/-- The value of a digit character. -/
def digitVal (c : UInt8) : ℕ := c.toNat - 48

def minus : UInt8 := 45
def plus : UInt8 := 43
def dot : UInt8 := 46
def lowerE : UInt8 := 101
def upperE : UInt8 := 69

/-- INTERNAL: the byte of a digit. -/
theorem toNat_digitChar {d : ℕ} (h : d < 10) : (digitChar d).toNat = 48 + d := by
  rw [digitChar, UInt8.toNat_ofNat']
  omega

/-- The byte of a digit is a digit. -/
@[simp] theorem isDigit_digitChar {d : ℕ} (h : d < 10) : isDigit (digitChar d) = true := by
  have hnat := toNat_digitChar h
  simp only [isDigit, Bool.and_eq_true, decide_eq_true_eq, UInt8.le_iff_toNat_le, hnat]
  exact ⟨Nat.le_add_right 48 d, show 48 + d ≤ 57 by omega⟩

/-- The byte of a digit has its value. -/
theorem digitVal_digitChar {d : ℕ} (h : d < 10) : digitVal (digitChar d) = d := by
  rw [digitVal, toNat_digitChar h]
  omega

/-! ## Writing -/

/-- The shortest decimal numeral of a natural number. -/
def natText (n : ℕ) : List UInt8 :=
  (Positional.digits 10 (Nat.log 10 n + 1) n).map digitChar

/-- The shortest decimal numeral of an integer. -/
def intText (z : ℤ) : List UInt8 :=
  if z < 0 then minus :: natText z.natAbs else natText z.natAbs

/-- The digits without trailing zeros. -/
def stripZeros (ds : List ℕ) : List ℕ := (ds.reverse.dropWhile (· == 0)).reverse

/-- A decimal point and the digits after it, or nothing when only zeros are left. -/
def fraction (ds : List ℕ) : List UInt8 :=
  match stripZeros ds with
  | [] => []
  | d :: ds => dot :: (d :: ds).map digitChar

/-- Six significant digits and the decimal exponent of the first, rounding half to even. -/
def sixDigits (a : ℚ) : ℕ × ℤ :=
  let x := Int.log 10 a
  let m := (roundHalfEven (a / 10 ^ (x - 5))).toNat
  if m = 10 ^ 6 then (10 ^ 5, x + 1) else (m, x)

/-- The exponent field: a sign and at least two digits. -/
def exponentText (x : ℤ) : List UInt8 :=
  (if x < 0 then minus else plus) ::
    (if x.natAbs < 10 then digitChar 0 :: natText x.natAbs else natText x.natAbs)

/-- `%g` of a positive number. -/
def gTextPos (a : ℚ) : List UInt8 :=
  let (m, x) := sixDigits a
  let ds := Positional.digits 10 6 m
  if -4 ≤ x ∧ x < 6 then
    if 0 ≤ x then (ds.take (x.toNat + 1)).map digitChar ++ fraction (ds.drop (x.toNat + 1))
    else digitChar 0 :: fraction (List.replicate (-x - 1).toNat 0 ++ ds)
  else
    (ds.take 1).map digitChar ++ fraction (ds.drop 1) ++ lowerE :: exponentText x

/-- `%g` of a number. -/
def gText (q : ℚ) : List UInt8 :=
  if q = 0 then [digitChar 0] else if q < 0 then minus :: gTextPos (-q) else gTextPos q

/-! ## Reading -/

/-- The leading digits and what follows them. -/
def spanDigits (s : List UInt8) : List ℕ × List UInt8 :=
  ((s.takeWhile isDigit).map digitVal, s.dropWhile isDigit)

/-- An optional sign. -/
def readSign : List UInt8 → Bool × List UInt8
  | c :: s => if c = minus then (true, s) else if c = plus then (false, s) else (false, c :: s)
  | [] => (false, [])

/-- An optional decimal point with the digits after it. -/
def readFraction : List UInt8 → List ℕ × List UInt8
  | c :: s => if c = dot then spanDigits s else ([], c :: s)
  | [] => ([], [])

/-- An optional exponent; one without digits is not part of the numeral. -/
def readExponent : List UInt8 → ℤ
  | c :: s =>
      if c = lowerE ∨ c = upperE then
        let (negative, s) := readSign s
        let (ds, _) := spanDigits s
        if negative then -(Positional.value 10 ds : ℤ) else Positional.value 10 ds
      else 0
  | [] => 0

/-- The value of the longest prefix that is a decimal numeral, or nothing when no digit
comes first. -/
def strtod (s : List UInt8) : Option Double :=
  let (negative, s) := readSign s
  let (ip, s) := spanDigits s
  let (fp, s) := readFraction s
  if ip ++ fp = [] then none
  else
    let v : ℚ := Positional.value 10 (ip ++ fp) * 10 ^ (readExponent s - fp.length)
    some (ofRat (if negative then -v else v))

/-! ## Reading what was written -/

/-- The digits are read up to the first byte that is none. -/
theorem spanDigits_map {ds : List ℕ} {s : List UInt8} (h : ∀ d ∈ ds, d < 10)
    (hs : ∀ c ∈ s.head?, isDigit c = false) :
    spanDigits (ds.map digitChar ++ s) = (ds, s) := by
  have hdig : ∀ c ∈ ds.map digitChar, isDigit c = true := by
    intro c hc
    obtain ⟨d, hd, rfl⟩ := List.mem_map.mp hc
    exact isDigit_digitChar (h d hd)
  have htail : s.takeWhile isDigit = [] ∧ s.dropWhile isDigit = s := by
    cases s with
    | nil => simp
    | cons c s =>
        have hc : isDigit c = false := hs c (by simp)
        simp [hc]
  rw [spanDigits, List.takeWhile_append_of_pos hdig, List.dropWhile_append_of_pos hdig,
    htail.1, htail.2, List.append_nil, List.map_map]
  congr 1
  conv_rhs => rw [← List.map_id ds]
  apply List.map_congr_left
  intro d hd
  exact digitVal_digitChar (h d hd)

/-- INTERNAL: the decimal digits of a number are below ten. -/
theorem natText_digits_lt (n : ℕ) : ∀ d ∈ Positional.digits 10 (Nat.log 10 n + 1) n, d < 10 :=
  fun _ hd => Positional.mem_digits_lt (by norm_num) hd

/-- The decimal digits of a number have its value. -/
theorem value_natText (n : ℕ) :
    Positional.value 10 (Positional.digits 10 (Nat.log 10 n + 1) n) = n :=
  Positional.value_digits_of_lt (Nat.lt_pow_succ_log_self (by norm_num) n)

/-- A numeral starts with a digit. -/
theorem natText_cons (n : ℕ) : ∃ d ds, d < 10 ∧ natText n = digitChar d :: ds := by
  refine ⟨n / 10 ^ Nat.log 10 n % 10, _, Nat.mod_lt _ (by norm_num), rfl⟩

/-- Different numbers have different texts. -/
theorem natText_injective : Function.Injective natText := by
  refine Function.LeftInverse.injective (g := fun s => Positional.value 10 (spanDigits s).1)
    fun n => ?_
  have h := spanDigits_map (s := []) (natText_digits_lt n) (by simp)
  rw [List.append_nil] at h
  dsimp only
  rw [natText, h, value_natText]

/-- In front of a digit stands no sign. -/
theorem readSign_digitChar {d : ℕ} (h : d < 10) (s : List UInt8) :
    readSign (digitChar d :: s) = (false, digitChar d :: s) := by
  have hnat := toNat_digitChar h
  have hminus : digitChar d ≠ minus := by
    intro heq
    rw [heq] at hnat
    have : minus.toNat = 45 := rfl
    omega
  have hplus : digitChar d ≠ plus := by
    intro heq
    rw [heq] at hnat
    have : plus.toNat = 43 := rfl
    omega
  rw [readSign, if_neg hminus, if_neg hplus]

/-- A text whose first character is no digit. -/
def StopsDigits (s : List UInt8) : Prop := ∀ c ∈ s.head?, isDigit c = false

/-- INTERNAL: digits stop at the end of the text. -/
theorem stopsDigits_nil : StopsDigits [] := by simp [StopsDigits]

/-- INTERNAL: digits stop in front of any other byte. -/
theorem stopsDigits_cons {c : UInt8} {s : List UInt8} (h : isDigit c = false) :
    StopsDigits (c :: s) := by
  simpa [StopsDigits] using h

/-- A natural number reads back as the nearest double, with either sign. -/
theorem strtod_natText (negative : Bool) (n : ℕ) :
    strtod (if negative then minus :: natText n else natText n) =
      some (ofRat (if negative then -(n : ℚ) else n)) := by
  obtain ⟨d, ds, hd, hcons⟩ := natText_cons n
  have hsign : readSign (if negative then minus :: natText n else natText n) =
      (negative, natText n) := by
    cases negative with
    | true => simp [readSign]
    | false => rw [hcons]; exact readSign_digitChar hd ds
  have hspan : spanDigits (natText n) =
      (Positional.digits 10 (Nat.log 10 n + 1) n, []) := by
    have h := spanDigits_map (natText_digits_lt n) stopsDigits_nil
    rwa [List.append_nil] at h
  have hne : Positional.digits 10 (Nat.log 10 n + 1) n ≠ [] := by simp [Positional.digits]
  rw [strtod, hsign]
  simp only [hspan, readFraction, List.append_nil, if_neg hne, readExponent, value_natText,
    List.length_nil]
  cases negative <;> norm_num

/-- An integer reads back as the nearest double. -/
theorem strtod_intText (z : ℤ) : strtod (intText z) = some (ofInt z) := by
  have h := strtod_natText (decide (z < 0)) z.natAbs
  have habs : (z.natAbs : ℚ) = |(z : ℚ)| := by
    rw [Nat.cast_natAbs, Int.cast_abs]
  by_cases hz : z < 0
  · have hzq : (z : ℚ) < 0 := by exact_mod_cast hz
    simp only [hz, decide_true, if_true, habs, abs_of_neg hzq, neg_neg] at h
    rw [intText, if_pos hz, ofInt]
    exact h
  · have hzq : (0 : ℚ) ≤ z := by exact_mod_cast not_lt.mp hz
    simp only [hz, decide_false, Bool.false_eq_true, if_false, habs, abs_of_nonneg hzq] at h
    rw [intText, if_neg hz, ofInt]
    exact h

/-! ## Reading scientific notation -/

/-- Trailing zeros are all that `stripZeros` takes off. -/
theorem stripZeros_append (ds : List ℕ) :
    ∃ k, ds = stripZeros ds ++ List.replicate k 0 := by
  refine ⟨(ds.reverse.takeWhile (· == 0)).length, ?_⟩
  have hzeros : ds.reverse.takeWhile (· == 0) =
      List.replicate (ds.reverse.takeWhile (· == 0)).length 0 := by
    apply List.eq_replicate_of_mem
    intro d hd
    simpa using List.mem_takeWhile_imp hd
  have hsplit := List.takeWhile_append_dropWhile (p := (· == 0)) (l := ds.reverse)
  have hrev := congrArg List.reverse hsplit
  rw [List.reverse_append, List.reverse_reverse, hzeros, List.reverse_replicate] at hrev
  exact hrev.symm

/-- What is left without the trailing zeros was there before. -/
theorem mem_stripZeros {ds : List ℕ} {d : ℕ} (h : d ∈ stripZeros ds) : d ∈ ds := by
  obtain ⟨k, hk⟩ := stripZeros_append ds
  rw [hk]
  exact List.mem_append_left _ h

/-- A fraction is read back without its trailing zeros. -/
theorem readFraction_fraction {ds : List ℕ} {s : List UInt8} (h : ∀ d ∈ ds, d < 10)
    (hs : StopsDigits s) (hdot : s.head? ≠ some dot) :
    readFraction (fraction ds ++ s) = (stripZeros ds, s) := by
  have hlt : ∀ d ∈ stripZeros ds, d < 10 := fun d hd => h d (mem_stripZeros hd)
  unfold fraction
  split
  · next hnil =>
    rw [hnil, List.nil_append]
    cases s with
    | nil => rfl
    | cons c s =>
        have hc : c ≠ dot := fun heq => hdot (by rw [heq]; rfl)
        rw [readFraction, if_neg hc]
  · next d ds' hcons =>
    rw [hcons, List.cons_append, readFraction, if_pos rfl]
    rw [hcons] at hlt
    exact spanDigits_map hlt hs

/-- INTERNAL: a fraction stops the digits in front of it. -/
theorem stopsDigits_fraction {ds : List ℕ} {s : List UInt8} (hs : StopsDigits s) :
    StopsDigits (fraction ds ++ s) := by
  unfold fraction
  split
  · exact hs
  · exact stopsDigits_cons rfl

/-- An exponent is read back from its text. -/
theorem readExponent_exponentText (x : ℤ) : readExponent (lowerE :: exponentText x) = x := by
  have hdigits : spanDigits (if x.natAbs < 10 then digitChar 0 :: natText x.natAbs
      else natText x.natAbs) =
        ((if x.natAbs < 10 then [0] else []) ++
          Positional.digits 10 (Nat.log 10 x.natAbs + 1) x.natAbs, []) := by
    split
    · have hlt : ∀ d ∈ 0 :: Positional.digits 10 (Nat.log 10 x.natAbs + 1) x.natAbs, d < 10 := by
        intro d hd
        rcases List.mem_cons.mp hd with rfl | hd
        · norm_num
        · exact natText_digits_lt _ d hd
      have h := spanDigits_map hlt stopsDigits_nil
      rwa [List.append_nil] at h
    · have h := spanDigits_map (natText_digits_lt x.natAbs) stopsDigits_nil
      rwa [List.append_nil] at h
  have hvalue : Positional.value 10 ((if x.natAbs < 10 then [0] else []) ++
      Positional.digits 10 (Nat.log 10 x.natAbs + 1) x.natAbs) = x.natAbs := by
    split
    · rw [List.singleton_append, Positional.value_cons, Nat.zero_mul, Nat.zero_add, value_natText]
    · rw [List.nil_append, value_natText]
  rw [readExponent, if_pos (Or.inl rfl), exponentText]
  by_cases hx : x < 0
  · simp only [if_pos hx, readSign, if_true, hdigits, hvalue]
    omega
  · have hplus : plus ≠ minus := by decide
    simp only [if_neg hx, readSign, if_neg hplus, if_true, hdigits, hvalue, Bool.false_eq_true,
      if_false]
    omega

/-- The six digits are below a million. -/
theorem sixDigits_lt (a : ℚ) : (sixDigits a).1 < 10 ^ 6 := by
  have hpos : (0 : ℚ) < 10 ^ (Int.log 10 a - 5) := zpow_pos (by norm_num) _
  have hlog := Int.lt_zpow_succ_log_self (b := 10) (by norm_num) a
  have hle : roundHalfEven (a / 10 ^ (Int.log 10 a - 5)) ≤ 10 ^ 6 := by
    apply roundHalfEven_le
    rw [div_le_iff₀ hpos]
    calc a ≤ ((10 : ℕ) : ℚ) ^ (Int.log 10 a + 1) := hlog.le
      _ = ((10 ^ 6 : ℤ) : ℚ) * 10 ^ (Int.log 10 a - 5) := by
          rw [Nat.cast_ofNat, show Int.log 10 a + 1 = 6 + (Int.log 10 a - 5) by ring,
            zpow_add₀ (by norm_num)]
          norm_num
  rw [sixDigits]
  split
  · norm_num
  · simp only
    omega

/-- INTERNAL: zeros have the value zero. -/
theorem value_replicate_zero (k : ℕ) : Positional.value 10 (List.replicate k 0) = 0 := by
  induction k with
  | zero => rfl
  | succ k ih => rw [List.replicate_succ, Positional.value_cons, ih, Nat.zero_mul]

/-- Scientific notation reads back as the six digits at their exponent. -/
theorem strtod_gTextPos (a : ℚ) (negative : Bool)
    (hsci : ¬ (-4 ≤ (sixDigits a).2 ∧ (sixDigits a).2 < 6)) :
    strtod (if negative then minus :: gTextPos a else gTextPos a) =
      some (ofRat (if negative then -((sixDigits a).1 * 10 ^ ((sixDigits a).2 - 5))
        else (sixDigits a).1 * 10 ^ ((sixDigits a).2 - 5))) := by
  have hm := sixDigits_lt a
  set m := (sixDigits a).1 with hmdef
  set x := (sixDigits a).2 with hxdef
  obtain ⟨d, rest, hcons⟩ : ∃ d rest, Positional.digits 10 6 m = d :: rest := ⟨_, _, rfl⟩
  have hlt : ∀ e ∈ d :: rest, e < 10 := by
    rw [← hcons]
    exact fun e he => Positional.mem_digits_lt (by norm_num) he
  have hd : d < 10 := hlt d (by simp)
  have hlen : rest.length = 5 := by
    have h := Positional.length_digits 10 6 m
    rw [hcons] at h
    simpa using h
  have htext : gTextPos a =
      [d].map digitChar ++ (fraction rest ++ lowerE :: exponentText x) := by
    have hpair : sixDigits a = (m, x) := rfl
    rw [gTextPos, hpair]
    simp only [if_neg hsci, hcons, List.take_succ_cons, List.take_zero, List.drop_succ_cons,
      List.drop_zero, List.append_assoc]
  have hexp : StopsDigits (lowerE :: exponentText x) := stopsDigits_cons rfl
  have hsign : readSign (if negative then minus :: gTextPos a else gTextPos a) =
      (negative, gTextPos a) := by
    cases negative with
    | true => simp [readSign]
    | false => rw [htext]; exact readSign_digitChar hd _
  have hspan : spanDigits (gTextPos a) = ([d], fraction rest ++ lowerE :: exponentText x) := by
    rw [htext]
    exact spanDigits_map (by simpa using hd) (stopsDigits_fraction hexp)
  have hfrac : readFraction (fraction rest ++ lowerE :: exponentText x) =
      (stripZeros rest, lowerE :: exponentText x) :=
    readFraction_fraction (fun e he => hlt e (by simp [he])) hexp (by simp [lowerE, dot])
  obtain ⟨k, hk⟩ := stripZeros_append rest
  have hks : (stripZeros rest).length + k = 5 := by
    have h := congrArg List.length hk
    rw [hlen, List.length_append, List.length_replicate] at h
    exact h.symm
  have hm' : m = Positional.value 10 ([d] ++ stripZeros rest) * 10 ^ k := by
    calc m = Positional.value 10 (d :: rest) := by
          rw [← hcons, Positional.value_digits_of_lt hm]
      _ = Positional.value 10 ([d] ++ stripZeros rest ++ List.replicate k 0) := by
          rw [List.append_assoc, ← hk, List.singleton_append]
      _ = Positional.value 10 ([d] ++ stripZeros rest) * 10 ^ k := by
          rw [Positional.value_append, value_replicate_zero, List.length_replicate, Nat.add_zero]
  have hvalue : (Positional.value 10 ([d] ++ stripZeros rest) : ℚ) *
      10 ^ (x - (stripZeros rest).length) = m * 10 ^ (x - 5) := by
    have hexp' : x - ((stripZeros rest).length : ℤ) = k + (x - 5) := by omega
    rw [hm', hexp', zpow_add₀ (by norm_num), zpow_natCast]
    push_cast
    ring
  rw [strtod, hsign]
  simp only [hspan, hfrac, readExponent_exponentText, hvalue]
  rw [if_neg (by simp)]

/-! ## Numbers of six significant digits -/

/-- A number whose digits after the sixth are zeros. -/
def SixDigits (n : ℤ) : Prop := ∃ (m : ℤ) (k : ℕ), 0 ≤ m ∧ m < 10 ^ 6 ∧ n = m * 10 ^ k

/-- Below `2 ^ 64` such a number is a double. -/
theorem SixDigits.exact {n : ℤ} (h : SixDigits n) (hn : n < 2 ^ 64) : Exact n := by
  obtain ⟨m, k, hm0, hm, rfl⟩ := h
  have hsplit : m * 10 ^ k = m * 5 ^ k * 2 ^ k := by
    rw [mul_assoc, ← mul_pow]
    norm_num
  have hsig : m * 5 ^ k < 2 ^ 53 := by
    rcases le_total k 11 with hk | hk
    · have hpow : (5 : ℤ) ^ k ≤ 5 ^ 11 := pow_le_pow_right₀ (by norm_num) hk
      calc m * 5 ^ k ≤ 10 ^ 6 * 5 ^ 11 := by gcongr
        _ < 2 ^ 53 := by norm_num
    · have hpow : (2 : ℤ) ^ 11 ≤ 2 ^ k := pow_le_pow_right₀ (by norm_num) hk
      have hle : m * 5 ^ k * 2 ^ 11 ≤ m * 5 ^ k * 2 ^ k := by gcongr
      rw [hsplit] at hn
      omega
  rw [Exact, hsplit]
  exact roundRat_mul_two_pow (by rwa [abs_of_nonneg (by positivity)])

/-- A double from `2 ^ 63` to `2 ^ 64` has nineteen or twenty digits. -/
theorem log_ten_large {a : ℚ} (hlo : 2 ^ 63 ≤ a) (hhi : a ≤ 2 ^ 64) :
    (Int.log 10 a = 18 ∧ a < 10 ^ 19) ∨ (Int.log 10 a = 19 ∧ (10 : ℚ) ^ 19 ≤ a) := by
  have hpos : 0 < a := lt_of_lt_of_le (by norm_num) hlo
  have h18 : 18 ≤ Int.log 10 a :=
    (Int.zpow_le_iff_le_log (by norm_num) hpos).mp (le_trans (by norm_num) hlo)
  have h20 : Int.log 10 a < 20 :=
    (Int.lt_zpow_iff_log_lt (by norm_num) hpos).mp (lt_of_le_of_lt hhi (by norm_num))
  have h19 : a < 10 ^ 19 ↔ Int.log 10 a < 19 := by
    rw [← Int.lt_zpow_iff_log_lt (by norm_num) hpos]
    norm_num
  rcases lt_or_ge a (10 ^ 19) with h | h
  · have := h19.mp h
    exact Or.inl ⟨by omega, h⟩
  · have : ¬ Int.log 10 a < 19 := fun hl => absurd (h19.mpr hl) (not_lt.mpr h)
    exact Or.inr ⟨by omega, h⟩

/-- The six digits with a known decimal exponent; rounding up may carry into a seventh. -/
theorem sixDigits_of_log {a : ℚ} {i : ℕ} (hlog : Int.log 10 a = i + 5) :
    sixDigits a =
      if (roundHalfEven (a / 10 ^ i)).toNat = 10 ^ 6 then (10 ^ 5, ((i + 1 : ℕ) : ℤ) + 5)
      else ((roundHalfEven (a / 10 ^ i)).toNat, (i : ℤ) + 5) := by
  have hround : a / 10 ^ (Int.log 10 a - 5) = a / 10 ^ i := by
    rw [hlog, add_sub_cancel_right, zpow_natCast]
  rw [sixDigits, hround, hlog]
  push_cast
  rw [add_right_comm]

/-- The six digits of a number between `2 ^ 63` and `2 ^ 64`, and the power of ten behind them. -/
theorem sixDigits_large {a : ℚ} (hlo : 2 ^ 63 ≤ a) (hhi : a ≤ 2 ^ 64) :
    ∃ (m j i : ℕ), sixDigits a = (m, (j : ℤ) + 5) ∧ m < 10 ^ 6 ∧ j ≤ 14 ∧ m * 10 ^ j < 2 ^ 64 ∧
      (10 : ℚ) ^ (i + 5) ≤ a ∧ a < 10 ^ (i + 6) ∧
      (m : ℤ) * 10 ^ j = roundHalfEven (a / 10 ^ i) * 10 ^ i := by
  have hm := sixDigits_lt a
  rcases log_ten_large hlo hhi with ⟨hlog, hlt⟩ | ⟨hlog, hge⟩
  · have hnonneg : 0 ≤ roundHalfEven (a / 10 ^ 13) :=
      le_roundHalfEven (by push_cast; positivity)
    have hsix := sixDigits_of_log (i := 13) hlog
    have hlow : (10 : ℚ) ^ (13 + 5) ≤ a := le_trans (by norm_num) hlo
    by_cases hcarry : (roundHalfEven (a / 10 ^ 13)).toNat = 10 ^ 6
    · refine ⟨10 ^ 5, 14, 13, ?_, by norm_num, by norm_num, by norm_num, hlow, hlt, ?_⟩
      · rw [hsix, if_pos hcarry]
      · have hval : roundHalfEven (a / 10 ^ 13) = 10 ^ 6 := by omega
        rw [hval]
        norm_num
    · have heq : sixDigits a = ((roundHalfEven (a / 10 ^ 13)).toNat, ((13 : ℕ) : ℤ) + 5) := by
        rw [hsix, if_neg hcarry]
      rw [heq] at hm
      refine ⟨_, 13, 13, heq, hm, by norm_num, ?_, hlow, hlt, ?_⟩
      · simp only at hm
        omega
      · rw [Int.toNat_of_nonneg hnonneg]
  · have hnonneg : 0 ≤ roundHalfEven (a / 10 ^ 14) :=
      le_roundHalfEven (by push_cast; positivity)
    have hsix := sixDigits_of_log (i := 14) hlog
    have hsmall : roundHalfEven (a / 10 ^ 14) ≤ 184467 := by
      apply roundHalfEven_le_of_lt_half
      rw [div_lt_iff₀ (by norm_num)]
      exact lt_of_le_of_lt hhi (by norm_num)
    have hcarry : ¬ (roundHalfEven (a / 10 ^ 14)).toNat = 10 ^ 6 := by omega
    have heq : sixDigits a = ((roundHalfEven (a / 10 ^ 14)).toNat, ((14 : ℕ) : ℤ) + 5) := by
      rw [hsix, if_neg hcarry]
    refine ⟨_, 14, 14, heq, by omega, by norm_num, by omega, hge, ?_, ?_⟩
    · exact lt_of_le_of_lt hhi (by norm_num)
    · rw [Int.toNat_of_nonneg hnonneg]

/-- The double that the six significant digits of a number from `2 ^ 63` on denote: a number
of six digits, and the number itself when that is one. -/
theorem ofRat_sixDigits {a : ℚ} (hlo : 2 ^ 63 ≤ a) (hhi : a ≤ 2 ^ 64) :
    ∃ (y : Finite) (v : ℤ), ofRat ((sixDigits a).1 * 10 ^ ((sixDigits a).2 - 5)) = .finite y ∧
      y.val = v ∧ 0 < v ∧ v < 2 ^ 64 ∧ Exact v ∧ SixDigits v ∧ ∀ n : ℤ, a = n → SixDigits n → v = n := by
  obtain ⟨m, j, i, hsix, hm, hj, hlt, hilo, hihi, hround⟩ := sixDigits_large hlo hhi
  have hv : ((sixDigits a).1 : ℚ) * 10 ^ ((sixDigits a).2 - 5) = ((m * 10 ^ j : ℤ) : ℚ) := by
    rw [hsix]
    push_cast
    rw [add_sub_cancel_right, zpow_natCast]
  have hbound : (m * 10 ^ j : ℤ) < 2 ^ 64 := by exact_mod_cast hlt
  have hdigits : SixDigits (m * 10 ^ j : ℤ) := ⟨m, j, by omega, by exact_mod_cast hm, rfl⟩
  have hexact : Exact (m * 10 ^ j : ℤ) := hdigits.exact hbound
  have hpos : (0 : ℤ) < m * 10 ^ j := by
    have hfive : (10 : ℤ) ^ 5 ≤ roundHalfEven (a / 10 ^ i) := by
      refine le_roundHalfEven ?_
      rw [le_div_iff₀ (by positivity)]
      calc (((10 : ℤ) ^ 5 : ℤ) : ℚ) * 10 ^ i = 10 ^ (i + 5) := by push_cast; ring
        _ ≤ a := hilo
    rw [hround]
    positivity
  obtain ⟨y, hy, hval⟩ := ofInt_finite (n := m * 10 ^ j) (by omega) (by omega)
  refine ⟨y, m * 10 ^ j, ?_, ?_, hpos, hbound, hexact, hdigits, ?_⟩
  · rw [hv]
    exact hy
  · rw [hval]
    exact hexact
  · rintro n rfl ⟨m', k, hm0, hm', rfl⟩
    -- the number has its last significant digit at `10 ^ i` or above
    have hik : i ≤ k := by
      by_contra hki
      have hle : (m' * 10 ^ k : ℤ) < 10 ^ (i + 5) := by
        calc (m' * 10 ^ k : ℤ) < 10 ^ 6 * 10 ^ k := by gcongr
          _ = 10 ^ (k + 6) := by ring
          _ ≤ 10 ^ (i + 5) := pow_le_pow_right₀ (by norm_num) (by omega)
      have hle' : ((m' * 10 ^ k : ℤ) : ℚ) < 10 ^ (i + 5) := by exact_mod_cast hle
      exact absurd hilo (not_le.mpr hle')
    have hdiv : ((m' * 10 ^ k : ℤ) : ℚ) / 10 ^ i = ((m' * 10 ^ (k - i) : ℤ) : ℚ) := by
      rw [div_eq_iff (by positivity)]
      push_cast
      rw [mul_assoc, ← pow_add, Nat.sub_add_cancel hik]
    rw [hdiv, roundHalfEven_intCast] at hround
    rw [hround, mul_assoc, ← pow_add, Nat.sub_add_cancel hik]

end CompilationFabric.Library.DecimalText
