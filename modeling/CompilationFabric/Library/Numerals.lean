import CompilationFabric.Library.DecimalText

/-!
# Numbers in text, as the C library reads and prints them

`strtoull`, `strtoll` and `strtod` with the default locale, and the `%f` text of a `double`.  A
`double` is its bit pattern here, since the sign of a zero shows in its text and a number that
does not fit is an infinity: `toBits` and `ratOfBits` go between patterns and values.

The functions read the longest prefix that is a numeral and never fail: without one the result
is zero.  The payload of a NaN is not modelled.
-/

set_option autoImplicit false

namespace CompilationFabric.Library.Numerals

open Binary64 DecimalText

/-! ## Splitting -/

/-- `isspace`. -/
def isSpace (c : UInt8) : Bool := c = 32 || (9 ≤ c && c ≤ 13)

/-- What `>>` into a string extracts, until the stream ends. -/
def words (s : List UInt8) : List (List UInt8) := (s.splitOnP isSpace).filter (· ≠ [])

/-- What `getline` extracts, until the stream ends: a separator at the end ends the last part. -/
def getlines (sep : UInt8) (s : List UInt8) : List (List UInt8) :=
  let parts := s.splitOn sep
  if parts.getLast? = some [] then parts.dropLast else parts

/-! ## Integers -/

/-- The sign and the digits of an integer, behind white space. -/
def readInteger (s : List UInt8) : Bool × ℕ :=
  let (negative, s) := readSign (s.dropWhile isSpace)
  (negative, Positional.value 10 (spanDigits s).1)

/-- A negated numeral wraps around, one that does not fit is the largest number. -/
def strtoull (s : List UInt8) : UInt64 :=
  let (negative, v) := readInteger s
  if 2 ^ 64 ≤ v then UInt64.ofNat (2 ^ 64 - 1)
  else if negative then -UInt64.ofNat v else UInt64.ofNat v

/-- A numeral that does not fit is the nearest number that does. -/
def strtoll (s : List UInt8) : Int64 :=
  let (negative, v) := readInteger s
  Int64.ofInt (if negative then max (-v) (-2 ^ 63) else min v (2 ^ 63 - 1))

/-! ## Bit patterns -/

def signBit (negative : Bool) : ℕ := if negative then 2 ^ 63 else 0

/-- The pattern of a number: a fraction at the exponent of its last place, with the leading bit
left out unless the number is subnormal. -/
def finiteBits (q : ℚ) : ℕ :=
  let m := (|q| / 2 ^ ulpExp q).num.toNat
  if m < 2 ^ 52 then m else (ulpExp q + 1075).toNat * 2 ^ 52 + (m - 2 ^ 52)

def infBits : ℕ := 0x7FF0000000000000
def nanBits : ℕ := 0x7FF8000000000000

def toBits (negative : Bool) : Double → UInt64
  | .finite x => UInt64.ofNat (signBit negative + finiteBits x.val)
  | .inf _ => UInt64.ofNat (signBit negative + infBits)
  | .nan => UInt64.ofNat (signBit negative + nanBits)

def isNegative (b : UInt64) : Bool := 2 ^ 63 ≤ b.toNat

/-- The number that a pattern stands for, unless it is an infinity or no number. -/
def ratOfBits (b : UInt64) : Option ℚ :=
  let e : ℕ := b.toNat / 2 ^ 52 % 2 ^ 11
  let f : ℕ := b.toNat % 2 ^ 52
  if e = 2047 then none
  else
    let a : ℚ := if e = 0 then f * 2 ^ (-1074 : ℤ) else (2 ^ 52 + f) * 2 ^ ((e : ℤ) - 1075)
    some (if isNegative b then -a else a)

/-! ## Reading a double -/

def lower (c : UInt8) : UInt8 := if 65 ≤ c && c ≤ 90 then c + 32 else c

def inf : List UInt8 := [105, 110, 102]
def nan : List UInt8 := [110, 97, 110]

def isHexDigit (c : UInt8) : Bool := isDigit c || (97 ≤ lower c && lower c ≤ 102)

def hexDigitVal (c : UInt8) : ℕ := if isDigit c then digitVal c else (lower c).toNat - 87

def spanHexDigits (s : List UInt8) : List ℕ × List UInt8 :=
  ((s.takeWhile isHexDigit).map hexDigitVal, s.dropWhile isHexDigit)

/-- The binary exponent of a hexadecimal numeral. -/
def readBinaryExponent : List UInt8 → ℤ
  | c :: s =>
      if lower c = 112 then
        let (negative, s) := readSign s
        let v : ℤ := Positional.value 10 (spanDigits s).1
        if negative then -v else v
      else 0
  | [] => 0

/-- The value of a hexadecimal numeral, behind its `0x`. -/
def readHex (s : List UInt8) : Option ℚ :=
  let (ip, s) := spanHexDigits s
  let (fp, s) := match s with
    | c :: rest => if c = dot then spanHexDigits rest else ([], s)
    | [] => ([], [])
  if ip ++ fp = [] then none
  else some (Positional.value 16 (ip ++ fp) * 2 ^ (readBinaryExponent s - 4 * fp.length))

/-- A numeral without its sign. -/
def readUnsigned (s : List UInt8) : Option Double :=
  if (s.take 3).map lower = inf then some (.inf false)
  else if (s.take 3).map lower = nan then some .nan
  else
    let hex := match s with
      | c :: x :: rest => if c = digitChar 0 ∧ lower x = 120 then readHex rest else none
      | _ => none
    match hex, s with
    | some q, _ => some (ofRat q)
    | none, c :: _ => if c = minus ∨ c = plus then none else DecimalText.strtod s
    | none, [] => none

/-- The pattern of the double that a text begins with. -/
def strtod (s : List UInt8) : UInt64 :=
  let (negative, s) := readSign (s.dropWhile isSpace)
  match readUnsigned s with
  | some d => toBits negative d
  | none => 0

/-! ## Printing a double -/

/-- The number rounded to six decimals. -/
def fixedDigits (a : ℚ) : List UInt8 :=
  let m := (roundHalfEven (a * 10 ^ 6)).toNat
  natText (m / 10 ^ 6) ++ dot :: (Positional.digits 10 6 (m % 10 ^ 6)).map digitChar

/-- `%f`. -/
def fixedText (b : UInt64) : List UInt8 :=
  let text := match ratOfBits b with
    | some q => fixedDigits |q|
    | none => if b.toNat % 2 ^ 52 = 0 then inf else nan
  if isNegative b then minus :: text else text

/-! ## Parts of a text -/

/-- The part in front of a separator is extracted first. -/
theorem getlines_cons {sep : UInt8} {part : List UInt8} (hpart : sep ∉ part) (rest : List UInt8) :
    getlines sep (part ++ sep :: rest) = part :: getlines sep rest := by
  have hno : ∀ c ∈ part, (c == sep) = false := by
    intro c hc
    rw [beq_eq_false_iff_ne]
    rintro rfl
    exact hpart hc
  have hsplit : (part ++ sep :: rest).splitOn sep = part :: rest.splitOn sep := by
    simp only [List.splitOn_eq_splitOnP]
    exact List.splitOnP_append_cons_of_forall_mem hno sep (by simp) rest
  obtain ⟨first, more, hrest⟩ := List.exists_cons_of_ne_nil (List.splitOn_ne_nil sep rest)
  unfold getlines
  simp only [hsplit, hrest, List.getLast?_cons_cons]
  split
  · rfl
  · rfl

/-- A text without a separator is one part. -/
theorem getlines_singleton {sep : UInt8} {part : List UInt8} (hpart : sep ∉ part)
    (hne : part ≠ []) : getlines sep part = [part] := by
  unfold getlines
  simp only [List.splitOn_eq_singleton hpart, List.getLast?_singleton, Option.some_inj, hne,
    if_false]

/-- There is a word unless all is white space. -/
theorem words_eq_nil_iff {s : List UInt8} : words s = [] ↔ ∀ c ∈ s, isSpace c = true := by
  unfold words
  induction s with
  | nil => simp
  | cons c s ih =>
      rw [List.forall_mem_cons, ← ih, List.splitOnP_cons_eq_if_modifyHead]
      by_cases hspace : isSpace c = true
      · simp [hspace]
      · obtain ⟨part, parts, hparts⟩ := List.exists_cons_of_ne_nil (List.splitOnP_ne_nil isSpace s)
        simp [hspace, hparts]

/-- INTERNAL: a part is no longer than the text. -/
theorem length_le_of_mem_splitOnP {p : UInt8 → Bool} {s part : List UInt8}
    (h : part ∈ s.splitOnP p) : part.length ≤ s.length := by
  induction s generalizing part with
  | nil =>
      rw [List.splitOnP_nil, List.mem_singleton] at h
      rw [h]
  | cons c s ih =>
      rw [List.splitOnP_cons_eq_if_modifyHead] at h
      split at h
      · rcases List.mem_cons.mp h with rfl | h
        · exact Nat.zero_le _
        · exact (ih h).trans (Nat.le_succ _)
      · obtain ⟨first, parts, hparts⟩ := List.exists_cons_of_ne_nil (List.splitOnP_ne_nil p s)
        rw [hparts, List.modifyHead_cons] at h
        rcases List.mem_cons.mp h with rfl | h
        · exact Nat.succ_le_succ (ih (hparts ▸ List.mem_cons_self))
        · exact (ih (hparts ▸ List.mem_cons_of_mem _ h)).trans (Nat.le_succ _)

/-- INTERNAL: a text has at most one part more than bytes. -/
theorem length_splitOnP_le (p : UInt8 → Bool) (s : List UInt8) :
    (s.splitOnP p).length ≤ s.length + 1 := by
  induction s with
  | nil => exact le_rfl
  | cons c s ih =>
      rw [List.splitOnP_cons_eq_if_modifyHead]
      split
      · exact Nat.succ_le_succ ih
      · rw [List.length_modifyHead]
        exact ih.trans (Nat.le_succ _)

/-- A word is no longer than the text. -/
theorem length_le_of_mem_words {s word : List UInt8} (h : word ∈ words s) :
    word.length ≤ s.length :=
  length_le_of_mem_splitOnP (List.mem_filter.mp h).1

/-- A line is no longer than the text. -/
theorem length_le_of_mem_getlines {sep : UInt8} {s line : List UInt8} (h : line ∈ getlines sep s) :
    line.length ≤ s.length := by
  have hmem : line ∈ s.splitOn sep := by
    unfold getlines at h
    dsimp only at h
    split at h
    · exact List.mem_of_mem_dropLast h
    · exact h
  exact length_le_of_mem_splitOnP hmem

/-- A text has at most one line more than bytes. -/
theorem length_getlines_le (sep : UInt8) (s : List UInt8) :
    (getlines sep s).length ≤ s.length + 1 := by
  have hparts : (s.splitOn sep).length ≤ s.length + 1 := length_splitOnP_le _ s
  unfold getlines
  dsimp only
  split
  · rw [List.length_dropLast]
    omega
  · exact hparts

/-! ## Reading what was written -/

/-- The text of a number has digits only. -/
theorem isDigit_of_mem_natText {n : ℕ} {c : UInt8} (h : c ∈ natText n) : isDigit c = true := by
  obtain ⟨d, hd, rfl⟩ := List.mem_map.mp h
  exact isDigit_digitChar (natText_digits_lt n d hd)

/-- INTERNAL: a digit is no white space. -/
theorem isSpace_digitChar {d : ℕ} (h : d < 10) : isSpace (digitChar d) = false := by
  have hall : ∀ m : Fin 10, isSpace (digitChar m) = false := by decide
  exact hall ⟨d, h⟩

/-- An integer is read back from its sign and its digits. -/
theorem readInteger_natText (negative : Bool) (n : ℕ) :
    readInteger (if negative then minus :: natText n else natText n) = (negative, n) := by
  obtain ⟨d, ds, hd, hcons⟩ := natText_cons n
  have hspan : spanDigits (natText n) = (Positional.digits 10 (Nat.log 10 n + 1) n, []) := by
    have h := spanDigits_map (natText_digits_lt n) stopsDigits_nil
    rwa [List.append_nil] at h
  have hspace : (if negative then minus :: natText n else natText n).dropWhile isSpace =
      if negative then minus :: natText n else natText n := by
    cases negative with
    | true => exact List.dropWhile_cons_of_neg (by decide)
    | false =>
        rw [hcons]
        apply List.dropWhile_cons_of_neg
        rw [isSpace_digitChar hd]
        exact Bool.false_ne_true
  have hsign : readSign (if negative then minus :: natText n else natText n) =
      (negative, natText n) := by
    cases negative with
    | true => rfl
    | false => rw [hcons]; exact readSign_digitChar hd ds
  unfold readInteger
  rw [hspace, hsign]
  simp only [hspan, value_natText]

/-- A number in range is read back from its text. -/
theorem strtoull_natText {n : ℕ} (h : n < 2 ^ 64) : strtoull (natText n) = UInt64.ofNat n := by
  have hread := readInteger_natText false n
  rw [if_neg Bool.false_ne_true] at hread
  unfold strtoull
  simp only [hread, if_neg (not_le.mpr h), Bool.false_eq_true, if_false]

/-- INTERNAL: a natural number wraps in the same way either way. -/
theorem ofInt_natCast (n : ℕ) : UInt64.ofInt (n : ℤ) = UInt64.ofNat n := by
  apply UInt64.toNat_inj.mp
  have hleft : (UInt64.ofInt (n : ℤ)).toNat = ((n : ℤ) % 2 ^ 64).toNat % 2 ^ 64 :=
    UInt64.toNat_ofNat'
  rw [hleft, UInt64.toNat_ofNat']
  omega

/-- A signed integer, read as an unsigned one. -/
theorem strtoull_intText {z : ℤ} (hlo : -2 ^ 63 ≤ z) (hhi : z < 2 ^ 63) :
    strtoull (intText z) = (Int64.ofInt z).toUInt64 := by
  have hread := readInteger_natText (decide (z < 0)) z.natAbs
  have htext : intText z =
      if decide (z < 0) = true then minus :: natText z.natAbs else natText z.natAbs := by
    simp only [decide_eq_true_eq, intText]
  rw [← htext] at hread
  unfold strtoull
  simp only [hread]
  rw [if_neg (by omega), toUInt64_ofInt]
  by_cases hz : z < 0
  · have hneg : z = -(z.natAbs : ℤ) := by omega
    simp only [hz, decide_true, if_true]
    conv_rhs => rw [hneg, UInt64.ofInt_neg, ofInt_natCast]
  · have hnonneg : z = (z.natAbs : ℤ) := by omega
    simp only [hz, decide_false, Bool.false_eq_true, if_false]
    conv_rhs => rw [hnonneg, ofInt_natCast]

/-- What the text of a double does not have in it. -/
theorem not_mem_fixedText {c : UInt8} (b : UInt64) (hdigit : isDigit c = false)
    (hother : c ∉ minus :: dot :: (inf ++ nan)) : c ∉ fixedText b := by
  have hfixed : ∀ a, c ∉ fixedDigits a := by
    intro a h
    unfold fixedDigits at h
    rw [List.mem_append, List.mem_cons] at h
    obtain h | rfl | h := h
    · rw [isDigit_of_mem_natText h] at hdigit
      cases hdigit
    · exact hother (by simp)
    · obtain ⟨d, hd, rfl⟩ := List.mem_map.mp h
      rw [isDigit_digitChar (Positional.mem_digits_lt (by norm_num) hd)] at hdigit
      cases hdigit
  have htext : ∀ text : List UInt8, c ∉ text →
      c ∉ if isNegative b then minus :: text else text := by
    intro text htext
    split
    · rw [List.mem_cons, not_or]
      exact ⟨fun h => hother (by simp [h]), htext⟩
    · exact htext
  unfold fixedText
  apply htext
  split
  · exact hfixed _
  · intro h
    apply hother
    split at h
    · simp [h]
    · simp [h]

end CompilationFabric.Library.Numerals
