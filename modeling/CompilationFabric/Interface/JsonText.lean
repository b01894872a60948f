import CompilationFabric.Model.Json

/-!
# JSON text read back

`Json.parse` inverts `Json.dump` except in numbers: a number comes back as the double its
printed text denotes, which is `rereadNumber`.  The statement is about every value whose
objects are in key order, as a `std::map` keeps them, and whose numbers are finite.

The induction is over the value, its elements and its members together, as `dump` recurs.
`Follows` is what a caller has to know of the text behind a value: a number would otherwise
run on into it.
-/

set_option autoImplicit false

namespace CompilationFabric.Interface

open CompilationFabric.Library
open CompilationFabric.Library.Binary64 (Double Finite ofInt toInt64)
open CompilationFabric.Library.DecimalText
open CompilationFabric.Model
open CompilationFabric.Model.Json

/-! ## What comes back -/

/-- The double a printed number denotes. -/
def rereadNumber (d : Double) : Double := (strtod (dumpNumber d)).getD d

mutual

/-- A value with every number replaced by what its text denotes. -/
def reread : Json → Json
  | .null => .null
  | .boolean b => .boolean b
  | .number d => .number (rereadNumber d)
  | .str s => .str s
  | .array a => .array (rereadElements a)
  | .object o => .object (rereadMembers o)

def rereadElements : List Json → List Json
  | [] => []
  | e :: es => reread e :: rereadElements es

def rereadMembers : List (Bytes × Json) → List (Bytes × Json)
  | [] => []
  | (k, v) :: o => (k, reread v) :: rereadMembers o

end

mutual

/-- Numbers are finite and members are in key order. -/
def Printable : Json → Prop
  | .number d => ∃ x : Finite, d = .finite x
  | .array a => PrintableElements a
  | .object o => PrintableMembers o
  | _ => True

def PrintableElements : List Json → Prop
  | [] => True
  | e :: es => Printable e ∧ PrintableElements es

def PrintableMembers : List (Bytes × Json) → Prop
  | [] => True
  | (k, v) :: o => (∀ p ∈ o, compare k p.1 = .lt) ∧ Printable v ∧ PrintableMembers o

end

/-- INTERNAL: elements are reread one by one. -/
theorem rereadElements_eq (a : List Json) : rereadElements a = a.map reread := by
  induction a with
  | nil => rfl
  | cons e es ih => rw [rereadElements, ih, List.map_cons]

/-- INTERNAL: elements can be printed when each of them can. -/
theorem printableElements_iff {a : List Json} :
    PrintableElements a ↔ ∀ e ∈ a, Printable e := by
  induction a with
  | nil => simp [PrintableElements]
  | cons e es ih => simp [PrintableElements, ih]

/-! ## Strings -/

/-- The `\u` escape of a control character is read back. -/
theorem strtoul16_control {c : UInt8} (h : c < 0x20) :
    (strtoul16 (48 :: 48 :: byteToHex c)).toUInt8 = c := by
  have hall : ∀ m : Fin 32,
      (strtoul16 (48 :: 48 :: byteToHex (UInt8.ofNat m))).toUInt8 = UInt8.ofNat m := by
    decide +kernel
  have hc := hall ⟨c.toNat, h⟩
  simpa using hc

/-- An escaped string reads back up to its closing quote.
SOURCE: Json.cpp:13-28, 123-153 -/
theorem parseChars_escape (s rest : Bytes) :
    parseChars (s.flatMap escapeByte ++ quote :: rest) = some (s, rest) := by
  induction s with
  | nil => exact parseChars_quote rest
  | cons c s ih =>
      have huq : quote ≠ letterU := by decide
      have hub : backslash ≠ letterU := by decide
      rw [List.flatMap_cons, List.append_assoc, escapeByte]
      by_cases hquote : c = quote
      · rw [if_pos hquote, hquote, List.cons_append, List.cons_append, List.nil_append,
          parseChars_unescape huq (c := quote) rfl, ih]
        rfl
      by_cases hback : c = backslash
      · rw [if_neg hquote, if_pos hback, hback, List.cons_append, List.cons_append,
          List.nil_append, parseChars_unescape hub (c := backslash) rfl, ih]
        rfl
      by_cases hctl : c < 0x20
      · have hval := strtoul16_control hctl
        rw [byteToHex] at hval
        rw [if_neg hquote, if_neg hback, if_pos hctl, byteToHex]
        simp only [List.cons_append, List.nil_append]
        rw [parseChars_unicode, ih, hval]
        rfl
      · rw [if_neg hquote, if_neg hback, if_neg hctl, List.singleton_append,
          parseChars_plain hquote hback, ih]
        rfl

/-! ## Numbers -/

/-- The text behind a value does not continue a number. -/
def Follows (rest : Bytes) : Prop := ∀ c ∈ rest.head?, isNumberChar c = false

/-- INTERNAL: the end of the text follows a number. -/
theorem follows_nil : Follows [] := by simp [Follows]

/-- INTERNAL: a byte that is not one of a number follows it. -/
theorem follows_cons {c : UInt8} {rest : Bytes} (h : isNumberChar c = false) :
    Follows (c :: rest) := by
  simpa [Follows] using h

/-- A text made of the characters of numbers that starts as a number does. -/
structure NumberText (t : Bytes) : Prop where
  chars : ∀ c ∈ t, isNumberChar c = true
  start : ∃ c s, (t = c :: s ∧ isDigit c = true) ∨ (t = minus :: c :: s ∧ isDigit c = true)

/-- INTERNAL: a digit is a byte of a number. -/
theorem isNumberChar_digitChar {d : ℕ} (h : d < 10) : isNumberChar (digitChar d) = true := by
  simp [isNumberChar, isDigit_digitChar h]

/-- INTERNAL: digits are bytes of a number. -/
theorem isNumberChar_map {ds : List ℕ} (h : ∀ d ∈ ds, d < 10) :
    ∀ c ∈ ds.map digitChar, isNumberChar c = true := by
  intro c hc
  obtain ⟨d, hd, rfl⟩ := List.mem_map.mp hc
  exact isNumberChar_digitChar (h d hd)

/-- The text of a natural number is read to its end. -/
theorem numberText_natText (n : ℕ) : NumberText (natText n) := by
  obtain ⟨d, ds, hd, hcons⟩ := natText_cons n
  exact ⟨isNumberChar_map (natText_digits_lt n),
    ⟨digitChar d, ds, Or.inl ⟨hcons, isDigit_digitChar hd⟩⟩⟩

/-- A minus sign in front of an unsigned number gives a number. -/
theorem NumberText.neg {t : Bytes} (h : NumberText t) (hhead : ∀ s, t ≠ minus :: s) :
    NumberText (minus :: t) := by
  obtain ⟨c, s, ⟨heq, hc⟩ | ⟨heq, -⟩⟩ := h.start
  · refine ⟨?_, ⟨c, s, Or.inr ⟨by rw [heq], hc⟩⟩⟩
    intro x hx
    rcases List.mem_cons.mp hx with rfl | hx
    · rfl
    · exact h.chars x hx
  · exact absurd heq (hhead _)

/-- INTERNAL: a digit is no sign. -/
theorem digitChar_ne_minus {d : ℕ} (h : d < 10) : digitChar d ≠ minus := by
  intro heq
  have hdigit := isDigit_digitChar h
  rw [heq] at hdigit
  exact absurd hdigit (by decide)

/-- The text of an integer is read to its end. -/
theorem numberText_intText (z : ℤ) : NumberText (intText z) := by
  rw [intText]
  split
  · apply (numberText_natText _).neg
    intro s hs
    obtain ⟨d, ds, hd, hcons⟩ := natText_cons z.natAbs
    rw [hcons] at hs
    exact digitChar_ne_minus hd (List.cons.inj hs).1
  · exact numberText_natText _

/-- INTERNAL: a fraction has bytes of a number only. -/
theorem isNumberChar_fraction {ds : List ℕ} (h : ∀ d ∈ ds, d < 10) :
    ∀ c ∈ fraction ds, isNumberChar c = true := by
  have hlt : ∀ d ∈ stripZeros ds, d < 10 := fun d hd => h d (mem_stripZeros hd)
  intro c hc
  unfold fraction at hc
  split at hc
  · simp at hc
  · next d ds' hcons =>
    rw [hcons] at hlt
    rcases List.mem_cons.mp hc with rfl | hc
    · rfl
    · exact isNumberChar_map hlt c hc

/-- INTERNAL: so has an exponent. -/
theorem isNumberChar_exponentText (x : ℤ) :
    ∀ c ∈ lowerE :: exponentText x, isNumberChar c = true := by
  intro c hc
  have hnat := (numberText_natText x.natAbs).chars
  simp only [exponentText, List.mem_cons] at hc
  rcases hc with rfl | rfl | hc
  · rfl
  · split <;> rfl
  · split at hc
    · rcases List.mem_cons.mp hc with rfl | hc
      · rfl
      · exact hnat c hc
    · exact hnat c hc

/-- INTERNAL: the `%g` text of a magnitude is read to its end, and has no sign. -/
theorem numberText_gTextPos (a : ℚ) : NumberText (gTextPos a) ∧ ∀ s, gTextPos a ≠ minus :: s := by
  have hlt : ∀ d ∈ Positional.digits 10 6 (sixDigits a).1, d < 10 :=
    fun d hd => Positional.mem_digits_lt (by norm_num) hd
  obtain ⟨d, ds, hcons⟩ : ∃ d ds, Positional.digits 10 6 (sixDigits a).1 = d :: ds := ⟨_, _, rfl⟩
  rw [hcons] at hlt
  have hd : d < 10 := hlt d (by simp)
  have hds : ∀ e ∈ ds, e < 10 := fun e he => hlt e (by simp [he])
  have hzero : (0 : ℕ) < 10 := by norm_num
  -- every notation is a digit followed by characters of numbers
  suffices h : ∃ e t, e < 10 ∧ gTextPos a = digitChar e :: t ∧ ∀ c ∈ t, isNumberChar c = true by
    obtain ⟨e, t, he, heq, ht⟩ := h
    refine ⟨⟨?_, ⟨digitChar e, t, Or.inl ⟨heq, isDigit_digitChar he⟩⟩⟩, ?_⟩
    · rw [heq]
      intro c hc
      rcases List.mem_cons.mp hc with rfl | hc
      · exact isNumberChar_digitChar he
      · exact ht c hc
    · intro s hs
      rw [heq] at hs
      exact digitChar_ne_minus he (List.cons.inj hs).1
  simp only [gTextPos, hcons]
  split
  · split
    · refine ⟨d, _, hd, by rw [List.take_succ_cons, List.map_cons, List.cons_append], ?_⟩
      intro c hc
      rcases List.mem_append.mp hc with hc | hc
      · exact isNumberChar_map (fun e he => hds e (List.mem_of_mem_take he)) c hc
      · rw [List.drop_succ_cons] at hc
        exact isNumberChar_fraction (fun e he => hds e (List.mem_of_mem_drop he)) c hc
    · refine ⟨0, _, hzero, rfl, ?_⟩
      apply isNumberChar_fraction
      intro e he
      rcases List.mem_append.mp he with he | he
      · rw [(List.mem_replicate.mp he).2]
        exact hzero
      · exact hlt e he
  · refine ⟨d, _, hd, by rw [List.take_succ_cons, List.map_cons, List.cons_append,
      List.cons_append], ?_⟩
    intro c hc
    rcases List.mem_append.mp hc with hc | hc
    · rw [List.take_zero, List.map_nil, List.nil_append, List.drop_succ_cons, List.drop_zero] at hc
      exact isNumberChar_fraction hds c hc
    · exact isNumberChar_exponentText _ c hc

/-- The `%g` text of a number is read to its end. -/
theorem numberText_gText (q : ℚ) : NumberText (gText q) := by
  rw [gText]
  split
  · exact numberText_natText 0
  · split
    · exact (numberText_gTextPos _).1.neg (numberText_gTextPos _).2
    · exact (numberText_gTextPos _).1

/-- What is printed for a number is read to its end. -/
theorem numberText_dumpNumber (x : Finite) : NumberText (dumpNumber (.finite x)) := by
  rw [dumpNumber]
  split
  · exact numberText_intText _
  · exact numberText_gText _

/-- A text that starts as a number is converted. -/
theorem NumberText.strtod_isSome {t : Bytes} (h : NumberText t) : (strtod t).isSome = true := by
  have hdigits : ∀ {c : UInt8} {s : Bytes}, isDigit c = true → (spanDigits (c :: s)).1 ≠ [] := by
    intro c s hc
    rw [spanDigits, List.takeWhile_cons_of_pos hc]
    simp
  have hread : (spanDigits (readSign t).2).1 ≠ [] := by
    obtain ⟨c, s, ⟨rfl, hc⟩ | ⟨rfl, hc⟩⟩ := h.start
    · have hminus : c ≠ minus := fun heq => by rw [heq] at hc; exact absurd hc (by decide)
      have hplus : c ≠ plus := fun heq => by rw [heq] at hc; exact absurd hc (by decide)
      rw [readSign, if_neg hminus, if_neg hplus]
      exact hdigits hc
    · rw [readSign, if_pos rfl]
      exact hdigits hc
  rw [strtod]
  simp only
  rw [if_neg (fun happ => hread (List.append_eq_nil_iff.mp happ).1)]
  rfl

/-- What is printed for a number is read as its rereading. -/
theorem strtod_dumpNumber (x : Finite) :
    strtod (dumpNumber (.finite x)) = some (rereadNumber (.finite x)) := by
  obtain ⟨d, hd⟩ := Option.isSome_iff_exists.mp (numberText_dumpNumber x).strtod_isSome
  rw [rereadNumber, hd]
  rfl

/-- The scanner of `parseNumber` takes exactly the printed text. -/
theorem parseNumber_dumpNumber (x : Finite) {rest : Bytes} (hrest : Follows rest) :
    parseNumber (dumpNumber (.finite x) ++ rest) =
      some (.number (rereadNumber (.finite x)), rest) := by
  have hchars := (numberText_dumpNumber x).chars
  have htail : rest.takeWhile isNumberChar = [] ∧ rest.dropWhile isNumberChar = rest := by
    cases rest with
    | nil => simp
    | cons c rest =>
        have hc : isNumberChar c = false := hrest c (by simp)
        simp [hc]
  rw [parseNumber, List.takeWhile_append_of_pos hchars, List.dropWhile_append_of_pos hchars,
    htail.1, htail.2, List.append_nil, strtod_dumpNumber]
  rfl

/-! ## Values -/

/-- INTERNAL: nothing is skipped in front of a byte that is no white space. -/
theorem skipWs_cons {c : UInt8} (h : isSpace c = false) (s : Bytes) : skipWs (c :: s) = c :: s := by
  rw [skipWs, List.dropWhile_cons_of_neg (by simp [h])]

/-- `parseValue` on a number. -/
theorem parseValue_number {t rest : Bytes} (ht : NumberText t) (fuel : ℕ) :
    parseValue (fuel + 1) (t ++ rest) = parseNumber (t ++ rest) := by
  have hhead : ∀ c ∈ t.head?, isSpace c = false ∧ c ≠ openBrace ∧ c ≠ openBracket ∧ c ≠ quote ∧
      ¬ (c = 116 ∨ c = 102) ∧ c ≠ 110 ∧ (c = minus ∨ isDigit c) := by
    obtain ⟨c, s, ⟨rfl, hc⟩ | ⟨rfl, -⟩⟩ := ht.start
    · intro x hx
      obtain rfl : c = x := by simpa using hx
      have hall : ∀ m : Fin 256, isDigit (UInt8.ofNat m) = true →
          isSpace (UInt8.ofNat m) = false ∧ UInt8.ofNat m ≠ openBrace ∧
          UInt8.ofNat m ≠ openBracket ∧ UInt8.ofNat m ≠ quote ∧
          ¬ (UInt8.ofNat m = 116 ∨ UInt8.ofNat m = 102) ∧ UInt8.ofNat m ≠ 110 := by
        decide +kernel
      have hm := hall ⟨c.toNat, c.toNat_lt⟩
      simp only [UInt8.ofNat_toNat] at hm
      obtain ⟨h₁, h₂, h₃, h₄, h₅, h₆⟩ := hm hc
      exact ⟨h₁, h₂, h₃, h₄, h₅, h₆, Or.inr hc⟩
    · intro x hx
      obtain rfl : minus = x := by simpa using hx
      decide
  cases t with
  | nil =>
      obtain ⟨c, s, ⟨heq, -⟩ | ⟨heq, -⟩⟩ := ht.start <;> simp at heq
  | cons c t =>
      obtain ⟨hspace, hbrace, hbracket, hquote, hbool, hnull, hnum⟩ := hhead c (by simp)
      rw [List.cons_append, parseValue, skipWs_cons hspace]
      simp only [if_neg hbrace, if_neg hbracket, if_neg hquote, if_neg hbool, if_neg hnull,
        if_pos hnum]

/-- `parseValue` on the text of a string.  -/
theorem parseValue_escapeTo (s rest : Bytes) (fuel : ℕ) :
    parseValue (fuel + 1) (escapeTo s ++ rest) = some (.str s, rest) := by
  have hspace : isSpace quote = false := by decide
  have hbrace : quote ≠ openBrace := by decide
  have hbracket : quote ≠ openBracket := by decide
  have htext : escapeTo s ++ rest = quote :: (s.flatMap escapeByte ++ quote :: rest) := by
    simp [escapeTo]
  rw [htext, parseValue, skipWs_cons hspace]
  simp only [if_neg hbrace, if_neg hbracket, if_true, parseChars_escape]
  rfl

/-- A literal is read back. -/
theorem parseLiteral_ascii (text : String) (j : Json) (rest : Bytes) :
    parseLiteral (ascii text ++ rest) text j = some (j, rest) := by
  rw [parseLiteral, List.take_left, List.drop_left, if_pos rfl]

/-- `null` is read back. -/
theorem parseValue_null (rest : Bytes) (fuel : ℕ) :
    parseValue (fuel + 1) (ascii "null" ++ rest) = some (.null, rest) := by
  have hlit := parseLiteral_ascii "null" .null rest
  have htext : ascii "null" ++ rest = 110 :: ([117, 108, 108] ++ rest) := by
    rw [show ascii "null" = 110 :: [117, 108, 108] by decide, List.cons_append]
  rw [htext] at hlit ⊢
  rw [parseValue, skipWs_cons (by decide), ← hlit]
  rfl

/-- A boolean is read back. -/
theorem parseValue_boolean (b : Bool) (rest : Bytes) (fuel : ℕ) :
    parseValue (fuel + 1) ((if b then ascii "true" else ascii "false") ++ rest) =
      some (.boolean b, rest) := by
  cases b with
  | true =>
      have hlit := parseLiteral_ascii "true" (.boolean true) rest
      have htext : ascii "true" ++ rest = 116 :: ([114, 117, 101] ++ rest) := by
        rw [show ascii "true" = 116 :: [114, 117, 101] by decide, List.cons_append]
      simp only [if_true]
      rw [htext] at hlit ⊢
      rw [parseValue, skipWs_cons (by decide)]
      simp only [if_neg (show (116 : UInt8) ≠ openBrace by decide),
        if_neg (show (116 : UInt8) ≠ openBracket by decide),
        if_neg (show (116 : UInt8) ≠ quote by decide), true_or, if_true, hlit]
      rfl
  | false =>
      have hlit := parseLiteral_ascii "false" (.boolean false) rest
      have htext : ascii "false" ++ rest = 102 :: ([97, 108, 115, 101] ++ rest) := by
        rw [show ascii "false" = 102 :: [97, 108, 115, 101] by decide, List.cons_append]
      have hother : parseLiteral (102 :: ([97, 108, 115, 101] ++ rest)) "true" (.boolean true) =
          none := by
        rw [parseLiteral, show ascii "true" = [116, 114, 117, 101] by decide, if_neg]
        simp
      simp only [Bool.false_eq_true, if_false]
      rw [htext] at hlit ⊢
      rw [parseValue, skipWs_cons (by decide)]
      simp only [if_neg (show (102 : UInt8) ≠ openBrace by decide),
        if_neg (show (102 : UInt8) ≠ openBracket by decide),
        if_neg (show (102 : UInt8) ≠ quote by decide), or_true, if_true, hlit, hother]
      rfl

/-- The first character of a printed value is neither white space nor a closing bracket. -/
theorem dump_head (v : Json) (hv : Printable v) :
    ∃ c s, dump v = c :: s ∧ isSpace c = false ∧ c ≠ closeBracket := by
  cases v with
  | null => exact ⟨110, [117, 108, 108], by decide, by decide, by decide⟩
  | boolean b =>
      cases b with
      | true => exact ⟨116, [114, 117, 101], by decide, by decide, by decide⟩
      | false => exact ⟨102, [97, 108, 115, 101], by decide, by decide, by decide⟩
  | number d =>
      obtain ⟨x, rfl⟩ := hv
      obtain ⟨c, s, ⟨heq, hc⟩ | ⟨heq, -⟩⟩ := (numberText_dumpNumber x).start
      · have hall : ∀ m : Fin 256, isDigit (UInt8.ofNat m) = true →
            isSpace (UInt8.ofNat m) = false ∧ UInt8.ofNat m ≠ closeBracket := by
          decide +kernel
        have hm := hall ⟨c.toNat, c.toNat_lt⟩
        simp only [UInt8.ofNat_toNat] at hm
        exact ⟨c, s, heq, (hm hc).1, (hm hc).2⟩
      · exact ⟨minus, c :: s, heq, by decide, by decide⟩
  | str s => exact ⟨quote, s.flatMap escapeByte ++ [quote], rfl, by decide, by decide⟩
  | array a =>
      cases a with
      | nil => exact ⟨openBracket, _, rfl, by decide, by decide⟩
      | cons e es => exact ⟨openBracket, _, rfl, by decide, by decide⟩
  | object o =>
      cases o with
      | nil => exact ⟨openBrace, _, rfl, by decide, by decide⟩
      | cons p o => exact ⟨openBrace, _, rfl, by decide, by decide⟩

/-- INTERNAL: what is printed behind an element follows a number. -/
theorem follows_dumpElements (es : List Json) (rest : Bytes) :
    Follows (dumpElements es ++ rest) := by
  cases es <;> exact follows_cons (by decide)

/-- INTERNAL: what is printed behind a member follows a number. -/
theorem follows_dumpMembers (o : List (Bytes × Json)) (rest : Bytes) :
    Follows (dumpMembers o ++ rest) := by
  cases o <;> exact follows_cons (by decide)

/-- What `parseMembers` has after the members of `o`. -/
def insertAll (acc o : List (Bytes × Json)) : List (Bytes × Json) :=
  o.foldl (fun acc p => insertOrAssign p.1 p.2 acc) acc

/-- A key above all others goes to the end. -/
theorem insertOrAssign_append {k : Bytes} {v : Json} {acc : List (Bytes × Json)}
    (h : ∀ p ∈ acc, compare p.1 k = .lt) : insertOrAssign k v acc = acc ++ [(k, v)] := by
  induction acc with
  | nil => rfl
  | cons p acc ih =>
      obtain ⟨k', v'⟩ := p
      have hlt : compare k' k = .lt := h (k', v') (by simp)
      have hgt : compare k k' = .gt := Std.OrientedCmp.gt_of_lt hlt
      simp only [insertOrAssign, hgt, List.cons_append]
      rw [ih fun p hp => h p (by simp [hp])]

/-- INTERNAL: members in key order are appended one by one. -/
theorem insertAll_append (acc : List (Bytes × Json)) {o : List (Bytes × Json)}
    (ho : PrintableMembers o)
    (h : ∀ p ∈ acc, ∀ q ∈ o, compare p.1 q.1 = .lt) :
    insertAll acc (rereadMembers o) = acc ++ rereadMembers o := by
  induction o generalizing acc with
  | nil => simp [insertAll, rereadMembers]
  | cons p o ih =>
      obtain ⟨k, v⟩ := p
      have hk : ∀ p ∈ acc, compare p.1 k = .lt := fun p hp => h p hp (k, v) (by simp)
      have hstep : insertAll acc (rereadMembers ((k, v) :: o)) =
          insertAll (acc ++ [(k, reread v)]) (rereadMembers o) := by
        rw [rereadMembers, insertAll, List.foldl_cons, insertOrAssign_append hk]
        rfl
      have hacc : ∀ p ∈ acc ++ [(k, reread v)], ∀ q ∈ o, compare p.1 q.1 = .lt := by
        intro p hp q hq
        rcases List.mem_append.mp hp with hp | hp
        · exact h p hp q (by simp [hq])
        · rw [List.mem_singleton.mp hp]
          exact ho.1 q hq
      rw [hstep, ih _ ho.2.2 hacc, rereadMembers]
      simp

/-- Inserting members in key order one by one gives them back. -/
theorem insertAll_of_sorted {o : List (Bytes × Json)} (ho : PrintableMembers o) :
    insertAll [] (rereadMembers o) = rereadMembers o := by
  simpa using insertAll_append [] ho (by simp)

/-- The head of `parseMembers`: one member up to its value. -/
theorem parseMembers_head (k : Bytes) (s : Bytes) (fuel : ℕ) (acc : List (Bytes × Json)) :
    parseMembers (fuel + 1) (escapeTo k ++ colon :: s) acc = (do
      let (val, s) ← parseValue fuel s
      match skipWs s with
      | d :: s =>
          if d = closeBrace then some (.object (insertOrAssign k val acc), s)
          else if d ≠ comma then none
          else parseMembers fuel s (insertOrAssign k val acc)
      | [] => none) := by
  have hquote : isSpace quote = false := by decide
  have hcolon : isSpace colon = false := by decide
  have htext : escapeTo k ++ colon :: s =
      quote :: (k.flatMap escapeByte ++ quote :: (colon :: s)) := by
    simp [escapeTo]
  rw [htext, parseMembers, skipWs_cons hquote]
  dsimp only
  rw [if_neg (not_not.mpr rfl), parseChars_escape, Option.bind_eq_bind, Option.bind_some]
  dsimp only
  rw [skipWs_cons hcolon]
  exact if_neg (not_not.mpr rfl)

mutual

/-- A printed value reads back, whatever follows it.
SOURCE: Json.cpp:29-57, 74-172 -/
theorem parseValue_dump : ∀ (v : Json), Printable v → ∀ (fuel : ℕ) (rest : Bytes),
    (dump v).length < fuel → Follows rest →
    parseValue fuel (dump v ++ rest) = some (reread v, rest)
  | v, _, 0, _, hfuel, _ => absurd hfuel (Nat.not_lt_zero _)
  | .null, _, fuel + 1, rest, _, _ => parseValue_null rest fuel
  | .boolean b, _, fuel + 1, rest, _, _ => parseValue_boolean b rest fuel
  | .number d, hv, fuel + 1, rest, _, hrest => by
      obtain ⟨x, rfl⟩ := hv
      rw [dump, parseValue_number (numberText_dumpNumber x), parseNumber_dumpNumber x hrest]
      rfl
  | .str s, _, fuel + 1, rest, _, _ => parseValue_escapeTo s rest fuel
  | .array [], _, fuel + 1, rest, _, _ => by
      rfl
  | .array (e :: es), hv, fuel + 1, rest, hfuel, hrest => by
      have he : Printable e := hv.1
      obtain ⟨c, s, hcons, hspace, hclose⟩ := dump_head e he
      have hbrace : openBracket ≠ openBrace := by decide
      have hlen : (dump e).length + (dumpElements es).length < fuel := by
        simp only [dump, List.length_cons, List.cons_append, List.length_append] at hfuel
        omega
      have hloop := parseElements_dump es hv.2 fuel rest e [] (parseValue_dump e he) hlen
      simp only [dump, List.cons_append, List.append_assoc]
      rw [parseValue, skipWs_cons (by decide)]
      simp only [if_neg hbrace, if_true]
      rw [hcons, List.cons_append] at hloop ⊢
      rw [skipWs_cons hspace]
      simp only [if_neg hclose, hloop]
      rfl
  | .object [], _, fuel + 1, rest, _, _ => by
      rfl
  | .object ((k, v) :: o), hv, fuel + 1, rest, hfuel, hrest => by
      have hval : Printable v := hv.2.1
      have hlen : (dump v).length + (dumpMembers o).length < fuel := by
        simp only [dump, List.length_cons, List.cons_append, List.length_append] at hfuel
        omega
      have hloop := parseMembers_dump o hv.2.2 fuel rest k v [] (parseValue_dump v hval) hlen
      have hsort : insertAll [] ((k, reread v) :: rereadMembers o) =
          (k, reread v) :: rereadMembers o := insertAll_of_sorted hv
      have hquote : isSpace quote = false := by decide
      have hclose : quote ≠ closeBrace := by decide
      rw [hsort] at hloop
      simp only [dump, List.cons_append, List.append_assoc]
      rw [parseValue, skipWs_cons (by decide)]
      simp only [if_true]
      rw [escapeTo] at hloop ⊢
      simp only [List.cons_append] at hloop ⊢
      rw [skipWs_cons hquote]
      simp only [if_neg hclose, hloop]
      rfl

/-- The element loop, given that the element in front of it reads back. -/
theorem parseElements_dump : ∀ (es : List Json), PrintableElements es →
    ∀ (fuel : ℕ) (rest : Bytes) (e : Json) (acc : List Json),
    (∀ fuel rest, (dump e).length < fuel → Follows rest →
      parseValue fuel (dump e ++ rest) = some (reread e, rest)) →
    (dump e).length + (dumpElements es).length < fuel →
    parseElements fuel (dump e ++ (dumpElements es ++ rest)) acc =
      some (.array (acc ++ reread e :: rereadElements es), rest)
  | _, _, 0, _, _, _, _, hfuel => absurd hfuel (Nat.not_lt_zero _)
  | [], _, fuel + 1, rest, e, acc, he, hfuel => by
      have hlen : (dump e).length < fuel := by
        simp only [dumpElements, List.length_singleton] at hfuel
        omega
      rw [parseElements, he fuel _ hlen (follows_dumpElements [] rest)]
      simp only [Option.bind_eq_bind, Option.bind_some, dumpElements, List.singleton_append]
      rw [skipWs_cons (by decide)]
      simp only [if_true]
      rfl
  | e' :: es, hes, fuel + 1, rest, e, acc, he, hfuel => by
      have hlen : (dump e).length < fuel ∧
          (dump e').length + (dumpElements es).length < fuel := by
        simp only [dumpElements, List.length_cons, List.cons_append, List.length_append] at hfuel
        omega
      have hcomma : comma ≠ closeBracket := by decide
      have hrec := parseElements_dump es hes.2 fuel rest e' (acc ++ [reread e])
        (parseValue_dump e' hes.1) hlen.2
      rw [parseElements, he fuel _ hlen.1 (follows_dumpElements (e' :: es) rest)]
      simp only [Option.bind_eq_bind, Option.bind_some, dumpElements, List.cons_append,
        List.append_assoc]
      rw [skipWs_cons (by decide)]
      simp only [if_neg hcomma, ne_eq, not_true_eq_false, if_false, hrec]
      simp [rereadElements]

/-- The member loop, given that the value in front of it reads back. -/
theorem parseMembers_dump : ∀ (o : List (Bytes × Json)), PrintableMembers o →
    ∀ (fuel : ℕ) (rest : Bytes) (k : Bytes) (v : Json) (acc : List (Bytes × Json)),
    (∀ fuel rest, (dump v).length < fuel → Follows rest →
      parseValue fuel (dump v ++ rest) = some (reread v, rest)) →
    (dump v).length + (dumpMembers o).length < fuel →
    parseMembers fuel (escapeTo k ++ colon :: (dump v ++ (dumpMembers o ++ rest))) acc =
      some (.object (insertAll acc ((k, reread v) :: rereadMembers o)), rest)
  | _, _, 0, _, _, _, _, _, hfuel => absurd hfuel (Nat.not_lt_zero _)
  | [], _, fuel + 1, rest, k, v, acc, hv, hfuel => by
      have hlen : (dump v).length < fuel := by
        simp only [dumpMembers, List.length_singleton] at hfuel
        omega
      rw [parseMembers_head, hv fuel _ hlen (follows_dumpMembers [] rest)]
      simp only [Option.bind_eq_bind, Option.bind_some, dumpMembers, List.singleton_append]
      rw [skipWs_cons (by decide)]
      simp only [if_true]
      rfl
  | (k', v') :: o, ho, fuel + 1, rest, k, v, acc, hv, hfuel => by
      have hlen : (dump v).length < fuel ∧
          (dump v').length + (dumpMembers o).length < fuel := by
        simp only [dumpMembers, List.length_cons, List.cons_append, List.length_append] at hfuel
        omega
      have hcomma : comma ≠ closeBrace := by decide
      have hrec := parseMembers_dump o ho.2.2 fuel rest k' v' (insertOrAssign k (reread v) acc)
        (parseValue_dump v' ho.2.1) hlen.2
      rw [parseMembers_head, hv fuel _ hlen.1 (follows_dumpMembers ((k', v') :: o) rest)]
      simp only [Option.bind_eq_bind, Option.bind_some, dumpMembers, List.cons_append,
        List.append_assoc]
      rw [skipWs_cons (by decide)]
      simp only [if_neg hcomma, ne_eq, not_true_eq_false, if_false, hrec]
      rfl

end

/-- A printed value parses to the value its numbers reread.
SOURCE: Json.cpp:175-185 -/
theorem parse_dump {v : Json} (hv : Printable v) : Json.parse (dump v) = some (reread v) := by
  have h := parseValue_dump v hv ((dump v).length + 1) [] (Nat.lt_succ_self _) follows_nil
  rw [List.append_nil] at h
  rw [Json.parse, h]
  rfl

end CompilationFabric.Interface
