import CompilationFabric.Interface.JsonLanguage

/-!
# JSON texts that the parser takes as the standard means them

What the parser accepts has the structure of a JSON text (`derives_of_parse`), so it can only
depart from the standard in a token.  It does so in numbers, which it ends too late, and in
strings: it passes on control characters and bytes that are not UTF-8, it takes any four
characters behind `\u`, and it makes one byte of them whatever they denote.  `conforms_iff` is
that these are all the ways: an accepted text is a text of RFC 8259 with the value of the
standard exactly if each of its tokens is one of the standard and its `\u` escapes stay below 128.
-/

set_option autoImplicit false

namespace CompilationFabric.Analysis

open CompilationFabric.Interface
open CompilationFabric.Library
open CompilationFabric.Library.DecimalText (strtod)
open CompilationFabric.Library.JsonGrammar (AsciiEscapes Denotes Derives IsNumber Reading
  StringUnit Token codeUnit escapeValue hexDigit scan scan_eq units)
open CompilationFabric.Model
open CompilationFabric.Model.Json

variable {t : Bytes} {j : Json}

/-- The grammar as RFC 8259 reads it, with the values that the parser has for it: a number is the
`double` that `strtod` gives, and of two members of one name the last counts. -/
def standardReading : Reading Json :=
  { parserReading with
    number := fun t v => IsNumber t ∧ ∃ d, strtod t = some d ∧ v = .number d
    chars := fun b s => ∃ us, units b = some us ∧ Denotes us s }

/-- The text is a text of RFC 8259 and the value is its value, and the string that is made of each
string token is what the token denotes.
SOURCE: Json.cpp:74-185 -/
structure Conforms (t : Bytes) (j : Json) : Prop where
  value : Derives standardReading (.element j) (scan .between t) t
  strings : ∀ b, .string b ∈ scan .between t → ∀ s, parseChars (b ++ [quote]) = some (s, []) →
    standardReading.chars b s

/-- A number of RFC 8259, or the body of a string of RFC 8259 whose `\u` escapes are all of ASCII
characters or of surrogates that are no half of a pair. -/
def FaithfulToken : Token → Prop
  | .number t => IsNumber t
  | .string b => ∃ us, units b = some us ∧ (∃ s, Denotes us s) ∧ AsciiEscapes us

/-! ## Escapes -/

/-- INTERNAL: a hex digit has its value for the parser, and is no white space and no sign. -/
theorem hexDigit_cases {c : UInt8} {d : ℕ} (h : hexDigit c = some d) :
    (hexVal c).isSome = true ∧ ((hexVal c).getD 0).toNat = d ∧
      (c = 32 || (9 ≤ c && c ≤ 13)) = false ∧ c ≠ DecimalText.minus ∧ c ≠ DecimalText.plus ∧
      ¬ (c = 120 ∨ c = 88) := by
  have hall : ∀ m : Fin 256, ∀ d ∈ hexDigit (UInt8.ofNat m),
      (hexVal (UInt8.ofNat m)).isSome = true ∧ ((hexVal (UInt8.ofNat m)).getD 0).toNat = d ∧
      (UInt8.ofNat m = 32 || (9 ≤ UInt8.ofNat m && UInt8.ofNat m ≤ 13)) = false ∧
      UInt8.ofNat m ≠ DecimalText.minus ∧ UInt8.ofNat m ≠ DecimalText.plus ∧
      ¬ (UInt8.ofNat m = 120 ∨ UInt8.ofNat m = 88) := by
    decide +kernel
  have hc := hall ⟨c.toNat, c.toNat_lt⟩
  simp only [UInt8.ofNat_toNat] at hc
  exact hc d h

/-- Of four hexadecimal digits, `strtoul` makes the code unit. -/
theorem strtoul16_of_codeUnit {h₁ h₂ h₃ h₄ : UInt8} {n : ℕ}
    (h : codeUnit h₁ h₂ h₃ h₄ = some n) : strtoul16 [h₁, h₂, h₃, h₄] = UInt64.ofNat n := by
  simp only [codeUnit, Option.bind_eq_bind, Option.pure_def, Option.bind_eq_some_iff] at h
  obtain ⟨d₁, hd₁, d₂, hd₂, d₃, hd₃, d₄, hd₄, h⟩ := h
  obtain ⟨hsome₁, hval₁, hspace, hminus, hplus, -⟩ := hexDigit_cases hd₁
  obtain ⟨hsome₂, hval₂, -, -, -, hx⟩ := hexDigit_cases hd₂
  obtain ⟨hsome₃, hval₃, -⟩ := hexDigit_cases hd₃
  obtain ⟨hsome₄, hval₄, -⟩ := hexDigit_cases hd₄
  have hdigits : hexPrefix [h₁, h₂, h₃, h₄] = [d₁, d₂, d₃, d₄] := by
    simp [hexPrefix, hsome₁, hsome₂, hsome₃, hsome₄, hval₁, hval₂, hval₃, hval₄]
  have hsign : DecimalText.readSign [h₁, h₂, h₃, h₄] = (false, [h₁, h₂, h₃, h₄]) := by
    rw [DecimalText.readSign, if_neg hminus, if_neg hplus]
  have hvalue : Positional.value 16 [d₁, d₂, d₃, d₄] = n := by
    rw [← Option.some_inj.mp h]
    simp [Positional.value]
    ring
  have hprefix : ¬ (h₁ = 48 ∧ (h₂ = 120 ∨ h₂ = 88) ∧ hexPrefix [h₃, h₄] ≠ []) := fun h => hx h.2.1
  rw [strtoul16, List.dropWhile_cons_of_neg (by simpa using hspace), hsign]
  simp only [if_neg hprefix, hdigits, hvalue, Bool.false_eq_true, if_false]

/-- A character is no surrogate. -/
theorem not_surrogate (c : Char) : ¬ JsonGrammar.IsLow c.toNat ∧ ¬ JsonGrammar.IsHigh c.toNat := by
  have hvalid : c.toNat < 0xD800 ∨ 0xDFFF < c.toNat ∧ c.toNat < 0x110000 := c.valid
  unfold JsonGrammar.IsLow JsonGrammar.IsHigh
  omega

/-- Escapes stand for the same characters. -/
theorem unescape_eq (e : UInt8) : unescape e = escapeValue e := rfl

/-- INTERNAL: plain bytes stand for themselves. -/
theorem mapM_plain (x : Bytes) (us : List StringUnit) :
    (x.map StringUnit.plain ++ us).mapM unitByte = (us.mapM unitByte).map (x ++ ·) := by
  induction x with
  | nil => simp
  | cons c x ih =>
      rw [List.map_cons, List.cons_append, List.mapM_cons, ih]
      cases us.mapM unitByte <;> simp [unitByte]

/-- The parser decodes a body as the standard does if its escapes stay below 128. -/
theorem denotes_of_asciiEscapes {us : List StringUnit} {s' : Bytes} (h : Denotes us s') :
    AsciiEscapes us → ∀ s, us.mapM unitByte = some s → Denotes us s := by
  induction h with
  | nil =>
      intro _ s hs
      cases hs
      exact .nil
  | char hc h ih =>
      intro hascii s hs
      rw [mapM_plain] at hs
      obtain ⟨s₀, hs₀, rfl⟩ := Option.map_eq_some_iff.mp hs
      exact .char hc (ih ((JsonGrammar.asciiEscapes_plain _ _).mp hascii) s₀ hs₀)
  | escape he h ih =>
      intro hascii s hs
      obtain ⟨c, s₀, hc, hs₀, rfl⟩ := mapM_unit hs
      rw [unitByte, unescape_eq, he, Option.some_inj] at hc
      rw [← hc]
      exact .escape he (ih hascii s₀ hs₀)
  | @codePoint h₁ h₂ h₃ h₄ c us s' hc h ih =>
      rintro ⟨⟨n, hn, hlt⟩, hascii⟩ s hs
      obtain rfl := Option.some_inj.mp (hc.symm.trans hn)
      obtain ⟨b, s₀, hb, hs₀, rfl⟩ := mapM_unit hs
      have hsmall : c.toNat < 0x80 := by
        rcases hlt with hlt | hlt | ⟨hlt, -⟩
        · exact hlt
        · exact absurd hlt (not_surrogate c).1
        · exact absurd hlt (not_surrogate c).2
      have hbyte : [b] = String.utf8EncodeChar c := by
        rw [unitByte, strtoul16_of_codeUnit hc, Option.some_inj] at hb
        have hval : (UInt64.ofNat c.toNat).toUInt8 = c.val.toUInt8 := by
          apply UInt8.toNat_inj.mp
          rw [UInt64.toNat_toUInt8, UInt64.toNat_ofNat', UInt32.toNat_toUInt8]
          change c.toNat % 2 ^ 64 % 2 ^ 8 = c.toNat % 2 ^ 8
          omega
        rw [String.utf8EncodeChar_eq_singleton (JsonGrammar.utf8Size_eq_one_iff_lt.mpr hsmall), ← hb,
          hval]
      have hdenotes := Denotes.codePoint hc (ih hascii s₀ hs₀)
      rwa [← hbyte, List.singleton_append] at hdenotes
  | @pair h₁ h₂ h₃ h₄ l₁ l₂ l₃ l₄ hi lo c us s' hhi hlo hhigh hlow hc h ih =>
      rintro ⟨⟨n, hn, hlt⟩, -⟩ s hs
      obtain rfl := Option.some_inj.mp (hhi.symm.trans hn)
      -- the first half of a pair is neither small nor unpaired
      rcases hlt with hlt | hlt | ⟨-, hlt⟩
      · exact absurd hlt (by have := hhigh.1; omega)
      · exact absurd hlt.1 (by have := hhigh.2; omega)
      · exact absurd ⟨l₁, l₂, l₃, l₄, us, lo, rfl, hlo, hlow⟩ hlt
  | unpaired hn hunpaired hx h ih =>
      rintro ⟨-, hascii⟩ s hs
      obtain ⟨c, s₀, -, hs₀, rfl⟩ := mapM_unit hs
      exact .unpaired (x := [c]) hn hunpaired (by simp) (ih hascii s₀ hs₀)

/-! ## Conformance -/

/-- What the parser makes of the body of a string token, in terms of its units. -/
theorem parseChars_body_iff {b : Bytes} {us : List StringUnit} (hunits : units b = some us)
    (s : Bytes) : parseChars (b ++ [quote]) = some (s, []) ↔ us.mapM unitByte = some s := by
  rw [parseChars_of_units hunits, Option.map_eq_some_iff]
  constructor
  · rintro ⟨out, hout, heq⟩
    cases heq
    exact hout
  · exact fun h => ⟨s, h, rfl⟩

/-- INTERNAL: in a text that conforms every token has its value. -/
theorem faithfulToken_of_conforms (h : Json.parse t = some j) (hconforms : Conforms t j) :
    ∀ tok ∈ scan .between t, FaithfulToken tok := by
  obtain ⟨toks, hderives⟩ := derives_of_parse h
  have hscan := scan_eq hderives fun tok htok => tokenShape_of_reads (hderives.reads tok htok)
  intro tok htok
  have hstandard := hconforms.value.reads tok htok
  cases tok with
  | number n =>
      obtain ⟨v, hnumber, -⟩ := hstandard
      exact hnumber
  | string b =>
      obtain ⟨s', us, hunits, hdenotes'⟩ := hstandard
      obtain ⟨s, us', hunits', hbytes⟩ := hderives.reads (.string b) (hscan ▸ htok)
      obtain rfl := Option.some_inj.mp (hunits.symm.trans hunits')
      obtain ⟨us', hunits', hdenotes⟩ :=
        hconforms.strings b htok s ((parseChars_body_iff hunits s).mpr hbytes)
      obtain rfl := Option.some_inj.mp (hunits.symm.trans hunits')
      exact ⟨us, hunits, ⟨s', hdenotes'⟩, hdenotes.length_le.2 (length_mapM_unitByte hbytes)⟩

/-- An accepted text is a text of the standard, decoded as the standard says, exactly if each
number in it is a number of RFC 8259 and the body of each string is one of RFC 8259 whose `\u`
escapes denote ASCII characters, or surrogates that are no half of a pair.
SOURCE: Json.cpp:74-185 -/
theorem conforms_iff (h : Json.parse t = some j) :
    Conforms t j ↔ ∀ tok ∈ scan .between t, FaithfulToken tok := by
  refine ⟨faithfulToken_of_conforms h, fun hfaithful => ?_⟩
  obtain ⟨toks, hderives⟩ := derives_of_parse h
  have hscan := scan_eq hderives fun tok htok => tokenShape_of_reads (hderives.reads tok htok)
  rw [hscan] at hfaithful
  have hchars : ∀ b s, .string b ∈ toks → parserReading.chars b s → standardReading.chars b s := by
    rintro b s hb ⟨us, hunits, hbytes⟩
    obtain ⟨us', hunits', ⟨s', hdenotes⟩, hascii⟩ := hfaithful _ hb
    obtain rfl := Option.some_inj.mp (hunits.symm.trans hunits')
    exact ⟨us, hunits, denotes_of_asciiEscapes hdenotes hascii s hbytes⟩
  constructor
  · rw [hscan]
    apply hderives.reread
    · rintro n v hn ⟨-, d, hd, hv⟩
      exact ⟨hfaithful _ hn, d, hd, hv⟩
    · exact hchars
  · rw [hscan]
    intro b hb s hread
    obtain ⟨us, hunits, -⟩ := hfaithful _ hb
    exact hchars b s hb ⟨us, hunits, (parseChars_body_iff hunits s).mp hread⟩

/-- `[1,"a\u000a"]`. -/
def conformingText : Bytes := [91, 49, 44, 34, 97, 92, 117, 48, 48, 48, 97, 34, 93]

/-- A text with an escape and a fraction conforms. -/
theorem conforms_conformingText : ∃ j, Json.parse conformingText = some j ∧
    Conforms conformingText j := by
  have hparse : (Json.parse conformingText).isSome = true := by decide +kernel
  have htoks : scan .between conformingText =
      [.number [49], .string [97, 92, 117, 48, 48, 48, 97]] := by decide
  obtain ⟨j, hj⟩ := Option.isSome_iff_exists.mp hparse
  have hnumber : IsNumber [49] :=
    ⟨[], [49], [], [], .inl rfl, .inr ⟨⟨by simp, by simp [JsonGrammar.IsDigit]⟩, by simp⟩,
      .inl rfl, .inl rfl, rfl⟩
  have hdenotes : Denotes [.plain 97, .unicode 48 48 48 97] ([97] ++ ([10] ++ [])) :=
    .char (c := 'a') (by decide) (.codePoint (c := '\n') (by decide) .nil)
  have hascii : AsciiEscapes [.plain 97, .unicode 48 48 48 97] :=
    ⟨⟨10, by decide, .inl (by decide)⟩, trivial⟩
  refine ⟨j, hj, (conforms_iff hj).mpr ?_⟩
  rw [htoks]
  intro tok htok
  simp only [List.mem_cons, List.not_mem_nil, or_false] at htok
  rcases htok with rfl | rfl
  · exact hnumber
  · exact ⟨_, by decide, ⟨_, hdenotes⟩, hascii⟩

/-- `"\u00e9"`: the parser makes the one byte `e9` of it. -/
def nonAsciiText : Bytes := [34, 92, 117, 48, 48, 101, 57, 34]

/-- `01`: the parser takes it for 1. -/
def leadingZeroText : Bytes := [48, 49]

/-- A text with an escape above ASCII is parsed to another string. -/
theorem not_conforms_nonAsciiText :
    ∃ j, Json.parse nonAsciiText = some j ∧ ¬ Conforms nonAsciiText j := by
  have hparse : (Json.parse nonAsciiText).isSome = true := by decide +kernel
  have htoks : scan .between nonAsciiText = [.string [92, 117, 48, 48, 101, 57]] := by decide
  have hunit : codeUnit 48 48 101 57 = some 233 := by decide
  obtain ⟨j, hj⟩ := Option.isSome_iff_exists.mp hparse
  refine ⟨j, hj, fun hconforms => ?_⟩
  obtain ⟨us, hunits, -, hascii⟩ := faithfulToken_of_conforms hj hconforms _ (by
    rw [htoks]
    exact List.mem_singleton_self _)
  obtain rfl : [.unicode 48 48 101 57] = us := Option.some_inj.mp hunits
  obtain ⟨⟨n, hn, hlt⟩, -⟩ := hascii
  obtain rfl := Option.some_inj.mp (hunit.symm.trans hn)
  rcases hlt with hlt | hlt | ⟨hlt, -⟩
  · omega
  · exact absurd hlt.1 (by omega)
  · exact absurd hlt.1 (by omega)

/-- A number with a leading zero is parsed though it is none. -/
theorem not_conforms_leadingZeroText :
    ∃ j, Json.parse leadingZeroText = some j ∧ ¬ Conforms leadingZeroText j := by
  have hparse : (Json.parse leadingZeroText).isSome = true := by decide +kernel
  have htoks : scan .between leadingZeroText = [.number [48, 49]] := by decide
  obtain ⟨j, hj⟩ := Option.isSome_iff_exists.mp hparse
  refine ⟨j, hj, fun hconforms => ?_⟩
  have hnumber : IsNumber [48, 49] := faithfulToken_of_conforms hj hconforms (.number _) (by
    rw [htoks]
    exact List.mem_singleton_self _)
  obtain ⟨sign, int, frac, exp, hsign, hint, hfrac, hexp, heq⟩ := hnumber
  rcases hsign with rfl | rfl
  · obtain ⟨d, ds, rfl⟩ := List.exists_cons_of_ne_nil hint.isDigits.1
    obtain ⟨rfl, hrest⟩ : 48 = d ∧ [49] = ds ++ frac ++ exp := by simpa using heq
    obtain rfl := hint.eq_nil
    -- what is left of the token is neither a fraction nor an exponent
    rcases hfrac with rfl | ⟨ds, -, rfl⟩
    · rcases hexp with rfl | ⟨e, sign, ds, rfl | rfl, -, -, rfl⟩ <;> simp at hrest
    · simp at hrest
  · simp at heq

/-- Two texts that are taken otherwise than the standard means them, or although it has no meaning
for them. -/
theorem not_conforms :
    (∃ j, Json.parse nonAsciiText = some j ∧ ¬ Conforms nonAsciiText j) ∧
      ∃ j, Json.parse leadingZeroText = some j ∧ ¬ Conforms leadingZeroText j :=
  ⟨not_conforms_nonAsciiText, not_conforms_leadingZeroText⟩

end CompilationFabric.Analysis
