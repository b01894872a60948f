import Mathlib.Data.List.Basic
import Mathlib.Tactic.Ring

/-!
# The grammar of JSON texts

The grammar of RFC 8259 over bytes, in two levels.  `Derives` is the level of values, arrays and
objects; what a number or a string is, and what value a phrase has, is left to a `Reading`.
`IsNumber` and `IsBody` are the two tokens of the standard: a number, and what stands between the
quotes of a string, as UTF-8.  `Denotes` is what such a body stands for.

A text of any reading can be split into its tokens without parsing it: `scan` is an automaton over
the bytes, and `scan_derives` is that it finds exactly the tokens of a derivation.  So whether a
text of one reading is one of another can be told from its tokens (`Derives.reread`).

RFC 8259 puts the white space around a value into the structural characters next to it; here it is
part of the phrase `element`, which gives the same texts.
-/

set_option autoImplicit false

namespace CompilationFabric.Library.JsonGrammar

/-! ## Characters -/

def isWs (c : UInt8) : Bool := c = 0x20 || c = 0x09 || c = 0x0A || c = 0x0D

/-- Insignificant white space. -/
def Ws (w : List UInt8) : Prop := ∀ c ∈ w, isWs c = true

/-- `%x30-39`. -/
def IsDigit (c : UInt8) : Prop := 0x30 ≤ c ∧ c ≤ 0x39

instance (c : UInt8) : Decidable (IsDigit c) := inferInstanceAs (Decidable (_ ∧ _))

/-- The characters that numbers are made of. -/
def isNumberByte (c : UInt8) : Bool :=
  decide (IsDigit c) || c = 0x2E || c = 0x65 || c = 0x45 || c = 0x2B || c = 0x2D

/-- A number starts with a minus sign or a digit. -/
def startsNumber (c : UInt8) : Bool := c = 0x2D || decide (IsDigit c)

/-! ## Numbers -/

/-- `1*DIGIT`. -/
def IsDigits (ds : List UInt8) : Prop := ds ≠ [] ∧ ∀ c ∈ ds, IsDigit c

/-- `int = zero / ( digit1-9 *DIGIT )`. -/
def IsInt (t : List UInt8) : Prop := t = [0x30] ∨ IsDigits t ∧ t.head? ≠ some 0x30

/-- `[ frac ]`, with `frac = decimal-point 1*DIGIT`. -/
def IsFraction (t : List UInt8) : Prop := t = [] ∨ ∃ ds, IsDigits ds ∧ t = 0x2E :: ds

/-- `[ exp ]`, with `exp = e [ minus / plus ] 1*DIGIT`. -/
def IsExponent (t : List UInt8) : Prop :=
  t = [] ∨ ∃ e sign ds, (e = 0x65 ∨ e = 0x45) ∧ (sign = [] ∨ sign = [0x2B] ∨ sign = [0x2D]) ∧
    IsDigits ds ∧ t = e :: sign ++ ds

/-- `number = [ minus ] int [ frac ] [ exp ]`. -/
def IsNumber (t : List UInt8) : Prop :=
  ∃ sign int frac exp, (sign = [] ∨ sign = [0x2D]) ∧ IsInt int ∧ IsFraction frac ∧
    IsExponent exp ∧ t = sign ++ int ++ frac ++ exp

/-- What a token needs to be recognised as a number. -/
structure NumberShape (t : List UInt8) : Prop where
  start : ∃ c s, t = c :: s ∧ startsNumber c = true
  bytes : ∀ c ∈ t, isNumberByte c = true

/-- A digit may stand in a number. -/
theorem isNumberByte_of_isDigit {c : UInt8} (h : IsDigit c) : isNumberByte c = true := by
  simp [isNumberByte, h]

/-- An integer part has digits only. -/
theorem IsInt.isDigits {t : List UInt8} (h : IsInt t) : IsDigits t := by
  rcases h with rfl | ⟨h, -⟩
  · exact ⟨by simp, by simp [IsDigit]⟩
  · exact h

/-- A zero is followed by no other digit of the integer part. -/
theorem IsInt.eq_nil {t : List UInt8} (h : IsInt (0x30 :: t)) : t = [] := by
  rcases h with h | ⟨-, hhead⟩
  · exact (List.cons.inj h).2
  · exact absurd rfl hhead

/-- A fraction has bytes of a number only. -/
theorem IsFraction.bytes {t : List UInt8} (h : IsFraction t) :
    ∀ c ∈ t, isNumberByte c = true := by
  rcases h with rfl | ⟨ds, hds, rfl⟩
  · simp
  · intro c hc
    rcases List.mem_cons.mp hc with rfl | hc
    · rfl
    · exact isNumberByte_of_isDigit (hds.2 c hc)

/-- An exponent has bytes of a number only. -/
theorem IsExponent.bytes {t : List UInt8} (h : IsExponent t) :
    ∀ c ∈ t, isNumberByte c = true := by
  rcases h with rfl | ⟨e, sign, ds, he, hsign, hds, rfl⟩
  · simp
  · intro c hc
    rw [List.cons_append, List.mem_cons, List.mem_append] at hc
    rcases hc with rfl | hc | hc
    · rcases he with rfl | rfl <;> rfl
    · rcases hsign with rfl | rfl | rfl
      · simp at hc
      · rw [List.mem_singleton.mp hc]; rfl
      · rw [List.mem_singleton.mp hc]; rfl
    · exact isNumberByte_of_isDigit (hds.2 c hc)

/-- A number of the standard has the shape that the scanner looks for. -/
theorem IsNumber.shape {t : List UInt8} (h : IsNumber t) : NumberShape t := by
  obtain ⟨sign, int, frac, exp, hsign, hint, hfrac, hexp, rfl⟩ := h
  obtain ⟨hne, hdigits⟩ := hint.isDigits
  obtain ⟨d, ds, rfl⟩ := List.exists_cons_of_ne_nil hne
  have hd : IsDigit d := hdigits d (by simp)
  have hbytes : ∀ c ∈ d :: ds, isNumberByte c = true :=
    fun c hc => isNumberByte_of_isDigit (hdigits c hc)
  have hrest : ∀ c ∈ d :: ds ++ frac ++ exp, isNumberByte c = true := by
    intro c hc
    rw [List.mem_append, List.mem_append] at hc
    rcases hc with (hc | hc) | hc
    · exact hbytes c hc
    · exact hfrac.bytes c hc
    · exact hexp.bytes c hc
  rcases hsign with rfl | rfl
  · exact ⟨⟨d, ds ++ frac ++ exp, by simp, by simp [startsNumber, hd]⟩, by simpa using hrest⟩
  · refine ⟨⟨0x2D, d :: ds ++ frac ++ exp, by simp, rfl⟩, ?_⟩
    intro c hc
    have hcases : c = 0x2D ∨ c ∈ d :: ds ++ frac ++ exp := by simpa [or_assoc] using hc
    rcases hcases with rfl | hc
    · rfl
    · exact hrest c hc

/-! ## Strings -/

/-- What the body of a string is a sequence of: bytes that stand for themselves, and escapes. -/
inductive StringUnit where
  | plain (c : UInt8)
  | escape (e : UInt8)
  | unicode (h₁ h₂ h₃ h₄ : UInt8)
  deriving DecidableEq

/-- The units of a body, if it is no more than one body: no quote stands unescaped in it. -/
def units : List UInt8 → Option (List StringUnit)
  | [] => some []
  | c :: s =>
      if c = 0x22 then none
      else if c = 0x5C then
        match s with
        | [] => none
        | e :: s =>
            if e = 0x75 then
              match s with
              | h₁ :: h₂ :: h₃ :: h₄ :: s => (units s).map (.unicode h₁ h₂ h₃ h₄ :: ·)
              | _ => none
            else (units s).map (.escape e :: ·)
      else (units s).map (.plain c :: ·)

/-- A `\u` escape is one unit. -/
theorem units_unicode (h₁ h₂ h₃ h₄ : UInt8) (s : List UInt8) :
    units (0x5C :: 0x75 :: h₁ :: h₂ :: h₃ :: h₄ :: s) =
      (units s).map (.unicode h₁ h₂ h₃ h₄ :: ·) := by
  have hquote : (0x5C : UInt8) ≠ 0x22 := by decide
  rw [units.eq_def]
  simp only [if_neg hquote, if_true]

/-- Any other escape is one unit. -/
theorem units_escape {e : UInt8} (he : e ≠ 0x75) (s : List UInt8) :
    units (0x5C :: e :: s) = (units s).map (.escape e :: ·) := by
  have hquote : (0x5C : UInt8) ≠ 0x22 := by decide
  rw [units.eq_def]
  simp only [if_neg hquote, if_true, if_neg he]

/-- A byte that is neither a quote nor a backslash is one unit. -/
theorem units_plain {c : UInt8} (hquote : c ≠ 0x22) (hback : c ≠ 0x5C) (s : List UInt8) :
    units (c :: s) = (units s).map (.plain c :: ·) := by
  rw [units.eq_def]
  simp only [if_neg hquote, if_neg hback]

/-- A unit takes at least a byte. -/
theorem length_units_le {b : List UInt8} {us : List StringUnit} (h : units b = some us) :
    us.length ≤ b.length := by
  fun_induction units b generalizing us with
  | case1 =>
      cases h
      exact le_rfl
  | case2 => cases h
  | case3 => cases h
  | case4 h₁ h₂ h₃ h₄ s hquote ih =>
      obtain ⟨us, hus, rfl⟩ := Option.map_eq_some_iff.mp h
      have hle := ih hus
      simp only [List.length_cons]
      omega
  | case5 => cases h
  | case6 e s he hquote ih =>
      obtain ⟨us, hus, rfl⟩ := Option.map_eq_some_iff.mp h
      have hle := ih hus
      simp only [List.length_cons]
      omega
  | case7 c s hquote hback ih =>
      obtain ⟨us, hus, rfl⟩ := Option.map_eq_some_iff.mp h
      exact Nat.succ_le_succ (ih hus)

/-- `HEXDIG`, in either case. -/
def hexDigit (c : UInt8) : Option ℕ :=
  if 0x30 ≤ c ∧ c ≤ 0x39 then some (c.toNat - 0x30)
  else if 0x61 ≤ c ∧ c ≤ 0x66 then some (c.toNat - 0x61 + 10)
  else if 0x41 ≤ c ∧ c ≤ 0x46 then some (c.toNat - 0x41 + 10)
  else none

/-- `4HEXDIG`: the UTF-16 code unit of an escape. -/
def codeUnit (h₁ h₂ h₃ h₄ : UInt8) : Option ℕ := do
  return (← hexDigit h₁) * 4096 + (← hexDigit h₂) * 256 + (← hexDigit h₃) * 16 + (← hexDigit h₄)

def IsHigh (n : ℕ) : Prop := 0xD800 ≤ n ∧ n < 0xDC00

def IsLow (n : ℕ) : Prop := 0xDC00 ≤ n ∧ n < 0xE000

/-- The two-character escapes. -/
def escapeValue (e : UInt8) : Option UInt8 :=
  if e = 0x22 then some 0x22
  else if e = 0x5C then some 0x5C
  else if e = 0x2F then some 0x2F
  else if e = 0x62 then some 0x08
  else if e = 0x66 then some 0x0C
  else if e = 0x6E then some 0x0A
  else if e = 0x72 then some 0x0D
  else if e = 0x74 then some 0x09
  else none

/-- `unescaped = %x20-21 / %x23-5B / %x5D-10FFFF`. -/
def Unescaped (c : Char) : Prop := 0x20 ≤ c.toNat ∧ c.toNat ≠ 0x22 ∧ c.toNat ≠ 0x5C

instance (c : Char) : Decidable (Unescaped c) := inferInstanceAs (Decidable (_ ∧ _))

/-- The units start with an escape of a low surrogate. -/
def StartsLow (us : List StringUnit) : Prop :=
  ∃ h₁ h₂ h₃ h₄ rest n, us = .unicode h₁ h₂ h₃ h₄ :: rest ∧ codeUnit h₁ h₂ h₃ h₄ = some n ∧ IsLow n

/-- A surrogate that is no half of a pair with what follows: it denotes no code point. -/
def Unpaired (n : ℕ) (us : List StringUnit) : Prop := IsLow n ∨ IsHigh n ∧ ¬ StartsLow us

/-- The units are a body of the standard, and it denotes the bytes.  An unpaired surrogate stands
for at least one byte; which ones, the standard leaves open. -/
inductive Denotes : List StringUnit → List UInt8 → Prop where
  | nil : Denotes [] []
  | char {c : Char} {us : List StringUnit} {s : List UInt8} (hc : Unescaped c)
      (h : Denotes us s) :
      Denotes ((String.utf8EncodeChar c).map .plain ++ us) (String.utf8EncodeChar c ++ s)
  | escape {e v : UInt8} {us : List StringUnit} {s : List UInt8} (he : escapeValue e = some v)
      (h : Denotes us s) : Denotes (.escape e :: us) (v :: s)
  | codePoint {h₁ h₂ h₃ h₄ : UInt8} {c : Char} {us : List StringUnit} {s : List UInt8}
      (hc : codeUnit h₁ h₂ h₃ h₄ = some c.toNat) (h : Denotes us s) :
      Denotes (.unicode h₁ h₂ h₃ h₄ :: us) (String.utf8EncodeChar c ++ s)
  | pair {h₁ h₂ h₃ h₄ l₁ l₂ l₃ l₄ : UInt8} {hi lo : ℕ} {c : Char} {us : List StringUnit}
      {s : List UInt8} (hhi : codeUnit h₁ h₂ h₃ h₄ = some hi) (hlo : codeUnit l₁ l₂ l₃ l₄ = some lo)
      (hhigh : IsHigh hi) (hlow : IsLow lo)
      (hc : c.toNat = 0x10000 + (hi - 0xD800) * 0x400 + (lo - 0xDC00)) (h : Denotes us s) :
      Denotes (.unicode h₁ h₂ h₃ h₄ :: .unicode l₁ l₂ l₃ l₄ :: us) (String.utf8EncodeChar c ++ s)
  | unpaired {h₁ h₂ h₃ h₄ : UInt8} {n : ℕ} {x : List UInt8} {us : List StringUnit}
      {s : List UInt8} (hn : codeUnit h₁ h₂ h₃ h₄ = some n) (hunpaired : Unpaired n us)
      (hx : x ≠ []) (h : Denotes us s) : Denotes (.unicode h₁ h₂ h₃ h₄ :: us) (x ++ s)

/-- `*char`: what stands between the quotes of a string. -/
def IsBody (b : List UInt8) : Prop := ∃ us s, units b = some us ∧ Denotes us s

/-! ## Phrases -/

inductive Token where
  | number (text : List UInt8)
  | string (body : List UInt8)
  deriving DecidableEq

/-- What the tokens are and what values phrases have. -/
structure Reading (V : Type) where
  null : V
  boolean : Bool → V
  str : List UInt8 → V
  array : List V → V
  object : List (List UInt8 × V) → V
  /-- The text is a number, with a value. -/
  number : List UInt8 → V → Prop
  /-- The bytes are the body of a string, which is this one. -/
  chars : List UInt8 → List UInt8 → Prop

/-- The reading takes the token for one. -/
def Reading.Reads {V : Type} (R : Reading V) : Token → Prop
  | .number t => ∃ v, R.number t v
  | .string b => ∃ s, R.chars b s

inductive Phrase (V : Type) where
  | value (v : V)
  /-- A value with the white space around it. -/
  | element (v : V)
  /-- The elements of an array that has some. -/
  | elements (a : List V)
  | members (o : List (List UInt8 × V))

def quoted (b : List UInt8) : List UInt8 := 0x22 :: b ++ [0x22]

/-- The text is such a phrase, and these are its tokens in order. -/
inductive Derives {V : Type} (R : Reading V) : Phrase V → List Token → List UInt8 → Prop where
  | null : Derives R (.value R.null) [] [0x6E, 0x75, 0x6C, 0x6C]
  | true : Derives R (.value (R.boolean true)) [] [0x74, 0x72, 0x75, 0x65]
  | false : Derives R (.value (R.boolean false)) [] [0x66, 0x61, 0x6C, 0x73, 0x65]
  | number {t : List UInt8} {v : V} (h : R.number t v) : Derives R (.value v) [.number t] t
  | string {b s : List UInt8} (h : R.chars b s) :
      Derives R (.value (R.str s)) [.string b] (quoted b)
  | emptyArray {w : List UInt8} (hw : Ws w) :
      Derives R (.value (R.array [])) [] (0x5B :: w ++ [0x5D])
  | array {a : List V} {toks : List Token} {t : List UInt8} (h : Derives R (.elements a) toks t) :
      Derives R (.value (R.array a)) toks (0x5B :: t ++ [0x5D])
  | emptyObject {w : List UInt8} (hw : Ws w) :
      Derives R (.value (R.object [])) [] (0x7B :: w ++ [0x7D])
  | object {o : List (List UInt8 × V)} {toks : List Token} {t : List UInt8}
      (h : Derives R (.members o) toks t) :
      Derives R (.value (R.object o)) toks (0x7B :: t ++ [0x7D])
  | element {v : V} {toks : List Token} {w t w' : List UInt8} (hw : Ws w)
      (h : Derives R (.value v) toks t) (hw' : Ws w') :
      Derives R (.element v) toks (w ++ t ++ w')
  | single {v : V} {toks : List Token} {t : List UInt8} (h : Derives R (.element v) toks t) :
      Derives R (.elements [v]) toks t
  | cons {v : V} {a : List V} {toks toks' : List Token} {t t' : List UInt8}
      (h : Derives R (.element v) toks t) (h' : Derives R (.elements a) toks' t') :
      Derives R (.elements (v :: a)) (toks ++ toks') (t ++ 0x2C :: t')
  | member {k s : List UInt8} {v : V} {toks : List Token} {w w' t : List UInt8} (hw : Ws w)
      (hk : R.chars k s) (hw' : Ws w') (h : Derives R (.element v) toks t) :
      Derives R (.members [(s, v)]) (.string k :: toks) (w ++ quoted k ++ w' ++ 0x3A :: t)
  | consMember {k s : List UInt8} {v : V} {o : List (List UInt8 × V)} {toks toks' : List Token}
      {w w' t t' : List UInt8} (hw : Ws w) (hk : R.chars k s) (hw' : Ws w')
      (h : Derives R (.element v) toks t) (h' : Derives R (.members o) toks' t') :
      Derives R (.members ((s, v) :: o)) (.string k :: toks ++ toks')
        (w ++ quoted k ++ w' ++ 0x3A :: t ++ 0x2C :: t')

/-! ## Tokens of a derivation -/

section Tokens

variable {V : Type} {R : Reading V} {p : Phrase V} {toks : List Token} {t : List UInt8}

/-- Every token of a derivation is read. -/
theorem Derives.reads (h : Derives R p toks t) : ∀ tok ∈ toks, R.Reads tok := by
  induction h with
  | null => simp
  | true => simp
  | false => simp
  | number h => exact List.forall_mem_singleton.mpr ⟨_, h⟩
  | string h => exact List.forall_mem_singleton.mpr ⟨_, h⟩
  | emptyArray hw => simp
  | array h ih => exact ih
  | emptyObject hw => simp
  | object h ih => exact ih
  | element hw h hw' ih => exact ih
  | single h ih => exact ih
  | cons h h' ih ih' =>
      intro tok htok
      exact (List.mem_append.mp htok).elim (ih tok) (ih' tok)
  | member hw hk hw' h ih =>
      intro tok htok
      rcases List.mem_cons.mp htok with rfl | htok
      · exact ⟨_, hk⟩
      · exact ih tok htok
  | consMember hw hk hw' h h' ih ih' =>
      intro tok htok
      rcases List.mem_cons.mp htok with rfl | htok
      · exact ⟨_, hk⟩
      · exact (List.mem_append.mp htok).elim (ih tok) (ih' tok)

/-- A derivation carries over to a reading that agrees on the tokens of the text. -/
theorem Derives.reread {number : List UInt8 → V → Prop} {chars : List UInt8 → List UInt8 → Prop}
    (h : Derives R p toks t)
    (hnumber : ∀ n v, .number n ∈ toks → R.number n v → number n v)
    (hchars : ∀ b s, .string b ∈ toks → R.chars b s → chars b s) :
    Derives { R with number, chars } p toks t := by
  induction h with
  | null => exact .null (R := { R with number, chars })
  | true => exact .true (R := { R with number, chars })
  | false => exact .false (R := { R with number, chars })
  | number h => exact .number (hnumber _ _ (by simp) h)
  | string h => exact .string (R := { R with number, chars }) (hchars _ _ (by simp) h)
  | emptyArray hw => exact .emptyArray (R := { R with number, chars }) hw
  | array h ih => exact .array (R := { R with number, chars }) (ih hnumber hchars)
  | emptyObject hw => exact .emptyObject (R := { R with number, chars }) hw
  | object h ih => exact .object (R := { R with number, chars }) (ih hnumber hchars)
  | element hw h hw' ih => exact .element hw (ih hnumber hchars) hw'
  | single h ih => exact .single (ih hnumber hchars)
  | cons h h' ih ih' =>
      exact .cons (ih (fun n v hn => hnumber n v (by simp [hn])) fun b s hb =>
          hchars b s (by simp [hb]))
        (ih' (fun n v hn => hnumber n v (by simp [hn])) fun b s hb => hchars b s (by simp [hb]))
  | member hw hk hw' h ih =>
      exact .member hw (hchars _ _ (by simp) hk) hw'
        (ih (fun n v hn => hnumber n v (by simp [hn])) fun b s hb => hchars b s (by simp [hb]))
  | consMember hw hk hw' h h' ih ih' =>
      exact .consMember hw (hchars _ _ (by simp) hk) hw'
        (ih (fun n v hn => hnumber n v (by simp [hn])) fun b s hb => hchars b s (by simp [hb]))
        (ih' (fun n v hn => hnumber n v (by simp [hn])) fun b s hb => hchars b s (by simp [hb]))

/-- The value of a member is a part of the text. -/
theorem Derives.exists_element {o : List (List UInt8 × V)} (h : Derives R (.members o) toks t)
    {m : List UInt8 × V} (hm : m ∈ o) :
    ∃ toks' t', Derives R (.element m.2) toks' t' ∧ t'.length ≤ t.length := by
  induction o generalizing toks t with
  | nil => cases hm
  | cons first o ih =>
      cases h with
      | @member k s v toks w w' t hw hk hw' h =>
          obtain rfl := List.mem_singleton.mp hm
          refine ⟨toks, t, h, ?_⟩
          simp only [List.length_append, List.length_cons]
          omega
      | @consMember k s v o toks toks' w w' t t' hw hk hw' h h' =>
          simp only [List.length_append, List.length_cons]
          rcases List.mem_cons.mp hm with rfl | hm
          · exact ⟨toks, t, h, by omega⟩
          · obtain ⟨toks₁, t₁, h₁, hle⟩ := ih h' hm
            exact ⟨toks₁, t₁, h₁, by omega⟩

/-- White space in front of an element is part of it. -/
theorem Derives.ws_elements {a : List V} {w : List UInt8} (hw : Ws w)
    (h : Derives R (.elements a) toks t) : Derives R (.elements a) toks (w ++ t) := by
  have helement : ∀ {v : V} {toks : List Token} {t : List UInt8},
      Derives R (.element v) toks t → Derives R (.element v) toks (w ++ t) := by
    intro v toks t h
    cases h with
    | @element _ _ w₁ t w' hw₁ h hw' =>
        have hws : Ws (w ++ w₁) := fun c hc => (List.mem_append.mp hc).elim (hw c) (hw₁ c)
        simpa only [List.append_assoc] using Derives.element hws h hw'
  cases h with
  | single h => exact .single (helement h)
  | cons h h' => simpa only [List.append_assoc] using Derives.cons (helement h) h'

/-- INTERNAL: white space may stand in front of members. -/
theorem Derives.ws_members {o : List (List UInt8 × V)} {w : List UInt8} (hw : Ws w)
    (h : Derives R (.members o) toks t) : Derives R (.members o) toks (w ++ t) := by
  cases h with
  | @member k s v toks w₁ w' t hw₁ hk hw' h =>
      have hws : Ws (w ++ w₁) := fun c hc => (List.mem_append.mp hc).elim (hw c) (hw₁ c)
      simpa only [List.append_assoc] using Derives.member hws hk hw' h
  | @consMember k s v o toks toks' w₁ w' t t' hw₁ hk hw' h h' =>
      have hws : Ws (w ++ w₁) := fun c hc => (List.mem_append.mp hc).elim (hw c) (hw₁ c)
      simpa only [List.append_assoc] using Derives.consMember hws hk hw' h h'

end Tokens

/-! ## Finding the tokens -/

/-- Where the automaton is, with what it has of the token it is in. -/
inductive LexState where
  | between
  | number (acc : List UInt8)
  | string (acc : List UInt8)
  /-- Behind a backslash. -/
  | escape (acc : List UInt8)
  /-- Before the digits that are left of an escape. -/
  | hex (acc : List UInt8) (left : ℕ)

/-- The tokens of a text. -/
def scan : LexState → List UInt8 → List Token
  | .number acc, [] => [.number acc]
  | _, [] => []
  | .between, c :: s =>
      if c = 0x22 then scan (.string []) s
      else if startsNumber c then scan (.number [c]) s
      else scan .between s
  | .number acc, c :: s =>
      if isNumberByte c then scan (.number (acc ++ [c])) s
      else .number acc :: if c = 0x22 then scan (.string []) s else scan .between s
  | .string acc, c :: s =>
      if c = 0x22 then .string acc :: scan .between s
      else if c = 0x5C then scan (.escape (acc ++ [c])) s
      else scan (.string (acc ++ [c])) s
  | .escape acc, c :: s =>
      if c = 0x75 then scan (.hex (acc ++ [c]) 4) s else scan (.string (acc ++ [c])) s
  | .hex acc left, c :: s =>
      if left ≤ 1 then scan (.string (acc ++ [c])) s else scan (.hex (acc ++ [c]) (left - 1)) s

/-- A text that is no part of a number before it. -/
def EndsNumber (rest : List UInt8) : Prop := ∀ c ∈ rest.head?, isNumberByte c = false

/-- INTERNAL: a number ends at the end of the text. -/
theorem endsNumber_nil : EndsNumber [] := by simp [EndsNumber]

/-- INTERNAL: a number ends in front of any byte that is not one of a number. -/
theorem endsNumber_cons {c : UInt8} (h : isNumberByte c = false) (s : List UInt8) :
    EndsNumber (c :: s) := by
  simpa [EndsNumber] using h

/-- A byte that starts a number may stand in it. -/
theorem isNumberByte_of_startsNumber {c : UInt8} (h : startsNumber c = true) :
    isNumberByte c = true := by
  rw [startsNumber, Bool.or_eq_true, decide_eq_true_eq, decide_eq_true_eq] at h
  rcases h with rfl | h
  · rfl
  · exact isNumberByte_of_isDigit h

/-- A byte that starts no token is passed over. -/
theorem scan_between {c : UInt8} (hquote : c ≠ 0x22) (hnumber : startsNumber c = false)
    (s : List UInt8) : scan .between (c :: s) = scan .between s := by
  rw [scan, if_neg hquote, hnumber, if_neg Bool.false_ne_true]

/-- Between tokens the scanner skips what starts none. -/
theorem scan_skip {w : List UInt8} (hw : ∀ c ∈ w, c ≠ 0x22 ∧ startsNumber c = false)
    (s : List UInt8) : scan .between (w ++ s) = scan .between s := by
  induction w with
  | nil => rfl
  | cons c w ih =>
      obtain ⟨hquote, hnumber⟩ := hw c (by simp)
      rw [List.cons_append, scan_between hquote hnumber]
      exact ih fun x hx => hw x (by simp [hx])

/-- INTERNAL: white space starts no token and is no byte of a number. -/
theorem isWs_cases {c : UInt8} (h : isWs c = true) :
    c ≠ 0x22 ∧ startsNumber c = false ∧ isNumberByte c = false := by
  simp only [isWs, Bool.or_eq_true, decide_eq_true_eq] at h
  rcases h with ((rfl | rfl) | rfl) | rfl <;> decide

/-- The scanner skips white space. -/
theorem scan_ws {w : List UInt8} (hw : Ws w) (s : List UInt8) :
    scan .between (w ++ s) = scan .between s := by
  apply scan_skip
  intro c hc
  obtain ⟨hquote, hnumber, -⟩ := isWs_cases (hw c hc)
  exact ⟨hquote, hnumber⟩

/-- INTERNAL: white space ends a number. -/
theorem endsNumber_ws {w rest : List UInt8} (hw : Ws w) (hrest : EndsNumber rest) :
    EndsNumber (w ++ rest) := by
  cases w with
  | nil => exact hrest
  | cons c w => exact endsNumber_cons (isWs_cases (hw c (by simp))).2.2 _

/-- The scanner gives out a number when it ends. -/
theorem scan_number (t : List UInt8) {rest : List UInt8} (ht : ∀ c ∈ t, isNumberByte c = true)
    (hrest : EndsNumber rest) (acc : List UInt8) :
    scan (.number acc) (t ++ rest) = .number (acc ++ t) :: scan .between rest := by
  induction t generalizing acc with
  | nil =>
      rw [List.nil_append, List.append_nil]
      cases rest with
      | nil => rfl
      | cons c s =>
          have hc : isNumberByte c = false := hrest c rfl
          have hstart : startsNumber c = false := by
            by_contra h
            rw [isNumberByte_of_startsNumber (Bool.eq_true_of_not_eq_false h)] at hc
            cases hc
          simp [scan, hc, hstart]
  | cons c t ih =>
      rw [List.cons_append, scan, ht c (by simp), if_pos rfl, ih fun x hx => ht x (by simp [hx])]
      rw [List.append_assoc, List.singleton_append]

/-- The automaton reads a number that nothing continues. -/
theorem scan_numberShape {t rest : List UInt8} (h : NumberShape t) (hrest : EndsNumber rest) :
    scan .between (t ++ rest) = .number t :: scan .between rest := by
  obtain ⟨c, s, rfl, hc⟩ := h.start
  have hquote : c ≠ 0x22 := by
    rintro rfl
    cases hc
  rw [List.cons_append, scan, if_neg hquote, if_pos hc,
    scan_number s (fun x hx => h.bytes x (by simp [hx])) hrest, List.singleton_append]

/-- The automaton reads a body up to its closing quote. -/
theorem scan_units (b rest : List UInt8) (hb : (units b).isSome) (acc : List UInt8) :
    scan (.string acc) (b ++ 0x22 :: rest) = .string (acc ++ b) :: scan .between rest := by
  fun_induction units b generalizing acc with
  | case1 => simp [scan]
  | case2 s => cases hb
  | case3 => cases hb
  | case4 h₁ h₂ h₃ h₄ s hquote ih =>
      have hs := ih (by simpa using hb) (acc ++ [0x5C, 0x75, h₁, h₂, h₃, h₄])
      simpa [scan] using hs
  | case5 => cases hb
  | case6 e s he hquote ih =>
      have hs := ih (by simpa using hb) (acc ++ [0x5C, e])
      simpa [scan, he] using hs
  | case7 c s hquote hback ih =>
      have hs := ih (by simpa using hb) (acc ++ [c])
      simpa [scan, hquote, hback] using hs

/-- What the automaton needs of a token to recognise it. -/
def TokenShape : Token → Prop
  | .number t => NumberShape t
  | .string b => (units b).isSome

/-- The scanner gives out a string at its closing quote. -/
theorem scan_quoted {b : List UInt8} (h : TokenShape (.string b)) (rest : List UInt8) :
    scan .between (quoted b ++ rest) = .string b :: scan .between rest := by
  rw [quoted, List.cons_append, List.cons_append, scan, if_pos rfl, List.append_assoc]
  exact scan_units b rest h []

/-- What stands between two brackets is scanned on its own. -/
theorem scan_wrapped {l r : UInt8} {t rest : List UInt8} {toks : List Token}
    (hl : l ≠ 0x22 ∧ startsNumber l = false) (hr : r ≠ 0x22 ∧ startsNumber r = false)
    (h : scan .between (t ++ r :: rest) = toks ++ scan .between (r :: rest)) :
    scan .between (l :: t ++ [r] ++ rest) = toks ++ scan .between rest := by
  rw [List.cons_append, List.cons_append, scan_between hl.1 hl.2, List.append_assoc,
    List.singleton_append, h, scan_between hr.1 hr.2]

/-- The automaton finds the tokens of a derivation.  The induction is over the derivation, and
what follows a phrase never continues a number in it. -/
theorem scan_derives {V : Type} {R : Reading V} {p : Phrase V} {toks : List Token}
    {t : List UInt8} (h : Derives R p toks t) (hshape : ∀ tok ∈ toks, TokenShape tok) :
    ∀ {rest : List UInt8}, EndsNumber rest →
      scan .between (t ++ rest) = toks ++ scan .between rest := by
  induction h with
  | null => intro rest _; exact scan_skip (by simp [startsNumber, IsDigit]) rest
  | true => intro rest _; exact scan_skip (by simp [startsNumber, IsDigit]) rest
  | false => intro rest _; exact scan_skip (by simp [startsNumber, IsDigit]) rest
  | @number t v h =>
      intro rest hrest
      exact scan_numberShape (hshape (.number t) (by simp)) hrest
  | @string b s h => intro rest _; exact scan_quoted (hshape _ (by simp)) rest
  | emptyArray hw => intro rest _; exact scan_wrapped (by decide) (by decide) (scan_ws hw _)
  | array h ih =>
      intro rest _
      exact scan_wrapped (by decide) (by decide) (ih hshape (endsNumber_cons (by decide) _))
  | emptyObject hw => intro rest _; exact scan_wrapped (by decide) (by decide) (scan_ws hw _)
  | object h ih =>
      intro rest _
      exact scan_wrapped (by decide) (by decide) (ih hshape (endsNumber_cons (by decide) _))
  | element hw h hw' ih =>
      intro rest hrest
      rw [List.append_assoc, List.append_assoc, scan_ws hw, ih hshape (endsNumber_ws hw' hrest),
        scan_ws hw']
  | single h ih => exact ih hshape
  | cons h h' ih ih' =>
      intro rest hrest
      rw [List.append_assoc, List.cons_append,
        ih (fun tok htok => hshape tok (by simp [htok])) (endsNumber_cons (by decide) _),
        scan_between (by decide) (by decide),
        ih' (fun tok htok => hshape tok (by simp [htok])) hrest, List.append_assoc]
  | @member k s v toks w w' t hw hk hw' h ih =>
      intro rest hrest
      have hkey : TokenShape (.string k) := hshape _ (by simp)
      simp only [List.append_assoc, List.cons_append]
      rw [scan_ws hw, scan_quoted hkey, scan_ws hw', scan_between (by decide) (by decide),
        ih (fun tok htok => hshape tok (by simp [htok])) hrest]
  | @consMember k s v o toks toks' w w' t t' hw hk hw' h h' ih ih' =>
      intro rest hrest
      have hkey : TokenShape (.string k) := hshape _ (by simp)
      simp only [List.append_assoc, List.cons_append]
      rw [scan_ws hw, scan_quoted hkey, scan_ws hw', scan_between (by decide) (by decide),
        ih (fun tok htok => hshape tok (by simp [htok])) (endsNumber_cons (by decide) _),
        scan_between (by decide) (by decide),
        ih' (fun tok htok => hshape tok (by simp [htok])) hrest]

/-- A text has one sequence of tokens, whatever its reading. -/
theorem scan_eq {V : Type} {R : Reading V} {p : Phrase V} {toks : List Token} {t : List UInt8}
    (h : Derives R p toks t) (hshape : ∀ tok ∈ toks, TokenShape tok) :
    scan .between t = toks := by
  have hscan := scan_derives h hshape endsNumber_nil
  simpa [scan] using hscan

/-! ## What a body denotes -/

/-- Every escape of a code unit is one of an ASCII character, or of a surrogate that denotes no
code point. -/
def AsciiEscapes : List StringUnit → Prop
  | [] => True
  | .unicode h₁ h₂ h₃ h₄ :: us =>
      (∃ n, codeUnit h₁ h₂ h₃ h₄ = some n ∧ (n < 0x80 ∨ Unpaired n us)) ∧ AsciiEscapes us
  | _ :: us => AsciiEscapes us

/-- Plain bytes say nothing about escapes. -/
theorem asciiEscapes_plain (x : List UInt8) (us : List StringUnit) :
    AsciiEscapes (x.map .plain ++ us) ↔ AsciiEscapes us := by
  induction x with
  | nil => rfl
  | cons c x ih => simpa [AsciiEscapes] using ih

/-- INTERNAL: the characters of one byte are those below `0x80`. -/
theorem utf8Size_eq_one_iff_lt {c : Char} : c.utf8Size = 1 ↔ c.toNat < 0x80 := by
  rw [Char.utf8Size_eq_one_iff, UInt32.le_iff_toNat_le]
  exact Nat.lt_succ_iff.symm

/-- A body denotes at least a byte for each unit, and no more than that only if its escapes
stand for single bytes. -/
theorem Denotes.length_le {us : List StringUnit} {s : List UInt8} (h : Denotes us s) :
    us.length ≤ s.length ∧ (us.length = s.length → AsciiEscapes us) := by
  induction h with
  | nil => exact ⟨le_rfl, fun _ => trivial⟩
  | char hc h ih =>
      rw [asciiEscapes_plain]
      simp only [List.length_append, List.length_map]
      exact ⟨by omega, fun heq => ih.2 (by omega)⟩
  | escape he h ih =>
      simp only [List.length_cons]
      exact ⟨by omega, fun heq => ih.2 (by omega)⟩
  | @codePoint h₁ h₂ h₃ h₄ c us s hc h ih =>
      have hpos := c.utf8Size_pos
      simp only [List.length_cons, List.length_append, String.length_utf8EncodeChar]
      refine ⟨by omega, fun heq => ⟨⟨_, hc, .inl ?_⟩, ih.2 (by omega)⟩⟩
      exact utf8Size_eq_one_iff_lt.mp (by omega)
  | @pair h₁ h₂ h₃ h₄ l₁ l₂ l₃ l₄ hi lo c us s hhi hlo hhigh hlow hc h ih =>
      have hfour : c.utf8Size = 4 := by
        rw [Char.utf8Size_eq_four_iff, UInt32.lt_iff_toNat_lt]
        change 0xffff < c.toNat
        omega
      simp only [List.length_cons, List.length_append, String.length_utf8EncodeChar]
      exact ⟨by omega, fun heq => by omega⟩
  | unpaired hn hunpaired hx h ih =>
      have hpos := List.length_pos_iff.mpr hx
      simp only [List.length_cons, List.length_append]
      exact ⟨by omega, fun heq => ⟨⟨_, hn, .inr hunpaired⟩, ih.2 (by omega)⟩⟩

end CompilationFabric.Library.JsonGrammar
