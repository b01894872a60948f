import CompilationFabric.Interface.JsonFields
import CompilationFabric.Library.JsonGrammar
import CompilationFabric.Library.MonadicMap

/-!
# What the JSON parser accepts

A text that `Json.parse` accepts is one of the grammar of JSON, read with the parser's own idea of
a number and of the characters of a string, and its value is the one the grammar gives it
(`derives_of_parse`).  The induction is over the bound on the recursion, for values, members and
elements together.

The parser takes a number to be any run of the characters of numbers that `strtod` can start on,
and every byte but the quote and the backslash to be a character of a string.
-/

set_option autoImplicit false

namespace CompilationFabric.Interface

open CompilationFabric.Library
open CompilationFabric.Library.DecimalText (isDigit minus strtod)
open CompilationFabric.Library.JsonGrammar (Derives EndsNumber IsDigit LexState NumberShape Phrase
  Reading StringUnit Token TokenShape Ws isNumberByte isWs quoted startsNumber units units_escape
  units_plain units_unicode)
open CompilationFabric.Model
open CompilationFabric.Model.Json

/-! ## Characters -/

/-- White space is the same for the parser and for the standard. -/
theorem isWs_eq_isSpace (c : UInt8) : isWs c = isSpace c := by
  rw [isWs, isSpace, Bool.or_assoc (_ || _), Bool.or_assoc (_ || _), Bool.or_comm (decide (c = 0x0A))]

/-- Digits are the same for the parser and for the standard. -/
theorem isDigit_iff (c : UInt8) : IsDigit c ↔ isDigit c = true := by
  rw [isDigit, Bool.and_eq_true, decide_eq_true_eq, decide_eq_true_eq]
  rfl

/-- So are the bytes of a number. -/
theorem isNumberByte_eq (c : UInt8) : isNumberByte c = isNumberChar c := by
  have hdigit : decide (IsDigit c) = isDigit c := by
    rw [Bool.eq_iff_iff, decide_eq_true_eq, isDigit_iff]
  rw [isNumberByte, hdigit]
  rfl

/-- What `skipWs` passes over is white space. -/
theorem exists_ws (s : Bytes) : ∃ w, Ws w ∧ s = w ++ skipWs s := by
  refine ⟨s.takeWhile isSpace, ?_, (List.takeWhile_append_dropWhile).symm⟩
  intro c hc
  rw [isWs_eq_isSpace]
  exact List.mem_takeWhile_imp hc

/-! ## Strings -/

/-- The byte that `parseString` appends for a unit.
SOURCE: Json.cpp:123-153 -/
def unitByte : StringUnit → Option UInt8
  | .plain c => some c
  | .escape e => unescape e
  | .unicode h₁ h₂ h₃ h₄ => some (strtoul16 [h₁, h₂, h₃, h₄]).toUInt8

/-- A string that is read is a body and a quote. -/
theorem parseChars_eq_some {s out rest : Bytes} (h : parseChars s = some (out, rest)) :
    ∃ b us, s = b ++ quote :: rest ∧ units b = some us ∧ us.mapM unitByte = some out := by
  fun_induction parseChars s generalizing out with
  | case1 => cases h
  | case2 s =>
      cases h
      exact ⟨[], [], rfl, rfl, rfl⟩
  | case3 => cases h
  | case4 h₁ h₂ h₃ h₄ s hquote ih =>
      obtain ⟨⟨out', rest'⟩, hs, hout⟩ := Option.bind_eq_some_iff.mp h
      cases hout
      obtain ⟨b, us, rfl, hunits, hbytes⟩ := ih hs
      refine ⟨backslash :: letterU :: h₁ :: h₂ :: h₃ :: h₄ :: b, .unicode h₁ h₂ h₃ h₄ :: us, rfl,
        ?_, ?_⟩
      · exact (units_unicode h₁ h₂ h₃ h₄ b).trans (by rw [hunits, Option.map_some])
      · simp [unitByte, hbytes]
  | case5 => cases h
  | case6 e s he hquote ih =>
      obtain ⟨c, hc, h⟩ := Option.bind_eq_some_iff.mp h
      obtain ⟨⟨out', rest'⟩, hs, hout⟩ := Option.bind_eq_some_iff.mp h
      cases hout
      obtain ⟨b, us, rfl, hunits, hbytes⟩ := ih hs
      refine ⟨backslash :: e :: b, .escape e :: us, rfl, ?_, ?_⟩
      · exact (units_escape he b).trans (by rw [hunits, Option.map_some])
      · simp [unitByte, hc, hbytes]
  | case7 c s hquote hback ih =>
      obtain ⟨⟨out', rest'⟩, hs, hout⟩ := Option.bind_eq_some_iff.mp h
      cases hout
      obtain ⟨b, us, rfl, hunits, hbytes⟩ := ih hs
      refine ⟨c :: b, .plain c :: us, rfl, ?_, ?_⟩
      · exact (units_plain hquote hback b).trans (by rw [hunits, Option.map_some])
      · simp [unitByte, hbytes]

/-- A body and a quote are read as the bytes of its units. -/
theorem parseChars_of_units {b : Bytes} {us : List StringUnit} (h : units b = some us)
    (rest : Bytes) :
    parseChars (b ++ quote :: rest) = (us.mapM unitByte).map fun out => (out, rest) := by
  fun_induction units b generalizing us with
  | case1 =>
      cases h
      exact parseChars_quote rest
  | case2 => cases h
  | case3 => cases h
  | case4 h₁ h₂ h₃ h₄ s hquote ih =>
      obtain ⟨us, hus, rfl⟩ := Option.map_eq_some_iff.mp h
      have hread := parseChars_unicode h₁ h₂ h₃ h₄ (s ++ quote :: rest)
      rw [ih hus] at hread
      refine hread.trans ?_
      cases hbytes : us.mapM unitByte <;> simp [unitByte, hbytes]
  | case5 => cases h
  | case6 e s he hquote ih =>
      obtain ⟨us, hus, rfl⟩ := Option.map_eq_some_iff.mp h
      have he' : e ≠ letterU := he
      cases hc : unescape e with
      | none =>
          rw [List.cons_append, List.cons_append, parseChars.eq_def]
          simp [quote, he', hc, unitByte, backslash]
      | some c =>
          have hread := parseChars_unescape he' hc (s ++ quote :: rest)
          rw [ih hus] at hread
          refine hread.trans ?_
          cases hbytes : us.mapM unitByte <;> simp [unitByte, hc, hbytes]
  | case7 c s hquote hback ih =>
      obtain ⟨us, hus, rfl⟩ := Option.map_eq_some_iff.mp h
      have hread := parseChars_plain hquote hback (s ++ quote :: rest)
      rw [ih hus] at hread
      refine hread.trans ?_
      cases hbytes : us.mapM unitByte <;> simp [unitByte, hbytes]

/-- Every unit makes one byte. -/
theorem mapM_unit {u : StringUnit} {us : List StringUnit} {s : Bytes}
    (h : (u :: us).mapM unitByte = some s) :
    ∃ c s₀, unitByte u = some c ∧ us.mapM unitByte = some s₀ ∧ s = c :: s₀ := by
  rw [List.mapM_cons] at h
  obtain ⟨c, hc, h⟩ := Option.bind_eq_some_iff.mp h
  obtain ⟨s₀, hs₀, h⟩ := Option.bind_eq_some_iff.mp h
  exact ⟨c, s₀, hc, hs₀, (Option.some_inj.mp h).symm⟩

/-- INTERNAL: every unit stands for one byte. -/
theorem length_mapM_unitByte {us : List StringUnit} {s : Bytes} (h : us.mapM unitByte = some s) :
    us.length = s.length :=
  (MonadicMap.forall₂_of_mapM_some h).length_eq

/-! ## Phrases -/

/-- The grammar as the parser reads it.
SOURCE: Json.cpp:86-172 -/
def parserReading : Reading Json where
  null := .null
  boolean := .boolean
  str := .str
  array := .array
  object o := .object (insertAll [] o)
  number t v := NumberShape t ∧ ∃ d, strtod t = some d ∧ v = .number d
  chars b s := ∃ us, units b = some us ∧ us.mapM unitByte = some s

variable {fuel : ℕ} {s rest : Bytes} {j : Json}

/-- A literal that is accepted stood there. -/
theorem parseLiteral_eq_some {text : String} {v : Json} (h : parseLiteral s text v = some (j, rest)) :
    j = v ∧ s = ascii text ++ rest := by
  unfold parseLiteral at h
  split at h
  · next heq =>
    cases h
    refine ⟨rfl, ?_⟩
    conv_lhs => rw [← List.take_append_drop (ascii text).length s, heq]
  · cases h

/-- A number is all of the characters of numbers in front. -/
theorem parseNumber_eq_some {c : UInt8} (hc : startsNumber c = true)
    (h : parseNumber (c :: s) = some (j, rest)) :
    ∃ t, c :: s = t ++ rest ∧ Derives parserReading (.value j) [.number t] t := by
  obtain ⟨d, hd, h⟩ := Option.bind_eq_some_iff.mp h
  cases h
  refine ⟨(c :: s).takeWhile isNumberChar, (List.takeWhile_append_dropWhile).symm, .number ⟨⟨?_, ?_⟩,
    d, hd, rfl⟩⟩
  · have hbyte := JsonGrammar.isNumberByte_of_startsNumber hc
    rw [isNumberByte_eq] at hbyte
    exact ⟨c, s.takeWhile isNumberChar, List.takeWhile_cons_of_pos hbyte, hc⟩
  · intro x hx
    rw [isNumberByte_eq]
    exact List.mem_takeWhile_imp hx

/-- What the three recursive functions make of a text, as far as a bound on their recursion goes. -/
structure ParsesPhrases (fuel : ℕ) : Prop where
  value : ∀ {s : Bytes} {j : Json} {rest : Bytes}, parseValue fuel s = some (j, rest) →
    ∃ w t toks, Ws w ∧ s = w ++ t ++ rest ∧ Derives parserReading (.value j) toks t
  members : ∀ {s : Bytes} {acc : List (Bytes × Json)} {j : Json} {rest : Bytes},
    parseMembers fuel s acc = some (j, rest) →
    ∃ o t toks, s = t ++ closeBrace :: rest ∧ j = .object (insertAll acc o) ∧
      Derives parserReading (.members o) toks t
  elements : ∀ {s : Bytes} {acc : List Json} {j : Json} {rest : Bytes},
    parseElements fuel s acc = some (j, rest) →
    ∃ a t toks, s = t ++ closeBracket :: rest ∧ j = .array (acc ++ a) ∧
      Derives parserReading (.elements a) toks t

/-- A value with the white space behind it. -/
theorem ParsesPhrases.element (ih : ParsesPhrases fuel) (h : parseValue fuel s = some (j, rest)) :
    ∃ t toks, s = t ++ skipWs rest ∧ Derives parserReading (.element j) toks t := by
  obtain ⟨w, t, toks, hw, rfl, hderives⟩ := ih.value h
  obtain ⟨w', hw', hrest⟩ := exists_ws rest
  refine ⟨w ++ t ++ w', toks, ?_, .element hw hderives hw'⟩
  conv_lhs => rw [hrest, ← List.append_assoc]

/-- SOURCE: Json.cpp:74-85 -/
theorem ParsesPhrases.value_succ (ih : ParsesPhrases fuel)
    (h : parseValue (fuel + 1) s = some (j, rest)) :
    ∃ w t toks, Ws w ∧ s = w ++ t ++ rest ∧ Derives parserReading (.value j) toks t := by
  obtain ⟨w, hw, hs⟩ := exists_ws s
  rw [parseValue] at h
  suffices hvalue : ∃ t toks, skipWs s = t ++ rest ∧ Derives parserReading (.value j) toks t by
    obtain ⟨t, toks, ht, hderives⟩ := hvalue
    exact ⟨w, t, toks, hw, by rw [hs, ht, List.append_assoc], hderives⟩
  clear hs hw
  cases hskip : skipWs s with
  | nil => simp [hskip] at h
  | cons c s =>
      simp only [hskip] at h
      split at h
      · next hc =>
        subst hc
        obtain ⟨w', hw', hs⟩ := exists_ws s
        split at h
        · next d t hskip' =>
          rw [hskip'] at hs
          split at h
          · next hd =>
            cases h
            subst hd
            exact ⟨_, _, by rw [hs]; simp [openBrace, closeBrace], .emptyObject hw'⟩
          · obtain ⟨o, txt, toks, htext, rfl, hderives⟩ := ih.members h
            exact ⟨_, _, by rw [hs, htext]; simp [openBrace, closeBrace],
              .object (hderives.ws_members hw')⟩
        · cases h
      split at h
      · next hc =>
        subst hc
        obtain ⟨w', hw', hs⟩ := exists_ws s
        split at h
        · next d t hskip' =>
          rw [hskip'] at hs
          split at h
          · next hd =>
            cases h
            subst hd
            exact ⟨_, _, by rw [hs]; simp [openBracket, closeBracket], .emptyArray hw'⟩
          · obtain ⟨a, txt, toks, htext, rfl, hderives⟩ := ih.elements h
            exact ⟨_, _, by rw [hs, htext]; simp [openBracket, closeBracket],
              .array (hderives.ws_elements hw')⟩
        · cases h
      split at h
      · next hc =>
        subst hc
        obtain ⟨⟨out, rest'⟩, hread, h⟩ := Option.bind_eq_some_iff.mp h
        cases h
        obtain ⟨b, us, rfl, hunits, hbytes⟩ := parseChars_eq_some hread
        exact ⟨_, _, by simp [quoted, quote], .string ⟨us, hunits, hbytes⟩⟩
      split at h
      · cases htrue : parseLiteral (c :: s) "true" (.boolean true) with
        | some read =>
            rw [htrue] at h
            cases h
            obtain ⟨rfl, hs⟩ := parseLiteral_eq_some htrue
            exact ⟨_, _, hs, .true⟩
        | none =>
            rw [htrue] at h
            obtain ⟨rfl, hs⟩ := parseLiteral_eq_some h
            exact ⟨_, _, hs, .false⟩
      split at h
      · obtain ⟨rfl, hs⟩ := parseLiteral_eq_some h
        exact ⟨_, _, hs, .null⟩
      split at h
      · next hc =>
        obtain ⟨t, ht, hderives⟩ := parseNumber_eq_some (by
          rw [startsNumber, Bool.or_eq_true, decide_eq_true_eq, decide_eq_true_eq, isDigit_iff]
          exact hc) h
        exact ⟨t, _, ht, hderives⟩
      · cases h

/-- SOURCE: Json.cpp:91-105 -/
theorem ParsesPhrases.members_succ (ih : ParsesPhrases fuel) {acc : List (Bytes × Json)}
    (h : parseMembers (fuel + 1) s acc = some (j, rest)) :
    ∃ o t toks, s = t ++ closeBrace :: rest ∧ j = .object (insertAll acc o) ∧
      Derives parserReading (.members o) toks t := by
  obtain ⟨w, hw, hs⟩ := exists_ws s
  rw [parseMembers] at h
  cases hskip : skipWs s with
  | nil => simp [hskip] at h
  | cons c s₁ =>
      rw [hskip] at h hs
      simp only at h
      split at h
      · cases h
      next hc =>
      obtain rfl := of_not_not hc
      replace h := Option.bind_eq_some_iff.mp h
      obtain ⟨⟨key, s₂⟩, hkey, h⟩ := h
      obtain ⟨b, us, rfl, hunits, hbytes⟩ := parseChars_eq_some hkey
      have hchars : parserReading.chars b key := ⟨us, hunits, hbytes⟩
      obtain ⟨w', hw', hs₂⟩ := exists_ws s₂
      simp only at h
      cases hskip₂ : skipWs s₂ with
      | nil => simp [hskip₂] at h
      | cons d s₃ =>
          rw [hskip₂] at h hs₂
          simp only at h
          split at h
          · cases h
          next hd =>
          obtain rfl := of_not_not hd
          replace h := Option.bind_eq_some_iff.mp h
          obtain ⟨⟨val, s₄⟩, hval, h⟩ := h
          obtain ⟨t, toks, hs₃, hderives⟩ := ih.element hval
          simp only at h
          cases hskip₄ : skipWs s₄ with
          | nil => simp [hskip₄] at h
          | cons e s₅ =>
              rw [hskip₄] at h hs₃
              simp only at h
              split at h
              · next he =>
                cases h
                subst he
                refine ⟨[(key, val)], _, _, ?_, rfl, .member hw hchars hw' hderives⟩
                rw [hs, hs₂, hs₃]
                simp [quoted, quote, colon]
              split at h
              · cases h
              next he =>
              obtain rfl := of_not_not he
              obtain ⟨o, t', toks', rfl, rfl, hderives'⟩ := ih.members h
              refine ⟨(key, val) :: o, _, _, ?_, rfl,
                .consMember hw hchars hw' hderives hderives'⟩
              rw [hs, hs₂, hs₃]
              simp [quoted, quote, colon, comma]

/-- SOURCE: Json.cpp:112-121 -/
theorem ParsesPhrases.elements_succ (ih : ParsesPhrases fuel) {acc : List Json}
    (h : parseElements (fuel + 1) s acc = some (j, rest)) :
    ∃ a t toks, s = t ++ closeBracket :: rest ∧ j = .array (acc ++ a) ∧
      Derives parserReading (.elements a) toks t := by
  rw [parseElements] at h
  replace h := Option.bind_eq_some_iff.mp h
  obtain ⟨⟨v, s₁⟩, hval, h⟩ := h
  obtain ⟨t, toks, rfl, hderives⟩ := ih.element hval
  simp only at h
  cases hskip : skipWs s₁ with
  | nil => simp [hskip] at h
  | cons d s₂ =>
      rw [hskip] at h
      simp only at h
      split at h
      · next hd =>
        cases h
        subst hd
        exact ⟨[v], t, toks, rfl, rfl, .single hderives⟩
      split at h
      · cases h
      next hd =>
      obtain rfl := of_not_not hd
      obtain ⟨a, t', toks', rfl, rfl, hderives'⟩ := ih.elements h
      refine ⟨v :: a, _, _, ?_, by rw [List.append_assoc, List.singleton_append],
        .cons hderives hderives'⟩
      simp [comma]

/-- INTERNAL: the parser accepts phrases of the grammar only, by induction on the fuel. -/
theorem parsesPhrases (fuel : ℕ) : ParsesPhrases fuel := by
  induction fuel with
  | zero => exact ⟨(nomatch ·), (nomatch ·), (nomatch ·)⟩
  | succ fuel ih => exact ⟨ih.value_succ, ih.members_succ, ih.elements_succ⟩

/-- An accepted text is one of the grammar, and has the value that the parser gives it.
SOURCE: Json.cpp:178-185 -/
theorem derives_of_parse {t : Bytes} (h : Json.parse t = some j) :
    ∃ toks, Derives parserReading (.element j) toks t := by
  obtain ⟨⟨v, rest⟩, hvalue, h⟩ := Option.bind_eq_some_iff.mp h
  simp only at h
  split at h
  · next hrest =>
    cases h
    obtain ⟨s, toks, rfl, hderives⟩ := (parsesPhrases _).element hvalue
    rw [hrest, List.append_nil]
    exact ⟨toks, hderives⟩
  · cases h

/-- The parser's tokens can be found without it. -/
theorem tokenShape_of_reads {tok : Token} (h : parserReading.Reads tok) : TokenShape tok := by
  cases tok with
  | number t =>
      obtain ⟨v, hshape, -⟩ := h
      exact hshape
  | string b =>
      obtain ⟨s, us, hunits, -⟩ := h
      exact Option.isSome_iff_exists.mpr ⟨us, hunits⟩

/-! ## Sizes -/

/-- A string is no longer than the text that it stands in. -/
theorem length_str_le {s t : Bytes} {toks : List Token}
    (h : Derives parserReading (.value (.str s)) toks t) : s.length ≤ t.length := by
  generalize hp : Phrase.value (Json.str s) = p at h
  cases h with
  | number h =>
      obtain ⟨-, d, -, rfl⟩ := h
      cases hp
  | string h =>
      cases hp
      obtain ⟨us, hunits, hbytes⟩ := h
      have hle := JsonGrammar.length_units_le hunits
      rw [length_mapM_unitByte hbytes] at hle
      simp only [quoted, List.length_append, List.length_cons]
      omega
  | _ => cases hp

/-- The text of a member's value is a part of the text of the object. -/
theorem exists_derives_of_get {t : Bytes} (h : Json.parse t = some j) {key : String} {v : Json}
    (hget : j.get key = some v) :
    ∃ toks t', Derives parserReading (.value v) toks t' ∧ t'.length ≤ t.length := by
  obtain ⟨toks, hderives⟩ := derives_of_parse h
  cases j with
  | object o =>
      cases hderives with
      | @element _ _ w t' w' hw hvalue hw' =>
      generalize hp : Phrase.value (Json.object o) = p at hvalue
      cases hvalue with
      | number hn =>
          obtain ⟨-, d, -, rfl⟩ := hn
          cases hp
      | emptyObject =>
          cases hp
          cases hget
      | @object members _ t hmembers =>
          cases hp
          rcases exists_mem_of_lookup hget with hnone | ⟨m, hm, rfl⟩
          · cases hnone
          · obtain ⟨toks', t', helement, hle⟩ := hmembers.exists_element hm
            cases helement with
            | @element _ _ w₁ t₁ w₁' hw₁ hvalue hw₁' =>
                refine ⟨_, t₁, hvalue, ?_⟩
                simp only [List.length_append, List.length_cons] at hle ⊢
                omega
      | _ => cases hp
  | _ => cases hget

/-- So is a string member. -/
theorem length_jstr_le {t : Bytes} (h : Json.parse t = some j) (key : String) :
    (jstr j key).length ≤ t.length := by
  unfold jstr
  split
  · next s hget =>
    obtain ⟨toks, t', hderives, hle⟩ := exists_derives_of_get h hget
    exact (length_str_le hderives).trans hle
  · exact Nat.zero_le _

end CompilationFabric.Interface
