import CompilationFabric.Model.Core

/-!
# The text of an identity

Identities and digests are written with the digits `0` to `9` and `a` to `f`, and the parsers take
`A` to `F` as well.  Every value reads back from its text.  A text that is accepted is the text of
the value it denotes, up to the case of its letters, so it is that text exactly if none of its
letters is upper-case.
-/

set_option autoImplicit false

namespace CompilationFabric.Analysis

open CompilationFabric.Library
open CompilationFabric.Model

/-- One of `A` to `F`. -/
def IsUpperDigit (c : UInt8) : Prop := 65 ≤ c ∧ c ≤ 70

instance (c : UInt8) : Decidable (IsUpperDigit c) := inferInstanceAs (Decidable (_ ∧ _))

/-- The texts of `n` hexadecimal digits. -/
def HexText (n : ℕ) (s : Bytes) : Prop := s.length = n ∧ ∀ c ∈ s, (hexVal c).isSome

def lowerDigit (c : UInt8) : UInt8 := if IsUpperDigit c then c + 32 else c

/-- The text with `a` to `f` for `A` to `F`. -/
def lowerText (s : Bytes) : Bytes := s.map lowerDigit

/-- A digit in lower case has the value it had. -/
theorem hexVal_lowerDigit (c : UInt8) : hexVal (lowerDigit c) = hexVal c := by
  have hall : ∀ m : Fin 256,
      hexVal (lowerDigit (UInt8.ofNat m)) = hexVal (UInt8.ofNat m) := by
    decide +kernel
  have hc := hall ⟨c.toNat, c.toNat_lt⟩
  rwa [UInt8.ofNat_toNat] at hc

/-- A digit in lower case is the one that its value is written with. -/
theorem lowerDigit_eq {c n : UInt8} (h : hexVal c = some n) : n < 16 ∧ lowerDigit c = hexChar n := by
  have hall : ∀ m : Fin 256, ∀ n ∈ hexVal (UInt8.ofNat m),
      n < 16 ∧ lowerDigit (UInt8.ofNat m) = hexChar n := by
    decide +kernel
  have hc := hall ⟨c.toNat, c.toNat_lt⟩ n
  rw [UInt8.ofNat_toNat] at hc
  exact hc h

/-- INTERNAL: only upper-case digits change. -/
theorem lowerDigit_eq_self {c : UInt8} : lowerDigit c = c ↔ ¬ IsUpperDigit c := by
  rw [lowerDigit]
  split
  · next hupper =>
    have hne : c + 32 ≠ c := by
      intro h
      have hvalue := congrArg UInt8.toNat h
      have h32 : (32 : UInt8).toNat = 32 := rfl
      rw [UInt8.toNat_add, h32] at hvalue
      omega
    simp [hne, hupper]
  · next hlower => simp [hlower]

/-- INTERNAL: only texts with upper-case digits change. -/
theorem lowerText_eq_self {s : Bytes} : lowerText s = s ↔ ∀ c ∈ s, ¬ IsUpperDigit c := by
  induction s with
  | nil => simp [lowerText]
  | cons c s ih =>
      have hcons : lowerText (c :: s) = lowerDigit c :: lowerText s := rfl
      rw [hcons, List.cons.injEq, ih, lowerDigit_eq_self, List.forall_mem_cons]

/-- A lower-case text of digits lists the digits of a number. -/
theorem exists_digits {s : Bytes} (h : ∀ c ∈ s, (hexVal c).isSome) :
    ∃ ds : List ℕ, (∀ d ∈ ds, d < 16) ∧ ds.length = s.length ∧
      lowerText s = ds.map fun d => hexChar (UInt8.ofNat d) := by
  refine ⟨s.map fun c => ((hexVal c).getD 0).toNat, ?_, List.length_map _, ?_⟩
  · intro d hd
    obtain ⟨c, hc, rfl⟩ := List.mem_map.mp hd
    obtain ⟨n, hn⟩ := Option.isSome_iff_exists.mp (h c hc)
    rw [hn, Option.getD_some]
    exact (lowerDigit_eq hn).1
  · rw [lowerText, List.map_map]
    apply List.map_congr_left
    intro c hc
    obtain ⟨n, hn⟩ := Option.isSome_iff_exists.mp (h c hc)
    rw [(lowerDigit_eq hn).2, Function.comp_apply, hn, Option.getD_some, UInt8.ofNat_toNat]

/-! ## Identities -/

/-- INTERNAL: a digit in lower case is read as before. -/
theorem pushNibble_lowerDigit (acc : UInt64) (c : UInt8) :
    pushNibble acc (lowerDigit c) = pushNibble acc c := by
  rw [pushNibble, pushNibble, hexVal_lowerDigit]

/-- INTERNAL: so are digits one by one. -/
theorem foldlM_pushNibble_lowerText (acc : UInt64) (s : Bytes) :
    (lowerText s).foldlM pushNibble acc = s.foldlM pushNibble acc := by
  induction s generalizing acc with
  | nil => rfl
  | cons c s ih =>
      have hcons : lowerText (c :: s) = lowerDigit c :: lowerText s := rfl
      rw [hcons, List.foldlM_cons, List.foldlM_cons, pushNibble_lowerDigit]
      simp only [ih]

/-- An id in lower case is read as before. -/
theorem parse_lowerText (s : Bytes) : Id128.parse (lowerText s) = Id128.parse s := by
  have htake : (lowerText s).take 16 = lowerText (s.take 16) := List.map_take.symm
  have hdrop : (lowerText s).drop 16 = lowerText (s.drop 16) := List.map_drop.symm
  have hlength : (lowerText s).length = s.length := List.length_map _
  rw [Id128.parse, Id128.parse, htake, hdrop, foldlM_pushNibble_lowerText,
    foldlM_pushNibble_lowerText, hlength]

/-- INTERNAL: what is read has digits only. -/
theorem digits_of_foldlM {acc w : UInt64} {s : Bytes} (h : s.foldlM pushNibble acc = some w) :
    ∀ c ∈ s, (hexVal c).isSome := by
  induction s generalizing acc with
  | nil => simp
  | cons c s ih =>
      rw [List.foldlM_cons, Option.bind_eq_bind, Option.bind_eq_some_iff] at h
      obtain ⟨acc', hpush, hrest⟩ := h
      obtain ⟨n, hn, -⟩ := Option.map_eq_some_iff.mp hpush
      intro d hd
      obtain rfl | hd := List.mem_cons.mp hd
      · rw [hn, Option.isSome_some]
      · exact ih hrest d hd

/-- Only texts of thirty-two digits are accepted. -/
theorem hexText_of_parse {s : Bytes} {v : Id128} (h : Id128.parse s = some v) : HexText 32 s := by
  rw [Id128.parse] at h
  split at h
  · cases h
  · next hlength =>
    simp only [Option.bind_eq_bind, Option.bind_eq_some_iff] at h
    obtain ⟨hi, hhi, lo, hlo, -⟩ := h
    refine ⟨not_not.mp hlength, ?_⟩
    intro c hc
    rw [← List.take_append_drop 16 s, List.mem_append] at hc
    obtain hc | hc := hc
    · exact digits_of_foldlM hhi c hc
    · exact digits_of_foldlM hlo c hc

/-- Sixteen lower-case digits are the text of a word. -/
theorem exists_wordToHex {s : Bytes} (hlength : s.length = 16) (h : ∀ c ∈ s, (hexVal c).isSome) :
    ∃ w, wordToHex w = lowerText s := by
  obtain ⟨ds, hds, hcount, htext⟩ := exists_digits h
  have hvalue : Positional.value 16 ds < 2 ^ 64 := by
    have hlt := Positional.value_lt hds
    rwa [hcount, hlength] at hlt
  refine ⟨UInt64.ofNat (Positional.value 16 ds), ?_⟩
  have hdigits := Positional.digits_value (by omega) hds
  rw [hcount, hlength] at hdigits
  rw [wordToHex, wordDigits_eq _ le_rfl, UInt64.toNat_ofNat_of_lt' hvalue, hdigits, htext]

/-- A text of thirty-two digits is the text of an identity, up to the case of its letters. -/
theorem exists_toHex {s : Bytes} (h : HexText 32 s) : ∃ v : Id128, v.toHex = lowerText s := by
  obtain ⟨hlength, hdigits⟩ := h
  have hleft : (s.take 16).length = 16 := List.length_take_of_le (by omega)
  have hright : (s.drop 16).length = 16 := by
    rw [List.length_drop]
    omega
  obtain ⟨hi, hhi⟩ := exists_wordToHex hleft fun c hc => hdigits c (List.mem_of_mem_take hc)
  obtain ⟨lo, hlo⟩ := exists_wordToHex hright fun c hc => hdigits c (List.mem_of_mem_drop hc)
  refine ⟨⟨hi, lo⟩, ?_⟩
  rw [Id128.toHex, hhi, hlo, lowerText, lowerText, ← List.map_append, List.take_append_drop,
    lowerText]

/-- The parser accepts the texts of thirty-two digits, each for the value whose text it is up to
the case of its letters. -/
theorem parse_eq_some_iff {s : Bytes} {v : Id128} :
    Id128.parse s = some v ↔ HexText 32 s ∧ v.toHex = lowerText s := by
  have hread : ∀ u : Id128, u.toHex = lowerText s → Id128.parse s = some u := by
    intro u hu
    rw [← parse_lowerText, ← hu, Id128.parse_toHex]
  constructor
  · intro h
    have htext := hexText_of_parse h
    obtain ⟨u, hu⟩ := exists_toHex htext
    have heq := hread u hu
    rw [h, Option.some_inj] at heq
    exact ⟨htext, by rw [heq, hu]⟩
  · rintro ⟨-, hv⟩
    exact hread v hv

/-! ## Digests -/

/-- What `hexToBytes` takes no two characters off. -/
theorem short_of_not_pair {s : Bytes} (h : ∀ c d rest, s = c :: d :: rest → False) :
    s = [] ∨ ∃ c, s = [c] := by
  cases s with
  | nil => exact .inl rfl
  | cons c s =>
      cases s with
      | nil => exact .inr ⟨c, rfl⟩
      | cons d rest => exact (h c d rest rfl).elim

/-- Hex text in lower case is read as before. -/
theorem hexToBytes_lowerText (s : Bytes) : hexToBytes (lowerText s) = hexToBytes s := by
  induction s using hexToBytes.induct with
  | case1 c d rest ih =>
      have hcons : lowerText (c :: d :: rest) = lowerDigit c :: lowerDigit d :: lowerText rest := rfl
      rw [hcons, hexToBytes, hexToBytes, hexVal_lowerDigit, hexVal_lowerDigit, ih]
  | case2 s hshape =>
      obtain rfl | ⟨c, rfl⟩ := short_of_not_pair hshape
      · rfl
      · rfl

/-- INTERNAL: hex text that is read has digits only. -/
theorem digits_of_hexToBytes {s bs : Bytes} (heven : s.length % 2 = 0)
    (h : hexToBytes s = some bs) : ∀ c ∈ s, (hexVal c).isSome := by
  induction s using hexToBytes.induct generalizing bs with
  | case1 c d rest ih =>
      rw [hexToBytes] at h
      simp only [Option.bind_eq_bind, Option.bind_eq_some_iff] at h
      obtain ⟨hv, hc, lv, hd, ts, hts, -⟩ := h
      have hrest : rest.length % 2 = 0 := by
        rw [List.length_cons, List.length_cons] at heven
        omega
      intro x hx
      obtain rfl | hx := List.mem_cons.mp hx
      · rw [hc, Option.isSome_some]
      · obtain rfl | hx := List.mem_cons.mp hx
        · rw [hd, Option.isSome_some]
        · exact ih hrest hts x hx
  | case2 s hshape =>
      obtain rfl | ⟨c, rfl⟩ := short_of_not_pair hshape
      · simp
      · simp at heven

/-- An even number of lower-case digits is the text of a byte string. -/
theorem exists_bytesToHex {s : Bytes} (heven : s.length % 2 = 0)
    (h : ∀ c ∈ s, (hexVal c).isSome) : ∃ bs, bytesToHex bs = lowerText s := by
  induction s using hexToBytes.induct with
  | case1 c d rest ih =>
      have hpair : ∀ m n : Fin 16,
          byteToHex ((UInt8.ofNat m <<< 4) ||| UInt8.ofNat n) =
            [hexChar (UInt8.ofNat m), hexChar (UInt8.ofNat n)] := by
        decide +kernel
      have hrest : rest.length % 2 = 0 := by
        rw [List.length_cons, List.length_cons] at heven
        omega
      obtain ⟨hv, hc⟩ := Option.isSome_iff_exists.mp (h c (by simp))
      obtain ⟨lv, hd⟩ := Option.isSome_iff_exists.mp (h d (by simp))
      obtain ⟨bs, hbs⟩ := ih hrest fun x hx => h x (by simp [hx])
      obtain ⟨hvlt, hvtext⟩ := lowerDigit_eq hc
      obtain ⟨lvlt, lvtext⟩ := lowerDigit_eq hd
      have hbyte := hpair ⟨hv.toNat, hvlt⟩ ⟨lv.toNat, lvlt⟩
      simp only [UInt8.ofNat_toNat] at hbyte
      refine ⟨((hv <<< 4) ||| lv) :: bs, ?_⟩
      have hcons : lowerText (c :: d :: rest) = lowerDigit c :: lowerDigit d :: lowerText rest := rfl
      rw [bytesToHex, List.flatMap_cons, ← bytesToHex, hbyte, hbs, hcons, hvtext, lvtext]
      rfl
  | case2 s hshape =>
      obtain rfl | ⟨c, rfl⟩ := short_of_not_pair hshape
      · exact ⟨[], rfl⟩
      · simp at heven

/-- A digest in lower case is read as before. -/
theorem digestFromHex_lowerText (s : Bytes) :
    digestFromHex (lowerText s) = digestFromHex s := by
  have hlength : (lowerText s).length = s.length := List.length_map _
  have hbytes := hexToBytes_lowerText s
  unfold digestFromHex
  by_cases h64 : s.length = 64
  · rw [dif_pos h64, dif_pos (by omega)]
    grind
  · rw [dif_neg h64, dif_neg (by omega)]

/-- Only texts of sixty-four digits are accepted. -/
theorem hexText_of_digestFromHex {s : Bytes} {d : Digest} (h : digestFromHex s = some d) :
    HexText 64 s := by
  unfold digestFromHex at h
  split at h
  · next hlength =>
    split at h
    · next bs hbs => exact ⟨hlength, digits_of_hexToBytes (by omega) hbs⟩
    · cases h
  · cases h

/-- Sixty-four digits in lower case are the text of a digest. -/
theorem exists_digestToHex {s : Bytes} (h : HexText 64 s) : ∃ d, digestToHex d = lowerText s := by
  obtain ⟨hlength, hdigits⟩ := h
  obtain ⟨bs, hbs⟩ := exists_bytesToHex (by omega) hdigits
  have hsize : bs.length = 32 := by
    have hcount := congrArg List.length hbs
    rw [length_bytesToHex, lowerText, List.length_map, hlength] at hcount
    omega
  exact ⟨⟨bs, hsize⟩, hbs⟩

/-- A digest is read from the texts that are its own in lower case. -/
theorem digestFromHex_eq_some_iff {s : Bytes} {d : Digest} :
    digestFromHex s = some d ↔ HexText 64 s ∧ digestToHex d = lowerText s := by
  have hread : ∀ e, digestToHex e = lowerText s → digestFromHex s = some e := by
    intro e he
    rw [← digestFromHex_lowerText, ← he, digestFromHex_digestToHex]
  constructor
  · intro h
    have htext := hexText_of_digestFromHex h
    obtain ⟨e, he⟩ := exists_digestToHex htext
    have heq := hread e he
    rw [h, Option.some_inj] at heq
    exact ⟨htext, by rw [heq, he]⟩
  · rintro ⟨-, hd⟩
    exact hread d hd

/-! ## Canonical texts -/

/-- `s` is the text of whatever it denotes. -/
structure CanonicalText (s : Bytes) : Prop where
  identity : ∀ v, Id128.parse s = some v → v.toHex = s
  digest : ∀ d, digestFromHex s = some d → digestToHex d = s

/-- Texts denote identities and digests one to one, as far as `s` and `t` tell: every value reads
back from its text, `s` and `t` are canonical, and no value has both unless they are the same.
SOURCE: Core.hpp:152-155 -/
structure CanonicalPair (s t : Bytes) : Prop where
  readBack : (∀ v : Id128, Id128.parse v.toHex = some v) ∧
    ∀ d : Digest, digestFromHex (digestToHex d) = some d
  left : CanonicalText s
  right : CanonicalText t
  identity : ∀ v, Id128.parse s = some v → Id128.parse t = some v → s = t
  digest : ∀ d, digestFromHex s = some d → digestFromHex t = some d → s = t

/-- If `s` is one of the texts that a parser accepts, it has no upper-case letter. -/
def LowerCase (s : Bytes) : Prop :=
  HexText 32 s ∨ HexText 64 s → ∀ c ∈ s, ¬ IsUpperDigit c

/-- A text is canonical exactly when it has no upper-case digit. -/
theorem canonicalText_iff_lowerCase {s : Bytes} : CanonicalText s ↔ LowerCase s := by
  constructor
  · rintro ⟨hidentity, hdigest⟩ htext
    rw [← lowerText_eq_self]
    obtain htext | htext := htext
    · obtain ⟨v, hv⟩ := exists_toHex htext
      rw [← hv, hidentity v (parse_eq_some_iff.mpr ⟨htext, hv⟩)]
    · obtain ⟨d, hd⟩ := exists_digestToHex htext
      rw [← hd, hdigest d (digestFromHex_eq_some_iff.mpr ⟨htext, hd⟩)]
  · intro h
    constructor
    · intro v hv
      obtain ⟨htext, hprinted⟩ := parse_eq_some_iff.mp hv
      rw [hprinted, lowerText_eq_self]
      exact h (Or.inl htext)
    · intro d hd
      obtain ⟨htext, hprinted⟩ := digestFromHex_eq_some_iff.mp hd
      rw [hprinted, lowerText_eq_self]
      exact h (Or.inr htext)

/-- Two texts keep the correspondence exactly if neither is accepted with an upper-case letter.
SOURCE: Core.cpp:156-202 -/
theorem canonicalPair_iff (s t : Bytes) : CanonicalPair s t ↔ LowerCase s ∧ LowerCase t := by
  constructor
  · intro h
    exact ⟨canonicalText_iff_lowerCase.mp h.left, canonicalText_iff_lowerCase.mp h.right⟩
  · rintro ⟨hs, ht⟩
    have hleft := canonicalText_iff_lowerCase.mpr hs
    have hright := canonicalText_iff_lowerCase.mpr ht
    refine ⟨⟨Id128.parse_toHex, digestFromHex_digestToHex⟩, hleft, hright, ?_, ?_⟩
    · intro v hv hv'
      rw [← hleft.identity v hv, ← hright.identity v hv']
    · intro d hd hd'
      rw [← hleft.digest d hd, ← hright.digest d hd']

/-- Thirty-two `A` denote what thirty-two `a` denote. -/
theorem not_canonicalPair : ¬ CanonicalPair (List.replicate 32 0x41) (List.replicate 32 0x61) := by
  intro h
  have hupper : Id128.parse (List.replicate 32 0x41) =
      some ⟨0xaaaaaaaaaaaaaaaa, 0xaaaaaaaaaaaaaaaa⟩ := by decide
  have hlower : Id128.parse (List.replicate 32 0x61) =
      some ⟨0xaaaaaaaaaaaaaaaa, 0xaaaaaaaaaaaaaaaa⟩ := by decide
  have heq := h.identity _ hupper hlower
  exact absurd heq (by decide)

end CompilationFabric.Analysis
