import CompilationFabric.Library.DecimalText
import CompilationFabric.Model.Core
import Mathlib.Order.Basic

/-!
# JSON values, their text and its parser

`Json.hpp` and `Json.cpp`.  An object is a `std::map`, so its members are kept in the
order of their keys and `set` inserts or assigns.  A number is a `double`: every integer
the program puts into a value has gone through `static_cast<double>` before, and through
the printer's six significant digits when it does not fit an `int64_t`.

The parser works on the text that is left.  Its failure flag is sticky and every caller
looks at it before the result is used, so `none` models it.  The recursion of
`parseValue` is bounded by a count that `parse` sets to the length of the text and one
more; every call consumes at least one character before it recurs.
-/

set_option autoImplicit false

namespace CompilationFabric.Model

open CompilationFabric.Library
open CompilationFabric.Library.Binary64 (Double ofInt toInt64)
open CompilationFabric.Library.DecimalText (intText gText strtod isDigit digitChar)

/-- SOURCE: Json.hpp:11-24 -/
inductive Json where
  | null
  | boolean (b : Bool)
  | number (d : Double)
  | str (s : Bytes)
  | array (a : List Json)
  | object (o : List (Bytes × Json))

namespace Json

/-! ## Members and accessors -/

/-- `std::map::insert_or_assign`, in the order of the keys. -/
def insertOrAssign (key : Bytes) (j : Json) : List (Bytes × Json) → List (Bytes × Json)
  | [] => [(key, j)]
  | (k, v) :: o =>
      match compare key k with
      | .lt => (key, j) :: (k, v) :: o
      | .eq => (k, j) :: o
      | .gt => (k, v) :: insertOrAssign key j o

/-- SOURCE: Json.hpp:40-43 -/
def set (j : Json) (key : String) (v : Json) : Json :=
  match j with
  | .object o => .object (insertOrAssign (ascii key) v o)
  | _ => .object [(ascii key, v)]

/-- SOURCE: Json.hpp:44-49 -/
def get (j : Json) (key : String) : Option Json :=
  match j with
  | .object o => o.lookup (ascii key)
  | _ => none

def asBool : Json → Bool
  | .boolean b => b
  | _ => false

def asNumber : Json → Double
  | .number d => d
  | _ => ofInt 0

def asString : Json → Bytes
  | .str s => s
  | _ => []

def asArray : Json → Option (List Json)
  | .array a => some a
  | _ => none

/-- `Json::object({})` followed by one `set` for each entry. -/
def ofFields (fields : List (String × Json)) : Json :=
  fields.foldl (fun j f => j.set f.1 f.2) (.object [])

/-! ## Text -/

def quote : UInt8 := 34
def backslash : UInt8 := 92
def comma : UInt8 := 44
def openBracket : UInt8 := 91
def closeBracket : UInt8 := 93
def openBrace : UInt8 := 123
def closeBrace : UInt8 := 125
def letterU : UInt8 := 117

/-- One character of a string: `\x5c"`, `\x5c\x5c`, `\x5cu%04x` or itself.
SOURCE: Json.cpp:15-26 -/
def escapeByte (uc : UInt8) : Bytes :=
  if uc = quote then [backslash, quote]
  else if uc = backslash then [backslash, backslash]
  else if uc < 0x20 then [backslash, letterU, 48, 48] ++ byteToHex uc
  else [uc]

/-- SOURCE: Json.cpp:13-28 -/
def escapeTo (s : Bytes) : Bytes := quote :: s.flatMap escapeByte ++ [quote]

/-- `os << d` with the stream's default format. -/
def streamText : Double → Bytes
  | .finite x => gText x.val
  | .inf false => ascii "inf"
  | .inf true => ascii "-inf"
  | .nan => ascii "nan"

/-- A number that an `int64_t` holds is written as one.
SOURCE: Json.cpp:33-38 -/
def dumpNumber (d : Double) : Bytes :=
  if d.eq (ofInt (toInt64 d).toInt) then intText (toInt64 d).toInt else streamText d

mutual

/-- SOURCE: Json.cpp:29-57 -/
def dump : Json → Bytes
  | .null => ascii "null"
  | .boolean b => if b then ascii "true" else ascii "false"
  | .number d => dumpNumber d
  | .str s => escapeTo s
  | .array [] => [openBracket, closeBracket]
  | .array (e :: es) => openBracket :: dump e ++ dumpElements es
  | .object [] => [openBrace, closeBrace]
  | .object ((k, v) :: o) => openBrace :: escapeTo k ++ colon :: dump v ++ dumpMembers o

/-- The elements after the first, each after a comma, and the closing bracket. -/
def dumpElements : List Json → Bytes
  | [] => [closeBracket]
  | e :: es => comma :: dump e ++ dumpElements es

/-- The members after the first, each after a comma, and the closing brace. -/
def dumpMembers : List (Bytes × Json) → Bytes
  | [] => [closeBrace]
  | (k, v) :: o => comma :: escapeTo k ++ colon :: dump v ++ dumpMembers o

end

/-! ## Parser -/

def isSpace (c : UInt8) : Bool := c = 32 || c = 9 || c = 13 || c = 10

/-- SOURCE: Json.cpp:62 -/
def skipWs (s : Bytes) : Bytes := s.dropWhile isSpace

/-- The one-character escapes of `parseString`. -/
def unescape (e : UInt8) : Option UInt8 :=
  if e = quote then some quote
  else if e = backslash then some backslash
  else if e = 47 then some 47
  else if e = 98 then some 8
  else if e = 102 then some 12
  else if e = 110 then some 10
  else if e = 114 then some 13
  else if e = 116 then some 9
  else none

/-- The leading hexadecimal digits of a text. -/
def hexPrefix (s : Bytes) : List ℕ :=
  (s.takeWhile fun c => (hexVal c).isSome).map fun c => ((hexVal c).getD 0).toNat

/-- `strtoul(_, nullptr, 16)`: white space, a sign, an optional `0x`, and the digits that
follow; a minus sign negates in the result type. -/
def strtoul16 (s : Bytes) : UInt64 :=
  let s := s.dropWhile fun c => c = 32 || (9 ≤ c && c ≤ 13)
  let (negative, s) := DecimalText.readSign s
  let s :=
    match s with
    | z :: x :: t => if z = 48 ∧ (x = 120 ∨ x = 88) ∧ hexPrefix t ≠ [] then t else s
    | _ => s
  let v := UInt64.ofNat (Positional.value 16 (hexPrefix s))
  if negative then -v else v

/-- The characters of a string up to its closing quote, and what follows it.
SOURCE: Json.cpp:123-153 -/
def parseChars : Bytes → Option (Bytes × Bytes)
  | [] => none
  | c :: s =>
      if c = quote then some ([], s)
      else if c = backslash then
        match s with
        | [] => none
        | e :: s =>
            if e = letterU then
              match s with
              | h₁ :: h₂ :: h₃ :: h₄ :: s => do
                  let (out, rest) ← parseChars s
                  return ((strtoul16 [h₁, h₂, h₃, h₄]).toUInt8 :: out, rest)
              | _ => none
            else do
              let c ← unescape e
              let (out, rest) ← parseChars s
              return (c :: out, rest)
      else do
        let (out, rest) ← parseChars s
        return (c :: out, rest)

/-- A quote ends the string. -/
theorem parseChars_quote (s : Bytes) : parseChars (quote :: s) = some ([], s) := by
  rw [parseChars.eq_def]
  simp only [if_true]

/-- An escape gives the character it stands for. -/
theorem parseChars_unescape {e c : UInt8} (he : e ≠ letterU) (hc : unescape e = some c)
    (s : Bytes) :
    parseChars (backslash :: e :: s) = (parseChars s).map fun p => (c :: p.1, p.2) := by
  have hquote : backslash ≠ quote := by decide
  rw [parseChars.eq_def]
  simp only [if_neg hquote, if_true, if_neg he, hc]
  cases parseChars s <;> rfl

/-- A `\u` escape gives the low byte of its number. -/
theorem parseChars_unicode (h₁ h₂ h₃ h₄ : UInt8) (s : Bytes) :
    parseChars (backslash :: letterU :: h₁ :: h₂ :: h₃ :: h₄ :: s) =
      (parseChars s).map fun p => ((strtoul16 [h₁, h₂, h₃, h₄]).toUInt8 :: p.1, p.2) := by
  have hquote : backslash ≠ quote := by decide
  rw [parseChars.eq_def]
  simp only [if_neg hquote, if_true]
  cases parseChars s <;> rfl

/-- Any other byte stands for itself. -/
theorem parseChars_plain {c : UInt8} (hquote : c ≠ quote) (hback : c ≠ backslash) (s : Bytes) :
    parseChars (c :: s) = (parseChars s).map fun p => (c :: p.1, p.2) := by
  rw [parseChars.eq_def]
  simp only [if_neg hquote, if_neg hback]
  cases parseChars s <;> rfl

/-- SOURCE: Json.cpp:154-162 -/
def parseLiteral (s : Bytes) (text : String) (j : Json) : Option (Json × Bytes) :=
  if s.take (ascii text).length = ascii text then some (j, s.drop (ascii text).length) else none

/-- The characters `parseNumber` collects; a leading minus sign is one of them. -/
def isNumberChar (c : UInt8) : Bool :=
  isDigit c || c = DecimalText.dot || c = DecimalText.lowerE || c = DecimalText.upperE ||
    c = DecimalText.plus || c = DecimalText.minus

/-- SOURCE: Json.cpp:163-172 -/
def parseNumber (s : Bytes) : Option (Json × Bytes) := do
  let d ← strtod (s.takeWhile isNumberChar)
  return (.number d, s.dropWhile isNumberChar)

mutual

/-- SOURCE: Json.cpp:74-85 -/
def parseValue : ℕ → Bytes → Option (Json × Bytes)
  | 0, _ => none
  | fuel + 1, s =>
      match skipWs s with
      | [] => none
      | c :: s =>
          if c = openBrace then
            match skipWs s with
            | d :: t => if d = closeBrace then some (.object [], t)
                else parseMembers fuel (d :: t) []
            | [] => none
          else if c = openBracket then
            match skipWs s with
            | d :: t => if d = closeBracket then some (.array [], t)
                else parseElements fuel (d :: t) []
            | [] => none
          else if c = quote then do
            let (out, rest) ← parseChars s
            return (.str out, rest)
          else if c = 116 ∨ c = 102 then
            parseLiteral (c :: s) "true" (.boolean true) <|>
              parseLiteral (c :: s) "false" (.boolean false)
          else if c = 110 then parseLiteral (c :: s) "null" .null
          else if c = DecimalText.minus ∨ isDigit c then parseNumber (c :: s)
          else none

/-- The member loop of `parseObject`.
SOURCE: Json.cpp:91-105 -/
def parseMembers : ℕ → Bytes → List (Bytes × Json) → Option (Json × Bytes)
  | 0, _, _ => none
  | fuel + 1, s, o =>
      match skipWs s with
      | c :: s =>
          if c ≠ quote then none
          else do
            let (key, s) ← parseChars s
            match skipWs s with
            | c :: s =>
                if c ≠ colon then none
                else do
                  let (val, s) ← parseValue fuel s
                  match skipWs s with
                  | d :: s =>
                      if d = closeBrace then some (.object (insertOrAssign key val o), s)
                      else if d ≠ comma then none
                      else parseMembers fuel s (insertOrAssign key val o)
                  | [] => none
            | [] => none
      | [] => none

/-- The element loop of `parseArray`.
SOURCE: Json.cpp:112-121 -/
def parseElements : ℕ → Bytes → List Json → Option (Json × Bytes)
  | 0, _, _ => none
  | fuel + 1, s, a => do
      let (v, s) ← parseValue fuel s
      match skipWs s with
      | d :: s =>
          if d = closeBracket then some (.array (a ++ [v]), s)
          else if d ≠ comma then none
          else parseElements fuel s (a ++ [v])
      | [] => none

end

/-- SOURCE: Json.cpp:178-185 -/
def parse (text : Bytes) : Option Json := do
  let (j, rest) ← parseValue (text.length + 1) text
  if skipWs rest = [] then some j else none

/-! ## Member macros -/

/-- `JSTR(j, key)`: a string member, or the empty string.
SOURCE: Descriptor.cpp:66, Request.cpp:10 -/
def jstr (j : Json) (key : String) : Bytes :=
  match j.get key with
  | some (.str s) => s
  | _ => []

/-- `JBOOL(j, key)`: a boolean member, or false. -/
def jbool (j : Json) (key : String) : Bool :=
  match j.get key with
  | some (.boolean b) => b
  | _ => false

/-- `JNUM(j, key)` and `JNUM64(j, key)`: a number member as a `uint64_t`, or 0. -/
def jnum (j : Json) (key : String) : UInt64 :=
  match j.get key with
  | some (.number d) => Binary64.toUInt64 d
  | _ => 0

/-- The elements of an array member, or none: the `if (auto* a = …)` loops. -/
def jarray (j : Json) (key : String) : List Json :=
  ((j.get key).bind asArray).getD []

/-- `Json::number(static_cast<double>(n))` of an unsigned integer. -/
def ofU64 (n : UInt64) : Json := .number (ofInt n.toNat)

/-- `Json::number(static_cast<double>(n))` of a signed integer. -/
def ofI64 (n : Int64) : Json := .number (ofInt n.toInt)

/-- `Json::number(n)` of a `uint32_t`. -/
def ofU32 (n : UInt32) : Json := .number (ofInt n.toNat)

/-- `Json::number(static_cast<double>(n))` of an `int`. -/
def ofI32 (n : Int32) : Json := .number (ofInt n.toInt)

end Json

end CompilationFabric.Model
