import CompilationFabric.Interface.JsonFields

/-!
# JSON values come back from their text

`parse_dump` is that a printed value parses to the value its numbers reread.  A number that is an
integer below `2 ^ 63` is printed as one, digit by digit, and rereads to itself.  So a value whose
numbers are such integers is what its text parses to, whatever its strings and keys hold and
however deep it is nested.
-/

set_option autoImplicit false

namespace CompilationFabric.Analysis

open CompilationFabric.Interface
open CompilationFabric.Library.Binary64 (Double Exact Finite ofInt ofInt_finite)
open CompilationFabric.Model
open CompilationFabric.Model.Json

/-- The number is an integer of magnitude below `2 ^ 63`. -/
def IntegerNumber (d : Double) : Prop :=
  ∃ (x : Finite) (n : ℤ), d = .finite x ∧ x.val = n ∧ |n| < 2 ^ 63

mutual

/-- Every number in the value is such an integer, and the members of every object are in the
order of their keys, as a `std::map` holds them. -/
def IntegerValued : Json → Prop
  | .number d => IntegerNumber d
  | .array a => IntegerElements a
  | .object o => IntegerMembers o
  | _ => True

def IntegerElements : List Json → Prop
  | [] => True
  | e :: es => IntegerValued e ∧ IntegerElements es

def IntegerMembers : List (Bytes × Json) → Prop
  | [] => True
  | (k, v) :: o => (∀ p ∈ o, compare k p.1 = .lt) ∧ IntegerValued v ∧ IntegerMembers o

end

/-- `Json::integer` of an integer that a `double` holds exactly. -/
theorem integerNumber_ofInt {n : ℤ} (hn : |n| < 2 ^ 63) (hexact : Exact n) :
    IntegerNumber (ofInt n) := by
  obtain ⟨hlo, hhi⟩ := abs_lt.mp hn
  obtain ⟨x, hx, hval⟩ := ofInt_finite (n := n) (by omega) (by omega)
  exact ⟨x, n, hx, by rw [hval, hexact], hn⟩

/-- An integer is reread as itself. -/
theorem rereadNumber_of_integer {d : Double} (h : IntegerNumber d) : rereadNumber d = d := by
  obtain ⟨x, n, rfl, hval, hn⟩ := h
  obtain ⟨hlo, hhi⟩ := abs_lt.mp hn
  exact rereadNumber_of_val hval (by omega) hhi

mutual

/-- Such a value can be printed, and its numbers reread to themselves. -/
theorem reread_of_integerValued : ∀ v : Json, IntegerValued v → Printable v ∧ reread v = v
  | .null, _ => ⟨trivial, rfl⟩
  | .boolean _, _ => ⟨trivial, rfl⟩
  | .number d, h => by
      have hreread := rereadNumber_of_integer h
      obtain ⟨x, n, rfl, hval, hn⟩ := h
      exact ⟨⟨x, rfl⟩, by rw [reread, hreread]⟩
  | .str _, _ => ⟨trivial, rfl⟩
  | .array a, h => by
      obtain ⟨hprint, hsame⟩ := reread_of_integerElements a h
      exact ⟨hprint, by rw [reread, hsame]⟩
  | .object o, h => by
      obtain ⟨hprint, hsame⟩ := reread_of_integerMembers o h
      exact ⟨hprint, by rw [reread, hsame]⟩

/-- INTERNAL: elements without fractions are reread as themselves. -/
theorem reread_of_integerElements : ∀ a : List Json, IntegerElements a →
    PrintableElements a ∧ rereadElements a = a
  | [], _ => ⟨trivial, rfl⟩
  | e :: es, h => by
      obtain ⟨hprint, hsame⟩ := reread_of_integerValued e h.1
      obtain ⟨hprints, hsames⟩ := reread_of_integerElements es h.2
      exact ⟨⟨hprint, hprints⟩, by rw [rereadElements, hsame, hsames]⟩

/-- INTERNAL: so are members in key order. -/
theorem reread_of_integerMembers : ∀ o : List (Bytes × Json), IntegerMembers o →
    PrintableMembers o ∧ rereadMembers o = o
  | [], _ => ⟨trivial, rfl⟩
  | (k, v) :: o, h => by
      obtain ⟨hprint, hsame⟩ := reread_of_integerValued v h.2.1
      obtain ⟨hprints, hsames⟩ := reread_of_integerMembers o h.2.2
      exact ⟨⟨h.1, hprint, hprints⟩, by rw [rereadMembers, hsame, hsames]⟩

end

/-- A value without fractions comes back from its text.
SOURCE: Json.cpp:11-185 -/
theorem parse_dump_of_integerValued {v : Json} (h : IntegerValued v) :
    Json.parse (dump v) = some v := by
  obtain ⟨hprint, hsame⟩ := reread_of_integerValued v h
  rw [parse_dump hprint, hsame]

/-- A nested value with a control character, a quote and a byte above `0x7f` in its strings. -/
def sampleValue : Json :=
  .object [([], .array [.null, .number (ofInt (-7)), .str [10, 34, 92]]),
    ([34, 200], .object [])]

/-- The value comes back from its text. -/
theorem parse_dump_sampleValue : Json.parse (dump sampleValue) = some sampleValue := by
  have hseven : |(-7 : ℤ)| < 2 ^ 53 := by norm_num
  have hnumber : IntegerNumber (ofInt (-7)) :=
    integerNumber_ofInt (by norm_num) (exact_of_lt hseven)
  have hkeys : ∀ p ∈ [(([34, 200] : Bytes), Json.object [])], compare ([] : Bytes) p.1 = .lt := by
    decide
  have helements : IntegerElements [.null, .number (ofInt (-7)), .str [10, 34, 92]] :=
    ⟨trivial, hnumber, trivial, trivial⟩
  have hmembers : IntegerMembers [(([34, 200] : Bytes), .object [])] :=
    ⟨fun _ h => (nomatch h), trivial, trivial⟩
  exact parse_dump_of_integerValued (v := sampleValue) ⟨hkeys, helements, hmembers⟩

end CompilationFabric.Analysis
