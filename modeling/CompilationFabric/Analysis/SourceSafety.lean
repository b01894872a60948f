import CompilationFabric.Model.CpuSource
import Mathlib.Data.List.DropRight

/-!
# What the parser of sources looks at

A line that the trimming does not empty has a first token, unless it is white space and the
trimming leaves some of it (`tokenised_and_words_iff`): only spaces, tabs and carriage returns are
trimmed, while vertical tabs and form feeds separate tokens as well.  Every other line is skipped,
recorded or ends the parse (`readLine_cases`), so that such lines are all that a source must not
have in front of an operation that is not known.
-/

set_option autoImplicit false

namespace CompilationFabric.Analysis

open CompilationFabric.Library
open CompilationFabric.Model
open CompilationFabric.Model.CpuBackend
open Numerals

/-! ## The property -/

/-- The line is neither empty nor a comment, once trimmed. -/
def ReachesTokens (line : Bytes) : Prop :=
  trim line ≠ [] ∧ (trim line).head? ≠ some numberSign

/-- What becomes of a line: it is skipped, recorded as a header or as an operation, or it ends the
parse. -/
inductive Handled (source : Bytes) (p : CpuProgram) (line : Bytes) (rest : List Bytes) : Prop where
  | skipped (h : readLines p (line :: rest) = readLines p rest)
  | header (key val : Bytes) (h : readLines p (line :: rest) = readLines (setHeader p key val) rest)
  | operation (op : CpuOp)
      (h : readLines p (line :: rest) = readLines { p with ops := p.ops ++ [op] } rest)
  | invalid (message : Bytes) (h : parseSource source = some (Err .InvalidSource message))

/-- The parser gets to a line, with what it has read so far. -/
def GetsTo (source : Bytes) (p : CpuProgram) (line : Bytes) (rest : List Bytes) : Prop :=
  ∃ before, getlines newline source = before ++ line :: rest ∧ readLines {} before = some (.ok p)

structure ParsesSafely (source : Bytes) : Prop where
  /-- `toks[0]` is there. -/
  token : ∀ p line rest, GetsTo source p line rest → ReachesTokens line → words (trim line) ≠ []
  handled : ∀ p line rest, GetsTo source p line rest → Handled source p line rest
  defined : parseSource source ≠ none

/-- White space of which the trimming leaves some: in a line, vertical tabs and form feeds. -/
def VerticalBlank (line : Bytes) : Prop :=
  (∀ c ∈ line, isSpace c = true) ∧ ∃ c ∈ line, c ≠ carriageReturn ∧ c ≠ space ∧ c ≠ tab

/-- The first token of the line is neither a header nor the name of an operation. -/
def unknownOperation (line : Bytes) : Bool :=
  match words (trim line) with
  | [] => false
  | token :: _ => (trim line).head? != some numberSign &&
      ((splitPair token).filter fun pair => pair.1 ≠ []).isNone && (opKindFromName token).isNone

/-! ## Trimming -/

/-- `trim`, its end first. -/
theorem trim_eq (line : Bytes) :
    trim line = (line.rdropWhile fun c => c = carriageReturn || c = space || c = tab).dropWhile
      fun c => c = space || c = tab := rfl

/-- INTERNAL: a line is trimmed to nothing when it has nothing else. -/
theorem trim_eq_nil_iff {line : Bytes} :
    trim line = [] ↔ ∀ c ∈ line, c = carriageReturn ∨ c = space ∨ c = tab := by
  have hiff : trim line = [] ↔
      line.rdropWhile (fun c => c = carriageReturn || c = space || c = tab) = [] := by
    constructor
    · intro hnil
      rw [trim_eq, List.dropWhile_eq_nil_iff] at hnil
      by_contra hne
      -- the last byte that is left is not one that the start is trimmed of
      have hlast := List.rdropWhile_last_not _ line hne
      have hstart := hnil _ (List.getLast_mem hne)
      simp only [Bool.or_eq_true, decide_eq_true_eq] at hlast hstart
      exact hlast (hstart.elim (fun h => .inl (.inr h)) .inr)
    · intro hnil
      rw [trim_eq, hnil]
      rfl
  rw [hiff, List.rdropWhile_eq_nil_iff]
  simp only [Bool.or_eq_true, decide_eq_true_eq, or_assoc]

/-- INTERNAL: trimming adds nothing. -/
theorem mem_of_mem_trim {line : Bytes} {c : UInt8} (h : c ∈ trim line) : c ∈ line :=
  (List.rdropWhile_prefix _ _).subset ((List.dropWhile_suffix _).subset h)

/-- INTERNAL: what is trimmed off is a carriage return, a space or a tab. -/
theorem mem_trim_or {line : Bytes} {c : UInt8} (h : c ∈ line) :
    c ∈ trim line ∨ c = carriageReturn ∨ c = space ∨ c = tab := by
  rw [trim_eq]
  generalize hright : line.rdropWhile _ = right
  rw [← List.rdropWhile_append_rtakeWhile (l := line)
    (p := fun c => c = carriageReturn || c = space || c = tab), hright, List.mem_append] at h
  rcases h with h | h
  · rw [← List.takeWhile_append_dropWhile (p := fun c => c = space || c = tab) (l := right),
      List.mem_append] at h
    rcases h with h | h
    · have hstart := List.mem_takeWhile_imp h
      simp only [Bool.or_eq_true, decide_eq_true_eq] at hstart
      exact .inr (.inr hstart)
    · exact .inl h
  · have hend := List.mem_rtakeWhile_imp h
    simp only [Bool.or_eq_true, decide_eq_true_eq, or_assoc] at hend
    exact .inr hend

/-- INTERNAL: what is trimmed off is white space. -/
theorem isSpace_of_trimmed {c : UInt8} (h : c = carriageReturn ∨ c = space ∨ c = tab) :
    isSpace c = true := by
  rcases h with rfl | rfl | rfl <;> rfl

/-- A line has no words when it has white space only. -/
theorem words_trim_eq_nil_iff {line : Bytes} :
    words (trim line) = [] ↔ ∀ c ∈ line, isSpace c = true := by
  rw [words_eq_nil_iff]
  constructor
  · intro hall c hc
    exact (mem_trim_or hc).elim (hall c) isSpace_of_trimmed
  · exact fun hall c hc => hall c (mem_of_mem_trim hc)

/-- The lines that have no first token where one is looked for. -/
theorem tokenised_and_words_iff {line : Bytes} :
    ReachesTokens line ∧ words (trim line) = [] ↔ VerticalBlank line := by
  unfold ReachesTokens VerticalBlank
  rw [words_trim_eq_nil_iff, ne_eq, trim_eq_nil_iff]
  push Not
  constructor
  · exact fun h => ⟨h.2, h.1.1⟩
  · rintro ⟨hall, hleft⟩
    refine ⟨⟨hleft, fun hcomment => ?_⟩, hall⟩
    have hmem := mem_of_mem_trim (List.mem_of_mem_head? hcomment)
    exact absurd (hall _ hmem) (by decide)

/-! ## Lines -/

/-- INTERNAL: a blank line names no operation. -/
theorem not_unknownOperation_of_blank {line : Bytes} (h : VerticalBlank line) :
    unknownOperation line = false := by
  rw [unknownOperation, words_trim_eq_nil_iff.mpr h.1]

/-- The cases of `readLine`, with the text that leads to each. -/
theorem readLine_cases (p : CpuProgram) (line : Bytes) :
    (VerticalBlank line ∧ readLine p line = .noToken) ∨
    (unknownOperation line = true ∧ ∃ message, readLine p line = .invalid message) ∨
    (¬ VerticalBlank line ∧ unknownOperation line = false ∧
      (readLine p line = .skipped ∨ (∃ key val, readLine p line = .header (setHeader p key val)) ∨
        ∃ op, readLine p line = .operation op)) := by
  by_cases htokens : ReachesTokens line
  · have hread : ¬ (trim line = [] ∨ (trim line).head? = some numberSign) := not_or.mpr htokens
    cases hwords : words (trim line) with
    | nil =>
        refine .inl ⟨tokenised_and_words_iff.mp ⟨htokens, hwords⟩, ?_⟩
        simp only [readLine, hread, if_false, hwords]
    | cons token operands =>
        have hblank : ¬ VerticalBlank line := by
          intro hblank
          rw [(tokenised_and_words_iff.mpr hblank).2] at hwords
          cases hwords
        cases hpair : (splitPair token).filter fun pair => pair.1 ≠ [] with
        | some pair =>
            refine .inr (.inr ⟨hblank, ?_, .inr (.inl ⟨pair.1, pair.2, ?_⟩)⟩)
            · simp only [unknownOperation, hwords, hpair, Option.isNone_some, Bool.and_false,
                Bool.false_and]
            · simp only [readLine, hread, if_false, hwords, hpair]
        | none =>
            cases hkind : opKindFromName token with
            | some kind =>
                refine .inr (.inr ⟨hblank, ?_, .inr (.inr
                  ⟨operands.foldl setOperand { kind, n := elementCount p.shapeN }, ?_⟩)⟩)
                · simp only [unknownOperation, hwords, hkind, Option.isNone_some, Bool.and_false]
                · simp only [readLine, hread, if_false, hwords, hpair, hkind]
            | none =>
                refine .inr (.inl ⟨?_, ascii "unknown op: " ++ token, ?_⟩)
                · simp only [unknownOperation, hwords, hpair, hkind, Option.isNone_none,
                    Bool.and_true, bne_iff_ne]
                  exact htokens.2
                · simp only [readLine, hread, if_false, hwords, hpair, hkind]
  · have hread : trim line = [] ∨ (trim line).head? = some numberSign := by
      unfold ReachesTokens at htokens
      tauto
    have hblank : ¬ VerticalBlank line := fun hblank =>
      htokens (tokenised_and_words_iff.mpr hblank).1
    refine .inr (.inr ⟨hblank, ?_, .inl ?_⟩)
    · rcases hread with hnil | hcomment
      · simp only [unknownOperation, hnil]
        rfl
      · simp only [unknownOperation, hcomment, bne_self_eq_false, Bool.false_and]
        cases words (trim line) <;> rfl
    · simp only [readLine, hread, if_true]

/-- The lines in front of the first that names an operation that is not known. -/
def linesRead (lines : List Bytes) : List Bytes :=
  lines.takeWhile fun line => !unknownOperation line

/-- The parse is not defined if and only if it gets to a blank line that the trimming leaves. -/
theorem readLines_eq_none_iff {p : CpuProgram} {lines : List Bytes} :
    readLines p lines = none ↔ ∃ line ∈ linesRead lines, VerticalBlank line := by
  induction lines generalizing p with
  | nil => simp [readLines, linesRead]
  | cons line lines ih =>
      unfold readLines linesRead
      rw [List.takeWhile_cons]
      rcases readLine_cases p line with
        ⟨hblank, hread⟩ | ⟨hunknown, message, hread⟩ | ⟨hblank, hknown, hread⟩
      · simp only [hread, not_unknownOperation_of_blank hblank, true_iff]
        exact ⟨line, by simp, hblank⟩
      · simp [hread, hunknown]
      · rw [hknown, Bool.not_false, if_pos rfl, List.exists_mem_cons_iff, or_iff_right hblank]
        rcases hread with hread | ⟨key, val, hread⟩ | ⟨op, hread⟩ <;> rw [hread] <;> exact ih

/-- INTERNAL: lines are read one part after the other. -/
theorem readLines_append {p q : CpuProgram} {before : List Bytes}
    (h : readLines p before = some (.ok q)) (lines : List Bytes) :
    readLines p (before ++ lines) = readLines q lines := by
  induction before generalizing p with
  | nil =>
      obtain rfl := Except.ok.inj (Option.some.inj h)
      rfl
  | cons line before ih =>
      unfold readLines at h
      rw [List.cons_append, readLines]
      cases hread : readLine p line <;> rw [hread] at h
      · exact ih h
      · exact ih h
      · exact ih h
      · cases h
      · cases h

/-! ## Sources -/

/-- INTERNAL: a source is undefined when its lines are. -/
theorem parseSource_eq_none_iff {source : Bytes} :
    parseSource source = none ↔ readLines {} (getlines newline source) = none :=
  Option.map_eq_none_iff

/-- A source is defined exactly when no line that is read is vertically blank. -/
theorem parseSource_ne_none_iff {source : Bytes} :
    parseSource source ≠ none ↔
      ∀ line ∈ linesRead (getlines newline source), ¬ VerticalBlank line := by
  rw [ne_eq, parseSource_eq_none_iff, readLines_eq_none_iff]
  push Not
  rfl

/-- An invalid line makes its source invalid. -/
theorem parseSource_of_invalid {source message : Bytes} {p : CpuProgram} {line : Bytes}
    {rest : List Bytes} (hgets : GetsTo source p line rest)
    (hread : readLine p line = .invalid message) :
    parseSource source = some (Err .InvalidSource message) := by
  obtain ⟨before, hlines, hbefore⟩ := hgets
  rw [parseSource, hlines, readLines_append hbefore, readLines, hread]
  rfl

/-- INTERNAL: in a defined source no line that is reached is vertically blank. -/
theorem not_blank_of_defined {source : Bytes} (h : parseSource source ≠ none) {p : CpuProgram}
    {line : Bytes} {rest : List Bytes} (hgets : GetsTo source p line rest) :
    ¬ VerticalBlank line := by
  obtain ⟨before, hlines, hbefore⟩ := hgets
  intro hblank
  rw [ne_eq, parseSource_eq_none_iff, hlines, readLines_append hbefore, readLines_eq_none_iff] at h
  refine h ⟨line, ?_, hblank⟩
  rw [linesRead, List.takeWhile_cons, not_unknownOperation_of_blank hblank]
  exact List.mem_cons_self

/-- A defined source is parsed safely. -/
theorem parsesSafely_of_defined {source : Bytes} (h : parseSource source ≠ none) :
    ParsesSafely source where
  token p line rest hgets htokens hnil :=
    not_blank_of_defined h hgets (tokenised_and_words_iff.mp ⟨htokens, hnil⟩)
  handled p line rest hgets := by
    rcases readLine_cases p line with ⟨hblank, -⟩ | ⟨-, message, hread⟩ | ⟨-, -, hread⟩
    · exact absurd hblank (not_blank_of_defined h hgets)
    · exact .invalid message (parseSource_of_invalid hgets hread)
    · rcases hread with hread | ⟨key, val, hread⟩ | ⟨op, hread⟩
      · exact .skipped (by rw [readLines, hread])
      · exact .header key val (by rw [readLines, hread])
      · exact .operation op (by rw [readLines, hread])
  defined := h

/-- The parse of a source is safe if and only if, in front of the first operation that is not known,
no line is white space with a vertical tab or a form feed. -/
theorem parsesSafely_iff (source : Bytes) :
    ParsesSafely source ↔ ∀ line ∈ linesRead (getlines newline source), ¬ VerticalBlank line := by
  rw [← parseSource_ne_none_iff]
  exact ⟨ParsesSafely.defined, parsesSafely_of_defined⟩

/-- A vertical tab is a line without a token. -/
theorem not_parsesSafely : ¬ ∀ source : Bytes, ParsesSafely source := by
  intro hall
  have hgets : GetsTo [11] {} [11] [] := ⟨[], by decide, rfl⟩
  exact (hall [11]).token {} [11] [] hgets ⟨by decide, by decide⟩ (by decide)

end CompilationFabric.Analysis
