import CompilationFabric.Library.Numerals
import CompilationFabric.Model.CpuBackend

/-!
# The source text of a CPU program

`CpuBackend::parseSource`, line by line.  A line is a header, an operation, or nothing; one that
begins with neither ends the parse.

The parser reads the first token of a line without looking whether there is one.  There is none
on a line of only vertical tabs and form feeds, which the trimming in front leaves alone, and
what the program does then is not defined: `parseSource` has no value for such a source.
-/

set_option autoImplicit false

namespace CompilationFabric.Model

open CompilationFabric.Library

namespace CpuBackend

/-- SOURCE: CpuBackend.cpp:18-31 -/
def opKindFromName : Bytes → Option CpuOpKind :=
  lookup [("nop", .Nop), ("add", .Add), ("sub", .Sub), ("mul", .Mul), ("scale", .Scale),
    ("abs", .Abs), ("neg", .Neg), ("sum", .Sum), ("max", .Max), ("min", .Min), ("id", .Id)]

def space : UInt8 := 32
def tab : UInt8 := 9
def newline : UInt8 := 10
def carriageReturn : UInt8 := 13
def numberSign : UInt8 := 35
def equalsSign : UInt8 := 61

/-- SOURCE: CpuBackend.cpp:84-88 -/
def trim (line : Bytes) : Bytes :=
  let atEnd (c : UInt8) : Bool := c = carriageReturn || c = space || c = tab
  let atStart (c : UInt8) : Bool := c = space || c = tab
  (line.reverse.dropWhile atEnd).reverse.dropWhile atStart

/-- The texts in front of the first `=` and behind it. -/
def splitPair (token : Bytes) : Option (Bytes × Bytes) :=
  if equalsSign ∈ token then
    some (token.takeWhile (· ≠ equalsSign), (token.dropWhile (· ≠ equalsSign)).drop 1)
  else none

/-- SOURCE: CpuBackend.cpp:97-101 -/
def setHeader (p : CpuProgram) (key val : Bytes) : CpuProgram :=
  if key = ascii "name" then { p with name := val }
  else if key = ascii "datatype" then
    { p with datatype := (datatypeFromName val).getD p.datatype }
  else if key = ascii "shape" then { p with shapeN := Numerals.strtoull val }
  else if key = ascii "alignment" then
    { p with alignment := (Numerals.strtoll val).toUInt64.toUInt32 }
  else p

/-- SOURCE: CpuBackend.cpp:108-114 -/
def setOperand (op : CpuOp) (token : Bytes) : CpuOp :=
  match splitPair token with
  | none => op
  | some (key, val) =>
      if key = ascii "scalar" then { op with scalar := Numerals.strtod val }
      else if key = ascii "n" then { op with n := (Numerals.strtoull val).toUInt32 }
      else op

/-- What a line of the source says. -/
inductive SourceLine where
  | skipped
  /-- The program with the header set. -/
  | header (p : CpuProgram)
  | operation (op : CpuOp)
  | invalid (message : Bytes)
  /-- The line has no first token. -/
  | noToken

/-- `shape` where it is set, as the 32 bits that an element count has. -/
def elementCount (shapeN : UInt64) : UInt32 :=
  (if shapeN ≠ 0 then shapeN else 1024).toUInt32

/-- SOURCE: CpuBackend.cpp:83-115 -/
def readLine (p : CpuProgram) (line : Bytes) : SourceLine :=
  let line := trim line
  if line = [] ∨ line.head? = some numberSign then .skipped
  else
    match Numerals.words line with
    | [] => .noToken
    | token :: operands =>
        match (splitPair token).filter fun pair => pair.1 ≠ [] with
        | some (key, val) => .header (setHeader p key val)
        | none =>
            match opKindFromName token with
            | none => .invalid (ascii "unknown op: " ++ token)
            | some kind =>
                .operation (operands.foldl setOperand { kind, n := elementCount p.shapeN })

/-- SOURCE: CpuBackend.cpp:82-116 -/
def readLines (p : CpuProgram) : List Bytes → Option (Result CpuProgram)
  | [] => some (.ok p)
  | line :: lines =>
      match readLine p line with
      | .skipped => readLines p lines
      | .header p => readLines p lines
      | .operation op => readLines { p with ops := p.ops ++ [op] } lines
      | .invalid message => some (Err .InvalidSource message)
      | .noToken => none

/-- The element count of a source that does not give one.
SOURCE: CpuBackend.cpp:118-122 -/
def derivedShape (ops : List CpuOp) : UInt64 :=
  let largest := ops.foldl (fun shapeN op => max shapeN op.n.toUInt64) 0
  if largest = 0 then 1024 else largest

/-- SOURCE: CpuBackend.cpp:118-125 -/
def finishSource (p : CpuProgram) : Result CpuProgram :=
  if p.ops = [] then Err .InvalidSource (ascii "source produced no operations")
  else .ok { p with
    shapeN := if p.shapeN = 0 then derivedShape p.ops else p.shapeN
    name := if p.name = [] then ascii "cf-kernel" else p.name }

/-- SOURCE: CpuBackend.cpp:79-126 -/
def parseSource (source : Bytes) : Option (Result CpuProgram) :=
  (readLines {} (Numerals.getlines newline source)).map (·.bind finishSource)

/-- `compile` from the source on.
SOURCE: CpuBackend.cpp:270-337 -/
def compileSource (r : CompilationRequest) (validation : ValidationDescriptor)
    (stages : List StageResult) : Option (Result BackendOutput) :=
  (parseSource r.source).map fun parsed => compile r parsed validation stages

/-- What is compiled is the program of the source, specialized and folded. -/
theorem compileSource_eq_ok {r : CompilationRequest} {validation : ValidationDescriptor}
    {stages : List StageResult} {out : BackendOutput}
    (h : compileSource r validation stages = some (.ok out)) :
    ∃ p, parseSource r.source = some (.ok p) ∧
      out.executable = encode (optimize r (specialize r p)) := by
  obtain ⟨parsed, hparse, hcompile⟩ := Option.map_eq_some_iff.mp h
  cases parsed with
  | error e => cases hcompile
  | ok p =>
      obtain rfl := Except.ok.inj hcompile
      exact ⟨p, hparse, rfl⟩

/-- A program has an operation. -/
theorem ops_ne_nil_of_parseSource {source : Bytes} {p : CpuProgram}
    (h : parseSource source = some (.ok p)) : p.ops ≠ [] := by
  obtain ⟨lines, -, hfinish⟩ := Option.map_eq_some_iff.mp h
  cases lines with
  | error e => cases hfinish
  | ok q =>
      simp only [Except.bind, finishSource] at hfinish
      split at hfinish
      · cases hfinish
      · next hops =>
        obtain rfl := Except.ok.inj hfinish
        exact hops

end CpuBackend

end CompilationFabric.Model
