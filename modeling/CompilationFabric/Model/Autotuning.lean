import CompilationFabric.Model.Planning

/-!
# Bounded autotuning

The autotuning of `compile` with its loops: `winnerIx` and `bestMs` are the source's variables, and
every call of the backend is for a request of its own.  `autotune` in the planning model is what
they come to once the answers are known.
-/

set_option autoImplicit false

namespace CompilationFabric.Model

/-- What a backend answers in one compile to the requests that it is called with: for a variant,
for the winner compiled once more, and for the request as it is. -/
structure BackendAnswers where
  variant : ℕ → CompilationRequest → VariantRun
  winner : CompilationRequest → Result BackendOutput
  plain : CompilationRequest → Result BackendOutput

namespace Autotuning

/-- `std::numeric_limits<double>::max()`. -/
def maxMs : ℚ := (2 ^ 53 - 1) * 2 ^ 971

/-- The variables of the loop over the variants.
SOURCE: Fabric.cpp:302 -/
structure Tuning where
  winnerIx : ℤ := -1
  bestMs : ℚ := maxMs
  autotuneCands : List AutotuneCandidate := []

/-- One round; a variant that does not compile is a candidate, and the round ends there.
SOURCE: Fabric.cpp:303-330 -/
def tuneVariant (r : CompilationRequest) (a : BackendAnswers) (t : Tuning) (vi : ℕ) : Tuning :=
  let run := a.variant vi (variantRequest r vi)
  let ac := evaluateVariant r vi run
  let autotuneCands := t.autotuneCands ++ [ac]
  match run.compiled with
  | .error _ => { t with autotuneCands }
  | .ok _ =>
      if ac.validated && 0 < ac.perfMs && ac.perfMs < t.bestMs then
        { winnerIx := vi, bestMs := ac.perfMs, autotuneCands }
      else { t with autotuneCands }

/-- SOURCE: Fabric.cpp:303-330 -/
def tuneVariants (r : CompilationRequest) (a : BackendAnswers) : Tuning :=
  (List.range r.autotuneCandidates.toInt.toNat).foldl (tuneVariant r a) {}

/-- The loop over the candidates from an index on, when nothing has been measured.
SOURCE: Fabric.cpp:331 -/
def firstValidated (vi : ℕ) : List AutotuneCandidate → ℤ
  | [] => -1
  | ac :: cands => if ac.validated then vi else firstValidated (vi + 1) cands

/-- `winnerIx` behind both loops.
SOURCE: Fabric.cpp:302-331 -/
def winnerIx (r : CompilationRequest) (a : BackendAnswers) : ℤ :=
  let t := tuneVariants r a
  if t.winnerIx < 0 then firstValidated 0 t.autotuneCands else t.winnerIx

/-- The winner is compiled once more.
SOURCE: Fabric.cpp:332-337 -/
def compileWinner (r : CompilationRequest) (a : BackendAnswers) (build : Build) : Build :=
  let winner := winnerIx r a
  if 0 ≤ winner then
    match a.winner (variantRequest r winner.toNat) with
    | .ok output =>
        { build with
          output
          autotuneWinner :=
            ((build.autotuneCandidates[winner.toNat]?).map (·.variantId)).getD [] }
    | .error _ => build
  else build

/-- The request is compiled as it is when there is nothing yet.
SOURCE: Fabric.cpp:339 -/
def compilePlain (r : CompilationRequest) (a : BackendAnswers) (build : Build) : Build :=
  if build.output.executable = [] then
    match a.plain r with
    | .ok output => { build with output }
    | .error _ => build
  else build

/-- SOURCE: Fabric.cpp:300-339 -/
def tune (r : CompilationRequest) (a : BackendAnswers) : Build :=
  compilePlain r a (compileWinner r a
    { autotuned := true, autotuneCandidates := (tuneVariants r a).autotuneCands })

end Autotuning

/-- The answers in one compile of a request. -/
def BackendAnswers.run (a : BackendAnswers) (r : CompilationRequest) : BackendRun where
  variants vi := a.variant vi (variantRequest r vi)
  winner := a.winner (variantRequest r (Autotuning.winnerIx r a).toNat)
  plain := a.plain r

end CompilationFabric.Model
