import CompilationFabric.Interface.FabricOutputs
import CompilationFabric.Interface.FabricRuns
import CompilationFabric.Library.FirstLeast
import CompilationFabric.Model.Autotuning

/-!
# The winner of autotuning

The loop over the variants is a search for the first of the least times (`tracks_tuneVariants`),
where a variant has a time when it compiles, validates and is measured.  Every variant leaves one
candidate, so the index of a candidate is the number of its variant, and the second loop finds the
first variant that validates (`winnerIx_eq`).  What the backend makes of the winner's settings is
then all that the call carries on (`Delivers`).
-/

set_option autoImplicit false

namespace CompilationFabric.Analysis

open CompilationFabric.Library
open CompilationFabric.Library.TransitionSystem
open CompilationFabric.Model
open CompilationFabric.Model.Autotuning
open CompilationFabric.Interface

variable {r : CompilationRequest} {a : BackendAnswers} {vi ix : ℕ}

/-! ## The variants -/

/-- The number of variants. -/
def variants (r : CompilationRequest) : ℕ := r.autotuneCandidates.toInt.toNat

/-- The answers for a variant, with its own settings. -/
def variantRun (r : CompilationRequest) (a : BackendAnswers) (vi : ℕ) : VariantRun :=
  a.variant vi (variantRequest r vi)

/-- The variant compiles, and its executable passes validation. -/
def Validates (r : CompilationRequest) (a : BackendAnswers) (vi : ℕ) : Prop :=
  (∃ output, (variantRun r a vi).compiled = .ok output) ∧
    ∃ vd, (variantRun r a vi).validated = .ok vd ∧ vd.passed = true

/-- The time that is measured for a variant, zero unless its module loads. -/
def measuredMs (r : CompilationRequest) (a : BackendAnswers) (vi : ℕ) : ℚ :=
  if (variantRun r a vi).loaded then milliseconds (variantRun r a vi).measuredNanos else 0

/-- What the loop keeps of a variant. -/
def candidate (r : CompilationRequest) (a : BackendAnswers) (vi : ℕ) : AutotuneCandidate :=
  evaluateVariant r vi (variantRun r a vi)

/-- A candidate is validated when its run compiles and passes. -/
theorem validated_candidate : (candidate r a vi).validated = true ↔ Validates r a vi := by
  unfold candidate evaluateVariant Validates
  rw [← VariantRun.passed_eq_true]
  cases (variantRun r a vi).compiled with
  | error failure => simp
  | ok output => simp

/-- A validated candidate has the time that was measured. -/
theorem perfMs_candidate (h : Validates r a vi) :
    (candidate r a vi).perfMs = measuredMs r a vi := by
  obtain ⟨⟨output, houtput⟩, hvalidated⟩ := h
  have hpassed := VariantRun.passed_eq_true.mpr hvalidated
  unfold candidate evaluateVariant measuredMs
  simp only [houtput, hpassed, Bool.true_and]

/-- A candidate is named by its number. -/
theorem variantId_candidate :
    (candidate r a vi).variantId = ascii "variant-" ++ DecimalText.natText vi := by
  unfold candidate evaluateVariant
  dsimp only
  split
  · rfl
  · rfl

/-- The time of a candidate, when it counts. -/
def score (ac : AutotuneCandidate) : Option ℚ :=
  if ac.validated && 0 < ac.perfMs then some ac.perfMs else none

/-- A candidate has a score when it is validated and took time at all. -/
theorem score_candidate {x : ℚ} :
    score (candidate r a vi) = some x ↔ Validates r a vi ∧ measuredMs r a vi = x ∧ 0 < x := by
  unfold score
  by_cases hvalidates : Validates r a vi
  · rw [validated_candidate.mpr hvalidates, perfMs_candidate hvalidates]
    by_cases hpos : 0 < measuredMs r a vi
    · simp only [Bool.true_and, decide_eq_true_eq, hpos, if_true, Option.some_inj, hvalidates,
        true_and]
      constructor
      · rintro rfl
        exact ⟨rfl, hpos⟩
      · exact And.left
    · simp only [Bool.true_and, decide_eq_true_eq, hpos, if_false, hvalidates, true_and]
      constructor
      · exact fun h => nomatch h
      · rintro ⟨rfl, hx⟩
        exact absurd hx hpos
  · have hno : (candidate r a vi).validated = false :=
      Bool.eq_false_of_not_eq_true fun h => hvalidates (validated_candidate.mp h)
    simp [hno, hvalidates]

/-- Sixty-four bits of nanoseconds are far from the greatest double. -/
theorem measuredMs_lt : measuredMs r a vi < maxMs := by
  have hround : ∀ q : ℚ, 0 ≤ q → q ≤ 2 ^ (64 : ℤ) → Binary64.roundRat q ≤ 2 ^ (64 : ℤ) :=
    fun q hlo hhi =>
      (Binary64.roundRat_le (by norm_num) (by linarith [Binary64.two_zpow_pos 64]) hhi).1
  have hbound : milliseconds (variantRun r a vi).measuredNanos ≤ 2 ^ (64 : ℤ) := by
    have hlt : ((variantRun r a vi).measuredNanos.toNat : ℚ) ≤ 2 ^ (64 : ℤ) := by
      have hnat := (variantRun r a vi).measuredNanos.toNat_lt
      exact_mod_cast hnat.le
    have hlo := Binary64.roundRat_nonneg
      (Nat.cast_nonneg (variantRun r a vi).measuredNanos.toNat)
    have hhi := hround _ (Nat.cast_nonneg _) hlt
    unfold milliseconds
    apply hround _ (div_nonneg hlo (by norm_num))
    rw [div_le_iff₀ (by norm_num)]
    calc Binary64.roundRat _ ≤ 2 ^ (64 : ℤ) := hhi
      _ ≤ 2 ^ (64 : ℤ) * 10 ^ 6 := by norm_num
  have hmax : (2 : ℚ) ^ (64 : ℤ) < maxMs := by
    have hpow : (2 : ℚ) ^ (64 : ℕ) < 2 ^ 971 := pow_lt_pow_right₀ (by norm_num) (by norm_num)
    calc (2 : ℚ) ^ (64 : ℤ) = 2 ^ (64 : ℕ) := by norm_num
      _ < 2 ^ 971 := hpow
      _ = 1 * 2 ^ 971 := (one_mul _).symm
      _ ≤ maxMs := mul_le_mul_of_nonneg_right (by norm_num) (pow_nonneg (by norm_num) _)
  unfold measuredMs
  split
  · exact hbound.trans_lt hmax
  · exact (Binary64.two_zpow_pos 64).trans hmax

/-! ## The first loop -/

/-- The variables of the loop hold what a search has found. -/
def Tracks (best : Option (ℕ × ℚ)) (t : Tuning) : Prop :=
  match best with
  | none => t.winnerIx = -1 ∧ t.bestMs = maxMs
  | some b => t.winnerIx = b.1 ∧ t.bestMs = b.2

/-- Every round adds one candidate. -/
theorem autotuneCands_tuneVariant (t : Tuning) :
    (tuneVariant r a t vi).autotuneCands = t.autotuneCands ++ [candidate r a vi] := by
  unfold tuneVariant
  dsimp only
  split
  · rfl
  · split
    · rfl
    · rfl

/-- A candidate without a time leaves the variables as they are. -/
theorem tuneVariant_of_none (h : score (candidate r a vi) = none) (t : Tuning) :
    tuneVariant r a t vi =
      { t with autotuneCands := t.autotuneCands ++ [candidate r a vi] } := by
  have hno : ((candidate r a vi).validated && decide (0 < (candidate r a vi).perfMs)) = false := by
    apply Bool.eq_false_of_not_eq_true
    intro hcounts
    rw [score, if_pos hcounts] at h
    cases h
  unfold candidate variantRun at hno ⊢
  unfold tuneVariant
  dsimp only
  split
  · rfl
  · rw [hno, Bool.false_and, if_neg Bool.false_ne_true]

/-- A time is taken when it is below the best one. -/
theorem tuneVariant_of_some {x : ℚ} (h : score (candidate r a vi) = some x) (t : Tuning) :
    tuneVariant r a t vi =
      if x < t.bestMs then
        { winnerIx := vi, bestMs := x, autotuneCands := t.autotuneCands ++ [candidate r a vi] }
      else { t with autotuneCands := t.autotuneCands ++ [candidate r a vi] } := by
  obtain ⟨hvalidates, rfl, hpos⟩ := score_candidate.mp h
  have hcounts : ((candidate r a vi).validated && decide (0 < (candidate r a vi).perfMs)) = true := by
    rw [validated_candidate.mpr hvalidates, perfMs_candidate hvalidates, decide_eq_true hpos]
    rfl
  obtain ⟨output, houtput⟩ := hvalidates.1
  rw [← perfMs_candidate hvalidates]
  unfold candidate variantRun at hcounts ⊢
  unfold variantRun at houtput
  unfold tuneVariant
  simp only [houtput, hcounts, Bool.true_and, decide_eq_true_eq]

/-- One round is one round of the search. -/
theorem tracks_tuneVariant {best : Option (ℕ × ℚ)} {t : Tuning} (h : Tracks best t) :
    Tracks (FirstLeast.improve (fun vi => score (candidate r a vi)) best vi)
      (tuneVariant r a t vi) := by
  have hkept : Tracks best { t with autotuneCands := t.autotuneCands ++ [candidate r a vi] } := by
    cases best with
    | none => exact h
    | some b => exact h
  cases hscore : score (candidate r a vi) with
  | none =>
      rw [FirstLeast.improve_of_none _ hscore, tuneVariant_of_none hscore]
      exact hkept
  | some x =>
      have hbest : (best.all fun b => x < b.2) = decide (x < t.bestMs) := by
        cases best with
        | none =>
            obtain ⟨-, rfl, -⟩ := score_candidate.mp hscore
            rw [h.2, decide_eq_true measuredMs_lt]
            rfl
        | some b => rw [h.2, Option.all_some]
      rw [FirstLeast.improve_of_some _ hscore, tuneVariant_of_some hscore, hbest]
      by_cases hlt : x < t.bestMs
      · rw [if_pos hlt, if_pos (decide_eq_true hlt)]
        exact ⟨rfl, rfl⟩
      · rw [if_neg hlt, if_neg (by rwa [decide_eq_true_eq])]
        exact hkept

/-- What the loop has found after `n` rounds. -/
theorem tracks_foldl (n : ℕ) :
    ((List.range n).foldl (tuneVariant r a) {}).autotuneCands =
        (List.range n).map (candidate r a) ∧
      Tracks (FirstLeast.search (fun vi => score (candidate r a vi)) n)
        ((List.range n).foldl (tuneVariant r a) {}) := by
  induction n with
  | zero => exact ⟨rfl, rfl, rfl⟩
  | succ n ih =>
      rw [List.range_succ, List.foldl_append, List.foldl_cons, List.foldl_nil, List.map_append,
        List.map_singleton, FirstLeast.search_succ, autotuneCands_tuneVariant, ih.1]
      exact ⟨rfl, tracks_tuneVariant ih.2⟩

/-! ## The second loop -/

/-- INTERNAL: the first validated candidate by its index. -/
theorem firstValidated_eq (vi : ℕ) (cands : List AutotuneCandidate) :
    firstValidated vi cands =
      match cands.findIdx? AutotuneCandidate.validated with
      | some ix => ((vi + ix : ℕ) : ℤ)
      | none => -1 := by
  induction cands generalizing vi with
  | nil => rfl
  | cons ac cands ih =>
      rw [firstValidated, List.findIdx?_cons]
      cases ac.validated with
      | true => rfl
      | false =>
          rw [if_neg Bool.false_ne_true, if_neg Bool.false_ne_true, ih]
          cases cands.findIdx? AutotuneCandidate.validated with
          | none => rfl
          | some ix =>
              dsimp only [Option.map_some]
              congr 1
              omega

/-- The choice among the candidates is the search, and else the first that validates. -/
theorem selectWinner_eq (f : ℕ → AutotuneCandidate) (n : ℕ) :
    selectWinner ((List.range n).map f) =
      ((FirstLeast.search (fun vi => score (f vi)) n).map Prod.fst <|>
        ((List.range n).map f).findIdx? AutotuneCandidate.validated) := by
  have hround : ∀ best vi, betterCandidate best vi (f vi) =
      FirstLeast.improve (fun vi => score (f vi)) best vi := by
    intro best vi
    by_cases hcounts : ((f vi).validated && decide (0 < (f vi).perfMs)) = true
    · have hscore : score (f vi) = some (f vi).perfMs := if_pos hcounts
      rw [FirstLeast.improve_of_some (fun vi => score (f vi)) hscore, betterCandidate,
        hcounts, Bool.true_and]
    · have hscore : score (f vi) = none := if_neg hcounts
      rw [FirstLeast.improve_of_none (fun vi => score (f vi)) hscore, betterCandidate,
        Bool.eq_false_of_not_eq_true hcounts, Bool.false_and, if_neg Bool.false_ne_true]
  have hfold : (((List.range n).map f).zipIdx).foldl (fun best c => betterCandidate best c.2 c.1)
      none = FirstLeast.search (fun vi => score (f vi)) n := by
    induction n with
    | zero => rfl
    | succ n ih =>
        rw [List.range_succ, List.map_append, List.zipIdx_append, List.foldl_append, ih,
          FirstLeast.search_succ, ← hround]
        simp
  unfold selectWinner
  rw [hfold]

/-- Both loops together. -/
theorem winnerIx_eq :
    winnerIx r a =
      match selectWinner ((List.range (variants r)).map (candidate r a)) with
      | some ix => (ix : ℤ)
      | none => -1 := by
  obtain ⟨hcands, htracks⟩ := tracks_foldl (r := r) (a := a) (variants r)
  rw [selectWinner_eq]
  unfold winnerIx tuneVariants
  change (if ((List.range (variants r)).foldl (tuneVariant r a) {}).winnerIx < 0 then
    firstValidated 0 ((List.range (variants r)).foldl (tuneVariant r a) {}).autotuneCands
    else ((List.range (variants r)).foldl (tuneVariant r a) {}).winnerIx) = _
  rw [hcands, firstValidated_eq]
  cases hbest : FirstLeast.search (fun vi => score (candidate r a vi)) (variants r) with
  | none =>
      rw [hbest] at htracks
      rw [htracks.1, if_pos (by decide)]
      simp
  | some b =>
      rw [hbest] at htracks
      rw [htracks.1, if_neg (by omega)]
      rfl

/-- The candidates are one for each variant, in order. -/
theorem autotuneCands_tuneVariants :
    (tuneVariants r a).autotuneCands = (List.range (variants r)).map (candidate r a) :=
  (tracks_foldl (variants r)).1

/-- INTERNAL: the winner is compiled again when there is one. -/
theorem compileWinner_eq (build : Build) :
    compileWinner r a build =
      match selectWinner ((List.range (variants r)).map (candidate r a)), (a.run r).winner with
      | some ix, .ok output =>
          { build with
            output
            autotuneWinner := ((build.autotuneCandidates[ix]?).map (·.variantId)).getD [] }
      | _, _ => build := by
  have hrun : (a.run r).winner = a.winner (variantRequest r (winnerIx r a).toNat) := rfl
  unfold compileWinner
  rw [hrun, winnerIx_eq]
  cases selectWinner ((List.range (variants r)).map (candidate r a)) with
  | none => exact if_neg (by decide)
  | some ix =>
      simp only [Int.toNat_natCast, Int.natCast_nonneg, if_true]
      cases a.winner (variantRequest r ix) with
      | error failure => rfl
      | ok output => rfl

/-- INTERNAL: without a winner the request is compiled as it is. -/
theorem compilePlain_eq (build : Build) :
    compilePlain r a build =
      match a.plain r with
      | .ok output => if build.output.executable = [] then { build with output } else build
      | .error _ => build := by
  unfold compilePlain
  cases a.plain r with
  | error failure => exact ite_self _
  | ok output => rfl

/-- With the answers known, the loops are the choice among the candidates.
SOURCE: Fabric.cpp:300-339 -/
theorem tune_eq (r : CompilationRequest) (a : BackendAnswers) :
    tune r a = autotune r (a.run r) := by
  unfold tune
  rw [compilePlain_eq, compileWinner_eq, autotuneCands_tuneVariants]
  rfl

/-! ## The winner -/

/-- A candidate without a score is invalid, or took no time. -/
theorem score_eq_none_iff :
    score (candidate r a vi) = none ↔ Validates r a vi → ¬ 0 < measuredMs r a vi := by
  rw [Option.eq_none_iff_forall_ne_some]
  constructor
  · intro h hvalidates hpos
    exact h _ (score_candidate.mpr ⟨hvalidates, rfl, hpos⟩)
  · intro h x hx
    obtain ⟨hvalidates, rfl, hpos⟩ := score_candidate.mp hx
    exact h hvalidates hpos

/-- The winner is a variant that validates; it is the first with the least time when one has a
time, and the first that validates otherwise. -/
structure PicksBest (r : CompilationRequest) (a : BackendAnswers) : Prop where
  chosen : 0 ≤ winnerIx r a ↔ ∃ vi < variants r, Validates r a vi
  validated : ∀ ix : ℕ, winnerIx r a = ix → ix < variants r ∧ Validates r a ix
  least : ∀ ix : ℕ, winnerIx r a = ix → ∀ vi < variants r, Validates r a vi →
    0 < measuredMs r a vi → 0 < measuredMs r a ix ∧ measuredMs r a ix ≤ measuredMs r a vi ∧
      (vi < ix → measuredMs r a ix < measuredMs r a vi)
  first : ∀ ix : ℕ, winnerIx r a = ix →
    (∀ vi < variants r, Validates r a vi → ¬ 0 < measuredMs r a vi) →
      ∀ vi < ix, ¬ Validates r a vi

/-- Where the winner comes from. -/
theorem winnerIx_cases (r : CompilationRequest) (a : BackendAnswers) :
    (∃ ix x, winnerIx r a = (ix : ℕ) ∧
      FirstLeast.IsFirstLeast (fun vi => score (candidate r a vi)) (variants r) ix x) ∨
    (∀ vi < variants r, score (candidate r a vi) = none) ∧
      ((∃ ix < variants r, winnerIx r a = (ix : ℕ) ∧ Validates r a ix ∧
          ∀ vi < ix, ¬ Validates r a vi) ∨
        winnerIx r a = -1 ∧ ∀ vi < variants r, ¬ Validates r a vi) := by
  have hwinner := winnerIx_eq (r := r) (a := a)
  rw [selectWinner_eq] at hwinner
  cases hbest : FirstLeast.search (fun vi => score (candidate r a vi)) (variants r) with
  | some b =>
      rw [hbest] at hwinner
      exact .inl ⟨b.1, b.2, hwinner, FirstLeast.search_eq_some hbest⟩
  | none =>
      refine .inr ⟨FirstLeast.search_eq_none_iff.mp hbest, ?_⟩
      rw [hbest] at hwinner
      cases hfirst : ((List.range (variants r)).map (candidate r a)).findIdx?
          AutotuneCandidate.validated with
      | some ix =>
          rw [hfirst] at hwinner
          obtain ⟨hlt, hvalidated, hbefore⟩ := List.findIdx?_eq_some_iff_getElem.mp hfirst
          rw [List.length_map, List.length_range] at hlt
          rw [List.getElem_map, List.getElem_range] at hvalidated
          refine .inl ⟨ix, hlt, hwinner, validated_candidate.mp hvalidated, fun vi hvi hno => ?_⟩
          apply hbefore vi hvi
          rw [List.getElem_map, List.getElem_range]
          exact validated_candidate.mpr hno
      | none =>
          rw [hfirst] at hwinner
          refine .inr ⟨hwinner, fun vi hvi hno => ?_⟩
          have hnone := List.findIdx?_eq_none_iff.mp hfirst (candidate r a vi)
            (List.mem_map_of_mem (List.mem_range.mpr hvi))
          rw [validated_candidate.mpr hno] at hnone
          cases hnone

/-- Whatever the variants come to. -/
theorem picksBest (r : CompilationRequest) (a : BackendAnswers) : PicksBest r a := by
  obtain ⟨ix, x, hwinner, hfirst⟩ | ⟨hnone, hrest⟩ := winnerIx_cases r a
  · obtain ⟨hvalidates, rfl, hpos⟩ := score_candidate.mp hfirst.attained
    refine ⟨?_, ?_, ?_, ?_⟩
    · rw [hwinner]
      exact iff_of_true (Int.natCast_nonneg ix) ⟨ix, hfirst.lt, hvalidates⟩
    · intro j hj
      obtain rfl : ix = j := Int.natCast_inj.mp (hwinner.symm.trans hj)
      exact ⟨hfirst.lt, hvalidates⟩
    · intro j hj vi hvi hno htime
      obtain rfl : ix = j := Int.natCast_inj.mp (hwinner.symm.trans hj)
      have hscore := score_candidate.mpr ⟨hno, rfl, htime⟩
      exact ⟨hpos, hfirst.least vi hvi _ hscore, fun hlt => hfirst.first vi hlt _ hscore⟩
    · intro j hj hzero
      exact absurd hpos (hzero ix hfirst.lt hvalidates)
  · have huntimed : ∀ vi < variants r, Validates r a vi → ¬ 0 < measuredMs r a vi :=
      fun vi hvi => score_eq_none_iff.mp (hnone vi hvi)
    obtain ⟨ix, hlt, hwinner, hvalidates, hbefore⟩ | ⟨hwinner, hno⟩ := hrest
    · refine ⟨?_, ?_, ?_, ?_⟩
      · rw [hwinner]
        exact iff_of_true (Int.natCast_nonneg ix) ⟨ix, hlt, hvalidates⟩
      · intro j hj
        obtain rfl : ix = j := Int.natCast_inj.mp (hwinner.symm.trans hj)
        exact ⟨hlt, hvalidates⟩
      · exact fun j hj vi hvi hvalid htime => absurd htime (huntimed vi hvi hvalid)
      · intro j hj hzero
        obtain rfl : ix = j := Int.natCast_inj.mp (hwinner.symm.trans hj)
        exact hbefore
    · have hnever : ∀ ix : ℕ, winnerIx r a ≠ ix := by
        intro ix h
        omega
      refine ⟨?_, ?_, ?_, ?_⟩
      · rw [hwinner]
        exact iff_of_false (by decide) fun ⟨vi, hvi, hvalid⟩ => hno vi hvi hvalid
      · exact fun ix h => absurd h (hnever ix)
      · exact fun ix h => absurd h (hnever ix)
      · exact fun ix h => absurd h (hnever ix)

/-! ## The output -/

/-- The output of a call is what it has validated, what it commits and what it returns. -/
structure Delivers (c : CallId) (output : BackendOutput) (w : World) : Prop where
  validated : ∀ call b id, w.calls c = some call → call.phase = .numbered b id → b.output = output
  published : ∀ m ∈ w.log, m.call = c → m.bytes = output.executable
  returned : ∀ call s res, w.calls c = some call → call.phase = .returned s (.ok res) →
    res.artifactBytes = output.executable

/-- A call that holds its output delivers it. -/
theorem delivers_of_holding {c : CallId} {output : BackendOutput} {w : World}
    (h : Holding c output w) : Delivers c output w where
  validated := by
    intro call b id hcall hphase
    have hholds := h.call call hcall
    rw [hphase] at hholds
    exact hholds
  published := h.log
  returned := by
    intro call s res hcall hphase
    have hholds := h.call call hcall
    rw [hphase] at hholds
    exact hholds

/-- The output of the winner, when it is compiled once more. -/
theorem output_of_winner {output : BackendOutput} (hauto : r.autotune = true)
    (hcandidates : 1 < r.autotuneCandidates) (hwinner : winnerIx r a = ix)
    (houtput : a.winner (variantRequest r ix) = .ok output) (hne : output.executable ≠ []) :
    ∃ b, backendBuild r (a.run r) = .ok b ∧ b.output = output ∧
      b.autotuneWinner = ascii "variant-" ++ DecimalText.natText ix := by
  have hlt := ((picksBest r a).validated ix hwinner).1
  have hname : (((List.range (variants r)).map (candidate r a))[ix]?.map
      AutotuneCandidate.variantId).getD [] = ascii "variant-" ++ DecimalText.natText ix := by
    rw [List.getElem?_map, List.getElem?_range hlt]
    exact variantId_candidate
  have htune : tune r a =
      { autotuned := true, autotuneCandidates := (tuneVariants r a).autotuneCands, output
        autotuneWinner := ascii "variant-" ++ DecimalText.natText ix } := by
    unfold tune compilePlain compileWinner
    simp only [hwinner, Int.toNat_natCast, Int.natCast_nonneg, if_true, houtput, if_neg hne]
    rw [autotuneCands_tuneVariants, hname]
  refine ⟨tune r a, ?_, ?_, ?_⟩
  · have hcondition : (r.autotune && r.autotuneCandidates > 1) = true := by
      rw [hauto, Bool.true_and]
      exact decide_eq_true hcandidates
    unfold backendBuild
    rw [if_pos hcondition, ← tune_eq]
    change (if (tune r a).output.executable = [] then _ else _) = _
    rw [htune]
    exact if_neg hne
  · rw [htune]
  · rw [htune]

/-- Autotuning picks the best of the variants, and delivers what the backend makes of its settings
in every run.
SOURCE: Fabric.cpp:293-356 -/
theorem autotune_picks_best (hauto : r.autotune = true) (hcandidates : 1 < r.autotuneCandidates)
    (a : BackendAnswers) :
    PicksBest r a ∧
      ∀ (ix : ℕ) (output : BackendOutput), winnerIx r a = ix →
        a.winner (variantRequest r ix) = .ok output → output.executable ≠ [] →
        (∃ b, backendBuild r (a.run r) = .ok b ∧ b.output = output ∧
          b.autotuneWinner = ascii "variant-" ++ DecimalText.natText ix) ∧
        ∀ (H : Bytes → Digest) (p : Process) (es rest : List Event) (w w₁ w₂ : World) (c : CallId)
          (call : Call) (ms : Int64), exec (step H) { process := p } es = some w →
          w.calls c = some call → call.request = r →
          step H w (.build c (a.run r) ms) = some w₁ → exec (step H) w₁ rest = some w₂ →
          Delivers c output w₂ := by
  refine ⟨picksBest r a, fun ix output hwinner houtput hne => ?_⟩
  have hbuild := output_of_winner hauto hcandidates hwinner houtput hne
  refine ⟨hbuild, fun H p es rest w w₁ w₂ c call ms hrun hcall hrequest hstep hrest => ?_⟩
  obtain ⟨b, hb, rfl, -⟩ := hbuild
  have hhistory := history_exec (history_init H p) hrun
  apply delivers_of_holding
  apply holding_exec _ hrest
  exact holding_of_build hhistory hcall (hrequest ▸ hb) hstep

/-- Three variants, the second of which does not compile. -/
def tunedRequest : CompilationRequest := { autotune := true, autotuneCandidates := 3 }

/-- The third is faster than the first. -/
def tunedAnswers : BackendAnswers where
  variant vi _ :=
    { compiled := if vi = 1 then Err .BuildFailed [] else .ok { executable := [1] }
      validated := .ok { passed := true }
      loaded := true
      measuredNanos := if vi = 2 then 1000000 else 2000000 }
  winner vr := .ok { executable := [vr.autotuneSeed.toUInt8] }
  plain _ := .ok { executable := [9] }

/-- It is the winner, and it is what the call delivers. -/
theorem autotune_picks_best_three : winnerIx tunedRequest tunedAnswers = (2 : ℕ) ∧
    PicksBest tunedRequest tunedAnswers ∧
    ∃ w, exec (step fun _ => .zero) { process := unstored }
      ([.compile tunedRequest 1 0, .join 0, .check 0 (.ok ())] ++
        .build 0 (tunedAnswers.run tunedRequest) 0 ::
          [.number 0, .validate 0 (.ok { passed := true }) {} 0, .commit 0, .complete 0]) = some w ∧
      w.log ≠ [] ∧ Delivers 0 { executable := [2] } w := by
  obtain ⟨hpicks, hdelivers⟩ := autotune_picks_best (r := tunedRequest) rfl (by decide) tunedAnswers
  have hwinner : winnerIx tunedRequest tunedAnswers = (2 : ℕ) := by decide +kernel
  obtain ⟨w, hrun, hlog⟩ := (Option.any_eq_true _ _).mp (show
    (exec (step fun _ => .zero) { process := unstored }
      ([.compile tunedRequest 1 0, .join 0, .check 0 (.ok ())] ++
        .build 0 (tunedAnswers.run tunedRequest) 0 ::
          [.number 0, .validate 0 (.ok { passed := true }) {} 0, .commit 0, .complete 0])).any
      (fun w => !w.log.isEmpty) = true by
    decide +kernel)
  refine ⟨hwinner, hpicks, w, hrun, ?_, ?_⟩
  · intro hempty
    rw [hempty] at hlog
    cases hlog
  · obtain ⟨w₁, hfirst, hrest⟩ := exec_append.mp hrun
    obtain ⟨w₂, hbuild, hlast⟩ := exec_cons.mp hrest
    have hrequest : (exec (step fun _ => .zero) { process := unstored }
        [.compile tunedRequest 1 0, .join 0, .check 0 (.ok ())]).all (fun w =>
          (w.calls 0).any fun call => call.request = tunedRequest) = true := by
      decide +kernel
    rw [hfirst, Option.all_some] at hrequest
    obtain ⟨call, hcall, hsame⟩ := (Option.any_eq_true _ _).mp hrequest
    exact (hdelivers 2 _ hwinner rfl (by decide)).2 _ unstored _ _ w₁ w₂ w 0 call 0 hfirst hcall
      (of_decide_eq_true hsame) hbuild hlast

end CompilationFabric.Analysis
