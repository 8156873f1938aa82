import RfpPlatform.Critics
import RfpPlatform.SelfConsistency

namespace RfpPlatform.Comparator

open ExceptRules Json PyText SelfConsistency

def relativePosition (rank total : Nat) : String :=
  if total = 1 ∨ rank = 1 then "best"
  else if rank = total then "weakest"
  else if 2 * rank < total then "above_average"
  else if total < 2 * rank then "below_average"
  else "average"

def descending (p q : VendorId × ℚ) : Prop := q.2 ≤ p.2

instance : DecidableRel descending := fun p q => inferInstanceAs (Decidable (q.2 ≤ p.2))

def rankIsStable (marginThreshold : ℚ) (scores : List (VendorId × ℚ)) : Bool :=
  let sorted := (scores.insertionSort descending).map Prod.snd
  (sorted.zip sorted.tail).all (fun p => decide (marginThreshold ≤ p.1 - p.2))

structure Entry where
  score : Nat
  evidence : List String

def uncomparedReply : Members :=
  [("vendor_differentiators", .obj []), ("distinguishing_factors", .str ""),
    ("comparison_confidence", .num 0)]

def rankMap (scores : Dict VendorId Entry) : Dict VendorId Nat :=
  Dict.ofPairs (((scores.rows.map (fun p => (p.1, (p.2.score : ℚ)))).insertionSort
    descending).zipIdx.map (fun p => (p.1.1, p.2 + 1)))

def invalidComparison (field : String) : Exn :=
  ⟨.validationError, s!"1 validation error for CriterionComparison\n{field}"⟩

def compareVendor (criterionId : String) (scores : Dict VendorId Entry) (differentiators : Json)
    (p : VendorId × Entry) : Except Exn VendorCriterionComparison := do
  let named ← differentiators.asObject
  let keyDifferentiator ← orRaise (get named p.1 (.str "")).asString
    (invalidComparison "key_differentiator")
  return {
    criterionId := criterionId
    vendorId := p.1
    score := p.2.score
    keyDifferentiator := keyDifferentiator
    relativePosition := relativePosition (((rankMap scores).get? p.1).getD 0) scores.rows.length
    evidenceSummary := join "; " (p.2.evidence.take 2) }

def compareCriterion (criterion : ScoringCriterion) (scores : Dict VendorId Entry)
    (reply : LlmReply) : Except Exn CriterionComparison := do
  let value ← parseReply uncomparedReply reply
  let parsed ← value.asObject
  let vendors ← scores.rows.mapM
    (compareVendor criterion.criterionId scores (get parsed "vendor_differentiators" (.obj [])))
  let confidence ← (get parsed "comparison_confidence" (.num (.fin (7 / 10)))).toFloat
  let factors ← orRaise (get parsed "distinguishing_factors" (.str "")).asString
    (invalidComparison "distinguishing_factors")
  return {
    criterionId := criterion.criterionId
    criterionName := criterion.name
    weight := criterion.weight
    vendors := vendors
    comparisonConfidence := confidence
    rankStable := rankIsStable (5 / 100) (scores.rows.map (fun p => (p.1, (p.2.score : ℚ))))
    distinguishingFactors := factors }

structure ComparisonCall where
  vendorIds : List VendorId
  rfpId : String
  setup : EvaluationSetup
  evaluations : Dict VendorId EvaluationOutput

def scoreOf (evaluation : EvaluationOutput) (criterionId : String) : Option CriterionScore :=
  (Dict.ofPairs (evaluation.criterionScores.map (fun s => (s.criterionId, s)))).get? criterionId

def entryOf (criterionId : String) (vid : VendorId) (evaluation : EvaluationOutput) :
    List String × Option Entry :=
  match scoreOf evaluation criterionId with
  | none => ([s!"No score for vendor {vid} on criterion {criterionId}"], some ⟨0, []⟩)
  | some s =>
      if s.insufficientEvidence then
        ([s!"Vendor {vid} excluded from criterion {criterionId} " ++
          "comparison — insufficient evidence (not scored)."], none)
      else ([], some ⟨s.rawScore.val, s.evidenceUsed⟩)

def entries (call : ComparisonCall) (criterionId : String) :
    List (VendorId × List String × Option Entry) :=
  call.vendorIds.filterMap (fun vid => (call.evaluations.get? vid).map
    (fun ev => (vid, entryOf criterionId vid ev)))

structure CriterionOutcome where
  warnings : List String
  comparison : Option CriterionComparison

def criterionOutcome (replies : Nat → LlmReply) (call : ComparisonCall)
    (p : ScoringCriterion × Nat) : CriterionOutcome :=
  let found := entries call p.1.criterionId
  let scores := Dict.ofPairs (found.filterMap (fun e => e.2.2.map (fun entry => (e.1, entry))))
  let warnings := found.flatMap (fun e => e.2.1)
  if scores.rows = [] then
    ⟨warnings ++ [s!"Criterion {p.1.criterionId}: all vendors have insufficient " ++
      "evidence — excluded from cross-vendor comparison."], none⟩
  else
    match compareCriterion p.1 scores (replies p.2) with
    | .ok comparison => ⟨warnings, some comparison⟩
    | .error exc =>
        ⟨warnings ++ [s!"Criterion {p.1.criterionId} comparison failed: {exc.message}"], none⟩

def vendorTotals (call : ComparisonCall) : List (VendorId × ℚ) :=
  (call.evaluations.rows.filter (fun p => p.1 ∈ call.vendorIds)).map
    (fun p => (p.1, p.2.coverageNormalisedScore))

def ranked (call : ComparisonCall) : List (VendorId × ℚ) :=
  (vendorTotals call).insertionSort descending

def rankMargins (ranking : List (VendorId × ℚ)) : Dict VendorId ℚ :=
  match ranking with
  | [] => ∅
  | first :: rest => Dict.ofPairs ((first.1, 0) ::
      List.zipWith (fun above p => (p.1, round (above.2 - p.2) 4)) ranking rest)

/-- `ranking.min_coverage_for_trust` -/
def minCoverage : ℚ := 5 / 10

def lowCoverage (call : ComparisonCall) : List (VendorId × EvaluationOutput) :=
  call.evaluations.rows.filter (fun p => p.1 ∈ call.vendorIds ∧ p.2.coverage < minCoverage)

def rankingConfidence (comparisons : List CriterionComparison) : PyFloat :=
  if comparisons = [] then 0
  else ((PyFloat.sum (comparisons.map CriterionComparison.comparisonConfidence)).divLength
    comparisons.length).round 3

/-- The agent, with the model's reply on each criterion as a parameter. -/
def runComparatorAgent (replies : Nat → LlmReply) (call : ComparisonCall) :
    ComparatorOutput × CriticOutput :=
  let unevaluated := call.vendorIds.filter (fun vid => vid ∉ call.evaluations.keys)
  let outcomes := call.setup.scoringCriteria.zipIdx.map (criterionOutcome replies call)
  let comparisons := outcomes.filterMap CriterionOutcome.comparison
  let output : ComparatorOutput :=
    { rfpId := call.rfpId
      vendorIds := call.vendorIds
      criteriaComparisons := comparisons
      overallRanking := (ranked call).map Prod.fst
      rankingConfidence := rankingConfidence comparisons
      rankMargins := rankMargins (ranked call)
      lowCoverageVendors := (lowCoverage call).map Prod.fst
      comparisonWarnings :=
        unevaluated.map (fun vid =>
          s!"Vendor {vid} has no evaluation output — excluded from ranking. " ++
            "Evaluation may have failed for this vendor.") ++
        outcomes.flatMap CriterionOutcome.warnings ++
        (lowCoverage call).map (fun p =>
          s!"Vendor {p.1} ranked on a coverage-normalised score but assessed on only " ++
            s!"{percent p.2.coverage} of the criterion weight " ++
            s!"(below the {percent minCoverage} trust floor) — flagged for human review.") }
  (output, criticAfterComparator output)

theorem mem_overallRanking {replies : Nat → LlmReply} {call : ComparisonCall} {vid : VendorId} :
    vid ∈ (runComparatorAgent replies call).1.overallRanking ↔
      vid ∈ call.vendorIds ∧ vid ∈ call.evaluations.keys := by
  change vid ∈ (ranked call).map Prod.fst ↔ _
  simp only [ranked, vendorTotals, List.mem_map, List.mem_insertionSort, List.mem_filter,
    decide_eq_true_eq, Dict.keys]
  constructor
  · rintro ⟨_, ⟨p, ⟨hp, hv⟩, rfl⟩, rfl⟩
    exact ⟨hv, p, hp, rfl⟩
  · rintro ⟨hv, p, hp, rfl⟩
    exact ⟨(p.1, p.2.coverageNormalisedScore), ⟨p, ⟨hp, hv⟩, rfl⟩, rfl⟩

end RfpPlatform.Comparator
