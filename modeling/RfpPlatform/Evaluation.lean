import RfpPlatform.Critics
import RfpPlatform.MandatoryChecks

namespace RfpPlatform.Evaluation

open ExceptRules Json MandatoryChecks PyText Retrieval SelfConsistency

/-- Everything outside the program that the evaluation of one vendor asks. The checks and
the criteria are numbered by their place in the setup. -/
structure EvaluationServices where
  orgSettings : String → Except Exn OrgSettings
  vendorFacts : String → VendorId → String → Except Exn VendorFacts
  check : Nat → CheckReplies
  criterion : Nat → LlmReply

structure VendorCall where
  vendorId : VendorId
  orgId : String
  setup : EvaluationSetup
  retriedFactTypes : List String

def targetById (setup : EvaluationSetup) : Dict String ExtractionTarget :=
  Dict.ofPairs (setup.extractionTargets.map (fun t => (t.targetId, t)))

def checkCall (call : VendorCall) (orgSettings : Option OrgSettings) (facts : VendorFacts)
    (check : MandatoryCheck) (target : ExtractionTarget) : CheckCall where
  check := check
  target := target
  relevantFacts := getFactsForTarget facts target
  vendorId := call.vendorId
  orgId := call.orgId
  orgSettings := orgSettings
  retriedFactTypes := call.retriedFactTypes

def checkOutcome (cfg : EvaluationSettings) (svc : EvaluationServices) (call : VendorCall)
    (orgSettings : Option OrgSettings) (facts : VendorFacts) (p : MandatoryCheck × Nat) :
    String ⊕ ComplianceDecision :=
  match (targetById call.setup).get? p.1.extractionTargetId with
  | none => .inl s!"No extraction target for check {p.1.checkId}"
  | some target =>
      match evaluateMandatoryCheck cfg (svc.check p.2)
        (checkCall call orgSettings facts p.1 target) with
      | .ok decision => .inr decision
      | .error exc => .inl s!"Check {p.1.checkId} failed: {exc.message}"

def insufficientScore (criterion : ScoringCriterion) (vendorId : VendorId) : CriterionScore where
  criterionId := criterion.criterionId
  vendorId := vendorId
  rawScore := 0
  weightedContribution := 0
  confidence := ⟨0, not_zero_lt_zero, not_one_lt_zero⟩
  rubricBandApplied := "insufficient_evidence"
  evidenceUsed := []
  scoreRationale := "No evidence was extracted for this criterion; marked insufficient " ++
    "rather than scored. Requires human review."
  varianceEstimate := 0
  insufficientEvidence := true

def unscoredReply : Members :=
  [("raw_score", .num 0), ("confidence", .num 0), ("rubric_band_applied", .str "0-2"),
    ("evidence_used", .arr []), ("score_rationale", .str "LLM returned invalid JSON"),
    ("variance_estimate", .num 3)]

/-- `int(x)`, which cuts off the fraction. -/
def truncated : PyFloat → Except Exn Int
  | .fin q => .ok (q.num.tdiv q.den)
  | .nan => .error ⟨.valueError, "cannot convert float NaN to integer"⟩
  | _ => .error ⟨.overflowError, "cannot convert float infinity to integer"⟩

/-- `max(0, min(10, n))` -/
def clampScore (n : Int) : Fin 11 := ⟨(max 0 (min 10 n)).toNat, by omega⟩

def invalidScore (field : String) : Exn :=
  ⟨.validationError, s!"1 validation error for CriterionScore\n{field}"⟩

def scoreCriterion (criterion : ScoringCriterion) (relevantFacts : List FactRow)
    (vendorId : VendorId) (reply : LlmReply) : Except Exn CriterionScore :=
  if relevantFacts = [] then .ok (insufficientScore criterion vendorId)
  else do
    let value ← parseReply unscoredReply reply
    let parsed ← value.asObject
    let number ← ((get parsed "raw_score" .null).orElse (.num 0)).toFloat
    let score ← truncated number
    let certainty ← (get parsed "confidence" (.num (.fin (1 / 2)))).toFloat
    let variance ← (get parsed "variance_estimate" (.num 1)).toFloat
    let confidence ← orRaise (Confidence.of? certainty) (invalidScore "confidence")
    let band ← orRaise (get parsed "rubric_band_applied" (.str "0-2")).asString
      (invalidScore "rubric_band_applied")
    let evidence ← orRaise ((get parsed "evidence_used" .null).orElse (.arr [])).asStrings
      (invalidScore "evidence_used")
    let rationale ← orRaise (get parsed "score_rationale" (.str "")).asString
      (invalidScore "score_rationale")
    return {
      criterionId := criterion.criterionId
      vendorId := vendorId
      rawScore := clampScore score
      weightedContribution := round (((clampScore score).val : ℚ) / 10 * criterion.weight) 4
      confidence := confidence
      rubricBandApplied := band
      evidenceUsed := evidence
      scoreRationale := rationale
      varianceEstimate := variance }

def factsForCriterion (setup : EvaluationSetup) (facts : VendorFacts)
    (criterion : ScoringCriterion) : List FactRow :=
  criterion.extractionTargetIds.flatMap (fun tid =>
    (((targetById setup).get? tid).map (getFactsForTarget facts)).getD [])

structure ScoreOutcome where
  warnings : List String
  score : Option CriterionScore

def criterionOutcome (svc : EvaluationServices) (call : VendorCall) (facts : VendorFacts)
    (p : ScoringCriterion × Nat) : ScoreOutcome :=
  let relevant := factsForCriterion call.setup facts p.1
  let missing := if relevant = [] then
    [s!"Criterion {p.1.criterionId} ({p.1.name}): no targeted facts found — " ++
      "marked INSUFFICIENT EVIDENCE (not scored). Requires human review."] else []
  match scoreCriterion p.1 relevant call.vendorId (svc.criterion p.2) with
  | .ok score => ⟨missing, some score⟩
  | .error exc => ⟨missing ++ [s!"Criterion {p.1.criterionId} failed: {exc.message}"], none⟩

/-- FAIL beats missing evidence, and missing evidence beats PASS. -/
def overallCompliance (decisions : List ComplianceDecision) : OverallCompliance :=
  if decisions.any (fun d => d.decision = .fail) then .fail
  else if decisions.any (fun d => d.decision = .insufficientEvidence) then .reviewRequired
  else .pass

def totalWeightedScore (scores : List CriterionScore) : ℚ :=
  round ((scores.map CriterionScore.weightedContribution).sum * 10) 2

def averageConfidence (scores : List CriterionScore) : PyFloat :=
  let scored := scores.filter (fun s => !s.insufficientEvidence)
  if scored = [] then 0
  else ((PyFloat.sum (scored.map (fun s => s.confidence.value))).divLength scored.length).round 3

def weightByCriterion (setup : EvaluationSetup) : Dict String ℚ :=
  Dict.ofPairs (setup.scoringCriteria.map (fun c => (c.criterionId, c.weight)))

/-- The share of the criterion weight that was assessed. -/
def coverageOf (setup : EvaluationSetup) (scores : List CriterionScore) : ℚ :=
  let weights := weightByCriterion setup
  let assessed := ((scores.filter (fun s => !s.insufficientEvidence)).map
    (fun s => (weights.get? s.criterionId).getD 0)).sum
  if weights.values.sum = 0 then 0 else round (assessed / weights.values.sum) 4

def normalisedScore (total coverage : ℚ) : ℚ := if coverage = 0 then 0 else round (total / coverage) 2

def insufficientWarning (scores : List CriterionScore) (total coverage : ℚ) : List String :=
  let insufficient := (scores.filter CriterionScore.insufficientEvidence).map
    CriterionScore.criterionId
  if insufficient = [] then []
  else ["Insufficient evidence to score: " ++ join ", " insufficient ++
    " — flagged for human review and excluded from the confidence average. " ++
    s!"Coverage {fixed 2 coverage}; ranking uses the coverage-normalised score " ++
    s!"{fixed 2 (normalisedScore total coverage)} (vs absolute total {fixed 2 total}) so the " ++
    "un-assessed criteria don't count as genuine 0s (E3.d)."]

def invalidOutput (field : String) : Exn :=
  ⟨.validationError, s!"1 validation error for EvaluationOutput\n{field}"⟩

/-- The validated output. At full coverage an unset normalised score is the total. -/
def evaluationOutput (vendorId : VendorId) (setup : EvaluationSetup)
    (decisions : List ComplianceDecision) (scores : List CriterionScore) (warnings : List String) :
    Except Exn EvaluationOutput := do
  let total := totalWeightedScore scores
  let coverage := coverageOf setup scores
  let normalised := normalisedScore total coverage
  let confidence ← orRaise (Confidence.of? (averageConfidence scores))
    (invalidOutput "score_confidence")
  if h : 0 ≤ coverage ∧ coverage ≤ 1 then
    return {
      vendorId := vendorId
      complianceDecisions := decisions
      criterionScores := scores
      overallCompliance := overallCompliance decisions
      totalWeightedScore := total
      coverage := coverage
      coverageNormalisedScore := if 1 ≤ coverage ∧ normalised = 0 then total else normalised
      scoreConfidence := confidence
      evaluationWarnings := warnings ++ insufficientWarning scores total coverage
      coverage_nonneg := h.1
      coverage_le_one := h.2 }
  else .error (invalidOutput "coverage")

def orgSettingsOf (svc : EvaluationServices) (call : VendorCall) :
    Except Exn (Option OrgSettings) :=
  if call.orgId = "" then .ok none else (svc.orgSettings call.orgId).map some

def runEvaluationAgent (cfg : EvaluationSettings) (svc : EvaluationServices) (call : VendorCall) :
    Except Exn (EvaluationOutput × CriticOutput) := do
  let orgSettings ← orgSettingsOf svc call
  let facts ← svc.vendorFacts call.orgId call.vendorId call.setup.setupId
  let checks := call.setup.mandatoryChecks.zipIdx.map (checkOutcome cfg svc call orgSettings facts)
  let criteria := call.setup.scoringCriteria.zipIdx.map (criterionOutcome svc call facts)
  let output ← evaluationOutput call.vendorId call.setup (checks.filterMap Sum.getRight?)
    (criteria.filterMap ScoreOutcome.score)
    (checks.filterMap Sum.getLeft? ++ criteria.flatMap ScoreOutcome.warnings)
  return (output, criticAfterEvaluation output)

theorem overallCompliance_eq_pass {decisions : List ComplianceDecision} :
    overallCompliance decisions = .pass ↔ ∀ d ∈ decisions, d.decision = .pass := by
  have hcases : ∀ s : ComplianceStatus, s = .pass ↔ s ≠ .fail ∧ s ≠ .insufficientEvidence := by
    intro s
    cases s <;> decide
  simp only [overallCompliance]
  by_cases hfail : decisions.any (fun d => decide (d.decision = .fail)) = true
  · rw [if_pos hfail]
    obtain ⟨d, hd, hf⟩ := List.any_eq_true.mp hfail
    refine ⟨(fun h => nomatch h), fun h => ?_⟩
    rw [h d hd] at hf
    cases hf
  · rw [if_neg hfail]
    by_cases hmissing : decisions.any (fun d => decide (d.decision = .insufficientEvidence)) = true
    · rw [if_pos hmissing]
      obtain ⟨d, hd, hm⟩ := List.any_eq_true.mp hmissing
      refine ⟨(fun h => nomatch h), fun h => ?_⟩
      rw [h d hd] at hm
      cases hm
    · rw [if_neg hmissing]
      refine ⟨fun _ d hd => (hcases _).mpr ⟨fun hf => hfail ?_, fun hm => hmissing ?_⟩, fun _ => rfl⟩
      · exact List.any_eq_true.mpr ⟨d, hd, decide_eq_true hf⟩
      · exact List.any_eq_true.mpr ⟨d, hd, decide_eq_true hm⟩

theorem evaluationOutput_eq_ok {vendorId : VendorId} {setup : EvaluationSetup}
    {decisions : List ComplianceDecision} {scores : List CriterionScore} {warnings : List String}
    {output : EvaluationOutput}
    (h : evaluationOutput vendorId setup decisions scores warnings = .ok output) :
    output.vendorId = vendorId ∧ output.complianceDecisions = decisions ∧
      output.overallCompliance = overallCompliance decisions := by
  simp only [evaluationOutput, bind_eq_ok] at h
  obtain ⟨confidence, _, h⟩ := h
  split at h
  · cases pure_eq_ok.mp h
    exact ⟨rfl, rfl, rfl⟩
  · cases h

end RfpPlatform.Evaluation
