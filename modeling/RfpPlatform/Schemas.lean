import RfpPlatform.KeyedTable
import RfpPlatform.PyValue

namespace RfpPlatform

abbrev VendorId := String
abbrev ChunkId := String

inductive CriticSeverity
  | hard | soft | log
  deriving DecidableEq

inductive CriticVerdict
  | approved | approvedWithWarnings | blocked | escalated
  deriving DecidableEq

inductive ComplianceStatus
  | pass | fail | insufficientEvidence
  deriving DecidableEq

inductive DecisionBasis
  | explicitConfirmation | implicitConfirmation | partialCompliance | explicitDenial | notAddressed
  deriving DecidableEq

def ComplianceStatus.value : ComplianceStatus → String
  | pass => "pass"
  | fail => "fail"
  | insufficientEvidence => "insufficient_evidence"

def DecisionBasis.value : DecisionBasis → String
  | explicitConfirmation => "explicit_confirmation"
  | implicitConfirmation => "implicit_confirmation"
  | partialCompliance => "partial_compliance"
  | explicitDenial => "explicit_denial"
  | notAddressed => "not_addressed"

def ComplianceStatus.all : List ComplianceStatus := [.pass, .fail, .insufficientEvidence]

def DecisionBasis.all : List DecisionBasis :=
  [.explicitConfirmation, .implicitConfirmation, .partialCompliance, .explicitDenial, .notAddressed]

def memberOf {α : Type*} (value : α → String) (all : List α) : Json → Option α
  | .str s => all.find? (fun a => value a = s)
  | _ => none

theorem memberOf_value (s : ComplianceStatus) :
    memberOf ComplianceStatus.value ComplianceStatus.all (.str s.value) = some s := by
  cases s <;> decide

structure ExtractionTarget where
  targetId : String
  name : String
  description : String
  factType : String
  isMandatory : Bool
  feedsCriterionId : Option String
  feedsCheckId : Option String
  deriving DecidableEq

structure MandatoryCheck where
  checkId : String
  name : String
  description : String
  whatPasses : String
  extractionTargetId : String
  deriving DecidableEq

structure ScoringCriterion where
  criterionId : String
  name : String
  weight : ℚ
  rubric_9_10 : String
  rubric_6_8 : String
  rubric_3_5 : String
  rubric_0_2 : String
  extractionTargetIds : List String
  weight_pos : 0 < weight
  weight_le_one : weight ≤ 1

/-- The confirmed criteria of a request for proposals, with what its validators check. -/
structure EvaluationSetup where
  setupId : String
  orgId : String
  rfpId : String
  rfpConfirmed : Bool
  mandatoryChecks : List MandatoryCheck
  scoringCriteria : List ScoringCriterion
  extractionTargets : List ExtractionTarget
  totalWeight : ℚ
  confirmedBy : String
  source : String
  total_weight_range : 99 / 100 ≤ totalWeight ∧ totalWeight ≤ 101 / 100
  weights_sum_to_one : scoringCriteria ≠ [] →
    99 / 100 ≤ (scoringCriteria.map ScoringCriterion.weight).sum ∧
      (scoringCriteria.map ScoringCriterion.weight).sum ≤ 101 / 100
  every_check_has_extraction_target :
    ∀ check ∈ mandatoryChecks, check.extractionTargetId ∈ extractionTargets.map ExtractionTarget.targetId

theorem full_weight_range : (99 / 100 : ℚ) ≤ 1 ∧ (1 : ℚ) ≤ 101 / 100 := by norm_num

structure CriticFlag where
  severity : CriticSeverity
  agent : String
  checkName : String
  description : String
  evidence : String
  recommendation : String
  autoResolvable : Bool := false
  deriving DecidableEq

structure CriticOutput where
  evaluatedAgent : String
  flags : List CriticFlag
  hardFlagCount : Nat
  softFlagCount : Nat
  overallVerdict : CriticVerdict
  requiresHumanReview : Bool
  deriving DecidableEq

structure PlannerOutput where
  planId : String
  vendorIds : List VendorId
  taskIds : List String
  warnings : List String
  deriving DecidableEq

structure InjectionFinding where
  chunkId : ChunkId
  patternName : String
  matchedText : String
  pageNumber : Nat
  deriving DecidableEq

structure IngestionOutput where
  docId : String
  vendorId : VendorId
  orgId : String
  filename : String
  totalChunks : Nat
  chunksByType : Dict String Nat
  filteredChunks : Nat
  extractionTriggered : Bool
  qualityScore : ℚ
  contentHash : String
  warnings : List String
  status : String
  injectionFindings : List InjectionFinding
  deriving DecidableEq

structure RetrievedChunk where
  chunkId : ChunkId
  text : String
  sectionType : String
  vendorId : VendorId
  finalScore : ℚ
  isAnswerBearing : Bool
  deriving DecidableEq

structure RetrievalOutput where
  originalQuery : String
  chunks : List RetrievedChunk
  confidence : ℚ
  emptyRetrieval : Bool
  rerankingDegraded : Bool
  warnings : List String
  deriving DecidableEq

/-- The part that the six kinds of extracted facts share. -/
structure ExtractedItem where
  groundingQuote : String
  sourceChunkId : ChunkId
  targetId : String := ""
  deriving DecidableEq

structure ExtractionOutput where
  vendorId : VendorId
  orgId : String
  sourceChunkIds : List ChunkId
  certifications : List ExtractedItem := []
  insurance : List ExtractedItem := []
  slas : List ExtractedItem := []
  projects : List ExtractedItem := []
  pricing : List ExtractedItem := []
  extractedFacts : List ExtractedItem := []
  extractionCompleteness : ℚ
  hallucinationRisk : ℚ
  warnings : List String := []
  retriedFactTypes : List String := []
  deriving DecidableEq

/-- A float that passes `Field(ge=0.0, le=1.0)`. Not a number passes it. -/
structure Confidence where
  value : PyFloat
  ge_zero : value.lt 0 = false
  le_one : PyFloat.lt 1 value = false
  deriving DecidableEq

theorem not_zero_lt_zero : PyFloat.lt 0 0 = false := by decide

theorem not_one_lt_zero : PyFloat.lt 1 0 = false := by decide

theorem not_one_lt_one : PyFloat.lt 1 1 = false := by decide

def Confidence.of? (x : PyFloat) : Option Confidence :=
  if h : x.lt 0 = false ∧ PyFloat.lt 1 x = false then some ⟨x, h.1, h.2⟩ else none

theorem Confidence.of?_eq_some {x : PyFloat} {c : Confidence} : of? x = some c ↔ c.value = x := by
  constructor
  · intro h
    unfold of? at h
    split at h
    · cases h
      rfl
    · cases h
  · rintro rfl
    exact dif_pos ⟨c.ge_zero, c.le_one⟩

structure VoteBreakdown where
  samples : Nat
  tally : List (ComplianceStatus × Nat) := []
  winner : Option ComplianceStatus := none
  deriving DecidableEq

structure ComplianceDecision where
  checkId : String
  vendorId : VendorId
  decision : ComplianceStatus
  confidence : Confidence
  reasoning : String
  evidenceUsed : List String
  contradictionsFound : List String
  decisionBasis : DecisionBasis
  voteBreakdown : VoteBreakdown
  deriving DecidableEq

structure CriterionScore where
  criterionId : String
  vendorId : VendorId
  rawScore : Fin 11
  weightedContribution : ℚ
  confidence : Confidence
  rubricBandApplied : String
  evidenceUsed : List String
  scoreRationale : String
  varianceEstimate : PyFloat
  insufficientEvidence : Bool := false
  deriving DecidableEq

inductive OverallCompliance
  | pass | fail | reviewRequired
  deriving DecidableEq

structure EvaluationOutput where
  vendorId : VendorId
  complianceDecisions : List ComplianceDecision
  criterionScores : List CriterionScore
  overallCompliance : OverallCompliance
  totalWeightedScore : ℚ
  coverage : ℚ
  coverageNormalisedScore : ℚ
  scoreConfidence : Confidence
  evaluationWarnings : List String
  coverage_nonneg : 0 ≤ coverage
  coverage_le_one : coverage ≤ 1
  deriving DecidableEq

theorem full_nonneg : (0 : ℚ) ≤ 1 := zero_le_one

theorem full_le_one : (1 : ℚ) ≤ 1 := le_rfl

structure VendorCriterionComparison where
  criterionId : String
  vendorId : VendorId
  score : Nat
  keyDifferentiator : String
  relativePosition : String
  evidenceSummary : String
  deriving DecidableEq

structure CriterionComparison where
  criterionId : String
  criterionName : String
  weight : ℚ
  vendors : List VendorCriterionComparison
  comparisonConfidence : PyFloat
  rankStable : Bool
  distinguishingFactors : String
  deriving DecidableEq

structure ComparatorOutput where
  rfpId : String
  vendorIds : List VendorId
  criteriaComparisons : List CriterionComparison
  overallRanking : List VendorId
  rankingConfidence : PyFloat
  rankMargins : Dict VendorId ℚ
  lowCoverageVendors : List VendorId
  comparisonWarnings : List String
  deriving DecidableEq

structure RejectionNotice where
  vendorId : VendorId
  vendorName : String
  failedChecks : List String
  rejectionReasons : List String
  evidenceCitations : List String
  clauseReferences : List String
  deriving DecidableEq

structure ShortlistedVendor where
  vendorId : VendorId
  vendorName : String
  rank : Nat
  totalScore : ℚ
  coverage : ℚ
  coverageNormalisedScore : ℚ
  scoreConfidence : PyFloat
  criterionBreakdown : List CriterionScore
  recommendation : String
  deriving DecidableEq

structure ApprovalRouting where
  approvalTier : Nat
  approverRole : String
  contractValue : ℚ
  slaHours : Nat
  escalationReason : Option String := none
  deriving DecidableEq

structure DecisionOutput where
  rfpId : String
  rejectedVendors : List RejectionNotice
  shortlistedVendors : List ShortlistedVendor
  approvalRouting : ApprovalRouting
  decisionConfidence : PyFloat
  requiresHumanReview : Bool
  reviewReasons : List String
  deriving DecidableEq

structure GroundedClaim where
  claimText : String
  groundingQuote : String
  sourceChunkId : ChunkId
  deriving DecidableEq

structure SystemFact where
  factText : String
  origin : String
  originId : String := ""
  deriving DecidableEq

structure ClaimVerification where
  claimText : String
  supported : Bool
  reason : String
  confidence : Confidence
  deriving DecidableEq

structure UngroundedExample where
  claimText : String
  llmGroundingQuote : String
  citedChunkId : ChunkId
  chunkExists : Bool
  sourceExcerpt : String
  diagnosisHint : String
  deriving DecidableEq

structure VendorNarrative where
  vendorId : VendorId
  vendorName : String
  executiveSummary : String
  complianceNarrative : String
  scoringNarrative : String
  recommendationRationale : String
  groundedClaims : List GroundedClaim
  ungroundedClaimsRemoved : Nat
  systemFacts : List SystemFact
  ungroundedExamples : List UngroundedExample
  proseVerification : List ClaimVerification := []
  proseVerificationScore : ℚ := 1
  deriving DecidableEq

structure ExplanationOutput where
  executiveSummary : String
  vendorNarratives : List VendorNarrative
  methodologyNote : String
  limitations : List String
  groundingCompleteness : ℚ
  reportConfidence : PyFloat
  deriving DecidableEq

end RfpPlatform
