import Mathlib.Data.List.Sort
import RfpPlatform.Schemas

namespace RfpPlatform

open PyText

def makeFlag (severity : CriticSeverity) (agent check description evidence recommendation : String)
    (autoResolvable : Bool := false) : CriticFlag :=
  ⟨severity, agent, check, description, evidence, recommendation, autoResolvable⟩

def CriticFlag.isHard (f : CriticFlag) : Bool := f.severity = .hard

def CriticFlag.isSoft (f : CriticFlag) : Bool := f.severity = .soft

/-- `"escalate" in f.recommendation.lower()` -/
def CriticFlag.asksEscalation (f : CriticFlag) : Bool :=
  occurs "escalate".toList (lower f.recommendation)

def verdict (flags : List CriticFlag) : CriticVerdict :=
  let hard := flags.any CriticFlag.isHard
  let escalated := (flags.filter CriticFlag.isHard).any CriticFlag.asksEscalation
  let soft := flags.any CriticFlag.isSoft
  if escalated then .escalated
  else if hard then .blocked
  else if soft then .approvedWithWarnings
  else .approved

def criticOutput (agent : String) (flags : List CriticFlag) : CriticOutput where
  evaluatedAgent := agent
  flags := flags
  hardFlagCount := (flags.filter CriticFlag.isHard).length
  softFlagCount := (flags.filter CriticFlag.isSoft).length
  overallVerdict := verdict flags
  requiresHumanReview := flags.any CriticFlag.isHard

def flagIf (c : Prop) [Decidable c] (f : CriticFlag) : List CriticFlag := if c then [f] else []

def criticAfterPlanner (output : PlannerOutput) (validationErrors : List String) : CriticOutput :=
  let flag := makeFlag .hard "planner_agent"
  criticOutput "planner_agent"
    (flagIf (output.vendorIds = [])
        (flag "no_vendors" "Plan contains no vendor IDs — nothing to evaluate" "vendor_ids=[]"
          "Provide at least one vendor ID before running evaluation.") ++
      flagIf (output.taskIds = [])
        (flag "empty_plan" "Plan contains no tasks" s!"plan_id={output.planId}"
          "Plan generation failed. Check evaluation_setup is complete.") ++
      validationErrors.map (fun error =>
        flag "plan_validation_error" error s!"plan_id={output.planId}"
          "Fix evaluation_setup before proceeding — plan does not cover all requirements."))

def quarantineRecommendation : String :=
  "Quarantine this document and require human security review before " ++
    "any further processing. Do NOT evaluate — the proposal contains " ++
    "prompt-injection content. Confirm with the vendor before proceeding."

/-- Sorted without repetition, as `sorted({...})` gives it. -/
def sortedSet (ss : List String) : List String := ss.dedup.insertionSort (· ≤ ·)

def dictRepr (d : Dict String Nat) : String :=
  "\x7b" ++ join ", " (d.rows.map (fun p => s!"{quote p.1}: {p.2}")) ++ "\x7d"

def injectionFlags (blockThreshold : Nat) (findings : List InjectionFinding) : List CriticFlag :=
  match findings with
  | [] => []
  | sample :: _ =>
      let poisonedChunks := (findings.map InjectionFinding.chunkId).dedup
      let patternsHit := sortedSet (findings.map InjectionFinding.patternName)
      flagIf (blockThreshold ≤ poisonedChunks.length)
        (makeFlag .hard "ingestion_agent" "prompt_injection_detected"
          (s!"Vendor document contains text engineered to manipulate the LLM " ++
            s!"({poisonedChunks.length} chunk(s); patterns: " ++ join ", " patternsHit ++ ")")
          (s!"pattern='{sample.patternName}' chunk={sample.chunkId} " ++
            s!"page={sample.pageNumber} text='{prefixOf 80 sample.matchedText}'")
          quarantineRecommendation)

def qualityFlags (qualityScore : ℚ) : List CriticFlag :=
  if qualityScore < 4 / 10 then
    [makeFlag .hard "ingestion_agent" "quality_score_critical"
      "Document quality score below 0.4 — document may be unreadable"
      s!"quality_score={reprRat qualityScore}"
      "Reject document. Ask vendor to resubmit as a digital PDF."]
  else flagIf (qualityScore < 65 / 100)
    (makeFlag .soft "ingestion_agent" "quality_score_low" "Document quality score below 0.65"
      s!"quality_score={reprRat qualityScore}"
      "Proceed with caution. Some sections may not be retrievable.")

def criticAfterIngestion (blockThreshold : Nat) (output : IngestionOutput) : CriticOutput :=
  criticOutput "ingestion_agent"
    (injectionFlags blockThreshold output.injectionFindings ++ qualityFlags output.qualityScore ++
      flagIf ((output.chunksByType.get? "requirement_response").getD 0 = 0)
        (makeFlag .hard "ingestion_agent" "no_requirement_sections"
          "Zero requirement_response sections found"
          s!"chunks_by_type={dictRepr output.chunksByType}"
          ("Document does not address any RFP requirements. " ++ "Do not evaluate. Contact vendor.")) ++
      flagIf (output.status = "duplicate")
        (makeFlag .soft "ingestion_agent" "duplicate_document"
          "Document already ingested with identical content" s!"content_hash={output.contentHash}"
          "Skip re-ingestion. Use existing data." true))

def criticAfterRetrieval (output : RetrievalOutput) (isMandatory : Bool) : CriticOutput :=
  let flag := makeFlag .soft "retrieval_agent"
  let sectionTypes := output.chunks.map RetrievedChunk.sectionType
  criticOutput "retrieval_agent"
    (flagIf (output.emptyRetrieval = true)
        (makeFlag (if isMandatory then .hard else .soft) "retrieval_agent" "empty_retrieval"
          ("Retrieval returned zero chunks" ++
            (if isMandatory then " for mandatory requirement" else ""))
          s!"query='{output.originalQuery}'"
          ("Widen search query and retry. If still empty, " ++ "mark as insufficient_evidence.")) ++
      flagIf (output.rerankingDegraded = true)
        (flag "reranking_degraded"
          ("Reranker was unavailable — retrieval fell back to vector-score order, " ++
            "which lowers result precision (common cause: air-gapped box with no " ++
            "model access). Results are usable but not reranked.")
          s!"warnings={listRepr output.warnings}"
          ("Check RERANKER_PROVIDER / model availability for this deployment. " ++
            "Set RERANKER_PROVIDER=modal (GPU, no local HF egress) or =none if " ++
            "reranking is intentionally disabled.")) ++
      flagIf (output.emptyRetrieval = false ∧ output.rerankingDegraded = false ∧
          output.confidence < 4 / 10)
        (flag "low_retrieval_confidence"
          (s!"Retrieval confidence {fixed 2 output.confidence} is below 0.4 — " ++
            "vendor document may not address this criterion")
          s!"confidence={reprRat output.confidence}, chunks={output.chunks.length}"
          ("Review retrieved chunks manually. Consider broadening query or checking " ++
            "if vendor document covers this requirement.")) ++
      flagIf (output.emptyRetrieval = false ∧
          output.chunks.filter RetrievedChunk.isAnswerBearing = [])
        (flag "no_answer_bearing_chunks"
          "Retrieved chunks do not appear to contain answer-bearing content"
          ("top_score=" ++ (output.chunks.head?.map (fun c => reprRat c.finalScore)).getD "0")
          "Try HyDE retrieval or broaden query.") ++
      flagIf (output.emptyRetrieval = false ∧ sectionTypes.all (· = "background") = true ∧
          isMandatory = true)
        (flag "wrong_section_type" "All retrieved chunks are from 'background' sections"
          s!"section_types={listRepr sectionTypes}"
          "Add section_type filter for requirement_response."))

def ExtractionOutput.allItems (output : ExtractionOutput) : List ExtractedItem :=
  output.certifications ++ output.insurance ++ output.slas ++ output.projects ++ output.pricing ++
    output.extractedFacts

/-- A quote that is checked and is not in the text of the chunk it cites. -/
def quoteMissing (sourceChunks : Dict ChunkId String) (chunkId : ChunkId) (quote : String) : Bool :=
  let sourceText := (sourceChunks.get? chunkId).getD ""
  sourceText ≠ "" && quote ≠ "" && !occurs (ws quote) (ws sourceText)

def criticAfterExtraction (output : ExtractionOutput) (sourceChunks : Dict ChunkId String) :
    CriticOutput :=
  let failures := output.allItems.filter (fun item =>
    quoteMissing sourceChunks item.sourceChunkId item.groundingQuote)
  let total := output.allItems.length
  criticOutput "extraction_agent"
    (failures.map (fun item =>
        makeFlag .soft "extraction_agent" "grounding_verification_failed"
          "Grounding quote not found verbatim — possible paraphrase, review manually"
          s!"quote='{prefixOf 80 item.groundingQuote}' not in chunk {item.sourceChunkId}"
          "Flag for human review. Facts are saved but auditability is reduced.") ++
      flagIf (total ≠ 0 ∧ total / 2 < failures.length)
        (makeFlag .hard "extraction_agent" "high_hallucination_risk"
          s!"Majority of facts unverifiable ({failures.length}/{total})"
          s!"hallucination_risk={reprRat output.hallucinationRisk}"
          "Do not use extracted facts. Re-run extraction.") ++
      flagIf (output.extractionCompleteness < 5 / 10)
        (makeFlag .soft "extraction_agent" "low_extraction_completeness"
          s!"Only {percent output.extractionCompleteness} of required fields extracted"
          s!"completeness={reprRat output.extractionCompleteness}"
          "Vendor may not have addressed all requirements."))

def complianceFlags (d : ComplianceDecision) : List CriticFlag :=
  flagIf (d.decision = .pass ∧ d.decisionBasis = .implicitConfirmation)
      (makeFlag .soft "evaluation_agent" "implicit_confirmation_on_mandatory"
        s!"Check {d.checkId} passed on implicit confirmation only"
        "basis=DecisionBasis.IMPLICIT_CONFIRMATION"
        "Mandatory requirements need explicit confirmation.") ++
    flagIf (d.contradictionsFound ≠ [])
      (makeFlag (if d.decision = .insufficientEvidence then .soft else .hard) "evaluation_agent"
        "contradictions_in_evidence" s!"Check {d.checkId} has contradictory evidence"
        s!"contradictions={listRepr d.contradictionsFound}"
        (if d.decision = .insufficientEvidence
          then "Resolved to insufficient_evidence; flag for human review."
          else "Cannot make reliable decision. Human review required."))

def criticAfterEvaluation (output : EvaluationOutput) : CriticOutput :=
  criticOutput "evaluation_agent"
    (output.complianceDecisions.flatMap complianceFlags ++
      output.criterionScores.flatMap (fun score =>
        flagIf (PyFloat.le 2 score.varianceEstimate = true)
          (makeFlag .soft "evaluation_agent" "high_score_variance"
            (s!"Score for {score.criterionId} has high variance " ++
              s!"(+/-{score.varianceEstimate.repr})")
            s!"score={score.rawScore.val}+/-{score.varianceEstimate.repr}"
            "Score may not be reliable. Note in report.")))

def emptyRankingFlag (vendorIds : List VendorId) : CriticFlag :=
  makeFlag .hard "comparator_agent" "empty_ranking" "Comparator produced no overall ranking"
    s!"vendor_ids={listRepr vendorIds}" "Cannot proceed to Decision Agent without a ranking."

def vendorsMissingFlag (missing : List VendorId) : CriticFlag :=
  makeFlag .hard "comparator_agent" "vendors_missing_from_ranking"
    s!"{missing.length} vendor(s) requested but absent from overall ranking"
    s!"missing_vendors={listRepr (sortedSet missing)}"
    ("Evaluation likely failed for these vendors. " ++
      "Do not proceed to Decision Agent — ranking is incomplete. Escalate to human review.")

def ComparatorOutput.missing (output : ComparatorOutput) : List VendorId :=
  output.vendorIds.dedup.filter (fun v => v ∉ output.overallRanking)

def criticAfterComparator (output : ComparatorOutput) : CriticOutput :=
  let unstable := output.criteriaComparisons.filter (fun cc => !cc.rankStable)
  criticOutput "comparator_agent"
    (flagIf (output.overallRanking = []) (emptyRankingFlag output.vendorIds) ++
      flagIf (output.missing ≠ []) (vendorsMissingFlag output.missing) ++
      flagIf (output.rankingConfidence.lt (.fin (5 / 10)) = true)
        (makeFlag .soft "comparator_agent" "low_ranking_confidence"
          s!"Ranking confidence is low ({output.rankingConfidence.fixed 2})"
          s!"confidence={output.rankingConfidence.repr}"
          "Note in report — ranking may not be reliable.") ++
      flagIf (unstable ≠ [])
        (makeFlag .soft "comparator_agent" "unstable_criterion_rankings"
          s!"Rankings unstable for {unstable.length} criteria due to narrow margins"
          s!"unstable_criteria={listRepr (unstable.map CriterionComparison.criterionId)}"
          "Flag in report — score margins too close for reliable ranking."))

def allVendorsRejectedFlag (rejected : Nat) : CriticFlag :=
  makeFlag .hard "decision_agent" "all_vendors_rejected" "All vendors were rejected"
    s!"rejected={rejected}, shortlisted=0"
    ("ESCALATE. Requirements may be too restrictive. " ++
      "Review mandatory requirements with procurement team.")

def rejectionWithoutEvidenceFlag (vendorId : VendorId) : CriticFlag :=
  makeFlag .hard "decision_agent" "rejection_without_evidence"
    s!"Vendor {vendorId} rejected without evidence" "evidence_citations=[]"
    ("CANNOT REJECT WITHOUT EVIDENCE. Legal exposure. " ++ "Find evidence or change decision.")

def criticAfterDecision (output : DecisionOutput) : CriticOutput :=
  criticOutput "decision_agent"
    (output.rejectedVendors.flatMap (fun rej =>
        flagIf (rej.evidenceCitations = []) (rejectionWithoutEvidenceFlag rej.vendorId)) ++
      (if output.requiresHumanReview then output.reviewReasons else []).flatMap (fun reason =>
        flagIf (occurs "insufficient evidence".toList (lower reason) = true)
          (makeFlag .soft "decision_agent" "shortlisted_vendor_unresolved_checks" reason
            "vendor has mandatory checks with insufficient_evidence status"
            "Flag in report. Approver must confirm these checks before award.")) ++
      flagIf (output.shortlistedVendors = [] ∧ output.rejectedVendors ≠ [])
        (allVendorsRejectedFlag output.rejectedVendors.length))

def VendorNarrative.totalClaims (n : VendorNarrative) : Nat :=
  n.groundedClaims.length + n.ungroundedClaimsRemoved

/-- The share of claims that are grounded, the number of claims, and the limitations. -/
def computeGrounding (narratives : List VendorNarrative) : ℚ × Nat × List String :=
  let claimBearing := narratives.filter (fun n => decide (0 < n.totalClaims))
  let totalClaims := (claimBearing.map VendorNarrative.totalClaims).sum
  let groundedClaims := (claimBearing.map (fun n => n.groundedClaims.length)).sum
  let completeness : ℚ := if 0 < totalClaims then groundedClaims / totalClaims else 1
  let limitations :=
    (if totalClaims = 0 then
      ["No grounded claims were produced for any vendor — " ++
        "narratives may be empty. Check source chunks and re-run."] else []) ++
    narratives.flatMap (fun n =>
      (if 0 < n.ungroundedClaimsRemoved then
        [s!"{n.vendorId}: {n.ungroundedClaimsRemoved} unverified claim(s) removed."] else []) ++
      (if n.groundedClaims = [] then
        [s!"{n.vendorId}: zero grounded claims — narrative has no verifiable content."] else []))
  (PyText.round completeness 3, totalClaims, limitations)

structure SynthesisVerification where
  enabled : Bool
  confidenceFloor : ℚ
  blockBelow : ℚ
  warnBelow : ℚ

def groundingFlags (completeness : ℚ) : List CriticFlag :=
  if completeness < 70 / 100 then
    [makeFlag .hard "explanation_agent" "low_grounding_completeness"
      s!"Only {percent completeness} of claims are grounded"
      s!"grounding_completeness={reprRat completeness}"
      "Report contains too many unverified claims. Do not send to customer."]
  else flagIf (completeness < 90 / 100)
    (makeFlag .soft "explanation_agent" "moderate_grounding"
      s!"Grounding completeness {percent completeness}"
      s!"grounding_completeness={reprRat completeness}"
      "Report contains some unverified claims. Review before sending.")

def narrativeFlags (n : VendorNarrative) : List CriticFlag :=
  if n.groundedClaims = [] ∧ n.ungroundedClaimsRemoved = 0 ∧ n.systemFacts = [] then
    [makeFlag .hard "explanation_agent" "empty_narrative"
      s!"Vendor {n.vendorId} has zero claims — LLM produced no narrative content"
      s!"vendor={n.vendorId}" "LLM failed to generate any claims. Check source chunks and retry."]
  else if n.groundedClaims = [] ∧ 0 < n.ungroundedClaimsRemoved then
    [makeFlag .hard "explanation_agent" "all_claims_ungrounded"
      (s!"All {n.ungroundedClaimsRemoved} claims for {n.vendorId} " ++
        "failed grounding verification — no verifiable content remains")
      s!"vendor={n.vendorId}, removed={n.ungroundedClaimsRemoved}"
      "LLM is hallucinating. Source chunks may be insufficient. Do not publish report."]
  else flagIf (3 < n.ungroundedClaimsRemoved)
    (makeFlag .soft "explanation_agent" "many_claims_removed"
      (s!"Explanation agent removed {n.ungroundedClaimsRemoved} " ++
        s!"ungrounded claims for {n.vendorId}")
      s!"vendor={n.vendorId}, removed={n.ungroundedClaimsRemoved}"
      "High hallucination in explanation. Check source data quality.")

def proseFlags (cfg : SynthesisVerification) (n : VendorNarrative) : List CriticFlag :=
  if n.proseVerification = [] then []
  else
    let score := n.proseVerificationScore
    let unsupported := (n.proseVerification.filter (fun v => !v.supported)).map
      ClaimVerification.claimText
    let evidence := s!"vendor={n.vendorId}, score={reprRat score}, " ++
      s!"unsupported={listRepr (unsupported.take 5)}"
    if score < cfg.blockBelow then
      [makeFlag .hard "explanation_agent" "unsupported_prose_claims"
        (s!"Only {percent score} of {n.vendorId}'s narrative prose claims " ++
          s!"are supported by evidence — {unsupported.length} unsupported")
        evidence
        ("Narrative prose contains claims not backed by source evidence. " ++
          "Do not send to customer — regenerate the narrative.")]
    else flagIf (score < cfg.warnBelow)
      (makeFlag .soft "explanation_agent" "weak_prose_support"
        (s!"{n.vendorId}'s narrative prose is {percent score} supported — " ++
          s!"{unsupported.length} claim(s) lack evidence")
        evidence "Some narrative prose claims are unsupported. Review before sending.")

/-- At most one flag a narrative, for the first of its first five claims that fails. -/
def claimFlags (sourceChunks : Dict ChunkId String) (n : VendorNarrative) : List CriticFlag :=
  match (n.groundedClaims.take 5).find? (fun claim =>
      quoteMissing sourceChunks claim.sourceChunkId claim.groundingQuote) with
  | none => []
  | some claim =>
      [makeFlag .hard "explanation_agent" "grounding_verification_failed"
        "Claim grounding quote not found in source"
        s!"quote='{prefixOf 60 claim.groundingQuote}'" "HALLUCINATION. Remove claim from report."]

def criticAfterExplanation (cfg : SynthesisVerification) (output : ExplanationOutput)
    (sourceChunks : Dict ChunkId String) : CriticOutput :=
  criticOutput "explanation_agent"
    (groundingFlags output.groundingCompleteness ++
      flagIf ((computeGrounding output.vendorNarratives).2.1 = 0)
        (makeFlag .soft "explanation_agent" "claim_free_report"
          ("Report contains no PDF-grounded claims — grounding_completeness is " ++
            "vacuously 1.0 (nothing to ground, not 100% verified)")
          s!"total_claims=0, grounding_completeness={reprRat output.groundingCompleteness}"
          ("Report content rests entirely on system determinations " ++
            "(rejections/conflicts). Human review recommended before sending.")) ++
      output.vendorNarratives.flatMap narrativeFlags ++
      (if cfg.enabled then output.vendorNarratives.flatMap (proseFlags cfg) else []) ++
      output.vendorNarratives.flatMap (claimFlags sourceChunks))

end RfpPlatform
