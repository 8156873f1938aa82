import RfpPlatform.Extraction

namespace RfpPlatform.Explanation

open ExceptRules Extraction PyText

/-- The validated reply of the model that writes a narrative. A reply that is not valid
counts as an empty one. -/
structure Synthesis where
  executiveSummary : String := ""
  complianceNarrative : String := ""
  scoringNarrative : String := ""
  recommendationRationale : String := ""
  groundedClaims : List GroundedClaim := []
  systemFacts : List SystemFact := []

structure NarrativePrompt where
  criticFeedback : String
  vendorId : VendorId
  decisionContext : String
  complianceSummary : String
  extraction : ExtractionOutput
  currency : String
  sourceChunks : Dict ChunkId String

structure VerificationPrompt where
  narrative : VendorNarrative
  sourceChunks : Dict ChunkId String

structure NarrationServices where
  synthesise : NarrativePrompt → Except Exn Synthesis
  verifyClaims : VerificationPrompt → Except Exn (List ClaimVerification)

def verifyGrounding (claim : GroundedClaim) (chunks : Dict ChunkId String) : Bool :=
  quoteFound claim.groundingQuote ((chunks.get? claim.sourceChunkId).getD "")

def decisionContext (vid : VendorId) (isRejected : Bool) (evaluation : EvaluationOutput)
    (decision : DecisionOutput) : String :=
  if isRejected then
    let rejection := decision.rejectedVendors.find? (fun r => r.vendorId = vid)
    let checks := (rejection.map RejectionNotice.failedChecks).getD []
    let reasons := (rejection.map RejectionNotice.rejectionReasons).getD []
    s!"REJECTED. Failed checks: {listRepr checks}. Reasons: {listRepr reasons}"
  else
    let shortlisted := decision.shortlistedVendors.find? (fun s => s.vendorId = vid)
    let rank := (shortlisted.map (fun s => toString s.rank)).getD "?"
    let recommendation := (shortlisted.map ShortlistedVendor.recommendation).getD "?"
    s!"SHORTLISTED. Rank: {rank}. Score: {fixed 2 evaluation.totalWeightedScore}/10. " ++
      s!"Recommendation: {recommendation}"

def complianceSummary (evaluation : EvaluationOutput) : String :=
  if evaluation.complianceDecisions = [] then "No compliance decisions."
  else join "\n" (evaluation.complianceDecisions.map (fun d =>
    s!"{d.checkId}: {d.decision.value} " ++
      s!"(basis={d.decisionBasis.value}, confidence={d.confidence.value.fixed 2})"))

def ungroundedExample (chunks : Dict ChunkId String) (claim : GroundedClaim) :
    UngroundedExample :=
  let source := (chunks.get? claim.sourceChunkId).getD ""
  { claimText := claim.claimText
    llmGroundingQuote := claim.groundingQuote
    citedChunkId := claim.sourceChunkId
    chunkExists := source ≠ ""
    sourceExcerpt := if source = "" then "(no chunk under this id)" else prefixOf 600 source
    diagnosisHint := if source = "" then "wrong_chunk_id" else "quote_not_in_source" }

def conflictFacts (evaluation : EvaluationOutput) : List SystemFact :=
  (evaluation.complianceDecisions.filter (fun d => d.contradictionsFound ≠ [])).map (fun d =>
    { factText := s!"Conflicting evidence for '{d.checkId}': " ++
        join "; " d.contradictionsFound ++ ". Cannot confirm " ++
        "the requirement — recommend the customer follow up with the vendor."
      origin := "evaluation"
      originId := d.checkId })

def rejectionFacts (vid : VendorId) (isRejected : Bool) (decision : DecisionOutput) :
    List SystemFact :=
  match isRejected, decision.rejectedVendors.find? (fun r => r.vendorId = vid) with
  | true, some rejection =>
      let listed := join "; " rejection.rejectionReasons
      let reasons := if listed = "" then "mandatory requirement not met" else listed
      [{ factText := "Rejected — failed mandatory checks: " ++ join "; " rejection.failedChecks ++
          s!". {reasons}."
         origin := "decision"
         originId := vid }]
  | _, _ => []

def narrativePrompt (vid : VendorId) (isRejected : Bool) (evaluation : EvaluationOutput)
    (extraction : ExtractionOutput) (chunks : Dict ChunkId String) (decision : DecisionOutput)
    (currency criticFeedback : String) : NarrativePrompt where
  criticFeedback := criticFeedback
  vendorId := vid
  decisionContext := decisionContext vid isRejected evaluation decision
  complianceSummary := complianceSummary evaluation
  extraction := extraction
  currency := currency
  sourceChunks := chunks

def draftNarrative (prompt : NarrativePrompt) (isRejected : Bool) (evaluation : EvaluationOutput)
    (decision : DecisionOutput) (synthesis : Synthesis) : VendorNarrative :=
  let ungrounded := synthesis.groundedClaims.filter (fun c => !verifyGrounding c prompt.sourceChunks)
  { vendorId := prompt.vendorId
    vendorName := prompt.vendorId
    executiveSummary := synthesis.executiveSummary
    complianceNarrative := synthesis.complianceNarrative
    scoringNarrative := synthesis.scoringNarrative
    recommendationRationale := synthesis.recommendationRationale
    groundedClaims := synthesis.groundedClaims.filter (fun c => verifyGrounding c prompt.sourceChunks)
    ungroundedClaimsRemoved := ungrounded.length
    systemFacts := synthesis.systemFacts ++ conflictFacts evaluation ++
      rejectionFacts prompt.vendorId isRejected decision
    ungroundedExamples := ungrounded.map (ungroundedExample prompt.sourceChunks) }

def trustedSupport (cfg : SynthesisVerification) (v : ClaimVerification) : Bool :=
  v.supported && PyFloat.le cfg.confidenceFloor v.confidence.value

def verifyNarrativeClaims (cfg : SynthesisVerification) (svc : NarrationServices)
    (prompt : VerificationPrompt) : Except Exn (List ClaimVerification × ℚ) :=
  let n := prompt.narrative
  if !cfg.enabled then .ok ([], 1)
  else if strip (join "\n" [n.executiveSummary, n.complianceNarrative, n.scoringNarrative,
      n.recommendationRationale]) = "" then .ok ([], 1)
  else do
    let verifications ← svc.verifyClaims prompt
    if verifications = [] then return ([], 1)
    else
      let supported := (verifications.filter (trustedSupport cfg)).length
      return (verifications, round ((supported : ℚ) / verifications.length) 3)

def generateVendorNarrative (cfg : SynthesisVerification) (svc : NarrationServices)
    (prompt : NarrativePrompt) (isRejected : Bool) (evaluation : EvaluationOutput)
    (decision : DecisionOutput) : Except Exn VendorNarrative := do
  let synthesis ← svc.synthesise prompt
  let draft := draftNarrative prompt isRejected evaluation decision synthesis
  let (verifications, score) ← verifyNarrativeClaims cfg svc ⟨draft, prompt.sourceChunks⟩
  return { draft with
    proseVerification := verifications
    proseVerificationScore := score }

def ownChunks (extraction : ExtractionOutput) (sourceChunks : Dict ChunkId String) :
    Dict ChunkId String :=
  Dict.ofPairs (extraction.sourceChunkIds.filterMap (fun cid =>
    (sourceChunks.get? cid).map (fun text => (cid, text))))

/-- The chunks that the extraction recorded, or all chunks of the run where it recorded none. -/
def vendorChunks (extraction : ExtractionOutput) (sourceChunks : Dict ChunkId String) :
    Dict ChunkId String :=
  let own := ownChunks extraction sourceChunks
  if own.rows = [] then sourceChunks else own

def stubExtraction (vid : VendorId) (orgId : String) : ExtractionOutput where
  vendorId := vid
  orgId := orgId
  sourceChunkIds := []
  extractionCompleteness := 0
  hallucinationRisk := 0

def isRejected (decision : DecisionOutput) (vid : VendorId) : Bool :=
  decision.rejectedVendors.any (fun r => r.vendorId = vid)

def methodologyNote : String :=
  "This report was generated by an automated evaluation pipeline. " ++
    "Every factual claim is grounded to a verbatim quote from the vendor submission. " ++
    "Claims that could not be verified against source text were removed. " ++
    "Human review is recommended before final procurement decisions."

def buildExecutiveSummary (decision : DecisionOutput) : String :=
  let topLine := match decision.shortlistedVendors with
    | [] => "No vendors shortlisted."
    | top :: _ => s!"Top-ranked vendor: {top.vendorId} " ++
        s!"(score {fixed 2 top.coverageNormalisedScore}/10, {top.recommendation})."
  s!"Evaluation complete. {decision.shortlistedVendors.length} vendor(s) shortlisted, " ++
    s!"{decision.rejectedVendors.length} rejected. {topLine} " ++
    s!"Approval routed to {decision.approvalRouting.approverRole} " ++
    s!"(Tier {decision.approvalRouting.approvalTier})."

def explanationOutput (decision : DecisionOutput) (narratives : List VendorNarrative)
    (limitations : List String) : ExplanationOutput :=
  let grounding := computeGrounding narratives
  { executiveSummary := buildExecutiveSummary decision
    vendorNarratives := narratives
    methodologyNote := methodologyNote
    limitations := grounding.2.2 ++ limitations
    groundingCompleteness := grounding.1
    reportConfidence := decision.decisionConfidence }

section Grounding

variable {cfg : SynthesisVerification} {svc : NarrationServices} {prompt : NarrativePrompt}
  {rejected : Bool} {evaluation : EvaluationOutput} {decision : DecisionOutput}
  {narrative : VendorNarrative}

theorem mem_keys_of_verifyGrounding {claim : GroundedClaim} {chunks : Dict ChunkId String}
    (h : verifyGrounding claim chunks = true) : claim.sourceChunkId ∈ chunks.keys := by
  cases hget : chunks.get? claim.sourceChunkId with
  | none => simp [verifyGrounding, quoteFound, hget] at h
  | some text => exact Dict.mem_keys.mpr ⟨text, hget⟩

/-- A claim that stays in a narrative cites a chunk of the prompt. -/
theorem generateVendorNarrative_grounded
    (h : generateVendorNarrative cfg svc prompt rejected evaluation decision = .ok narrative) :
    narrative.vendorId = prompt.vendorId ∧
      ∀ claim ∈ narrative.groundedClaims, claim.sourceChunkId ∈ prompt.sourceChunks.keys := by
  simp only [generateVendorNarrative, bind_eq_ok] at h
  obtain ⟨synthesis, _, ⟨verifications, score⟩, _, h⟩ := h
  cases pure_eq_ok.mp h
  refine ⟨rfl, fun claim hclaim => ?_⟩
  exact mem_keys_of_verifyGrounding (List.mem_filter.mp hclaim).2

end Grounding

end RfpPlatform.Explanation
