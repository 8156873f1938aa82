import RfpPlatform.Extraction

namespace RfpPlatform.VendorBranches

open CriticRetry ExceptRules Extraction PyText

def retrievalQueries (setup : EvaluationSetup) : List String :=
  let queries := setup.scoringCriteria.map ScoringCriterion.name ++
    setup.mandatoryChecks.map MandatoryCheck.name
  if queries = [] then
    ["technical capability SLA pricing compliance certifications experience"]
  else queries

structure Merged where
  chunks : List RetrievedChunk
  degraded : Bool
  warnings : List String

def Merged.add (m : Merged) (output : RetrievalOutput) : Merged where
  chunks := output.chunks.foldl (fun kept c =>
    if c.chunkId ∈ kept.map RetrievedChunk.chunkId then kept else kept ++ [c]) m.chunks
  degraded := m.degraded || output.rerankingDegraded
  warnings := output.warnings.foldl (fun kept w => if w ∈ kept then kept else kept ++ [w]) m.warnings

/-- The retrieval agent of one vendor, on a query and whether a mandatory check is named so. -/
abbrev Retrieve := String → Bool → Except Exn (RetrievalOutput × CriticOutput)

def mergeQueries (retrieve : Retrieve) (mandatoryNames : List String) :
    List String → Merged → Except Exn Merged
  | [], m => .ok m
  | query :: queries, m => do
      let (output, _) ← retrieve query (query ∈ mandatoryNames)
      mergeQueries retrieve mandatoryNames queries (m.add output)

def combine (rerankDegradedConfidenceFactor : ℚ) (queries : List String) (m : Merged) :
    Except Exn RetrievalOutput := do
  let average : ℚ := if m.chunks = [] then 0
    else (m.chunks.map RetrievedChunk.finalScore).sum / m.chunks.length
  let confidence := round (min 1
    (average * (if m.degraded then rerankDegradedConfidenceFactor else 1))) 3
  raiseIf (confidence < 0) ⟨.validationError, "RetrievalOutput.confidence must be between 0 and 1"⟩
  return {
    originalQuery := join "; " (queries.take 3) ++ (if 3 < queries.length then "..." else "")
    chunks := m.chunks
    confidence := confidence
    emptyRetrieval := m.chunks.isEmpty
    rerankingDegraded := m.degraded
    warnings := m.warnings }

def combinedRetrieval (rerankDegradedConfidenceFactor : ℚ) (retrieve : Retrieve)
    (setup : EvaluationSetup) : Except Exn RetrievalOutput := do
  let queries := retrievalQueries setup
  let merged ← mergeQueries retrieve (setup.mandatoryChecks.map MandatoryCheck.name) queries
    ⟨[], false, []⟩
  combine rerankDegradedConfidenceFactor queries merged

/-- `retrieval_per_vendor`: an exception or a blocking critic fails this vendor only. -/
def retrievalPerVendor (rerankDegradedConfidenceFactor : ℚ) (retrieve : Retrieve)
    (setup : EvaluationSetup) (vid : VendorId) : FailedVendor ⊕ RetrievalOutput :=
  match combinedRetrieval rerankDegradedConfidenceFactor retrieve setup with
  | .error exc => .inl ⟨vid, "retrieval", exc.message⟩
  | .ok combined =>
      let critic := criticAfterRetrieval combined false
      if critic.overallVerdict = .blocked then
        .inl ⟨vid, "retrieval", "critic_hard_block: " ++
          prefixOf 240 (join "; " (hardDescriptions critic.flags))⟩
      else .inr combined

/-- The model calls and the database write of the extraction attempts of one vendor, by
the number of the attempt. -/
structure ExtractionServices where
  extract : Nat → String → String → Except Exn FactsState
  save : Nat → ExtractionOutput → Except Exn Unit

def extractionAttempt (svc : ExtractionServices) (retrieval : RetrievalOutput) (vid : VendorId)
    (orgId docId : String) (setup : EvaluationSetup) : AttemptFn ExtractionOutput :=
  fun attempt feedback =>
    runExtractionAgent (svc.extract attempt) (svc.save attempt) retrieval vid orgId docId setup feedback

/-- `generation_critic_max_retries` -/
def generationCriticMaxRetries : Nat := 2

inductive ExtractionBranch
  | skipped
  | failed (entry : FailedVendor)
  | ran (update : RetryUpdate ExtractionOutput)

/-- `extraction_per_vendor`: a vendor whose facts are stored already gives back nothing. -/
def extractionPerVendor (factsAlreadyExtracted : Bool) (svc : ExtractionServices)
    (retrieval : Option RetrievalOutput) (vid : VendorId) (orgId rfpId : String)
    (setup : EvaluationSetup) : ExtractionBranch :=
  if factsAlreadyExtracted then .skipped
  else
    match retrieval with
    | none => .failed ⟨vid, "extraction", "no retrieval output available (vendor failed upstream)"⟩
    | some retrieval => .ran (runWithCriticRetry "extraction" vid
        (extractionAttempt svc retrieval vid orgId s!"{rfpId}-{vid}" setup)
        generationCriticMaxRetries)

section Provenance

variable {retrieve : Retrieve} {setup : EvaluationSetup} {vid : VendorId} {factor : ℚ}

def RetrievedBy (retrieve : Retrieve) (c : RetrievedChunk) : Prop :=
  ∃ query mandatory output critic, retrieve query mandatory = .ok (output, critic) ∧ c ∈ output.chunks

theorem retrievalPerVendor_failed {entry : FailedVendor}
    (h : retrievalPerVendor factor retrieve setup vid = .inl entry) :
    entry.vendorId = vid ∧ entry.stage = "retrieval" := by
  unfold retrievalPerVendor at h
  split at h
  · cases h
    exact ⟨rfl, rfl⟩
  · simp only at h
    split at h
    · cases h
      exact ⟨rfl, rfl⟩
    · cases h

end Provenance

end RfpPlatform.VendorBranches
