import RfpPlatform.CriticRetry
import RfpPlatform.ExceptRules

namespace RfpPlatform.Extraction

open ExceptRules PyText

structure FactsState where
  certifications : List ExtractedItem
  insurance : List ExtractedItem
  slas : List ExtractedItem
  projects : List ExtractedItem
  pricing : List ExtractedItem
  extractedFacts : List ExtractedItem
  warnings : List String
  retriedFactTypes : List String

/-- All chunks but the boilerplate, or all chunks where nothing else is left. -/
def relevantChunks (retrieval : RetrievalOutput) : List RetrievedChunk :=
  let relevant := retrieval.chunks.filter (fun c => c.sectionType ≠ "boilerplate")
  if relevant = [] then retrieval.chunks else relevant

def sourceChunks (chunks : List RetrievedChunk) : Dict ChunkId String :=
  Dict.ofPairs (chunks.map (fun c => (c.chunkId, c.text)))

def contextOf (chunks : List RetrievedChunk) : String :=
  join "\n\n---\n\n" (chunks.map (fun c => s!"[{c.chunkId}] [{c.sectionType}]\n{c.text}"))

def standardFacts (facts : FactsState) : List (String × List ExtractedItem) :=
  [("certification", facts.certifications), ("insurance", facts.insurance), ("sla", facts.slas),
    ("project", facts.projects), ("pricing", facts.pricing)]

/-- The share of the fact types and custom targets of the setup for which something was
extracted. -/
def extractionCompleteness (facts : FactsState) (targets : List ExtractionTarget) : ℚ :=
  let active := (standardFacts facts).filter (fun p =>
    targets.any (fun t => t.factType = p.1))
  let custom := targets.filter (fun t => t.factType = "custom")
  let score := (active.filter (fun p => !p.2.isEmpty)).length +
    (custom.filter (fun t => facts.extractedFacts.any (fun f => f.targetId = t.targetId))).length
  let total := active.length + custom.length
  if 0 < total then round ((score : ℚ) / total) 3 else 1

def quoteFound (quote source : String) : Bool :=
  quote ≠ "" && source ≠ "" && occurs (ws quote) (ws source)

def hallucinationRisk (items : List ExtractedItem) (chunks : Dict ChunkId String) : ℚ :=
  if items = [] then 0
  else
    let risky := items.filter (fun f =>
      !quoteFound f.groundingQuote ((chunks.get? f.sourceChunkId).getD ""))
    round ((risky.length : ℚ) / items.length) 3

def emptyExtraction (vendorId : VendorId) (orgId : String) : ExtractionOutput where
  vendorId := vendorId
  orgId := orgId
  sourceChunkIds := []
  extractionCompleteness := 0
  hallucinationRisk := 0
  warnings := ["No chunks in retrieval output — nothing to extract"]

def extractionOf (vendorId : VendorId) (orgId : String) (setup : EvaluationSetup)
    (chunks : Dict ChunkId String) (facts : FactsState) : ExtractionOutput :=
  { vendorId := vendorId
    orgId := orgId
    sourceChunkIds := chunks.keys
    certifications := facts.certifications
    insurance := facts.insurance
    slas := facts.slas
    projects := facts.projects
    pricing := facts.pricing
    extractedFacts := facts.extractedFacts
    extractionCompleteness := extractionCompleteness facts setup.extractionTargets
    hallucinationRisk := hallucinationRisk (facts.certifications ++ facts.insurance ++ facts.slas ++
      facts.projects ++ facts.pricing ++ facts.extractedFacts) chunks
    warnings := facts.warnings
    retriedFactTypes := facts.retriedFactTypes }

def saveFailedFlag (vendorId : VendorId) (docId : String) (exc : Exn) : CriticFlag :=
  makeFlag .hard "extraction_agent" "fact_store_save_failed"
    s!"Extracted facts could not be persisted to PostgreSQL: {exc.message}"
    s!"vendor_id={vendorId}, doc_id={docId}"
    ("Do not evaluate — facts were not saved. " ++ "Investigate the DB write and re-run extraction.")

def addHardFlag (critic : CriticOutput) (flag : CriticFlag) : CriticOutput :=
  { critic with
    flags := critic.flags ++ [flag]
    hardFlagCount := critic.hardFlagCount + 1
    overallVerdict := verdict (critic.flags ++ [flag])
    requiresHumanReview := true }

/-- The agent with the model calls (`extract`, on a context and a critic's feedback) and
the database write (`save`) as parameters. -/
def runExtractionAgent (extract : String → String → Except Exn FactsState)
    (save : ExtractionOutput → Except Exn Unit) (retrieval : RetrievalOutput) (vendorId : VendorId)
    (orgId docId : String) (setup : EvaluationSetup) (criticFeedback : String) :
    Except Exn (ExtractionOutput × CriticOutput) :=
  let relevant := relevantChunks retrieval
  let chunks := sourceChunks relevant
  let context := contextOf relevant
  if strip context = "" then
    let output := emptyExtraction vendorId orgId
    .ok (output, criticAfterExtraction output chunks)
  else do
    let facts ← extract context criticFeedback
    let output := extractionOf vendorId orgId setup chunks facts
    let critic := criticAfterExtraction output chunks
    if critic.overallVerdict = .blocked then return (output, critic)
    else
      match save output with
      | .ok () => return (output, critic)
      | .error exc => return (output, addHardFlag critic (saveFailedFlag vendorId docId exc))

section Sources

variable {extract : String → String → Except Exn FactsState} {save : ExtractionOutput → Except Exn Unit}
  {retrieval : RetrievalOutput} {vendorId : VendorId} {orgId docId feedback : String}
  {setup : EvaluationSetup} {output : ExtractionOutput} {critic : CriticOutput}

theorem mem_relevantChunks {c : RetrievedChunk} (h : c ∈ relevantChunks retrieval) :
    c ∈ retrieval.chunks := by
  simp only [relevantChunks] at h
  split at h
  · exact h
  · exact (List.mem_filter.mp h).1

theorem mem_sourceChunks {chunks : List RetrievedChunk} {id : ChunkId}
    (h : id ∈ (sourceChunks chunks).keys) : id ∈ chunks.map RetrievedChunk.chunkId := by
  obtain ⟨text, hid⟩ := Dict.mem_keys.mp h
  rcases KeyedTable.mem_of_mem_upsertAll (Dict.get?_eq_some.mp hid) with hnone | hp
  · exact absurd hnone (KeyedTable.not_mem_empty _)
  · obtain ⟨c, hc, he⟩ := List.mem_map.mp hp
    exact List.mem_map.mpr ⟨c, hc, congrArg Prod.fst he⟩

theorem runExtractionAgent_cases
    (h : runExtractionAgent extract save retrieval vendorId orgId docId setup feedback =
      .ok (output, critic)) :
    output = emptyExtraction vendorId orgId ∨
      ∃ facts, output = extractionOf vendorId orgId setup (sourceChunks (relevantChunks retrieval))
        facts := by
  simp only [runExtractionAgent] at h
  split at h
  · cases h
    exact Or.inl rfl
  · obtain ⟨facts, _, hfacts⟩ := bind_eq_ok.mp h
    refine Or.inr ⟨facts, ?_⟩
    split at hfacts
    · cases pure_eq_ok.mp hfacts
      rfl
    · split at hfacts
      · cases pure_eq_ok.mp hfacts
        rfl
      · cases pure_eq_ok.mp hfacts
        rfl

/-- An extraction names the chunks it read, and these were retrieved for the vendor. -/
theorem runExtractionAgent_sources
    (h : runExtractionAgent extract save retrieval vendorId orgId docId setup feedback =
      .ok (output, critic)) :
    output.vendorId = vendorId ∧
      ∀ id ∈ output.sourceChunkIds, id ∈ retrieval.chunks.map RetrievedChunk.chunkId := by
  rcases runExtractionAgent_cases h with rfl | ⟨facts, rfl⟩
  · exact ⟨rfl, fun _ hid => nomatch hid⟩
  · refine ⟨rfl, fun id hid => ?_⟩
    obtain ⟨c, hc, rfl⟩ := List.mem_map.mp (mem_sourceChunks hid)
    exact List.mem_map_of_mem (mem_relevantChunks hc)

end Sources

end RfpPlatform.Extraction
