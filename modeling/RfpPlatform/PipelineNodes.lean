import RfpPlatform.RunState

namespace RfpPlatform.PipelineNodes

open CriticRetry ExceptRules Explanation PyText RunRequests RunState VendorBranches

structure Execution where
  input : RunInput
  settings : PipelineSettings
  services : PipelineServices

/-- What a superstep comes to: the updates of its nodes, the status written to the run's
row, and the prompts that narratives were asked for with. -/
structure NodeResult where
  updates : List Update := []
  status : Option RunStatus := none
  prompts : List NarrativePrompt := []

def blockUpdate (agent : String) (exc : Exn) : NodeResult where
  updates := [{ block := some (agent, exc.message) }]
  status := some .blocked

/-- A node body in its `try`: any exception blocks the run. -/
def guarded (agent : String) (body : Except Exn Update) : NodeResult :=
  match body with
  | .ok update => { updates := [update] }
  | .error exc => blockUpdate agent exc

variable (e : Execution)

def emptyPlan : PlannerOutput × List String :=
  (⟨"", [], [], ["No vendor IDs provided — plan is empty"]⟩, ["No vendor IDs provided"])

def runPlanner : PlannerOutput × List String :=
  if e.input.vendorIds = [] then emptyPlan else e.services.plan

def plannerNode : NodeResult :=
  guarded "planner" (do
    let (output, errors) := runPlanner e
    hardBlockIf (criticAfterPlanner output errors) "planner"
    return {})

def allM (p : VendorId → Except Exn Bool) : List VendorId → Except Exn Bool
  | [] => .ok true
  | v :: vs => do
      let b ← p v
      if b then allM p vs else return false

def hardBlockAll (context : String) : List CriticOutput → Except Exn Unit
  | [] => .ok ()
  | c :: cs => do
      hardBlockIf c context
      hardBlockAll context cs

/-- The RFP's document is ingested first, and then that of each vendor. -/
def documents (input : RunInput) : List (Option VendorId × String) :=
  (none, s!"ingestion/{input.rfpFilename}") ::
    input.vendorFiles.map (fun f => (some f.1, s!"ingestion/{f.2} (vendor={f.1})"))

def ingestAll (ingest : Option VendorId → Except Exn (List CriticOutput)) :
    List (Option VendorId × String) → Except Exn Unit
  | [] => .ok ()
  | (document, context) :: rest => do
      let critics ← ingest document
      hardBlockAll context critics
      ingestAll ingest rest

def allSkippable : Except Exn Bool :=
  let vendors := e.input.vendorFiles.map Prod.fst
  if vendors = [] then .ok false else allM e.services.factsExtractedBefore vendors

/-- Ingestion is skipped where every vendor's facts are stored already. -/
def ingestionNode : Except Exn NodeResult := do
  let skippable ← allSkippable e
  return if skippable then {} else guarded "ingestion" (do
    ingestAll e.services.ingest (documents e.input)
    return {})

def retrievalUpdate (b : Branch) : Update :=
  match retrievalPerVendor e.settings.rerankDegradedConfidenceFactor (e.services.retrieve b)
    e.input.setup b.1 with
  | .inl entry => { failedVendors := [entry] }
  | .inr output =>
      { retrievalOutputs := Dict.ofPairs [(b.1, output)]
        sourceChunks := Dict.ofPairs (output.chunks.map (fun c => (c.chunkId, c.text))) }

def metricUpdate (agent : String) (vid : VendorId) (m : Metric) : Metrics :=
  Dict.ofPairs [(vid, Dict.ofPairs [(agent, m)])]

def extractionBranch (s : PipelineState) (b : Branch) (cached : Bool) : ExtractionBranch :=
  extractionPerVendor cached (e.services.extraction b) (s.retrievalOutputs.get? b.1) b.1
    e.input.orgId e.input.rfpId e.input.setup

def extractionUpdateOf (b : Branch) : ExtractionBranch → Update
  | .skipped => {}
  | .failed entry => { failedVendors := [entry] }
  | .ran update =>
      match update.result with
      | .inl entry =>
          { failedVendors := [entry], criticMetrics := metricUpdate "extraction" b.1 update.metric }
      | .inr output =>
          { extractionOutputs := Dict.ofPairs [(b.1, output)]
            criticMetrics := metricUpdate "extraction" b.1 update.metric }

def extractionUpdate (s : PipelineState) (b : Branch) : Except Exn Update := do
  let cached ← e.services.factsExtracted b
  return extractionUpdateOf b (extractionBranch e s b cached)

def evaluationAttempt (b : Branch) (extraction : ExtractionOutput) : AttemptFn EvaluationOutput :=
  fun attempt _ => Evaluation.runEvaluationAgent e.settings.evaluation
    (e.services.evaluation b attempt)
    ⟨b.1, e.input.orgId, e.input.setup, extraction.retriedFactTypes⟩

def notExtracted (vid : VendorId) : FailedVendor :=
  ⟨vid, "evaluation", "no extraction output available (vendor failed upstream)"⟩

def evaluationUpdate (s : PipelineState) (b : Branch) : Update :=
  match s.extractionOutputs.get? b.1 with
  | none => { failedVendors := [notExtracted b.1] }
  | some extraction =>
      let ran := runWithCriticRetry "evaluation" b.1 (evaluationAttempt e b extraction)
        generationCriticMaxRetries
      match ran.result with
      | .inl entry =>
          { failedVendors := [entry], criticMetrics := metricUpdate "evaluation" b.1 ran.metric }
      | .inr output =>
          { evaluationOutputs := Dict.ofPairs [(b.1, output)]
            criticMetrics := metricUpdate "evaluation" b.1 ran.metric }

def comparisonCall (s : PipelineState) : Comparator.ComparisonCall :=
  ⟨e.input.vendorIds, e.input.rfpId, e.input.setup, s.evaluationOutputs⟩

def comparatorNode (s : PipelineState) : NodeResult :=
  guarded "comparator" (do
    let (output, critic) := Comparator.runComparatorAgent e.services.comparison (comparisonCall e s)
    hardBlockIf critic "comparator"
    return { comparatorOutput := some output })

def decisionNode (s : PipelineState) : NodeResult :=
  guarded "decision" (do
    let comparator ← orRaise s.comparatorOutput
      ⟨.attributeError, "'NoneType' object has no attribute 'overall_ranking'"⟩
    let (output, critic) := Decision.runDecisionAgent e.services.rejection s.evaluationOutputs
      comparator e.input.contractValue
    hardBlockIf critic "decision"
    return { decisionOutput := some output })

def accumKey (vid : VendorId) (attempt : Nat) : String := s!"{vid}@attempt{attempt}"

def notEvaluated (vid : VendorId) : FailedVendor :=
  ⟨vid, "explanation", "no evaluation output available (vendor failed upstream)"⟩

def branchPrompt (s : PipelineState) (decision : DecisionOutput) (b : Branch)
    (evaluation : EvaluationOutput) : NarrativePrompt :=
  let extraction := (s.extractionOutputs.get? b.1).getD (stubExtraction b.1 e.input.orgId)
  narrativePrompt b.1 (isRejected decision b.1) evaluation extraction
    (vendorChunks extraction s.sourceChunks) decision e.input.currency s.explanationCriticFeedback

def explanationUpdate (s : PipelineState) (decision : DecisionOutput) (b : Branch) :
    Update × List NarrativePrompt :=
  match s.evaluationOutputs.get? b.1 with
  | none => ({ failedVendors := [notEvaluated b.1] }, [])
  | some evaluation =>
      let attempt := s.explanationRetryCount + 1
      let prompt := branchPrompt e s decision b evaluation
      match generateVendorNarrative e.settings.synthesis (e.services.narration attempt b) prompt
        (isRejected decision b.1) evaluation decision with
      | .ok narrative =>
          ({ narratives := Dict.ofPairs [(accumKey b.1 attempt, narrative)] }, [prompt])
      | .error exc => ({ failedVendors := [⟨b.1, "explanation", exc.message⟩] }, [prompt])

def splitKey (key : String) : VendorId × Int :=
  match splitFirst "@attempt".toList key.toList with
  | none => (key, 0)
  | some (vid, marker) => (String.ofList vid, (intOf (String.ofList marker)).getD 0)

/-- The narrative of the highest attempt of each vendor, where it is above minus one. -/
def latestPerVendor (narratives : Dict String VendorNarrative) :
    Dict VendorId (Int × VendorNarrative) :=
  narratives.rows.foldl (fun latest p =>
    let (vid, attempt) := splitKey p.1
    if ((latest.get? vid).map Prod.fst).getD (-1) < attempt then latest.set vid (attempt, p.2)
    else latest) ∅

def sortedNarratives (narratives : Dict String VendorNarrative) : List VendorNarrative :=
  ((latestPerVendor narratives).rows.insertionSort (fun p q => p.1 ≤ q.1)).map (fun p => p.2.2)

def failureLimitations (failed : List FailedVendor) : List String :=
  (failed.filter (fun f => f.stage = "explanation")).map (fun f =>
    s!"{f.vendorId}: narrative generation failed ({prefixOf 80 f.error}).")

def explanationFinalise (s : PipelineState) (decision : DecisionOutput) : NodeResult where
  updates := [{
    explanationOutput := some (some (explanationOutput decision (sortedNarratives s.narratives)
      (failureLimitations s.failedVendors))) }]

def explanationMaxRetries : Nat := 2

def claimSample (n : VendorNarrative) (x : UngroundedExample) : String :=
  s!"  - vendor={n.vendorId} ({x.diagnosisHint}): " ++
    s!"claim={quote (prefixOf 100 x.claimText)}, " ++
    s!"quote you cited={quote (prefixOf 120 x.llmGroundingQuote)}"

def proseSample (n : VendorNarrative) (v : ClaimVerification) : String :=
  let reason := prefixOf 120 (if v.reason = "" then "no supporting evidence" else v.reason)
  s!"  - vendor={n.vendorId}: unsupported prose claim " ++
    s!"{quote (prefixOf 100 v.claimText)} ({reason})"

def buildCriticFeedback (output : ExplanationOutput) : String :=
  let narratives := output.vendorNarratives.take 3
  let samples := narratives.flatMap (fun n => (n.ungroundedExamples.take 2).map (claimSample n))
  let prose := narratives.flatMap (fun n =>
    (n.proseVerification.filter (fun v => !v.supported)).map (proseSample n))
  join "\n"
    ([s!"PREVIOUS ATTEMPT FAILED: grounding_completeness={percent output.groundingCompleteness} " ++
        "(threshold is 70%). Fix per the guidance below — do NOT repeat the same mistakes."] ++
      (if samples = [] then [] else "Examples of claims that were rejected:" :: samples) ++
      (if prose = [] then [] else
        ("Narrative PROSE claims that are NOT backed by evidence — remove " ++
          "them or restate only what the source chunks/system facts support:") :: prose.take 6) ++
      ["RULES:\n" ++
        "  • PDF-content claims (vendor proposal text)  → grounded_claims, with verbatim quote.\n" ++
        "  • System metadata (decision rank, scores, MC-* check IDs)  → system_facts, NO quote, NO chunk_id.\n" ++
        "  • The grounding_quote MUST be a copy-paste verbatim substring of one source chunk.\n" ++
        "  • Every sentence in the narrative prose must be supported by the evidence above.\n"])

def explanationVerdict (s : PipelineState) (output : ExplanationOutput) : CriticOutput :=
  criticAfterExplanation e.settings.synthesis output s.sourceChunks

def exhaustedMessage (s : PipelineState) (critic : CriticOutput) : String :=
  s!"[CRITIC BLOCK after {s.explanationRetryCount + 1} attempts] " ++
    prefixOf 240 (join "; " (hardDescriptions critic.flags))

/-- The controller of the explanation stage. Neither of the two ways in which it blocks the
run writes a status to the run's row. -/
def explanationCritic (s : PipelineState) : NodeResult :=
  match s.explanationOutput with
  | none =>
      { updates := [{ block := some ("explanation", "explanation_finalise produced no output") }] }
  | some output =>
      let critic := explanationVerdict e s output
      if critic.overallVerdict ≠ .blocked then
        { updates := [{ explanationRetryRequested := some false }] }
      else if explanationMaxRetries ≤ s.explanationRetryCount then
        { updates := [{
            block := some ("explanation", exhaustedMessage s critic)
            explanationRetryRequested := some false }] }
      else
        { updates := [{
            explanationRetryCount := some (s.explanationRetryCount + 1)
            explanationCriticFeedback := some (buildCriticFeedback output)
            explanationOutput := some none
            explanationRetryRequested := some true }] }

end RfpPlatform.PipelineNodes
