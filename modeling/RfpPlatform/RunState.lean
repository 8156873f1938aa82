import RfpPlatform.Comparator
import RfpPlatform.Decision
import RfpPlatform.Evaluation
import RfpPlatform.Explanation
import RfpPlatform.RunRequests
import RfpPlatform.VendorBranches

namespace RfpPlatform.RunState

open CriticRetry Explanation MandatoryChecks RunRequests VendorBranches

/-- The fields that the run loads before the graph starts, and that no node changes. -/
structure RunInput where
  runId : String
  orgId : String
  rfpId : String
  vendorIds : List VendorId
  contractValue : ℚ
  currency : String
  setupId : String
  setup : EvaluationSetup
  rfpFilename : String
  vendorFiles : List (VendorId × String)

structure PipelineSettings where
  rerankDegradedConfidenceFactor : ℚ
  evaluation : EvaluationSettings
  synthesis : SynthesisVerification

abbrev Branch := VendorId × Nat

def branches (input : RunInput) : List Branch := input.vendorIds.zipIdx

theorem mem_branches {input : RunInput} {v : VendorId} :
    v ∈ input.vendorIds ↔ ∃ b ∈ branches input, b.1 = v := by
  rw [branches, ← List.mem_map, List.zipIdx_map_fst]

/-- Where no vendor is given twice, a vendor has one branch. -/
theorem branch_unique {input : RunInput} (hnodup : input.vendorIds.Nodup) {b c : Branch}
    (hb : b ∈ branches input) (hc : c ∈ branches input) (h : b.1 = c.1) : b = c := by
  have hnames : ((branches input).map Prod.fst).Nodup := by
    rwa [branches, List.zipIdx_map_fst]
  exact List.inj_on_of_nodup_map hnames hb hc h

/-- Everything outside the graph's own code that the nodes ask in one execution. The
documents that are ingested are the RFP (`none`) and those of the vendors. -/
structure PipelineServices where
  plan : PlannerOutput × List String
  ingest : Option VendorId → Except Exn (List CriticOutput)
  factsExtractedBefore : VendorId → Except Exn Bool
  factsExtracted : Branch → Except Exn Bool
  retrieve : Branch → Retrieve
  extraction : Branch → ExtractionServices
  evaluation : Branch → Nat → Evaluation.EvaluationServices
  comparison : Nat → LlmReply
  rejection : VendorId → LlmReply
  narration : Nat → Branch → NarrationServices
  explanationSaved : Bool

abbrev Metrics := Dict VendorId (Dict String Metric)

structure PipelineState where
  retrievalOutputs : Dict VendorId RetrievalOutput := ∅
  extractionOutputs : Dict VendorId ExtractionOutput := ∅
  evaluationOutputs : Dict VendorId EvaluationOutput := ∅
  sourceChunks : Dict ChunkId String := ∅
  narratives : Dict String VendorNarrative := ∅
  failedVendors : List FailedVendor := []
  comparatorOutput : Option ComparatorOutput := none
  decisionOutput : Option DecisionOutput := none
  explanationOutput : Option ExplanationOutput := none
  explanationRetryCount : Nat := 0
  explanationCriticFeedback : String := ""
  explanationRetryRequested : Bool := false
  criticMetrics : Metrics := ∅
  blocked : Bool := false
  blockedAgent : String := ""
  errorMessage : String := ""

/-- What a node gives back. An absent field is left as it is. -/
structure Update where
  retrievalOutputs : Dict VendorId RetrievalOutput := ∅
  extractionOutputs : Dict VendorId ExtractionOutput := ∅
  evaluationOutputs : Dict VendorId EvaluationOutput := ∅
  sourceChunks : Dict ChunkId String := ∅
  narratives : Dict String VendorNarrative := ∅
  failedVendors : List FailedVendor := []
  comparatorOutput : Option ComparatorOutput := none
  decisionOutput : Option DecisionOutput := none
  explanationOutput : Option (Option ExplanationOutput) := none
  explanationRetryCount : Option Nat := none
  explanationCriticFeedback : Option String := none
  explanationRetryRequested : Option Bool := none
  criticMetrics : Metrics := ∅
  block : Option (String × String) := none

def mergeCriticMetrics (left right : Metrics) : Metrics :=
  right.rows.foldl (fun out p => out.set p.1 (((out.get? p.1).getD ∅).update p.2)) left

/-- The graph's reducers: dictionaries are updated, lists are concatenated, and the
fields with one writer are overwritten. -/
def PipelineState.apply (s : PipelineState) (u : Update) : PipelineState where
  retrievalOutputs := s.retrievalOutputs.update u.retrievalOutputs
  extractionOutputs := s.extractionOutputs.update u.extractionOutputs
  evaluationOutputs := s.evaluationOutputs.update u.evaluationOutputs
  sourceChunks := s.sourceChunks.update u.sourceChunks
  narratives := s.narratives.update u.narratives
  failedVendors := s.failedVendors ++ u.failedVendors
  comparatorOutput := u.comparatorOutput.orElse (fun _ => s.comparatorOutput)
  decisionOutput := u.decisionOutput.orElse (fun _ => s.decisionOutput)
  explanationOutput := u.explanationOutput.getD s.explanationOutput
  explanationRetryCount := u.explanationRetryCount.getD s.explanationRetryCount
  explanationCriticFeedback := u.explanationCriticFeedback.getD s.explanationCriticFeedback
  explanationRetryRequested := u.explanationRetryRequested.getD s.explanationRetryRequested
  criticMetrics := mergeCriticMetrics s.criticMetrics u.criticMetrics
  blocked := s.blocked || u.block.isSome
  blockedAgent := (u.block.map Prod.fst).getD s.blockedAgent
  errorMessage := (u.block.map Prod.snd).getD s.errorMessage

/-- The updates of the branches of one superstep, in the order in which they are applied. -/
def PipelineState.applyAll (s : PipelineState) (us : List Update) : PipelineState :=
  us.foldl PipelineState.apply s

@[simp] theorem applyAll_nil (s : PipelineState) : s.applyAll [] = s := rfl

@[simp] theorem applyAll_cons (s : PipelineState) (u : Update) (us : List Update) :
    s.applyAll (u :: us) = (s.apply u).applyAll us := rfl

/-- What no update of a superstep changes is as before. -/
theorem applyAll_frame {β : Type*} (get : PipelineState → β) {us : List Update}
    (h : ∀ u ∈ us, ∀ s, get (s.apply u) = get s) (s : PipelineState) :
    get (s.applyAll us) = get s := by
  induction us generalizing s with
  | nil => rfl
  | cons u us ih =>
      obtain ⟨hu, hus⟩ := List.forall_mem_cons.mp h
      rw [applyAll_cons, ih hus, hu]

theorem failedVendors_applyAll {us : List Update} {s : PipelineState} :
    (s.applyAll us).failedVendors = s.failedVendors ++ us.flatMap Update.failedVendors := by
  induction us generalizing s with
  | nil => exact (List.append_nil _).symm
  | cons u us ih =>
      rw [applyAll_cons, ih, List.flatMap_cons, ← List.append_assoc]
      rfl

/-- The decision of a state was there before, or some update of the superstep wrote it. -/
theorem decisionOutput_applyAll {us : List Update} {s : PipelineState} {d : DecisionOutput}
    (h : (s.applyAll us).decisionOutput = some d) :
    s.decisionOutput = some d ∨ ∃ u ∈ us, u.decisionOutput = some d := by
  induction us generalizing s with
  | nil => exact Or.inl h
  | cons u us ih =>
      rcases ih h with hs | ⟨w, hw, hd⟩
      · cases hu : u.decisionOutput with
        | none =>
            refine Or.inl ?_
            simpa only [PipelineState.apply, hu, Option.orElse_none] using hs
        | some d' =>
            refine Or.inr ⟨u, List.mem_cons_self, ?_⟩
            simpa only [PipelineState.apply, hu, Option.orElse_some] using hs
      · exact Or.inr ⟨w, List.mem_cons_of_mem u hw, hd⟩

theorem blocked_applyAll {us : List Update} {s : PipelineState} :
    (s.applyAll us).blocked = true ↔ s.blocked = true ∨ ∃ u ∈ us, u.block.isSome = true := by
  induction us generalizing s with
  | nil => simp
  | cons u us ih =>
      rw [applyAll_cons, ih]
      simp [PipelineState.apply, or_assoc]

section Entries

variable {α β : Type*} [DecidableEq α] {get : PipelineState → Dict α β} {upd : Update → Dict α β}

/-- The keys of a merged dictionary are the old ones and those the branches wrote. -/
theorem mem_keys_applyAll (hget : ∀ s u, get (s.apply u) = (get s).update (upd u))
    {us : List Update} {s : PipelineState} {a : α} :
    a ∈ (get (s.applyAll us)).keys ↔ a ∈ (get s).keys ∨ ∃ u ∈ us, a ∈ (upd u).keys := by
  induction us generalizing s with
  | nil => simp
  | cons u us ih =>
      rw [applyAll_cons, ih, hget, Dict.mem_keys_update, or_assoc]
      simp

end Entries

end RfpPlatform.RunState
