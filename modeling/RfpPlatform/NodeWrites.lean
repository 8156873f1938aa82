import RfpPlatform.NodeUpdates

namespace RfpPlatform.NodeWrites

open CriticRetry ExceptRules Explanation Extraction NodeUpdates PipelineGraph PipelineNodes
open RunRequests RunState TransitionRuns VendorBranches

variable {e : Execution} {s : PipelineState} {order : List Branch} {r : NodeResult} {n : Node}
  {u : Update}

structure Serial (u : Update) : Prop where
  retrievalOutputs : u.retrievalOutputs = ∅
  extractionOutputs : u.extractionOutputs = ∅
  evaluationOutputs : u.evaluationOutputs = ∅
  sourceChunks : u.sourceChunks = ∅
  narratives : u.narratives = ∅

inductive Writes (e : Execution) (s : PipelineState) (order : List Branch) : Node → Update → Prop
  | retrieval (b : Branch) (hb : b ∈ order) :
      Writes e s order .retrievalPerVendor (retrievalUpdate e b)
  | extraction (b : Branch) (u : Update) (hb : b ∈ order) (hu : extractionUpdate e s b = .ok u) :
      Writes e s order .extractionPerVendor u
  | evaluation (b : Branch) (hb : b ∈ order) :
      Writes e s order .evaluationPerVendor (evaluationUpdate e s b)
  | explanation (b : Branch) (decision : DecisionOutput) (hb : b ∈ order)
      (hd : decisionOf s = .ok decision) :
      Writes e s order .explanationPerVendor (explanationUpdate e s decision b).1
  | serial (n : Node) (u : Update) (hu : Serial u) : Writes e s order n u

theorem serial_explanationCritic (hu : u ∈ (explanationCritic e s).updates) : Serial u := by
  simp only [explanationCritic] at hu
  split at hu
  · rw [List.mem_singleton.mp hu]
    exact ⟨rfl, rfl, rfl, rfl, rfl⟩
  · split at hu
    · rw [List.mem_singleton.mp hu]
      exact ⟨rfl, rfl, rfl, rfl, rfl⟩
    · split at hu
      · rw [List.mem_singleton.mp hu]
        exact ⟨rfl, rfl, rfl, rfl, rfl⟩
      · rw [List.mem_singleton.mp hu]
        exact ⟨rfl, rfl, rfl, rfl, rfl⟩

theorem superstep_writes (h : superstep e s order n = .ok r) (hu : u ∈ r.updates) :
    Writes e s order n u := by
  have hupdate := superstep_nodeUpdate h hu
  cases hupdate with
  | retrieval b hb => exact .retrieval b hb
  | extraction b u hb hu => exact .extraction b u hb hu
  | evaluation b hb => exact .evaluation b hb
  | explanation b decision hb hd => exact .explanation b decision hb hd
  | critic u hu => exact .serial _ _ (serial_explanationCritic hu)
  | quiet | blocked | comparator | decision | finalise =>
      exact .serial _ _ ⟨rfl, rfl, rfl, rfl, rfl⟩

section Fields

variable {b : Branch} {decision : DecisionOutput}

theorem retrievalUpdate_quiet : (retrievalUpdate e b).extractionOutputs = ∅ ∧
    (retrievalUpdate e b).evaluationOutputs = ∅ ∧ (retrievalUpdate e b).narratives = ∅ := by
  unfold retrievalUpdate
  split
  · exact ⟨rfl, rfl, rfl⟩
  · exact ⟨rfl, rfl, rfl⟩

theorem extractionUpdate_quiet (h : extractionUpdate e s b = .ok u) : u.retrievalOutputs = ∅ ∧
    u.evaluationOutputs = ∅ ∧ u.sourceChunks = ∅ ∧ u.narratives = ∅ := by
  obtain ⟨cached, _, hpure⟩ := bind_eq_ok.mp h
  rw [← pure_eq_ok.mp hpure]
  unfold extractionUpdateOf
  split
  · exact ⟨rfl, rfl, rfl, rfl⟩
  · exact ⟨rfl, rfl, rfl, rfl⟩
  · split
    · exact ⟨rfl, rfl, rfl, rfl⟩
    · exact ⟨rfl, rfl, rfl, rfl⟩

theorem evaluationUpdate_quiet : (evaluationUpdate e s b).retrievalOutputs = ∅ ∧
    (evaluationUpdate e s b).extractionOutputs = ∅ ∧ (evaluationUpdate e s b).sourceChunks = ∅ ∧
      (evaluationUpdate e s b).narratives = ∅ := by
  unfold evaluationUpdate
  split
  · exact ⟨rfl, rfl, rfl, rfl⟩
  · simp only
    split
    · exact ⟨rfl, rfl, rfl, rfl⟩
    · exact ⟨rfl, rfl, rfl, rfl⟩

theorem explanationUpdate_quiet : (explanationUpdate e s decision b).1.retrievalOutputs = ∅ ∧
    (explanationUpdate e s decision b).1.extractionOutputs = ∅ ∧
      (explanationUpdate e s decision b).1.evaluationOutputs = ∅ ∧
        (explanationUpdate e s decision b).1.sourceChunks = ∅ := by
  unfold explanationUpdate
  split
  · exact ⟨rfl, rfl, rfl, rfl⟩
  · simp only
    split
    · exact ⟨rfl, rfl, rfl, rfl⟩
    · exact ⟨rfl, rfl, rfl, rfl⟩

end Fields

section Entries

variable (h : Writes e s order n u)
include h

theorem Writes.retrievalOutputs {p : VendorId × RetrievalOutput} (hp : p ∈ u.retrievalOutputs) :
    ∃ b ∈ order, p ∈ (retrievalUpdate e b).retrievalOutputs := by
  cases h with
  | retrieval b hb => exact ⟨b, hb, hp⟩
  | extraction b u hb hu => exact nomatch (extractionUpdate_quiet hu).1 ▸ hp
  | evaluation b hb => exact nomatch evaluationUpdate_quiet.1 ▸ hp
  | explanation b decision hb hd => exact nomatch explanationUpdate_quiet.1 ▸ hp
  | serial n u hu => exact nomatch hu.retrievalOutputs ▸ hp

theorem Writes.sourceChunks {q : ChunkId × String} (hq : q ∈ u.sourceChunks) :
    ∃ b ∈ order, q ∈ (retrievalUpdate e b).sourceChunks := by
  cases h with
  | retrieval b hb => exact ⟨b, hb, hq⟩
  | extraction b u hb hu => exact nomatch (extractionUpdate_quiet hu).2.2.1 ▸ hq
  | evaluation b hb => exact nomatch evaluationUpdate_quiet.2.2.1 ▸ hq
  | explanation b decision hb hd => exact nomatch explanationUpdate_quiet.2.2.2 ▸ hq
  | serial n u hu => exact nomatch hu.sourceChunks ▸ hq

theorem Writes.extractionOutputs {p : VendorId × ExtractionOutput} (hp : p ∈ u.extractionOutputs) :
    ∃ b ∈ order, extractionUpdate e s b = .ok u := by
  cases h with
  | retrieval b hb => exact nomatch retrievalUpdate_quiet.1 ▸ hp
  | extraction b u hb hu => exact ⟨b, hb, hu⟩
  | evaluation b hb => exact nomatch evaluationUpdate_quiet.2.1 ▸ hp
  | explanation b decision hb hd => exact nomatch explanationUpdate_quiet.2.1 ▸ hp
  | serial n u hu => exact nomatch hu.extractionOutputs ▸ hp

theorem Writes.narratives {p : String × VendorNarrative} (hp : p ∈ u.narratives) :
    n = .explanationPerVendor ∧ ∃ b ∈ order, ∃ decision, u = (explanationUpdate e s decision b).1 := by
  cases h with
  | retrieval b hb => exact nomatch retrievalUpdate_quiet.2.2 ▸ hp
  | extraction b u hb hu => exact nomatch (extractionUpdate_quiet hu).2.2.2 ▸ hp
  | evaluation b hb => exact nomatch evaluationUpdate_quiet.2.2.2 ▸ hp
  | explanation b decision hb hd => exact ⟨rfl, b, hb, decision, rfl⟩
  | serial n u hu => exact nomatch hu.narratives ▸ hp

end Entries

/-- An extraction output that a branch writes is that of its own vendor, of an attempt that
reads the vendor's retrieval output. -/
theorem extractionUpdate_writes {b : Branch} {p : VendorId × ExtractionOutput}
    (h : extractionUpdate e s b = .ok u) (hp : p ∈ u.extractionOutputs) :
    p.1 = b.1 ∧ e.services.factsExtracted b = .ok false ∧
      ∃ retrieval, s.retrievalOutputs.get? b.1 = some retrieval ∧
        ∀ cid ∈ p.2.sourceChunkIds, cid ∈ retrieval.chunks.map RetrievedChunk.chunkId := by
  obtain ⟨cached, hcached, hpure⟩ := bind_eq_ok.mp h
  rw [← pure_eq_ok.mp hpure] at hp
  cases cached with
  | true => exact nomatch hp
  | false =>
      cases hretrieval : s.retrievalOutputs.get? b.1 with
      | none =>
          rw [extractionBranch, hretrieval] at hp
          exact nomatch hp
      | some retrieval =>
          rw [extractionBranch, hretrieval] at hp
          simp only [extractionPerVendor, Bool.false_eq_true, if_false, extractionUpdateOf] at hp
          split at hp
          · exact nomatch hp
          · rename_i output houtput
            rw [List.mem_singleton.mp (Dict.mem_of_mem_ofPairs hp)]
            obtain ⟨k, feedback, critic, hattempt, _⟩ := runWithCriticRetry_accepts houtput
            exact ⟨rfl, hcached, retrieval, rfl, (runExtractionAgent_sources hattempt).2⟩

end RfpPlatform.NodeWrites
