import RfpPlatform.NodeWrites

namespace RfpPlatform.ShortCircuit

open CriticRetry ExceptRules Extraction NodeWrites PipelineGraph PipelineNodes RunRequests RunState
open TransitionRuns VendorBranches

variable {e : Execution} {c c' : Config} {s : PipelineState} {order : List Branch} {r : NodeResult}
  {n : Node} {l : Label} {ls : List Label} {v : VendorId} {b : Branch}

def Cached (e : Execution) (v : VendorId) : Prop :=
  ∀ b ∈ branches e.input, b.1 = v → e.services.factsExtracted b = .ok true

def evaluatedOn (e : Execution) (s : PipelineState) (b : Branch) (extraction : ExtractionOutput) :
    Update :=
  evaluationUpdate e { s with extractionOutputs := s.extractionOutputs.set b.1 extraction } b

/-- The vendor goes through its evaluation as one that was extracted in this run, and is not
recorded as one that was not. -/
structure Served (e : Execution) (s : PipelineState) (b : Branch) : Prop where
  evaluated : ∃ extraction, evaluationUpdate e s b = evaluatedOn e s b extraction
  unrecorded : evaluationUpdate e s b ≠ { failedVendors := [notExtracted b.1] }

theorem metricUpdate_ne_empty {agent : String} {m : Metric} :
    metricUpdate agent v m ≠ ∅ := fun h => nomatch congrArg KeyedTable.rows h

theorem evaluationUpdate_metrics {extraction : ExtractionOutput}
    (h : s.extractionOutputs.get? b.1 = some extraction) :
    (evaluationUpdate e s b).criticMetrics ≠ ∅ := by
  unfold evaluationUpdate
  rw [h]
  simp only
  split
  · exact metricUpdate_ne_empty
  · exact metricUpdate_ne_empty

theorem served_iff : Served e s b ↔ b.1 ∈ s.extractionOutputs.keys := by
  constructor
  · intro h
    by_contra hnone
    refine h.unrecorded ?_
    rw [evaluationUpdate, Dict.get?_eq_none.mpr hnone]
  · intro h
    obtain ⟨extraction, hextraction⟩ := Dict.mem_keys.mp h
    refine ⟨⟨extraction, ?_⟩, fun hrecorded => ?_⟩
    · have hset : (s.extractionOutputs.set b.1 extraction).get? b.1 = some extraction :=
        Dict.get?_set_self
      rw [evaluatedOn, evaluationUpdate, evaluationUpdate, hextraction, hset]
    · exact evaluationUpdate_metrics hextraction (congrArg Update.criticMetrics hrecorded)

def ExtractedHere (e : Execution) (s : PipelineState) : Prop :=
  ∀ v ∈ s.extractionOutputs.keys, ∃ b ∈ branches e.input, b.1 = v ∧
    e.services.factsExtracted b = .ok false

theorem extractedHere_applyAll {us : List Update} (hs : ExtractedHere e s)
    (hbranches : ∀ b ∈ order, b ∈ branches e.input) (hw : ∀ u ∈ us, Writes e s order n u) :
    ExtractedHere e (s.applyAll us) := by
  intro v hv
  have hkeys : v ∈ (s.applyAll us).extractionOutputs.keys ↔
      v ∈ s.extractionOutputs.keys ∨ ∃ u ∈ us, v ∈ u.extractionOutputs.keys :=
    mem_keys_applyAll (fun _ _ => rfl)
  rcases hkeys.mp hv with hold | ⟨u, hu, hvu⟩
  · exact hs v hold
  · obtain ⟨extraction, hextraction⟩ := Dict.mem_keys.mp hvu
    have hmem := Dict.get?_eq_some.mp hextraction
    obtain ⟨b, hb, hub⟩ := (hw u hu).extractionOutputs hmem
    obtain ⟨hvb, hfresh, _⟩ := extractionUpdate_writes hub hmem
    exact ⟨b, hbranches b hb, hvb.symm, hfresh⟩

theorem reachable_extractedHere {row : Row} (h : Run (Step e) (Config.start row) ls c) :
    ExtractedHere e c.state := by
  refine run_superstep (fun s order n r hperm hr hs => ?_) h (fun _ hv => nomatch hv)
  exact extractedHere_applyAll hs (fun b hb => hperm.mem_iff.mp hb)
    (fun u hu => superstep_writes hr hu)

theorem cached_not_extracted (hs : ExtractedHere e s) (h : Cached e v) :
    v ∉ s.extractionOutputs.keys := by
  intro hv
  obtain ⟨b, hb, hvb, hfresh⟩ := hs v hv
  cases (h b hb hvb).symm.trans hfresh

/-- In every state that a run reaches, the vendors with stored facts are served as the
extracted ones exactly when there are none. -/
theorem cached_served_iff {row : Row} (h : Run (Step e) (Config.start row) ls c) :
    (∀ b ∈ branches e.input, Cached e b.1 → Served e c.state b) ↔
      ∀ v ∈ e.input.vendorIds, ¬ Cached e v := by
  have hs := reachable_extractedHere h
  constructor
  · intro hserved v hv hcached
    obtain ⟨b, hb, rfl⟩ := mem_branches.mp hv
    exact cached_not_extracted hs hcached (served_iff.mp (hserved b hb hcached))
  · intro hnone b hb hcached
    exact absurd hcached (hnone b.1 (mem_branches.mpr ⟨b, hb, rfl⟩))

def factsStored : Execution :=
  { quietExecution ["v1"] with
    services := { quietServices with
      factsExtractedBefore := fun _ => .ok true, factsExtracted := fun _ => .ok true } }

theorem cached_served_iff_stored :
    (∀ b ∈ branches factsStored.input, Cached factsStored b.1 →
      Served factsStored (drive factsStored 9 (Config.start runningRow)).state b) ↔
        ∀ v ∈ factsStored.input.vendorIds, ¬ Cached factsStored v := by
  obtain ⟨ls, hrun⟩ := drive_run factsStored 9 (Config.start runningRow)
  exact cached_served_iff hrun

/-- A vendor whose facts are stored is recorded as one that was not extracted. -/
theorem cached_vendor_fails : ¬ ∀ (e : Execution) (row : Row) (ls : List Label) (c : Config),
    Run (Step e) (Config.start row) ls c → c.position = .at .evaluationPerVendor →
    ∀ b ∈ branches e.input, Cached e b.1 → Served e c.state b := by
  intro hserved
  obtain ⟨ls, hrun⟩ := drive_run factsStored 9 (Config.start runningRow)
  have hposition : (drive factsStored 9 (Config.start runningRow)).position =
      .at .evaluationPerVendor := by decide +kernel
  have hcached : Cached factsStored "v1" := fun _ _ _ => rfl
  have hnone : (drive factsStored 9 (Config.start runningRow)).state.extractionOutputs.keys = [] := by
    decide +kernel
  have h := served_iff.mp (hserved _ _ ls _ hrun hposition ("v1", 0)
    (List.mem_singleton_self _) hcached)
  rw [hnone] at h
  exact nomatch h

end RfpPlatform.ShortCircuit
