import RfpPlatform.NodeWrites

namespace RfpPlatform.VendorConservation

open CriticRetry ExceptRules NodeUpdates NodeWrites PipelineGraph PipelineNodes RunRequests RunState
open TransitionRuns VendorBranches

variable {e : Execution} {c c' : Config} {s : PipelineState} {order : List Branch} {r : NodeResult}
  {n m : Node} {u : Update} {us : List Update} {l : Label} {ls : List Label} {v : VendorId}
  {b : Branch}

/-- The stages at which a vendor can fail before the comparator. -/
def vendorStages : List String := ["retrieval", "extraction", "evaluation"]

def Failed (failed : List FailedVendor) (v : VendorId) : Prop :=
  ∃ f ∈ failed, f.vendorId = v ∧ f.stage ∈ vendorStages

def decidedVendors (d : DecisionOutput) : List VendorId :=
  d.shortlistedVendors.map ShortlistedVendor.vendorId ++
    d.rejectedVendors.map RejectionNotice.vendorId

theorem not_failed_nil : ¬ Failed [] v := fun ⟨_, hf, _⟩ => nomatch hf

theorem failed_append {left right : List FailedVendor} :
    Failed (left ++ right) v ↔ Failed left v ∨ Failed right v := by
  simp only [Failed, List.mem_append, or_and_right, exists_or]

section Outcomes

/-- What a branch of a fan-out comes to: it serves its vendor, that the stage before has
served, or it records a failure of it, or it gives nothing back. -/
inductive Outcome (reached : List VendorId) (v : VendorId) :
    List VendorId → List FailedVendor → Prop
  | served (hreached : v ∈ reached) : Outcome reached v [v] []
  | failed (f : FailedVendor) (hvendor : f.vendorId = v) (hstage : f.stage ∈ vendorStages) :
      Outcome reached v [] [f]
  | skipped : Outcome reached v [] []

theorem retrieval_outcome (hb : b ∈ branches e.input) :
    Outcome e.input.vendorIds b.1 (retrievalUpdate e b).retrievalOutputs.keys
      (retrievalUpdate e b).failedVendors := by
  unfold retrievalUpdate
  split
  · rename_i entry hentry
    obtain ⟨hvendor, hstage⟩ := retrievalPerVendor_failed hentry
    exact .failed entry hvendor (by simp [hstage, vendorStages])
  · exact .served (mem_branches.mpr ⟨b, hb, rfl⟩)

theorem extraction_outcome (h : extractionUpdate e s b = .ok u) :
    Outcome s.retrievalOutputs.keys b.1 u.extractionOutputs.keys u.failedVendors := by
  obtain ⟨cached, _, hpure⟩ := bind_eq_ok.mp h
  rw [← pure_eq_ok.mp hpure]
  unfold extractionBranch extractionPerVendor
  split
  · exact .skipped
  · split
    · exact .failed _ rfl (by simp [vendorStages])
    · rename_i retrieval hretrieval
      simp only [extractionUpdateOf]
      split
      · rename_i entry hentry
        obtain ⟨hvendor, hstage⟩ := attemptFrom_failed hentry
        exact .failed entry hvendor (by simp [hstage, vendorStages])
      · exact .served (Dict.mem_keys.mpr ⟨retrieval, hretrieval⟩)

theorem evaluation_outcome :
    Outcome s.extractionOutputs.keys b.1 (evaluationUpdate e s b).evaluationOutputs.keys
      (evaluationUpdate e s b).failedVendors := by
  unfold evaluationUpdate
  split
  · exact .failed _ rfl (by simp [notExtracted, vendorStages])
  · rename_i extraction hextraction
    simp only
    split
    · rename_i entry hentry
      obtain ⟨hvendor, hstage⟩ := attemptFrom_failed hentry
      exact .failed entry hvendor (by simp [hstage, vendorStages])
    · exact .served (Dict.mem_keys.mpr ⟨extraction, hextraction⟩)

/-- An evaluation branch never gives nothing back. -/
theorem evaluation_placed : b.1 ∈ (evaluationUpdate e s b).evaluationOutputs.keys ∨
    Failed (evaluationUpdate e s b).failedVendors b.1 := by
  unfold evaluationUpdate
  split
  · exact Or.inr ⟨_, List.mem_singleton_self _, rfl, by simp [notExtracted, vendorStages]⟩
  · simp only
    split
    · rename_i entry hentry
      obtain ⟨hvendor, hstage⟩ := attemptFrom_failed hentry
      exact Or.inr ⟨entry, List.mem_singleton_self _, hvendor, by simp [hstage, vendorStages]⟩
    · exact Or.inl (List.mem_singleton_self _)

end Outcomes

section FanOut

variable {reached : List VendorId} {keys : Update → List VendorId} {R : Branch → Update → Prop}
  {failed : List FailedVendor}

/-- A vendor that a fan-out serves has not failed in it: it has one branch, and that branch
records no failure. -/
theorem fanOut_kept (hnodup : e.input.vendorIds.Nodup)
    (hfun : ∀ b u u', R b u → R b u' → u = u')
    (hout : ∀ b u, R b u → Outcome reached b.1 (keys u) u.failedVendors)
    (hus : ∀ u ∈ us, ∃ b ∈ branches e.input, R b u) (hkept : ∀ v ∈ reached, ¬ Failed failed v)
    (hv : ∃ u ∈ us, v ∈ keys u) : ¬ Failed (failed ++ us.flatMap Update.failedVendors) v := by
  obtain ⟨u, hu, hvu⟩ := hv
  obtain ⟨b, hb, hbu⟩ := hus u hu
  have hserved : v = b.1 ∧ v ∈ reached ∧ u.failedVendors = [] := by
    have houtcome := hout b u hbu
    generalize keys u = ks at hvu houtcome
    generalize u.failedVendors = fs at houtcome
    cases houtcome with
    | served hreached =>
        obtain rfl := List.mem_singleton.mp hvu
        exact ⟨rfl, hreached, rfl⟩
    | failed | skipped => exact nomatch hvu
  obtain ⟨rfl, hreached, hnone⟩ := hserved
  rw [failed_append]
  rintro (hfailed | ⟨f, hf, hvendor, _⟩)
  · exact hkept b.1 hreached hfailed
  · obtain ⟨w, hw, hfw⟩ := List.mem_flatMap.mp hf
    obtain ⟨a, ha, haw⟩ := hus w hw
    have hname : f.vendorId = a.1 := by
      have houtcome := hout a w haw
      generalize keys w = ks at houtcome
      generalize w.failedVendors = fs at hfw houtcome
      cases houtcome with
      | failed g hg _ => rw [List.mem_singleton.mp hfw, hg]
      | served | skipped => exact nomatch hfw
    obtain rfl := branch_unique hnodup hb ha (hvendor.symm.trans hname)
    obtain rfl := hfun b u w hbu haw
    exact nomatch hnone ▸ hfw

end FanOut

section Invariant

/-- The stages of the graph, from the fan-out of each to that of the next. -/
inductive Stage
  | retrieval | extraction | evaluation | result
  deriving DecidableEq

def stageOf : Node → Stage
  | .planner | .ingestion | .retrievalStart | .retrievalPerVendor => .retrieval
  | .retrievalDone | .extractionStart | .extractionPerVendor => .extraction
  | .extractionDone | .evaluationStart | .evaluationPerVendor => .evaluation
  | _ => .result

def stageAfter : Node → Stage
  | .retrievalPerVendor => .extraction
  | .extractionPerVendor => .evaluation
  | .evaluationPerVendor => .result
  | n => stageOf n

/-- The vendors that the stages before have served. -/
def reaching (e : Execution) (s : PipelineState) : Stage → List VendorId
  | .retrieval => e.input.vendorIds
  | .extraction => s.retrievalOutputs.keys
  | .evaluation => s.extractionOutputs.keys
  | .result => s.evaluationOutputs.keys

structure Balanced (e : Execution) (s : PipelineState) (g : Stage) : Prop where
  kept : ∀ v ∈ reaching e s g, ¬ Failed s.failedVendors v
  retrievalAhead : g = .retrieval → s.retrievalOutputs = ∅
  extractionAhead : g = .retrieval ∨ g = .extraction → s.extractionOutputs = ∅
  evaluationAhead : g ≠ .result → s.evaluationOutputs = ∅
  placed : g = .result → ∀ v ∈ e.input.vendorIds,
    v ∈ s.evaluationOutputs.keys ∨ Failed s.failedVendors v
  decided : ∀ d, s.decisionOutput = some d →
    g = .result ∧ (decidedVendors d).Perm s.evaluationOutputs.keys

theorem stage_route (h : route e s n = .at m) : stageOf m = stageAfter n := by
  rw [route_at h]
  cases n <;> rfl

/-- A decision is written by its node, from the evaluations that it reads. -/
theorem nodeUpdate_decided {d : DecisionOutput} (h : NodeUpdate e s order n u)
    (hd : u.decisionOutput = some d) :
    n = .decision ∧ (decidedVendors d).Perm s.evaluationOutputs.keys := by
  cases h with
  | decision comparator hcomparator =>
      cases hd
      exact ⟨rfl, Decision.decided_perm⟩
  | retrieval b hb => exact nomatch branchOnly_retrieval.decision.symm.trans hd
  | extraction b u hb hu => exact nomatch (branchOnly_extraction hu).decision.symm.trans hd
  | evaluation b hb => exact nomatch branchOnly_evaluation.decision.symm.trans hd
  | explanation b decision hb hdecision =>
      exact nomatch branchOnly_explanation.decision.symm.trans hd
  | critic u hu => exact nomatch (mem_explanationCritic hu).2.1.symm.trans hd
  | quiet | blocked | comparator | finalise => exact nomatch hd

/-- The fan-outs before the comparator. -/
def vendorFanOuts : List Node := [.retrievalPerVendor, .extractionPerVendor, .evaluationPerVendor]

/-- An update of a node that is none of the fan-outs before the comparator. -/
structure Settled (u : Update) : Prop where
  retrievalOutputs : u.retrievalOutputs = ∅
  extractionOutputs : u.extractionOutputs = ∅
  evaluationOutputs : u.evaluationOutputs = ∅
  failed : ∀ v, ¬ Failed u.failedVendors v

theorem explanationUpdate_unfailed {decision : DecisionOutput} :
    ¬ Failed (explanationUpdate e s decision b).1.failedVendors v := by
  rintro ⟨f, hf, _, hstage⟩
  unfold explanationUpdate at hf
  split at hf
  · rw [List.mem_singleton.mp hf] at hstage
    simp [notEvaluated, vendorStages] at hstage
  · simp only at hf
    split at hf
    · exact nomatch hf
    · rw [List.mem_singleton.mp hf] at hstage
      simp [vendorStages] at hstage

theorem nodeUpdate_settled (h : NodeUpdate e s order n u) (hn : n ∉ vendorFanOuts) : Settled u := by
  cases h with
  | retrieval | extraction | evaluation => exact absurd (by decide) hn
  | explanation b decision hb hd =>
      obtain ⟨hretrieval, hextraction, hevaluation, _⟩ := explanationUpdate_quiet (e := e) (s := s)
        (b := b)
      exact ⟨hretrieval, hextraction, hevaluation, fun _ => explanationUpdate_unfailed⟩
  | critic u hu =>
      have hserial := serial_explanationCritic hu
      refine ⟨hserial.retrievalOutputs, hserial.extractionOutputs, hserial.evaluationOutputs, ?_⟩
      rw [(mem_explanationCritic hu).1]
      exact fun _ => not_failed_nil
  | quiet | blocked | comparator | decision | finalise =>
      exact ⟨rfl, rfl, rfl, fun _ => not_failed_nil⟩

end Invariant

section Steps

theorem dict_frame {α : Type*} (get : PipelineState → Dict VendorId α)
    (upd : Update → Dict VendorId α) (hget : ∀ s u, get (s.apply u) = (get s).update (upd u))
    (h : ∀ u ∈ us, upd u = ∅) : get (s.applyAll us) = get s := by
  refine applyAll_frame get (fun u hu s => ?_) s
  rw [hget, h u hu]
  rfl

theorem served_applyAll {α : Type*} (get : PipelineState → Dict VendorId α)
    (upd : Update → Dict VendorId α) (hget : ∀ s u, get (s.apply u) = (get s).update (upd u))
    (hempty : get s = ∅) (hv : v ∈ (get (s.applyAll us)).keys) : ∃ u ∈ us, v ∈ (upd u).keys := by
  rcases (mem_keys_applyAll hget).mp hv with hold | hnew
  · exact nomatch hempty ▸ hold
  · exact hnew

theorem balanced_decided {d : DecisionOutput} (hr : superstep e s order n = .ok r)
    (hs : Balanced e s (stageOf n)) (hd : (s.applyAll r.updates).decisionOutput = some d) :
    stageOf n = .result ∧ (decidedVendors d).Perm s.evaluationOutputs.keys := by
  rcases decisionOutput_applyAll hd with hold | ⟨u, hu, hdu⟩
  · exact hs.decided d hold
  · obtain ⟨rfl, hperm⟩ := nodeUpdate_decided (superstep_nodeUpdate hr hu) hdu
    exact ⟨rfl, hperm⟩

section FanOuts

variable (hnodup : e.input.vendorIds.Nodup) (hperm : order.Perm (branches e.input))
include hnodup hperm

theorem balanced_retrieval (hr : superstep e s order .retrievalPerVendor = .ok r)
    (hs : Balanced e s .retrieval) : Balanced e (s.applyAll r.updates) .extraction := by
  have hus : ∀ u ∈ r.updates, ∃ b ∈ branches e.input, b ∈ branches e.input ∧
      retrievalUpdate e b = u := by
    cases Except.ok.inj hr
    intro u hu
    obtain ⟨b, hb, rfl⟩ := List.mem_map.mp hu
    exact ⟨b, hperm.mem_iff.mp hb, hperm.mem_iff.mp hb, rfl⟩
  have hquiet : ∀ u ∈ r.updates, u.extractionOutputs = ∅ ∧ u.evaluationOutputs = ∅ := by
    intro u hu
    obtain ⟨b, _, _, rfl⟩ := hus u hu
    exact ⟨retrievalUpdate_quiet.1, retrievalUpdate_quiet.2.1⟩
  refine ⟨fun v hv => ?_, (fun h => nomatch h), fun _ => ?_, fun _ => ?_, (fun h => nomatch h),
    fun d hd => nomatch (balanced_decided hr hs hd).1⟩
  · rw [failedVendors_applyAll]
    refine fanOut_kept hnodup (R := fun b u => b ∈ branches e.input ∧ retrievalUpdate e b = u)
      (fun b u u' h h' => h.2.symm.trans h'.2) ?_ hus hs.kept
      (served_applyAll PipelineState.retrievalOutputs Update.retrievalOutputs (fun _ _ => rfl)
        (hs.retrievalAhead rfl) hv)
    rintro b _ ⟨hb, rfl⟩
    exact retrieval_outcome hb
  · rw [dict_frame PipelineState.extractionOutputs Update.extractionOutputs (fun _ _ => rfl)
      fun u hu => (hquiet u hu).1]
    exact hs.extractionAhead (Or.inl rfl)
  · rw [dict_frame PipelineState.evaluationOutputs Update.evaluationOutputs (fun _ _ => rfl)
      fun u hu => (hquiet u hu).2]
    exact hs.evaluationAhead (fun h => nomatch h)

theorem balanced_extraction (hr : superstep e s order .extractionPerVendor = .ok r)
    (hs : Balanced e s .extraction) : Balanced e (s.applyAll r.updates) .evaluation := by
  have hus : ∀ u ∈ r.updates, ∃ b ∈ branches e.input, extractionUpdate e s b = .ok u := by
    obtain ⟨us, hmap, hpure⟩ := bind_eq_ok.mp hr
    rw [← pure_eq_ok.mp hpure]
    intro u hu
    obtain ⟨b, hb, hbu⟩ := (mem_of_mapM_eq_ok hmap).mp hu
    exact ⟨b, hperm.mem_iff.mp hb, hbu⟩
  refine ⟨fun v hv => ?_, (fun h => nomatch h), (fun h => nomatch h), fun _ => ?_, (fun h => nomatch h),
    fun d hd => nomatch (balanced_decided hr hs hd).1⟩
  · rw [failedVendors_applyAll]
    exact fanOut_kept hnodup (fun b u u' h h' => Except.ok.inj (h.symm.trans h'))
      (fun b u h => extraction_outcome h) hus hs.kept
      (served_applyAll PipelineState.extractionOutputs Update.extractionOutputs (fun _ _ => rfl)
        (hs.extractionAhead (Or.inr rfl)) hv)
  · have hquiet : ∀ u ∈ r.updates, u.evaluationOutputs = ∅ := by
      intro u hu
      obtain ⟨b, _, hbu⟩ := hus u hu
      exact (extractionUpdate_quiet hbu).2.1
    rw [dict_frame PipelineState.evaluationOutputs Update.evaluationOutputs (fun _ _ => rfl)
      hquiet]
    exact hs.evaluationAhead (fun h => nomatch h)

theorem balanced_evaluation (hr : superstep e s order .evaluationPerVendor = .ok r)
    (hs : Balanced e s .evaluation) : Balanced e (s.applyAll r.updates) .result := by
  have hr' : r.updates = order.map (evaluationUpdate e s) := by
    cases Except.ok.inj hr
    rfl
  have hus : ∀ u ∈ r.updates, ∃ b ∈ branches e.input, evaluationUpdate e s b = u := by
    intro u hu
    rw [hr'] at hu
    obtain ⟨b, hb, rfl⟩ := List.mem_map.mp hu
    exact ⟨b, hperm.mem_iff.mp hb, rfl⟩
  refine ⟨fun v hv => ?_, (fun h => nomatch h), (fun h => nomatch h), fun h => absurd rfl h,
    fun _ v hv => ?_, fun d hd => nomatch (balanced_decided hr hs hd).1⟩
  · rw [failedVendors_applyAll]
    refine fanOut_kept hnodup (R := fun b u => evaluationUpdate e s b = u)
      (fun b u u' h h' => h.symm.trans h') ?_ hus hs.kept
      (served_applyAll PipelineState.evaluationOutputs Update.evaluationOutputs (fun _ _ => rfl)
        (hs.evaluationAhead (fun h => nomatch h)) hv)
    rintro b _ rfl
    exact evaluation_outcome
  · obtain ⟨b, hb, rfl⟩ := mem_branches.mp hv
    have hu : evaluationUpdate e s b ∈ r.updates := by
      rw [hr']
      exact List.mem_map_of_mem (hperm.mem_iff.mpr hb)
    rcases evaluation_placed (e := e) (s := s) (b := b) with hserved | ⟨f, hf, hfailed⟩
    · have hkeys : b.1 ∈ (s.applyAll r.updates).evaluationOutputs.keys ↔
          b.1 ∈ s.evaluationOutputs.keys ∨ ∃ u ∈ r.updates, b.1 ∈ u.evaluationOutputs.keys :=
        mem_keys_applyAll fun _ _ => rfl
      exact Or.inl (hkeys.mpr (Or.inr ⟨_, hu, hserved⟩))
    · refine Or.inr ?_
      rw [failedVendors_applyAll, failed_append]
      exact Or.inr ⟨f, List.mem_flatMap.mpr ⟨_, hu, hf⟩, hfailed⟩

end FanOuts

/-- A node that is none of the fan-outs before the comparator moves no vendor. -/
theorem balanced_settled (hn : n ∉ vendorFanOuts) (hr : superstep e s order n = .ok r)
    (hs : Balanced e s (stageOf n)) : Balanced e (s.applyAll r.updates) (stageOf n) := by
  have hsettled : ∀ u ∈ r.updates, Settled u := fun u hu =>
    nodeUpdate_settled (superstep_nodeUpdate hr hu) hn
  have hretrieval : (s.applyAll r.updates).retrievalOutputs = s.retrievalOutputs :=
    dict_frame PipelineState.retrievalOutputs Update.retrievalOutputs (fun _ _ => rfl)
      fun u hu => (hsettled u hu).retrievalOutputs
  have hextraction : (s.applyAll r.updates).extractionOutputs = s.extractionOutputs :=
    dict_frame PipelineState.extractionOutputs Update.extractionOutputs (fun _ _ => rfl)
      fun u hu => (hsettled u hu).extractionOutputs
  have hevaluation : (s.applyAll r.updates).evaluationOutputs = s.evaluationOutputs :=
    dict_frame PipelineState.evaluationOutputs Update.evaluationOutputs (fun _ _ => rfl)
      fun u hu => (hsettled u hu).evaluationOutputs
  have hfailed : ∀ v, Failed (s.applyAll r.updates).failedVendors v ↔ Failed s.failedVendors v := by
    intro v
    rw [failedVendors_applyAll, failed_append]
    refine or_iff_left ?_
    rintro ⟨f, hf, hv⟩
    obtain ⟨u, hu, hfu⟩ := List.mem_flatMap.mp hf
    exact (hsettled u hu).failed v ⟨f, hfu, hv⟩
  have hreaching : reaching e (s.applyAll r.updates) (stageOf n) = reaching e s (stageOf n) := by
    cases stageOf n
    · rfl
    · exact congrArg Dict.keys hretrieval
    · exact congrArg Dict.keys hextraction
    · exact congrArg Dict.keys hevaluation
  refine ⟨fun v hv => ?_, fun h => ?_, fun h => ?_, fun h => ?_, fun h v hv => ?_, fun d hd => ?_⟩
  · rw [hfailed]
    exact hs.kept v (hreaching ▸ hv)
  · rw [hretrieval]
    exact hs.retrievalAhead h
  · rw [hextraction]
    exact hs.extractionAhead h
  · rw [hevaluation]
    exact hs.evaluationAhead h
  · rw [hevaluation, hfailed]
    exact hs.placed h v hv
  · rw [hevaluation]
    exact balanced_decided hr hs hd

/-- The state of a configuration is balanced at a stage, which is that of the node it is at. -/
def Conserving (e : Execution) (c : Config) : Prop :=
  ∃ g, Balanced e c.state g ∧ ∀ n, c.position = .at n → stageOf n = g

theorem conserving_start (row : Row) : Conserving e (Config.start row) := by
  refine ⟨.retrieval, ⟨fun _ _ => not_failed_nil, fun _ => rfl, fun _ => rfl, fun _ => rfl,
    (fun h => nomatch h), (fun _ hd => nomatch hd)⟩, ?_⟩
  intro n hn
  cases hn
  rfl

theorem balanced_advance (hnodup : e.input.vendorIds.Nodup)
    (hperm : order.Perm (branches e.input)) (hr : superstep e s order n = .ok r)
    (hs : Balanced e s (stageOf n)) : Balanced e (s.applyAll r.updates) (stageAfter n) := by
  by_cases hn : n ∈ vendorFanOuts
  · simp only [vendorFanOuts, List.mem_cons, List.not_mem_nil, or_false] at hn
    rcases hn with rfl | rfl | rfl
    · exact balanced_retrieval hnodup hperm hr hs
    · exact balanced_extraction hnodup hperm hr hs
    · exact balanced_evaluation hnodup hperm hr hs
  · have hstage : stageAfter n = stageOf n := by
      cases n <;> first | rfl | exact absurd (by decide) hn
    rw [hstage]
    exact balanced_settled hn hr hs

theorem conserving_step (hnodup : e.input.vendorIds.Nodup) (hc : Conserving e c)
    (h : Step e c l c') : Conserving e c' := by
  obtain ⟨g, hs, hstage⟩ := hc
  cases h with
  | node n order hposition horder =>
      obtain rfl := hstage n hposition
      unfold stepNode
      split
      · rename_i r hr
        exact ⟨stageAfter n, balanced_advance hnodup horder hr hs, fun m hm => stage_route hm⟩
      · exact ⟨stageOf n, hs, fun _ hm => nomatch hm⟩
  | finish hposition =>
      refine ⟨g, ?_, fun n hn => ?_⟩
      · rw [finish_state]
        exact hs
      · exact nomatch (finish_position c).symm.trans hn

theorem served_run (h : Run (Step e) c ls c') (hv : v ∈ c.state.evaluationOutputs.keys) :
    v ∈ c'.state.evaluationOutputs.keys := by
  refine run_superstep (I := fun s => v ∈ s.evaluationOutputs.keys)
    (fun s _ _ r _ _ hs => ?_) h hv
  rw [mem_keys_applyAll fun _ _ => rfl]
  exact Or.inl hs

theorem failed_run (h : Run (Step e) c ls c') (hv : Failed c.state.failedVendors v) :
    Failed c'.state.failedVendors v := by
  refine run_superstep (I := fun s => Failed s.failedVendors v) (fun s _ _ r _ _ hs => ?_) h hv
  rw [failedVendors_applyAll, failed_append]
  exact Or.inl hs

end Steps

/-- When the comparator starts each vendor has been evaluated or has failed, and not both. The
decision places each of the first once among the shortlisted and the rejected, and none of the
second. -/
theorem vendors_conserved (e : Execution) (row : Row) (ls : List Label) (c : Config)
    (hnodup : e.input.vendorIds.Nodup) (h : Run (Step e) (Config.start row) ls c)
    (hposition : c.position = .at .comparator) (v : VendorId) (hv : v ∈ e.input.vendorIds) :
    Xor (v ∈ c.state.evaluationOutputs.keys) (Failed c.state.failedVendors v) ∧
      ∀ ls' c' d, Run (Step e) c ls' c' → c'.state.decisionOutput = some d →
        (v ∈ c.state.evaluationOutputs.keys → (decidedVendors d).count v = 1) ∧
          (Failed c.state.failedVendors v → v ∉ decidedVendors d) := by
  have hconserving : Preserved (Step e) (Conserving e) := fun _ _ _ hc hstep =>
    conserving_step hnodup hc hstep
  have hc := h.invariant hconserving (conserving_start row)
  refine ⟨?_, fun ls' c' d hrun hd => ?_⟩
  · obtain ⟨g, hs, hstage⟩ := hc
    obtain rfl := hstage .comparator hposition
    rcases hs.placed rfl v hv with hserved | hfailed
    · exact Or.inl ⟨hserved, hs.kept v hserved⟩
    · exact Or.inr ⟨hfailed, fun hserved => hs.kept v hserved hfailed⟩
  · obtain ⟨g, hs, _⟩ := hrun.invariant hconserving hc
    obtain ⟨rfl, hperm⟩ := hs.decided d hd
    refine ⟨fun hserved => ?_, fun hfailed hdecided => ?_⟩
    · rw [hperm.count_eq]
      exact List.count_eq_one_of_mem c'.state.evaluationOutputs.keys_nodup
        (served_run hrun hserved)
    · exact hs.kept v (hperm.mem_iff.mp hdecided) (failed_run hrun hfailed)

def oneCached : Execution :=
  { quietExecution ["v1", "v2"] with
    services := { quietServices with factsExtracted := fun b => .ok (decide (b.1 = "v2")) } }

theorem vendors_conserved_cached : ∃ ls c ls' c' d,
    Run (Step oneCached) (Config.start runningRow) ls c ∧ c.position = .at .comparator ∧
      Run (Step oneCached) c ls' c' ∧ c'.state.decisionOutput = some d ∧
        (decidedVendors d).count "v1" = 1 ∧ "v2" ∉ decidedVendors d := by
  obtain ⟨ls, hrun⟩ := drive_run oneCached 11 (Config.start runningRow)
  obtain ⟨ls', hrun'⟩ := drive_run oneCached 2 (drive oneCached 11 (Config.start runningRow))
  have hposition : (drive oneCached 11 (Config.start runningRow)).position = .at .comparator := by
    decide +kernel
  have hserved : "v1" ∈ (drive oneCached 11
      (Config.start runningRow)).state.evaluationOutputs.keys := by decide +kernel
  have hunserved : "v2" ∉ (drive oneCached 11
      (Config.start runningRow)).state.evaluationOutputs.keys := by decide +kernel
  have hdecided : (drive oneCached 2
      (drive oneCached 11 (Config.start runningRow))).state.decisionOutput.isSome = true := by
    decide +kernel
  obtain ⟨d, hd⟩ := Option.isSome_iff_exists.mp hdecided
  have hnodup : oneCached.input.vendorIds.Nodup := by decide
  have hfirst := vendors_conserved oneCached _ _ _ hnodup hrun hposition "v1" (by decide)
  have hsecond := vendors_conserved oneCached _ _ _ hnodup hrun hposition "v2" (by decide)
  have hfailed := hsecond.1.or.resolve_left hunserved
  exact ⟨ls, _, ls', _, d, hrun, hposition, hrun', hd, (hfirst.2 _ _ d hrun' hd).1 hserved,
    (hsecond.2 _ _ d hrun' hd).2 hfailed⟩

end RfpPlatform.VendorConservation
