import RfpPlatform.PipelineGraph

namespace RfpPlatform.NodeUpdates

open ExceptRules Explanation PipelineGraph PipelineNodes RunRequests RunState

variable {e : Execution} {s : PipelineState} {order : List Branch} {r : NodeResult} {n : Node}
  {u : Update}

section Fields

variable {b : Branch} {decision : DecisionOutput}

/-- The fields that a branch of a fan-out never writes. -/
structure BranchOnly (u : Update) : Prop where
  retries : u.explanationRetryCount = none
  decision : u.decisionOutput = none
  block : u.block = none

theorem branchOnly_retrieval : BranchOnly (retrievalUpdate e b) := by
  unfold retrievalUpdate
  split <;> exact ⟨rfl, rfl, rfl⟩

theorem branchOnly_extraction (h : extractionUpdate e s b = .ok u) : BranchOnly u := by
  obtain ⟨cached, _, hpure⟩ := bind_eq_ok.mp h
  rw [← pure_eq_ok.mp hpure]
  unfold extractionUpdateOf
  split
  · exact ⟨rfl, rfl, rfl⟩
  · exact ⟨rfl, rfl, rfl⟩
  · split <;> exact ⟨rfl, rfl, rfl⟩

theorem branchOnly_evaluation : BranchOnly (evaluationUpdate e s b) := by
  unfold evaluationUpdate
  split
  · exact ⟨rfl, rfl, rfl⟩
  · simp only
    split <;> exact ⟨rfl, rfl, rfl⟩

theorem branchOnly_explanation : BranchOnly (explanationUpdate e s decision b).1 := by
  unfold explanationUpdate
  split
  · exact ⟨rfl, rfl, rfl⟩
  · simp only
    split <;> exact ⟨rfl, rfl, rfl⟩

theorem mem_explanationCritic (hu : u ∈ (explanationCritic e s).updates) :
    u.failedVendors = [] ∧ u.decisionOutput = none ∧ u.evaluationOutputs = ∅ := by
  simp only [explanationCritic] at hu
  split at hu
  · rw [List.mem_singleton.mp hu]
    exact ⟨rfl, rfl, rfl⟩
  · split at hu
    · rw [List.mem_singleton.mp hu]
      exact ⟨rfl, rfl, rfl⟩
    · split at hu
      · rw [List.mem_singleton.mp hu]
        exact ⟨rfl, rfl, rfl⟩
      · rw [List.mem_singleton.mp hu]
        exact ⟨rfl, rfl, rfl⟩

end Fields

/-- What the updates of a superstep are: nothing, a block, or the output of the node. -/
inductive NodeUpdate (e : Execution) (s : PipelineState) (order : List Branch) :
    Node → Update → Prop
  | quiet (n : Node) : NodeUpdate e s order n {}
  | blocked (n : Node) (agent message : String) :
      NodeUpdate e s order n { block := some (agent, message) }
  | retrieval (b : Branch) (hb : b ∈ order) :
      NodeUpdate e s order .retrievalPerVendor (retrievalUpdate e b)
  | extraction (b : Branch) (u : Update) (hb : b ∈ order) (hu : extractionUpdate e s b = .ok u) :
      NodeUpdate e s order .extractionPerVendor u
  | evaluation (b : Branch) (hb : b ∈ order) :
      NodeUpdate e s order .evaluationPerVendor (evaluationUpdate e s b)
  | comparator (output : ComparatorOutput) :
      NodeUpdate e s order .comparator { comparatorOutput := some output }
  | decision (comparator : ComparatorOutput) (hcomparator : s.comparatorOutput = some comparator) :
      NodeUpdate e s order .decision
        { decisionOutput := some (Decision.runDecisionAgent e.services.rejection s.evaluationOutputs
            comparator e.input.contractValue).1 }
  | explanation (b : Branch) (decision : DecisionOutput) (hb : b ∈ order)
      (hd : decisionOf s = .ok decision) :
      NodeUpdate e s order .explanationPerVendor (explanationUpdate e s decision b).1
  | finalise (output : ExplanationOutput) :
      NodeUpdate e s order .explanationFinalise { explanationOutput := some (some output) }
  | critic (u : Update) (hu : u ∈ (explanationCritic e s).updates) :
      NodeUpdate e s order .explanationCritic u

/-- What a superstep comes to: nothing, a body in its `try`, the updates of branches, or the
verdict on the report. -/
inductive NodeStep (e : Execution) (s : PipelineState) (order : List Branch) :
    Node → NodeResult → Prop
  | quiet (n : Node) : NodeStep e s order n {}
  | guarded (n : Node) (agent : String) (body : Except Exn Update)
      (hbody : ∀ u, body = .ok u → NodeUpdate e s order n u ∧ u.block = none) :
      NodeStep e s order n (guarded agent body)
  | updates (n : Node) (us : List Update)
      (hus : ∀ u ∈ us, NodeUpdate e s order n u ∧ u.block = none) :
      NodeStep e s order n { updates := us }
  | explanations (decision : DecisionOutput) (hd : decisionOf s = .ok decision) :
      NodeStep e s order .explanationPerVendor
        { updates := (order.map (explanationUpdate e s decision)).map Prod.fst
          prompts := (order.map (explanationUpdate e s decision)).flatMap Prod.snd }
  | critic : NodeStep e s order .explanationCritic (explanationCritic e s)

theorem superstep_nodeStep (h : superstep e s order n = .ok r) : NodeStep e s order n r := by
  cases n with
  | planner =>
      cases Except.ok.inj h
      refine .guarded _ _ _ fun u hu => ?_
      obtain ⟨_, _, hpure⟩ := bind_eq_ok.mp hu
      rw [← pure_eq_ok.mp hpure]
      exact ⟨.quiet _, rfl⟩
  | ingestion =>
      obtain ⟨skippable, _, hr⟩ := bind_eq_ok.mp h
      rw [← pure_eq_ok.mp hr]
      cases skippable with
      | true => exact .quiet _
      | false =>
          refine .guarded _ _ _ fun u hu => ?_
          obtain ⟨_, _, hpure⟩ := bind_eq_ok.mp hu
          rw [← pure_eq_ok.mp hpure]
          exact ⟨.quiet _, rfl⟩
  | retrievalPerVendor =>
      cases Except.ok.inj h
      refine .updates _ _ fun u hu => ?_
      obtain ⟨b, hb, rfl⟩ := List.mem_map.mp hu
      exact ⟨.retrieval b hb, branchOnly_retrieval.block⟩
  | extractionPerVendor =>
      obtain ⟨us, hus, hr⟩ := bind_eq_ok.mp h
      rw [← pure_eq_ok.mp hr]
      refine .updates _ _ fun u hu => ?_
      obtain ⟨b, hb, hbu⟩ := (mem_of_mapM_eq_ok hus).mp hu
      exact ⟨.extraction b u hb hbu, (branchOnly_extraction hbu).block⟩
  | evaluationPerVendor =>
      cases Except.ok.inj h
      refine .updates _ _ fun u hu => ?_
      obtain ⟨b, hb, rfl⟩ := List.mem_map.mp hu
      exact ⟨.evaluation b hb, branchOnly_evaluation.block⟩
  | comparator =>
      cases Except.ok.inj h
      refine .guarded _ _ _ fun u hu => ?_
      obtain ⟨_, _, hpure⟩ := bind_eq_ok.mp hu
      rw [← pure_eq_ok.mp hpure]
      exact ⟨.comparator _, rfl⟩
  | decision =>
      cases Except.ok.inj h
      refine .guarded _ _ _ fun u hu => ?_
      obtain ⟨comparator, hcomparator, hrest⟩ := bind_eq_ok.mp hu
      obtain ⟨_, _, hpure⟩ := bind_eq_ok.mp hrest
      rw [← pure_eq_ok.mp hpure]
      exact ⟨.decision comparator (orRaise_eq_ok.mp hcomparator), rfl⟩
  | explanationPerVendor =>
      obtain ⟨decision, hd, hr⟩ := bind_eq_ok.mp h
      rw [← pure_eq_ok.mp hr]
      exact .explanations decision hd
  | explanationFinalise =>
      cases hd : decisionOf s with
      | error exc => simp [superstep, hd, Except.map] at h
      | ok decision =>
          simp only [superstep, hd, Except.map, Except.ok.injEq] at h
          rw [← h]
          refine .updates _ _ fun u hu => ?_
          rw [List.mem_singleton.mp hu]
          exact ⟨.finalise _, rfl⟩
  | explanationCritic =>
      cases Except.ok.inj h
      exact .critic
  | retrievalStart | retrievalDone | extractionStart | extractionDone | evaluationStart
  | evaluationDone | explanationStart =>
      cases Except.ok.inj h
      exact .quiet _

theorem superstep_nodeUpdate (h : superstep e s order n = .ok r) (hu : u ∈ r.updates) :
    NodeUpdate e s order n u := by
  have hstep := superstep_nodeStep h
  cases hstep with
  | quiet n => exact nomatch hu
  | guarded n agent body hbody =>
      cases body with
      | error exc =>
          rw [List.mem_singleton.mp hu]
          exact .blocked n agent exc.message
      | ok v =>
          rw [List.mem_singleton.mp hu]
          exact (hbody v rfl).1
  | updates n us hus => exact (hus u hu).1
  | explanations decision hd =>
      obtain ⟨p, hp, rfl⟩ := List.mem_map.mp hu
      obtain ⟨b, hb, rfl⟩ := List.mem_map.mp hp
      exact .explanation b decision hb hd
  | critic => exact .critic u hu

theorem writesStatus_of_no_block (h : ∀ u ∈ r.updates, u.block = none) (hstatus : r.status = none) :
    WritesStatus r := by
  refine ⟨Or.inl hstatus, ?_⟩
  rintro ⟨u, hu, hblock⟩
  rw [h u hu] at hblock
  cases hblock

/-- Every node but the explanation critic writes the status when it blocks. -/
theorem superstep_writesStatus (hn : n ≠ .explanationCritic)
    (h : superstep e s order n = .ok r) : WritesStatus r := by
  have hstep := superstep_nodeStep h
  cases hstep with
  | quiet n => exact writesStatus_of_no_block (fun _ hu => nomatch hu) rfl
  | guarded n agent body hbody =>
      cases body with
      | error exc => exact ⟨Or.inr rfl, fun _ => rfl⟩
      | ok v =>
          refine writesStatus_of_no_block (fun u hu => ?_) rfl
          rw [List.mem_singleton.mp hu]
          exact (hbody v rfl).2
  | updates n us hus => exact writesStatus_of_no_block (fun u hu => (hus u hu).2) rfl
  | explanations decision hd =>
      refine writesStatus_of_no_block (fun u hu => ?_) rfl
      obtain ⟨p, hp, rfl⟩ := List.mem_map.mp hu
      obtain ⟨b, _, rfl⟩ := List.mem_map.mp hp
      exact branchOnly_explanation.block
  | critic => exact absurd rfl hn

/-- Only the explanation critic counts retries. -/
theorem NodeUpdate.retries (h : NodeUpdate e s order n u) (hn : n ≠ .explanationCritic) :
    u.explanationRetryCount = none := by
  cases h with
  | retrieval b hb => exact branchOnly_retrieval.retries
  | extraction b u hb hu => exact (branchOnly_extraction hu).retries
  | evaluation b hb => exact branchOnly_evaluation.retries
  | explanation b decision hb hd => exact branchOnly_explanation.retries
  | critic u hu => exact absurd rfl hn
  | quiet | blocked | comparator | decision | finalise => rfl

end RfpPlatform.NodeUpdates
