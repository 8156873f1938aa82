import RfpPlatform.PipelineNodes
import RfpPlatform.TransitionRuns

namespace RfpPlatform.PipelineGraph

open ExceptRules Explanation PipelineNodes RunRequests RunState TransitionRuns

inductive Node
  | planner | ingestion
  | retrievalStart | retrievalPerVendor | retrievalDone
  | extractionStart | extractionPerVendor | extractionDone
  | evaluationStart | evaluationPerVendor | evaluationDone
  | comparator | decision
  | explanationStart | explanationPerVendor | explanationFinalise | explanationCritic
  deriving DecidableEq

/-- Where an execution stands: before a node, at the graph's end, or back in the driver's
caller. -/
inductive Position
  | at (n : Node)
  | ended
  | returned
  deriving DecidableEq

structure Row where
  status : RunStatus
  decisionOutput : Option DecisionOutput := none
  explanationOutput : Option ExplanationOutput := none

structure Config where
  position : Position
  state : PipelineState
  row : Row
  executed : List Node := []
  prompts : List NarrativePrompt := []

def Config.start (row : Row) : Config where
  position := .at .planner
  state := {}
  row := row

section Execution

variable (e : Execution)

/-- `_route_after` -/
def routeAfter (s : PipelineState) (next : Node) : Position :=
  if s.blocked then .ended else .at next

/-- `_fan_out`: one branch a vendor, or the end where there is none. -/
def fanOut (s : PipelineState) (target : Node) : Position :=
  if s.blocked then .ended else if e.input.vendorIds = [] then .ended else .at target

def routeAfterExplanationCritic (s : PipelineState) : Position :=
  if s.blocked then .ended
  else if s.explanationRetryRequested then .at .explanationStart
  else .ended

def route (s : PipelineState) : Node → Position
  | .planner => routeAfter s .ingestion
  | .ingestion => routeAfter s .retrievalStart
  | .retrievalStart => fanOut e s .retrievalPerVendor
  | .retrievalPerVendor => .at .retrievalDone
  | .retrievalDone => .at .extractionStart
  | .extractionStart => fanOut e s .extractionPerVendor
  | .extractionPerVendor => .at .extractionDone
  | .extractionDone => .at .evaluationStart
  | .evaluationStart => fanOut e s .evaluationPerVendor
  | .evaluationPerVendor => .at .evaluationDone
  | .evaluationDone => .at .comparator
  | .comparator => routeAfter s .decision
  | .decision => routeAfter s .explanationStart
  | .explanationStart => fanOut e s .explanationPerVendor
  | .explanationPerVendor => .at .explanationFinalise
  | .explanationFinalise => .at .explanationCritic
  | .explanationCritic => routeAfterExplanationCritic s

def decisionOf (s : PipelineState) : Except Exn DecisionOutput :=
  orRaise s.decisionOutput ⟨.attributeError, "'NoneType' object has no attribute 'rejected_vendors'"⟩

def explanationBranches (s : PipelineState) (order : List Branch) : Except Exn NodeResult := do
  let decision ← decisionOf s
  let results := order.map (explanationUpdate e s decision)
  return { updates := results.map Prod.fst, prompts := results.flatMap Prod.snd }

/-- One superstep. The branches of a fan-out read the state before it, and their updates
are applied in the given order. -/
def superstep (s : PipelineState) (order : List Branch) : Node → Except Exn NodeResult
  | .planner => .ok (plannerNode e)
  | .ingestion => ingestionNode e
  | .retrievalPerVendor => .ok { updates := order.map (retrievalUpdate e) }
  | .extractionPerVendor => do
      let updates ← order.mapM (extractionUpdate e s)
      return { updates := updates }
  | .evaluationPerVendor => .ok { updates := order.map (evaluationUpdate e s) }
  | .comparator => .ok (comparatorNode e s)
  | .decision => .ok (decisionNode e s)
  | .explanationPerVendor => explanationBranches e s order
  | .explanationFinalise => (decisionOf s).map (explanationFinalise s)
  | .explanationCritic => .ok (explanationCritic e s)
  | _ => .ok {}

/-- The driver's handler: an exception that leaves the graph blocks the run. -/
def crashed (c : Config) : Config :=
  { c with position := .returned, row := { c.row with status := .blocked } }

def advance (c : Config) (n : Node) (r : NodeResult) : Config :=
  let state := c.state.applyAll r.updates
  { position := route e state n
    state := state
    row := { c.row with status := r.status.getD c.row.status }
    executed := c.executed ++ [n]
    prompts := c.prompts ++ r.prompts }

def stepNode (c : Config) (n : Node) (order : List Branch) : Config :=
  match superstep e c.state order n with
  | .ok r => advance e c n r
  | .error _ => crashed c

/-- The driver after the graph: a blocked run is left as it is, on the ground that the node
that blocked it has written its status. -/
def finish (c : Config) : Config :=
  if c.state.blocked then { c with position := .returned }
  else
    { c with
      position := .returned
      row :=
        { status := .complete
          decisionOutput := c.state.decisionOutput.orElse (fun _ => c.row.decisionOutput)
          explanationOutput :=
            if e.services.explanationSaved then
              c.state.explanationOutput.orElse (fun _ => c.row.explanationOutput)
            else c.row.explanationOutput } }

inductive Label
  | node (n : Node) (order : List Branch)
  | finish

/-- The supersteps of an execution, with the branches of a fan-out in any order. -/
inductive Step : Config → Label → Config → Prop
  | node (c : Config) (n : Node) (order : List Branch) (hposition : c.position = .at n)
      (horder : order.Perm (branches e.input)) : Step c (.node n order) (stepNode e c n order)
  | finish (c : Config) (hposition : c.position = .ended) : Step c .finish (finish e c)

/-- The execution whose branches complete in the order of the vendors. -/
def drive : Nat → Config → Config
  | 0, c => c
  | fuel + 1, c =>
      match c.position with
      | .at n => drive fuel (stepNode e c n (branches e.input))
      | .ended => finish e c
      | .returned => c

theorem drive_run (fuel : Nat) (c : Config) : ∃ ls, Run (Step e) c ls (drive e fuel c) := by
  induction fuel generalizing c with
  | zero => exact ⟨[], .nil c⟩
  | succ fuel ih =>
      cases hposition : c.position with
      | «at» n =>
          obtain ⟨ls, hrun⟩ := ih (stepNode e c n (branches e.input))
          refine ⟨.node n (branches e.input) :: ls, ?_⟩
          rw [drive, hposition]
          exact .cons (.node c n _ hposition (List.Perm.refl _)) hrun
      | ended =>
          rw [drive, hposition]
          exact ⟨[.finish], .single (.finish c hposition)⟩
      | returned =>
          rw [drive, hposition]
          exact ⟨[], .nil c⟩

variable {e}

@[simp] theorem finish_position (c : Config) : (finish e c).position = .returned := by
  unfold finish
  split <;> rfl

@[simp] theorem finish_state (c : Config) : (finish e c).state = c.state := by
  unfold finish
  split <;> rfl

/-- What every superstep preserves of the state holds of it wherever a run leads. -/
theorem run_superstep {I : PipelineState → Prop}
    (h : ∀ s order n r, order.Perm (branches e.input) → superstep e s order n = .ok r → I s →
      I (s.applyAll r.updates))
    {c c' : Config} {ls : List Label} (hrun : Run (Step e) c ls c') (hc : I c.state) :
    I c'.state := by
  refine hrun.invariant (I := fun c => I c.state) (fun c l c' hc hstep => ?_) hc
  cases hstep with
  | node n order hposition horder =>
      unfold stepNode
      split
      · rename_i r hr
        exact h c.state order n r horder hr hc
      · exact hc
  | finish hposition => exact (finish_state c).symm ▸ hc

end Execution

section Quiet

def emptySetup : EvaluationSetup where
  setupId := "setup-1"
  orgId := "org-1"
  rfpId := "rfp-1"
  rfpConfirmed := true
  mandatoryChecks := []
  scoringCriteria := []
  extractionTargets := []
  totalWeight := 1
  confirmedBy := "user"
  source := "pdf"
  total_weight_range := full_weight_range
  weights_sum_to_one := fun h => absurd rfl h
  every_check_has_extraction_target := fun _ h => nomatch h

def unaskedDecisions : MandatoryChecks.CheckReplies where
  primary := .invalidJson ""
  sample _ := .invalidJson ""
  retrieve _ _ := .error ⟨.external, "down"⟩
  judge _ _ := ⟨false, ⟨1, not_one_lt_zero, not_one_lt_one⟩⟩
  verify _ _ := .invalidJson ""

def quietServices : PipelineServices where
  plan := (⟨"plan-1", ["v1"], ["task-1"], []⟩, [])
  ingest _ := .ok []
  factsExtractedBefore _ := .ok false
  factsExtracted _ := .ok false
  retrieve _ _ _ := .ok (⟨"q", [], 0, true, false, []⟩, criticOutput "retrieval_agent" [])
  extraction _ := ⟨fun _ _ _ => .ok ⟨[], [], [], [], [], [], [], []⟩, fun _ _ => .ok ()⟩
  evaluation _ _ :=
    { orgSettings := fun _ => .ok ⟨false, false, 10, 5, false, "none"⟩
      vendorFacts := fun _ _ _ => .ok ⟨[], [], [], [], [], []⟩
      check := fun _ => unaskedDecisions
      criterion := fun _ => .invalidJson "" }
  comparison _ := .invalidJson ""
  rejection _ := .invalidJson ""
  narration _ _ := ⟨fun _ => .ok {}, fun _ => .ok []⟩
  explanationSaved := true

def quietExecution (vendorIds : List VendorId) : Execution where
  input :=
    { runId := "run-1", orgId := "org-1", rfpId := "rfp-1", vendorIds := vendorIds
      contractValue := 0, currency := "GBP", setupId := "setup-1", setup := emptySetup
      rfpFilename := "rfp.pdf", vendorFiles := [] }
  settings := ⟨1 / 2, ⟨SelfConsistency.shippedSettings, 1, 6 / 10⟩, ⟨false, 0, 0, 0⟩⟩
  services := quietServices

def runningRow : Row := { status := .running }

end Quiet

def WritesStatus (r : NodeResult) : Prop :=
  (r.status = none ∨ r.status = some .blocked) ∧
    ((∃ u ∈ r.updates, u.block.isSome = true) → r.status = some .blocked)

section Routes

variable {e : Execution} {s : PipelineState} {n m : Node}

/-- The node behind a node, where the graph does not end there. -/
def successor : Node → Node
  | .planner => .ingestion
  | .ingestion => .retrievalStart
  | .retrievalStart => .retrievalPerVendor
  | .retrievalPerVendor => .retrievalDone
  | .retrievalDone => .extractionStart
  | .extractionStart => .extractionPerVendor
  | .extractionPerVendor => .extractionDone
  | .extractionDone => .evaluationStart
  | .evaluationStart => .evaluationPerVendor
  | .evaluationPerVendor => .evaluationDone
  | .evaluationDone => .comparator
  | .comparator => .decision
  | .decision => .explanationStart
  | .explanationStart => .explanationPerVendor
  | .explanationPerVendor => .explanationFinalise
  | .explanationFinalise => .explanationCritic
  | .explanationCritic => .explanationStart

/-- Every edge goes to the end or to the successor. -/
theorem route_cases (e : Execution) (s : PipelineState) (n : Node) :
    route e s n = .ended ∨ route e s n = .at (successor n) := by
  have hafter : ∀ m, routeAfter s m = .ended ∨ routeAfter s m = .at m := by
    intro m
    unfold routeAfter
    split
    · exact Or.inl rfl
    · exact Or.inr rfl
  have hfan : ∀ m, fanOut e s m = .ended ∨ fanOut e s m = .at m := by
    intro m
    unfold fanOut
    split
    · exact Or.inl rfl
    · split
      · exact Or.inl rfl
      · exact Or.inr rfl
  cases n with
  | planner | ingestion | comparator | decision => exact hafter _
  | retrievalStart | extractionStart | evaluationStart | explanationStart => exact hfan _
  | explanationCritic =>
      change routeAfterExplanationCritic s = _ ∨ routeAfterExplanationCritic s = _
      unfold routeAfterExplanationCritic
      split
      · exact Or.inl rfl
      · split
        · exact Or.inr rfl
        · exact Or.inl rfl
  | _ => exact Or.inr rfl

theorem route_ne_returned : route e s n ≠ .returned := by
  intro h
  rcases route_cases e s n with hended | hnext
  · exact nomatch hended.symm.trans h
  · exact nomatch hnext.symm.trans h

theorem route_at (h : route e s n = .at m) : m = successor n := by
  rcases route_cases e s n with hended | hnext
  · exact nomatch hended.symm.trans h
  · exact Position.at.inj (h.symm.trans hnext)

theorem route_ended (h : route e s n = .ended) :
    s.blocked = true ∨ e.input.vendorIds = [] ∨ n = .explanationCritic := by
  by_cases hblocked : s.blocked = true
  · exact Or.inl hblocked
  · refine Or.inr ?_
    cases n <;> simp_all [route, routeAfter, fanOut]

end Routes

end RfpPlatform.PipelineGraph
