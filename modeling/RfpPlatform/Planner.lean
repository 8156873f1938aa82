import RfpPlatform.Critics
import RfpPlatform.CycleSearch

namespace RfpPlatform.Planner

open CycleSearch PyText

inductive TaskType
  | retrieve | extract | evaluate | compare | decide | explain | mandatoryCheck | scoring
  deriving DecidableEq

structure TaskItem where
  taskId : String
  taskType : TaskType
  agent : String
  inputs : List (String × Json)
  dependsOn : List String
  priority : Nat

structure Plan where
  planId : String
  rfpId : String
  orgId : String
  vendorIds : List VendorId
  tasks : List TaskItem
  estimatedDurationSeconds : Nat
  confidence : ℚ
  warnings : List String

/-- What the critic reads of a plan. -/
def Plan.output (plan : Plan) : PlannerOutput :=
  ⟨plan.planId, plan.vendorIds, plan.tasks.map TaskItem.taskId, plan.warnings⟩

section Tasks

variable (rfpId : String) (vendorIds : List VendorId) (setup : EvaluationSetup)

def retrieveId (vendorId : VendorId) : String := "task-retrieve-" ++ vendorId

def extractId (vendorId : VendorId) : String := "task-extract-" ++ vendorId

def checkTaskId (checkId : String) : String := "task-check-" ++ checkId

def scoreTaskId (criterionId : String) : String := "task-score-" ++ criterionId

def texts (ss : List String) : Json := .arr (ss.map .str)

def retrieveTask (vendorId : VendorId) : TaskItem where
  taskId := retrieveId vendorId
  taskType := .retrieve
  agent := "retrieval"
  inputs := [("vendor_id", .str vendorId), ("rfp_id", .str rfpId)]
  dependsOn := []
  priority := 1

def extractTask (vendorId : VendorId) : TaskItem where
  taskId := extractId vendorId
  taskType := .extract
  agent := "extraction"
  inputs := [("vendor_id", .str vendorId),
    ("extraction_target_ids", texts (setup.extractionTargets.map ExtractionTarget.targetId))]
  dependsOn := [retrieveId vendorId]
  priority := 1

def extractIds : List String := vendorIds.map extractId

def checkTask (check : MandatoryCheck) : TaskItem where
  taskId := checkTaskId check.checkId
  taskType := .mandatoryCheck
  agent := "evaluation"
  inputs := [("check_id", .str check.checkId), ("vendor_ids", texts vendorIds)]
  dependsOn := extractIds vendorIds
  priority := 1

def checkIds : List String := setup.mandatoryChecks.map (fun check => checkTaskId check.checkId)

def scoreTask (criterion : ScoringCriterion) : TaskItem where
  taskId := scoreTaskId criterion.criterionId
  taskType := .scoring
  agent := "evaluation"
  inputs := [("criterion_id", .str criterion.criterionId), ("vendor_ids", texts vendorIds)]
  dependsOn := checkIds setup
  priority := 2

def scoreIds : List String :=
  setup.scoringCriteria.map (fun criterion => scoreTaskId criterion.criterionId)

/-- The three last tasks of a plan, each of which depends on one list. -/
def closingTask (taskId : String) (taskType : TaskType) (agent : String) (priority : Nat)
    (dependsOn : List String) : TaskItem where
  taskId := taskId
  taskType := taskType
  agent := agent
  inputs := [("vendor_ids", texts vendorIds)]
  dependsOn := dependsOn
  priority := priority

def compareTask : TaskItem :=
  closingTask vendorIds "task-compare" .compare "comparator" 2 (scoreIds setup)

def decideTask : TaskItem :=
  closingTask vendorIds "task-decide" .decide "decision" 3 ["task-compare"]

def explainTask : TaskItem :=
  closingTask vendorIds "task-explain" .explain "explanation" 3 ["task-decide"]

def planTasks : List TaskItem :=
  vendorIds.map (retrieveTask rfpId) ++ vendorIds.map (extractTask setup) ++
    setup.mandatoryChecks.map (checkTask vendorIds) ++
    setup.scoringCriteria.map (scoreTask vendorIds setup) ++
    [compareTask vendorIds setup, decideTask vendorIds, explainTask vendorIds]

end Tasks

section Validation

/-- The `repr` of a set of texts, in the order in which they are met first. -/
def setRepr (ss : List String) : String := "\x7b" ++ join ", " (ss.dedup.map quote) ++ "\x7d"

/-- What follows the prefix in the ids of the tasks of a type. -/
def covered (taskType : TaskType) (pre : String) (tasks : List TaskItem) : List String :=
  tasks.filterMap (fun t =>
    if t.taskType = taskType ∧ pre.toList <+: t.taskId.toList then
      some (String.ofList (t.taskId.toList.drop pre.length))
    else none)

def missing (ids covered : List String) : List String := ids.filter (fun id => id ∉ covered)

/-- `task_map`, where the last task of an id counts. -/
def dependencies (tasks : List TaskItem) (taskId : String) : Option (List String) :=
  (tasks.reverse.find? (fun t => t.taskId = taskId)).map TaskItem.dependsOn

def circular (taskId : String) : String :=
  "Circular dependency detected involving task " ++ taskId

/-- The errors of a plan, with the task at which the search has met a cycle. -/
def errorsOf (plan : Plan) (setup : EvaluationSetup) (found : Option String) : List String :=
  let n := plan.tasks.length
  let missingChecks := missing (setup.mandatoryChecks.map MandatoryCheck.checkId)
    (covered .mandatoryCheck "task-check-" plan.tasks)
  let missingCriteria := missing (setup.scoringCriteria.map ScoringCriterion.criterionId)
    (covered .scoring "task-score-" plan.tasks)
  (if n < 5 then [s!"Plan has only {n} tasks — suspiciously low"] else []) ++
    (if 500 < n then [s!"Plan has {n} tasks — suspiciously high"] else []) ++
    (if missingChecks = [] then [] else
      ["Mandatory checks not covered by any task: " ++ setRepr missingChecks]) ++
    (if missingCriteria = [] then [] else
      ["Scoring criteria not covered by any task: " ++ setRepr missingCriteria]) ++
    (found.map circular).toList

/-- The search for a cycle is given fuel. -/
def validatePlan (fuel : Nat) (plan : Plan) (setup : EvaluationSetup) : Option (List String) :=
  (findCycle (dependencies plan.tasks) fuel (plan.tasks.map TaskItem.taskId)).map (errorsOf plan setup)

end Validation

section Planning

variable (taskDurationEstimateSeconds fuel : Nat) (planId rfpId orgId : String)
  (vendorIds : List VendorId) (setup : EvaluationSetup)

def emptyPlan : Plan where
  planId := planId
  rfpId := rfpId
  orgId := orgId
  vendorIds := []
  tasks := []
  estimatedDurationSeconds := 0
  confidence := 0
  warnings := ["No vendor IDs provided — plan is empty"]

def fullPlan : Plan where
  planId := planId
  rfpId := rfpId
  orgId := orgId
  vendorIds := vendorIds
  tasks := planTasks rfpId vendorIds setup
  estimatedDurationSeconds := (planTasks rfpId vendorIds setup).length * taskDurationEstimateSeconds
  confidence := 1
  warnings := []

def runPlanner : Option (Plan × CriticOutput) :=
  if vendorIds = [] then
    let plan := emptyPlan planId rfpId orgId
    some (plan, criticAfterPlanner plan.output ["No vendor IDs provided"])
  else
    let plan := fullPlan taskDurationEstimateSeconds planId rfpId orgId vendorIds setup
    (validatePlan fuel plan setup).map (fun errors => (plan, criticAfterPlanner plan.output errors))

end Planning

section Dependencies

variable {tasks : List TaskItem} {a b : String}

/-- One task waits for another. -/
def DependsOn (tasks : List TaskItem) (a b : String) : Prop :=
  ∃ t ∈ tasks, t.taskId = a ∧ b ∈ t.dependsOn

theorem dependencies_eq_some {ids : List String} (h : dependencies tasks a = some ids) :
    ∃ t ∈ tasks, t.taskId = a ∧ t.dependsOn = ids := by
  obtain ⟨t, ht, rfl⟩ := Option.map_eq_some_iff.mp h
  have hid := List.find?_some ht
  exact ⟨t, List.mem_reverse.mp (List.mem_of_find?_eq_some ht), of_decide_eq_true hid, rfl⟩

theorem known_of_dependencies (h : dependencies tasks a ≠ none) :
    a ∈ tasks.map TaskItem.taskId := by
  obtain ⟨ids, hids⟩ := Option.ne_none_iff_exists'.mp h
  obtain ⟨t, ht, rfl, _⟩ := dependencies_eq_some hids
  exact List.mem_map_of_mem ht

/-- Where the ids are distinct, the edges that the search follows are the dependencies. -/
theorem edge_iff (hnodup : (tasks.map TaskItem.taskId).Nodup) :
    Edge (dependencies tasks) a b ↔ DependsOn tasks a b := by
  constructor
  · rintro ⟨ids, hids, hb⟩
    obtain ⟨t, ht, hid, rfl⟩ := dependencies_eq_some hids
    exact ⟨t, ht, hid, hb⟩
  · rintro ⟨t, ht, rfl, hb⟩
    cases hids : dependencies tasks t.taskId with
    | none =>
        have hall := List.find?_eq_none.mp (Option.map_eq_none_iff.mp hids) t
          (List.mem_reverse.mpr ht)
        exact absurd (decide_eq_true rfl) hall
    | some ids =>
        obtain ⟨u, hu, hid, hdeps⟩ := dependencies_eq_some hids
        obtain rfl := List.inj_on_of_nodup_map hnodup hu ht hid
        exact ⟨ids, hids, hdeps ▸ hb⟩

end Dependencies

end RfpPlatform.Planner
