import RfpPlatform.PlanGraph

namespace RfpPlatform.PlanOrder

open CycleSearch PlanGraph Planner Relation

section Waiting

variable {tasks : List TaskItem} {t u v : TaskItem}

/-- A task names another task of the plan among its dependencies. -/
def Waits (tasks : List TaskItem) (t u : TaskItem) : Prop := u ∈ tasks ∧ u.taskId ∈ t.dependsOn

/-- A task that assesses the vendors. -/
def Assesses (t : TaskItem) : Prop := t.taskType = .mandatoryCheck ∨ t.taskType = .scoring

theorem dependsOn_ne_nil (h : TransGen (Waits tasks) t u) : t.dependsOn ≠ [] := by
  obtain ⟨v, hwaits, _⟩ := TransGen.head'_iff.mp h
  exact List.ne_nil_of_mem hwaits.2

end Waiting

section Layers

variable {rfpId : String} {vendorIds : List VendorId} {setup : EvaluationSetup} {t : TaskItem}

structure Ordered (vendorIds : List VendorId) (setup : EvaluationSetup) (tasks : List TaskItem) :
    Prop where
  after_extraction : ∀ t ∈ tasks, Assesses t → ∀ vendorId ∈ vendorIds,
    TransGen (Waits tasks) t (extractTask setup vendorId)
  before_comparison : ∀ t ∈ tasks, Assesses t →
    TransGen (Waits tasks) (compareTask vendorIds setup) t

theorem mem_planTasks : t ∈ planTasks rfpId vendorIds setup ↔
    (∃ vendorId ∈ vendorIds, t = retrieveTask rfpId vendorId) ∨
    (∃ vendorId ∈ vendorIds, t = extractTask setup vendorId) ∨
    (∃ check ∈ setup.mandatoryChecks, t = checkTask vendorIds check) ∨
    (∃ criterion ∈ setup.scoringCriteria, t = scoreTask vendorIds setup criterion) ∨
    t = compareTask vendorIds setup ∨ t = decideTask vendorIds ∨ t = explainTask vendorIds := by
  simp only [planTasks, List.mem_append, List.mem_map, List.mem_cons, List.not_mem_nil, or_false,
    or_assoc, eq_comm]

theorem extractTask_mem {vendorId : VendorId} (h : vendorId ∈ vendorIds) :
    extractTask setup vendorId ∈ planTasks rfpId vendorIds setup :=
  mem_planTasks.mpr (.inr (.inl ⟨vendorId, h, rfl⟩))

theorem checkTask_mem {check : MandatoryCheck} (h : check ∈ setup.mandatoryChecks) :
    checkTask vendorIds check ∈ planTasks rfpId vendorIds setup :=
  mem_planTasks.mpr (.inr (.inr (.inl ⟨check, h, rfl⟩)))

theorem scoreTask_mem {criterion : ScoringCriterion} (h : criterion ∈ setup.scoringCriteria) :
    scoreTask vendorIds setup criterion ∈ planTasks rfpId vendorIds setup :=
  mem_planTasks.mpr (.inr (.inr (.inr (.inl ⟨criterion, h, rfl⟩))))

/-- The assessing tasks are those of the checks and of the criteria. -/
theorem cases_of_assesses (h : t ∈ planTasks rfpId vendorIds setup) (hassesses : Assesses t) :
    (∃ check ∈ setup.mandatoryChecks, t = checkTask vendorIds check) ∨
      ∃ criterion ∈ setup.scoringCriteria, t = scoreTask vendorIds setup criterion := by
  obtain ⟨_, _, rfl⟩ | ⟨_, _, rfl⟩ | hcheck | hscore | rfl | rfl | rfl := mem_planTasks.mp h
  · obtain h | h := hassesses <;> cases h
  · obtain h | h := hassesses <;> cases h
  · exact .inl hcheck
  · exact .inr hscore
  · obtain h | h := hassesses <;> cases h
  · obtain h | h := hassesses <;> cases h
  · obtain h | h := hassesses <;> cases h

theorem checkTask_waits {check : MandatoryCheck} {vendorId : VendorId} (h : vendorId ∈ vendorIds) :
    Waits (planTasks rfpId vendorIds setup) (checkTask vendorIds check)
      (extractTask setup vendorId) :=
  ⟨extractTask_mem h, List.mem_map_of_mem h⟩

theorem scoreTask_waits {criterion : ScoringCriterion} {check : MandatoryCheck}
    (h : check ∈ setup.mandatoryChecks) :
    Waits (planTasks rfpId vendorIds setup) (scoreTask vendorIds setup criterion)
      (checkTask vendorIds check) :=
  ⟨checkTask_mem h, List.mem_map_of_mem h⟩

theorem compareTask_waits {criterion : ScoringCriterion} (h : criterion ∈ setup.scoringCriteria) :
    Waits (planTasks rfpId vendorIds setup) (compareTask vendorIds setup)
      (scoreTask vendorIds setup criterion) :=
  ⟨scoreTask_mem h, List.mem_map_of_mem h⟩

/-- Each layer passes the order on where it is not empty. -/
theorem ordered_of_layers (hchecks : setup.scoringCriteria ≠ [] → setup.mandatoryChecks ≠ [])
    (hscores : setup.mandatoryChecks ≠ [] → setup.scoringCriteria ≠ []) :
    Ordered vendorIds setup (planTasks rfpId vendorIds setup) := by
  constructor
  · intro t ht hassesses vendorId hvendor
    rcases cases_of_assesses ht hassesses with ⟨check, _, rfl⟩ | ⟨criterion, hcriterion, rfl⟩
    · exact .single (checkTask_waits hvendor)
    · obtain ⟨check, hcheck⟩ := List.exists_mem_of_ne_nil _
        (hchecks (List.ne_nil_of_mem hcriterion))
      exact (TransGen.single (scoreTask_waits hcheck)).tail (checkTask_waits hvendor)
  · intro t ht hassesses
    rcases cases_of_assesses ht hassesses with ⟨check, hcheck, rfl⟩ | ⟨criterion, hcriterion, rfl⟩
    · obtain ⟨criterion, hcriterion⟩ := List.exists_mem_of_ne_nil _
        (hscores (List.ne_nil_of_mem hcheck))
      exact (TransGen.single (compareTask_waits hcriterion)).tail (scoreTask_waits hcheck)
    · exact .single (compareTask_waits hcriterion)

theorem checks_of_ordered (hvendors : vendorIds ≠ [])
    (h : Ordered vendorIds setup (planTasks rfpId vendorIds setup))
    (hcriteria : setup.scoringCriteria ≠ []) : setup.mandatoryChecks ≠ [] := by
  obtain ⟨criterion, hcriterion⟩ := List.exists_mem_of_ne_nil _ hcriteria
  obtain ⟨vendorId, hvendor⟩ := List.exists_mem_of_ne_nil _ hvendors
  have hwaits := dependsOn_ne_nil
    (h.after_extraction _ (scoreTask_mem hcriterion) (.inr rfl) vendorId hvendor)
  exact fun hnil => hwaits (List.map_eq_nil_iff.mpr hnil)

theorem criteria_of_ordered (h : Ordered vendorIds setup (planTasks rfpId vendorIds setup))
    (hchecks : setup.mandatoryChecks ≠ []) : setup.scoringCriteria ≠ [] := by
  obtain ⟨check, hcheck⟩ := List.exists_mem_of_ne_nil _ hchecks
  have hwaits := dependsOn_ne_nil (h.before_comparison _ (checkTask_mem hcheck) (.inl rfl))
  exact fun hnil => hwaits (List.map_eq_nil_iff.mpr hnil)

/-- The tasks are in order exactly when the checks and the criteria are missing together. -/
theorem ordered_planTasks_iff (hvendors : vendorIds ≠ []) :
    Ordered vendorIds setup (planTasks rfpId vendorIds setup) ↔
      (setup.mandatoryChecks = [] ↔ setup.scoringCriteria = []) := by
  constructor
  · intro h
    exact ⟨fun hnil => by_contra fun hne => checks_of_ordered hvendors h hne hnil,
      fun hnil => by_contra fun hne => criteria_of_ordered h hne hnil⟩
  · intro h
    exact ordered_of_layers (fun hne hnil => hne (h.mp hnil)) (fun hne hnil => hne (h.mpr hnil))

end Layers

section Run

/-- The planner returns a plan for all vendors, given fuel beyond the number of its tasks. -/
theorem runPlanner_eq_some (seconds : Nat) (planId rfpId orgId : String)
    {vendorIds : List VendorId} (setup : EvaluationSetup) (hvendors : vendorIds ≠ []) :
    ∃ critic, ∀ fuel, (planTasks rfpId vendorIds setup).length < fuel →
      runPlanner seconds fuel planId rfpId orgId vendorIds setup =
        some (fullPlan seconds planId rfpId orgId vendorIds setup, critic) := by
  set plan := fullPlan seconds planId rfpId orgId vendorIds setup with hplan
  have hlength : (plan.tasks.map TaskItem.taskId).length < plan.tasks.length + 1 := by
    rw [List.length_map]
    omega
  obtain ⟨found, hfound⟩ := @findCycle_total String _ (dependencies plan.tasks)
    (plan.tasks.length + 1) (plan.tasks.map TaskItem.taskId) _
    (fun _ => known_of_dependencies) hlength
  refine ⟨criticAfterPlanner plan.output (errorsOf plan setup found), fun fuel hlarge => ?_⟩
  obtain ⟨extra, rfl⟩ := Nat.exists_eq_add_of_lt hlarge
  rw [runPlanner, if_neg hvendors, ← hplan]
  change (validatePlan (plan.tasks.length + extra + 1) plan setup).map _ = _
  rw [validatePlan, Nat.add_right_comm, findCycle_add hfound extra]
  rfl

/-- The plan for some vendors is in order exactly when the setup has neither checks nor criteria,
or both. -/
theorem runPlanner_ordered_iff (seconds : Nat) (planId rfpId orgId : String)
    (vendorIds : List VendorId) (setup : EvaluationSetup) (hvendors : vendorIds ≠ []) :
    ∃ plan critic,
      (∀ fuel, plan.tasks.length < fuel →
        runPlanner seconds fuel planId rfpId orgId vendorIds setup = some (plan, critic)) ∧
      (Ordered vendorIds setup plan.tasks ↔
        (setup.mandatoryChecks = [] ↔ setup.scoringCriteria = [])) := by
  obtain ⟨critic, hrun⟩ := runPlanner_eq_some seconds planId rfpId orgId setup hvendors
  exact ⟨fullPlan seconds planId rfpId orgId vendorIds setup, critic, hrun,
    ordered_planTasks_iff hvendors⟩

theorem runPlanner_ordered_iff_one : ∃ plan critic,
    (∀ fuel, plan.tasks.length < fuel →
      runPlanner 30 fuel "p" "rfp" "o" ["v"] FailClosed.isoSetup = some (plan, critic)) ∧
    (Ordered ["v"] FailClosed.isoSetup plan.tasks ↔
      (FailClosed.isoSetup.mandatoryChecks = [] ↔ FailClosed.isoSetup.scoringCriteria = [])) :=
  runPlanner_ordered_iff 30 "p" "rfp" "o" ["v"] FailClosed.isoSetup (List.cons_ne_nil _ _)

/-- A setup that only scores. -/
def scoredSetup : EvaluationSetup where
  setupId := "s"
  orgId := "o"
  rfpId := "rfp"
  rfpConfirmed := true
  mandatoryChecks := []
  scoringCriteria := [FailClosed.isoCriterion]
  extractionTargets := [FailClosed.isoTarget]
  totalWeight := 1
  confirmedBy := "u"
  source := "m"
  total_weight_range := full_weight_range
  weights_sum_to_one := FailClosed.isoSetup.weights_sum_to_one
  every_check_has_extraction_target := fun _ h => absurd h List.not_mem_nil

/-- Without checks the scoring task waits for nothing. -/
theorem scoredSetup_not_ordered : ∃ plan critic,
    (∀ fuel, plan.tasks.length < fuel →
      runPlanner 30 fuel "p" "rfp" "o" ["v"] scoredSetup = some (plan, critic)) ∧
    ¬ Ordered ["v"] scoredSetup plan.tasks := by
  have hvendors : ["v"] ≠ ([] : List VendorId) := List.cons_ne_nil _ _
  obtain ⟨critic, hrun⟩ := runPlanner_eq_some 30 "p" "rfp" "o" scoredSetup hvendors
  refine ⟨fullPlan 30 "p" "rfp" "o" ["v"] scoredSetup, critic, hrun, fun hordered => ?_⟩
  exact checks_of_ordered hvendors hordered (List.cons_ne_nil _ _) rfl

end Run

end RfpPlatform.PlanOrder
