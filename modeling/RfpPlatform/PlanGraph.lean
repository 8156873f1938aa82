import RfpPlatform.FailClosed
import RfpPlatform.Planner

namespace RfpPlatform.PlanGraph

open CycleSearch Planner Relation

section Cycles

variable {tasks : List TaskItem} {a b : String}

/-- The dependencies among the tasks of the plan. -/
def KnownEdge (tasks : List TaskItem) (a b : String) : Prop :=
  DependsOn tasks a b ∧ b ∈ tasks.map TaskItem.taskId

def Reports (errors : List String) : Prop := ∃ taskId, circular taskId ∈ errors

theorem DependsOn.known (h : DependsOn tasks a b) : a ∈ tasks.map TaskItem.taskId := by
  obtain ⟨t, ht, rfl, _⟩ := h
  exact List.mem_map_of_mem ht

/-- Every task on the way to a known one is known. -/
theorem knownEdge_of_dependsOn (h : TransGen (DependsOn tasks) a b)
    (hknown : b ∈ tasks.map TaskItem.taskId) : TransGen (KnownEdge tasks) a b := by
  induction h with
  | single hab => exact .single ⟨hab, hknown⟩
  | tail _ hbc ih => exact (ih (DependsOn.known hbc)).tail ⟨hbc, hknown⟩

theorem cycle_iff : (∃ id, TransGen (DependsOn tasks) id id) ↔
    ∃ id, TransGen (KnownEdge tasks) id id := by
  constructor
  · rintro ⟨id, hcycle⟩
    obtain ⟨next, hfirst, _⟩ := TransGen.head'_iff.mp hcycle
    exact ⟨id, knownEdge_of_dependsOn hcycle (DependsOn.known hfirst)⟩
  · rintro ⟨c, hcycle⟩
    exact ⟨c, TransGen.mono (fun _ _ h => h.1) _ _ hcycle⟩

theorem head_append {p s : String} {c : Char} (hp : p.toList.head? = some c) :
    (p ++ s).toList.head? = some c := by
  rw [String.toList_append, List.head?_append, hp]
  rfl

theorem circular_head (taskId : String) : (circular taskId).toList.head? = some 'C' :=
  head_append rfl

theorem ne_circular {message taskId : String} {c : Char} (h : message.toList.head? = some c)
    (hc : c ≠ 'C') : circular taskId ≠ message := by
  intro heq
  rw [← heq, circular_head] at h
  exact hc (Option.some.inj h).symm

/-- The errors of a plan tell of a cycle exactly when the search has met one. -/
theorem reports_errorsOf_iff {plan : Plan} {setup : EvaluationSetup} {found : Option String} :
    Reports (errorsOf plan setup found) ↔ found.isSome := by
  constructor
  · rintro ⟨taskId, hmem⟩
    simp only [errorsOf, List.mem_append] at hmem
    obtain (((hmem | hmem) | hmem) | hmem) | hmem := hmem
    · split at hmem
      · exact absurd (List.mem_singleton.mp hmem)
          (ne_circular (c := 'P') (head_append (head_append rfl)) (by decide))
      · cases hmem
    · split at hmem
      · exact absurd (List.mem_singleton.mp hmem)
          (ne_circular (c := 'P') (head_append (head_append rfl)) (by decide))
      · cases hmem
    · split at hmem
      · cases hmem
      · exact absurd (List.mem_singleton.mp hmem)
          (ne_circular (c := 'M') (head_append rfl) (by decide))
    · split at hmem
      · cases hmem
      · exact absurd (List.mem_singleton.mp hmem)
          (ne_circular (c := 'S') (head_append rfl) (by decide))
    · obtain ⟨id, hid, _⟩ := Option.map_eq_some_iff.mp (Option.mem_toList.mp hmem)
      rw [hid]
      rfl
  · intro hsome
    obtain ⟨taskId, rfl⟩ := Option.isSome_iff_exists.mp hsome
    exact ⟨taskId, List.mem_append_right _ (List.mem_singleton_self _)⟩

/-- With more fuel than the plan has tasks the search ends, with the same errors, and a circular
dependency is among them exactly when there is one. -/
theorem validatePlan_reports_iff (plan : Plan) (setup : EvaluationSetup)
    (hnodup : (plan.tasks.map TaskItem.taskId).Nodup) : ∃ errors,
      (∀ fuel, plan.tasks.length < fuel → validatePlan fuel plan setup = some errors) ∧
        (Reports errors ↔ ∃ id, TransGen (KnownEdge plan.tasks) id id) := by
  have hknown : ∀ id, dependencies plan.tasks id ≠ none → id ∈ plan.tasks.map TaskItem.taskId :=
    fun _ => known_of_dependencies
  have hfuel : (plan.tasks.map TaskItem.taskId).length < plan.tasks.length + 1 := by
    rw [List.length_map]
    omega
  obtain ⟨found, hfound⟩ := @findCycle_total String _ (dependencies plan.tasks)
    (plan.tasks.length + 1) (plan.tasks.map TaskItem.taskId) _ hknown hfuel
  refine ⟨errorsOf plan setup found, fun fuel hlarge => ?_, ?_⟩
  · obtain ⟨extra, rfl⟩ := Nat.exists_eq_add_of_lt hlarge
    rw [validatePlan, Nat.add_right_comm, findCycle_add hfound extra]
    rfl
  · have hedge : Edge (dependencies plan.tasks) = DependsOn plan.tasks :=
      funext fun a => funext fun b => propext (edge_iff hnodup)
    rw [reports_errorsOf_iff, findCycle_isSome_iff hknown hfound, ← cycle_iff, hedge]

/-- A task that waits for itself, as a plan of one task. -/
def selfPlan : Plan where
  planId := "p"
  rfpId := "r"
  orgId := "o"
  vendorIds := []
  tasks := [closingTask [] "task-compare" .compare "comparator" 2 ["task-compare"]]
  estimatedDurationSeconds := 1
  confidence := 1
  warnings := []

theorem validatePlan_reports_iff_self : ∃ errors,
    (∀ fuel, 1 < fuel → validatePlan fuel selfPlan FailClosed.isoSetup = some errors) ∧
      (Reports errors ↔ ∃ id, TransGen (KnownEdge selfPlan.tasks) id id) :=
  validatePlan_reports_iff selfPlan FailClosed.isoSetup (by decide)

end Cycles

end RfpPlatform.PlanGraph
