import Mathlib.Data.List.Dedup
import RfpPlatform.CriticVerdicts
import RfpPlatform.NodeUpdates

namespace RfpPlatform.EmptyRanking

open CriticRetry CriticVerdicts ExceptRules NodeUpdates PipelineGraph PipelineNodes RunRequests
open RunState TransitionRuns

variable {e : Execution} {c c' : Config} {s : PipelineState} {order : List Branch} {r : NodeResult}
  {n : Node} {l : Label} {ls : List Label} {us : List Update}

def Evaluated (s : PipelineState) : Prop := ∃ vid, vid ∈ s.evaluationOutputs.keys

def downstream : List Node :=
  [.decision, .explanationStart, .explanationPerVendor, .explanationFinalise, .explanationCritic]

/-- Without an evaluation output nothing behind the comparator is executed, and the run is
not complete. -/
structure Gated (c : Config) : Prop where
  executed : ¬ Evaluated c.state → ∀ n ∈ c.executed, n ∉ downstream
  complete : ¬ Evaluated c.state → c.position = .returned → c.row.status ≠ .complete

/-- Every superstep but a comparator that has nothing to compare. -/
def Admits (c : Config) : Label → Prop
  | .node .comparator _ => Evaluated c.state
  | _ => True

theorem Evaluated.applyAll (h : Evaluated s) : Evaluated (s.applyAll us) := by
  obtain ⟨vid, hvid⟩ := h
  have hkeys : vid ∈ (s.applyAll us).evaluationOutputs.keys ↔
      vid ∈ s.evaluationOutputs.keys ∨ ∃ u ∈ us, vid ∈ u.evaluationOutputs.keys :=
    mem_keys_applyAll (fun _ _ => rfl)
  exact ⟨vid, hkeys.mpr (Or.inl hvid)⟩

/-- A run without vendors does not get past its planner. -/
theorem planner_blocks (h : e.input.vendorIds = []) :
    (s.applyAll (plannerNode e).updates).blocked = true := by
  have hempty : runPlanner e = emptyPlan := if_pos h
  have hverdict : (criticAfterPlanner emptyPlan.1 emptyPlan.2).overallVerdict = .blocked := by
    decide +kernel
  rw [blocked_applyAll]
  refine Or.inr ?_
  simp only [plannerNode, hempty, hardBlockIf, hverdict, if_true]
  exact ⟨_, List.mem_singleton_self _, rfl⟩

theorem criticAfterComparator_escalates {output : ComparatorOutput} (h : output.missing ≠ []) :
    (criticAfterComparator output).overallVerdict = .escalated := by
  have hflag : vendorsMissingFlag output.missing ∈ (criticAfterComparator output).flags := by
    simp [criticAfterComparator, criticOutput, flagIf, h]
  exact verdict_eq_escalated.mpr
    ⟨_, hflag, rfl, vendorsMissingFlag_asksEscalation output.missing⟩

/-- With nothing to compare, the flag on the missing vendors turns the blocking verdict on the
empty ranking into an escalation, and the run goes on. -/
theorem unranked_comparator_goes_on (hvendors : e.input.vendorIds ≠ []) (hopen : s.blocked = false)
    (hnone : ¬ Evaluated s) :
    route e (s.applyAll (comparatorNode e s).updates) .comparator = .at .decision := by
  let output := (Comparator.runComparatorAgent e.services.comparison (comparisonCall e s)).1
  have hmissing : output.missing ≠ [] := by
    obtain ⟨vid, hvid⟩ := List.exists_mem_of_ne_nil _ hvendors
    have hunranked : vid ∉ output.overallRanking := fun h =>
      hnone ⟨vid, (Comparator.mem_overallRanking.mp h).2⟩
    exact List.ne_nil_of_mem
      (List.mem_filter.mpr ⟨List.mem_dedup.mpr hvid, decide_eq_true hunranked⟩)
  have hblock : hardBlockIf (criticAfterComparator output) "comparator" = .ok () := by
    rw [hardBlockIf_eq_ok, criticAfterComparator_escalates hmissing]
    simp
  have hnode : comparatorNode e s =
      { updates := [{ comparatorOutput := some output : Update }] } := by
    change guarded "comparator"
      (hardBlockIf (criticAfterComparator output) "comparator" >>= fun _ => _) = _
    rw [hblock]
    rfl
  rw [hnode]
  change routeAfter _ _ = _
  rw [routeAfter, if_neg]
  simp [PipelineState.apply, hopen]

structure Ranked (e : Execution) (c : Config) : Prop where
  vendors : ∀ n, c.position = .at n → n = .planner ∨ e.input.vendorIds ≠ []
  past : ∀ n ∈ downstream, c.position = .at n → Evaluated c.state
  executed : ∀ n ∈ c.executed, n ∈ downstream → Evaluated c.state
  ended : c.position = .ended → c.state.blocked = true ∨ Evaluated c.state
  blocked : c.state.blocked = true → c.row.status = .blocked ∨ Evaluated c.state
  complete : c.position = .returned → c.row.status = .complete → Evaluated c.state

theorem Ranked.gated (h : Ranked e c) : Gated c where
  executed hnone n hn hdown := hnone (h.executed n hn hdown)
  complete hnone hreturned hcomplete := hnone (h.complete hreturned hcomplete)

theorem ranked_start (row : Row) : Ranked e (Config.start row) where
  vendors n h := Or.inl (Position.at.inj h).symm
  past n hn h := by
    rw [← Position.at.inj h] at hn
    simp [downstream] at hn
  executed _ h := nomatch h
  ended h := nomatch h
  blocked h := nomatch h
  complete h := nomatch h

theorem route_downstream {m : Node} (h : route e s n = .at m) (hm : m ∈ downstream) :
    n = .comparator ∨ n ∈ downstream := by
  rw [route_at h] at hm
  cases n with
  | comparator => exact Or.inl rfl
  | decision | explanationStart | explanationPerVendor | explanationFinalise
  | explanationCritic => exact Or.inr (by decide)
  | _ => exact absurd hm (by decide)

theorem ranked_advance (hc : Ranked e c) (hposition : c.position = .at n)
    (hallowed : n = .comparator → Evaluated c.state) (h : superstep e c.state order n = .ok r) :
    Ranked e (advance e c n r) := by
  have hkept : Evaluated c.state → Evaluated (advance e c n r).state := Evaluated.applyAll
  have hpast : n = .comparator ∨ n ∈ downstream → Evaluated (advance e c n r).state := by
    rintro (hn | hn)
    · exact hkept (hallowed hn)
    · exact hkept (hc.past n hn hposition)
  have hvendors : (advance e c n r).state.blocked = true ∨ e.input.vendorIds ≠ [] := by
    rcases hc.vendors n hposition with hn | hne
    · subst hn
      by_cases hnil : e.input.vendorIds = []
      · cases Except.ok.inj h
        exact Or.inl (planner_blocks hnil)
      · exact Or.inr hnil
    · exact Or.inr hne
  constructor
  · intro m hm
    rcases hc.vendors n hposition with hn | hne
    · subst hn
      refine Or.inr (fun hnil => ?_)
      cases Except.ok.inj h
      have hblocked : (c.state.applyAll (plannerNode e).updates).blocked = true :=
        planner_blocks hnil
      change routeAfter (c.state.applyAll (plannerNode e).updates) _ = _ at hm
      rw [routeAfter, if_pos hblocked] at hm
      cases hm
    · exact Or.inr hne
  · exact fun m hm hroute => hpast (route_downstream hroute hm)
  · intro m hm hdown
    rcases List.mem_append.mp hm with hold | hnew
    · exact hkept (hc.executed m hold hdown)
    · rw [List.mem_singleton.mp hnew] at hdown
      exact hpast (Or.inr hdown)
  · intro hended
    rcases route_ended hended with hblocked | hnil | hn
    · exact Or.inl hblocked
    · exact Or.inl (hvendors.resolve_right (not_not_intro hnil))
    · exact Or.inr (hpast (Or.inr (by rw [hn]; decide)))
  · intro hblocked
    by_cases hn : n = .explanationCritic
    · exact Or.inr (hpast (Or.inr (by rw [hn]; decide)))
    · obtain ⟨hstatus, hblock⟩ := superstep_writesStatus hn h
      change r.status.getD c.row.status = _ ∨ _
      rcases blocked_applyAll.mp hblocked with hold | hnew
      · rcases hstatus with hnone | hsome
        · rw [hnone]
          exact (hc.blocked hold).imp id hkept
        · rw [hsome]
          exact Or.inl rfl
      · rw [hblock hnew]
        exact Or.inl rfl
  · exact fun hreturned => absurd hreturned route_ne_returned

theorem ranked_step (hc : Ranked e c) (h : Guarded Admits (Step e) c l c') : Ranked e c' := by
  obtain ⟨hallowed, hstep⟩ := h
  cases hstep with
  | node n order hposition horder =>
      unfold stepNode
      cases hr : superstep e c.state order n with
      | error exc =>
          exact ⟨fun _ h => (nomatch h), fun _ _ h => (nomatch h), hc.executed, fun h => (nomatch h),
            fun _ => Or.inl rfl, fun _ h => (nomatch h)⟩
      | ok r =>
          refine ranked_advance hc hposition (fun hn => ?_) hr
          subst hn
          exact hallowed
  | finish hposition =>
      unfold finish
      by_cases hblocked : c.state.blocked = true
      · rw [if_pos hblocked]
        refine ⟨fun _ h => (nomatch h), fun _ _ h => (nomatch h), hc.executed, fun h => (nomatch h),
          hc.blocked, fun _ hcomplete => ?_⟩
        rcases hc.blocked hblocked with hstatus | hevaluated
        · cases hstatus.symm.trans hcomplete
        · exact hevaluated
      · rw [if_neg hblocked]
        have hevaluated := (hc.ended hposition).resolve_left hblocked
        exact ⟨fun _ h => (nomatch h), fun _ _ h => (nomatch h), hc.executed, fun h => (nomatch h),
          fun _ => Or.inr hevaluated, fun _ _ => hevaluated⟩

/-- In a run whose comparator always has an evaluation output to compare, the nodes behind it
are reached with a ranking. -/
theorem admitted_run_ranked {row : Row} (h : Run (Guarded Admits (Step e)) (Config.start row) ls c) :
    Gated c :=
  (h.invariant (fun _ _ _ hc hstep => ranked_step hc hstep) (ranked_start row)).gated

theorem admitted_run_ranked_planner :
    Gated (stepNode (quietExecution []) (Config.start runningRow) .planner []) := by
  have hrun : Run (Guarded Admits (Step (quietExecution []))) (Config.start runningRow)
      [.node .planner []] (stepNode (quietExecution []) (Config.start runningRow) .planner []) :=
    .single ⟨by simp [Admits], .node _ .planner [] rfl (List.Perm.refl _)⟩
  exact admitted_run_ranked hrun

def retrievalDown : Execution :=
  { quietExecution ["v1"] with
    services := { quietServices with retrieve := fun _ _ _ => .error ⟨.external, "timed out"⟩ } }

/-- The only vendor fails at retrieval, and the run ends as a complete one. -/
theorem unranked_run_completes : ¬ ∀ (e : Execution) (row : Row) (ls : List Label) (c : Config),
    Run (Step e) (Config.start row) ls c → Gated c := by
  intro hgated
  obtain ⟨ls, hrun⟩ := drive_run retrievalDown 18 (Config.start runningRow)
  obtain ⟨hnone, hreturned, hcomplete⟩ :
      (drive retrievalDown 18 (Config.start runningRow)).state.evaluationOutputs.keys = [] ∧
      (drive retrievalDown 18 (Config.start runningRow)).position = .returned ∧
      (drive retrievalDown 18 (Config.start runningRow)).row.status = .complete := by
    decide +kernel
  refine (hgated _ _ ls _ hrun).complete ?_ hreturned hcomplete
  rintro ⟨vid, hvid⟩
  rw [hnone] at hvid
  exact nomatch hvid

end RfpPlatform.EmptyRanking
