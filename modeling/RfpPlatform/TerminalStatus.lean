import RfpPlatform.NodeUpdates

namespace RfpPlatform.TerminalStatus

open ExceptRules NodeUpdates PipelineGraph PipelineNodes RunRequests RunState TransitionRuns

variable {e : Execution} {c c' : Config} {s : PipelineState} {order : List Branch} {r : NodeResult}
  {n : Node} {l : Label} {ls : List Label}

def Settled (row : Row) : Prop :=
  row.status ∈ [RunStatus.complete, .blocked, .failed, .interrupted]

def Exhausted (e : Execution) (s : PipelineState) : Prop :=
  ∃ output, s.explanationOutput = some output ∧
    (explanationVerdict e s output).overallVerdict = .blocked ∧
    explanationMaxRetries ≤ s.explanationRetryCount

/-- Every superstep but an explanation critic that blocks the report for good. -/
def Admits (e : Execution) (c : Config) : Label → Prop
  | .node .explanationCritic _ => ¬ Exhausted e c.state
  | _ => True

/-- A blocked or returned execution has left its status in the row, and the explanation
critic has a report to look at. -/
structure Recorded (c : Config) : Prop where
  blocked : c.state.blocked = true → Settled c.row
  returned : c.position = .returned → Settled c.row
  reported : c.position = .at .explanationCritic → c.state.explanationOutput.isSome = true

theorem explanationCritic_writesStatus (hreport : s.explanationOutput.isSome = true)
    (hallowed : ¬ Exhausted e s) : WritesStatus (explanationCritic e s) := by
  obtain ⟨output, houtput⟩ := Option.isSome_iff_exists.mp hreport
  have hquiet : ∀ {u : Update}, u.block = none → WritesStatus { updates := [u] } := by
    intro u hu
    refine writesStatus_of_no_block (fun v hv => ?_) rfl
    rw [List.mem_singleton.mp hv]
    exact hu
  simp only [explanationCritic, houtput]
  by_cases hverdict : (explanationVerdict e s output).overallVerdict = .blocked
  · rw [if_neg (not_not_intro hverdict)]
    by_cases hretries : explanationMaxRetries ≤ s.explanationRetryCount
    · exact absurd ⟨output, houtput, hverdict, hretries⟩ hallowed
    · rw [if_neg hretries]
      exact hquiet rfl
  · rw [if_pos hverdict]
    exact hquiet rfl

/-- Only the aggregation is followed by the explanation critic. -/
theorem route_eq_explanationCritic (h : route e s n = .at .explanationCritic) :
    n = .explanationFinalise := by
  have hsuccessor := route_at h
  cases n with
  | explanationFinalise => rfl
  | _ => exact nomatch hsuccessor

theorem recorded_advance (hc : Recorded c) (hw : WritesStatus r)
    (h : superstep e c.state order n = .ok r) : Recorded (advance e c n r) := by
  obtain ⟨hstatus, hblock⟩ := hw
  constructor
  · intro hblocked
    change (r.status.getD c.row.status) ∈ _
    rcases blocked_applyAll.mp hblocked with hold | hnew
    · rcases hstatus with hnone | hsome
      · rw [hnone]
        exact hc.blocked hold
      · rw [hsome]
        simp
    · rw [hblock hnew]
      simp
  · exact fun hreturned => absurd hreturned route_ne_returned
  · intro hposition
    have hn := route_eq_explanationCritic hposition
    subst hn
    cases hd : decisionOf c.state with
    | error exc => simp [superstep, hd, Except.map] at h
    | ok decision =>
        simp only [superstep, hd, Except.map, Except.ok.injEq] at h
        rw [← h]
        rfl

theorem recorded_step (hc : Recorded c) (h : Guarded (Admits e) (Step e) c l c') :
    Recorded c' := by
  obtain ⟨hallowed, hstep⟩ := h
  cases hstep with
  | node n order hposition horder =>
      unfold stepNode
      cases hr : superstep e c.state order n with
      | error exc =>
          exact ⟨fun _ => by simp [crashed, Settled], fun _ => by simp [crashed, Settled],
            fun h => nomatch h⟩
      | ok r =>
          refine recorded_advance hc ?_ hr
          by_cases hn : n = .explanationCritic
          · subst hn
            cases Except.ok.inj hr
            exact explanationCritic_writesStatus (hc.reported hposition) hallowed
          · exact superstep_writesStatus hn hr
  | finish hposition =>
      unfold finish
      by_cases hblocked : c.state.blocked = true
      · rw [if_pos hblocked]
        exact ⟨fun _ => hc.blocked hblocked, fun _ => hc.blocked hblocked, fun h => nomatch h⟩
      · rw [if_neg hblocked]
        exact ⟨fun h => absurd h hblocked, fun _ => by simp [Settled], fun h => nomatch h⟩

theorem recorded_start (row : Row) : Recorded (Config.start row) where
  blocked h := nomatch h
  returned h := nomatch h
  reported h := nomatch h

/-- An execution that never runs out of explanation retries leaves a terminal status. -/
theorem admitted_run_settles {row : Row}
    (h : Run (Guarded (Admits e) (Step e)) (Config.start row) ls c) (hreturned : c.position = .returned) :
    Settled c.row :=
  (h.invariant (fun _ _ _ hc hstep => recorded_step hc hstep) (recorded_start row)).returned hreturned

/-- A run without vendors is blocked by its planner, which writes that down. -/
theorem admitted_run_settles_planner :
    Settled (finish (quietExecution [])
      (stepNode (quietExecution []) (Config.start runningRow) .planner [])).row := by
  have hplanner : Step (quietExecution []) (Config.start runningRow) (.node .planner [])
      (stepNode (quietExecution []) (Config.start runningRow) .planner []) :=
    .node _ .planner [] rfl (List.Perm.refl _)
  have hended : (stepNode (quietExecution []) (Config.start runningRow) .planner []).position =
      .ended := by decide +kernel
  have hrun : Run (Guarded (Admits (quietExecution [])) (Step (quietExecution [])))
      (Config.start runningRow) [.node .planner [], .finish]
      (finish (quietExecution []) (stepNode (quietExecution []) (Config.start runningRow) .planner [])) :=
    .cons ⟨by simp [Admits], hplanner⟩ (.single ⟨by simp [Admits], .finish _ hended⟩)
  exact admitted_run_settles hrun (finish_position _)

/-- Three narratives without a claim use up the retries: the run is blocked, and its row
says that it is running. -/
theorem exhausted_run_stays_running : ¬ ∀ (e : Execution) (row : Row) (ls : List Label) (c : Config),
    Run (Step e) (Config.start row) ls c → c.position = .returned → Settled c.row := by
  intro hsettles
  obtain ⟨ls, hrun⟩ := drive_run (quietExecution ["v1"]) 26 (Config.start runningRow)
  obtain ⟨hreturned, hrunning⟩ :
      (drive (quietExecution ["v1"]) 26 (Config.start runningRow)).position = .returned ∧
      (drive (quietExecution ["v1"]) 26 (Config.start runningRow)).row.status = .running := by
    decide +kernel
  have hsettled := hsettles _ _ ls _ hrun hreturned
  rw [Settled, hrunning] at hsettled
  exact absurd hsettled (by decide)

end RfpPlatform.TerminalStatus
