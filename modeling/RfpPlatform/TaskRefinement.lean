import RfpPlatform.RunTasks

namespace RfpPlatform.TaskRefinement

open ExceptRules PipelineGraph PipelineNodes RunRequests RunState TransitionRuns
open RunTasks (Codec Phase RowWrite Task TaskStep World applyWrite rowOf rowOf_apply)

variable {codec : Codec} {runId : String} {id : Nat} {e : Execution} {c c' : Config} {w : World}
  {n : Node} {order : List Branch} {r : NodeResult} {draw : Draw} {l : PipelineGraph.Label}

/-- The row of the tables holds what the row of a graph execution does. -/
structure RowMatches (codec : Codec) (row : Row) (run : RunRow) : Prop where
  status : run.status = row.status
  decision : run.decisionOutput = row.decisionOutput.map codec.decision
  explanation : run.explanationOutput = row.explanationOutput.map codec.explanation

/-- A world in which one task stands where an execution of the graph does. -/
structure Follows (codec : Codec) (runId : String) (id : Nat) (e : Execution) (c : Config)
    (w : World) : Prop where
  task : ∃ settled, w.tasks =
    ((Phase.ofPosition c.state c.position).map (fun p => (⟨id, e, p, settled⟩ : Task))).toList
  row : ∃ run, rowOf w.db runId = some run ∧ RowMatches codec c.row run

/-- The label of a step of the task that writes no output. -/
def Quiet (id : Nat) : RunTasks.Label → Prop
  | .task _ i none => i = id
  | .task _ i (some (.status _)) => i = id
  | _ => False

theorem step_single (codec : Codec) (runId : String) (draw : Draw) {task : Task} {write : Option RowWrite} {phase : Option Phase}
    (htask : w.tasks = [task]) (hstep : TaskStep codec task.execution task.phase write phase) :
    RunTasks.Step codec runId w (.task draw task.id write)
      { w with db := applyWrite draw runId w.db write, tasks := task.next write phase } := by
  have hsplit : w.tasks = [] ++ task :: [] := htask
  have h : RunTasks.Step codec runId w (.task draw task.id write) _ := .task draw hsplit hstep
  simpa using h

/-- A node that the graph goes through is a step of the task, which writes no output. -/
theorem follows_node (hw : Follows codec runId id e c w) (hposition : c.position = .at n)
    (horder : order.Perm (branches e.input)) (hr : superstep e c.state order n = .ok r) :
    ∃ l w', Quiet id l ∧ RunTasks.Step codec runId w l w' ∧
      Follows codec runId id e (advance e c n r) w' ∧ w'.pending = w.pending ∧
        w'.launched = w.launched := by
  obtain ⟨⟨settled, htasks⟩, run, hrow, hmatches⟩ := hw
  rw [hposition] at htasks
  have hstep := step_single codec runId adminDraw htasks (.node horder hr)
  refine ⟨_, _, ?_, hstep, ⟨?_, ?_⟩, rfl, rfl⟩
  · cases r.status <;> exact rfl
  · exact ⟨settled || (r.status.map RowWrite.status).any RowWrite.settles, rfl⟩
  · change ∃ run', rowOf (applyWrite adminDraw runId w.db (r.status.map .status)) runId = some run' ∧
      RowMatches codec { c.row with status := r.status.getD c.row.status } run'
    cases r.status with
    | none => exact ⟨run, hrow, hmatches⟩
    | some status =>
        refine ⟨(RowWrite.status status).onRow adminDraw run, ?_,
          ⟨rfl, hmatches.decision, hmatches.explanation⟩⟩
        rw [Option.map_some, applyWrite, rowOf_apply, hrow]
        rfl

theorem follows_crash (hw : Follows codec runId id e c w) (hposition : c.position = .at n) :
    ∃ w', Reachable (RunTasks.Step codec runId) w w' ∧
      Follows codec runId id e (crashed c) w' := by
  obtain ⟨⟨settled, htasks⟩, run, hrow, hmatches⟩ := hw
  rw [hposition] at htasks
  have hraised := step_single codec runId adminDraw htasks (.raised rfl)
  have hhandled := step_single codec runId adminDraw
    (w := { w with tasks := [⟨id, e, .failing, settled || false⟩] }) rfl .handled
  refine ⟨_, ⟨_, .cons hraised (.single hhandled)⟩, ⟨settled, rfl⟩,
    (RowWrite.status .blocked).onRow adminDraw run, ?_, ⟨rfl, hmatches.decision, hmatches.explanation⟩⟩
  change rowOf (RowWrite.apply adminDraw runId w.db (.status .blocked)) runId = _
  rw [rowOf_apply, hrow]
  rfl

def explanationWrite (codec : Codec) (e : Execution) (s : PipelineState) : Option RowWrite :=
  if e.services.explanationSaved then
    s.explanationOutput.map (fun output => .explanation (codec.explanation output)) else none

theorem step_decision {s : PipelineState} (hs : s.blocked = false) : TaskStep codec e (.ended s)
    (s.decisionOutput.map (fun decision => .decision (codec.decision decision)))
    (some (.explaining s)) := by
  cases hd : s.decisionOutput with
  | none => exact .undecided hs hd
  | some decision => exact .decided hs hd

theorem step_explanation {s : PipelineState} :
    TaskStep codec e (.explaining s) (explanationWrite codec e s) (some .closing) := by
  unfold explanationWrite
  split
  · cases hx : s.explanationOutput with
    | none => exact .unexplained
    | some output => exact .explained hx
  · exact .unexplained

theorem rowOf_decision (codec : Codec) (draw : Draw) (s : PipelineState) {db : Db} {run : RunRow}
    (hrow : rowOf db runId = some run) : ∃ run', rowOf (applyWrite draw runId db
      (s.decisionOutput.map (fun decision => .decision (codec.decision decision)))) runId =
        some run' ∧ run'.explanationOutput = run.explanationOutput ∧
          run'.decisionOutput = (s.decisionOutput.map codec.decision).orElse
            (fun _ => run.decisionOutput) := by
  cases s.decisionOutput with
  | none => exact ⟨run, hrow, rfl, rfl⟩
  | some decision =>
      refine ⟨(RowWrite.decision (codec.decision decision)).onRow draw run, ?_, rfl, rfl⟩
      rw [Option.map_some, applyWrite, rowOf_apply, hrow]
      rfl

theorem rowOf_explanation (codec : Codec) (draw : Draw) (e : Execution) (s : PipelineState)
    {db : Db} {run : RunRow}
    (hrow : rowOf db runId = some run) : ∃ run',
      rowOf (applyWrite draw runId db (explanationWrite codec e s)) runId = some run' ∧
        run'.decisionOutput = run.decisionOutput ∧
          run'.explanationOutput = (if e.services.explanationSaved then
            (s.explanationOutput.map codec.explanation).orElse (fun _ => run.explanationOutput)
              else run.explanationOutput) := by
  unfold explanationWrite
  split
  · cases s.explanationOutput with
    | none => exact ⟨run, hrow, rfl, rfl⟩
    | some output =>
        refine ⟨(RowWrite.explanation (codec.explanation output)).onRow draw run, ?_, rfl, rfl⟩
        rw [Option.map_some, applyWrite, rowOf_apply, hrow]
        rfl
  · exact ⟨run, hrow, rfl, rfl⟩

theorem follows_finish (hw : Follows codec runId id e c w) (hposition : c.position = .ended) :
    ∃ w', Reachable (RunTasks.Step codec runId) w w' ∧ Follows codec runId id e (finish e c) w' := by
  obtain ⟨⟨settled, htasks⟩, run, hrow, hmatches⟩ := hw
  rw [hposition] at htasks
  by_cases hblocked : c.state.blocked = true
  · have hstep := step_single codec runId adminDraw htasks (.blocked hblocked)
    refine ⟨_, ⟨_, .single hstep⟩, ?_⟩
    rw [finish, if_pos hblocked]
    exact ⟨⟨settled, rfl⟩, run, hrow, hmatches⟩
  · have hopen : c.state.blocked = false := by simpa using hblocked
    have hdecision := step_single codec runId adminDraw htasks (step_decision hopen)
    obtain ⟨run₁, hrow₁, hexplanation₁, hdecision₁⟩ :=
      rowOf_decision codec adminDraw c.state hrow
    obtain ⟨run₂, hrow₂, hdecision₂, hexplanation₂⟩ :=
      rowOf_explanation codec adminDraw e c.state hrow₁
    refine ⟨_, ⟨_, .cons hdecision
      (.cons (step_single codec runId adminDraw rfl step_explanation)
        (.cons (step_single codec runId adminDraw rfl (.summarised ""))
          (.cons (step_single codec runId adminDraw rfl .completed)
            (.single (step_single codec runId adminDraw rfl .finished)))))⟩, ?_⟩
    rw [finish, if_neg hblocked]
    refine ⟨⟨settled, rfl⟩, (RowWrite.status .complete).onRow adminDraw
      ((RowWrite.event "").onRow adminDraw run₂), ?_, ?_⟩
    · change rowOf (RowWrite.apply adminDraw runId (RowWrite.apply adminDraw runId _ (.event ""))
        (.status .complete)) runId = _
      rw [rowOf_apply, rowOf_apply, hrow₂]
      rfl
    · refine ⟨rfl, ?_, ?_⟩
      · change run₂.decisionOutput = _
        rw [hdecision₂, hdecision₁, hmatches.decision]
        cases c.state.decisionOutput <;> rfl
      · change run₂.explanationOutput = _
        rw [hexplanation₂, hexplanation₁, hmatches.explanation]
        split
        · cases c.state.explanationOutput <;> rfl
        · rfl

theorem follows_step (hw : Follows codec runId id e c w) (h : PipelineGraph.Step e c l c') :
    ∃ w', Follows codec runId id e c' w' ∧ Reachable (RunTasks.Step codec runId) w w' := by
  cases h with
  | node n order hposition horder =>
      unfold stepNode
      cases hr : superstep e c.state order n with
      | ok r =>
          obtain ⟨l, w', _, hstep, hw', _⟩ := follows_node hw hposition horder hr
          exact ⟨w', hw', ⟨_, .single hstep⟩⟩
      | error exc =>
          obtain ⟨w', hreach, hw'⟩ := follows_crash hw hposition
          exact ⟨w', hw', hreach⟩
  | finish hposition =>
      obtain ⟨w', hreach, hw'⟩ := follows_finish hw hposition
      exact ⟨w', hw', hreach⟩

/-- What the graph and its driver do in one execution, a task of the run can do in steps. -/
theorem task_simulates_graph {ls : List PipelineGraph.Label}
    (h : Run (PipelineGraph.Step e) c ls c') (hw : Follows codec runId id e c w) :
    ∃ w', Follows codec runId id e c' w' ∧ Reachable (RunTasks.Step codec runId) w w' :=
  h.simulates (fun _ _ _ _ hw hstep => follows_step hw hstep) hw

theorem returned_of_run {ls : List PipelineGraph.Label} (h : Run (PipelineGraph.Step e) c ls c')
    (hreturned : c.position = .returned) : c'.position = .returned := by
  cases h with
  | nil => exact hreturned
  | cons hstep _ =>
      cases hstep with
      | node n _ hposition _ => exact nomatch hreturned.symm.trans hposition
      | finish hposition => exact nomatch hreturned.symm.trans hposition

/-- As long as the graph goes on, its task has written no output. -/
theorem task_quiet_in_graph {ls : List PipelineGraph.Label}
    (h : Run (PipelineGraph.Step e) c ls c') (hgraph : c'.position ≠ .returned)
    (hw : Follows codec runId id e c w) :
    ∃ ls w', Run (RunTasks.Step codec runId) w ls w' ∧ (∀ l ∈ ls, Quiet id l) ∧
      Follows codec runId id e c' w' ∧ w'.pending = w.pending ∧ w'.launched = w.launched := by
  induction h generalizing w with
  | nil => exact ⟨[], w, .nil w, fun _ h => (nomatch h), hw, rfl, rfl⟩
  | @cons c m c' _ _ hstep hrest ih =>
      have hgoes : m.position ≠ .returned := fun hreturned =>
        hgraph (returned_of_run hrest hreturned)
      cases hstep with
      | node n order hposition horder =>
          unfold stepNode at hgoes ih
          cases hr : superstep e c.state order n with
          | ok r =>
              obtain ⟨l, w', hl, hw', hfollows, hpending, hlaunched⟩ :=
                follows_node hw hposition horder hr
              rw [hr] at ih
              obtain ⟨ls, w'', hrun, hls, hfollows', hpending', hlaunched'⟩ := ih hgraph hfollows
              exact ⟨l :: ls, w'', .cons hw' hrun, List.forall_mem_cons.mpr ⟨hl, hls⟩, hfollows',
                hpending'.trans hpending, hlaunched'.trans hlaunched⟩
          | error exc =>
              rw [hr] at hgoes
              exact absurd rfl hgoes
      | finish hposition => exact absurd (finish_position c) hgoes

end RfpPlatform.TaskRefinement
