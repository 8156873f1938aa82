import RfpPlatform.RunTasks

namespace RfpPlatform.Cancellation

open PipelineGraph (quietExecution)
open RunRequests RunTasks TransitionRuns

variable {c : Codec} {runId : String} {w w' : World} {l : Label} {draw : Draw}
  {execution : PipelineNodes.Execution}

def reEvaluates : Label → Bool
  | .write _ .reEvaluate _ => true
  | _ => false

/-- Whatever happens next, only a re-evaluation takes the run out of its interrupted status. -/
def Final (c : Codec) (runId : String) (w : World) : Prop :=
  ∀ ls w', Run (Step c runId) w ls w' → (∀ l ∈ ls, reEvaluates l = false) →
    statusOf w'.db runId = some .interrupted

/-- An interrupted run that no task executes and that no request is about to confirm. -/
structure Cancelled (runId : String) (w : World) : Prop where
  interrupted : statusOf w.db runId = some .interrupted
  idle : w.tasks = []
  unconfirmed : Op.confirm ∉ w.pending

theorem cancelled_preserved : Preserved
    (Guarded (fun _ l => reEvaluates l = false) (Step c runId)) (Cancelled runId) := by
  rintro w l w' ⟨hinterrupted, hidle, hunconfirmed⟩ ⟨hl, hstep⟩
  cases hstep with
  | @read _ _ op hcheck =>
      refine ⟨hinterrupted, hidle, fun hmem => ?_⟩
      rcases List.mem_cons.mp hmem with rfl | hold
      · obtain ⟨run, hrow, hpasses⟩ := check_rowOf hcheck
        have hstatus : run.status = .interrupted := by
          rw [statusOf, hrow] at hinterrupted
          exact Option.some.inj hinterrupted
        rw [hstatus] at hpasses
        cases hpasses
      · exact hunconfirmed hold
  | @write _ op _ hop =>
      cases op with
      | confirm => exact absurd hop hunconfirmed
      | reEvaluate => cases hl
      | cancel =>
          obtain ⟨run, hrow, _⟩ := Option.map_eq_some_iff.mp hinterrupted
          refine ⟨?_, hidle, fun hmem => hunconfirmed (List.mem_of_mem_erase hmem)⟩
          change statusOf (writeOp _ runId w.db .cancel) runId = _
          rw [statusOf_writeOp, hrow]
          rfl
  | task _ htask _ =>
      rw [hidle] at htask
      exact absurd htask (by simp)

theorem cancelled_final (h : Cancelled runId w) : Final c runId w := fun _ _ hrun hls =>
  ((hrun.guarded hls).invariant cancelled_preserved h).interrupted

def moved (w : World) (before after : List Task) (task : Task)
    (p : Phase) : World :=
  { w with tasks := before ++ { task with phase := p } :: after }

theorem step_moved {before after : List Task} {task : Task} {p : Phase}
    (htask : w.tasks = before ++ task :: after)
    (hstep : TaskStep c task.execution task.phase none (some p)) (draw : Draw) :
    Step c runId w (.task draw task.id none) (moved w before after task p) := by
  have h : Step c runId w (.task draw task.id none) _ := .task draw htask hstep
  simpa [applyWrite, Task.next, moved] using h

theorem task_reaches_failing {before after : List Task} {task : Task}
    (htask : w.tasks = before ++ task :: after) (draw : Draw) :
    ∃ ls, (∀ l ∈ ls, reEvaluates l = false) ∧
      Run (Step c runId) w ls (moved w before after task .failing) := by
  by_cases hphase : task.phase.raises = true
  · exact ⟨_, by simp [reEvaluates], .single (step_moved htask (.raised hphase) draw)⟩
  · rcases task with ⟨id, execution, phase, settled⟩
    cases phase with
    | explaining s =>
        have hclosing : Step c runId w (.task draw id none) _ := step_moved htask .unexplained draw
        have htask' : (moved w before after ⟨id, execution, .explaining s, settled⟩ .closing).tasks =
          before ++ ⟨id, execution, .closing, settled⟩ :: after := rfl
        exact ⟨_, by simp [reEvaluates],
          .cons hclosing (.single (step_moved htask' (.raised rfl) draw))⟩
    | failing =>
        refine ⟨[], by simp, ?_⟩
        have h : moved w before after ⟨id, execution, .failing, settled⟩ .failing = w := by
          rw [moved, ← htask]
        rw [h]
        exact .nil w
    | _ => exact absurd rfl hphase

/-- A task that still executes can block the run, whatever its row says by then. -/
theorem executing_overwrites {before after : List Task} {task : Task} {run : RunRow}
    (htask : w.tasks = before ++ task :: after) (hrow : rowOf w.db runId = some run) :
    ∃ ls w', Run (Step c runId) w ls w' ∧ (∀ l ∈ ls, reEvaluates l = false) ∧
      statusOf w'.db runId = some .blocked := by
  obtain ⟨ls, hls, hrun⟩ := task_reaches_failing (c := c) htask adminDraw
  have htask' : (moved w before after task .failing).tasks =
    before ++ { task with phase := .failing } :: after := rfl
  refine ⟨_, _, hrun.snoc (.task adminDraw htask' .handled), ?_, ?_⟩
  · intro l hl
    rcases List.mem_append.mp hl with hl | hl
    · exact hls l hl
    · rw [List.mem_singleton.mp hl]
      rfl
  · change (rowOf (RowWrite.apply adminDraw runId w.db (.status .blocked)) runId).map _ = _
    rw [rowOf_apply, hrow]
    rfl

theorem not_final_of_executing {task : Task} {run : RunRow} (htask : task ∈ w.tasks)
    (hrow : rowOf w.db runId = some run) : ¬ Final c runId w := by
  obtain ⟨before, after, hsplit⟩ := List.append_of_mem htask
  obtain ⟨ls, w', hrun, hls, hblocked⟩ := executing_overwrites (c := c) hsplit hrow
  intro hfinal
  have hinterrupted := hfinal ls w' hrun hls
  rw [hblocked] at hinterrupted
  cases hinterrupted

theorem not_final_of_confirming {run : RunRow} (hconfirm : Op.confirm ∈ w.pending)
    (execution : PipelineNodes.Execution) (hrow : rowOf w.db runId = some run) :
    ¬ Final c runId w := by
  intro hfinal
  have hstep : Step c runId w (.write adminDraw .confirm execution) _ :=
    .write adminDraw execution hconfirm
  have hinterrupted := hfinal _ _ (.single hstep) (by simp [reEvaluates])
  change statusOf (writeOp adminDraw runId w.db .confirm) runId = _ at hinterrupted
  rw [statusOf_writeOp, hrow] at hinterrupted
  cases hinterrupted

/-- The interruption that `cancel_run` writes is final exactly when no task of the run is
executing by then and no confirmation has passed its check. -/
theorem cancel_final_iff (h : Step c runId w (.write draw .cancel execution) w') :
    Final c runId w' ↔
      (rowOf w.db runId).isSome = true ∧ w.tasks = [] ∧ Op.confirm ∉ w.pending := by
  cases h with
  | write _ _ hop =>
      set w' : World := { w with
        db := writeOp draw runId w.db .cancel, pending := w.pending.erase .cancel } with hw'
      change Final c runId w' ↔ _
      have hconfirm : Op.confirm ∈ w'.pending ↔ Op.confirm ∈ w.pending :=
        List.mem_erase_of_ne (by decide)
      constructor
      · intro hfinal
        obtain ⟨run, hrow, _⟩ := Option.map_eq_some_iff.mp (hfinal [] w' (.nil w') (by simp))
        have hold : (rowOf w.db runId).isSome = true := by
          change rowOf (writeOp draw runId w.db .cancel) runId = some run at hrow
          rw [rowOf_writeOp] at hrow
          obtain ⟨old, hold, _⟩ := Option.map_eq_some_iff.mp hrow
          rw [hold]
          rfl
        refine ⟨hold, ?_, fun hmem => ?_⟩
        · refine List.eq_nil_iff_forall_not_mem.mpr (fun task htask => ?_)
          exact not_final_of_executing (w := w') htask hrow hfinal
        · exact not_final_of_confirming (hconfirm.mpr hmem) execution hrow hfinal
      · rintro ⟨hrow, hidle, hunconfirmed⟩
        obtain ⟨run, hrun⟩ := Option.isSome_iff_exists.mp hrow
        refine cancelled_final ⟨?_, hidle, fun hmem => hunconfirmed (hconfirm.mp hmem)⟩
        change statusOf (writeOp draw runId w.db .cancel) runId = _
        rw [statusOf_writeOp, hrun]
        rfl

/-- A run whose task was lost, as by a restart, with a cancellation that has passed its check. -/
def lostWorld : World := ⟨runningDb, [.cancel], [], 1⟩

def cancelledWorld : World := ⟨writeOp adminDraw "run-1" runningDb .cancel, [], [], 1⟩

theorem lost_run_cancel_final : Final plainCodec "run-1" cancelledWorld := by
  have hstep : Step plainCodec "run-1" lostWorld
      (.write adminDraw .cancel (quietExecution ["v1"])) cancelledWorld :=
    .write adminDraw (quietExecution ["v1"]) List.mem_cons_self
  exact (cancel_final_iff hstep).mpr ⟨by decide +kernel, rfl, by decide⟩

/-- A run that is confirmed and then cancelled is blocked by its own task later on. -/
theorem cancelled_run_overwritten :
    ¬ ∀ (c : Codec) (runId : String) (ls : List Label) (w w' : World) (draw : Draw)
      (execution : PipelineNodes.Execution), Run (Step c runId) waitingWorld ls w →
        Step c runId w (.write draw .cancel execution) w' → Final c runId w' := by
  intro h
  have hconfirm : check adminDraw companyAdmin "run-1" .confirm waitingDb = .ok () := rfl
  have hcancel : check adminDraw companyAdmin "run-1" .cancel runningDb = .ok () := rfl
  have hrun : Run (Step plainCodec "run-1") waitingWorld _ _ :=
    .cons (.read adminDraw companyAdmin hconfirm)
      (.cons (.write adminDraw (quietExecution ["v1"]) List.mem_cons_self)
        (.single (.read adminDraw companyAdmin hcancel)))
  have hcancelled := h plainCodec "run-1" _ _ _ adminDraw (quietExecution ["v1"]) hrun
    (.write adminDraw (quietExecution ["v1"]) List.mem_cons_self)
  have hrow : rowOf (writeOp adminDraw "run-1" runningDb .cancel) "run-1" =
      some (Op.cancel.onRow adminDraw (Op.confirm.onRow adminDraw (waitingRun "run-1"))) := rfl
  exact not_final_of_executing List.mem_cons_self hrow hcancelled

end RfpPlatform.Cancellation
