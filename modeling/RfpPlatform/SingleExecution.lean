import RfpPlatform.RunTasks

namespace RfpPlatform.SingleExecution

open PipelineGraph (quietExecution)
open RunRequests RunTasks TransitionRuns

variable {c : Codec} {runId : String} {w w' : World} {l : Label}

/-- No confirmation or re-evaluation passes its check while another is about to be written, or
while a task executes whose final status is in the row. No cancellation is written while a
task executes. -/
def Admits (w : World) : Label → Prop
  | .read _ _ op => op.launches = true →
      (∀ other ∈ w.pending, other.launches = false) ∧ ∀ task ∈ w.tasks, task.settled = false
  | .write _ op _ => op.launches = false → w.tasks = []
  | .task _ _ _ => True

/-- A task that is not settled keeps its run in the status that turns a launch away. -/
structure Exclusive (runId : String) (w : World) : Prop where
  alone : w.tasks.length ≤ 1
  busy : ∀ task ∈ w.tasks, task.settled = false → ∀ status ∈ statusOf w.db runId, status = .running
  waiting : w.pending.countP Op.launches ≤ 1
  free : ∀ op ∈ w.pending, op.launches = true → w.tasks = []

theorem Op.status_of_launches {op : Op} (h : op.launches = true) {status : RunStatus}
    (hpasses : op.passes status = true) : status ≠ .running := by
  rintro rfl
  cases op with
  | confirm => cases hpasses
  | reEvaluate => cases hpasses
  | cancel => cases h

theorem Op.running_of_launches {op : Op} (h : op.launches = true) (draw : Draw) (run : RunRow) :
    (op.onRow draw run).status = .running := by
  cases op with
  | confirm => rfl
  | reEvaluate => rfl
  | cancel => cases h

theorem countP_erase_of_launches {ops : List Op} {op : Op} (hop : op ∈ ops)
    (h : op.launches = true) (hone : ops.countP Op.launches ≤ 1) :
    (ops.erase op).countP Op.launches = 0 := by
  have hperm := (List.perm_cons_erase hop).countP_eq Op.launches
  rw [List.countP_cons_of_pos h] at hperm
  omega

theorem statusOf_applyWrite_of_unsettled {db : Db} {draw : Draw} {write : Option RowWrite}
    (h : write.any RowWrite.settles = false) :
    statusOf (applyWrite draw runId db write) runId = statusOf db runId := by
  cases write with
  | none => rfl
  | some write =>
      rw [applyWrite, statusOf, statusOf, rowOf_apply, Option.map_map]
      cases write with
      | status value => cases h
      | decision json => cases h
      | explanation json => rfl
      | event entry => rfl

theorem exclusive_preserved : Preserved (Guarded Admits (Step c runId)) (Exclusive runId) := by
  rintro w l w' ⟨halone, hbusy, hwaiting, hfree⟩ ⟨hallowed, hstep⟩
  cases hstep with
  | @read _ _ op hcheck =>
      by_cases hop : op.launches = true
      · obtain ⟨hothers, hunsettled⟩ := hallowed hop
        obtain ⟨run, hrow, hpasses⟩ := check_rowOf hcheck
        have hidle : w.tasks = [] := by
          refine List.eq_nil_iff_forall_not_mem.mpr (fun task htask => ?_)
          have hstatus : run.status ∈ statusOf w.db runId := by rw [statusOf, hrow]; rfl
          exact Op.status_of_launches hop hpasses
            (hbusy task htask (hunsettled task htask) run.status hstatus)
        refine ⟨halone, hbusy, ?_, fun _ _ _ => hidle⟩
        have hnone : w.pending.countP Op.launches = 0 :=
          List.countP_eq_zero.mpr (fun other hother => by simp [hothers other hother])
        simp [hnone, hop]
      · refine ⟨halone, hbusy, ?_, fun other hother hlaunches => ?_⟩
        · simpa [List.countP_cons, hop] using hwaiting
        · rcases List.mem_cons.mp hother with rfl | hother
          · exact absurd hlaunches hop
          · exact hfree other hother hlaunches
  | @write draw op execution hop =>
      by_cases hlaunches : op.launches = true
      · have hidle : w.tasks = [] := hfree op hop hlaunches
        have hcount := countP_erase_of_launches hop hlaunches hwaiting
        have hnone : ∀ other ∈ w.pending.erase op, other.launches = false := fun other hother => by
          simpa using List.countP_eq_zero.mp hcount other hother
        rw [World.launch, if_pos hlaunches]
        refine ⟨by simp [hidle], fun _ _ _ status hstatus => ?_, by simp [hcount],
          fun other hother h => ?_⟩
        · change status ∈ statusOf (writeOp draw runId w.db op) runId at hstatus
          rw [statusOf_writeOp] at hstatus
          obtain ⟨run, _, rfl⟩ := Option.map_eq_some_iff.mp hstatus
          exact Op.running_of_launches hlaunches draw run
        · rw [hnone other hother] at h
          cases h
      · have hidle : w.tasks = [] := hallowed (by simpa using hlaunches)
        rw [World.launch, if_neg hlaunches]
        refine ⟨halone, fun task htask => ?_, ?_, fun _ _ _ => hidle⟩
        · rw [hidle] at htask
          cases htask
        · exact (List.Sublist.countP_le List.erase_sublist).trans hwaiting
  | @task draw before after task write phase htask hstep =>
      obtain ⟨rfl, rfl⟩ := split_of_alone halone htask
      refine ⟨?_, fun next hnext hunsettled status hstatus => ?_, hwaiting, fun op hop h => ?_⟩
      · simpa only [List.nil_append, List.append_nil] using length_next
      · rw [List.nil_append, List.append_nil] at hnext
        rw [(mem_next hnext).2] at hunsettled
        obtain ⟨hold, hquiet⟩ := Bool.or_eq_false_iff.mp hunsettled
        change status ∈ statusOf (applyWrite draw runId w.db write) runId at hstatus
        rw [statusOf_applyWrite_of_unsettled hquiet] at hstatus
        exact hbusy task (htask ▸ List.mem_cons_self) hold status hstatus
      · have hidle := hfree op hop h
        rw [htask] at hidle
        cases hidle

/-- While the launches of a run do not overlap and come after the end of its task, there is
never more than one task that executes it. -/
theorem admitted_run_exclusive (ls : List Label) (w w' : World) (hidle : w.tasks = [])
    (hpending : w.pending = []) (hrun : Run (Guarded Admits (Step c runId)) w ls w') :
    w'.tasks.length ≤ 1 := by
  have hstart : Exclusive runId w := by
    refine ⟨by simp [hidle], fun task htask => ?_, by simp [hpending], fun op hop => ?_⟩
    · rw [hidle] at htask
      cases htask
    · rw [hpending] at hop
      cases hop
  exact (hrun.invariant exclusive_preserved hstart).alone

def confirmedWorld : World :=
  World.launch ⟨runningDb, [], [], 0⟩ (quietExecution ["v1"]) .confirm

theorem confirmed_run_exclusive : confirmedWorld.tasks.length ≤ 1 := by
  have hread : Guarded Admits (Step plainCodec "run-1") waitingWorld
      (.read adminDraw companyAdmin .confirm) ⟨waitingDb, [.confirm], [], 0⟩ :=
    ⟨fun _ => ⟨fun _ h => (nomatch h), fun _ h => (nomatch h)⟩, .read adminDraw companyAdmin rfl⟩
  have hwrite : Guarded Admits (Step plainCodec "run-1") ⟨waitingDb, [.confirm], [], 0⟩
      (.write adminDraw .confirm (quietExecution ["v1"])) confirmedWorld :=
    ⟨(fun h => by cases h), .write adminDraw (quietExecution ["v1"]) List.mem_cons_self⟩
  exact admitted_run_exclusive _ waitingWorld confirmedWorld rfl rfl (.cons hread (.single hwrite))

/-- Two confirmations that read the waiting run before either writes it start two tasks. -/
theorem confirmed_twice : ¬ ∀ (c : Codec) (runId : String) (ls : List Label) (w : World),
    Run (Step c runId) waitingWorld ls w → w.tasks.length ≤ 1 := by
  intro h
  have hcheck : check adminDraw companyAdmin "run-1" .confirm waitingDb = .ok () := rfl
  have hreads : Run (Step plainCodec "run-1") waitingWorld _
      ⟨waitingDb, [.confirm, .confirm], [], 0⟩ :=
    .cons (.read adminDraw companyAdmin hcheck) (.single (.read adminDraw companyAdmin hcheck))
  have hwrites : Run (Step plainCodec "run-1") ⟨waitingDb, [.confirm, .confirm], [], 0⟩ _ _ :=
    .cons (.write adminDraw (quietExecution ["v1"]) List.mem_cons_self)
      (.single (.write adminDraw (quietExecution ["v1"]) List.mem_cons_self))
  exact absurd (h plainCodec "run-1" _ _ (hreads.append hwrites)) (by decide)

end RfpPlatform.SingleExecution
