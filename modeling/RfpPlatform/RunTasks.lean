import RfpPlatform.PipelineGraph

namespace RfpPlatform.RunTasks

open AccountRequests (TokenData httpError)
open ExceptRules Explanation PipelineGraph PipelineNodes RunRequests RunState

section Pipeline

inductive RowWrite
  | status (value : RunStatus)
  | decision (json : String)
  | explanation (json : String)
  | event (entry : String)

def RowWrite.apply (draw : Draw) (runId : String) (db : Db) : RowWrite → Db
  | .status value => dbUpdateStatus db draw runId value true
  | .decision json => dbSaveDecision db draw runId json
  | .explanation json => dbSaveExplanation db runId json
  | .event entry => dbAppendEvent db runId entry

def applyWrite (draw : Draw) (runId : String) (db : Db) : Option RowWrite → Db
  | some write => write.apply draw runId db
  | none => db

/-- The write leaves a final status in the row. -/
def RowWrite.settles : RowWrite → Bool
  | .status .. => true
  | .decision .. => true
  | _ => false

/-- `json.dumps` of the two outputs that are stored in the row. -/
structure Codec where
  decision : DecisionOutput → String
  explanation : ExplanationOutput → String

/-- Where a task stands: before a node, at the end of the graph, between the statements after
it, or in the handler of an exception. -/
inductive Phase
  | at (n : Node) (s : PipelineState)
  | ended (s : PipelineState)
  | explaining (s : PipelineState)
  | closing
  | completing
  | finishing
  | failing

def Phase.ofPosition (s : PipelineState) : Position → Option Phase
  | .at n => some (.at n s)
  | .ended => some (.ended s)
  | .returned => none

/-- What follows a node: its successor in the graph, with the node's updates applied. -/
def Phase.after (e : Execution) (s : PipelineState) (n : Node) (r : NodeResult) : Option Phase :=
  Phase.ofPosition (s.applyAll r.updates) (route e (s.applyAll r.updates) n)

/-- An exception in this phase reaches the driver's handler. -/
def Phase.raises : Phase → Bool
  | .explaining _ => false
  | .failing => false
  | _ => true

/-- The steps of `_run_pipeline`, each with at most one statement on the row. The writes of
the blocking nodes, of the explanation and of the handler are best effort. -/
inductive TaskStep (c : Codec) (e : Execution) : Phase → Option RowWrite → Option Phase → Prop
  | node {n : Node} {s : PipelineState} {order : List Branch} {r : NodeResult}
      (horder : order.Perm (branches e.input)) (hr : superstep e s order n = .ok r) :
      TaskStep c e (.at n s) (r.status.map .status) (Phase.after e s n r)
  | nodeUnwritten {n : Node} {s : PipelineState} {order : List Branch} {r : NodeResult}
      (horder : order.Perm (branches e.input)) (hr : superstep e s order n = .ok r) :
      TaskStep c e (.at n s) none (Phase.after e s n r)
  | blocked {s : PipelineState} (hs : s.blocked = true) : TaskStep c e (.ended s) none none
  | decided {s : PipelineState} {decision : DecisionOutput} (hs : s.blocked = false)
      (hd : s.decisionOutput = some decision) :
      TaskStep c e (.ended s) (some (.decision (c.decision decision))) (some (.explaining s))
  | undecided {s : PipelineState} (hs : s.blocked = false) (hd : s.decisionOutput = none) :
      TaskStep c e (.ended s) none (some (.explaining s))
  | explained {s : PipelineState} {output : ExplanationOutput}
      (hx : s.explanationOutput = some output) :
      TaskStep c e (.explaining s) (some (.explanation (c.explanation output))) (some .closing)
  | unexplained {s : PipelineState} : TaskStep c e (.explaining s) none (some .closing)
  | summarised (entry : String) :
      TaskStep c e .closing (some (.event entry)) (some .completing)
  | completed : TaskStep c e .completing (some (.status .complete)) (some .finishing)
  | finished : TaskStep c e .finishing none none
  | raised {p : Phase} (hp : p.raises = true) : TaskStep c e p none (some .failing)
  | handled : TaskStep c e .failing (some (.status .blocked)) none
  | unhandled : TaskStep c e .failing none none

end Pipeline

section Requests

inductive Op
  | confirm | reEvaluate | cancel
  deriving DecidableEq

def Op.launches : Op → Bool
  | .cancel => false
  | _ => true

/-- The statuses in which the endpoint goes on. -/
def Op.passes : Op → RunStatus → Bool
  | .confirm, status => status ∈ [RunStatus.pendingConfirm]
  | .reEvaluate, status => status ∉ [RunStatus.running]
  | .cancel, status => status ∈ [RunStatus.running, .pending]

def Op.refusal : Op → RunStatus → Exn
  | .confirm, status => httpError 409 s!"Run already in status: {status.value}"
  | .reEvaluate, _ => httpError 409 "Pipeline is still running"
  | .cancel, status => httpError 409 s!"Cannot cancel a run with status '{status.value}'."

def requireOpRole (user : TokenData) (op : Op) : Except Exn Unit :=
  if op.launches then requireWriteRole user else .ok ()

/-- What an endpoint reads before it writes. -/
def check (draw : Draw) (user : TokenData) (runId : String) (op : Op) (db : Db) :
    Except Exn Unit := do
  let run ← dbGetRun db runId user.orgId
  requireRunAccess draw user run
  requireOpRole user op
  raiseIf (op.passes run.status = false) (op.refusal run.status)

def writeOp (draw : Draw) (runId : String) (db : Db) : Op → Db
  | .confirm => dbUpdateStatus db draw runId .running false
  | .reEvaluate => updateRun db runId
      (fun run => { run with
        status := .running, decisionOutput := none, agentEvents := [], completedAt := none })
      restarted_runId
  | .cancel => dbUpdateStatus db draw runId .interrupted true

variable {draw : Draw} {user : TokenData} {runId : String} {db : Db}

def Op.request (draw : Draw) (user : TokenData) (runId : String) (db : Db) :
    Op → Except Exn Db
  | .confirm => confirmRun draw user runId db
  | .reEvaluate => RunRequests.reEvaluate draw user runId db
  | .cancel => cancelRun draw user runId db

/-- An accepted request is an accepted check, and the write that follows it. -/
theorem request_eq (op : Op) : op.request draw user runId db =
    (check draw user runId op db).map (fun _ => writeOp draw runId db op) := by
  have hguard : ∀ run : RunRow, raiseIf (op.passes run.status = false) (op.refusal run.status) =
      raiseIf (¬ op.passes run.status = true) (op.refusal run.status) := fun run =>
    raiseIf_congr (by simp)
  cases op with
  | confirm =>
      simp only [Op.request, confirmRun, check, map_eq_bind, bind_assoc, hguard]
      simp [Op.passes, Op.launches, Op.refusal, requireOpRole, writeOp]
  | reEvaluate =>
      simp only [Op.request, RunRequests.reEvaluate, check, map_eq_bind, bind_assoc]
      simp [Op.passes, Op.launches, Op.refusal, requireOpRole, writeOp]
  | cancel =>
      simp only [Op.request, cancelRun, check, map_eq_bind, bind_assoc]
      simp [Op.passes, Op.launches, Op.refusal, requireOpRole, writeOp, bind, Except.bind]

theorem check_eq_ok {op : Op} (h : check draw user runId op db = .ok ()) :
    ∃ run ∈ db.runs, run.runId = runId ∧ op.passes run.status = true := by
  simp only [check, bind_eq_ok, raiseIf_eq_ok, dbGetRun_eq_ok] at h
  obtain ⟨run, ⟨hmem, hid, _⟩, _, _, _, _, hpasses⟩ := h
  exact ⟨run, hmem, hid, by simpa using hpasses⟩

end Requests

section World

/-- A pipeline task, with the answers its execution gets. A task that has left a final status
in the row is settled. -/
structure Task where
  id : Nat
  execution : Execution
  phase : Phase
  settled : Bool

/-- The tables, the requests between their check and their write, and the tasks that execute. -/
structure World where
  db : Db
  pending : List Op
  tasks : List Task
  launched : Nat

inductive Label
  | read (draw : Draw) (user : TokenData) (op : Op)
  | write (draw : Draw) (op : Op) (execution : Execution)
  | task (draw : Draw) (id : Nat) (write : Option RowWrite)

def World.launch (w : World) (execution : Execution) (op : Op) : World :=
  if op.launches then
    { w with
      tasks := w.tasks ++ [⟨w.launched, execution, .at .planner {}, false⟩]
      launched := w.launched + 1 }
  else w

def Task.next (task : Task) (write : Option RowWrite) (phase : Option Phase) : List Task :=
  (phase.map (fun p =>
    { task with phase := p, settled := task.settled || write.any RowWrite.settles })).toList

/-- The steps of the requests on one run and of the tasks they start, in any order. -/
inductive Step (c : Codec) (runId : String) : World → Label → World → Prop
  | read {w : World} (draw : Draw) (user : TokenData) {op : Op}
      (hcheck : check draw user runId op w.db = .ok ()) :
      Step c runId w (.read draw user op) { w with pending := op :: w.pending }
  | write {w : World} (draw : Draw) {op : Op} (execution : Execution) (hop : op ∈ w.pending) :
      Step c runId w (.write draw op execution)
        ({ w with
          db := writeOp draw runId w.db op
          pending := w.pending.erase op }.launch execution op)
  | task {w : World} (draw : Draw) {before after : List Task} {task : Task}
      {write : Option RowWrite} {phase : Option Phase} (htask : w.tasks = before ++ task :: after)
      (hstep : TaskStep c task.execution task.phase write phase) :
      Step c runId w (.task draw task.id write)
        { w with
          db := applyWrite draw runId w.db write
          tasks := before ++ task.next write phase ++ after }

variable {draw : Draw} {runId : String} {db : Db} {write : RowWrite}

def rowOf (db : Db) (runId : String) : Option RunRow := db.runs.lookup runId

def statusOf (db : Db) (runId : String) : Option RunStatus := (rowOf db runId).map RunRow.status

theorem rowOf_updateRun {f : RunRow → RunRow} {hf : ∀ run, (f run).runId = run.runId} :
    rowOf (updateRun db runId f hf) runId = (rowOf db runId).map f :=
  KeyedTable.lookup_updateWhere hf

def RowWrite.onRow (draw : Draw) : RowWrite → RunRow → RunRow
  | .status value, run => { run with status := value, completedAt := some draw.now }
  | .decision json, run =>
      { run with decisionOutput := some json, status := .complete, completedAt := some draw.now }
  | .explanation json, run => { run with explanationOutput := some json }
  | .event entry, run => { run with agentEvents := run.agentEvents ++ [entry] }

def Op.onRow (draw : Draw) : Op → RunRow → RunRow
  | .confirm, run => { run with status := .running }
  | .reEvaluate, run =>
      { run with
        status := .running, decisionOutput := none, agentEvents := [], completedAt := none }
  | .cancel, run => { run with status := .interrupted, completedAt := some draw.now }

theorem rowOf_apply : rowOf (write.apply draw runId db) runId =
    (rowOf db runId).map (write.onRow draw) := by
  cases write <;> exact rowOf_updateRun

theorem rowOf_writeOp {op : Op} : rowOf (writeOp draw runId db op) runId =
    (rowOf db runId).map (op.onRow draw) := by
  cases op <;> exact rowOf_updateRun

theorem statusOf_writeOp {op : Op} : statusOf (writeOp draw runId db op) runId =
    (rowOf db runId).map (fun run => (op.onRow draw run).status) := by
  rw [statusOf, rowOf_writeOp, Option.map_map]
  rfl

theorem check_rowOf {user : TokenData} {op : Op} (h : check draw user runId op db = .ok ()) :
    ∃ run, rowOf db runId = some run ∧ op.passes run.status = true := by
  obtain ⟨run, hmem, hid, hpasses⟩ := check_eq_ok h
  exact ⟨run, KeyedTable.lookup_eq_some.mpr ⟨hmem, hid⟩, hpasses⟩

theorem split_of_alone {tasks before after : List Task} {task : Task}
    (halone : tasks.length ≤ 1) (htask : tasks = before ++ task :: after) :
    before = [] ∧ after = [] := by
  rw [htask, List.length_append, List.length_cons] at halone
  exact ⟨List.eq_nil_of_length_eq_zero (by omega), List.eq_nil_of_length_eq_zero (by omega)⟩

theorem length_next {task : Task} {write : Option RowWrite} {phase : Option Phase} :
    (task.next write phase).length ≤ 1 := by
  cases phase <;> simp [Task.next]

theorem mem_next {task next : Task} {write : Option RowWrite} {phase : Option Phase}
    (h : next ∈ task.next write phase) :
    next.id = task.id ∧ next.settled = (task.settled || write.any RowWrite.settles) := by
  obtain ⟨p, _, rfl⟩ := Option.map_eq_some_iff.mp (Option.mem_toList.mp h)
  exact ⟨rfl, rfl⟩

def plainCodec : Codec := ⟨fun _ => "\x7b\x7d", fun _ => "\x7b\x7d"⟩

def waitingDb : Db := ⟨⟨[waitingRun "run-1"], List.nodup_singleton _⟩, []⟩

def waitingWorld : World := ⟨waitingDb, [], [], 0⟩

def runningDb : Db := writeOp adminDraw "run-1" waitingDb .confirm

end World

end RfpPlatform.RunTasks
