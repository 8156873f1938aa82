import RfpPlatform.RunRequests
import RfpPlatform.TransitionRuns

namespace RfpPlatform.ConfirmationGate

open RunRequests ExceptRules TransitionRuns
open AccountRequests (TokenData)

/-- The tables with a record, which no request reads, of the runs that `confirm_run`
accepted, of the clones made by `rerun_evaluation` and of the executions begun. -/
structure System where
  db : Db
  confirmed : List String
  clones : List (String × String)
  executions : List String

inductive Request
  | start (req : StartRequest)
  | updateSetup (runId : String)
  | confirm (runId : String)
  | reEvaluate (runId : String)
  | rerun (runId : String)
  | cancel (runId : String)

/-- A request of a signed-in user, or the end of an execution that had begun. -/
inductive Event
  | request (draw : Draw) (user : TokenData) (req : Request)
  | finished (draw : Draw) (runId : String) (status : RunStatus)

def handle (draw : Draw) (user : TokenData) (s : System) : Request → Except Exn System
  | .start req => do return { s with db := ← startEvaluation draw user req s.db }
  | .updateSetup runId => do return { s with db := ← RunRequests.updateSetup draw user runId s.db }
  | .confirm runId => do
      let db ← confirmRun draw user runId s.db
      return { s with
        db := db, confirmed := runId :: s.confirmed, executions := runId :: s.executions }
  | .reEvaluate runId => do
      let db ← RunRequests.reEvaluate draw user runId s.db
      return { s with db := db, executions := runId :: s.executions }
  | .rerun runId => do
      let db ← rerunEvaluation draw user runId s.db
      return { s with
        db := db
        clones := (draw.runId, runId) :: s.clones
        executions := draw.runId :: s.executions }
  | .cancel runId => do return { s with db := ← cancelRun draw user runId s.db }

/-- The final status that `_run_pipeline` writes for an execution, or a request that is
rolled back when it raises. -/
def serve (s : System) : Event → System
  | .request draw user req =>
      match handle draw user s req with
      | .ok t => t
      | .error _ => s
  | .finished draw runId status =>
      if runId ∈ s.executions ∧ status ∈ [RunStatus.complete, .blocked] then
        { s with db := dbUpdateStatus s.db draw runId status true }
      else s

def Served (s : System) (e : Event) (t : System) : Prop := serve s e = t

/-- The run was confirmed, or it is a clone of a run that was so authorised. -/
inductive Authorised (confirmed : List String) (clones : List (String × String)) : String → Prop
  | confirmed {runId : String} : runId ∈ confirmed → Authorised confirmed clones runId
  | cloned {runId original : String} : (runId, original) ∈ clones →
      Authorised confirmed clones original → Authorised confirmed clones runId

variable {s t : System} {draw : Draw} {user : TokenData} {runId : String}
  {confirmed confirmed' : List String} {clones clones' : List (String × String)}

theorem Authorised.mono (hc : confirmed ⊆ confirmed') (hl : clones ⊆ clones')
    (h : Authorised confirmed clones runId) : Authorised confirmed' clones' runId := by
  induction h with
  | confirmed hm => exact .confirmed (hc hm)
  | cloned hm _ ih => exact .cloned (hl hm) ih

/-- Every run that has left the confirm page is authorised, and so is every execution. -/
structure Gated (s : System) : Prop where
  no_pending : ∀ run ∈ s.db.runs, run.status ≠ .pending
  left : ∀ run ∈ s.db.runs, run.status ≠ .pendingConfirm →
    Authorised s.confirmed s.clones run.runId
  executions : ∀ runId ∈ s.executions, Authorised s.confirmed s.clones runId

/-- Writing a status that is not a waiting one for an authorised run keeps the gate. -/
theorem Gated.updateRun (hs : Gated s) {f : RunRow → RunRow}
    {hf : ∀ run, (f run).runId = run.runId} (hstatus : ∀ run, (f run).status ≠ .pending)
    (hauth : Authorised s.confirmed s.clones runId) :
    Gated { s with db := RunRequests.updateRun s.db runId f hf } := by
  refine ⟨fun run hrun => ?_, fun run hrun hleft => ?_, fun r hr => ?_⟩
  · obtain ⟨old, hold, _, rfl | ⟨_, rfl⟩⟩ := mem_updateRun hrun
    · exact hs.no_pending _ hold
    · exact hstatus old
  · obtain ⟨old, hold, hid, rfl | ⟨hk, rfl⟩⟩ := mem_updateRun hrun
    · exact hs.left _ hold hleft
    · rw [← hid, hk]
      exact hauth
  · exact hs.executions r hr

/-- The status that the guard of `re_evaluate` forgets: a re-evaluation may not be asked
for while its run waits on the confirm page. -/
def Admits (s : System) : Event → Prop
  | .request _ _ (.reEvaluate runId) =>
      ∀ run ∈ s.db.runs, run.runId = runId → run.status ≠ .pendingConfirm
  | _ => True

def System.empty : System := ⟨⟨∅, []⟩, [], [], []⟩

def buyer : TokenData := ⟨"buyer@acme.example", "org-1", .departmentUser, none, "j1", 480⟩

def buyerDraw (runId : String) : Draw :=
  ⟨0, runId, .ok (defaultSetup "setup-5f0c2a1e" "org-1" "rfp-5f0c2a1e"), false⟩

def startRun : Event :=
  .request (buyerDraw "5f0c2a1e-run") buyer
    (.start ⟨"Managed network", "IT", 250000, ["v1", "v2"], "GBP"⟩)

end RfpPlatform.ConfirmationGate
