import RfpPlatform.AccountRequests
import RfpPlatform.Schemas
import Mathlib.Tactic.NormNum

namespace RfpPlatform.RunRequests

open ExceptRules
open AccountRequests (Role TokenData httpError duplicateKey)

inductive RunStatus
  | pendingConfirm | pending | running | complete | blocked | failed | interrupted
  deriving DecidableEq

def RunStatus.value : RunStatus → String
  | pendingConfirm => "pending_confirm"
  | pending => "pending"
  | running => "running"
  | complete => "complete"
  | blocked => "blocked"
  | failed => "failed"
  | interrupted => "interrupted"

structure RunRow where
  runId : String
  orgId : String
  setupId : Option String
  rfpId : String
  rfpTitle : String
  department : String
  status : RunStatus
  vendorIds : List VendorId
  contractValue : ℚ
  currency : String
  createdByEmail : String
  creatorDeptId : Option String
  decisionOutput : Option String
  explanationOutput : Option String
  agentEvents : List String
  completedAt : Option Nat

structure Db where
  runs : KeyedTable RunRow.runId
  setups : List EvaluationSetup

structure StartRequest where
  rfpTitle : String
  department : String
  contractValue : ℚ
  vendorIds : List VendorId
  currency : String

/-- What one request reads besides the tables: the clock, a new run id, the setup built
from the documents or from the body, and the answer of `runs_visible_to`. -/
structure Draw where
  now : Nat
  runId : String
  setup : Except Exn EvaluationSetup
  visible : Bool

/-- `product.yaml rfp_defaults.write_roles` -/
def writeRoles : List Role := [.platformAdmin, .companyAdmin, .departmentAdmin, .departmentUser]

def wideRoles : List Role := [.platformAdmin, .companyAdmin, .departmentAdmin]

def requireWriteRole (user : TokenData) : Except Exn Unit :=
  raiseIf (user.role ∉ writeRoles) (httpError 403 "Your role cannot perform this action")

def canViewRun (draw : Draw) (user : TokenData) (run : RunRow) : Bool :=
  user.role ∈ wideRoles || run.createdByEmail = user.email || draw.visible

def requireRunAccess (draw : Draw) (user : TokenData) (run : RunRow) : Except Exn Unit :=
  raiseIf (canViewRun draw user run = false)
    (httpError 403 "You do not have access to this evaluation run")

def dbGetRun (db : Db) (runId orgId : String) : Except Exn RunRow :=
  orRaise ((db.runs.lookup runId).filter (fun run => run.orgId = orgId))
    (httpError 404 "Run not found")

theorem dbGetRun_eq_ok {db : Db} {runId orgId : String} {run : RunRow} :
    dbGetRun db runId orgId = .ok run ↔ run ∈ db.runs ∧ run.runId = runId ∧ run.orgId = orgId := by
  rw [dbGetRun, orRaise_eq_ok, Option.filter_eq_some_iff, KeyedTable.lookup_eq_some,
    decide_eq_true_eq, and_assoc]

def updateRun (db : Db) (runId : String) (f : RunRow → RunRow)
    (hf : ∀ run, (f run).runId = run.runId) : Db :=
  { db with runs := db.runs.updateWhere (fun run => run.runId = runId) f hf }

theorem mem_updateRun {db : Db} {runId : String} {f : RunRow → RunRow} {hf : ∀ run, (f run).runId = run.runId}
    {run : RunRow} (h : run ∈ (updateRun db runId f hf).runs) :
    ∃ old ∈ db.runs, old.runId = run.runId ∧
      (run = old ∨ (old.runId = runId ∧ run = f old)) := by
  have hmem : run ∈ db.runs.updateWhere (fun run => run.runId = runId) f hf := h
  obtain ⟨old, hold, he⟩ := KeyedTable.mem_updateWhere.mp hmem
  refine ⟨old, hold, ?_⟩
  split at he
  · rename_i hk
    subst he
    exact ⟨(hf old).symm, Or.inr ⟨of_decide_eq_true hk, rfl⟩⟩
  · subst he
    exact ⟨rfl, Or.inl rfl⟩

def dbUpdateStatus (db : Db) (draw : Draw) (runId : String) (status : RunStatus)
    (completed : Bool) : Db :=
  updateRun db runId
    (fun run => { run with
      status := status
      completedAt := if completed then some draw.now else run.completedAt }) (fun _ => rfl)

/-- Saving the decision completes the run in the same statement. -/
def dbSaveDecision (db : Db) (draw : Draw) (runId decision : String) : Db :=
  updateRun db runId
    (fun run => { run with
      decisionOutput := some decision, status := .complete, completedAt := some draw.now })
    (fun _ => rfl)

def dbSaveExplanation (db : Db) (runId explanation : String) : Db :=
  updateRun db runId (fun run => { run with explanationOutput := some explanation }) (fun _ => rfl)

def dbAppendEvent (db : Db) (runId event : String) : Db :=
  updateRun db runId (fun run => { run with agentEvents := run.agentEvents ++ [event] })
    (fun _ => rfl)

/-- The sweep at startup, over the runs whose task was lost. -/
def markOrphanedRuns (db : Db) : Db :=
  { db with
    runs := db.runs.updateWhere (fun run => run.status = .running)
      (fun run => { run with status := .interrupted }) (fun _ => rfl) }

/-- The setup of `start_evaluation` when no criteria were found in any of its sources. -/
def defaultSetup (setupId orgId rfpId : String) : EvaluationSetup where
  setupId := setupId
  orgId := orgId
  rfpId := rfpId
  rfpConfirmed := false
  mandatoryChecks := [⟨"chk-default-001", "Legal entity registration",
    "Vendor must be a registered legal entity.", "Registration number provided.",
    "ext-legal-default"⟩]
  scoringCriteria := [
    ⟨"crit-default-tech", "Technical capability", 1 / 2, "Fully meets requirements.",
      "Meets most requirements.", "Partially meets requirements.", "Does not meet requirements.",
      ["ext-sla-default"], by norm_num, by norm_num⟩,
    ⟨"crit-default-commercial", "Commercial value", 1 / 2, "Best value, transparent pricing.",
      "Competitive pricing.", "Above-market pricing.", "Pricing absent.",
      ["ext-pricing-default"], by norm_num, by norm_num⟩]
  extractionTargets := [⟨"ext-legal-default", "Legal registration", "Company registration number.",
    "certification", true, none, some "chk-default-001"⟩]
  totalWeight := 1
  confirmedBy := "pending"
  source := "merged_empty"
  total_weight_range := full_weight_range
  weights_sum_to_one := fun _ => by norm_num
  every_check_has_extraction_target := by simp

def startEvaluation (draw : Draw) (user : TokenData) (req : StartRequest) (db : Db) :
    Except Exn Db := do
  requireWriteRole user
  let setup ← draw.setup
  let short := PyText.prefixOf 8 draw.runId
  let runs ← orRaise (db.runs.insert?
    { runId := draw.runId
      orgId := user.orgId
      setupId := some s!"setup-{short}"
      rfpId := s!"rfp-{short}"
      rfpTitle := req.rfpTitle
      department := req.department
      status := .pendingConfirm
      vendorIds := req.vendorIds
      contractValue := req.contractValue
      currency := PyText.prefixOf 3 (PyText.strip req.currency.toUpper)
      createdByEmail := user.email
      creatorDeptId := user.deptId
      decisionOutput := none
      explanationOutput := none
      agentEvents := []
      completedAt := none }) duplicateKey
  return { runs := runs, setups := setup :: db.setups }

def updateSetup (draw : Draw) (user : TokenData) (runId : String) (db : Db) : Except Exn Db := do
  let run ← dbGetRun db runId user.orgId
  requireRunAccess draw user run
  raiseIf (run.status ∉ [.pending, .pendingConfirm])
    (httpError 409 "Cannot edit setup after pipeline has started")
  let setup ← draw.setup
  return { db with setups := setup :: db.setups }

def confirmRun (draw : Draw) (user : TokenData) (runId : String) (db : Db) : Except Exn Db := do
  let run ← dbGetRun db runId user.orgId
  requireRunAccess draw user run
  requireWriteRole user
  raiseIf (run.status ∉ [.pendingConfirm]) (httpError 409 s!"Run already in status: {run.status.value}")
  return dbUpdateStatus db draw runId .running false

theorem restarted_runId (run : RunRow) :
    { run with
      status := .running, decisionOutput := none, agentEvents := [], completedAt := none }.runId =
        run.runId := rfl

def reEvaluate (draw : Draw) (user : TokenData) (runId : String) (db : Db) : Except Exn Db := do
  let run ← dbGetRun db runId user.orgId
  requireRunAccess draw user run
  requireWriteRole user
  raiseIf (run.status ∈ [.running]) (httpError 409 "Pipeline is still running")
  return updateRun db runId
    (fun run => { run with
      status := .running, decisionOutput := none, agentEvents := [], completedAt := none })
    restarted_runId

/-- The row that `rerun_evaluation` clones from the original. -/
def cloneRow (draw : Draw) (user : TokenData) (original : RunRow) : RunRow :=
  { original with
    runId := draw.runId
    status := .running
    createdByEmail := user.email
    decisionOutput := none
    explanationOutput := none
    agentEvents := []
    completedAt := none }

def rerunEvaluation (draw : Draw) (user : TokenData) (runId : String) (db : Db) : Except Exn Db := do
  let original ← dbGetRun db runId user.orgId
  requireRunAccess draw user original
  requireWriteRole user
  raiseIf (original.status ∉ [.complete, .blocked])
    (httpError 409 s!"Cannot rerun while original status is '{original.status.value}'.")
  let runs ← orRaise (db.runs.insert? (cloneRow draw user original)) duplicateKey
  return { db with runs := runs }

def cancelRun (draw : Draw) (user : TokenData) (runId : String) (db : Db) : Except Exn Db := do
  let run ← dbGetRun db runId user.orgId
  requireRunAccess draw user run
  raiseIf (run.status ∉ [.running, .pending])
    (httpError 409 s!"Cannot cancel a run with status '{run.status.value}'.")
  return dbUpdateStatus db draw runId .interrupted true

def waitingRun (runId : String) : RunRow where
  runId := runId
  orgId := "org-1"
  setupId := some "setup-1"
  rfpId := "rfp-1"
  rfpTitle := "Managed network"
  department := "IT"
  status := .pendingConfirm
  vendorIds := ["v1"]
  contractValue := 250000
  currency := "GBP"
  createdByEmail := "admin@acme.example"
  creatorDeptId := none
  decisionOutput := none
  explanationOutput := none
  agentEvents := []
  completedAt := none

def companyAdmin : TokenData := ⟨"admin@acme.example", "org-1", .companyAdmin, none, "j1", 480⟩

def adminDraw : Draw := ⟨0, "", .ok (defaultSetup "setup-1" "org-1" "rfp-1"), true⟩

end RfpPlatform.RunRequests
