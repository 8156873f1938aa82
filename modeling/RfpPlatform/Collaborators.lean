import RfpPlatform.RunAccess
import RfpPlatform.TransitionRuns

namespace RfpPlatform.Collaborators

open AccountRequests (TokenData User httpError)
open ExceptRules RunAccess TransitionRuns
open RunRequests (wideRoles)

section Requests

structure CollaboratorRequest where
  userId : String
  role : String := "viewer"

def dbGetRun (t : AccessTables) (runId orgId : String) : Except Exn AccessRun :=
  orRaise ((t.runs.lookup runId).filter (fun run => run.orgId = orgId))
    (httpError 404 "Run not found")

def requireRunAccess (t : AccessTables) (user : TokenData) (run : AccessRun) : Except Exn Unit :=
  raiseIf (Rbac.canViewRun t user run = false)
    (httpError 403 "You do not have access to this evaluation run")

/-- An invitation of a user who is invited already changes the role and nothing else. -/
def addCollaborator (t : AccessTables) (runId userId : String) (role : CollaboratorRole)
    (addedBy : String) : AccessTables :=
  { t with
    rfpCollaborators := t.rfpCollaborators.set (runId, userId)
      ⟨role, ((t.rfpCollaborators.get? (runId, userId)).map Collaborator.addedBy).getD
        (some addedBy)⟩ }

def addRunCollaborator (t : AccessTables) (user : TokenData) (runId : String)
    (body : CollaboratorRequest) : Except Exn AccessTables := do
  let run ← dbGetRun t runId user.orgId
  requireRunAccess t user run
  let adder ← orRaise (lookupUserId t user.email user.orgId)
    (httpError 404 "Caller user record not found")
  let role ← orRaise (CollaboratorRole.ofString body.role)
    (httpError 400 s!"Invalid collaborator role: {body.role}")
  raiseIf (t.users.rows.all (fun u => u.userId ≠ body.userId))
    ⟨.integrityError, "insert or update on table rfp_collaborators violates foreign key constraint"⟩
  return addCollaborator t runId body.userId role adder

def removeCollaborator (t : AccessTables) (runId userId : String) : AccessTables :=
  { t with
    rfpCollaborators := KeyedTable.deleteWhere t.rfpCollaborators
      (fun e => e.1 = (runId, userId)) }

def removeRunCollaborator (t : AccessTables) (user : TokenData) (runId userId : String) :
    Except Exn AccessTables := do
  let run ← dbGetRun t runId user.orgId
  requireRunAccess t user run
  return removeCollaborator t runId userId

inductive Request
  | add (body : CollaboratorRequest)
  | remove (userId : String)

/-- A request of a user on a run. -/
structure Call where
  user : TokenData
  runId : String
  request : Request

def handle (t : AccessTables) (c : Call) : Except Exn AccessTables :=
  match c.request with
  | .add body => addRunCollaborator t c.user c.runId body
  | .remove userId => removeRunCollaborator t c.user c.runId userId

/-- A request that raises writes nothing. -/
def serve (t : AccessTables) (c : Call) : AccessTables :=
  match handle t c with
  | .ok t => t
  | .error _ => t

end Requests

section Rules

def roleOf (t : AccessTables) (runId userId : String) : Option CollaboratorRole :=
  (t.rfpCollaborators.get? (runId, userId)).map Collaborator.role

def InDepartment (t : AccessTables) (user : TokenData) (run : AccessRun) : Prop :=
  ∃ dept, run.creatorDeptId = some dept ∧ ⟨userIdOf t user, dept⟩ ∈ t.userDepartments

/-- The creator of a run, a member of its department, an admin, or an editor of it. -/
def Manages (t : AccessTables) (user : TokenData) (run : AccessRun) : Prop :=
  run.createdByEmail = some user.email ∨ InDepartment t user run ∨ user.role ∈ wideRoles ∨
    roleOf t run.runId (userIdOf t user) = some .editor

def Changes (t : AccessTables) (c : Call) : Prop :=
  ∃ runId userId, roleOf (serve t c) runId userId ≠ roleOf t runId userId

/-- Only those who manage a run change its collaborators. -/
def Managed (t : AccessTables) (cs : List Call) : Prop :=
  ∀ pre c post, cs = pre ++ c :: post → Changes (pre.foldl serve t) c →
    ∃ run ∈ (pre.foldl serve t).runs, run.runId = c.runId ∧ run.orgId = c.user.orgId ∧
      Manages (pre.foldl serve t) c.user run

/-- A user who is let in as a viewer, a reviewer or an approver only. -/
structure OnlyInvited (t : AccessTables) (user : TokenData) (run : AccessRun) : Prop where
  not_admin : user.role ∉ wideRoles
  not_creator : run.createdByEmail ≠ some user.email
  not_member : ¬ InDepartment t user run
  not_editor : roleOf t run.runId (userIdOf t user) ≠ some .editor
  invited : (roleOf t run.runId (userIdOf t user)).isSome = true ∨
    ∃ a ∈ t.approvalAssignments, a.runId = run.runId ∧ a.approverUserId = userIdOf t user

/-- A request that asks for what is there, or for what is refused to everybody. -/
def Idle (t : AccessTables) (c : Call) : Prop :=
  match c.request with
  | .add body =>
      lookupUserId t c.user.email c.user.orgId = none ∨ (∀ u ∈ t.users, u.userId ≠ body.userId) ∨
        ∀ role, CollaboratorRole.ofString body.role = some role →
          roleOf t c.runId body.userId = some role
  | .remove userId => roleOf t c.runId userId = none

/-- Whoever is let in as a viewer, a reviewer or an approver only, asks for no change. -/
def Admits (t : AccessTables) (c : Call) : Prop :=
  ∀ run ∈ t.runs, run.runId = c.runId → run.orgId = c.user.orgId → OnlyInvited t c.user run →
    Idle t c

end Rules

section Changing

variable {t t' : AccessTables} {c : Call} {user : TokenData} {run : AccessRun}
  {runId userId other : String} {role : CollaboratorRole} {addedBy : String}

theorem dbGetRun_eq_ok {orgId : String} : dbGetRun t runId orgId = .ok run ↔
    run ∈ t.runs ∧ run.runId = runId ∧ run.orgId = orgId := by
  rw [dbGetRun, orRaise_eq_ok, Option.filter_eq_some_iff, KeyedTable.lookup_eq_some,
    decide_eq_true_eq, and_assoc]

end Changing

section Fixtures

/-- Bob is a viewer of the run of another user. -/
def viewerTables : AccessTables :=
  { sharedTables with
    userDepartments := []
    rfpCollaborators := Dict.ofPairs [(("run-1", "user-2"), ⟨.viewer, none⟩)] }

/-- The viewer makes himself an editor. -/
def promotion : Call := ⟨bob .departmentUser, "run-1", .add ⟨"user-2", "editor"⟩⟩

theorem viewer_promotes_himself : ∃ t cs, ¬ Managed t cs := by
  refine ⟨viewerTables, [promotion], fun hmanaged => ?_⟩
  have hchanges : Changes viewerTables promotion := ⟨"run-1", "user-2", by decide +kernel⟩
  obtain ⟨run, hrun, _, _, hmanages⟩ := hmanaged [] promotion [] rfl hchanges
  obtain rfl := List.mem_singleton.mp hrun
  rcases hmanages with hcreator | ⟨_, _, hmember⟩ | hadmin | heditor
  · exact absurd hcreator (by decide)
  · cases hmember
  · exact absurd hadmin (by decide)
  · exact absurd heditor (by decide +kernel)

end Fixtures

end RfpPlatform.Collaborators
