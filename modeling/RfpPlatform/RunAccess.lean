import RfpPlatform.RunRequests

namespace RfpPlatform.RunAccess

open AccountRequests (Role TokenData User)
open RunRequests (RunRow wideRoles)

/-- What the access checks read of a row of `evaluation_runs`. -/
structure AccessRun where
  runId : String
  orgId : String
  createdByEmail : Option String
  creatorDeptId : Option String
  createdAt : Nat
  run_id_ne : runId ≠ ""
  deriving DecidableEq

structure DepartmentMember where
  userId : String
  departmentId : String
  deriving DecidableEq

inductive CollaboratorRole
  | viewer | reviewer | editor
  deriving DecidableEq

def CollaboratorRole.value : CollaboratorRole → String
  | viewer => "viewer"
  | reviewer => "reviewer"
  | editor => "editor"

def CollaboratorRole.ofString (s : String) : Option CollaboratorRole :=
  [viewer, reviewer, editor].find? (fun r => r.value = s)

structure Collaborator where
  role : CollaboratorRole
  addedBy : Option String

inductive ApprovalStatus
  | pending | approved | rejected
  deriving DecidableEq

structure ApprovalAssignment where
  runId : String
  approverUserId : String
  status : ApprovalStatus
  deriving DecidableEq

/-- The tables that decide who sees a run. A collaborator is kept under the run and the user. -/
structure AccessTables where
  users : KeyedTable User.email
  runs : KeyedTable AccessRun.runId
  userDepartments : List DepartmentMember
  rfpCollaborators : Dict (String × String) Collaborator
  approvalAssignments : List ApprovalAssignment

section Listing

variable (t : AccessTables)

/-- The predicates of `runs_visible_to` on one run. -/
def visibleTo (userId email : String) (role : Role) (run : AccessRun) : Bool :=
  role ∈ [Role.platformAdmin, .companyAdmin] ||
    run.createdByEmail = some email ||
    run.creatorDeptId.any (fun dept => ⟨userId, dept⟩ ∈ t.userDepartments) ||
    (t.rfpCollaborators.get? (run.runId, userId)).isSome ||
    t.approvalAssignments.any (fun a => a.runId = run.runId && a.approverUserId = userId)

def runsVisibleTo (userId email : String) (role : Role) (orgId : String) : List AccessRun :=
  t.runs.rows.filter (fun run => run.orgId = orgId && visibleTo t userId email role run)

def lookupUserId (email orgId : String) : Option String :=
  ((t.users.lookup email).filter (fun u => u.orgId = orgId)).map User.userId

/-- The id that stands in for a user without a record. -/
def zeroUuid : String := "00000000-0000-0000-0000-000000000000"

def userIdOf (user : TokenData) : String := (lookupUserId t user.email user.orgId).getD zeroUuid

/-- The runs that `runs_visible_to` has for a user. -/
def visibleRunsOf (user : TokenData) : List AccessRun :=
  runsVisibleTo t (userIdOf t user) user.email user.role user.orgId

inductive Scope
  | mine | department | approvals | shared | all
  deriving DecidableEq

def Scope.selects (scope : Scope) (user : TokenData) (run : AccessRun) : Bool :=
  match scope with
  | mine => run.createdByEmail = some user.email
  | department => run.creatorDeptId.any (fun dept => ⟨userIdOf t user, dept⟩ ∈ t.userDepartments)
  | approvals =>
      t.approvalAssignments.any (fun a => a.runId = run.runId &&
        a.approverUserId = userIdOf t user && a.status = .pending)
  | shared => (t.rfpCollaborators.get? (run.runId, userIdOf t user)).isSome
  | all => true

end Listing

section Checks

variable (t : AccessTables)

/-- `app.domain.visibility.can_view_run` -/
def Visibility.canViewRun (user : TokenData) (runId : String) : Bool :=
  (visibleRunsOf t user).any (fun run => run.runId = runId)

/-- `app.auth.rbac.can_view_run` -/
def Rbac.canViewRun (user : TokenData) (run : AccessRun) : Bool :=
  if user.role ∈ wideRoles then true
  else if run.createdByEmail = some user.email then true
  else if run.runId = "" then false
  else Visibility.canViewRun t user run.runId

end Checks

section Agreement

variable {t : AccessTables} {user : TokenData} {run : AccessRun}

/-- The answer of `runs_visible_to` that a request on a run draws. -/
theorem canViewRun_eq_draw {draw : RunRequests.Draw} {row : RunRow}
    (hid : run.runId = row.runId) (hemail : run.createdByEmail = some row.createdByEmail)
    (hdraw : draw.visible = Visibility.canViewRun t user row.runId) :
    RunRequests.canViewRun draw user row = Rbac.canViewRun t user run := by
  rw [Rbac.canViewRun, if_neg run.run_id_ne, RunRequests.canViewRun, hdraw, hid, hemail]
  by_cases hwide : user.role ∈ wideRoles
  · simp [hwide]
  · by_cases hown : row.createdByEmail = user.email
    · simp [hown]
    · simp [hwide, hown]

end Agreement

section Fixtures

def aliceRun : AccessRun := ⟨"run-1", "org-1", some "alice@acme.example", some "IT", 0, by decide⟩

def bob (role : Role) : TokenData := ⟨"bob@acme.example", "org-1", role, none, "j1", 480⟩

def bobRecord : User :=
  ⟨"user-2", "org-1", "bob@acme.example", "hash", .departmentUser, none, true⟩

/-- A run of another user, in whose department Bob is. -/
def sharedTables : AccessTables where
  users := ⟨[bobRecord], by decide⟩
  runs := ⟨[aliceRun], by decide⟩
  userDepartments := [⟨"user-2", "IT"⟩]
  rfpCollaborators := ∅
  approvalAssignments := []

end Fixtures

end RfpPlatform.RunAccess
