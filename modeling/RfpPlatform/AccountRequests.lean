import RfpPlatform.ExceptRules
import RfpPlatform.KeyedTable
import RfpPlatform.PyValue

namespace RfpPlatform.AccountRequests

open ExceptRules

inductive Role
  | platformAdmin | companyAdmin | departmentAdmin | departmentUser | auditor
  deriving DecidableEq

def Role.value : Role → String
  | platformAdmin => "platform_admin"
  | companyAdmin => "company_admin"
  | departmentAdmin => "department_admin"
  | departmentUser => "department_user"
  | auditor => "auditor"

def validRoles : List Role :=
  [.platformAdmin, .companyAdmin, .departmentAdmin, .departmentUser, .auditor]

def Role.ofString (s : String) : Option Role := validRoles.find? (fun r => r.value = s)

def Role.rank : Role → Nat
  | platformAdmin => 3
  | companyAdmin => 2
  | departmentAdmin => 1
  | departmentUser | auditor => 0

@[simp] theorem Role.ofString_value (r : Role) : Role.ofString r.value = some r := by
  cases r <;> decide

theorem Role.value_of_ofString {s : String} {r : Role} (h : Role.ofString s = some r) :
    r.value = s := by
  simpa using List.find?_some h

structure User where
  userId : String
  orgId : String
  email : String
  hashedPw : String
  role : Role
  deptId : Option String
  isActive : Bool

inductive Purpose
  | invite | passwordReset
  deriving DecidableEq

structure OnetimeToken where
  tokenHash : String
  purpose : Purpose
  email : String
  orgId : Option String
  role : Option String
  deptId : Option String
  userId : Option String
  expiresAt : Nat
  usedAt : Option Nat

structure Session where
  jti : String
  userId : String
  orgId : String
  expiresAt : Nat
  revokedAt : Option Nat

structure TokenData where
  email : String
  orgId : String
  role : Role
  deptId : Option String
  jti : String
  exp : Nat
  deriving DecidableEq

/-- The identity tables, with the access tokens signed so far. -/
structure Db where
  organisations : List String
  users : KeyedTable User.email
  onetimeTokens : KeyedTable OnetimeToken.tokenHash
  sessions : KeyedTable Session.jti
  signed : List TokenData

def Db.empty : Db := ⟨[], ∅, ∅, ∅, []⟩

/-- SHA-256, bcrypt and the `uuid` type of the database. -/
structure Primitives where
  sha256 : String → String
  hashPassword : String → String
  isUuid : String → Bool

/-- The random values and the clock that one request reads. Times are minutes. -/
structure Draw where
  now : Nat
  orgId : String
  userId : String
  jti : String
  plaintext : String

structure SignupRequest where
  orgName : String
  email : String
  password : String

structure InviteRequest where
  email : String
  role : String := "department_user"
  deptId : Option String := none

structure InviteAcceptRequest where
  token : String
  password : String

def minPasswordLength : Nat := 8
def inviteTtlHours : Nat := 72
def jwtExpiryMinutes : Nat := 480

def httpError (code : Nat) (detail : String) : Exn := ⟨.httpException code, detail⟩

def validatePassword (password : String) : Except Exn Unit :=
  raiseIf (password.length < minPasswordLength)
    (httpError 422 s!"Password must be at least {minPasswordLength} characters")

def emailTaken (db : Db) (email : String) : Bool := (db.users.lookup email).isSome

/-- `CAST(NULLIF(:value, '') AS uuid)` -/
def castUuid (prims : Primitives) (value : String) : Except Exn (Option String) :=
  if value = "" then .ok none
  else if prims.isUuid value then .ok (some value)
  else .error ⟨.integrityError, s!"invalid input syntax for type uuid: {value}"⟩

def sessionIsActive (db : Db) (now : Nat) (jti : String) : Bool :=
  match db.sessions.lookup jti with
  | none => false
  | some s => s.revokedAt.isNone && decide (now < s.expiresAt)

/-- `get_current_user`: the access token was signed here, has not expired, and its
session has not been revoked. -/
def getCurrentUser (db : Db) (now : Nat) (token : TokenData) : Except Exn TokenData :=
  if token ∈ db.signed ∧ now < token.exp ∧ sessionIsActive db now token.jti = true then .ok token
  else .error (httpError 401 "Invalid or expired token")

def createAccessToken (draw : Draw) (email orgId : String) (role : Role)
    (deptId : Option String) : TokenData :=
  ⟨email, orgId, role, deptId, draw.jti, draw.now + jwtExpiryMinutes⟩

/-- `ON CONFLICT (jti) DO NOTHING` -/
def issueSession (db : Db) (draw : Draw) (userId : String) (token : TokenData) : Db :=
  { db with
    sessions := (db.sessions.insert? ⟨draw.jti, userId, token.orgId,
      draw.now + jwtExpiryMinutes, none⟩).getD db.sessions
    signed := token :: db.signed }

def duplicateKey : Exn := ⟨.integrityError, "duplicate key value violates unique constraint"⟩

def insertUser (db : Db) (user : User) : Except Exn Db := do
  let users ← orRaise (db.users.insert? user) duplicateKey
  return { db with users := users }

def signup (prims : Primitives) (draw : Draw) (req : SignupRequest) (db : Db) : Except Exn Db := do
  validatePassword req.password
  raiseIf (emailTaken db req.email) (httpError 409 "An account with that email already exists")
  let db ← insertUser { db with organisations := draw.orgId :: db.organisations }
    ⟨draw.userId, draw.orgId, req.email, prims.hashPassword req.password, .companyAdmin, none, true⟩
  return issueSession db draw draw.userId
    (createAccessToken draw req.email draw.orgId .companyAdmin none)

def supersede (draw : Draw) (purpose : Purpose) (email : String)
    (tokens : KeyedTable OnetimeToken.tokenHash) : KeyedTable OnetimeToken.tokenHash :=
  tokens.updateWhere (fun t => t.purpose = purpose && t.email = email && t.usedAt.isNone)
    (fun t => { t with usedAt := some draw.now }) (fun _ => rfl)

def createInviteToken (prims : Primitives) (draw : Draw) (email orgId role : String)
    (deptId : Option String) (db : Db) : Except Exn Db := do
  let deptId ← castUuid prims (deptId.getD "")
  let tokens ← orRaise ((supersede draw .invite email db.onetimeTokens).insert?
    ⟨prims.sha256 draw.plaintext, .invite, email, some orgId, some role, deptId, none,
      draw.now + inviteTtlHours * 60, none⟩) duplicateKey
  return { db with onetimeTokens := tokens }

def inviteUser (prims : Primitives) (draw : Draw) (token : TokenData) (req : InviteRequest)
    (db : Db) : Except Exn Db := do
  let currentUser ← getCurrentUser db draw.now token
  raiseIf (currentUser.role ∉ [Role.platformAdmin, .companyAdmin, .departmentAdmin])
    (httpError 403 "Insufficient role")
  raiseIf (currentUser.role = .departmentAdmin ∧ req.role ∉ ["department_user"])
    (httpError 403 "Cannot assign that role")
  raiseIf (emailTaken db req.email) (httpError 409 "A user with that email already exists")
  createInviteToken prims draw req.email currentUser.orgId req.role req.deptId db

def consumable (draw : Draw) (purpose : Purpose) (t : OnetimeToken) : Bool :=
  t.purpose = purpose && t.usedAt.isNone && decide (draw.now < t.expiresAt)

def spend (draw : Draw) (tokenHash : String) (tokens : KeyedTable OnetimeToken.tokenHash) :
    KeyedTable OnetimeToken.tokenHash :=
  tokens.updateWhere (fun t => t.tokenHash = tokenHash)
    (fun t => { t with usedAt := some draw.now }) (fun _ => rfl)

def consumeToken (prims : Primitives) (draw : Draw) (plaintext : String) (purpose : Purpose)
    (db : Db) : Option (OnetimeToken × Db) :=
  if plaintext = "" then none
  else match db.onetimeTokens.lookup (prims.sha256 plaintext) with
    | none => none
    | some t =>
        if consumable draw purpose t then
          some (t, { db with onetimeTokens := spend draw t.tokenHash db.onetimeTokens })
        else none

def effectiveRole (role : Option String) : String :=
  if role.getD "" = "" then "department_user" else role.getD ""

/-- The account that `accept_invite` inserts. The `CHECK` on `users.role` refuses a role
that is not one of the five. -/
def invitedUser (prims : Primitives) (draw : Draw) (req : InviteAcceptRequest) (t : OnetimeToken) :
    Except Exn User :=
  match Role.ofString (effectiveRole t.role), t.orgId with
  | none, _ => .error ⟨.integrityError, "new row violates check constraint users_role_check"⟩
  | _, none => .error ⟨.integrityError, "null value in column org_id"⟩
  | some role, some orgId =>
      .ok ⟨draw.userId, orgId, t.email, prims.hashPassword req.password, role, t.deptId, true⟩

def acceptInvite (prims : Primitives) (draw : Draw) (req : InviteAcceptRequest) (db : Db) :
    Except Exn (OnetimeToken × User × Db) := do
  validatePassword req.password
  let (payload, db) ← orRaise (consumeToken prims draw req.token .invite db)
    (httpError 400 "Invalid or expired invite token")
  raiseIf (emailTaken db payload.email) (httpError 409 "A user with that email already exists")
  let user ← invitedUser prims draw req payload
  let db ← insertUser db user
  return (payload, user, issueSession db draw user.userId
    (createAccessToken draw user.email user.orgId user.role user.deptId))

end RfpPlatform.AccountRequests
