import RfpPlatform.FoldRuns
import RfpPlatform.Invitations
import RfpPlatform.OnetimeTokens
import RfpPlatform.SessionRevocation

namespace RfpPlatform.TenantUsers

open AccountRequests ExceptRules FoldRuns SessionRevocation
open Invitations (consumeToken_eq_some inviteUser_eq_ok insertUser_eq_ok)

section Endpoints

variable (prims : Primitives) (settings : LoginSettings) (draw : Draw)

def adminRoles : List Role := [.platformAdmin, .companyAdmin]

/-- `sorted(VALID_ROLES)` -/
def sortedRoles : List Role :=
  [.auditor, .companyAdmin, .departmentAdmin, .departmentUser, .platformAdmin]

def ofOrg (userId orgId : String) (u : User) : Bool := u.userId = userId && u.orgId = orgId

/-- An `UPDATE` of one user of the organisation, with the 404 for a user that it does not find. -/
def updateUser (userId orgId : String) (f : User → User) (hf : ∀ u, (f u).email = u.email)
    (db : Db) : Except Exn Db := do
  raiseIf (db.users.rows.all fun u => !ofOrg userId orgId u) (httpError 404 "User not found")
  return { db with users := db.users.updateWhere (ofOrg userId orgId) f hf }

def updateRole (token : TokenData) (userId role : String) (db : Db) : Except Exn Db := do
  let currentUser ← getCurrentUser db draw.now token
  raiseIf (currentUser.role ∉ adminRoles) (httpError 403 "Insufficient role")
  let role ← orRaise (Role.ofString role) (httpError 422 ("Invalid role. Must be one of " ++
    PyText.listRepr (sortedRoles.map Role.value)))
  updateUser userId currentUser.orgId (fun u => { u with role := role }) (fun _ => rfl) db

def deactivateUser (token : TokenData) (userId : String) (db : Db) : Except Exn Db := do
  let currentUser ← getCurrentUser db draw.now token
  raiseIf (currentUser.role ∉ adminRoles) (httpError 403 "Insufficient role")
  updateUser userId currentUser.orgId (fun u => { u with isActive := false }) (fun _ => rfl) db

/-- What the database holds after a login. The seed account of a first boot stays, whatever
becomes of the login. -/
def login (req : LoginRequest) (db : Db) : Db :=
  let db := seedOnFirstBoot prims settings draw req db
  match authenticate settings req db with
  | .ok user => registerSession draw user db
  | .error _ => db

def logout (token : TokenData) (db : Db) : Except Exn Db := do
  let currentUser ← getCurrentUser db draw.now token
  return { db with
    sessions := revokeSessions (fun s => s.jti = currentUser.jti) draw.now db.sessions }

def requestPasswordReset (email : String) (db : Db) : Except Exn Db :=
  match db.users.lookup email with
  | none => .ok db
  | some user => do
      let tokens ← orRaise ((supersede draw .passwordReset email db.onetimeTokens).insert?
        ⟨prims.sha256 draw.plaintext, .passwordReset, user.email, some user.orgId, none, none,
          some user.userId, draw.now + OnetimeTokens.resetTtlHours * 60, none⟩) duplicateKey
      return { db with onetimeTokens := tokens }

structure PasswordResetConfirm where
  token : String
  password : String

def confirmPasswordReset (req : PasswordResetConfirm) (db : Db) : Except Exn Db := do
  validatePassword req.password
  let (payload, db) ← orRaise (consumeToken prims draw req.token .passwordReset db)
    (httpError 400 "Invalid or expired reset token")
  return { db with
    users := setPassword (payload.userId.getD "") (prims.hashPassword req.password) db.users
    sessions := revokeSessions (fun s => some s.userId = payload.userId) draw.now db.sessions }

inductive Request
  | signup (req : SignupRequest)
  | login (req : LoginRequest)
  | logout (token : TokenData)
  | inviteUser (token : TokenData) (req : InviteRequest)
  | acceptInvite (req : InviteAcceptRequest)
  | requestPasswordReset (email : String)
  | confirmPasswordReset (req : PasswordResetConfirm)
  | updateRole (token : TokenData) (userId role : String)
  | deactivateUser (token : TokenData) (userId : String)

def handle (db : Db) : Request → Except Exn Db
  | .signup req => signup prims draw req db
  | .login req => .ok (login prims settings draw req db)
  | .logout token => logout draw token db
  | .inviteUser token req => inviteUser prims draw token req db
  | .acceptInvite req => do
      let (_, _, db) ← acceptInvite prims draw req db
      return db
  | .requestPasswordReset email => requestPasswordReset prims draw email db
  | .confirmPasswordReset req => confirmPasswordReset prims draw req db
  | .updateRole token userId role => updateRole draw token userId role db
  | .deactivateUser token userId => deactivateUser draw token userId db

end Endpoints

section Histories

variable (prims : Primitives) (settings : LoginSettings)

/-- One request is served. A request that raises is rolled back. -/
def serve (db : Db) (a : Draw × Request) : Db := (handle prims settings a.1 db a.2).toOption.getD db

def dbAfter (history : List (Draw × Request)) : Db := history.foldl (serve prims settings) Db.empty

/-- The account is active, and the token says of it what the table says. -/
def IssuedFor (token : TokenData) (u : User) : Prop :=
  u.isActive = true ∧ token.email = u.email ∧ token.orgId = u.orgId ∧ token.role = u.role ∧
    token.deptId = u.deptId

/-- What a request does to the tokens: it signs none, or one for an account as it leaves it. -/
def Signs (draw : Draw) (db db' : Db) : Prop :=
  db'.signed = db.signed ∨ ∃ token, db'.signed = token :: db.signed ∧
    token.exp = draw.now + jwtExpiryMinutes ∧ ∃ u ∈ db'.users, IssuedFor token u

/-- Accounts stay, under their email address, and an inactive one stays inactive. -/
def Keeps (db db' : Db) : Prop :=
  ∀ u ∈ db.users, ∃ u' ∈ db'.users, u'.email = u.email ∧ (u.isActive = false → u'.isActive = false)

variable {prims settings} {draw : Draw} {db db' db'' : Db}

theorem Keeps.refl (db : Db) : Keeps db db := fun u hu => ⟨u, hu, rfl, id⟩

theorem Keeps.trans (h : Keeps db db') (k : Keeps db' db'') : Keeps db db'' := by
  intro u hu
  obtain ⟨v, hv, hemail, hoff⟩ := h u hu
  obtain ⟨w, hw, hemail', hoff'⟩ := k v hv
  exact ⟨w, hw, hemail'.trans hemail, hoff' ∘ hoff⟩

theorem keeps_of_users (h : db'.users = db.users) : Keeps db db' :=
  fun u hu => ⟨u, h ▸ hu, rfl, id⟩

theorem keeps_of_grows (h : ∀ u ∈ db.users, u ∈ db'.users) : Keeps db db' :=
  fun u hu => ⟨u, h u hu, rfl, id⟩

theorem keeps_updateWhere {p : User → Bool} {f : User → User} {hf : ∀ u, (f u).email = u.email}
    (hactive : ∀ u, u.isActive = false → (f u).isActive = false) :
    Keeps db { db with users := db.users.updateWhere p f hf } := by
  intro u hu
  refine ⟨if p u = true then f u else u, List.mem_map.mpr ⟨u, hu, rfl⟩, ?_, fun hoff => ?_⟩
  · split
    · exact hf u
    · rfl
  · split
    · exact hactive u hoff
    · exact hoff

structure Steps (draw : Draw) (db db' : Db) : Prop where
  signs : Signs draw db db'
  keeps : Keeps db db'

theorem steps_of_frame (hsigned : db'.signed = db.signed) (husers : db'.users = db.users) :
    Steps draw db db' := ⟨Or.inl hsigned, keeps_of_users husers⟩

theorem updateUser_steps {userId orgId : String} {f : User → User}
    {hf : ∀ u, (f u).email = u.email} (hactive : ∀ u, u.isActive = false → (f u).isActive = false)
    (h : updateUser userId orgId f hf db = .ok db') : Steps draw db db' := by
  obtain ⟨_, _, h⟩ := bind_eq_ok.mp h
  obtain rfl := Except.ok.inj h
  exact ⟨Or.inl rfl, keeps_updateWhere hactive⟩

theorem signup_steps {req : SignupRequest} (h : signup prims draw req db = .ok db') :
    Steps draw db db' := by
  simp only [signup, bind_eq_ok, raiseIf_eq_ok, pure_eq_ok] at h
  obtain ⟨_, _, _, _, db₁, hins, rfl⟩ := h
  obtain ⟨husers, _, hsigned⟩ := insertUser_eq_ok hins
  refine ⟨?_, keeps_of_grows fun u hu => (husers u).mpr (Or.inl hu)⟩
  refine Or.inr ⟨_, congrArg _ hsigned, rfl, _, (husers _).mpr (Or.inr rfl), ?_⟩
  exact ⟨rfl, rfl, rfl, rfl, rfl⟩

theorem invitedUser_active {req : InviteAcceptRequest} {payload : OnetimeToken} {user : User}
    (h : invitedUser prims draw req payload = .ok user) : user.isActive = true := by
  rw [invitedUser] at h
  split at h
  · cases h
  · cases h
  · obtain rfl := Except.ok.inj h
    rfl

theorem acceptInvite_steps {req : InviteAcceptRequest} {payload : OnetimeToken} {user : User}
    (h : acceptInvite prims draw req db = .ok (payload, user, db')) : Steps draw db db' := by
  simp only [acceptInvite, bind_eq_ok, raiseIf_eq_ok, pure_eq_ok, orRaise_eq_ok] at h
  obtain ⟨_, _, ⟨payload', db₁⟩, hconsume, _, _, user', huser, db₂, hins, h⟩ := h
  obtain ⟨_, _, rfl⟩ : payload' = payload ∧ user' = user ∧ _ = db' := by simpa using h
  obtain ⟨_, _, husers, hsigned, _⟩ := consumeToken_eq_some hconsume
  obtain ⟨husers', _, hsigned'⟩ := insertUser_eq_ok hins
  have hmem : user' ∈ db₂.users := (husers' user').mpr (Or.inr rfl)
  refine ⟨Or.inr ⟨_, congrArg _ (hsigned'.trans hsigned), rfl, user', hmem,
    invitedUser_active huser, rfl, rfl, rfl, rfl⟩, keeps_of_grows fun u hu => ?_⟩
  exact (husers' u).mpr (Or.inl (husers.symm ▸ hu))

theorem seedOnFirstBoot_frame {req : LoginRequest} :
    (seedOnFirstBoot prims settings draw req db).signed = db.signed ∧
      Keeps db (seedOnFirstBoot prims settings draw req db) := by
  rw [seedOnFirstBoot]
  split
  · refine ⟨rfl, keeps_of_grows fun u hu => ?_⟩
    rw [ensureDevUser]
    cases hins : db.users.insert? ⟨draw.userId, settings.devOrgId, settings.devUserEmail,
        prims.hashPassword settings.devUserPassword, settings.devUserRole, none, true⟩ with
    | none => exact hu
    | some users => exact (KeyedTable.mem_of_insert? hins u).mpr (Or.inl hu)
  · exact ⟨rfl, .refl db⟩

theorem authenticate_eq_ok {req : LoginRequest} {user : User}
    (h : authenticate settings req db = .ok user) : user ∈ db.users ∧ user.isActive = true := by
  simp only [authenticate, bind_eq_ok, raiseIf_eq_ok, pure_eq_ok, orRaise_eq_ok] at h
  obtain ⟨user', hlookup, _, _, _, hactive, rfl⟩ := h
  exact ⟨(KeyedTable.lookup_eq_some.mp hlookup).1, Bool.not_eq_false _ ▸ hactive⟩

theorem login_steps {req : LoginRequest} :
    Steps draw db (login prims settings draw req db) := by
  obtain ⟨hsigned, hkeeps⟩ := @seedOnFirstBoot_frame prims settings draw db req
  rw [login]
  cases hauth : authenticate settings req (seedOnFirstBoot prims settings draw req db) with
  | error exc => exact ⟨Or.inl hsigned, hkeeps⟩
  | ok user =>
      obtain ⟨hmem, hactive⟩ := authenticate_eq_ok hauth
      exact ⟨Or.inr ⟨_, congrArg _ hsigned, rfl, user, hmem, hactive, rfl, rfl, rfl, rfl⟩, hkeeps⟩

theorem handle_steps {req : Request} (h : handle prims settings draw db req = .ok db') :
    Steps draw db db' := by
  cases req with
  | signup req => exact signup_steps h
  | login req =>
      obtain rfl := Except.ok.inj h
      exact login_steps
  | logout token =>
      obtain ⟨_, _, h⟩ := bind_eq_ok.mp h
      obtain rfl := Except.ok.inj h
      exact steps_of_frame rfl rfl
  | inviteUser token req =>
      obtain ⟨_, _, _, husers, hsigned, _⟩ := inviteUser_eq_ok h
      exact steps_of_frame hsigned husers
  | acceptInvite req =>
      obtain ⟨⟨payload, user, db₁⟩, haccept, h⟩ := bind_eq_ok.mp h
      obtain rfl := Except.ok.inj h
      exact acceptInvite_steps haccept
  | requestPasswordReset email =>
      simp only [handle, requestPasswordReset] at h
      cases hlookup : db.users.lookup email with
      | none =>
          rw [hlookup] at h
          obtain rfl := Except.ok.inj h
          exact steps_of_frame rfl rfl
      | some user =>
          rw [hlookup] at h
          obtain ⟨_, _, h⟩ := bind_eq_ok.mp h
          obtain rfl := Except.ok.inj h
          exact steps_of_frame rfl rfl
  | confirmPasswordReset req =>
      simp only [handle, confirmPasswordReset, bind_eq_ok, orRaise_eq_ok, pure_eq_ok] at h
      obtain ⟨_, _, ⟨payload, db₁⟩, hconsume, rfl⟩ := h
      obtain ⟨_, _, husers, hsigned, _⟩ := consumeToken_eq_some hconsume
      exact ⟨Or.inl hsigned, (keeps_of_users husers).trans (keeps_updateWhere fun _ => id)⟩
  | updateRole token userId role =>
      obtain ⟨_, _, h⟩ := bind_eq_ok.mp h
      obtain ⟨_, _, h⟩ := bind_eq_ok.mp h
      obtain ⟨role, _, h⟩ := bind_eq_ok.mp h
      refine updateUser_steps (fun u hoff => ?_) h
      exact hoff
  | deactivateUser token userId =>
      obtain ⟨_, _, h⟩ := bind_eq_ok.mp h
      obtain ⟨_, _, h⟩ := bind_eq_ok.mp h
      exact updateUser_steps (fun u _ => rfl) h

theorem serve_steps (a : Draw × Request) : Steps a.1 db (serve prims settings db a) := by
  rw [serve]
  cases hhandle : handle prims settings a.1 db a.2 with
  | error exc => exact steps_of_frame rfl rfl
  | ok db' => exact handle_steps hhandle

end Histories

section Tokens

variable {prims : Primitives} {settings : LoginSettings} {draw : Draw} {token : TokenData}
  {history pre post : List (Draw × Request)} {now : Nat} {email : String}

theorem dbAfter_concat (a : Draw × Request) : dbAfter prims settings (history ++ [a]) =
    serve prims settings (dbAfter prims settings history) a := List.foldl_concat ..

/-- The request has signed the token, for an account as it leaves it. -/
def SignedBy (prims : Primitives) (settings : LoginSettings) (token : TokenData)
    (before : List (Draw × Request)) (a : Draw × Request) : Prop :=
  token.exp = a.1.now + jwtExpiryMinutes ∧
    ∃ u ∈ (dbAfter prims settings (before ++ [a])).users, IssuedFor token u

theorem signed_by (h : token ∈ (dbAfter prims settings history).signed) :
    SomeStep (SignedBy prims settings token) history := by
  induction history using List.reverseRecOn with
  | nil => cases h
  | append_singleton history a ih =>
      rw [dbAfter_concat] at h
      rcases (serve_steps a).signs with hsame | ⟨new, hnew, hexp, hissued⟩
      · exact someStep_concat.mpr (Or.inl (ih (hsame ▸ h)))
      · rw [hnew] at h
        rcases List.mem_cons.mp h with rfl | hold
        · refine someStep_concat.mpr (Or.inr ⟨hexp, ?_⟩)
          rwa [dbAfter_concat]
        · exact someStep_concat.mpr (Or.inl (ih hold))

theorem accepted_iff {db : Db} : getCurrentUser db now token = .ok token ↔
    token ∈ db.signed ∧ now < token.exp ∧ sessionIsActive db now token.jti = true := by
  rw [getCurrentUser]
  split
  · rename_i h
    exact iff_of_true rfl h
  · rename_i h
    exact iff_of_false (fun heq => by cases heq) h

/-- What has signed the token is one of the requests that are no longer old. -/
theorem signed_since (haccepted : getCurrentUser
      (dbAfter prims settings (pre ++ post)) now token = .ok token)
    (hold : ∀ a ∈ pre, a.1.now + jwtExpiryMinutes ≤ now) :
    ∃ mid rest, post = mid ++ rest ∧ mid ≠ [] ∧
      ∃ u ∈ (dbAfter prims settings (pre ++ mid)).users, IssuedFor token u := by
  obtain ⟨hsigned, hexp, _⟩ := accepted_iff.mp haccepted
  obtain ⟨done, a, rest, hsplit, hfrom, u, hu, hissued⟩ := signed_by hsigned
  have hrecent : now < a.1.now + jwtExpiryMinutes := hfrom ▸ hexp
  have hlater : ∀ mid, post = mid ++ a :: rest → done = pre ++ mid → ∃ mid rest,
      post = mid ++ rest ∧ mid ≠ [] ∧
        ∃ u ∈ (dbAfter prims settings (pre ++ mid)).users, IssuedFor token u := by
    rintro mid hpost rfl
    refine ⟨mid ++ [a], rest, ?_, List.concat_ne_nil a mid, u, ?_, hissued⟩
    · rw [hpost, List.append_assoc, List.singleton_append]
    · rwa [List.append_assoc] at hu
  rcases List.append_eq_append_iff.mp hsplit with ⟨mid, hdone, hpost⟩ | ⟨last, hpre, hrest⟩
  · exact hlater mid hpost hdone
  · cases last with
    | nil => exact hlater [] hrest.symm (by rw [hpre, List.append_nil, List.append_nil])
    | cons b last =>
        -- the request that signed the token is none of the old ones
        obtain ⟨rfl, _⟩ := List.cons.inj hrest
        have hpast := hold a (hpre ▸ List.mem_append_right done List.mem_cons_self)
        exact absurd hrecent (not_lt.mpr hpast)

theorem keeps_append : Keeps (dbAfter prims settings pre) (dbAfter prims settings (pre ++ post)) := by
  induction post using List.reverseRecOn with
  | nil =>
      rw [List.append_nil]
      exact .refl _
  | append_singleton post a ih =>
      rw [← List.append_assoc, dbAfter_concat]
      exact ih.trans (serve_steps a).keeps

def plain : Primitives := ⟨id, id, fun _ => true⟩

def plainSettings : LoginSettings := ⟨"dev@local", "dev-password", "dev", .companyAdmin, (· == ·)⟩

def drawAt (now : Nat) (drawn : String) : Draw := ⟨now, "org-1", "u-" ++ drawn, "j-" ++ drawn, ""⟩

def annSigned : Draw × Request := (drawAt 0 "ann", .signup ⟨"Acme", "ann@acme.example", "password"⟩)

def annsToken (now : Nat) (drawn : String) : TokenData :=
  ⟨"ann@acme.example", "org-1", .companyAdmin, none, "j-" ++ drawn, now + jwtExpiryMinutes⟩

/-- The request was served in the last 480 minutes, and the token says of its account what the
table said of it then. -/
def RecentlySigned (prims : Primitives) (settings : LoginSettings) (now : Nat) (token : TokenData)
    (before : List (Draw × Request)) (a : Draw × Request) : Prop :=
  now < a.1.now + jwtExpiryMinutes ∧
    ∃ u ∈ (dbAfter prims settings (before ++ [a])).users, IssuedFor token u

/-- A token that is accepted says of its account what the table said at some time of the last 480
minutes. -/
theorem token_recent (haccepted : getCurrentUser
      (dbAfter prims settings history) now token = .ok token) :
    SomeStep (RecentlySigned prims settings now token) history := by
  obtain ⟨hsigned, hexp, _⟩ := accepted_iff.mp haccepted
  obtain ⟨done, a, rest, hsplit, hfrom, hissued⟩ := signed_by hsigned
  exact ⟨done, a, rest, hsplit, hfrom ▸ hexp, hissued⟩

/-- The token of a second login, a hundred minutes old. -/
theorem anns_token_recent : SomeStep (RecentlySigned plain plainSettings 600 (annsToken 500 "b"))
    [annSigned, (drawAt 500 "b", .login ⟨"ann@acme.example", "password"⟩)] := by
  refine token_recent ?_
  rfl

def Off (email : String) (db : Db) : Prop := ∃ u ∈ db.users, u.email = email ∧ u.isActive = false

theorem Off.all {db : Db} (h : Off email db) {u : User} (hu : u ∈ db.users)
    (hemail : u.email = email) : u.isActive = false := by
  obtain ⟨v, hv, hv_email, hoff⟩ := h
  rwa [KeyedTable.eq_of_key_eq hu hv (hemail.trans hv_email.symm)]

theorem Off.append (h : Off email (dbAfter prims settings pre)) :
    Off email (dbAfter prims settings (pre ++ post)) := by
  obtain ⟨u, hu, hemail, hoff⟩ := h
  obtain ⟨v, hv, hv_email, hv_off⟩ := keeps_append u hu
  exact ⟨v, hv, hv_email.trans hemail, hv_off hoff⟩

theorem off_of_deactivated {admin : TokenData} {userId : String} {u : User} {db db' : Db}
    (h : handle prims settings draw db (.deactivateUser admin userId) = .ok db')
    (hu : u ∈ db.users) (hid : u.userId = userId) (horg : u.orgId = admin.orgId) :
    Off u.email db' := by
  simp only [handle, deactivateUser, updateUser, bind_eq_ok, pure_eq_ok] at h
  obtain ⟨currentUser, hcurrent, _, _, _, _, rfl⟩ := h
  obtain ⟨rfl, _⟩ := Invitations.getCurrentUser_eq_ok hcurrent
  refine ⟨{ u with isActive := false }, List.mem_map.mpr ⟨u, hu, if_pos ?_⟩, rfl, rfl⟩
  simp [ofOrg, hid, horg]

/-- Once an administrator of its organisation has deactivated an account, no login under it ever
succeeds, and from 480 minutes later on no token for it is accepted. -/
theorem deactivated_out {admin : TokenData} {userId : String} {u : User} {db' : Db}
    (hdone : handle prims settings draw (dbAfter prims settings pre)
      (.deactivateUser admin userId) = .ok db')
    (hu : u ∈ (dbAfter prims settings pre).users) (hid : u.userId = userId)
    (horg : u.orgId = admin.orgId) (hpast : ∀ a ∈ pre, a.1.now ≤ draw.now) :
    (∀ req user, req.email = u.email → authenticate settings req
      (dbAfter prims settings (pre ++ (draw, .deactivateUser admin userId) :: post)) ≠ .ok user) ∧
    ∀ now token, draw.now + jwtExpiryMinutes ≤ now → token.email = u.email → getCurrentUser
      (dbAfter prims settings (pre ++ (draw, .deactivateUser admin userId) :: post)) now token ≠
        .ok token := by
  have hoff : ∀ mid, Off u.email
      (dbAfter prims settings (pre ++ (draw, .deactivateUser admin userId) :: mid)) := by
    intro mid
    rw [List.append_cons]
    refine Off.append ?_
    rw [dbAfter_concat, serve, hdone]
    exact off_of_deactivated hdone hu hid horg
  refine ⟨fun req user hemail hlogin => ?_, fun now token hnow hemail haccepted => ?_⟩
  · simp only [authenticate, bind_eq_ok, raiseIf_eq_ok, pure_eq_ok, orRaise_eq_ok] at hlogin
    obtain ⟨found, hlookup, _, _, _, hactive, _⟩ := hlogin
    obtain ⟨hfound, hkey⟩ := KeyedTable.lookup_eq_some.mp hlookup
    exact hactive ((hoff post).all hfound (hkey.trans hemail))
  · obtain ⟨mid, rest, hsplit, hne, v, hv, hissued⟩ := signed_since haccepted
      (fun a ha => le_trans (Nat.add_le_add_right (hpast a ha) _) hnow)
    cases mid with
    | nil => exact hne rfl
    | cons b mid =>
        obtain ⟨rfl, _⟩ := List.cons.inj hsplit
        have hinactive := (hoff mid).all hv (hissued.2.1.symm.trans hemail)
        exact Bool.noConfusion (hissued.1.symm.trans hinactive)

/-- An administrator deactivates the own account; the token it signed up with is out then. -/
theorem ann_out : getCurrentUser (dbAfter plain plainSettings ([annSigned] ++ (drawAt 5 "",
    .deactivateUser (annsToken 0 "ann") "u-ann") :: [])) 485 (annsToken 0 "ann") ≠
      .ok (annsToken 0 "ann") := by
  have hdone : ∃ db', handle plain plainSettings (drawAt 5 "")
      (dbAfter plain plainSettings [annSigned])
      (.deactivateUser (annsToken 0 "ann") "u-ann") = .ok db' := ⟨_, rfl⟩
  obtain ⟨db', hdone⟩ := hdone
  have hann : ⟨"u-ann", "org-1", "ann@acme.example", "password", .companyAdmin, none, true⟩ ∈
      (dbAfter plain plainSettings [annSigned]).users := List.mem_singleton.mpr rfl
  exact (deactivated_out hdone hann rfl rfl (by decide)).2 485 _ (by decide) rfl

end Tokens

end RfpPlatform.TenantUsers
