import RfpPlatform.AccountRequests
import RfpPlatform.ExceptRules
import RfpPlatform.TransitionRuns

namespace RfpPlatform.Invitations

open AccountRequests ExceptRules TransitionRuns

structure Invitation where
  tokenHash : String
  inviter : TokenData
  role : String

structure Account where
  user : User
  tokenHash : String

/-- The identity tables with a record of the invitations sent and accepted, which no
request reads. -/
structure System where
  db : Db
  invitations : List Invitation
  accounts : List Account

inductive Request
  | signup (req : SignupRequest)
  | inviteUser (token : TokenData) (req : InviteRequest)
  | acceptInvite (req : InviteAcceptRequest)

variable (prims : Primitives)

def handle (draw : Draw) (s : System) : Request → Except Exn System
  | .signup req => do return { s with db := ← AccountRequests.signup prims draw req s.db }
  | .inviteUser token req => do
      let db ← AccountRequests.inviteUser prims draw token req s.db
      return { s with
        db := db
        invitations := ⟨prims.sha256 draw.plaintext, token, req.role⟩ :: s.invitations }
  | .acceptInvite req => do
      let (payload, user, db) ← AccountRequests.acceptInvite prims draw req s.db
      return { s with db := db, accounts := ⟨user, payload.tokenHash⟩ :: s.accounts }

/-- One request is served. A request that raises is rolled back. -/
def serve (s : System) (a : Draw × Request) : System :=
  match handle prims a.1 s a.2 with
  | .ok t => t
  | .error _ => s

def Served (s : System) (a : Draw × Request) (t : System) : Prop := serve prims s a = t

variable {prims} {s t : System} {draw : Draw}

theorem insertUser_eq_ok {db db' : Db} {user : User} (h : insertUser db user = .ok db') :
    (∀ u, u ∈ db'.users ↔ u ∈ db.users ∨ u = user) ∧
      db'.onetimeTokens = db.onetimeTokens ∧ db'.signed = db.signed := by
  simp only [insertUser, bind_eq_ok, orRaise_eq_ok, pure_eq_ok] at h
  obtain ⟨users, hins, rfl⟩ := h
  exact ⟨KeyedTable.mem_of_insert? hins, rfl, rfl⟩

theorem signup_eq_ok {req : SignupRequest} {db db' : Db}
    (h : AccountRequests.signup prims draw req db = .ok db') :
    (∃ user, user.role = .companyAdmin ∧ ∀ u, u ∈ db'.users ↔ u ∈ db.users ∨ u = user) ∧
      (∃ token, token.role = .companyAdmin ∧ db'.signed = token :: db.signed) ∧
      db'.onetimeTokens = db.onetimeTokens := by
  simp only [AccountRequests.signup, bind_eq_ok, raiseIf_eq_ok, pure_eq_ok] at h
  obtain ⟨_, _, _, _, db₁, hins, rfl⟩ := h
  obtain ⟨husers, htokens, hsigned⟩ := insertUser_eq_ok hins
  refine ⟨⟨_, rfl, husers⟩, ⟨createAccessToken draw req.email draw.orgId .companyAdmin none, rfl, ?_⟩,
    htokens⟩
  exact congrArg _ hsigned

theorem getCurrentUser_eq_ok {db : Db} {now : Nat} {token user : TokenData}
    (h : getCurrentUser db now token = .ok user) : user = token ∧ token ∈ db.signed := by
  unfold getCurrentUser at h
  split at h
  · rename_i hv
    cases h
    exact ⟨rfl, hv.1⟩
  · cases h

theorem mem_supersede {purpose : Purpose} {email : String}
    {tokens : KeyedTable OnetimeToken.tokenHash} {row : OnetimeToken}
    (h : row ∈ supersede draw purpose email tokens) :
    ∃ old ∈ tokens, old.tokenHash = row.tokenHash ∧ old.purpose = row.purpose ∧
      old.role = row.role := by
  obtain ⟨old, hold, he⟩ := KeyedTable.mem_updateWhere.mp h
  refine ⟨old, hold, ?_⟩
  split at he <;> subst he <;> exact ⟨rfl, rfl, rfl⟩

theorem mem_spend {tokenHash : String} {tokens : KeyedTable OnetimeToken.tokenHash}
    {row : OnetimeToken} (h : row ∈ spend draw tokenHash tokens) :
    ∃ old ∈ tokens, old.tokenHash = row.tokenHash ∧ old.purpose = row.purpose ∧
      old.role = row.role := by
  obtain ⟨old, hold, he⟩ := KeyedTable.mem_updateWhere.mp h
  refine ⟨old, hold, ?_⟩
  split at he <;> subst he <;> exact ⟨rfl, rfl, rfl⟩

/-- A successful invitation comes from a signed-in administrator, a department
administrator invites department users only, and the role goes into the token row. -/
theorem inviteUser_eq_ok {token : TokenData} {req : InviteRequest} {db db' : Db}
    (h : AccountRequests.inviteUser prims draw token req db = .ok db') :
    token ∈ db.signed ∧ token.role ∈ [Role.platformAdmin, .companyAdmin, .departmentAdmin] ∧
      (token.role = .departmentAdmin → req.role = "department_user") ∧
      db'.users = db.users ∧ db'.signed = db.signed ∧
      ∀ row ∈ db'.onetimeTokens,
        (∃ old ∈ db.onetimeTokens, old.tokenHash = row.tokenHash ∧ old.purpose = row.purpose ∧
          old.role = row.role) ∨
        (row.tokenHash = prims.sha256 draw.plaintext ∧ row.role = some req.role) := by
  simp only [AccountRequests.inviteUser, createInviteToken, bind_eq_ok, raiseIf_eq_ok,
    orRaise_eq_ok, pure_eq_ok] at h
  obtain ⟨user, huser, _, hrole, _, hdept, _, _, deptId, _, tokens, hins, rfl⟩ := h
  obtain ⟨rfl, hsigned⟩ := getCurrentUser_eq_ok huser
  refine ⟨hsigned, not_not.mp hrole, fun hd => ?_, rfl, rfl, fun row hrow => ?_⟩
  · have hmem : req.role ∈ ["department_user"] := by
      by_contra hn
      exact hdept ⟨hd, hn⟩
    exact List.mem_singleton.mp hmem
  · rcases (KeyedTable.mem_of_insert? hins row).mp hrow with hold | rfl
    · exact Or.inl (mem_supersede hold)
    · exact Or.inr ⟨rfl, rfl⟩

theorem consumeToken_eq_some {plaintext : String} {purpose : Purpose} {db db' : Db}
    {payload : OnetimeToken}
    (h : consumeToken prims draw plaintext purpose db = some (payload, db')) :
    payload ∈ db.onetimeTokens ∧ payload.purpose = purpose ∧ db'.users = db.users ∧
      db'.signed = db.signed ∧ db'.onetimeTokens = spend draw payload.tokenHash db.onetimeTokens := by
  unfold consumeToken at h
  split at h
  · cases h
  · cases hl : db.onetimeTokens.lookup (prims.sha256 plaintext) with
    | none =>
        rw [hl] at h
        cases h
    | some row =>
        simp only [hl] at h
        split at h
        · rename_i hc
          cases h
          simp only [consumable, Bool.and_eq_true, decide_eq_true_eq] at hc
          exact ⟨(KeyedTable.lookup_eq_some.mp hl).1, hc.1.1, rfl, rfl, rfl⟩
        · cases h

theorem invitedUser_eq_ok {req : InviteAcceptRequest} {payload : OnetimeToken} {user : User}
    (h : invitedUser prims draw req payload = .ok user) :
    Role.ofString (effectiveRole payload.role) = some user.role := by
  unfold invitedUser at h
  split at h
  · cases h
  · cases h
  · rename_i hr ho
    cases h
    exact hr

theorem acceptInvite_eq_ok {req : InviteAcceptRequest} {db db' : Db} {payload : OnetimeToken}
    {user : User} (h : AccountRequests.acceptInvite prims draw req db = .ok (payload, user, db')) :
    payload ∈ db.onetimeTokens ∧ payload.purpose = .invite ∧
      Role.ofString (effectiveRole payload.role) = some user.role ∧
      (∀ u, u ∈ db'.users ↔ u ∈ db.users ∨ u = user) ∧
      (∃ token, token.role = user.role ∧ db'.signed = token :: db.signed) ∧
      db'.onetimeTokens = spend draw payload.tokenHash db.onetimeTokens := by
  simp only [AccountRequests.acceptInvite, bind_eq_ok, raiseIf_eq_ok, orRaise_eq_ok, pure_eq_ok] at h
  obtain ⟨_, _, ⟨p, db₁⟩, hcons, _, _, u, huser, db₂, hins, he⟩ := h
  obtain ⟨rfl, rfl, rfl⟩ : p = payload ∧ u = user ∧ _ = db' := by simpa using he
  obtain ⟨hmem, hpurpose, husers, hsigned, htokens⟩ := consumeToken_eq_some hcons
  obtain ⟨husers', htokens', hsigned'⟩ := insertUser_eq_ok hins
  rw [husers] at husers'
  refine ⟨hmem, hpurpose, invitedUser_eq_ok huser, husers',
    ⟨createAccessToken draw u.email u.orgId u.role u.deptId, rfl, ?_⟩, htokens'.trans htokens⟩
  exact congrArg _ (hsigned'.trans hsigned)

/-- Every live or spent invite token goes back to a recorded invitation for its role, and
every account made from one has the role that was asked for. -/
structure Recorded (s : System) : Prop where
  tokens : ∀ row ∈ s.db.onetimeTokens, row.purpose = .invite →
    ∃ inv ∈ s.invitations, inv.tokenHash = row.tokenHash ∧ row.role = some inv.role
  accounts : ∀ acc ∈ s.accounts, ∃ inv ∈ s.invitations, inv.tokenHash = acc.tokenHash ∧
    Role.ofString (effectiveRole (some inv.role)) = some acc.user.role

theorem Recorded.of_unread {db : Db} (hs : Recorded s)
    (h : db.onetimeTokens = s.db.onetimeTokens) : Recorded { s with db := db } := by
  refine ⟨fun row hrow hp => ?_, hs.accounts⟩
  change row ∈ db.onetimeTokens at hrow
  rw [h] at hrow
  exact hs.tokens row hrow hp

theorem recorded_handle {r : Request} (hs : Recorded s) (h : handle prims draw s r = .ok t) :
    Recorded t := by
  cases r with
  | signup req =>
      simp only [handle, bind_eq_ok, pure_eq_ok] at h
      obtain ⟨db, hdb, rfl⟩ := h
      obtain ⟨_, _, htokens⟩ := signup_eq_ok hdb
      exact hs.of_unread htokens
  | inviteUser token req =>
      simp only [handle, bind_eq_ok, pure_eq_ok] at h
      obtain ⟨db, hdb, rfl⟩ := h
      obtain ⟨_, _, _, _, _, htokens⟩ := inviteUser_eq_ok hdb
      refine ⟨fun row hrow hp => ?_, fun acc hacc => ?_⟩
      · rcases htokens row hrow with ⟨old, hold, hhash, hpurpose, hrole⟩ | ⟨hhash, hrole⟩
        · obtain ⟨inv, hinv, hih, hir⟩ := hs.tokens old hold (hpurpose.trans hp)
          exact ⟨inv, List.mem_cons_of_mem _ hinv, hih.trans hhash, hrole ▸ hir⟩
        · exact ⟨_, List.mem_cons_self, hhash.symm, hrole⟩
      · obtain ⟨inv, hinv, he⟩ := hs.accounts acc hacc
        exact ⟨inv, List.mem_cons_of_mem _ hinv, he⟩
  | acceptInvite req =>
      simp only [handle, bind_eq_ok, pure_eq_ok] at h
      obtain ⟨⟨payload, user, db⟩, hdb, rfl⟩ := h
      obtain ⟨hmem, hpurpose, hrole, _, _, htokens⟩ := acceptInvite_eq_ok hdb
      refine ⟨fun row hrow hp => ?_, fun acc hacc => ?_⟩
      · change row ∈ db.onetimeTokens at hrow
        rw [htokens] at hrow
        obtain ⟨old, hold, hhash, hpur, hr⟩ := mem_spend hrow
        obtain ⟨inv, hinv, hih, hir⟩ := hs.tokens old hold (hpur.trans hp)
        exact ⟨inv, hinv, hih.trans hhash, hr ▸ hir⟩
      · rcases List.mem_cons.mp hacc with rfl | hacc
        · obtain ⟨inv, hinv, hih, hir⟩ := hs.tokens payload hmem hpurpose
          exact ⟨inv, hinv, hih, hir ▸ hrole⟩
        · exact hs.accounts acc hacc

theorem Served.cases {a : Draw × Request} (h : Served prims s a t) :
    handle prims a.1 s a.2 = .ok t ∨ t = s := by
  unfold Served serve at h
  cases hh : handle prims a.1 s a.2 with
  | ok t' =>
      rw [hh] at h
      exact Or.inl (congrArg _ h)
  | error e =>
      rw [hh] at h
      exact Or.inr h.symm

theorem recorded_preserved : Preserved (Served prims) Recorded := by
  intro s a t hs hstep
  rcases hstep.cases with h | rfl
  · exact recorded_handle hs h
  · exact hs

/-- The comparison that `invite_user` leaves out for company administrators. -/
def Admits (_ : System) (a : Draw × Request) : Prop :=
  ∀ token req, a.2 = .inviteUser token req → token.role = .companyAdmin →
    req.role ≠ Role.platformAdmin.value

def Bounded (s : System) : Prop :=
  ∀ inv ∈ s.invitations, ∀ role, Role.ofString (effectiveRole (some inv.role)) = some role →
    role.rank ≤ inv.inviter.role.rank

theorem rank_le_three (r : Role) : r.rank ≤ 3 := by
  cases r <;> decide

theorem effectiveRole_some (role : String) :
    effectiveRole (some role) = role ∨ effectiveRole (some role) = Role.departmentUser.value := by
  unfold effectiveRole
  split
  · exact Or.inr rfl
  · exact Or.inl rfl

theorem rank_le_of_invite {inviter : Role} {requested : String} {role : Role}
    (hinv : inviter ∈ [Role.platformAdmin, .companyAdmin, .departmentAdmin])
    (hdept : inviter = .departmentAdmin → requested = "department_user")
    (hcompany : inviter = .companyAdmin → requested ≠ Role.platformAdmin.value)
    (h : Role.ofString (effectiveRole (some requested)) = some role) :
    role.rank ≤ inviter.rank := by
  have hvalue := Role.value_of_ofString h
  cases inviter with
  | platformAdmin => exact rank_le_three role
  | companyAdmin =>
      cases role with
      | platformAdmin =>
          rcases effectiveRole_some requested with he | he
          · exact absurd (he.symm.trans hvalue.symm) (hcompany rfl)
          · rw [he] at hvalue
            exact absurd hvalue (by decide)
      | companyAdmin | departmentAdmin | departmentUser | auditor => decide
  | departmentAdmin =>
      have hreq := hdept rfl
      rw [hreq] at h
      have hrole : role = .departmentUser :=
        Option.some.inj (h.symm.trans (Role.ofString_value .departmentUser))
      rw [hrole]
      decide
  | departmentUser | auditor => simp at hinv

theorem bounded_preserved : Preserved (Guarded Admits (Served prims)) Bounded := by
  rintro s ⟨draw, r⟩ t hs ⟨hadm, hstep⟩
  rcases hstep.cases with h | rfl
  · cases r with
    | signup req =>
        simp only [handle, bind_eq_ok, pure_eq_ok] at h
        obtain ⟨db, _, rfl⟩ := h
        exact hs
    | inviteUser token req =>
        simp only [handle, bind_eq_ok, pure_eq_ok] at h
        obtain ⟨db, hdb, rfl⟩ := h
        obtain ⟨_, hrole, hdept, _⟩ := inviteUser_eq_ok hdb
        intro inv hinv role hr
        rcases List.mem_cons.mp hinv with rfl | hinv
        · exact rank_le_of_invite hrole hdept (hadm token req rfl) hr
        · exact hs inv hinv role hr
    | acceptInvite req =>
        simp only [handle, bind_eq_ok, pure_eq_ok] at h
        obtain ⟨_, _, rfl⟩ := h
        exact hs
  · exact hs

structure NoOperator (s : System) : Prop where
  users : ∀ u ∈ s.db.users, u.role ≠ .platformAdmin
  signed : ∀ token ∈ s.db.signed, token.role ≠ .platformAdmin
  tokens : ∀ row ∈ s.db.onetimeTokens, row.purpose = .invite →
    Role.ofString (effectiveRole row.role) ≠ some .platformAdmin

theorem noOperator_preserved : Preserved (Guarded Admits (Served prims)) NoOperator := by
  rintro s ⟨draw, r⟩ t hs ⟨hadm, hstep⟩
  rcases hstep.cases with h | rfl
  · cases r with
    | signup req =>
        simp only [handle, bind_eq_ok, pure_eq_ok] at h
        obtain ⟨db, hdb, rfl⟩ := h
        obtain ⟨⟨user, hrole, husers⟩, ⟨token, htoken, hsigned⟩, htokens⟩ := signup_eq_ok hdb
        refine ⟨fun u hu => ?_, fun tok htok => ?_, fun row hrow => ?_⟩
        · rcases (husers u).mp hu with hu | rfl
          · exact hs.users u hu
          · rw [hrole]
            decide
        · change tok ∈ db.signed at htok
          rw [hsigned] at htok
          rcases List.mem_cons.mp htok with rfl | htok
          · rw [htoken]
            decide
          · exact hs.signed tok htok
        · change row ∈ db.onetimeTokens at hrow
          rw [htokens] at hrow
          exact hs.tokens row hrow
    | inviteUser token req =>
        simp only [handle, bind_eq_ok, pure_eq_ok] at h
        obtain ⟨db, hdb, rfl⟩ := h
        obtain ⟨hmem, hrole, hdept, husers, hsigned, htokens⟩ := inviteUser_eq_ok hdb
        refine ⟨fun u hu => ?_, fun tok htok => ?_, fun row hrow hp hplatform => ?_⟩
        · change u ∈ db.users at hu
          rw [husers] at hu
          exact hs.users u hu
        · change tok ∈ db.signed at htok
          rw [hsigned] at htok
          exact hs.signed tok htok
        · rcases htokens row hrow with ⟨old, hold, _, hpurpose, hr⟩ | ⟨_, hr⟩
          · exact hs.tokens old hold (hpurpose.trans hp) (hr ▸ hplatform)
          · rw [hr] at hplatform
            have hle := rank_le_of_invite hrole hdept (hadm token req rfl) hplatform
            have hplat : token.role = .platformAdmin := by
              cases hk : token.role <;> rw [hk] at hle <;> simp_all [Role.rank]
            exact hs.signed token hmem hplat
    | acceptInvite req =>
        simp only [handle, bind_eq_ok, pure_eq_ok] at h
        obtain ⟨⟨payload, user, db⟩, hdb, rfl⟩ := h
        obtain ⟨hmem, hpurpose, hrole, husers, ⟨token, htoken, hsigned⟩, htokens⟩ :=
          acceptInvite_eq_ok hdb
        have huser : user.role ≠ .platformAdmin := fun he =>
          hs.tokens payload hmem hpurpose (he ▸ hrole)
        refine ⟨fun u hu => ?_, fun tok htok => ?_, fun row hrow hp => ?_⟩
        · rcases (husers u).mp hu with hu | rfl
          · exact hs.users u hu
          · exact huser
        · change tok ∈ db.signed at htok
          rw [hsigned] at htok
          rcases List.mem_cons.mp htok with rfl | htok
          · rw [htoken]
            exact huser
          · exact hs.signed tok htok
        · change row ∈ db.onetimeTokens at hrow
          rw [htokens] at hrow
          obtain ⟨old, hold, _, hpur, hr⟩ := mem_spend hrow
          rw [← hr]
          exact hs.tokens old hold (hpur.trans hp)
  · exact hs

structure Fresh (s : System) : Prop where
  no_invitations : s.invitations = []
  no_accounts : s.accounts = []
  no_invite_tokens : ∀ row ∈ s.db.onetimeTokens, row.purpose ≠ .invite

theorem Fresh.recorded (h : Fresh s) : Recorded s := by
  refine ⟨fun row hrow hp => absurd hp (h.no_invite_tokens row hrow), fun acc hacc => ?_⟩
  rw [h.no_accounts] at hacc
  cases hacc

theorem Fresh.bounded (h : Fresh s) : Bounded s := by
  intro inv hinv
  rw [h.no_invitations] at hinv
  cases hinv

def System.empty : System := ⟨Db.empty, [], []⟩

theorem System.empty_fresh : Fresh System.empty := ⟨rfl, rfl, fun _ hrow => (nomatch hrow)⟩

/-- Every invited account goes back to an invitation whose sender was not below it. -/
def NonEscalating (s : System) : Prop :=
  ∀ acc ∈ s.accounts, ∃ inv ∈ s.invitations, inv.tokenHash = acc.tokenHash ∧
    acc.user.role.rank ≤ inv.inviter.role.rank

theorem nonEscalating_of_recorded (hr : Recorded s) (hb : Bounded s) : NonEscalating s := by
  intro acc hacc
  obtain ⟨inv, hinv, hhash, hrole⟩ := hr.accounts acc hacc
  exact ⟨inv, hinv, hhash, hb inv hinv _ hrole⟩

/-- While no company administrator asks for a platform administrator, no invited account
is above its inviter, and a platform without operators stays without them. -/
theorem admitted_run_nonEscalating (prims : Primitives) (s t : System)
    (reqs : List (Draw × Request)) (hs : Fresh s)
    (hrun : Run (Guarded Admits (Served prims)) s reqs t) :
    NonEscalating t ∧ (NoOperator s → ∀ u ∈ t.db.users, u.role ≠ .platformAdmin) := by
  have hrec : Recorded t := hrun.forget.invariant recorded_preserved hs.recorded
  have hbnd : Bounded t := hrun.invariant bounded_preserved hs.bounded
  exact ⟨nonEscalating_of_recorded hrec hbnd,
    fun hno => (hrun.invariant noOperator_preserved hno).users⟩

def acmePrimitives : Primitives where
  sha256 s := if s = "q3Jx" then
    "586cb3ab5571c00c3018af974260b6d162c0abd6234dc11f79d7bcad2805b30a" else ""
  hashPassword _ := "$2b$12$6lqvGm6p1N7cGJ5y0sQkEe"
  isUuid _ := true

def acmeOwner : TokenData := ⟨"owner@acme.example", "org-1", .companyAdmin, none, "j1", 480⟩

def acmeSignup : Draw × Request :=
  (⟨0, "org-1", "u1", "j1", ""⟩, .signup ⟨"Acme", "owner@acme.example", "password1"⟩)

def acmeInvite (role : String) : Draw × Request :=
  (⟨1, "", "", "", "q3Jx"⟩, .inviteUser acmeOwner { email := "op@acme.example", role := role })

def acmeAccept : Draw × Request :=
  (⟨2, "", "u2", "j2", ""⟩, .acceptInvite ⟨"q3Jx", "password2"⟩)

theorem admitted_run_acme :
    NonEscalating ([acmeSignup, acmeInvite "department_admin", acmeAccept].foldl
        (serve acmePrimitives) System.empty) ∧
      (NoOperator System.empty → ∀ u ∈ ([acmeSignup, acmeInvite "department_admin",
        acmeAccept].foldl (serve acmePrimitives) System.empty).db.users, u.role ≠ .platformAdmin) :=
  admitted_run_nonEscalating acmePrimitives System.empty _
    [acmeSignup, acmeInvite "department_admin", acmeAccept] System.empty_fresh
    (.cons ⟨fun _ _ h => (nomatch h), rfl⟩ (.cons ⟨fun _ _ h _ => (by cases h; decide), rfl⟩
      (.cons ⟨fun _ _ h => (nomatch h), rfl⟩ (.nil _))))

/-- The owner of a new organisation invites a platform administrator, who accepts. -/
theorem company_admin_makes_operator :
    ¬ ∀ (prims : Primitives) (reqs : List (Draw × Request)) (t : System),
      Run (Served prims) System.empty reqs t →
        NonEscalating t ∧ ∀ u ∈ t.db.users, u.role ≠ .platformAdmin := by
  intro h
  have hrun := Run.of_foldl (serve acmePrimitives) System.empty
    [acmeSignup, acmeInvite "platform_admin", acmeAccept]
  obtain ⟨_, hno⟩ := h acmePrimitives _ _ hrun
  have hany : ([acmeSignup, acmeInvite "platform_admin", acmeAccept].foldl
      (serve acmePrimitives) System.empty).db.users.rows.any
        (fun u => u.role = .platformAdmin) = true := by decide +kernel
  obtain ⟨u, hu, hrole⟩ := List.any_eq_true.mp hany
  exact hno u hu (of_decide_eq_true hrole)

end RfpPlatform.Invitations
