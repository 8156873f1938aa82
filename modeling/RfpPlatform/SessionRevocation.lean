import RfpPlatform.AccountRequests
import RfpPlatform.TransitionRuns
import Mathlib.Logic.Function.Basic

namespace RfpPlatform.SessionRevocation

open AccountRequests ExceptRules TransitionRuns

section Requests

/-- The seed account of a first boot, and the bcrypt check. -/
structure LoginSettings where
  devUserEmail : String
  devUserPassword : String
  devOrgId : String
  devUserRole : Role
  verifyPassword : String → String → Bool

structure LoginRequest where
  email : String
  password : String

def ensureDevUser (prims : Primitives) (settings : LoginSettings) (draw : Draw) (db : Db) : Db :=
  { db with
    organisations := if settings.devOrgId ∈ db.organisations then db.organisations
      else settings.devOrgId :: db.organisations
    users := (db.users.insert? ⟨draw.userId, settings.devOrgId, settings.devUserEmail,
      prims.hashPassword settings.devUserPassword, settings.devUserRole, none, true⟩).getD
        db.users }

def seedOnFirstBoot (prims : Primitives) (settings : LoginSettings) (draw : Draw)
    (req : LoginRequest) (db : Db) : Db :=
  if (db.users.lookup req.email).isNone ∧ req.email = settings.devUserEmail ∧
      settings.verifyPassword req.password (prims.hashPassword settings.devUserPassword) = true
  then ensureDevUser prims settings draw db
  else db

def authenticate (settings : LoginSettings) (req : LoginRequest) (db : Db) : Except Exn User := do
  let user ← orRaise (db.users.lookup req.email) (httpError 401 "Invalid credentials")
  raiseIf (settings.verifyPassword req.password user.hashedPw = false)
    (httpError 401 "Invalid credentials")
  raiseIf (user.isActive = false) (httpError 403 "Account is inactive")
  return user

def registerSession (draw : Draw) (user : User) (db : Db) : Db :=
  issueSession db draw user.userId
    (createAccessToken draw user.email user.orgId user.role user.deptId)

/-- `UPDATE auth_sessions SET revoked_at = now() WHERE … AND revoked_at IS NULL` -/
def revokeSessions (p : Session → Bool) (now : Nat) (sessions : KeyedTable Session.jti) :
    KeyedTable Session.jti :=
  sessions.updateWhere (fun s => p s && s.revokedAt.isNone)
    (fun s => { s with revokedAt := some now }) (fun _ => rfl)

def matched (p : Session → Bool) (sessions : KeyedTable Session.jti) : List String :=
  (sessions.rows.filter (fun s => p s && s.revokedAt.isNone)).map Session.jti

def setPassword (userId hashedPw : String) (users : KeyedTable User.email) :
    KeyedTable User.email :=
  users.updateWhere (fun u => u.userId = userId) (fun u => { u with hashedPw := hashedPw })
    (fun _ => rfl)

end Requests

section Steps

/-- A login past the password check, with the number of resets of this password it has seen. -/
structure Login where
  user : User
  resets : Nat

/-- A reset in its transaction, with the sessions that its second `UPDATE` has matched. -/
structure Reset where
  userId : String
  hashedPw : String
  seen : Option (List String)

/-- The committed tables, the requests between two of their database steps, the number of resets
of each user's password, and for each session the number that its login saw. -/
structure World where
  db : Db
  now : Nat
  logins : List Login
  logouts : List TokenData
  resets : List Reset
  resetsOf : String → Nat
  openedAfter : String → Nat
  revoked : List String

def World.start (users : KeyedTable User.email) (organisations : List String) (now : Nat) : World :=
  ⟨⟨organisations, users, ∅, ∅, []⟩, now, [], [], [], fun _ => 0, fun _ => 0, []⟩

namespace World

def presentPassword (prims : Primitives) (settings : LoginSettings) (draw : Draw)
    (req : LoginRequest) (w : World) : World :=
  let db := seedOnFirstBoot prims settings draw req w.db
  match authenticate settings req db with
  | .ok user => { w with db := db, logins := ⟨user, w.resetsOf user.userId⟩ :: w.logins }
  | .error _ => { w with db := db }

def openSession (draw : Draw) (login : Login) (w : World) : World :=
  { w with
    db := registerSession draw login.user w.db
    openedAfter := Function.update w.openedAfter draw.jti login.resets }

def revokeWhere (p : Session → Bool) (w : World) : World :=
  { w with
    db := { w.db with sessions := revokeSessions p w.now w.db.sessions }
    revoked := matched p w.db.sessions ++ w.revoked }

def updatePassword (userId hashedPw : String) (w : World) : World :=
  { w with
    db := { w.db with users := setPassword userId hashedPw w.db.users }
    resetsOf := Function.update w.resetsOf userId (w.resetsOf userId + 1) }

end World

inductive Event
  | passwordPresented (draw : Draw) (req : LoginRequest)
  | sessionOpened (draw : Draw) (login : Login)
  | loginLeft (login : Login)
  | logoutAuthenticated (token : TokenData)
  | loggedOut (token : TokenData)
  | passwordUpdated (userId password : String)
  | sessionsMatched (userId : String)
  | resetCommitted (userId : String) (seen : List String)
  | resetLeft (reset : Reset)
  | ticked (now : Nat)

variable (prims : Primitives) (settings : LoginSettings)

/-- The database steps of the three requests. A reset holds the row of its user from the first
`UPDATE` on, and the rows of the sessions it has matched. Its token has been consumed before. -/
inductive Step : World → Event → World → Prop
  | passwordPresented {w : World} {draw : Draw} {req : LoginRequest} :
      Step w (.passwordPresented draw req) (w.presentPassword prims settings draw req)
  | sessionOpened {w : World} {draw : Draw} {login : Login} {before after : List Login}
      (hlogins : w.logins = before ++ login :: after)
      (hfresh : ∀ s ∈ w.db.sessions, s.jti ≠ draw.jti) :
      Step w (.sessionOpened draw login)
        ({ w with logins := before ++ after }.openSession draw login)
  | loginLeft {w : World} {login : Login} {before after : List Login}
      (hlogins : w.logins = before ++ login :: after) :
      Step w (.loginLeft login) { w with logins := before ++ after }
  | logoutAuthenticated {w : World} {token : TokenData}
      (htoken : getCurrentUser w.db w.now token = .ok token) :
      Step w (.logoutAuthenticated token) { w with logouts := token :: w.logouts }
  | loggedOut {w : World} {token : TokenData} {before after : List TokenData}
      (hlogouts : w.logouts = before ++ token :: after)
      (hfree : ∀ r ∈ w.resets, ∀ seen, r.seen = some seen → token.jti ∉ seen) :
      Step w (.loggedOut token)
        ({ w with logouts := before ++ after }.revokeWhere (fun s => s.jti = token.jti))
  | passwordUpdated {w : World} {userId password : String}
      (hvalid : validatePassword password = .ok ()) (hfree : ∀ r ∈ w.resets, r.userId ≠ userId) :
      Step w (.passwordUpdated userId password)
        { w with resets := ⟨userId, prims.hashPassword password, none⟩ :: w.resets }
  | sessionsMatched {w : World} {userId hashedPw : String} {before after : List Reset}
      (hresets : w.resets = before ++ ⟨userId, hashedPw, none⟩ :: after) :
      Step w (.sessionsMatched userId)
        { w with
          resets := before ++
            ⟨userId, hashedPw, some (matched (fun s => s.userId = userId) w.db.sessions)⟩ :: after }
  | resetCommitted {w : World} {userId hashedPw : String} {seen : List String}
      {before after : List Reset}
      (hresets : w.resets = before ++ ⟨userId, hashedPw, some seen⟩ :: after) :
      Step w (.resetCommitted userId seen)
        (({ w with resets := before ++ after }.updatePassword userId hashedPw).revokeWhere
          (fun s => s.jti ∈ seen))
  | resetLeft {w : World} {reset : Reset} {before after : List Reset}
      (hresets : w.resets = before ++ reset :: after) :
      Step w (.resetLeft reset) { w with resets := before ++ after }
  | ticked {w : World} {now : Nat} (hnow : w.now ≤ now) : Step w (.ticked now) { w with now := now }

end Steps

section Laws

/-- A revoked session is never accepted again, and a session that is accepted was opened with the
password that its user has now. -/
structure Secure (w : World) : Prop where
  revoked : ∀ token, token.jti ∈ w.revoked → getCurrentUser w.db w.now token ≠ .ok token
  current : ∀ token s, getCurrentUser w.db w.now token = .ok token →
    w.db.sessions.lookup token.jti = some s → w.openedAfter s.jti = w.resetsOf s.userId

/-- A login opens its session before another reset of the password is committed, unless the session
has expired already, and a reset commits when no session of the user is accepted but those its
`UPDATE` has matched. -/
def Admits (w : World) : Event → Prop
  | .sessionOpened draw login =>
      w.now < draw.now + jwtExpiryMinutes → login.resets = w.resetsOf login.user.userId
  | .resetCommitted userId seen => ∀ token s, getCurrentUser w.db w.now token = .ok token →
      w.db.sessions.lookup token.jti = some s → s.userId = userId → s.jti ∈ seen
  | _ => True

end Laws

section Authentication

variable {db : Db} {now : Nat} {token : TokenData} {s : Session} {w t : World} {p : Session → Bool}
  {sessions : KeyedTable Session.jti}

/-- A token that `get_current_user` accepts, with its session. -/
structure Authenticates (db : Db) (now : Nat) (token : TokenData) (s : Session) : Prop where
  signed : token ∈ db.signed
  unexpired : now < token.exp
  session : s ∈ db.sessions
  jti : s.jti = token.jti
  unrevoked : s.revokedAt = none
  active : now < s.expiresAt

theorem getCurrentUser_eq_ok :
    getCurrentUser db now token = .ok token ↔ ∃ s, Authenticates db now token s := by
  have hactive : sessionIsActive db now token.jti = true ↔
      ∃ s, db.sessions.lookup token.jti = some s ∧ s.revokedAt = none ∧ now < s.expiresAt := by
    unfold sessionIsActive
    cases db.sessions.lookup token.jti <;> simp
  unfold getCurrentUser
  split
  · rename_i h
    obtain ⟨s, hs, hunrevoked, hlive⟩ := hactive.mp h.2.2
    obtain ⟨hmem, hjti⟩ := KeyedTable.lookup_eq_some.mp hs
    exact iff_of_true rfl ⟨s, h.1, h.2.1, hmem, hjti, hunrevoked, hlive⟩
  · rename_i h
    refine iff_of_false nofun ?_
    rintro ⟨s, hs⟩
    exact h ⟨hs.signed, hs.unexpired, hactive.mpr ⟨s,
      KeyedTable.lookup_eq_some.mpr ⟨hs.session, hs.jti⟩, hs.unrevoked, hs.active⟩⟩

theorem lookup_iff_authenticates (h : getCurrentUser db now token = .ok token) :
    db.sessions.lookup token.jti = some s ↔ Authenticates db now token s := by
  obtain ⟨s', hs'⟩ := getCurrentUser_eq_ok.mp h
  constructor
  · intro hs
    obtain ⟨hmem, hjti⟩ := KeyedTable.lookup_eq_some.mp hs
    obtain rfl : s' = s := KeyedTable.eq_of_key_eq hs'.session hmem (hs'.jti.trans hjti.symm)
    exact hs'
  · intro hs
    exact KeyedTable.lookup_eq_some.mpr ⟨hs.session, hs.jti⟩

theorem accepted_iff {P : TokenData → Session → Prop} :
    (∀ token s, getCurrentUser db now token = .ok token → db.sessions.lookup token.jti = some s →
      P token s) ↔ ∀ token s, Authenticates db now token s → P token s := by
  constructor
  · intro h token s hs
    have hok := getCurrentUser_eq_ok.mpr ⟨s, hs⟩
    exact h token s hok ((lookup_iff_authenticates hok).mpr hs)
  · intro h token s hok hs
    exact h token s ((lookup_iff_authenticates hok).mp hs)

theorem mem_revokeSessions : s ∈ revokeSessions p now sessions ↔ ∃ r ∈ sessions,
    (if (p r && r.revokedAt.isNone) = true then { r with revokedAt := some now } else r) = s :=
  List.mem_map

theorem mem_revokeSessions_unrevoked :
    s ∈ revokeSessions p now sessions ∧ s.revokedAt = none ↔
      s ∈ sessions ∧ s.revokedAt = none ∧ p s = false := by
  constructor
  · rintro ⟨hs, hnone⟩
    obtain ⟨r, hr, rfl⟩ := mem_revokeSessions.mp hs
    split at hnone
    · cases hnone
    · rename_i hp
      simp only [hnone, Option.isNone_none, Bool.and_true, Bool.not_eq_true] at hp
      rw [if_neg (by simp [hp])]
      exact ⟨hr, hnone, hp⟩
  · rintro ⟨hs, hnone, hp⟩
    exact ⟨mem_revokeSessions.mpr ⟨s, hs, if_neg (by simp [hp])⟩, hnone⟩

theorem authenticates_revokeWhere {token : TokenData} :
    Authenticates (w.revokeWhere p).db (w.revokeWhere p).now token s ↔
      Authenticates w.db w.now token s ∧ p s = false := by
  constructor
  · intro h
    obtain ⟨hs, hnone, hp⟩ := mem_revokeSessions_unrevoked.mp ⟨h.session, h.unrevoked⟩
    exact ⟨⟨h.signed, h.unexpired, hs, h.jti, hnone, h.active⟩, hp⟩
  · rintro ⟨h, hp⟩
    obtain ⟨hs, hnone⟩ := mem_revokeSessions_unrevoked.mpr ⟨h.session, h.unrevoked, hp⟩
    exact ⟨h.signed, h.unexpired, hs, h.jti, hnone, h.active⟩

end Authentication

section Revocation

variable {w t : World} {p : Session → Bool}

/-- The sessions that have been revoked are rows that say so. -/
def Stamped (w : World) : Prop :=
  ∀ jti ∈ w.revoked, ∃ s ∈ w.db.sessions, s.jti = jti ∧ s.revokedAt ≠ none

/-- A step that touches no session, no reset of a password and no signed token. -/
structure Frame (w t : World) : Prop where
  sessions : t.db.sessions = w.db.sessions
  signed : t.db.signed = w.db.signed
  now : w.now ≤ t.now
  resetsOf : t.resetsOf = w.resetsOf
  openedAfter : t.openedAfter = w.openedAfter
  revoked : t.revoked = w.revoked

theorem Frame.refl (w : World) : Frame w w := ⟨rfl, rfl, le_rfl, rfl, rfl, rfl⟩

theorem presentPassword_frame (prims : Primitives) (settings : LoginSettings) (draw : Draw)
    (req : LoginRequest) : Frame w (w.presentPassword prims settings draw req) := by
  have hseed : (seedOnFirstBoot prims settings draw req w.db).sessions = w.db.sessions ∧
      (seedOnFirstBoot prims settings draw req w.db).signed = w.db.signed := by
    unfold seedOnFirstBoot
    split <;> exact ⟨rfl, rfl⟩
  unfold World.presentPassword
  dsimp only
  split <;> exact ⟨hseed.1, hseed.2, le_rfl, rfl, rfl, rfl⟩

theorem Frame.stamped (f : Frame w t) (h : Stamped w) : Stamped t := by
  intro jti hjti
  rw [f.revoked] at hjti
  obtain ⟨s, hs, hkey, hstamp⟩ := h jti hjti
  exact ⟨s, f.sessions ▸ hs, hkey, hstamp⟩

theorem Stamped.revokeWhere (h : Stamped w) : Stamped (w.revokeWhere p) := by
  intro jti hjti
  rcases List.mem_append.mp hjti with hnew | hold
  · obtain ⟨s, hs, rfl⟩ := List.mem_map.mp hnew
    obtain ⟨hmem, hp⟩ := List.mem_filter.mp hs
    exact ⟨{ s with revokedAt := some w.now },
      mem_revokeSessions.mpr ⟨s, hmem, if_pos hp⟩, rfl, nofun⟩
  · obtain ⟨s, hs, rfl, hstamp⟩ := h jti hold
    exact ⟨s, mem_revokeSessions.mpr ⟨s, hs, if_neg (by simp [hstamp])⟩, rfl, hstamp⟩

def openedSession (draw : Draw) (user : User) : Session :=
  ⟨draw.jti, user.userId, user.orgId, draw.now + jwtExpiryMinutes, none⟩

theorem mem_registerSession {draw : Draw} {user : User} {db : Db} {s : Session}
    (hfresh : ∀ s ∈ db.sessions, s.jti ≠ draw.jti) :
    s ∈ (registerSession draw user db).sessions ↔
      s ∈ db.sessions ∨ s = openedSession draw user := by
  obtain ⟨sessions, hinsert⟩ := KeyedTable.exists_insert? (r := openedSession draw user) hfresh
  have hsessions : (registerSession draw user db).sessions = sessions :=
    congrArg (Option.getD · db.sessions) hinsert
  rw [hsessions]
  exact KeyedTable.mem_of_insert? hinsert s

theorem Stamped.openSession {draw : Draw} {login : Login}
    (hfresh : ∀ s ∈ w.db.sessions, s.jti ≠ draw.jti) (h : Stamped w) :
    Stamped (w.openSession draw login) := by
  intro jti hjti
  obtain ⟨s, hs, hkey, hstamp⟩ := h jti hjti
  exact ⟨s, (mem_registerSession hfresh).mpr (Or.inl hs), hkey, hstamp⟩

theorem Stamped.refused (h : Stamped w) (token : TokenData) (htoken : token.jti ∈ w.revoked) :
    getCurrentUser w.db w.now token ≠ .ok token := by
  intro hok
  obtain ⟨s, hs⟩ := getCurrentUser_eq_ok.mp hok
  obtain ⟨r, hr, hjti, hstamp⟩ := h token.jti htoken
  obtain rfl : s = r := KeyedTable.eq_of_key_eq hs.session hr (hs.jti.trans hjti.symm)
  exact hstamp hs.unrevoked

variable {prims : Primitives} {settings : LoginSettings}

theorem stamped_preserved : Preserved (Step prims settings) Stamped := by
  intro w e t h hstep
  cases hstep with
  | passwordPresented => exact (presentPassword_frame ..).stamped h
  | sessionOpened hlogins hfresh => exact Stamped.openSession hfresh h
  | loggedOut hlogouts hfree => exact Stamped.revokeWhere h
  | resetCommitted hresets => exact Stamped.revokeWhere h
  | loginLeft | logoutAuthenticated | passwordUpdated | sessionsMatched | resetLeft | ticked =>
      exact h

theorem revoked_preserved (jti : String) :
    Preserved (Step prims settings) (fun w => jti ∈ w.revoked) := by
  intro w e t h hstep
  cases hstep with
  | passwordPresented =>
      rwa [(presentPassword_frame ..).revoked]
  | loggedOut | resetCommitted => exact List.mem_append_right _ h
  | sessionOpened | loginLeft | logoutAuthenticated | passwordUpdated | sessionsMatched | resetLeft
  | ticked => exact h

/-- Once a session is revoked it is refused in every later state of the run. -/
theorem refused_of_revoked {users : KeyedTable User.email} {organisations : List String} {now : Nat}
    {es fs : List Event} {token : TokenData}
    (h : Run (Step prims settings) (.start users organisations now) es w)
    (hlater : Run (Step prims settings) w fs t) (htoken : token.jti ∈ w.revoked) :
    getCurrentUser t.db t.now token ≠ .ok token := by
  have hstamped : Stamped t := (h.append hlater).invariant stamped_preserved nofun
  have hrevoked : token.jti ∈ t.revoked :=
    hlater.invariant (I := fun w => token.jti ∈ w.revoked) (revoked_preserved token.jti) htoken
  exact hstamped.refused token hrevoked

end Revocation

section Passwords

variable {w t : World} {p : Session → Bool} {prims : Primitives} {settings : LoginSettings}
  {e : Event}

/-- The second law of `Secure`, over the sessions that authenticate. -/
def Current (w : World) : Prop :=
  ∀ token s, Authenticates w.db w.now token s → w.openedAfter s.jti = w.resetsOf s.userId

theorem secure_iff_current (h : Stamped w) : Secure w ↔ Current w :=
  ⟨fun hs => accepted_iff.mp hs.current, fun hc => ⟨h.refused, accepted_iff.mpr hc⟩⟩

theorem Frame.current (f : Frame w t) (h : Current w) : Current t := by
  intro token s hs
  rw [f.openedAfter, f.resetsOf]
  exact h token s ⟨f.signed ▸ hs.signed, f.now.trans_lt hs.unexpired, f.sessions ▸ hs.session,
    hs.jti, hs.unrevoked, f.now.trans_lt hs.active⟩

theorem Current.revokeWhere (h : Current w) : Current (w.revokeWhere p) := by
  intro token s hs
  exact h token s (authenticates_revokeWhere.mp hs).1

/-- Opening a session with a password that has been reset is what breaks the law for it. -/
theorem current_openSession_iff {draw : Draw} {login : Login} (h : Current w)
    (hfresh : ∀ s ∈ w.db.sessions, s.jti ≠ draw.jti) : Current (w.openSession draw login) ↔
      (w.now < draw.now + jwtExpiryMinutes → login.resets = w.resetsOf login.user.userId) := by
  have hopened : (w.openSession draw login).openedAfter draw.jti = login.resets :=
    Function.update_self ..
  constructor
  · intro hcurrent hlive
    have hauth : Authenticates (w.openSession draw login).db w.now
        (createAccessToken draw login.user.email login.user.orgId login.user.role login.user.deptId)
        (openedSession draw login.user) :=
      ⟨List.mem_cons_self, hlive, (mem_registerSession hfresh).mpr (Or.inr rfl), rfl, rfl, hlive⟩
    exact hopened.symm.trans (hcurrent _ _ hauth)
  · intro hadmits token s hs
    rcases (mem_registerSession hfresh).mp hs.session with hold | rfl
    · have hne : s.jti ≠ draw.jti := hfresh s hold
      have hsigned : token ∈ w.db.signed := by
        rcases List.mem_cons.mp hs.signed with rfl | hsigned
        · exact absurd hs.jti hne
        · exact hsigned
      have hw := h token s ⟨hsigned, hs.unexpired, hold, hs.jti, hs.unrevoked, hs.active⟩
      exact (Function.update_of_ne hne ..).trans hw
    · exact hopened.trans (hadmits hs.active)

/-- A committed reset makes every session of its user one of an old password. -/
theorem current_resetCommitted_iff {userId hashedPw : String} {seen : List String}
    (h : Current w) :
    Current ((w.updatePassword userId hashedPw).revokeWhere (fun s => s.jti ∈ seen)) ↔
      ∀ token s, Authenticates w.db w.now token s → s.userId = userId → s.jti ∈ seen := by
  constructor
  · intro hcurrent token s hs huser
    by_contra hseen
    have hafter : w.openedAfter s.jti =
        Function.update w.resetsOf userId (w.resetsOf userId + 1) s.userId :=
      hcurrent token s (authenticates_revokeWhere.mpr ⟨⟨hs.signed, hs.unexpired, hs.session, hs.jti,
        hs.unrevoked, hs.active⟩, decide_eq_false hseen⟩)
    rw [huser, Function.update_self, h token s hs, huser] at hafter
    omega
  · intro hadmits token s hs
    obtain ⟨hw, hp⟩ := authenticates_revokeWhere.mp hs
    have hauth : Authenticates w.db w.now token s :=
      ⟨hw.signed, hw.unexpired, hw.session, hw.jti, hw.unrevoked, hw.active⟩
    have huser : s.userId ≠ userId := fun huser =>
      of_decide_eq_false hp (hadmits token s hauth huser)
    exact (h token s hauth).trans (Function.update_of_ne huser ..).symm

theorem step_secure_iff (hstamped : Stamped w) (h : Secure w) (hstep : Step prims settings w e t) :
    Secure t ↔ Admits w e := by
  have hcurrent : Current w := (secure_iff_current hstamped).mp h
  rw [secure_iff_current (stamped_preserved _ _ _ hstamped hstep)]
  cases hstep with
  | passwordPresented => exact iff_of_true ((presentPassword_frame ..).current hcurrent) trivial
  | sessionOpened hlogins hfresh => exact current_openSession_iff hcurrent hfresh
  | loggedOut hlogouts hfree => exact iff_of_true (Current.revokeWhere hcurrent) trivial
  | resetCommitted hresets =>
      exact (current_resetCommitted_iff hcurrent).trans accepted_iff.symm
  | @ticked now hnow =>
      have hframe : Frame w { w with now := now } := ⟨rfl, rfl, hnow, rfl, rfl, rfl⟩
      exact iff_of_true (hframe.current hcurrent) trivial
  | loginLeft | logoutAuthenticated | passwordUpdated | sessionsMatched | resetLeft =>
      exact iff_of_true hcurrent trivial

/-- In the runs whose steps are all admitted, and in no others, a revoked session stays refused and
no session that a reset password has opened is accepted. -/
theorem secure_iff_admitted (users : KeyedTable User.email) (organisations : List String)
    (now : Nat) (es : List Event) (w : World) :
    Run (Guarded Admits (Step prims settings)) (.start users organisations now) es w ↔
      Run (Into Secure (Step prims settings)) (.start users organisations now) es w := by
  have hstamped : Stamped (.start users organisations now) := nofun
  refine guarded_iff_into_of_preserved stamped_preserved
    (fun _ _ _ hstamped h hstep => step_secure_iff hstamped h hstep) hstamped ?_
  refine (secure_iff_current hstamped).mpr fun token s hs => ?_
  cases hs.signed

end Passwords

section Fixtures

def plainPrimitives : Primitives := ⟨id, id, fun _ => true⟩

def plainSettings : LoginSettings := ⟨"dev@localhost", "dev-password", "org-0", .companyAdmin,
  fun password hashedPw => password = hashedPw⟩

def ann : User := ⟨"user-1", "org-1", "ann@acme.com", "old-password", .companyAdmin, none, true⟩

def annsTable : KeyedTable User.email := ⟨[ann], List.nodup_singleton _⟩

def firstDraw : Draw := ⟨0, "", "", "jti-1", ""⟩

/-- A login reads the old password, the reset runs from its first step to its commit, and then the
login opens its session. -/
theorem stale_login_run : ∃ es w, Run (Step plainPrimitives plainSettings)
    (.start annsTable ["org-1"] 0) es w ∧ ¬ Secure w := by
  have hlogin : Run (Step plainPrimitives plainSettings) (.start annsTable ["org-1"] 0) _ _ :=
    .single (@Step.passwordPresented _ _ _ firstDraw ⟨"ann@acme.com", "old-password"⟩)
  have hupdated := hlogin.snoc (@Step.passwordUpdated _ _ _ "user-1" "new-password" (by decide)
    (by decide))
  have hmatched := hupdated.snoc (@Step.sessionsMatched _ _ _ _ _ [] [] rfl)
  have hcommitted := hmatched.snoc (@Step.resetCommitted _ _ _ _ _ _ [] [] rfl)
  have hopened := hcommitted.snoc
    (@Step.sessionOpened _ _ _ firstDraw _ [] [] rfl (by decide))
  refine ⟨_, _, hopened, fun h => ?_⟩
  have hstale := accepted_iff.mp h.current
    (createAccessToken firstDraw "ann@acme.com" "org-1" .companyAdmin none)
    (openedSession firstDraw ann) ⟨List.mem_cons_self, by decide,
      (mem_registerSession (by decide)).mpr (Or.inr rfl), rfl, rfl, by decide⟩
  exact absurd hstale (by decide)

end Fixtures

end RfpPlatform.SessionRevocation
