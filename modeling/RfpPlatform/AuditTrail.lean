import RfpPlatform.AccountRequests
import RfpPlatform.ExceptRules
import RfpPlatform.PyValue
import RfpPlatform.SortedScan

namespace RfpPlatform.AuditTrail

open AccountRequests (Role TokenData httpError)
open ExceptRules SortedScan

section Endpoints

variable {α ε : Type}

/-- A row of `access_audit_log` or of `audit_log`. -/
structure Row (α : Type) where
  logId : String
  orgId : String
  runId : Option String
  createdAt : Nat
  what : α
  deriving DecidableEq

structure Access where
  accessedBy : String
  action : String
  deriving DecidableEq

structure StateChange where
  eventType : String
  actor : String
  agent : Option String
  detail : Option (List (String × Json))

def scopedWhere (orgId : String) (runId : Option String) (row : Row α) : Bool :=
  row.orgId = orgId && (runId.filter (· ≠ "")).all fun rid => row.runId = some rid

def maxLimit : Nat := 500

structure PageQuery where
  limit : Nat
  offset : Nat
  runId : Option String
  one_le : 1 ≤ limit
  le_max : limit ≤ maxLimit

/-- `ORDER BY created_at DESC`, which leaves the rows of one time in any order. -/
structure NewestFirst (α : Type) where
  order : List (Row α) → List (Row α)
  perm : ∀ rows, (order rows).Perm rows
  sorted : ∀ rows, (order rows).Pairwise fun a b => b.createdAt ≤ a.createdAt

def selectPage (db : NewestFirst α) (orgId : String) (q : PageQuery) (rows : List (Row α)) :
    List (Row α) :=
  ((db.order (rows.filter (scopedWhere orgId q.runId))).drop q.offset).take q.limit

def requireAuditRead (auditReadRoles : List Role) (user : TokenData) : Except Exn Unit :=
  raiseIf (user.role ∉ auditReadRoles)
    (httpError 403 "Reading the audit trail requires an audit-read role")

structure TrailPage (ε : Type) where
  orgId : String
  limit : Nat
  offset : Nat
  entries : List ε
  deriving DecidableEq

/-- What the two endpoints share. -/
def readTrail (entry : Row α → ε) (auditReadRoles : List Role) (user : TokenData) (q : PageQuery)
    (db : NewestFirst α) (rows : List (Row α)) : Except Exn (TrailPage ε) := do
  requireAuditRead auditReadRoles user
  return ⟨user.orgId, q.limit, q.offset, (selectPage db user.orgId q rows).map entry⟩

structure AccessEntry where
  logId : String
  runId : Option String
  accessedBy : String
  action : String
  ts : String
  deriving DecidableEq

structure EventEntry where
  logId : String
  runId : Option String
  eventType : String
  actor : String
  agent : Option String
  detail : List (String × Json)
  ts : String

def accessEntry (isoformat : Nat → String) (r : Row Access) : AccessEntry :=
  ⟨r.logId, r.runId, r.what.accessedBy, r.what.action, isoformat r.createdAt⟩

def eventEntry (isoformat : Nat → String) (r : Row StateChange) : EventEntry :=
  ⟨r.logId, r.runId, r.what.eventType, r.what.actor, r.what.agent, r.what.detail.getD [],
    isoformat r.createdAt⟩

def getAccessLog (isoformat : Nat → String) (auditReadRoles : List Role) :
    TokenData → PageQuery → NewestFirst Access → List (Row Access) →
      Except Exn (TrailPage AccessEntry) :=
  readTrail (accessEntry isoformat) auditReadRoles

def getAuditEvents (isoformat : Nat → String) (auditReadRoles : List Role) :
    TokenData → PageQuery → NewestFirst StateChange → List (Row StateChange) →
      Except Exn (TrailPage EventEntry) :=
  readTrail (eventEntry isoformat) auditReadRoles

end Endpoints

section Browsing

variable {α ε : Type}

/-- What happens to a table while a client pages through it. -/
inductive Event (α : Type)
  | written (row : Row α)
  | runDeleted (runId : String)
  | asked (db : NewestFirst α)

/-- `ON DELETE SET NULL` -/
def clearRun (runId : String) (row : Row α) : Row α :=
  if row.runId = some runId then { row with runId := none } else row

def PageQuery.nth (q : PageQuery) (k : Nat) : PageQuery := { q with offset := k * q.limit }

/-- The pages that a client gets who asks for one after the other, until one is not full. -/
def browse (get : PageQuery → NewestFirst α → List (Row α) → Except Exn (TrailPage ε))
    (q : PageQuery) : Nat → List (Row α) → List (Event α) → List (TrailPage ε)
  | _, _, [] => []
  | k, rows, .written row :: events => browse get q k (rows ++ [row]) events
  | k, rows, .runDeleted runId :: events => browse get q k (rows.map (clearRun runId)) events
  | k, rows, .asked db :: events =>
      match get (q.nth k) db rows with
      | .error _ => []
      | .ok page =>
          page :: if page.entries.length < q.limit then [] else browse get q (k + 1) rows events

end Browsing

section Complete

variable {α ε : Type} {entry : Row α → ε} {auditReadRoles : List Role} {user : TokenData}
  {q : PageQuery} {db : NewestFirst α} {rows : List (Row α)} {events : List (Event α)}
  {x : Row α} {k : Nat}

theorem readTrail_of_role (hrole : user.role ∈ auditReadRoles) :
    readTrail entry auditReadRoles user q db rows =
      .ok ⟨user.orgId, q.limit, q.offset, (selectPage db user.orgId q rows).map entry⟩ := by
  have hpass : requireAuditRead auditReadRoles user = .ok () :=
    raiseIf_eq_ok.mpr (not_not.mpr hrole)
  rw [readTrail, hpass]
  rfl

def ahead (orgId : String) (runId : Option String) (x : Row α) (rows : List (Row α)) : Nat :=
  rows.countP fun r => decide (x.createdAt < r.createdAt) && scopedWhere orgId runId r

theorem getElem?_ahead (hx : x ∈ rows) (hscope : scopedWhere user.orgId q.runId x = true)
    (halone : ∀ r ∈ rows, r.orgId = user.orgId → r.createdAt = x.createdAt → r = x) :
    (db.order (rows.filter (scopedWhere user.orgId q.runId)))[ahead user.orgId q.runId x rows]? =
      some x := by
  have hperm := db.perm (rows.filter (scopedWhere user.orgId q.runId))
  rw [ahead, ← List.countP_filter, ← hperm.countP_eq]
  refine getElem?_countP_lt (db.sorted _) (hperm.mem_iff.mpr (List.mem_filter.mpr ⟨hx, hscope⟩)) ?_
  intro y hy hkey
  obtain ⟨hmem, hin⟩ := List.mem_filter.mp (hperm.mem_iff.mp hy)
  rw [scopedWhere, Bool.and_eq_true, decide_eq_true_eq] at hin
  exact halone y hmem hin.1 hkey

/-- A row that the page is not behind is on it, when the page reaches it or is not full. -/
theorem mem_selectPage (hx : x ∈ rows) (hscope : scopedWhere user.orgId q.runId x = true)
    (halone : ∀ r ∈ rows, r.orgId = user.orgId → r.createdAt = x.createdAt → r = x)
    (hlo : q.offset ≤ ahead user.orgId q.runId x rows)
    (hhi : ahead user.orgId q.runId x rows < q.offset + q.limit ∨
      (selectPage db user.orgId q rows).length < q.limit) :
    x ∈ selectPage db user.orgId q rows := by
  have hget := @getElem?_ahead _ user q db rows x hx hscope halone
  obtain ⟨hlen, _⟩ := List.getElem?_eq_some_iff.mp hget
  have hreach : ahead user.orgId q.runId x rows < q.offset + q.limit := by
    rcases hhi with hhi | hshort
    · exact hhi
    · rw [selectPage, List.length_take, List.length_drop] at hshort
      omega
  refine List.mem_of_getElem? (i := ahead user.orgId q.runId x rows - q.offset) ?_
  rw [selectPage, List.getElem?_take_of_lt (by omega), List.getElem?_drop,
    Nat.add_sub_cancel' hlo, hget]

theorem scopedWhere_clearRun {runId : String} (h : q.runId.filter (· ≠ "") ≠ some runId)
    (row : Row α) : scopedWhere user.orgId q.runId (clearRun runId row) =
      scopedWhere user.orgId q.runId row := by
  rw [clearRun]
  split
  · rename_i hrun
    rw [scopedWhere, scopedWhere]
    refine congrArg (decide (row.orgId = user.orgId) && ·) ?_
    cases hfilter : q.runId.filter (· ≠ "") with
    | none => rfl
    | some rid =>
        have hne : runId ≠ rid := fun heq => h (by rw [hfilter, heq])
        simp [hrun, hne]
  · rfl

theorem clearRun_frame (runId : String) (row : Row α) : (clearRun runId row).logId = row.logId ∧
    (clearRun runId row).orgId = row.orgId ∧ (clearRun runId row).createdAt = row.createdAt ∧
      (clearRun runId row).what = row.what := by
  rw [clearRun]
  split <;> exact ⟨rfl, rfl, rfl, rfl⟩

/-- The row as it is later: its run may have been deleted. -/
structure StillOf (x y : Row α) : Prop where
  logId : y.logId = x.logId
  orgId : y.orgId = x.orgId
  createdAt : y.createdAt = x.createdAt
  what : y.what = x.what
  runId : y.runId = x.runId ∨ y.runId = none

theorem StillOf.clearRun {y : Row α} (h : StillOf x y) (runId : String) :
    StillOf x (clearRun runId y) := by
  obtain ⟨hlog, horg, hat, hwhat⟩ := clearRun_frame runId y
  refine ⟨hlog.trans h.logId, horg.trans h.orgId, hat.trans h.createdAt, hwhat.trans h.what, ?_⟩
  rw [AuditTrail.clearRun]
  split
  · exact Or.inr rfl
  · exact h.runId

theorem ahead_written (row : Row α) :
    ahead user.orgId q.runId x rows ≤ ahead user.orgId q.runId x (rows ++ [row]) := by
  rw [ahead, ahead, List.countP_append]
  exact Nat.le_add_right _ _

theorem ahead_clearRun {runId : String} (h : q.runId.filter (· ≠ "") ≠ some runId) :
    ahead user.orgId q.runId x (rows.map (clearRun runId)) = ahead user.orgId q.runId x rows := by
  rw [ahead, ahead, List.countP_map]
  refine List.countP_congr fun r _ => ?_
  rw [Function.comp_apply, scopedWhere_clearRun h, (clearRun_frame runId r).2.2.1]

/-- The events leave the entries of a run alone that the client has asked for. -/
def Keeps (runId : Option String) (events : List (Event α)) : Prop :=
  ∀ rid, .runDeleted rid ∈ events → runId.filter (· ≠ "") ≠ some rid

/-- No other entry of the organisation is of the same time. -/
structure Alone (orgId : String) (x : Row α) (rows : List (Row α)) (events : List (Event α)) :
    Prop where
  there : ∀ r ∈ rows, r.orgId = orgId → r.createdAt = x.createdAt → r = x
  coming : ∀ r, .written r ∈ events → r.orgId = orgId → r.createdAt ≠ x.createdAt

theorem Alone.tail {orgId : String} {event : Event α} (h : Alone orgId x rows (event :: events)) :
    Alone orgId x rows events :=
  ⟨h.there, fun r hr => h.coming r (List.mem_cons_of_mem event hr)⟩

theorem Alone.written {orgId : String} {row : Row α}
    (h : Alone orgId x rows (.written row :: events)) : Alone orgId x (rows ++ [row]) events := by
  refine ⟨fun r hr horg hat => ?_, h.tail.coming⟩
  rcases List.mem_append.mp hr with hr | hr
  · exact h.there r hr horg hat
  · obtain rfl := List.mem_singleton.mp hr
    exact absurd hat (h.coming r List.mem_cons_self horg)

theorem Alone.runDeleted {orgId runId : String}
    (h : Alone orgId x rows (.runDeleted runId :: events)) :
    Alone orgId (clearRun runId x) (rows.map (clearRun runId)) events := by
  obtain ⟨_, _, hat_x, _⟩ := clearRun_frame runId x
  refine ⟨fun r hr horg hat => ?_, ?_⟩
  · obtain ⟨old, hold, rfl⟩ := List.mem_map.mp hr
    obtain ⟨_, horg_old, hat_old, _⟩ := clearRun_frame runId old
    rw [h.there old hold (horg_old.symm.trans horg) (hat_old.symm.trans (hat.trans hat_x))]
  · rw [hat_x]
    exact h.tail.coming

theorem browse_shows {y : Row α} (hrole : user.role ∈ auditReadRoles) (hy : y ∈ rows)
    (hstill : StillOf x y) (hscope : scopedWhere user.orgId q.runId y = true)
    (halone : Alone user.orgId y rows events) (hkeeps : Keeps q.runId events)
    (hbehind : k * q.limit ≤ ahead user.orgId q.runId y rows)
    (hlast : ∃ page ∈ browse (readTrail entry auditReadRoles user) q k rows events,
      page.entries.length < q.limit) :
    ∃ page ∈ browse (readTrail entry auditReadRoles user) q k rows events,
      ∃ z, StillOf x z ∧ entry z ∈ page.entries := by
  induction events generalizing k rows y with
  | nil =>
      obtain ⟨page, hpage, _⟩ := hlast
      cases hpage
  | cons event events ih =>
      have hkeeps' : Keeps q.runId events :=
        fun rid hrid => hkeeps rid (List.mem_cons_of_mem _ hrid)
      cases event with
      | written row =>
          exact ih (List.mem_append_left _ hy) hstill hscope halone.written hkeeps'
            (hbehind.trans (ahead_written row)) hlast
      | runDeleted runId =>
          have hother := hkeeps runId List.mem_cons_self
          refine ih (List.mem_map_of_mem hy) (hstill.clearRun runId)
            (by rw [scopedWhere_clearRun hother, hscope]) halone.runDeleted hkeeps' ?_ hlast
          rw [ahead_clearRun hother, ahead, (clearRun_frame runId y).2.2.1]
          exact hbehind
      | asked db =>
          rw [browse, readTrail_of_role hrole] at hlast ⊢
          by_cases hshown : ahead user.orgId q.runId y rows < k * q.limit + q.limit ∨
              (selectPage db user.orgId (q.nth k) rows).length < q.limit
          · have hmem : y ∈ selectPage db user.orgId (q.nth k) rows :=
              mem_selectPage hy hscope halone.there hbehind hshown
            exact ⟨_, List.mem_cons_self, y, hstill, List.mem_map_of_mem hmem⟩
          · -- the page is full, and the row is on a later one
            obtain ⟨hfar, hfull⟩ := not_or.mp hshown
            have hnot :
                ¬ ((selectPage db user.orgId (q.nth k) rows).map entry).length < q.limit := by
              rwa [List.length_map]
            dsimp only at hlast ⊢
            rw [if_neg hnot] at hlast ⊢
            obtain ⟨page, hpage, hshort⟩ := hlast
            have hlater := (List.mem_cons.mp hpage).resolve_left fun heq => hnot <| by
              rwa [heq] at hshort
            obtain ⟨page, hpage, hz⟩ := ih hy hstill hscope halone.tail hkeeps'
              (by rw [Nat.succ_mul]; exact not_lt.mp hfar) ⟨page, hlater, hshort⟩
            exact ⟨page, List.mem_cons_of_mem _ hpage, hz⟩

/-- What the client gets is of the organisation of its user, and of the run it asks for. -/
theorem browse_scoped {page : TrailPage ε}
    (hpage : page ∈ browse (readTrail entry auditReadRoles user) q k rows events) :
    user.role ∈ auditReadRoles ∧ ∀ e ∈ page.entries, ∃ r : Row α,
      scopedWhere user.orgId q.runId r = true ∧ e = entry r := by
  induction events generalizing k rows with
  | nil => cases hpage
  | cons event events ih =>
      cases event with
      | written row => exact ih hpage
      | runDeleted runId => exact ih hpage
      | asked db =>
          by_cases hrole : user.role ∈ auditReadRoles
          · rw [browse, readTrail_of_role hrole] at hpage
            rcases List.mem_cons.mp hpage with rfl | hpage
            · refine ⟨hrole, fun e he => ?_⟩
              obtain ⟨r, hr, rfl⟩ := List.mem_map.mp he
              have hsel := (db.perm _).mem_iff.mp (List.mem_of_mem_drop (List.mem_of_mem_take hr))
              exact ⟨r, (List.mem_filter.mp hsel).2, rfl⟩
            · split at hpage
              · cases hpage
              · exact ih hpage
          · have hraise : requireAuditRead auditReadRoles user = .error (httpError 403
                "Reading the audit trail requires an audit-read role") := if_pos hrole
            rw [browse, readTrail, hraise] at hpage
            cases hpage

/-- A client that pages through an audit trail up to a page that is not full has been shown every
entry of its scope that was there when it began, whatever is written meanwhile and in whatever
order entries of one time come, and nothing outside of its scope. -/
theorem browse_complete (hkeeps : Keeps q.runId events)
    (hlast : ∃ page ∈ browse (readTrail entry auditReadRoles user) q 0 rows events,
      page.entries.length < q.limit) :
    (∀ x ∈ rows, scopedWhere user.orgId q.runId x = true → Alone user.orgId x rows events →
      ∃ page ∈ browse (readTrail entry auditReadRoles user) q 0 rows events,
        ∃ y, StillOf x y ∧ entry y ∈ page.entries) ∧
    ∀ page ∈ browse (readTrail entry auditReadRoles user) q 0 rows events, ∀ e ∈ page.entries,
      ∃ r : Row α, scopedWhere user.orgId q.runId r = true ∧ e = entry r := by
  refine ⟨fun x hx hscope halone => ?_, fun page hpage => (browse_scoped hpage).2⟩
  have hrole : user.role ∈ auditReadRoles := by
    obtain ⟨page, hpage, _⟩ := hlast
    exact (browse_scoped hpage).1
  exact browse_shows hrole hx ⟨rfl, rfl, rfl, rfl, Or.inl rfl⟩ hscope halone hkeeps
    (by rw [Nat.zero_mul]; exact Nat.zero_le _) hlast

/-- The order in which entries of one time come as they were written. -/
def byTime : NewestFirst α where
  order := sortBy fun r => OrderDual.toDual r.createdAt
  perm := List.perm_insertionSort _
  sorted := pairwise_sortBy fun r : Row α => OrderDual.toDual r.createdAt

def viewed (logId : String) (createdAt : Nat) : Row Access :=
  ⟨logId, "org-1", some "run-1", createdAt, "ann@acme.example", "view_results"⟩

def auditorOf (orgId : String) : TokenData := ⟨"aud@acme.example", orgId, .auditor, none, "j", 0⟩

def oneByOne : PageQuery := ⟨1, 0, none, by decide, by decide⟩

/-- An entry that is written between the first page and the second leaves the client a page more
to read. -/
theorem first_view_shown : ∃ page ∈ browse
      (getAccessLog (fun _ => "") [.auditor] (auditorOf "org-1")) oneByOne 0
      [viewed "l1" 1, viewed "l2" 2]
      [.asked byTime, .written (viewed "l3" 3), .asked byTime, .asked byTime, .asked byTime],
    ∃ y, StillOf (viewed "l1" 1) y ∧ accessEntry (fun _ => "") y ∈ page.entries := by
  have hkeeps : Keeps oneByOne.runId [.asked byTime, .written (viewed "l3" 3), .asked byTime,
      .asked byTime, .asked byTime] := fun rid hrid => by simp at hrid
  refine (browse_complete hkeeps ?_).1 (viewed "l1" 1) List.mem_cons_self (by decide) ⟨?_, ?_⟩
  · exact ⟨⟨"org-1", 1, 3, []⟩, by decide, by decide⟩
  · decide
  · intro r hr
    simp only [List.mem_cons, reduceCtorEq, Event.written.injEq, List.not_mem_nil, or_false,
      false_or] at hr
    rw [hr]
    decide

end Complete

end RfpPlatform.AuditTrail
