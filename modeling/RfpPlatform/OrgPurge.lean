import RfpPlatform.ExceptRules
import RfpPlatform.ForeignKeys
import RfpPlatform.RunDeletion

namespace RfpPlatform.OrgPurge

open ExceptRules ForeignKeys
open RunDeletion (foreignKeyViolation)

section Schema

inductive Table
  | organisations | agentRegistry | evaluationSetups | evaluationRuns | accessAuditLog
  | vendorDocuments | extractedCertifications | extractedInsurance | extractedSlas
  | extractedProjects | extractedPricing | extractedFacts | decisions | auditOverrides
  | evaluationCorrections | approvals | auditLog | users | authSessions | authOnetimeTokens
  | tenantModules | tenantBilling | orgCriteriaTemplates | deptCriteriaTemplates | orgSettings
  | orgSettingsAudit | retrievalLog | userDepartments | rfpCollaborators | approvalAssignments
  | rfps | invitedVendors | ingestionJobs | eventLog
  deriving DecidableEq

inductive Column
  | orgId | runId | setupId | agentId | docId | userId | rfpId | jobId | supersededBy
  | approverUserId | addedBy
  | other (name : String)
  deriving DecidableEq

abbrev Rows := Database Table Column String

abbrev Key := ForeignKey Table Column

/-- The references of the schema, in its order. -/
def foreignKeys : List Key :=
  [⟨.agentRegistry, .orgId, .organisations, .orgId, .noAction⟩,
    ⟨.evaluationRuns, .setupId, .evaluationSetups, .setupId, .noAction⟩,
    ⟨.evaluationRuns, .agentId, .agentRegistry, .agentId, .noAction⟩,
    ⟨.accessAuditLog, .runId, .evaluationRuns, .runId, .setNull⟩,
    ⟨.vendorDocuments, .setupId, .evaluationSetups, .setupId, .noAction⟩,
    ⟨.extractedCertifications, .docId, .vendorDocuments, .docId, .noAction⟩,
    ⟨.extractedInsurance, .docId, .vendorDocuments, .docId, .noAction⟩,
    ⟨.extractedSlas, .docId, .vendorDocuments, .docId, .noAction⟩,
    ⟨.extractedProjects, .docId, .vendorDocuments, .docId, .noAction⟩,
    ⟨.extractedPricing, .docId, .vendorDocuments, .docId, .noAction⟩,
    ⟨.extractedFacts, .docId, .vendorDocuments, .docId, .noAction⟩,
    ⟨.extractedFacts, .setupId, .evaluationSetups, .setupId, .noAction⟩,
    ⟨.decisions, .runId, .evaluationRuns, .runId, .noAction⟩,
    ⟨.approvals, .runId, .evaluationRuns, .runId, .noAction⟩,
    ⟨.auditLog, .runId, .evaluationRuns, .runId, .setNull⟩,
    ⟨.users, .orgId, .organisations, .orgId, .cascade⟩,
    ⟨.authSessions, .userId, .users, .userId, .cascade⟩,
    ⟨.authSessions, .orgId, .organisations, .orgId, .cascade⟩,
    ⟨.authOnetimeTokens, .orgId, .organisations, .orgId, .cascade⟩,
    ⟨.authOnetimeTokens, .userId, .users, .userId, .cascade⟩,
    ⟨.tenantModules, .orgId, .organisations, .orgId, .cascade⟩,
    ⟨.tenantBilling, .orgId, .organisations, .orgId, .cascade⟩,
    ⟨.orgCriteriaTemplates, .orgId, .organisations, .orgId, .cascade⟩,
    ⟨.deptCriteriaTemplates, .orgId, .organisations, .orgId, .cascade⟩,
    ⟨.retrievalLog, .runId, .evaluationRuns, .runId, .setNull⟩,
    ⟨.userDepartments, .userId, .users, .userId, .cascade⟩,
    ⟨.rfpCollaborators, .runId, .evaluationRuns, .runId, .cascade⟩,
    ⟨.rfpCollaborators, .userId, .users, .userId, .cascade⟩,
    ⟨.rfpCollaborators, .addedBy, .users, .userId, .setNull⟩,
    ⟨.approvalAssignments, .runId, .evaluationRuns, .runId, .cascade⟩,
    ⟨.approvalAssignments, .approverUserId, .users, .userId, .cascade⟩,
    ⟨.invitedVendors, .rfpId, .rfps, .rfpId, .cascade⟩,
    ⟨.ingestionJobs, .docId, .vendorDocuments, .docId, .noAction⟩,
    ⟨.ingestionJobs, .supersededBy, .ingestionJobs, .jobId, .noAction⟩]

/-- The columns of these that cannot be null. -/
def notNull : Table → List Column
  | .organisations => [.orgId]
  | .agentRegistry => [.agentId]
  | .evaluationSetups => [.setupId, .orgId]
  | .evaluationRuns => [.runId, .orgId]
  | .vendorDocuments => [.docId, .orgId]
  | .users => [.userId, .orgId]
  | .authSessions => [.userId, .orgId]
  | .authOnetimeTokens => []
  | .userDepartments => [.userId]
  | .rfpCollaborators => [.runId, .userId]
  | .approvalAssignments => [.runId, .approverUserId]
  | .rfps => [.rfpId, .orgId]
  | .invitedVendors => [.rfpId]
  | .ingestionJobs => [.jobId, .orgId]
  | _ => [.orgId]

/-- A state that the constraints of the schema allow. -/
structure Db where
  rows : Rows
  references : Holds foreignKeys rows
  not_null : ∀ t, ∀ c ∈ notNull t, ∀ r ∈ rows t, (r c).isSome = true
  keys_unique : ∀ fk ∈ foreignKeys, ((rows fk.parent).map (fun r => r fk.key)).Nodup

end Schema

section Purge

/-- `org_id = :oid`, or `c IN (SELECT k FROM p WHERE org_id = :oid)`. -/
inductive Scope
  | direct
  | through (c : Column) (p : Table) (k : Column)
  deriving DecidableEq

def Scope.selects (rows : Rows) (orgId : String) (r : Row Column String) : Scope → Bool
  | .direct => r .orgId = some orgId
  | .through c p k =>
      (rows p).any (fun q => q .orgId = some orgId && (r c).isSome && r c = q k)

def purgeOrder : List (Table × Scope) :=
  [(.extractedCertifications, .direct), (.extractedInsurance, .direct), (.extractedSlas, .direct),
    (.extractedProjects, .direct), (.extractedPricing, .direct), (.extractedFacts, .direct),
    (.decisions, .direct), (.approvals, .direct),
    (.approvalAssignments, .through .runId .evaluationRuns .runId),
    (.rfpCollaborators, .through .runId .evaluationRuns .runId),
    (.accessAuditLog, .direct), (.retrievalLog, .direct), (.auditOverrides, .direct),
    (.evaluationCorrections, .direct), (.auditLog, .direct), (.ingestionJobs, .direct),
    (.eventLog, .direct),
    (.invitedVendors, .through .rfpId .rfps .rfpId),
    (.vendorDocuments, .direct), (.evaluationRuns, .direct), (.evaluationSetups, .direct),
    (.rfps, .direct), (.agentRegistry, .direct),
    (.orgCriteriaTemplates, .direct), (.deptCriteriaTemplates, .direct), (.tenantModules, .direct),
    (.tenantBilling, .direct), (.orgSettings, .direct), (.orgSettingsAudit, .direct),
    (.userDepartments, .through .userId .users .userId),
    (.authSessions, .direct), (.authOnetimeTokens, .direct), (.users, .direct),
    (.organisations, .direct)]

/-- One statement, with the number of its rows. -/
def purgeStatement (orgId : String) (stmt : Table × Scope)
    (progress : List (Table × Nat) × Rows) : Except Exn (List (Table × Nat) × Rows) := do
  let (counts, rows) := progress
  let selected := stmt.2.selects rows orgId
  let left ← orRaise (delete foreignKeys rows stmt.1 (fun r => selected r)) foreignKeyViolation
  return (counts ++ [(stmt.1, ((rows stmt.1).filter (fun r => selected r)).length)], left)

def purgeAll (orgId : String) : List (Table × Scope) → List (Table × Nat) × Rows →
    Except Exn (List (Table × Nat) × Rows)
  | [], progress => .ok progress
  | stmt :: stmts, progress => purgeStatement orgId stmt progress >>= purgeAll orgId stmts

/-- All the statements in one transaction, in which nothing changes when one of them raises. -/
def purgeOrgPostgres (orgId : String) (rows : Rows) : Except Exn (List (Table × Nat) × Rows) :=
  purgeAll orgId purgeOrder ([], rows)

end Purge

section Ownership

/-- How the rows of a table belong to an organisation: by their own column, or through a run, a
request for proposals or a user. -/
def ownership : Table → List Scope
  | .approvalAssignments =>
      [.through .runId .evaluationRuns .runId, .through .approverUserId .users .userId]
  | .rfpCollaborators => [.through .runId .evaluationRuns .runId, .through .userId .users .userId]
  | .invitedVendors => [.through .rfpId .rfps .rfpId]
  | .userDepartments => [.through .userId .users .userId]
  | .authOnetimeTokens => [.direct, .through .userId .users .userId]
  | _ => [.direct]

def Belongs (rows : Rows) (orgId : String) (t : Table) (r : Row Column String) : Prop :=
  ∃ l ∈ ownership t, l.selects rows orgId r = true

def primary (t : Table) : Scope := (ownership t).headD .direct

/-- The scope follows a key of the table to one whose rows have an owner of their own. -/
def Scope.IsKey (t : Table) : Scope → Prop
  | .direct => True
  | .through c p k => ∃ fk ∈ foreignKeys, fk.child = t ∧ fk.column = c ∧ fk.parent = p ∧ fk.key = k

instance (t : Table) (s : Scope) : Decidable (s.IsKey t) :=
  match s with
  | .direct => isTrue trivial
  | .through c p k => inferInstanceAs (Decidable (∃ fk ∈ foreignKeys,
      fk.child = t ∧ fk.column = c ∧ fk.parent = p ∧ fk.key = k))

/-- The column that the scope reads, and that of the owner, are never null. -/
def Scope.total (t : Table) : Scope → Bool
  | .direct => .orgId ∈ notNull t
  | .through c p _ => c ∈ notNull t && .orgId ∈ notNull p

theorem parent_owned : ∀ fk ∈ foreignKeys, ownership fk.parent = [.direct] := by decide

theorem org_not_nullified : ∀ fk ∈ foreignKeys, fk.onDelete = .setNull → fk.column ≠ .orgId := by
  decide

theorem statement_of_table (t : Table) : (t, primary t) ∈ purgeOrder := by
  cases t <;> decide

theorem primary_of_direct (t : Table) (h : .direct ∈ ownership t) : primary t = .direct := by
  revert h
  cases t <;> decide

theorem ownership_isKey (t : Table) : ∀ s ∈ ownership t, s.IsKey t := by
  cases t <;> decide

end Ownership

section Erased

variable {orgId other : String} {db : Db} {t : Table} {r q : Row Column String} {fk : Key}
  {done : List Table} {rows : Rows}

theorem selects_direct : Scope.direct.selects rows orgId r = true ↔ r .orgId = some orgId :=
  decide_eq_true_iff

theorem selects_through {c : Column} {p : Table} {k : Column} :
    (Scope.through c p k).selects rows orgId r = true ↔
      ∃ q ∈ rows p, q .orgId = some orgId ∧ ∃ v, r c = some v ∧ q k = some v := by
  unfold Scope.selects
  rw [List.any_eq_true]
  refine exists_congr (fun q => and_congr_right (fun _ => ?_))
  cases r c with
  | none => simp
  | some v =>
      simp only [Bool.and_eq_true, decide_eq_true_eq, Option.isSome_some, and_true]
      exact and_congr_right (fun _ => ⟨fun h => ⟨v, rfl, h.symm⟩, fun ⟨_, hw, h⟩ => hw.trans h.symm⟩)

theorem belongs_direct (h : .direct ∈ ownership t) (hr : r .orgId = some orgId) :
    Belongs rows orgId t r := ⟨.direct, h, selects_direct.mpr hr⟩

theorem org_of_belongs (h : ownership t = [.direct]) (hr : Belongs rows orgId t r) :
    r .orgId = some orgId := by
  obtain ⟨l, hl, hselects⟩ := hr
  rw [h, List.mem_singleton] at hl
  subst hl
  exact selects_direct.mp hselects

end Erased

section Run

variable {orgId other : String} {db : Db} {t : Table} {r q : Row Column String} {fk : Key}
  {done : List Table} {rows cur : Rows}

/-- Each table comes after those that refer to it and before those that its statement reads. -/
def ordered : List Table → List (Table × Scope) → Bool
  | _, [] => true
  | done, (t, s) :: stmts =>
      t ∉ done && foreignKeys.all (fun fk => fk.parent ≠ t || fk.child = t || fk.child ∈ done) &&
        (match s with
          | .direct => true
          | .through _ p _ => p ∉ done && p ≠ .authOnetimeTokens) &&
        ordered (t :: done) stmts

end Run

section Safety

variable {orgId other : String} {db : Db} {t : Table} {r q : Row Column String} {fk : Key}
  {rows cur left : Rows}

/-- A purge that goes through only loses rows and values, and leaves no row that is the
organisation's own in the tables it goes over. -/
theorem purgeAll_weakens {stmts : List (Table × Scope)} {counts counts' : List (Table × Nat)}
    (h : purgeAll orgId stmts (counts, cur) = .ok (counts', left)) (hr : r ∈ left t) :
    ∃ r₀ ∈ cur t, Weakened foreignKeys t r r₀ ∧
      ((t, .direct) ∈ stmts → r .orgId ≠ some orgId) := by
  induction stmts generalizing cur counts with
  | nil =>
      cases h
      exact ⟨r, hr, .refl t r, fun hmem => nomatch hmem⟩
  | cons stmt stmts ih =>
      obtain ⟨⟨counts'', next⟩, hnext, hrest⟩ := bind_eq_ok.mp h
      obtain ⟨next', hdelete, hpure⟩ := bind_eq_ok.mp hnext
      rw [orRaise_eq_ok] at hdelete
      cases pure_eq_ok.mp hpure
      obtain ⟨r₁, hr₁, hweak₁, howned⟩ := ih hrest
      obtain ⟨r₀, hr₀, hweak₀, hselected⟩ := weakened_of_delete hdelete hr₁
      have hweak := hweak₁.trans hweak₀
      refine ⟨r₀, hr₀, hweak, fun hmem => ?_⟩
      rcases List.mem_cons.mp hmem with rfl | hmem
      · intro horg
        rw [hweak.column (fun fk hfk hnull _ => org_not_nullified fk hfk hnull)] at horg
        exact Bool.false_ne_true ((hselected rfl).symm.trans (selects_direct.mpr horg))
      · exact howned hmem

/-- A row that is left belonged to whom it belongs to now. -/
theorem belongs_of_left {counts : List (Table × Nat)}
    (h : purgeOrgPostgres orgId rows = .ok (counts, left)) {r₀ : Row Column String}
    (hweak : Weakened foreignKeys t r r₀) (hbelongs : Belongs left other t r) :
    Belongs rows other t r₀ := by
  obtain ⟨l, hl, hselects⟩ := hbelongs
  refine ⟨l, hl, ?_⟩
  cases l with
  | direct => exact selects_direct.mpr (hweak.value (selects_direct.mp hselects))
  | through c p k =>
      obtain ⟨q, hq, horg, v, hv, hqv⟩ := selects_through.mp hselects
      obtain ⟨q₀, hq₀, hweak', _⟩ := purgeAll_weakens h hq
      exact selects_through.mpr
        ⟨q₀, hq₀, hweak'.value horg, v, hweak.value hv, hweak'.value hqv⟩

/-- Whatever else it does, a purge that goes through leaves no row of the organisation. -/
theorem not_belongs_of_left {counts : List (Table × Nat)}
    (h : purgeOrgPostgres orgId rows = .ok (counts, left)) (hr : r ∈ left t) :
    ¬ Belongs left orgId t r := by
  have hown : ∀ {u : Table} {q : Row Column String}, primary u = .direct → q ∈ left u →
      q .orgId ≠ some orgId := by
    intro u q hprimary hq
    obtain ⟨_, _, _, howned⟩ := purgeAll_weakens h hq
    exact howned (hprimary ▸ statement_of_table u)
  rintro ⟨l, hl, hselects⟩
  have hisKey := ownership_isKey t l hl
  cases l with
  | direct => exact hown (primary_of_direct t hl) hr (selects_direct.mp hselects)
  | through c p k =>
      obtain ⟨fk, hfk, rfl, rfl, rfl, rfl⟩ := hisKey
      obtain ⟨q, hq, horg, _⟩ := selects_through.mp hselects
      refine hown ?_ hq horg
      rw [primary, parent_owned fk hfk]
      rfl

def organisation (orgId : String) : Row Column String
  | .orgId => some orgId
  | _ => none

def setupRow : Row Column String
  | .orgId => some "a"
  | .setupId => some "setup"
  | _ => none

def documentRow : Row Column String
  | .orgId => some "b"
  | .docId => some "d"
  | .setupId => some "setup"
  | _ => none

def sharedRows : Rows
  | .organisations => [organisation "a", organisation "b"]
  | .evaluationSetups => [setupRow]
  | .vendorDocuments => [documentRow]
  | _ => []

/-- A document of one organisation under a setup of another. -/
def shared : Db where
  rows := sharedRows
  references := by decide
  not_null := by
    intro t
    cases t <;> decide
  keys_unique := by decide

end Safety

end RfpPlatform.OrgPurge
