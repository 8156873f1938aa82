import RfpPlatform.FactTables
import RfpPlatform.RunRequests

namespace RfpPlatform.RunDeletion

open RunRequests ExceptRules
open AccountRequests (TokenData httpError)
open FactTables (FactTable Store)

structure VendorDocument where
  docId : String
  orgId : String
  vendorId : VendorId
  rfpId : String
  setupId : Option String

structure LogRow where
  orgId : String
  runId : Option String
  deriving DecidableEq

structure MemberRow where
  runId : String
  userId : String
  deriving DecidableEq

structure IngestionJobRow where
  jobId : String
  docId : Option String

/-- The tables that `delete_run` writes, and those that refer to them. -/
structure Tables extends Db where
  vendorDocuments : KeyedTable VendorDocument.docId
  facts : Store
  ingestionJobs : List IngestionJobRow
  approvals : List LogRow
  decisions : List LogRow
  retrievalLog : List LogRow
  auditLog : List LogRow
  accessAuditLog : List LogRow
  rfpCollaborators : List MemberRow
  approvalAssignments : List MemberRow

def Tables.empty : Tables where
  runs := ∅
  setups := []
  vendorDocuments := ∅
  facts := Store.empty
  ingestionJobs := []
  approvals := []
  decisions := []
  retrievalLog := []
  auditLog := []
  accessAuditLog := []
  rfpCollaborators := []
  approvalAssignments := []

section References

/-- The foreign keys to `vendor_documents`. -/
def docReferences (t : Tables) : List String :=
  FactTable.all.flatMap (fun k => (t.facts k).rows.filterMap (fun f => f.entry.docId)) ++
    t.ingestionJobs.filterMap IngestionJobRow.docId

def setupReferences (t : Tables) : List String :=
  t.runs.rows.filterMap RunRow.setupId ++ t.vendorDocuments.rows.filterMap VendorDocument.setupId ++
    (t.facts .extractedFacts).rows.filterMap (fun f => f.entry.setupId)

def restrictingReferences (t : Tables) : List String :=
  t.approvals.filterMap LogRow.runId ++ t.decisions.filterMap LogRow.runId

def runReferences (t : Tables) : List String :=
  restrictingReferences t ++ t.retrievalLog.filterMap LogRow.runId ++
    t.auditLog.filterMap LogRow.runId ++ t.accessAuditLog.filterMap LogRow.runId ++
    t.rfpCollaborators.map MemberRow.runId ++ t.approvalAssignments.map MemberRow.runId

/-- The foreign keys of the schema hold. -/
structure SchemaValid (t : Tables) : Prop where
  documents : docReferences t ⊆ t.vendorDocuments.rows.map VendorDocument.docId
  setups : setupReferences t ⊆ t.setups.map EvaluationSetup.setupId
  runs : runReferences t ⊆ t.runs.rows.map RunRow.runId

end References

section Statements

def foreignKeyViolation : Exn :=
  ⟨.integrityError, "update or delete on table violates foreign key constraint"⟩

def LogRow.ofRun (runId : String) (row : LogRow) : Bool := row.runId = some runId

def setupKey (run : RunRow) : Option String := run.setupId.filter (fun sid => sid ≠ "")

def unlink (runId : String) (rows : List LogRow) : List LogRow :=
  rows.map (fun row => if row.ofRun runId then { row with runId := none } else row)

/-- The statements on the approvals, the decisions and the logs. The row policies of all but
`retrieval_log` show the session only the rows of its organisation. -/
def clearLogs (runId orgId : String) (t : Tables) : Tables :=
  { t with
    approvals := t.approvals.filter (fun row => !(row.ofRun runId && row.orgId = orgId))
    decisions := t.decisions.filter (fun row => !(row.ofRun runId && row.orgId = orgId))
    retrievalLog := t.retrievalLog.filter (fun row => !row.ofRun runId)
    auditLog := t.auditLog.map (fun row =>
      if row.ofRun runId && row.orgId = orgId then { row with runId := none } else row) }

def VendorDocument.ofRfp (rfpId orgId : String) (d : VendorDocument) : Bool :=
  d.rfpId = rfpId && d.orgId = orgId

def documentsHeld (rfpId orgId : String) (t : Tables) : Bool :=
  t.vendorDocuments.rows.any (fun d => d.ofRfp rfpId orgId && d.docId ∈ docReferences t)

def deleteVendorDocuments (rfpId orgId : String) (t : Tables) : Tables :=
  { t with vendorDocuments := t.vendorDocuments.deleteWhere (VendorDocument.ofRfp rfpId orgId) }

def ofSetupKey (key : Option String) (orgId : String) (setupId : Option String) (rowOrg : String) :
    Bool :=
  key.isSome && setupId = key && rowOrg = orgId

def deleteFacts (key : Option String) (orgId : String) (t : Tables) : Tables :=
  { t with
    facts := Function.update t.facts .extractedFacts ((t.facts .extractedFacts).deleteWhere
      (fun f => ofSetupKey key orgId f.entry.setupId f.entry.orgId)) }

def runHeld (runId : String) (t : Tables) : Bool := runId ∈ restrictingReferences t

/-- What refers to the run is set to null, or goes with it. -/
def deleteRunRow (runId orgId : String) (t : Tables) : Tables :=
  { t with
    runs := t.runs.deleteWhere (fun run => run.runId = runId && run.orgId = orgId)
    retrievalLog := unlink runId t.retrievalLog
    auditLog := unlink runId t.auditLog
    accessAuditLog := unlink runId t.accessAuditLog
    rfpCollaborators := t.rfpCollaborators.filter (fun row => row.runId ≠ runId)
    approvalAssignments := t.approvalAssignments.filter (fun row => row.runId ≠ runId) }

def setupHeld (key : Option String) (orgId : String) (t : Tables) : Bool :=
  t.setups.any (fun s => ofSetupKey key orgId (some s.setupId) s.orgId &&
    s.setupId ∈ setupReferences t)

def deleteSetup (key : Option String) (orgId : String) (t : Tables) : Tables :=
  { t with setups := t.setups.filter (fun s => !ofSetupKey key orgId (some s.setupId) s.orgId) }

def deleteRun (draw : Draw) (user : TokenData) (runId : String) (t : Tables) :
    Except Exn Tables := do
  let run ← dbGetRun t.toDb runId user.orgId
  requireRunAccess draw user run
  raiseIf (run.status.value = "completed")
    (httpError 409 "Completed runs cannot be deleted — they are audit records.")
  raiseIf (run.status.value = "running")
    (httpError 409 "Cannot delete a run that is currently in progress.")
  let t := clearLogs runId user.orgId t
  raiseIf (documentsHeld run.rfpId user.orgId t) foreignKeyViolation
  let t := deleteFacts (setupKey run) user.orgId (deleteVendorDocuments run.rfpId user.orgId t)
  raiseIf (runHeld runId t) foreignKeyViolation
  let t := deleteRunRow runId user.orgId t
  raiseIf (setupHeld (setupKey run) user.orgId t) foreignKeyViolation
  return deleteSetup (setupKey run) user.orgId t

def afterDelete (draw : Draw) (user : TokenData) (runId : String) (t : Tables) : Tables :=
  match deleteRun draw user runId t with
  | .ok t' => t'
  | .error _ => t

def without (run : RunRow) (t : Tables) : Tables :=
  deleteSetup (setupKey run) run.orgId (deleteRunRow run.runId run.orgId
    (deleteFacts (setupKey run) run.orgId (deleteVendorDocuments run.rfpId run.orgId
      (clearLogs run.runId run.orgId t))))

/-- A foreign key without an action refers to a row that the deletion takes away. -/
def Held (run : RunRow) (t : Tables) : Prop :=
  documentsHeld run.rfpId run.orgId t = true ∨
    runHeld run.runId (clearLogs run.runId run.orgId t) = true ∨
      setupHeld (setupKey run) run.orgId (deleteRunRow run.runId run.orgId
        (deleteFacts (setupKey run) run.orgId (deleteVendorDocuments run.rfpId run.orgId t))) = true

structure Deletable (draw : Draw) (user : TokenData) (runId : String) (t : Tables) (run : RunRow) :
    Prop where
  stored : run ∈ t.runs
  named : run.runId = runId
  own : run.orgId = user.orgId
  visible : canViewRun draw user run = true
  idle : run.status ≠ .running

end Statements

section Effects

variable {t t' : Tables} {draw : Draw} {user : TokenData} {runId : String} {run : RunRow}

/-- The vocabulary of the statuses has no word for the first guard. -/
theorem value_ne_completed (status : RunStatus) : status.value ≠ "completed" := by
  cases status <;> decide

theorem value_eq_running {status : RunStatus} : status.value = "running" ↔ status = .running := by
  cases status <;> decide

theorem deleteRun_eq_ok : deleteRun draw user runId t = .ok t' ↔
    ∃ run, Deletable draw user runId t run ∧ ¬ Held run t ∧ t' = without run t := by
  simp only [deleteRun, requireRunAccess, bind_eq_ok, raiseIf_eq_ok, pure_eq_ok, dbGetRun_eq_ok]
  constructor
  · rintro ⟨run, ⟨hmem, rfl, horg⟩, _, hview, _, _, _, hidle, _, hdocs, _, hrun, _, hsetup, rfl⟩
    rw [← horg] at hdocs hrun hsetup ⊢
    refine ⟨run, ⟨hmem, rfl, horg, by simpa using hview, fun h => hidle (by rw [h]; rfl)⟩, ?_, rfl⟩
    rintro (h | h | h)
    · exact hdocs h
    · exact hrun h
    · exact hsetup h
  · rintro ⟨run, ⟨hmem, rfl, horg, hview, hidle⟩, hheld, rfl⟩
    refine ⟨run, ⟨hmem, rfl, horg⟩, (), by simp [hview], (), value_ne_completed _, (),
      fun h => hidle (value_eq_running.mp h), (), fun h => hheld (Or.inl ?_), (),
      fun h => hheld (Or.inr (Or.inl ?_)), (), fun h => hheld (Or.inr (Or.inr ?_)), ?_⟩
    · rwa [← horg] at h
    · rwa [← horg] at h
    · rwa [← horg] at h
    · rw [← horg]
      rfl

theorem mem_runs_without {other : RunRow} : other ∈ (without run t).runs ↔
    other ∈ t.runs ∧ ¬ (other.runId = run.runId ∧ other.orgId = run.orgId) := by
  change other ∈ t.runs.deleteWhere _ ↔ _
  rw [KeyedTable.mem_deleteWhere]
  simp

theorem mem_vendorDocuments_without {d : VendorDocument} : d ∈ (without run t).vendorDocuments ↔
    d ∈ t.vendorDocuments ∧ d.ofRfp run.rfpId run.orgId = false :=
  KeyedTable.mem_deleteWhere

theorem facts_without_typed {k : FactTable} (hk : k ≠ .extractedFacts) :
    (without run t).facts k = t.facts k := Function.update_of_ne hk _ _

theorem extractedFacts_deleteFacts (key : Option String) (orgId : String) :
    (deleteFacts key orgId t).facts .extractedFacts = (t.facts .extractedFacts).deleteWhere
      (fun f => ofSetupKey key orgId f.entry.setupId f.entry.orgId) := by
  simp [deleteFacts]

theorem mem_extractedFacts_without {f : FactTables.StoredRow .extractedFacts} :
    f ∈ (without run t).facts .extractedFacts ↔ f ∈ t.facts .extractedFacts ∧
      ofSetupKey (setupKey run) run.orgId f.entry.setupId f.entry.orgId = false := by
  change f ∈ (deleteFacts (setupKey run) run.orgId t).facts .extractedFacts ↔ _
  rw [extractedFacts_deleteFacts, KeyedTable.mem_deleteWhere]

theorem mem_setups_without {s : EvaluationSetup} : s ∈ (without run t).setups ↔
    s ∈ t.setups ∧ ofSetupKey (setupKey run) run.orgId (some s.setupId) s.orgId = false := by
  change s ∈ t.setups.filter _ ↔ _
  rw [List.mem_filter, Bool.not_eq_true']

theorem ofSetupKey_eq_true {key setupId : Option String} {orgId rowOrg : String} :
    ofSetupKey key orgId setupId rowOrg = true ↔
      ∃ sid, key = some sid ∧ setupId = some sid ∧ rowOrg = orgId := by
  cases key with
  | none => simp [ofSetupKey]
  | some sid => simp [ofSetupKey]

end Effects

section Locality

variable {t t' : Tables} {draw : Draw} {user : TokenData} {runId : String} {run other : RunRow}

def factOf (run : RunRow) (f : FactTables.StoredRow .extractedFacts) : Prop :=
  f.entry.setupId.isSome ∧ f.entry.setupId = run.setupId ∧ f.entry.orgId = run.orgId

/-- Every other run keeps its row, its vendor documents, its setup and its extracted facts. -/
structure Spares (run : RunRow) (t t' : Tables) (other : RunRow) : Prop where
  row : other ∈ t'.runs
  documents : ∀ d ∈ t.vendorDocuments, d.ofRfp other.rfpId other.orgId = true →
    d ∈ t'.vendorDocuments
  setup : ∀ s ∈ t.setups, other.setupId = some s.setupId → s ∈ t'.setups
  facts : ∀ f ∈ t.facts .extractedFacts, factOf other f → f ∈ t'.facts .extractedFacts

/-- What is taken away is the run's own. -/
structure TakesOwn (run : RunRow) (t t' : Tables) : Prop where
  row : run ∉ t'.runs
  documents : ∀ d ∈ t.vendorDocuments, d ∉ t'.vendorDocuments →
    d.ofRfp run.rfpId run.orgId = true
  setups : ∀ s ∈ t.setups, s ∉ t'.setups → run.setupId = some s.setupId
  facts : ∀ f ∈ t.facts .extractedFacts, f ∉ t'.facts .extractedFacts → factOf run f
  typed : ∀ k, k ≠ .extractedFacts → t'.facts k = t.facts k
  logs : ∀ log ∈ [Tables.approvals, Tables.decisions, Tables.retrievalLog, Tables.auditLog,
    Tables.accessAuditLog], ∀ row ∈ log t, row.runId ≠ some run.runId → row ∈ log t'
  members : ∀ table ∈ [Tables.rfpCollaborators, Tables.approvalAssignments], ∀ row ∈ table t,
    row.runId ≠ run.runId → row ∈ table t'

def Local (run : RunRow) (t t' : Tables) : Prop :=
  TakesOwn run t t' ∧ ∀ other ∈ t.runs, other.runId ≠ run.runId → Spares run t t' other

/-- The request raises and changes nothing, or it takes away no more than one run. -/
def AtomicLocal (draw : Draw) (user : TokenData) (runId : String) (t : Tables) : Prop :=
  ((∃ e, deleteRun draw user runId t = .error e) ∧ afterDelete draw user runId t = t) ∨
    ∃ run ∈ t.runs, run.runId = runId ∧ Local run t (afterDelete draw user runId t)

/-- A document or an extracted fact that goes with one run is another's as well. -/
def Shares (run other : RunRow) (t : Tables) : Prop :=
  (∃ d ∈ t.vendorDocuments, d.ofRfp run.rfpId run.orgId = true ∧
      d.ofRfp other.rfpId other.orgId = true) ∨
    ∃ f ∈ t.facts .extractedFacts, factOf other f ∧
      ofSetupKey (setupKey run) run.orgId f.entry.setupId f.entry.orgId = true

theorem setupKey_eq_some {sid : String} (h : setupKey run = some sid) : run.setupId = some sid :=
  (Option.filter_eq_some_iff.mp h).1

theorem mem_unlink {rows : List LogRow} {row : LogRow} (h : row ∈ rows)
    (hne : row.runId ≠ some runId) : row ∈ unlink runId rows := by
  refine List.mem_map.mpr ⟨row, h, if_neg ?_⟩
  simpa [LogRow.ofRun] using hne

theorem takesOwn_without (run : RunRow) (t : Tables) : TakesOwn run t (without run t) where
  row := fun h => (mem_runs_without.mp h).2 ⟨rfl, rfl⟩
  documents := by
    intro d hd hgone
    by_contra hother
    exact hgone (mem_vendorDocuments_without.mpr ⟨hd, Bool.eq_false_iff.mpr hother⟩)
  setups := by
    intro s hs hgone
    have hkey : ofSetupKey (setupKey run) run.orgId (some s.setupId) s.orgId = true := by
      by_contra hother
      exact hgone (mem_setups_without.mpr ⟨hs, Bool.eq_false_iff.mpr hother⟩)
    obtain ⟨sid, hrun, hsetup, _⟩ := ofSetupKey_eq_true.mp hkey
    rw [setupKey_eq_some hrun, hsetup]
  facts := by
    intro f hf hgone
    have hkey : ofSetupKey (setupKey run) run.orgId f.entry.setupId f.entry.orgId = true := by
      by_contra hother
      exact hgone (mem_extractedFacts_without.mpr ⟨hf, Bool.eq_false_iff.mpr hother⟩)
    obtain ⟨sid, hrun, hfact, horg⟩ := ofSetupKey_eq_true.mp hkey
    exact ⟨by rw [hfact]; rfl, by rw [hfact, setupKey_eq_some hrun], horg⟩
  typed := fun k hk => facts_without_typed hk
  logs := by
    intro log hlog row hrow hne
    have hrun : row.ofRun run.runId = false := by simpa [LogRow.ofRun] using hne
    have hkeep : row ∈ t.auditLog → row ∈ (clearLogs run.runId run.orgId t).auditLog := fun h =>
      List.mem_map.mpr ⟨row, h, by simp [hrun]⟩
    simp only [List.mem_cons, List.not_mem_nil, or_false] at hlog
    rcases hlog with rfl | rfl | rfl | rfl | rfl
    · exact List.mem_filter.mpr ⟨hrow, by simp [hrun]⟩
    · exact List.mem_filter.mpr ⟨hrow, by simp [hrun]⟩
    · exact mem_unlink (List.mem_filter.mpr ⟨hrow, by simp [hrun]⟩) hne
    · exact mem_unlink (hkeep hrow) hne
    · exact mem_unlink hrow hne
  members := by
    intro table htable row hrow hne
    simp only [List.mem_cons, List.not_mem_nil, or_false] at htable
    rcases htable with rfl | rfl
    · exact List.mem_filter.mpr ⟨hrow, by simpa using hne⟩
    · exact List.mem_filter.mpr ⟨hrow, by simpa using hne⟩

/-- A setup that a row still refers to is never taken away. -/
theorem setup_kept (hheld : ¬ Held run t) {s : EvaluationSetup} (hs : s ∈ t.setups)
    (href : s.setupId ∈ setupReferences (without run t)) : s ∈ (without run t).setups := by
  refine mem_setups_without.mpr ⟨hs, Bool.eq_false_iff.mpr (fun hkey => hheld ?_)⟩
  refine Or.inr (Or.inr (List.any_eq_true.mpr ⟨s, hs, ?_⟩))
  rw [hkey, Bool.true_and]
  exact decide_eq_true href

theorem spares_without_iff (hheld : ¬ Held run t) (hother : other ∈ t.runs)
    (hne : other.runId ≠ run.runId) : Spares run t (without run t) other ↔ ¬ Shares run other t := by
  constructor
  · rintro hspares (⟨d, hd, hrun, hown⟩ | ⟨f, hf, hown, hkey⟩)
    · have hgone := (mem_vendorDocuments_without.mp (hspares.documents d hd hown)).2
      rw [hrun] at hgone
      exact absurd hgone (by decide)
    · have hgone := (mem_extractedFacts_without.mp (hspares.facts f hf hown)).2
      rw [hkey] at hgone
      exact absurd hgone (by decide)
  · intro hshares
    have hrow : other ∈ (without run t).runs := mem_runs_without.mpr ⟨hother, fun h => hne h.1⟩
    refine ⟨hrow, fun d hd hown => ?_, fun s hs hsetup => setup_kept hheld hs ?_, fun f hf hown => ?_⟩
    · refine mem_vendorDocuments_without.mpr ⟨hd, Bool.eq_false_iff.mpr (fun hrun => ?_)⟩
      exact hshares (Or.inl ⟨d, hd, hrun, hown⟩)
    · exact List.mem_append_left _ (List.mem_append_left _
        (List.mem_filterMap.mpr ⟨other, hrow, hsetup⟩))
    · refine mem_extractedFacts_without.mpr ⟨hf, Bool.eq_false_iff.mpr (fun hkey => ?_)⟩
      exact hshares (Or.inr ⟨f, hf, hown, hkey⟩)

theorem deleteRun_eq_error (h : ∀ run, Deletable draw user runId t run → Held run t) :
    ∃ e, deleteRun draw user runId t = .error e := by
  cases hdelete : deleteRun draw user runId t with
  | error e => exact ⟨e, rfl⟩
  | ok t' =>
      obtain ⟨run, hrun, hheld, _⟩ := deleteRun_eq_ok.mp hdelete
      exact absurd (h run hrun) hheld

theorem deleteRun_of_not_held (hrun : Deletable draw user runId t run) (hheld : ¬ Held run t) :
    deleteRun draw user runId t = .ok (without run t) :=
  deleteRun_eq_ok.mpr ⟨run, hrun, hheld, rfl⟩

theorem afterDelete_of_not_held (hrun : Deletable draw user runId t run) (hheld : ¬ Held run t) :
    afterDelete draw user runId t = without run t := by
  rw [afterDelete, deleteRun_of_not_held hrun hheld]

/-- A request is atomic and local exactly when the run it may delete is held by a foreign key,
or shares no document of its RFP and no extracted fact of its setup with another run. -/
theorem atomicLocal_iff (draw : Draw) (user : TokenData) (runId : String) (t : Tables) :
    AtomicLocal draw user runId t ↔ ∀ run, Deletable draw user runId t run →
      Held run t ∨ ∀ other ∈ t.runs, other.runId ≠ run.runId → ¬ Shares run other t := by
  constructor
  · intro h run hrun
    by_cases hheld : Held run t
    · exact Or.inl hheld
    · rcases h with ⟨⟨e, he⟩, _⟩ | ⟨run', hmem, hnamed, hlocal⟩
      · rw [deleteRun_of_not_held hrun hheld] at he
        cases he
      · have hsame : run' = run :=
          KeyedTable.eq_of_key_eq hmem hrun.stored (hnamed.trans hrun.named.symm)
        subst hsame
        rw [afterDelete_of_not_held hrun hheld] at hlocal
        exact Or.inr (fun other hother hne =>
          (spares_without_iff hheld hother hne).mp (hlocal.2 other hother hne))
  · intro h
    by_cases hall : ∀ run, Deletable draw user runId t run → Held run t
    · obtain ⟨e, he⟩ := deleteRun_eq_error hall
      refine Or.inl ⟨⟨e, he⟩, ?_⟩
      rw [afterDelete, he]
    · obtain ⟨run, hnot⟩ := not_forall.mp hall
      obtain ⟨hrun, hheld⟩ := Classical.not_imp.mp hnot
      refine Or.inr ⟨run, hrun.stored, hrun.named, ?_⟩
      rw [afterDelete_of_not_held hrun hheld]
      refine ⟨takesOwn_without run t, fun other hother hne => ?_⟩
      exact (spares_without_iff hheld hother hne).mpr
        ((h run hrun).resolve_left hheld other hother hne)

def sharedRun (runId setupId : String) : RunRow :=
  { waitingRun runId with
    setupId := some setupId, status := .complete, decisionOutput := some "\x7b\x7d" }

def sharedTables : Tables :=
  { Tables.empty with
    runs := ⟨[sharedRun "run-1" "setup-1", sharedRun "run-2" "setup-2"], by decide +kernel⟩
    setups := [defaultSetup "setup-1" "org-1" "rfp-1", defaultSetup "setup-2" "org-1" "rfp-1"]
    vendorDocuments := ⟨[⟨"doc-1", "org-1", "v1", "rfp-1", some "setup-1"⟩], by decide +kernel⟩ }

/-- Deleting one of two runs of an RFP takes away the documents of the other. -/
theorem sibling_loses_documents :
    ¬ ∀ draw user runId t, SchemaValid t → AtomicLocal draw user runId t := by
  intro h
  have hvalid : SchemaValid sharedTables := by
    refine ⟨?_, ?_, ?_⟩ <;> decide +kernel
  have hdocs : (afterDelete adminDraw companyAdmin "run-1" sharedTables).vendorDocuments.rows.length
      = 0 := by decide +kernel
  have hruns : (afterDelete adminDraw companyAdmin "run-1" sharedTables).runs.rows.length = 1 := by
    decide +kernel
  rcases h adminDraw companyAdmin "run-1" sharedTables hvalid with ⟨_, hsame⟩ | ⟨run, _, hid, hlocal⟩
  · rw [hsame] at hruns
    exact absurd hruns (by decide)
  · have hother : sharedRun "run-2" "setup-2" ∈ sharedTables.runs :=
      List.mem_cons_of_mem _ List.mem_cons_self
    have hspares := hlocal.2 _ hother (by rw [hid]; decide)
    have hkept := hspares.documents ⟨"doc-1", "org-1", "v1", "rfp-1", some "setup-1"⟩
      List.mem_cons_self (by decide +kernel)
    exact absurd (List.length_pos_of_mem hkept) (by rw [hdocs]; decide)

end Locality

section Integrity

variable {t t' : Tables} {draw : Draw} {user : TokenData} {runId : String} {run : RunRow}

theorem docReferences_without {d : String} (h : d ∈ docReferences (without run t)) :
    d ∈ docReferences t := by
  refine (List.mem_append.mp h).elim (fun hfact => List.mem_append_left _ ?_)
    (fun hjob => List.mem_append_right _ hjob)
  obtain ⟨k, hk, hrow⟩ := List.mem_flatMap.mp hfact
  obtain ⟨f, hf, hdoc⟩ := List.mem_filterMap.mp hrow
  refine List.mem_flatMap.mpr ⟨k, hk, List.mem_filterMap.mpr ⟨f, ?_, hdoc⟩⟩
  by_cases htyped : k = .extractedFacts
  · subst htyped
    exact (mem_extractedFacts_without.mp hf).1
  · rw [facts_without_typed htyped] at hf
    exact hf

theorem mem_references_of_unlinked {rows : List LogRow} {p : LogRow → Bool} {r : String}
    (h : r ∈ (rows.map (fun row => if p row then { row with runId := none } else row)).filterMap
      LogRow.runId) : ∃ row ∈ rows, row.runId = some r ∧ p row = false := by
  obtain ⟨row, hrow, hid⟩ := List.mem_filterMap.mp h
  obtain ⟨old, hold, rfl⟩ := List.mem_map.mp hrow
  cases hp : p old with
  | true =>
      rw [if_pos hp] at hid
      cases hid
  | false =>
      rw [if_neg (Bool.eq_false_iff.mp hp)] at hid
      exact ⟨old, hold, hid, hp⟩

theorem mem_references_of_unlink {rows : List LogRow} {r : String}
    (h : r ∈ (unlink runId rows).filterMap LogRow.runId) :
    r ∈ rows.filterMap LogRow.runId ∧ r ≠ runId := by
  obtain ⟨row, hrow, hid, hof⟩ := mem_references_of_unlinked h
  refine ⟨List.mem_filterMap.mpr ⟨row, hrow, hid⟩, ?_⟩
  rintro rfl
  simp [LogRow.ofRun, hid] at hof

theorem mem_references_of_filter {rows : List LogRow} {p : LogRow → Bool} {r : String}
    (h : r ∈ (rows.filter p).filterMap LogRow.runId) : r ∈ rows.filterMap LogRow.runId :=
  (List.filter_sublist.filterMap _).subset h

theorem mem_members_of_filter {rows : List MemberRow} {r : String}
    (h : r ∈ (rows.filter (fun row => row.runId ≠ runId)).map MemberRow.runId) :
    r ∈ rows.map MemberRow.runId ∧ r ≠ runId := by
  obtain ⟨row, hrow, rfl⟩ := List.mem_map.mp h
  obtain ⟨hold, hne⟩ := List.mem_filter.mp hrow
  exact ⟨List.mem_map_of_mem hold, by simpa using hne⟩

theorem runReferences_without (hheld : ¬ Held run t) {r : String}
    (h : r ∈ runReferences (without run t)) : r ∈ runReferences t ∧ r ≠ run.runId := by
  have hrun : runHeld run.runId (clearLogs run.runId run.orgId t) = false :=
    Bool.eq_false_iff.mpr (fun hr => hheld (Or.inr (Or.inl hr)))
  simp only [runReferences, restrictingReferences, List.mem_append] at h ⊢
  rcases h with (((((happ | hdec) | hret) | haud) | hacc) | hcol) | hass
  · refine ⟨by simp only [mem_references_of_filter happ, true_or], ?_⟩
    rintro rfl
    exact (of_decide_eq_false hrun) (List.mem_append_left _ happ)
  · refine ⟨by simp only [mem_references_of_filter hdec, true_or, or_true], ?_⟩
    rintro rfl
    exact (of_decide_eq_false hrun) (List.mem_append_right _ hdec)
  · obtain ⟨hr, hne⟩ := mem_references_of_unlink hret
    exact ⟨by simp only [mem_references_of_filter hr, true_or, or_true], hne⟩
  · obtain ⟨hr, hne⟩ := mem_references_of_unlink haud
    obtain ⟨row, hrow, hid, _⟩ := mem_references_of_unlinked hr
    have hmem : r ∈ t.auditLog.filterMap LogRow.runId := List.mem_filterMap.mpr ⟨row, hrow, hid⟩
    exact ⟨by simp only [hmem, true_or, or_true], hne⟩
  · obtain ⟨hr, hne⟩ := mem_references_of_unlink hacc
    have hmem : r ∈ t.accessAuditLog.filterMap LogRow.runId := hr
    exact ⟨by simp only [hmem, true_or, or_true], hne⟩
  · obtain ⟨hr, hne⟩ := mem_members_of_filter hcol
    have hmem : r ∈ t.rfpCollaborators.map MemberRow.runId := hr
    exact ⟨by simp only [hmem, true_or, or_true], hne⟩
  · obtain ⟨hr, hne⟩ := mem_members_of_filter hass
    have hmem : r ∈ t.approvalAssignments.map MemberRow.runId := hr
    exact ⟨by simp only [hmem, or_true], hne⟩

theorem setupReferences_without {sid : String} (h : sid ∈ setupReferences (without run t)) :
    sid ∈ setupReferences t := by
  rcases List.mem_append.mp h with hrest | hfact
  · rcases List.mem_append.mp hrest with hrun | hdoc
    · obtain ⟨r, hr, hsid⟩ := List.mem_filterMap.mp hrun
      exact List.mem_append_left _ (List.mem_append_left _
        (List.mem_filterMap.mpr ⟨r, (mem_runs_without.mp hr).1, hsid⟩))
    · obtain ⟨d, hd, hsid⟩ := List.mem_filterMap.mp hdoc
      exact List.mem_append_left _ (List.mem_append_right _
        (List.mem_filterMap.mpr ⟨d, (mem_vendorDocuments_without.mp hd).1, hsid⟩))
  · obtain ⟨f, hf, hsid⟩ := List.mem_filterMap.mp hfact
    exact List.mem_append_right _
      (List.mem_filterMap.mpr ⟨f, (mem_extractedFacts_without.mp hf).1, hsid⟩)

/-- What `delete_run` leaves satisfies the foreign keys again. -/
theorem deleteRun_schemaValid (hvalid : SchemaValid t)
    (h : deleteRun draw user runId t = .ok t') : SchemaValid t' := by
  obtain ⟨run, _, hheld, rfl⟩ := deleteRun_eq_ok.mp h
  refine ⟨fun d hd => ?_, fun sid hsid => ?_, fun r hr => ?_⟩
  · have href := docReferences_without hd
    obtain ⟨doc, hdoc, rfl⟩ := List.mem_map.mp (hvalid.documents href)
    refine List.mem_map.mpr ⟨doc, mem_vendorDocuments_without.mpr ⟨hdoc, ?_⟩, rfl⟩
    refine Bool.eq_false_iff.mpr (fun hof => hheld (Or.inl (List.any_eq_true.mpr ⟨doc, hdoc, ?_⟩)))
    rw [hof, Bool.true_and]
    exact decide_eq_true href
  · obtain ⟨s, hs, rfl⟩ := List.mem_map.mp (hvalid.setups (setupReferences_without hsid))
    exact List.mem_map.mpr ⟨s, setup_kept hheld hs hsid, rfl⟩
  · obtain ⟨href, hne⟩ := runReferences_without hheld hr
    obtain ⟨other, hother, rfl⟩ := List.mem_map.mp (hvalid.runs href)
    exact List.mem_map.mpr ⟨other, mem_runs_without.mpr ⟨hother, fun hid => hne hid.1⟩, rfl⟩

end Integrity

end RfpPlatform.RunDeletion
