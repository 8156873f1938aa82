import RfpPlatform.BackgroundIngestion
import RfpPlatform.RunRequests

namespace RfpPlatform.Submissions

open AccountRequests (TokenData httpError)
open BackgroundIngestion (Job JobStatus)
open ExceptRules
open Ingestion (Content)
open PyText (prefixOf)
open RunRequests (writeRoles)

inductive SubmissionStatus
  | opened | closed | processing | factsReady | evaluated
  deriving DecidableEq

def SubmissionStatus.value : SubmissionStatus → String
  | opened => "open"
  | closed => "closed"
  | processing => "processing"
  | factsReady => "facts_ready"
  | evaluated => "evaluated"

inductive AutonomyMode
  | manual | autoToEvaluate | autoToReport
  deriving DecidableEq

def AutonomyMode.value : AutonomyMode → String
  | manual => "manual"
  | autoToEvaluate => "auto_to_evaluate"
  | autoToReport => "auto_to_report"

def jobStatusValue : JobStatus → String
  | .received => "received"
  | .superseded => "superseded"
  | .queued => "queued"
  | .processing => "processing"
  | .factsReady => "facts_ready"
  | .failed => "failed"
  | .duplicate => "duplicate"
  | .needsAttribution => "needs_attribution"
  | .rejectedLate => "rejected_late"

structure Rfp where
  rfpId : String
  orgId : String
  submissionStatus : SubmissionStatus
  submissionDeadline : Option Nat
  autonomyMode : AutonomyMode

/-- A row of `ingestion_jobs`, with the columns that the intake reads. -/
structure JobRow extends Job where
  contentHash : String
  supersededBy : Option String

def JobRow.hashKey (job : JobRow) : String × VendorId × String :=
  (job.rfpId, job.vendorId, job.contentHash)

/-- `ingestion_jobs` under its primary key and its unique constraint. -/
structure Jobs where
  table : KeyedTable (fun job : JobRow => job.jobId)
  hashes_nodup : (table.rows.map JobRow.hashKey).Nodup

instance : Membership JobRow Jobs := ⟨fun jobs job => job ∈ jobs.table⟩

def Jobs.empty : Jobs := ⟨∅, List.nodup_nil⟩

structure LifecycleEvent where
  eventType : String
  orgId : String
  rfpId : String
  payload : List (String × String)
  deriving DecidableEq

structure Tables where
  rfps : KeyedTable Rfp.rfpId
  invitedVendors : List (String × VendorId)
  jobs : Jobs
  eventLog : List LifecycleEvent

def Tables.empty : Tables := ⟨∅, [], Jobs.empty, []⟩

section JobWrites

/-- An update of the jobs that a predicate selects, which keeps the columns of both keys. -/
def Jobs.updateWhere (jobs : Jobs) (p : JobRow → Bool) (f : JobRow → JobRow)
    (hid : ∀ job, (f job).jobId = job.jobId) (hkey : ∀ job, (f job).hashKey = job.hashKey) :
    Jobs where
  table := jobs.table.updateWhere p f hid
  hashes_nodup := by
    have hmap : (jobs.table.updateWhere p f hid).rows.map JobRow.hashKey =
        jobs.table.rows.map JobRow.hashKey := by
      change (jobs.table.rows.map _).map JobRow.hashKey = _
      rw [List.map_map]
      refine List.map_congr_left (fun job _ => ?_)
      change JobRow.hashKey (if p job then f job else job) = _
      split
      · exact hkey job
      · rfl
    rw [hmap]
    exact jobs.hashes_nodup

/-- `gen_random_uuid()`: an id that no job has. -/
def genRandomUuid (jobs : Jobs) : String :=
  String.ofList (List.replicate
    ((jobs.table.rows.map (fun job => job.jobId.length)).foldr max 0 + 1) 'u')

theorem genRandomUuid_fresh (jobs : Jobs) :
    genRandomUuid jobs ∉ jobs.table.rows.map (fun job => job.jobId) := by
  intro h
  obtain ⟨job, hjob, hid⟩ := List.mem_map.mp h
  have hle : ∀ rows : List JobRow, job ∈ rows →
      job.jobId.length ≤ (rows.map (fun job => job.jobId.length)).foldr max 0 := by
    intro rows hrows
    induction rows with
    | nil => cases hrows
    | cons row rows ih =>
        rw [List.map_cons, List.foldr_cons]
        rcases List.mem_cons.mp hrows with rfl | hrows
        · omega
        · have := ih hrows
          omega
  have hlength : job.jobId.length =
      (jobs.table.rows.map (fun job => job.jobId.length)).foldr max 0 + 1 := by
    rw [hid, genRandomUuid, String.length_ofList, List.length_replicate]
  have := hle _ hjob
  omega

inductive EntryStatus
  | received | needsAttribution | rejectedLate
  deriving DecidableEq

def EntryStatus.jobStatus : EntryStatus → JobStatus
  | received => .received
  | needsAttribution => .needsAttribution
  | rejectedLate => .rejectedLate

structure NewJob where
  orgId : String
  rfpId : String
  vendorId : VendorId
  contentHash : String
  filename : String
  sourceUri : String
  status : EntryStatus

def NewJob.row (job : NewJob) (jobId : String) : JobRow where
  jobId := jobId
  orgId := job.orgId
  rfpId := job.rfpId
  vendorId := job.vendorId
  sourceUri := some job.sourceUri
  filename := some job.filename
  status := job.status.jobStatus
  error := none
  docId := none
  contentHash := job.contentHash
  supersededBy := none

def NewJob.hashKey (job : NewJob) : String × VendorId × String :=
  (job.rfpId, job.vendorId, job.contentHash)

/-- `INSERT ... ON CONFLICT (rfp_id, vendor_id, content_hash) DO NOTHING RETURNING job_id` -/
def enqueueIngestionJob (job : NewJob) (jobs : Jobs) : Option String × Jobs :=
  if h : job.hashKey ∈ jobs.table.rows.map JobRow.hashKey then (none, jobs)
  else
    (some (genRandomUuid jobs),
      { table := ⟨jobs.table.rows ++ [job.row (genRandomUuid jobs)], by
          rw [List.map_append, List.map_singleton]
          exact List.Nodup.append jobs.table.keys_nodup (List.nodup_singleton _)
            (List.disjoint_singleton.mpr (genRandomUuid_fresh jobs))⟩
        hashes_nodup := by
          change ((jobs.table.rows ++ [job.row (genRandomUuid jobs)]).map JobRow.hashKey).Nodup
          rw [List.map_append, List.map_singleton]
          exact List.Nodup.append jobs.hashes_nodup (List.nodup_singleton _)
            (List.disjoint_singleton.mpr h) })

def ofVendor (rfpId : String) (vendorId : VendorId) (job : JobRow) : Bool :=
  job.rfpId = rfpId && job.vendorId = vendorId

def supersedePriorReceived (rfpId : String) (vendorId : VendorId) (newJobId : String)
    (jobs : Jobs) : Jobs :=
  jobs.updateWhere
    (fun job => ofVendor rfpId vendorId job && job.status = .received && job.jobId ≠ newJobId)
    (fun job => { job with status := .superseded, supersededBy := some newJobId })
    (fun _ => rfl) (fun _ => rfl)

theorem mem_updateWhere {jobs : Jobs} {p : JobRow → Bool} {f : JobRow → JobRow}
    {hid : ∀ job, (f job).jobId = job.jobId} {hkey : ∀ job, (f job).hashKey = job.hashKey}
    {job : JobRow} :
    job ∈ jobs.updateWhere p f hid hkey ↔ ∃ old ∈ jobs, (if p old then f old else old) = job :=
  List.mem_map

theorem enqueueIngestionJob_of_taken {job : NewJob} {jobs : Jobs}
    (h : ∃ row ∈ jobs, row.hashKey = job.hashKey) :
    enqueueIngestionJob job jobs = (none, jobs) :=
  dif_pos (List.mem_map.mpr h)

theorem enqueueIngestionJob_of_free {job : NewJob} {jobs : Jobs}
    (h : ∀ row ∈ jobs, row.hashKey ≠ job.hashKey) :
    ∃ jobs', enqueueIngestionJob job jobs = (some (genRandomUuid jobs), jobs') ∧
      (∀ row, row ∈ jobs' ↔ row ∈ jobs ∨ row = job.row (genRandomUuid jobs)) ∧
      ∀ row ∈ jobs, row.jobId ≠ genRandomUuid jobs := by
  refine ⟨_, dif_neg (fun hmem => ?_), fun row => ?_, fun row hrow hid => ?_⟩
  · obtain ⟨row, hrow, hkey⟩ := List.mem_map.mp hmem
    exact h row hrow hkey
  · change row ∈ jobs.table.rows ++ [job.row (genRandomUuid jobs)] ↔ _
    rw [List.mem_append, List.mem_singleton]
    rfl
  · exact genRandomUuid_fresh jobs (List.mem_map.mpr ⟨row, hrow, hid⟩)

theorem mem_of_mem_enqueue {job : NewJob} {jobs : Jobs} {row : JobRow}
    (h : row ∈ (enqueueIngestionJob job jobs).2) :
    row ∈ jobs ∨ row = job.row (genRandomUuid jobs) := by
  by_cases hfree : ∀ row ∈ jobs, row.hashKey ≠ job.hashKey
  · obtain ⟨jobs', henqueue, hmem, _⟩ := enqueueIngestionJob_of_free hfree
    rw [henqueue] at h
    exact (hmem row).mp h
  · obtain ⟨taken, htaken⟩ := not_forall.mp hfree
    obtain ⟨hmem, hkey⟩ := Classical.not_imp.mp htaken
    rw [enqueueIngestionJob_of_taken ⟨taken, hmem, not_not.mp hkey⟩] at h
    exact Or.inl h

end JobWrites

section Intake

/-- A file in the drop folder, with the parts of its path below the root of the folder. A path
outside the root has none. -/
structure Drop where
  parts : Option (List String)
  name : String
  uri : String
  content : Content

structure IngestionResult where
  status : String
  jobId : Option String
  rfpId : Option String
  vendorId : Option VendorId
  reason : String
  deriving DecidableEq

def parseDropPath : Option (List String) → Option (String × Option VendorId)
  | some [rfpId, _] => some (rfpId, none)
  | some (rfpId :: vendorId :: _ :: _) => some (rfpId, some vendorId)
  | _ => none

def getRfpLifecycle (rfpId : String) (tables : Tables) : Option Rfp := tables.rfps.lookup rfpId

def isInvitedVendor (rfpId : String) (vendorId : VendorId) (tables : Tables) : Bool :=
  (rfpId, vendorId) ∈ tables.invitedVendors

def unknownVendor : VendorId := "_unknown_"

/-- The row that a dropped file is entered with, and the reason that goes with it. -/
def dropRow (sha256OfFile : Content → String) (drop : Drop) (rfp : Rfp) (vendorId : VendorId)
    (status : EntryStatus) : NewJob where
  orgId := rfp.orgId
  rfpId := rfp.rfpId
  vendorId := vendorId
  contentHash := sha256OfFile drop.content
  filename := drop.name
  sourceUri := drop.uri
  status := status

/-- The lifecycle and deadline check. `none` lets the file pass. -/
def lifecycleGate (now : Nat) (rfp : Rfp) : Option String :=
  if rfp.submissionStatus ≠ .opened then
    some s!"submission_status={rfp.submissionStatus.value}"
  else if rfp.submissionDeadline.any (fun deadline => deadline < now) then some "past deadline"
  else none

/-- The status under which an admitted file is entered. -/
def attribution (vendorId : Option VendorId) (invited : Bool) : EntryStatus × String :=
  match vendorId with
  | none => (.needsAttribution, "file dropped at rfp_id root; requires LLM attribution")
  | some _ =>
      if invited then (.received, "received")
      else (.needsAttribution, "vendor_id not in invited_vendors")

/-- `_enqueue_terminal` -/
def enqueueTerminal (job : NewJob) (reason : String) (tables : Tables) :
    IngestionResult × Tables :=
  let (jobId, jobs) := enqueueIngestionJob job tables.jobs
  (⟨jobStatusValue job.status.jobStatus, jobId, some job.rfpId,
      if job.vendorId ≠ unknownVendor then some job.vendorId else none, reason⟩,
    { tables with jobs := jobs })

def priorReceived (rfpId : String) (vendorId : VendorId) (newJobId : String) (jobs : Jobs) :
    List JobRow :=
  jobs.table.rows.filter
    (fun job => ofVendor rfpId vendorId job && job.status = .received && job.jobId ≠ newJobId)

/-- `_ingest_received` -/
def ingestReceived (job : NewJob) (tables : Tables) : IngestionResult × Tables :=
  match enqueueIngestionJob job tables.jobs with
  | (none, jobs) =>
      (⟨"duplicate", none, some job.rfpId, some job.vendorId,
          "identical content_hash already received"⟩, { tables with jobs := jobs })
  | (some jobId, jobs) =>
      let superseded := (priorReceived job.rfpId job.vendorId jobId jobs).length
      (⟨"received", some jobId, some job.rfpId, some job.vendorId,
          if superseded = 0 then "received" else s!"received (superseded {superseded} prior)"⟩,
        { tables with jobs := supersedePriorReceived job.rfpId job.vendorId jobId jobs })

def handleDroppedFile (sha256OfFile : Content → String) (now : Nat) (drop : Drop)
    (tables : Tables) : IngestionResult × Tables :=
  match parseDropPath drop.parts with
  | none => (⟨"ignored", none, none, none, "path outside drops_root"⟩, tables)
  | some (rfpId, vendorId) =>
      match getRfpLifecycle rfpId tables with
      | none =>
          (⟨"needs_attribution", none, some rfpId, vendorId, "rfp_id has no rfps row"⟩, tables)
      | some rfp =>
          let row := dropRow sha256OfFile drop rfp (vendorId.getD unknownVendor)
          match lifecycleGate now rfp with
          | some reason => enqueueTerminal (row .rejectedLate) reason tables
          | none =>
              let invited := vendorId.any (fun v => isInvitedVendor rfpId v tables)
              let (status, reason) := attribution vendorId invited
              if status = .received then ingestReceived (row .received) tables
              else enqueueTerminal (row status) reason tables

end Intake

section Administration

def createRfp (rfp : Rfp) (tables : Tables) : Option Tables :=
  (tables.rfps.insert? { rfp with submissionStatus := .opened }).map
    (fun rfps => { tables with rfps := rfps })

def inviteVendor (rfpId : String) (vendorId : VendorId) (tables : Tables) : Tables :=
  if isInvitedVendor rfpId vendorId tables then tables
  else { tables with invitedVendors := tables.invitedVendors ++ [(rfpId, vendorId)] }

def Tables.updateRfps (tables : Tables) (p : Rfp → Bool) (f : Rfp → Rfp)
    (hf : ∀ rfp, (f rfp).rfpId = rfp.rfpId) : Tables :=
  { tables with rfps := tables.rfps.updateWhere p f hf }

def setDeadline (rfpId : String) (deadline : Option Nat) (tables : Tables) : Tables :=
  tables.updateRfps (fun rfp => rfp.rfpId = rfpId && rfp.submissionStatus = .opened)
    (fun rfp => { rfp with submissionDeadline := deadline }) (fun _ => rfl)

/-- `platform.ingestion.safe_id_pattern` -/
def isSafeId (value : String) : Bool :=
  0 < value.length && value.length ≤ 128 &&
    value.toList.all (fun c => c.isAlphanum || c = '.' || c = '_' || c = '-')

def ensureSafeId (value label : String) : Except Exn Unit :=
  raiseIf (isSafeId value = false)
    (httpError 400 (s!"Invalid {label}: must match " ++ "^[A-Za-z0-9._\\-]\x7b1,128\x7d$"))

/-- `_require_admin_attribution_role` -/
def requireAdminAttributionRole (user : TokenData) : Except Exn Unit :=
  raiseIf (user.role ∉ writeRoles) (httpError 403 "Insufficient role")

structure AssignVendorRequest where
  vendorId : VendorId
  inviteIfMissing : Bool

/-- What `assign_attribution` reads before it writes. -/
def assignCheck (user : TokenData) (jobId : String) (body : AssignVendorRequest)
    (tables : Tables) : Except Exn Rfp := do
  requireAdminAttributionRole user
  ensureSafeId body.vendorId "vendor_id"
  let job ← orRaise (tables.jobs.table.lookup jobId) (httpError 404 "Job not found")
  raiseIf (job.orgId ≠ user.orgId) (httpError 404 "Job not found")
  raiseIf (job.status ≠ .needsAttribution) (httpError 409
    s!"Job is {jobStatusValue job.status}; only needs_attribution can be assigned.")
  let rfp ← orRaise (getRfpLifecycle job.rfpId tables) (httpError 409 "RFP no longer exists")
  raiseIf (isInvitedVendor job.rfpId body.vendorId tables = false ∧ body.inviteIfMissing = false)
    (httpError 409 (s!"vendor_id '{body.vendorId}' is not invited."))
  .ok rfp

def assignedStatus (rfp : Rfp) : JobStatus :=
  if rfp.submissionStatus = .opened then .received else .queued

/-- The update of `assign_attribution`, under the unique constraint. -/
def assignWrite (jobId : String) (vendorId : VendorId) (status : JobStatus) (jobs : Jobs) :
    Except Exn Jobs :=
  let table := jobs.table.updateWhere
    (fun job => job.jobId = jobId && job.status = .needsAttribution)
    (fun job => { job with vendorId := vendorId, status := status, error := none }) (fun _ => rfl)
  if h : (table.rows.map JobRow.hashKey).Nodup then .ok ⟨table, h⟩
  else .error ⟨.integrityError, "duplicate key value violates unique constraint " ++
    "\"ingestion_jobs_rfp_id_vendor_id_content_hash_key\""⟩

theorem mem_of_assignWrite {jobId : String} {vendorId : VendorId} {status : JobStatus}
    {jobs jobs' : Jobs} (h : assignWrite jobId vendorId status jobs = .ok jobs') (new : JobRow) :
    new ∈ jobs' ↔ ∃ old ∈ jobs,
      (if old.jobId = jobId && old.status = .needsAttribution then
        { old with vendorId := vendorId, status := status, error := none } else old) = new := by
  unfold assignWrite at h
  dsimp only at h
  split at h
  · cases h
    exact List.mem_map
  · cases h

def acceptLateAddendum (orgId jobId : String) (jobs : Jobs) : Jobs :=
  jobs.updateWhere
    (fun job => job.jobId = jobId && job.status = .rejectedLate && job.orgId = orgId)
    (fun job => { job with status := .queued, error := none }) (fun _ => rfl) (fun _ => rfl)

end Administration

section Scheduler

def closeExpiredRfps (now : Nat) (tables : Tables) : Tables :=
  tables.updateRfps
    (fun rfp => rfp.submissionStatus = .opened &&
      rfp.submissionDeadline.any (fun deadline => deadline < now) && rfp.autonomyMode ≠ .manual)
    (fun rfp => { rfp with submissionStatus := .closed }) (fun _ => rfl)

/-- The requests for proposals that `_queue_received_jobs` selects. -/
def closedRfps (tables : Tables) : List Rfp :=
  tables.rfps.rows.filter
    (fun rfp => rfp.submissionStatus = .closed && rfp.autonomyMode ≠ .manual)

def receivedJobs (rfpId : String) (jobs : Jobs) : List String :=
  (jobs.table.rows.filter (fun job => job.rfpId = rfpId && job.status = .received)).map
    (fun job => job.jobId)

def queueJobs (ids : List String) (jobs : Jobs) : Jobs :=
  jobs.updateWhere (fun job => job.jobId ∈ ids && job.status = .received)
    (fun job => { job with status := .queued }) (fun _ => rfl) (fun _ => rfl)

def startProcessing (rfpId : String) (tables : Tables) : Tables :=
  tables.updateRfps (fun rfp => rfp.rfpId = rfpId && rfp.submissionStatus = .closed)
    (fun rfp => { rfp with submissionStatus := .processing }) (fun _ => rfl)

/-- The two updates of `_queue_received_jobs` for one request for proposals. -/
def queueRfp (rfpId : String) (ids : List String) (tables : Tables) : Tables :=
  startProcessing rfpId { tables with jobs := queueJobs ids tables.jobs }

def queueReceivedJobs (tables : Tables) : Tables :=
  (closedRfps tables).foldl
    (fun tables rfp => queueRfp rfp.rfpId (receivedJobs rfp.rfpId tables.jobs) tables) tables

def listQueuedJobs (jobs : Jobs) : List String :=
  (jobs.table.rows.filter (fun job => job.status = .queued)).map (fun job => job.jobId)

def claimForProcessing (jobId : String) (jobs : Jobs) : Jobs :=
  jobs.updateWhere (fun job => job.jobId = jobId && job.status = .queued)
    (fun job => { job with status := .processing }) (fun _ => rfl) (fun _ => rfl)

def markFactsReady (jobId docId : String) (jobs : Jobs) : Jobs :=
  jobs.updateWhere (fun job => job.jobId = jobId)
    (fun job => { job with status := .factsReady, docId := some docId }) (fun _ => rfl)
    (fun _ => rfl)

def markFailed (jobId reason : String) (jobs : Jobs) : Jobs :=
  jobs.updateWhere (fun job => job.jobId = jobId)
    (fun job => { job with status := .failed, error := some (prefixOf 1000 reason) })
    (fun _ => rfl) (fun _ => rfl)

def isOpenJob (job : JobRow) : Bool :=
  job.status = .received || job.status = .queued || job.status = .processing

/-- The counts of `_finalize_completed_rfps` let the request for proposals advance. -/
def completed (rfpId : String) (jobs : Jobs) : Bool :=
  (jobs.table.rows.countP (fun job => job.rfpId = rfpId && isOpenJob job) = 0) &&
    (0 < jobs.table.rows.countP (fun job => job.rfpId = rfpId && job.status = .factsReady))

def flipFactsReady (rfpId : String) (tables : Tables) : Tables :=
  tables.updateRfps (fun rfp => rfp.rfpId = rfpId && rfp.submissionStatus = .processing)
    (fun rfp => { rfp with submissionStatus := .factsReady }) (fun _ => rfl)

def lifecycleEvent (rfp : Rfp) : LifecycleEvent :=
  if rfp.autonomyMode = .autoToReport then
    ⟨"rfp.evaluation_failed", rfp.orgId, rfp.rfpId,
      [("reason", "Phase 7 PDF not yet implemented")]⟩
  else ⟨"rfp.facts_ready", rfp.orgId, rfp.rfpId, [("autonomy_mode", rfp.autonomyMode.value)]⟩

end Scheduler

end RfpPlatform.Submissions
