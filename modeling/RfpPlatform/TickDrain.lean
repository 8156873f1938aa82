import RfpPlatform.FactsReadySound

namespace RfpPlatform.TickDrain

open ExceptRules FactsReadySound Submissions
open Ingestion (Content)

section OnePass

/-- A tick takes up what a customer does not drive and what is closed, or open past its deadline. -/
def isDue (now : Nat) (rfp : Rfp) : Bool :=
  rfp.autonomyMode ≠ .manual && (rfp.submissionStatus = .closed ||
    rfp.submissionStatus = .opened && rfp.submissionDeadline.any (fun deadline => deadline < now))

def dueIds (now : Nat) (tables : Tables) : List String :=
  (tables.rfps.rows.filter (isDue now)).map Rfp.rfpId

def isTaken (now : Nat) (tables : Tables) (job : JobRow) : Bool :=
  job.status = .queued || job.status = .received && decide (job.rfpId ∈ dueIds now tables)

def finished (outcome : JobOutcome) (job : JobRow) : JobRow :=
  match outcome with
  | .ready docId => { job with status := .factsReady, docId := some docId }
  | .failed reason => { job with status := .failed, error := some (PyText.prefixOf 1000 reason) }
  | .lost => { job with status := .processing }

def jobAfter (run : TickRun) (now : Nat) (tables : Tables) (job : JobRow) : JobRow :=
  if isTaken now tables job then finished (run.outcome job.jobId) job else job

def loses (run : TickRun) (now : Nat) (tables : Tables) : Bool :=
  tables.jobs.table.rows.any fun job => isTaken now tables job && run.outcome job.jobId = .lost

def startedRfp (now : Nat) (rfp : Rfp) : Rfp :=
  if isDue now rfp then { rfp with submissionStatus := .processing } else rfp

/-- The tick completes the request for proposals, with the jobs as it leaves them. -/
def isWon (run : TickRun) (now : Nat) (tables : Tables) (jobs : Jobs) (rfp : Rfp) : Bool :=
  !loses run now tables && (startedRfp now rfp).submissionStatus = .processing &&
    completed rfp.rfpId jobs

def rfpAfter (run : TickRun) (now : Nat) (tables : Tables) (jobs : Jobs) (rfp : Rfp) : Rfp :=
  if isWon run now tables jobs rfp then { rfp with submissionStatus := .factsReady }
  else startedRfp now rfp

end OnePass

section Steps

variable {tables : Tables} {jobs : Jobs} {now : Nat} {run : TickRun} {rfpIds jobIds : List String}
  {outcome : String → JobOutcome}

theorem mem_receivedJobs {rfpId : String} {job : JobRow} (hjob : job ∈ jobs) :
    job.jobId ∈ receivedJobs rfpId jobs ↔ job.rfpId = rfpId ∧ job.status = .received := by
  rw [receivedJobs, List.mem_map]
  constructor
  · rintro ⟨other, hother, hid⟩
    obtain ⟨hmem, hp⟩ := List.mem_filter.mp hother
    obtain rfl : other = job := KeyedTable.eq_of_key_eq hmem hjob hid
    simpa using hp
  · intro h
    exact ⟨job, List.mem_filter.mpr ⟨hjob, by simp [h]⟩, rfl⟩

/-- The jobs as `_queue_received_jobs` leaves them for a list of requests for proposals. -/
def queuedJob (rfpIds : List String) (job : JobRow) : JobRow :=
  if job.status = .received ∧ job.rfpId ∈ rfpIds then { job with status := .queued } else job

def startedIn (rfpIds : List String) (rfp : Rfp) : Rfp :=
  if rfp.submissionStatus = .closed ∧ rfp.rfpId ∈ rfpIds then
    { rfp with submissionStatus := .processing } else rfp

theorem rows_queueRfp (rfpId : String) :
    (queueRfp rfpId (receivedJobs rfpId tables.jobs) tables).jobs.table.rows =
        tables.jobs.table.rows.map (queuedJob [rfpId]) ∧
      (queueRfp rfpId (receivedJobs rfpId tables.jobs) tables).rfps.rows =
        tables.rfps.rows.map (startedIn [rfpId]) := by
  constructor
  · refine List.map_congr_left fun job hjob => ?_
    simp only [Bool.and_eq_true, decide_eq_true_eq, mem_receivedJobs hjob, queuedJob,
      List.mem_singleton]
    exact if_congr (by tauto) rfl rfl
  · refine List.map_congr_left fun rfp _ => ?_
    simp only [Bool.and_eq_true, decide_eq_true_eq, startedIn, List.mem_singleton]
    exact if_congr and_comm rfl rfl

theorem queuedJob_queuedJob (rfpId : String) (job : JobRow) :
    queuedJob rfpIds (queuedJob [rfpId] job) = queuedJob (rfpId :: rfpIds) job := by
  by_cases hstatus : job.status = .received
  · by_cases hid : job.rfpId = rfpId
    · simp [queuedJob, hstatus, hid]
    · simp [queuedJob, hstatus, hid]
  · simp [queuedJob, hstatus]

theorem startedIn_startedIn (rfpId : String) (rfp : Rfp) :
    startedIn rfpIds (startedIn [rfpId] rfp) = startedIn (rfpId :: rfpIds) rfp := by
  by_cases hstatus : rfp.submissionStatus = .closed
  · by_cases hid : rfp.rfpId = rfpId
    · simp [startedIn, hstatus, hid]
    · simp [startedIn, hstatus, hid]
  · simp [startedIn, hstatus]

theorem rows_foldl_queueRfp (rfps : List Rfp) (tables : Tables) :
    (rfps.foldl (fun tables rfp => queueRfp rfp.rfpId (receivedJobs rfp.rfpId tables.jobs) tables)
        tables).jobs.table.rows = tables.jobs.table.rows.map (queuedJob (rfps.map Rfp.rfpId)) ∧
      (rfps.foldl (fun tables rfp => queueRfp rfp.rfpId (receivedJobs rfp.rfpId tables.jobs) tables)
        tables).rfps.rows = tables.rfps.rows.map (startedIn (rfps.map Rfp.rfpId)) := by
  induction rfps generalizing tables with
  | nil =>
      constructor
      · exact (List.map_id'' (fun job => if_neg (by simp)) _).symm
      · exact (List.map_id'' (fun rfp => if_neg (by simp)) _).symm
  | cons rfp rfps ih =>
      obtain ⟨hjobs, hrfps⟩ := ih (queueRfp rfp.rfpId (receivedJobs rfp.rfpId tables.jobs) tables)
      obtain ⟨hjobs', hrfps'⟩ := @rows_queueRfp tables rfp.rfpId
      constructor
      · rw [List.foldl_cons, hjobs, hjobs', List.map_map]
        exact List.map_congr_left fun job _ => queuedJob_queuedJob rfp.rfpId job
      · rw [List.foldl_cons, hrfps, hrfps', List.map_map]
        exact List.map_congr_left fun rfp' _ => startedIn_startedIn rfp.rfpId rfp'

def closedRow (now : Nat) (rfp : Rfp) : Rfp :=
  if rfp.submissionStatus = .opened &&
      rfp.submissionDeadline.any (fun deadline => deadline < now) && rfp.autonomyMode ≠ .manual then
    { rfp with submissionStatus := .closed } else rfp

theorem closedRow_of_due {rfp : Rfp} (h : isDue now rfp = true) :
    closedRow now rfp = { rfp with submissionStatus := .closed } := by
  simp only [isDue, Bool.and_eq_true, Bool.or_eq_true, decide_eq_true_eq] at h
  obtain ⟨hmode, hclosed | ⟨hopen, hover⟩⟩ := h
  · rw [closedRow, if_neg (by simp [hclosed]), ← hclosed]
  · rw [closedRow, if_pos (by simp [hmode, hopen, hover])]

theorem closedRow_of_not_due {rfp : Rfp} (h : isDue now rfp = false) : closedRow now rfp = rfp := by
  refine if_neg fun hclose => ?_
  simp only [Bool.and_eq_true, decide_eq_true_eq] at hclose
  obtain ⟨⟨hopen, hover⟩, hmode⟩ := hclose
  simp [isDue, hopen, hover, hmode] at h

/-- The requests for proposals that are closed once the overdue ones are. -/
theorem ids_closedRfps :
    (closedRfps (closeExpiredRfps now tables)).map Rfp.rfpId = dueIds now tables := by
  have hrows : (closeExpiredRfps now tables).rfps.rows = tables.rfps.rows.map (closedRow now) := rfl
  have hdue : ∀ rfp, ((closedRow now rfp).submissionStatus = .closed &&
      (closedRow now rfp).autonomyMode ≠ .manual) = isDue now rfp := by
    intro rfp
    cases hdue : isDue now rfp with
    | true =>
        have hmode : rfp.autonomyMode ≠ .manual := by
          simp only [isDue, Bool.and_eq_true, decide_eq_true_eq] at hdue
          exact hdue.1
        rw [closedRow_of_due hdue]
        simp [hmode]
    | false =>
        rw [closedRow_of_not_due hdue]
        by_contra hclosed
        simp only [Bool.not_eq_false, Bool.and_eq_true, decide_eq_true_eq] at hclosed
        simp [isDue, hclosed.1, hclosed.2] at hdue
  have hid : ∀ rfp, (closedRow now rfp).rfpId = rfp.rfpId := by
    intro rfp
    rw [closedRow]
    split <;> rfl
  rw [closedRfps, hrows, List.filter_map, List.map_map, dueIds]
  refine (List.map_congr_left fun rfp _ => hid rfp).trans ?_
  exact congrArg _ (List.filter_congr fun rfp _ => hdue rfp)

theorem mem_dueIds {rfp : Rfp} (hrfp : rfp ∈ tables.rfps) :
    rfp.rfpId ∈ dueIds now tables ↔ isDue now rfp = true := by
  rw [dueIds, List.mem_map]
  constructor
  · rintro ⟨other, hother, hid⟩
    obtain ⟨hmem, hdue⟩ := List.mem_filter.mp hother
    rwa [KeyedTable.eq_of_key_eq hmem hrfp hid] at hdue
  · exact fun hdue => ⟨rfp, List.mem_filter.mpr ⟨hrfp, hdue⟩, rfl⟩

/-- What a tick has done before it lists the queued jobs. -/
theorem rows_queueReceivedJobs :
    (queueReceivedJobs (closeExpiredRfps now tables)).jobs.table.rows =
        tables.jobs.table.rows.map (queuedJob (dueIds now tables)) ∧
      (queueReceivedJobs (closeExpiredRfps now tables)).rfps.rows =
        tables.rfps.rows.map (startedRfp now) := by
  obtain ⟨hjobs, hrfps⟩ := rows_foldl_queueRfp (closedRfps (closeExpiredRfps now tables))
    (closeExpiredRfps now tables)
  rw [ids_closedRfps] at hjobs hrfps
  refine ⟨hjobs, hrfps.trans ?_⟩
  change (tables.rfps.rows.map (closedRow now)).map (startedIn (dueIds now tables)) = _
  rw [List.map_map]
  refine List.map_congr_left fun rfp hrfp => ?_
  change startedIn _ (closedRow now rfp) = _
  cases hdue : isDue now rfp with
  | true =>
      rw [closedRow_of_due hdue, startedIn, if_pos ⟨rfl, (mem_dueIds hrfp).mpr hdue⟩, startedRfp,
        if_pos hdue]
  | false =>
      have hnot : rfp.rfpId ∉ dueIds now tables := fun hmem => by
        rw [mem_dueIds hrfp, hdue] at hmem
        cases hmem
      rw [closedRow_of_not_due hdue, startedIn, if_neg fun h => hnot h.2, startedRfp,
        if_neg (by rw [hdue]; exact Bool.false_ne_true)]

theorem rows_complete_claim {jobId : String} (o : JobOutcome)
    (hqueued : ∀ job ∈ jobs, job.jobId = jobId → job.status = .queued) :
    (complete jobId o (claimForProcessing jobId jobs)).table.rows =
      jobs.table.rows.map fun job => if job.jobId = jobId then finished o job else job := by
  have hclaim : (claimForProcessing jobId jobs).table.rows =
      jobs.table.rows.map fun job => if job.jobId = jobId then { job with status := .processing }
        else job := by
    refine List.map_congr_left fun job hjob => ?_
    by_cases hid : job.jobId = jobId
    · rw [if_pos hid, if_pos (by simp [hid, hqueued job hjob hid])]
    · rw [if_neg hid, if_neg (by simp [hid])]
  cases o with
  | ready docId =>
      change (claimForProcessing jobId jobs).table.rows.map _ = _
      rw [hclaim, List.map_map]
      refine List.map_congr_left fun job _ => ?_
      by_cases hid : job.jobId = jobId
      · simp [hid, finished]
      · simp [hid]
  | failed reason =>
      change (claimForProcessing jobId jobs).table.rows.map _ = _
      rw [hclaim, List.map_map]
      refine List.map_congr_left fun job _ => ?_
      by_cases hid : job.jobId = jobId
      · simp [hid, finished]
      · simp [hid]
  | lost => exact hclaim

theorem finished_jobId (o : JobOutcome) (job : JobRow) : (finished o job).jobId = job.jobId := by
  cases o with
  | ready docId | failed reason | lost => rfl

theorem finished_rfpId (o : JobOutcome) (job : JobRow) : (finished o job).rfpId = job.rfpId := by
  cases o with
  | ready docId | failed reason | lost => rfl

/-- The jobs run one after the other, each on its own row. -/
theorem rows_processJobs (hnodup : jobIds.Nodup)
    (hqueued : ∀ job ∈ jobs, job.jobId ∈ jobIds → job.status = .queued) :
    (processJobs outcome jobIds jobs).table.rows = jobs.table.rows.map fun job =>
      if job.jobId ∈ jobIds then finished (outcome job.jobId) job else job := by
  induction jobIds generalizing jobs with
  | nil => exact (List.map_id'' (fun job => if_neg List.not_mem_nil) _).symm
  | cons jobId jobIds ih =>
      obtain ⟨hfresh, hnodup⟩ := List.nodup_cons.mp hnodup
      have hstep := rows_complete_claim (outcome jobId)
        fun job hjob hid => hqueued job hjob (hid ▸ List.mem_cons_self)
      have hrest : ∀ job ∈ complete jobId (outcome jobId) (claimForProcessing jobId jobs),
          job.jobId ∈ jobIds → job.status = .queued := by
        intro job hjob hmem
        rw [show (job ∈ complete jobId (outcome jobId) (claimForProcessing jobId jobs)) =
          (job ∈ jobs.table.rows.map fun job => if job.jobId = jobId then
            finished (outcome jobId) job else job) from congrArg (job ∈ ·) hstep] at hjob
        obtain ⟨old, hold, rfl⟩ := List.mem_map.mp hjob
        by_cases hid : old.jobId = jobId
        · rw [if_pos hid, finished_jobId, hid] at hmem
          exact absurd hmem hfresh
        · rw [if_neg hid] at hmem ⊢
          exact hqueued old hold (List.mem_cons_of_mem _ hmem)
      rw [processJobs, List.foldl_cons, ← processJobs, ih hnodup hrest, hstep, List.map_map]
      refine List.map_congr_left fun job _ => ?_
      by_cases hid : job.jobId = jobId
      · simp [hid, finished_jobId, hfresh]
      · simp [hid]

/-- What the loop of `_finalize_completed_rfps` makes of a row. -/
def wonIn (rfps : List Rfp) (jobs : Jobs) (rfp : Rfp) : Rfp :=
  if rfp.submissionStatus = .processing ∧ rfp.rfpId ∈ rfps.map Rfp.rfpId ∧
      completed rfp.rfpId jobs = true then
    { rfp with submissionStatus := .factsReady } else rfp

theorem finalizeRfp_eq (acc : Tables × List Rfp) (rfp : Rfp) :
    (finalizeRfp acc rfp).1 = { acc.1 with rfps := (finalizeRfp acc rfp).1.rfps } ∧
    (finalizeRfp acc rfp).1.rfps.rows = acc.1.rfps.rows.map (wonIn [rfp] acc.1.jobs) ∧
    (finalizeRfp acc rfp).2 = acc.2 ++ [rfp].filter fun rfp => completed rfp.rfpId acc.1.jobs := by
  cases hdone : completed rfp.rfpId acc.1.jobs with
  | true =>
      rw [finalizeRfp, if_pos hdone]
      refine ⟨rfl, ?_, by simp [hdone]⟩
      refine List.map_congr_left fun other _ => ?_
      by_cases hid : other.rfpId = rfp.rfpId
      · simp [wonIn, hid, hdone]
      · simp [wonIn, hid]
  | false =>
      rw [finalizeRfp, if_neg (by rw [hdone]; exact Bool.false_ne_true)]
      refine ⟨rfl, ?_, by simp [hdone]⟩
      refine (List.map_id'' (fun other => if_neg ?_) _).symm
      rintro ⟨_, hid, hother⟩
      rw [List.mem_singleton.mp hid, hdone] at hother
      cases hother

theorem wonIn_wonIn (rfp : Rfp) (rfps : List Rfp) (other : Rfp) :
    wonIn rfps jobs (wonIn [rfp] jobs other) = wonIn (rfp :: rfps) jobs other := by
  by_cases hwon : wonIn [rfp] jobs other = other
  · rw [hwon]
    refine if_congr ⟨fun h => ⟨h.1, List.mem_cons_of_mem _ h.2.1, h.2.2⟩, fun h => ?_⟩ rfl rfl
    refine ⟨h.1, (List.mem_cons.mp h.2.1).resolve_left fun hid => ?_, h.2.2⟩
    rw [wonIn, if_pos ⟨h.1, by simp [hid], h.2.2⟩] at hwon
    have hready : SubmissionStatus.factsReady = other.submissionStatus :=
      congrArg Rfp.submissionStatus hwon
    rw [h.1] at hready
    cases hready
  · obtain ⟨hstatus, hid, hdone⟩ : other.submissionStatus = .processing ∧
        other.rfpId ∈ [rfp].map Rfp.rfpId ∧ completed other.rfpId jobs = true :=
      not_not.mp fun h => hwon (if_neg h)
    have hin : other.rfpId ∈ (rfp :: rfps).map Rfp.rfpId :=
      List.mem_cons.mpr (Or.inl (List.mem_singleton.mp hid))
    have hflip : wonIn [rfp] jobs other = { other with submissionStatus := .factsReady } :=
      if_pos ⟨hstatus, hid, hdone⟩
    rw [hflip, wonIn, if_neg (by simp), wonIn, if_pos ⟨hstatus, hin, hdone⟩]

theorem foldl_finalizeRfp (rfps : List Rfp) (acc : Tables × List Rfp) :
    (rfps.foldl finalizeRfp acc).1 = { acc.1 with rfps := (rfps.foldl finalizeRfp acc).1.rfps } ∧
    (rfps.foldl finalizeRfp acc).1.rfps.rows = acc.1.rfps.rows.map (wonIn rfps acc.1.jobs) ∧
    (rfps.foldl finalizeRfp acc).2 =
      acc.2 ++ rfps.filter fun rfp => completed rfp.rfpId acc.1.jobs := by
  induction rfps generalizing acc with
  | nil => exact ⟨rfl, (List.map_id'' (fun rfp => if_neg (by simp)) _).symm, by simp⟩
  | cons rfp rfps ih =>
      obtain ⟨hframe, hrows, hwon⟩ := finalizeRfp_eq acc rfp
      obtain ⟨hframe', hrows', hwon'⟩ := ih (finalizeRfp acc rfp)
      have hjobs : (finalizeRfp acc rfp).1.jobs = acc.1.jobs := by rw [hframe]
      rw [List.foldl_cons]
      refine ⟨?_, ?_, ?_⟩
      · rw [hframe']
        rw [hframe]
      · rw [hrows', hjobs, hrows, List.map_map]
        exact List.map_congr_left fun other _ => wonIn_wonIn rfp rfps other
      · rw [hwon', hwon, hjobs, List.append_assoc, ← List.filter_append]
        rfl

def isComplete (jobs : Jobs) (rfp : Rfp) : Bool :=
  rfp.submissionStatus = .processing && completed rfp.rfpId jobs

theorem finalizeCompletedRfps_exact (delivered : Nat) (tables : Tables) :
    (finalizeCompletedRfps delivered tables).jobs = tables.jobs ∧
    (finalizeCompletedRfps delivered tables).rfps.rows = tables.rfps.rows.map (fun rfp =>
      if isComplete tables.jobs rfp then { rfp with submissionStatus := .factsReady } else rfp) ∧
    (finalizeCompletedRfps delivered tables).eventLog = tables.eventLog ++
      ((tables.rfps.rows.filter (isComplete tables.jobs)).take delivered).map lifecycleEvent ∧
    (finalizeCompletedRfps delivered tables).invitedVendors = tables.invitedVendors := by
  obtain ⟨hframe, hrows, hwon⟩ := foldl_finalizeRfp
    (tables.rfps.rows.filter fun rfp => rfp.submissionStatus = .processing) (tables, [])
  have hjobs := congrArg Tables.jobs hframe
  have hlog := congrArg Tables.eventLog hframe
  have hinvited := congrArg Tables.invitedVendors hframe
  refine ⟨hjobs, hrows.trans ?_, ?_, hinvited⟩
  · refine List.map_congr_left fun rfp hrfp => ?_
    refine if_congr ?_ rfl rfl
    rw [isComplete, Bool.and_eq_true, decide_eq_true_eq]
    refine ⟨fun h => ⟨h.1, h.2.2⟩, fun h => ⟨h.1, ?_, h.2⟩⟩
    exact List.mem_map_of_mem (List.mem_filter.mpr ⟨hrfp, decide_eq_true h.1⟩)
  · have hfilter : (tables.rfps.rows.filter fun rfp => rfp.submissionStatus = .processing).filter
        (fun rfp => completed rfp.rfpId tables.jobs) =
        tables.rfps.rows.filter (isComplete tables.jobs) := by
      rw [List.filter_filter]
      exact List.filter_congr fun rfp _ => Bool.and_comm _ _
    exact congrArg₂ (fun log won => log ++ (List.take delivered won).map lifecycleEvent) hlog
      (hwon.trans hfilter)

end Steps

section Exact

variable {tables : Tables} {now : Nat} {run : TickRun} {jobs : Jobs} {rfp : Rfp} {job : JobRow}

theorem queuedJob_status :
    (queuedJob (dueIds now tables) job).status = .queued ↔ isTaken now tables job = true := by
  by_cases hreceived : job.status = .received ∧ job.rfpId ∈ dueIds now tables
  · rw [queuedJob, if_pos hreceived]
    simp [isTaken, hreceived.1, hreceived.2]
  · rw [queuedJob, if_neg hreceived]
    simp only [isTaken, Bool.or_eq_true, Bool.and_eq_true, decide_eq_true_eq]
    exact ⟨Or.inl, fun h => h.resolve_right hreceived⟩

theorem finished_queuedJob (o : JobOutcome) (rfpIds : List String) :
    finished o (queuedJob rfpIds job) = finished o job := by
  rw [queuedJob]
  split
  · cases o with
    | ready docId | failed reason | lost => rfl
  · rfl

theorem queuedJob_jobId (rfpIds : List String) : (queuedJob rfpIds job).jobId = job.jobId := by
  rw [queuedJob]
  split <;> rfl

theorem mem_listQueuedJobs (hjob : job ∈ jobs) :
    job.jobId ∈ listQueuedJobs jobs ↔ job.status = .queued := by
  rw [listQueuedJobs, List.mem_map]
  constructor
  · rintro ⟨other, hother, hid⟩
    obtain ⟨hmem, hqueued⟩ := List.mem_filter.mp hother
    rw [← KeyedTable.eq_of_key_eq hmem hjob hid]
    exact of_decide_eq_true hqueued
  · exact fun hqueued => ⟨job, List.mem_filter.mpr ⟨hjob, decide_eq_true hqueued⟩, rfl⟩

/-- The tables when the jobs of the tick have run. -/
def processed (run : TickRun) (now : Nat) (tables : Tables) : Tables :=
  let tables := queueReceivedJobs (closeExpiredRfps now tables)
  { tables with jobs := processJobs run.outcome (listQueuedJobs tables.jobs) tables.jobs }

theorem rows_processed : (processed run now tables).jobs.table.rows =
    tables.jobs.table.rows.map (jobAfter run now tables) := by
  have hrows := (@rows_queueReceivedJobs tables now).1
  have hnodup : (listQueuedJobs (queueReceivedJobs (closeExpiredRfps now tables)).jobs).Nodup :=
    (queueReceivedJobs (closeExpiredRfps now tables)).jobs.table.keys_nodup.sublist
      (List.filter_sublist.map _)
  refine (rows_processJobs hnodup fun job hjob hmem => (mem_listQueuedJobs hjob).mp hmem).trans ?_
  rw [hrows, List.map_map]
  refine List.map_congr_left fun job hjob => ?_
  have hmem : queuedJob (dueIds now tables) job ∈
      (queueReceivedJobs (closeExpiredRfps now tables)).jobs := by
    refine KeyedTable.mem_def.mpr ?_
    rw [hrows]
    exact List.mem_map_of_mem hjob
  have hlisted := (mem_listQueuedJobs hmem).trans queuedJob_status
  rw [Function.comp_apply]
  by_cases htaken : isTaken now tables job = true
  · rw [if_pos (hlisted.mpr htaken), finished_queuedJob, queuedJob_jobId, jobAfter, if_pos htaken]
  · rw [if_neg fun h => htaken (hlisted.mp h), jobAfter, if_neg htaken, queuedJob,
      if_neg fun h => htaken (by simp [isTaken, h])]

theorem any_lost :
    (listQueuedJobs (queueReceivedJobs (closeExpiredRfps now tables)).jobs).any
      (fun jobId => run.outcome jobId = .lost) = loses run now tables := by
  rw [listQueuedJobs, rows_queueReceivedJobs.1, List.any_map, List.any_filter, List.any_map, loses]
  refine List.any_congr rfl fun job => ?_
  rw [Function.comp_apply, Function.comp_apply, queuedJob_jobId]
  exact congrArg (· && _) (Bool.eq_iff_iff.mpr (decide_eq_true_iff.trans queuedJob_status))

theorem queueReceivedJobs_frame (tables : Tables) :
    (queueReceivedJobs tables).eventLog = tables.eventLog ∧
      (queueReceivedJobs tables).invitedVendors = tables.invitedVendors := by
  rw [queueReceivedJobs]
  induction closedRfps tables generalizing tables with
  | nil => exact ⟨rfl, rfl⟩
  | cons rfp rfps ih => exact ih (queueRfp rfp.rfpId (receivedJobs rfp.rfpId tables.jobs) tables)

theorem startedRfp_rfpId (rfp : Rfp) : (startedRfp now rfp).rfpId = rfp.rfpId := by
  rw [startedRfp]
  split <;> rfl

theorem startedRfp_ready (rfp : Rfp) :
    { startedRfp now rfp with submissionStatus := .factsReady } =
      { rfp with submissionStatus := .factsReady } := by
  rw [startedRfp]
  split <;> rfl

theorem lifecycleEvent_startedRfp (rfp : Rfp) :
    lifecycleEvent (startedRfp now rfp) = lifecycleEvent rfp := by
  rw [startedRfp]
  split <;> rfl

theorem tick_eq : tick run now tables = if loses run now tables then processed run now tables
    else finalizeCompletedRfps run.delivered (processed run now tables) := by
  rw [← any_lost]
  rfl

/-- A tick, with its passes over the requests for proposals and over the jobs, is one update of
every row, with the events of the requests that it completes, in the order of the table. -/
theorem tick_exact (run : TickRun) (now : Nat) (tables : Tables) :
    (tick run now tables).jobs.table.rows =
        tables.jobs.table.rows.map (jobAfter run now tables) ∧
    (tick run now tables).rfps.rows =
        tables.rfps.rows.map (rfpAfter run now tables (tick run now tables).jobs) ∧
    (tick run now tables).eventLog = tables.eventLog ++
        ((tables.rfps.rows.filter (isWon run now tables (tick run now tables).jobs)).take
          run.delivered).map lifecycleEvent ∧
    (tick run now tables).invitedVendors = tables.invitedVendors := by
  obtain ⟨hlog, hinvited⟩ := queueReceivedJobs_frame (closeExpiredRfps now tables)
  have hlog : (processed run now tables).eventLog = tables.eventLog := hlog
  have hinvited : (processed run now tables).invitedVendors = tables.invitedVendors := hinvited
  have hrfps : (processed run now tables).rfps.rows = tables.rfps.rows.map (startedRfp now) :=
    rows_queueReceivedJobs.2
  cases hlost : loses run now tables with
  | true =>
      have htick : tick run now tables = processed run now tables := tick_eq.trans (if_pos hlost)
      have hwon : ∀ rfp, ¬ isWon run now tables (processed run now tables).jobs rfp = true := by
        intro rfp
        simp [isWon, hlost]
      rw [htick, List.filter_eq_nil_iff.mpr fun rfp _ => hwon rfp, List.take_nil, List.map_nil,
        List.append_nil]
      refine ⟨rows_processed, hrfps.trans ?_, hlog, hinvited⟩
      exact List.map_congr_left fun rfp _ => (if_neg (hwon rfp)).symm
  | false =>
      have htick : tick run now tables =
          finalizeCompletedRfps run.delivered (processed run now tables) :=
        tick_eq.trans (if_neg (by rw [hlost]; exact Bool.false_ne_true))
      obtain ⟨hjobs, hrows, hevents, hvendors⟩ :=
        finalizeCompletedRfps_exact run.delivered (processed run now tables)
      have hwon : isComplete (processed run now tables).jobs ∘ startedRfp now =
          isWon run now tables (processed run now tables).jobs := by
        funext rfp
        simp only [Function.comp_apply, isComplete, isWon, hlost, startedRfp_rfpId]
        rfl
      rw [htick, hjobs]
      refine ⟨rows_processed, ?_, ?_, hvendors.trans hinvited⟩
      · rw [hrows, hrfps, List.map_map]
        refine List.map_congr_left fun rfp _ => ?_
        rw [Function.comp_apply, startedRfp_ready, rfpAfter, ← congrFun hwon rfp]
        rfl
      · rw [hevents, hlog, hrfps, List.filter_map, ← List.map_take, List.map_map, hwon]
        exact congrArg (tables.eventLog ++ ·)
          (List.map_congr_left fun rfp _ => lifecycleEvent_startedRfp rfp)

end Exact

section Settling

variable {sha256OfFile : Content → String} {tables tables' : Tables} {now : Nat} {run : TickRun}
  {rfp : Rfp} {job : JobRow} {s : State} {ops : List Op}

def HasReady (rfpId : String) (jobs : Jobs) : Prop :=
  ∃ job ∈ jobs, job.rfpId = rfpId ∧ job.status = .factsReady

/-- What is received belongs to an open request for proposals, and what is `facts_ready` has a job
that is. -/
structure Orderly (tables : Tables) : Prop where
  received : ∀ job ∈ tables.jobs, job.status = .received →
    ∃ rfp ∈ tables.rfps, rfp.rfpId = job.rfpId ∧ rfp.submissionStatus = .opened
  statuses : ∀ rfp ∈ tables.rfps, rfp.submissionStatus = .opened ∨
    rfp.submissionStatus = .processing ∨ rfp.submissionStatus = .factsReady
  ready : ∀ rfp ∈ tables.rfps, rfp.submissionStatus = .factsReady → HasReady rfp.rfpId tables.jobs

theorem orderly_empty : Orderly Tables.empty :=
  ⟨fun job hjob => absurd hjob (KeyedTable.not_mem_empty job),
    fun rfp hrfp => absurd hrfp (KeyedTable.not_mem_empty rfp),
    fun rfp hrfp => absurd hrfp (KeyedTable.not_mem_empty rfp)⟩

/-- A write to the jobs, where a new `received` job belongs to an open request for proposals. -/
theorem Orderly.jobs (h : Orderly tables) (hrfps : tables'.rfps = tables.rfps)
    (hreceived : ∀ new ∈ tables'.jobs, new.status = .received →
      (∃ old ∈ tables.jobs, old.rfpId = new.rfpId ∧ old.status = .received) ∨
        ∃ rfp ∈ tables.rfps, rfp.rfpId = new.rfpId ∧ rfp.submissionStatus = .opened)
    (hready : ∀ old ∈ tables.jobs, old.status = .factsReady →
      ∃ new ∈ tables'.jobs, new.rfpId = old.rfpId ∧ new.status = .factsReady) :
    Orderly tables' := by
  refine ⟨fun new hnew hstatus => ?_, ?_, fun rfp hrfp hstatus => ?_⟩
  · rw [hrfps]
    rcases hreceived new hnew hstatus with ⟨old, hold, hid, hold_status⟩ | hopen
    · rw [← hid]
      exact h.received old hold hold_status
    · exact hopen
  · rw [hrfps]
    exact h.statuses
  · rw [hrfps] at hrfp
    obtain ⟨old, hold, hid, hold_status⟩ := h.ready rfp hrfp hstatus
    obtain ⟨new, hnew, hid', hnew_status⟩ := hready old hold hold_status
    exact ⟨new, hnew, hid'.trans hid, hnew_status⟩

/-- An update of the jobs that touches no `facts_ready` one and makes none `received`. -/
theorem Orderly.updateJobs (h : Orderly tables) {p : JobRow → Bool} {f : JobRow → JobRow}
    {hid : ∀ job, (f job).jobId = job.jobId} {hkey : ∀ job, (f job).hashKey = job.hashKey}
    (hp : ∀ job, p job = true → job.status ≠ .factsReady)
    (hf : ∀ job, (f job).status ≠ .received) :
    Orderly { tables with jobs := tables.jobs.updateWhere p f hid hkey } := by
  refine h.jobs rfl (fun new hnew hstatus => ?_) fun old hold hstatus => ?_
  · obtain ⟨old, hold, rfl⟩ := List.mem_map.mp hnew
    by_cases hsel : p old = true
    · rw [if_pos hsel] at hstatus
      exact absurd hstatus (hf old)
    · rw [if_neg hsel] at hstatus ⊢
      exact Or.inl ⟨old, hold, rfl, hstatus⟩
  · exact ⟨old, List.mem_map.mpr ⟨old, hold, if_neg fun hsel => hp old hsel hstatus⟩, rfl, hstatus⟩

theorem Orderly.enqueue (h : Orderly tables) {job : NewJob}
    (hopen : job.status = .received →
      ∃ rfp ∈ tables.rfps, rfp.rfpId = job.rfpId ∧ rfp.submissionStatus = .opened) :
    Orderly { tables with jobs := (enqueueIngestionJob job tables.jobs).2 } := by
  refine h.jobs rfl (fun new hnew hstatus => ?_) fun old hold hstatus => ?_
  · rcases mem_of_mem_enqueue hnew with hold | rfl
    · exact Or.inl ⟨new, hold, rfl, hstatus⟩
    · refine Or.inr (hopen ?_)
      cases hentry : job.status with
      | received => rfl
      | needsAttribution | rejectedLate =>
          simp [NewJob.row, hentry, EntryStatus.jobStatus] at hstatus
  · refine ⟨old, ?_, rfl, hstatus⟩
    by_cases htaken : ∃ row ∈ tables.jobs, row.hashKey = job.hashKey
    · rw [enqueueIngestionJob_of_taken htaken]
      exact hold
    · obtain ⟨jobs', henqueue, hmem, _⟩ := @enqueueIngestionJob_of_free job tables.jobs
        fun row hrow hkey => htaken ⟨row, hrow, hkey⟩
      rw [henqueue]
      exact (hmem old).mpr (Or.inl hold)

theorem Orderly.ingest (h : Orderly tables) {job : NewJob}
    (hopen : ∃ rfp ∈ tables.rfps, rfp.rfpId = job.rfpId ∧ rfp.submissionStatus = .opened) :
    Orderly (ingestReceived job tables).2 := by
  have henqueued := h.enqueue fun _ => hopen
  rw [ingestReceived]
  cases henqueue : enqueueIngestionJob job tables.jobs with
  | mk jobId jobs =>
      rw [henqueue] at henqueued
      cases jobId with
      | none => exact henqueued
      | some jobId =>
          refine henqueued.updateJobs (fun job hsel hready => ?_) (by simp)
          simp [hready] at hsel

theorem Orderly.drop (h : Orderly tables) (drop : Drop) :
    Orderly (handleDroppedFile sha256OfFile now drop tables).2 := by
  rw [handleDroppedFile]
  cases hpath : parseDropPath drop.parts with
  | none => exact h
  | some path =>
      obtain ⟨rfpId, vendorId⟩ := path
      cases hrfp : getRfpLifecycle rfpId tables with
      | none => simpa only [hrfp] using h
      | some rfp =>
          obtain ⟨hmem, hid⟩ := KeyedTable.lookup_eq_some.mp hrfp
          simp only [hrfp]
          cases hgate : lifecycleGate now rfp with
          | some reason => exact h.enqueue fun hstatus => by cases hstatus
          | none =>
              have hopen : rfp.submissionStatus = .opened := by
                by_contra hne
                simp [lifecycleGate, hne] at hgate
              simp only []
              split
              · exact h.ingest ⟨rfp, hmem, rfl, hopen⟩
              · rename_i hterminal
                exact h.enqueue fun hstatus => absurd hstatus hterminal

theorem rfp_of_assignCheck {user : AccountRequests.TokenData} {jobId : String}
    {body : AssignVendorRequest} (h : assignCheck user jobId body tables = .ok rfp) :
    ∃ job ∈ tables.jobs, job.jobId = jobId ∧ rfp ∈ tables.rfps ∧ rfp.rfpId = job.rfpId := by
  rw [assignCheck] at h
  obtain ⟨_, _, h⟩ := bind_eq_ok.mp h
  obtain ⟨_, _, h⟩ := bind_eq_ok.mp h
  obtain ⟨job, hlookup, h⟩ := bind_eq_ok.mp h
  obtain ⟨_, _, h⟩ := bind_eq_ok.mp h
  obtain ⟨_, _, h⟩ := bind_eq_ok.mp h
  obtain ⟨found, hrfp, h⟩ := bind_eq_ok.mp h
  obtain ⟨_, _, h⟩ := bind_eq_ok.mp h
  obtain rfl := Except.ok.inj h
  obtain ⟨hjob, hid⟩ := KeyedTable.lookup_eq_some.mp (orRaise_eq_ok.mp hlookup)
  obtain ⟨hmem, hrfpId⟩ := KeyedTable.lookup_eq_some.mp (orRaise_eq_ok.mp hrfp)
  exact ⟨job, hjob, hid, hmem, hrfpId⟩

theorem Orderly.assign (h : Orderly tables) {user : AccountRequests.TokenData} {jobId : String}
    {body : AssignVendorRequest} : Orderly (assignAttribution user jobId body tables).2 := by
  rw [assignAttribution]
  cases hcheck : assignCheck user jobId body tables with
  | error exc => exact h
  | ok rfp =>
      obtain ⟨hrfps, hjobs⟩ := inviteVendor_frame rfp.rfpId body.vendorId tables
      have hinvited : Orderly (inviteVendor rfp.rfpId body.vendorId tables) :=
        h.jobs hrfps (fun new hnew hstatus => Or.inl ⟨new, hjobs ▸ hnew, rfl, hstatus⟩)
          fun old hold hstatus => ⟨old, hjobs.symm ▸ hold, rfl, hstatus⟩
      simp only
      cases hwrite : assignWrite jobId body.vendorId (assignedStatus rfp)
          (inviteVendor rfp.rfpId body.vendorId tables).jobs with
      | error exc => exact hinvited
      | ok jobs =>
          have hmem := mem_of_assignWrite hwrite
          refine hinvited.jobs rfl (fun new hnew hstatus => ?_) fun old hold hstatus => ?_
          · obtain ⟨old, hold, rfl⟩ := (hmem new).mp hnew
            by_cases hsel : (old.jobId = jobId && old.status = .needsAttribution) = true
            · rw [if_pos hsel] at hstatus ⊢
              obtain ⟨job, hjob, hid, hrfp, hrfpId⟩ := rfp_of_assignCheck hcheck
              rw [Bool.and_eq_true, decide_eq_true_eq] at hsel
              rw [hjobs] at hold
              obtain rfl : old = job := KeyedTable.eq_of_key_eq hold hjob (hsel.1.trans hid.symm)
              refine Or.inr ⟨rfp, hrfps.symm ▸ hrfp, hrfpId, ?_⟩
              by_contra hclosed
              simp [assignedStatus, hclosed] at hstatus
            · rw [if_neg hsel] at hstatus ⊢
              exact Or.inl ⟨old, hold, rfl, hstatus⟩
          · exact ⟨old, (hmem old).mpr ⟨old, hold, if_neg (by simp [hstatus])⟩, rfl, hstatus⟩

theorem Orderly.updateRfps (h : Orderly tables) {p : Rfp → Bool} {f : Rfp → Rfp}
    {hf : ∀ rfp, (f rfp).rfpId = rfp.rfpId}
    (hstatus : ∀ rfp, (f rfp).submissionStatus = rfp.submissionStatus) :
    Orderly (tables.updateRfps p f hf) := by
  have hsame : ∀ rfp, (if p rfp = true then f rfp else rfp).rfpId = rfp.rfpId ∧
      (if p rfp = true then f rfp else rfp).submissionStatus = rfp.submissionStatus := by
    intro rfp
    split
    · exact ⟨hf rfp, hstatus rfp⟩
    · exact ⟨rfl, rfl⟩
  refine ⟨fun job hjob hreceived => ?_, fun new hnew => ?_, fun new hnew hready => ?_⟩
  · obtain ⟨rfp, hrfp, hid, hopen⟩ := h.received job hjob hreceived
    exact ⟨_, List.mem_map_of_mem hrfp, (hsame rfp).1.trans hid, (hsame rfp).2.trans hopen⟩
  · obtain ⟨rfp, hrfp, rfl⟩ := List.mem_map.mp hnew
    rw [(hsame rfp).2]
    exact h.statuses rfp hrfp
  · obtain ⟨rfp, hrfp, rfl⟩ := List.mem_map.mp hnew
    rw [(hsame rfp).2] at hready
    rw [(hsame rfp).1]
    exact h.ready rfp hrfp hready

theorem Orderly.create (h : Orderly tables) (rfp : Rfp) :
    Orderly ((createRfp rfp tables).getD tables) := by
  rw [createRfp]
  cases hinsert : tables.rfps.insert? { rfp with submissionStatus := .opened } with
  | none => exact h
  | some rfps =>
      have hmem := KeyedTable.mem_of_insert? hinsert
      refine ⟨fun job hjob hstatus => ?_, fun new hnew => ?_, fun new hnew hready => ?_⟩
      · obtain ⟨other, hother, hid, hopen⟩ := h.received job hjob hstatus
        exact ⟨other, (hmem other).mpr (Or.inl hother), hid, hopen⟩
      · rcases (hmem new).mp hnew with hold | rfl
        · exact h.statuses new hold
        · exact Or.inl rfl
      · rcases (hmem new).mp hnew with hold | rfl
        · exact h.ready new hold hready
        · cases hready

theorem mem_tick_jobs : job ∈ (tick run now tables).jobs ↔
    ∃ old ∈ tables.jobs, jobAfter run now tables old = job := by
  rw [show (job ∈ (tick run now tables).jobs) = (job ∈ (tick run now tables).jobs.table.rows) from
    rfl, (tick_exact run now tables).1, List.mem_map]
  rfl

theorem mem_tick_rfps : rfp ∈ (tick run now tables).rfps ↔
    ∃ old ∈ tables.rfps, rfpAfter run now tables (tick run now tables).jobs old = rfp := by
  rw [KeyedTable.mem_def, (tick_exact run now tables).2.1, List.mem_map]
  rfl

theorem jobAfter_cases (job : JobRow) :
    (isTaken now tables job = true ∧
      jobAfter run now tables job = finished (run.outcome job.jobId) job) ∨
    (isTaken now tables job = false ∧ jobAfter run now tables job = job) := by
  cases htaken : isTaken now tables job with
  | true => exact Or.inl ⟨rfl, if_pos htaken⟩
  | false => exact Or.inr ⟨rfl, if_neg (by rw [htaken]; exact Bool.false_ne_true)⟩

theorem finished_status_ne (o : JobOutcome) :
    (finished o job).status ≠ .received ∧ (finished o job).status ≠ .queued := by
  cases o with
  | ready docId | failed reason | lost => simp [finished]

theorem rfpAfter_cases (run : TickRun) (now : Nat) (tables : Tables) (jobs : Jobs) (rfp : Rfp) :
    (isWon run now tables jobs rfp = true ∧
      rfpAfter run now tables jobs rfp = { rfp with submissionStatus := .factsReady }) ∨
    (isWon run now tables jobs rfp = false ∧ isDue now rfp = true ∧
      rfpAfter run now tables jobs rfp = { rfp with submissionStatus := .processing }) ∨
    (isWon run now tables jobs rfp = false ∧ isDue now rfp = false ∧
      rfpAfter run now tables jobs rfp = rfp) := by
  cases hwon : isWon run now tables jobs rfp with
  | true => exact Or.inl ⟨rfl, if_pos hwon⟩
  | false =>
      have hstarted : rfpAfter run now tables jobs rfp = startedRfp now rfp :=
        if_neg (by rw [hwon]; exact Bool.false_ne_true)
      cases hdue : isDue now rfp with
      | true => exact Or.inr (Or.inl ⟨rfl, rfl, hstarted.trans (if_pos hdue)⟩)
      | false =>
          exact Or.inr (Or.inr ⟨rfl, rfl,
            hstarted.trans (if_neg (by rw [hdue]; exact Bool.false_ne_true))⟩)

theorem completed_iff {rfpId : String} {jobs : Jobs} :
    completed rfpId jobs = true ↔ Drained rfpId jobs ∧ HasReady rfpId jobs := by
  rw [completed, Bool.and_eq_true, decide_eq_true_eq, decide_eq_true_eq, List.countP_eq_zero,
    List.countP_pos_iff]
  refine and_congr ?_ ?_
  · refine forall₂_congr fun job hjob => ?_
    simp
  · simp only [Bool.and_eq_true, decide_eq_true_eq]
    exact Iff.rfl

theorem status_of_isWon {jobs : Jobs} (h : isWon run now tables jobs rfp = true) :
    rfp.submissionStatus ≠ .factsReady ∧
      (isDue now rfp = true ∨ rfp.submissionStatus = .processing) ∧
      completed rfp.rfpId jobs = true := by
  simp only [isWon, Bool.and_eq_true, decide_eq_true_eq] at h
  obtain ⟨⟨_, hstatus⟩, hdone⟩ := h
  cases hdue : isDue now rfp with
  | true =>
      refine ⟨fun hready => ?_, Or.inl rfl, hdone⟩
      simp [isDue, hready] at hdue
  | false =>
      rw [startedRfp, if_neg (by rw [hdue]; exact Bool.false_ne_true)] at hstatus
      rw [hstatus]
      exact ⟨by simp, Or.inr rfl, hdone⟩

theorem Orderly.ticked (h : Orderly tables) : Orderly (tick run now tables) := by
  refine ⟨fun job hjob hreceived => ?_, fun rfp hrfp => ?_, fun rfp hrfp hready => ?_⟩
  · obtain ⟨old, hold, rfl⟩ := mem_tick_jobs.mp hjob
    rcases jobAfter_cases old with ⟨_, heq⟩ | ⟨hkept, heq⟩
    · rw [heq] at hreceived
      exact absurd hreceived (finished_status_ne _).1
    · rw [heq] at hreceived ⊢
      obtain ⟨rfp, hrfp, hid, hopen⟩ := h.received old hold hreceived
      have hdue : isDue now rfp = false := by
        by_contra hdue
        rw [Bool.not_eq_false] at hdue
        simp [isTaken, hreceived, ← hid, (mem_dueIds hrfp).mpr hdue] at hkept
      refine ⟨rfp, mem_tick_rfps.mpr ⟨rfp, hrfp, ?_⟩, hid, hopen⟩
      rcases rfpAfter_cases run now tables (tick run now tables).jobs rfp with
        ⟨hwon, _⟩ | ⟨_, hdue', _⟩ | ⟨_, _, heq⟩
      · rcases (status_of_isWon hwon).2.1 with hdue' | hprocessing
        · rw [hdue] at hdue'
          cases hdue'
        · rw [hopen] at hprocessing
          cases hprocessing
      · rw [hdue] at hdue'
        cases hdue'
      · exact heq
  · obtain ⟨old, hold, rfl⟩ := mem_tick_rfps.mp hrfp
    rcases rfpAfter_cases run now tables (tick run now tables).jobs old with
      ⟨_, heq⟩ | ⟨_, _, heq⟩ | ⟨_, _, heq⟩
    · rw [heq]
      exact Or.inr (Or.inr rfl)
    · rw [heq]
      exact Or.inr (Or.inl rfl)
    · rw [heq]
      exact h.statuses old hold
  · obtain ⟨old, hold, rfl⟩ := mem_tick_rfps.mp hrfp
    rcases rfpAfter_cases run now tables (tick run now tables).jobs old with
      ⟨hwon, heq⟩ | ⟨_, _, heq⟩ | ⟨_, _, heq⟩
    · rw [heq]
      exact (completed_iff.mp (status_of_isWon hwon).2.2).2
    · rw [heq] at hready
      cases hready
    · rw [heq] at hready ⊢
      obtain ⟨job, hjob, hid, hstatus⟩ := h.ready old hold hready
      refine ⟨job, mem_tick_jobs.mpr ⟨job, hjob, if_neg ?_⟩, hid, hstatus⟩
      simp [isTaken, hstatus]

theorem Orderly.applied (h : Orderly s.tables) (op : Op) :
    Orderly (apply sha256OfFile s op).tables := by
  cases op with
  | wait => exact h
  | create rfp => exact h.create rfp
  | invite rfpId vendorId =>
      obtain ⟨hrfps, hjobs⟩ := inviteVendor_frame rfpId vendorId s.tables
      exact h.jobs hrfps (fun new hnew hstatus => Or.inl ⟨new, hjobs ▸ hnew, rfl, hstatus⟩)
        fun old hold hstatus => ⟨old, hjobs.symm ▸ hold, rfl, hstatus⟩
  | extend rfpId deadline => exact h.updateRfps fun rfp => rfl
  | drop drop => exact h.drop drop
  | assign user jobId body => exact h.assign
  | accept user jobId =>
      change Orderly (acceptLate user jobId s.tables).2
      rw [acceptLate]
      cases requireAdminAttributionRole user with
      | error exc => exact h
      | ok _ =>
          refine h.updateJobs (fun job hsel hready => ?_) fun job hstatus => by cases hstatus
          simp [hready] at hsel
  | tick run => exact h.ticked

def stateAfter (sha256OfFile : Content → String) (ops : List Op) : State :=
  ops.foldl (apply sha256OfFile) State.empty

theorem orderly_stateAfter : Orderly (stateAfter sha256OfFile ops).tables := by
  induction ops using List.reverseRecOn with
  | nil => exact orderly_empty
  | append_singleton ops op ih =>
      rw [stateAfter, List.foldl_append]
      exact ih.applied op

/-- Nothing is due. What is open is received under an open request for proposals, or it was in
processing before. All other requests are drained, and `facts_ready` if a job of theirs is. -/
structure Settled (before : Jobs) (now : Nat) (tables : Tables) : Prop where
  notDue : ∀ rfp ∈ tables.rfps, isDue now rfp = false
  jobs : ∀ job ∈ tables.jobs, isOpenJob job = true →
    job ∈ before ∧ job.status = .processing ∨
      job.status = .received ∧
        ∃ rfp ∈ tables.rfps, rfp.rfpId = job.rfpId ∧ rfp.submissionStatus = .opened
  rfps : ∀ rfp ∈ tables.rfps, rfp.submissionStatus ≠ .opened →
    (∀ job ∈ before, job.rfpId = rfp.rfpId → job.status ≠ .processing) →
      Drained rfp.rfpId tables.jobs ∧
        (rfp.submissionStatus = .factsReady ∧ HasReady rfp.rfpId tables.jobs ∨
          rfp.submissionStatus = .processing ∧ ¬ HasReady rfp.rfpId tables.jobs)

theorem isOpen_finished {o : JobOutcome} (h : o ≠ .lost) : isOpenJob (finished o job) = false := by
  cases o with
  | ready docId | failed reason => simp [isOpenJob, finished]
  | lost => exact absurd rfl h

theorem loses_eq_false (h : ∀ job ∈ tables.jobs, run.outcome job.jobId ≠ .lost) :
    loses run now tables = false := by
  rw [loses, List.any_eq_false]
  intro job hjob
  simp [h job hjob]

theorem isDue_rfpAfter {jobs : Jobs} : isDue now (rfpAfter run now tables jobs rfp) = false := by
  rcases rfpAfter_cases run now tables jobs rfp with ⟨_, heq⟩ | ⟨_, _, heq⟩ | ⟨_, hdue, heq⟩
  · rw [heq]
    simp [isDue]
  · rw [heq]
    simp [isDue]
  · rw [heq, hdue]

theorem rfpAfter_of_completed {jobs : Jobs} (hloses : loses run now tables = false)
    (hdone : completed (rfpAfter run now tables jobs rfp).rfpId jobs = true) :
    (rfpAfter run now tables jobs rfp).submissionStatus ≠ .processing := by
  intro hstatus
  have hnot : ¬ isWon run now tables jobs rfp = true := by
    intro hwon
    rw [rfpAfter, if_pos hwon] at hstatus
    cases hstatus
  rw [rfpAfter, if_neg hnot] at hstatus hdone
  rw [startedRfp_rfpId] at hdone
  refine hnot ?_
  rw [isWon, hloses, hdone, hstatus]
  rfl

/-- Whatever has happened before, a tick that loses no job settles all that is due at its time. -/
theorem tick_settles (ops : List Op)
    (hkept : ∀ job ∈ (stateAfter sha256OfFile ops).tables.jobs, run.outcome job.jobId ≠ .lost) :
    Settled (stateAfter sha256OfFile ops).tables.jobs (stateAfter sha256OfFile ops).now
      (stateAfter sha256OfFile (ops ++ [.tick run])).tables := by
  have hbefore := @orderly_stateAfter sha256OfFile ops
  rw [show stateAfter sha256OfFile (ops ++ [.tick run]) =
    apply sha256OfFile (stateAfter sha256OfFile ops) (.tick run) from List.foldl_concat ..]
  generalize stateAfter sha256OfFile ops = s at hkept hbefore
  change Settled s.tables.jobs s.now (tick run s.now s.tables)
  have hafter : Orderly (tick run s.now s.tables) := hbefore.ticked
  have hjobs : ∀ job ∈ (tick run s.now s.tables).jobs, isOpenJob job = true →
      job ∈ s.tables.jobs ∧ job.status = .processing ∨ job.status = .received ∧
        ∃ rfp ∈ (tick run s.now s.tables).rfps,
          rfp.rfpId = job.rfpId ∧ rfp.submissionStatus = .opened := by
    intro job hjob hopen
    obtain ⟨old, hold, rfl⟩ := mem_tick_jobs.mp hjob
    rcases jobAfter_cases old with ⟨_, heq⟩ | ⟨hleft, heq⟩
    · rw [heq, isOpen_finished (hkept old hold)] at hopen
      cases hopen
    · by_cases hreceived : (jobAfter run s.now s.tables old).status = .received
      · exact Or.inr ⟨hreceived, hafter.received _ hjob hreceived⟩
      · rw [heq] at hopen hreceived ⊢
        refine Or.inl ⟨hold, ?_⟩
        have hqueued : old.status ≠ .queued := fun hqueued => by simp [isTaken, hqueued] at hleft
        simpa [isOpenJob, hreceived, hqueued] using hopen
  refine ⟨fun rfp hrfp => ?_, hjobs, fun rfp hrfp hclosed hfree => ?_⟩
  · obtain ⟨old, _, rfl⟩ := mem_tick_rfps.mp hrfp
    exact isDue_rfpAfter
  · have hdrained : Drained rfp.rfpId (tick run s.now s.tables).jobs := by
      intro job hjob hid
      by_contra hopen
      rw [Bool.not_eq_false] at hopen
      rcases hjobs job hjob hopen with ⟨hold, hstuck⟩ | ⟨_, other, hother, hother_id, hother_open⟩
      · exact hfree job hold hid hstuck
      · rw [KeyedTable.eq_of_key_eq hother hrfp (hother_id.trans hid)] at hother_open
        exact hclosed hother_open
    refine ⟨hdrained, ?_⟩
    rcases hafter.statuses rfp hrfp with hstatus | hstatus | hstatus
    · exact absurd hstatus hclosed
    · refine Or.inr ⟨hstatus, fun hready => ?_⟩
      obtain ⟨old, _, rfl⟩ := mem_tick_rfps.mp hrfp
      exact rfpAfter_of_completed (loses_eq_false hkept) (completed_iff.mpr ⟨hdrained, hready⟩)
        hstatus
    · exact Or.inl ⟨hstatus, hafter.ready rfp hrfp hstatus⟩

def lostOnce : List Op :=
  [.create SubmissionSteps.tender, .invite "rfp-1" "acme", .drop SubmissionSteps.acmeDrop, .wait,
    .drop SubmissionSteps.revisedDrop, .tick ⟨fun _ => .lost, 0⟩, .tick ⟨fun _ => .ready "d1", 1⟩]

/-- A job that the first tick loses is left alone by the next one. -/
theorem lostOnce_settles :
    Settled (stateAfter SubmissionSteps.plainHash lostOnce).tables.jobs 1
        (stateAfter SubmissionSteps.plainHash
          (lostOnce ++ [.tick ⟨fun _ => .ready "d1", 1⟩])).tables ∧
      (stateAfter SubmissionSteps.plainHash
        (lostOnce ++ [.tick ⟨fun _ => .ready "d1", 1⟩])).tables.rfps.rows =
          [{ SubmissionSteps.tender with submissionStatus := .processing }] :=
  ⟨tick_settles lostOnce (fun _ _ hlost => JobOutcome.noConfusion hlost), rfl⟩

end Settling

end RfpPlatform.TickDrain
