import RfpPlatform.LatestSubmission

namespace RfpPlatform.FactsReadySound

open AccountRequests (TokenData httpError)
open BackgroundIngestion (JobStatus)
open ExceptRules
open Ingestion (Content)
open LatestSubmission Submissions SubmissionSteps TransitionRuns
open RunRequests (writeRoles)

section Operations

/-- `assign_attribution`, with no other request between its statements. -/
def assignAttribution (user : TokenData) (jobId : String) (body : AssignVendorRequest)
    (tables : Tables) : Except Exn JobStatus × Tables :=
  match assignCheck user jobId body tables with
  | .error exc => (.error exc, tables)
  | .ok rfp =>
      let tables := inviteVendor rfp.rfpId body.vendorId tables
      match assignWrite jobId body.vendorId (assignedStatus rfp) tables.jobs with
      | .error exc => (.error exc, tables)
      | .ok jobs => (.ok (assignedStatus rfp), { tables with jobs := jobs })

def acceptLate (user : TokenData) (jobId : String) (tables : Tables) :
    Except Exn Unit × Tables :=
  match requireAdminAttributionRole user with
  | .error exc => (.error exc, tables)
  | .ok () =>
      (raiseIf (tables.jobs.table.rows.all (fun job =>
          ! (job.jobId = jobId && job.status = .rejectedLate && job.orgId = user.orgId)))
        (httpError 409 "Job not found, wrong org, or not in rejected_late state."),
        { tables with jobs := acceptLateAddendum user.orgId jobId tables.jobs })

/-- How the execution of a claimed job comes out. A lost one writes nothing more. -/
inductive JobOutcome
  | ready (docId : String)
  | failed (reason : String)
  | lost
  deriving DecidableEq

/-- What a tick meets: the outcome of each job, and the number of events that it emits before
`emit_event` raises. -/
structure TickRun where
  outcome : String → JobOutcome
  delivered : Nat

def complete (jobId : String) (outcome : JobOutcome) (jobs : Jobs) : Jobs :=
  match outcome with
  | .ready docId => markFactsReady jobId docId jobs
  | .failed reason => markFailed jobId reason jobs
  | .lost => jobs

def processJobs (outcome : String → JobOutcome) (jobIds : List String) (jobs : Jobs) : Jobs :=
  jobIds.foldl (fun jobs jobId => complete jobId (outcome jobId) (claimForProcessing jobId jobs))
    jobs

/-- The counts and the flip for one candidate, which no other tick can flip meanwhile. -/
def finalizeRfp (acc : Tables × List Rfp) (rfp : Rfp) : Tables × List Rfp :=
  if completed rfp.rfpId acc.1.jobs then (flipFactsReady rfp.rfpId acc.1, acc.2 ++ [rfp]) else acc

def finalizeCompletedRfps (delivered : Nat) (tables : Tables) : Tables :=
  let (tables, winners) :=
    (tables.rfps.rows.filter (fun rfp => rfp.submissionStatus = .processing)).foldl finalizeRfp
      (tables, [])
  { tables with eventLog := tables.eventLog ++ (winners.take delivered).map lifecycleEvent }

/-- `process_deadlines` -/
def tick (run : TickRun) (now : Nat) (tables : Tables) : Tables :=
  let tables := queueReceivedJobs (closeExpiredRfps now tables)
  let queued := listQueuedJobs tables.jobs
  let tables := { tables with jobs := processJobs run.outcome queued tables.jobs }
  -- what `process_job` does not handle ends the tick
  if queued.any (fun jobId => run.outcome jobId = .lost) then tables
  else finalizeCompletedRfps run.delivered tables

structure State where
  now : Nat
  tables : Tables

def State.empty : State := ⟨0, Tables.empty⟩

inductive Op
  | wait
  | create (rfp : Rfp)
  | invite (rfpId : String) (vendorId : VendorId)
  | extend (rfpId : String) (deadline : Option Nat)
  | drop (drop : Drop)
  | assign (user : TokenData) (jobId : String) (body : AssignVendorRequest)
  | accept (user : TokenData) (jobId : String)
  | tick (run : TickRun)

def apply (sha256OfFile : Content → String) (s : State) : Op → State
  | .wait => { s with now := s.now + 1 }
  | .create rfp => { s with tables := (createRfp rfp s.tables).getD s.tables }
  | .invite rfpId vendorId => { s with tables := inviteVendor rfpId vendorId s.tables }
  | .extend rfpId deadline => { s with tables := setDeadline rfpId deadline s.tables }
  | .drop drop => { s with tables := (handleDroppedFile sha256OfFile s.now drop s.tables).2 }
  | .assign user jobId body => { s with tables := (assignAttribution user jobId body s.tables).2 }
  | .accept user jobId => { s with tables := (acceptLate user jobId s.tables).2 }
  | .tick run => { s with tables := tick run s.now s.tables }

end Operations

section Soundness

def Drained (rfpId : String) (jobs : Jobs) : Prop :=
  ∀ job ∈ jobs, job.rfpId = rfpId → isOpenJob job = false

structure Sound (tables : Tables) : Prop where
  drained : ∀ rfp ∈ tables.rfps, rfp.submissionStatus = .factsReady → Drained rfp.rfpId tables.jobs
  single : ∀ job ∈ tables.jobs, ∀ other ∈ tables.jobs, isOpenJob job = true →
    isOpenJob other = true → job.rfpId = other.rfpId → job.vendorId = other.vendorId → job = other

/-- No job is opened, and a request for proposals becomes `facts_ready` only when it is drained. -/
structure Retreats (tables tables' : Tables) : Prop where
  jobs : ∀ new ∈ tables'.jobs, isOpenJob new = true → ∃ old ∈ tables.jobs, isOpenJob old = true ∧
    old.jobId = new.jobId ∧ old.rfpId = new.rfpId ∧ old.vendorId = new.vendorId
  rfps : ∀ new ∈ tables'.rfps, new.submissionStatus = .factsReady →
    (∃ old ∈ tables.rfps, old.rfpId = new.rfpId ∧ old.submissionStatus = .factsReady) ∨
      Drained new.rfpId tables'.jobs

variable {tables tables' tables'' : Tables} {rfpId : String}

theorem Retreats.drained (h : Retreats tables tables') (hdrained : Drained rfpId tables.jobs) :
    Drained rfpId tables'.jobs := by
  intro new hnew hrfp
  by_contra hopen
  obtain ⟨old, hold, hold_open, _, hsame, _⟩ := h.jobs new hnew (Bool.not_eq_false _ ▸ hopen)
  rw [hdrained old hold (hsame.trans hrfp)] at hold_open
  cases hold_open

theorem Retreats.refl (tables : Tables) : Retreats tables tables :=
  ⟨fun new hnew hopen => ⟨new, hnew, hopen, rfl, rfl, rfl⟩,
    fun new hnew hready => Or.inl ⟨new, hnew, rfl, hready⟩⟩

theorem Retreats.trans (h : Retreats tables tables') (k : Retreats tables' tables'') :
    Retreats tables tables'' := by
  refine ⟨fun new hnew hopen => ?_, fun new hnew hready => ?_⟩
  · obtain ⟨mid, hmid, hmid_open, hid, hrfp, hvendor⟩ := k.jobs new hnew hopen
    obtain ⟨old, hold, hold_open, hid', hrfp', hvendor'⟩ := h.jobs mid hmid hmid_open
    exact ⟨old, hold, hold_open, hid'.trans hid, hrfp'.trans hrfp, hvendor'.trans hvendor⟩
  · rcases k.rfps new hnew hready with ⟨mid, hmid, hid, hmid_ready⟩ | hdrained
    · rcases h.rfps mid hmid hmid_ready with ⟨old, hold, hid', hold_ready⟩ | hdrained
      · exact Or.inl ⟨old, hold, hid'.trans hid, hold_ready⟩
      · exact Or.inr (hid ▸ k.drained hdrained)
    · exact Or.inr hdrained

theorem Retreats.foldl {α : Type*} {f : Tables → α → Tables}
    (hf : ∀ tables a, Retreats tables (f tables a)) (as : List α) (tables : Tables) :
    Retreats tables (as.foldl f tables) := by
  induction as generalizing tables with
  | nil => exact .refl tables
  | cons a as ih => exact (hf tables a).trans (ih (f tables a))

theorem Sound.retreat (h : Sound tables) (k : Retreats tables tables') : Sound tables' := by
  refine ⟨fun rfp hrfp hready => ?_, fun job hjob other hother hopen hopen' hrfp hvendor => ?_⟩
  · rcases k.rfps rfp hrfp hready with ⟨old, hold, hid, hold_ready⟩ | hdrained
    · exact hid ▸ k.drained (h.drained old hold hold_ready)
    · exact hdrained
  · obtain ⟨old, hold, hold_open, hid, hr, hv⟩ := k.jobs job hjob hopen
    obtain ⟨old', hold', hold_open', hid', hr', hv'⟩ := k.jobs other hother hopen'
    have hsame : old = old' := h.single old hold old' hold' hold_open hold_open'
      (hr.trans (hrfp.trans hr'.symm)) (hv.trans (hvendor.trans hv'.symm))
    subst hsame
    exact KeyedTable.eq_of_key_eq hjob hother (hid.symm.trans hid')

theorem retreats_updateRfps {p : Rfp → Bool} {f : Rfp → Rfp}
    {hf : ∀ rfp, (f rfp).rfpId = rfp.rfpId}
    (hready : ∀ rfp, p rfp = true → (f rfp).submissionStatus = .factsReady →
      rfp.submissionStatus = .factsReady ∨ Drained rfp.rfpId tables.jobs) :
    Retreats tables (tables.updateRfps p f hf) := by
  refine ⟨(Retreats.refl tables).jobs, fun new hnew hnew_ready => ?_⟩
  obtain ⟨old, hold, rfl⟩ := List.mem_map.mp hnew
  by_cases hp : p old = true
  · rw [if_pos hp] at hnew_ready ⊢
    rw [hf]
    exact (hready old hp hnew_ready).imp_left (fun hold_ready => ⟨old, hold, rfl, hold_ready⟩)
  · rw [if_neg hp] at hnew_ready ⊢
    exact Or.inl ⟨old, hold, rfl, hnew_ready⟩

theorem retreats_updateJobs {p : JobRow → Bool} {f : JobRow → JobRow}
    (hopen : ∀ job ∈ tables.jobs, p job = true → isOpenJob (f job) = true → isOpenJob job = true)
    (hid : ∀ job, (f job).jobId = job.jobId := by intro; rfl)
    (hkey : ∀ job, (f job).hashKey = job.hashKey := by intro; rfl) :
    Retreats tables { tables with jobs := tables.jobs.updateWhere p f hid hkey } := by
  refine ⟨fun new hnew hnew_open => ?_, (fun new hnew hready => Or.inl ⟨new, hnew, rfl, hready⟩)⟩
  obtain ⟨old, hold, rfl⟩ := List.mem_map.mp hnew
  by_cases hp : p old = true
  · rw [if_pos hp] at hnew_open ⊢
    have hvendor : (f old).vendorId = old.vendorId := congrArg (fun key => key.2.1) (hkey old)
    exact ⟨old, hold, hopen old hold hp hnew_open, (hid old).symm, (congrArg Prod.fst (hkey old)).symm,
      hvendor.symm⟩
  · rw [if_neg hp] at hnew_open ⊢
    exact ⟨old, hold, hnew_open, rfl, rfl, rfl⟩

end Soundness

section Tick

variable {tables : Tables}

theorem drained_of_completed {rfpId : String} {jobs : Jobs} (h : completed rfpId jobs = true) :
    Drained rfpId jobs := by
  intro job hjob hrfp
  simp only [completed, Bool.and_eq_true, decide_eq_true_eq] at h
  have hclosed := List.countP_eq_zero.mp h.1 job hjob
  simpa [hrfp] using hclosed

theorem closeExpiredRfps_retreats (now : Nat) (tables : Tables) :
    Retreats tables (closeExpiredRfps now tables) :=
  retreats_updateRfps (fun _ _ hready => by cases hready)

theorem queueRfp_retreats (rfpId : String) (jobIds : List String) (tables : Tables) :
    Retreats tables (queueRfp rfpId jobIds tables) := by
  have hqueue : Retreats tables { tables with jobs := queueJobs jobIds tables.jobs } := by
    refine retreats_updateJobs (fun job _ hp _ => ?_)
    simp only [Bool.and_eq_true, decide_eq_true_eq] at hp
    simp [isOpenJob, hp.2]
  exact hqueue.trans (retreats_updateRfps (fun _ _ hready => by cases hready))

theorem queueReceivedJobs_retreats (tables : Tables) :
    Retreats tables (queueReceivedJobs tables) := by
  unfold queueReceivedJobs
  apply Retreats.foldl
  intro tables rfp
  exact queueRfp_retreats rfp.rfpId (receivedJobs rfp.rfpId tables.jobs) tables

theorem claim_retreats (jobId : String) (tables : Tables) :
    Retreats tables { tables with jobs := claimForProcessing jobId tables.jobs } := by
  refine retreats_updateJobs (fun job _ hp _ => ?_)
  simp only [Bool.and_eq_true, decide_eq_true_eq] at hp
  simp [isOpenJob, hp.2]

theorem complete_retreats (jobId : String) (outcome : JobOutcome) (tables : Tables) :
    Retreats tables { tables with jobs := complete jobId outcome tables.jobs } := by
  cases outcome with
  | ready docId => exact retreats_updateJobs (fun _ _ _ hopen => by simp [isOpenJob] at hopen)
  | failed reason => exact retreats_updateJobs (fun _ _ _ hopen => by simp [isOpenJob] at hopen)
  | lost => exact .refl tables

theorem processJobs_retreats (outcome : String → JobOutcome) (jobIds : List String)
    (tables : Tables) :
    Retreats tables { tables with jobs := processJobs outcome jobIds tables.jobs } := by
  induction jobIds generalizing tables with
  | nil => exact .refl tables
  | cons jobId jobIds ih =>
      have hclaim := claim_retreats jobId tables
      have hcomplete := complete_retreats jobId (outcome jobId)
        { tables with jobs := claimForProcessing jobId tables.jobs }
      exact (hclaim.trans hcomplete).trans (ih _)

theorem finalizeRfp_retreats (acc : Tables × List Rfp) (rfp : Rfp) :
    Retreats acc.1 (finalizeRfp acc rfp).1 := by
  unfold finalizeRfp
  split
  · rename_i hcompleted
    refine retreats_updateRfps (fun row hp _ => Or.inr ?_)
    simp only [Bool.and_eq_true, decide_eq_true_eq] at hp
    exact hp.1 ▸ drained_of_completed hcompleted
  · exact .refl _

theorem finalizeRfps_retreats (rfps : List Rfp) (acc : Tables × List Rfp) :
    Retreats acc.1 (rfps.foldl finalizeRfp acc).1 := by
  induction rfps generalizing acc with
  | nil => exact .refl _
  | cons rfp rfps ih => exact (finalizeRfp_retreats acc rfp).trans (ih _)

theorem finalizeCompletedRfps_retreats (delivered : Nat) (tables : Tables) :
    Retreats tables (finalizeCompletedRfps delivered tables) := by
  have h := finalizeRfps_retreats
    (tables.rfps.rows.filter (fun rfp => rfp.submissionStatus = .processing)) (tables, [])
  exact ⟨h.jobs, h.rfps⟩

theorem tick_retreats (run : TickRun) (now : Nat) (tables : Tables) :
    Retreats tables (tick run now tables) := by
  have hqueue := (closeExpiredRfps_retreats now tables).trans (queueReceivedJobs_retreats _)
  have hprocess := hqueue.trans (processJobs_retreats run.outcome
    (listQueuedJobs (queueReceivedJobs (closeExpiredRfps now tables)).jobs) _)
  simp only [tick]
  split
  · exact hprocess
  · exact hprocess.trans (finalizeCompletedRfps_retreats run.delivered _)

end Tick

section Openings

variable {sha256OfFile : Content → String} {tables tables' : Tables} {now : Nat}

/-- One job is opened, and of the others exactly those that the step takes away are not kept. -/
structure Opens (tables : Tables) (opened : JobRow) (gone : JobRow → Prop) (tables' : Tables) :
    Prop where
  rfps : tables'.rfps = tables.rfps
  isOpen : isOpenJob opened = true
  fresh : opened ∉ tables.jobs
  jobs : ∀ job, isOpenJob job = true →
    (job ∈ tables'.jobs ↔ job = opened ∨ (job ∈ tables.jobs ∧ ¬ gone job))

def Unfinished (rfpId : String) (tables : Tables) : Prop :=
  ∀ rfp ∈ tables.rfps, rfp.rfpId = rfpId → rfp.submissionStatus ≠ .factsReady

theorem Opens.sound_iff {opened : JobRow} {gone : JobRow → Prop}
    (h : Opens tables opened gone tables') (hs : Sound tables) :
    Sound tables' ↔ Unfinished opened.rfpId tables ∧ ∀ job ∈ tables.jobs,
      ofVendor opened.rfpId opened.vendorId job = true → isOpenJob job = true → gone job := by
  have hopened : opened ∈ tables'.jobs := (h.jobs opened h.isOpen).mpr (Or.inl rfl)
  constructor
  · intro hs'
    refine ⟨fun rfp hrfp hid hready => ?_, fun job hjob hvendor hopen => ?_⟩
    · have hdrained := hs'.drained rfp (h.rfps ▸ hrfp) hready opened hopened hid.symm
      rw [h.isOpen] at hdrained
      cases hdrained
    · by_contra hkept
      have hjob' := (h.jobs job hopen).mpr (Or.inr ⟨hjob, hkept⟩)
      simp only [ofVendor, Bool.and_eq_true, decide_eq_true_eq] at hvendor
      have hsame := hs'.single job hjob' opened hopened hopen h.isOpen hvendor.1 hvendor.2
      exact h.fresh (hsame ▸ hjob)
  · rintro ⟨hunfinished, hgone⟩
    have hothers : ∀ job ∈ tables'.jobs, isOpenJob job = true → job.rfpId = opened.rfpId →
        job.vendorId = opened.vendorId → job = opened := by
      intro job hjob hopen hrfp hvendor
      refine ((h.jobs job hopen).mp hjob).resolve_right ?_
      rintro ⟨hold, hkept⟩
      exact hkept (hgone job hold (by simp [ofVendor, hrfp, hvendor]) hopen)
    refine ⟨fun rfp hrfp hready job hjob hid => ?_,
      fun job hjob other hother hopen hopen' hrfp hvendor => ?_⟩
    · rw [h.rfps] at hrfp
      by_contra hopen
      rw [Bool.not_eq_false] at hopen
      rcases (h.jobs job hopen).mp hjob with rfl | ⟨hold, _⟩
      · exact hunfinished rfp hrfp hid.symm hready
      · rw [hs.drained rfp hrfp hready job hold hid] at hopen
        cases hopen
    · rcases (h.jobs job hopen).mp hjob with rfl | ⟨hold, _⟩
      · exact (hothers other hother hopen' hrfp.symm hvendor.symm).symm
      · rcases (h.jobs other hopen').mp hother with rfl | ⟨hold', _⟩
        · exact hothers job hjob hopen hrfp hvendor
        · exact hs.single job hold other hold' hopen hopen' hrfp hvendor

theorem enqueue_retreats {job : NewJob} (hterminal : job.status ≠ .received) :
    Retreats tables { tables with jobs := (enqueueIngestionJob job tables.jobs).2 } := by
  refine ⟨fun new hnew hopen => ?_, fun new hnew hready => Or.inl ⟨new, hnew, rfl, hready⟩⟩
  rcases mem_of_mem_enqueue hnew with hold | rfl
  · exact ⟨new, hold, hopen, rfl, rfl, rfl⟩
  · cases hstatus : job.status with
    | received => exact absurd hstatus hterminal
    | needsAttribution => simp [isOpenJob, NewJob.row, hstatus, EntryStatus.jobStatus] at hopen
    | rejectedLate => simp [isOpenJob, NewJob.row, hstatus, EntryStatus.jobStatus] at hopen

/-- A file that is not accepted for a vendor opens no job. -/
theorem handleDroppedFile_retreats {drop : Drop}
    (h : ∀ rfpId vendorId, ¬ Accepts rfpId vendorId tables (now, drop)) :
    Retreats tables (handleDroppedFile sha256OfFile now drop tables).2 := by
  unfold handleDroppedFile
  cases hpath : parseDropPath drop.parts with
  | none => exact .refl tables
  | some path =>
      obtain ⟨rfpId, vendorId⟩ := path
      cases hrfp : getRfpLifecycle rfpId tables with
      | none => simpa only [hrfp] using Retreats.refl tables
      | some rfp =>
          simp only [hrfp]
          cases hgate : lifecycleGate now rfp with
          | some reason => exact enqueue_retreats (by simp [dropRow])
          | none =>
              simp only []
              split
              · rename_i hreceived
                cases vendorId with
                | none => simp [attribution] at hreceived
                | some vendorId =>
                    refine absurd ⟨hpath, ⟨rfp, hrfp, hgate⟩, ?_⟩ (h rfpId vendorId)
                    by_contra hinvited
                    simp [attribution, hinvited] at hreceived
              · rename_i hterminal
                exact enqueue_retreats hterminal

theorem accepted_opens {drop : Drop} {rfpId : String} {vendorId : VendorId}
    (h : Accepts rfpId vendorId tables (now, drop))
    (hfree : ∀ row ∈ tables.jobs, row.hashKey ≠ (rfpId, vendorId, sha256OfFile drop.content)) :
    ∃ opened : JobRow, opened.rfpId = rfpId ∧ opened.vendorId = vendorId ∧
      Opens tables opened
        (fun job => ofVendor rfpId vendorId job = true ∧ job.status = .received)
        (handleDroppedFile sha256OfFile now drop tables).2 := by
  obtain ⟨job, hkey, hreceived, heq⟩ := @handleDroppedFile_of_accepts sha256OfFile _ _ _ _ _ h
  rw [← hkey] at hfree
  obtain ⟨jobs, henqueue, hmem, hfresh⟩ := enqueueIngestionJob_of_free hfree
  obtain ⟨rfl, rfl, _⟩ : job.rfpId = rfpId ∧ job.vendorId = vendorId ∧
      job.contentHash = sha256OfFile drop.content := by simpa [NewJob.hashKey] using hkey
  have hnew : (handleDroppedFile sha256OfFile now drop tables).2 = { tables with
      jobs := supersedePriorReceived job.rfpId job.vendorId (genRandomUuid tables.jobs) jobs } := by
    rw [heq, ingestReceived, henqueue]
  refine ⟨job.row (genRandomUuid tables.jobs), rfl, rfl, ?_⟩
  rw [hnew]
  refine ⟨rfl, ?_, fun hold => hfresh _ hold rfl, fun row hopen => ?_⟩
  · simp [isOpenJob, NewJob.row, hreceived, EntryStatus.jobStatus]
  · constructor
    · intro hrow
      obtain ⟨old, hold, rfl⟩ := List.mem_map.mp hrow
      split at hopen
      · simp [isOpenJob] at hopen
      · rename_i hp
        rw [if_neg hp]
        rcases (hmem old).mp hold with hold | rfl
        · refine Or.inr ⟨hold, ?_⟩
          rintro ⟨hvendor, hstatus⟩
          simp [hvendor, hstatus, hfresh old hold] at hp
        · exact Or.inl rfl
    · rintro (rfl | ⟨hold, hkept⟩)
      · exact List.mem_map.mpr ⟨_, (hmem _).mpr (Or.inr rfl), by simp [NewJob.row]⟩
      · refine List.mem_map.mpr ⟨row, (hmem _).mpr (Or.inl hold), if_neg (fun hp => ?_)⟩
        simp only [Bool.and_eq_true, decide_eq_true_eq] at hp
        exact hkept hp.1

theorem mem_map_update {α : Type*} {rows : List α} {p : α → Bool} {f : α → α} {row new : α}
    (hrow : row ∈ rows) (hp : ∀ other ∈ rows, p other = true ↔ other = row) :
    new ∈ rows.map (fun old => if p old then f old else old) ↔
      new = f row ∨ (new ∈ rows ∧ new ≠ row) := by
  rw [List.mem_map]
  constructor
  · rintro ⟨old, hold, rfl⟩
    by_cases hsame : p old = true
    · rw [if_pos hsame, (hp old hold).mp hsame]
      exact Or.inl rfl
    · rw [if_neg hsame]
      exact Or.inr ⟨hold, fun heq => hsame ((hp old hold).mpr heq)⟩
  · rintro (rfl | ⟨hnew, hne⟩)
    · exact ⟨row, hrow, if_pos ((hp row hrow).mpr rfl)⟩
    · exact ⟨new, hnew, if_neg (fun hsame => hne ((hp new hnew).mp hsame))⟩

theorem opens_of_update {jobs : Jobs} {job opened : JobRow} (hjob : job ∈ tables.jobs)
    (hclosed : isOpenJob job = false) (hopen : isOpenJob opened = true)
    (hid : opened.jobId = job.jobId)
    (hmem : ∀ new, new ∈ jobs ↔ new = opened ∨ (new ∈ tables.jobs ∧ new ≠ job))
    (hrfps : tables'.rfps = tables.rfps) (hjobs : tables'.jobs = jobs) :
    Opens tables opened (fun _ => False) tables' := by
  refine ⟨hrfps, hopen, fun hold => ?_, fun new hnew_open => ?_⟩
  · rw [KeyedTable.eq_of_key_eq hold hjob hid, hclosed] at hopen
    cases hopen
  · rw [hjobs, hmem]
    refine or_congr Iff.rfl ⟨fun ⟨hnew, _⟩ => ⟨hnew, not_false⟩, fun ⟨hnew, _⟩ => ⟨hnew, ?_⟩⟩
    rintro rfl
    rw [hclosed] at hnew_open
    cases hnew_open

theorem inviteVendor_frame (rfpId : String) (vendorId : VendorId) (tables : Tables) :
    (inviteVendor rfpId vendorId tables).rfps = tables.rfps ∧
      (inviteVendor rfpId vendorId tables).jobs = tables.jobs := by
  unfold inviteVendor
  split <;> exact ⟨rfl, rfl⟩

theorem assignCheck_ok {user : TokenData} {jobId : String} {body : AssignVendorRequest} {rfp : Rfp}
    (h : assignCheck user jobId body tables = .ok rfp) :
    ∃ job ∈ tables.jobs, job.jobId = jobId ∧ job.status = .needsAttribution ∧
      rfp.rfpId = job.rfpId := by
  unfold assignCheck at h
  obtain ⟨_, _, h⟩ := bind_eq_ok.mp h
  obtain ⟨_, _, h⟩ := bind_eq_ok.mp h
  obtain ⟨job, hlookup, h⟩ := bind_eq_ok.mp h
  obtain ⟨_, _, h⟩ := bind_eq_ok.mp h
  obtain ⟨_, hstatus, h⟩ := bind_eq_ok.mp h
  obtain ⟨found, hrfp, h⟩ := bind_eq_ok.mp h
  obtain ⟨_, _, h⟩ := bind_eq_ok.mp h
  obtain ⟨hjob, hid⟩ := KeyedTable.lookup_eq_some.mp (orRaise_eq_ok.mp hlookup)
  cases h
  exact ⟨job, hjob, hid, not_not.mp (raiseIf_eq_ok.mp hstatus),
    (KeyedTable.lookup_eq_some.mp (orRaise_eq_ok.mp hrfp)).2⟩

/-- The unique constraint lets the assignment through when no other job has the content under
the vendor. -/
def HashFree (jobId : String) (vendorId : VendorId) (jobs : Jobs) : Prop :=
  ∀ job ∈ jobs, job.jobId = jobId → ∀ other ∈ jobs, other.jobId ≠ jobId →
    other.hashKey ≠ (job.rfpId, vendorId, job.contentHash)

theorem assignWrite_ok_iff {jobs : Jobs} {job : JobRow} (vendorId : VendorId) (status : JobStatus)
    (hjob : job ∈ jobs) (hstatus : job.status = .needsAttribution) :
    (∃ jobs', assignWrite job.jobId vendorId status jobs = .ok jobs') ↔
      HashFree job.jobId vendorId jobs := by
  have hunique : ∀ other ∈ jobs, (other.jobId = job.jobId && other.status = .needsAttribution) =
      true ↔ other = job := by
    intro other hother
    rw [Bool.and_eq_true, decide_eq_true_eq, decide_eq_true_eq]
    refine ⟨fun h => KeyedTable.eq_of_key_eq hother hjob h.1, ?_⟩
    rintro rfl
    exact ⟨rfl, hstatus⟩
  have hkeys : (jobs.table.updateWhere
      (fun row => row.jobId = job.jobId && row.status = .needsAttribution)
      (fun row => { row with vendorId := vendorId, status := status, error := none })
      (fun _ => rfl)).rows.map JobRow.hashKey =
      jobs.table.rows.map (fun row => if row.jobId = job.jobId then
        (job.rfpId, vendorId, job.contentHash) else row.hashKey) := by
    change (jobs.table.rows.map _).map JobRow.hashKey = _
    rw [List.map_map]
    refine List.map_congr_left (fun row hrow => ?_)
    change JobRow.hashKey (if _ then _ else row) = _
    by_cases hid : row.jobId = job.jobId
    · have hsame : row = job := KeyedTable.eq_of_key_eq hrow hjob hid
      rw [if_pos hid, if_pos ((hunique row hrow).mpr hsame), hsame]
      rfl
    · rw [if_neg hid, if_neg (by simp [hid])]
  have hnodup : (jobs.table.rows.map (fun row => if row.jobId = job.jobId then
      (job.rfpId, vendorId, job.contentHash) else row.hashKey)).Nodup ↔
      HashFree job.jobId vendorId jobs := by
    rw [List.nodup_map_iff_inj_on (List.Nodup.of_map _ jobs.table.keys_nodup)]
    constructor
    · intro h row hrow hid other hother hne hkey
      obtain rfl : row = job := KeyedTable.eq_of_key_eq hrow hjob hid
      have hsame : other = row := h other hother row hrow (by rw [if_neg hne, if_pos rfl, hkey])
      exact hne (hsame ▸ rfl)
    · intro h row hrow other hother hkey
      by_cases hr : row.jobId = job.jobId
      · by_cases ho : other.jobId = job.jobId
        · exact KeyedTable.eq_of_key_eq hrow hother (hr.trans ho.symm)
        · rw [if_pos hr, if_neg ho] at hkey
          exact absurd hkey.symm (h job hjob rfl other hother ho)
      · by_cases ho : other.jobId = job.jobId
        · rw [if_neg hr, if_pos ho] at hkey
          exact absurd hkey (h job hjob rfl row hrow hr)
        · rw [if_neg hr, if_neg ho] at hkey
          exact List.inj_on_of_nodup_map jobs.hashes_nodup hrow hother hkey
  rw [← hnodup, ← hkeys]
  unfold assignWrite
  constructor
  · rintro ⟨jobs', h⟩
    dsimp only at h
    split at h
    · rename_i hn
      exact hn
    · cases h
  · intro hn
    exact ⟨_, dif_pos hn⟩

theorem assigned_opens {jobs : Jobs} {job : JobRow} {vendorId : VendorId} {rfp : Rfp}
    (hjob : job ∈ tables.jobs) (hstatus : job.status = .needsAttribution)
    (hwrite : assignWrite job.jobId vendorId (assignedStatus rfp) tables.jobs = .ok jobs)
    (hrfps : tables'.rfps = tables.rfps) (hjobs : tables'.jobs = jobs) :
    Opens tables { job with vendorId := vendorId, status := assignedStatus rfp, error := none }
      (fun _ => False) tables' := by
  refine opens_of_update hjob (by simp [isOpenJob, hstatus]) ?_ rfl (fun new => ?_) hrfps hjobs
  · unfold assignedStatus
    split <;> rfl
  · refine (mem_of_assignWrite hwrite new).trans (List.mem_map.symm.trans
      (mem_map_update hjob (fun other hother => ?_)))
    rw [Bool.and_eq_true, decide_eq_true_eq, decide_eq_true_eq]
    refine ⟨fun h => KeyedTable.eq_of_key_eq hother hjob h.1, ?_⟩
    rintro rfl
    exact ⟨rfl, hstatus⟩

theorem accepted_late_opens {job : JobRow} (hjob : job ∈ tables.jobs)
    (hstatus : job.status = .rejectedLate) :
    Opens tables { job with status := .queued, error := none } (fun _ => False)
      { tables with jobs := acceptLateAddendum job.orgId job.jobId tables.jobs } := by
  refine opens_of_update hjob (by simp [isOpenJob, hstatus]) rfl rfl (fun new => ?_) rfl rfl
  refine mem_map_update hjob (fun other hother => ?_)
  rw [Bool.and_eq_true, Bool.and_eq_true, decide_eq_true_eq, decide_eq_true_eq, decide_eq_true_eq]
  refine ⟨fun h => KeyedTable.eq_of_key_eq hother hjob h.1.1, ?_⟩
  rintro rfl
  exact ⟨⟨rfl, hstatus⟩, rfl⟩

end Openings

section Runs

variable {sha256OfFile : Content → String} {tables : Tables} {s : State}

/-- The request for proposals is not `facts_ready`, and no other job of the vendor is active. -/
def Vacant (rfpId : String) (vendorId : VendorId) (tables : Tables) : Prop :=
  Unfinished rfpId tables ∧
    ∀ job ∈ tables.jobs, ofVendor rfpId vendorId job = true → isOpenJob job = false

/-- A drop that is received finds no job of the vendor beyond `received`, and an administrator
reactivates a job only into a vacant place. -/
def Admits (sha256OfFile : Content → String) (s : State) : Op → Prop
  | .drop drop => ∀ rfpId vendorId, Accepts rfpId vendorId s.tables (s.now, drop) →
      (∀ row ∈ s.tables.jobs, row.hashKey ≠ (rfpId, vendorId, sha256OfFile drop.content)) →
      ∀ job ∈ s.tables.jobs, ofVendor rfpId vendorId job = true →
        job.status ≠ .queued ∧ job.status ≠ .processing
  | .assign user jobId body => ∀ rfp, assignCheck user jobId body s.tables = .ok rfp →
      HashFree jobId body.vendorId s.tables.jobs → Vacant rfp.rfpId body.vendorId s.tables
  | .accept user jobId => user.role ∈ writeRoles → ∀ job ∈ s.tables.jobs, job.jobId = jobId →
      job.status = .rejectedLate → job.orgId = user.orgId → Vacant job.rfpId job.vendorId s.tables
  | _ => True

theorem Sound.congr {tables' : Tables} (hrfps : tables'.rfps = tables.rfps)
    (hjobs : tables'.jobs = tables.jobs) : Sound tables' ↔ Sound tables := by
  constructor
  · rintro ⟨hd, hs⟩
    rw [hrfps, hjobs] at hd
    rw [hjobs] at hs
    exact ⟨hd, hs⟩
  · rintro ⟨hd, hs⟩
    rw [← hrfps, ← hjobs] at hd
    rw [← hjobs] at hs
    exact ⟨hd, hs⟩

theorem Accepts.unfinished {now : Nat} {drop : Drop} {rfpId : String} {vendorId : VendorId}
    (h : Accepts rfpId vendorId tables (now, drop)) : Unfinished rfpId tables := by
  obtain ⟨rfp, hlookup, hgate⟩ := h.window
  obtain ⟨hrfp, hid⟩ := KeyedTable.lookup_eq_some.mp hlookup
  intro other hother hoid hready
  obtain rfl : other = rfp := KeyedTable.eq_of_key_eq hother hrfp (hoid.trans hid.symm)
  simp [lifecycleGate, hready] at hgate

theorem drop_sound_iff {drop : Drop} (hs : Sound s.tables) :
    Sound (apply sha256OfFile s (.drop drop)).tables ↔ Admits sha256OfFile s (.drop drop) := by
  constructor
  · intro hs' rfpId vendorId haccepts hfree job hjob hvendor
    obtain ⟨opened, rfl, rfl, hopens⟩ := accepted_opens haccepts hfree
    have hgone := ((hopens.sound_iff hs).mp hs').2 job hjob hvendor
    refine ⟨fun hqueued => ?_, fun hprocessing => ?_⟩
    · cases hqueued.symm.trans (hgone (by simp [isOpenJob, hqueued])).2
    · cases hprocessing.symm.trans (hgone (by simp [isOpenJob, hprocessing])).2
  · intro hadmits
    by_cases haccepts : ∃ rfpId vendorId, Accepts rfpId vendorId s.tables (s.now, drop)
    · obtain ⟨rfpId, vendorId, haccepts⟩ := haccepts
      by_cases hfree : ∀ row ∈ s.tables.jobs,
          row.hashKey ≠ (rfpId, vendorId, sha256OfFile drop.content)
      · obtain ⟨opened, rfl, rfl, hopens⟩ := accepted_opens haccepts hfree
        refine (hopens.sound_iff hs).mpr ⟨Accepts.unfinished haccepts, fun job hjob hvendor hopen => ?_⟩
        obtain ⟨hqueued, hprocessing⟩ := hadmits _ _ haccepts hfree job hjob hvendor
        refine ⟨hvendor, ?_⟩
        simpa [isOpenJob, hqueued, hprocessing] using hopen
      · -- the content is there already, and the insertion does nothing
        obtain ⟨taken, htaken⟩ := not_forall.mp hfree
        obtain ⟨hmem, hkey⟩ := Classical.not_imp.mp htaken
        obtain ⟨job, hjob, _, heq⟩ := @handleDroppedFile_of_accepts sha256OfFile _ _ _ _ _ haccepts
        change Sound (handleDroppedFile sha256OfFile s.now drop s.tables).2
        rw [heq, ingestReceived_of_taken ⟨taken, hmem, (not_not.mp hkey).trans hjob.symm⟩]
        exact hs
    · simp only [not_exists] at haccepts
      exact hs.retreat (handleDroppedFile_retreats haccepts)

theorem vacant_iff {rfpId : String} {vendorId : VendorId} :
    Vacant rfpId vendorId tables ↔ Unfinished rfpId tables ∧ ∀ job ∈ tables.jobs,
      ofVendor rfpId vendorId job = true → isOpenJob job = true → False := by
  simp [Vacant]

theorem assign_sound_iff {user : TokenData} {jobId : String} {body : AssignVendorRequest}
    (hs : Sound s.tables) : Sound (apply sha256OfFile s (.assign user jobId body)).tables ↔
      Admits sha256OfFile s (.assign user jobId body) := by
  change Sound (assignAttribution user jobId body s.tables).2 ↔ _
  unfold assignAttribution
  cases hcheck : assignCheck user jobId body s.tables with
  | error exc => simp [Admits, hcheck, hs]
  | ok rfp =>
      obtain ⟨job, hjob, rfl, hstatus, hrfp⟩ := assignCheck_ok hcheck
      obtain ⟨hframe, hframe'⟩ := inviteVendor_frame rfp.rfpId body.vendorId s.tables
      have hfree := assignWrite_ok_iff body.vendorId (assignedStatus rfp) hjob hstatus
      simp only [hframe']
      cases hwrite : assignWrite job.jobId body.vendorId (assignedStatus rfp) s.tables.jobs with
      | error exc =>
          have htaken : ¬ HashFree job.jobId body.vendorId s.tables.jobs := by
            rw [← hfree, hwrite]
            rintro ⟨_, h⟩
            cases h
          simp only [Admits, hcheck]
          refine ⟨fun _ _ _ h => absurd h htaken, fun _ => (Sound.congr hframe hframe').mpr hs⟩
      | ok jobs =>
          have hopens := @assigned_opens s.tables
            { inviteVendor rfp.rfpId body.vendorId s.tables with jobs := jobs } jobs job body.vendorId
            rfp hjob hstatus hwrite hframe rfl
          simp only [Admits, hcheck, Except.ok.injEq, forall_eq']
          rw [hopens.sound_iff hs, vacant_iff, hrfp]
          exact ⟨fun h _ => h, fun h => h (hfree.mp ⟨jobs, hwrite⟩)⟩

theorem accept_sound_iff {user : TokenData} {jobId : String} (hs : Sound s.tables) :
    Sound (apply sha256OfFile s (.accept user jobId)).tables ↔
      Admits sha256OfFile s (.accept user jobId) := by
  change Sound (acceptLate user jobId s.tables).2 ↔ _
  unfold acceptLate
  by_cases hrole : user.role ∈ writeRoles
  · have hpass : requireAdminAttributionRole user = .ok () := raiseIf_eq_ok.mpr (by simpa using hrole)
    simp only [hpass]
    by_cases hjob : ∃ job ∈ s.tables.jobs, job.jobId = jobId ∧ job.status = .rejectedLate ∧
        job.orgId = user.orgId
    · obtain ⟨job, hjob, rfl, hstatus, horg⟩ := hjob
      rw [← horg, (accepted_late_opens hjob hstatus).sound_iff hs, ← vacant_iff]
      refine ⟨fun h _ other hother hid _ _ => ?_, fun h => h hrole job hjob rfl hstatus horg⟩
      rwa [KeyedTable.eq_of_key_eq hother hjob hid]
    · refine ⟨fun _ _ job hmem hid hstatus horg => absurd ⟨job, hmem, hid, hstatus, horg⟩ hjob,
        fun _ => hs.retreat (retreats_updateJobs (fun job hmem hp _ => ?_))⟩
      simp only [Bool.and_eq_true, decide_eq_true_eq] at hp
      exact absurd ⟨job, hmem, hp.1.1, hp.1.2, hp.2⟩ hjob
  · have hraise : requireAdminAttributionRole user =
        .error (httpError 403 "Insufficient role") := if_pos hrole
    simp [Admits, hraise, hrole, hs]

theorem createRfp_retreats (rfp : Rfp) (tables : Tables) :
    Retreats tables ((createRfp rfp tables).getD tables) := by
  unfold createRfp
  cases hinsert : tables.rfps.insert? { rfp with submissionStatus := .opened } with
  | none => exact .refl tables
  | some rfps =>
      refine ⟨fun new hnew hopen => ⟨new, hnew, hopen, rfl, rfl, rfl⟩, fun new hnew hready => ?_⟩
      rcases (KeyedTable.mem_of_insert? hinsert new).mp hnew with hold | rfl
      · exact Or.inl ⟨new, hold, rfl, hready⟩
      · cases hready

theorem apply_sound_iff (op : Op) (hs : Sound s.tables) :
    Sound (apply sha256OfFile s op).tables ↔ Admits sha256OfFile s op := by
  cases op with
  | wait => exact iff_of_true hs trivial
  | create rfp => exact iff_of_true (hs.retreat (createRfp_retreats rfp s.tables)) trivial
  | invite rfpId vendorId =>
      obtain ⟨hrfps, hjobs⟩ := inviteVendor_frame rfpId vendorId s.tables
      exact iff_of_true ((Sound.congr hrfps hjobs).mpr hs) trivial
  | extend rfpId deadline =>
      exact iff_of_true (hs.retreat (retreats_updateRfps (fun _ _ hready => Or.inl hready))) trivial
  | drop drop => exact drop_sound_iff hs
  | assign user jobId body => exact assign_sound_iff hs
  | accept user jobId => exact accept_sound_iff hs
  | tick run => exact iff_of_true (hs.retreat (tick_retreats run s.now s.tables)) trivial

theorem sound_empty : Sound Tables.empty :=
  ⟨fun rfp hrfp => absurd hrfp (KeyedTable.not_mem_empty rfp),
    fun job hjob => absurd hjob (KeyedTable.not_mem_empty job)⟩

/-- A sequence of operations goes through sound states only, if and only if each of its drops,
assignments and acceptances is admitted where it takes place. -/
theorem facts_ready_sound_iff (ops : List Op) :
    (∀ pre, pre <+: ops → Sound (pre.foldl (apply sha256OfFile) State.empty).tables) ↔
      AllAdmitted (apply sha256OfFile) (Admits sha256OfFile) State.empty ops :=
  forall_prefix_iff_allAdmitted (I := fun s : State => Sound s.tables)
    (fun _ op hs => apply_sound_iff op hs) sound_empty ops

def revisedAfterDeadline : List Op :=
  [.create tender, .invite "rfp-1" "acme", .drop acmeDrop, .wait, .drop revisedDrop,
    .tick ⟨fun _ => .ready "d1", 1⟩, .accept RunRequests.companyAdmin "uu"]

/-- A late file that is accepted after the request for proposals has become `facts_ready` is an
open job under it. -/
theorem late_acceptance_not_sound :
    ¬ Sound (revisedAfterDeadline.foldl (apply plainHash) State.empty).tables := by
  have hrfps : (revisedAfterDeadline.foldl (apply plainHash) State.empty).tables.rfps.rows =
      [{ tender with submissionStatus := .factsReady }] := by rfl
  have hjobs : (revisedAfterDeadline.foldl (apply plainHash) State.empty).tables.jobs.table.rows =
      [{ acmeJob.row "u" with status := .factsReady, docId := some "d1" },
        { revisedJob.row "uu" with status := .queued }] := by rfl
  have hrfp : { tender with submissionStatus := .factsReady } ∈
      (revisedAfterDeadline.foldl (apply plainHash) State.empty).tables.rfps.rows := by
    rw [hrfps]
    exact List.mem_singleton_self _
  have hjob : { revisedJob.row "uu" with status := .queued } ∈
      (revisedAfterDeadline.foldl (apply plainHash) State.empty).tables.jobs.table.rows := by
    rw [hjobs]
    exact List.mem_cons_of_mem _ (List.mem_singleton_self _)
  intro hsound
  cases hsound.drained _ hrfp rfl _ hjob rfl

end Runs

end RfpPlatform.FactsReadySound
