import RfpPlatform.Submissions
import RfpPlatform.TransitionRuns

namespace RfpPlatform.SubmissionSteps

open AccountRequests (TokenData)
open BackgroundIngestion (JobStatus)
open Ingestion (Content)
open Submissions TransitionRuns

section Writes

structure Assignment where
  jobId : String
  vendorId : VendorId
  rfp : Rfp

inductive Write
  | create (rfp : Rfp)
  | invite (rfpId : String) (vendorId : VendorId)
  | extend (rfpId : String) (deadline : Option Nat)
  | insert (job : NewJob)
  | supersede (rfpId : String) (vendorId : VendorId) (jobId : String)
  | assign (a : Assignment)
  | accept (orgId jobId : String)
  | close
  | queue (rfpId : String) (jobIds : List String)
  | claim (jobId : String)
  | ready (jobId docId : String)
  | fail (jobId reason : String)
  | flip (rfpId : String)
  | emit (rfp : Rfp)

def Tables.onJobs (tables : Tables) (f : Jobs → Jobs) : Tables :=
  { tables with jobs := f tables.jobs }

def Write.apply (now : Nat) (tables : Tables) : Write → Tables
  | .create rfp => (createRfp rfp tables).getD tables
  | .invite rfpId vendorId => inviteVendor rfpId vendorId tables
  | .extend rfpId deadline => setDeadline rfpId deadline tables
  | .insert job => Tables.onJobs tables (fun jobs => (enqueueIngestionJob job jobs).2)
  | .supersede rfpId vendorId jobId =>
      Tables.onJobs tables (supersedePriorReceived rfpId vendorId jobId)
  | .assign a => Tables.onJobs tables (fun jobs =>
      ((assignWrite a.jobId a.vendorId (assignedStatus a.rfp) jobs).toOption).getD jobs)
  | .accept orgId jobId => Tables.onJobs tables (acceptLateAddendum orgId jobId)
  | .close => closeExpiredRfps now tables
  | .queue rfpId jobIds => queueRfp rfpId jobIds tables
  | .claim jobId => Tables.onJobs tables (claimForProcessing jobId)
  | .ready jobId docId => Tables.onJobs tables (markFactsReady jobId docId)
  | .fail jobId reason => Tables.onJobs tables (markFailed jobId reason)
  | .flip rfpId => flipFactsReady rfpId tables
  | .emit rfp => { tables with eventLog := tables.eventLog ++ [lifecycleEvent rfp] }

def applyWrite (now : Nat) (tables : Tables) : Option Write → Tables
  | some write => write.apply now tables
  | none => tables

end Writes

section Steps

/-- A call in progress, with what it has read so far: of the watcher, of the administrator's
assignment, of a tick's pass over one request for proposals, and of `process_job`. -/
inductive Call
  | admitted (drop : Drop) (rfp : Rfp) (vendorId : Option VendorId)
  | checked (job : NewJob)
  | inserted (rfpId : String) (vendorId : VendorId) (jobId : String)
  | assigning (a : Assignment)
  | selected (rfpId : String)
  | pass (rfpId : String) (jobIds : List String)
  | working (jobId : String)
  | raised (jobId : String)
  | counted (rfpId : String)
  | winner (rfp : Rfp)

def Call.owns (jobId : String) : Call → Prop
  | .working id => id = jobId
  | .raised id => id = jobId
  | _ => False

/-- Only a new row that is `received` is followed by a supersession. -/
def afterInsert (job : NewJob) (jobId : Option String) : Option Call :=
  if job.status = .received then jobId.map (.inserted job.rfpId job.vendorId) else none

def afterFlip (rfpId : String) (tables : Tables) : Option Call :=
  ((tables.rfps.lookup rfpId).filter (fun rfp => rfp.submissionStatus = .processing)).map .winner

/-- The steps of a call: each has at most one transaction. -/
inductive CallStep (sha256OfFile : Content → String) (now : Nat) (tables : Tables) :
    Option Call → Option Write → Option Call → Prop
  | created (rfp : Rfp) : CallStep sha256OfFile now tables none (some (.create rfp)) none
  | invited (rfpId : String) (vendorId : VendorId) :
      CallStep sha256OfFile now tables none (some (.invite rfpId vendorId)) none
  | extended (rfpId : String) (deadline : Option Nat) :
      CallStep sha256OfFile now tables none (some (.extend rfpId deadline)) none
  | accepted (orgId jobId : String) :
      CallStep sha256OfFile now tables none (some (.accept orgId jobId)) none
  | turnedAway {drop : Drop} {rfpId : String} {vendorId : Option VendorId} {rfp : Rfp}
      {reason : String} (hpath : parseDropPath drop.parts = some (rfpId, vendorId))
      (hrfp : getRfpLifecycle rfpId tables = some rfp)
      (hgate : lifecycleGate now rfp = some reason) :
      CallStep sha256OfFile now tables none none
        (some (.checked (dropRow sha256OfFile drop rfp (vendorId.getD unknownVendor) .rejectedLate)))
  | admitted {drop : Drop} {rfpId : String} {vendorId : Option VendorId} {rfp : Rfp}
      (hpath : parseDropPath drop.parts = some (rfpId, vendorId))
      (hrfp : getRfpLifecycle rfpId tables = some rfp) (hgate : lifecycleGate now rfp = none) :
      CallStep sha256OfFile now tables none none (some (.admitted drop rfp vendorId))
  | attributed (drop : Drop) (rfp : Rfp) (vendorId : Option VendorId) :
      CallStep sha256OfFile now tables (some (.admitted drop rfp vendorId)) none
        (some (.checked (dropRow sha256OfFile drop rfp (vendorId.getD unknownVendor)
          (attribution vendorId
            (vendorId.any (fun v => isInvitedVendor rfp.rfpId v tables))).1)))
  | inserted (job : NewJob) :
      CallStep sha256OfFile now tables (some (.checked job)) (some (.insert job))
        (afterInsert job (enqueueIngestionJob job tables.jobs).1)
  | superseded (rfpId : String) (vendorId : VendorId) (jobId : String) :
      CallStep sha256OfFile now tables (some (.inserted rfpId vendorId jobId))
        (some (.supersede rfpId vendorId jobId)) none
  | assignChecked {user : TokenData} {jobId : String} {body : AssignVendorRequest} {rfp : Rfp}
      (hcheck : assignCheck user jobId body tables = .ok rfp) :
      CallStep sha256OfFile now tables none none (some (.assigning ⟨jobId, body.vendorId, rfp⟩))
  | assigned (a : Assignment) :
      CallStep sha256OfFile now tables (some (.assigning a)) (some (.assign a)) none
  | closed : CallStep sha256OfFile now tables none (some .close) none
  | selected {rfp : Rfp} (hclosed : rfp ∈ closedRfps tables) :
      CallStep sha256OfFile now tables none none (some (.selected rfp.rfpId))
  | scanned (rfpId : String) :
      CallStep sha256OfFile now tables (some (.selected rfpId)) none
        (some (.pass rfpId (receivedJobs rfpId tables.jobs)))
  | committed (rfpId : String) (jobIds : List String) :
      CallStep sha256OfFile now tables (some (.pass rfpId jobIds))
        (some (.queue rfpId jobIds)) none
  | claimed {jobId : String} (hqueued : jobId ∈ listQueuedJobs tables.jobs) :
      CallStep sha256OfFile now tables none (some (.claim jobId)) (some (.working jobId))
  | raised (jobId : String) :
      CallStep sha256OfFile now tables (some (.working jobId)) none (some (.raised jobId))
  | completed (jobId docId : String) :
      CallStep sha256OfFile now tables (some (.working jobId)) (some (.ready jobId docId)) none
  | failed {call : Call} (jobId reason : String) (howns : call.owns jobId) :
      CallStep sha256OfFile now tables (some call) (some (.fail jobId reason)) none
  | counted {rfp : Rfp} (hrfp : rfp ∈ tables.rfps) (hprocessing : rfp.submissionStatus = .processing)
      (hcompleted : completed rfp.rfpId tables.jobs = true) :
      CallStep sha256OfFile now tables none none (some (.counted rfp.rfpId))
  | flipped (rfpId : String) :
      CallStep sha256OfFile now tables (some (.counted rfpId)) (some (.flip rfpId))
        (afterFlip rfpId tables)
  | emitted (rfp : Rfp) :
      CallStep sha256OfFile now tables (some (.winner rfp)) (some (.emit rfp)) none
  -- a crash, a rollback, or an exception that nothing handles
  | aborted (call : Call) : CallStep sha256OfFile now tables (some call) none none

structure World where
  now : Nat
  tables : Tables
  calls : List Call

def World.empty : World := ⟨0, Tables.empty, []⟩

inductive Label
  | wait
  | call (before : Option Call) (write : Option Write) (after : Option Call)

/-- The label is that of a call that ends without a write. -/
def Label.cutOff : Label → Prop
  | .call (some _) none none => True
  | _ => False

theorem afterInsert_cases {job : NewJob} {jobId : Option String} {call : Call}
    (h : afterInsert job jobId = some call) :
    job.status = .received ∧ ∃ id, jobId = some id ∧ call = .inserted job.rfpId job.vendorId id := by
  unfold afterInsert at h
  split at h
  · rename_i hreceived
    obtain ⟨id, hid, hcall⟩ := Option.map_eq_some_iff.mp h
    exact ⟨hreceived, id, hid, hcall.symm⟩
  · cases h

theorem afterFlip_cases {rfpId : String} {tables : Tables} {call : Call}
    (h : afterFlip rfpId tables = some call) : ∃ rfp, call = .winner rfp := by
  obtain ⟨rfp, _, hcall⟩ := Option.map_eq_some_iff.mp h
  exact ⟨rfp, hcall.symm⟩

section Inversions

variable {sha256OfFile : Content → String} {now : Nat} {tables : Tables}
  {call next : Option Call} {write : Option Write} {rfpId jobId : String} {jobIds : List String}

theorem CallStep.of_queue
    (h : CallStep sha256OfFile now tables call (some (.queue rfpId jobIds)) next) :
    call = some (.pass rfpId jobIds) := by
  cases h with
  | committed => rfl

theorem CallStep.of_pass (h : CallStep sha256OfFile now tables call write next)
    (hnext : next = some (.pass rfpId jobIds)) :
    write = none ∧ call = some (.selected rfpId) ∧ jobIds = receivedJobs rfpId tables.jobs := by
  cases h with
  | scanned =>
      cases hnext
      exact ⟨rfl, rfl, rfl⟩
  | inserted job =>
      obtain ⟨_, _, _, hcall⟩ := afterInsert_cases hnext
      cases hcall
  | flipped =>
      obtain ⟨_, hcall⟩ := afterFlip_cases hnext
      cases hcall
  | _ => cases hnext

theorem CallStep.of_selected (h : CallStep sha256OfFile now tables call write next)
    (hnext : next = some (.selected rfpId)) : ∃ rfp ∈ closedRfps tables, rfp.rfpId = rfpId := by
  cases h with
  | @selected rfp hclosed =>
      cases hnext
      exact ⟨rfp, hclosed, rfl⟩
  | inserted job =>
      obtain ⟨_, _, _, hcall⟩ := afterInsert_cases hnext
      cases hcall
  | flipped =>
      obtain ⟨_, hcall⟩ := afterFlip_cases hnext
      cases hcall
  | _ => cases hnext

theorem CallStep.of_owner (h : CallStep sha256OfFile now tables call write next) {owner : Call}
    (hnext : next = some owner) (howns : owner.owns jobId) :
    (write = some (.claim jobId) ∧ jobId ∈ listQueuedJobs tables.jobs) ∨
      ∃ before, call = some before ∧ before.owns jobId := by
  cases h with
  | claimed hqueued =>
      cases hnext
      cases howns
      exact Or.inl ⟨rfl, hqueued⟩
  | raised =>
      cases hnext
      exact Or.inr ⟨_, rfl, howns⟩
  | inserted job =>
      obtain ⟨_, _, _, rfl⟩ := afterInsert_cases hnext
      exact howns.elim
  | flipped =>
      obtain ⟨_, rfl⟩ := afterFlip_cases hnext
      exact howns.elim
  | _ =>
      cases hnext
      all_goals exact howns.elim

theorem CallStep.of_completion (h : CallStep sha256OfFile now tables call write next)
    (hwrite : (∃ docId, write = some (.ready jobId docId)) ∨
      ∃ reason, write = some (.fail jobId reason)) :
    ∃ owner, call = some owner ∧ owner.owns jobId := by
  rcases hwrite with ⟨docId, rfl⟩ | ⟨reason, rfl⟩
  · cases h with
    | completed => exact ⟨_, rfl, rfl⟩
  · cases h with
    | failed _ _ howns => exact ⟨_, rfl, howns⟩

theorem CallStep.of_claim (h : CallStep sha256OfFile now tables call (some (.claim jobId)) next) :
    next = some (.working jobId) := by
  cases h with
  | claimed => rfl

/-- An execution of `process_job` goes on, makes a completion write, or is cut off. -/
theorem CallStep.owner_cases {owner : Call}
    (h : CallStep sha256OfFile now tables (some owner) write next) (howns : owner.owns jobId) :
    (∃ after, next = some after ∧ after.owns jobId) ∨
      ((∃ docId, write = some (.ready jobId docId)) ∨
        ∃ reason, write = some (.fail jobId reason)) ∨ (write = none ∧ next = none) := by
  cases h with
  | raised => exact Or.inl ⟨_, rfl, howns⟩
  | completed id docId =>
      cases howns
      exact Or.inr (Or.inl (Or.inl ⟨docId, rfl⟩))
  | failed id reason hid =>
      have hsame : id = jobId := by
        cases owner with
        | working => exact hid.symm.trans howns
        | raised => exact hid.symm.trans howns
        | _ => exact howns.elim
      exact Or.inr (Or.inl (Or.inr ⟨reason, by rw [hsame]⟩))
  | aborted => exact Or.inr (Or.inr ⟨rfl, rfl⟩)
  | _ => exact howns.elim

theorem CallStep.of_flip (h : CallStep sha256OfFile now tables call (some (.flip rfpId)) next) :
    call = some (.counted rfpId) := by
  cases h with
  | flipped => rfl

theorem CallStep.of_counted (h : CallStep sha256OfFile now tables call write next)
    (hnext : next = some (.counted rfpId)) :
    Submissions.completed rfpId tables.jobs = true := by
  cases h with
  | counted hrfp hprocessing hcompleted =>
      cases hnext
      exact hcompleted
  | inserted job =>
      obtain ⟨_, _, _, hcall⟩ := afterInsert_cases hnext
      cases hcall
  | flipped =>
      obtain ⟨_, hcall⟩ := afterFlip_cases hnext
      cases hcall
  | _ => cases hnext

end Inversions

theorem mem_calls_before {before after : List Call} {call : Option Call} {c : Call}
    {calls : List Call} (next : Option Call) (hcalls : calls = before ++ call.toList ++ after)
    (h : c ∈ calls) : c ∈ before ++ next.toList ++ after ∨ call = some c := by
  rw [hcalls, List.append_assoc] at h
  rw [List.append_assoc]
  rcases List.mem_append.mp h with hbefore | h
  · exact Or.inl (List.mem_append_left _ hbefore)
  · rcases List.mem_append.mp h with hcall | hafter
    · exact Or.inr (Option.mem_toList.mp hcall)
    · exact Or.inl (List.mem_append_right _ (List.mem_append_right _ hafter))

theorem mem_calls_after {before after : List Call} {call next : Option Call} {c : Call}
    {calls : List Call} (hcalls : calls = before ++ call.toList ++ after)
    (h : c ∈ before ++ next.toList ++ after) : c ∈ calls ∨ next = some c := by
  rw [List.append_assoc] at h hcalls
  rcases List.mem_append.mp h with hbefore | h
  · exact Or.inl (hcalls ▸ List.mem_append_left _ hbefore)
  · rcases List.mem_append.mp h with hnext | hafter
    · exact Or.inr (Option.mem_toList.mp hnext)
    · exact Or.inl (hcalls ▸ List.mem_append_right _ (List.mem_append_right _ hafter))

theorem call_mem {before after : List Call} {call : Option Call} {c : Call} {calls : List Call}
    (hcalls : calls = before ++ call.toList ++ after) (hcall : call = some c) : c ∈ calls := by
  subst hcall
  simp [hcalls]

/-- The calls take their steps in any order, and any number of them is in progress. -/
inductive Step (sha256OfFile : Content → String) : World → Label → World → Prop
  | wait (w : World) : Step sha256OfFile w .wait { w with now := w.now + 1 }
  | call {w : World} {before after : List Call} {call next : Option Call} {write : Option Write}
      (hcalls : w.calls = before ++ call.toList ++ after)
      (hstep : CallStep sha256OfFile w.now w.tables call write next) :
      Step sha256OfFile w (.call call write next)
        { w with
          tables := applyWrite w.now w.tables write
          calls := before ++ next.toList ++ after }

end Steps

section JobEffects

/-- How a write changes a job that it does not insert. -/
def Write.Moves (write : Write) (old new : JobRow) : Prop :=
  match write with
  | .supersede rfpId vendorId jobId =>
      (old.rfpId = rfpId ∧ old.vendorId = vendorId ∧ old.jobId ≠ jobId) ∧
        old.status = .received ∧ new.status = .superseded
  | .assign a =>
      old.jobId = a.jobId ∧ old.status = .needsAttribution ∧ new.status = assignedStatus a.rfp
  | .accept _ jobId => old.jobId = jobId ∧ old.status = .rejectedLate ∧ new.status = .queued
  | .queue _ jobIds => old.jobId ∈ jobIds ∧ old.status = .received ∧ new.status = .queued
  | .claim jobId => old.jobId = jobId ∧ old.status = .queued ∧ new.status = .processing
  | .ready jobId _ => old.jobId = jobId ∧ new.status = .factsReady
  | .fail jobId _ => old.jobId = jobId ∧ new.status = .failed
  | _ => False

variable {now : Nat} {tables : Tables} {write : Write} {new : JobRow}

def SameJob (old new : JobRow) : Prop := new.jobId = old.jobId ∧ new.rfpId = old.rfpId

theorem mem_updateWhere_cases {jobs : Jobs} {p : JobRow → Bool} {f : JobRow → JobRow}
    (hid : ∀ job, (f job).jobId = job.jobId := by intro; rfl)
    (hkey : ∀ job, (f job).hashKey = job.hashKey := by intro; rfl)
    (h : new ∈ jobs.updateWhere p f hid hkey) :
    ∃ old ∈ jobs, SameJob old new ∧ (new = old ∨ (p old = true ∧ new = f old)) := by
  obtain ⟨old, hold, rfl⟩ := mem_updateWhere.mp h
  by_cases hp : p old = true
  · rw [if_pos hp]
    exact ⟨old, hold, ⟨hid old, congrArg Prod.fst (hkey old)⟩, Or.inr ⟨hp, rfl⟩⟩
  · rw [if_neg hp]
    exact ⟨old, hold, ⟨rfl, rfl⟩, Or.inl rfl⟩

/-- Every job after a write is an old one, moved as the write says, or the inserted one. -/
theorem Write.job_cases (h : new ∈ (write.apply now tables).jobs) :
    (∃ old ∈ tables.jobs, SameJob old new ∧ (new = old ∨ write.Moves old new)) ∨
      ∃ job, write = .insert job ∧ new = job.row (genRandomUuid tables.jobs) := by
  have hkept : new ∈ tables.jobs →
      ∃ old ∈ tables.jobs, SameJob old new ∧ (new = old ∨ write.Moves old new) :=
    fun hnew => ⟨new, hnew, ⟨rfl, rfl⟩, Or.inl rfl⟩
  cases write with
  | create rfp =>
      refine Or.inl (hkept ?_)
      change new ∈ ((createRfp rfp tables).getD tables).jobs at h
      unfold createRfp at h
      cases hinsert : tables.rfps.insert? { rfp with submissionStatus := .opened } with
      | none => rwa [hinsert] at h
      | some rfps => rwa [hinsert] at h
  | invite rfpId vendorId =>
      refine Or.inl (hkept ?_)
      change new ∈ (inviteVendor rfpId vendorId tables).jobs at h
      unfold inviteVendor at h
      split at h <;> exact h
  | extend rfpId deadline => exact Or.inl (hkept h)
  | insert job =>
      rcases mem_of_mem_enqueue h with hold | hnew
      · exact Or.inl (hkept hold)
      · exact Or.inr ⟨job, rfl, hnew⟩
  | supersede rfpId vendorId jobId =>
      obtain ⟨old, hold, hsame, hnew | ⟨hp, rfl⟩⟩ := mem_updateWhere_cases (h := h)
      · exact Or.inl ⟨old, hold, hsame, Or.inl hnew⟩
      · refine Or.inl ⟨old, hold, hsame, Or.inr ?_⟩
        simp only [ofVendor, Bool.and_eq_true, decide_eq_true_eq] at hp
        exact ⟨⟨hp.1.1.1, hp.1.1.2, hp.2⟩, hp.1.2, rfl⟩
  | assign a =>
      change new ∈ ((assignWrite a.jobId a.vendorId (assignedStatus a.rfp)
        tables.jobs).toOption).getD tables.jobs at h
      cases hassign : assignWrite a.jobId a.vendorId (assignedStatus a.rfp) tables.jobs with
      | error exc =>
          rw [hassign] at h
          exact Or.inl (hkept h)
      | ok jobs =>
        rw [hassign] at h
        obtain ⟨old, hold, rfl⟩ := (mem_of_assignWrite hassign new).mp h
        refine Or.inl ⟨old, hold, ?_⟩
        split
        · rename_i hp
          simp only [Bool.and_eq_true, decide_eq_true_eq] at hp
          exact ⟨⟨rfl, rfl⟩, Or.inr ⟨hp.1, hp.2, rfl⟩⟩
        · exact ⟨⟨rfl, rfl⟩, Or.inl rfl⟩
  | accept orgId jobId =>
      obtain ⟨old, hold, hsame, hnew | ⟨hp, rfl⟩⟩ := mem_updateWhere_cases (h := h)
      · exact Or.inl ⟨old, hold, hsame, Or.inl hnew⟩
      · simp only [Bool.and_eq_true, decide_eq_true_eq] at hp
        exact Or.inl ⟨old, hold, hsame, Or.inr ⟨hp.1.1, hp.1.2, rfl⟩⟩
  | close => exact Or.inl (hkept h)
  | queue rfpId jobIds =>
      obtain ⟨old, hold, hsame, hnew | ⟨hp, rfl⟩⟩ := mem_updateWhere_cases (h := h)
      · exact Or.inl ⟨old, hold, hsame, Or.inl hnew⟩
      · simp only [Bool.and_eq_true, decide_eq_true_eq] at hp
        exact Or.inl ⟨old, hold, hsame, Or.inr ⟨hp.1, hp.2, rfl⟩⟩
  | claim jobId =>
      obtain ⟨old, hold, hsame, hnew | ⟨hp, rfl⟩⟩ := mem_updateWhere_cases (h := h)
      · exact Or.inl ⟨old, hold, hsame, Or.inl hnew⟩
      · simp only [Bool.and_eq_true, decide_eq_true_eq] at hp
        exact Or.inl ⟨old, hold, hsame, Or.inr ⟨hp.1, hp.2, rfl⟩⟩
  | ready jobId docId =>
      obtain ⟨old, hold, hsame, hnew | ⟨hp, rfl⟩⟩ := mem_updateWhere_cases (h := h)
      · exact Or.inl ⟨old, hold, hsame, Or.inl hnew⟩
      · exact Or.inl ⟨old, hold, hsame, Or.inr ⟨of_decide_eq_true hp, rfl⟩⟩
  | fail jobId reason =>
      obtain ⟨old, hold, hsame, hnew | ⟨hp, rfl⟩⟩ := mem_updateWhere_cases (h := h)
      · exact Or.inl ⟨old, hold, hsame, Or.inl hnew⟩
      · exact Or.inl ⟨old, hold, hsame, Or.inr ⟨of_decide_eq_true hp, rfl⟩⟩
  | flip rfpId => exact Or.inl (hkept h)
  | emit rfp => exact Or.inl (hkept h)

theorem id_of_mem_updateWhere {jobs : Jobs} {p : JobRow → Bool} {f : JobRow → JobRow}
    (hid : ∀ job, (f job).jobId = job.jobId := by intro; rfl)
    (hkey : ∀ job, (f job).hashKey = job.hashKey := by intro; rfl) {old : JobRow}
    (h : old ∈ jobs) : ∃ new ∈ jobs.updateWhere p f hid hkey, new.jobId = old.jobId := by
  refine ⟨if p old then f old else old, mem_updateWhere.mpr ⟨old, h, rfl⟩, ?_⟩
  split
  · exact hid old
  · rfl

variable (now write) in
theorem Write.job_persists {old : JobRow} (hold : old ∈ tables.jobs) :
    ∃ new ∈ (write.apply now tables).jobs, new.jobId = old.jobId := by
  cases write with
  | create rfp =>
      refine ⟨old, ?_, rfl⟩
      change old ∈ ((createRfp rfp tables).getD tables).jobs
      unfold createRfp
      cases tables.rfps.insert? { rfp with submissionStatus := .opened } <;> exact hold
  | invite rfpId vendorId =>
      refine ⟨old, ?_, rfl⟩
      change old ∈ (inviteVendor rfpId vendorId tables).jobs
      unfold inviteVendor
      split <;> exact hold
  | insert job =>
      refine ⟨old, ?_, rfl⟩
      change old ∈ (enqueueIngestionJob job tables.jobs).2
      by_cases hfree : ∀ row ∈ tables.jobs, row.hashKey ≠ job.hashKey
      · obtain ⟨jobs, henqueue, hmem, _⟩ := enqueueIngestionJob_of_free hfree
        rw [henqueue]
        exact (hmem old).mpr (Or.inl hold)
      · obtain ⟨taken, htaken⟩ := not_forall.mp hfree
        obtain ⟨hmem, hkey⟩ := Classical.not_imp.mp htaken
        rw [enqueueIngestionJob_of_taken ⟨taken, hmem, not_not.mp hkey⟩]
        exact hold
  | assign a =>
      change ∃ new ∈ ((assignWrite a.jobId a.vendorId (assignedStatus a.rfp)
        tables.jobs).toOption).getD tables.jobs, _
      cases hassign : assignWrite a.jobId a.vendorId (assignedStatus a.rfp) tables.jobs with
      | error exc => exact ⟨old, hold, rfl⟩
      | ok jobs =>
          refine ⟨_, (mem_of_assignWrite hassign _).mpr ⟨old, hold, rfl⟩, ?_⟩
          split <;> rfl
  | extend rfpId deadline => exact ⟨old, hold, rfl⟩
  | close => exact ⟨old, hold, rfl⟩
  | flip rfpId => exact ⟨old, hold, rfl⟩
  | emit rfp => exact ⟨old, hold, rfl⟩
  | supersede rfpId vendorId jobId => exact id_of_mem_updateWhere (h := hold)
  | accept orgId jobId => exact id_of_mem_updateWhere (h := hold)
  | queue rfpId jobIds => exact id_of_mem_updateWhere (h := hold)
  | claim jobId => exact id_of_mem_updateWhere (h := hold)
  | ready jobId docId => exact id_of_mem_updateWhere (h := hold)
  | fail jobId reason => exact id_of_mem_updateWhere (h := hold)

theorem genRandomUuid_ne {jobs : Jobs} {row : JobRow} (h : row ∈ jobs) :
    row.jobId ≠ genRandomUuid jobs :=
  fun hid => genRandomUuid_fresh jobs (List.mem_map.mpr ⟨row, h, hid⟩)

def Write.completes : Write → Bool
  | .ready .. => true
  | .fail .. => true
  | _ => false

section Unowned

variable {sha256OfFile : Content → String} {w : World} {before after : List Call}
  {call next : Option Call} {jobId : String}

/-- A job that no execution of `process_job` owns is not touched by a completion write. -/
theorem unowned_job_cases (hunowned : ∀ c ∈ w.calls, ¬ c.owns jobId)
    (hthere : ∃ job ∈ w.tables.jobs, job.jobId = jobId)
    (hcalls : w.calls = before ++ call.toList ++ after)
    (hstep : CallStep sha256OfFile w.now w.tables call (some write) next)
    (hnew : new ∈ (write.apply w.now w.tables).jobs) (hid : new.jobId = jobId) :
    ∃ old ∈ w.tables.jobs, SameJob old new ∧ old.jobId = jobId ∧
      (new = old ∨ (write.completes = false ∧ write.Moves old new)) := by
  rcases write.job_cases hnew with ⟨old, hold, hsame, hcase⟩ | ⟨job, rfl, rfl⟩
  · have hold_id : old.jobId = jobId := hsame.1.symm.trans hid
    have howner : ∀ owner, call = some owner → ¬ owner.owns jobId :=
      fun owner howner => hunowned owner (call_mem hcalls howner)
    refine ⟨old, hold, hsame, hold_id, hcase.imp_right (fun hmoves => ⟨?_, hmoves⟩)⟩
    cases write with
    | ready id docId =>
        obtain ⟨owner, hcall, howns⟩ := hstep.of_completion (Or.inl ⟨docId, rfl⟩)
        rw [← hmoves.1, hold_id] at howns
        exact absurd howns (howner owner hcall)
    | fail id reason =>
        obtain ⟨owner, hcall, howns⟩ := hstep.of_completion (Or.inr ⟨reason, rfl⟩)
        rw [← hmoves.1, hold_id] at howns
        exact absurd howns (howner owner hcall)
    | _ => rfl
  · obtain ⟨old, hold, hold_id⟩ := hthere
    exact absurd (hold_id.trans hid.symm) (genRandomUuid_ne hold)

theorem unowned_next {write : Option Write} (hunowned : ∀ c ∈ w.calls, ¬ c.owns jobId)
    (hunqueued : ∀ job ∈ w.tables.jobs, job.jobId = jobId → job.status ≠ .queued)
    (hcalls : w.calls = before ++ call.toList ++ after)
    (hstep : CallStep sha256OfFile w.now w.tables call write next) :
    ∀ c ∈ before ++ next.toList ++ after, ¬ c.owns jobId := by
  intro c hmem howns
  rcases mem_calls_after hcalls hmem with hmem | hnext
  · exact hunowned c hmem howns
  · rcases hstep.of_owner hnext howns with ⟨_, hqueued⟩ | ⟨owner, hcall, howner⟩
    · obtain ⟨job, hjob, hid⟩ := List.mem_map.mp hqueued
      obtain ⟨hmem, hp⟩ := List.mem_filter.mp hjob
      exact hunqueued job hmem hid (of_decide_eq_true hp)
    · exact hunowned owner (call_mem hcalls hcall) howner

end Unowned

end JobEffects

section RfpEffects

/-- How a write changes the submission status of a request for proposals. -/
def Write.Advances (write : Write) (old new : Rfp) : Prop :=
  match write with
  | .close => old.submissionStatus = .opened ∧ new.submissionStatus = .closed
  | .queue rfpId _ =>
      old.rfpId = rfpId ∧ old.submissionStatus = .closed ∧ new.submissionStatus = .processing
  | .flip rfpId =>
      old.rfpId = rfpId ∧ old.submissionStatus = .processing ∧ new.submissionStatus = .factsReady
  | _ => False

variable {now : Nat} {tables : Tables} {write : Write} {old new : Rfp}

theorem mem_updateRfps_cases {p : Rfp → Bool} {f : Rfp → Rfp}
    {hf : ∀ rfp, (f rfp).rfpId = rfp.rfpId} (h : new ∈ (tables.updateRfps p f hf).rfps) :
    ∃ old ∈ tables.rfps, new.rfpId = old.rfpId ∧ (new = old ∨ (p old = true ∧ new = f old)) := by
  obtain ⟨old, hold, rfl⟩ := List.mem_map.mp h
  by_cases hp : p old = true
  · rw [if_pos hp]
    exact ⟨old, hold, hf old, Or.inr ⟨hp, rfl⟩⟩
  · rw [if_neg hp]
    exact ⟨old, hold, rfl, Or.inl rfl⟩

theorem rfp_of_mem_updateRfps {p : Rfp → Bool} {f : Rfp → Rfp}
    {hf : ∀ rfp, (f rfp).rfpId = rfp.rfpId} (hold : old ∈ tables.rfps) :
    ∃ new ∈ (tables.updateRfps p f hf).rfps, new.rfpId = old.rfpId := by
  refine ⟨if p old then f old else old, List.mem_map.mpr ⟨old, hold, rfl⟩, ?_⟩
  split
  · exact hf old
  · rfl

/-- A request for proposals after a write is an old one, advanced as the write says, or the
created one, which is open. -/
theorem Write.rfp_cases (h : new ∈ (write.apply now tables).rfps) :
    (∃ old ∈ tables.rfps, new.rfpId = old.rfpId ∧
      (new.submissionStatus = old.submissionStatus ∨ write.Advances old new)) ∨
      (new.submissionStatus = .opened ∧ ∀ old ∈ tables.rfps, old.rfpId ≠ new.rfpId) := by
  have hkept : new ∈ tables.rfps → ∃ old ∈ tables.rfps, new.rfpId = old.rfpId ∧
      (new.submissionStatus = old.submissionStatus ∨ write.Advances old new) :=
    fun hnew => ⟨new, hnew, rfl, Or.inl rfl⟩
  cases write with
  | create rfp =>
      change new ∈ ((createRfp rfp tables).getD tables).rfps at h
      unfold createRfp at h
      cases hinsert : tables.rfps.insert? { rfp with submissionStatus := .opened } with
      | none =>
          rw [hinsert] at h
          exact Or.inl (hkept h)
      | some rfps =>
          rw [hinsert] at h
          rcases (KeyedTable.mem_of_insert? hinsert new).mp h with hold | rfl
          · exact Or.inl (hkept hold)
          · exact Or.inr ⟨rfl, KeyedTable.key_fresh_of_insert? hinsert⟩
  | invite rfpId vendorId =>
      refine Or.inl (hkept ?_)
      change new ∈ (inviteVendor rfpId vendorId tables).rfps at h
      unfold inviteVendor at h
      split at h <;> exact h
  | extend rfpId deadline =>
      obtain ⟨old, hold, hid, rfl | ⟨_, rfl⟩⟩ := mem_updateRfps_cases h
      · exact Or.inl (hkept hold)
      · exact Or.inl ⟨old, hold, hid, Or.inl rfl⟩
  | close =>
      obtain ⟨old, hold, hid, rfl | ⟨hp, rfl⟩⟩ := mem_updateRfps_cases h
      · exact Or.inl (hkept hold)
      · simp only [Bool.and_eq_true, decide_eq_true_eq] at hp
        exact Or.inl ⟨old, hold, hid, Or.inr ⟨hp.1.1, rfl⟩⟩
  | queue rfpId jobIds =>
      obtain ⟨old, hold, hid, rfl | ⟨hp, rfl⟩⟩ := mem_updateRfps_cases h
      · exact Or.inl (hkept hold)
      · simp only [Bool.and_eq_true, decide_eq_true_eq] at hp
        exact Or.inl ⟨old, hold, hid, Or.inr ⟨hp.1, hp.2, rfl⟩⟩
  | flip rfpId =>
      obtain ⟨old, hold, hid, rfl | ⟨hp, rfl⟩⟩ := mem_updateRfps_cases h
      · exact Or.inl (hkept hold)
      · simp only [Bool.and_eq_true, decide_eq_true_eq] at hp
        exact Or.inl ⟨old, hold, hid, Or.inr ⟨hp.1, hp.2, rfl⟩⟩
  | insert job => exact Or.inl (hkept h)
  | supersede rfpId vendorId jobId => exact Or.inl (hkept h)
  | assign a => exact Or.inl (hkept h)
  | accept orgId jobId => exact Or.inl (hkept h)
  | claim jobId => exact Or.inl (hkept h)
  | ready jobId docId => exact Or.inl (hkept h)
  | fail jobId reason => exact Or.inl (hkept h)
  | emit rfp => exact Or.inl (hkept h)

variable (now write) in
theorem Write.rfp_persists (hold : old ∈ tables.rfps) :
    ∃ new ∈ (write.apply now tables).rfps, new.rfpId = old.rfpId := by
  cases write with
  | create rfp =>
      refine ⟨old, ?_, rfl⟩
      change old ∈ ((createRfp rfp tables).getD tables).rfps
      unfold createRfp
      cases hinsert : tables.rfps.insert? { rfp with submissionStatus := .opened } with
      | none => exact hold
      | some rfps => exact (KeyedTable.mem_of_insert? hinsert old).mpr (Or.inl hold)
  | invite rfpId vendorId =>
      refine ⟨old, ?_, rfl⟩
      change old ∈ (inviteVendor rfpId vendorId tables).rfps
      unfold inviteVendor
      split <;> exact hold
  | extend rfpId deadline => exact rfp_of_mem_updateRfps hold
  | close => exact rfp_of_mem_updateRfps hold
  | queue rfpId jobIds =>
      exact rfp_of_mem_updateRfps hold
  | flip rfpId => exact rfp_of_mem_updateRfps hold
  | insert job => exact ⟨old, hold, rfl⟩
  | supersede rfpId vendorId jobId => exact ⟨old, hold, rfl⟩
  | assign a => exact ⟨old, hold, rfl⟩
  | accept orgId jobId => exact ⟨old, hold, rfl⟩
  | claim jobId => exact ⟨old, hold, rfl⟩
  | ready jobId docId => exact ⟨old, hold, rfl⟩
  | fail jobId reason => exact ⟨old, hold, rfl⟩
  | emit rfp => exact ⟨old, hold, rfl⟩

end RfpEffects

section Refinement

variable {sha256OfFile : Content → String} {w : World}

theorem Step.first (call : Option Call) {next : Option Call} {write : Option Write}
    {calls : List Call} (hcalls : w.calls = call.toList ++ calls)
    (hstep : CallStep sha256OfFile w.now w.tables call write next) :
    Step sha256OfFile w (.call call write next)
      ⟨w.now, applyWrite w.now w.tables write, next.toList ++ calls⟩ :=
  @Step.call sha256OfFile w [] calls call next write hcalls hstep

theorem insert_reachable (job : NewJob) (hterminal : job.status ≠ .received) :
    Reachable (Step sha256OfFile) { w with calls := .checked job :: w.calls }
      { w with tables := (Write.insert job).apply w.now w.tables } := by
  have hnext : afterInsert job (enqueueIngestionJob job w.tables.jobs).1 = none :=
    if_neg hterminal
  have hstep := Step.first (w := { w with calls := .checked job :: w.calls })
    (some (.checked job)) rfl (@CallStep.inserted sha256OfFile _ _ job)
  rw [hnext] at hstep
  exact ⟨_, .single hstep⟩

theorem ingestReceived_reachable (job : NewJob) (hreceived : job.status = .received) :
    Reachable (Step sha256OfFile) { w with calls := .checked job :: w.calls }
      { w with tables := (ingestReceived job w.tables).2 } := by
  have hstep := Step.first (w := { w with calls := .checked job :: w.calls })
    (some (.checked job)) rfl (@CallStep.inserted sha256OfFile _ _ job)
  rw [afterInsert, if_pos hreceived] at hstep
  unfold ingestReceived
  cases henqueue : enqueueIngestionJob job w.tables.jobs with
  | mk jobId jobs =>
      have htables : applyWrite w.now w.tables (some (.insert job)) =
          { w.tables with jobs := jobs } := by
        simp only [applyWrite, Write.apply, Tables.onJobs, henqueue]
      rw [htables, henqueue] at hstep
      cases jobId with
      | none => exact ⟨_, .single hstep⟩
      | some jobId =>
          exact ⟨_, .cons hstep (.single (Step.first (some _) rfl (.superseded _ _ jobId)))⟩

/-- The watcher's function is a run of the steps that nothing comes between. -/
theorem handleDroppedFile_reachable (drop : Drop) :
    Reachable (Step sha256OfFile) w
      { w with tables := (handleDroppedFile sha256OfFile w.now drop w.tables).2 } := by
  unfold handleDroppedFile
  cases hpath : parseDropPath drop.parts with
  | none => exact .refl w
  | some path =>
      obtain ⟨rfpId, vendorId⟩ := path
      cases hrfp : getRfpLifecycle rfpId w.tables with
      | none => simpa only [hrfp] using Reachable.refl w
      | some rfp =>
          have hid : rfp.rfpId = rfpId := (KeyedTable.lookup_eq_some.mp hrfp).2
          simp only [hrfp]
          cases hgate : lifecycleGate w.now rfp with
          | some reason =>
              obtain ⟨ls, hrun⟩ := @insert_reachable sha256OfFile w
                (dropRow sha256OfFile drop rfp (vendorId.getD unknownVendor) .rejectedLate)
                (by simp [dropRow])
              exact ⟨_, .cons (Step.first none rfl (.turnedAway hpath hrfp hgate)) hrun⟩
          | none =>
              have hadmitted := Step.first (w := w) none rfl
                (@CallStep.admitted sha256OfFile _ _ _ _ _ _ hpath hrfp hgate)
              have hattributed := Step.first
                (w := ⟨w.now, w.tables, .admitted drop rfp vendorId :: w.calls⟩)
                (some (.admitted drop rfp vendorId)) rfl
                (@CallStep.attributed sha256OfFile _ _ drop rfp vendorId)
              rw [hid] at hattributed
              simp only []
              split
              · rename_i hreceived
                rw [hreceived] at hattributed
                obtain ⟨ls, hrun⟩ := @ingestReceived_reachable sha256OfFile w
                  (dropRow sha256OfFile drop rfp (vendorId.getD unknownVendor) .received)
                  rfl
                exact ⟨_, .cons hadmitted (.cons hattributed hrun)⟩
              · rename_i hterminal
                obtain ⟨ls, hrun⟩ := @insert_reachable sha256OfFile w
                  (dropRow sha256OfFile drop rfp (vendorId.getD unknownVendor) _) hterminal
                exact ⟨_, .cons hadmitted (.cons hattributed hrun)⟩

theorem mem_closedRfps_queueRfp {tables : Tables} {rfp : Rfp} {rfpId : String}
    {jobIds : List String} (h : rfp ∈ closedRfps tables) (hne : rfp.rfpId ≠ rfpId) :
    rfp ∈ closedRfps (queueRfp rfpId jobIds tables) := by
  obtain ⟨hmem, hclosed⟩ := List.mem_filter.mp h
  exact List.mem_filter.mpr ⟨List.mem_map.mpr ⟨rfp, hmem, by simp [hne]⟩, hclosed⟩

theorem queueRfps_reachable {rfps : List Rfp} (hnodup : (rfps.map Rfp.rfpId).Nodup)
    (hclosed : ∀ rfp ∈ rfps, rfp ∈ closedRfps w.tables) :
    Reachable (Step sha256OfFile) w
      { w with
        tables := rfps.foldl (fun tables rfp =>
          queueRfp rfp.rfpId (receivedJobs rfp.rfpId tables.jobs) tables) w.tables } := by
  induction rfps generalizing w with
  | nil => exact .refl w
  | cons rfp rfps ih =>
      obtain ⟨hfresh, hnodup⟩ := List.nodup_cons.mp hnodup
      obtain ⟨hhead, htail⟩ := List.forall_mem_cons.mp hclosed
      obtain ⟨ls, hrun⟩ := ih hnodup (w := { w with
          tables := queueRfp rfp.rfpId (receivedJobs rfp.rfpId w.tables.jobs) w.tables })
        (fun other hother => mem_closedRfps_queueRfp (htail other hother)
          (fun hid => hfresh (List.mem_map.mpr ⟨other, hother, hid⟩)))
      exact ⟨_, .cons (Step.first none rfl (.selected hhead))
        (.cons (Step.first (some (.selected rfp.rfpId)) rfl (.scanned rfp.rfpId))
          (.cons (Step.first (some (.pass _ _)) rfl (.committed rfp.rfpId _)) hrun))⟩

/-- So is the scheduler's pass over the closed requests for proposals. -/
theorem queueReceivedJobs_reachable : Reachable (Step sha256OfFile) w
    { w with tables := queueReceivedJobs w.tables } :=
  queueRfps_reachable (w.tables.rfps.keys_nodup.sublist (List.filter_sublist.map Rfp.rfpId))
    (fun _ h => h)

end Refinement

section Fixtures

def plainHash (content : Content) : String := String.ofList (List.replicate content.length 'h')

def tender : Rfp := ⟨"rfp-1", "org-1", .opened, some 0, .autoToEvaluate⟩

def acmeDrop : Drop :=
  ⟨some ["rfp-1", "acme", "offer.pdf"], "offer.pdf", "/drops/rfp-1/acme/offer.pdf", []⟩

def acmeJob : NewJob := dropRow plainHash acmeDrop tender "acme" .received

def revisedDrop : Drop :=
  ⟨some ["rfp-1", "acme", "revised.pdf"], "revised.pdf", "/drops/rfp-1/acme/revised.pdf", [0]⟩

def revisedJob : NewJob := dropRow plainHash revisedDrop tender "acme" .received

def openTables : Tables := ⟨⟨[tender], List.nodup_singleton _⟩, [("rfp-1", "acme")], Jobs.empty, []⟩

theorem openTables_reachable :
    Run (Step plainHash) World.empty
      [.call none (some (.create tender)) none, .call none (some (.invite "rfp-1" "acme")) none]
      ⟨0, openTables, []⟩ := by
  exact .cons (Step.first none rfl (.created tender))
    (.cons (Step.first none rfl (.invited "rfp-1" "acme")) (.nil _))

theorem acmeDrop_checked :
    Run (Step plainHash) ⟨0, openTables, []⟩
      [.call none none (some (.admitted acmeDrop tender (some "acme"))),
        .call (some (.admitted acmeDrop tender (some "acme"))) none (some (.checked acmeJob))]
      ⟨0, openTables, [.checked acmeJob]⟩ := by
  exact .cons (Step.first none rfl
      (@CallStep.admitted _ _ _ acmeDrop "rfp-1" (some "acme") tender rfl rfl rfl))
    (.cons (Step.first (some _) rfl (.attributed acmeDrop tender (some "acme"))) (.nil _))

def enteredTables : Tables := (Write.insert acmeJob).apply 0 openTables

end Fixtures

end RfpPlatform.SubmissionSteps
