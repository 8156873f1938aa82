import RfpPlatform.SubmissionSteps

namespace RfpPlatform.LatestSubmission

open BackgroundIngestion (JobStatus)
open Ingestion (Content)
open Submissions SubmissionSteps

variable {sha256OfFile : Content → String} {rfpId contentHash : String} {vendorId : VendorId}
  {tables : Tables} {jobs : Jobs} {now : Nat} {drop : Drop}

/-- The files of a sequence of drops, each at its time, one call after the other. -/
def dropAll (sha256OfFile : Content → String) (tables : Tables) (drops : List (Nat × Drop)) :
    Tables :=
  drops.foldl (fun tables d => (handleDroppedFile sha256OfFile d.1 d.2 tables).2) tables

/-- The file is the vendor's, the request for proposals is open, and the vendor is invited. -/
structure Accepts (rfpId : String) (vendorId : VendorId) (tables : Tables) (d : Nat × Drop) :
    Prop where
  path : parseDropPath d.2.parts = some (rfpId, some vendorId)
  window : ∃ rfp, getRfpLifecycle rfpId tables = some rfp ∧ lifecycleGate d.1 rfp = none
  invited : isInvitedVendor rfpId vendorId tables = true

def IsActive (rfpId : String) (vendorId : VendorId) (job : JobRow) : Prop :=
  ofVendor rfpId vendorId job = true ∧ job.status = .received

def SoleActive (rfpId : String) (vendorId : VendorId) (jobs : Jobs) (job : JobRow) : Prop :=
  IsActive rfpId vendorId job ∧ ∀ other ∈ jobs, IsActive rfpId vendorId other → other = job

/-- The vendor's single `received` job carries the content. -/
def Latest (rfpId : String) (vendorId : VendorId) (contentHash : String) (jobs : Jobs) : Prop :=
  ∃ job ∈ jobs, SoleActive rfpId vendorId jobs job ∧ job.contentHash = contentHash

theorem handleDroppedFile_of_accepts (h : Accepts rfpId vendorId tables (now, drop)) :
    ∃ job : NewJob, job.hashKey = (rfpId, vendorId, sha256OfFile drop.content) ∧
      job.status = .received ∧
      handleDroppedFile sha256OfFile now drop tables = ingestReceived job tables := by
  obtain ⟨rfp, hrfp, hgate⟩ := h.window
  have hid : rfp.rfpId = rfpId := (KeyedTable.lookup_eq_some.mp hrfp).2
  have hpath : parseDropPath drop.parts = some (rfpId, some vendorId) := h.path
  have hgate' : lifecycleGate now rfp = none := hgate
  refine ⟨dropRow sha256OfFile drop rfp vendorId .received, ?_, rfl, ?_⟩
  · rw [← hid]
    rfl
  · simp [handleDroppedFile, hpath, hrfp, hgate', h.invited, attribution]

theorem ingestReceived_of_taken {job : NewJob}
    (h : ∃ row ∈ tables.jobs, row.hashKey = job.hashKey) :
    (ingestReceived job tables).2 = tables := by
  rw [ingestReceived, enqueueIngestionJob_of_taken h]

theorem ingestReceived_of_free {job : NewJob} (hreceived : job.status = .received)
    (hkey : job.hashKey = (rfpId, vendorId, contentHash))
    (h : ∀ row ∈ tables.jobs, row.hashKey ≠ job.hashKey) :
    Latest rfpId vendorId contentHash (ingestReceived job tables).2.jobs := by
  obtain ⟨jobs, henqueue, hmem, _⟩ := enqueueIngestionJob_of_free h
  have hnew : (ingestReceived job tables).2.jobs =
      supersedePriorReceived job.rfpId job.vendorId (genRandomUuid tables.jobs) jobs := by
    rw [ingestReceived, henqueue]
  obtain ⟨rfl, rfl, rfl⟩ : job.rfpId = rfpId ∧ job.vendorId = vendorId ∧
      job.contentHash = contentHash := by simpa [NewJob.hashKey] using hkey
  have hrow : job.row (genRandomUuid tables.jobs) ∈ jobs := (hmem _).mpr (Or.inr rfl)
  rw [hnew]
  refine ⟨job.row (genRandomUuid tables.jobs), List.mem_map.mpr ⟨_, hrow, ?_⟩, ⟨⟨?_, ?_⟩, ?_⟩, rfl⟩
  · simp [NewJob.row]
  · simp [ofVendor, NewJob.row]
  · change job.status.jobStatus = .received
    rw [hreceived]
    rfl
  · rintro other hother ⟨hvendor, hactive⟩
    obtain ⟨old, hold, rfl⟩ := List.mem_map.mp hother
    split at hactive
    · cases hactive
    · rename_i hp
      rw [if_neg hp] at hvendor ⊢
      -- what is still received after the supersession is the new row
      have hid : old.jobId = genRandomUuid tables.jobs := by
        by_contra hne
        simp [hvendor, hactive, hne] at hp
      exact KeyedTable.eq_of_key_eq hold hrow hid

theorem handleDroppedFile_frame (h : Accepts rfpId vendorId tables (now, drop)) :
    (handleDroppedFile sha256OfFile now drop tables).2.rfps = tables.rfps ∧
      (handleDroppedFile sha256OfFile now drop tables).2.invitedVendors =
        tables.invitedVendors := by
  obtain ⟨job, _, _, heq⟩ := @handleDroppedFile_of_accepts sha256OfFile _ _ _ _ _ h
  rw [heq, ingestReceived]
  cases enqueueIngestionJob job tables.jobs with
  | mk jobId jobs => cases jobId <;> exact ⟨rfl, rfl⟩

theorem Accepts.congr {tables' : Tables} {d : Nat × Drop} (h : Accepts rfpId vendorId tables d)
    (hrfps : tables'.rfps = tables.rfps)
    (hvendors : tables'.invitedVendors = tables.invitedVendors) :
    Accepts rfpId vendorId tables' d := by
  refine ⟨h.path, ?_, ?_⟩
  · rw [getRfpLifecycle, hrfps]
    exact h.window
  · rw [isInvitedVendor, hvendors]
    exact h.invited

section Single

def Single (rfpId : String) (vendorId : VendorId) (jobs : Jobs) : Prop :=
  ∀ job ∈ jobs, IsActive rfpId vendorId job → SoleActive rfpId vendorId jobs job

theorem single_step (hsingle : Single rfpId vendorId tables.jobs)
    (h : Accepts rfpId vendorId tables (now, drop)) :
    Single rfpId vendorId (handleDroppedFile sha256OfFile now drop tables).2.jobs := by
  obtain ⟨job, hkey, hreceived, heq⟩ := @handleDroppedFile_of_accepts sha256OfFile _ _ _ _ _ h
  rw [heq]
  by_cases htaken : ∃ row ∈ tables.jobs, row.hashKey = job.hashKey
  · rw [ingestReceived_of_taken htaken]
    exact hsingle
  · obtain ⟨active, _, hsole, _⟩ := ingestReceived_of_free hreceived hkey
      (fun row hrow hsame => htaken ⟨row, hrow, hsame⟩)
    intro other hother hactive
    rw [hsole.2 other hother hactive]
    exact hsole

theorem single_after {drops : List (Nat × Drop)} (hsingle : Single rfpId vendorId tables.jobs)
    (hdrops : ∀ d ∈ drops, Accepts rfpId vendorId tables d) :
    Single rfpId vendorId (dropAll sha256OfFile tables drops).jobs := by
  induction drops generalizing tables with
  | nil => exact hsingle
  | cons d drops ih =>
      obtain ⟨hd, hrest⟩ := List.forall_mem_cons.mp hdrops
      obtain ⟨hrfps, hvendors⟩ := handleDroppedFile_frame hd
      exact ih (single_step hsingle hd) (fun e he => (hrest e he).congr hrfps hvendors)

/-- Where the vendor began with at most one `received` job, the condition on the job that has a
content is that it is `received`. -/
theorem sole_iff_received {drops : List (Nat × Drop)} (hsingle : Single rfpId vendorId tables.jobs)
    (hdrops : ∀ d ∈ drops, Accepts rfpId vendorId tables d) {row : JobRow}
    (hrow : row ∈ (dropAll sha256OfFile tables drops).jobs)
    (hvendor : ofVendor rfpId vendorId row = true) :
    SoleActive rfpId vendorId (dropAll sha256OfFile tables drops).jobs row ↔
      row.status = .received :=
  ⟨fun h => h.1.2, fun h => single_after hsingle hdrops row hrow ⟨hvendor, h⟩⟩

end Single

end RfpPlatform.LatestSubmission
