import RfpPlatform.SubmissionSteps

namespace RfpPlatform.ConcurrentDrops

open BackgroundIngestion (JobStatus)
open Ingestion (Content)
open Submissions SubmissionSteps TransitionRuns

variable {rfpId jobId : String} {vendorId : VendorId}

section Supersession

/-- Exactly one job of the vendor is `received`, and every other is `superseded`. -/
def Settled (rfpId : String) (vendorId : VendorId) (jobs : Jobs) : Prop :=
  ∃ active ∈ jobs, ofVendor rfpId vendorId active = true ∧ active.status = .received ∧
    ∀ job ∈ jobs, ofVendor rfpId vendorId job = true → job.jobId ≠ active.jobId →
      job.status = .superseded

/-- The moves of the drops of one vendor on the jobs and on the ids that have been inserted and
not yet followed by their supersession. The label says whether a job is entered. -/
inductive Move (rfpId : String) (vendorId : VendorId) :
    Jobs × List String → Bool → Jobs × List String → Prop
  | quiet (s : Jobs × List String) : Move rfpId vendorId s false s
  | enter {jobs jobs' : Jobs} {row : JobRow} {before after : List String}
      (hmem : ∀ job, job ∈ jobs' ↔ job ∈ jobs ∨ job = row)
      (hfresh : ∀ job ∈ jobs, job.jobId ≠ row.jobId)
      (hvendor : ofVendor rfpId vendorId row = true) (hreceived : row.status = .received) :
      Move rfpId vendorId (jobs, before ++ after) true (jobs', before ++ row.jobId :: after)
  | supersede {jobs : Jobs} {jobId : String} {before after : List String} :
      Move rfpId vendorId (jobs, before ++ jobId :: after) false
        (supersedePriorReceived rfpId vendorId jobId jobs, before ++ after)

/-- The jobs of the vendor have been entered and perhaps superseded, nothing else. -/
structure Sound (rfpId : String) (vendorId : VendorId) (s : Jobs × List String) : Prop where
  statuses : ∀ job ∈ s.1, ofVendor rfpId vendorId job = true →
    job.status = .received ∨ job.status = .superseded
  known : ∀ id ∈ s.2, ∃ job ∈ s.1, job.jobId = id

/-- The others of a job are superseded, or its supersession is still to come. -/
def Ahead (rfpId : String) (vendorId : VendorId) (newest : String) (s : Jobs × List String) :
    Prop :=
  newest ∈ s.2 ∨ ∀ job ∈ s.1, ofVendor rfpId vendorId job = true → job.jobId ≠ newest →
    job.status = .superseded

/-- After an insertion that no other call overlapped. -/
structure Clean (rfpId : String) (vendorId : VendorId) (newest : String)
    (s : Jobs × List String) : Prop where
  sound : Sound rfpId vendorId s
  ahead : Ahead rfpId vendorId newest s
  alone : ∀ id ∈ s.2, id = newest
  active : ∃ job ∈ s.1, job.jobId = newest ∧ ofVendor rfpId vendorId job = true ∧
    job.status = .received

theorem Clean.settled {newest : String} {jobs : Jobs}
    (h : Clean rfpId vendorId newest (jobs, [])) : Settled rfpId vendorId jobs := by
  obtain ⟨job, hjob, rfl, hv, hr⟩ := h.active
  exact ⟨job, hjob, hv, hr, h.ahead.resolve_left List.not_mem_nil⟩

end Supersession

section Drops

variable {sha256OfFile : Content → String} {w w' w₀ : World} {l : Label} {ls : List Label}

def inFlight (calls : List Call) : List String :=
  calls.filterMap (fun | .inserted _ _ jobId => some jobId | _ => none)

def abstractly (w : World) : Jobs × List String := (w.tables.jobs, inFlight w.calls)

/-- A call of `handle_dropped_file` for a file of the vendor that has passed the checks. -/
def VendorDrop (rfpId : String) (vendorId : VendorId) : Call → Prop
  | .admitted _ rfp v => rfp.rfpId = rfpId ∧ v = some vendorId
  | .checked job => job.rfpId = rfpId ∧ job.vendorId = vendorId ∧ job.status = .received
  | .inserted r v _ => r = rfpId ∧ v = vendorId
  | _ => False

/-- The request for proposals is open, the vendor is invited, and its drops are in progress. -/
structure InWindow (rfpId : String) (vendorId : VendorId) (w : World) : Prop where
  window : ∃ rfp, getRfpLifecycle rfpId w.tables = some rfp ∧ lifecycleGate w.now rfp = none
  invited : isInvitedVendor rfpId vendorId w.tables = true
  calls : ∀ call ∈ w.calls, VendorDrop rfpId vendorId call

theorem InWindow.next {before after : List Call} {call next : Option Call} {tables : Tables}
    (h : InWindow rfpId vendorId w) (hcalls : w.calls = before ++ call.toList ++ after)
    (hrfps : tables.rfps = w.tables.rfps) (hvendors : tables.invitedVendors = w.tables.invitedVendors)
    (hnext : ∀ c, next = some c → VendorDrop rfpId vendorId c) :
    InWindow rfpId vendorId ⟨w.now, tables, before ++ next.toList ++ after⟩ := by
  refine ⟨?_, ?_, fun c hc => ?_⟩
  · obtain ⟨rfp, hrfp, hgate⟩ := h.window
    exact ⟨rfp, by rw [getRfpLifecycle, hrfps]; exact hrfp, hgate⟩
  · rw [isInvitedVendor, hvendors]
    exact h.invited
  · rcases mem_calls_after hcalls hc with hc | hc
    · exact h.calls c hc
    · exact hnext c hc

/-- The vendor has no job for the request for proposals yet, or its jobs are settled. -/
def Started (rfpId : String) (vendorId : VendorId) (w : World) : Prop :=
  InWindow rfpId vendorId w ∧ w.calls = [] ∧
    ((∀ job ∈ w.tables.jobs, ofVendor rfpId vendorId job = false) ∨
      Settled rfpId vendorId w.tables.jobs)

theorem Settled.sound {jobs : Jobs} (h : Settled rfpId vendorId jobs) :
    Sound rfpId vendorId (jobs, []) := by
  obtain ⟨active, hactive, _, hr, hothers⟩ := h
  refine ⟨fun job hjob hv => ?_, fun id hid => absurd hid List.not_mem_nil⟩
  by_cases hid : job.jobId = active.jobId
  · rw [KeyedTable.eq_of_key_eq hjob hactive hid]
    exact Or.inl hr
  · exact Or.inr (hothers job hjob hv hid)

theorem Started.sound (h : Started rfpId vendorId w) :
    Sound rfpId vendorId (abstractly w) := by
  obtain ⟨_, hcalls, hnone | hsettled⟩ := h
  · rw [abstractly, hcalls]
    exact ⟨fun job hjob hv => by simp [hnone job hjob] at hv, fun id hid => absurd hid List.not_mem_nil⟩
  · rw [abstractly, hcalls]
    exact hsettled.sound

end Drops

end RfpPlatform.ConcurrentDrops
