import RfpPlatform.OrphanedJob

namespace RfpPlatform.StatusTransitions

open BackgroundIngestion (JobStatus)
open Ingestion (Content)
open OrphanedJob (claimedWorld claimedWorld_run)
open Submissions SubmissionSteps TransitionRuns

section Tables

/-- `_ALLOWED_TRANSITIONS` -/
def allowedTransitions : SubmissionStatus → List SubmissionStatus
  | .opened => [.closed]
  | .closed => [.processing]
  | .processing => [.factsReady]
  | .factsReady => [.evaluated]
  | .evaluated => []

def canTransition (current target : SubmissionStatus) : Bool := target ∈ allowedTransitions current

/-- The edges `received -> queued -> processing -> facts_ready or failed`. -/
def JobStatus.advances : JobStatus → JobStatus → Bool
  | .received, .queued => true
  | .queued, .processing => true
  | .processing, .factsReady => true
  | .processing, .failed => true
  | _, _ => false

/-- The writes of the scheduler's ticks and of `process_job`. -/
def Write.byScheduler : Write → Bool
  | .close => true
  | .queue .. => true
  | .claim _ => true
  | .ready .. => true
  | .fail .. => true
  | .flip _ => true
  | .emit _ => true
  | _ => false

def Label.byScheduler : Label → Bool
  | .call _ (some write) _ => Write.byScheduler write
  | _ => true

def Label.claims (jobId : String) : Label → Bool
  | .call _ (some (.claim id)) _ => id = jobId
  | _ => false

end Tables

variable {sha256OfFile : Content → String} {w w' : World} {l : Label} {ls : List Label}
  {jobId : String} {now : Nat} {tables : Tables} {write : Write}

section Rfps

theorem rfp_step (h : Step sha256OfFile w l w') {old : Rfp} (hold : old ∈ w.tables.rfps) :
    ∃ new ∈ w'.tables.rfps, new.rfpId = old.rfpId ∧
      (new.submissionStatus = old.submissionStatus ∨
        canTransition old.submissionStatus new.submissionStatus = true) := by
  cases h with
  | wait => exact ⟨old, hold, rfl, Or.inl rfl⟩
  | @call before after call next write hcalls hstep =>
      cases write with
      | none => exact ⟨old, hold, rfl, Or.inl rfl⟩
      | some write =>
          obtain ⟨new, hnew, hid⟩ := Write.rfp_persists w.now write hold
          refine ⟨new, hnew, hid, ?_⟩
          rcases write.rfp_cases hnew with ⟨old', hold', hid', hkept | hadvances⟩ | ⟨_, hfresh⟩
          · obtain rfl : old' = old := KeyedTable.eq_of_key_eq hold' hold (hid'.symm.trans hid)
            exact Or.inl hkept
          · obtain rfl : old' = old := KeyedTable.eq_of_key_eq hold' hold (hid'.symm.trans hid)
            refine Or.inr ?_
            cases write with
            | close => rw [hadvances.1, hadvances.2]; rfl
            | queue => rw [hadvances.2.1, hadvances.2.2]; rfl
            | flip => rw [hadvances.2.1, hadvances.2.2]; rfl
            | _ => exact hadvances.elim
          · exact absurd hid.symm (hfresh old hold)

def ManualOpen (tables : Tables) : Prop :=
  ∀ rfp ∈ tables.rfps, rfp.autonomyMode = .manual → rfp.submissionStatus = .opened

/-- An update that passes over the open manual rows leaves all the manual rows as they are. -/
theorem mem_updateRfps_manual {p : Rfp → Bool} {f : Rfp → Rfp} {rfp : Rfp}
    {hf : ∀ rfp, (f rfp).rfpId = rfp.rfpId} (hopen : ManualOpen tables)
    (hmode : ∀ rfp, (f rfp).autonomyMode = rfp.autonomyMode)
    (hp : ∀ rfp, rfp.autonomyMode = .manual → rfp.submissionStatus = .opened → p rfp = false)
    (hmanual : rfp.autonomyMode = .manual) :
    rfp ∈ (tables.updateRfps p f hf).rfps ↔ rfp ∈ tables.rfps := by
  constructor
  · intro hmem
    obtain ⟨old, hold, _, rfl | ⟨hselected, rfl⟩⟩ := mem_updateRfps_cases hmem
    · exact hold
    · have hmanual' : old.autonomyMode = .manual := (hmode old).symm.trans hmanual
      rw [hp old hmanual' (hopen old hold hmanual')] at hselected
      cases hselected
  · intro hmem
    refine List.mem_map.mpr ⟨rfp, hmem, if_neg ?_⟩
    rw [hp rfp hmanual (hopen rfp hmem hmanual)]
    exact Bool.false_ne_true

theorem scheduler_keeps_manual (hopen : ManualOpen tables)
    (hscheduler : Write.byScheduler write = true) {rfp : Rfp} (hmanual : rfp.autonomyMode = .manual) :
    rfp ∈ (write.apply now tables).rfps ↔ rfp ∈ tables.rfps := by
  cases write with
  | close =>
      exact mem_updateRfps_manual hopen (fun _ => rfl) (fun rfp hm _ => by simp [hm]) hmanual
  | queue rfpId jobIds =>
      exact @mem_updateRfps_manual { tables with jobs := queueJobs jobIds tables.jobs } _ _ _ _
        hopen (fun _ => rfl) (fun rfp _ ho => by simp [ho]) hmanual
  | flip rfpId =>
      exact mem_updateRfps_manual hopen (fun _ => rfl) (fun rfp _ ho => by simp [ho]) hmanual
  | claim | ready | fail | emit => exact Iff.rfl
  | _ => cases hscheduler

theorem manualOpen_apply (hopen : ManualOpen tables) : ManualOpen (write.apply now tables) := by
  intro new hnew hmanual
  by_cases hscheduler : Write.byScheduler write = true
  · exact hopen new ((scheduler_keeps_manual hopen hscheduler hmanual).mp hnew) hmanual
  · cases write with
    | create rfp =>
        change new ∈ ((createRfp rfp tables).getD tables).rfps at hnew
        unfold createRfp at hnew
        cases hinsert : tables.rfps.insert? { rfp with submissionStatus := .opened } with
        | none =>
            rw [hinsert] at hnew
            exact hopen new hnew hmanual
        | some rfps =>
            rw [hinsert] at hnew
            rcases (KeyedTable.mem_of_insert? hinsert new).mp hnew with hold | rfl
            · exact hopen new hold hmanual
            · rfl
    | invite rfpId vendorId =>
        change new ∈ (inviteVendor rfpId vendorId tables).rfps at hnew
        unfold inviteVendor at hnew
        split at hnew <;> exact hopen new hnew hmanual
    | extend rfpId deadline =>
        obtain ⟨old, hold, _, rfl | ⟨_, rfl⟩⟩ := mem_updateRfps_cases hnew
        · exact hopen new hold hmanual
        · exact hopen old hold hmanual
    | insert | supersede | assign | accept => exact hopen new hnew hmanual
    | _ => exact absurd rfl hscheduler

end Rfps

section Jobs

def Call.owned : Call → Option String
  | .working jobId => some jobId
  | .raised jobId => some jobId
  | _ => none

theorem Call.owned_eq_some {call : Call} : Call.owned call = some jobId ↔ call.owns jobId := by
  cases call <;> simp [Call.owned, Call.owns]

/-- No job has two executions, and one that is executed is in processing. -/
structure Owned (w : World) : Prop where
  single : (w.calls.filterMap Call.owned).Nodup
  processing : ∀ jobId ∈ w.calls.filterMap Call.owned,
    ∃ job ∈ w.tables.jobs, job.jobId = jobId ∧ job.status = .processing

theorem Owned.status (h : Owned w) {call : Call} (hcall : call ∈ w.calls) (howns : call.owns jobId)
    {job : JobRow} (hjob : job ∈ w.tables.jobs) (hid : job.jobId = jobId) :
    job.status = .processing := by
  obtain ⟨owned, howned, hoid, hstatus⟩ := h.processing jobId
    (List.mem_filterMap.mpr ⟨call, hcall, Call.owned_eq_some.mpr howns⟩)
  rwa [KeyedTable.eq_of_key_eq hjob howned (hid.trans hoid.symm)]

/-- Only its own completion takes a job out of processing. -/
theorem processing_apply {job : JobRow} (hjob : job ∈ tables.jobs)
    (hprocessing : job.status = .processing) (hready : ∀ docId, write ≠ .ready job.jobId docId)
    (hfail : ∀ reason, write ≠ .fail job.jobId reason) :
    ∃ new ∈ (write.apply now tables).jobs, new.jobId = job.jobId ∧ new.status = .processing := by
  obtain ⟨new, hnew, hid⟩ := Write.job_persists now write hjob
  refine ⟨new, hnew, hid, ?_⟩
  rcases write.job_cases hnew with ⟨old, hold, hsame, hcase⟩ | ⟨inserted, rfl, rfl⟩
  · obtain rfl : old = job := KeyedTable.eq_of_key_eq hold hjob (hsame.1.symm.trans hid)
    rcases hcase with rfl | hmoves
    · exact hprocessing
    · cases write with
      | claim => exact hmoves.2.2
      | supersede => cases hprocessing.symm.trans hmoves.2.1
      | assign => cases hprocessing.symm.trans hmoves.2.1
      | accept => cases hprocessing.symm.trans hmoves.2.1
      | queue => cases hprocessing.symm.trans hmoves.2.1
      | ready id docId => exact absurd (by rw [hmoves.1]) (hready docId)
      | fail id reason => exact absurd (by rw [hmoves.1]) (hfail reason)
      | _ => exact hmoves.elim
  · exact absurd hid.symm (genRandomUuid_ne hjob)

/-- A step takes a job up with its claim, goes on with it, or has none afterwards. -/
theorem owned_next {call next : Option Call} {write : Option Write}
    (h : CallStep sha256OfFile now tables call write next) :
    next.toList.filterMap Call.owned = [] ∨
      (∃ id, write = some (.claim id) ∧ id ∈ listQueuedJobs tables.jobs ∧ call = none ∧
        next.toList.filterMap Call.owned = [id]) ∨
      (write = none ∧ next.toList.filterMap Call.owned = call.toList.filterMap Call.owned) := by
  cases h with
  | claimed hqueued => exact Or.inr (Or.inl ⟨_, rfl, hqueued, rfl, rfl⟩)
  | raised id => exact Or.inr (Or.inr ⟨rfl, rfl⟩)
  | inserted job =>
      refine Or.inl ?_
      cases hcall : afterInsert job (enqueueIngestionJob job tables.jobs).1 with
      | none => rfl
      | some call =>
          obtain ⟨_, _, _, rfl⟩ := afterInsert_cases hcall
          rfl
  | flipped id =>
      refine Or.inl ?_
      cases hcall : afterFlip id tables with
      | none => rfl
      | some call =>
          obtain ⟨_, rfl⟩ := afterFlip_cases hcall
          rfl
  | _ => exact Or.inl rfl

theorem owned_preserved : Preserved (Step sha256OfFile) Owned := by
  intro w l w' h hstep
  cases hstep with
  | wait => exact ⟨h.single, h.processing⟩
  | @call before after call next write hcalls hstep =>
      have hsingle := h.single
      rw [hcalls, List.append_assoc, List.filterMap_append, List.filterMap_append] at hsingle
      -- the executions of the other calls keep their jobs
      have hothers : ∀ id ∈ before.filterMap Call.owned ++ after.filterMap Call.owned,
          ∃ job ∈ (applyWrite w.now w.tables write).jobs, job.jobId = id ∧
            job.status = .processing := by
        intro id hid
        have hmem : id ∈ w.calls.filterMap Call.owned := by
          rw [hcalls]
          simp only [List.filterMap_append, List.mem_append] at hid ⊢
          tauto
        obtain ⟨job, hjob, rfl, hprocessing⟩ := h.processing id hmem
        have halone : ∀ owner, call = some owner → ¬ owner.owns job.jobId := by
          rintro owner rfl howns
          have howner := Call.owned_eq_some.mpr howns
          simp only [Option.toList_some, List.filterMap_cons, howner, List.filterMap_nil,
            List.singleton_append, List.nodup_middle, List.nodup_cons] at hsingle
          exact hsingle.1 hid
        cases write with
        | none => exact ⟨job, hjob, rfl, hprocessing⟩
        | some write =>
            refine processing_apply hjob hprocessing (fun docId hready => ?_)
              (fun reason hfail => ?_)
            · obtain ⟨owner, hcall, howns⟩ := hstep.of_completion (Or.inl ⟨docId, by rw [hready]⟩)
              exact halone owner hcall howns
            · obtain ⟨owner, hcall, howns⟩ := hstep.of_completion (Or.inr ⟨reason, by rw [hfail]⟩)
              exact halone owner hcall howns
      rcases owned_next hstep with hnone | ⟨id, rfl, hqueued, rfl, hone⟩ | ⟨rfl, hsame⟩
      · refine ⟨?_, ?_⟩
        · simp only [List.filterMap_append, hnone, List.append_nil]
          exact hsingle.sublist (List.Sublist.append_left (List.sublist_append_right _ _) _)
        · simp only [List.filterMap_append, hnone, List.append_nil]
          exact hothers
      · obtain ⟨job, hjob, rfl⟩ := List.mem_map.mp hqueued
        obtain ⟨hmem, hstatus⟩ := List.mem_filter.mp hjob
        have hfresh : job.jobId ∉ before.filterMap Call.owned ++ after.filterMap Call.owned := by
          intro hid
          obtain ⟨other, hother, hoid, hprocessing⟩ := h.processing job.jobId (by
            rw [hcalls]
            simpa [List.filterMap_append] using hid)
          rw [KeyedTable.eq_of_key_eq hother hmem hoid] at hprocessing
          cases hprocessing.symm.trans (of_decide_eq_true hstatus)
        refine ⟨?_, ?_⟩
        · simp only [List.filterMap_append, hone, List.append_assoc, List.singleton_append]
          exact List.nodup_middle.mpr (List.nodup_cons.mpr ⟨hfresh, by simpa using hsingle⟩)
        · intro id hid
          simp only [List.filterMap_append, hone, List.append_assoc, List.singleton_append] at hid
          rcases List.mem_cons.mp (List.perm_middle.mem_iff.mp hid) with rfl | hid
          · exact ⟨{ job with status := .processing }, List.mem_map.mpr ⟨job, hmem,
              if_pos (by simpa using hstatus)⟩, rfl, rfl⟩
          · exact hothers id hid
      · refine ⟨?_, ?_⟩
        · simp only [List.filterMap_append, hsame, List.append_assoc]
          exact hsingle
        · intro id hid
          refine h.processing id ?_
          rw [hcalls]
          simpa only [List.filterMap_append, hsame] using hid

/-- A completion write is unconditional, but its job is in processing. -/
theorem job_step (h : Owned w) (hstep : Step sha256OfFile w l w')
    (hscheduler : Label.byScheduler l = true) {old : JobRow} (hold : old ∈ w.tables.jobs) :
    ∃ new ∈ w'.tables.jobs, new.jobId = old.jobId ∧
      (new.status = old.status ∨ JobStatus.advances old.status new.status = true) := by
  cases hstep with
  | wait => exact ⟨old, hold, rfl, Or.inl rfl⟩
  | @call before after call next write hcalls hstep =>
      cases write with
      | none => exact ⟨old, hold, rfl, Or.inl rfl⟩
      | some write =>
          obtain ⟨new, hnew, hid⟩ := Write.job_persists w.now write hold
          refine ⟨new, hnew, hid, ?_⟩
          rcases write.job_cases hnew with ⟨old', hold', hsame, hcase⟩ | ⟨inserted, rfl, rfl⟩
          · obtain rfl : old' = old :=
              KeyedTable.eq_of_key_eq hold' hold (hsame.1.symm.trans hid)
            rcases hcase with rfl | hmoves
            · exact Or.inl rfl
            · refine Or.inr ?_
              cases write with
              | queue => rw [hmoves.2.1, hmoves.2.2]; rfl
              | claim => rw [hmoves.2.1, hmoves.2.2]; rfl
              | ready id docId =>
                  obtain ⟨owner, hcall, howns⟩ := hstep.of_completion (Or.inl ⟨docId, rfl⟩)
                  rw [h.status (call_mem hcalls hcall) howns hold hmoves.1, hmoves.2]
                  rfl
              | fail id reason =>
                  obtain ⟨owner, hcall, howns⟩ := hstep.of_completion (Or.inr ⟨reason, rfl⟩)
                  rw [h.status (call_mem hcalls hcall) howns hold hmoves.1, hmoves.2]
                  rfl
              | supersede | assign | accept => cases hscheduler
              | _ => exact hmoves.elim
          · cases hscheduler

/-- A job that has been claimed, and whatever its execution came to since. -/
def isSpent (jobId : String) (job : JobRow) : Bool :=
  job.jobId = jobId &&
    (job.status = .processing || job.status = .factsReady || job.status = .failed)

def spent (jobId : String) (jobs : Jobs) : Nat :=
  if jobs.table.rows.any (isSpent jobId) then 1 else 0

theorem spent_eq_one {job : JobRow} {jobs : Jobs} (hjob : job ∈ jobs)
    (hspent : isSpent jobId job = true) : spent jobId jobs = 1 :=
  if_pos (List.any_eq_true.mpr ⟨job, hjob, hspent⟩)

variable (now write) in
theorem spent_apply (hjob : spent jobId tables.jobs = 1) :
    spent jobId (write.apply now tables).jobs = 1 := by
  obtain ⟨old, hold, hspent⟩ := List.any_eq_true.mp
    (ite_ne_right_iff.mp (show spent jobId tables.jobs ≠ 0 by omega)).1
  obtain ⟨new, hnew, hid⟩ := Write.job_persists now write hold
  refine spent_eq_one hnew ?_
  simp only [isSpent, Bool.and_eq_true, Bool.or_eq_true, decide_eq_true_eq] at hspent ⊢
  refine ⟨hid.trans hspent.1, ?_⟩
  rcases write.job_cases hnew with ⟨old', hold', hsame, hcase⟩ | ⟨inserted, rfl, rfl⟩
  · obtain rfl : old' = old := KeyedTable.eq_of_key_eq hold' hold (hsame.1.symm.trans hid)
    rcases hcase with rfl | hmoves
    · exact hspent.2
    · cases write with
      | claim => exact Or.inl (Or.inl hmoves.2.2)
      | ready => exact Or.inl (Or.inr hmoves.2)
      | fail => exact Or.inr hmoves.2
      | supersede | assign | accept | queue => simp [hmoves.2.1] at hspent
      | _ => exact hmoves.elim
  · exact absurd hid.symm (genRandomUuid_ne hold)

theorem spent_le (jobId : String) (jobs : Jobs) : spent jobId jobs ≤ 1 := by
  unfold spent
  split <;> omega

theorem claim_spends (hqueued : jobId ∈ listQueuedJobs tables.jobs) :
    spent jobId tables.jobs = 0 ∧ spent jobId (claimForProcessing jobId tables.jobs) = 1 := by
  obtain ⟨job, hjob, rfl⟩ := List.mem_map.mp hqueued
  obtain ⟨hmem, hstatus⟩ := List.mem_filter.mp hjob
  rw [decide_eq_true_eq] at hstatus
  refine ⟨if_neg (fun h => ?_), ?_⟩
  · obtain ⟨other, hother, hspent⟩ := List.any_eq_true.mp h
    simp only [isSpent, Bool.and_eq_true, decide_eq_true_eq] at hspent
    rw [KeyedTable.eq_of_key_eq hother hmem hspent.1, hstatus] at hspent
    simp at hspent
  · refine @spent_eq_one _ { job with status := .processing } _ ?_ (by simp [isSpent])
    exact List.mem_map.mpr ⟨job, hmem, if_pos (by simp [hstatus])⟩

variable (jobId) in
theorem claim_step (h : Step sha256OfFile w l w') :
    (if Label.claims jobId l then 1 else 0) + spent jobId w.tables.jobs ≤
      spent jobId w'.tables.jobs := by
  cases h with
  | wait => simp [Label.claims]
  | @call before after call next write hcalls hstep =>
      cases write with
      | none => simp [Label.claims, applyWrite]
      | some write =>
          by_cases hclaim : write = .claim jobId
          · subst hclaim
            cases hstep with
            | claimed hqueued =>
                obtain ⟨hbefore, hafter⟩ := claim_spends hqueued
                change _ ≤ spent jobId (claimForProcessing jobId w.tables.jobs)
                rw [hbefore, hafter]
                simp [Label.claims]
          · have hother : Label.claims jobId (.call call (some write) next) = false := by
              cases write with
              | claim id =>
                  have hne : id ≠ jobId := fun hid => hclaim (by rw [hid])
                  simp [Label.claims, hne]
              | _ => rfl
            rw [hother]
            have hle := spent_le jobId w.tables.jobs
            rcases Nat.le_one_iff_eq_zero_or_eq_one.mp hle with hzero | hone
            · simp [hzero]
            · have hafter := spent_apply w.now write hone
              simp [hone, applyWrite, hafter]

variable (jobId) in
theorem claims_run (h : Run (Step sha256OfFile) w ls w') :
    ls.countP (Label.claims jobId) + spent jobId w.tables.jobs ≤ spent jobId w'.tables.jobs := by
  induction h with
  | nil => simp
  | cons hstep _ ih =>
      have hclaim := claim_step jobId hstep
      rw [List.countP_cons]
      omega

end Jobs

section Runs

/-- What a step may do to the statuses, with the claims made up to it. -/
structure Orderly (ls : List Label) (w : World) (l : Label) (w' : World) : Prop where
  rfps : ∀ old ∈ w.tables.rfps, ∃ new ∈ w'.tables.rfps, new.rfpId = old.rfpId ∧
    (new.submissionStatus = old.submissionStatus ∨
      canTransition old.submissionStatus new.submissionStatus = true)
  manual : Label.byScheduler l = true →
    ∀ rfp, rfp.autonomyMode = .manual → (rfp ∈ w'.tables.rfps ↔ rfp ∈ w.tables.rfps)
  jobs : Label.byScheduler l = true → ∀ old ∈ w.tables.jobs, ∃ new ∈ w'.tables.jobs,
    new.jobId = old.jobId ∧
      (new.status = old.status ∨ JobStatus.advances old.status new.status = true)
  claims : ∀ jobId, (ls ++ [l]).countP (Label.claims jobId) ≤ 1

theorem owned_empty : Owned World.empty :=
  ⟨List.nodup_nil, fun _ h => absurd h List.not_mem_nil⟩

theorem manualOpen_empty : ManualOpen World.empty.tables :=
  fun rfp hrfp => absurd hrfp (KeyedTable.not_mem_empty rfp)

theorem manualOpen_preserved :
    Preserved (Step sha256OfFile) (fun w => ManualOpen w.tables) := by
  intro w l w' h hstep
  cases hstep with
  | wait => exact h
  | @call before after call next write hcalls hstep =>
      cases write with
      | none => exact h
      | some write => exact manualOpen_apply h

theorem manual_step (hopen : ManualOpen w.tables) (h : Step sha256OfFile w l w')
    (hscheduler : Label.byScheduler l = true) {rfp : Rfp} (hmanual : rfp.autonomyMode = .manual) :
    rfp ∈ w'.tables.rfps ↔ rfp ∈ w.tables.rfps := by
  cases h with
  | wait => exact Iff.rfl
  | @call before after call next write hcalls hstep =>
      cases write with
      | none => exact Iff.rfl
      | some write => exact scheduler_keeps_manual hopen hscheduler hmanual

/-- Every step of every run changes the statuses along the edges only, whoever else takes steps
in between. -/
theorem status_step (hrun : Run (Step sha256OfFile) World.empty ls w)
    (hstep : Step sha256OfFile w l w') : Orderly ls w l w' := by
  have hmanual : ManualOpen w.tables := hrun.invariant (I := fun w => ManualOpen w.tables)
    manualOpen_preserved manualOpen_empty
  have howned : Owned w := hrun.invariant owned_preserved owned_empty
  refine ⟨fun old hold => rfp_step hstep hold, fun hscheduler rfp => manual_step hmanual hstep
    hscheduler, fun hscheduler old hold => job_step howned hstep hscheduler hold, fun jobId => ?_⟩
  have hclaims := claims_run jobId (hrun.snoc hstep)
  have hle := spent_le jobId w'.tables.jobs
  omega

theorem completion_orderly : ∃ ls w', Orderly ls claimedWorld
    (.call (some (.working "u")) (some (.ready "u" "d1")) none) w' := by
  obtain ⟨ls, hrun, _⟩ := claimedWorld_run
  exact ⟨ls, _, status_step hrun (Step.first (some _) rfl (.completed "u" "d1"))⟩

end Runs

end RfpPlatform.StatusTransitions
