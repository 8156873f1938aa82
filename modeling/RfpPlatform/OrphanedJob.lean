import RfpPlatform.SubmissionSteps

namespace RfpPlatform.OrphanedJob

open BackgroundIngestion (JobStatus)
open Ingestion (Content)
open Submissions SubmissionSteps TransitionRuns

variable {sha256OfFile : Content → String} {w w' : World} {l : Label} {ls : List Label}
  {jobId rfpId : String}

/-- Every job in processing is executed, or a later tick lists it again. -/
def Kept (sha256OfFile : Content → String) (w : World) : Prop :=
  ∀ job ∈ w.tables.jobs, job.status = .processing →
    (∃ call ∈ w.calls, call.owns job.jobId) ∨
      ∃ later, Reachable (Step sha256OfFile) w later ∧
        job.jobId ∈ listQueuedJobs later.tables.jobs

/-- No execution of `process_job` ends between its claim and its completion write. -/
def Admits (_ : World) : Label → Prop
  | .call (some call) none none => ∀ jobId, ¬ call.owns jobId
  | _ => True

def Owned (w : World) : Prop :=
  ∀ job ∈ w.tables.jobs, job.status = .processing → ∃ call ∈ w.calls, call.owns job.jobId

theorem completion_applies {now : Nat} {tables : Tables} {write : Write} {new : JobRow}
    (hwrite : (∃ docId, write = .ready jobId docId) ∨ ∃ reason, write = .fail jobId reason)
    (h : new ∈ (write.apply now tables).jobs) (hid : new.jobId = jobId) :
    new.status ≠ .processing := by
  rcases hwrite with ⟨docId, rfl⟩ | ⟨reason, rfl⟩
  · obtain ⟨old, _, rfl⟩ := List.mem_map.mp h
    split
    · exact fun h => by cases h
    · rename_i hp
      rw [if_neg hp] at hid
      simp [hid] at hp
  · obtain ⟨old, _, rfl⟩ := List.mem_map.mp h
    split
    · exact fun h => by cases h
    · rename_i hp
      rw [if_neg hp] at hid
      simp [hid] at hp

theorem EntryStatus.ne_processing (status : EntryStatus) : status.jobStatus ≠ .processing := by
  cases status <;> exact fun h => by cases h

theorem assignedStatus_ne_processing (rfp : Rfp) : assignedStatus rfp ≠ .processing := by
  unfold assignedStatus
  split <;> exact fun h => by cases h

theorem Write.processing_cases {now : Nat} {tables : Tables} {write : Write} {new : JobRow}
    (h : new ∈ (write.apply now tables).jobs) (hprocessing : new.status = .processing) :
    (∃ old ∈ tables.jobs, old.jobId = new.jobId ∧ old.status = .processing) ∨
      write = .claim new.jobId := by
  rcases write.job_cases h with ⟨old, hold, hsame, rfl | hmoves⟩ | ⟨job, rfl, rfl⟩
  · exact Or.inl ⟨new, hold, rfl, hprocessing⟩
  · cases write with
    | claim id => exact Or.inr (by rw [hsame.1, hmoves.1])
    | assign a => exact absurd (hmoves.2.2.symm.trans hprocessing) (assignedStatus_ne_processing _)
    | supersede => cases hprocessing.symm.trans hmoves.2.2
    | queue => cases hprocessing.symm.trans hmoves.2.2
    | accept => cases hprocessing.symm.trans hmoves.2.2
    | ready => cases hprocessing.symm.trans hmoves.2
    | fail => cases hprocessing.symm.trans hmoves.2
    | _ => exact hmoves.elim
  · exact absurd hprocessing (EntryStatus.ne_processing job.status)

theorem owned_preserved : Preserved (Guarded Admits (Step sha256OfFile)) Owned := by
  rintro w l w' hw ⟨hadmits, hstep⟩
  cases hstep with
  | wait => exact hw
  | @call before after call next write hcalls hstep =>
      intro new hnew hprocessing
      -- the owner of a job that was in processing before goes on, or its write ends the status
      have hkept : (∃ owner ∈ w.calls, owner.owns new.jobId) →
          ∃ owner ∈ before ++ next.toList ++ after, owner.owns new.jobId := by
        rintro ⟨owner, howner, howns⟩
        rcases mem_calls_before next hcalls howner with hmem | rfl
        · exact ⟨owner, hmem, howns⟩
        · rcases hstep.owner_cases howns with ⟨later, rfl, hlater⟩ | hwrite | ⟨rfl, rfl⟩
          · exact ⟨later, by simp, hlater⟩
          · cases write with
            | none => simp at hwrite
            | some write =>
                simp only [Option.some.injEq] at hwrite
                exact absurd hprocessing (completion_applies hwrite hnew rfl)
          · exact absurd howns (hadmits new.jobId)
      cases write with
      | none => exact hkept (hw new hnew hprocessing)
      | some write =>
          rcases Write.processing_cases hnew hprocessing with ⟨old, hold, hid, hs⟩ | rfl
          · exact hkept (hid ▸ hw old hold hs)
          · rw [hstep.of_claim]
            exact ⟨.working new.jobId, by simp, rfl⟩

theorem owned_empty : Owned World.empty := fun job hjob => absurd hjob (KeyedTable.not_mem_empty job)

/-- While every execution of `process_job` comes to its completion write, no job is orphaned. -/
theorem admitted_run_kept (h : Run (Guarded Admits (Step sha256OfFile)) World.empty ls w) :
    Kept sha256OfFile w := by
  intro job hjob hprocessing
  exact Or.inl (h.invariant owned_preserved owned_empty job hjob hprocessing)

def queuedTables : Tables := queueRfp "rfp-1" ["u"] (closeExpiredRfps 1 enteredTables)

def claimedWorld : World := ⟨1, (Write.claim "u").apply 1 queuedTables, [.working "u"]⟩

theorem claimedWorld_run :
    ∃ ls, Run (Step plainHash) World.empty ls claimedWorld ∧ ∀ l ∈ ls, ¬ l.cutOff := by
  have hentered : Run (Step plainHash) ⟨0, openTables, [.checked acmeJob]⟩ _
      ⟨0, enteredTables, []⟩ :=
    .cons (Step.first (some _) rfl (.inserted acmeJob))
      (.cons (Step.first (some _) rfl (.superseded "rfp-1" "acme" "u")) (.nil _))
  have hclaimed : Run (Step plainHash) ⟨0, enteredTables, []⟩ _ claimedWorld :=
    .cons (.wait _)
      (.cons (Step.first none rfl .closed)
        (.cons (Step.first none rfl
            (@CallStep.selected _ _ _ { tender with submissionStatus := .closed }
              (List.mem_singleton_self _)))
          (.cons (Step.first (some _) rfl (.scanned "rfp-1"))
            (.cons (Step.first (some _) rfl (.committed "rfp-1" ["u"]))
              (.cons (Step.first none rfl (@CallStep.claimed _ _ _ "u" (List.mem_singleton_self _)))
                (.nil _))))))
  exact ⟨_, ((openTables_reachable.append acmeDrop_checked).append hentered).append hclaimed,
    by simp [Label.cutOff]⟩

theorem claimedWorld_reachable :
    ∃ ls, Run (Guarded Admits (Step plainHash)) World.empty ls claimedWorld := by
  obtain ⟨ls, hrun, hquiet⟩ := claimedWorld_run
  refine ⟨ls, hrun.guarded (p := Admits World.empty) (fun l hl => ?_)⟩
  have hcutOff := hquiet l hl
  unfold Admits
  split
  · exact absurd trivial hcutOff
  · trivial

theorem claimed_job_kept : Kept plainHash claimedWorld := by
  obtain ⟨ls, hrun⟩ := claimedWorld_reachable
  exact admitted_run_kept hrun

section Forever

/-- A job in processing that nothing executes, of a request for proposals that no tick has
counted as completed. -/
structure Orphaned (rfpId jobId : String) (w : World) : Prop where
  there : ∃ job ∈ w.tables.jobs, job.jobId = jobId
  processing : ∀ job ∈ w.tables.jobs, job.jobId = jobId →
    job.rfpId = rfpId ∧ job.status = .processing
  unowned : ∀ call ∈ w.calls, ¬ call.owns jobId
  uncounted : Call.counted rfpId ∉ w.calls
  unfinished : ∀ rfp ∈ w.tables.rfps, rfp.rfpId = rfpId → rfp.submissionStatus ≠ .factsReady

theorem completed_eq_false {jobs : Jobs} {job : JobRow} (hjob : job ∈ jobs)
    (hopen : isOpenJob job = true) : completed job.rfpId jobs = false := by
  have hpos : 0 < jobs.table.rows.countP (fun j => j.rfpId = job.rfpId && isOpenJob j) :=
    List.countP_pos_iff.mpr ⟨job, hjob, by simp [hopen]⟩
  have hne : jobs.table.rows.countP (fun j => j.rfpId = job.rfpId && isOpenJob j) ≠ 0 := by omega
  simp [completed, hne]

theorem Orphaned.processing_preserved (h : Orphaned rfpId jobId w) {call next : Option Call}
    {write : Write} {before after : List Call} (hcalls : w.calls = before ++ call.toList ++ after)
    (hstep : CallStep sha256OfFile w.now w.tables call (some write) next) :
    ∀ job ∈ (write.apply w.now w.tables).jobs, job.jobId = jobId →
      job.rfpId = rfpId ∧ job.status = .processing := by
  intro new hnew hid
  obtain ⟨old, hold, hsame, hold_id, rfl | ⟨hcompletes, hmoves⟩⟩ :=
    unowned_job_cases h.unowned h.there hcalls hstep hnew hid
  · exact h.processing new hold hid
  · have hstatus := (h.processing old hold hold_id).2
    cases write with
    | claim => cases hstatus.symm.trans hmoves.2.1
    | supersede => cases hstatus.symm.trans hmoves.2.1
    | assign => cases hstatus.symm.trans hmoves.2.1
    | accept => cases hstatus.symm.trans hmoves.2.1
    | queue => cases hstatus.symm.trans hmoves.2.1
    | ready => cases hcompletes
    | fail => cases hcompletes
    | _ => exact hmoves.elim

theorem Orphaned.unfinished_preserved (h : Orphaned rfpId jobId w) {call next : Option Call}
    {write : Write} {before after : List Call} (hcalls : w.calls = before ++ call.toList ++ after)
    (hstep : CallStep sha256OfFile w.now w.tables call (some write) next) :
    ∀ rfp ∈ (write.apply w.now w.tables).rfps, rfp.rfpId = rfpId →
      rfp.submissionStatus ≠ .factsReady := by
  intro new hnew hid hready
  rcases write.rfp_cases hnew with ⟨old, hold, hsame, hstatus | hadvances⟩ | ⟨hopened, _⟩
  · exact h.unfinished old hold (hsame.symm.trans hid) (hstatus ▸ hready)
  · cases write with
    | close => cases hready.symm.trans hadvances.2
    | queue => cases hready.symm.trans hadvances.2.2
    | flip r =>
        have hr : r = rfpId := hadvances.1.symm.trans (hsame.symm.trans hid)
        exact h.uncounted (hr ▸ call_mem hcalls hstep.of_flip)
    | _ => exact hadvances
  · cases hready.symm.trans hopened

theorem orphaned_preserved : Preserved (Step sha256OfFile) (Orphaned rfpId jobId) := by
  intro w l w' h hstep
  cases hstep with
  | wait => exact ⟨h.there, h.processing, h.unowned, h.uncounted, h.unfinished⟩
  | @call before after call next write hcalls hstep =>
      obtain ⟨job, hjob, hid⟩ := h.there
      obtain ⟨hrfp, hstatus⟩ := h.processing job hjob hid
      have hunqueued : ∀ row ∈ w.tables.jobs, row.jobId = jobId → row.status ≠ .queued :=
        fun row hrow hrid hqueued => by cases hqueued.symm.trans (h.processing row hrow hrid).2
      have hunowned := unowned_next h.unowned hunqueued hcalls hstep
      have huncounted : Call.counted rfpId ∉ before ++ next.toList ++ after := by
        intro hmem
        rcases mem_calls_after hcalls hmem with hmem | hnext
        · exact h.uncounted hmem
        · have hcompleted := hstep.of_counted hnext
          rw [← hrfp, completed_eq_false hjob (by simp [isOpenJob, hstatus])] at hcompleted
          cases hcompleted
      cases write with
      | none => exact ⟨h.there, h.processing, hunowned, huncounted, h.unfinished⟩
      | some write =>
          obtain ⟨job', hjob', hid'⟩ := Write.job_persists _ _ hjob
          exact ⟨⟨job', hjob', hid'.trans hid⟩, h.processing_preserved hcalls hstep, hunowned,
            huncounted, h.unfinished_preserved hcalls hstep⟩

/-- The execution that is cut off leaves its job orphaned, when it was the only one. -/
theorem orphaned_of_crash {job : JobRow} {owner : Call} {before after : List Call}
    (hcalls : w.calls = before ++ [owner] ++ after) (hjob : job ∈ w.tables.jobs)
    (hprocessing : job.status = .processing)
    (halone : ∀ call ∈ before ++ after, ¬ call.owns job.jobId)
    (huncounted : Call.counted job.rfpId ∉ before ++ after)
    (hunfinished : ∀ rfp ∈ w.tables.rfps, rfp.rfpId = job.rfpId →
      rfp.submissionStatus ≠ .factsReady) :
    Step sha256OfFile w (.call (some owner) none none) { w with calls := before ++ after } ∧
      Orphaned job.rfpId job.jobId { w with calls := before ++ after } := by
  have hstep := @Step.call sha256OfFile w before after (some owner) none none hcalls
    (.aborted owner)
  rw [Option.toList_none, List.append_nil] at hstep
  refine ⟨hstep, ⟨job, hjob, rfl⟩, fun row hrow hid => ?_, halone, huncounted, hunfinished⟩
  rw [KeyedTable.eq_of_key_eq hrow hjob hid]
  exact ⟨rfl, hprocessing⟩

theorem Orphaned.forever (h : Orphaned rfpId jobId w) {later : World}
    (hlater : Reachable (Step sha256OfFile) w later) :
    jobId ∉ listQueuedJobs later.tables.jobs ∧
      ∀ rfp ∈ later.tables.rfps, rfp.rfpId = rfpId → rfp.submissionStatus ≠ .factsReady := by
  have horphaned : Orphaned rfpId jobId later := hlater.invariant orphaned_preserved h
  refine ⟨fun hqueued => ?_, horphaned.unfinished⟩
  obtain ⟨row, hrow, hrid⟩ := List.mem_map.mp hqueued
  obtain ⟨hmem, hp⟩ := List.mem_filter.mp hrow
  simp [(horphaned.processing row hmem hrid).2] at hp

theorem Orphaned.not_kept (h : Orphaned rfpId jobId w) : ¬ Kept sha256OfFile w := by
  intro hkept
  obtain ⟨job, hjob, rfl⟩ := h.there
  rcases hkept job hjob (h.processing job hjob rfl).2 with ⟨call, hcall, howns⟩ | ⟨later, hl, hq⟩
  · exact h.unowned call hcall howns
  · exact (h.forever hl).1 hq

/-- One crash of a worker keeps its job, and with it the request for proposals, where it is. -/
theorem crash_orphans_job : ∃ ls w, Run (Step plainHash) World.empty ls w ∧ ¬ Kept plainHash w ∧
    ∀ later, Reachable (Step plainHash) w later → ∀ rfp ∈ later.tables.rfps,
      rfp.rfpId = "rfp-1" → rfp.submissionStatus ≠ .factsReady := by
  have hjobs : claimedWorld.tables.jobs.table.rows =
      [{ acmeJob.row "u" with status := .processing }] := rfl
  have hrfps : claimedWorld.tables.rfps.rows = [{ tender with submissionStatus := .processing }] :=
    rfl
  have hjob : { acmeJob.row "u" with status := .processing } ∈ claimedWorld.tables.jobs := by
    change _ ∈ claimedWorld.tables.jobs.table.rows
    rw [hjobs]
    exact List.mem_singleton_self _
  have hunfinished : ∀ rfp ∈ claimedWorld.tables.rfps, rfp.rfpId = "rfp-1" →
      rfp.submissionStatus ≠ .factsReady := by
    intro rfp hrfp _
    have hmem : rfp ∈ claimedWorld.tables.rfps.rows := hrfp
    rw [hrfps] at hmem
    rw [List.mem_singleton.mp hmem]
    decide
  obtain ⟨hstep, horphaned⟩ := @orphaned_of_crash plainHash claimedWorld _ (.working "u") [] []
    rfl hjob rfl (by simp) (by simp) hunfinished
  obtain ⟨ls, hrun⟩ := claimedWorld_reachable
  exact ⟨_, _, hrun.forget.snoc hstep, horphaned.not_kept,
    fun later hlater => (horphaned.forever hlater).2⟩

end Forever

section ProcessJob

open BackgroundIngestion (FactStore)

/-- The store of `process_job` sees the rows of the table without the columns of the intake. -/
def Views (store : FactStore) (jobs : Jobs) : Prop :=
  store.jobs.rows = jobs.table.rows.map JobRow.toJob

variable {store store' : FactStore} {jobs : Jobs}

theorem Views.lookup (h : Views store jobs) (jobId : String) :
    store.jobs.lookup jobId = (jobs.table.lookup jobId).map JobRow.toJob := by
  rw [KeyedTable.lookup, h, List.find?_map]
  rfl

theorem claim_iff_listed (h : Views store jobs) :
    (BackgroundIngestion.claimForProcessing jobId store).isSome = true ↔
      jobId ∈ listQueuedJobs jobs := by
  rw [BackgroundIngestion.claimForProcessing, Option.isSome_map, h.lookup, Option.isSome_iff_exists]
  constructor
  · rintro ⟨job, hjob⟩
    obtain ⟨hlookup, hqueued⟩ := Option.filter_eq_some_iff.mp hjob
    obtain ⟨row, hrow, rfl⟩ := Option.map_eq_some_iff.mp hlookup
    obtain ⟨hmem, hid⟩ := KeyedTable.lookup_eq_some.mp hrow
    exact List.mem_map.mpr ⟨row, List.mem_filter.mpr ⟨hmem, hqueued⟩, hid⟩
  · intro hlisted
    obtain ⟨row, hrow, hid⟩ := List.mem_map.mp hlisted
    obtain ⟨hmem, hqueued⟩ := List.mem_filter.mp hrow
    have hlookup := KeyedTable.lookup_eq_some.mpr ⟨hmem, hid⟩
    exact ⟨row.toJob, Option.filter_eq_some_iff.mpr ⟨by rw [hlookup]; rfl, hqueued⟩⟩

theorem claim_views (h : Views store jobs) {job : BackgroundIngestion.Job}
    (hclaim : BackgroundIngestion.claimForProcessing jobId store = some (job, store')) :
    Views store' (claimForProcessing jobId jobs) := by
  obtain ⟨found, hfound, hstore⟩ := Option.map_eq_some_iff.mp hclaim
  obtain ⟨hlookup, hqueued⟩ := Option.filter_eq_some_iff.mp hfound
  obtain ⟨row, hrow, rfl⟩ := Option.map_eq_some_iff.mp ((h.lookup jobId).symm.trans hlookup)
  obtain ⟨hmem, hid⟩ := KeyedTable.lookup_eq_some.mp hrow
  cases hstore
  change store.jobs.rows.map _ = (jobs.table.rows.map _).map JobRow.toJob
  rw [h, List.map_map, List.map_map]
  refine List.map_congr_left (fun other hother => ?_)
  -- the one row under the id is the queued one
  by_cases hsame : other.jobId = jobId
  · rw [KeyedTable.eq_of_key_eq hother hmem (hsame.trans hid.symm)]
    have hstatus : row.status = .queued := of_decide_eq_true hqueued
    simp [hid, hstatus]
  · simp [hsame]

theorem markFactsReady_views (h : Views store jobs) {docId : String}
    (hmark : BackgroundIngestion.markFactsReady jobId docId store = .ok store') :
    Views store' (markFactsReady jobId docId jobs) := by
  unfold BackgroundIngestion.markFactsReady at hmark
  split at hmark
  · cases hmark
    change store.jobs.rows.map _ = (jobs.table.rows.map _).map JobRow.toJob
    rw [h, List.map_map, List.map_map]
    refine List.map_congr_left (fun row _ => ?_)
    by_cases hid : row.jobId = jobId <;> simp [hid]
  · cases hmark

theorem markFailed_views {w : BackgroundIngestion.World} (h : Views w.store jobs)
    (reason : String) :
    Views (BackgroundIngestion.markFailed jobId reason w).1.store (markFailed jobId reason jobs) := by
  change w.store.jobs.rows.map _ = (jobs.table.rows.map _).map JobRow.toJob
  rw [h, List.map_map, List.map_map]
  refine List.map_congr_left (fun row _ => ?_)
  by_cases hid : row.jobId = jobId <;> simp [hid]

end ProcessJob

end RfpPlatform.OrphanedJob
