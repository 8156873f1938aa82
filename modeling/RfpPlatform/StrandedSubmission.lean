import RfpPlatform.SubmissionSteps

namespace RfpPlatform.StrandedSubmission

open BackgroundIngestion (JobStatus)
open Ingestion (Content)
open Submissions SubmissionSteps TransitionRuns

variable {sha256OfFile : Content → String} {w w' : World} {l : Label} {ls : List Label}

def Left (status : SubmissionStatus) : Prop := status ≠ .opened ∧ status ≠ .closed

/-- A request for proposals has left its window with a `received` job that is never queued. -/
def Stranded (sha256OfFile : Content → String) (w : World) : Prop :=
  ∃ rfp ∈ w.tables.rfps, Left rfp.submissionStatus ∧
    ∃ job ∈ w.tables.jobs, job.rfpId = rfp.rfpId ∧ job.status = .received ∧
      ∀ later, Reachable (Step sha256OfFile) w later →
        ∀ row ∈ later.tables.jobs, row.jobId = job.jobId → row.status ≠ .queued

/-- The request for proposals that a write gives a `received` job. -/
def Receives (tables : Tables) (rfpId : String) : Write → Prop
  | .insert job => job.status = .received ∧ job.rfpId = rfpId
  | .assign a => assignedStatus a.rfp = .received ∧
      ∃ job ∈ tables.jobs, job.jobId = a.jobId ∧ job.rfpId = rfpId
  | _ => False

/-- The window is not left, and no tick is between its two updates for it. -/
def Accepting (w : World) (rfpId : String) : Prop :=
  (∀ rfp ∈ w.tables.rfps, rfp.rfpId = rfpId → ¬ Left rfp.submissionStatus) ∧
    ∀ jobIds, Call.pass rfpId jobIds ∉ w.calls

/-- A job becomes `received` only while its request for proposals accepts it. -/
def Admits (w : World) : Label → Prop
  | .call _ (some write) _ => ∀ rfpId, Receives w.tables rfpId write → Accepting w rfpId
  | _ => True

/-- Past the window no job is `received`, and a pass has seen the ones it is about to miss. -/
structure NoneMissed (w : World) : Prop where
  left : ∀ rfp ∈ w.tables.rfps, Left rfp.submissionStatus →
    ∀ job ∈ w.tables.jobs, job.rfpId = rfp.rfpId → job.status ≠ .received
  seen : ∀ rfpId jobIds, Call.pass rfpId jobIds ∈ w.calls →
    ∀ job ∈ w.tables.jobs, job.rfpId = rfpId → job.status = .received → job.jobId ∈ jobIds

theorem Write.received_cases {now : Nat} {tables : Tables} {write : Write} {new : JobRow}
    (h : new ∈ (write.apply now tables).jobs) (hreceived : new.status = .received) :
    (∃ old ∈ tables.jobs, SameJob old new ∧ old.status = .received) ∨
      Receives tables new.rfpId write := by
  rcases write.job_cases h with ⟨old, hold, hsame, rfl | hmoves⟩ | ⟨job, rfl, rfl⟩
  · exact Or.inl ⟨new, hold, hsame, hreceived⟩
  · cases write with
    | assign a =>
        obtain ⟨hid, _, hstatus⟩ := hmoves
        exact Or.inr ⟨hstatus.symm.trans hreceived, old, hold, hid, hsame.2.symm⟩
    | supersede => exact Or.inl ⟨old, hold, hsame, hmoves.2.1⟩
    | queue => exact Or.inl ⟨old, hold, hsame, hmoves.2.1⟩
    | accept => cases hreceived.symm.trans hmoves.2.2
    | claim => cases hreceived.symm.trans hmoves.2.2
    | ready => cases hreceived.symm.trans hmoves.2
    | fail => cases hreceived.symm.trans hmoves.2
    | _ => exact hmoves.elim
  · refine Or.inr ⟨?_, rfl⟩
    change job.status.jobStatus = .received at hreceived
    cases hjob : job.status with
    | received => rfl
    | needsAttribution => rw [hjob] at hreceived; cases hreceived
    | rejectedLate => rw [hjob] at hreceived; cases hreceived

theorem not_mem_of_received {tables : Tables} {rfpId : String} {jobIds : List String}
    {new : JobRow} (h : new ∈ (queueRfp rfpId jobIds tables).jobs)
    (hreceived : new.status = .received) : new.jobId ∉ jobIds := by
  intro hseen
  obtain ⟨old, _, rfl⟩ := List.mem_map.mp h
  split at hreceived
  · cases hreceived
  · rename_i hp
    rw [if_neg hp] at hseen
    simp [hseen, hreceived] at hp

theorem noneMissed_preserved :
    Preserved (Guarded Admits (Step sha256OfFile)) NoneMissed := by
  rintro w l w' ⟨hleft, hseen⟩ ⟨hadmits, hstep⟩
  cases hstep with
  | wait => exact ⟨hleft, hseen⟩
  | @call before after call next write hcalls hstep =>
      cases write with
      | none =>
          refine ⟨hleft, fun rfpId jobIds hpass job hjob hrfp hreceived => ?_⟩
          rcases mem_calls_after hcalls hpass with hpass | hnext
          · exact hseen rfpId jobIds hpass job hjob hrfp hreceived
          · obtain ⟨_, _, rfl⟩ := hstep.of_pass hnext
            exact List.mem_map.mpr ⟨job, List.mem_filter.mpr ⟨hjob, by simp [hrfp, hreceived]⟩, rfl⟩
      | some write =>
          refine ⟨fun new hnew hgone job hjob hrfp hreceived => ?_,
            fun rfpId jobIds hpass job hjob hrfp hreceived => ?_⟩
          · -- the request for proposals had left its window before, or this write ends it
            have hbefore : ∀ old ∈ w.tables.rfps, old.rfpId = new.rfpId →
                ¬ Left old.submissionStatus := by
              intro old hold hid hgone
              rcases Write.received_cases hjob hreceived with ⟨row, hrow, hsame, hr⟩ | hr
              · exact hleft old hold hgone row hrow (by rw [← hsame.2, hrfp, hid]) hr
              · exact (hadmits _ hr).1 old hold (hid.trans hrfp.symm) hgone
            rcases write.rfp_cases hnew with ⟨old, hold, hid, hstatus | hadvances⟩ | hopened
            · exact hbefore old hold hid.symm (hstatus ▸ hgone)
            · cases write with
              | close => exact hgone.2 hadvances.2
              | flip =>
                  refine hbefore old hold hid.symm ?_
                  rw [hadvances.2.1]
                  exact ⟨by decide, by decide⟩
              | queue rfpId jobIds =>
                  have hpass : Call.pass rfpId jobIds ∈ w.calls := call_mem hcalls hstep.of_queue
                  rcases Write.received_cases hjob hreceived with ⟨row, hrow, hsame, hr⟩ | hr
                  · refine not_mem_of_received hjob hreceived ?_
                    rw [hsame.1]
                    refine hseen rfpId jobIds hpass row hrow ?_ hr
                    rw [← hsame.2, hrfp, hid, hadvances.1]
                  · exact hr
              | _ => exact hadvances
            · exact hgone.1 hopened.1
          · rcases mem_calls_after hcalls hpass with hpass | hnext
            · rcases Write.received_cases hjob hreceived with ⟨row, hrow, hsame, hr⟩ | hr
              · rw [hsame.1]
                exact hseen rfpId jobIds hpass row hrow (hsame.2.symm.trans hrfp) hr
              · exact absurd hpass (hrfp ▸ (hadmits _ hr).2 jobIds)
            · obtain ⟨hnone, _⟩ := hstep.of_pass hnext
              cases hnone

theorem noneMissed_empty : NoneMissed World.empty :=
  ⟨fun rfp hrfp => absurd hrfp (KeyedTable.not_mem_empty rfp), fun _ _ h => absurd h List.not_mem_nil⟩

/-- No submission is stranded when every job that becomes `received` does so while its request
for proposals is open or closed and no tick is between its two updates for it. -/
theorem admitted_run_not_stranded
    (h : Run (Guarded Admits (Step sha256OfFile)) World.empty ls w) :
    ¬ Stranded sha256OfFile w ∧
      ∀ rfp ∈ w.tables.rfps, rfp.submissionStatus = .processing →
        ∀ job ∈ w.tables.jobs, job.rfpId = rfp.rfpId → job.status ≠ .received := by
  have hnone : NoneMissed w := h.invariant noneMissed_preserved noneMissed_empty
  constructor
  · rintro ⟨rfp, hrfp, hgone, job, hjob, hid, hreceived, _⟩
    exact hnone.left rfp hrfp hgone job hjob hid hreceived
  · intro rfp hrfp hprocessing
    refine hnone.left rfp hrfp ?_
    rw [hprocessing]
    exact ⟨by decide, by decide⟩

section InTime

theorem admits_of_none_left (hleft : ∀ rfp ∈ w.tables.rfps, ¬ Left rfp.submissionStatus)
    (hpass : ∀ rfpId jobIds, Call.pass rfpId jobIds ∉ w.calls) : Admits w l := by
  cases l with
  | wait => trivial
  | call before write after =>
      cases write with
      | none => trivial
      | some write => exact fun rfpId _ => ⟨fun rfp hrfp _ => hleft rfp hrfp, hpass rfpId⟩

def Label.quiet : Label → Prop
  | .call _ (some write) _ => ∀ tables rfpId, ¬ Receives tables rfpId write
  | _ => True

theorem Label.quiet.admits (h : Label.quiet l) : Admits w l := by
  cases l with
  | wait => trivial
  | call before write after =>
      cases write with
      | none => trivial
      | some write => exact fun rfpId hreceives => absurd hreceives (h w.tables rfpId)

theorem offer_in_time_not_stranded :
    ¬ Stranded plainHash ⟨0, enteredTables, [.inserted "rfp-1" "acme" "u"]⟩ := by
  have hquiet := (openTables_reachable.append acmeDrop_checked).guarded (p := Label.quiet)
    (by simp [Label.quiet, Receives])
  have hrun : Run (Guarded Admits (Step plainHash)) World.empty _ _ :=
    hquiet.guarded_mono (fun _ _ h => h.admits)
  have hopen : Admits ⟨0, openTables, [.checked acmeJob]⟩
      (.call (some (.checked acmeJob)) (some (.insert acmeJob))
        (some (.inserted "rfp-1" "acme" "u"))) := by
    refine admits_of_none_left (fun rfp hrfp hgone => ?_) (by simp)
    have htender : rfp = tender := List.mem_singleton.mp hrfp
    exact hgone.1 (htender ▸ rfl)
  exact (admitted_run_not_stranded
    (hrun.snoc ⟨hopen, Step.first (some _) rfl (.inserted acmeJob)⟩)).1

end InTime

section Forever

/-- A job that waits for a request for proposals whose window is left, while nothing in progress
is about to touch it. -/
structure Held (rfpId jobId : String) (w : World) : Prop where
  known : ∃ rfp ∈ w.tables.rfps, rfp.rfpId = rfpId
  left : ∀ rfp ∈ w.tables.rfps, rfp.rfpId = rfpId → Left rfp.submissionStatus
  there : ∃ job ∈ w.tables.jobs, job.jobId = jobId
  waiting : ∀ job ∈ w.tables.jobs, job.jobId = jobId →
    job.rfpId = rfpId ∧ (job.status = .received ∨ job.status = .superseded)
  unselected : Call.selected rfpId ∉ w.calls
  unseen : ∀ r jobIds, Call.pass r jobIds ∈ w.calls → jobId ∉ jobIds
  unowned : ∀ call ∈ w.calls, ¬ call.owns jobId

variable {rfpId jobId : String}

theorem Write.left_preserved {now : Nat} {tables : Tables} {write : Write}
    (hknown : ∃ rfp ∈ tables.rfps, rfp.rfpId = rfpId)
    (hleft : ∀ rfp ∈ tables.rfps, rfp.rfpId = rfpId → Left rfp.submissionStatus) :
    ∀ rfp ∈ (write.apply now tables).rfps, rfp.rfpId = rfpId → Left rfp.submissionStatus := by
  intro new hnew hid
  rcases write.rfp_cases hnew with ⟨old, hold, hsame, hstatus | hadvances⟩ | ⟨_, hfresh⟩
  · rw [hstatus]
    exact hleft old hold (hsame.symm.trans hid)
  · have hgone : Left old.submissionStatus := hleft old hold (hsame.symm.trans hid)
    cases write with
    | close => exact absurd hadvances.1 hgone.1
    | queue => exact absurd hadvances.2.1 hgone.2
    | flip =>
        rw [hadvances.2.2]
        exact ⟨by decide, by decide⟩
    | _ => exact hadvances.elim
  · obtain ⟨rfp, hrfp, hknown⟩ := hknown
    exact absurd (hknown.trans hid.symm) (hfresh rfp hrfp)

theorem Held.waiting_preserved (h : Held rfpId jobId w) {call next : Option Call} {write : Write}
    {before after : List Call} (hcalls : w.calls = before ++ call.toList ++ after)
    (hstep : CallStep sha256OfFile w.now w.tables call (some write) next) :
    ∀ job ∈ (write.apply w.now w.tables).jobs, job.jobId = jobId →
      job.rfpId = rfpId ∧ (job.status = .received ∨ job.status = .superseded) := by
  intro new hnew hid
  obtain ⟨old, hold, hsame, hold_id, rfl | ⟨hcompletes, hmoves⟩⟩ :=
    unowned_job_cases h.unowned h.there hcalls hstep hnew hid
  · exact h.waiting new hold hid
  · obtain ⟨hrfp, hstatus⟩ := h.waiting old hold hold_id
    refine ⟨hsame.2.trans hrfp, ?_⟩
    cases write with
    | supersede => exact Or.inr hmoves.2.2
    | assign =>
        rw [hmoves.2.1] at hstatus
        rcases hstatus with h | h <;> cases h
    | accept =>
        rw [hmoves.2.1] at hstatus
        rcases hstatus with h | h <;> cases h
    | claim =>
        rw [hmoves.2.1] at hstatus
        rcases hstatus with h | h <;> cases h
    | queue r jobIds =>
        refine absurd hmoves.1 ?_
        rw [hold_id]
        exact h.unseen r jobIds (call_mem hcalls hstep.of_queue)
    | ready => cases hcompletes
    | fail => cases hcompletes
    | _ => exact hmoves.elim

theorem mem_receivedJobs {jobs : Jobs} :
    jobId ∈ receivedJobs rfpId jobs ↔
      ∃ job ∈ jobs, job.jobId = jobId ∧ job.rfpId = rfpId ∧ job.status = .received := by
  constructor
  · intro h
    obtain ⟨job, hjob, rfl⟩ := List.mem_map.mp h
    obtain ⟨hmem, hp⟩ := List.mem_filter.mp hjob
    simp only [Bool.and_eq_true, decide_eq_true_eq] at hp
    exact ⟨job, hmem, rfl, hp⟩
  · rintro ⟨job, hmem, rfl, hrfp, hstatus⟩
    exact List.mem_map.mpr ⟨job, List.mem_filter.mpr ⟨hmem, by simp [hrfp, hstatus]⟩, rfl⟩

theorem held_preserved : Preserved (Step sha256OfFile) (Held rfpId jobId) := by
  intro w l w' h hstep
  cases hstep with
  | wait => exact ⟨h.known, h.left, h.there, h.waiting, h.unselected, h.unseen, h.unowned⟩
  | @call before after call next write hcalls hstep =>
      have hunselected : Call.selected rfpId ∉ before ++ next.toList ++ after := by
        intro hmem
        rcases mem_calls_after hcalls hmem with hmem | hnext
        · exact h.unselected hmem
        · obtain ⟨rfp, hclosed, hid⟩ := hstep.of_selected hnext
          obtain ⟨hrfp, hp⟩ := List.mem_filter.mp hclosed
          simp only [Bool.and_eq_true, decide_eq_true_eq] at hp
          exact (h.left rfp hrfp hid).2 hp.1
      have hunseen : ∀ r jobIds, Call.pass r jobIds ∈ before ++ next.toList ++ after →
          jobId ∉ jobIds := by
        intro r jobIds hmem hseen
        rcases mem_calls_after hcalls hmem with hmem | hnext
        · exact h.unseen r jobIds hmem hseen
        · obtain ⟨_, hcall, rfl⟩ := hstep.of_pass hnext
          obtain ⟨job, hjob, hid, hrfp, _⟩ := mem_receivedJobs.mp hseen
          rw [(h.waiting job hjob hid).1] at hrfp
          rw [← hrfp] at hcall
          exact h.unselected (call_mem hcalls hcall)
      have hunqueued : ∀ job ∈ w.tables.jobs, job.jobId = jobId → job.status ≠ .queued := by
        intro job hjob hid hqueued
        rcases (h.waiting job hjob hid).2 with hs | hs <;> cases hqueued.symm.trans hs
      have hunowned := unowned_next h.unowned hunqueued hcalls hstep
      cases write with
      | none => exact ⟨h.known, h.left, h.there, h.waiting, hunselected, hunseen, hunowned⟩
      | some write =>
          obtain ⟨rfp, hrfp, hid⟩ := h.known
          obtain ⟨rfp', hrfp', hid'⟩ := Write.rfp_persists _ _ hrfp
          obtain ⟨job, hjob, hjid⟩ := h.there
          obtain ⟨job', hjob', hjid'⟩ := Write.job_persists _ _ hjob
          exact ⟨⟨rfp', hrfp', hid'.trans hid⟩, Write.left_preserved h.known h.left,
            ⟨job', hjob', hjid'.trans hjid⟩, h.waiting_preserved hcalls hstep, hunselected,
            hunseen, hunowned⟩

/-- A held job is never queued, whatever is done later. -/
theorem Held.stranded (h : Held rfpId jobId w)
    (hreceived : ∀ job ∈ w.tables.jobs, job.jobId = jobId → job.status = .received) :
    Stranded sha256OfFile w := by
  obtain ⟨rfp, hrfp, hid⟩ := h.known
  obtain ⟨job, hjob, hjid⟩ := h.there
  refine ⟨rfp, hrfp, h.left rfp hrfp hid, job, hjob, (h.waiting job hjob hjid).1.trans hid.symm,
    hreceived job hjob hjid, fun later hlater row hrow hrid hqueued => ?_⟩
  rcases ((hlater.invariant held_preserved h).waiting row hrow (hrid.trans hjid)).2 with hs | hs
  · cases hqueued.symm.trans hs
  · cases hqueued.symm.trans hs

def passedTables : Tables := queueRfp "rfp-1" [] (closeExpiredRfps 1 openTables)

def lateWorld : World :=
  ⟨1, (Write.insert acmeJob).apply 1 passedTables, [.inserted "rfp-1" "acme" "u"]⟩

theorem lateWorld_reachable : ∃ ls, Run (Step plainHash) World.empty ls lateWorld := by
  have hpass : Run (Step plainHash) ⟨0, openTables, [.checked acmeJob]⟩ _
      ⟨1, passedTables, [.checked acmeJob]⟩ :=
    .cons (.wait _)
      (.cons (Step.first none rfl .closed)
        (.cons (Step.first none rfl
            (@CallStep.selected _ _ _ { tender with submissionStatus := .closed }
              (List.mem_singleton_self _)))
          (.cons (Step.first (some _) rfl (.scanned "rfp-1"))
            (.cons (Step.first (some _) rfl (.committed "rfp-1" [])) (.nil _)))))
  exact ⟨_, ((openTables_reachable.append acmeDrop_checked).append hpass).snoc
    (Step.first (some _) rfl (.inserted acmeJob))⟩

/-- A drop that is checked in time and inserted after the tick is stranded. -/
theorem straddling_drop_stranded :
    ∃ ls w, Run (Step plainHash) World.empty ls w ∧ Stranded plainHash w := by
  obtain ⟨ls, hrun⟩ := lateWorld_reachable
  have hrfps : lateWorld.tables.rfps.rows = [{ tender with submissionStatus := .processing }] := rfl
  have hjobs : lateWorld.tables.jobs.table.rows = [acmeJob.row "u"] := rfl
  have hrfp : ∀ rfp ∈ lateWorld.tables.rfps, rfp = { tender with submissionStatus := .processing } :=
    fun rfp h => List.mem_singleton.mp (hrfps ▸ h)
  have hjob : ∀ job ∈ lateWorld.tables.jobs, job = acmeJob.row "u" :=
    fun job h => List.mem_singleton.mp (hjobs ▸ h)
  have hheld : Held "rfp-1" "u" lateWorld := by
    refine ⟨⟨_, hrfps ▸ List.mem_singleton_self _, rfl⟩, fun rfp h _ => ?_,
      ⟨_, hjobs ▸ List.mem_singleton_self _, rfl⟩, fun job h _ => ?_, ?_, ?_, ?_⟩
    · rw [hrfp rfp h]
      exact ⟨by decide, by decide⟩
    · rw [hjob job h]
      exact ⟨rfl, Or.inl rfl⟩
    · simp [lateWorld]
    · simp [lateWorld]
    · simp [lateWorld, Call.owns]
  exact ⟨ls, lateWorld, hrun, hheld.stranded (fun job h _ => by rw [hjob job h]; rfl)⟩

end Forever

end RfpPlatform.StrandedSubmission
