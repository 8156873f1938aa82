import RfpPlatform.RunDeletion
import RfpPlatform.RunTasks

namespace RfpPlatform.RunRetention

open RunDeletion RunRequests TransitionRuns
open AccountRequests (TokenData)
open RunTasks (Op RowWrite)

/-- The tables with a record, which no request reads, of the runs that `delete_run` removed. -/
structure System where
  tables : Tables
  removed : List RunRow

def System.empty : System := ⟨Tables.empty, []⟩

/-- A request, a statement of a pipeline task, a restart of the server, or whatever the other
operations write to the tables beside the runs. -/
inductive Event
  | start (draw : Draw) (user : TokenData) (req : StartRequest)
  | updateSetup (draw : Draw) (user : TokenData) (runId : String)
  | request (draw : Draw) (user : TokenData) (runId : String) (op : Op)
  | rerun (draw : Draw) (user : TokenData) (runId : String)
  | pipeline (draw : Draw) (runId : String) (write : RowWrite)
  | restart
  | others (tables : Tables)
  | delete (draw : Draw) (user : TokenData) (runId : String)

/-- A request on the runs, which is rolled back where it raises. -/
def System.commit (s : System) (result : Except Exn Db) : System :=
  match result with
  | .ok db => { s with tables := { s.tables with toDb := db } }
  | .error _ => s

def gone (before after : KeyedTable RunRow.runId) : List RunRow :=
  before.rows.filter (fun run => (after.lookup run.runId).isNone)

def serve (s : System) : Event → System
  | .start draw user req => s.commit (startEvaluation draw user req s.tables.toDb)
  | .updateSetup draw user runId => s.commit (RunRequests.updateSetup draw user runId s.tables.toDb)
  | .request draw user runId op => s.commit (op.request draw user runId s.tables.toDb)
  | .rerun draw user runId => s.commit (rerunEvaluation draw user runId s.tables.toDb)
  | .pipeline draw runId write => s.commit (.ok (write.apply draw runId s.tables.toDb))
  | .restart => s.commit (.ok (markOrphanedRuns s.tables.toDb))
  | .others tables => { s with tables := { tables with runs := s.tables.runs } }
  | .delete draw user runId =>
      let tables := afterDelete draw user runId s.tables
      ⟨tables, gone s.tables.runs tables.runs ++ s.removed⟩

def Completed (run : RunRow) : Prop := run.status = .complete ∧ run.decisionOutput.isSome = true

def Retained (s : System) : Prop := ∀ run ∈ s.removed, ¬ Completed run

/-- A request to delete a completed run is refused, or a foreign key holds the run. -/
def Admits (s : System) : Event → Prop
  | .delete draw user runId => ∀ run, Deletable draw user runId s.tables run →
      Completed run → Held run s.tables
  | _ => True

variable {s : System} {draw : Draw} {user : TokenData} {runId : String} {run : RunRow} {t : Tables}

theorem gone_without (hrun : run ∈ t.runs) : ∀ r, r ∈ gone t.runs (without run t).runs ↔ r = run := by
  intro r
  rw [gone, List.mem_filter, Option.isNone_iff_eq_none, KeyedTable.lookup_eq_none]
  constructor
  · rintro ⟨hr, hnone⟩
    by_contra hne
    refine hnone r (mem_runs_without.mpr ⟨hr, fun hid => hne ?_⟩) rfl
    exact KeyedTable.eq_of_key_eq hr hrun hid.1
  · rintro rfl
    refine ⟨hrun, fun other hother hid => ?_⟩
    obtain ⟨hmem, hne⟩ := mem_runs_without.mp hother
    have hsame : other = r := KeyedTable.eq_of_key_eq hmem hrun hid
    exact hne ⟨hid, by rw [hsame]⟩

theorem gone_self (runs : KeyedTable RunRow.runId) : gone runs runs = [] := by
  refine List.filter_eq_nil_iff.mpr (fun run hrun => ?_)
  rw [KeyedTable.lookup_eq_some.mpr ⟨hrun, rfl⟩]
  exact Bool.false_ne_true

theorem retained_delete : Retained (serve s (.delete draw user runId)) ↔
    Retained s ∧ Admits s (.delete draw user runId) := by
  by_cases hall : ∀ run, Deletable draw user runId s.tables run → Held run s.tables
  · obtain ⟨e, he⟩ := deleteRun_eq_error hall
    have hsame : serve s (.delete draw user runId) = s := by
      simp only [serve, afterDelete, he, gone_self, List.nil_append]
    rw [hsame]
    exact ⟨fun h => ⟨h, fun run hrun _ => hall run hrun⟩, fun h => h.1⟩
  · obtain ⟨run, hnot⟩ := not_forall.mp hall
    obtain ⟨hrun, hheld⟩ := Classical.not_imp.mp hnot
    have hserve : serve s (.delete draw user runId) = ⟨without run s.tables,
        gone s.tables.runs (without run s.tables).runs ++ s.removed⟩ := by
      simp only [serve, afterDelete_of_not_held hrun hheld]
    rw [hserve]
    constructor
    · intro h
      refine ⟨fun r hr => h r (List.mem_append_right _ hr), fun run' hrun' hcompleted => ?_⟩
      have hsame : run' = run :=
        KeyedTable.eq_of_key_eq hrun'.stored hrun.stored (hrun'.named.trans hrun.named.symm)
      subst hsame
      exact absurd hcompleted
        (h run' (List.mem_append_left _ ((gone_without hrun.stored run').mpr rfl)))
    · rintro ⟨hretained, hallowed⟩ r hr
      rcases List.mem_append.mp hr with hgone | hold
      · rw [(gone_without hrun.stored r).mp hgone]
        exact fun hcompleted => hheld (hallowed run hrun hcompleted)
      · exact hretained r hold

theorem retained_serve (s : System) (event : Event) :
    Retained (serve s event) ↔ Retained s ∧ Admits s event := by
  have hcommit : ∀ result, Retained (s.commit result) ↔ Retained s ∧ True := by
    intro result
    cases result <;> exact (and_iff_left trivial).symm
  cases event with
  | delete draw user runId => exact retained_delete
  | others tables => exact (and_iff_left trivial).symm
  | start | updateSetup | request | rerun | pipeline | restart => exact hcommit _

/-- No completed run is ever removed exactly when, at every request to delete one, its user
may not see it or a foreign key holds it. -/
theorem retained_iff (events : List Event) : Retained (events.foldl serve System.empty) ↔
    AllAdmitted serve Admits System.empty events := by
  rw [foldl_iff_allAdmitted retained_serve]
  exact and_iff_right (fun _ h => nomatch h)

def startDraw : Draw :=
  ⟨0, "5f0c2a1e-run", .ok (defaultSetup "setup-5f0c2a1e" "org-1" "rfp-5f0c2a1e"), true⟩

def deletedAfterwards : List Event :=
  [.start startDraw companyAdmin ⟨"Managed network", "IT", 250000, ["v1", "v2"], "GBP"⟩,
    .request adminDraw companyAdmin "5f0c2a1e-run" .confirm,
    .pipeline adminDraw "5f0c2a1e-run" (.decision "\x7b\x7d"),
    .pipeline adminDraw "5f0c2a1e-run" (.status .complete),
    .delete adminDraw companyAdmin "5f0c2a1e-run"]

theorem completed_run_deleted :
    ¬ ∀ events : List Event, Retained (events.foldl serve System.empty) := by
  intro h
  have hremoved : ((deletedAfterwards.foldl serve System.empty).removed.map
      (fun run => (run.status, run.decisionOutput.isSome))) = [(.complete, true)] := by
    decide +kernel
  obtain ⟨run, hrun, heq⟩ := List.mem_map.mp (hremoved ▸ List.mem_singleton_self _)
  exact h deletedAfterwards run hrun ⟨congrArg Prod.fst heq, congrArg Prod.snd heq⟩

end RfpPlatform.RunRetention
