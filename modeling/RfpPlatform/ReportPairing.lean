import RfpPlatform.EmptyRanking
import RfpPlatform.TaskRefinement

namespace RfpPlatform.ReportPairing

open NodeUpdates (superstep_writesStatus)
open PipelineGraph (superstep)
open RunRequests RunTasks TransitionRuns

variable {c : Codec} {runId : String} {l : Label}

structure Recorded where
  world : World
  decisionBy : Option Nat
  explanationBy : Option Nat

def Recorded.observe (s : Recorded) (w : World) : Label → Recorded
  | .task _ id (some (.decision _)) => ⟨w, some id, s.explanationBy⟩
  | .task _ id (some (.explanation _)) => ⟨w, s.decisionBy, some id⟩
  | .write _ .reEvaluate _ => ⟨w, none, s.explanationBy⟩
  | _ => ⟨w, s.decisionBy, s.explanationBy⟩

/-- A row with a decision and an explanation has both of them from one task. -/
def Paired (runId : String) (s : Recorded) : Prop :=
  ∀ run ∈ rowOf s.world.db runId, run.decisionOutput.isSome = true →
    run.explanationOutput.isSome = true →
      ∃ id, s.decisionBy = some id ∧ s.explanationBy = some id

structure Attributed (runId : String) (s : Recorded) : Prop where
  alone : s.world.tasks.length ≤ 1
  waiting : ∀ run ∈ rowOf s.world.db runId, run.status = .pendingConfirm →
    run.decisionOutput = none
  current : ∀ task ∈ s.world.tasks, ∀ run ∈ rowOf s.world.db runId,
    run.decisionOutput.isSome = true → s.decisionBy = some task.id
  paired : Paired runId s

section Stale

open PipelineGraph (Config drive drive_run runningRow)
open EmptyRanking (retrievalDown)
open TaskRefinement

variable {w w' : World} {id : Nat} {decisionBy explanationBy : Option Nat}

@[irreducible] def firstEnd : Config := drive retrievalDown 17 (Config.start runningRow)

theorem firstEnd_reported : firstEnd.position = .ended ∧ firstEnd.state.blocked = false ∧
    firstEnd.state.decisionOutput.isSome = true ∧ firstEnd.state.explanationOutput.isSome = true := by
  decide +kernel

end Stale

end RfpPlatform.ReportPairing
