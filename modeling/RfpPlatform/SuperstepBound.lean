import RfpPlatform.NodeUpdates

namespace RfpPlatform.SuperstepBound

open NodeUpdates PipelineGraph PipelineNodes RunRequests RunState TransitionRuns

variable {e : Execution} {c c' : Config} {s : PipelineState} {n m : Node} {l : Label}
  {ls : List Label}

/-- The limit that `_run_pipeline` gives the graph. -/
def recursionLimit : Nat := 50

/-- What a step costs where a superstep of the node `n` costs `w n`. -/
def cost (w : Node → Nat) : Label → Nat
  | .node n _ => w n
  | .finish => 0

def supersteps (ls : List Label) : Nat := (ls.map (cost fun _ => 1)).sum

/-- How often the explanations were generated: once in each superstep of their fan-out. -/
def attempts (ls : List Label) : Nat :=
  (ls.map (cost fun n => if n = .explanationPerVendor then 1 else 0)).sum

/-- The number of nodes from a node to the explanation critic. -/
def rank : Node → Nat
  | .planner => 17
  | .ingestion => 16
  | .retrievalStart => 15
  | .retrievalPerVendor => 14
  | .retrievalDone => 13
  | .extractionStart => 12
  | .extractionPerVendor => 11
  | .extractionDone => 10
  | .evaluationStart => 9
  | .evaluationPerVendor => 8
  | .evaluationDone => 7
  | .comparator => 6
  | .decision => 5
  | .explanationStart => 4
  | .explanationPerVendor => 3
  | .explanationFinalise => 2
  | .explanationCritic => 1

section Routes

/-- An edge that does not close the loop leads one node on. -/
theorem rank_route (hn : n ≠ .explanationCritic) (h : route e s n = .at m) :
    rank n = rank m + 1 := by
  rw [route_at h]
  cases n with
  | explanationCritic => exact absurd rfl hn
  | _ => rfl

/-- The loop is closed by a retry, which is counted. -/
theorem critic_route
    (h : route e (s.applyAll (explanationCritic e s).updates) .explanationCritic = .at m) :
    m = .explanationStart ∧ s.explanationRetryCount < explanationMaxRetries ∧
      (s.applyAll (explanationCritic e s).updates).explanationRetryCount =
        s.explanationRetryCount + 1 := by
  simp only [route, routeAfterExplanationCritic] at h
  split at h
  · cases h
  · rename_i hopen
    split at h
    · rename_i hrequested
      cases h
      unfold explanationCritic at hopen hrequested ⊢
      split at hopen
      · exact absurd (blocked_applyAll.mpr (.inr ⟨_, List.mem_singleton_self _, rfl⟩)) hopen
      · rename_i output houtput
        simp only [houtput] at hrequested ⊢
        simp only at hopen
        split at hopen
        · rename_i hverdict
          rw [if_pos hverdict] at hrequested
          cases hrequested
        · rename_i hverdict
          rw [if_neg hverdict] at hrequested ⊢
          split at hopen
          · exact absurd (blocked_applyAll.mpr (.inr ⟨_, List.mem_singleton_self _, rfl⟩)) hopen
          · rename_i hbudget
            rw [if_neg hbudget]
            exact ⟨trivial, Nat.lt_of_not_le hbudget, rfl⟩
    · cases h

end Routes

section Potential

variable {w W : Node → Nat} {L : Nat}

/-- What an execution can still cost: the way down to the critic, and the loops left to it. -/
def potential (W : Node → Nat) (L : Nat) (c : Config) : Nat :=
  match c.position with
  | .at n => W n + L * (explanationMaxRetries - c.state.explanationRetryCount)
  | _ => 0

/-- The weights `W` pay for the cost of every edge, and `L` for that of the loop. -/
structure Pays (w W : Node → Nat) (L : Nat) : Prop where
  leaf : ∀ n, w n ≤ W n
  edge : ∀ n m, rank n = rank m + 1 → w n + W m ≤ W n
  loop : w .explanationCritic + W .explanationStart ≤ W .explanationCritic + L

theorem potential_at (h : c.position = .at n) : potential W L c =
    W n + L * (explanationMaxRetries - c.state.explanationRetryCount) := by
  rw [potential, h]

theorem potential_off (h : ∀ n, c.position ≠ .at n) : potential W L c = 0 := by
  unfold potential
  split
  · rename_i n hn
    exact absurd hn (h n)
  · rfl

theorem advance_pays {order : List Branch} {r : NodeResult} (hpays : Pays w W L)
    (hposition : c.position = .at n) (hr : superstep e c.state order n = .ok r) :
    w n + potential W L (advance e c n r) ≤ potential W L c := by
  rw [potential_at hposition]
  cases hroute : route e (c.state.applyAll r.updates) n with
  | «at» m =>
      have hnext : potential W L (advance e c n r) = W m + L * (explanationMaxRetries -
          (c.state.applyAll r.updates).explanationRetryCount) := potential_at hroute
      rw [hnext]
      by_cases hn : n = .explanationCritic
      · subst hn
        cases Except.ok.inj hr
        obtain ⟨rfl, hlt, hcount⟩ := critic_route hroute
        have hloops : explanationMaxRetries - c.state.explanationRetryCount =
            explanationMaxRetries - (c.state.explanationRetryCount + 1) + 1 := by omega
        have hloop := hpays.loop
        rw [hcount, hloops, Nat.mul_add_one]
        omega
      · have hretries : ∀ u ∈ r.updates, ∀ s : PipelineState,
            (s.apply u).explanationRetryCount = s.explanationRetryCount := by
          intro u hu s
          change u.explanationRetryCount.getD s.explanationRetryCount = _
          rw [(superstep_nodeUpdate hr hu).retries hn, Option.getD_none]
        rw [applyAll_frame PipelineState.explanationRetryCount hretries]
        have hedge := hpays.edge n m (rank_route hn hroute)
        omega
  | ended =>
      have hleaf := hpays.leaf n
      have hended : ∀ m, (advance e c n r).position ≠ .at m := by
        intro m hm
        exact nomatch hroute.symm.trans hm
      rw [potential_off hended]
      omega
  | returned => exact absurd hroute route_ne_returned

theorem step_pays (hpays : Pays w W L) (h : Step e c l c') :
    cost w l + potential W L c' ≤ potential W L c := by
  cases h with
  | node n order hposition horder =>
      unfold stepNode
      split
      · rename_i r hr
        exact advance_pays hpays hposition hr
      · have hleaf := hpays.leaf n
        rw [potential_off (c := crashed c) (fun _ h => nomatch h), potential_at hposition]
        exact Nat.le_add_right_of_le hleaf
  | finish hposition =>
      rw [potential_off fun n hn => nomatch (finish_position c).symm.trans hn]
      exact Nat.zero_le _

theorem run_pays (hpays : Pays w W L) {row : Row} (h : Run (Step e) (Config.start row) ls c) :
    (ls.map (cost w)).sum ≤ W .planner + L * explanationMaxRetries := by
  have hcost : (ls.map (cost w)).sum + potential W L c ≤ potential W L (Config.start row) :=
    h.cost_le fun _ _ _ hstep => step_pays hpays hstep
  exact (Nat.le_add_right _ _).trans hcost

end Potential

theorem supersteps_paid : Pays (fun _ => 1) rank 4 where
  leaf n := by cases n <;> decide
  edge n m h := by omega
  loop := by decide

theorem attempts_paid : Pays (fun n => if n = .explanationPerVendor then 1 else 0)
    (fun n => if 3 ≤ rank n then 1 else 0) 1 where
  leaf n := by cases n <;> decide
  edge n m h := by
    by_cases hn : n = .explanationPerVendor
    · subst hn
      have hm : rank m = 2 := Nat.succ.inj h.symm
      rw [hm]
      decide
    · have hrank : rank n ≠ 3 := by
        cases n <;> first | exact absurd rfl hn | (intro h; cases h)
      simp only [if_neg hn]
      split <;> split <;> omega
  loop := by decide

theorem step_enabled (h : c.position ≠ .returned) : ∃ l c', Step e c l c' := by
  cases hposition : c.position with
  | «at» n => exact ⟨_, _, .node c n _ hposition (List.Perm.refl _)⟩
  | ended => exact ⟨_, _, .finish c hposition⟩
  | returned => exact absurd hposition h

/-- No run of the graph comes to its recursion limit, none generates the explanations more than
three times, and none stops before its driver has returned. -/
theorem run_within_limit (e : Execution) (row : Row) (ls : List Label) (c : Config)
    (h : Run (Step e) (Config.start row) ls c) :
    supersteps ls < recursionLimit ∧ attempts ls ≤ 3 ∧
      (c.position = .returned ∨ ∃ l c', Step e c l c') := by
  refine ⟨?_, run_pays attempts_paid h, ?_⟩
  · have hpaid : supersteps ls ≤ 25 := run_pays supersteps_paid h
    exact hpaid.trans_lt (by decide)
  · by_cases hposition : c.position = .returned
    · exact Or.inl hposition
    · exact Or.inr (step_enabled hposition)

theorem run_within_limit_quiet : ∃ ls c,
    Run (Step (quietExecution ["v1"])) (Config.start runningRow) ls c ∧ c.position = .returned ∧
      supersteps ls < recursionLimit ∧ attempts ls ≤ 3 ∧
        (c.position = .returned ∨ ∃ l c', Step (quietExecution ["v1"]) c l c') := by
  obtain ⟨ls, hrun⟩ := drive_run (quietExecution ["v1"]) 30 (Config.start runningRow)
  have hreturned : (drive (quietExecution ["v1"]) 30 (Config.start runningRow)).position =
      .returned := by decide +kernel
  exact ⟨ls, _, hrun, hreturned, run_within_limit _ _ _ _ hrun⟩

end RfpPlatform.SuperstepBound
