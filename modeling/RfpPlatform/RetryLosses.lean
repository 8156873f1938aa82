import RfpPlatform.RetryGuard

namespace RfpPlatform.RetryLosses

open ExtractionRetries FactParsing FactTables FoldRuns

section Losses

variable (cfg : RetrySettings) (svc : RetryServices) (setup : EvaluationSetup) (s : FactsState)

/-- The state that some jobs leave behind. -/
abbrev reached (done : List (Job × Nat)) : FactsState := run cfg svc s s done

abbrev Retries (done : List (Job × Nat)) (p : Job × Nat) : Prop :=
  ShouldRetry cfg svc s (reached cfg svc s done) p

/-- The later passes skip a job whose key has been retried. -/
def Judges (done : List (Job × Nat)) (p : Job × Nat) : Prop :=
  p.1.scope = .standard ∨ p.1.key ∉ (reached cfg svc s done).retriedFactTypes

/-- The fact was judged adequate at high confidence, as it stood or as the retry gave it. -/
def Approved (done : List (Job × Nat)) (p : Job × Nat) (fact : Columns p.1.slot.table) : Prop :=
  (Judges cfg svc s done p ∧
    fact ∈ highConfPasses cfg svc p.2 0 (judgedFacts s (reached cfg svc s done) p)) ∨
  (Retries cfg svc s done p ∧ ∃ facts skipped,
    retryFacts svc p.1.slot p.2 = .ok (facts, skipped) ∧ fact ∈ highConfPasses cfg svc p.2 1 facts)

/-- In every state that the loop reaches, its retries have lost nothing. -/
structure Lossless : Prop where
  kept : ∀ done p mid rest, (jobs setup).zipIdx = done ++ p :: mid ++ rest →
    ∀ fact, Approved cfg svc s done p fact →
      fact ∈ (reached cfg svc s (done ++ p :: mid)).factsIn p.1.slot
  raised : EveryStep (fun done p => Retries cfg svc s done p →
    ∀ exc, retryFacts svc p.1.slot p.2 = .error exc →
      (reached cfg svc s (done ++ [p])).facts = (reached cfg svc s done).facts) (jobs setup).zipIdx
  unfound : EveryStep (fun done p => Retries cfg svc s done p →
    ∀ skipped, retryFacts svc p.1.slot p.2 = .ok ([], skipped) →
      (reached cfg svc s (done ++ [p])).factsIn p.1.slot =
        (reached cfg svc s done).factsIn p.1.slot) (jobs setup).zipIdx
  once : ∀ done p mid q rest, (jobs setup).zipIdx = done ++ p :: mid ++ q :: rest →
    Retries cfg svc s done p → Retries cfg svc s (done ++ p :: mid) q → p.1.key ≠ q.1.key

/-- No retry finds nothing where there was something, and none leaves out a fact that was approved
for an earlier job of its facts. -/
structure Careful : Prop where
  finds : EveryStep (fun done p => Retries cfg svc s done p →
    ∀ skipped, retryFacts svc p.1.slot p.2 = .ok ([], skipped) →
      (reached cfg svc s done).factsIn p.1.slot = []) (jobs setup).zipIdx
  keeps : ∀ done p mid q rest, (jobs setup).zipIdx = done ++ p :: mid ++ q :: rest →
    q.1.slot = p.1.slot → Retries cfg svc s (done ++ p :: mid) q →
      ∀ facts skipped, retryFacts svc p.1.slot q.2 = .ok (facts, skipped) →
        ∀ fact, Approved cfg svc s done p fact → fact ∈ facts

end Losses

section Steps

variable {cfg : RetrySettings} {svc : RetryServices} {setup : EvaluationSetup} {s : FactsState}
  {done rest : List (Job × Nat)} {p q : Job × Nat} {slot : Slot}

theorem mem_highConfPasses {job attempt : Nat} {k : FactTable} {facts : List (Columns k)}
    {fact : Columns k} : fact ∈ highConfPasses cfg svc job attempt facts ↔
      ∃ i, (fact, i) ∈ facts.zipIdx ∧
        Confident cfg (judgeExtraction svc.verdictOf (svc.judge job attempt i)
          (evidence k fact).groundingQuote) ∧
        (judgeExtraction svc.verdictOf (svc.judge job attempt i)
          (evidence k fact).groundingQuote).adequate = true := by
  constructor
  · intro h
    obtain ⟨_, hpair, rfl⟩ := List.mem_map.mp h
    obtain ⟨hjudged, hpass⟩ := List.mem_filter.mp hpair
    obtain ⟨⟨_, i⟩, hplace, rfl⟩ := List.mem_map.mp hjudged
    exact ⟨i, hplace, of_decide_eq_true hpass⟩
  · rintro ⟨i, hplace, hpass⟩
    exact List.mem_map.mpr ⟨_, List.mem_filter.mpr
      ⟨List.mem_map.mpr ⟨(fact, i), hplace, rfl⟩, decide_eq_true hpass⟩, rfl⟩

theorem mem_of_highConfPasses {job attempt : Nat} {k : FactTable} {facts : List (Columns k)}
    {fact : Columns k} (h : fact ∈ highConfPasses cfg svc job attempt facts) : fact ∈ facts := by
  obtain ⟨_, hplace, _⟩ := mem_highConfPasses.mp h
  exact List.fst_mem_of_mem_zipIdx hplace

theorem factsIn_retried {facts : List (Columns slot.table)} {skipped : List String}
    {captured : FactsState} (hslot : q.1.slot = slot)
    (h : retryFacts svc slot q.2 = .ok (facts, skipped)) :
    (retried cfg svc captured q).factsIn slot = facts := by
  subst hslot
  exact factsIn_retried_ok h

theorem reached_concat (h : Retries cfg svc s done p) :
    reached cfg svc s (done ++ [p]) = retried cfg svc (reached cfg svc s done) p :=
  run_concat.trans (if_pos h)

/-- A fact of the slot survives a job unless a retry of the slot leaves it out. -/
theorem mem_reached_concat {fact : Columns slot.table}
    (hmem : fact ∈ (reached cfg svc s done).factsIn slot)
    (hkeeps : q.1.slot = slot → Retries cfg svc s done q → ∀ facts skipped,
      retryFacts svc slot q.2 = .ok (facts, skipped) → fact ∈ facts) :
    fact ∈ (reached cfg svc s (done ++ [q])).factsIn slot := by
  by_cases hretry : Retries cfg svc s done q
  · rw [reached_concat hretry]
    by_cases hslot : q.1.slot = slot
    · cases hmade : retryFacts svc slot q.2 with
      | error exc =>
          subst hslot
          rwa [factsIn_congr (facts_retried_error hmade)]
      | ok made =>
          rw [factsIn_retried hslot hmade]
          exact hkeeps hslot hretry made.1 made.2 hmade
    · rwa [factsIn_retried_ne (fun he => hslot he.symm)]
  · rw [reached, run_concat, step, if_neg hretry]
    exact hmem

/-- A fact that is approved for a job is there after the job. -/
theorem mem_of_approved (hsplit : (jobs setup).zipIdx = done ++ p :: rest)
    {fact : Columns p.1.slot.table} (h : Approved cfg svc s done p fact) :
    fact ∈ (reached cfg svc s (done ++ [p])).factsIn p.1.slot := by
  rcases h with ⟨_, hpass⟩ | ⟨hretry, facts, skipped, hmade, hpass⟩
  · have hnot : ¬ Retries cfg svc s done p := by
      intro hretry
      rw [hretry.1.2] at hpass
      cases hpass
    have hmem := mem_of_highConfPasses hpass
    rw [judgedFacts_run hsplit] at hmem
    exact mem_reached_concat hmem fun _ hretry => absurd hretry hnot
  · rw [reached_concat hretry, factsIn_retried_ok hmade]
    exact mem_of_highConfPasses hpass

theorem retried_once {mid : List (Job × Nat)} (hp : Retries cfg svc s done p)
    (hq : Retries cfg svc s (done ++ p :: mid) q) : p.1.key ≠ q.1.key := by
  intro hkey
  have hmem : q.1.key ∈ (reached cfg svc s (done ++ p :: mid)).retriedFactTypes :=
    mem_retriedFactTypes_run.mpr (Or.inr ⟨done, p, mid, rfl, hp, hkey⟩)
  exact hq.2.2 hmem

end Steps

section Main

variable (cfg : RetrySettings) (svc : RetryServices) (setup : EvaluationSetup) (s : FactsState)

theorem careful_of_lossless (h : Lossless cfg svc setup s) : Careful cfg svc setup s where
  finds done p rest hsplit hretry skipped hmade := by
    rw [← h.unfound done p rest hsplit hretry skipped hmade, reached_concat hretry,
      factsIn_retried_ok hmade]
  keeps done p mid q rest hsplit hslot hretry facts skipped hmade fact happroved := by
    have hlater : (jobs setup).zipIdx = done ++ p :: (mid ++ [q]) ++ rest := by
      rw [hsplit]
      simp
    have hmem := h.kept done p (mid ++ [q]) rest hlater fact happroved
    rw [← List.cons_append, ← List.append_assoc, reached_concat hretry,
      factsIn_retried hslot hmade] at hmem
    exact hmem

theorem lossless_of_careful (h : Careful cfg svc setup s) : Lossless cfg svc setup s where
  kept done p mid rest hsplit fact happroved := by
    have hplace : (jobs setup).zipIdx = done ++ p :: (mid ++ rest) := by
      rw [hsplit, List.append_assoc, List.cons_append]
    have hstep : ∀ mid q rest, (jobs setup).zipIdx = done ++ [p] ++ mid ++ q :: rest →
        fact ∈ (reached cfg svc s (done ++ [p] ++ mid)).factsIn p.1.slot →
          fact ∈ (reached cfg svc s (done ++ [p] ++ mid ++ [q])).factsIn p.1.slot := by
      intro mid q rest hq hmem
      rw [List.append_assoc done, List.singleton_append] at hq hmem ⊢
      refine mem_reached_concat hmem fun hslot hretry facts skipped hmade => ?_
      exact h.keeps done p mid q rest hq hslot hretry facts skipped hmade fact happroved
    have hall := prefix_induction (done ++ [p])
      (fun ps => fact ∈ (reached cfg svc s ps).factsIn p.1.slot)
      (mem_of_approved hplace happroved) hstep mid rest
    rw [List.append_assoc done, List.singleton_append] at hall
    exact hall hsplit
  raised done p rest hsplit hretry exc hmade := by
    rw [reached_concat hretry]
    exact facts_retried_error hmade
  unfound done p rest hsplit hretry skipped hmade := by
    rw [h.finds done p rest hsplit hretry skipped hmade, reached_concat hretry]
    exact factsIn_retried_ok hmade
  once done p mid q rest _ hp hq := retried_once hp hq

/-- The retries lose nothing exactly when each of them is careful. -/
theorem lossless_iff : Lossless cfg svc setup s ↔ Careful cfg svc setup s :=
  ⟨careful_of_lossless cfg svc setup s, lossless_of_careful cfg svc setup s⟩

open RetryGuard (plainCoercions plainVerdict residencyFact residencyFacts residencySetup
  shippedRetries verdictReply)

/-- A judge that finds the fact adequate for the check and inadequate for the criterion, and a retry
that finds nothing. -/
def fickleServices : RetryServices where
  coercions := plainCoercions
  verdictOf := plainVerdict
  judge job _ _ := verdictReply (job = 0)
  retry _ := .json (.obj [])

/-- The fact that a check rests on is gone after an empty retry for a criterion. -/
theorem approved_fact_lost : ¬ ∀ cfg svc setup s done p rest,
    (jobs setup).zipIdx = done ++ p :: rest → ∀ fact, Approved cfg svc s done p fact →
      fact ∈ (runExtractionCriticRetries cfg svc s setup).factsIn p.1.slot := by
  intro hall
  have happroved : Approved shippedRetries fickleServices ⟨residencyFacts, [], []⟩ []
      ((customJobs residencySetup).head (by decide +kernel), 0)
      (residencyFact "Data is held abroad") := by
    refine Or.inl ⟨Or.inr List.not_mem_nil, mem_highConfPasses.mpr ⟨0, ?_, ?_, ?_⟩⟩
    · exact List.mem_singleton_self _
    · decide +kernel
    · decide +kernel
  have hmem := hall shippedRetries fickleServices residencySetup ⟨residencyFacts, [], []⟩ [] _ _ rfl
    _ happroved
  revert hmem
  decide +kernel

end Main

end RfpPlatform.RetryLosses
