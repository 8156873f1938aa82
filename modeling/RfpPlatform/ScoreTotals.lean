import RfpPlatform.FailClosed
import RfpPlatform.Rounding

namespace RfpPlatform.ScoreTotals

open Evaluation ExceptRules MandatoryChecks PyText

section Assessments

/-- A criterion of the setup, with the raw score of the vendor if the criterion was assessed. -/
abbrev Assessment := ScoringCriterion × Option (Fin 11)

def Assessment.Assessed (a : Assessment) : Prop := a.2.isSome

instance (a : Assessment) : Decidable a.Assessed := inferInstanceAs (Decidable (_ = _))

def Assessment.contribution (a : Assessment) : ℚ :=
  a.2.elim 0 (fun raw => round ((raw.val : ℚ) / 10 * a.1.weight) 4)

def total (as : List Assessment) : ℚ := round ((as.map Assessment.contribution).sum * 10) 2

/-- The weight of what was assessed, each by the weight that its identifier stands for. -/
def assessedWeight (setup : EvaluationSetup) (as : List Assessment) : ℚ :=
  ((as.filter (fun a => Assessment.Assessed a)).map
    (fun a => ((weightByCriterion setup).get? a.1.criterionId).getD 0)).sum

def totalWeight (setup : EvaluationSetup) : ℚ := (weightByCriterion setup).values.sum

def coverage (setup : EvaluationSetup) (as : List Assessment) : ℚ :=
  if totalWeight setup = 0 then 0 else round (assessedWeight setup as / totalWeight setup) 4

/-- The raw score that an outcome stands for, if it is a score on evidence. -/
def rawOf (o : ScoreOutcome) : Option (Fin 11) :=
  o.score.bind (fun s => if s.insufficientEvidence then none else some s.rawScore)

/-- What a run of the agent assessed. -/
def assessments (svc : EvaluationServices) (call : VendorCall) (facts : VendorFacts) :
    List Assessment :=
  call.setup.scoringCriteria.zipIdx.map (fun p => (p.1, rawOf (criterionOutcome svc call facts p)))

end Assessments

section Scores

variable {criterion : ScoringCriterion} {relevant : List FactRow} {v : VendorId} {reply : LlmReply}
  {score : CriterionScore}

/-- A score without evidence contributes nothing, and one on evidence its share of the weight. -/
theorem scoreCriterion_eq_ok (h : scoreCriterion criterion relevant v reply = .ok score) :
    score.criterionId = criterion.criterionId ∧
      (score.insufficientEvidence = true ↔ relevant = []) ∧
      score.weightedContribution = if score.insufficientEvidence then 0
        else round ((score.rawScore.val : ℚ) / 10 * criterion.weight) 4 := by
  rw [scoreCriterion] at h
  by_cases hnone : relevant = []
  · rw [if_pos hnone] at h
    cases h
    exact ⟨rfl, iff_of_true rfl hnone, rfl⟩
  · rw [if_neg hnone] at h
    simp only [bind_eq_ok, pure_eq_ok] at h
    obtain ⟨_, _, _, _, _, _, _, _, _, _, _, _, _, _, _, _, _, _, _, _, rfl⟩ := h
    exact ⟨rfl, iff_of_false Bool.false_ne_true hnone, rfl⟩

end Scores

section Outcomes

variable {svc : EvaluationServices} {call : VendorCall} {facts : VendorFacts}
  {p : ScoringCriterion × Nat} {score : CriterionScore}

theorem criterionOutcome_score : (criterionOutcome svc call facts p).score = some score ↔
    scoreCriterion p.1 (factsForCriterion call.setup facts p.1) call.vendorId (svc.criterion p.2) =
      .ok score := by
  simp only [criterionOutcome]
  cases scoreCriterion p.1 (factsForCriterion call.setup facts p.1) call.vendorId
    (svc.criterion p.2) <;> simp

theorem contribution_of_score (h : (criterionOutcome svc call facts p).score = some score) :
    score.weightedContribution =
      Assessment.contribution (p.1, rawOf (criterionOutcome svc call facts p)) := by
  obtain ⟨_, _, hcontribution⟩ := scoreCriterion_eq_ok (criterionOutcome_score.mp h)
  rw [hcontribution, rawOf, h, Option.bind_some]
  cases score.insufficientEvidence <;> rfl

theorem contribution_of_none (h : (criterionOutcome svc call facts p).score = none) :
    Assessment.contribution (p.1, rawOf (criterionOutcome svc call facts p)) = 0 := by
  rw [rawOf, h]
  rfl

variable (svc call facts) in
/-- The scores contribute what the assessments do. -/
theorem sum_contributions (ps : List (ScoringCriterion × Nat)) :
    (((ps.map (criterionOutcome svc call facts)).filterMap ScoreOutcome.score).map
        CriterionScore.weightedContribution).sum =
      ((ps.map (fun p => (p.1, rawOf (criterionOutcome svc call facts p)))).map
        Assessment.contribution).sum := by
  induction ps with
  | nil => rfl
  | cons p ps ih =>
      rw [List.map_cons, List.map_cons, List.map_cons, List.sum_cons, ← ih]
      cases hscore : (criterionOutcome svc call facts p).score with
      | none =>
          rw [List.filterMap_cons_none hscore, contribution_of_none hscore, zero_add]
      | some score =>
          rw [List.filterMap_cons_some hscore, List.map_cons, List.sum_cons,
            contribution_of_score hscore]

variable (svc call facts) in
/-- The scores on evidence are those of the assessed criteria. -/
theorem map_assessed {β : Type} (f : String → β) (ps : List (ScoringCriterion × Nat)) :
    ((((ps.map (criterionOutcome svc call facts)).filterMap ScoreOutcome.score).filter
        (fun s => !s.insufficientEvidence)).map (fun s => f s.criterionId)) =
      ((ps.map (fun p => (p.1, rawOf (criterionOutcome svc call facts p)))).filter
        (fun a => Assessment.Assessed a)).map (fun a => f a.1.criterionId) := by
  induction ps with
  | nil => rfl
  | cons p ps ih =>
      rw [List.map_cons, List.map_cons]
      cases hscore : (criterionOutcome svc call facts p).score with
      | none =>
          have hraw : rawOf (criterionOutcome svc call facts p) = none := by
            rw [rawOf, hscore]
            rfl
          rw [List.filterMap_cons_none hscore, hraw, List.filter_cons_of_neg (by simp [Assessment.Assessed]), ih]
      | some score =>
          obtain ⟨hid, _, _⟩ := scoreCriterion_eq_ok (criterionOutcome_score.mp hscore)
          rw [List.filterMap_cons_some hscore]
          cases hflag : score.insufficientEvidence with
          | true =>
              have hraw : rawOf (criterionOutcome svc call facts p) = none := by
                rw [rawOf, hscore, Option.bind_some, if_pos hflag]
              rw [List.filter_cons_of_neg (by simp [hflag]), hraw,
                List.filter_cons_of_neg (by simp [Assessment.Assessed]), ih]
          | false =>
              have hraw : rawOf (criterionOutcome svc call facts p) = some score.rawScore := by
                rw [rawOf, hscore, Option.bind_some, if_neg (by simp [hflag])]
              rw [List.filter_cons_of_pos (by simp [hflag]), hraw,
                List.filter_cons_of_pos (by rfl), List.map_cons, List.map_cons, ih, hid]

end Outcomes

section Runs

variable {cfg : EvaluationSettings} {svc : EvaluationServices} {call : VendorCall}
  {output : EvaluationOutput} {critic : CriticOutput}

theorem normalisedScore_full {t : ℚ} (ht : round t 2 = t) : normalisedScore t 1 = t := by
  rw [normalisedScore, if_neg one_ne_zero, div_one, ht]

theorem evaluationOutput_scores {vendorId : VendorId} {setup : EvaluationSetup}
    {decisions : List ComplianceDecision} {scores : List CriterionScore} {warnings : List String}
    (h : evaluationOutput vendorId setup decisions scores warnings = .ok output) :
    output.criterionScores = scores ∧ output.totalWeightedScore = totalWeightedScore scores ∧
      output.coverage = coverageOf setup scores ∧ output.coverageNormalisedScore =
        normalisedScore (totalWeightedScore scores) (coverageOf setup scores) := by
  simp only [evaluationOutput, bind_eq_ok] at h
  obtain ⟨confidence, _, h⟩ := h
  split at h
  · rename_i hcoverage
    cases pure_eq_ok.mp h
    refine ⟨rfl, rfl, rfl, ?_⟩
    refine (if_congr Iff.rfl rfl rfl).trans (ite_eq_right_iff.mpr ?_)
    rintro ⟨hfull, hzero⟩
    have hone : coverageOf setup scores = 1 := le_antisymm hcoverage.2 hfull
    rw [hone]
    exact (normalisedScore_full round_round).symm
  · cases h

/-- A run of the agent scores a vendor by what it assessed. -/
theorem runEvaluationAgent_scores (h : runEvaluationAgent cfg svc call = .ok (output, critic)) :
    ∃ facts, svc.vendorFacts call.orgId call.vendorId call.setup.setupId = .ok facts ∧
      output.criterionScores = (call.setup.scoringCriteria.zipIdx.map
        (criterionOutcome svc call facts)).filterMap ScoreOutcome.score ∧
      output.totalWeightedScore = total (assessments svc call facts) ∧
      output.coverage = coverage call.setup (assessments svc call facts) ∧
      output.coverageNormalisedScore = normalisedScore (total (assessments svc call facts))
        (coverage call.setup (assessments svc call facts)) := by
  simp only [runEvaluationAgent, bind_eq_ok] at h
  obtain ⟨orgSettings, _, facts, hfacts, out, hout, hpair⟩ := h
  cases pure_eq_ok.mp hpair
  obtain ⟨hscores, htotal, hcoverage, hnormalised⟩ := evaluationOutput_scores hout
  have htotal' : totalWeightedScore ((call.setup.scoringCriteria.zipIdx.map
      (criterionOutcome svc call facts)).filterMap ScoreOutcome.score) =
        total (assessments svc call facts) := by
    rw [totalWeightedScore, sum_contributions]
    rfl
  have hcoverage' : coverageOf call.setup ((call.setup.scoringCriteria.zipIdx.map
      (criterionOutcome svc call facts)).filterMap ScoreOutcome.score) =
        coverage call.setup (assessments svc call facts) := by
    simp only [coverageOf]
    rw [map_assessed svc call facts (fun id => ((weightByCriterion call.setup).get? id).getD 0)]
    rfl
  rw [htotal'] at htotal hnormalised
  rw [hcoverage'] at hcoverage hnormalised
  exact ⟨facts, hfacts, hscores, htotal, hcoverage, hnormalised⟩

end Runs

section Fixtures

open FailClosed (passReply servicesReplying)

/-- Services under which every criterion with facts is given this raw score. -/
def servicesScoring (raw : Nat) : EvaluationServices :=
  { servicesReplying passReply with
    criterion := fun _ =>
      .json (.obj [("raw_score", .num (.fin raw)), ("confidence", .num 1)]) }

def isoFacts : VendorFacts := ⟨[[]], [], [], [], [], []⟩

end Fixtures

end RfpPlatform.ScoreTotals
