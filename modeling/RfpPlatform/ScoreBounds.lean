import RfpPlatform.ScoreTotals

namespace RfpPlatform.ScoreBounds

open Evaluation MandatoryChecks PyText ScoreTotals

section Means

def weighted (a : Assessment) : ℚ := a.2.elim 0 (fun raw => (raw.val : ℚ) * a.1.weight)

/-- The raw scores of the assessed criteria, each by its weight. -/
def weightedSum (as : List Assessment) : ℚ := (as.map weighted).sum

def assessedCount (as : List Assessment) : Nat := as.countP (fun a => Assessment.Assessed a)

/-- The weight of the assessed criteria, each by its own weight. -/
def ownWeight (as : List Assessment) : ℚ :=
  ((as.filter (fun a => Assessment.Assessed a)).map (fun a => a.1.weight)).sum

def weightedMean (as : List Assessment) : ℚ := weightedSum as / ownWeight as

def weightSum (setup : EvaluationSetup) : ℚ :=
  (setup.scoringCriteria.map ScoringCriterion.weight).sum

/-- What the normalised score comes to without rounding: the weighted scores over the share of the
weight that was assessed. -/
def projected (setup : EvaluationSetup) (as : List Assessment) : ℚ :=
  weightedSum as / (assessedWeight setup as / totalWeight setup)

/-- How far rounding the contributions and the total can take it, with half of a last place of ten times
a contribution for each assessed criterion. -/
def totalError (as : List Assessment) : ℚ := assessedCount as / 2000 + 1 / 200

structure Bounded (setup : EvaluationSetup) (as : List Assessment) (output : EvaluationOutput) :
    Prop where
  total_nonneg : 0 ≤ output.totalWeightedScore
  total_near : |output.totalWeightedScore - weightedSum as| ≤ totalError as
  weightedSum_le : weightedSum as ≤ 10 * weightSum setup
  coverage_range : 0 ≤ output.coverage ∧ output.coverage ≤ 1
  normalised_nonneg : 0 ≤ output.coverageNormalisedScore
  uncovered : output.coverage = 0 → output.coverageNormalisedScore = 0
  normalised_near : output.coverage ≠ 0 →
    |output.coverageNormalisedScore - projected setup as| ≤
      1 / 200 + (totalError as + projected setup as / 20000) / output.coverage
  projected_eq : (setup.scoringCriteria.map ScoringCriterion.criterionId).Nodup →
    projected setup as = weightSum setup * weightedMean as
  mean_range : 0 ≤ weightedMean as ∧ weightedMean as ≤ 10

end Means

section Sums

variable {as : List Assessment} {a : Assessment}

theorem contribution_nonneg : 0 ≤ a.contribution := by
  obtain ⟨criterion, raw⟩ := a
  cases raw with
  | none => exact le_rfl
  | some raw =>
      have hweight := criterion.weight_pos.le
      exact round_nonneg (by positivity)

theorem weighted_nonneg : 0 ≤ weighted a := by
  obtain ⟨criterion, raw⟩ := a
  cases raw with
  | none => exact le_rfl
  | some raw =>
      have hweight := criterion.weight_pos.le
      exact mul_nonneg (Nat.cast_nonneg _) hweight

theorem total_nonneg : 0 ≤ total as := by
  refine round_nonneg (mul_nonneg (List.sum_nonneg ?_) (by norm_num))
  rintro q hq
  obtain ⟨a, _, rfl⟩ := List.mem_map.mp hq
  exact contribution_nonneg

theorem weightedSum_nonneg : 0 ≤ weightedSum as := by
  refine List.sum_nonneg ?_
  rintro q hq
  obtain ⟨a, _, rfl⟩ := List.mem_map.mp hq
  exact weighted_nonneg

theorem abs_contribution_sub_le (criterion : ScoringCriterion) (raw : Fin 11) :
    |Assessment.contribution (criterion, some raw) * 10 - weighted (criterion, some raw)| ≤
      1 / 2000 := by
  have hround := @abs_round_sub_le ((raw.val : ℚ) / 10 * criterion.weight) 4
  have heq : Assessment.contribution (criterion, some raw) * 10 - weighted (criterion, some raw) =
      (round ((raw.val : ℚ) / 10 * criterion.weight) 4 - (raw.val : ℚ) / 10 * criterion.weight) *
        10 := by
    simp only [Assessment.contribution, weighted, Option.elim_some]
    ring
  rw [heq, abs_mul]
  norm_num at hround ⊢
  linarith

theorem weightedSum_cons (a : Assessment) (as : List Assessment) :
    weightedSum (a :: as) = weighted a + weightedSum as := List.sum_cons

theorem assessedCount_none (criterion : ScoringCriterion) (as : List Assessment) :
    assessedCount ((criterion, none) :: as) = assessedCount as :=
  List.countP_cons_of_neg (by simp [Assessment.Assessed])

theorem assessedCount_some (criterion : ScoringCriterion) (raw : Fin 11) (as : List Assessment) :
    assessedCount ((criterion, some raw) :: as) = assessedCount as + 1 :=
  List.countP_cons_of_pos (by simp [Assessment.Assessed])

theorem ownWeight_none (criterion : ScoringCriterion) (as : List Assessment) :
    ownWeight ((criterion, none) :: as) = ownWeight as := by
  rw [ownWeight, List.filter_cons_of_neg (by simp [Assessment.Assessed])]
  rfl

theorem ownWeight_some (criterion : ScoringCriterion) (raw : Fin 11) (as : List Assessment) :
    ownWeight ((criterion, some raw) :: as) = criterion.weight + ownWeight as := by
  rw [ownWeight, List.filter_cons_of_pos (by simp [Assessment.Assessed]), List.map_cons, List.sum_cons]
  rfl

/-- The contributions add up to the weighted sum, but for the rounding of each. -/
theorem abs_sum_contribution_sub_le (as : List Assessment) :
    |(as.map Assessment.contribution).sum * 10 - weightedSum as| ≤ (assessedCount as : ℚ) / 2000 := by
  induction as with
  | nil => simp [weightedSum, assessedCount]
  | cons a as ih =>
      obtain ⟨criterion, raw⟩ := a
      rw [weightedSum_cons, List.map_cons, List.sum_cons]
      cases raw with
      | none =>
          rw [assessedCount_none]
          simpa [Assessment.contribution, weighted] using ih
      | some raw =>
          have hfirst := abs_contribution_sub_le criterion raw
          rw [assessedCount_some]
          push_cast
          calc |(Assessment.contribution (criterion, some raw) +
                (as.map Assessment.contribution).sum) * 10 -
                  (weighted (criterion, some raw) + weightedSum as)|
              = |(Assessment.contribution (criterion, some raw) * 10 -
                  weighted (criterion, some raw)) +
                ((as.map Assessment.contribution).sum * 10 - weightedSum as)| := by ring_nf
            _ ≤ _ := abs_add_le _ _
            _ ≤ 1 / 2000 + (assessedCount as : ℚ) / 2000 := add_le_add hfirst ih
            _ = (assessedCount as + 1 : ℚ) / 2000 := by ring

theorem abs_total_sub_le (as : List Assessment) : |total as - weightedSum as| ≤ totalError as := by
  have hsum := abs_sum_contribution_sub_le as
  have hround := @abs_round_sub_le ((as.map Assessment.contribution).sum * 10) 2
  norm_num at hround
  calc |total as - weightedSum as|
      = |(total as - (as.map Assessment.contribution).sum * 10) +
          ((as.map Assessment.contribution).sum * 10 - weightedSum as)| := by ring_nf
    _ ≤ _ := abs_add_le _ _
    _ ≤ 1 / 200 + (assessedCount as : ℚ) / 2000 := add_le_add hround hsum
    _ = totalError as := add_comm _ _

/-- Raw scores are at most ten. -/
theorem weightedSum_le_own (as : List Assessment) : weightedSum as ≤ 10 * ownWeight as := by
  induction as with
  | nil => simp [weightedSum, ownWeight]
  | cons a as ih =>
      obtain ⟨criterion, raw⟩ := a
      rw [weightedSum_cons]
      cases raw with
      | none =>
          rw [ownWeight_none]
          simpa [weighted] using ih
      | some raw =>
          have hraw : (raw.val : ℚ) ≤ 10 := by exact_mod_cast Nat.lt_succ_iff.mp raw.isLt
          have hfirst : weighted (criterion, some raw) ≤ 10 * criterion.weight :=
            mul_le_mul_of_nonneg_right hraw criterion.weight_pos.le
          rw [ownWeight_some, mul_add]
          exact add_le_add hfirst ih

theorem ownWeight_nonneg : 0 ≤ ownWeight as := by
  refine List.sum_nonneg ?_
  rintro q hq
  obtain ⟨a, _, rfl⟩ := List.mem_map.mp hq
  exact a.1.weight_pos.le

theorem mean_range : 0 ≤ weightedMean as ∧ weightedMean as ≤ 10 :=
  ⟨div_nonneg weightedSum_nonneg ownWeight_nonneg,
    div_le_of_le_mul₀ ownWeight_nonneg (by norm_num) (weightedSum_le_own as)⟩

theorem ownWeight_le (as : List Assessment) :
    ownWeight as ≤ (as.map (fun a => a.1.weight)).sum := by
  induction as with
  | nil => simp [ownWeight]
  | cons a as ih =>
      obtain ⟨criterion, raw⟩ := a
      rw [List.map_cons, List.sum_cons]
      cases raw with
      | none =>
          rw [ownWeight_none]
          exact ih.trans (le_add_of_nonneg_left criterion.weight_pos.le)
      | some raw =>
          rw [ownWeight_some]
          exact add_le_add le_rfl ih

end Sums

section Quotients

/-- The error of a quotient of two values with errors. -/
theorem abs_div_sub_div_le {t s c d e f : ℚ} (hc : 0 < c) (hd : 0 < d) (hs : 0 ≤ s)
    (ht : |t - s| ≤ e) (hcd : |c - d| ≤ f) : |t / c - s / d| ≤ (e + s / d * f) / c := by
  have hsplit : t / c - s / d = ((t - s) + s / d * (d - c)) / c := by
    field_simp
    ring
  have hquotient : 0 ≤ s / d := div_nonneg hs hd.le
  rw [hsplit, abs_div, abs_of_pos hc]
  refine div_le_div_of_nonneg_right ?_ hc.le
  calc |(t - s) + s / d * (d - c)| ≤ |t - s| + |s / d * (d - c)| := abs_add_le _ _
    _ = |t - s| + s / d * |c - d| := by rw [abs_mul, abs_of_nonneg hquotient, abs_sub_comm d c]
    _ ≤ e + s / d * f := add_le_add ht (mul_le_mul_of_nonneg_left hcd hquotient)

variable {setup : EvaluationSetup} {as : List Assessment}

/-- A coverage that is not rounded away is that of some weight. -/
theorem coverage_pos (hnonneg : 0 ≤ coverage setup as) (hne : coverage setup as ≠ 0) :
    0 < assessedWeight setup as / totalWeight setup ∧
      |coverage setup as - assessedWeight setup as / totalWeight setup| ≤ 1 / 20000 := by
  have hpos := hnonneg.lt_of_ne' hne
  rw [coverage] at hne hpos ⊢
  by_cases htotal : totalWeight setup = 0
  · rw [if_pos htotal] at hne
    exact absurd rfl hne
  · rw [if_neg htotal] at hpos ⊢
    have hround := @abs_round_sub_le (assessedWeight setup as / totalWeight setup) 4
    norm_num at hround
    exact ⟨(by positivity : (0 : ℚ) < 1 / (2 * 10 ^ 4)).trans (round_pos_iff.mp hpos), hround⟩

theorem normalised_near (hnonneg : 0 ≤ coverage setup as) (hne : coverage setup as ≠ 0) :
    |normalisedScore (total as) (coverage setup as) - projected setup as| ≤
      1 / 200 + (totalError as + projected setup as / 20000) / coverage setup as := by
  obtain ⟨hshare, hnear⟩ := coverage_pos hnonneg hne
  have hquotient := abs_div_sub_div_le (hnonneg.lt_of_ne' hne) hshare weightedSum_nonneg
    (abs_total_sub_le as) hnear
  have hround := @abs_round_sub_le (total as / coverage setup as) 2
  norm_num at hround
  rw [normalisedScore, if_neg hne]
  calc |round (total as / coverage setup as) 2 - projected setup as|
      = |(round (total as / coverage setup as) 2 - total as / coverage setup as) +
          (total as / coverage setup as - projected setup as)| := by ring_nf
    _ ≤ _ := abs_add_le _ _
    _ ≤ 1 / 200 + (totalError as + projected setup as * (1 / 20000)) / coverage setup as :=
        add_le_add hround hquotient
    _ = _ := by ring

end Quotients

section Distinct

variable {setup : EvaluationSetup} {as : List Assessment}

def Distinct (setup : EvaluationSetup) : Prop :=
  (setup.scoringCriteria.map ScoringCriterion.criterionId).Nodup

def weightPairs (setup : EvaluationSetup) : List (String × ℚ) :=
  setup.scoringCriteria.map (fun c => (c.criterionId, c.weight))

theorem nodup_weightPairs (h : Distinct setup) : ((weightPairs setup).map Prod.fst).Nodup := by
  rw [weightPairs, List.map_map]
  exact h

theorem totalWeight_eq (h : Distinct setup) : totalWeight setup = weightSum setup := by
  have hperm := (Dict.perm_rows_ofPairs (nodup_weightPairs h)).map Prod.snd
  rw [weightPairs, List.map_map] at hperm
  exact hperm.sum_eq

/-- Under distinct identifiers each criterion is looked up by its own weight. -/
theorem get?_weightByCriterion (h : Distinct setup) {c : ScoringCriterion}
    (hc : c ∈ setup.scoringCriteria) :
    (weightByCriterion setup).get? c.criterionId = some c.weight := by
  rw [Dict.get?_eq_some, KeyedTable.mem_def]
  exact (Dict.perm_rows_ofPairs (nodup_weightPairs h)).mem_iff.mpr
    (List.mem_map.mpr ⟨c, hc, rfl⟩)

theorem assessedWeight_eq (h : Distinct setup) (has : ∀ a ∈ as, a.1 ∈ setup.scoringCriteria) :
    assessedWeight setup as = ownWeight as := by
  rw [assessedWeight, ownWeight]
  refine congrArg List.sum (List.map_congr_left fun a ha => ?_)
  rw [get?_weightByCriterion h (has a (List.mem_filter.mp ha).1)]
  rfl

theorem projected_eq (h : Distinct setup) (has : ∀ a ∈ as, a.1 ∈ setup.scoringCriteria) :
    projected setup as = weightSum setup * weightedMean as := by
  rw [projected, weightedMean, assessedWeight_eq h has, totalWeight_eq h]
  field_simp

end Distinct

section Main

open FailClosed (isoCall isoCriterion isoSetup of_returned returned shippedEvaluation)

variable {cfg : EvaluationSettings} {svc : EvaluationServices} {call : VendorCall}
  {output : EvaluationOutput} {critic : CriticOutput}

theorem map_fst_assessments (svc : EvaluationServices) (call : VendorCall) (facts : VendorFacts) :
    (assessments svc call facts).map Prod.fst = call.setup.scoringCriteria := by
  rw [assessments, List.map_map]
  exact List.zipIdx_map_fst 0 _

/-- The scores of every run of the agent stay within the errors of their roundings. -/
theorem scores_bounded (h : runEvaluationAgent cfg svc call = .ok (output, critic)) :
    ∃ facts, svc.vendorFacts call.orgId call.vendorId call.setup.setupId = .ok facts ∧
      Bounded call.setup (assessments svc call facts) output := by
  obtain ⟨facts, hfacts, _, htotal, hcoverage, hnormalised⟩ := runEvaluationAgent_scores h
  have hcriteria := map_fst_assessments svc call facts
  refine ⟨facts, hfacts, ?_⟩
  constructor
  case total_nonneg => exact htotal ▸ total_nonneg
  case total_near => exact htotal ▸ abs_total_sub_le _
  case weightedSum_le =>
    have hown := ownWeight_le (assessments svc call facts)
    have hsum : ((assessments svc call facts).map (fun a => a.1.weight)).sum =
        weightSum call.setup := by
      rw [weightSum, ← hcriteria, List.map_map]
      rfl
    rw [hsum] at hown
    exact (weightedSum_le_own _).trans (mul_le_mul_of_nonneg_left hown (by norm_num))
  case coverage_range => exact ⟨output.coverage_nonneg, output.coverage_le_one⟩
  case normalised_nonneg =>
    rw [hnormalised, ← hcoverage, normalisedScore]
    split
    · exact le_rfl
    · exact round_nonneg (div_nonneg total_nonneg output.coverage_nonneg)
  case uncovered =>
    intro hzero
    rw [hnormalised, ← hcoverage, hzero]
    rfl
  case normalised_near =>
    intro hne
    rw [hcoverage] at hne ⊢
    rw [hnormalised]
    exact normalised_near (hcoverage ▸ output.coverage_nonneg) hne
  case projected_eq =>
    intro hdistinct
    refine projected_eq hdistinct fun a ha => ?_
    rw [← hcriteria]
    exact List.mem_map_of_mem ha
  case mean_range => exact mean_range

theorem scores_bounded_iso : ∃ output critic facts,
    runEvaluationAgent shippedEvaluation (servicesScoring 9) isoCall = .ok (output, critic) ∧
      Bounded isoSetup (assessments (servicesScoring 9) isoCall facts) output := by
  have hrun : returned (fun _ => true)
      (runEvaluationAgent shippedEvaluation (servicesScoring 9) isoCall) = true := by
    decide +kernel
  obtain ⟨⟨output, critic⟩, hok, _⟩ := of_returned hrun
  obtain ⟨facts, _, hbounded⟩ := scores_bounded hok
  exact ⟨output, critic, facts, hok, hbounded⟩

def weighing (criterionId : String) (weight : ℚ) (targets : List String) (hpos : 0 < weight)
    (hle : weight ≤ 1) : ScoringCriterion :=
  { isoCriterion with
    criterionId := criterionId
    weight := weight
    extractionTargetIds := targets
    weight_pos := hpos
    weight_le_one := hle }

/-- Two criteria whose weights sum to 1.01, which the validator accepts. -/
def heavySetup : EvaluationSetup :=
  { isoSetup with
    scoringCriteria := [weighing "k" (505 / 1000) ["t"] (by decide +kernel) (by decide +kernel),
      weighing "l" (505 / 1000) ["t"] (by decide +kernel) (by decide +kernel)]
    weights_sum_to_one := fun _ => by decide +kernel }

/-- Weights that sum to one, with facts for the criterion of almost none. -/
def sliverSetup : EvaluationSetup :=
  { isoSetup with
    scoringCriteria := [weighing "k" (9999 / 10000) [] (by decide +kernel) (by decide +kernel),
      weighing "l" (1 / 10000) ["t"] (by decide +kernel) (by decide +kernel)]
    weights_sum_to_one := fun _ => by decide +kernel }

/-- Raw scores of ten total more than ten, and a raw score of one projects to zero. -/
theorem scores_out_of_bounds :
    (∃ output critic, runEvaluationAgent shippedEvaluation (servicesScoring 10)
        { isoCall with setup := heavySetup } = .ok (output, critic) ∧
      10 < output.totalWeightedScore) ∧
    ∃ output critic, runEvaluationAgent shippedEvaluation (servicesScoring 1)
        { isoCall with setup := sliverSetup } = .ok (output, critic) ∧
      weightedMean (assessments (servicesScoring 1) { isoCall with setup := sliverSetup } isoFacts) =
        1 ∧ output.coverageNormalisedScore = 0 := by
  have hheavy : returned (fun r => decide (10 < r.1.totalWeightedScore))
      (runEvaluationAgent shippedEvaluation (servicesScoring 10)
        { isoCall with setup := heavySetup }) = true := by
    decide +kernel
  have hsliver : returned (fun r => decide (r.1.coverageNormalisedScore = 0))
      (runEvaluationAgent shippedEvaluation (servicesScoring 1)
        { isoCall with setup := sliverSetup }) = true := by
    decide +kernel
  obtain ⟨⟨output, critic⟩, hok, hover⟩ := of_returned hheavy
  obtain ⟨⟨output', critic'⟩, hok', hzero⟩ := of_returned hsliver
  exact ⟨⟨output, critic, hok, of_decide_eq_true hover⟩, output', critic', hok', by decide +kernel,
    of_decide_eq_true hzero⟩

end Main

end RfpPlatform.ScoreBounds
