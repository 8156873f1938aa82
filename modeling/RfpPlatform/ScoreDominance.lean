import RfpPlatform.DecisionOrder
import RfpPlatform.ScoreTotals

namespace RfpPlatform.ScoreDominance

open Comparator DecisionOrder Evaluation MandatoryChecks PyText ScoreTotals

section Dominance

/-- The same criteria are assessed, and none with a lower score on the left. -/
def Dominates (as bs : List Assessment) : Prop :=
  List.Forall₂ (fun a b => a.1 = b.1 ∧ Option.Rel (fun raw raw' => raw' ≤ raw) a.2 b.2) as bs

/-- An evaluation that the agent made of a vendor under the setup, by these assessments. -/
structure Scored (setup : EvaluationSetup) (as : List Assessment) (output : EvaluationOutput) :
    Prop where
  run : ∃ cfg svc call facts critic, call.setup = setup ∧
    runEvaluationAgent cfg svc call = .ok (output, critic) ∧
    svc.vendorFacts call.orgId call.vendorId call.setup.setupId = .ok facts ∧
    as = assessments svc call facts

variable {setup : EvaluationSetup} {as bs : List Assessment} {output other : EvaluationOutput}

theorem contribution_le {a b : Assessment} (hcriterion : a.1 = b.1)
    (hraw : Option.Rel (fun raw raw' => raw' ≤ raw) a.2 b.2) : b.contribution ≤ a.contribution := by
  obtain ⟨criterion, rawA⟩ := a
  obtain ⟨_, rawB⟩ := b
  obtain rfl := hcriterion
  cases hraw with
  | none => exact le_rfl
  | some hle =>
      refine round_mono ?_
      have hcast : ((_ : Fin 11).val : ℚ) ≤ (_ : Fin 11).val := Nat.cast_le.mpr hle
      have hweight := criterion.weight_pos.le
      gcongr

theorem total_le (h : Dominates as bs) : total bs ≤ total as := by
  refine round_mono (mul_le_mul_of_nonneg_right ?_ (by norm_num))
  induction h with
  | nil => exact le_rfl
  | cons hab _ ih =>
      rw [List.map_cons, List.map_cons, List.sum_cons, List.sum_cons]
      exact add_le_add (contribution_le hab.1 hab.2) ih

theorem assessedWeight_eq (h : Dominates as bs) : assessedWeight setup as = assessedWeight setup bs := by
  rw [assessedWeight, assessedWeight]
  congr 1
  induction h with
  | nil => rfl
  | @cons a b _ _ hab _ ih =>
      obtain ⟨criterion, rawA⟩ := a
      obtain ⟨_, rawB⟩ := b
      obtain ⟨rfl, hraw⟩ := hab
      cases hraw with
      | none => exact ih
      | some _ => exact congrArg (_ :: ·) ih

theorem coverage_eq (h : Dominates as bs) : coverage setup as = coverage setup bs := by
  rw [coverage, coverage, assessedWeight_eq h]

theorem normalisedScore_le {t t' c : ℚ} (ht : t ≤ t') (hc : 0 ≤ c) :
    normalisedScore t c ≤ normalisedScore t' c := by
  rw [normalisedScore, normalisedScore]
  split
  · exact le_rfl
  · exact round_mono (div_le_div_of_nonneg_right ht hc)

theorem Scored.scores (h : Scored setup as output) : output.coverage = coverage setup as ∧
    output.coverageNormalisedScore = normalisedScore (total as) (coverage setup as) := by
  obtain ⟨cfg, svc, call, facts, critic, rfl, hrun, hfacts, rfl⟩ := h.run
  obtain ⟨facts', hfacts', _, _, hcoverage, hnormalised⟩ := runEvaluationAgent_scores hrun
  obtain rfl := Except.ok.inj (hfacts.symm.trans hfacts')
  exact ⟨hcoverage, hnormalised⟩

/-- Scores that dominate make a normalised score that is no lower. -/
theorem normalised_le (ha : Scored setup as output) (hb : Scored setup bs other)
    (h : Dominates as bs) : other.coverageNormalisedScore ≤ output.coverageNormalisedScore := by
  obtain ⟨_, hoa⟩ := ha.scores
  obtain ⟨hcb, hob⟩ := hb.scores
  rw [hoa, hob, coverage_eq h]
  exact normalisedScore_le (total_le h) (hcb ▸ other.coverage_nonneg)

end Dominance

section Positions

variable {call : ComparisonCall} {v : VendorId} {output other : EvaluationOutput}

/-- The comparison with another evaluation of a vendor in the place of its own. -/
def withEvaluation (call : ComparisonCall) (v : VendorId) (output : EvaluationOutput) :
    ComparisonCall :=
  { call with evaluations := call.evaluations.set v output }

theorem rows_set {d : Dict VendorId EvaluationOutput} (h : v ∈ d.keys) :
    (d.set v output).rows = d.rows.map (fun p => if p.1 = v then (v, output) else p) := by
  rw [Dict.set, KeyedTable.upsert, dif_pos (show (v, output).1 ∈ d.rows.map Prod.fst from h)]

theorem vendorTotals_withEvaluation (h : v ∈ call.evaluations.keys) :
    vendorTotals (withEvaluation call v output) =
      (vendorTotals call).map (Ranking.raise v output.coverageNormalisedScore) := by
  have hkept : ∀ p : VendorId × EvaluationOutput, (if p.1 = v then (v, output) else p).1 = p.1 := by
    intro p
    split
    · rename_i hp
      exact hp.symm
    · rfl
  change ((call.evaluations.set v output).rows.filter (fun p => p.1 ∈ call.vendorIds)).map
    (fun p => (p.1, p.2.coverageNormalisedScore)) = _
  rw [rows_set h, List.filter_map, List.map_map, vendorTotals, List.map_map]
  have hfilter : call.evaluations.rows.filter ((fun p : VendorId × EvaluationOutput =>
        decide (p.1 ∈ call.vendorIds)) ∘ fun p => if p.1 = v then (v, output) else p) =
      call.evaluations.rows.filter (fun p => p.1 ∈ call.vendorIds) :=
    List.filter_congr fun p _ => by rw [Function.comp_apply, hkept]
  rw [hfilter]
  refine List.map_congr_left fun p _ => ?_
  rw [Function.comp_apply, Function.comp_apply, Ranking.raise]
  split <;> rfl

/-- A vendor whose evaluation is replaced by one of no lower score does not fall in the ranking. -/
theorem idxOf_le_of_score_le (replies replies' : Nat → LlmReply)
    (hget : call.evaluations.get? v = some other) (hv : v ∈ call.vendorIds)
    (hle : other.coverageNormalisedScore ≤ output.coverageNormalisedScore) :
    (runComparatorAgent replies' (withEvaluation call v output)).1.overallRanking.idxOf v ≤
      (runComparatorAgent replies call).1.overallRanking.idxOf v := by
  have hrow : (v, other.coverageNormalisedScore) ∈ vendorTotals call :=
    List.mem_map.mpr ⟨(v, other),
      List.mem_filter.mpr ⟨Dict.get?_eq_some.mp hget, decide_eq_true hv⟩, rfl⟩
  change ((ranked (withEvaluation call v output)).map Prod.fst).idxOf v ≤
    ((ranked call).map Prod.fst).idxOf v
  rw [ranked, vendorTotals_withEvaluation (Dict.mem_keys.mpr ⟨other, hget⟩)]
  exact Ranking.idxOf_raise_le descending_iff nodup_vendorTotals hrow hle

end Positions

section Main

variable {setup : EvaluationSetup} {as bs : List Assessment} {output other : EvaluationOutput}

/-- Scores that dominate are respected by the normalised score, by the order of the shortlist, and by
the place in the ranking when they take the place of the dominated ones. -/
theorem dominance_respected (ha : Scored setup as output) (hb : Scored setup bs other)
    (h : Dominates as bs) :
    other.coverageNormalisedScore ≤ output.coverageNormalisedScore ∧
    (∀ replies derived contractValue call,
      ∀ x ∈ (decided replies derived contractValue call).shortlistedVendors,
        ∀ y ∈ (decided replies derived contractValue call).shortlistedVendors,
          x.vendorId ∈ call.vendorIds → y.vendorId ∈ call.vendorIds →
            call.evaluations.get? x.vendorId = some other →
              call.evaluations.get? y.vendorId = some output → x.rank < y.rank →
                other.coverageNormalisedScore = output.coverageNormalisedScore) ∧
    ∀ replies replies' call v, call.evaluations.get? v = some other → v ∈ call.vendorIds →
      (runComparatorAgent replies' (withEvaluation call v output)).1.overallRanking.idxOf v ≤
        (runComparatorAgent replies call).1.overallRanking.idxOf v := by
  have hle := normalised_le ha hb h
  refine ⟨hle, ?_, ?_⟩
  · intro replies derived contractValue call x hx y hy hxv hyv hgetx hgety hlt
    have hscores := score_le_of_rank_lt hx hy hxv hyv hlt
    obtain ⟨_, hevx, hx⟩ := get?_shortlisted hx
    obtain ⟨_, hevy, hy⟩ := get?_shortlisted hy
    obtain rfl := Option.some.inj (hgetx.symm.trans hevx)
    obtain rfl := Option.some.inj (hgety.symm.trans hevy)
    rw [hx, hy] at hscores
    exact le_antisymm hle hscores
  · intro replies replies' call v hget hv
    exact idxOf_le_of_score_le replies replies' hget hv hle

open FailClosed (isoCall isoCriterion isoSetup of_returned returned shippedEvaluation)

theorem exists_scored (raw : Nat) (h : returned (fun _ => true)
    (runEvaluationAgent shippedEvaluation (servicesScoring raw) isoCall) = true) :
    ∃ output, Scored isoSetup (assessments (servicesScoring raw) isoCall isoFacts) output := by
  obtain ⟨⟨output, critic⟩, hrun, _⟩ := of_returned h
  exact ⟨output, ⟨_, _, _, isoFacts, critic, rfl, hrun, rfl, rfl⟩⟩

theorem dominance_respected_iso : ∃ output other,
    Scored isoSetup (assessments (servicesScoring 9) isoCall isoFacts) output ∧
    Scored isoSetup (assessments (servicesScoring 7) isoCall isoFacts) other ∧
    other.coverageNormalisedScore ≤ output.coverageNormalisedScore := by
  obtain ⟨output, ha⟩ := exists_scored 9 (by decide +kernel)
  obtain ⟨other, hb⟩ := exists_scored 7 (by decide +kernel)
  have hraw : rawOf (criterionOutcome (servicesScoring 9) isoCall isoFacts (isoCriterion, 0)) =
      some 9 := by decide +kernel
  have hraw' : rawOf (criterionOutcome (servicesScoring 7) isoCall isoFacts (isoCriterion, 0)) =
      some 7 := by decide +kernel
  refine ⟨output, other, ha, hb, (dominance_respected ha hb ?_).1⟩
  refine List.Forall₂.cons ⟨rfl, ?_⟩ List.Forall₂.nil
  simp only [hraw, hraw']
  exact Option.Rel.some (by decide)

end Main

end RfpPlatform.ScoreDominance
