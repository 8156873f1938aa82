import RfpPlatform.Comparator
import RfpPlatform.Decision
import RfpPlatform.FailClosed
import RfpPlatform.Ranking

namespace RfpPlatform.DecisionOrder

open Comparator Decision

section Ranked

variable {call : ComparisonCall} {v : VendorId}

/-- The score that a vendor is ranked by. -/
def normalised (evaluations : Dict VendorId EvaluationOutput) (v : VendorId) : ℚ :=
  (evaluations.get? v).elim 0 EvaluationOutput.coverageNormalisedScore

theorem normalised_of_mem {evaluations : Dict VendorId EvaluationOutput}
    {p : VendorId × EvaluationOutput} (h : p ∈ evaluations) :
    normalised evaluations p.1 = p.2.coverageNormalisedScore := by
  rw [normalised, Dict.get?_eq_some.mpr h]
  rfl

theorem vendorTotals_ids : (vendorTotals call).map Prod.fst =
    call.evaluations.keys.filter (fun v => v ∈ call.vendorIds) := by
  rw [vendorTotals, List.map_map, Dict.keys, List.filter_map]
  rfl

theorem nodup_vendorTotals : ((vendorTotals call).map Prod.fst).Nodup := by
  rw [vendorTotals_ids]
  exact call.evaluations.keys_nodup.filter _

theorem score_of_mem_vendorTotals {p : VendorId × ℚ} (h : p ∈ vendorTotals call) :
    p.2 = normalised call.evaluations p.1 := by
  obtain ⟨q, hq, rfl⟩ := List.mem_map.mp h
  exact (normalised_of_mem (List.mem_filter.mp hq).1).symm

theorem descending_iff (p q : VendorId × ℚ) : descending p q ↔ q.2 ≤ p.2 := Iff.rfl

theorem nodup_ranked : ((ranked call).map Prod.fst).Nodup :=
  (((List.perm_insertionSort _ _).map Prod.fst).nodup_iff).mpr nodup_vendorTotals

/-- The ranking goes down in the normalised score. -/
theorem pairwise_ranked : ((ranked call).map Prod.fst).Pairwise
    (fun u v => normalised call.evaluations v ≤ normalised call.evaluations u) := by
  rw [List.pairwise_map]
  refine List.Pairwise.imp_of_mem ?_ (Ranking.pairwise_key descending_iff (vendorTotals call))
  intro p q hp hq hle
  rw [← score_of_mem_vendorTotals ((List.mem_insertionSort _).mp hp),
    ← score_of_mem_vendorTotals ((List.mem_insertionSort _).mp hq)]
  exact hle

end Ranked

section Shortlisted

variable {replies : Nat → LlmReply} {derived : VendorId → LlmReply} {call : ComparisonCall}
  {contractValue : ℚ}

/-- Every evaluated vendor is one of those that are compared. -/
def Known (call : ComparisonCall) : Prop := ∀ v ∈ call.evaluations.keys, v ∈ call.vendorIds

theorem mem_ranking (h : Known call) {v : VendorId} (hv : v ∈ call.evaluations.keys) :
    v ∈ (runComparatorAgent replies call).1.overallRanking :=
  mem_overallRanking.mpr ⟨h v hv, hv⟩

theorem mem_keys_of_mem_shortlist {evaluations : Dict VendorId EvaluationOutput}
    {comparator : ComparatorOutput} {p : VendorId × EvaluationOutput}
    (h : p ∈ shortlist evaluations comparator) : p.1 ∈ evaluations.keys :=
  List.mem_map_of_mem (mem_shortlist.mp h).1

theorem nodup_shortlist {evaluations : Dict VendorId EvaluationOutput}
    {comparator : ComparatorOutput} : ((shortlist evaluations comparator).map Prod.fst).Nodup := by
  have hperm := (List.perm_insertionSort (fun p q : VendorId × EvaluationOutput =>
    rankKey comparator.overallRanking p.1 ≤ rankKey comparator.overallRanking q.1)
    (evaluations.rows.filter (fun p => ¬ Rejected p.2))).map Prod.fst
  exact hperm.nodup_iff.mpr (evaluations.keys_nodup.sublist (List.filter_sublist.map Prod.fst))

theorem pairwise_shortlist {evaluations : Dict VendorId EvaluationOutput}
    {comparator : ComparatorOutput} : (shortlist evaluations comparator).Pairwise
      (fun p q => rankKey comparator.overallRanking p.1 ≤ rankKey comparator.overallRanking q.1) :=
  Ranking.pairwise_ascending _

theorem shortlist_ids (h : Known call) :
    (shortlist call.evaluations (runComparatorAgent replies call).1).map Prod.fst =
      (runComparatorAgent replies call).1.overallRanking.filter (fun v => v ∈
        (shortlist call.evaluations (runComparatorAgent replies call).1).map Prod.fst) := by
  refine Ranking.eq_filter_of_pairwise nodup_ranked nodup_shortlist ?_ ?_
  · intro v hv
    obtain ⟨p, hp, rfl⟩ := List.mem_map.mp hv
    exact mem_ranking h (mem_keys_of_mem_shortlist hp)
  · rw [List.pairwise_map]
    refine List.Pairwise.imp_of_mem ?_ pairwise_shortlist
    intro p q hp hq hle
    rwa [rankKey, rankKey, if_pos (mem_ranking h (mem_keys_of_mem_shortlist hp)),
      if_pos (mem_ranking h (mem_keys_of_mem_shortlist hq))] at hle

variable (replies derived contractValue) in
/-- The decision on the vendors that have been compared. -/
def decided (call : ComparisonCall) : DecisionOutput :=
  (runDecisionAgent derived call.evaluations (runComparatorAgent replies call).1 contractValue).1

theorem normalised_le_of_idxOf_le {u v : VendorId}
    (hu : u ∈ (runComparatorAgent replies call).1.overallRanking)
    (hv : v ∈ (runComparatorAgent replies call).1.overallRanking)
    (h : (runComparatorAgent replies call).1.overallRanking.idxOf u ≤
      (runComparatorAgent replies call).1.overallRanking.idxOf v) :
    normalised call.evaluations v ≤ normalised call.evaluations u := by
  rcases h.eq_or_lt with heq | hlt
  · rw [(List.idxOf_inj hu).mp heq]
  · have hpair := List.pairwise_iff_getElem.mp (@pairwise_ranked call) _ _
      (List.idxOf_lt_length_of_mem hu) (List.idxOf_lt_length_of_mem hv) hlt
    rwa [List.getElem_idxOf, List.getElem_idxOf] at hpair

/-- Vendors of the comparison are listed by scores that go down. -/
theorem pairwise_shortlist_score :
    (shortlist call.evaluations (runComparatorAgent replies call).1).Pairwise
      (fun p q => p.1 ∈ call.vendorIds → q.1 ∈ call.vendorIds →
        q.2.coverageNormalisedScore ≤ p.2.coverageNormalisedScore) := by
  refine pairwise_shortlist.imp_of_mem ?_
  intro p q hp hq hkey hpv hqv
  have hrankedp := (@mem_overallRanking replies call _).mpr ⟨hpv, mem_keys_of_mem_shortlist hp⟩
  have hrankedq := (@mem_overallRanking replies call _).mpr ⟨hqv, mem_keys_of_mem_shortlist hq⟩
  rw [rankKey, rankKey, if_pos hrankedp, if_pos hrankedq] at hkey
  have hle := normalised_le_of_idxOf_le hrankedp hrankedq hkey
  rwa [normalised_of_mem (mem_shortlist.mp hp).1, normalised_of_mem (mem_shortlist.mp hq).1] at hle

theorem decided_ranks : (decided replies derived contractValue call).shortlistedVendors.map
    ShortlistedVendor.rank =
      List.range' 1 (decided replies derived contractValue call).shortlistedVendors.length := by
  let listed := shortlist call.evaluations (runComparatorAgent replies call).1
  change (listed.zipIdx.map shortlistedVendor).map ShortlistedVendor.rank =
    List.range' 1 (listed.zipIdx.map shortlistedVendor).length
  rw [List.map_map, List.length_map, List.length_zipIdx]
  calc listed.zipIdx.map _ = (listed.zipIdx.map Prod.snd).map (1 + ·) := by
        rw [List.map_map]
        exact List.map_congr_left fun p _ => Nat.add_comm _ _
    _ = List.range' 1 listed.length := by rw [List.zipIdx_map_snd, List.map_add_range']

theorem decided_scores (h : Known call) :
    (decided replies derived contractValue call).shortlistedVendors.Pairwise
      (fun v w => w.coverageNormalisedScore ≤ v.coverageNormalisedScore) := by
  change ((shortlist call.evaluations (runComparatorAgent replies call).1).zipIdx.map
    shortlistedVendor).Pairwise _
  rw [List.pairwise_map]
  refine (List.pairwise_map (f := Prod.fst) (R := fun p q : VendorId × EvaluationOutput =>
    q.2.coverageNormalisedScore ≤ p.2.coverageNormalisedScore)).mp ?_
  rw [List.zipIdx_map_fst]
  refine pairwise_shortlist_score.imp_of_mem ?_
  intro p q hp hq hle
  exact hle (h _ (mem_keys_of_mem_shortlist hp)) (h _ (mem_keys_of_mem_shortlist hq))

/-- A vendor of the shortlist stands at its rank in the order of the ranking. -/
theorem mem_shortlisted {x : ShortlistedVendor}
    (h : x ∈ (decided replies derived contractValue call).shortlistedVendors) :
    ∃ i, ∃ hi : i < (shortlist call.evaluations (runComparatorAgent replies call).1).length,
      x = shortlistedVendor
        ((shortlist call.evaluations (runComparatorAgent replies call).1)[i], i) := by
  obtain ⟨⟨p, i⟩, hp, rfl⟩ := List.mem_map.mp h
  obtain ⟨hi, hget⟩ := List.mem_zipIdx' hp
  exact ⟨i, hi, by rw [hget]⟩

theorem get?_shortlisted {x : ShortlistedVendor}
    (h : x ∈ (decided replies derived contractValue call).shortlistedVendors) :
    ∃ evaluation, call.evaluations.get? x.vendorId = some evaluation ∧
      x.coverageNormalisedScore = evaluation.coverageNormalisedScore := by
  obtain ⟨i, hi, rfl⟩ := mem_shortlisted h
  exact ⟨_, Dict.get?_eq_some.mpr (mem_shortlist.mp (List.getElem_mem hi)).1, rfl⟩

/-- Of two vendors of the comparison, the one that ranks first in the shortlist has no lower score. -/
theorem score_le_of_rank_lt {x y : ShortlistedVendor}
    (hx : x ∈ (decided replies derived contractValue call).shortlistedVendors)
    (hy : y ∈ (decided replies derived contractValue call).shortlistedVendors)
    (hxv : x.vendorId ∈ call.vendorIds) (hyv : y.vendorId ∈ call.vendorIds)
    (hlt : x.rank < y.rank) : y.coverageNormalisedScore ≤ x.coverageNormalisedScore := by
  obtain ⟨i, hi, rfl⟩ := mem_shortlisted hx
  obtain ⟨j, hj, rfl⟩ := mem_shortlisted hy
  exact List.pairwise_iff_getElem.mp pairwise_shortlist_score i j hi hj
    (Nat.succ_lt_succ_iff.mp hlt) hxv hyv

/-- The shortlist is the ranking without the vendors that are rejected. -/
theorem shortlisted_eq_filter (h : Known call) :
    (decided replies derived contractValue call).shortlistedVendors.map
        ShortlistedVendor.vendorId =
      (runComparatorAgent replies call).1.overallRanking.filter (fun v => v ∉
        (decided replies derived contractValue call).rejectedVendors.map
          RejectionNotice.vendorId) := by
  rw [decided, shortlistedVendors_ids, shortlist_ids h]
  refine List.filter_congr fun v hv => decide_eq_decide.mpr ?_
  obtain ⟨evaluation, hget⟩ := Dict.mem_keys.mp (mem_overallRanking.mp hv).2
  rw [← @shortlistedVendors_ids derived _ _ contractValue, shortlisted_iff, rejected_iff, hget]
  simp

end Shortlisted

section Fixtures

open FailClosed (isoCriterion isoSetup)

def scored (vendorId : VendorId) (rawScore : Fin 11) : CriterionScore where
  criterionId := isoCriterion.criterionId
  vendorId := vendorId
  rawScore := rawScore
  weightedContribution := rawScore.val
  confidence := ⟨1, not_one_lt_zero, not_one_lt_one⟩
  rubricBandApplied := "6_8"
  evidenceUsed := []
  scoreRationale := ""
  varianceEstimate := 0

/-- An evaluation that was made of these scores. -/
def assessed (vendorId : VendorId) (scores : List CriterionScore) (score : ℚ) :
    EvaluationOutput where
  vendorId := vendorId
  complianceDecisions := []
  criterionScores := scores
  overallCompliance := .pass
  totalWeightedScore := score
  coverage := 1
  coverageNormalisedScore := score
  scoreConfidence := ⟨1, not_one_lt_zero, not_one_lt_one⟩
  evaluationWarnings := []
  coverage_nonneg := full_nonneg
  coverage_le_one := full_le_one

def comparisonOf (vendorIds : List VendorId) (evaluations : Dict VendorId EvaluationOutput) :
    ComparisonCall := ⟨vendorIds, "rfp", isoSetup, evaluations⟩

end Fixtures

end RfpPlatform.DecisionOrder
