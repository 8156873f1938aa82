import RfpPlatform.Critics
import RfpPlatform.Tally

namespace RfpPlatform.Decision

open Json PyText Tally

structure ApprovalTier where
  tier : Nat
  approverRole : String
  maxValue : Option ℚ
  slaHours : Nat

/-- `governance.approval_tiers`, in the order of their upper bounds. -/
def approvalTiers : List ApprovalTier :=
  [⟨1, "department_head", some 100000, 24⟩, ⟨2, "regional_director", some 500000, 48⟩,
    ⟨3, "cfo", some 1000000, 72⟩]

def lastTier : ApprovalTier := ⟨4, "board", none, 120⟩

def ApprovalTier.admits (contractValue : ℚ) (t : ApprovalTier) : Bool :=
  (t.maxValue.map (fun m => decide (contractValue ≤ m))).getD true

def routeToApprovalTier (contractValue : ℚ) : ApprovalRouting :=
  let t := (approvalTiers.find? (ApprovalTier.admits contractValue)).getD lastTier
  { approvalTier := t.tier
    approverRole := t.approverRole
    contractValue := contractValue
    slaHours := t.slaHours }

/-- A vendor with conflicting evidence anywhere is not rejected for missing evidence. -/
def rejects (hasContradiction : Bool) (d : ComplianceDecision) : Bool :=
  d.decision = .fail ||
    (d.decision = .insufficientEvidence && d.contradictionsFound.isEmpty && !hasContradiction)

def rejectingDecisions (decisions : List ComplianceDecision) : List ComplianceDecision :=
  decisions.filter (rejects (decisions.any (fun d => !d.contradictionsFound.isEmpty)))

/-- `governance.recommendation_thresholds`, the highest first. -/
def recommendationThresholds : List (String × ℚ) :=
  [("strongly_recommended", 8), ("recommended", 6), ("acceptable", 4), ("marginal", 0)]

def recommendation (score : ℚ) : String :=
  ((recommendationThresholds.find? (fun p => decide (p.2 ≤ score))).map Prod.fst).getD "marginal"

def rejectionReason (d : ComplianceDecision) : String :=
  if d.reasoning = "" then
    s!"Mandatory requirement {d.checkId} not demonstrated " ++
      "(no supporting evidence found in the proposal)."
  else d.reasoning

/-- The strings met when the value is iterated over. -/
def iteratedStrings : Json → List String
  | .arr xs => xs.filterMap asString
  | .str s => s.toList.map String.singleton
  | .obj ms => (tally (ms.map Prod.fst)).keys
  | _ => []

def derivedCitations : LlmReply → List String
  | .json (.obj ms) => iteratedStrings (get ms "evidence" .null)
  | _ => []

def buildRejectionNotice (reply : LlmReply) (vendorId : VendorId) (evaluation : EvaluationOutput) :
    RejectionNotice :=
  let failed := rejectingDecisions evaluation.complianceDecisions
  let reasons := failed.map rejectionReason
  let cited := failed.flatMap ComplianceDecision.evidenceUsed
  let derived := derivedCitations reply
  { vendorId := vendorId
    vendorName := vendorId
    failedChecks := failed.map ComplianceDecision.checkId
    rejectionReasons := reasons
    evidenceCitations :=
      if cited = [] then (if derived = [] then reasons.take 3 else derived) else cited
    clauseReferences := failed.map ComplianceDecision.checkId }

/-- The place in the ranking, or the place behind every ranked vendor. -/
def rankKey (ranking : List VendorId) (v : VendorId) : Nat :=
  if v ∈ ranking then ranking.idxOf v else 999

def unresolvedChecks (evaluation : EvaluationOutput) : List String :=
  (evaluation.complianceDecisions.filter (fun d => d.decision = .insufficientEvidence)).map
    ComplianceDecision.checkId

def aboutVendor (v : VendorId) : String := s!"Vendor {v} "

def unresolvedReason (v : VendorId) (evaluation : EvaluationOutput) : List String :=
  if unresolvedChecks evaluation = [] then []
  else [aboutVendor v ++ ("shortlisted but has unresolved mandatory checks " ++
    s!"with insufficient evidence: {listRepr (unresolvedChecks evaluation)}. " ++
    "Human review recommended.")]

def insufficientCriteria (evaluation : EvaluationOutput) : List String :=
  (evaluation.criterionScores.filter CriterionScore.insufficientEvidence).map
    CriterionScore.criterionId

def insufficientReason (v : VendorId) (evaluation : EvaluationOutput) : List String :=
  if insufficientCriteria evaluation = [] then []
  else [aboutVendor v ++ ("has criteria with insufficient evidence (not scored on merit): " ++
    s!"{listRepr (insufficientCriteria evaluation)}. Coverage {percent evaluation.coverage}; " ++
    s!"rank + recommendation use the coverage-normalised score " ++
    s!"{fixed 2 evaluation.coverageNormalisedScore} (absolute total " ++
    s!"{fixed 2 evaluation.totalWeightedScore}) — human review recommended.")]

def lowCoverageReason (lowCoverageVendors : List VendorId) (v : VendorId)
    (evaluation : EvaluationOutput) : List String :=
  if v ∈ lowCoverageVendors then
    [aboutVendor v ++ ("ranked on a coverage-normalised score but assessed on only " ++
      s!"{percent evaluation.coverage} of the criterion weight — below the trust floor. " ++
      "Rank is not reliable without human review.")]
  else []

def vendorReasons (comparator : ComparatorOutput) (p : VendorId × EvaluationOutput) :
    List String :=
  unresolvedReason p.1 p.2 ++ insufficientReason p.1 p.2 ++
    lowCoverageReason comparator.lowCoverageVendors p.1 p.2

def shortlistedVendor (p : (VendorId × EvaluationOutput) × Nat) : ShortlistedVendor where
  vendorId := p.1.1
  vendorName := p.1.1
  rank := p.2 + 1
  totalScore := p.1.2.totalWeightedScore
  coverage := p.1.2.coverage
  coverageNormalisedScore := p.1.2.coverageNormalisedScore
  scoreConfidence := p.1.2.scoreConfidence.value
  criterionBreakdown := p.1.2.criterionScores
  recommendation := recommendation p.1.2.coverageNormalisedScore

def Rejected (evaluation : EvaluationOutput) : Prop :=
  rejectingDecisions evaluation.complianceDecisions ≠ []

instance (evaluation : EvaluationOutput) : Decidable (Rejected evaluation) :=
  inferInstanceAs (Decidable (_ ≠ _))

def shortlist (evaluations : Dict VendorId EvaluationOutput) (comparator : ComparatorOutput) :
    List (VendorId × EvaluationOutput) :=
  (evaluations.rows.filter (fun p => ¬ Rejected p.2)).insertionSort
    (fun p q => rankKey comparator.overallRanking p.1 ≤ rankKey comparator.overallRanking q.1)

def allRejectedReason : String :=
  "All vendors rejected — mandatory requirements may be too restrictive. " ++
    "Escalate to procurement team for review."

/-- The agent, with the model's reply on each rejected vendor as a parameter. -/
def runDecisionAgent (replies : VendorId → LlmReply) (evaluations : Dict VendorId EvaluationOutput)
    (comparator : ComparatorOutput) (contractValue : ℚ) : DecisionOutput × CriticOutput :=
  let rejected := (evaluations.rows.filter (fun p => Rejected p.2)).map
    (fun p => buildRejectionNotice (replies p.1) p.1 p.2)
  let ranked := shortlist evaluations comparator
  let reasons := ranked.flatMap (vendorReasons comparator)
  let routing := routeToApprovalTier contractValue
  let allRejected := ranked = [] ∧ rejected ≠ []
  let allReasons := if allRejected then reasons ++ [allRejectedReason] else reasons
  let output : DecisionOutput :=
    { rfpId := comparator.rfpId
      rejectedVendors := rejected
      shortlistedVendors := ranked.zipIdx.map shortlistedVendor
      approvalRouting :=
        if allRejected then { routing with escalationReason := allReasons.head? } else routing
      decisionConfidence := comparator.rankingConfidence
      requiresHumanReview := decide allRejected || !reasons.isEmpty
      reviewReasons := allReasons }
  (output, criticAfterDecision output)

section Shortlisted

variable {replies : VendorId → LlmReply} {evaluations : Dict VendorId EvaluationOutput}
  {comparator : ComparatorOutput} {contractValue : ℚ} {v : VendorId}
  {evaluation : EvaluationOutput}

def About (v : VendorId) (reason : String) : Prop := (aboutVendor v).toList <+: reason.toList

theorem about_append (v : VendorId) (rest : String) : About v (aboutVendor v ++ rest) := by
  rw [About, String.toList_append]
  exact List.prefix_append _ _

theorem mem_shortlist {p : VendorId × EvaluationOutput} :
    p ∈ shortlist evaluations comparator ↔ p ∈ evaluations ∧ ¬ Rejected p.2 := by
  rw [shortlist, List.mem_insertionSort, List.mem_filter, KeyedTable.mem_def, decide_eq_true_iff]

theorem shortlistedVendors_ids :
    (runDecisionAgent replies evaluations comparator contractValue).1.shortlistedVendors.map
      ShortlistedVendor.vendorId = (shortlist evaluations comparator).map Prod.fst := by
  change ((shortlist evaluations comparator).zipIdx.map shortlistedVendor).map
    ShortlistedVendor.vendorId = _
  rw [List.map_map, ← List.zipIdx_map_fst 0 (shortlist evaluations comparator), List.map_map,
    List.zipIdx_map_fst]
  rfl

/-- A vendor is shortlisted exactly when none of its decisions rejects it. -/
theorem shortlisted_iff :
    v ∈ (runDecisionAgent replies evaluations comparator contractValue).1.shortlistedVendors.map
        ShortlistedVendor.vendorId ↔
      ∃ evaluation, evaluations.get? v = some evaluation ∧ ¬ Rejected evaluation := by
  rw [shortlistedVendors_ids, List.mem_map]
  constructor
  · rintro ⟨⟨_, evaluation⟩, hp, rfl⟩
    obtain ⟨hmem, hkept⟩ := mem_shortlist.mp hp
    exact ⟨evaluation, Dict.get?_eq_some.mpr hmem, hkept⟩
  · rintro ⟨evaluation, hget, hkept⟩
    exact ⟨(v, evaluation), mem_shortlist.mpr ⟨Dict.get?_eq_some.mp hget, hkept⟩, rfl⟩

theorem rejectedVendors_ids :
    (runDecisionAgent replies evaluations comparator contractValue).1.rejectedVendors.map
      RejectionNotice.vendorId = (evaluations.rows.filter (fun p => Rejected p.2)).map Prod.fst := by
  change ((evaluations.rows.filter (fun p => Rejected p.2)).map _).map RejectionNotice.vendorId = _
  rw [List.map_map]
  rfl

/-- A vendor is rejected exactly when one of its decisions rejects it. -/
theorem rejected_iff :
    v ∈ (runDecisionAgent replies evaluations comparator contractValue).1.rejectedVendors.map
        RejectionNotice.vendorId ↔
      ∃ evaluation, evaluations.get? v = some evaluation ∧ Rejected evaluation := by
  rw [rejectedVendors_ids, List.mem_map]
  constructor
  · rintro ⟨⟨_, evaluation⟩, hp, rfl⟩
    obtain ⟨hmem, hrejected⟩ := List.mem_filter.mp hp
    exact ⟨evaluation, Dict.get?_eq_some.mpr hmem, of_decide_eq_true hrejected⟩
  · rintro ⟨evaluation, hget, hrejected⟩
    exact ⟨(v, evaluation),
      List.mem_filter.mpr ⟨Dict.get?_eq_some.mp hget, decide_eq_true hrejected⟩, rfl⟩

/-- The agent places each evaluated vendor once, among the shortlisted or the rejected. -/
theorem decided_perm :
    ((runDecisionAgent replies evaluations comparator contractValue).1.shortlistedVendors.map
        ShortlistedVendor.vendorId ++
      (runDecisionAgent replies evaluations comparator contractValue).1.rejectedVendors.map
        RejectionNotice.vendorId).Perm evaluations.keys := by
  rw [shortlistedVendors_ids, rejectedVendors_ids, ← List.map_append]
  refine List.Perm.map Prod.fst ?_
  have hsorted : (shortlist evaluations comparator).Perm
      (evaluations.rows.filter (fun p => ¬ Rejected p.2)) := List.perm_insertionSort _ _
  refine (hsorted.append_right _).trans (List.perm_append_comm.trans ?_)
  have hsplit := List.filter_append_perm (fun p : VendorId × EvaluationOutput =>
    decide (Rejected p.2)) evaluations.rows
  simpa only [decide_not] using hsplit

theorem reason_mem {p : VendorId × EvaluationOutput} {reason : String}
    (hp : p ∈ shortlist evaluations comparator) (hr : reason ∈ vendorReasons comparator p) :
    reason ∈ (runDecisionAgent replies evaluations comparator contractValue).1.reviewReasons := by
  have hne : shortlist evaluations comparator ≠ [] := List.ne_nil_of_mem hp
  simp only [runDecisionAgent, hne, false_and, if_false]
  exact List.mem_flatMap.mpr ⟨p, hp, hr⟩

/-- A shortlisted vendor that no review reason is about passed every decision made on it. -/
theorem shortlisted_all_pass
    (hshort : v ∈ (runDecisionAgent replies evaluations comparator
      contractValue).1.shortlistedVendors.map ShortlistedVendor.vendorId)
    (hreasons : ∀ reason ∈ (runDecisionAgent replies evaluations comparator
      contractValue).1.reviewReasons, ¬ About v reason)
    (hget : evaluations.get? v = some evaluation) :
    ∀ d ∈ evaluation.complianceDecisions, d.decision = .pass := by
  obtain ⟨ev, hev, hkept⟩ := shortlisted_iff.mp hshort
  obtain rfl : ev = evaluation := Option.some.inj (hev.symm.trans hget)
  intro d hd
  cases hdec : d.decision with
  | pass => rfl
  | fail =>
      have hrejects : rejects (ev.complianceDecisions.any (fun d => !d.contradictionsFound.isEmpty)) d
          = true := by simp [rejects, hdec]
      have hmem : d ∈ rejectingDecisions ev.complianceDecisions :=
        List.mem_filter.mpr ⟨hd, hrejects⟩
      exact absurd (List.ne_nil_of_mem hmem) hkept
  | insufficientEvidence =>
      have hunresolved : unresolvedChecks ev ≠ [] :=
        List.ne_nil_of_mem (List.mem_map_of_mem (List.mem_filter.mpr ⟨hd, decide_eq_true hdec⟩))
      have hlist : (v, ev) ∈ shortlist evaluations comparator :=
        mem_shortlist.mpr ⟨Dict.get?_eq_some.mp hev, hkept⟩
      have hreason : aboutVendor v ++ ("shortlisted but has unresolved mandatory checks " ++
          s!"with insufficient evidence: {listRepr (unresolvedChecks ev)}. " ++
          "Human review recommended.") ∈ vendorReasons comparator (v, ev) := by
        apply List.mem_append_left
        apply List.mem_append_left
        rw [unresolvedReason, if_neg hunresolved]
        exact List.mem_singleton_self _
      exact absurd (about_append v _) (hreasons _ (reason_mem hlist hreason))

end Shortlisted

end RfpPlatform.Decision
