import RfpPlatform.Decision

namespace RfpPlatform.DecisionPayload

open Json

section Dump

def strings (ss : List String) : Json := .arr (ss.map .str)

def float (q : ℚ) : Json := .num (.fin q)

def dumpScore (s : CriterionScore) : Json :=
  .obj [("criterion_id", .str s.criterionId), ("vendor_id", .str s.vendorId),
    ("raw_score", float s.rawScore.val), ("weighted_contribution", float s.weightedContribution),
    ("confidence", .num s.confidence.value), ("rubric_band_applied", .str s.rubricBandApplied),
    ("evidence_used", strings s.evidenceUsed), ("score_rationale", .str s.scoreRationale),
    ("variance_estimate", .num s.varianceEstimate),
    ("insufficient_evidence", .bool s.insufficientEvidence)]

def dumpNotice (n : RejectionNotice) : Json :=
  .obj [("vendor_id", .str n.vendorId), ("vendor_name", .str n.vendorName),
    ("failed_checks", strings n.failedChecks), ("rejection_reasons", strings n.rejectionReasons),
    ("evidence_citations", strings n.evidenceCitations),
    ("clause_references", strings n.clauseReferences)]

def dumpVendor (v : ShortlistedVendor) : Json :=
  .obj [("vendor_id", .str v.vendorId), ("vendor_name", .str v.vendorName),
    ("rank", float v.rank), ("total_score", float v.totalScore), ("coverage", float v.coverage),
    ("coverage_normalised_score", float v.coverageNormalisedScore),
    ("score_confidence", .num v.scoreConfidence),
    ("criterion_breakdown", .arr (v.criterionBreakdown.map dumpScore)),
    ("recommendation", .str v.recommendation)]

def dumpRouting (r : ApprovalRouting) : Json :=
  .obj [("approval_tier", float r.approvalTier), ("approver_role", .str r.approverRole),
    ("contract_value", float r.contractValue), ("sla_hours", float r.slaHours),
    ("escalation_reason", (r.escalationReason.map .str).getD .null)]

/-- The members of `decision.model_dump(mode="json")`. -/
def dump (d : DecisionOutput) : List (String × Json) :=
  [("rfp_id", .str d.rfpId), ("rejected_vendors", .arr (d.rejectedVendors.map dumpNotice)),
    ("shortlisted_vendors", .arr (d.shortlistedVendors.map dumpVendor)),
    ("approval_routing", dumpRouting d.approvalRouting),
    ("decision_confidence", .num d.decisionConfidence),
    ("requires_human_review", .bool d.requiresHumanReview),
    ("review_reasons", strings d.reviewReasons), ("decision_warnings", .arr [])]

end Dump

section Lookup

variable {d : DecisionOutput} {n : RejectionNotice} {v : ShortlistedVendor} {dflt : Json}

@[simp] theorem get_dump_rejected :
    get (dump d) "rejected_vendors" dflt = .arr (d.rejectedVendors.map dumpNotice) := rfl

@[simp] theorem get_dump_shortlisted :
    get (dump d) "shortlisted_vendors" dflt = .arr (d.shortlistedVendors.map dumpVendor) := rfl

@[simp] theorem get_dump_recommended : get (dump d) "recommended_vendor" dflt = dflt := rfl

end Lookup

end RfpPlatform.DecisionPayload
