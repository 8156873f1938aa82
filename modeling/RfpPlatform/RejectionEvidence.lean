import RfpPlatform.Decision
import RfpPlatform.Quotes

namespace RfpPlatform.RejectionEvidence

open Decision PyText Quotes

section Evidence

def evidenceOf (failed : List ComplianceDecision) : List String :=
  failed.flatMap ComplianceDecision.evidenceUsed

/-- A notice that says for each failed check why it failed, and that cites something. -/
structure Evidenced (n : RejectionNotice) : Prop where
  cited : ∃ citation ∈ n.evidenceCitations, ¬ Blank citation
  reasons : n.rejectionReasons.length = n.failedChecks.length
  reasoned : ∀ reason ∈ n.rejectionReasons, ¬ Blank reason

/-- One of the strings, if there are any, is not blank. -/
def SomeText (ss : List String) : Prop := ss = [] ∨ ∃ s ∈ ss, ¬ Blank s

/-- The strings that the notice is made of: reasonings that are empty or have a text, and evidence
with a text, or else none and a reply whose strings have one or are none. -/
structure Worded (reply : LlmReply) (failed : List ComplianceDecision) : Prop where
  reasonings : ∀ d ∈ failed, d.reasoning ≠ "" → ¬ Blank d.reasoning
  evidence : SomeText (evidenceOf failed)
  derived : evidenceOf failed = [] → SomeText (derivedCitations reply)

end Evidence

section Notices

variable {reply : LlmReply} {v : VendorId} {evaluation : EvaluationOutput} {d : ComplianceDecision}

theorem not_blank_of_head {c : Char} {s : String} (hc : isSpace c = false)
    (hs : s.toList.head? = some c) : ¬ Blank s := by
  intro hblank
  have hspace := blank_iff.mp hblank c (List.mem_of_head? hs)
  rw [hc] at hspace
  cases hspace

/-- A reason that is made up has a text. -/
theorem blank_rejectionReason : Blank (rejectionReason d) ↔ d.reasoning ≠ "" ∧ Blank d.reasoning := by
  rw [rejectionReason]
  split
  · rename_i hempty
    refine iff_of_false (not_blank_of_head (c := 'M') rfl ?_) (fun h => h.1 hempty)
    simp only [String.toList_append]
    rfl
  · rename_i hempty
    exact (and_iff_right hempty).symm

theorem reasoned_iff (failed : List ComplianceDecision) :
    (∀ reason ∈ failed.map rejectionReason, ¬ Blank reason) ↔
      ∀ d ∈ failed, d.reasoning ≠ "" → ¬ Blank d.reasoning := by
  rw [List.forall_mem_map]
  refine forall₂_congr fun d _ => ?_
  rw [blank_rejectionReason, not_and]

/-- What the notice cites. -/
def citations (reply : LlmReply) (failed : List ComplianceDecision) : List String :=
  if evidenceOf failed = [] then
    if derivedCitations reply = [] then (failed.map rejectionReason).take 3
    else derivedCitations reply
  else evidenceOf failed

theorem buildRejectionNotice_citations : (buildRejectionNotice reply v evaluation).evidenceCitations =
    citations reply (rejectingDecisions evaluation.complianceDecisions) := rfl

/-- A notice always cites something, so that the critic never stops one. -/
theorem buildRejectionNotice_cites (h : Rejected evaluation) :
    (buildRejectionNotice reply v evaluation).evidenceCitations ≠ [] := by
  rw [buildRejectionNotice_citations, citations]
  split
  · split
    · obtain ⟨d, rest, hfailed⟩ := List.exists_cons_of_ne_nil h
      rw [hfailed]
      exact List.cons_ne_nil _ _
    · assumption
  · assumption

theorem someText_iff {ss : List String} (h : ss ≠ []) : SomeText ss ↔ ∃ s ∈ ss, ¬ Blank s :=
  or_iff_right h

/-- Something is cited exactly when the evidence, or else the reply, has a text. -/
theorem cited_iff {failed : List ComplianceDecision} (hfailed : failed ≠ [])
    (hreasons : ∀ reason ∈ failed.map rejectionReason, ¬ Blank reason) :
    (∃ citation ∈ citations reply failed, ¬ Blank citation) ↔
      SomeText (evidenceOf failed) ∧
        (evidenceOf failed = [] →
          SomeText (derivedCitations reply)) := by
  rw [citations]
  by_cases hcited : evidenceOf failed = []
  · have hnone : SomeText (evidenceOf failed) := Or.inl hcited
    rw [if_pos hcited, and_iff_right hnone, forall_prop_of_true hcited]
    by_cases hderived : derivedCitations reply = []
    · obtain ⟨d, rest, rfl⟩ := List.exists_cons_of_ne_nil hfailed
      rw [if_pos hderived]
      refine iff_of_true ⟨rejectionReason d, ?_, ?_⟩ (Or.inl hderived)
      · exact List.mem_cons_self
      · exact hreasons _ List.mem_cons_self
    · rw [if_neg hderived, someText_iff hderived]
  · rw [if_neg hcited, someText_iff hcited]
    exact (and_iff_left fun hnone => absurd hnone hcited).symm

variable (reply v) in
/-- The notice of a vendor that is rejected is evidenced exactly when its strings are worded. -/
theorem evidenced_iff (h : Rejected evaluation) :
    Evidenced (buildRejectionNotice reply v evaluation) ↔
      Worded reply (rejectingDecisions evaluation.complianceDecisions) := by
  constructor
  · intro hnotice
    obtain ⟨hevidence, hderived⟩ := (cited_iff h hnotice.reasoned).mp hnotice.cited
    exact ⟨(reasoned_iff _).mp hnotice.reasoned, hevidence, hderived⟩
  · intro hworded
    have hreasoned := (reasoned_iff _).mpr hworded.reasonings
    refine ⟨(cited_iff h hreasoned).mpr ⟨hworded.evidence, hworded.derived⟩, ?_, hreasoned⟩
    exact (List.length_map _).trans (List.length_map _).symm

end Notices

section Fixtures

def expired (evidence : List String) : ComplianceDecision where
  checkId := "c"
  vendorId := "v"
  decision := .fail
  confidence := ⟨1, not_one_lt_zero, not_one_lt_one⟩
  reasoning := "The certificate has expired."
  evidenceUsed := evidence
  contradictionsFound := []
  decisionBasis := .explicitDenial
  voteBreakdown := { samples := 1 }

def failing (decisions : List ComplianceDecision) : EvaluationOutput where
  vendorId := "v"
  complianceDecisions := decisions
  criterionScores := []
  overallCompliance := .fail
  totalWeightedScore := 0
  coverage := 1
  coverageNormalisedScore := 0
  scoreConfidence := ⟨1, not_one_lt_zero, not_one_lt_one⟩
  evaluationWarnings := []
  coverage_nonneg := full_nonneg
  coverage_le_one := full_le_one

theorem evidenced_iff_expired : Evidenced (buildRejectionNotice (.invalidJson "") "v"
    (failing [expired ["valid until 1 May 2020"]])) := by
  refine (evidenced_iff (.invalidJson "") "v" (by decide)).mpr ⟨?_, Or.inr ?_, ?_⟩
  · decide +kernel
  · decide +kernel
  · exact fun hnone => absurd hnone (by decide)

/-- A vendor is rejected on a citation that is empty. -/
theorem rejected_on_empty_citation : ¬ ∀ reply v evaluation, Rejected evaluation →
    Evidenced (buildRejectionNotice reply v evaluation) := by
  intro hall
  obtain ⟨citation, hmem, htext⟩ :=
    (hall (.invalidJson "") "v" (failing [expired [""]]) (by decide)).cited
  obtain rfl : citation = "" := by simpa [buildRejectionNotice, failing, expired,
    rejectingDecisions, rejects] using hmem
  exact htext blank_empty

end Fixtures

end RfpPlatform.RejectionEvidence
