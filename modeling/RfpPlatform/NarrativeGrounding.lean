import RfpPlatform.Explanation
import RfpPlatform.ExplanationFlags
import RfpPlatform.ExtractionGrounding

namespace RfpPlatform.NarrativeGrounding

open ExceptRules Explanation Extraction IngestionCritic Quotes

variable {cfg : SynthesisVerification} {svc : NarrationServices} {prompt : NarrativePrompt}
  {rejected : Bool} {evaluation : EvaluationOutput} {decision : DecisionOutput}
  {narrative : VendorNarrative} {synthesis : Synthesis}

/-- The chunks of one map are in another one too, with the same text. -/
def Extends (chunks chunks' : Dict ChunkId String) : Prop :=
  ∀ id text, chunks.get? id = some text → chunks'.get? id = some text

/-- The claims kept from a reply are grounded, the others are counted, and the critic finds no
fault with the quotes of the kept ones. -/
structure WellKept (prompt : NarrativePrompt) (synthesis : Synthesis) (narrative : VendorNarrative) :
    Prop where
  kept : ∀ claim ∈ narrative.groundedClaims, claim ∈ synthesis.groundedClaims ∧
    Grounded prompt.sourceChunks claim.sourceChunkId claim.groundingQuote
  counted : ∃ removed : List GroundedClaim, removed.length = narrative.ungroundedClaimsRemoved ∧
    (narrative.groundedClaims ++ removed).Perm synthesis.groundedClaims
  rechecked : ∀ (cfg : SynthesisVerification) (output : ExplanationOutput)
    (chunks : Dict ChunkId String), Extends prompt.sourceChunks chunks →
    (∀ n ∈ output.vendorNarratives, n.groundedClaims ⊆ narrative.groundedClaims) →
    ∀ f ∈ (criticAfterExplanation cfg output chunks).flags,
      f.checkName ≠ "grounding_verification_failed"

/-- A claim whose quote is whitespace and nothing else, on a chunk with a text. -/
def QuotesWhitespace (chunks : Dict ChunkId String) (claim : GroundedClaim) : Prop :=
  claim.groundingQuote ≠ "" ∧ Blank claim.groundingQuote ∧ citedText chunks claim.sourceChunkId ≠ ""

theorem verifyGrounding_iff {chunks : Dict ChunkId String} {claim : GroundedClaim} :
    verifyGrounding claim chunks = true ↔
      Grounded chunks claim.sourceChunkId claim.groundingQuote ∨ QuotesWhitespace chunks claim := by
  have hfound : verifyGrounding claim chunks =
      quoteFound claim.groundingQuote (citedText chunks claim.sourceChunkId) := rfl
  rw [hfound]
  constructor
  · intro h
    by_cases hblank : Blank claim.groundingQuote
    · obtain ⟨hquote, htext, _⟩ := quoteFound_iff.mp h
      exact Or.inr ⟨hquote, hblank, htext⟩
    · exact Or.inl (grounded_iff_quoteFound.mpr ⟨hblank, h⟩)
  · rintro (h | ⟨hquote, hblank, htext⟩)
    · exact h.quoteFound
    · exact quoteFound_iff.mpr ⟨hquote, htext, occurs_of_blank hblank _⟩

/-- What the prose is checked for changes nothing in the claims. -/
theorem generateVendorNarrative_claims (hreply : svc.synthesise prompt = .ok synthesis)
    (h : generateVendorNarrative cfg svc prompt rejected evaluation decision = .ok narrative) :
    narrative.groundedClaims =
        synthesis.groundedClaims.filter (fun c => verifyGrounding c prompt.sourceChunks) ∧
      narrative.ungroundedClaimsRemoved =
        (synthesis.groundedClaims.filter (fun c => !verifyGrounding c prompt.sourceChunks)).length := by
  simp only [generateVendorNarrative, bind_eq_ok, hreply] at h
  obtain ⟨reply, hok, ⟨verifications, score⟩, _, h⟩ := h
  cases hok
  cases pure_eq_ok.mp h
  exact ⟨rfl, rfl⟩

theorem find?_quoteMissing {chunks chunks' : Dict ChunkId String} {claims : List GroundedClaim}
    (hkept : ∀ claim ∈ claims, verifyGrounding claim chunks = true) (hext : Extends chunks chunks') :
    claims.find? (fun claim => quoteMissing chunks' claim.sourceChunkId claim.groundingQuote) =
      none := by
  rw [List.find?_eq_none]
  intro claim hclaim
  rw [Bool.not_eq_true]
  exact quoteMissing_of_quoteFound (hkept claim hclaim) (hext claim.sourceChunkId)

theorem claimFlags_eq_nil {chunks chunks' : Dict ChunkId String} {n : VendorNarrative}
    (hkept : ∀ claim ∈ n.groundedClaims, verifyGrounding claim chunks = true)
    (hext : Extends chunks chunks') : claimFlags chunks' n = [] := by
  rw [claimFlags, find?_quoteMissing (fun claim hclaim => hkept claim (List.mem_of_mem_take hclaim))
    hext]

theorem criticAfterExplanation_quotes {chunks : Dict ChunkId String} {output : ExplanationOutput}
    (h : ∀ n ∈ output.vendorNarratives, claimFlags chunks n = []) :
    ∀ f ∈ (criticAfterExplanation cfg output chunks).flags,
      f.checkName ≠ "grounding_verification_failed" := by
  intro f hf hname
  obtain ⟨n, hn, hclaim⟩ := ExplanationFlags.claim_of_name hf hname
  rw [h n hn] at hclaim
  cases hclaim

/-- A narrative is well kept unless the reply quotes whitespace: both matchers squeeze such a
quote to nothing, which occurs in every text. -/
theorem wellKept_iff (hreply : svc.synthesise prompt = .ok synthesis)
    (h : generateVendorNarrative cfg svc prompt rejected evaluation decision = .ok narrative) :
    WellKept prompt synthesis narrative ↔
      ∀ claim ∈ synthesis.groundedClaims, ¬ QuotesWhitespace prompt.sourceChunks claim := by
  obtain ⟨hkept, hcount⟩ := generateVendorNarrative_claims hreply h
  have hmem : ∀ claim, claim ∈ narrative.groundedClaims ↔
      claim ∈ synthesis.groundedClaims ∧ verifyGrounding claim prompt.sourceChunks = true := by
    intro claim
    rw [hkept, List.mem_filter]
  constructor
  · intro hwell claim hclaim hwhite
    have hverified := verifyGrounding_iff.mpr (Or.inr hwhite)
    exact (hwell.kept claim ((hmem claim).mpr ⟨hclaim, hverified⟩)).2.1 hwhite.2.1
  · intro hquotes
    constructor
    · intro claim hclaim
      obtain ⟨hreplied, hverified⟩ := (hmem claim).mp hclaim
      exact ⟨hreplied, (verifyGrounding_iff.mp hverified).resolve_right (hquotes claim hreplied)⟩
    · refine ⟨_, hcount.symm, ?_⟩
      rw [hkept]
      exact List.filter_append_perm _ _
    · intro cfg output chunks hext hsub
      apply criticAfterExplanation_quotes
      intro n hn
      apply claimFlags_eq_nil _ hext
      exact fun claim hclaim => ((hmem claim).mp (hsub n hn hclaim)).2

section Sample

def certificateChunks : Dict ChunkId String := Dict.ofPairs [("c1", "We hold ISO 27001.")]

def samplePrompt : NarrativePrompt where
  criticFeedback := ""
  vendorId := "acme"
  decisionContext := ""
  complianceSummary := ""
  extraction := stubExtraction "acme" "o"
  currency := "GBP"
  sourceChunks := certificateChunks

def sampleEvaluation : EvaluationOutput where
  vendorId := "acme"
  complianceDecisions := []
  criterionScores := []
  overallCompliance := .pass
  totalWeightedScore := 0
  coverage := 1
  coverageNormalisedScore := 0
  scoreConfidence := ⟨1, not_one_lt_zero, not_one_lt_one⟩
  evaluationWarnings := []
  coverage_nonneg := full_nonneg
  coverage_le_one := full_le_one

def sampleDecision : DecisionOutput where
  rfpId := "rfp"
  rejectedVendors := []
  shortlistedVendors := []
  approvalRouting := ⟨1, "manager", 0, 24, none⟩
  decisionConfidence := 1
  requiresHumanReview := false
  reviewReasons := []

def quoting (quote : String) : Synthesis := { groundedClaims := [⟨"acme is certified", quote, "c1"⟩] }

def replying (quote : String) : NarrationServices where
  synthesise := fun _ => .ok (quoting quote)
  verifyClaims := fun _ => .ok []

theorem replying_narrates (quote : String) : ∃ narrative,
    generateVendorNarrative ⟨false, 0, 0, 0⟩ (replying quote) samplePrompt false sampleEvaluation
      sampleDecision = .ok narrative := ⟨_, rfl⟩

theorem quoted_claim_well_kept : ∃ narrative, WellKept samplePrompt (quoting "hold ISO\n27001") narrative := by
  obtain ⟨narrative, h⟩ := replying_narrates "hold ISO\n27001"
  refine ⟨narrative, (wellKept_iff rfl h).mpr fun claim hclaim hwhite => ?_⟩
  rw [List.mem_singleton.mp hclaim] at hwhite
  exact absurd hwhite.2.1 (by decide)

theorem whitespace_claim_kept : ¬ ∀ (cfg : SynthesisVerification) (svc : NarrationServices)
    (prompt : NarrativePrompt) (rejected : Bool) (evaluation : EvaluationOutput)
    (decision : DecisionOutput) (synthesis : Synthesis) (narrative : VendorNarrative),
    svc.synthesise prompt = .ok synthesis →
    generateVendorNarrative cfg svc prompt rejected evaluation decision = .ok narrative →
    WellKept prompt synthesis narrative := by
  intro h
  obtain ⟨narrative, hok⟩ := replying_narrates " "
  have hwell := h _ _ _ _ _ _ _ narrative rfl hok
  have hreply : (replying " ").synthesise samplePrompt = .ok (quoting " ") := rfl
  have hkept := (generateVendorNarrative_claims hreply hok).1
  have hmem : (⟨"acme is certified", " ", "c1"⟩ : GroundedClaim) ∈ narrative.groundedClaims := by
    rw [hkept]
    decide
  exact (hwell.kept _ hmem).2.1 (by decide)

end Sample

end RfpPlatform.NarrativeGrounding
