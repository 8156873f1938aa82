import RfpPlatform.ExplanationFlags
import RfpPlatform.PipelineNodes
import RfpPlatform.Rounding

namespace RfpPlatform.GroundingGate

open Explanation ExplanationFlags PipelineNodes PyText RunState

variable {cfg : SynthesisVerification} {output : ExplanationOutput} {chunks : Dict ChunkId String}
  {decision : DecisionOutput} {narratives narratives' : List VendorNarrative}
  {limitations : List String} {q : ℚ}

/-- The claims of all narratives that are grounded. -/
def grounded (narratives : List VendorNarrative) : Nat :=
  (narratives.map (fun n => n.groundedClaims.length)).sum

/-- The claims of all narratives, with those that were removed. -/
def claims (narratives : List VendorNarrative) : Nat :=
  (narratives.map VendorNarrative.totalClaims).sum

def claimBearing (narratives : List VendorNarrative) : List VendorNarrative :=
  narratives.filter (fun n => decide (0 < n.totalClaims))

/-- The gate blocks a report: too few of its claims are grounded. -/
def Blocks (cfg : SynthesisVerification) (output : ExplanationOutput) (chunks : Dict ChunkId String) :
    Prop :=
  ∃ f ∈ (criticAfterExplanation cfg output chunks).flags,
    f.severity = .hard ∧ f.checkName = "low_grounding_completeness"

/-- The gate on the report of some narratives is that on their counts of claims, and narratives
without claims change nothing in it. -/
structure ExactGate (cfg : SynthesisVerification) (chunks : Dict ChunkId String)
    (decision : DecisionOutput) (limitations : List String) (narratives : List VendorNarrative) :
    Prop where
  exact : 0 < claims narratives →
    (Blocks cfg (explanationOutput decision narratives limitations) chunks ↔
      10 * grounded narratives < 7 * claims narratives)
  claimFree : ∀ narratives', claimBearing narratives' = claimBearing narratives →
    (Blocks cfg (explanationOutput decision narratives' limitations) chunks ↔
      Blocks cfg (explanationOutput decision narratives limitations) chunks)

/-- Less than 70% of the claims, and 70% when rounded to three decimals. -/
def RoundsUp (grounded claims : Nat) : Prop := 1399 * claims ≤ 2000 * grounded ∧ 10 * grounded < 7 * claims

theorem blocks_iff : Blocks cfg output chunks ↔ output.groundingCompleteness < 70 / 100 := by
  constructor
  · rintro ⟨f, hf, hhard, hname⟩
    have hgrounding := grounding_of_name hf hname
    rw [groundingFlags] at hgrounding
    split at hgrounding
    · assumption
    · obtain ⟨_, rfl⟩ := IngestionCritic.mem_flagIf.mp hgrounding
      cases hhard
  · intro h
    obtain ⟨f, hf, hkind⟩ : ∃ f ∈ groundingFlags output.groundingCompleteness,
        f.severity = .hard ∧ f.checkName = "low_grounding_completeness" := by
      rw [groundingFlags, if_pos h]
      exact ⟨_, List.mem_singleton_self _, rfl, rfl⟩
    exact ⟨f, mem_of_grounding hf, hkind⟩

theorem round_lt_iff : round q 3 < 70 / 100 ↔ q < 1399 / 2000 := by
  have h := (@le_round_even q 3 700 rfl).not
  rw [not_le, not_le] at h
  have hbound : ((700 : ℤ) : ℚ) / 10 ^ 3 = 70 / 100 := by norm_num
  have hhalf : (((700 : ℤ) : ℚ) - 1 / 2) / 10 ^ 3 = 1399 / 2000 := by norm_num
  rwa [hbound, hhalf] at h

/-- A sum over the narratives with claims is that over all where the others add nothing. -/
theorem sum_claimBearing {count : VendorNarrative → Nat} (hcount : ∀ n, count n ≤ n.totalClaims) :
    ((claimBearing narratives).map count).sum = (narratives.map count).sum := by
  induction narratives with
  | nil => rfl
  | cons n narratives ih =>
      rw [claimBearing, List.filter_cons]
      split
      · rw [List.map_cons, List.map_cons, List.sum_cons, List.sum_cons]
        exact congrArg (count n + ·) ih
      · rename_i hnone
        have hzero : count n = 0 := by
          have := hcount n
          simp only [decide_eq_true_eq] at hnone
          omega
        rw [List.map_cons, List.sum_cons, hzero, Nat.zero_add]
        exact ih

theorem grounded_le : grounded narratives ≤ claims narratives :=
  List.sum_le_sum fun _ _ => Nat.le_add_right _ _

theorem computeGrounding_eq : (computeGrounding narratives).1 =
    round (if 0 < claims narratives then (grounded narratives : ℚ) / claims narratives else 1) 3 := by
  have hclaims : ((claimBearing narratives).map VendorNarrative.totalClaims).sum = claims narratives :=
    sum_claimBearing fun _ => le_rfl
  have hgrounded : ((claimBearing narratives).map (fun n => n.groundedClaims.length)).sum =
      grounded narratives :=
    sum_claimBearing fun _ => Nat.le_add_right _ _
  rw [← hclaims, ← hgrounded]
  rfl

/-- The gate in whole numbers. -/
theorem blocks_iff_claims : Blocks cfg (explanationOutput decision narratives limitations) chunks ↔
    2000 * grounded narratives < 1399 * claims narratives := by
  have hcompleteness : (explanationOutput decision narratives limitations).groundingCompleteness =
      (computeGrounding narratives).1 := rfl
  rw [blocks_iff, hcompleteness, computeGrounding_eq, round_lt_iff]
  split
  · rename_i hclaims
    have hpos : (0 : ℚ) < claims narratives := by exact_mod_cast hclaims
    rw [div_lt_div_iff₀ hpos (by norm_num)]
    constructor
    · intro h
      have hcast : (grounded narratives : ℚ) * 2000 < 1399 * claims narratives := h
      have hnat : grounded narratives * 2000 < 1399 * claims narratives := by exact_mod_cast hcast
      omega
    · intro h
      have hnat : grounded narratives * 2000 < 1399 * claims narratives := by omega
      exact_mod_cast hnat
  · rename_i hclaims
    have hgrounded := @grounded_le narratives
    exact iff_of_false (by norm_num) (by omega)

theorem claims_congr (h : claimBearing narratives' = claimBearing narratives) :
    claims narratives' = claims narratives ∧ grounded narratives' = grounded narratives := by
  constructor
  · rw [claims, claims, ← sum_claimBearing fun _ => le_rfl, h, sum_claimBearing fun _ => le_rfl]
  · rw [grounded, grounded, ← sum_claimBearing fun _ => Nat.le_add_right _ _, h,
      sum_claimBearing fun _ => Nat.le_add_right _ _]

/-- The gate on what the stage is finished with is exact but for the shares that round up. -/
theorem exactGate_iff (cfg : SynthesisVerification) (chunks : Dict ChunkId String)
    (decision : DecisionOutput) :
    (∀ limitations narratives, ExactGate cfg chunks decision limitations narratives ↔
        ¬ RoundsUp (grounded narratives) (claims narratives)) ∧
      ∀ s : PipelineState, (explanationFinalise s decision).updates.map Update.explanationOutput =
        [some (some (explanationOutput decision (sortedNarratives s.narratives)
          (failureLimitations s.failedVendors)))] := by
  refine ⟨fun limitations narratives => ?_, fun _ => rfl⟩
  constructor
  · rintro h ⟨hround, hbelow⟩
    have hblocks := (h.exact (by omega)).mpr hbelow
    have hcount := blocks_iff_claims.mp hblocks
    omega
  · intro h
    constructor
    · intro _
      rw [blocks_iff_claims]
      constructor
      · intro hcount
        omega
      · intro hbelow
        by_contra hcount
        exact h ⟨not_lt.mp hcount, hbelow⟩
    · intro narratives' hsame
      obtain ⟨hclaims, hgrounded⟩ := claims_congr hsame
      rw [blocks_iff_claims, blocks_iff_claims, hclaims, hgrounded]

section Sample

/-- A narrative of 203 claims, of which 142 are grounded: 69.95 percent. -/
def nearlyGrounded : VendorNarrative where
  vendorId := "acme"
  vendorName := "Acme"
  executiveSummary := ""
  complianceNarrative := ""
  scoringNarrative := ""
  recommendationRationale := ""
  groundedClaims := List.replicate 142 ⟨"ISO 27001 is held", "We hold ISO 27001.", "c1"⟩
  ungroundedClaimsRemoved := 61
  systemFacts := []
  ungroundedExamples := []

theorem nearlyGrounded_counts : grounded [nearlyGrounded] = 142 ∧ claims [nearlyGrounded] = 203 := by
  simp [grounded, claims, nearlyGrounded, VendorNarrative.totalClaims]

/-- The share of the claims that are grounded is below the threshold, and the report passes. -/
theorem nearlyGrounded_passes : ¬ ∀ (cfg : SynthesisVerification) (chunks : Dict ChunkId String)
    (decision : DecisionOutput) (limitations : List String) (narratives : List VendorNarrative),
    ExactGate cfg chunks decision limitations narratives := by
  intro h
  have hexact := (h ⟨true, 0, 0, 0⟩ ∅ ⟨"rfp", [], [], ⟨1, "department_head", 0, 24, none⟩, 1, false, []⟩
    [] [nearlyGrounded]).exact
  obtain ⟨hgrounded, hclaims⟩ := nearlyGrounded_counts
  rw [blocks_iff_claims, hgrounded, hclaims] at hexact
  have hblocks := (hexact (by omega)).mpr (by omega)
  omega

end Sample

end RfpPlatform.GroundingGate
