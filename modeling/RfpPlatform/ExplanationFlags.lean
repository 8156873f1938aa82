import RfpPlatform.IngestionCritic

namespace RfpPlatform.ExplanationFlags

open IngestionCritic

variable {cfg : SynthesisVerification} {output : ExplanationOutput} {chunks : Dict ChunkId String}
  {n : VendorNarrative} {f : CriticFlag} {q : ℚ}

theorem groundingFlags_names (h : f ∈ groundingFlags q) :
    f.checkName ∈ ["low_grounding_completeness", "moderate_grounding"] := by
  rw [groundingFlags] at h
  split at h
  · rw [List.mem_singleton.mp h]
    exact List.mem_cons_self
  · obtain ⟨_, rfl⟩ := mem_flagIf.mp h
    exact List.mem_cons_of_mem _ List.mem_cons_self

theorem narrativeFlags_names (h : f ∈ narrativeFlags n) :
    f.checkName ∈ ["empty_narrative", "all_claims_ungrounded", "many_claims_removed"] := by
  rw [narrativeFlags] at h
  split at h
  · rw [List.mem_singleton.mp h]
    simp [makeFlag]
  · split at h
    · rw [List.mem_singleton.mp h]
      simp [makeFlag]
    · obtain ⟨_, rfl⟩ := mem_flagIf.mp h
      simp [makeFlag]

theorem proseFlags_names (h : f ∈ proseFlags cfg n) :
    f.checkName ∈ ["unsupported_prose_claims", "weak_prose_support"] := by
  rw [proseFlags] at h
  split at h
  · cases h
  · simp only at h
    split at h
    · rw [List.mem_singleton.mp h]
      simp [makeFlag]
    · obtain ⟨_, rfl⟩ := mem_flagIf.mp h
      simp [makeFlag]

theorem claimFlags_names (h : f ∈ claimFlags chunks n) :
    f.checkName = "grounding_verification_failed" := by
  rw [claimFlags] at h
  split at h
  · cases h
  · rw [List.mem_singleton.mp h]
    rfl

/-- Where a flag on a report comes from. -/
inductive Raised (cfg : SynthesisVerification) (output : ExplanationOutput)
    (chunks : Dict ChunkId String) (f : CriticFlag) : Prop
  | grounding (h : f ∈ groundingFlags output.groundingCompleteness)
  | claimFree (h : f.checkName = "claim_free_report")
  | narrative (n : VendorNarrative) (hn : n ∈ output.vendorNarratives) (h : f ∈ narrativeFlags n)
  | prose (henabled : cfg.enabled = true) (n : VendorNarrative) (hn : n ∈ output.vendorNarratives)
      (h : f ∈ proseFlags cfg n)
  | claim (n : VendorNarrative) (hn : n ∈ output.vendorNarratives) (h : f ∈ claimFlags chunks n)

theorem raised_of_mem (h : f ∈ (criticAfterExplanation cfg output chunks).flags) :
    Raised cfg output chunks f := by
  simp only [criticAfterExplanation, criticOutput, List.mem_append, List.mem_flatMap] at h
  obtain (((h | h) | ⟨n, hn, h⟩) | h) | ⟨n, hn, h⟩ := h
  · exact .grounding h
  · obtain ⟨_, rfl⟩ := mem_flagIf.mp h
    exact .claimFree rfl
  · exact .narrative n hn h
  · split at h
    · rename_i henabled
      obtain ⟨n, hn, h⟩ := List.mem_flatMap.mp h
      exact .prose henabled n hn h
    · cases h
  · exact .claim n hn h

theorem mem_of_grounding (h : f ∈ groundingFlags output.groundingCompleteness) :
    f ∈ (criticAfterExplanation cfg output chunks).flags := by
  simp only [criticAfterExplanation, criticOutput, List.mem_append]
  exact Or.inl (Or.inl (Or.inl (Or.inl h)))

theorem mem_of_prose (henabled : cfg.enabled = true) (hn : n ∈ output.vendorNarratives)
    (h : f ∈ proseFlags cfg n) : f ∈ (criticAfterExplanation cfg output chunks).flags := by
  simp only [criticAfterExplanation, criticOutput, List.mem_append, henabled, if_true]
  exact Or.inl (Or.inr (List.mem_flatMap.mpr ⟨n, hn, h⟩))

/-- Only the gate on the completeness raises flags of the completeness. -/
theorem grounding_of_name (h : f ∈ (criticAfterExplanation cfg output chunks).flags)
    (hname : f.checkName = "low_grounding_completeness") :
    f ∈ groundingFlags output.groundingCompleteness := by
  cases raised_of_mem h with
  | grounding h => exact h
  | claimFree h => exact absurd (hname.symm.trans h) (by decide)
  | narrative n _ h => exact absurd (hname ▸ narrativeFlags_names h) (by decide)
  | prose _ n _ h => exact absurd (hname ▸ proseFlags_names h) (by decide)
  | claim n _ h => exact absurd (hname.symm.trans (claimFlags_names h)) (by decide)

/-- Only the gate on the prose of a narrative raises flags of unsupported prose. -/
theorem prose_of_name (h : f ∈ (criticAfterExplanation cfg output chunks).flags)
    (hname : f.checkName = "unsupported_prose_claims") :
    cfg.enabled = true ∧ ∃ n ∈ output.vendorNarratives, f ∈ proseFlags cfg n := by
  cases raised_of_mem h with
  | grounding h => exact absurd (hname ▸ groundingFlags_names h) (by decide)
  | claimFree h => exact absurd (hname.symm.trans h) (by decide)
  | narrative n _ h => exact absurd (hname ▸ narrativeFlags_names h) (by decide)
  | prose henabled n hn h => exact ⟨henabled, n, hn, h⟩
  | claim n _ h => exact absurd (hname.symm.trans (claimFlags_names h)) (by decide)

/-- Only the check of the quotes raises flags of quotes that are not found. -/
theorem claim_of_name (h : f ∈ (criticAfterExplanation cfg output chunks).flags)
    (hname : f.checkName = "grounding_verification_failed") :
    ∃ n ∈ output.vendorNarratives, f ∈ claimFlags chunks n := by
  cases raised_of_mem h with
  | grounding h => exact absurd (hname ▸ groundingFlags_names h) (by decide)
  | claimFree h => exact absurd (hname.symm.trans h) (by decide)
  | narrative n _ h => exact absurd (hname ▸ narrativeFlags_names h) (by decide)
  | prose _ n _ h => exact absurd (hname ▸ proseFlags_names h) (by decide)
  | claim n hn h => exact ⟨n, hn, h⟩

end RfpPlatform.ExplanationFlags
