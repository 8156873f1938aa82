import RfpPlatform.ExplanationFlags
import RfpPlatform.ListPrefixes
import RfpPlatform.PipelineNodes

namespace RfpPlatform.ProseFeedback

open ExceptRules Explanation ExplanationFlags ListPrefixes PipelineNodes PyText

variable {cfg : SynthesisVerification} {output : ExplanationOutput} {chunks : Dict ChunkId String}
  {n : VendorNarrative} {v : ClaimVerification} {vendor : VendorId}

/-- The claims of a narrative that the verifier calls unsupported. -/
def unsupported (n : VendorNarrative) : List ClaimVerification :=
  n.proseVerification.filter (fun v => !v.supported)

/-- The claims of which the feedback has a line, each with the narrative that makes it. -/
def listed (output : ExplanationOutput) : List (VendorNarrative × ClaimVerification) :=
  ((output.vendorNarratives.take 3).flatMap (fun n => (unsupported n).map (fun v => (n, v)))).take 6

/-- The share of the claims that count as supported, as the narrative has it. -/
def supportScore (cfg : SynthesisVerification) (vs : List ClaimVerification) : ℚ :=
  if vs = [] then 1 else round (((vs.filter (trustedSupport cfg)).length : ℚ) / vs.length) 3

/-- The critic blocks the report for the prose of a narrative. -/
def Flagged (cfg : SynthesisVerification) (output : ExplanationOutput) (chunks : Dict ChunkId String)
    (n : VendorNarrative) : Prop :=
  n ∈ output.vendorNarratives ∧ ∃ f ∈ (criticAfterExplanation cfg output chunks).flags,
    f ∈ proseFlags cfg n ∧ f.checkName = "unsupported_prose_claims"

/-- The feedback has a line on a claim of the vendor that was not counted as supported. -/
def Names (cfg : SynthesisVerification) (output : ExplanationOutput) (vendor : VendorId) : Prop :=
  ∃ n v, (n, v) ∈ listed output ∧ n ∈ output.vendorNarratives ∧ n.vendorId = vendor ∧
    v ∈ n.proseVerification ∧ trustedSupport cfg v = false

/-- The feedback on a report names a claim of every vendor that the report is blocked for. -/
def Actionable (cfg : SynthesisVerification) (chunks : Dict ChunkId String) (output : ExplanationOutput) :
    Prop :=
  ∀ n, Flagged cfg output chunks n → Names cfg output n.vendorId

/-- The prose of a narrative is verified, and its score is below the limit for a block. -/
def BelowLimit (cfg : SynthesisVerification) (n : VendorNarrative) : Prop :=
  cfg.enabled = true ∧ n.proseVerification ≠ [] ∧ n.proseVerificationScore < cfg.blockBelow

/-- One of the first three narratives is the vendor's and has a claim that the verifier calls
unsupported, with fewer than six such claims in front of it. -/
def InReach (narratives : List VendorNarrative) (vendor : VendorId) : Prop :=
  ∃ before n after, narratives = before ++ n :: after ∧ n.vendorId = vendor ∧ before.length < 3 ∧
    (before.flatMap unsupported).length < 6 ∧ ∃ v ∈ n.proseVerification, v.supported = false

section Score

/-- The score that a narrative gets with its verifications is the share that counts as supported. -/
theorem verifyNarrativeClaims_score {svc : NarrationServices} {prompt : VerificationPrompt}
    {vs : List ClaimVerification} {q : ℚ} (h : verifyNarrativeClaims cfg svc prompt = .ok (vs, q)) :
    q = supportScore cfg vs := by
  simp only [verifyNarrativeClaims] at h
  split at h
  · cases h
    rfl
  · split at h
    · cases h
      rfl
    · obtain ⟨verifications, _, h⟩ := bind_eq_ok.mp h
      split at h
      · cases pure_eq_ok.mp h
        rfl
      · rename_i hne
        cases pure_eq_ok.mp h
        rw [supportScore, if_neg hne]

theorem generateVendorNarrative_score {svc : NarrationServices} {prompt : NarrativePrompt}
    {rejected : Bool} {evaluation : EvaluationOutput} {decision : DecisionOutput}
    (h : generateVendorNarrative cfg svc prompt rejected evaluation decision = .ok n) :
    n.proseVerificationScore = supportScore cfg n.proseVerification := by
  simp only [generateVendorNarrative, bind_eq_ok] at h
  obtain ⟨synthesis, _, ⟨vs, q⟩, hverified, h⟩ := h
  cases pure_eq_ok.mp h
  exact verifyNarrativeClaims_score hverified

end Score

section Feedback

theorem proseSamples_eq (narratives : List VendorNarrative) :
    narratives.flatMap (fun n =>
      (n.proseVerification.filter (fun v => !v.supported)).map (proseSample n)) =
      (narratives.flatMap (fun n => (unsupported n).map (fun v => (n, v)))).map
        (fun p => proseSample p.1 p.2) := by
  rw [List.map_flatMap]
  simp only [List.map_map]
  rfl

/-- The lines of the feedback that are on the listed claims stand one after another. -/
theorem buildCriticFeedback_lines (output : ExplanationOutput) : ∃ head tail,
    buildCriticFeedback output =
      join "\n" (head ++ (listed output).map (fun p => proseSample p.1 p.2) ++ tail) := by
  simp only [buildCriticFeedback, proseSamples_eq]
  by_cases hnone : (output.vendorNarratives.take 3).flatMap
      (fun n => (unsupported n).map (fun v => (n, v))) = []
  · rw [listed, hnone]
    exact ⟨_, [], by rw [List.take_nil, List.map_nil, List.append_nil, List.append_nil]⟩
  · rw [if_neg (fun h => hnone (List.map_eq_nil_iff.mp h)), listed, ← List.map_take]
    exact ⟨_, _, congrArg (join "\n") (congrArg (· ++ _) (List.append_cons _ _ _))⟩

/-- A listed claim is named in the text of the feedback. -/
theorem infix_buildCriticFeedback (h : (n, v) ∈ listed output) :
    (proseSample n v).toList <:+: (buildCriticFeedback output).toList := by
  obtain ⟨head, tail, hlines⟩ := buildCriticFeedback_lines output
  rw [hlines, join, String.toList_intercalate]
  refine infix_intercalate (List.mem_map_of_mem ?_)
  rw [List.mem_append, List.mem_append]
  exact Or.inl (Or.inr (List.mem_map.mpr ⟨(n, v), h, rfl⟩))

theorem exists_listed_iff : (∃ n v, (n, v) ∈ listed output ∧ n.vendorId = vendor) ↔
    InReach output.vendorNarratives vendor := by
  have hlength : ∀ before : List VendorNarrative,
      (before.flatMap (fun n => (unsupported n).map (fun v => (n, v)))).length =
        (before.flatMap unsupported).length := by
    intro before
    simp [List.length_flatMap]
  have hreach : ∀ n : VendorNarrative, unsupported n ≠ [] ↔ ∃ v ∈ n.proseVerification, v.supported = false := by
    intro n
    simp [unsupported, List.filter_eq_nil_iff]
  constructor
  · rintro ⟨n, v, hlisted, rfl⟩
    obtain ⟨before, n', after, hsplit, hbefore, hmem⟩ := mem_take_flatMap_take.mp hlisted
    rw [hlength] at hmem
    obtain ⟨hroom, hne⟩ := take_ne_nil_iff.mp ⟨_, hmem⟩
    obtain ⟨v', _, hpair⟩ := List.mem_map.mp (List.mem_of_mem_take hmem)
    obtain ⟨rfl, rfl⟩ := Prod.mk.inj hpair
    exact ⟨before, n', after, hsplit, rfl, hbefore, by omega,
      (hreach n').mp fun hnil => hne (by rw [hnil, List.map_nil])⟩
  · rintro ⟨before, n, after, hsplit, rfl, hbefore, hroom, hv⟩
    have hne : (unsupported n).map (fun v => (n, v)) ≠ [] :=
      fun hnil => (hreach n).mpr hv (List.map_eq_nil_iff.mp hnil)
    have hpos : 0 < 6 - (before.flatMap unsupported).length := by omega
    obtain ⟨p, hp⟩ := take_ne_nil_iff.mpr ⟨hpos, hne⟩
    obtain ⟨v, _, rfl⟩ := List.mem_map.mp (List.mem_of_mem_take hp)
    refine ⟨n, v, mem_take_flatMap_take.mpr ⟨before, n, after, hsplit, hbefore, ?_⟩, rfl⟩
    rw [hlength]
    exact hp

theorem listed_mem (h : (n, v) ∈ listed output) :
    n ∈ output.vendorNarratives ∧ v ∈ n.proseVerification ∧ v.supported = false := by
  obtain ⟨n', hn, hp⟩ := List.mem_flatMap.mp (List.mem_of_mem_take h)
  obtain ⟨v', hv, hpair⟩ := List.mem_map.mp hp
  obtain ⟨rfl, rfl⟩ := Prod.mk.inj hpair
  obtain ⟨hverified, hunsupported⟩ := List.mem_filter.mp hv
  exact ⟨List.mem_of_mem_take hn, hverified, by simpa using hunsupported⟩

theorem names_iff : Names cfg output vendor ↔ InReach output.vendorNarratives vendor := by
  rw [← exists_listed_iff]
  constructor
  · rintro ⟨n, v, hlisted, _, hvendor, _⟩
    exact ⟨n, v, hlisted, hvendor⟩
  · rintro ⟨n, v, hlisted, hvendor⟩
    obtain ⟨hn, hv, hunsupported⟩ := listed_mem hlisted
    exact ⟨n, v, hlisted, hn, hvendor, hv, by rw [trustedSupport, hunsupported, Bool.false_and]⟩

end Feedback

theorem flagged_iff : Flagged cfg output chunks n ↔ n ∈ output.vendorNarratives ∧ BelowLimit cfg n := by
  constructor
  · rintro ⟨hn, f, hf, hprose, hname⟩
    obtain ⟨henabled, _⟩ := prose_of_name hf hname
    rw [proseFlags] at hprose
    split at hprose
    · cases hprose
    · rename_i hne
      simp only at hprose
      split at hprose
      · rename_i hbelow
        exact ⟨hn, henabled, hne, hbelow⟩
      · obtain ⟨_, rfl⟩ := IngestionCritic.mem_flagIf.mp hprose
        exact absurd hname (by simp [makeFlag])
  · rintro ⟨hn, henabled, hne, hbelow⟩
    obtain ⟨f, hf, hname⟩ : ∃ f ∈ proseFlags cfg n, f.checkName = "unsupported_prose_claims" := by
      simp only [proseFlags, if_neg hne, if_pos hbelow]
      exact ⟨_, List.mem_singleton_self _, rfl⟩
    exact ⟨hn, f, mem_of_prose henabled hn hf, hf, hname⟩

/-- The feedback names a claim of every vendor that the report is blocked for exactly where each of
them has a claim that the verifier itself calls unsupported within the reach of the feedback. -/
theorem actionable_iff (cfg : SynthesisVerification) (chunks : Dict ChunkId String)
    (output : ExplanationOutput) : Actionable cfg chunks output ↔
      ∀ n ∈ output.vendorNarratives, BelowLimit cfg n → InReach output.vendorNarratives n.vendorId := by
  constructor
  · intro h n hn hbelow
    exact names_iff.mp (h n (flagged_iff.mpr ⟨hn, hbelow⟩))
  · intro h n hflagged
    obtain ⟨hn, hbelow⟩ := flagged_iff.mp hflagged
    exact names_iff.mpr (h n hn hbelow)

section Sample

def shipped : SynthesisVerification := ⟨true, 7 / 10, 7 / 10, 9 / 10⟩

/-- A claim that the verifier calls supported without any confidence. -/
def unsure : ClaimVerification where
  claimText := "24/7 support in London"
  supported := true
  reason := "implied by chunk c1"
  confidence := ⟨0, not_zero_lt_zero, not_one_lt_zero⟩

def unsureNarrative : VendorNarrative where
  vendorId := "acme"
  vendorName := "Acme"
  executiveSummary := "Acme has 24/7 support in London."
  complianceNarrative := ""
  scoringNarrative := ""
  recommendationRationale := ""
  groundedClaims := [⟨"ISO 27001 is held", "We hold ISO 27001.", "c1"⟩]
  ungroundedClaimsRemoved := 0
  systemFacts := []
  ungroundedExamples := []
  proseVerification := [unsure]
  proseVerificationScore := supportScore shipped [unsure]

def unsureReport : ExplanationOutput where
  executiveSummary := ""
  vendorNarratives := [unsureNarrative]
  methodologyNote := methodologyNote
  limitations := []
  groundingCompleteness := 1
  reportConfidence := 1

theorem unsure_below : BelowLimit shipped unsureNarrative := by
  refine ⟨rfl, List.cons_ne_nil _ _, ?_⟩
  decide +kernel

/-- The report is blocked for a claim that no line of the feedback is on: the text is the one for a
report without narratives. -/
theorem unsure_unnamed : Flagged shipped unsureReport ∅ unsureNarrative ∧
    buildCriticFeedback unsureReport = buildCriticFeedback { unsureReport with vendorNarratives := [] } ∧
    ¬ ∀ cfg chunks output, Actionable cfg chunks output := by
  have hflagged : Flagged shipped unsureReport ∅ unsureNarrative :=
    flagged_iff.mpr ⟨List.mem_singleton_self _, unsure_below⟩
  refine ⟨hflagged, rfl, fun h => ?_⟩
  obtain ⟨n, v, hlisted, _⟩ := h shipped ∅ unsureReport unsureNarrative hflagged
  have hnone : listed unsureReport = [] := by decide +kernel
  rw [hnone] at hlisted
  cases hlisted

end Sample

end RfpPlatform.ProseFeedback
