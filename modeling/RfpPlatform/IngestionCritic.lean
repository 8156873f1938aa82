import RfpPlatform.CriticVerdicts
import RfpPlatform.Ingestion

namespace RfpPlatform.IngestionCritic

open CriticVerdicts Ingestion

variable {threshold : Nat} {output : IngestionOutput}

/-- Enough chunks with a finding for the ingestion critic. -/
def Poisoned (threshold : Nat) (findings : List InjectionFinding) : Prop :=
  findings ≠ [] ∧ threshold ≤ (findings.map InjectionFinding.chunkId).dedup.length

theorem mem_flagIf {c : Prop} [Decidable c] {f g : CriticFlag} : g ∈ flagIf c f ↔ c ∧ g = f := by
  by_cases hc : c
  · rw [flagIf, if_pos hc, List.mem_singleton]
    exact (and_iff_right hc).symm
  · rw [flagIf, if_neg hc]
    exact ⟨(fun h => nomatch h), (fun h => absurd h.1 hc)⟩

theorem mem_injectionFlags {findings : List InjectionFinding} {f : CriticFlag}
    (h : f ∈ injectionFlags threshold findings) :
    Poisoned threshold findings ∧ f.severity = .hard ∧ f.recommendation = quarantineRecommendation := by
  cases findings with
  | nil => cases h
  | cons sample rest =>
      obtain ⟨hle, rfl⟩ := mem_flagIf.mp h
      exact ⟨⟨List.cons_ne_nil _ _, hle⟩, rfl, rfl⟩

theorem injectionFlags_ne_nil {findings : List InjectionFinding} (h : Poisoned threshold findings) :
    ∃ f ∈ injectionFlags threshold findings, f.severity = .hard := by
  obtain ⟨hne, hle⟩ := h
  cases findings with
  | nil => exact absurd rfl hne
  | cons sample rest => exact ⟨_, mem_flagIf.mpr ⟨hle, rfl⟩, rfl⟩

theorem makeFlag_quiet {severity : CriticSeverity} {agent check description evidence text : String}
    {auto : Bool} (h : PyText.occurs "escalate".toList (PyText.lower text) = false) :
    (makeFlag severity agent check description evidence text auto).asksEscalation = false := h

theorem mem_qualityFlags {q : ℚ} {f : CriticFlag} (h : f ∈ qualityFlags q) :
    (q < 4 / 10 ∧ f.severity = .hard ∨ f.severity = .soft) ∧ f.asksEscalation = false := by
  rw [qualityFlags] at h
  split at h
  · rename_i hq
    rw [List.mem_singleton.mp h]
    exact ⟨Or.inl ⟨hq, rfl⟩, makeFlag_quiet (by decide +kernel)⟩
  · obtain ⟨_, rfl⟩ := mem_flagIf.mp h
    exact ⟨Or.inr rfl, makeFlag_quiet (by decide +kernel)⟩

theorem qualityFlags_hard {q : ℚ} (h : q < 4 / 10) : ∃ f ∈ qualityFlags q, f.severity = .hard := by
  rw [qualityFlags, if_pos h]
  exact ⟨_, List.mem_singleton_self _, rfl⟩

/-- The recommendations of the ingestion critic are worded so that none of them turns
its block into an escalation. -/
theorem ingestion_flags_never_escalate :
    ∀ f ∈ (criticAfterIngestion threshold output).flags, f.asksEscalation = false := by
  intro f hf
  simp only [criticAfterIngestion, criticOutput, List.mem_append] at hf
  obtain ((hf | hf) | hf) | hf := hf
  · rw [CriticFlag.asksEscalation, (mem_injectionFlags hf).2.2]
    decide +kernel
  · exact (mem_qualityFlags hf).2
  · obtain ⟨_, rfl⟩ := mem_flagIf.mp hf
    exact makeFlag_quiet (by decide +kernel)
  · obtain ⟨_, rfl⟩ := mem_flagIf.mp hf
    exact makeFlag_quiet (by decide +kernel)

theorem criticAfterIngestion_blocked_iff :
    (criticAfterIngestion threshold output).overallVerdict = .blocked ↔
      Poisoned threshold output.injectionFindings ∨ output.qualityScore < 4 / 10 ∨
        requirementResponses output.chunksByType = 0 := by
  have hno : ¬ HardAsksEscalation (criticAfterIngestion threshold output).flags := by
    rintro ⟨f, hf, _, hasks⟩
    rw [ingestion_flags_never_escalate f hf] at hasks
    cases hasks
  have hstops : (criticAfterIngestion threshold output).overallVerdict = .blocked ↔
      HasHard (criticAfterIngestion threshold output).flags := by
    have hverdict : Stops (criticAfterIngestion threshold output).flags ↔ _ := stops_iff
    exact hverdict.trans (and_iff_left hno)
  rw [hstops]
  simp only [criticAfterIngestion, criticOutput]
  constructor
  · rintro ⟨f, hf, hhard⟩
    simp only [List.mem_append] at hf
    obtain ((hf | hf) | hf) | hf := hf
    · exact Or.inl (mem_injectionFlags hf).1
    · rcases (mem_qualityFlags hf).1 with ⟨hq, _⟩ | hsoft
      · exact Or.inr (Or.inl hq)
      · rw [hsoft] at hhard
        cases hhard
    · exact Or.inr (Or.inr (mem_flagIf.mp hf).1)
    · obtain ⟨_, rfl⟩ := mem_flagIf.mp hf
      cases hhard
  · simp only [HasHard, List.mem_append]
    rintro (h | h | h)
    · obtain ⟨f, hf, hhard⟩ := injectionFlags_ne_nil h
      exact ⟨f, Or.inl (Or.inl (Or.inl hf)), hhard⟩
    · obtain ⟨f, hf, hhard⟩ := qualityFlags_hard h
      exact ⟨f, Or.inl (Or.inl (Or.inr hf)), hhard⟩
    · exact ⟨_, Or.inl (Or.inr (mem_flagIf.mpr ⟨h, rfl⟩)), rfl⟩

end RfpPlatform.IngestionCritic
