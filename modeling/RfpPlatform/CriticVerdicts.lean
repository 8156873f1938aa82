import RfpPlatform.CriticRetry

namespace RfpPlatform.CriticVerdicts

open CriticRetry

variable {flags extra : List CriticFlag}

/-- The verdict on which every consumer stops. -/
def Stops (flags : List CriticFlag) : Prop := verdict flags = .blocked

instance : Decidable (Stops flags) := inferInstanceAs (Decidable (_ = _))

def HasHard (flags : List CriticFlag) : Prop := ∃ f ∈ flags, f.severity = .hard

def HardAsksEscalation (flags : List CriticFlag) : Prop :=
  ∃ f ∈ flags, f.severity = .hard ∧ f.asksEscalation = true

theorem any_isHard : flags.any CriticFlag.isHard = true ↔ HasHard flags := by
  simp [HasHard, CriticFlag.isHard, List.any_eq_true]

theorem any_asksEscalation :
    (flags.filter CriticFlag.isHard).any CriticFlag.asksEscalation = true ↔
      HardAsksEscalation flags := by
  simp only [HardAsksEscalation, CriticFlag.isHard, List.any_eq_true, List.mem_filter,
    decide_eq_true_eq, and_assoc]

theorem HasHard.mono (hsub : flags ⊆ extra) (h : HasHard flags) : HasHard extra := by
  obtain ⟨f, hf, hhard⟩ := h
  exact ⟨f, hsub hf, hhard⟩

theorem HardAsksEscalation.mono (hsub : flags ⊆ extra) (h : HardAsksEscalation flags) :
    HardAsksEscalation extra := by
  obtain ⟨f, hf, hflag⟩ := h
  exact ⟨f, hsub hf, hflag⟩

theorem verdict_eq_escalated : verdict flags = .escalated ↔ HardAsksEscalation flags := by
  rw [← any_asksEscalation]
  unfold verdict
  cases (flags.filter CriticFlag.isHard).any CriticFlag.asksEscalation with
  | true => simp
  | false =>
      cases flags.any CriticFlag.isHard with
      | true => simp
      | false => cases flags.any CriticFlag.isSoft <;> simp

/-- A list of flags stops the pipeline when it has a HARD flag and none of its HARD
flags asks for escalation. -/
theorem stops_iff : Stops flags ↔ HasHard flags ∧ ¬ HardAsksEscalation flags := by
  rw [← any_asksEscalation, ← any_isHard]
  unfold Stops verdict
  cases (flags.filter CriticFlag.isHard).any CriticFlag.asksEscalation with
  | true => simp
  | false =>
      cases flags.any CriticFlag.isHard with
      | true => simp
      | false => cases flags.any CriticFlag.isSoft <;> simp

theorem verdict_criticOutput (agent : String) (flags : List CriticFlag) :
    (criticOutput agent flags).overallVerdict = verdict flags := rfl

/-- `_hard_block_if` raises exactly on the stopping verdict. -/
theorem hardBlockIf_raises_iff (agent context : String) :
    hardBlockIf (criticOutput agent flags) context ≠ .ok () ↔ Stops flags := by
  rw [Ne, hardBlockIf_eq_ok, verdict_criticOutput, not_not]
  exact Iff.rfl

/-- An attempt whose critic does not stop leaves `run_with_critic_retry` as an output,
and with no retries left one that stops leaves it as a failed vendor. -/
theorem runWithCriticRetry_stops_iff {α : Type*} (agent : String) (vendorId : VendorId)
    (output : α) :
    (∃ entry, (runWithCriticRetry agent vendorId
      (fun _ _ => .ok (output, criticOutput agent flags)) 0).result = .inl entry) ↔
      Stops flags := by
  by_cases hs : Stops flags
  · have hall : ∀ (n : Nat) (fb : String), ∃ out critic,
        (fun _ _ => .ok (output, criticOutput agent flags) : AttemptFn α) n fb = .ok (out, critic) ∧
          critic.overallVerdict = .blocked := fun _ _ => ⟨output, _, rfl, hs⟩
    exact ⟨fun _ => hs, fun _ => attemptFrom_all_blocked hall⟩
  · have hfirst : (runWithCriticRetry agent vendorId
        (fun _ _ => .ok (output, criticOutput agent flags)) 0).result = .inr output :=
      runWithCriticRetry_first rfl hs
    refine ⟨fun h => ?_, fun h => absurd h hs⟩
    obtain ⟨entry, he⟩ := h
    rw [hfirst] at he
    cases he

theorem stops_append_iff (hs : Stops flags) :
    Stops (flags ++ extra) ↔ ¬ HardAsksEscalation extra := by
  obtain ⟨hhard, hno⟩ := stops_iff.mp hs
  rw [stops_iff]
  constructor
  · rintro ⟨_, hn⟩ h
    exact hn (h.mono (List.subset_append_right _ _))
  · intro hn
    refine ⟨hhard.mono (List.subset_append_left _ _), ?_⟩
    rintro ⟨f, hf, hflag⟩
    rcases List.mem_append.mp hf with h | h
    · exact hno ⟨f, h, hflag⟩
    · exact hn ⟨f, h, hflag⟩

/-- No escalation comes in with the larger list: the smaller one has no HARD flag, or
one that asks for escalation itself, or no HARD flag of the larger one asks for it. -/
def NoLateEscalation (flags extra : List CriticFlag) : Prop :=
  (∀ f ∈ flags, f.severity ≠ .hard) ∨
    (∃ f ∈ flags, f.severity = .hard ∧ f.asksEscalation = true) ∨
      ∀ f ∈ extra, f.severity = .hard → f.asksEscalation = false

theorem stops_mono_iff (flags extra : List CriticFlag) (hsub : flags ⊆ extra) :
    (Stops flags → Stops extra) ↔ NoLateEscalation flags extra := by
  have hextra : (∀ f ∈ extra, f.severity = .hard → f.asksEscalation = false) ↔
      ¬ HardAsksEscalation extra := by
    simp only [HardAsksEscalation, not_exists, not_and, Bool.not_eq_true]
  rw [NoLateEscalation, hextra]
  constructor
  · intro hmono
    by_cases hhard : HasHard flags
    · by_cases hesc : HardAsksEscalation flags
      · exact Or.inr (Or.inl hesc)
      · have hstop : Stops extra := hmono (stops_iff.mpr ⟨hhard, hesc⟩)
        exact Or.inr (Or.inr (stops_iff.mp hstop).2)
    · exact Or.inl (fun f hf h => hhard ⟨f, hf, h⟩)
  · intro hcond hs
    obtain ⟨hhard, hno⟩ := stops_iff.mp hs
    rcases hcond with hsoft | hesc | hlarge
    · obtain ⟨f, hf, h⟩ := hhard
      exact absurd h (hsoft f hf)
    · exact absurd hesc hno
    · exact stops_iff.mpr ⟨hhard.mono hsub, hlarge⟩

theorem emptyRankingFlag_asksEscalation (vendorIds : List VendorId) :
    (emptyRankingFlag vendorIds).asksEscalation = false := by
  change PyText.occurs _ (PyText.lower "Cannot proceed to Decision Agent without a ranking.") = _
  decide

theorem vendorsMissingFlag_asksEscalation (missing : List VendorId) :
    (vendorsMissingFlag missing).asksEscalation = true := by
  change PyText.occurs _ (PyText.lower ("Evaluation likely failed for these vendors. " ++
    "Do not proceed to Decision Agent — ranking is incomplete. Escalate to human review.")) = _
  decide +kernel

theorem emptyRankingFlag_stops (vendorIds : List VendorId) :
    Stops [emptyRankingFlag vendorIds] := by
  refine stops_iff.mpr ⟨⟨_, List.mem_singleton_self _, rfl⟩, ?_⟩
  rintro ⟨f, hf, _, hesc⟩
  rw [List.mem_singleton.mp hf, emptyRankingFlag_asksEscalation] at hesc
  cases hesc

theorem stops_mono_iff_ranking :
    (Stops [emptyRankingFlag ["v1"]] →
        Stops [emptyRankingFlag ["v1"], vendorsMissingFlag ["v1"]]) ↔
      NoLateEscalation [emptyRankingFlag ["v1"]]
        [emptyRankingFlag ["v1"], vendorsMissingFlag ["v1"]] :=
  stops_mono_iff [emptyRankingFlag ["v1"]] [emptyRankingFlag ["v1"], vendorsMissingFlag ["v1"]]
    (by simp)

/-- A ranking with no vendor stops the run on its own account, and no longer does once
the vendors that it lacks are flagged as well. -/
theorem stops_not_mono : ¬ ∀ F G : List CriticFlag, F ⊆ G → Stops F → Stops G := by
  intro h
  have hstop := h [emptyRankingFlag ["v1"]] [emptyRankingFlag ["v1"], vendorsMissingFlag ["v1"]]
    (by simp) (emptyRankingFlag_stops ["v1"])
  exact (stops_iff.mp hstop).2 ⟨vendorsMissingFlag ["v1"], by simp, rfl,
    vendorsMissingFlag_asksEscalation ["v1"]⟩

end RfpPlatform.CriticVerdicts
