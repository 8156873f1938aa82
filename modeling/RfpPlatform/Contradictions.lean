import RfpPlatform.FallbackGrounding
import RfpPlatform.IngestionCritic
import RfpPlatform.VotedChecks

namespace RfpPlatform.Contradictions

open CheckRecords Decision ExceptRules IngestionCritic Json MandatoryChecks SelfConsistency VotedChecks

/-- The replies that a check is decided on: the first, and the resamples where it is borderline. -/
def sampled (sc : Settings) (replies : Decisions) : List Members :=
  match objectOf failSafeReply replies.primary with
  | none => []
  | some first =>
      match weightOf (1 / 2) first with
      | none => [first]
      | some confidence =>
          if sc.Borderline confidence then first :: resampled sc replies else [first]

/-- The reply whose text the decision is made of: the first one, or after a vote the first of the
most confident ones that voted for the winner. -/
def carriedReply (sc : Settings) (replies : Decisions) : Members :=
  match objectOf failSafeReply replies.primary with
  | none => failSafeReply
  | some first =>
      match weightOf (1 / 2) first with
      | none => first
      | some confidence =>
          if sc.Borderline confidence then
            pickMatching (weighed (first :: resampled sc replies))
          else first

/-- What a reply lists under `contradictions_found`. -/
def reported (parsed : Members) : List Json :=
  match contradictions parsed with
  | .arr xs => xs
  | v => if v.truthy then [v] else []

/-- The critic flags the contradiction, and no check that is merely unproven rejects the vendor. -/
structure Seen (d : ComplianceDecision) : Prop where
  flagged : ∀ output : EvaluationOutput, d ∈ output.complianceDecisions →
    ∃ f ∈ (criticAfterEvaluation output).flags, f.checkName = "contradictions_in_evidence"
  spared : ∀ decisions : List ComplianceDecision, d ∈ decisions →
    ∀ e ∈ rejectingDecisions decisions, e.decision = .fail

/-- What a sampled reply reports as contradictory rules a PASS out, and is recorded. -/
def Dominate (samples : List Members) (d : ComplianceDecision) : Prop :=
  ∀ p ∈ samples, reported p ≠ [] →
    d.decision ≠ .pass ∧ (∀ c ∈ reported p, ∃ text ∈ d.contradictionsFound, c = .str text) ∧ Seen d

variable {cfg : EvaluationSettings} {replies : CheckReplies} {call : CheckCall}
  {d : ComplianceDecision}

theorem seen_of_recorded (h : d.contradictionsFound ≠ []) : Seen d := by
  constructor
  · intro output hd
    refine ⟨_, List.mem_append_left _ (List.mem_flatMap.mpr ⟨d, hd,
      List.mem_append_right _ (mem_flagIf.mpr ⟨h, rfl⟩)⟩), rfl⟩
  · intro decisions hd e he
    have hany : decisions.any (fun d => !d.contradictionsFound.isEmpty) = true := by
      rw [List.any_eq_true]
      exact ⟨d, hd, by simpa using h⟩
    obtain ⟨_, hrejects⟩ := List.mem_filter.mp he
    rw [hany] at hrejects
    simpa [rejects] using hrejects

theorem reported_congr {p q : Members}
    (h : member "contradictions_found" p = member "contradictions_found" q) :
    reported p = reported q := by
  simp only [reported, contradictions, Json.get, h]

theorem answer_reported : reported (answer cfg replies) =
    reported (carriedReply cfg.selfConsistency replies.toDecisions) := by
  apply reported_congr
  cases hprimary : objectOf failSafeReply replies.primary with
  | none => simp only [answer, vote, carriedReply, hprimary]
  | some first =>
      cases hweight : weightOf (1 / 2) first with
      | none => simp only [answer, vote, carriedReply, hprimary, hweight]
      | some confidence =>
          simp only [answer, vote, carriedReply, hprimary, hweight]
          split
          · exact member_representative (by decide +kernel) (by decide +kernel)
          · rfl

theorem reported_eq_nil {p : Members} (h : (contradictions p).truthy = false) : reported p = [] := by
  rw [reported]
  split
  · rename_i xs hc
    rw [hc, truthy, Bool.not_eq_false', List.isEmpty_iff] at h
    exact h
  · exact if_neg (ne_true_of_eq_false h)

/-- A decision records what the answer reports, and does not pass where there is any of it. -/
theorem recorded_reported (h : evaluateMandatoryCheck cfg replies call = .ok d) :
    reported (answer cfg replies) = d.contradictionsFound.map Json.str ∧
      (d.contradictionsFound ≠ [] → d.decision = .insufficientEvidence) := by
  obtain ⟨_, houtcome⟩ := evaluateMandatoryCheck_outcome h
  have hrecorded := houtcome.contradictions
  have hreported : reported (answer cfg replies) = d.contradictionsFound.map Json.str := by
    rw [reported, contradictions]
    rw [Json.get] at hrecorded ⊢
    cases hmember : member "contradictions_found" (answer cfg replies) with
    | none =>
        rw [hmember, Option.getD_none, Json.arr.injEq] at hrecorded
        rw [← hrecorded]
        rfl
    | some v =>
        rw [hmember, Option.getD_some] at hrecorded
        rw [hrecorded]
        rfl
  refine ⟨hreported, fun hne => ?_⟩
  have htruthy : (contradictions (answer cfg replies)).truthy = true := by
    by_contra hfalse
    rw [reported_eq_nil (Bool.not_eq_true _ ▸ hfalse), eq_comm, List.map_eq_nil_iff] at hreported
    exact hne hreported
  cases houtcome with
  | answered _ hdecision _ => rw [hdecision, proposedDecision, if_pos htruthy]
  | turned hfalls _ _ _ _ _ =>
      have hnone := hfalls.2.1
      rw [htruthy] at hnone
      cases hnone

/-- Contradictions dominate exactly when the reply that is carried on reports all those that any
sampled reply does. -/
theorem dominate_iff (h : evaluateMandatoryCheck cfg replies call = .ok d) :
    Dominate (sampled cfg.selfConsistency replies.toDecisions) d ↔
      ∀ p ∈ sampled cfg.selfConsistency replies.toDecisions, ∀ c ∈ reported p,
        c ∈ reported (carriedReply cfg.selfConsistency replies.toDecisions) := by
  obtain ⟨hrecorded, hdecision⟩ := recorded_reported h
  rw [answer_reported] at hrecorded
  simp only [hrecorded, List.mem_map]
  constructor
  · intro hdominate p hp c hc
    obtain ⟨_, hall, _⟩ := hdominate p hp (List.ne_nil_of_mem hc)
    obtain ⟨text, htext, rfl⟩ := hall c hc
    exact ⟨text, htext, rfl⟩
  · intro hcarried p hp hreports
    obtain ⟨c, hc⟩ := List.exists_mem_of_ne_nil _ hreports
    obtain ⟨text, htext, _⟩ := hcarried p hp c hc
    have hne : d.contradictionsFound ≠ [] := List.ne_nil_of_mem htext
    refine ⟨?_, fun c hc => ?_, seen_of_recorded hne⟩
    · rw [hdecision hne]
      decide
    · obtain ⟨text, htext, rfl⟩ := hcarried p hp c hc
      exact ⟨text, htext, rfl⟩

section Sample

open FailClosed FallbackGrounding

def passing (confidence : ℚ) (found : List Json) : LlmReply :=
  .json (.obj [("decision", .str "pass"), ("confidence", .num (.fin confidence)),
    ("contradictions_found", .arr found)])

/-- The first reply finds the certificate expired. Two others, one of them more confident, do not
if `found` is empty. -/
def threeReplies (found : List Json) : CheckReplies where
  primary := passing (3 / 5) [.str "certificate expired"]
  sample := fun seed => if seed = 1 then passing (7 / 10) found else passing (11 / 20) []
  retrieve := fun _ _ => .error ⟨.external, "down"⟩
  judge := fun _ _ => ⟨false, ⟨1, not_one_lt_zero, not_one_lt_one⟩⟩
  verify := fun _ _ => undecidedReply

theorem sampled_three (found : List Json) :
    [("decision", .str "pass"), ("confidence", .num (.fin (3 / 5))),
      ("contradictions_found", .arr [.str "certificate expired"])] ∈
      sampled shippedSettings (threeReplies found).toDecisions := by
  unfold sampled
  simp only [threeReplies, passing, objectOf]
  split
  · exact List.mem_singleton_self _
  · split
    · exact List.mem_cons_self
    · exact List.mem_singleton_self _

theorem carried_of_three {p : Members}
    (hp : p ∈ sampled shippedSettings (threeReplies [.str "certificate expired"]).toDecisions)
    {c : Json} (hc : c ∈ reported p) : c = .str "certificate expired" := by
  have hreplies : ∀ seed q, objectOf failSafeReply
      ((threeReplies [.str "certificate expired"]).sample seed) = some q →
      ∀ c ∈ reported q, c = .str "certificate expired" := by
    intro seed q hq c hc
    simp only [threeReplies] at hq
    split at hq
    · cases Option.some.inj hq
      exact List.mem_singleton.mp hc
    · cases Option.some.inj hq
      cases hc
  unfold sampled at hp
  simp only [threeReplies, passing, objectOf] at hp
  have hfirst : ∀ c ∈ reported [("decision", .str "pass"), ("confidence", .num (.fin (3 / 5))),
      ("contradictions_found", .arr [.str "certificate expired"])],
      c = .str "certificate expired" := fun c hc => List.mem_singleton.mp hc
  split at hp
  · cases List.mem_singleton.mp hp
    exact hfirst c hc
  · split at hp
    · rcases List.mem_cons.mp hp with rfl | hp
      · exact hfirst c hc
      · obtain ⟨seed, _, hq⟩ := List.mem_filterMap.mp hp
        exact hreplies seed p hq c hc
    · cases List.mem_singleton.mp hp
      exact hfirst c hc

theorem shared_contradiction_dominates : ∃ d,
    evaluateMandatoryCheck shippedEvaluation (threeReplies [.str "certificate expired"])
      isoCheckCall = .ok d ∧
    Dominate (sampled shippedSettings (threeReplies [.str "certificate expired"]).toDecisions) d := by
  have hrun : returned (fun d => d.contradictionsFound = ["certificate expired"])
      (evaluateMandatoryCheck shippedEvaluation (threeReplies [.str "certificate expired"])
        isoCheckCall) = true := by
    decide +kernel
  obtain ⟨d, hok, hfound⟩ := of_returned hrun
  have hrecorded := (recorded_reported hok).1
  rw [answer_reported, of_decide_eq_true hfound] at hrecorded
  refine ⟨d, hok, (dominate_iff hok).mpr fun p hp c hc => ?_⟩
  rw [carried_of_three hp hc, hrecorded]
  exact List.mem_singleton_self _

theorem losing_contradiction_dropped : ¬ ∀ (cfg : EvaluationSettings) (replies : CheckReplies)
    (call : CheckCall) (d : ComplianceDecision), evaluateMandatoryCheck cfg replies call = .ok d →
      Dominate (sampled cfg.selfConsistency replies.toDecisions) d := by
  intro h
  have hrun : returned (fun d => d.decision = .pass)
      (evaluateMandatoryCheck shippedEvaluation (threeReplies []) isoCheckCall) = true := by
    decide +kernel
  obtain ⟨d, hok, hpass⟩ := of_returned hrun
  exact (h _ _ _ d hok _ (sampled_three []) (List.cons_ne_nil _ _)).1 (of_decide_eq_true hpass)

end Sample

end RfpPlatform.Contradictions
