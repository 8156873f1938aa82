import RfpPlatform.FoldRuns
import RfpPlatform.ScoreTotals
import RfpPlatform.VendorOrder

namespace RfpPlatform.UnassessedWeight

open Comparator Decision DecisionOrder ExceptRules Json MandatoryChecks PyText ScoreTotals
  SelfConsistency VendorOrder
open Evaluation (EvaluationServices VendorCall ScoreOutcome factsForCriterion runEvaluationAgent
  scoreCriterion truncated unscoredReply)

section Lists

variable {α : Type*} {P Q : α → Prop} {xs : List α} {x : α}

/-- Some element has the property, and all behind it are such as to leave it in force. -/
def LastsFrom (P Q : α → Prop) (xs : List α) : Prop :=
  ∃ before x after, xs = before ++ x :: after ∧ P x ∧ ∀ y ∈ after, Q y

theorem not_lastsFrom_nil : ¬ LastsFrom P Q [] := by
  rintro ⟨before, x, after, hsplit, _⟩
  cases List.append_eq_nil_iff.mp hsplit.symm |>.2

theorem lastsFrom_concat : LastsFrom P Q (xs ++ [x]) ↔ P x ∨ (Q x ∧ LastsFrom P Q xs) := by
  constructor
  · rintro ⟨before, y, after, hsplit, hy, hafter⟩
    induction after using List.reverseRecOn with
    | nil =>
        obtain ⟨_, hlast⟩ := List.append_inj' hsplit rfl
        cases hlast
        exact Or.inl hy
    | append_singleton after z _ =>
        rw [← List.cons_append, ← List.append_assoc] at hsplit
        obtain ⟨hxs, hlast⟩ := List.append_inj' hsplit rfl
        cases hlast
        refine Or.inr ⟨hafter x (List.mem_append_right _ (List.mem_singleton_self x)), before, y,
          after, hxs, hy, ?_⟩
        intro w hw
        exact hafter w (List.mem_append_left _ hw)
  · rintro (hx | ⟨hx, before, y, after, rfl, hy, hafter⟩)
    · exact ⟨xs, x, [], rfl, hx, fun y hy => absurd hy List.not_mem_nil⟩
    · refine ⟨before, y, after ++ [x], by rw [List.append_assoc, List.cons_append], hy, ?_⟩
      intro w hw
      rcases List.mem_append.mp hw with hold | hnew
      · exact hafter w hold
      · rwa [List.mem_singleton.mp hnew]

theorem get?_ofPairs_concat {κ β : Type*} [DecidableEq κ] (ps : List (κ × β)) (a b : κ) (v : β) :
    (Dict.ofPairs (ps ++ [(a, v)])).get? b =
      if b = a then some v else (Dict.ofPairs ps).get? b := by
  have hset : Dict.ofPairs (ps ++ [(a, v)]) = (Dict.ofPairs ps).set a v := by
    rw [Dict.ofPairs, KeyedTable.upsertAll, List.foldl_append]
    rfl
  rw [hset]
  by_cases hb : b = a
  · rw [if_pos hb, hb, Dict.get?_set_self]
  · rw [if_neg hb, Dict.get?_set_ne hb]

end Lists

section Replies

/-- The fields of a reply from which a score can be made. -/
structure Scorable (parsed : Members) : Prop where
  score : ∃ number n, ((get parsed "raw_score" .null).orElse (.num 0)).toFloat = .ok number ∧
    truncated number = .ok n
  confidence : ∃ certainty c, (get parsed "confidence" (.num (.fin (1 / 2)))).toFloat =
    .ok certainty ∧ Confidence.of? certainty = some c
  variance : ∃ variance, (get parsed "variance_estimate" (.num 1)).toFloat = .ok variance
  band : ∃ band, (get parsed "rubric_band_applied" (.str "0-2")).asString = some band
  evidence : ∃ quotes, ((get parsed "evidence_used" .null).orElse (.arr [])).asStrings = some quotes
  rationale : ∃ rationale, (get parsed "score_rationale" (.str "")).asString = some rationale

/-- The model answers, with a text that is no JSON or with an object of such fields. -/
def Readable (reply : LlmReply) : Prop :=
  ∃ parsed, objectOf unscoredReply reply = some parsed ∧ Scorable parsed

variable {criterion : ScoringCriterion} {relevant : List FactRow} {v : VendorId} {reply : LlmReply}

/-- Scoring a criterion returns when it has no facts or the reply is readable. -/
theorem scoreCriterion_returns : (∃ score, scoreCriterion criterion relevant v reply = .ok score) ↔
    relevant = [] ∨ Readable reply := by
  by_cases hnone : relevant = []
  · refine iff_of_true ⟨_, if_pos hnone⟩ (Or.inl hnone)
  · rw [scoreCriterion, if_neg hnone, or_iff_right hnone]
    simp only [bind_eq_ok, pure_eq_ok, orRaise_eq_ok]
    constructor
    · rintro ⟨_, value, hvalue, parsed, hparsed, number, hnumber, n, hn, certainty, hcertainty,
        variance, hvariance, c, hc, band, hband, quotes, hquotes, rationale, hrationale, _⟩
      refine ⟨parsed, parseReply_asObject.mp (bind_eq_ok.mpr ⟨value, hvalue, hparsed⟩), ?_⟩
      exact ⟨⟨number, n, hnumber, hn⟩, ⟨certainty, c, hcertainty, hc⟩, ⟨variance, hvariance⟩,
        ⟨band, hband⟩, ⟨quotes, hquotes⟩, ⟨rationale, hrationale⟩⟩
    · rintro ⟨parsed, hobject, hfields⟩
      obtain ⟨value, hvalue, hparsed⟩ := bind_eq_ok.mp (parseReply_asObject.mpr hobject)
      obtain ⟨number, n, hnumber, hn⟩ := hfields.score
      obtain ⟨certainty, c, hcertainty, hc⟩ := hfields.confidence
      obtain ⟨variance, hvariance⟩ := hfields.variance
      obtain ⟨band, hband⟩ := hfields.band
      obtain ⟨quotes, hquotes⟩ := hfields.evidence
      obtain ⟨rationale, hrationale⟩ := hfields.rationale
      exact ⟨_, value, hvalue, parsed, hparsed, number, hnumber, n, hn, certainty, hcertainty,
        variance, hvariance, c, hc, band, hband, quotes, hquotes, rationale, hrationale, rfl⟩

end Replies

section Conditions

variable (svc : EvaluationServices) (call : VendorCall) (facts : VendorFacts)

def Factless (p : ScoringCriterion × Nat) : Prop := factsForCriterion call.setup facts p.1 = []

instance (p : ScoringCriterion × Nat) : Decidable (Factless call facts p) :=
  inferInstanceAs (Decidable (_ = _))

/-- A criterion of the identifier has no facts, and none behind it has facts and a readable reply. -/
def Unfounded (criterionId : String) : Prop :=
  LastsFrom (fun p => p.1.criterionId = criterionId ∧ Factless call facts p)
    (fun p => p.1.criterionId = criterionId → Factless call facts p ∨ ¬ Readable (svc.criterion p.2))
    call.setup.scoringCriteria.zipIdx

end Conditions

section Scores

variable {svc : EvaluationServices} {call : VendorCall} {facts : VendorFacts}
  {p : ScoringCriterion × Nat} {score : CriterionScore}

theorem score_isSome : (∃ score, (Evaluation.criterionOutcome svc call facts p).score = some score) ↔
    Factless call facts p ∨ Readable (svc.criterion p.2) := by
  simp only [criterionOutcome_score]
  exact scoreCriterion_returns

theorem not_scored (h : (Evaluation.criterionOutcome svc call facts p).score = none) :
    ¬ Factless call facts p ∧ ¬ Readable (svc.criterion p.2) := by
  apply not_or.mp
  intro hreturns
  obtain ⟨score, hsome⟩ := score_isSome.mpr hreturns
  rw [h] at hsome
  cases hsome

/-- The scores of some criteria, by their identifiers. -/
def scoresById (svc : EvaluationServices) (call : VendorCall) (facts : VendorFacts)
    (ps : List (ScoringCriterion × Nat)) : Dict String CriterionScore :=
  Dict.ofPairs (((ps.map (Evaluation.criterionOutcome svc call facts)).filterMap
    ScoreOutcome.score).map (fun s => (s.criterionId, s)))

theorem scoresById_concat_none {ps : List (ScoringCriterion × Nat)}
    (h : (Evaluation.criterionOutcome svc call facts p).score = none) :
    scoresById svc call facts (ps ++ [p]) = scoresById svc call facts ps := by
  rw [scoresById, List.map_append, List.filterMap_append, List.map_singleton,
    List.filterMap_cons_none h, List.filterMap_nil, List.append_nil]
  rfl

theorem get?_scoresById_concat {ps : List (ScoringCriterion × Nat)} {criterionId : String}
    (h : (Evaluation.criterionOutcome svc call facts p).score = some score) :
    (scoresById svc call facts (ps ++ [p])).get? criterionId =
      if criterionId = p.1.criterionId then some score
      else (scoresById svc call facts ps).get? criterionId := by
  obtain ⟨hid, _, _⟩ := scoreCriterion_eq_ok (criterionOutcome_score.mp h)
  rw [scoresById, List.map_append, List.filterMap_append, List.map_singleton,
    List.filterMap_cons_some h, List.filterMap_nil, List.map_append, List.map_singleton,
    get?_ofPairs_concat, hid]
  rfl

/-- The score that is looked up is a flagged one when the last criterion of the identifier that was
scored has no facts. -/
theorem flagged_iff (criterionId : String) (ps : List (ScoringCriterion × Nat)) :
    (∃ score, (scoresById svc call facts ps).get? criterionId = some score ∧
        score.insufficientEvidence = true) ↔
      LastsFrom (fun p => p.1.criterionId = criterionId ∧ Factless call facts p)
        (fun p => p.1.criterionId = criterionId →
          Factless call facts p ∨ ¬ Readable (svc.criterion p.2)) ps := by
  induction ps using List.reverseRecOn with
  | nil =>
      refine iff_of_false ?_ not_lastsFrom_nil
      rintro ⟨score, hget, _⟩
      cases hget
  | append_singleton ps p ih =>
      rw [lastsFrom_concat, ← ih]
      cases hscore : (Evaluation.criterionOutcome svc call facts p).score with
      | none =>
          obtain ⟨hfacts, hreply⟩ := not_scored hscore
          rw [scoresById_concat_none hscore, or_iff_right (fun h => hfacts h.2),
            and_iff_right (fun _ => Or.inr hreply)]
      | some score =>
          obtain ⟨_, hflag, _⟩ := scoreCriterion_eq_ok (criterionOutcome_score.mp hscore)
          have hreply := score_isSome.mp ⟨score, hscore⟩
          simp only [get?_scoresById_concat hscore]
          by_cases hid : p.1.criterionId = criterionId
          · rw [hid]
            by_cases hfacts : Factless call facts p
            · exact iff_of_true ⟨score, if_pos rfl, hflag.mpr hfacts⟩ (Or.inl ⟨rfl, hfacts⟩)
            · refine iff_of_false ?_ ?_
              · rintro ⟨_, hget, hflagged⟩
                rw [if_pos rfl] at hget
                cases hget
                exact hfacts (hflag.mp hflagged)
              · rintro (⟨_, h⟩ | ⟨h, _⟩)
                · exact hfacts h
                · exact (h rfl).elim hfacts (fun h => h (hreply.resolve_left hfacts))
          · rw [if_neg (Ne.symm hid), or_iff_right (fun h => hid h.1),
              and_iff_right (fun h => absurd h hid)]

/-- Under distinct identifiers, a criterion is unfounded when it has no facts itself. -/
theorem unfounded_iff_of_nodup
    (hnodup : (call.setup.scoringCriteria.map ScoringCriterion.criterionId).Nodup)
    (hp : p ∈ call.setup.scoringCriteria.zipIdx) :
    Unfounded svc call facts p.1.criterionId ↔ Factless call facts p := by
  have hids : (call.setup.scoringCriteria.zipIdx.map (fun q => q.1.criterionId)).Nodup := by
    rwa [← List.zipIdx_map_fst 0 call.setup.scoringCriteria, List.map_map] at hnodup
  constructor
  · rintro ⟨before, q, after, hsplit, ⟨hid, hfacts⟩, _⟩
    rwa [← List.inj_on_of_nodup_map hids (FoldRuns.mem_of_split hsplit) hp hid]
  · intro hfacts
    obtain ⟨before, after, hsplit⟩ := List.append_of_mem hp
    refine ⟨before, p, after, hsplit, ⟨rfl, hfacts⟩, ?_⟩
    intro q hq hid
    rw [hsplit, List.map_append, List.map_cons] at hids
    have hfresh := (List.nodup_cons.mp (List.nodup_append.mp hids).2.1).1
    exact absurd (List.mem_map.mpr ⟨q, hq, hid⟩) hfresh

end Scores

section Surfacing

variable {cfg : EvaluationSettings} {svc : EvaluationServices} {call : VendorCall}
  {output : EvaluationOutput} {critic : CriticOutput} {facts : VendorFacts} {criterionId : String}

end Surfacing

section Main

variable {cfg : EvaluationSettings} {svc : EvaluationServices} {call : VendorCall}
  {output : EvaluationOutput} {critic : CriticOutput} {facts : VendorFacts}

open FailClosed (isoCall isoCriterion of_returned passReply returned servicesReplying
  shippedEvaluation)

end Main

end RfpPlatform.UnassessedWeight
