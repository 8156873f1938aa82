import RfpPlatform.MandatoryChecks

namespace RfpPlatform.CheckRecords

open ExceptRules Json MandatoryChecks SelfConsistency

theorem mapM_asString {xs : List Json} {ss : List String} :
    xs.mapM asString = some ss ↔ xs = ss.map Json.str := by
  induction xs generalizing ss with
  | nil => cases ss <;> simp
  | cons x xs ih =>
      rw [List.mapM_cons]
      constructor
      · intro h
        simp only [Option.bind_eq_bind, Option.bind_eq_some_iff, Option.pure_def,
          Option.some.injEq] at h
        obtain ⟨s, hs, rest, hrest, rfl⟩ := h
        rw [asString_eq_some.mp hs, ih.mp hrest, List.map_cons]
      · intro h
        cases ss with
        | nil => cases h
        | cons s rest =>
            obtain ⟨rfl, hrest⟩ := List.cons.inj h
            rw [asString_eq_some.mpr rfl, ih.mpr hrest]
            rfl

theorem asStrings_eq_some {v : Json} {ss : List String} :
    v.asStrings = some ss ↔ v = .arr (ss.map Json.str) := by
  cases v with
  | arr xs => simp [asStrings, mapM_asString]
  | _ => simp [asStrings]

/-- What a decision carries over from the answer it is made of. -/
structure Records (parsed : Members) (evidence : Json) (d : ComplianceDecision) : Prop where
  reasoning : get parsed "reasoning" (.str "") = .str d.reasoning
  evidence : evidence = .arr (d.evidenceUsed.map Json.str)
  contradictions : get parsed "contradictions_found" (.arr []) =
    .arr (d.contradictionsFound.map Json.str)

variable {cfg : EvaluationSettings} {replies : CheckReplies} {call : CheckCall}
  {d : ComplianceDecision} {parsed : Members} {evidence : Json} {votes : VoteBreakdown}

theorem complianceDecision_records {decision : ComplianceStatus}
    (h : complianceDecision call decision parsed evidence votes = .ok d) :
    Records parsed evidence d := by
  simp only [complianceDecision, bind_eq_ok, orRaise_eq_ok, pure_eq_ok, asString_eq_some,
    asStrings_eq_some] at h
  obtain ⟨_, _, _, _, reasoning, hreasoning, used, hused, found, hfound, rfl⟩ := h
  exact ⟨hreasoning, hused, hfound⟩

/-- The two ways in which a check is decided: on the answer of the vote, or on the quotes that
the chunks gave where the answer could not confirm it. -/
inductive Outcome (cfg : EvaluationSettings) (replies : CheckReplies) (call : CheckCall)
    (d : ComplianceDecision) : Prop
  | answered (noQuotes : quotesFound cfg replies call (answer cfg replies) = [])
      (decision : d.decision = proposedDecision (answer cfg replies))
      (contradictions : get (answer cfg replies) "contradictions_found" (.arr []) =
        .arr (d.contradictionsFound.map Json.str))
  | turned (falls : ShouldFallback call (answer cfg replies)) (decision : d.decision = .pass)
      (quotes : quotesFound cfg replies call (answer cfg replies) = d.evidenceUsed.map Json.str)
      (some_quote : d.evidenceUsed ≠ [])
      (reasoning : d.reasoning = "Verified in source document: " ++
        PyText.prefixOf 120 (d.evidenceUsed.headD ""))
      (contradictions : get (answer cfg replies) "contradictions_found" (.arr []) =
        .arr (d.contradictionsFound.map Json.str))

theorem excerpt_eq_ok {v : Json} {text : String} :
    excerpt v = .ok text ↔ ∃ s, v = .str s ∧ PyText.prefixOf 120 s = text := by
  cases v <;> simp [excerpt]

theorem evaluateMandatoryCheck_outcome (h : evaluateMandatoryCheck cfg replies call = .ok d) :
    UsableVote cfg.selfConsistency replies.toDecisions ∧ Outcome cfg replies call d := by
  simp only [evaluateMandatoryCheck, bind_eq_ok, Prod.exists] at h
  obtain ⟨parsed, votes, hvote, quotes, hquotes, hd⟩ := h
  obtain ⟨husable, hparsed⟩ := (decideCheckWithVoting_eq_ok _ _).mp ⟨votes, hvote⟩
  obtain ⟨_, hfound⟩ := (fallbackEvidence_eq_ok cfg replies call).mp hquotes
  have hanswer : answer cfg replies = parsed := hparsed
  refine ⟨husable, ?_⟩
  cases quotes with
  | nil =>
      have hrecords := complianceDecision_records hd
      refine .answered (hanswer ▸ hfound) (hanswer ▸ (complianceDecision_fields call hd).2) ?_
      rw [hanswer]
      exact hrecords.contradictions
  | cons quote quotes =>
      obtain ⟨text, htext, hd⟩ := bind_eq_ok.mp hd
      have hrecords := complianceDecision_records hd
      obtain ⟨s, rfl, rfl⟩ := excerpt_eq_ok.mp htext
      have hused : .str s :: quotes = d.evidenceUsed.map Json.str := Json.arr.inj hrecords.evidence
      have hreasoning := hrecords.reasoning
      rw [get_verified_reasoning, Json.str.injEq] at hreasoning
      cases hevidence : d.evidenceUsed with
      | nil => simp [hevidence] at hused
      | cons first rest =>
          rw [hevidence, List.map_cons, List.cons.injEq, Json.str.injEq] at hused
          obtain ⟨rfl, hrest⟩ := hused
          refine .turned ?_ (complianceDecision_fields call hd).2 ?_ ?_ ?_ ?_
          · rw [hanswer]
            by_contra hno
            rw [quotesFound, if_neg hno] at hfound
            cases hfound
          · rw [hanswer, hfound, hevidence, hrest, List.map_cons]
          · rw [hevidence]
            exact List.cons_ne_nil _ _
          · rw [hevidence, ← hreasoning]
            rfl
          · rw [hanswer, ← get_verified_contradictions parsed (PyText.prefixOf 120 s)]
            exact hrecords.contradictions

theorem Outcome.contradictions (h : Outcome cfg replies call d) :
    get (answer cfg replies) "contradictions_found" (.arr []) =
      .arr (d.contradictionsFound.map Json.str) := by
  cases h with
  | answered _ _ hcontradictions => exact hcontradictions
  | turned _ _ _ _ _ hcontradictions => exact hcontradictions

end RfpPlatform.CheckRecords
