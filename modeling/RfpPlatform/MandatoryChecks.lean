import RfpPlatform.Retrieval
import RfpPlatform.SelfConsistency

namespace RfpPlatform.MandatoryChecks

open ExceptRules Json PyText Retrieval SelfConsistency

abbrev FactRow := List (String × Json)

structure VendorFacts where
  certifications : List FactRow
  insurance : List FactRow
  slas : List FactRow
  projects : List FactRow
  pricing : List FactRow
  extractedFacts : List FactRow

def targetIdOf (f : FactRow) : Option String := (member "target_id" f).bind asString

def getFactsForTarget (facts : VendorFacts) (target : ExtractionTarget) : List FactRow :=
  if target.factType = "certification" then facts.certifications
  else if target.factType = "insurance" then facts.insurance
  else if target.factType = "sla" then facts.slas
  else if target.factType = "project" then facts.projects
  else if target.factType = "pricing" then facts.pricing
  else if target.factType = "custom" then
    facts.extractedFacts.filter (fun f => targetIdOf f = some target.targetId)
  else []

/-- What the retrieval judge says of the chunks of a pass. -/
structure RetrievalVerdict where
  adequate : Bool
  confidence : Confidence

structure EvaluationSettings where
  selfConsistency : SelfConsistency.Settings
  retrievalCriticMaxRetries : Nat
  retrievalCriticConfidenceFloor : ℚ

structure CheckReplies extends Decisions where
  retrieve : Nat → RetrievalCall → Except Exn RetrievalOutput
  judge : Nat → List RetrievedChunk → RetrievalVerdict
  verify : Nat → RetrievedChunk → LlmReply

structure CheckCall where
  check : MandatoryCheck
  target : ExtractionTarget
  relevantFacts : List FactRow
  vendorId : VendorId
  orgId : String
  orgSettings : Option OrgSettings
  retriedFactTypes : List String

def judgeRetrieval (judge : List RetrievedChunk → RetrievalVerdict) (chunks : List RetrievedChunk) :
    RetrievalVerdict :=
  if chunks = [] then ⟨false, ⟨1, not_one_lt_zero, not_one_lt_one⟩⟩ else judge chunks

def checkQuery (call : CheckCall) : RetrievalCall where
  query := if call.check.whatPasses = "" then call.check.name else call.check.whatPasses
  vendorId := call.vendorId
  orgId := call.orgId
  rfpId := ""
  isMandatoryCheck := true
  orgSettings := call.orgSettings

def escalatedSettings (orgSettings : Option OrgSettings) (k : Nat) : OrgSettings where
  useHyde := true
  useQueryRewriting := true
  retrievalTopK := min 20 ((orgSettings.map OrgSettings.retrievalTopK).getD k * 2)
  rerankTopN := (orgSettings.map OrgSettings.rerankTopN).getD 5
  useHybridSearch := true
  rerankerProvider := (orgSettings.map OrgSettings.rerankerProvider).getD ""

/-- Two passes at most. A pass that raises keeps the chunks of the pass before it. -/
def retrieveTopKForCheck (cfg : EvaluationSettings) (replies : CheckReplies) (call : CheckCall) :
    List RetrievedChunk :=
  let k := (call.orgSettings.map OrgSettings.retrievalTopK).getD 5
  let firstPass := (replies.retrieve 0 (checkQuery call)).toOption
  let chunks := (firstPass.map RetrievalOutput.chunks).getD []
  let verdict := judgeRetrieval (replies.judge 0) chunks
  if (verdict.adequate = true ∧
      PyFloat.le cfg.retrievalCriticConfidenceFloor verdict.confidence.value = true) ∨
      cfg.retrievalCriticMaxRetries = 0 then chunks
  else
    let secondPass := (replies.retrieve 1
      { checkQuery call with orgSettings := some (escalatedSettings call.orgSettings k) }).toOption
    (secondPass.map RetrievalOutput.chunks).getD chunks

def unverifiedReply : Members :=
  [("satisfies", .bool false), ("evidence", .str ""), ("confidence", .num 0)]

def quoteOf (result : Members) : List Json :=
  let evidence := get result "evidence" (.str "")
  if (get result "satisfies" .null).truthy && evidence.truthy then [evidence] else []

def verifyThreshold (reply : LlmReply) : Except Exn (List Json) := do
  let parsed ← parseReply unverifiedReply reply
  let result ← parsed.asObject
  return quoteOf result

def chunkEvidence (replies : CheckReplies) (chunks : List RetrievedChunk) :
    Except Exn (List Json) := do
  let quotes ← chunks.zipIdx.mapM (fun p => verifyThreshold (replies.verify p.2 p.1))
  return quotes.flatten

def contradictions (parsed : Members) : Json := get parsed "contradictions_found" .null

def proposedDecision (parsed : Members) : ComplianceStatus :=
  if (contradictions parsed).truthy then .insufficientEvidence else normaliseDecision parsed

/-- The chunks are consulted where facts are missing, or where they failed the check and
the extraction critic has not yet had them extracted again. -/
def ShouldFallback (call : CheckCall) (parsed : Members) : Prop :=
  call.orgId ≠ "" ∧ (contradictions parsed).truthy = false ∧
    ((call.relevantFacts = [] ∧ proposedDecision parsed = .insufficientEvidence) ∨
      (call.relevantFacts ≠ [] ∧ proposedDecision parsed = .fail ∧
        call.target.factType ∉ call.retriedFactTypes))

instance (call : CheckCall) (parsed : Members) : Decidable (ShouldFallback call parsed) :=
  inferInstanceAs (Decidable (_ ∧ _ ∧ (_ ∨ _)))

/-- `evidence[:120]`. A list of quotes passes here and is refused by the validation. -/
def excerpt : Json → Except Exn String
  | .str s => .ok (prefixOf 120 s)
  | .arr _ => .error ⟨.validationError, "ComplianceDecision.evidence_used: not a string"⟩
  | .obj _ => .error ⟨.typeError, "unhashable type: 'slice'"⟩
  | v => .error ⟨.typeError, s!"'{v.typeName}' object is not subscriptable"⟩

def verified (parsed : Members) (quote : String) : Members :=
  parsed ++ [("confidence", .num (.fin (75 / 100)))] ++
    [("reasoning", .str s!"Verified in source document: {quote}")] ++
    [("decision_basis", .str "explicit_confirmation")]

def invalidField (field : String) : Exn :=
  ⟨.validationError, s!"1 validation error for ComplianceDecision\n{field}"⟩

def complianceDecision (call : CheckCall) (decision : ComplianceStatus) (parsed : Members)
    (evidence : Json) (votes : VoteBreakdown) : Except Exn ComplianceDecision := do
  let number ← (get parsed "confidence" (.num (.fin (1 / 2)))).toFloat
  let confidence ← orRaise (Confidence.of? number) (invalidField "confidence")
  let reasoning ← orRaise (get parsed "reasoning" (.str "")).asString (invalidField "reasoning")
  let evidenceUsed ← orRaise evidence.asStrings (invalidField "evidence_used")
  let contradictionsFound ← orRaise (get parsed "contradictions_found" (.arr [])).asStrings
    (invalidField "contradictions_found")
  return {
    checkId := call.check.checkId
    vendorId := call.vendorId
    decision := decision
    confidence := confidence
    reasoning := reasoning
    evidenceUsed := evidenceUsed
    contradictionsFound := contradictionsFound
    decisionBasis := (memberOf DecisionBasis.value DecisionBasis.all
      (get parsed "decision_basis" (.str "not_addressed"))).getD .notAddressed
    voteBreakdown := votes }

def fallbackEvidence (cfg : EvaluationSettings) (replies : CheckReplies) (call : CheckCall)
    (parsed : Members) : Except Exn (List Json) :=
  if ShouldFallback call parsed then chunkEvidence replies (retrieveTopKForCheck cfg replies call)
  else .ok []

def decideOn (call : CheckCall) (parsed : Members) (votes : VoteBreakdown) :
    List Json → Except Exn ComplianceDecision
  | [] => complianceDecision call (proposedDecision parsed) parsed
      ((get parsed "evidence_used" .null).orElse (.arr [])) votes
  | quote :: quotes => do
      let text ← excerpt quote
      complianceDecision call .pass (verified parsed text) (.arr (quote :: quotes)) votes

def evaluateMandatoryCheck (cfg : EvaluationSettings) (replies : CheckReplies) (call : CheckCall) :
    Except Exn ComplianceDecision := do
  let (parsed, votes) ← decideCheckWithVoting cfg.selfConsistency replies.toDecisions
  let quotes ← fallbackEvidence cfg replies call parsed
  decideOn call parsed votes quotes

section Usable

variable (cfg : EvaluationSettings) (replies : CheckReplies) (call : CheckCall)

/-- Every reply on a chunk is an object. -/
def UsableChunks (chunks : List RetrievedChunk) : Prop :=
  ∀ p ∈ chunks.zipIdx, ∃ result, objectOf unverifiedReply (replies.verify p.2 p.1) = some result

def quotesOf (chunks : List RetrievedChunk) : List Json :=
  (chunks.zipIdx.filterMap (fun p => objectOf unverifiedReply (replies.verify p.2 p.1))).flatMap
    quoteOf

def quotesFound (parsed : Members) : List Json :=
  if ShouldFallback call parsed then quotesOf replies (retrieveTopKForCheck cfg replies call) else []

def Strings (v : Json) : Prop := ∃ ss, v.asStrings = some ss

/-- The fields of an answer that is recorded as it was given. -/
structure Recordable (parsed : Members) : Prop where
  confidence : ∃ x c, (get parsed "confidence" (.num (.fin (1 / 2)))).toFloat = .ok x ∧
    Confidence.of? x = some c
  reasoning : ∃ s, get parsed "reasoning" (.str "") = .str s
  evidence : Strings ((get parsed "evidence_used" .null).orElse (.arr []))

structure UsableAnswer (parsed : Members) : Prop where
  chunks : ShouldFallback call parsed →
    UsableChunks replies (retrieveTopKForCheck cfg replies call)
  contradictions : Strings (get parsed "contradictions_found" (.arr []))
  fields : quotesFound cfg replies call parsed = [] → Recordable parsed
  quotes : ∀ q ∈ quotesFound cfg replies call parsed, ∃ s, q = .str s

def answer : Members := vote cfg.selfConsistency replies.toDecisions

/-- The replies of a check from which a decision can be made. -/
def Usable : Prop :=
  UsableVote cfg.selfConsistency replies.toDecisions ∧
    UsableAnswer cfg replies call (answer cfg replies)

def Confirmed : Prop :=
  proposedDecision (answer cfg replies) = .pass ∨
    quotesFound cfg replies call (answer cfg replies) ≠ []

theorem verifyThreshold_eq_ok {reply : LlmReply} {quotes : List Json} :
    verifyThreshold reply = .ok quotes ↔
      ∃ result, objectOf unverifiedReply reply = some result ∧ quoteOf result = quotes := by
  have h : ∀ result, (∃ v, parseReply unverifiedReply reply = .ok v ∧ v.asObject = .ok result) ↔
      objectOf unverifiedReply reply = some result := by
    intro result
    rw [← bind_eq_ok]
    exact parseReply_asObject
  simp only [verifyThreshold, bind_eq_ok, pure_eq_ok]
  constructor
  · rintro ⟨v, hv, result, hresult, rfl⟩
    exact ⟨result, (h result).mp ⟨v, hv, hresult⟩, rfl⟩
  · rintro ⟨result, hresult, rfl⟩
    obtain ⟨v, hv, hobject⟩ := (h result).mpr hresult
    exact ⟨v, hv, result, hobject, rfl⟩

theorem chunkEvidence_eq_ok {chunks : List RetrievedChunk} {quotes : List Json} :
    chunkEvidence replies chunks = .ok quotes ↔
      UsableChunks replies chunks ∧ quotesOf replies chunks = quotes := by
  have hquote : (fun p : RetrievedChunk × Nat => (verifyThreshold (replies.verify p.2 p.1)).toOption)
      = fun p => (objectOf unverifiedReply (replies.verify p.2 p.1)).map quoteOf := by
    funext p
    apply Option.ext
    intro qs
    rw [toOption_eq_some, verifyThreshold_eq_ok, Option.map_eq_some_iff]
  have hraise : ∀ p : RetrievedChunk × Nat, (∃ qs, verifyThreshold (replies.verify p.2 p.1) = .ok qs) ↔
      ∃ result, objectOf unverifiedReply (replies.verify p.2 p.1) = some result := by
    intro p
    simp only [verifyThreshold_eq_ok]
    exact ⟨fun ⟨_, result, h, _⟩ => ⟨result, h⟩, fun ⟨result, h⟩ => ⟨_, result, h, rfl⟩⟩
  have hflat : (chunks.zipIdx.filterMap (fun p =>
      (objectOf unverifiedReply (replies.verify p.2 p.1)).map quoteOf)).flatten =
      quotesOf replies chunks := by
    rw [quotesOf, List.flatMap, List.map_filterMap]
  simp only [chunkEvidence, bind_eq_ok, mapM_eq_ok, pure_eq_ok, hquote, hraise]
  constructor
  · rintro ⟨qss, ⟨hall, rfl⟩, rfl⟩
    exact ⟨hall, hflat.symm⟩
  · rintro ⟨hall, rfl⟩
    exact ⟨_, ⟨hall, rfl⟩, hflat⟩

theorem fallbackEvidence_eq_ok {parsed : Members} {quotes : List Json} :
    fallbackEvidence cfg replies call parsed = .ok quotes ↔
      (ShouldFallback call parsed → UsableChunks replies (retrieveTopKForCheck cfg replies call)) ∧
        quotesFound cfg replies call parsed = quotes := by
  unfold fallbackEvidence quotesFound
  by_cases h : ShouldFallback call parsed
  · rw [if_pos h, if_pos h, chunkEvidence_eq_ok]
    exact and_congr_left' ⟨fun hc _ => hc, fun hc => hc h⟩
  · rw [if_neg h, if_neg h]
    exact ⟨fun heq => ⟨fun hf => absurd hf h, Except.ok.inj heq⟩, fun heq => congrArg _ heq.2⟩

theorem asString_eq_some {v : Json} {s : String} : v.asString = some s ↔ v = .str s := by
  cases v <;> simp [asString]

theorem strings_arr {xs : List Json} : Strings (.arr xs) ↔ ∀ q ∈ xs, ∃ s, q = .str s := by
  induction xs with
  | nil => simp [Strings, asStrings]
  | cons x xs ih =>
      have hcons : Strings (.arr (x :: xs)) ↔ (∃ s, x = .str s) ∧ Strings (.arr xs) := by
        simp only [Strings, asStrings, List.mapM_cons]
        cases hx : x.asString with
        | none =>
            have hne : ∀ s, x ≠ .str s := fun s hs => by simp [hs, asString] at hx
            simp [hne]
        | some s =>
            rw [asString_eq_some] at hx
            cases xs.mapM asString <;> simp [hx]
      rw [hcons, ih, List.forall_mem_cons]

theorem complianceDecision_returns {decision : ComplianceStatus} {parsed : Members}
    {evidence : Json} {votes : VoteBreakdown} :
    (∃ d, complianceDecision call decision parsed evidence votes = .ok d) ↔
      (∃ x c, (get parsed "confidence" (.num (.fin (1 / 2)))).toFloat = .ok x ∧
        Confidence.of? x = some c) ∧
      (∃ s, get parsed "reasoning" (.str "") = .str s) ∧ Strings evidence ∧
      Strings (get parsed "contradictions_found" (.arr [])) := by
  simp only [complianceDecision, bind_eq_ok, orRaise_eq_ok, pure_eq_ok, asString_eq_some]
  constructor
  · rintro ⟨d, x, hx, c, hc, s, hs, ss, hss, cs, hcs, _⟩
    exact ⟨⟨x, c, hx, hc⟩, ⟨s, hs⟩, ⟨ss, hss⟩, ⟨cs, hcs⟩⟩
  · rintro ⟨⟨x, c, hx, hc⟩, ⟨s, hs⟩, ⟨ss, hss⟩, ⟨cs, hcs⟩⟩
    exact ⟨_, x, hx, c, hc, s, hs, ss, hss, cs, hcs, rfl⟩

theorem complianceDecision_fields {decision : ComplianceStatus} {parsed : Members}
    {evidence : Json} {votes : VoteBreakdown} {d : ComplianceDecision}
    (h : complianceDecision call decision parsed evidence votes = .ok d) :
    d.checkId = call.check.checkId ∧ d.decision = decision := by
  simp only [complianceDecision, bind_eq_ok, pure_eq_ok] at h
  obtain ⟨_, _, _, _, _, _, _, _, _, _, rfl⟩ := h
  exact ⟨rfl, rfl⟩

theorem get_verified_confidence (parsed : Members) (quote : String) (dflt : Json) :
    get (verified parsed quote) "confidence" dflt = .num (.fin (75 / 100)) := by
  simp only [verified, Json.get, member_append]
  rfl

theorem get_verified_reasoning (parsed : Members) (quote : String) (dflt : Json) :
    get (verified parsed quote) "reasoning" dflt =
      .str s!"Verified in source document: {quote}" := by
  simp only [verified, Json.get, member_append]
  rfl

theorem get_verified_contradictions (parsed : Members) (quote : String) (dflt : Json) :
    get (verified parsed quote) "contradictions_found" dflt =
      get parsed "contradictions_found" dflt := by
  simp only [verified, Json.get, member_append]
  rfl

theorem decideOn_returns {parsed : Members} {votes : VoteBreakdown} {quotes : List Json} :
    (∃ d, decideOn call parsed votes quotes = .ok d) ↔
      Strings (get parsed "contradictions_found" (.arr [])) ∧
        (quotes = [] → Recordable parsed) ∧ ∀ q ∈ quotes, ∃ s, q = .str s := by
  cases quotes with
  | nil =>
      rw [decideOn, complianceDecision_returns]
      constructor
      · rintro ⟨hconfidence, hreasoning, hevidence, hcontradictions⟩
        exact ⟨hcontradictions, fun _ => ⟨hconfidence, hreasoning, hevidence⟩,
          fun _ hq => absurd hq List.not_mem_nil⟩
      · rintro ⟨hcontradictions, hfields, _⟩
        have hr := hfields rfl
        exact ⟨hr.confidence, hr.reasoning, hr.evidence, hcontradictions⟩
  | cons quote quotes =>
      simp only [decideOn, bind_eq_ok]
      constructor
      · rintro ⟨d, text, _, hd⟩
        obtain ⟨_, _, hstrings, hcontradictions⟩ := (complianceDecision_returns call).mp ⟨d, hd⟩
        rw [get_verified_contradictions] at hcontradictions
        exact ⟨hcontradictions, (fun h => nomatch h), strings_arr.mp hstrings⟩
      · rintro ⟨hcontradictions, _, hstrings⟩
        obtain ⟨s, rfl⟩ := hstrings quote List.mem_cons_self
        have hreturns : ∃ d, complianceDecision call .pass (verified parsed (prefixOf 120 s))
            (.arr (.str s :: quotes)) votes = .ok d := by
          rw [complianceDecision_returns, get_verified_confidence, get_verified_reasoning,
            get_verified_contradictions]
          refine ⟨⟨.fin (75 / 100), ⟨.fin (75 / 100), by decide +kernel, by decide +kernel⟩, ?_, ?_⟩,
            ⟨_, rfl⟩, strings_arr.mpr hstrings, hcontradictions⟩
          · have hsmall : ¬ ((75 / 100 : ℚ) ≤ -floatLimit ∨ floatLimit ≤ 75 / 100) := by
              decide +kernel
            rw [toFloat, if_neg hsmall]
          · rw [Confidence.of?_eq_some]
        obtain ⟨d, hd⟩ := hreturns
        exact ⟨d, prefixOf 120 s, rfl, hd⟩

theorem decideOn_fields {parsed : Members} {votes : VoteBreakdown} {quotes : List Json}
    {d : ComplianceDecision} (h : decideOn call parsed votes quotes = .ok d) :
    d.checkId = call.check.checkId ∧
      (d.decision = .pass ↔ proposedDecision parsed = .pass ∨ quotes ≠ []) := by
  cases quotes with
  | nil =>
      obtain ⟨hid, hd⟩ := complianceDecision_fields call h
      refine ⟨hid, ?_⟩
      rw [hd]
      exact ⟨Or.inl, fun hor => hor.resolve_right (fun hne => hne rfl)⟩
  | cons quote quotes =>
      obtain ⟨text, _, htext⟩ := bind_eq_ok.mp h
      obtain ⟨hid, hd⟩ := complianceDecision_fields call htext
      exact ⟨hid, fun _ => Or.inr (List.cons_ne_nil _ _), fun _ => hd⟩

/-- A check is decided exactly on usable replies. -/
theorem evaluateMandatoryCheck_returns :
    (∃ d, evaluateMandatoryCheck cfg replies call = .ok d) ↔ Usable cfg replies call := by
  simp only [evaluateMandatoryCheck, bind_eq_ok, Prod.exists]
  constructor
  · rintro ⟨d, parsed, votes, hvote, quotes, hquotes, hd⟩
    obtain ⟨husable, hparsed⟩ := (decideCheckWithVoting_eq_ok _ _).mp ⟨votes, hvote⟩
    obtain ⟨hchunks, rfl⟩ := (fallbackEvidence_eq_ok cfg replies call).mp hquotes
    obtain ⟨hcontradictions, hfields, hstrings⟩ := (decideOn_returns call).mp ⟨d, hd⟩
    have hanswer : answer cfg replies = parsed := hparsed
    refine ⟨husable, ?_⟩
    rw [hanswer]
    exact ⟨hchunks, hcontradictions, hfields, hstrings⟩
  · rintro ⟨husable, hanswer⟩
    obtain ⟨votes, hvote⟩ := (decideCheckWithVoting_eq_ok _ _).mpr ⟨husable, rfl⟩
    obtain ⟨d, hd⟩ := (decideOn_returns call).mpr
      ⟨hanswer.contradictions, hanswer.fields, hanswer.quotes⟩
    exact ⟨d, _, votes, hvote, _,
      (fallbackEvidence_eq_ok cfg replies call).mpr ⟨hanswer.chunks, rfl⟩, hd⟩

theorem evaluateMandatoryCheck_fields {d : ComplianceDecision}
    (h : evaluateMandatoryCheck cfg replies call = .ok d) :
    d.checkId = call.check.checkId ∧ (d.decision = .pass ↔ Confirmed cfg replies call) := by
  simp only [evaluateMandatoryCheck, bind_eq_ok, Prod.exists] at h
  obtain ⟨parsed, votes, hvote, quotes, hquotes, hd⟩ := h
  obtain ⟨_, hparsed⟩ := (decideCheckWithVoting_eq_ok _ _).mp ⟨votes, hvote⟩
  obtain ⟨_, rfl⟩ := (fallbackEvidence_eq_ok cfg replies call).mp hquotes
  have hanswer : answer cfg replies = parsed := hparsed
  rw [Confirmed, hanswer]
  exact decideOn_fields call hd

end Usable

end RfpPlatform.MandatoryChecks
