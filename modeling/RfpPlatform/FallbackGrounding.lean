import RfpPlatform.CheckRecords
import RfpPlatform.FailClosed
import RfpPlatform.Quotes

namespace RfpPlatform.FallbackGrounding

open CheckRecords ExceptRules Json MandatoryChecks PyText Quotes SelfConsistency

/-- A chunk and the verifier's reply on it. -/
abbrev Verification := RetrievedChunk × Members

def Verification.evidence (v : Verification) : Json := get v.2 "evidence" (.str "")

def Verification.accepted (v : Verification) : Bool :=
  (get v.2 "satisfies" .null).truthy && (get v.2 "evidence" (.str "")).truthy

/-- The verifications whose evidence the fallback takes. -/
def acceptedOn (replies : CheckReplies) (chunks : List RetrievedChunk) : List Verification :=
  (chunks.zipIdx.filterMap (fun p =>
    (objectOf unverifiedReply (replies.verify p.2 p.1)).map (fun reply => (p.1, reply)))).filter
    Verification.accepted

def acceptedFor (cfg : EvaluationSettings) (replies : CheckReplies) (call : CheckCall) :
    List Verification :=
  acceptedOn replies (retrieveTopKForCheck cfg replies call)

/-- A verification stands behind a quote: it says yes, and the quote is text of its chunk. -/
structure Supports (v : Verification) (quote : String) : Prop where
  satisfies : get v.2 "satisfies" .null = .bool true
  evidence : v.evidence = .str quote
  not_blank : ¬ Blank quote
  stands : ws quote <:+: ws v.1.text

/-- What a verification is, if its yes is `true` and its evidence a quote of its chunk. -/
structure Sincere (v : Verification) : Prop where
  satisfies : get v.2 "satisfies" .null = .bool true
  quotes : ∀ quote, v.evidence = .str quote → ¬ Blank quote ∧ ws quote <:+: ws v.1.text

/-- The chunk fallback has turned the verdict of the answer into a PASS. -/
structure Turned (cfg : EvaluationSettings) (replies : CheckReplies) (call : CheckCall)
    (d : ComplianceDecision) : Prop where
  decided : evaluateMandatoryCheck cfg replies call = .ok d
  passes : d.decision = .pass
  proposed : proposedDecision (answer cfg replies) ≠ .pass

variable {cfg : EvaluationSettings} {replies : CheckReplies} {call : CheckCall}
  {d : ComplianceDecision}

theorem quotesOf_eq (chunks : List RetrievedChunk) :
    quotesOf replies chunks = (acceptedOn replies chunks).map Verification.evidence := by
  rw [quotesOf, acceptedOn]
  induction chunks.zipIdx with
  | nil => rfl
  | cons p ps ih =>
      rw [List.filterMap_cons, List.filterMap_cons]
      cases objectOf unverifiedReply (replies.verify p.2 p.1) with
      | none => exact ih
      | some reply =>
          simp only [Option.map_some, List.flatMap_cons, List.filter_cons, ih]
          cases haccepted : Verification.accepted (p.1, reply) with
          | true =>
              have hquote : quoteOf reply = [get reply "evidence" (.str "")] := if_pos haccepted
              rw [hquote, if_pos rfl]
              rfl
          | false =>
              have hquote : quoteOf reply = [] := if_neg (ne_true_of_eq_false haccepted)
              rw [hquote, if_neg Bool.false_ne_true]
              rfl

theorem forall₂_supports {vs : List Verification} {quotes : List String}
    (h : vs.map Verification.evidence = quotes.map Json.str) :
    List.Forall₂ Supports vs quotes ↔ ∀ v ∈ vs, Sincere v := by
  induction vs generalizing quotes with
  | nil =>
      rw [List.map_nil, eq_comm, List.map_eq_nil_iff] at h
      simp [h]
  | cons v vs ih =>
      cases quotes with
      | nil => cases h
      | cons quote quotes =>
          obtain ⟨hevidence, htail⟩ := List.cons.inj h
          rw [List.forall₂_cons, List.forall_mem_cons, ih htail]
          apply and_congr_left'
          constructor
          · intro hs
            refine ⟨hs.satisfies, fun q hq => ?_⟩
            obtain rfl : q = quote := Json.str.inj (hq.symm.trans hevidence)
            exact ⟨hs.not_blank, hs.stands⟩
          · intro hs
            obtain ⟨hblank, hstands⟩ := hs.quotes quote hevidence
            exact ⟨hs.satisfies, hevidence, hblank, hstands⟩

/-- A verdict is turned on the quotes of the accepted verifications, and nothing else. -/
theorem Turned.evidence (h : Turned cfg replies call d) :
    (acceptedFor cfg replies call).map Verification.evidence = d.evidenceUsed.map Json.str ∧
      d.reasoning = "Verified in source document: " ++ prefixOf 120 (d.evidenceUsed.headD "") := by
  obtain ⟨_, houtcome⟩ := evaluateMandatoryCheck_outcome h.decided
  cases houtcome with
  | answered _ hdecision _ =>
      rw [h.passes] at hdecision
      exact absurd hdecision.symm h.proposed
  | turned hfalls _ hquotes _ hreasoning _ =>
      refine ⟨?_, hreasoning⟩
      rw [acceptedFor, ← quotesOf_eq, ← hquotes, quotesFound, if_pos hfalls]

/-- The evidence of a turned verdict is grounded exactly when each verification that the code
accepts by truthiness is sincere. -/
theorem grounded_pass_iff (h : Turned cfg replies call d) :
    List.Forall₂ Supports (acceptedFor cfg replies call) d.evidenceUsed ↔
      ∀ v ∈ acceptedFor cfg replies call, Sincere v :=
  forall₂_supports h.evidence.1

section Sample

open Evaluation FailClosed

def sampleChunk : RetrievedChunk :=
  ⟨"c1", "Acme holds ISO 27001 since 2019.", "requirement_response", "v", 1, true⟩

def undecidedReply : LlmReply := .json (.obj [("decision", .str "insufficient_evidence")])

def verifyingReplies (satisfies : Json) (evidence : String) : CheckReplies where
  primary := undecidedReply
  sample := fun _ => undecidedReply
  retrieve := fun _ call => .ok ⟨call.query, [sampleChunk], 1, false, false, []⟩
  judge := fun _ _ => ⟨true, ⟨1, not_one_lt_zero, not_one_lt_one⟩⟩
  verify := fun _ _ => .json (.obj [("satisfies", satisfies), ("evidence", .str evidence)])

def isoCheckCall : CheckCall :=
  checkCall isoCall (some plainOrg) ⟨[], [], [], [], [], []⟩ isoCheck isoTarget

theorem verifying_turned (satisfies : Json) (evidence : String)
    (hpass : returned (fun d => d.decision = .pass) (evaluateMandatoryCheck shippedEvaluation
      (verifyingReplies satisfies evidence) isoCheckCall) = true) :
    ∃ d, Turned shippedEvaluation (verifyingReplies satisfies evidence) isoCheckCall d := by
  obtain ⟨d, hok, hdecision⟩ := of_returned hpass
  refine ⟨d, hok, of_decide_eq_true hdecision, ?_⟩
  change proposedDecision (vote shippedSettings ⟨undecidedReply, fun _ => undecidedReply⟩) ≠ .pass
  decide +kernel

theorem verifying_accepted (satisfies : Json) (evidence : String)
    (h : Verification.accepted (sampleChunk, [("satisfies", satisfies), ("evidence", .str evidence)]) =
      true) :
    acceptedFor shippedEvaluation (verifyingReplies satisfies evidence) isoCheckCall =
      [(sampleChunk, [("satisfies", satisfies), ("evidence", .str evidence)])] := by
  have hchunks : retrieveTopKForCheck shippedEvaluation (verifyingReplies satisfies evidence)
      isoCheckCall = [sampleChunk] := by
    simp only [retrieveTopKForCheck]
    split <;> rfl
  rw [acceptedFor, hchunks]
  exact List.filter_cons_of_pos h

theorem certificate_quote_grounded : ∃ d,
    Turned shippedEvaluation (verifyingReplies (.bool true) "ISO\n27001") isoCheckCall d ∧
      List.Forall₂ Supports (acceptedFor shippedEvaluation
        (verifyingReplies (.bool true) "ISO\n27001") isoCheckCall) d.evidenceUsed := by
  obtain ⟨d, hturned⟩ := verifying_turned (.bool true) "ISO\n27001" (by decide +kernel)
  refine ⟨d, hturned, (grounded_pass_iff hturned).mpr ?_⟩
  rw [verifying_accepted _ _ rfl]
  intro v hv
  rw [List.mem_singleton.mp hv]
  refine ⟨rfl, fun quote hquote => ?_⟩
  obtain rfl : "ISO\n27001" = quote := Json.str.inj hquote
  exact ⟨by decide, by decide +kernel⟩

/-- A verifier that answers with the string "false" makes the check pass, on a sentence that is
in no chunk. -/
theorem string_false_passes : ¬ ∀ (cfg : EvaluationSettings) (replies : CheckReplies)
    (call : CheckCall) (d : ComplianceDecision), Turned cfg replies call d →
      List.Forall₂ Supports (acceptedFor cfg replies call) d.evidenceUsed := by
  intro h
  obtain ⟨d, hturned⟩ := verifying_turned (.str "false") "No certificate is mentioned."
    (by decide +kernel)
  have hsupports := h _ _ _ d hturned
  rw [verifying_accepted _ _ rfl] at hsupports
  obtain ⟨quote, _, hs, _, _⟩ := List.forall₂_cons_left_iff.mp hsupports
  cases hs.satisfies

end Sample

end RfpPlatform.FallbackGrounding
