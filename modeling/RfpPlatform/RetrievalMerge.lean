import RfpPlatform.BackgroundAgreement
import RfpPlatform.FirstWins
import RfpPlatform.Retrieval
import RfpPlatform.Rounding
import RfpPlatform.VendorBranches

namespace RfpPlatform.RetrievalMerge

open ExceptRules FirstWins PyText Retrieval VectorStore VendorBranches

section Query

/-- The chunks that a reranker keeps of some hits, and whether it could not be used. -/
structure Answer where
  chunks : List RetrievedChunk
  degraded : Bool

def candidates (hits : List SearchHit) : List Candidate :=
  hits.map (fun r => { text := r.text, score := r.score, payload := r.payload })

def reranked (settings : RetrievalSettings) (svc : RetrievalServices) (call : RetrievalCall)
    (hits : List SearchHit) : List Candidate × List String :=
  rerank settings svc call.query (candidates hits)
    ((call.orgSettings.map OrgSettings.rerankTopN).getD call.nFinal)
    (call.orgSettings.map OrgSettings.rerankerProvider)

def answer (settings : RetrievalSettings) (svc : RetrievalServices) (call : RetrievalCall)
    (hits : List SearchHit) : Answer where
  chunks := (reorder (reranked settings svc call hits).1).map (retrievedChunk call)
  degraded := !(reranked settings svc call hits).2.isEmpty

def mean (chunks : List RetrievedChunk) : ℚ :=
  if chunks = [] then 0 else (chunks.map RetrievedChunk.finalScore).sum / chunks.length

/-- What a score is scaled by where a reranker could not be used. -/
def scale (settings : RetrievalSettings) (degraded : Bool) : ℚ :=
  if degraded then settings.rerankDegradedConfidenceFactor else 1

/-- A mean that rounds to three places at or above 0. -/
def AboveZero (x : ℚ) : Prop := -(1 / 2000) ≤ x

/-- A mean that rounds to three places at or below 1. -/
def BelowOne (x : ℚ) : Prop := x ≤ 2001 / 2000

theorem round_nonneg_iff {x : ℚ} : 0 ≤ round x 3 ↔ AboveZero x := by
  have h := @le_round_even x 3 0 rfl
  rw [Int.cast_zero, zero_div] at h
  rw [h, AboveZero]
  norm_num

theorem round_le_one_iff {x : ℚ} : round x 3 ≤ 1 ↔ BelowOne x := by
  have h := @round_le_even x 3 1000 rfl
  norm_num at h
  exact h

variable {settings : RetrievalSettings} {svc : RetrievalServices} {store : Store}
  {call : RetrievalCall} {hits : List SearchHit}

/-- The condition under which the confidence of a query is in its range. -/
def Sound (settings : RetrievalSettings) (a : Answer) : Prop :=
  AboveZero (min 1 (mean a.chunks) * scale settings a.degraded) ∧
    BelowOne (min 1 (mean a.chunks) * scale settings a.degraded)

theorem retrievalConfidence_eq (chunks : List RetrievedChunk) (degraded : Bool) :
    retrievalConfidence settings chunks degraded =
      round (min 1 (mean chunks) * scale settings degraded) 3 := rfl

theorem sound_iff {a : Answer} : Sound settings a ↔
    ¬ (retrievalConfidence settings a.chunks a.degraded < 0 ∨
      1 < retrievalConfidence settings a.chunks a.degraded) := by
  rw [retrievalConfidence_eq, not_or, not_lt, not_lt, round_nonneg_iff, round_le_one_iff, Sound]

/-- The output for hits that are not empty. -/
def answered (settings : RetrievalSettings) (svc : RetrievalServices) (call : RetrievalCall)
    (hits : List SearchHit) : RetrievalOutput :=
  let a := answer settings svc call hits
  { originalQuery := call.query
    chunks := a.chunks
    confidence := retrievalConfidence settings a.chunks a.degraded
    emptyRetrieval := a.chunks.isEmpty
    rerankingDegraded := a.degraded
    warnings := (reranked settings svc call hits).2 }

end Query

section Merge

variable {settings : RetrievalSettings} {m m' : Merged} {queries : List String}

variable {svc : RetrievalServices} {store : Store} {call : String → Bool → RetrievalCall}
  {hits : String → List SearchHit} {names : List String}

/-- The agent of one vendor, by the call that a query makes. -/
def agent (settings : RetrievalSettings) (svc : RetrievalServices) (store : Store)
    (call : String → Bool → RetrievalCall) : Retrieve :=
  fun query mandatory => runRetrievalAgent settings svc store (call query mandatory)

def answerTo (settings : RetrievalSettings) (svc : RetrievalServices)
    (call : String → Bool → RetrievalCall) (names : List String) (hits : String → List SearchHit)
    (query : String) : Answer :=
  answer settings svc (call query (query ∈ names)) (hits query)

end Merge

section Vendor

variable {settings : RetrievalSettings} {svc : RetrievalServices} {store : Store}
  {call : String → Bool → RetrievalCall} {hits : String → List SearchHit}
  {setup : EvaluationSetup} {vid : VendorId}

def mandatoryNames (setup : EvaluationSetup) : List String :=
  setup.mandatoryChecks.map MandatoryCheck.name

/-- The answers to the queries of a setup, in their order. -/
def answers (settings : RetrievalSettings) (svc : RetrievalServices)
    (call : String → Bool → RetrievalCall) (hits : String → List SearchHit)
    (setup : EvaluationSetup) : List Answer :=
  (retrievalQueries setup).map (answerTo settings svc call (mandatoryNames setup) hits)

end Vendor

section Sample

end Sample

end RfpPlatform.RetrievalMerge
