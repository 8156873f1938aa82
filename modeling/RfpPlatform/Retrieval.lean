import RfpPlatform.Critics
import RfpPlatform.VectorStore

namespace RfpPlatform.Retrieval

open ExceptRules PyText VectorStore

structure Candidate where
  text : String
  score : ℚ
  payload : Point
  rerankScore : Option ℚ := none

/-- The reply of a reranking service: positions with their scores, or a score for each
candidate in turn. -/
inductive RerankReply
  | ranked (results : List (Nat × ℚ))
  | scored (scores : List ℚ)

structure RetrievalServices where
  rewrite : String → Except Exn String
  hyde : String → Except Exn String
  denseEmbedding : String → Except Exn (List PyFloat)
  sparseQueryEmbedding : String → Except Exn (List Nat × List PyFloat)
  reranker : (provider query : String) → List String → (topN : Nat) → Except Exn RerankReply
  engine : SearchEngine

structure RetrievalSettings where
  rerankerProvider : String
  maxChunkCharsForRerank : Nat
  rerankDegradedConfidenceFactor : ℚ

structure OrgSettings where
  useHyde : Bool
  useQueryRewriting : Bool
  retrievalTopK : Nat
  rerankTopN : Nat
  useHybridSearch : Bool
  rerankerProvider : String

structure RetrievalCall where
  query : String
  vendorId : VendorId
  orgId : String
  rfpId : String
  useHyde : Bool := false
  useRewriting : Bool := true
  nCandidates : Nat := 20
  nFinal : Nat := 5
  isMandatoryCheck : Bool := false
  sectionTypeFilter : Option String := none
  orgSettings : Option OrgSettings := none

def byRerankScore (topN : Nat) (cs : List Candidate) : List Candidate :=
  (cs.insertionSort (fun a b => b.rerankScore.getD 0 ≤ a.rerankScore.getD 0)).take topN

def rerankNone (cs : List Candidate) (topN : Nat) : List Candidate :=
  byRerankScore topN (cs.map (fun c => { c with rerankScore := some c.score }))

/-- A position outside the candidates, or too few or too many scores, raise. -/
def applyReply (cs : List Candidate) (topN : Nat) : RerankReply → Except Exn (List Candidate)
  | .ranked results => results.mapM (fun r =>
      orRaise (cs[r.1]?.map (fun c => { c with rerankScore := some r.2 }))
        ⟨.indexError, "list index out of range"⟩)
  | .scored scores =>
      if cs.length < scores.length then .error ⟨.indexError, "list index out of range"⟩
      else if scores.length < cs.length then .error ⟨.keyError, "'rerank_score'"⟩
      else .ok (byRerankScore topN
        (List.zipWith (fun c x => { c with rerankScore := some x }) cs scores))

def knownProviders : List String := ["cohere", "bge", "modal", "colbert"]

def degraded (provider detail : String) : List String :=
  [s!"Reranking degraded: provider '{provider}' {detail}; " ++
    "results fell back to vector-score order."]

/-- The candidates that are kept, and the warning of a reranker that could not be used. -/
def rerank (settings : RetrievalSettings) (svc : RetrievalServices) (query : String)
    (cs : List Candidate) (topN : Nat) (provider : Option String) :
    List Candidate × List String :=
  if cs = [] then (cs, [])
  else
    let chosen := (provider.filter (· ≠ "")).getD settings.rerankerProvider
    let provider := String.ofList (lower chosen)
    if provider ∈ knownProviders then
      let docs := cs.map (fun c => prefixOf settings.maxChunkCharsForRerank c.text)
      match svc.reranker provider query docs topN >>= applyReply cs topN with
      | .ok kept => (kept, [])
      | .error exc => (rerankNone cs topN, degraded provider s!"is unavailable ({exc.message})")
    else if provider = "none" then (rerankNone cs topN, [])
    else (rerankNone cs topN, degraded provider "is not a recognised reranker")

/-- Best first, second best last. -/
def reorder {α : Type*} : List α → List α
  | best :: second :: middle@(_ :: _) => best :: (middle ++ [second])
  | cs => cs

def isAnswerBearing (query text : String) : Bool :=
  let long (s : String) := ((words s.toList).filter (fun w => 4 < w.length)).map (·.map Char.toLower)
  decide (2 ≤ ((long query).dedup.filter (fun w => w ∈ long text)).length)

def retrievedChunk (call : RetrievalCall) (c : Candidate) : RetrievedChunk where
  chunkId := c.payload.chunkId
  text := c.text
  sectionType := c.payload.sectionType
  vendorId := call.vendorId
  finalScore := c.rerankScore.getD c.score
  isAnswerBearing := isAnswerBearing call.query c.text

/-- The text whose dense embedding is searched for. -/
def retrievalText (svc : RetrievalServices) (call : RetrievalCall) : Except Exn String :=
  let useHyde := (call.orgSettings.map OrgSettings.useHyde).getD call.useHyde
  let useRewriting := (call.orgSettings.map OrgSettings.useQueryRewriting).getD call.useRewriting
  if useHyde then do
    let document ← svc.hyde call.query
    return strip document
  else if useRewriting then do
    let rewritten ← svc.rewrite call.query
    return if strip rewritten = "" then call.query else strip rewritten
  else .ok call.query

def rawResults (svc : RetrievalServices) (store : Store) (call : RetrievalCall)
    (vector : List PyFloat) : Except Exn (List SearchHit) :=
  let collection := orgCollectionName call.orgId
  let limit := (call.orgSettings.map OrgSettings.retrievalTopK).getD call.nCandidates
  if (call.orgSettings.map OrgSettings.useHybridSearch).getD false then do
    let sparse ← svc.sparseQueryEmbedding call.query
    searchHybrid svc.engine sparse store collection vector call.orgId call.vendorId limit
      call.sectionTypeFilter
  else
    searchDense svc.engine store collection vector call.orgId call.vendorId limit
      call.sectionTypeFilter

def emptyRetrieval (call : RetrievalCall) : RetrievalOutput where
  originalQuery := call.query
  chunks := []
  confidence := 0
  emptyRetrieval := true
  rerankingDegraded := false
  warnings := ["No chunks found in collection"]

def retrievalConfidence (settings : RetrievalSettings) (chunks : List RetrievedChunk)
    (degraded : Bool) : ℚ :=
  let average : ℚ := if chunks = [] then 0
    else (chunks.map RetrievedChunk.finalScore).sum / chunks.length
  round (min 1 average * (if degraded then settings.rerankDegradedConfidenceFactor else 1)) 3

def runRetrievalAgent (settings : RetrievalSettings) (svc : RetrievalServices) (store : Store)
    (call : RetrievalCall) : Except Exn (RetrievalOutput × CriticOutput) := do
  let text ← retrievalText svc call
  let vector ← svc.denseEmbedding text
  let raw ← rawResults svc store call vector
  if raw = [] then
    let output := emptyRetrieval call
    return (output, criticAfterRetrieval output call.isMandatoryCheck)
  let nFinal := (call.orgSettings.map OrgSettings.rerankTopN).getD call.nFinal
  let (kept, warnings) := rerank settings svc call.query
    (raw.map (fun r => { text := r.text, score := r.score, payload := r.payload })) nFinal
    (call.orgSettings.map OrgSettings.rerankerProvider)
  let chunks := (reorder kept).map (retrievedChunk call)
  let confidence := retrievalConfidence settings chunks (!warnings.isEmpty)
  raiseIf (confidence < 0 ∨ 1 < confidence)
    ⟨.validationError, "RetrievalOutput.confidence must be between 0 and 1"⟩
  let output : RetrievalOutput :=
    { originalQuery := call.query
      chunks := chunks
      confidence := confidence
      emptyRetrieval := chunks.isEmpty
      rerankingDegraded := !warnings.isEmpty
      warnings := warnings }
  return (output, criticAfterRetrieval output call.isMandatoryCheck)

section Selection

variable {settings : RetrievalSettings} {svc : RetrievalServices} {query : String}
  {cs : List Candidate} {topN : Nat} {provider : Option String} {c : Candidate}

/-- A candidate that was one of the given ones before it was scored. -/
def Candidate.CameFrom (c : Candidate) (cs : List Candidate) : Prop :=
  ∃ d ∈ cs, c.text = d.text ∧ c.payload = d.payload

theorem mem_byRerankScore (h : c ∈ byRerankScore topN cs) : c ∈ cs :=
  (List.mem_insertionSort _).mp (List.mem_of_mem_take h)

theorem cameFrom_rerankNone (h : c ∈ rerankNone cs topN) : c.CameFrom cs := by
  obtain ⟨d, hd, rfl⟩ := List.mem_map.mp (mem_byRerankScore h)
  exact ⟨d, hd, rfl, rfl⟩

theorem cameFrom_zipWith {scores : List ℚ}
    (h : c ∈ List.zipWith (fun c x => { c with rerankScore := some x }) cs scores) :
    c.CameFrom cs := by
  induction cs generalizing scores with
  | nil => simp at h
  | cons d ds ih =>
      cases scores with
      | nil => simp at h
      | cons x xs =>
          rw [List.zipWith_cons_cons, List.mem_cons] at h
          rcases h with rfl | h
          · exact ⟨d, List.mem_cons_self, rfl, rfl⟩
          · obtain ⟨e, he, htext, hpayload⟩ := ih h
            exact ⟨e, List.mem_cons_of_mem d he, htext, hpayload⟩

theorem cameFrom_mapM {results : List (Nat × ℚ)} {kept : List Candidate}
    (h : results.mapM (fun r => orRaise (cs[r.1]?.map (fun c => { c with rerankScore := some r.2 }))
      (⟨.indexError, "list index out of range"⟩ : Exn)) = .ok kept) :
    ∀ c ∈ kept, c.CameFrom cs := by
  induction results generalizing kept with
  | nil =>
      rw [List.mapM_nil, pure_eq_ok] at h
      rw [← h]
      exact fun _ hc => nomatch hc
  | cons r rs ih =>
      simp only [List.mapM_cons, bind_eq_ok, orRaise_eq_ok, pure_eq_ok] at h
      obtain ⟨d, hd, ds, hds, rfl⟩ := h
      obtain ⟨e, he, rfl⟩ := Option.map_eq_some_iff.mp hd
      intro c hc
      rcases List.mem_cons.mp hc with rfl | hc
      · exact ⟨e, List.mem_of_getElem? he, rfl, rfl⟩
      · exact ih hds c hc

theorem cameFrom_applyReply {reply : RerankReply} {kept : List Candidate}
    (h : applyReply cs topN reply = .ok kept) : ∀ c ∈ kept, c.CameFrom cs := by
  cases reply with
  | ranked results => exact cameFrom_mapM h
  | scored scores =>
      simp only [applyReply] at h
      split at h
      · cases h
      · split at h
        · cases h
        · cases h
          exact fun c hc => cameFrom_zipWith (mem_byRerankScore hc)

theorem cameFrom_rerank (h : c ∈ (rerank settings svc query cs topN provider).1) :
    c.CameFrom cs := by
  simp only [rerank] at h
  split at h
  · exact ⟨c, h, rfl, rfl⟩
  · split at h
    · split at h
      · rename_i kept hkept
        obtain ⟨reply, _, hreply⟩ := bind_eq_ok.mp hkept
        exact cameFrom_applyReply hreply c h
      · exact cameFrom_rerankNone h
    · split at h
      · exact cameFrom_rerankNone h
      · exact cameFrom_rerankNone h

theorem mem_reorder {α : Type*} {x : α} {xs : List α} : x ∈ reorder xs ↔ x ∈ xs := by
  match xs with
  | [] => exact Iff.rfl
  | [_] => exact Iff.rfl
  | [_, _] => exact Iff.rfl
  | best :: second :: third :: rest =>
      simp only [reorder, List.mem_cons, List.mem_append, List.not_mem_nil, or_false]
      tauto

theorem rawResults_sound {store : Store} {call : RetrievalCall} {vector : List PyFloat}
    {hits : List SearchHit} (h : rawResults svc store call vector = .ok hits) :
    ∀ r ∈ hits, r.text = r.payload.text ∧
      Hit store (orgCollectionName call.orgId) call.orgId call.vendorId r.payload := by
  simp only [rawResults] at h
  split at h
  · obtain ⟨sparse, _, hs⟩ := bind_eq_ok.mp h
    exact searchHybrid_sound hs
  · exact searchDense_sound h

/-- Every chunk of a retrieval repeats a stored point of the vendor that was asked for. -/
theorem runRetrievalAgent_sound {store : Store} {call : RetrievalCall} {output : RetrievalOutput}
    {critic : CriticOutput} (h : runRetrievalAgent settings svc store call = .ok (output, critic)) :
    ∀ c ∈ output.chunks, c.vendorId = call.vendorId ∧
      ∃ p, Hit store (orgCollectionName call.orgId) call.orgId call.vendorId p ∧
        p.chunkId = c.chunkId ∧ p.text = c.text := by
  simp only [runRetrievalAgent, bind_eq_ok] at h
  obtain ⟨text, _, vector, _, raw, hraw, h⟩ := h
  intro c hc
  split at h
  · cases pure_eq_ok.mp h
    cases hc
  · simp only [bind_eq_ok, raiseIf_eq_ok, pure_eq_ok] at h
    obtain ⟨_, _, h⟩ := h
    cases h
    obtain ⟨d, hd, rfl⟩ := List.mem_map.mp hc
    obtain ⟨e, he, htext, hpayload⟩ := cameFrom_rerank (mem_reorder.mp hd)
    obtain ⟨r, hr, rfl⟩ := List.mem_map.mp he
    obtain ⟨hrtext, hhit⟩ := rawResults_sound hraw r hr
    refine ⟨rfl, r.payload, hhit, ?_, ?_⟩
    · exact congrArg Point.chunkId hpayload.symm
    · exact hrtext.symm.trans htext.symm

end Selection

end RfpPlatform.Retrieval
