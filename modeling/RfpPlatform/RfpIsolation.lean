import RfpPlatform.Quarantine

namespace RfpPlatform.RfpIsolation

open ExceptRules Ingestion Quarantine Retrieval TransitionRuns VectorStore

/-- One call of the ingestion agent, with what it draws. -/
structure Request where
  call : IngestionCall
  upload : Upload
  draw : Draw

variable (svc : DocumentServices) (defence : InjectionDefence)

def ingest (store : Store) (a : Request) : Store :=
  (runIngestionAgent svc defence a.call a.upload a.draw ⟨store, []⟩).1.store

/-- The store after a history of ingestions. -/
def storeAfter (history : List Request) : Store := history.foldl (ingest svc defence) ∅

/-- A document of the vendor under another request for proposals of the organisation. -/
def Request.other (orgId : String) (vendorId : VendorId) (rfpId : String) (a : Request) : Bool :=
  a.call.orgId = orgId && a.call.vendorId = vendorId && a.call.rfpId ≠ rfpId

/-- The chunks of a retrieval. One that raises returns none. -/
def returned (settings : RetrievalSettings) (services : RetrievalServices) (store : Store)
    (call : RetrievalCall) : List RetrievedChunk :=
  match runRetrievalAgent settings services store call with
  | .ok (output, _) => output.chunks
  | .error _ => []

/-- A retrieval for the vendor under the request for proposals gets what it would get had the
vendor submitted nothing else, and every point that it gets is of this request for proposals. -/
def Isolated (orgId : String) (vendorId : VendorId) (rfpId : String) (history : List Request) :
    Prop :=
  ∀ settings services call, call.orgId = orgId → call.vendorId = vendorId → call.rfpId = rfpId →
    returned settings services (storeAfter svc defence history) call =
        returned settings services (storeAfter svc defence
          (history.filter (fun a => !a.other orgId vendorId rfpId))) call ∧
      ∀ c ∈ returned settings services (storeAfter svc defence history) call,
        ∀ p, Hit (storeAfter svc defence history) (orgCollectionName orgId) orgId vendorId p →
          p.chunkId = c.chunkId → p.rfpId = rfpId

/-- The file has chunks, and the vector service answers until one of them is stored. -/
def Stores (call : IngestionCall) (file : SourceFile) (draw : FileDraw) : Prop :=
  ∃ chunks, chunksOf svc call file = .ok chunks ∧ chunks ≠ [] ∧
    draw.outage 0 = none ∧ draw.outage 1 = none

/-- No file that the call gets to is stored. The next file is read after one without chunks. -/
def StoresNothing (call : IngestionCall) : List (SourceFile × FileDraw) → Prop
  | [] => True
  | (file, draw) :: rest => ¬ Stores svc call file draw ∧
      (chunksOf svc call file = .ok [] → StoresNothing call rest)

variable {svc defence} {store store' : Store} {call : IngestionCall} {orgId rfpId : String}
  {vendorId : VendorId}

section Ingestions

def SamePoints (s t : Store) : Prop := ∀ name, points s name = points t name

theorem samePoints_upsert {name : String} {p : Point} (h : SamePoints store store') :
    SamePoints (upsertChunk name p store) (upsertChunk name p store') := by
  intro other
  rw [points_upsertChunk, points_upsertChunk, h name, h other]

theorem samePoints_create (name : String) (h : SamePoints store store') :
    SamePoints (createCollection name store) (createCollection name store') := by
  intro other
  rw [points_createCollection, points_createCollection, h other]

theorem samePoints_storePoints (outage : Nat → Option Exn) (name : String) (i : Nat)
    (ps : List Point) (h : SamePoints store store') :
    SamePoints (storePoints outage name i ps store).1 (storePoints outage name i ps store').1 ∧
      (storePoints outage name i ps store).2 = (storePoints outage name i ps store').2 := by
  induction ps generalizing i store store' with
  | nil => exact ⟨h, rfl⟩
  | cons p ps ih =>
      simp only [storePoints]
      cases outage i with
      | some exc => exact ⟨h, rfl⟩
      | none => exact ih _ (samePoints_upsert h)

variable (svc defence call) in
/-- What becomes of a file does not depend on what is stored. -/
theorem samePoints_file (file : SourceFile) (draw : FileDraw) (h : SamePoints store store') :
    SamePoints (ingestSingleFile svc defence call file draw store).1
        (ingestSingleFile svc defence call file draw store').1 ∧
      (ingestSingleFile svc defence call file draw store).2 =
        (ingestSingleFile svc defence call file draw store').2 := by
  rcases ingestSingleFile_cases svc defence call file draw with
    ⟨r, hleft, _⟩ | ⟨chunks, judgement, _, _, _, hstored⟩
  · rw [hleft, hleft]
    exact ⟨h, rfl⟩
  · obtain ⟨hpoints, hresult⟩ := samePoints_storePoints draw.outage
      (orgCollectionName call.orgId) 1 (chunks.map (pointOf call draw.docId file.filename))
      (samePoints_create (orgCollectionName call.orgId) h)
    rw [hstored, hstored]
    exact ⟨hpoints, congrArg (Except.map fun _ => judgement) hresult⟩

theorem samePoints_files {files : List (SourceFile × FileDraw)}
    {judged judged' : List (IngestionOutput × CriticOutput)} (h : SamePoints store store') :
    SamePoints (ingestFiles svc defence call files ⟨store, judged⟩).1.store
      (ingestFiles svc defence call files ⟨store', judged'⟩).1.store := by
  induction files generalizing store store' judged judged' with
  | nil => exact h
  | cons f rest ih =>
      obtain ⟨file, draw⟩ := f
      obtain ⟨hpoints, hresult⟩ := samePoints_file svc defence call file draw h
      simp only [ingestFiles]
      revert hpoints hresult
      generalize ingestSingleFile svc defence call file draw store = left
      generalize ingestSingleFile svc defence call file draw store' = right
      obtain ⟨s, r⟩ := left
      obtain ⟨t, q⟩ := right
      rintro hpoints rfl
      cases r with
      | error exc => exact hpoints
      | ok judgement => exact ih hpoints

theorem samePoints_ingest {a : Request} (h : SamePoints store store') :
    SamePoints (ingest svc defence store a) (ingest svc defence store' a) := by
  simp only [ingest, runIngestionAgent_progress]
  exact samePoints_files h

variable (defence store) in
/-- A file that is not stored leaves the points as they are. -/
theorem unstored_file {file : SourceFile} {draw : FileDraw} (h : ¬ Stores svc call file draw) :
    SamePoints (ingestSingleFile svc defence call file draw store).1 store := by
  intro name
  rcases ingestSingleFile_cases svc defence call file draw with
    ⟨r, hleft, _⟩ | ⟨chunks, judgement, hchunks, hne, hcreate, hstored⟩
  · rw [hleft]
  · rw [hstored]
    cases hfirst : draw.outage 1 with
    | none => exact absurd ⟨chunks, hchunks, hne, hcreate, hfirst⟩ h
    | some exc =>
        obtain ⟨c, cs, rfl⟩ := List.exists_cons_of_ne_nil hne
        simp only [storeChunks, List.map_cons, storePoints, hfirst]
        exact points_createCollection name

theorem unstored_files {files : List (SourceFile × FileDraw)}
    {judged : List (IngestionOutput × CriticOutput)} (h : StoresNothing svc call files) :
    SamePoints (ingestFiles svc defence call files ⟨store, judged⟩).1.store store := by
  induction files generalizing store judged with
  | nil => exact fun _ => rfl
  | cons f rest ih =>
      obtain ⟨file, draw⟩ := f
      have hpoints := unstored_file defence store h.1
      simp only [ingestFiles]
      cases hfile : ingestSingleFile svc defence call file draw store with
      | mk s r =>
          rw [hfile] at hpoints
          cases r with
          | error exc => exact hpoints
          | ok judgement =>
              obtain ⟨_, chunks, hchunks, hanswered, _⟩ := ingestSingleFile_ok hfile
              have hnil : chunks = [] := by
                by_contra hne
                have hout := hanswered hne
                exact h.1 ⟨chunks, hchunks, hne, hout 0 (Nat.zero_le _),
                  hout 1 (List.length_pos_iff.mpr hne)⟩
              intro name
              exact (ih (h.2 (hnil ▸ hchunks)) name).trans (hpoints name)

def OfCall (call : IngestionCall) (p : Point) : Prop :=
  p.orgId = call.orgId ∧ p.vendorId = call.vendorId ∧ p.rfpId = call.rfpId

theorem mem_points_storePoints {outage : Nat → Option Exn} {name other : String} {i : Nat}
    {ps : List Point} {p : Point} (h : p ∈ points (storePoints outage name i ps store).1 other) :
    p ∈ points store other ∨ p ∈ ps := by
  induction ps generalizing i store with
  | nil => exact Or.inl h
  | cons q ps ih =>
      simp only [storePoints] at h
      cases hi : outage i with
      | some exc =>
          rw [hi] at h
          exact Or.inl h
      | none =>
          rw [hi] at h
          rcases ih h with hp | hp
          · rw [points_upsertChunk] at hp
            split at hp
            · rename_i hother
              rcases KeyedTable.mem_upsert.mp hp with rfl | ⟨hp, _⟩
              · exact Or.inr List.mem_cons_self
              · exact Or.inl (hother ▸ hp)
            · exact Or.inl hp
          · exact Or.inr (List.mem_cons_of_mem q hp)

theorem mem_points_file {file : SourceFile} {draw : FileDraw} {name : String} {p : Point}
    (h : p ∈ points (ingestSingleFile svc defence call file draw store).1 name) :
    p ∈ points store name ∨ OfCall call p := by
  rcases ingestSingleFile_cases svc defence call file draw with
    ⟨r, hleft, _⟩ | ⟨chunks, judgement, _, _, _, hstored⟩
  · rw [hleft] at h
    exact Or.inl h
  · rw [hstored] at h
    rcases mem_points_storePoints h with hp | hp
    · rw [points_createCollection] at hp
      exact Or.inl hp
    · obtain ⟨d, _, rfl⟩ := List.mem_map.mp hp
      exact Or.inr ⟨rfl, rfl, rfl⟩

theorem mem_points_files {files : List (SourceFile × FileDraw)} {name : String} {p : Point}
    {judged : List (IngestionOutput × CriticOutput)}
    (h : p ∈ points (ingestFiles svc defence call files ⟨store, judged⟩).1.store name) :
    p ∈ points store name ∨ OfCall call p := by
  induction files generalizing store judged with
  | nil => exact Or.inl h
  | cons f rest ih =>
      obtain ⟨file, draw⟩ := f
      have hfile : ∀ q, q ∈ points (ingestSingleFile svc defence call file draw store).1 name →
          q ∈ points store name ∨ OfCall call q := fun _ hq => mem_points_file hq
      simp only [ingestFiles] at h
      revert h hfile
      generalize ingestSingleFile svc defence call file draw store = result
      obtain ⟨s, r⟩ := result
      intro h hfile
      cases r with
      | error exc => exact hfile p h
      | ok judgement => exact (ih h).elim (hfile p) Or.inr

/-- A stored file leaves a point of the call, and what the call stores later keeps one. -/
def Stocked (call : IngestionCall) (store : Store) : Prop :=
  ∃ p ∈ points store (orgCollectionName call.orgId), OfCall call p

theorem stocked_upsert {p : Point} (hp : OfCall call p) :
    Stocked call (upsertChunk (orgCollectionName call.orgId) p store) := by
  refine ⟨p, ?_, hp⟩
  rw [points_upsertChunk, if_pos rfl]
  exact KeyedTable.mem_upsert.mpr (Or.inl rfl)

theorem stocked_storePoints {outage : Nat → Option Exn} {i : Nat} {ps : List Point}
    (hps : ∀ p ∈ ps, OfCall call p) (h : Stocked call store) :
    Stocked call (storePoints outage (orgCollectionName call.orgId) i ps store).1 := by
  induction ps generalizing i store with
  | nil => exact h
  | cons p ps ih =>
      obtain ⟨hp, hrest⟩ := List.forall_mem_cons.mp hps
      simp only [storePoints]
      cases outage i with
      | some exc => exact h
      | none => exact ih hrest (stocked_upsert hp)

variable (call) in
theorem ofCall_pointOf (docId filename : String) (chunks : List Chunk) :
    ∀ p ∈ chunks.map (pointOf call docId filename), OfCall call p := by
  intro p hp
  obtain ⟨c, _, rfl⟩ := List.mem_map.mp hp
  exact ⟨rfl, rfl, rfl⟩

variable (defence) in
theorem stocked_file {file : SourceFile} {draw : FileDraw}
    (h : Stocked call store ∨ Stores svc call file draw) :
    Stocked call (ingestSingleFile svc defence call file draw store).1 := by
  rcases ingestSingleFile_cases svc defence call file draw with
    ⟨r, hleft, hout⟩ | ⟨chunks, judgement, _, hne, _, hstored⟩
  · rw [hleft]
    exact h.resolve_right fun ⟨chunks, hchunks, hne, hcreate, _⟩ => hout chunks hchunks hne hcreate
  · rw [hstored]
    have hpoints := ofCall_pointOf call draw.docId file.filename chunks
    rcases h with ⟨p, hp, hcall⟩ | ⟨_, _, _, _, hfirst⟩
    · exact stocked_storePoints hpoints ⟨p, by rwa [points_createCollection], hcall⟩
    · obtain ⟨c, cs, rfl⟩ := List.exists_cons_of_ne_nil hne
      rw [List.map_cons] at hpoints
      obtain ⟨hp, hrest⟩ := List.forall_mem_cons.mp hpoints
      simp only [storeChunks, List.map_cons, storePoints, hfirst]
      exact stocked_storePoints hrest (stocked_upsert hp)

theorem stocked_files {files : List (SourceFile × FileDraw)}
    {judged : List (IngestionOutput × CriticOutput)}
    (h : Stocked call store ∨ ¬ StoresNothing svc call files) :
    Stocked call (ingestFiles svc defence call files ⟨store, judged⟩).1.store := by
  induction files generalizing store judged with
  | nil => exact h.resolve_right (fun hnot => hnot trivial)
  | cons f rest ih =>
      obtain ⟨file, draw⟩ := f
      simp only [ingestFiles]
      by_cases hnow : Stocked call store ∨ Stores svc call file draw
      · have hstocked := stocked_file defence hnow
        revert hstocked
        generalize ingestSingleFile svc defence call file draw store = result
        obtain ⟨s, r⟩ := result
        intro hstocked
        cases r with
        | error exc => exact hstocked
        | ok judgement => exact ih (Or.inl hstocked)
      · -- the file has no chunks, and the call gets to one that is stored
        obtain ⟨hempty, hunstored⟩ := not_or.mp hnow
        have hrest : chunksOf svc call file = .ok [] ∧ ¬ StoresNothing svc call rest := by
          have hnot := h.resolve_left hempty
          simpa [StoresNothing, hunstored] using hnot
        obtain ⟨content, hcontent, hdoc⟩ := bind_eq_ok.mp hrest.1
        simp only [ingestSingleFile, hcontent, hdoc]
        exact ih (Or.inr hrest.2)

end Ingestions

section Searches

variable {settings : RetrievalSettings} {services : RetrievalServices} {query : RetrievalCall}

theorem returned_hit {c : RetrievedChunk} (h : c ∈ returned settings services store query) :
    ∃ p, Hit store (orgCollectionName query.orgId) query.orgId query.vendorId p ∧
      p.chunkId = c.chunkId := by
  unfold returned at h
  split at h
  · rename_i output critic heq
    obtain ⟨_, p, hp, hid, _⟩ := runRetrievalAgent_sound heq c h
    exact ⟨p, hp, hid⟩
  · cases h

theorem returned_eq_nil (h : points store (orgCollectionName query.orgId) = ∅) :
    returned settings services store query = [] := by
  refine List.eq_nil_iff_forall_not_mem.mpr (fun c hc => ?_)
  obtain ⟨p, hp, _⟩ := returned_hit hc
  rw [hit_iff, h] at hp
  exact KeyedTable.not_mem_empty p hp.1

/-- The answer of a search depends on the points that it goes through only. -/
theorem returned_congr (h : SamePoints store store') :
    returned settings services store query = returned settings services store' query := by
  have hpoints := h (orgCollectionName query.orgId)
  by_cases hempty : points store (orgCollectionName query.orgId) = ∅
  · rw [returned_eq_nil hempty, returned_eq_nil (hpoints.symm.trans hempty)]
  · have hsome : ∀ s : Store, points s (orgCollectionName query.orgId) ≠ ∅ →
        s.get? (orgCollectionName query.orgId) =
          some (points s (orgCollectionName query.orgId)) := by
      intro s hs
      cases hget : s.get? (orgCollectionName query.orgId) with
      | none => exact absurd (by rw [points, hget, Option.getD_none]) hs
      | some c => rw [points, hget, Option.getD_some]
    have hget : store.get? (orgCollectionName query.orgId) =
        store'.get? (orgCollectionName query.orgId) := by
      rw [hsome store hempty, hsome store' (hpoints ▸ hempty), hpoints]
    simp only [returned, runRetrievalAgent, rawResults, searchDense, searchHybrid, getCollection,
      hget]

/-- A search for everything that there is. -/
def searchAll (orgId : String) (vendorId : VendorId) (rfpId : String) (n : Nat) : RetrievalCall where
  query := "registration"
  vendorId := vendorId
  orgId := orgId
  rfpId := rfpId
  useRewriting := false
  nCandidates := n
  nFinal := n

theorem confidence_ones {chunks : List RetrievedChunk} (hne : chunks ≠ [])
    (hones : ∀ c ∈ chunks, c.finalScore = 1) : retrievalConfidence vectorOrder chunks false = 1 := by
  have hsum : (chunks.map RetrievedChunk.finalScore).sum = chunks.length := by
    rw [List.sum_eq_card_nsmul _ 1 (by simpa using hones), List.length_map, nsmul_one]
  have hlength : (chunks.length : ℚ) ≠ 0 := by simpa using hne
  have hround : PyText.round 1 3 = 1 := by decide +kernel
  simp only [retrievalConfidence, if_neg hne, hsum, div_self hlength]
  simpa using hround

theorem mem_rerankNone {c : Candidate} {cs : List Candidate} {topN : Nat} (hc : c ∈ cs)
    (hlength : cs.length ≤ topN) : { c with rerankScore := some c.score } ∈ rerankNone cs topN := by
  unfold rerankNone byRerankScore
  rw [List.take_of_length_le (by simpa using hlength), List.mem_insertionSort]
  exact List.mem_map.mpr ⟨c, hc, rfl⟩

theorem rerank_vectorOrder (cs : List Candidate) {topN : Nat} {text : String} (hne : cs ≠ []) :
    rerank vectorOrder services text cs topN none = (rerankNone cs topN, []) := by
  have hprovider : String.ofList (PyText.lower vectorOrder.rerankerProvider) = "none" := by
    decide +kernel
  have hunknown : "none" ∉ knownProviders := by decide +kernel
  simp only [rerank, if_neg hne, Option.filter_none, Option.getD_none, hprovider, if_neg hunknown,
    if_pos]

def candidate (hit : SearchHit) : Candidate :=
  { text := hit.text, score := hit.score, payload := hit.payload }

/-- The hits in vector order, cut off at the number that is asked for. -/
def inVectorOrder (call : RetrievalCall) (hits : List SearchHit) : List RetrievedChunk :=
  (reorder (rerankNone (hits.map candidate) call.nFinal)).map (retrievedChunk call)

theorem returned_of_hits {n : Nat} {hits : List SearchHit} (hne : hits ≠ [])
    (hraw : rawResults exhaustiveServices store (searchAll orgId vendorId rfpId n) [1] = .ok hits)
    (hchunks : inVectorOrder (searchAll orgId vendorId rfpId n) hits ≠ [])
    (hones : ∀ hit ∈ hits, hit.score = 1) :
    returned vectorOrder exhaustiveServices store (searchAll orgId vendorId rfpId n) =
      inVectorOrder (searchAll orgId vendorId rfpId n) hits := by
  let call := searchAll orgId vendorId rfpId n
  have hscores : ∀ c ∈ inVectorOrder call hits, c.finalScore = 1 := by
    intro c hc
    obtain ⟨d, hd, rfl⟩ := List.mem_map.mp hc
    obtain ⟨e, he, rfl⟩ := List.mem_map.mp (mem_byRerankScore (mem_reorder.mp hd))
    obtain ⟨hit, hhit, rfl⟩ := List.mem_map.mp he
    exact hones hit hhit
  have hconfidence : retrievalConfidence vectorOrder (inVectorOrder call hits) false = 1 :=
    confidence_ones hchunks hscores
  have hrerank : rerank vectorOrder exhaustiveServices call.query
      (hits.map (fun r => { text := r.text, score := r.score, payload := r.payload }))
      ((call.orgSettings.map OrgSettings.rerankTopN).getD call.nFinal)
      (call.orgSettings.map OrgSettings.rerankerProvider) =
      (rerankNone (hits.map candidate) n, []) :=
    rerank_vectorOrder (hits.map candidate) (by simpa using hne)
  have hagent : ∃ output critic,
      runRetrievalAgent vectorOrder exhaustiveServices store call = .ok (output, critic) ∧
        output.chunks = inVectorOrder call hits := by
    let output : RetrievalOutput :=
      ⟨"registration", inVectorOrder call hits, 1, (inVectorOrder call hits).isEmpty, false, []⟩
    refine ⟨output, criticAfterRetrieval output false, ?_, rfl⟩
    simp only [runRetrievalAgent, bind_eq_ok]
    refine ⟨"registration", rfl, [1], rfl, hits, hraw, ?_⟩
    rw [if_neg hne]
    simp only [hrerank, List.isEmpty_nil, Bool.not_true]
    refine bind_eq_ok.mpr ⟨(), raiseIf_eq_ok.mpr ?_, ?_⟩
    · change ¬ (retrievalConfidence vectorOrder (inVectorOrder call hits) false < 0 ∨
        1 < retrievalConfidence vectorOrder (inVectorOrder call hits) false)
      rw [hconfidence]
      norm_num
    · change Except.ok ({ output with
        confidence := retrievalConfidence vectorOrder (inVectorOrder call hits) false },
        criticAfterRetrieval { output with
          confidence := retrievalConfidence vectorOrder (inVectorOrder call hits) false } false) = _
      rw [hconfidence]
  obtain ⟨output, critic, hok, houtput⟩ := hagent
  rw [returned, hok]
  exact houtput

variable (rfpId) in
/-- An exhaustive search in vector order returns every point of the vendor. -/
theorem searchAll_returned {p : Point} (h : Hit store (orgCollectionName orgId) orgId vendorId p) :
    ∃ n, ∃ c ∈ returned vectorOrder exhaustiveServices store (searchAll orgId vendorId rfpId n),
      c.chunkId = p.chunkId := by
  obtain ⟨coll, hget, hp, horg, hvendor⟩ := h
  refine ⟨coll.rows.length, ?_⟩
  have hselects : VectorQuery.Selects p (.dense [1] (searchMust orgId vendorId none)) := by
    have hmust : searchMust orgId vendorId none = tenantMust orgId vendorId := List.append_nil _
    rw [hmust]
    exact matchesAll_tenantMust.mpr ⟨horg, hvendor⟩
  obtain ⟨hits, hraw, hmem, hlength, hscores⟩ : ∃ hits,
      rawResults exhaustiveServices store (searchAll orgId vendorId rfpId coll.rows.length) [1] =
        .ok hits ∧ SearchHit.ofScored ⟨p, 1⟩ ∈ hits ∧ hits.length ≤ coll.rows.length ∧
        ∀ hit ∈ hits, hit.score = 1 := by
    have hall : (coll.rows.filter (fun q => VectorQuery.Selects q
        (.dense [1] (searchMust orgId vendorId none)))).length ≤ coll.rows.length :=
      List.length_filter_le _ _
    refine ⟨((coll.rows.filter (fun q => VectorQuery.Selects q
      (.dense [1] (searchMust orgId vendorId none)))).map (⟨·, 1⟩)).map SearchHit.ofScored,
      ?_, ?_, ?_, ?_⟩
    · have hcollection : getCollection store (orgCollectionName orgId) = .ok coll :=
        orRaise_eq_ok.mpr hget
      simp only [rawResults, searchAll, searchDense, hcollection, exhaustiveServices,
        SearchEngine.exhaustive,
        Option.map_none, Option.getD_none, Bool.false_eq_true, if_false]
      change Except.ok _ = _
      rw [List.take_of_length_le hall]
    · refine List.mem_map.mpr ⟨⟨p, 1⟩, List.mem_map.mpr ⟨p, List.mem_filter.mpr ⟨hp, ?_⟩, rfl⟩, rfl⟩
      exact decide_eq_true hselects
    · simpa using hall
    · intro hit hhit
      obtain ⟨r, hr, rfl⟩ := List.mem_map.mp hhit
      obtain ⟨q, _, rfl⟩ := List.mem_map.mp hr
      rfl
  have hkept : ({ text := p.text, score := 1, payload := p, rerankScore := some 1 } : Candidate) ∈
      reorder (rerankNone (hits.map candidate) coll.rows.length) :=
    mem_reorder.mpr (mem_rerankNone (List.mem_map.mpr ⟨_, hmem, rfl⟩) (by simpa using hlength))
  have hin := List.mem_map.mpr ⟨_, hkept, (rfl : retrievedChunk
    (searchAll orgId vendorId rfpId coll.rows.length) _ = _)⟩
  have hanswer := returned_of_hits (List.ne_nil_of_mem hmem) hraw (List.ne_nil_of_mem hin) hscores
  rw [hanswer]
  exact ⟨_, hin, rfl⟩

end Searches

section Histories

variable {history : List Request}

def OwnOnly (orgId : String) (vendorId : VendorId) (rfpId : String) (store : Store) : Prop :=
  ∀ p, Hit store (orgCollectionName orgId) orgId vendorId p → p.rfpId = rfpId

theorem ownOnly_ingest {a : Request} (h : OwnOnly orgId vendorId rfpId store)
    (hother : a.other orgId vendorId rfpId = false) :
    OwnOnly orgId vendorId rfpId (ingest svc defence store a) := by
  intro p hp
  obtain ⟨hmem, horg, hvendor⟩ := hit_iff.mp hp
  rw [ingest, runIngestionAgent_progress] at hmem
  rcases mem_points_files hmem with hold | ⟨hcorg, hcvendor, hcrfp⟩
  · exact h p (hit_iff.mpr ⟨hold, horg, hvendor⟩)
  · by_contra hne
    rw [hcrfp] at hne
    simp [Request.other, hcorg.symm.trans horg, hcvendor.symm.trans hvendor, hne] at hother

variable (defence store) in
theorem ingest_unstored {a : Request}
    (h : StoresNothing svc a.call (drawFiles a.draw (a.upload.files svc))) :
    SamePoints (ingest svc defence store a) store := by
  rw [ingest, runIngestionAgent_progress]
  exact unstored_files h

variable (defence) in
/-- The other documents that are not stored make no difference to the points. -/
theorem points_without_others
    (hothers : ∀ a ∈ history, a.other orgId vendorId rfpId = true →
      StoresNothing svc a.call (drawFiles a.draw (a.upload.files svc)))
    (hsame : SamePoints store store') (hown : OwnOnly orgId vendorId rfpId store) :
    SamePoints (history.foldl (ingest svc defence) store)
        ((history.filter (fun a => !a.other orgId vendorId rfpId)).foldl (ingest svc defence)
          store') ∧
      OwnOnly orgId vendorId rfpId (history.foldl (ingest svc defence) store) := by
  induction history generalizing store store' with
  | nil => exact ⟨hsame, hown⟩
  | cons a history ih =>
      obtain ⟨ha, hrest⟩ := List.forall_mem_cons.mp hothers
      cases hother : a.other orgId vendorId rfpId with
      | false =>
          rw [List.filter_cons_of_pos (by simp [hother])]
          exact ih hrest (samePoints_ingest hsame) (ownOnly_ingest hown hother)
      | true =>
          rw [List.filter_cons_of_neg (by simp [hother])]
          have hstill := ingest_unstored defence store (ha hother)
          refine ih hrest (fun name => (hstill name).trans (hsame name)) (fun p hp => hown p ?_)
          rw [hit_iff] at hp ⊢
          rwa [hstill] at hp

/-- A history keeps the vendor's requests for proposals apart at every moment, if and only if
what the vendor submitted under the others is never stored. -/
theorem rfp_isolation_iff : (∀ pre, pre <+: history → Isolated svc defence orgId vendorId rfpId pre) ↔
    ∀ a ∈ history, a.other orgId vendorId rfpId = true →
      StoresNothing svc a.call (drawFiles a.draw (a.upload.files svc)) := by
  constructor
  · intro hisolated a ha hother
    obtain ⟨before, after, rfl⟩ := List.append_of_mem ha
    by_contra hstores
    have hstocked : Stocked a.call (storeAfter svc defence (before ++ [a])) := by
      rw [storeAfter, List.foldl_append, List.foldl_cons, List.foldl_nil, ingest,
        runIngestionAgent_progress]
      exact stocked_files (Or.inr hstores)
    obtain ⟨p, hp, hporg, hpvendor, hprfp⟩ := hstocked
    simp only [Request.other, Bool.and_eq_true, decide_eq_true_eq] at hother
    obtain ⟨⟨horg, hvendor⟩, hrfp⟩ := hother
    have hhit : Hit (storeAfter svc defence (before ++ [a])) (orgCollectionName orgId) orgId
        vendorId p :=
      hit_iff.mpr ⟨horg ▸ hp, hporg.trans horg, hpvendor.trans hvendor⟩
    obtain ⟨n, c, hc, hid⟩ := searchAll_returned rfpId hhit
    have hown := (hisolated (before ++ [a]) ⟨after, by simp⟩ vectorOrder exhaustiveServices
      (searchAll orgId vendorId rfpId n) rfl rfl rfl).2 c hc p hhit hid.symm
    exact hrfp (hprfp.symm.trans hown)
  · rintro hothers pre hpre settings services call rfl rfl _
    have hown : OwnOnly call.orgId call.vendorId rfpId ∅ := fun p hp => absurd hp.holds not_holds_empty
    obtain ⟨hpoints, hpure⟩ := points_without_others defence
      (fun a ha => hothers a (hpre.subset ha)) (fun name => rfl : SamePoints ∅ ∅) hown
    exact ⟨returned_congr hpoints, fun c _ p hp _ => hpure p hp⟩

def otherCall : IngestionCall := { acmeCall with rfpId := "rfp-2" }

/-- What a vendor submitted under one request for proposals answers a question about another. -/
theorem other_document_returned : ¬ Isolated clean shippedDefence "o" "acme" "rfp"
    [⟨otherCall, acmeUpload, quietDraw⟩] := by
  intro hisolated
  obtain ⟨cs, hcs, hne, _⟩ := clean_not_refused
  have hfiles : acmeUpload.files clean = [acmeFile] := if_neg (by decide +kernel)
  have hstores : Stores clean otherCall acmeFile (quietDraw.file 0) := ⟨cs, hcs, hne, rfl, rfl⟩
  have hstocked : Stocked otherCall (storeAfter clean shippedDefence
      [⟨otherCall, acmeUpload, quietDraw⟩]) := by
    rw [storeAfter, List.foldl_cons, List.foldl_nil, ingest, runIngestionAgent_progress, hfiles]
    simp only [drawFiles, List.mapIdx_cons, List.mapIdx_nil]
    exact stocked_files (Or.inr (fun h => h.1 hstores))
  obtain ⟨p, hp, hporg, hpvendor, hprfp⟩ := hstocked
  have hhit := hit_iff.mpr ⟨hp, hporg, hpvendor⟩
  obtain ⟨n, c, hc, hid⟩ := searchAll_returned "rfp" hhit
  have hown : p.rfpId = "rfp" := (hisolated vectorOrder exhaustiveServices
    (searchAll "o" "acme" "rfp" n) rfl rfl rfl).2 c hc p hhit hid.symm
  have hother : p.rfpId = "rfp-2" := hprfp
  exact absurd (hother.symm.trans hown) (by decide)

end Histories

end RfpPlatform.RfpIsolation
