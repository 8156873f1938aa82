import RfpPlatform.ExceptRules
import RfpPlatform.Ingestion
import RfpPlatform.PlanOrder

namespace RfpPlatform.EmbeddingBatches

open ExceptRules Ingestion PyText VectorStore

section Batches

universe u

variable {α : Type u} {size : Nat} {items batch : List α}

/-- `items[i:i + size]` for `i` in `range(0, len(items), size)` -/
def chunked (size : Nat) (items : List α) : List (List α) :=
  (List.range ((items.length + (size - 1)) / size)).map (fun k => (items.drop (k * size)).take size)

theorem flatten_slices (n : Nat) :
    ((List.range n).map (fun k => (items.drop (k * size)).take size)).flatten =
      items.take (n * size) := by
  induction n with
  | zero => rw [Nat.zero_mul, List.take_zero, List.range_zero, List.map_nil, List.flatten_nil]
  | succ n ih =>
      rw [List.range_succ, List.map_append, List.flatten_append, ih, List.map_singleton,
        List.flatten_singleton, Nat.succ_mul, List.take_add]

theorem flatten_chunked (hsize : 0 < size) : (chunked size items).flatten = items := by
  rw [chunked, flatten_slices, List.take_of_length_le]
  have hlast := Nat.div_add_mod (items.length + (size - 1)) size
  have hmod := Nat.mod_lt (items.length + (size - 1)) hsize
  rw [Nat.mul_comm] at hlast
  omega

theorem length_le_of_mem_chunked (h : batch ∈ chunked size items) : batch.length ≤ size := by
  obtain ⟨k, _, rfl⟩ := List.mem_map.mp h
  exact List.length_take_le ..

theorem ne_nil_of_mem_chunked (hsize : 0 < size) (h : batch ∈ chunked size items) : batch ≠ [] := by
  obtain ⟨k, hk, rfl⟩ := List.mem_map.mp h
  have hstart : k * size + size ≤ items.length + (size - 1) := by
    rw [← Nat.succ_mul, ← Nat.le_div_iff_mul_le hsize]
    exact List.mem_range.mp hk
  apply List.ne_nil_of_length_pos
  rw [List.length_take, List.length_drop]
  omega

end Batches

section Providers

abbrev Vector := List PyFloat

structure EmbeddingSettings where
  embeddingProvider : String
  skipEmbeddings : Bool
  openaiModel : String
  azureOpenaiEmbeddingDeployment : String
  embeddingModelLocal : String
  dimensions : String → Option Nat

/-- What answers a request, under the name of a model. -/
structure EmbeddingServices where
  openai : String → List String → Except Exn (List Vector)
  azure : String → List String → Except Exn (List Vector)
  encode : String → List String → Except Exn (List Vector)
  encodeOnModal : String → List String → Except Exn (List Vector)

variable (settings : EmbeddingSettings) (svc : EmbeddingServices)

def apiEmbedBatchSize : Nat := 256

def EmbeddingSettings.provider : String := String.ofList (lower settings.embeddingProvider)

def getActiveModelName : String :=
  if settings.provider = "openai" ∨ settings.provider = "azure" then
    if settings.provider = "azure" then settings.azureOpenaiEmbeddingDeployment
    else settings.openaiModel
  else settings.embeddingModelLocal

def getEmbeddingDimensions : Nat := (settings.dimensions (getActiveModelName settings)).getD 3072

def zeros : Vector := List.replicate (getEmbeddingDimensions settings) 0

/-- `t[:8000]` -/
def truncated (t : String) : String := prefixOf 8000 t

/-- The requests of a hosted model, in turn. -/
def embedApi (create : List String → Except Exn (List Vector)) (texts : List String) :
    Except Exn (List Vector) := do
  let replies ← (chunked apiEmbedBatchSize texts).mapM (fun batch => create (batch.map truncated))
  return replies.flatten

def embedOpenai (texts : List String) : Except Exn (List Vector) :=
  embedApi (svc.openai settings.openaiModel) texts

def embedAzure (texts : List String) : Except Exn (List Vector) :=
  embedApi (svc.azure settings.azureOpenaiEmbeddingDeployment) texts

def embedLocal (texts : List String) : Except Exn (List Vector) :=
  svc.encode settings.embeddingModelLocal (texts.map truncated)

def embedBatchOnModal (texts : List String) (modelName : String) : Except Exn (List Vector) :=
  svc.encodeOnModal modelName (texts.map truncated)

def embedModalBatch (texts : List String) : Except Exn (List Vector) :=
  match embedBatchOnModal svc texts settings.embeddingModelLocal with
  | .ok vectors => .ok vectors
  | .error _ => embedLocal settings svc texts

def unknownProvider : Exn :=
  ⟨.valueError, s!"Unknown EMBEDDING_PROVIDER: '{settings.provider}'. " ++
    "Valid options: openai, azure, local, modal"⟩

def first (vectors : List Vector) : Except Exn Vector :=
  orRaise vectors.head? ⟨.indexError, "list index out of range"⟩

def embedText (text : String) : Except Exn Vector :=
  if settings.skipEmbeddings then .ok (zeros settings)
  else if settings.provider = "openai" then embedOpenai settings svc [text] >>= first
  else if settings.provider = "azure" then embedAzure settings svc [text] >>= first
  else if settings.provider = "local" ∨ settings.provider = "modal" then
    embedLocal settings svc [text] >>= first
  else .error (unknownProvider settings)

def embedBatch (texts : List String) : Except Exn (List Vector) :=
  if texts = [] then .ok []
  else if settings.skipEmbeddings then .ok (texts.map (fun _ => zeros settings))
  else if settings.provider = "openai" then embedOpenai settings svc texts
  else if settings.provider = "azure" then embedAzure settings svc texts
  else if settings.provider = "local" then embedLocal settings svc texts
  else if settings.provider = "modal" then embedModalBatch settings svc texts
  else .error (unknownProvider settings)

end Providers

section Alignment

/-- A request within the ceilings of a hosted model. -/
structure Fits (texts : List String) : Prop where
  nonempty : texts ≠ []
  count : texts.length ≤ apiEmbedBatchSize
  short : ∀ t ∈ texts, t.length ≤ 8000

/-- A request that is answered has one vector for each of its texts, in their order; a hosted model
answers those within its ceilings so. -/
structure Answers (svc : EmbeddingServices) (vec : String → String → Vector) : Prop where
  openai : ∀ m ts vs, Fits ts → svc.openai m ts = .ok vs → vs = ts.map (vec m)
  azure : ∀ m ts vs, Fits ts → svc.azure m ts = .ok vs → vs = ts.map (vec m)
  encode : ∀ m ts vs, (∀ t ∈ ts, t.length ≤ 8000) → svc.encode m ts = .ok vs → vs = ts.map (vec m)
  encodeOnModal : ∀ m ts vs, (∀ t ∈ ts, t.length ≤ 8000) → svc.encodeOnModal m ts = .ok vs →
    vs = ts.map (vec m)

def embedding (settings : EmbeddingSettings) (vec : String → String → Vector) (text : String) :
    Vector :=
  if settings.skipEmbeddings then zeros settings
  else vec (getActiveModelName settings) (truncated text)

variable {settings : EmbeddingSettings} {svc : EmbeddingServices} {vec : String → String → Vector}
  {texts : List String} {vectors : List Vector}

theorem length_truncated (t : String) : (truncated t).length ≤ 8000 := by
  rw [truncated, prefixOf, String.length_ofList]
  exact List.length_take_le ..

theorem short_of_mem_map_truncated : ∀ t ∈ texts.map truncated, t.length ≤ 8000 := by
  intro t ht
  obtain ⟨s, _, rfl⟩ := List.mem_map.mp ht
  exact length_truncated s

theorem fits_of_mem_chunked {batch : List String}
    (h : batch ∈ chunked apiEmbedBatchSize texts) : Fits (batch.map truncated) where
  nonempty := fun hnil => ne_nil_of_mem_chunked (by decide) h (List.map_eq_nil_iff.mp hnil)
  count := by
    rw [List.length_map]
    exact length_le_of_mem_chunked h
  short := short_of_mem_map_truncated

theorem replies_eq {create : List String → Except Exn (List Vector)} {f : String → Vector}
    (hcreate : ∀ ts vs, Fits ts → create ts = .ok vs → vs = ts.map f)
    {batches : List (List String)} {replies : List (List Vector)}
    (hfits : ∀ batch ∈ batches, Fits (batch.map truncated))
    (h : batches.mapM (fun batch => create (batch.map truncated)) = .ok replies) :
    replies = batches.map (List.map (fun t => f (truncated t))) := by
  induction batches generalizing replies with
  | nil => exact (pure_eq_ok.mp h).symm
  | cons batch batches ih =>
      rw [List.mapM_cons] at h
      obtain ⟨reply, hreply, h⟩ := bind_eq_ok.mp h
      obtain ⟨rest, hrest, hpure⟩ := bind_eq_ok.mp h
      obtain rfl := pure_eq_ok.mp hpure
      obtain ⟨hbatch, hbatches⟩ := List.forall_mem_cons.mp hfits
      rw [hcreate _ _ hbatch hreply, ih hbatches hrest, List.map_map]
      rfl

/-- The replies of the requests, one behind the other, are in the order of the texts. -/
theorem embedApi_eq_ok {create : List String → Except Exn (List Vector)} {f : String → Vector}
    (hcreate : ∀ ts vs, Fits ts → create ts = .ok vs → vs = ts.map f)
    (h : embedApi create texts = .ok vectors) : vectors = texts.map (fun t => f (truncated t)) := by
  obtain ⟨replies, hmap, hpure⟩ := bind_eq_ok.mp h
  obtain rfl := pure_eq_ok.mp hpure
  rw [replies_eq hcreate (fun batch hbatch => fits_of_mem_chunked hbatch) hmap, ← List.map_flatten,
    flatten_chunked (by decide)]

theorem embedLocal_eq_ok (hsvc : Answers svc vec) (h : embedLocal settings svc texts = .ok vectors) :
    vectors = texts.map (fun t => vec settings.embeddingModelLocal (truncated t)) := by
  rw [hsvc.encode _ _ _ short_of_mem_map_truncated h, List.map_map]
  rfl

theorem embedModalBatch_eq_ok (hsvc : Answers svc vec)
    (h : embedModalBatch settings svc texts = .ok vectors) :
    vectors = texts.map (fun t => vec settings.embeddingModelLocal (truncated t)) := by
  rw [embedModalBatch] at h
  cases hremote : embedBatchOnModal svc texts settings.embeddingModelLocal with
  | ok vs =>
      rw [hremote] at h
      obtain rfl := Except.ok.inj h
      rw [hsvc.encodeOnModal _ _ _ short_of_mem_map_truncated hremote, List.map_map]
      rfl
  | error exc =>
      rw [hremote] at h
      exact embedLocal_eq_ok hsvc h

theorem activeModel_of_provider :
    (settings.provider = "openai" → getActiveModelName settings = settings.openaiModel) ∧
    (settings.provider = "azure" →
      getActiveModelName settings = settings.azureOpenaiEmbeddingDeployment) ∧
    (settings.provider = "local" ∨ settings.provider = "modal" →
      getActiveModelName settings = settings.embeddingModelLocal) := by
  simp only [getActiveModelName]
  refine ⟨fun h => ?_, fun h => ?_, fun h => ?_⟩
  · simp [h]
  · simp [h]
  · rcases h with h | h <;> simp [h]

theorem embedding_of_skip (hskip : settings.skipEmbeddings = true) :
    embedding settings vec = fun _ => zeros settings := by
  funext text
  rw [embedding, if_pos hskip]

theorem embedding_of_model {m : String} (hskip : ¬ settings.skipEmbeddings = true)
    (hmodel : getActiveModelName settings = m) :
    embedding settings vec = fun t => vec m (truncated t) := by
  funext text
  rw [embedding, if_neg hskip, hmodel]

theorem embedBatch_eq_ok (hsvc : Answers svc vec) (h : embedBatch settings svc texts = .ok vectors) :
    vectors = texts.map (embedding settings vec) := by
  obtain ⟨hopenai, hazure, hlocal⟩ := @activeModel_of_provider settings
  rw [embedBatch] at h
  by_cases hnil : texts = []
  · rw [if_pos hnil] at h
    obtain rfl := Except.ok.inj h
    rw [hnil, List.map_nil]
  rw [if_neg hnil] at h
  by_cases hskip : settings.skipEmbeddings = true
  · rw [if_pos hskip] at h
    obtain rfl := Except.ok.inj h
    rw [embedding_of_skip hskip]
  rw [if_neg hskip] at h
  split_ifs at h with hprovider hprovider hprovider hprovider
  · rw [embedding_of_model hskip (hopenai hprovider)]
    exact embedApi_eq_ok (hsvc.openai _) h
  · rw [embedding_of_model hskip (hazure hprovider)]
    exact embedApi_eq_ok (hsvc.azure _) h
  · rw [embedding_of_model hskip (hlocal (Or.inl hprovider))]
    exact embedLocal_eq_ok hsvc h
  · rw [embedding_of_model hskip (hlocal (Or.inr hprovider))]
    exact embedModalBatch_eq_ok hsvc h

theorem first_map {text : String} {vector : Vector} {f : String → Vector}
    {x : Except Exn (List Vector)} (hx : ∀ vs, x = .ok vs → vs = [text].map f)
    (h : x >>= first = .ok vector) : vector = f text := by
  obtain ⟨vs, hvs, h⟩ := bind_eq_ok.mp h
  obtain rfl := hx vs hvs
  exact (Except.ok.inj h).symm

theorem embedText_eq_ok {text : String} {vector : Vector} (hsvc : Answers svc vec)
    (h : embedText settings svc text = .ok vector) : vector = embedding settings vec text := by
  obtain ⟨hopenai, hazure, hlocal⟩ := @activeModel_of_provider settings
  rw [embedText] at h
  by_cases hskip : settings.skipEmbeddings = true
  · rw [if_pos hskip] at h
    obtain rfl := Except.ok.inj h
    rw [embedding_of_skip hskip]
  rw [if_neg hskip] at h
  split_ifs at h with hprovider hprovider hprovider
  · rw [embedding_of_model hskip (hopenai hprovider)]
    exact first_map (fun vs hvs => embedApi_eq_ok (hsvc.openai _) hvs) h
  · rw [embedding_of_model hskip (hazure hprovider)]
    exact first_map (fun vs hvs => embedApi_eq_ok (hsvc.azure _) hvs) h
  · rw [embedding_of_model hskip (hlocal hprovider)]
    exact first_map (fun vs hvs => embedLocal_eq_ok hsvc hvs) h

end Alignment

section Documents

variable {settings : EmbeddingSettings} {api : EmbeddingServices} {vec : String → String → Vector}
  {svc : DocumentServices} {content : Content} {filename orgId : String} {vendorId : VendorId}
  {setup : EvaluationSetup} {chunks : List Chunk}

theorem attachVectors_map {f : String → Vector} (cs : List Chunk) :
    attachVectors cs ((cs.map Chunk.text).map f) =
      cs.map (fun c => { c with denseVector := some (f c.text) }) := by
  induction cs with
  | nil => rfl
  | cons c cs ih => rw [List.map_cons, List.map_cons, List.map_cons, attachVectors, ih]

/-- The documents of an ingestion, with the embeddings of the configured provider. -/
def withEmbeddings (svc : DocumentServices) (settings : EmbeddingSettings)
    (api : EmbeddingServices) : DocumentServices :=
  { svc with embedBatch := embedBatch settings api }

/-- Every chunk has the vector of its own text, and a query has the vector that a chunk of its text
would have. -/
theorem chunks_embedded (hsvc : Answers api vec) (h : processDocument
      (withEmbeddings svc settings api) content filename vendorId orgId setup = .ok chunks) :
    (∀ c ∈ chunks, c.denseVector = some (embedding settings vec c.text)) ∧
      ∀ query vector, embedText settings api query = .ok vector →
        vector = embedding settings vec query := by
  refine ⟨?_, fun query vector hquery => embedText_eq_ok hsvc hquery⟩
  rw [processDocument] at h
  obtain ⟨rawText, _, h⟩ := bind_eq_ok.mp h
  split at h
  · obtain rfl := pure_eq_ok.mp h
    exact fun c hc => absurd hc List.not_mem_nil
  · obtain ⟨leaves, _, h⟩ := bind_eq_ok.mp h
    obtain ⟨sentences, _, h⟩ := bind_eq_ok.mp h
    obtain ⟨drafts, _, h⟩ := bind_eq_ok.mp h
    obtain ⟨vectors, hvectors, h⟩ := bind_eq_ok.mp h
    obtain rfl := pure_eq_ok.mp h
    obtain rfl := embedBatch_eq_ok hsvc hvectors
    intro c hc
    rw [attachVectors_map] at hc
    obtain ⟨draft, _, rfl⟩ := List.mem_map.mp hc
    rfl

def lengths (_ t : String) : Vector := [.fin t.length]

def lengthServices : EmbeddingServices where
  openai := fun m ts => .ok (ts.map (lengths m))
  azure := fun m ts => .ok (ts.map (lengths m))
  encode := fun m ts => .ok (ts.map (lengths m))
  encodeOnModal := fun _ _ => .error ⟨.external, "no connection"⟩

theorem lengthServices_answers : Answers lengthServices lengths where
  openai := fun _ _ _ _ h => (Except.ok.inj h).symm
  azure := fun _ _ _ _ h => (Except.ok.inj h).symm
  encode := fun _ _ _ _ h => (Except.ok.inj h).symm
  encodeOnModal := fun _ _ _ _ h => by cases h

def modalSettings : EmbeddingSettings := ⟨"Modal", false, "large", "deployment", "bge", fun _ => none⟩

def onePage : String := String.ofList (List.replicate 120 'a')

def pageServices : DocumentServices where
  readPdf := fun _ => .ok onePage
  readDocx := fun _ => .ok onePage
  decodeUtf8 := fun _ => onePage
  unzip := fun _ => .ok ⟨[], fun _ => .ok []⟩
  leafNodes := fun text => .ok [⟨text, some "Offer", 1⟩]
  sentenceNodes := fun text => .ok [⟨text, none, 1⟩]
  contentHash := fun _ => ""
  md5 := id
  uuidOfSha256 := id
  sparseEmbedding := fun _ => .ok ([], [])
  embedBatch := fun _ => .ok []

set_option maxRecDepth 4000 in
/-- One page, while the model on Modal cannot be reached. -/
theorem page_embedded : ∃ chunks, processDocument
    (withEmbeddings pageServices modalSettings lengthServices) [] "offer.txt" "acme" "org"
      PlanOrder.scoredSetup = .ok chunks ∧
    ∀ c ∈ chunks, c.denseVector = some (embedding modalSettings lengths c.text) := by
  have hpage : ∃ chunks, processDocument
      (withEmbeddings pageServices modalSettings lengthServices) [] "offer.txt" "acme" "org"
        PlanOrder.scoredSetup = .ok chunks := ⟨_, rfl⟩
  obtain ⟨chunks, hpage⟩ := hpage
  exact ⟨chunks, hpage, (chunks_embedded lengthServices_answers hpage).1⟩

end Documents

end RfpPlatform.EmbeddingBatches
