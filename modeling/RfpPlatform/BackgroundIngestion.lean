import RfpPlatform.Ingestion
import RfpPlatform.Retrieval
import RfpPlatform.VendorBranches

namespace RfpPlatform.BackgroundIngestion

open CriticRetry ExceptRules Extraction Ingestion PyText Retrieval VendorBranches

inductive JobStatus
  | received | superseded | queued | processing | factsReady | failed | duplicate
  | needsAttribution | rejectedLate
  deriving DecidableEq

structure Job where
  jobId : String
  orgId : String
  rfpId : String
  vendorId : VendorId
  sourceUri : Option String
  filename : Option String
  status : JobStatus
  error : Option String
  docId : Option String

structure StoredSetup where
  setup : EvaluationSetup
  confirmed : Bool
  createdAt : Nat

structure FactRow where
  docId : Option String
  orgId : String
  vendorId : VendorId
  setupId : Option String
  item : ExtractedItem

/-- The tables of the background path, with the foreign keys into `vendor_documents`. -/
structure FactStore where
  jobs : KeyedTable Job.jobId
  setups : List StoredSetup
  vendorDocuments : List String
  facts : List FactRow
  jobs_reference : ∀ job ∈ jobs, ∀ d, job.docId = some d → d ∈ vendorDocuments
  facts_reference : ∀ row ∈ facts, ∀ d, row.docId = some d → d ∈ vendorDocuments

structure World where
  store : FactStore
  vectors : Progress
  files : String → Option Content

def baseName (uri : String) : String :=
  String.ofList (((uri.toList.splitOnP (· = '/')).filter (· ≠ [])).getLast?.getD [])

/-- An update of the row of one job that keeps its reference to a document. -/
def updateJob (store : FactStore) (jobId : String) (f : Job → Job)
    (hid : ∀ job, (f job).jobId = job.jobId)
    (hdoc : ∀ job d, (f job).docId = some d → job.docId = some d ∨ d ∈ store.vendorDocuments) :
    FactStore :=
  { store with
    jobs := store.jobs.updateWhere (fun job => job.jobId = jobId) f hid
    jobs_reference := by
      intro job hjob d hd
      obtain ⟨old, hold, rfl⟩ := KeyedTable.mem_updateWhere.mp hjob
      split at hd
      · rcases hdoc old d hd with h | h
        · exact store.jobs_reference old hold d h
        · exact h
      · exact store.jobs_reference old hold d hd }

def claimForProcessing (jobId : String) (store : FactStore) : Option (Job × FactStore) :=
  ((store.jobs.lookup jobId).filter (fun job => job.status = .queued)).map (fun job =>
    (job, updateJob store jobId (fun job => { job with status := .processing }) (fun _ => rfl)
      (fun _ _ h => Or.inl h)))

/-- The setup that was created last among the confirmed ones of a request for proposals. -/
def resolveSetupId (rfpId : String) (store : FactStore) : Option String :=
  (((store.setups.filter (fun row => row.confirmed && row.setup.rfpId = rfpId)).insertionSort
    (fun a b => b.createdAt ≤ a.createdAt)).head?).map (fun row => row.setup.setupId)

def getEvaluationSetup (setupId : String) (store : FactStore) : Except Exn EvaluationSetup :=
  orRaise ((store.setups.find? (fun row => row.setup.setupId = setupId)).map StoredSetup.setup)
    ⟨.valueError, s!"EvaluationSetup not found for setup_id={setupId}. " ++
      "Run test_e2e.py first to ingest a document and create the setup."⟩

def isHex (c : Char) : Bool := c.isDigit || ('a' ≤ c && c ≤ 'f') || ('A' ≤ c && c ≤ 'F')

/-- `_safe_uuid`: a value that does not parse as a UUID is stored as NULL. -/
def safeUuid (value : String) : Option String :=
  let digits := value.toList.filter (· ≠ '-')
  if digits.length = 32 ∧ digits.all isHex = true then
    some (String.ofList (digits.map Char.toLower))
  else none

/-- One transaction: no row is kept when a foreign key is violated. -/
def saveExtractionOutput (output : ExtractionOutput) (setupId : Option String) (docId : String)
    (store : FactStore) : Except Exn FactStore :=
  let rows := output.allItems.map (fun item =>
    (⟨safeUuid docId, output.orgId, output.vendorId, setupId, item⟩ : FactRow))
  if h : ∀ row ∈ rows, ∀ d, row.docId = some d → d ∈ store.vendorDocuments then
    .ok { store with
      facts := store.facts ++ rows
      facts_reference := by
        intro row hrow d hd
        rcases List.mem_append.mp hrow with hrow | hrow
        · exact store.facts_reference row hrow d hd
        · exact h row hrow d hd }
  else .error ⟨.integrityError, "insert or update violates foreign key constraint on doc_id"⟩

def markFactsReady (jobId docId : String) (store : FactStore) : Except Exn FactStore :=
  if h : docId ∈ store.vendorDocuments then
    .ok (updateJob store jobId (fun job => { job with status := .factsReady, docId := some docId })
      (fun _ => rfl) (fun _ _ hd => Or.inr (Option.some.inj hd ▸ h)))
  else .error ⟨.integrityError,
    "insert or update on table \"ingestion_jobs\" violates foreign key constraint"⟩

structure JobResult where
  jobId : String
  status : JobStatus
  factsWritten : Nat
  error : Option String

def markFailed (jobId reason : String) (w : World) : World × JobResult :=
  let store := updateJob w.store jobId
    (fun job => { job with status := .failed, error := some (prefixOf 1000 reason) })
    (fun _ => rfl) (fun _ _ h => Or.inl h)
  ({ w with store := store }, ⟨jobId, .failed, 0, some reason⟩)

structure IngestArgs where
  content : Content
  filename : String
  vendorId : VendorId
  orgId : String
  rfpId : String
  setupId : String

structure ExtractArgs where
  docId : String
  vendorId : VendorId
  orgId : String
  rfpId : String
  setupId : String

structure IngestionAgents where
  ingest : IngestArgs → World → World × Except Exn String
  extract : ExtractArgs → World → World × Except Exn Nat

def processJob (agents : IngestionAgents) (jobId : String) (w : World) : World × JobResult :=
  match claimForProcessing jobId w.store with
  | none => (w, ⟨jobId, .failed, 0, some "job_id not found or not queued"⟩)
  | some (job, store) =>
      let w := { w with store := store }
      match resolveSetupId job.rfpId store with
      | none => markFailed jobId "no evaluation_setup for this rfp_id" w
      | some setupId =>
          match job.sourceUri with
          | none => markFailed jobId "expected str, bytes or os.PathLike object, not NoneType" w
          | some uri =>
              match w.files uri with
              | none => markFailed jobId s!"file missing: {uri}" w
              | some content =>
                  let filename := (job.filename.filter (· ≠ "")).getD (baseName uri)
                  match agents.ingest
                    ⟨content, filename, job.vendorId, job.orgId, job.rfpId, setupId⟩ w with
                  | (w, .error exc) => markFailed jobId exc.message w
                  | (w, .ok docId) =>
                      match agents.extract ⟨docId, job.vendorId, job.orgId, job.rfpId, setupId⟩ w with
                      | (w, .error exc) => markFailed jobId exc.message w
                      | (w, .ok factsWritten) =>
                          match markFactsReady jobId docId w.store with
                          | .error exc => markFailed jobId exc.message w
                          | .ok store =>
                              ({ w with store := store }, ⟨jobId, .factsReady, factsWritten, none⟩)

/-- A parameter of a Python function, which a call may leave out when it has a default. -/
structure Parameter where
  name : String
  required : Bool

/-- Binding the keywords of a call to the parameters of a function without `**kwargs`. -/
def bindKeywords (function : String) (params : List Parameter) (keywords : List String) :
    Except Exn Unit :=
  match keywords.find? (fun k => k ∉ params.map Parameter.name) with
  | some k => .error ⟨.typeError, s!"{function}() got an unexpected keyword argument '{k}'"⟩
  | none =>
      let missing := params.filter (fun p => p.required && p.name ∉ keywords)
      raiseIf (missing ≠ []) ⟨.typeError,
        s!"{function}() missing {missing.length} required positional argument(s): " ++
          join ", " (missing.map (fun p => quote p.name))⟩

/-- The signature of `run_retrieval_agent`. -/
def retrievalParameters : List Parameter :=
  [⟨"query", true⟩, ⟨"vendor_id", true⟩, ⟨"org_id", true⟩, ⟨"rfp_id", true⟩, ⟨"use_hyde", false⟩,
    ⟨"use_rewriting", false⟩, ⟨"n_candidates", false⟩, ⟨"n_final", false⟩,
    ⟨"is_mandatory_check", false⟩, ⟨"section_type_filter", false⟩, ⟨"org_settings", false⟩,
    ⟨"run_id", false⟩, ⟨"criterion_id", false⟩]

/-- A keyword argument that is a text; the others are not passed on to anything. -/
abbrev Keywords := List (String × Option String)

def Keywords.text (kws : Keywords) (name : String) : String :=
  ((kws.find? (fun kw => kw.1 = name)).bind Prod.snd).getD ""

def callRetrievalAgent (settings : RetrievalSettings) (svc : RetrievalServices) (w : World)
    (kws : Keywords) : Except Exn (RetrievalOutput × CriticOutput) := do
  bindKeywords "run_retrieval_agent" retrievalParameters (kws.map Prod.fst)
  runRetrievalAgent settings svc w.vectors.store
    { query := kws.text "query"
      vendorId := kws.text "vendor_id"
      orgId := kws.text "org_id"
      rfpId := kws.text "rfp_id" }

structure Environment where
  documents : DocumentServices
  defence : InjectionDefence
  draw : Draw
  retrievalSettings : RetrievalSettings
  retrieval : RetrievalServices
  extract : VendorId → Nat → String → String → Except Exn FactsState
  outage : Nat → Option Exn

def Environment.save (env : Environment) (store : FactStore) (setupId : Option String)
    (docId : String) (attempt : Nat) (output : ExtractionOutput) : Except Exn Unit :=
  match env.outage attempt with
  | some exc => .error exc
  | none => (saveExtractionOutput output setupId docId store).map (fun _ => ())

def keepFacts (output : ExtractionOutput) (critic : CriticOutput) (setupId : Option String)
    (docId : String) (store : FactStore) : FactStore :=
  if critic.overallVerdict = .blocked then store
  else
    match saveExtractionOutput output setupId docId store with
    | .ok store => store
    | .error _ => store

/-- `len` of the lists that `_extract` counts. The output has no attribute `facts`. -/
def factsWritten (output : ExtractionOutput) : Nat :=
  output.certifications.length + output.insurance.length + output.slas.length +
    output.projects.length + output.pricing.length

/-- The wiring of the production agents. The verdict of a critic is not looked at, and
the retrieval agent is called without its query. -/
def realAgents (env : Environment) : IngestionAgents where
  ingest args w :=
    match getEvaluationSetup args.setupId w.store with
    | .error exc => (w, .error exc)
    | .ok setup =>
        let (vectors, outcome) := runIngestionAgent env.documents env.defence
          { vendorId := args.vendorId, orgId := args.orgId, rfpId := args.rfpId, setup := setup }
          ⟨args.filename, args.content⟩ env.draw w.vectors
        ({ w with vectors := vectors }, outcome.map (fun r => r.1.docId))
  extract args w :=
    match getEvaluationSetup args.setupId w.store with
    | .error exc => (w, .error exc)
    | .ok setup =>
        match callRetrievalAgent env.retrievalSettings env.retrieval w
          [("doc_id", some args.docId), ("vendor_id", some args.vendorId),
            ("org_id", some args.orgId), ("rfp_id", some args.rfpId), ("evaluation_setup", none)] with
        | .error exc => (w, .error exc)
        | .ok (retrieved, _) =>
            match runExtractionAgent (env.extract args.vendorId 0)
              (env.save w.store (some args.setupId) args.docId 0) retrieved args.vendorId args.orgId
              args.docId setup "" with
            | .error exc => (w, .error exc)
            | .ok (output, critic) =>
                let store := keepFacts output critic (some args.setupId) args.docId w.store
                -- the second save is made whatever the critic's verdict was
                match saveExtractionOutput output
                  (if critic.overallVerdict = .blocked then none else some args.setupId) args.docId
                  store with
                | .error exc => ({ w with store := store }, .error exc)
                | .ok store => ({ w with store := store }, .ok (factsWritten output))

end RfpPlatform.BackgroundIngestion
