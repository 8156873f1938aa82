import RfpPlatform.BackgroundIngestion
import RfpPlatform.Quarantine

namespace RfpPlatform.BackgroundAgreement

open BackgroundIngestion CriticRetry ExceptRules Extraction Ingestion Retrieval VendorBranches

/-- The retrieval of the user-triggered path, with the query that it names. -/
def userRetrieve (env : Environment) (vectors : Progress) (job : Job) : Retrieve :=
  fun query mandatory => runRetrievalAgent env.retrievalSettings env.retrieval vectors.store
    { query := query
      vendorId := job.vendorId
      orgId := job.orgId
      rfpId := job.rfpId
      isMandatoryCheck := mandatory }

/-- A queued job whose source file exists and whose request has a confirmed setup. -/
structure Submission (w : World) where
  job : Job
  uri : String
  content : Content
  setup : EvaluationSetup
  mem : job ∈ w.store.jobs
  queued : job.status = .queued
  source : job.sourceUri = some uri
  file : w.files uri = some content
  confirmed : resolveSetupId job.rfpId w.store = some setup.setupId
  found : getEvaluationSetup setup.setupId w.store = .ok setup

namespace Submission

variable {w : World} (s : Submission w)

def upload : Upload := ⟨(s.job.filename.filter (· ≠ "")).getD (baseName s.uri), s.content⟩

def call : IngestionCall :=
  { vendorId := s.job.vendorId, orgId := s.job.orgId, rfpId := s.job.rfpId, setup := s.setup }

def extraction (env : Environment) : ExtractionServices where
  extract := env.extract s.job.vendorId
  save := env.save w.store (some s.setup.setupId) s!"{s.job.rfpId}-{s.job.vendorId}"

end Submission

/-- The stages of the user-triggered path on one submission: its ingestion critics do not
block, its chunks are retrieved, and an extraction that its critic does not block is saved. -/
def UserPathAccepts (env : Environment) (w : World) (s : Submission w) : Prop :=
  let ingested := runIngestionAgent env.documents env.defence s.call s.upload env.draw w.vectors
  (∃ output critics, ingested.2 = .ok (output, critics) ∧
    ∀ c ∈ critics, hardBlockIf c s!"ingestion/{s.upload.filename} (vendor={s.job.vendorId})" = .ok ()) ∧
  ∃ retrieved, retrievalPerVendor env.retrievalSettings.rerankDegradedConfidenceFactor
      (userRetrieve env ingested.1 s.job) s.setup s.job.vendorId = .inr retrieved ∧
    ∃ update extraction, extractionPerVendor false (s.extraction env) (some retrieved) s.job.vendorId
      s.job.orgId s.job.rfpId s.setup = .ran update ∧ update.result = .inr extraction

/-- The contract between the two paths: the status of a job tells whether the
user-triggered path stores the facts of its submission, a job that fails stores none, and
the document that the job refers to exists. -/
structure Agrees (env : Environment) (w : World) (s : Submission w) : Prop where
  ready_iff : (processJob (realAgents env) s.job.jobId w).2.status = .factsReady ↔
    UserPathAccepts env w s
  otherwise_failed : ¬ UserPathAccepts env w s →
    (processJob (realAgents env) s.job.jobId w).2.status = .failed ∧
      (processJob (realAgents env) s.job.jobId w).1.store.facts = w.store.facts
  doc_reference : ∀ job ∈ (processJob (realAgents env) s.job.jobId w).1.store.jobs,
    job.jobId = s.job.jobId → ∀ d, job.docId = some d →
      d ∈ (processJob (realAgents env) s.job.jobId w).1.store.vendorDocuments

section Critics

open CriticVerdicts

end Critics

section Sample

open Quarantine

def acmeJob : Job where
  jobId := "job"
  orgId := "o"
  rfpId := "rfp"
  vendorId := "acme"
  sourceUri := some "acme.txt"
  filename := some "acme.txt"
  status := .queued
  error := none
  docId := none

end Sample

end RfpPlatform.BackgroundAgreement
