import RfpPlatform.Critics
import RfpPlatform.VectorStore

namespace RfpPlatform.Ingestion

open PyText VectorStore

abbrev Content := List UInt8

/-- A pattern of the configuration, by the text that its regular expression finds first. -/
structure InjectionPattern where
  name : String
  search : String → Option String

structure InjectionDefence where
  enabled : Bool
  blockThreshold : Nat
  patterns : List InjectionPattern

structure SourceNode where
  content : String
  sectionTitle : Option String
  pageLabel : Nat

structure Archive where
  names : List String
  read : String → Except Exn Content

structure DocumentServices where
  readPdf : Content → Except Exn String
  readDocx : Content → Except Exn String
  decodeUtf8 : Content → String
  unzip : Content → Except Exn Archive
  leafNodes : String → Except Exn (List SourceNode)
  sentenceNodes : String → Except Exn (List SourceNode)
  contentHash : Content → String
  md5 : String → String
  uuidOfSha256 : String → String
  sparseEmbedding : String → Except Exn (List Nat × List PyFloat)
  embedBatch : List String → Except Exn (List (List PyFloat))

structure Chunk where
  chunkId : ChunkId
  text : String
  denseVector : Option (List PyFloat)
  sparseIndices : List Nat
  sparseValues : List PyFloat
  sectionType : String
  pageNumber : Nat

def boilerplateMarkers : List String :=
  ["terms and conditions", "legal notice", "disclaimer", "copyright", "all rights reserved",
    "confidentiality", "this document is confidential"]

def backgroundMarkers : List String :=
  ["company history", "about us", "our story", "founded in", "team bios", "management team",
    "our offices"]

def evidenceMarkers : List String :=
  ["certificate", "certification", "insurance", "sla", "service level", "case study",
    "project reference", "client testimonial", "award"]

def keywords (s : String) : List (List Char) := (words (lower s)).filter (fun w => 3 < w.length)

def setupKeywords (setup : EvaluationSetup) : List (List Char) :=
  setup.mandatoryChecks.flatMap (fun check => keywords (check.name ++ " " ++ check.description)) ++
    setup.scoringCriteria.flatMap (fun criterion => keywords criterion.name) ++
    setup.extractionTargets.flatMap (fun target => keywords (target.name ++ " " ++ target.description))

def classifySection (sectionText sectionTitle : String) (setup : EvaluationSetup) : String :=
  let titleLower := lower sectionTitle
  let textLower := lower sectionText
  if boilerplateMarkers.any (fun m => occurs m.toList textLower) then "boilerplate"
  else if backgroundMarkers.any (fun m => occurs m.toList textLower) then "background"
  else if (setupKeywords setup).any (fun kw => occurs kw titleLower || occurs kw textLower) then
    "requirement_response"
  else if evidenceMarkers.any (fun m => occurs m.toList titleLower || occurs m.toList textLower) then
    "supporting_evidence"
  else "background"

def detectSectionTitle (text : String) : String :=
  let firstLine := strip (String.ofList (((strip text).toList.splitOnP (· = '\n')).headD []))
  if firstLine.length < 100 ∧ firstLine ≠ "" then firstLine else "General"

def extractText (svc : DocumentServices) (content : Content) (filename : String) :
    Except Exn String :=
  if endsWith (lower filename) ".pdf".toList then svc.readPdf content
  else if endsWith (lower filename) ".docx".toList then svc.readDocx content
  else .ok (svc.decodeUtf8 content)

/-- The chunks of the nodes whose text is long enough and was not seen before. -/
def chunkNodes (svc : DocumentServices) (vendorId : VendorId) (orgId : String)
    (setup : EvaluationSetup) : List String → List SourceNode → Except Exn (List Chunk)
  | _, [] => .ok []
  | seen, node :: nodes =>
      let text := strip node.content
      let textHash := svc.md5 text
      if strippedLength node.content < 80 then chunkNodes svc vendorId orgId setup seen nodes
      else if textHash ∈ seen then chunkNodes svc vendorId orgId setup seen nodes
      else do
        let title := node.sectionTitle.getD (detectSectionTitle text)
        let (indices, values) ← svc.sparseEmbedding text
        let rest ← chunkNodes svc vendorId orgId setup (textHash :: seen) nodes
        return {
          chunkId := svc.uuidOfSha256 s!"{orgId}:{vendorId}:{textHash}"
          text := text
          denseVector := none
          sparseIndices := indices
          sparseValues := values
          sectionType := classifySection text title setup
          pageNumber := node.pageLabel } :: rest

/-- `zip(chunks, dense_vectors)`: a chunk past the last vector keeps none. -/
def attachVectors : List Chunk → List (List PyFloat) → List Chunk
  | c :: cs, v :: vs => { c with denseVector := some v } :: attachVectors cs vs
  | cs, _ => cs

def processDocument (svc : DocumentServices) (content : Content) (filename : String)
    (vendorId : VendorId) (orgId : String) (setup : EvaluationSetup) : Except Exn (List Chunk) := do
  let rawText ← extractText svc content filename
  if strippedLength rawText < 100 then return []
  let leaves ← svc.leafNodes rawText
  let sentences ← svc.sentenceNodes rawText
  let chunks ← chunkNodes svc vendorId orgId setup [] (leaves ++ sentences)
  let vectors ← svc.embedBatch (chunks.map Chunk.text)
  return attachVectors chunks vectors

/-- The reason is `none` for a text that is valid. -/
def validateExtractedText (text filename : String) : Option String :=
  let ws := words text.toList
  let average : ℚ := text.length / ws.length
  let uniqueWords := ((ws.filter (fun w => 3 < w.length)).map (·.map Char.toLower)).dedup
  if strippedLength text < 100 then
    some (s!"{filename}: Only {text.length} characters extracted. " ++
      "This is likely a scanned PDF with no extractable text. " ++
      "Please provide a digital PDF or use OCR to convert first.")
  else if ws = [] then some s!"{filename}: No readable words found."
  else if 15 < average then
    some (s!"{filename}: Average word length {fixed 1 average} " ++
      "suggests garbled encoding. Check PDF character encoding.")
  else if uniqueWords.length < 5 then
    some (s!"{filename}: Very low vocabulary diversity ({uniqueWords.length} unique words). " ++
      "Document may be mostly images or symbols.")
  else none

def maxMatchChars : Nat := 160

def scanText (text : String) (patterns : List InjectionPattern) : List (String × String) :=
  if text = "" then []
  else patterns.filterMap (fun pat =>
    (pat.search text).map (fun m => (pat.name, strip (prefixOf maxMatchChars m))))

def scanChunks (chunks : List Chunk) (patterns : List InjectionPattern) : List InjectionFinding :=
  chunks.flatMap (fun c => (scanText c.text patterns).map (fun hit =>
    ⟨c.chunkId, hit.1, hit.2, c.pageNumber⟩))

def injectionFindings (defence : InjectionDefence) (trustedSource : Bool) (chunks : List Chunk) :
    List InjectionFinding :=
  if !trustedSource && defence.enabled && !defence.patterns.isEmpty then
    scanChunks chunks defence.patterns
  else []

def countType (types : Dict String Nat) (sectionType : String) (n : Nat) : Dict String Nat :=
  types.set sectionType ((types.get? sectionType).getD 0 + n)

def chunksByType (chunks : List Chunk) : Dict String Nat :=
  chunks.foldl (fun types c => countType types c.sectionType 1) ∅

def requirementResponses (types : Dict String Nat) : Nat :=
  (types.get? "requirement_response").getD 0

def qualityScore (total reqResp : Nat) (isValid : Bool) : ℚ :=
  min 1 (4 / 10 * min 1 ((total : ℚ) / 20) + 4 / 10 * min 1 ((reqResp : ℚ) / 5) +
    2 / 10 * (if isValid then 1 else 3 / 10))

structure IngestionCall where
  vendorId : VendorId
  orgId : String
  rfpId : String
  setup : EvaluationSetup
  trustedSource : Bool := false

structure SourceFile where
  filename : String
  content : Except Exn Content

/-- A new document id, and the errors of the calls to the vector service: call 0
creates the collection, the others store one chunk each. -/
structure FileDraw where
  docId : String
  outage : Nat → Option Exn

def combinedText (chunks : List Chunk) : String := join " " ((chunks.take 5).map Chunk.text)

def emptyOutput (svc : DocumentServices) (call : IngestionCall) (content : Content)
    (docId filename warning : String) : IngestionOutput where
  docId := docId
  vendorId := call.vendorId
  orgId := call.orgId
  filename := filename
  totalChunks := 0
  chunksByType := ∅
  filteredChunks := 0
  extractionTriggered := false
  qualityScore := 0
  contentHash := svc.contentHash content
  warnings := [warning]
  status := "failed"
  injectionFindings := []

def chunkedOutput (svc : DocumentServices) (defence : InjectionDefence) (call : IngestionCall)
    (content : Content) (docId filename : String) (chunks : List Chunk) : IngestionOutput :=
  let reason := validateExtractedText (combinedText chunks) filename
  let types := chunksByType chunks
  let reqResp := requirementResponses types
  { docId := docId
    vendorId := call.vendorId
    orgId := call.orgId
    filename := filename
    totalChunks := chunks.length
    chunksByType := types
    filteredChunks := 0
    extractionTriggered := decide (0 < reqResp)
    qualityScore := qualityScore chunks.length reqResp reason.isNone
    contentHash := svc.contentHash content
    warnings := reason.toList
    status := "success"
    injectionFindings := injectionFindings defence call.trustedSource chunks }

def pointOf (call : IngestionCall) (docId filename : String) (c : Chunk) : Point where
  chunkId := c.chunkId
  denseVector := c.denseVector
  sparseIndices := c.sparseIndices
  sparseValues := c.sparseValues
  text := c.text
  sectionType := c.sectionType
  filename := filename
  vendorId := call.vendorId
  orgId := call.orgId
  rfpId := call.rfpId
  docId := docId
  setupId := call.setup.setupId

def storePoints (outage : Nat → Option Exn) (collection : String) :
    Nat → List Point → Store → Store × Except Exn Unit
  | _, [], store => (store, .ok ())
  | i, p :: ps, store =>
      match outage i with
      | some exc => (store, .error exc)
      | none => storePoints outage collection (i + 1) ps (upsertChunk collection p store)

/-- The chunks are stored before the critic sees the output, and they stay stored
whatever its verdict is. -/
def ingestSingleFile (svc : DocumentServices) (defence : InjectionDefence) (call : IngestionCall)
    (file : SourceFile) (draw : FileDraw) (store : Store) :
    Store × Except Exn (IngestionOutput × CriticOutput) :=
  match file.content with
  | .error exc => (store, .error exc)
  | .ok content =>
      match processDocument svc content file.filename call.vendorId call.orgId call.setup with
      | .error exc => (store, .error exc)
      | .ok [] =>
          let output := emptyOutput svc call content draw.docId file.filename
            "No usable chunks produced from document"
          (store, .ok (output, criticAfterIngestion defence.blockThreshold output))
      | .ok (c :: cs) =>
          let collection := orgCollectionName call.orgId
          match draw.outage 0 with
          | some exc => (store, .error exc)
          | none =>
              let output := chunkedOutput svc defence call content draw.docId file.filename (c :: cs)
              match storePoints draw.outage collection 1
                ((c :: cs).map (pointOf call draw.docId file.filename))
                (createCollection collection store) with
              | (store, .error exc) => (store, .error exc)
              | (store, .ok ()) =>
                  (store, .ok (output, criticAfterIngestion defence.blockThreshold output))

structure Progress where
  store : Store
  judged : List (IngestionOutput × CriticOutput)

def ingestFiles (svc : DocumentServices) (defence : InjectionDefence) (call : IngestionCall) :
    List (SourceFile × FileDraw) → Progress → Progress × Except Exn Unit
  | [], p => (p, .ok ())
  | (file, draw) :: rest, p =>
      match ingestSingleFile svc defence call file draw p.store with
      | (store, .error exc) => (⟨store, p.judged⟩, .error exc)
      | (store, .ok judgement) =>
          ingestFiles svc defence call rest ⟨store, p.judged ++ [judgement]⟩

def supported : List String := [".pdf", ".docx", ".txt", ".doc"]

def hasSupportedExtension (name : String) : Bool :=
  supported.any (fun ext => endsWith (lower name) ext.toList)

/-- The accepted names with a warning, or the reason why nothing is accepted. -/
def validateZipContents (names : List String) : Except String (List String × Option String) :=
  let accepted := names.filter hasSupportedExtension
  let rejected := names.filter (fun name => !hasSupportedExtension name)
  if accepted = [] then
    .error (s!"ZIP contains no supported document files. Found: {listRepr names}. " ++
      s!"Supported: {listRepr supported}")
  else .ok (accepted, if rejected = [] then none else
    some s!"Skipped unsupported files: {listRepr rejected}. Processing: {listRepr accepted}")

def mergeTypes (types other : Dict String Nat) : Dict String Nat :=
  other.rows.foldl (fun acc e => countType acc e.1 e.2) types

def zipSummary (svc : DocumentServices) (call : IngestionCall) (content : Content)
    (docId filename : String) (warning : Option String) (outputs : List IngestionOutput) :
    IngestionOutput :=
  let totalChunks := (outputs.map IngestionOutput.totalChunks).sum
  { docId := docId
    vendorId := call.vendorId
    orgId := call.orgId
    filename := filename
    totalChunks := totalChunks
    chunksByType := outputs.foldl (fun acc o => mergeTypes acc o.chunksByType) ∅
    filteredChunks := (outputs.map IngestionOutput.filteredChunks).sum
    extractionTriggered := outputs.any IngestionOutput.extractionTriggered
    qualityScore := if outputs = [] then 0
      else (outputs.map IngestionOutput.qualityScore).sum / outputs.length
    contentHash := svc.contentHash content
    warnings := warning.toList
    status := if 0 < totalChunks then "success" else "partial"
    injectionFindings := outputs.flatMap IngestionOutput.injectionFindings }

structure Draw where
  file : Nat → FileDraw
  summaryId : String

def drawFiles (draw : Draw) (files : List SourceFile) : List (SourceFile × FileDraw) :=
  files.mapIdx (fun i file => (file, draw.file i))

structure Upload where
  filename : String
  content : Content

def Upload.isZip (upload : Upload) : Bool := endsWith (lower upload.filename) ".zip".toList

def Archive.fileList (archive : Archive) : List String :=
  archive.names.filter (fun name =>
    !("__MACOSX".toList.isPrefixOf name.toList) && !endsWith name.toList ['/'])

/-- The files of one call in the order they are ingested in: the upload itself, or the
accepted files of an archive. -/
def Upload.files (svc : DocumentServices) (upload : Upload) : List SourceFile :=
  if upload.isZip then
    match svc.unzip upload.content with
    | .error _ => []
    | .ok archive =>
        match validateZipContents archive.fileList with
        | .error _ => []
        | .ok (accepted, _) => accepted.map (fun name => ⟨name, archive.read name⟩)
  else [⟨upload.filename, .ok upload.content⟩]

def badZipOutput (svc : DocumentServices) (call : IngestionCall) (upload : Upload) (draw : Draw) :
    IngestionOutput × List CriticOutput :=
  (emptyOutput svc call upload.content draw.summaryId upload.filename
    "Invalid ZIP file — cannot unpack", [])

def ingestZip (svc : DocumentServices) (defence : InjectionDefence) (call : IngestionCall)
    (upload : Upload) (draw : Draw) (p : Progress) :
    Progress × Except Exn (IngestionOutput × List CriticOutput) :=
  match svc.unzip upload.content with
  | .error exc =>
      (p, if exc.kind = .badZipFile then .ok (badZipOutput svc call upload draw) else .error exc)
  | .ok archive =>
      match validateZipContents archive.fileList with
      | .error warning =>
          (p, .ok (emptyOutput svc call upload.content draw.summaryId upload.filename
            s!"ZIP invalid: {warning}", []))
      | .ok (_, warning) =>
          let (q, outcome) := ingestFiles svc defence call
            (drawFiles draw (upload.files svc)) ⟨p.store, []⟩
          let outputs := q.judged.map Prod.fst
          (⟨q.store, p.judged ++ q.judged⟩,
            match outcome with
            | .error exc =>
                -- an entry that cannot be read ends the call with no critic at all
                if exc.kind = .badZipFile then .ok (badZipOutput svc call upload draw)
                else .error exc
            | .ok () =>
                .ok (zipSummary svc call upload.content draw.summaryId upload.filename warning outputs,
                  q.judged.map Prod.snd))

def runIngestionAgent (svc : DocumentServices) (defence : InjectionDefence) (call : IngestionCall)
    (upload : Upload) (draw : Draw) (p : Progress) :
    Progress × Except Exn (IngestionOutput × List CriticOutput) :=
  if upload.isZip then ingestZip svc defence call upload draw p
  else
    match ingestSingleFile svc defence call ⟨upload.filename, .ok upload.content⟩ (draw.file 0)
      p.store with
    | (store, .error exc) => (⟨store, p.judged⟩, .error exc)
    | (store, .ok (output, critic)) =>
        (⟨store, p.judged ++ [(output, critic)]⟩, .ok (output, [critic]))

end RfpPlatform.Ingestion
