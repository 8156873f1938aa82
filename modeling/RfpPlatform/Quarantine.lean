import RfpPlatform.IngestionCritic
import RfpPlatform.Retrieval
import RfpPlatform.RunRequests
import RfpPlatform.TransitionRuns

namespace RfpPlatform.Quarantine

open ExceptRules IngestionCritic Ingestion Retrieval TransitionRuns VectorStore

inductive Action
  | ingest (call : IngestionCall) (upload : Upload) (draw : Draw)
  | retrieve (call : RetrievalCall)
  | deleteVendor (orgId : String) (vendorId : VendorId)
  | deleteSetup (orgId setupId : String)
  | deleteOrg (orgId : String)

/-- A document whose ingestion critic blocked. -/
def Blocked (p : Progress) (docId : String) : Prop :=
  ∃ j ∈ p.judged, j.1.docId = docId ∧ j.2.overallVerdict = .blocked

def Known (p : Progress) (docId : String) : Prop :=
  (∃ q, Holds p.store q ∧ q.docId = docId) ∨ ∃ j ∈ p.judged, j.1.docId = docId

def FreshDraw (p : Progress) (draw : Draw) : Prop :=
  Function.Injective (fun i => (draw.file i).docId) ∧ ∀ i, ¬ Known p (draw.file i).docId

variable (svc : DocumentServices) (defence : InjectionDefence)

inductive Step : Progress → Action → Progress → Prop
  | ingest {p : Progress} (call : IngestionCall) (upload : Upload) {draw : Draw} :
      FreshDraw p draw →
      Step p (.ingest call upload draw) (runIngestionAgent svc defence call upload draw p).1
  | retrieve (p : Progress) (call : RetrievalCall) : Step p (.retrieve call) p
  | deleteVendor (p : Progress) (orgId : String) (vendorId : VendorId) :
      Step p (.deleteVendor orgId vendorId) { p with store := deleteVendorData orgId vendorId p.store }
  | deleteSetup (p : Progress) (orgId setupId : String) :
      Step p (.deleteSetup orgId setupId) { p with store := deleteSetupData orgId setupId p.store }
  | deleteOrg (p : Progress) (orgId : String) :
      Step p (.deleteOrg orgId) { p with store := deleteOrgData orgId p.store }

def chunksOf (call : IngestionCall) (file : SourceFile) : Except Exn (List Chunk) :=
  file.content >>= fun content =>
    processDocument svc content file.filename call.vendorId call.orgId call.setup

/-- A text that the ingestion critic does not let pass: enough poisoned chunks, a low
quality, or no chunk that answers a requirement. -/
def Refused (call : IngestionCall) (filename : String) (chunks : List Chunk) : Prop :=
  Poisoned defence.blockThreshold (injectionFindings defence call.trustedSource chunks) ∨
    qualityScore chunks.length (requirementResponses (chunksByType chunks))
      (validateExtractedText (combinedText chunks) filename).isNone < 4 / 10 ∨
    requirementResponses (chunksByType chunks) = 0

def Answered (draw : FileDraw) (chunks : List Chunk) : Prop :=
  ∀ i ≤ chunks.length, draw.outage i = none

/-- No file that a call gets to has chunks to store and a text that is refused. -/
def Admissible (call : IngestionCall) : List (SourceFile × FileDraw) → Prop
  | [] => True
  | (file, draw) :: rest =>
      ∀ chunks, chunksOf svc call file = .ok chunks → (chunks ≠ [] → Answered draw chunks) →
        (chunks = [] ∨ ¬ Refused defence call file.filename chunks) ∧ Admissible call rest

def admits (_ : Progress) : Action → Prop
  | .ingest call upload draw => Admissible svc defence call (drawFiles draw (upload.files svc))
  | _ => True

variable {svc defence} {call : IngestionCall} {p : Progress}

section File

variable {file : SourceFile} {draw : FileDraw} {store : Store}

theorem storePoints_ok {outage : Nat → Option Exn} {name : String} {i : Nat} {ps : List Point}
    {u : Unit} (h : (storePoints outage name i ps store).2 = .ok u) :
    ∀ k < ps.length, outage (i + k) = none := by
  induction ps generalizing i store with
  | nil => exact fun k hk => absurd hk (Nat.not_lt_zero k)
  | cons r rs ih =>
      simp only [storePoints] at h
      cases hi : outage i with
      | some exc =>
          simp only [hi] at h
          cases h
      | none =>
          simp only [hi] at h
          intro k hk
          cases k with
          | zero => exact hi
          | succ k =>
              have hrest := ih h k (Nat.lt_of_succ_lt_succ hk)
              rwa [Nat.add_right_comm] at hrest

/-- The calls that put the chunks of a file into the collection of the organisation. -/
def storeChunks (call : IngestionCall) (file : SourceFile) (draw : FileDraw)
    (chunks : List Chunk) (store : Store) : Store × Except Exn Unit :=
  storePoints draw.outage (orgCollectionName call.orgId) 1
    (chunks.map (pointOf call draw.docId file.filename))
    (createCollection (orgCollectionName call.orgId) store)

variable (svc defence call file draw) in
/-- A file leaves every store as it is, or its chunks are stored. -/
theorem ingestSingleFile_cases :
    (∃ r, (∀ store, ingestSingleFile svc defence call file draw store = (store, r)) ∧
        ∀ chunks, chunksOf svc call file = .ok chunks → chunks ≠ [] → draw.outage 0 ≠ none) ∨
      ∃ chunks judgement, chunksOf svc call file = .ok chunks ∧ chunks ≠ [] ∧
        draw.outage 0 = none ∧ ∀ store, ingestSingleFile svc defence call file draw store =
          ((storeChunks call file draw chunks store).1,
            (storeChunks call file draw chunks store).2.map (fun _ => judgement)) := by
  simp only [ingestSingleFile, chunksOf]
  cases file.content with
  | error exc => exact Or.inl ⟨_, fun _ => rfl, fun _ h => nomatch h⟩
  | ok content =>
      simp only [bind, Except.bind]
      cases processDocument svc content file.filename call.vendorId call.orgId call.setup with
      | error exc => exact Or.inl ⟨_, fun _ => rfl, fun _ h => nomatch h⟩
      | ok chunks =>
          cases chunks with
          | nil => exact Or.inl ⟨_, fun _ => rfl, fun _ h hne => absurd (Except.ok.inj h).symm hne⟩
          | cons c cs =>
              cases draw.outage 0 with
              | some exc => exact Or.inl ⟨_, fun _ => rfl, fun _ _ _ => nofun⟩
              | none =>
                  let output := chunkedOutput svc defence call content draw.docId file.filename
                    (c :: cs)
                  refine Or.inr ⟨c :: cs, (output, criticAfterIngestion defence.blockThreshold output),
                    rfl, List.cons_ne_nil c cs, rfl, fun store => ?_⟩
                  simp only [storeChunks]
                  cases storePoints draw.outage (orgCollectionName call.orgId) 1
                      ((c :: cs).map (pointOf call draw.docId file.filename))
                      (createCollection (orgCollectionName call.orgId) store) with
                  | mk t r =>
                      cases r with
                      | error exc => rfl
                      | ok u => rfl

theorem ingestSingleFile_ok {store' : Store} {output : IngestionOutput} {critic : CriticOutput}
    (h : ingestSingleFile svc defence call file draw store = (store', .ok (output, critic))) :
    output.docId = draw.docId ∧ ∃ chunks, chunksOf svc call file = .ok chunks ∧
      (chunks ≠ [] → Answered draw chunks) ∧
      (chunks = [] ∧ store' = store ∨ chunks ≠ [] ∧
        (critic.overallVerdict = .blocked ↔ Refused defence call file.filename chunks)) := by
  simp only [ingestSingleFile] at h
  split at h
  · cases h
  · rename_i content hcontent
    have hchunks : chunksOf svc call file =
        processDocument svc content file.filename call.vendorId call.orgId call.setup := by
      rw [chunksOf, hcontent]
      rfl
    split at h
    · cases h
    · rename_i hdoc
      cases h
      exact ⟨rfl, [], hchunks.trans hdoc, fun hne => absurd rfl hne, Or.inl ⟨rfl, rfl⟩⟩
    · rename_i c cs hdoc
      split at h
      · cases h
      · rename_i hcreate
        split at h
        · cases h
        · rename_i hstore
          cases h
          have hcalls := storePoints_ok (congrArg Prod.snd hstore)
          refine ⟨rfl, c :: cs, hchunks.trans hdoc, fun _ i hi => ?_,
            Or.inr ⟨List.cons_ne_nil c cs, criticAfterIngestion_blocked_iff⟩⟩
          cases i with
          | zero => exact hcreate
          | succ k =>
              have hk := hcalls k (by
                rw [List.length_map]
                exact hi)
              rwa [Nat.add_comm] at hk

theorem storePoints_holds {outage : Nat → Option Exn} {name : String} {i : Nat} {ps : List Point}
    {u : Unit} (h : (storePoints outage name i ps store).2 = .ok u) (hne : ps ≠ []) :
    ∃ q ∈ ps, Holds (storePoints outage name i ps store).1 q := by
  induction ps generalizing i store with
  | nil => exact absurd rfl hne
  | cons r rs ih =>
      simp only [storePoints] at h ⊢
      cases hi : outage i with
      | some exc =>
          simp only [hi] at h
          cases h
      | none =>
          simp only [hi] at h ⊢
          by_cases hrs : rs = []
          · subst hrs
            exact ⟨r, List.mem_cons_self, holds_upsertChunk_self⟩
          · obtain ⟨q, hq, hstored⟩ := ih h hrs
            exact ⟨q, List.mem_cons_of_mem r hq, hstored⟩

theorem ingestSingleFile_stored {store' : Store} {judgement : IngestionOutput × CriticOutput}
    {chunks : List Chunk}
    (h : ingestSingleFile svc defence call file draw store = (store', .ok judgement))
    (hchunks : chunksOf svc call file = .ok chunks) (hne : chunks ≠ []) :
    ∃ q, Holds store' q ∧ q.docId = draw.docId := by
  have hcreated := (ingestSingleFile_ok h).2
  rcases ingestSingleFile_cases svc defence call file draw with
    ⟨r, hleft, hout⟩ | ⟨cs, j, hcs, _, _, hstored⟩
  · obtain ⟨_, hcs, hanswered, _⟩ := hcreated
    obtain rfl := Except.ok.inj (hcs.symm.trans hchunks)
    exact absurd (hanswered hne 0 (Nat.zero_le _)) (hout _ hchunks hne)
  · obtain rfl := Except.ok.inj (hcs.symm.trans hchunks)
    rw [hstored, Prod.mk.injEq] at h
    obtain ⟨rfl, hok⟩ := h
    have hcalls : (storeChunks call file draw cs store).2 = .ok () := by
      cases hresult : (storeChunks call file draw cs store).2 with
      | ok u => rfl
      | error exc =>
          rw [hresult] at hok
          cases hok
    obtain ⟨q, hq, hholds⟩ := storePoints_holds hcalls (mt List.map_eq_nil_iff.mp hne)
    obtain ⟨d, _, rfl⟩ := List.mem_map.mp hq
    exact ⟨_, hholds, rfl⟩

end File

/-- No stored point belongs to a document whose critic blocked. -/
def Quarantined (p : Progress) : Prop := ∀ q, Holds p.store q → ¬ Blocked p q.docId

section Files

variable {files : List (SourceFile × FileDraw)}

theorem ingestFiles_judged (store : Store) (before : List (IngestionOutput × CriticOutput))
    (after : List (IngestionOutput × CriticOutput)) :
    ingestFiles svc defence call files ⟨store, before ++ after⟩ =
      (⟨(ingestFiles svc defence call files ⟨store, after⟩).1.store,
        before ++ (ingestFiles svc defence call files ⟨store, after⟩).1.judged⟩,
        (ingestFiles svc defence call files ⟨store, after⟩).2) := by
  induction files generalizing store after with
  | nil => rfl
  | cons f rest ih =>
      obtain ⟨file, draw⟩ := f
      simp only [ingestFiles]
      cases ingestSingleFile svc defence call file draw store with
      | mk store' r =>
          cases r with
          | error exc => rfl
          | ok judgement =>
              simp only
              rw [List.append_assoc]
              exact ih store' (after ++ [judgement])

theorem runIngestionAgent_progress (upload : Upload) (draw : Draw) :
    (runIngestionAgent svc defence call upload draw p).1 =
      (ingestFiles svc defence call (drawFiles draw (upload.files svc)) p).1 := by
  have hstart : ingestFiles svc defence call (drawFiles draw (upload.files svc)) p = _ :=
    (congrArg (ingestFiles svc defence call _)
      (congrArg (Progress.mk p.store) (List.append_nil p.judged).symm)).trans
      (ingestFiles_judged p.store p.judged [])
  rw [hstart]
  by_cases hz : upload.isZip = true
  · simp only [runIngestionAgent, if_pos hz, ingestZip, Upload.files]
    cases svc.unzip upload.content with
    | error exc => simp [drawFiles, ingestFiles]
    | ok archive =>
        simp only
        cases validateZipContents archive.fileList with
        | error warning => simp [drawFiles, ingestFiles]
        | ok accepted => rfl
  · simp only [runIngestionAgent, if_neg hz, Upload.files, drawFiles, List.mapIdx_cons,
      List.mapIdx_nil, ingestFiles]
    cases ingestSingleFile svc defence call ⟨upload.filename, .ok upload.content⟩ (draw.file 0)
        p.store with
    | mk store r =>
        cases r with
        | error exc => simp
        | ok judgement => rfl

/-- The condition leaves out only calls that reach the defect: the chunks of a refused
document are in the store when its critic blocks. -/
theorem refused_file_stays {file : SourceFile} {draw : FileDraw} {chunks : List Chunk}
    {store : Store} {judgement : IngestionOutput × CriticOutput}
    (hfile : ingestSingleFile svc defence call file draw p.store = (store, .ok judgement))
    (hchunks : chunksOf svc call file = .ok chunks) (hne : chunks ≠ [])
    (hrefused : Refused defence call file.filename chunks) :
    ¬ Quarantined ⟨store, p.judged ++ [judgement]⟩ := by
  obtain ⟨hid, cs, hcs, _, hcase⟩ := ingestSingleFile_ok hfile
  obtain rfl : chunks = cs := Except.ok.inj (hchunks.symm.trans hcs)
  have hverdict := (hcase.resolve_left (fun h => hne h.1)).2
  obtain ⟨q, hq, hdoc⟩ : ∃ q, Holds store q ∧ q.docId = draw.docId := by
    have hstored := ingestSingleFile_stored hfile hchunks hne
    exact hstored
  intro hquar
  exact hquar q hq ⟨judgement, List.mem_append_right _ (List.mem_singleton_self _),
    hid.trans hdoc.symm, hverdict.mpr hrefused⟩

end Files

def textServices (text : String) (nodes : List SourceNode) : DocumentServices where
  readPdf _ := .ok text
  readDocx _ := .ok text
  decodeUtf8 _ := text
  unzip _ := .error ⟨.badZipFile, "File is not a zip file"⟩
  leafNodes _ := .ok nodes
  sentenceNodes _ := .ok []
  contentHash _ := "hash"
  md5 text := toString text.utf8ByteSize
  uuidOfSha256 := id
  sparseEmbedding _ := .ok ([], [])
  embedBatch texts := .ok (texts.map (fun _ => [1]))

def overridePattern : InjectionPattern where
  name := "instruction_override"
  search text :=
    if PyText.occurs "ignore all previous instructions".toList (PyText.lower text) then
      some "ignore all previous instructions"
    else none

def shippedDefence : InjectionDefence := ⟨true, 1, [overridePattern]⟩

def vectorOrder : RetrievalSettings := ⟨"none", 2000, 1 / 2⟩

def exhaustiveServices : RetrievalServices where
  rewrite := .ok
  hyde := .ok
  denseEmbedding _ := .ok [1]
  sparseQueryEmbedding _ := .ok ([], [])
  reranker _ _ _ _ := .error ⟨.runtimeError, "no reranker"⟩
  engine := .exhaustive

def acmeCall : IngestionCall where
  vendorId := "acme"
  orgId := "o"
  rfpId := "rfp"
  setup := RunRequests.defaultSetup "setup" "o" "rfp"

def acmeQuery : RetrievalCall where
  query := "registration"
  vendorId := "acme"
  orgId := "o"
  rfpId := "rfp"

def acmeUpload : Upload := ⟨"acme.txt", []⟩

def acmeFile : SourceFile := ⟨"acme.txt", .ok []⟩

def docId (i : Nat) : String := String.ofList (List.replicate (i + 1) 'd')

def quietDraw : Draw := ⟨fun i => ⟨docId i, fun _ => none⟩, "summary"⟩

def afterUpload (svc : DocumentServices) : Progress :=
  (runIngestionAgent svc shippedDefence acmeCall acmeUpload quietDraw ⟨∅, []⟩).1

def answer (svc : DocumentServices) : Except Exn (RetrievalOutput × CriticOutput) :=
  runRetrievalAgent vectorOrder exhaustiveServices (afterUpload svc).store acmeQuery

instance (threshold : Nat) (findings : List InjectionFinding) :
    Decidable (Poisoned threshold findings) := inferInstanceAs (Decidable (_ ∧ _))

def registrationLine : String :=
  "Acme has a registration number on page two of the annex, and the list is public."

def renewalLine : String :=
  "The registration of each office was renewed in the last year and is kept in town."

def clean : DocumentServices :=
  textServices (registrationLine ++ renewalLine) [⟨registrationLine, some "registration", 1⟩,
    ⟨renewalLine, some "registration", 1⟩]

instance (call : IngestionCall) (filename : String) (chunks : List Chunk) :
    Decidable (Refused defence call filename chunks) := inferInstanceAs (Decidable (_ ∨ _ ∨ _))

theorem clean_not_refused : ∃ cs, chunksOf clean acmeCall acmeFile = .ok cs ∧ cs ≠ [] ∧
    ¬ Refused shippedDefence acmeCall "acme.txt" cs := by
  have hclear : (match chunksOf clean acmeCall acmeFile with
      | .ok cs => decide (cs ≠ [] ∧ ¬ Refused shippedDefence acmeCall "acme.txt" cs)
      | .error _ => false) = true := by decide +kernel
  cases hcs : chunksOf clean acmeCall acmeFile with
  | error exc =>
      rw [hcs] at hclear
      cases hclear
  | ok cs =>
      rw [hcs] at hclear
      exact ⟨cs, rfl, of_decide_eq_true hclear⟩

end RfpPlatform.Quarantine
