import RfpPlatform.PipelineNodes
import RfpPlatform.Quarantine

namespace RfpPlatform.UnusableSubmission

open ExceptRules Ingestion IngestionCritic Quarantine VectorStore
open CriticRetry (hardBlockIf hardBlockIf_eq_ok)
open PipelineNodes (hardBlockAll)

variable {svc : DocumentServices} {defence : InjectionDefence} {call : IngestionCall}

/-- A file that is read, and whose chunks are all stored. -/
def Ingested (svc : DocumentServices) (call : IngestionCall) (f : SourceFile × FileDraw)
    (chunks : List Chunk) : Prop :=
  chunksOf svc call f.1 = .ok chunks ∧ (chunks ≠ [] → Answered f.2 chunks)

/-- Every file is ingested, up to one that has a chunk. -/
def ReadThrough (svc : DocumentServices) (call : IngestionCall) :
    List (SourceFile × FileDraw) → Prop
  | [] => True
  | f :: rest => ∃ chunks, Ingested svc call f chunks ∧
      (chunks = [] → ReadThrough svc call rest)

/-- No file that was judged has a chunk. -/
def Chunkless (judged : List (IngestionOutput × CriticOutput)) : Prop :=
  ∀ j ∈ judged, j.1.totalChunks = 0

def SomeBlocked (critics : List CriticOutput) : Prop :=
  ∃ critic ∈ critics, critic.overallVerdict = .blocked

section File

variable {file : SourceFile} {draw : FileDraw} {store store' : Store}

theorem emptyOutput_blocked {content : Ingestion.Content} {docId filename warning : String} :
    (criticAfterIngestion defence.blockThreshold
      (emptyOutput svc call content docId filename warning)).overallVerdict = .blocked :=
  criticAfterIngestion_blocked_iff.mpr (.inr (.inr rfl))

/-- A file that is judged is ingested, and blocked where it has no chunk. -/
theorem ingested_of_ok {output : IngestionOutput} {critic : CriticOutput}
    (h : ingestSingleFile svc defence call file draw store = (store', .ok (output, critic))) :
    ∃ chunks, Ingested svc call (file, draw) chunks ∧ output.totalChunks = chunks.length ∧
      (chunks = [] → critic.overallVerdict = .blocked) := by
  obtain ⟨_, chunks, hchunks, hanswered, _⟩ := ingestSingleFile_ok h
  refine ⟨chunks, ⟨hchunks, hanswered⟩, ?_⟩
  obtain ⟨content, hcontent, hdoc⟩ := bind_eq_ok.mp hchunks
  simp only [ingestSingleFile, hcontent, hdoc] at h
  cases chunks with
  | nil =>
      cases h
      exact ⟨rfl, fun _ => emptyOutput_blocked⟩
  | cons c cs =>
      refine ⟨?_, fun hnil => absurd hnil (List.cons_ne_nil c cs)⟩
      simp only [hanswered (List.cons_ne_nil c cs) 0 (Nat.zero_le _)] at h
      split at h
      · cases h
      · cases h
        rfl

theorem storePoints_answered {outage : Nat → Option Exn} {name : String} {i : Nat} {ps : List Point}
    (h : ∀ k < ps.length, outage (i + k) = none) :
    ∃ t, storePoints outage name i ps store = (t, .ok ()) := by
  induction ps generalizing i store with
  | nil => exact ⟨store, rfl⟩
  | cons p ps ih =>
      have hfirst : outage i = none := h 0 (Nat.succ_pos _)
      simp only [storePoints, hfirst]
      apply ih
      intro k hk
      rw [Nat.add_assoc, Nat.add_comm 1 k]
      exact h (k + 1) (Nat.succ_lt_succ hk)

theorem ok_of_ingested {chunks : List Chunk} (h : Ingested svc call (file, draw) chunks) :
    ∃ t judgement, ingestSingleFile svc defence call file draw store = (t, .ok judgement) := by
  obtain ⟨hingested, hanswered⟩ := h
  have hchunks : chunksOf svc call file = .ok chunks := hingested
  obtain ⟨content, hcontent, hdoc⟩ := bind_eq_ok.mp hchunks
  simp only [ingestSingleFile, hcontent, hdoc]
  cases chunks with
  | nil => exact ⟨_, _, rfl⟩
  | cons c cs =>
      have hcalls := hanswered (List.cons_ne_nil c cs)
      obtain ⟨t, ht⟩ := @storePoints_answered
        (createCollection (orgCollectionName call.orgId) store) draw.outage
        (orgCollectionName call.orgId) 1 ((c :: cs).map (pointOf call draw.docId file.filename))
        (fun k hk => hcalls (1 + k) (by
          rw [List.length_map] at hk
          omega))
      have hcreate : draw.outage 0 = none := hcalls 0 (Nat.zero_le _)
      simp only [hcreate, ht]
      exact ⟨_, _, rfl⟩

end File

section Files

variable {files : List (SourceFile × FileDraw)} {store : Store}
  {judged : List (IngestionOutput × CriticOutput)}

/-- What the files of a call come to, behind what was judged before it. -/
structure Outcome (svc : DocumentServices) (call : IngestionCall)
    (files : List (SourceFile × FileDraw)) (judged : List (IngestionOutput × CriticOutput))
    (r : Progress × Except Exn Unit) (later : List (IngestionOutput × CriticOutput)) : Prop where
  judged : r.1.judged = judged ++ later
  blocked : ∀ j ∈ later, j.1.totalChunks = 0 → j.2.overallVerdict = .blocked
  all : r.2 = .ok () → later.length = files.length
  readThrough : ReadThrough svc call files ↔ (Chunkless later → r.2 = .ok ())

/-- The files are read through exactly when one has a chunk, or all are ingested. -/
theorem ingestFiles_outcome : ∃ later,
    Outcome svc call files judged (ingestFiles svc defence call files ⟨store, judged⟩) later := by
  induction files generalizing store judged with
  | nil =>
      exact ⟨[], (List.append_nil judged).symm, fun j hj => absurd hj List.not_mem_nil,
        fun _ => rfl, iff_of_true trivial (fun _ => rfl)⟩
  | cons f rest ih =>
      obtain ⟨file, draw⟩ := f
      cases hfile : ingestSingleFile svc defence call file draw store with
      | mk store' r =>
          cases r with
          | error exc =>
              rw [ingestFiles]
              simp only [hfile]
              refine ⟨[], (List.append_nil judged).symm, fun j hj => absurd hj List.not_mem_nil,
                (fun h => by cases h), iff_of_false ?_ ?_⟩
              · rintro ⟨chunks, hingested, _⟩
                obtain ⟨t, judgement, hok⟩ : ∃ t judgement,
                    ingestSingleFile svc defence call file draw store = (t, .ok judgement) :=
                  ok_of_ingested hingested
                rw [hfile] at hok
                cases hok
              · intro h
                have hok := h (fun j hj => absurd hj List.not_mem_nil)
                cases hok
          | ok judgement =>
              obtain ⟨output, critic⟩ := judgement
              obtain ⟨chunks, hingested, htotal, hblocked⟩ := ingested_of_ok hfile
              obtain ⟨later, hlater⟩ := @ih store' (judged ++ [(output, critic)])
              rw [ingestFiles]
              simp only [hfile]
              refine ⟨(output, critic) :: later, ?_, ?_, ?_, ?_⟩
              · rw [hlater.judged, List.append_assoc, List.singleton_append]
              · intro j hj hzero
                rcases List.mem_cons.mp hj with rfl | hj
                · exact hblocked (List.length_eq_zero_iff.mp (htotal.symm.trans hzero))
                · exact hlater.blocked j hj hzero
              · intro hok
                rw [List.length_cons, List.length_cons, hlater.all hok]
              · constructor
                · rintro ⟨cs, hcs, hrest⟩ hchunkless
                  have hsame := Except.ok.inj (hcs.1.symm.trans hingested.1)
                  have hnil : cs = [] := by
                    rw [hsame, ← List.length_eq_zero_iff, ← htotal]
                    exact hchunkless _ List.mem_cons_self
                  exact hlater.readThrough.mp (hrest hnil)
                    (fun j hj => hchunkless j (List.mem_cons_of_mem _ hj))
                · intro h
                  refine ⟨chunks, hingested, fun hnil => hlater.readThrough.mpr fun hchunkless => ?_⟩
                  refine h fun j hj => ?_
                  rcases List.mem_cons.mp hj with rfl | hj
                  · rw [htotal, hnil, List.length_nil]
                  · exact hchunkless j hj

/-- The critics of files that have all been judged block where none has a chunk. -/
theorem Outcome.someBlocked {r : Progress × Except Exn Unit}
    {later : List (IngestionOutput × CriticOutput)} (h : Outcome svc call files judged r later)
    (hok : r.2 = .ok ()) (hne : files ≠ []) (hchunkless : Chunkless later) :
    SomeBlocked (later.map Prod.snd) := by
  have hlength : later ≠ [] := by
    intro hnil
    have hall := h.all hok
    rw [hnil, List.length_nil] at hall
    exact hne (List.length_eq_zero_iff.mp hall.symm)
  obtain ⟨j, hj⟩ := List.exists_mem_of_ne_nil _ hlength
  exact ⟨j.2, List.mem_map_of_mem hj, h.blocked j hj (hchunkless j hj)⟩

end Files

section Call

variable {upload : Upload} {draw : Draw} {store : Store} {q : Progress} {output : IngestionOutput}
  {critics : List CriticOutput}

theorem drawFiles_ne_nil {files : List SourceFile} : drawFiles draw files ≠ [] ↔ files ≠ [] := by
  rw [drawFiles, ne_eq, List.mapIdx_eq_nil_iff]

theorem files_of_listed {archive : Archive} {accepted : List String × Option String}
    (hzip : upload.isZip = true) (hunzip : svc.unzip upload.content = .ok archive)
    (hlist : validateZipContents archive.fileList = .ok accepted) :
    upload.files svc = accepted.1.map (fun name => ⟨name, archive.read name⟩) := by
  rw [Upload.files, if_pos hzip, hunzip]
  simp only [hlist]

theorem accepted_ne_nil {names : List String} {accepted : List String × Option String}
    (h : validateZipContents names = .ok accepted) : accepted.1 ≠ [] := by
  rw [validateZipContents] at h
  split at h
  · cases h
  · rename_i hne
    cases h
    exact hne

/-- An archive without a file to read is returned with no critic. -/
theorem zip_unread (hzip : upload.isZip = true) (hfiles : upload.files svc = [])
    (h : ingestZip svc defence call upload draw ⟨store, []⟩ = (q, .ok (output, critics))) :
    q.judged = [] ∧ critics = [] := by
  rw [ingestZip] at h
  split at h
  · obtain ⟨rfl, hresult⟩ := Prod.mk.inj h
    split at hresult
    · cases hresult
      exact ⟨rfl, rfl⟩
    · cases hresult
  · rename_i archive hunzip
    split at h
    · cases h
      exact ⟨rfl, rfl⟩
    · rename_i accepted warning hlist
      rw [files_of_listed hzip hunzip hlist] at hfiles
      exact absurd (List.map_eq_nil_iff.mp hfiles) (accepted_ne_nil hlist)

/-- An archive with files to read is returned with their critics, or with none where the reading
has stopped. -/
theorem zip_read (hfiles : upload.files svc ≠ []) (hzip : upload.isZip = true)
    (h : ingestZip svc defence call upload draw ⟨store, []⟩ = (q, .ok (output, critics))) :
    let r := ingestFiles svc defence call (drawFiles draw (upload.files svc)) ⟨store, []⟩
    q.judged = r.1.judged ∧ critics = if r.2 = .ok () then r.1.judged.map Prod.snd else [] := by
  rw [ingestZip] at h
  split at h
  · rename_i exc hunzip
    rw [Upload.files, if_pos hzip, hunzip] at hfiles
    exact absurd rfl hfiles
  · rename_i archive hunzip
    split at h
    · rename_i warning hlist
      rw [Upload.files, if_pos hzip, hunzip] at hfiles
      simp only [hlist] at hfiles
      exact absurd rfl hfiles
    · obtain ⟨hq, hresult⟩ := Prod.mk.inj h
      refine ⟨(congrArg Progress.judged hq).symm, ?_⟩
      split at hresult
      · rename_i exc hstopped
        rw [hstopped, if_neg (fun hok => by cases hok)]
        split at hresult
        · cases hresult
          rfl
        · cases hresult
      · rename_i hdone
        rw [hdone, if_pos rfl]
        cases hresult
        rfl

/-- A call that returns without a chunk returns a critic that blocks, exactly when there is a file
to read and the files are read through. -/
theorem runIngestionAgent_blocked_iff
    (h : runIngestionAgent svc defence call upload draw ⟨store, []⟩ = (q, .ok (output, critics))) :
    (Chunkless q.judged → SomeBlocked critics) ↔
      upload.files svc ≠ [] ∧ ReadThrough svc call (drawFiles draw (upload.files svc)) := by
  rw [runIngestionAgent] at h
  split at h
  · rename_i hzip
    by_cases hfiles : upload.files svc = []
    · obtain ⟨hjudged, rfl⟩ := zip_unread hzip hfiles h
      refine iff_of_false (fun hblocks => ?_) (fun hread => hread.1 hfiles)
      obtain ⟨_, hmem, _⟩ := hblocks (by
        rw [hjudged]
        exact fun j hj => absurd hj List.not_mem_nil)
      exact absurd hmem List.not_mem_nil
    · obtain ⟨hjudged, hcritics⟩ := zip_read hfiles hzip h
      obtain ⟨later, hlater⟩ := @ingestFiles_outcome svc defence call
        (drawFiles draw (upload.files svc)) store []
      have hsame := hlater.judged
      rw [List.nil_append] at hsame
      rw [hjudged, hcritics, hsame, hlater.readThrough, and_iff_right hfiles]
      constructor
      · intro hblocks hchunkless
        by_contra hstopped
        obtain ⟨_, hmem, _⟩ := hblocks hchunkless
        rw [if_neg hstopped] at hmem
        exact absurd hmem List.not_mem_nil
      · intro hdone hchunkless
        rw [if_pos (hdone hchunkless)]
        exact hlater.someBlocked (hdone hchunkless) (drawFiles_ne_nil.mpr hfiles) hchunkless
  · rename_i hzip
    have hfiles : upload.files svc = [⟨upload.filename, .ok upload.content⟩] := by
      rw [Upload.files, if_neg hzip]
    rw [hfiles]
    split at h
    · cases h
    · rename_i store' output' critic hfile
      cases h
      obtain ⟨chunks, hingested, htotal, hblocked⟩ := ingested_of_ok hfile
      refine iff_of_true (fun hchunkless => ⟨critic, List.mem_singleton_self _, ?_⟩)
        ⟨List.cons_ne_nil _ _, chunks, hingested, fun _ => trivial⟩
      refine hblocked (List.length_eq_zero_iff.mp ?_)
      rw [← htotal]
      exact hchunkless _ (List.mem_singleton_self _)

/-- A text that is too short has no chunk, and is blocked. -/
theorem runIngestionAgent_blocked_iff_short : ∃ q output critics,
    runIngestionAgent (textServices "" []) shippedDefence acmeCall acmeUpload
      ⟨fun _ => ⟨"d", fun _ => none⟩, "summary"⟩ ⟨∅, []⟩ = (q, .ok (output, critics)) ∧
    ((Chunkless q.judged → SomeBlocked critics) ↔
      acmeUpload.files (textServices "" []) ≠ [] ∧
        ReadThrough (textServices "" []) acmeCall
          (drawFiles ⟨fun _ => ⟨"d", fun _ => none⟩, "summary"⟩
            (acmeUpload.files (textServices "" [])))) :=
  ⟨_, _, _, rfl, runIngestionAgent_blocked_iff rfl⟩

/-- A submission that is no archive, under the name of one. -/
def corruptUpload : Upload := ⟨"acme.zip", []⟩

def corruptDraw : Draw := ⟨fun _ => ⟨"d", fun _ => none⟩, "summary"⟩

/-- The corrupt archive is returned without a chunk and without a critic, so nothing stops the
run. -/
theorem corruptUpload_not_blocked : ∃ output critics,
    runIngestionAgent (textServices "" []) shippedDefence acmeCall corruptUpload corruptDraw
      ⟨∅, []⟩ = (⟨∅, []⟩, .ok (output, critics)) ∧
    output.totalChunks = 0 ∧ ¬ SomeBlocked critics ∧ hardBlockAll "ingestion" critics = .ok () := by
  refine ⟨_, [], rfl, rfl, ?_, rfl⟩
  rintro ⟨_, hmem, _⟩
  exact absurd hmem List.not_mem_nil

end Call

end RfpPlatform.UnusableSubmission
