import RfpPlatform.RunRequests
import RfpPlatform.TransitionRuns

namespace RfpPlatform.VendorFiles

open ExceptRules RunRequests TransitionRuns
open AccountRequests (TokenData)

abbrev Bytes := List UInt8

structure UploadFile where
  filename : Option String
  content : Bytes

section Names

/-- `name or dflt` -/
def orName (name : Option String) (dflt : String) : String :=
  match name with
  | some s => if s = "" then dflt else s
  | none => dflt

/-- `s.rsplit(".", 1)[0]` -/
def stem (s : String) : String :=
  if '.' ∈ s.toList then
    String.ofList ((s.toList.reverse.dropWhile (· ≠ '.')).drop 1).reverse
  else s

/-- `s.strip(chars)` -/
def stripOf (chars : List Char) (s : String) : String :=
  String.ofList (((s.toList.dropWhile (· ∈ chars)).reverse.dropWhile (· ∈ chars)).reverse)

def UploadFile.vendorId (f : UploadFile) : VendorId := stem (orName f.filename "vendor")

/-- What the map of vendor files has for a file. -/
def UploadFile.entry (f : UploadFile) : Bytes × String :=
  (f.content, orName f.filename f.vendorId)

def vendorFileMap (files : List UploadFile) : Dict VendorId (Bytes × String) :=
  Dict.ofPairs (files.map (fun f => (f.vendorId, f.entry)))

end Names

section VendorIds

/-- The ids of a form value that is no JSON. -/
def splitIds (form : String) : List String :=
  ((((stripOf ['[', ']'] form).toList.splitOn ',').map
    (fun cs => stripOf ['"'] (PyText.strip (String.ofList cs)))).filter (· ≠ ""))

def anyTruthy : Json → Except Exn Bool
  | .arr xs => .ok (xs.any Json.truthy)
  | .obj ms => .ok (ms.any (fun m => m.1 ≠ ""))
  | .str s => .ok (s ≠ "")
  | v => .error ⟨.typeError, s!"'{v.typeName}' object is not iterable"⟩

variable (loads : String → Except Exn Json)

def parseIds (form : String) : Except Exn Json :=
  if PyText.strip form = "" then .ok (.arr [])
  else
    match loads form with
    | .ok v => .ok v
    | .error exc =>
        if exc.kind = .jsonDecodeError then .ok (.arr ((splitIds form).map .str)) else .error exc

/-- The stems of the files stand in where the form names no vendor. -/
def vendorList (form : String) (files : Dict VendorId (Bytes × String)) : Except Exn Json := do
  let ids ← parseIds loads form
  if files.rows = [] then return ids
  if ← anyTruthy ids then return ids
  return .arr (files.keys.map .str)

example : splitIds "[\"acme\", globex ,]" = ["acme", "globex"] := by decide

end VendorIds

section Documents

structure DocumentRow where
  orgId : String
  vendorId : VendorId
  rfpId : String
  setupId : Option String
  filename : String
  fileName : Option String
  fileBytes : Option Bytes
  contentHash : String

def DocumentRow.key (d : DocumentRow) : String × VendorId × String × String :=
  (d.orgId, d.vendorId, d.rfpId, d.contentHash)

abbrev Documents := KeyedTable DocumentRow.key

/-- `ON CONFLICT DO NOTHING` -/
def insertNew (docs : Documents) (d : DocumentRow) : Documents := (docs.insert? d).getD docs

/-- A text that is bound to a parameter of a statement. -/
def textParam (s : String) : Except Exn String :=
  if '\x00' ∈ s.toList then
    .error ⟨.valueError, "A string literal cannot contain NUL (0x00) characters."⟩
  else .ok s

def rfpIdOf (draw : Draw) : String := s!"rfp-{PyText.prefixOf 8 draw.runId}"

variable (sha256 : Bytes → String)

def documentOf (draw : Draw) (orgId : String) (p : VendorId × Bytes × String) : DocumentRow where
  orgId := orgId
  vendorId := p.1
  rfpId := rfpIdOf draw
  setupId := some s!"setup-{PyText.prefixOf 8 draw.runId}"
  filename := p.2.2
  fileName := some p.2.2
  fileBytes := some p.2.1
  contentHash := sha256 p.2.1

def insertFile (draw : Draw) (orgId : String) (docs : Documents) (p : VendorId × Bytes × String) :
    Except Exn Documents := do
  let vendorId ← textParam p.1
  let filename ← textParam p.2.2
  return insertNew docs (documentOf sha256 draw orgId (vendorId, p.2.1, filename))

end Documents

section Requests

structure StartForm where
  rfpTitle : String
  department : String
  contractValue : ℚ
  currency : String
  vendorIds : String
  vendorFiles : List UploadFile

def StartForm.request (form : StartForm) (vendorIds : List VendorId) : StartRequest :=
  ⟨form.rfpTitle, form.department, form.contractValue, vendorIds, form.currency⟩

structure World where
  db : Db
  documents : Documents

variable (loads : String → Except Exn Json) (toTextArray : Json → Except Exn (List VendorId))
  (sha256 : Bytes → String)

/-- `start_evaluation` with its vendor files. -/
def startWithFiles (draw : Draw) (user : TokenData) (form : StartForm) (w : World) :
    Except Exn World := do
  requireWriteRole user
  let files := vendorFileMap form.vendorFiles
  let listed ← vendorList loads form.vendorIds files
  let vendorIds ← toTextArray listed
  let db ← startEvaluation draw user (form.request vendorIds) w.db
  let documents ← files.rows.foldlM (insertFile sha256 draw user.orgId) w.documents
  return ⟨db, documents⟩

/-- The file that a row is loaded as. A row without bytes has none. -/
def DocumentRow.loaded (d : DocumentRow) : Option (VendorId × Bytes × String) :=
  match d.fileBytes with
  | some (b :: bs) => some (d.vendorId, b :: bs, orName d.fileName d.vendorId)
  | _ => none

def dbLoadVendorFiles (runId : String) (w : World) : Dict VendorId (Bytes × String) :=
  match w.db.runs.lookup runId with
  | none => ∅
  | some run =>
      Dict.ofPairs ((w.documents.rows.filter
        (fun d => d.rfpId = run.rfpId && d.vendorId ≠ "rfp")).filterMap DocumentRow.loaded)

/-- What else can happen before the pipeline of a run starts: other runs are started, the run is
confirmed, and runs of other requests for proposals are deleted. -/
inductive Step (runId rfpId : String) : World → Unit → World → Prop
  | started {w w' : World} {draw : Draw} {user : TokenData} {form : StartForm}
      (hother : rfpIdOf draw ≠ rfpId)
      (hstart : startWithFiles loads toTextArray sha256 draw user form w = .ok w') :
      Step runId rfpId w () w'
  | confirmed {w : World} {draw : Draw} {user : TokenData} {id : String} {db : Db}
      (hconfirm : confirmRun draw user id w.db = .ok db) : Step runId rfpId w () { w with db := db }
  | deleted {w : World} {id rfp orgId : String} (hrun : id ≠ runId) (hrfp : rfp ≠ rfpId) :
      Step runId rfpId w ()
        ⟨{ w.db with runs := w.db.runs.deleteWhere (fun run => run.runId = id) },
          w.documents.deleteWhere (fun d => d.rfpId = rfp && d.orgId = orgId)⟩

end Requests

section Keeping

/-- Each file is loaded for exactly one vendor of the run, and only vendors of the run are
loaded. -/
structure Kept (files : List UploadFile) (vendorIds : List VendorId)
    (loaded : Dict VendorId (Bytes × String)) : Prop where
  ingested : ∀ f ∈ files, ∃! v, v ∈ vendorIds ∧ loaded.get? v = some f.entry
  listed : ∀ v ∈ loaded.keys, v ∈ vendorIds

variable (loads : String → Except Exn Json) (toTextArray : Json → Except Exn (List VendorId))

/-- The vendor ids that a form names. -/
def Names (form : String) (vendorIds : List VendorId) : Prop :=
  ∃ v, parseIds loads form = .ok v ∧ anyTruthy v = .ok true ∧ toTextArray v = .ok vendorIds

/-- No file is empty or called "rfp", the form names the stem of every file if it names anything,
and a file that comes after another of its stem is the same file again. -/
structure Keepable (form : StartForm) : Prop where
  not_empty : ∀ f ∈ form.vendorFiles, f.content ≠ []
  not_rfp : ∀ f ∈ form.vendorFiles, f.vendorId ≠ "rfp"
  named : ∀ vendorIds, Names loads toTextArray form.vendorIds vendorIds →
    ∀ f ∈ form.vendorFiles, f.vendorId ∈ vendorIds
  again : form.vendorFiles.Pairwise (fun f g => g.vendorId = f.vendorId → g.entry = f.entry)

end Keeping

section Loading

variable {files : List UploadFile} {docs docs' : Documents} {draw : Draw} {orgId rfpId runId : String}
  {sha256 : Bytes → String} {v : VendorId} {e : Bytes × String} {d : DocumentRow}

/-- An occurrence in a list is its last element, or one before it. -/
theorem split_snoc {α : Type*} {xs pre post : List α} {a b : α}
    (h : xs ++ [a] = pre ++ b :: post) :
    (post = [] ∧ a = b) ∨ ∃ init, post = init ++ [a] ∧ xs = pre ++ b :: init := by
  rcases List.eq_nil_or_concat post with rfl | ⟨init, c, rfl⟩
  · obtain ⟨_, hlast⟩ := List.append_inj' h rfl
    exact Or.inl ⟨rfl, (List.cons.inj hlast).1⟩
  · rw [List.concat_eq_append, ← List.cons_append, ← List.append_assoc] at h
    obtain ⟨hinit, hlast⟩ := List.append_inj' h rfl
    exact Or.inr ⟨init, by rw [List.concat_eq_append, hlast], hinit⟩

/-- The map of vendor files has, for a stem, the last file with it. -/
theorem vendorFileMap_eq_some : (vendorFileMap files).get? v = some e ↔
    ∃ pre f post, files = pre ++ f :: post ∧ f.vendorId = v ∧ f.entry = e ∧
      ∀ g ∈ post, g.vendorId ≠ v := by
  induction files using List.reverseRecOn with
  | nil => simp [vendorFileMap, Dict.ofPairs, KeyedTable.upsertAll]
  | append_singleton files g ih =>
      have hmap : vendorFileMap (files ++ [g]) = (vendorFileMap files).set g.vendorId g.entry := by
        rw [vendorFileMap, List.map_append, Dict.ofPairs, KeyedTable.upsertAll, List.foldl_append]
        rfl
      rw [hmap]
      by_cases hg : v = g.vendorId
      · subst hg
        rw [Dict.get?_set_self, Option.some.injEq]
        constructor
        · rintro rfl
          exact ⟨files, g, [], rfl, rfl, rfl, by simp⟩
        · rintro ⟨pre, f, post, heq, hid, rfl, hpost⟩
          rcases split_snoc heq with ⟨_, rfl⟩ | ⟨init, rfl, _⟩
          · rfl
          · exact absurd rfl (hpost g (by simp))
      · rw [Dict.get?_set_ne hg, ih]
        constructor
        · rintro ⟨pre, f, post, rfl, hid, hentry, hpost⟩
          refine ⟨pre, f, post ++ [g], by simp, hid, hentry, fun h hh => ?_⟩
          rcases List.mem_append.mp hh with hh | hh
          · exact hpost h hh
          · rw [List.mem_singleton.mp hh]
            exact Ne.symm hg
        · rintro ⟨pre, f, post, heq, hid, hentry, hpost⟩
          rcases split_snoc heq with ⟨_, rfl⟩ | ⟨init, rfl, hinit⟩
          · exact absurd hid.symm hg
          · exact ⟨pre, f, init, hinit, hid, hentry, fun k hk => hpost k (by simp [hk])⟩

theorem mem_insertNew (h : ∀ s ∈ docs, s.key ≠ d.key) (s : DocumentRow) :
    s ∈ insertNew docs d ↔ s ∈ docs ∨ s = d := by
  obtain ⟨t, ht⟩ := KeyedTable.exists_insert? h
  rw [insertNew, ht]
  exact KeyedTable.mem_of_insert? ht s

theorem insertNew_other {s : DocumentRow} (h : s ≠ d) : s ∈ insertNew docs d ↔ s ∈ docs := by
  rw [insertNew]
  cases ht : docs.insert? d with
  | none => rfl
  | some t =>
      rw [Option.getD_some, KeyedTable.mem_of_insert? ht]
      exact or_iff_left h

theorem insertFile_eq_ok {p : VendorId × Bytes × String}
    (h : insertFile sha256 draw orgId docs p = .ok docs') :
    docs' = insertNew docs (documentOf sha256 draw orgId p) := by
  simp only [insertFile, textParam, bind_eq_ok, pure_eq_ok] at h
  obtain ⟨vendorId, hid, filename, hname, rfl⟩ := h
  split at hid
  · cases hid
  · split at hname
    · cases hname
    · cases hid
      cases hname
      rfl

/-- The files of one map take no place of one another. -/
theorem mem_insertFiles {ps : List (VendorId × Bytes × String)} (hnodup : (ps.map Prod.fst).Nodup)
    (hnew : ∀ p ∈ ps, ∀ s ∈ docs, s.key ≠ (documentOf sha256 draw orgId p).key)
    (h : ps.foldlM (insertFile sha256 draw orgId) docs = .ok docs') :
    d ∈ docs' ↔ d ∈ docs ∨ ∃ p ∈ ps, d = documentOf sha256 draw orgId p := by
  induction ps generalizing docs with
  | nil =>
      cases h
      simp
  | cons p ps ih =>
      rw [List.foldlM_cons, bind_eq_ok] at h
      obtain ⟨mid, hmid, hrest⟩ := h
      obtain rfl := insertFile_eq_ok hmid
      have hinsert := mem_insertNew (hnew p List.mem_cons_self)
      rw [List.map_cons, List.nodup_cons] at hnodup
      rw [ih hnodup.2 ?_ hrest, hinsert, List.exists_mem_cons_iff, or_assoc]
      intro q hq s hs
      rcases (hinsert s).mp hs with hs | rfl
      · exact hnew q (List.mem_cons_of_mem p hq) s hs
      · intro hkey
        have hid : p.1 = q.1 := congrArg (fun k => k.2.1) hkey
        exact hnodup.1 (hid ▸ List.mem_map_of_mem hq)

theorem insertFiles_other {ps : List (VendorId × Bytes × String)} (hd : d.rfpId ≠ rfpIdOf draw)
    (h : ps.foldlM (insertFile sha256 draw orgId) docs = .ok docs') : d ∈ docs' ↔ d ∈ docs := by
  induction ps generalizing docs with
  | nil =>
      cases h
      rfl
  | cons p ps ih =>
      rw [List.foldlM_cons, bind_eq_ok] at h
      obtain ⟨mid, hmid, hrest⟩ := h
      obtain rfl := insertFile_eq_ok hmid
      rw [ih hrest, insertNew_other]
      rintro rfl
      exact hd rfl

end Loading

section Runs

variable {loads : String → Except Exn Json} {toTextArray : Json → Except Exn (List VendorId)}
  {sha256 : Bytes → String} {draw : Draw} {user : TokenData} {form : StartForm}
  {w w' w'' : World} {runId rfpId : String} {ls : List Unit}

theorem startEvaluation_runs {req : StartRequest} {db db' : Db}
    (h : startEvaluation draw user req db = .ok db') : ∃ row, db.runs.insert? row = some db'.runs ∧
      row.runId = draw.runId ∧ row.rfpId = rfpIdOf draw ∧ row.vendorIds = req.vendorIds := by
  simp only [startEvaluation, bind_eq_ok, orRaise_eq_ok, pure_eq_ok] at h
  obtain ⟨_, _, _, _, runs, hruns, rfl⟩ := h
  exact ⟨_, hruns, rfl, rfl, rfl⟩

theorem startWithFiles_eq_ok (h : startWithFiles loads toTextArray sha256 draw user form w = .ok w') :
    ∃ listed vendorIds,
      vendorList loads form.vendorIds (vendorFileMap form.vendorFiles) = .ok listed ∧
      toTextArray listed = .ok vendorIds ∧
      startEvaluation draw user (form.request vendorIds) w.db = .ok w'.db ∧
      (vendorFileMap form.vendorFiles).rows.foldlM (insertFile sha256 draw user.orgId) w.documents =
        .ok w'.documents := by
  simp only [startWithFiles, bind_eq_ok, pure_eq_ok] at h
  obtain ⟨_, _, listed, hlisted, vendorIds, hids, db, hdb, documents, hdocs, rfl⟩ := h
  exact ⟨listed, vendorIds, hlisted, hids, hdb, hdocs⟩

/-- A run stands with the request for proposals and the vendors it was started with, and the
documents of the request for proposals are those of its start. -/
def Standing (runId rfpId : String) (vendorIds : List VendorId) (documents : Documents)
    (w : World) : Prop :=
  (∃ run ∈ w.db.runs, run.runId = runId ∧ run.rfpId = rfpId ∧ run.vendorIds = vendorIds) ∧
    ∀ d : DocumentRow, d.rfpId = rfpId → (d ∈ w.documents ↔ d ∈ documents)

theorem updateRun_mem {db : Db} {id : String} {f : RunRow → RunRow}
    {hf : ∀ run, (f run).runId = run.runId} {run : RunRow} (h : run ∈ db.runs) :
    ∃ new ∈ (updateRun db id f hf).runs, new = run ∨ new = f run := by
  have hmem : (if decide (run.runId = id) = true then f run else run) ∈
      db.runs.updateWhere (fun run => run.runId = id) f hf :=
    KeyedTable.mem_updateWhere.mpr ⟨run, h, rfl⟩
  refine ⟨_, hmem, ?_⟩
  split
  · exact Or.inr rfl
  · exact Or.inl rfl

variable {vendorIds : List VendorId} {documents : Documents}

theorem standing_preserved : Preserved (Step loads toTextArray sha256 runId rfpId)
    (Standing runId rfpId vendorIds documents) := by
  rintro w l w' ⟨⟨run, hrun, hid, hrfp, hvendors⟩, hdocs⟩ hstep
  cases hstep with
  | started hother hstart =>
      obtain ⟨_, _, _, _, hdb, hinserts⟩ := startWithFiles_eq_ok hstart
      obtain ⟨row, hrow, _⟩ := startEvaluation_runs hdb
      refine ⟨⟨run, (KeyedTable.mem_of_insert? hrow run).mpr (Or.inl hrun), hid, hrfp, hvendors⟩,
        fun d hd => ?_⟩
      rw [insertFiles_other (hd.trans_ne (Ne.symm hother)) hinserts]
      exact hdocs d hd
  | confirmed hconfirm =>
      simp only [confirmRun, bind_eq_ok, pure_eq_ok] at hconfirm
      obtain ⟨_, _, _, _, _, _, _, _, rfl⟩ := hconfirm
      obtain ⟨new, hnew, hcase⟩ := updateRun_mem hrun
      refine ⟨⟨new, hnew, ?_⟩, hdocs⟩
      rcases hcase with rfl | rfl
      · exact ⟨hid, hrfp, hvendors⟩
      · exact ⟨hid, hrfp, hvendors⟩
  | deleted hother hdeleted =>
      refine ⟨⟨run, KeyedTable.mem_deleteWhere.mpr ⟨hrun, ?_⟩, hid, hrfp, hvendors⟩, fun d hd => ?_⟩
      · exact decide_eq_false fun h => hother (h.symm.trans hid)
      · rw [KeyedTable.mem_deleteWhere, hdocs d hd, hd, decide_eq_false (Ne.symm hdeleted),
          Bool.false_and, and_iff_left rfl]

theorem orName_of_ne {s dflt : String} (h : s ≠ "") : orName (some s) dflt = s := if_neg h

theorem entry_name_ne (f : UploadFile) : f.entry.2 ≠ "" := by
  obtain ⟨filename, content⟩ := f
  have hdefault : orName (some "") "vendor" = "vendor" := rfl
  cases filename with
  | none => exact (by decide : (UploadFile.mk none []).entry.2 ≠ "")
  | some s =>
      by_cases hs : s = ""
      · subst hs
        exact (by decide : (UploadFile.mk (some "") []).entry.2 ≠ "")
      · change orName (some s) _ ≠ ""
        rwa [orName_of_ne hs]

/-- What is loaded for a run is what its start had, but for empty files and the vendor "rfp". -/
theorem loaded_eq_some {v : VendorId} {e : Bytes × String}
    (hnew : ∀ d ∈ w.documents, d.rfpId ≠ rfpIdOf draw)
    (hstart : startWithFiles loads toTextArray sha256 draw user form w = .ok w')
    (hstanding : Standing draw.runId (rfpIdOf draw) vendorIds w'.documents w'') :
    (dbLoadVendorFiles draw.runId w'').get? v = some e ↔
      (vendorFileMap form.vendorFiles).get? v = some e ∧ e.1 ≠ [] ∧ v ≠ "rfp" := by
  obtain ⟨⟨run, hrun, hid, hrfp, _⟩, hdocs⟩ := hstanding
  obtain ⟨_, _, _, _, _, hinserts⟩ := startWithFiles_eq_ok hstart
  have hmem : ∀ d : DocumentRow, d.rfpId = rfpIdOf draw → (d ∈ w''.documents ↔
      ∃ p ∈ (vendorFileMap form.vendorFiles).rows, d = documentOf sha256 draw user.orgId p) := by
    intro d hd
    have hkeys : ∀ p ∈ (vendorFileMap form.vendorFiles).rows, ∀ s ∈ w.documents,
        s.key ≠ (documentOf sha256 draw user.orgId p).key :=
      fun p _ s hs hkey => hnew s hs (congrArg (fun k => k.2.2.1) hkey)
    rw [hdocs d hd, mem_insertFiles (vendorFileMap form.vendorFiles).keys_nodup hkeys hinserts]
    exact or_iff_right fun hold => hnew d hold hd
  have hpairs : ∀ c, (v, c) ∈ (w''.documents.rows.filter
      (fun d => d.rfpId = run.rfpId && d.vendorId ≠ "rfp")).filterMap DocumentRow.loaded ↔
        (vendorFileMap form.vendorFiles).get? v = some c ∧ c.1 ≠ [] ∧ v ≠ "rfp" := by
    intro c
    rw [List.mem_filterMap, Dict.get?_eq_some]
    constructor
    · rintro ⟨d, hd, hloaded⟩
      obtain ⟨hd, hof⟩ := List.mem_filter.mp hd
      rw [Bool.and_eq_true, decide_eq_true_eq, decide_eq_true_eq, hrfp] at hof
      obtain ⟨p, hp, rfl⟩ := (hmem d hof.1).mp hd
      obtain ⟨id, bytes, name⟩ := p
      obtain ⟨_, f, _, _, _, hentry, _⟩ := vendorFileMap_eq_some.mp (Dict.get?_eq_some.mpr hp)
      have hname : name ≠ "" := fun h => entry_name_ne f (by rw [hentry]; exact h)
      cases bytes with
      | nil => cases hloaded
      | cons b bs =>
          simp only [DocumentRow.loaded, documentOf, orName_of_ne hname, Option.some.injEq,
            Prod.mk.injEq] at hloaded
          obtain ⟨rfl, rfl⟩ := hloaded
          exact ⟨hp, List.cons_ne_nil b bs, hof.2⟩
    · rintro ⟨hp, hne, hv⟩
      obtain ⟨bytes, name⟩ := c
      obtain ⟨_, f, _, _, _, hentry, _⟩ := vendorFileMap_eq_some.mp (Dict.get?_eq_some.mpr hp)
      have hname : name ≠ "" := fun h => entry_name_ne f (by rw [hentry]; exact h)
      refine ⟨documentOf sha256 draw user.orgId (v, bytes, name), List.mem_filter.mpr
        ⟨(hmem _ rfl).mpr ⟨_, hp, rfl⟩, ?_⟩, ?_⟩
      · rw [Bool.and_eq_true, decide_eq_true_eq, decide_eq_true_eq, hrfp]
        exact ⟨rfl, hv⟩
      · obtain ⟨b, bs, rfl⟩ := List.exists_cons_of_ne_nil hne
        simp only [DocumentRow.loaded, documentOf, orName_of_ne hname]
  have hlookup : w''.db.runs.lookup draw.runId = some run := KeyedTable.lookup_eq_some.mpr ⟨hrun, hid⟩
  rw [dbLoadVendorFiles, hlookup, Dict.get?_ofPairs, hpairs]
  intro c he hc
  have hsame := ((hpairs c).mp hc).1.symm.trans ((hpairs e).mp he).1
  exact Option.some.inj hsame

theorem vendorId_of_entry (f : UploadFile) : f.vendorId = stem f.entry.2 := by
  obtain ⟨filename, content⟩ := f
  cases filename with
  | none => exact (by decide : (UploadFile.mk none []).vendorId = stem (UploadFile.mk none []).entry.2)
  | some s =>
      by_cases hs : s = ""
      · subst hs
        exact (by decide : (UploadFile.mk (some "") []).vendorId =
          stem (UploadFile.mk (some "") []).entry.2)
      · change stem (orName (some s) _) = stem (orName (some s) _)
        rw [orName_of_ne hs, orName_of_ne hs]

theorem exists_last {files : List UploadFile} {f : UploadFile} (hf : f ∈ files) :
    ∃ e, (vendorFileMap files).get? f.vendorId = some e := by
  have hkey : ∃ p ∈ vendorFileMap files, p.1 = f.vendorId :=
    KeyedTable.key_mem_upsertAll.mpr
      (Or.inr ⟨(f.vendorId, f.entry), List.mem_map.mpr ⟨f, hf, rfl⟩, rfl⟩)
  obtain ⟨⟨_, e⟩, he, hid⟩ := hkey
  exact ⟨e, Dict.get?_eq_some.mpr (hid ▸ he)⟩

/-- The vendors of a run have the stem of a file, unless its form names others. -/
theorem mem_vendorIds_iff {listed : Json} {f : UploadFile} (hf : f ∈ form.vendorFiles)
    (hids : ∀ ss ids, toTextArray (.arr (ss.map .str)) = .ok ids → ids = ss)
    (hlisted : vendorList loads form.vendorIds (vendorFileMap form.vendorFiles) = .ok listed)
    (harray : toTextArray listed = .ok vendorIds) :
    f.vendorId ∈ vendorIds ↔
      ∀ ids, Names loads toTextArray form.vendorIds ids → f.vendorId ∈ ids := by
  obtain ⟨e, he⟩ := exists_last hf
  have hrows : (vendorFileMap form.vendorFiles).rows ≠ [] :=
    List.ne_nil_of_mem (Dict.get?_eq_some.mp he)
  obtain ⟨v, hv, hlisted⟩ := bind_eq_ok.mp hlisted
  rw [if_neg hrows] at hlisted
  obtain ⟨named, hnamed, hlisted⟩ := bind_eq_ok.mp hlisted
  cases named with
  | true =>
      cases hlisted
      constructor
      · rintro hmem ids ⟨v', hv', _, hids'⟩
        obtain rfl := Except.ok.inj (hv.symm.trans hv')
        obtain rfl := Except.ok.inj (harray.symm.trans hids')
        exact hmem
      · intro h
        exact h vendorIds ⟨listed, hv, hnamed, harray⟩
  | false =>
      cases hlisted
      obtain rfl := hids _ _ harray
      refine iff_of_true (Dict.mem_keys.mpr ⟨e, he⟩) ?_
      rintro ids ⟨v', hv', htrue, _⟩
      obtain rfl := Except.ok.inj (hv.symm.trans hv')
      cases hnamed.symm.trans htrue

/-- The files of a run are kept until its pipeline starts, exactly if they are keepable. -/
theorem kept_iff_keepable
    (hids : ∀ ss ids, toTextArray (.arr (ss.map .str)) = .ok ids → ids = ss)
    (hnew : ∀ d ∈ w.documents, d.rfpId ≠ rfpIdOf draw)
    (hstart : startWithFiles loads toTextArray sha256 draw user form w = .ok w')
    (hrun : Run (Step loads toTextArray sha256 draw.runId (rfpIdOf draw)) w' ls w'') :
    ∃ run, w''.db.runs.lookup draw.runId = some run ∧
      (Kept form.vendorFiles run.vendorIds (dbLoadVendorFiles draw.runId w'') ↔
        Keepable loads toTextArray form) := by
  obtain ⟨listed, vendorIds, hlisted, harray, hdb, _⟩ := startWithFiles_eq_ok hstart
  obtain ⟨row, hrow, hid, hrfp, hvendors⟩ := startEvaluation_runs hdb
  have hstanding : Standing draw.runId (rfpIdOf draw) vendorIds w'.documents w'' :=
    hrun.invariant standing_preserved
      ⟨⟨row, (KeyedTable.mem_of_insert? hrow row).mpr (Or.inr rfl), hid, hrfp, hvendors⟩,
        fun _ _ => Iff.rfl⟩
  have hloaded : ∀ {v e}, (dbLoadVendorFiles draw.runId w'').get? v = some e ↔
      (vendorFileMap form.vendorFiles).get? v = some e ∧ e.1 ≠ [] ∧ v ≠ "rfp" :=
    loaded_eq_some hnew hstart hstanding
  -- what is loaded as a file is loaded for the vendor of its stem
  have hown : ∀ {v} {f : UploadFile}, (dbLoadVendorFiles draw.runId w'').get? v = some f.entry →
      v = f.vendorId := by
    intro v f hv
    obtain ⟨_, g, _, _, rfl, hentry, _⟩ := vendorFileMap_eq_some.mp (hloaded.mp hv).1
    rw [vendorId_of_entry, hentry, ← vendorId_of_entry]
  have hmem : ∀ {f}, f ∈ form.vendorFiles → (f.vendorId ∈ vendorIds ↔
      ∀ ids, Names loads toTextArray form.vendorIds ids → f.vendorId ∈ ids) :=
    fun hf => mem_vendorIds_iff hf hids hlisted harray
  obtain ⟨⟨run, hrunmem, hrunid, _, rfl⟩, _⟩ := hstanding
  refine ⟨run, KeyedTable.lookup_eq_some.mpr ⟨hrunmem, hrunid⟩, ?_⟩
  constructor
  · rintro ⟨hingested, _⟩
    have hfile : ∀ f ∈ form.vendorFiles, f.vendorId ∈ run.vendorIds ∧
        (dbLoadVendorFiles draw.runId w'').get? f.vendorId = some f.entry := by
      intro f hf
      obtain ⟨v, ⟨hv, hget⟩, _⟩ := hingested f hf
      obtain rfl := hown hget
      exact ⟨hv, hget⟩
    refine ⟨fun f hf => ?_, fun f hf => ?_, fun ids hnames f hf => ?_, ?_⟩
    · exact (hloaded.mp (hfile f hf).2).2.1
    · exact (hloaded.mp (hfile f hf).2).2.2
    · exact (hmem hf).mp (hfile f hf).1 ids hnames
    · refine List.pairwise_of_forall_mem_list fun f hf g hg hsame => ?_
      have hget := (hfile g hg).2
      rw [hsame, (hfile f hf).2] at hget
      exact (Option.some.inj hget).symm
  · rintro ⟨hempty, hrfp, hnamed, hagain⟩
    have hlast : ∀ f ∈ form.vendorFiles,
        (vendorFileMap form.vendorFiles).get? f.vendorId = some f.entry := by
      intro f hf
      obtain ⟨e, he⟩ := exists_last hf
      obtain ⟨pre, g, post, hfiles, hid, rfl, hpost⟩ := vendorFileMap_eq_some.mp he
      rw [he, Option.some.injEq]
      rw [hfiles] at hf hagain
      rcases List.mem_append.mp hf with hf | hf
      · exact (List.pairwise_append.mp hagain).2.2 f hf g List.mem_cons_self hid
      · rcases List.mem_cons.mp hf with rfl | hf
        · rfl
        · exact absurd rfl (hpost f hf)
    refine ⟨fun f hf => ?_, fun v hv => ?_⟩
    · refine ⟨f.vendorId, ⟨(hmem hf).mpr fun ids hnames => hnamed ids hnames f hf,
        hloaded.mpr ⟨hlast f hf, hempty f hf, hrfp f hf⟩⟩, ?_⟩
      rintro v ⟨_, hget⟩
      exact hown hget
    · obtain ⟨e, he⟩ := Dict.mem_keys.mp hv
      obtain ⟨pre, f, post, hfiles, rfl, _⟩ := vendorFileMap_eq_some.mp (hloaded.mp he).1
      have hf : f ∈ form.vendorFiles := by simp [hfiles]
      exact (hmem hf).mpr fun ids hnames => hnamed ids hnames f hf

end Runs

section Fixtures

/-- A decoder of the form value "[]". -/
def loadsEmpty (form : String) : Except Exn Json :=
  if form = "[]" then .ok (.arr [])
  else .error ⟨.jsonDecodeError, "Expecting value: line 1 column 1 (char 0)"⟩

def stringArray (v : Json) : Except Exn (List VendorId) :=
  orRaise v.asStrings ⟨.external, "malformed array literal"⟩

theorem stringArray_strings (ss ids : List String)
    (h : stringArray (.arr (ss.map .str)) = .ok ids) : ids = ss := by
  rw [stringArray, orRaise_eq_ok, Json.asStrings, List.mapM_map] at h
  have hid : Json.asString ∘ Json.str = (fun s => (pure s : Option String)) := funext fun _ => rfl
  rw [hid, List.mapM_pure, List.map_id'] at h
  exact (Option.some.inj h).symm

def hexOf (bs : Bytes) : String := String.ofList (bs.map (fun b => Char.ofNat b.toNat))

def twoFiles (first second : String) : StartForm where
  rfpTitle := "Managed network"
  department := "IT"
  contractValue := 250000
  currency := "GBP"
  vendorIds := "[]"
  vendorFiles := [⟨some first, [1]⟩, ⟨some second, [2]⟩]

def noRuns : World := ⟨⟨∅, []⟩, ∅⟩

/-- Two files with stems of their own are kept. -/
theorem two_stems_kept : ∃ w run,
    startWithFiles loadsEmpty stringArray hexOf adminDraw companyAdmin
        (twoFiles "acme.pdf" "globex.pdf") noRuns = .ok w ∧
      w.db.runs.lookup adminDraw.runId = some run ∧
      Kept (twoFiles "acme.pdf" "globex.pdf").vendorFiles run.vendorIds
        (dbLoadVendorFiles adminDraw.runId w) := by
  have hok : (startWithFiles loadsEmpty stringArray hexOf adminDraw companyAdmin
      (twoFiles "acme.pdf" "globex.pdf") noRuns).toBool = true := by decide +kernel
  obtain ⟨w, hstart⟩ := exists_ok_of_toBool hok
  obtain ⟨run, hrun, hkept⟩ := kept_iff_keepable stringArray_strings (by simp [noRuns]) hstart (.nil w)
  refine ⟨w, run, hstart, hrun, hkept.mpr ⟨by decide, by decide, ?_, by decide⟩⟩
  rintro vendorIds ⟨v, hv, hnamed, _⟩
  cases hv
  cases hnamed

/-- Of two files with one stem the first is not loaded. -/
theorem first_file_lost : ∃ w run,
    startWithFiles loadsEmpty stringArray hexOf adminDraw companyAdmin
        (twoFiles "acme.pdf" "acme.docx") noRuns = .ok w ∧
      w.db.runs.lookup adminDraw.runId = some run ∧
      ¬ Kept (twoFiles "acme.pdf" "acme.docx").vendorFiles run.vendorIds
        (dbLoadVendorFiles adminDraw.runId w) := by
  have hok : (startWithFiles loadsEmpty stringArray hexOf adminDraw companyAdmin
      (twoFiles "acme.pdf" "acme.docx") noRuns).toBool = true := by decide +kernel
  obtain ⟨w, hstart⟩ := exists_ok_of_toBool hok
  obtain ⟨_, _, _, _, hdb, _⟩ := startWithFiles_eq_ok hstart
  obtain ⟨run, hrow, hid, hrfp, hvendors⟩ := startEvaluation_runs hdb
  have hrun := (KeyedTable.mem_of_insert? hrow run).mpr (Or.inr rfl)
  refine ⟨w, run, hstart, KeyedTable.lookup_eq_some.mpr ⟨hrun, hid⟩, fun hkept => ?_⟩
  obtain ⟨v, ⟨_, hv⟩, _⟩ := hkept.ingested ⟨some "acme.pdf", [1]⟩ List.mem_cons_self
  rw [loaded_eq_some (by simp [noRuns]) hstart
    ⟨⟨run, hrun, hid, hrfp, hvendors⟩, fun _ _ => Iff.rfl⟩] at hv
  have hrows : (vendorFileMap (twoFiles "acme.pdf" "acme.docx").vendorFiles).rows =
      [("acme", [2], "acme.docx")] := by decide
  have hmem := Dict.get?_eq_some.mp hv.1
  rw [KeyedTable.mem_def, hrows, List.mem_singleton, Prod.mk.injEq] at hmem
  exact absurd hmem.2 (by decide)

end Fixtures

end RfpPlatform.VendorFiles
