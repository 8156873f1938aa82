import RfpPlatform.CsvText
import RfpPlatform.MandatoryTable

namespace RfpPlatform.RunExport

open CsvText DecisionPayload ExceptRules Json MandatoryTable

section Export

/-- What the export reads of a row of `evaluation_runs`. -/
structure ExportRun where
  runId : String
  rfpTitle : Option String
  department : Option String
  startedAt : Option String
  decisionOutput : Json

def columns : List String :=
  ["run_id", "rfp_title", "department", "started_at", "vendor_name", "decision", "total_score",
    "score_confidence", "recommendation", "criterion_id", "raw_score", "weighted_contribution",
    "criterion_confidence", "rubric_band", "rationale", "evidence_1", "evidence_2"]

def nullable (s : Option String) : Json := (s.map .str).getD .null

/-- `evidence[i] if len(evidence) > i else ""` -/
def evidenceAt (i : Nat) : Json → Except Exn Json
  | .arr xs => .ok (xs[i]?.getD (.str ""))
  | .str s => .ok (.str ((s.toList[i]?.map String.singleton).getD ""))
  | .obj [] => .ok (.str "")
  | .obj _ => .error ⟨.keyError, s!"{i}"⟩
  | v => .error ⟨.typeError, s!"object of type '{v.typeName}' has no len()"⟩

def joinItem (p : Json × Nat) : Except Exn String :=
  match p.1 with
  | .str s => .ok s
  | v => .error ⟨.typeError,
      s!"sequence item {p.2}: expected str instance, {v.typeName} found"⟩

/-- `"; ".join(value)` -/
def joinReasons : Json → Except Exn String
  | .null | .bool _ | .num _ => .error ⟨.typeError, "can only join an iterable"⟩
  | v => do
      let items ← iterate v
      let reasons ← items.zipIdx.mapM joinItem
      return PyText.join "; " reasons

variable (run : ExportRun)

def runCells : List Json :=
  [.str run.runId, nullable run.rfpTitle, nullable run.department, nullable run.startedAt]

def nameOf (v : List (String × Json)) : Json :=
  get v "vendor_name" (get v "vendor_id" (.str ""))

def baseCells (v : List (String × Json)) : List Json :=
  runCells run ++ [nameOf v, .str "shortlisted", get v "total_score" (.str ""),
    get v "score_confidence" (.str ""), get v "recommendation" (.str "")]

def criterionCells (c : Json) : Except Exn (List Json) := do
  let c ← c.asObject
  let evidence := get c "evidence_used" (.arr [])
  let first ← evidenceAt 0 evidence
  let second ← evidenceAt 1 evidence
  return [get c "criterion_id" (.str ""), get c "raw_score" (.str ""),
    get c "weighted_contribution" (.str ""), get c "confidence" (.str ""),
    get c "rubric_band_applied" (.str ""), get c "score_rationale" (.str ""), first, second]

def shortlistedRows (v : Json) : Except Exn (List (List Json)) := do
  let v ← v.asObject
  let breakdown := get v "criterion_breakdown" (.arr [])
  if breakdown.truthy then
    let criteria ← iterate breakdown
    let cells ← criteria.mapM criterionCells
    return cells.map (baseCells run v ++ ·)
  else return [baseCells run v ++ List.replicate 8 (.str "")]

def rejectedRow (v : Json) : Except Exn (List Json) := do
  let v ← v.asObject
  let reasons ← joinReasons (get v "rejection_reasons" (.arr []))
  return runCells run ++ [nameOf v, .str "rejected", .str "", .str "", .str "", .str "", .str "",
    .str "", .str "", .str "", .str reasons, .str "", .str ""]

/-- The rows `export_run_csv` hands to the writer, the header first. -/
def exportRows : Except Exn (List (List Json)) := do
  let decision ← (run.decisionOutput.orElse (.obj [])).asObject
  let vendors ← iterate (get decision "shortlisted_vendors" (.arr []))
  let shortlisted ← vendors.mapM (shortlistedRows run)
  let notices ← iterate (get decision "rejected_vendors" (.arr []))
  let rejected ← notices.mapM (rejectedRow run)
  return columns.map .str :: shortlisted.flatten ++ rejected

/-- What the writer makes of a value. Numbers are rendered by `str`, as the type of their column
has them. -/
def cellText (str : String → Json → String) (column : String) : Json → List Char
  | .null => []
  | .str s => s.toList
  | v => (str column v).toList

def rowTexts (str : String → Json → String) (row : List Json) : List (List Char) :=
  columns.zipWith (cellText str) row

structure CsvFile where
  filename : String
  text : List Char

def exportRunCsv (str : String → Json → String) : Except Exn CsvFile := do
  let rows ← exportRows run
  return ⟨s!"evaluation_{PyText.prefixOf 8 run.runId}.csv", writeRows (rows.map (rowTexts str))⟩

end Export

section Table

variable (run : ExportRun) (d : DecisionOutput)

def evidenceCell (i : Nat) (evidence : List String) : Json := .str (evidence[i]?.getD "")

def scoreCells (s : CriterionScore) : List Json :=
  [.str s.criterionId, float s.rawScore.val, float s.weightedContribution,
    .num s.confidence.value, .str s.rubricBandApplied, .str s.scoreRationale,
    evidenceCell 0 s.evidenceUsed, evidenceCell 1 s.evidenceUsed]

def vendorCells (v : ShortlistedVendor) : List Json :=
  runCells run ++ [.str v.vendorName, .str "shortlisted", float v.totalScore,
    .num v.scoreConfidence, .str v.recommendation]

/-- One row for each criterion of a vendor, and one without a criterion when there is none. -/
def vendorRows (v : ShortlistedVendor) : List (List Json) :=
  if v.criterionBreakdown = [] then [vendorCells run v ++ List.replicate 8 (.str "")]
  else v.criterionBreakdown.map fun s => vendorCells run v ++ scoreCells s

def noticeRow (n : RejectionNotice) : List Json :=
  runCells run ++ [.str n.vendorName, .str "rejected"] ++ List.replicate 8 (.str "") ++
    [.str (PyText.join "; " n.rejectionReasons), .str "", .str ""]

/-- What a reader of the file is to find in it. -/
def table : List (List Json) :=
  columns.map .str :: d.shortlistedVendors.flatMap (vendorRows run) ++
    d.rejectedVendors.map (noticeRow run)

end Table

section ReadBack

variable {run : ExportRun} {d : DecisionOutput}

theorem evidenceAt_strings (i : Nat) (ss : List String) :
    evidenceAt i (strings ss) = .ok (evidenceCell i ss) := by
  simp only [evidenceAt, strings, evidenceCell, List.getElem?_map]
  cases ss[i]? <;> rfl

theorem criterionCells_dump (s : CriterionScore) :
    criterionCells (dumpScore s) = .ok (scoreCells s) := by
  change (do
    let first ← evidenceAt 0 (strings s.evidenceUsed)
    let second ← evidenceAt 1 (strings s.evidenceUsed)
    return [Json.str s.criterionId, float s.rawScore.val, float s.weightedContribution,
      .num s.confidence.value, .str s.rubricBandApplied, .str s.scoreRationale, first, second]) = _
  rw [evidenceAt_strings, evidenceAt_strings]
  rfl

theorem shortlistedRows_dump (v : ShortlistedVendor) :
    shortlistedRows run (dumpVendor v) = .ok (vendorRows run v) := by
  change (if (Json.arr (v.criterionBreakdown.map dumpScore)).truthy then do
      let cells ← (v.criterionBreakdown.map dumpScore).mapM criterionCells
      return cells.map (vendorCells run v ++ ·)
    else .ok [vendorCells run v ++ List.replicate 8 (.str "")]) = _
  by_cases hb : v.criterionBreakdown = []
  · rw [vendorRows, if_pos hb, hb]
    rfl
  · have htruthy : (Json.arr (v.criterionBreakdown.map dumpScore)).truthy = true := by
      simp [truthy, hb]
    rw [if_pos htruthy, mapM_map_eq_ok criterionCells_dump, vendorRows, if_neg hb, ok_bind,
      List.map_map]
    rfl

theorem mapM_joinItem (ss : List String) (k : Nat) :
    ((ss.map Json.str).zipIdx k).mapM joinItem = .ok ss := by
  induction ss generalizing k with
  | nil => rfl
  | cons s ss ih =>
      rw [List.map_cons, List.zipIdx_cons, List.mapM_cons, ih]
      rfl

theorem joinReasons_strings (ss : List String) :
    joinReasons (strings ss) = .ok (PyText.join "; " ss) := by
  change (((ss.map Json.str).zipIdx).mapM joinItem >>= fun reasons =>
    .ok (PyText.join "; " reasons)) = _
  rw [mapM_joinItem, ok_bind]

theorem rejectedRow_dump (n : RejectionNotice) :
    rejectedRow run (dumpNotice n) = .ok (noticeRow run n) := by
  change (joinReasons (strings n.rejectionReasons) >>= _) = _
  rw [joinReasons_strings]
  rfl

theorem exportRows_dump (hd : run.decisionOutput = .obj (dump d)) :
    exportRows run = .ok (table run d) := by
  have hdecision : (run.decisionOutput.orElse (.obj [])).asObject = .ok (dump d) := by
    rw [hd]
    rfl
  rw [exportRows, hdecision, ok_bind, get_dump_shortlisted, get_dump_rejected]
  change ((d.shortlistedVendors.map dumpVendor).mapM (shortlistedRows run) >>= fun shortlisted =>
    (d.rejectedVendors.map dumpNotice).mapM (rejectedRow run) >>= fun rejected =>
      .ok (columns.map .str :: shortlisted.flatten ++ rejected)) = _
  rw [mapM_map_eq_ok shortlistedRows_dump, ok_bind, mapM_map_eq_ok rejectedRow_dump, ok_bind,
    table, List.flatMap_def]

theorem length_vendorRows {v : ShortlistedVendor} {row : List Json}
    (h : row ∈ vendorRows run v) : row.length = columns.length := by
  rw [vendorRows] at h
  split at h
  · rw [List.mem_singleton.mp h]
    rfl
  · obtain ⟨s, -, rfl⟩ := List.mem_map.mp h
    rfl

/-- Every row has a cell under every column, so that none is cut off. -/
theorem length_table {row : List Json} (h : row ∈ table run d) : row.length = columns.length := by
  simp only [table, List.cons_append, List.mem_cons, List.mem_append, List.mem_flatMap,
    List.mem_map] at h
  rcases h with rfl | ⟨v, -, hrow⟩ | ⟨n, -, rfl⟩
  · rfl
  · exact length_vendorRows hrow
  · rfl

/-- No text of a vendor or of the model, whatever commas, quotes and line ends it has, breaks a
row of the export or adds one to it. -/
theorem export_reads_back (str : String → Json → String) (run : ExportRun) (d : DecisionOutput) :
    let stored := { run with decisionOutput := .obj (dump d) }
    (∃ file, exportRunCsv stored str = .ok file ∧
      readRows file.text = some ((table run d).map (rowTexts str))) ∧
    ∀ row ∈ table run d, row.length = columns.length := by
  intro stored
  have hrows : exportRows stored = .ok (table run d) := exportRows_dump rfl
  refine ⟨?_, fun row h => length_table h⟩
  rw [exportRunCsv, hrows, ok_bind]
  exact ⟨_, rfl, readRows_writeRows _⟩

end ReadBack

end RfpPlatform.RunExport
