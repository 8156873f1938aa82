import RfpPlatform.Ingestion
import RfpPlatform.MergePriority

namespace RfpPlatform.SheetParser

open CriteriaMerge ExceptRules FirstWins MergedCriteria PyText WeightShares

section Sheets

/-- What `str` and `float` make of a cell; nothing where `float` raises. -/
structure Cell where
  text : String
  number : Option PyFloat

/-- pandas reads NaN where a cell is empty. -/
def Cell.empty : Cell := ⟨"nan", some .nan⟩

abbrev Row := List Cell

/-- `str(c).lower().strip().replace(" ", "_")` -/
def columnKey (column : String) : String :=
  String.ofList ((stripChars (lower column)).map (fun c => if c = ' ' then '_' else c))

/-- A sheet whose columns have keys of their own. -/
structure DataFrame where
  columns : List String
  rows : List Row
  distinct : (columns.map columnKey).Nodup
  rectangular : ∀ row ∈ rows, row.length = columns.length

variable (df : DataFrame) (row : Row)

def DataFrame.keys : List String := df.columns.map columnKey

/-- `_col` -/
def DataFrame.col (preferred : List String) : Option String :=
  preferred.find? (fun c => df.keys.contains c)

/-- `row.get(column)` -/
def DataFrame.cell (column : String) : Option Cell :=
  ((df.keys.zip row).find? (fun p => p.1 = column)).map Prod.snd

/-- `str(row.get(column, "")).strip()` -/
def DataFrame.text (column : String) : String := strip ((df.cell row column).elim "" Cell.text)

def DataFrame.nameCol : Option String :=
  df.col ["name", "criterion", "check_name", "criteria_name"]

def DataFrame.typeCol : Option String := df.col ["check_type", "type", "kind"]

def DataFrame.weightCol : Option String := df.col ["weight", "score_weight", "scoring_weight"]

def DataFrame.descCol : Option String := df.col ["description", "desc", "detail"]

def DataFrame.passCol : Option String := df.col ["what_passes", "pass_criteria", "passing"]

def rowName : String := df.nameCol.elim "" (df.text row)

def named : Bool := rowName df row ≠ "" && lower (rowName df row) ≠ "nan".toList

/-- A NaN and what is no number are no weight. -/
def rowWeight : Option PyFloat :=
  (df.weightCol.bind (df.cell row)).bind (fun cell => if cell.text = "nan" then none else cell.number)

def checkType : List Char :=
  stripChars (lower ((df.typeCol.bind (df.cell row)).elim "" Cell.text))

def isScoring : Bool := (rowWeight df row).isSome || occurs "scor".toList (checkType df row)

def notNan (s : String) : String := if s = "nan" then "" else s

def rowDescription : String := notNan (df.descCol.elim "" (df.text row))

def rowWhatPasses : String := notNan (df.passCol.elim "" (df.text row))

structure SheetCriterion where
  name : String
  weight : PyFloat
  description : String
  rubric : Band → String

structure SheetCheck where
  name : String
  description : String
  whatPasses : String

def criterionOf : SheetCriterion where
  name := rowName df row
  weight := (rowWeight df row).getD 0
  description := rowDescription df row
  rubric := fun b => df.text row b.key

def checkOf : SheetCheck where
  name := rowName df row
  description := rowDescription df row
  whatPasses := rowWhatPasses df row

def SheetCriterion.members (c : SheetCriterion) : List (String × Json) :=
  [("name", .str c.name), ("weight", .num c.weight), ("description", .str c.description),
    ("rubric_9_10", .str (c.rubric .rubric_9_10)), ("rubric_6_8", .str (c.rubric .rubric_6_8)),
    ("rubric_3_5", .str (c.rubric .rubric_3_5)), ("rubric_0_2", .str (c.rubric .rubric_0_2))]

def SheetCheck.members (c : SheetCheck) : List (String × Json) :=
  [("name", .str c.name), ("description", .str c.description), ("what_passes", .str c.whatPasses)]

def scoringRows : List Row := df.rows.filter (fun row => named df row && isScoring df row)

def mandatoryRows : List Row := df.rows.filter (fun row => named df row && !isScoring df row)

def normaliseSheet (cs : List SheetCriterion) : List SheetCriterion :=
  let total := PyFloat.sum (cs.map SheetCriterion.weight)
  if PyFloat.lt 0 total && isOff total then
    cs.map (fun c => { c with weight := (divide c.weight total).round 3 })
  else cs

def parseSheetWithPandas : CriteriaLists :=
  if df.nameCol.isNone then ⟨[], []⟩
  else ⟨(mandatoryRows df).map (fun row => .obj (checkOf df row).members),
    (normaliseSheet ((scoringRows df).map (criterionOf df))).map (fun c => .obj c.members)⟩

/-- pandas, and the readings of a model, which are empty where they fail. -/
structure SheetServices where
  readSheet : Ingestion.Content → (ext : String) → Except Exn DataFrame
  llmInterpretSheet : Ingestion.Content → (ext : String) → CriteriaLists
  extractCriteriaFromText : Ingestion.Content → (ext : String) → CriteriaLists

def extension (filename : String) : String :=
  if filename.toList.contains '.' then
    String.ofList (((filename.toList.reverse.takeWhile (· ≠ '.')).reverse).map Char.toLower)
  else ""

def extractCriteriaFromUserSheet (svc : SheetServices) (sheetBytes : Ingestion.Content)
    (filename : String) : CriteriaLists :=
  let ext := extension filename
  if sheetBytes = [] then ⟨[], []⟩
  else if ext = "csv" ∨ ext = "xlsx" ∨ ext = "xls" then
    match svc.readSheet sheetBytes ext with
    | .error _ => ⟨[], []⟩
    | .ok df =>
        let result := parseSheetWithPandas df
        if result.scoringCriteria.isEmpty then svc.llmInterpretSheet sheetBytes ext else result
  else if ext = "pdf" ∨ ext = "docx" ∨ ext = "doc" then
    svc.extractCriteriaFromText sheetBytes ext
  else ⟨[], []⟩

end Sheets

section Rows

variable {df : DataFrame} {row : Row} {src : Sources} {sha256 : String → String} {merged : Merged}
  {sc : CriterionDict} {e : Entry}

theorem named_name (h : named df row = true) : df.nameCol.isNone = false := by
  cases hcol : df.nameCol with
  | none => simp [named, rowName, hcol] at h
  | some c => rfl

theorem parse_eq (df : DataFrame) : parseSheetWithPandas df =
    ⟨(mandatoryRows df).map (fun row => .obj (checkOf df row).members),
      (normaliseSheet ((scoringRows df).map (criterionOf df))).map (fun c => .obj c.members)⟩ := by
  rw [parseSheetWithPandas]
  split
  · rename_i hcol
    have hnone : ∀ p : Row → Bool, df.rows.filter (fun row => named df row && p row) = [] := by
      intro p
      refine List.filter_eq_nil_iff.mpr fun row _ hrow => ?_
      have hnamed := named_name (Bool.and_eq_true_iff.mp hrow).1
      rw [hcol] at hnamed
      cases hnamed
    rw [mandatoryRows, scoringRows, hnone, hnone]
    rfl
  · rfl

theorem normaliseSheet_eq (cs : List SheetCriterion) : ∃ weightOf : SheetCriterion → PyFloat,
    normaliseSheet cs = cs.map (fun c => { c with weight := weightOf c }) := by
  simp only [normaliseSheet]
  split
  · exact ⟨_, rfl⟩
  · exact ⟨SheetCriterion.weight, (List.map_id cs).symm⟩

theorem entries_map {α : Type} (as : List α) (members : α → List (String × Json)) (name : α → String)
    (hname : ∀ a, Json.member "name" (members a) = some (.str (name a))) :
    entries (as.map (fun a => .obj (members a))) = as.map (fun a => ⟨name a, members a⟩) := by
  induction as with
  | nil => rfl
  | cons a as ih =>
      have hentry : entryOf (.obj (members a)) = .ok ⟨name a, members a⟩ :=
        entryOf_eq_ok.mpr ⟨rfl, hname a⟩
      rw [List.map_cons, List.map_cons, ← ih, entries, List.filterMap_cons, hentry]
      rfl

theorem rubric_members (c : SheetCriterion) (b : Band) :
    Json.get c.members b.key (.str "") = .str (c.rubric b) := by
  cases b <;> rfl

theorem entries_scoring : entries (parseSheetWithPandas df).scoringCriteria =
    (normaliseSheet ((scoringRows df).map (criterionOf df))).map (fun c => ⟨c.name, c.members⟩) := by
  rw [parse_eq, entries_map _ _ SheetCriterion.name (fun _ => rfl)]

theorem mem_entries (h : e ∈ entries (parseSheetWithPandas df).scoringCriteria) :
    ∃ row ∈ scoringRows df, e.name = rowName df row ∧
      ∀ b : Band, e.get b.key (.str "") = .str (df.text row b.key) := by
  obtain ⟨weightOf, hweights⟩ := normaliseSheet_eq ((scoringRows df).map (criterionOf df))
  rw [entries_scoring, hweights] at h
  obtain ⟨c, hc, rfl⟩ := List.mem_map.mp h
  obtain ⟨own, hown, rfl⟩ := List.mem_map.mp hc
  obtain ⟨row, hrow, rfl⟩ := List.mem_map.mp hown
  exact ⟨row, hrow, rfl, rubric_members _⟩

def kindOf (df : DataFrame) (row : Row) : CheckType := if isScoring df row then .scoring else .mandatory

end Rows

section Merging

variable {df : DataFrame} {row : Row} {src : Sources} {sha256 : String → String} {merged : Merged}
  {sc : CriterionDict} {c : Candidate}

def mergedNames (merged : Merged) : CheckType → List String
  | .mandatory => merged.mandatoryChecks.map (fun mc => normalizeName mc.name)
  | .scoring => merged.scoringCriteria.map (fun sc => normalizeName sc.name)

end Merging

section Weights

variable {df : DataFrame} {src : Sources} {sha256 : String → String} {merged : Merged}
  {cs : List SheetCriterion} {c : SheetCriterion} {ws : List ℚ} {sc : CriterionDict}

/-- The weights of a sheet, brought to a sum of about one. -/
def normalised (ws : List ℚ) : List ℚ :=
  if |ws.sum - 1| ≤ 1 / 100 then ws else ws.map (fun w => round (w / ws.sum) 3)

end Weights

end RfpPlatform.SheetParser
