import RfpPlatform.CorrectionLedger
import RfpPlatform.Prompts

namespace RfpPlatform.FewShot

open CanonicalText CorrectionLedger Ingestion JsonText

section Bank

structure PlatformFewShot where
  enabled : Bool
  maxExamples : Nat
  minReasonLen : Nat
  applyToChecks : Bool
  applyToScores : Bool

/-- What a call of the bank finds. The read of the table may fail. -/
structure Surroundings where
  fewShot : PlatformFewShot
  patterns : List InjectionPattern
  readable : Bool
  sources : Prompts.Sources
  cache : Prompts.Cache

/-- How a JSON column gives back the members of a dictionary, and the `str` of other values than
texts and integers. -/
structure Rendering where
  jsonb : Members → Members
  pyStr : JsonValue → String

/-- An item of an organisation, where an empty type or name stands for every one. -/
structure Item where
  orgId : String
  targetType : String
  targetId : String

def Item.covers (item : Item) (orgId targetType targetId : String) : Bool :=
  decide (orgId = item.orgId) && (item.targetType = "" || targetType = item.targetType) &&
    (item.targetId = "" || targetId = item.targetId)

def Item.selects (item : Item) (c : EvaluationCorrection) : Bool :=
  c.active && item.covers c.orgId c.targetType c.targetId

def newestFirst (a b : EvaluationCorrection) : Bool := decide (b.createdAt ≤ a.createdAt)

/-- `get_evaluation_corrections` for active corrections of any run -/
def getEvaluationCorrections (l : Ledger) (item : Item) (limit : Nat) :
    List EvaluationCorrection :=
  ((l.evaluationCorrections.filter item.selects).mergeSort newestFirst).take (min limit 200)

variable (rd : Rendering)

def strOf : JsonValue → String
  | .str s => s
  | .scalar (.int n) => .ofList (intText n)
  | v => rd.pyStr v

/-- `json.dumps(value, default=str)` -/
def dumpsPlain (value : Members) : String := .ofList (text (format true) (.dict value))

def formatValue (targetType : String) (value : Members) : String :=
  if value = [] then "(not recorded)"
  else match targetType, member "raw_score" value, member "decision" value with
    | "criterion", some score, _ => s!"score {strOf rd score}/10"
    | "check", _, some decision => strOf rd decision
    | _, _, _ => dumps true (.dict value)

def originalOf (c : EvaluationCorrection) : Members := rd.jsonb c.originalValue

def correctedOf (c : EvaluationCorrection) : Members := rd.jsonb c.correctedValue

def scanTarget (c : EvaluationCorrection) : String :=
  PyText.join " " [PyText.strip c.reason, dumpsPlain (originalOf rd c),
    dumpsPlain (correctedOf rd c)]

def usable (env : Surroundings) (c : EvaluationCorrection) : Bool :=
  decide (env.fewShot.minReasonLen ≤ PyText.strippedLength c.reason) &&
    (scanText (scanTarget rd c) env.patterns).isEmpty

def exampleText (n : Nat) (c : EvaluationCorrection) : String :=
  s!"Example {n}:\n" ++ s!"  AI judged: {formatValue rd c.targetType (originalOf rd c)}\n" ++
    s!"  Human corrected to: {formatValue rd c.targetType (correctedOf rd c)}\n" ++
    s!"  Reason: {PyText.strip c.reason}"

def renderExamples (env : Surroundings) (corrections : List EvaluationCorrection) : String :=
  PyText.join "\n\n" ((corrections.filter (usable rd env)).mapIdx fun i c =>
    exampleText rd (i + 1) c)

def switchedOff (fs : PlatformFewShot) (item : Item) : Bool :=
  !fs.enabled || item.orgId = "" || (item.targetType = "check" && !fs.applyToChecks) ||
    (item.targetType = "criterion" && !fs.applyToScores)

/-- Whatever fails, the evaluation goes on without examples. -/
def buildFewShotBlock (env : Surroundings) (l : Ledger) (item : Item) : String :=
  if switchedOff env.fewShot item ∨ env.readable = false then ""
  else
    let rendered := renderExamples rd env
      (getEvaluationCorrections l item env.fewShot.maxExamples)
    if rendered = "" then ""
    else (Prompts.getPrompt env.sources env.cache "evaluation/few_shot_examples"
      [("examples", rendered)]).2.toOption.getD ""

end Bank

section Isolation

variable {rd : Rendering} {env : Surroundings} {item : Item} {history other : List Request}
  {r : Request} {c : EvaluationCorrection}

def concerns (item : Item) (r : Request) : Bool :=
  match r.call with
  | .correct body => item.covers r.user.orgId body.targetType body.targetId
  | .override _ => false

theorem target_of_checked {body : CorrectionRequest} (h : checkedCorrection r body = .ok c) :
    c.targetType = body.targetType ∧ c.targetId = body.targetId := by
  obtain ⟨_, _, h⟩ := ExceptRules.bind_eq_ok.mp h
  obtain ⟨_, _, h⟩ := ExceptRules.bind_eq_ok.mp h
  obtain ⟨_, _, h⟩ := ExceptRules.bind_eq_ok.mp h
  obtain ⟨_, _, h⟩ := ExceptRules.bind_eq_ok.mp h
  by_cases hlong : 20 ≤ PyText.strippedLength body.reason
  · rw [dif_pos hlong] at h
    obtain ⟨_, _, h⟩ := ExceptRules.bind_eq_ok.mp h
    obtain rfl := ExceptRules.pure_eq_ok.mp h
    exact ⟨rfl, rfl⟩
  · rw [dif_neg hlong] at h
    cases h

theorem concerns_of_selects (hr : recordedCorrection r = some c) (h : item.selects c = true) :
    concerns item r = true := by
  obtain ⟨body, hcall, hc, _⟩ := recordedCorrection_eq_some hr
  obtain ⟨htype, hid⟩ := target_of_checked hc
  have hcovers := (Bool.and_eq_true_iff.mp h).2
  rw [htype, hid, (sanctioned_of_recorded hr).org] at hcovers
  rw [concerns, hcall]
  exact hcovers

/-- The corrections of an item, from the requests that concern it. -/
theorem selected_eq (hids : (history.map fun r => r.draw.correctionId).Nodup) :
    (ledgerAfter history).evaluationCorrections.filter item.selects =
      ((history.filter (concerns item)).filterMap recordedCorrection).filter item.selects := by
  rw [evaluationCorrections_eq hids, List.filter_filterMap, List.filter_filterMap,
    List.filterMap_filter]
  refine List.filterMap_congr fun r _ => ?_
  by_cases hcon : concerns item r = true
  · rw [if_pos hcon]
  · rw [if_neg hcon, Option.filter_eq_none_iff]
    exact fun c hc hsel => hcon (concerns_of_selects hc hsel)

/-- The block of an item is the same after two histories with the same requests on that item, by
users of its organisation, whatever else the two do. -/
theorem block_isolated (hids : (history.map fun r => r.draw.correctionId).Nodup)
    (hids' : (other.map fun r => r.draw.correctionId).Nodup)
    (hsame : history.filter (concerns item) = other.filter (concerns item)) :
    buildFewShotBlock rd env (ledgerAfter history) item =
      buildFewShotBlock rd env (ledgerAfter other) item := by
  have hget : ∀ n, getEvaluationCorrections (ledgerAfter history) item n =
      getEvaluationCorrections (ledgerAfter other) item n := fun n => by
    rw [getEvaluationCorrections, getEvaluationCorrections, selected_eq hids, selected_eq hids',
      hsame]
  rw [buildFewShotBlock, buildFewShotBlock, hget]

end Isolation

section Soundness

variable {rd : Rendering} {env : Surroundings} {item : Item} {history : List Request}
  {c : EvaluationCorrection} {l : Ledger} {limit : Nat}

/-- The template of `evaluation/few_shot_examples.yaml`. -/
def fewShotExamples : List TextTemplate.Piece :=
  [Prompts.line "----------------------------------------\n",
    Prompts.line "CALIBRATION — PAST HUMAN CORRECTIONS (your organization)\n",
    Prompts.line "A reviewer previously corrected the AI on this same item. Use these only to\n",
    Prompts.line "calibrate borderline judgments — hold the facts provided to the SAME standard.\n\n",
    Prompts.line "Hard rules (these override the examples):\n",
    Prompts.line "  - Judge strictly on the extracted facts provided. Never invent evidence.\n",
    Prompts.line "  - If the facts contradict an example, follow the FACTS, not the example.\n",
    Prompts.line "  - An example never lowers the evidence bar: no grounding quote → no credit.\n\n",
    Prompts.slot "examples", Prompts.line "\n----------------------------------------\n"]

def fewShotFiles : Prompts.Sources where
  langsmithAvailable := false
  loadFromLangsmith := fun _ => none
  loadFromYaml := fun _ => .ok (Prompts.templateText fewShotExamples)

def defaults : Surroundings := ⟨⟨true, 3, 20, true, true⟩, [], true, fewShotFiles, ∅⟩

def plainRendering : Rendering := ⟨id, fun _ => ""⟩

def firstCriterion : Item := ⟨"org-1", "criterion", "crit-1"⟩

/-- A correction by another organisation changes nothing. -/
theorem block_of_two :
    buildFewShotBlock plainRendering defaults
        (ledgerAfter [correctionOf (adminOf "org-1") 7 "1" true]) firstCriterion =
      buildFewShotBlock plainRendering defaults
        (ledgerAfter [correctionOf (adminOf "org-2") 3 "2" true,
          correctionOf (adminOf "org-1") 7 "1" true]) firstCriterion :=
  block_isolated (by decide) (by decide) rfl

end Soundness

end RfpPlatform.FewShot
