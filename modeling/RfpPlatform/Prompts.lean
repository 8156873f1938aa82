import RfpPlatform.ExceptRules
import RfpPlatform.KeyedTable
import RfpPlatform.PyText
import RfpPlatform.PyValue
import RfpPlatform.TextTemplate

namespace RfpPlatform.Prompts

open ExceptRules TextTemplate

section Registry

/-- `_REGISTRY`, by the names of the prompts: the name on the hub and the file. -/
def registry : List (String × String × String) :=
  [("setup/extract_rfp_criteria", "setup-extract-rfp-criteria", "setup/extract_rfp_criteria.yaml"),
    ("setup/generate_score_guides", "setup-generate-score-guides",
      "setup/generate_score_guides.yaml"),
    ("setup/suggest_mandatory_checks", "setup-suggest-mandatory-checks",
      "setup/suggest_mandatory_checks.yaml"),
    ("setup/interpret_criteria_sheet", "setup-interpret-criteria-sheet",
      "setup/interpret_criteria_sheet.yaml"),
    ("retrieval/rewrite_query", "retrieval-rewrite-query", "retrieval/rewrite_query.yaml"),
    ("retrieval/hyde_vendor_response", "retrieval-hyde-vendor-response",
      "retrieval/hyde_vendor_response.yaml"),
    ("retrieval/hyde_rfp_requirement", "retrieval-hyde-rfp-requirement",
      "retrieval/hyde_rfp_requirement.yaml"),
    ("retrieval/hyde_policy_document", "retrieval-hyde-policy-document",
      "retrieval/hyde_policy_document.yaml"),
    ("extraction/extract_facts", "extraction-extract-facts", "extraction/extract_facts.yaml"),
    ("extraction/retry_extract", "extraction-retry-extract", "extraction/retry_extract.yaml"),
    ("evaluation/verify_threshold", "evaluation-verify-threshold",
      "evaluation/verify_threshold.yaml"),
    ("evaluation/evaluate_check", "evaluation-evaluate-check", "evaluation/evaluate_check.yaml"),
    ("evaluation/score_criterion", "evaluation-score-criterion",
      "evaluation/score_criterion.yaml"),
    ("evaluation/few_shot_examples", "evaluation-few-shot-examples",
      "evaluation/few_shot_examples.yaml"),
    ("comparator/compare_criterion", "comparator-compare-criterion",
      "comparator/compare_criterion.yaml"),
    ("decision/extract_evidence", "decision-extract-evidence", "decision/extract_evidence.yaml"),
    ("explanation/generate_narrative", "explanation-generate-narrative",
      "explanation/generate_narrative.yaml"),
    ("explanation/verify_claims", "explanation-verify-claims", "explanation/verify_claims.yaml"),
    ("critic/retry_feedback", "critic-retry-feedback", "critic/retry_feedback.yaml")]

/-- Where a call finds the templates: the hub, when it is opted into and can be reached, and the
files of the repository. -/
structure Sources where
  langsmithAvailable : Bool
  loadFromLangsmith : String → Option String
  loadFromYaml : String → Except Exn String

abbrev Cache := Dict String String

/-- An empty template from the hub is no template. -/
def hubTemplate (s : Sources) (identifier : String) : Option String :=
  if s.langsmithAvailable then (s.loadFromLangsmith identifier).filter (· ≠ "") else none

def loadTemplate (s : Sources) (cache : Cache) (name : String) : Except Exn String := do
  let (identifier, yamlFile) ← orRaise (registry.lookup name)
    ⟨.keyError, "Unknown prompt: " ++ PyText.quote name ++ ". Available: " ++
      PyText.listRepr (registry.map Prod.fst)⟩
  match cache.get? name, hubTemplate s identifier with
  | some template, _ => return template
  | none, some template => return template
  | none, none => s.loadFromYaml yamlFile

def substitute (vars : List (String × String)) (template : String) : String :=
  .ofList (replaceEach (vars.map fun kv => (kv.1.toList, kv.2.toList)) template.toList)

/-- The prompt, with the cache that the call leaves. -/
def getPrompt (s : Sources) (cache : Cache) (name : String) (vars : List (String × String)) :
    Cache × Except Exn String :=
  match loadTemplate s cache name with
  | .error e => (cache, .error e)
  | .ok template => (cache.set name template, .ok (substitute vars template))

structure PromptCall where
  sources : Sources
  name : String
  vars : List (String × String)

def cacheAfter (calls : List PromptCall) : Cache :=
  calls.foldl (fun cache c => (getPrompt c.sources cache c.name c.vars).1) ∅

end Registry

section Cached

variable {cache : Cache} {name template : String} {calls : List PromptCall} {c d : PromptCall}

theorem registered_of_load {s : Sources} (h : loadTemplate s cache name = .ok template) :
    ∃ entry, registry.lookup name = some entry := by
  obtain ⟨entry, hentry, _⟩ := bind_eq_ok.mp h
  exact ⟨entry, orRaise_eq_ok.mp hentry⟩

theorem loadTemplate_cached {s : Sources} {entry : String × String}
    (hreg : registry.lookup name = some entry) (hc : cache.get? name = some template) :
    loadTemplate s cache name = .ok template := by
  rw [loadTemplate, hreg, hc]
  rfl

theorem get?_getPrompt (h : cache.get? name = some template) :
    (getPrompt c.sources cache c.name c.vars).1.get? name = some template := by
  rw [getPrompt]
  cases hload : loadTemplate c.sources cache c.name with
  | error e => exact h
  | ok t =>
      by_cases hname : name = c.name
      · obtain ⟨entry, hreg⟩ := registered_of_load hload
        rw [loadTemplate_cached hreg (hname ▸ h)] at hload
        obtain rfl := Except.ok.inj hload
        rw [hname]
        exact Dict.get?_set_self
      · exact (Dict.get?_set_ne hname).trans h

theorem get?_foldl (h : cache.get? name = some template) :
    (calls.foldl (fun cache c => (getPrompt c.sources cache c.name c.vars).1) cache).get? name =
      some template := by
  induction calls generalizing cache with
  | nil => exact h
  | cons c calls ih => exact ih (get?_getPrompt h)

theorem get?_cacheAfter (hload : loadTemplate c.sources (cacheAfter calls) c.name = .ok template)
    (more : List PromptCall) : (cacheAfter (calls ++ c :: more)).get? c.name = some template := by
  rw [cacheAfter, List.foldl_append, List.foldl_cons]
  refine get?_foldl ?_
  rw [getPrompt, ← cacheAfter, hload]
  exact Dict.get?_set_self

end Cached

section Filled

variable {calls more : List PromptCall} {c d : PromptCall} {pieces : List Piece}

/-- A template as it is written, with its holes open. -/
def templateText (pieces : List Piece) : String := .ofList (render (fun _ => none) pieces)

def charsOf (vars : List (String × String)) : List (List Char × List Char) :=
  vars.map fun kv => (kv.1.toList, kv.2.toList)

/-- Once a template is loaded, every later call of its prompt fills its holes, each with the value
of its variable and all else as it stands, whatever the hub and the files have by then. The values
but the last must open no hole. -/
theorem prompt_filled
    (hload : loadTemplate c.sources (cacheAfter calls) c.name = .ok (templateText pieces))
    (hsound : ∀ p ∈ pieces, p.sound = true) (hname : d.name = c.name)
    (hkeys : ((charsOf d.vars).map Prod.fst).Nodup)
    (hnames : ∀ kv ∈ charsOf d.vars, kv.1.all isKeyChar = true)
    (hvals : ∀ kv ∈ (charsOf d.vars).dropLast, inert kv.2 = true) :
    (getPrompt d.sources (cacheAfter (calls ++ c :: more)) d.name d.vars).2 =
      .ok (String.ofList (render (valuesOf (charsOf d.vars)) pieces)) := by
  obtain ⟨entry, hreg⟩ := registered_of_load hload
  have hcached := get?_cacheAfter hload more
  rw [getPrompt, hname, loadTemplate_cached hreg hcached]
  refine congrArg Except.ok ?_
  rw [substitute, ← charsOf, templateText, String.toList_ofList,
    replaceEach_eq_render hsound hkeys hnames hvals]

def line (s : String) : Piece := .text s.toList

def slot (key : String) : Piece := .hole key.toList

/-- The template of `extraction/retry_extract.yaml`. -/
def retryExtract : List Piece :=
  [line "You are a structured fact extraction engine for enterprise vendor evaluation.\n",
    line "The previous extraction attempt FAILED the following mandatory check:\n\n",
    line "  Criterion  : ", slot "criterion_name", line "\n  Requires   : ", slot "what_passes",
    line "\n  Previous   : ", slot "wrong_summary", line "\n  What failed: ",
    slot "missing_summary", line "\n", slot "target_desc",
    line "\nSearch the vendor document passages for the PRIMARY statement that satisfies\n\"",
    slot "criterion_name",
    line "\". Do NOT extract adjacent or loosely related facts —\n",
    line "only the one statement that directly and explicitly satisfies the criterion.\n\n",
    line "Rules:\n1. grounding_quote must be the EXACT verbatim sentence from the source — ",
    line "word for word.\n2. source_chunk_id must match the [chunk_id] shown in the context ",
    line "headers.\n3. Only extract what is explicitly stated. Do not infer or assume.\n",
    line "4. If the document genuinely does not contain evidence for this criterion, ",
    line "return an empty array.\n\nReturn ONLY a JSON object with a \"",
    slot "response_key", line "\" array:\n", slot "schema", line "\n"]

theorem sound_retryExtract : ∀ p ∈ retryExtract, p.sound = true := by decide +kernel

def localFiles : Sources where
  langsmithAvailable := false
  loadFromLangsmith := fun _ => none
  loadFromYaml := fun file =>
    if file = "extraction/retry_extract.yaml" then .ok (templateText retryExtract)
    else .error ⟨.external, file⟩

def retryCall (sources : Sources) (missing : String) : PromptCall where
  sources := sources
  name := "extraction/retry_extract"
  vars := [("criterion_name", "Public liability"), ("what_passes", "At least 5m"),
    ("wrong_summary", "\x7b2m, 3m\x7d"), ("missing_summary", missing), ("target_desc", ""),
    ("response_key", "insurance"), ("schema", "[{schema}]")]

def noFiles : Sources := { localFiles with loadFromYaml := fun file => .error ⟨.external, file⟩ }

/-- A call after one that found the file, when the file is gone. -/
theorem retry_filled :
    (getPrompt noFiles (cacheAfter ([] ++ [retryCall localFiles "amount"]))
        "extraction/retry_extract" (retryCall noFiles "level").vars).2 =
      .ok (.ofList (render (valuesOf (charsOf (retryCall noFiles "level").vars)) retryExtract)) :=
  prompt_filled (c := retryCall localFiles "amount") (d := retryCall noFiles "level") rfl
    sound_retryExtract rfl (by decide +kernel) (by decide +kernel) (by decide +kernel)

end Filled

end RfpPlatform.Prompts
