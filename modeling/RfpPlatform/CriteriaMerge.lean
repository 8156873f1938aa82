import RfpPlatform.ExceptRules
import RfpPlatform.FirstWins
import RfpPlatform.Schemas

namespace RfpPlatform.CriteriaMerge

open ExceptRules FirstWins PyText

section Names

/-- `name.lower()`, up to letters that `normalizeName` replaces anyway: no other letters have
an ASCII letter in their lower case. -/
def lowered (c : Char) : List Char :=
  if c.toNat = 0x212a then ['k']
  else if c.toNat = 0x130 then ['i', Char.ofNat 0x307]
  else [c.toLower]

/-- `re.sub(r"\([^)]*\)", "", n)`, with a flag telling whether a parenthesis is open. -/
def removeParens : Bool → List Char → List Char
  | _, [] => []
  | true, c :: cs => removeParens (c ≠ ')') cs
  | false, c :: cs =>
      if c = '(' ∧ ')' ∈ cs then removeParens true cs else c :: removeParens false cs

/-- The code points of the zeros of the scripts. -/
def zeros : List Nat :=
  [0x30, 0x660, 0x6f0, 0x7c0, 0x966, 0x9e6, 0xa66, 0xae6, 0xb66, 0xbe6, 0xc66, 0xce6, 0xd66, 0xde6,
    0xe50, 0xed0, 0xf20, 0x1040, 0x1090, 0x17e0, 0x1810, 0x1946, 0x19d0, 0x1a80, 0x1a90, 0x1b50,
    0x1bb0, 0x1c40, 0x1c50, 0xa620, 0xa8d0, 0xa900, 0xa9d0, 0xa9f0, 0xaa50, 0xabf0, 0xff10, 0x104a0,
    0x10d30, 0x11066, 0x110f0, 0x11136, 0x111d0, 0x112f0, 0x11450, 0x114d0, 0x11650, 0x116c0,
    0x11730, 0x118e0, 0x11950, 0x11c50, 0x11d50, 0x11da0, 0x11f50, 0x16a60, 0x16ac0, 0x16b50,
    0x1d7ce, 0x1d7d8, 0x1d7e2, 0x1d7ec, 0x1d7f6, 0x1e140, 0x1e2f0, 0x1e4d0, 0x1e950, 0x1fbf0]

/-- `\d` -/
def isDecimal (c : Char) : Bool := zeros.any (fun z => z ≤ c.toNat && c.toNat < z + 10)

def dropOne (cs : List Char) (p : Char → Bool) : List Char :=
  match cs with
  | [] => []
  | c :: rest => if p c then rest else cs

/-- The length of the match of `>=?\s*[£€$]?\s*\d+[mk]?` at the head of the text. -/
def thresholdLength (cs : List Char) : Option Nat :=
  match cs with
  | '>' :: rest =>
      let amount := (dropOne ((dropOne rest (· = '=')).dropWhile isSpace)
        (· ∈ ['£', '€', '$'])).dropWhile isSpace
      if amount.takeWhile isDecimal = [] then none
      else some (cs.length - (dropOne (amount.dropWhile isDecimal) (· ∈ ['m', 'k'])).length)
  | _ => none

/-- `re.sub(r">=?\s*[£€$]?\s*\d+[mk]?", "", n)`, with the length that is left of a match. -/
def removeThresholds : Nat → List Char → List Char
  | _, [] => []
  | n + 1, _ :: cs => removeThresholds n cs
  | 0, c :: cs =>
      match thresholdLength (c :: cs) with
      | some n => removeThresholds (n - 1) cs
      | none => c :: removeThresholds 0 cs

/-- `_NOISE_SUFFIXES` -/
def noiseSuffixes : List String :=
  [" certification", " compliance", " requirement", " requirements", " check", " verification",
    " policy", " standard", " standards", " insurance", " cover", " coverage"]

def removeSuffix (cs : List Char) (suffix : String) : List Char :=
  if endsWith cs suffix.toList then stripChars (cs.take (cs.length - suffix.length)) else cs

def isKeyChar (c : Char) : Bool :=
  ('a' ≤ c && c ≤ 'z') || ('0' ≤ c && c ≤ '9') || isSpace c

def normalizeName (name : String) : String :=
  let cs := stripChars (name.toList.flatMap lowered)
  let cs := stripChars (removeParens false cs)
  let cs := cs.flatMap (fun c => if c = '&' then "and".toList else [c])
  let cs := stripChars (removeThresholds 0 cs)
  let cs := noiseSuffixes.foldl removeSuffix cs
  let cs := cs.map (fun c => if isKeyChar c then c else ' ')
  String.ofList (stripChars (squeeze false cs))

example : normalizeName "ISO 27001 Certification" = "iso 27001" := by decide +kernel
example : normalizeName "Annual Revenue (GBP) >= £5M" = "annual revenue" := by decide +kernel

variable (sha256 : String → String)

/-- `_stable_id`, over the hexadecimal digest. -/
def stableId (parts : List String) : String :=
  (prefixOf 8 (sha256 (join "|" parts))).toUpper

end Names

section Sources

inductive CheckType
  | mandatory | scoring
  deriving DecidableEq

def CheckType.code : CheckType → String
  | mandatory => "mc"
  | scoring => "sc"

/-- A row of `org_criteria_templates` or `dept_criteria_templates`. A rubric of SQL is null like
one of JSON. -/
structure Template where
  templateId : String
  checkType : CheckType
  name : String
  description : Option String
  whatPasses : Option String
  defaultWeight : Option PyFloat
  rubric : Json
  isLocked : Option Bool

/-- The two lists of an uploaded sheet or of a request for proposals. -/
structure CriteriaLists where
  mandatoryChecks : List Json
  scoringCriteria : List Json

def CriteriaLists.of (l : CriteriaLists) : CheckType → List Json
  | .mandatory => l.mandatoryChecks
  | .scoring => l.scoringCriteria

structure Sources where
  org : List Template
  dept : List Template
  user : Option CriteriaLists
  rfp : CriteriaLists

/-- An object with a name. -/
structure Entry where
  name : String
  members : List (String × Json)

/-- `_normalize_name(c["name"])` raises on what has no text as its name. -/
def entryOf : Json → Except Exn Entry
  | .obj ms =>
      match Json.member "name" ms with
      | some (.str name) => .ok ⟨name, ms⟩
      | some v => .error ⟨.attributeError, s!"'{v.typeName}' object has no attribute 'lower'"⟩
      | none => .error ⟨.keyError, "'name'"⟩
  | .arr _ => .error ⟨.typeError, "list indices must be integers or slices, not str"⟩
  | .str _ => .error ⟨.typeError, "string indices must be integers, not 'str'"⟩
  | v => .error ⟨.typeError, s!"'{v.typeName}' object is not subscriptable"⟩

def Entry.get (e : Entry) (key : String) (dflt : Json) : Json := Json.get e.members key dflt

/-- The four bands of a score guide. -/
inductive Band
  | rubric_9_10 | rubric_6_8 | rubric_3_5 | rubric_0_2
  deriving DecidableEq

def Band.key : Band → String
  | rubric_9_10 => "rubric_9_10"
  | rubric_6_8 => "rubric_6_8"
  | rubric_3_5 => "rubric_3_5"
  | rubric_0_2 => "rubric_0_2"

def Band.templateKey : Band → String
  | rubric_9_10 => "9_10"
  | rubric_6_8 => "6_8"
  | rubric_3_5 => "3_5"
  | rubric_0_2 => "0_2"

def Band.all : List Band := [.rubric_9_10, .rubric_6_8, .rubric_3_5, .rubric_0_2]

end Sources

section Dictionaries

/-- The dictionaries that are validated later. -/
structure CheckDict where
  checkId : String
  name : String
  description : Json
  whatPasses : Json
  extractionTargetId : String
  source : String
  isLocked : Option Bool
  pageReference : Json

structure CriterionDict where
  criterionId : String
  name : String
  weight : PyFloat
  rubric : Band → Json
  extractionTargetIds : List String
  source : String
  isLocked : Option Bool
  pageReference : Json
  scoreGuideSource : Option String

structure TargetDict where
  targetId : String
  name : String
  description : Json
  factType : String
  isMandatory : Bool
  feedsCriterionId : Option String
  feedsCheckId : Option String
  source : String

/-- A row or an entry, with the source that it comes from. -/
inductive Candidate
  | org (t : Template)
  | dept (t : Template)
  | user (e : Entry)
  | rfp (e : Entry)

namespace Candidate

def name : Candidate → String
  | org t | dept t => t.name
  | user e | rfp e => e.name

def key (c : Candidate) : String := normalizeName c.name

def source : Candidate → String
  | org _ => "org"
  | dept _ => "dept"
  | user _ => "user"
  | rfp _ => "rfp"

def isLocked : Candidate → Option Bool
  | org t | dept t => t.isLocked
  | user _ | rfp _ => some false

def textOf (o : Option String) : Json := o.elim .null .str

def description : Candidate → Json
  | org t | dept t => textOf t.description
  | user e | rfp e => e.get "description" (.str "")

def whatPasses : Candidate → Json
  | org t | dept t => textOf t.whatPasses
  | user e | rfp e => e.get "what_passes" (.str "")

def pageReference : Candidate → Json
  | rfp e => e.get "page_reference" (.str "")
  | _ => .null

/-- `float(c["default_weight"])` and `float(c.get("weight", 0.0))` -/
def weight : Candidate → Except Exn PyFloat
  | org t | dept t => orRaise t.defaultWeight
      ⟨.typeError, "float() argument must be a string or a real number, not 'NoneType'"⟩
  | user e | rfp e => (e.get "weight" (.num 0)).toFloat

/-- `c.get("rubric", {}).get("9_10", "")` and `c.get("rubric_9_10", "")` -/
def rubric : Candidate → Except Exn (Band → Json)
  | org t | dept t => do
      let ms ← t.rubric.asObject
      return fun b => Json.get ms b.templateKey (.str "")
  | user e | rfp e => return fun b => e.get b.key (.str "")

variable (sha256 : String → String)

def tag (kind : CheckType) : Candidate → String
  | org t => s!"ORG-{(prefixOf 8 t.templateId).toUpper}"
  | dept t => s!"DEPT-{(prefixOf 8 t.templateId).toUpper}"
  | user e => "USER-" ++ stableId sha256 ["user", kind.code, normalizeName e.name]
  | rfp e => "RFP-" ++ stableId sha256 ["rfp", kind.code, normalizeName e.name]

def check (c : Candidate) : CheckDict where
  checkId := s!"MC-{c.tag sha256 .mandatory}"
  name := c.name
  description := c.description
  whatPasses := c.whatPasses
  extractionTargetId := s!"ET-{c.tag sha256 .mandatory}"
  source := c.source
  isLocked := c.isLocked
  pageReference := c.pageReference

def criterion (c : Candidate) : Except Exn CriterionDict := do
  let weight ← c.weight
  let rubric ← c.rubric
  return {
    criterionId := s!"SC-{c.tag sha256 .scoring}"
    name := c.name
    weight := weight
    rubric := rubric
    extractionTargetIds := []
    source := c.source
    isLocked := c.isLocked
    pageReference := c.pageReference
    scoreGuideSource := none }

end Candidate

end Dictionaries

section Merging

variable (sha256 : String → String)

abbrev Merge := Collected CheckDict String × Collected CriterionDict String

/-- An organisation's template joins whatever has been merged. -/
def putCandidate (kind : CheckType) (c : Candidate) (m : Merge) : Except Exn Merge :=
  match kind with
  | .mandatory => return (← put Candidate.key (fun c => pure (c.check sha256)) m.1 c, m.2)
  | .scoring => return (m.1, ← put Candidate.key (Candidate.criterion sha256) m.2 c)

def addCandidate (kind : CheckType) (c : Candidate) (m : Merge) : Except Exn Merge :=
  match kind with
  | .mandatory => return (← add Candidate.key (fun c => pure (c.check sha256)) m.1 c, m.2)
  | .scoring => return (m.1, ← add Candidate.key (Candidate.criterion sha256) m.2 c)

def userLists (src : Sources) : CriteriaLists := src.user.getD ⟨[], []⟩

/-- The four sources, in the order of their priority. -/
def collect (src : Sources) : Except Exn Merge := do
  let m ← src.org.foldlM (fun m t => putCandidate sha256 t.checkType (.org t) m) (⟨[], []⟩, ⟨[], []⟩)
  let m ← src.dept.foldlM (fun m t => addCandidate sha256 t.checkType (.dept t) m) m
  let m ← (userLists src).mandatoryChecks.foldlM
    (fun m c => do addCandidate sha256 .mandatory (.user (← entryOf c)) m) m
  let m ← (userLists src).scoringCriteria.foldlM
    (fun m c => do addCandidate sha256 .scoring (.user (← entryOf c)) m) m
  let m ← src.rfp.mandatoryChecks.foldlM
    (fun m c => do addCandidate sha256 .mandatory (.rfp (← entryOf c)) m) m
  src.rfp.scoringCriteria.foldlM
    (fun m c => do addCandidate sha256 .scoring (.rfp (← entryOf c)) m) m

abbrev Guides := Dict String Entry

/-- `{_normalize_name(c["name"]): c for c in criteria}` -/
def byName (criteria : List Json) : Except Exn Guides := do
  let entries ← criteria.mapM entryOf
  return Dict.ofPairs (entries.map (fun e => (normalizeName e.name, e)))

/-- A blank band is taken from the entry of the same name, if it has the band. An entry has a name
and is thus not empty. -/
def filled (found : Option Entry) (own : Json) (b : Band) : Json :=
  match found with
  | some e => if !own.truthy && (e.get b.key .null).truthy then e.get b.key .null else own
  | none => own

def isFilled (found : Option Entry) (own : Json) (b : Band) : Bool :=
  found.any (fun e => !own.truthy && (e.get b.key .null).truthy)

def enrich (guides : Guides) (sc : CriterionDict) : CriterionDict :=
  let found := guides.get? (normalizeName sc.name)
  { sc with
    rubric := fun b => filled found (sc.rubric b) b
    scoreGuideSource :=
      if Band.all.any (fun b => isFilled found (sc.rubric b) b) then some "rfp"
      else sc.scoreGuideSource }

/-- `x / y` for `y` that is not zero. -/
def divide : PyFloat → PyFloat → PyFloat
  | .fin a, .fin b => .fin (a / b)
  | .fin _, .posInf | .fin _, .negInf => 0
  | .posInf, .fin b => if 0 < b then .posInf else .negInf
  | .negInf, .fin b => if 0 < b then .negInf else .posInf
  | _, _ => .nan

/-- `abs(total - 1.0) > 0.01` -/
def isOff : PyFloat → Bool
  | .fin q => 1 / 100 < |q - 1|
  | .nan => false
  | _ => true

def normaliseWeights (criteria : List CriterionDict) : List CriterionDict :=
  let total := PyFloat.sum (criteria.map CriterionDict.weight)
  if total.isZero then
    criteria.map (fun c => { c with weight := (PyFloat.fin (1 / criteria.length)).round 3 })
  else if isOff total then
    criteria.map (fun c => { c with weight := (divide c.weight total).round 3 })
  else criteria

def lastOf (n : Nat) (s : String) : String := String.ofList (s.toList.drop (s.length - n))

/-- `f"ET-SC-{sc['criterion_id'][-8:]}"` -/
def scoringTargetId (sc : CriterionDict) : String := s!"ET-SC-{lastOf 8 sc.criterionId}"

def checkTarget (mc : CheckDict) : TargetDict :=
  ⟨mc.extractionTargetId, mc.name, mc.whatPasses, "custom", true, none, some mc.checkId, mc.source⟩

def criterionTarget (sc : CriterionDict) : TargetDict :=
  ⟨scoringTargetId sc, sc.name, .str s!"Find evidence for: {sc.name}", "custom", false,
    some sc.criterionId, none, sc.source⟩

/-- `_build_targets` -/
def buildTargets (checks : List CheckDict) (criteria : List CriterionDict) : List TargetDict :=
  checks.map checkTarget ++ criteria.map criterionTarget

structure Merged where
  mandatoryChecks : List CheckDict
  scoringCriteria : List CriterionDict
  extractionTargets : List TargetDict
  totalWeight : Option PyFloat
  source : String

def finish (checks : List CheckDict) (criteria : List CriterionDict) (guides : Guides) : Merged :=
  let criteria := criteria.map (enrich guides)
  if criteria.isEmpty then ⟨checks, [], buildTargets checks [], none, "merged_empty"⟩
  else
    let criteria := normaliseWeights criteria
    let targets := buildTargets checks criteria
    let criteria := criteria.map (fun sc => { sc with extractionTargetIds := [scoringTargetId sc] })
    ⟨checks, criteria, targets,
      some ((PyFloat.sum (criteria.map CriterionDict.weight)).round 3), "merged"⟩

def mergeCriteria (src : Sources) : Except Exn Merged := do
  let m ← collect sha256 src
  let guides ← byName src.rfp.scoringCriteria
  return finish m.1.items m.2.items guides

end Merging

section Gaps

structure GapsReport where
  hasGaps : Bool
  scoreGuidesGenerated : List String
  mandatoryChecksSuggested : List String

/-- The calls of the gap detector, which are made only when there is a gap. -/
structure GapReplies where
  scoreGuides : LlmReply
  mandatoryChecks : LlmReply

/-- The items met when a reply is iterated over. -/
def itemsOf : LlmReply → Except Exn (List Json)
  | .raised e => .error e
  | .invalidJson text => .error ⟨.jsonDecodeError, text⟩
  | .json (.arr xs) => .ok xs
  | .json (.obj ms) => .ok (ms.map (fun m => .str m.1))
  | .json (.str s) => .ok (s.toList.map (fun c => .str c.toString))
  | .json v => .error ⟨.typeError, s!"'{v.typeName}' object is not iterable"⟩

/-- All four bands are blank. -/
def lacksGuide (sc : CriterionDict) : Bool := !Band.all.any (fun b => (sc.rubric b).truthy)

def applyGuide (guides : Guides) (sc : CriterionDict) : CriterionDict :=
  match guides.get? (normalizeName sc.name) with
  | some e =>
      { sc with
        rubric := fun b => e.get b.key (.str "")
        scoreGuideSource := some "generated" }
  | none => sc

/-- An exception of the call or of its reply leaves the criteria as they are. -/
def fillGuides (reply : LlmReply) (criteria : List CriterionDict) :
    List CriterionDict × List String :=
  match itemsOf reply >>= byName with
  | .ok guides =>
      (criteria.map (applyGuide guides),
        (criteria.filter (fun sc => (guides.get? (normalizeName sc.name)).isSome)).map
          CriterionDict.name)
  | .error _ => (criteria, [])

/-- `_normalize_name(s.get("name", ""))` -/
def suggestionOf (s : Json) : Except Exn Entry := do
  let ms ← s.asObject
  match Json.get ms "name" (.str "") with
  | .str name => return ⟨name, ms⟩
  | v => throw ⟨.attributeError, s!"'{v.typeName}' object has no attribute 'lower'"⟩

/-- An exception ends the loop, and what has been appended stays. -/
def suggestions : List Json → List Entry
  | [] => []
  | s :: rest =>
      match suggestionOf s with
      | .ok e => e :: suggestions rest
      | .error _ => []

variable (sha256 : String → String)

def generatedId (e : Entry) : String := stableId sha256 ["gen", "mc", normalizeName e.name]

def generatedCheck (e : Entry) : CheckDict where
  checkId := s!"MC-GEN-{generatedId sha256 e}"
  name := e.name
  description := e.get "description" (.str "")
  whatPasses := e.get "what_passes" (.str "")
  extractionTargetId := s!"ET-GEN-{generatedId sha256 e}"
  source := "generated"
  isLocked := some false
  pageReference := .null

def generatedTarget (e : Entry) : TargetDict :=
  ⟨s!"ET-GEN-{generatedId sha256 e}", e.name,
    e.get "what_passes" (e.get "description" (.str "")), "custom", true, none,
    some s!"MC-GEN-{generatedId sha256 e}", "generated"⟩

def suggested (reply : LlmReply) : List Entry :=
  match itemsOf reply with
  | .ok items => suggestions items
  | .error _ => []

def detectAndFillGaps (replies : GapReplies) (merged : Merged) : Merged × GapsReport :=
  let unguided := merged.scoringCriteria.any lacksGuide
  let guided := if unguided then fillGuides replies.scoreGuides merged.scoringCriteria
    else (merged.scoringCriteria, [])
  let unchecked := merged.mandatoryChecks.isEmpty
  let entries := if unchecked then suggested replies.mandatoryChecks else []
  ({ merged with
      scoringCriteria := guided.1
      mandatoryChecks := merged.mandatoryChecks ++ entries.map (generatedCheck sha256)
      extractionTargets := merged.extractionTargets ++ entries.map (generatedTarget sha256) },
    ⟨unguided || unchecked, guided.2, entries.map Entry.name⟩)

end Gaps

end RfpPlatform.CriteriaMerge
