import RfpPlatform.KeyedTable
import RfpPlatform.PyValue

namespace RfpPlatform.BenchmarkMetrics

open PyText

section Matching

inductive Scalar
  | none
  | bool (b : Bool)
  | int (n : Int)
  | float (x : PyFloat)
  | text (s : String)
  | list (items : List String)

/-- `str(v)` -/
def Scalar.str : Scalar → String
  | .none => "None"
  | .bool b => if b then "True" else "False"
  | .int n => toString n
  | .float x => x.repr
  | .text s => s
  | .list items => listRepr items

def norm (s : String) : List Char := (ws s).map Char.toLower

def textContains (haystack needle : String) : Bool :=
  needle ≠ "" && occurs (norm needle) (norm haystack)

/-- The signs and blanks that `_to_number` takes out of a text. -/
def isMoneySign (c : Char) : Bool := c ∈ ['£', '$', ',', '%'] || isSpace c

def toNumber : Scalar → Option PyFloat
  | .int n => some (.fin n)
  | .float x => some x
  | .text s => floatOf (String.ofList (s.toList.filter (fun c => !isMoneySign c)))
  | _ => none

/-- `[a-z0-9 ]` -/
def isValueChar (c : Char) : Bool := ('a' ≤ c && c ≤ 'z') || ('0' ≤ c && c ≤ '9') || c = ' '

/-- The runs of other characters become one space each, and then the runs of spaces. -/
def normValue (s : String) : List Char :=
  ws (String.ofList ((norm s).map (fun c => if isValueChar c then c else ' ')))

/-- Within half a unit or one hundredth of what is expected. -/
def numbersMatch : PyFloat → PyFloat → Bool
  | .fin expected, .fin actual =>
      |expected - actual| ≤ 1 / 2 || |expected - actual| / max |expected| (1 / 10 ^ 9) ≤ 1 / 100
  | _, _ => false

def textsMatch (expected actual : List Char) : Bool :=
  !expected.isEmpty && !actual.isEmpty && (occurs expected actual || occurs actual expected)

def valuesMatch (expected : Scalar) : Scalar → Bool
  | .none => false
  | actual =>
      match toNumber expected, toNumber actual with
      | some e, some a => numbersMatch e a
      | _, _ => textsMatch (normValue expected.str) (normValue actual.str)

def keyFieldsMatch (expected : List (String × Scalar)) (actual : Dict String Scalar) : Bool :=
  expected.all (fun p => (actual.get? p.1).any (valuesMatch p.2))

def safeDiv (numer denom : Nat) : ℚ := if denom = 0 then 0 else numer / denom

end Matching

section Records

/-- A fact that is said to be in the document comes with a text of it. -/
structure ExpectedFact where
  factType : String
  keyFields : List (String × Scalar)
  groundingSubstring : Option String
  present : Bool
  present_facts_need_grounding : present = true → ∃ s, groundingSubstring = some s ∧ s ≠ ""

structure ExpectedMandatory where
  checkId : String
  outcome : String

inductive ScoreExpectation
  | nineTen | sixEight | threeFive | zeroTwo | insufficient
  deriving DecidableEq

/-- `_BANDS` -/
def ScoreExpectation.band : ScoreExpectation → Option (Int × Int)
  | nineTen => some (9, 10)
  | sixEight => some (6, 8)
  | threeFive => some (3, 5)
  | zeroTwo => some (0, 2)
  | insufficient => none

structure ExpectedCriterion where
  criterionId : String
  expectation : ScoreExpectation

structure ExpectedVendor where
  vendorId : String
  facts : List ExpectedFact
  mandatory : List ExpectedMandatory
  criteria : List ExpectedCriterion
  expectedRejected : Option Bool

structure ScenarioGolden where
  scenarioId : String
  vendors : List ExpectedVendor

structure ActualFact where
  factType : String
  fields : Dict String Scalar
  groundingQuote : String

structure ActualCriterionScore where
  criterionId : String
  rawScore : Option Int
  insufficient : Bool

structure ActualComplianceDecision where
  checkId : String
  decision : String

structure ActualVendor where
  vendorId : String
  sourceText : String := ""
  retrievedTexts : List String := []
  facts : List ActualFact := []
  criterionScores : List ActualCriterionScore := []
  complianceDecisions : List ActualComplianceDecision := []
  rejected : Bool := false
  blockedStage : Option String := none

structure ActualScenario where
  vendors : List ActualVendor
  nodeTimings : List ℚ
  totalCostUsd : ℚ
  blocked : Bool
  blockedAgent : String
  error : String

end Records

section Metrics

variable (expected : ExpectedVendor) (actual : ActualVendor)

/-- `round(safe_div(...), 4) if denom else None` -/
def rate (numer denom : Nat) : Option ℚ := if denom = 0 then none else some (round (safeDiv numer denom) 4)

def covers (fact : ExpectedFact) : Bool :=
  textContains (join "\n" actual.retrievedTexts) (fact.groundingSubstring.getD "")

/-- The recall is zero where there is nothing to find. -/
def retrievalRecall : ℚ :=
  let present := expected.facts.filter (fun f => f.present && f.groundingSubstring.getD "" ≠ "")
  round (safeDiv (present.countP (covers actual)) present.length) 4

structure ExtractionQuality where
  recallPresent : Option ℚ
  precisionPresent : Option ℚ
  hallucinatedAgainstAbsent : Nat

def presentOf (factType : String) : List ExpectedFact :=
  expected.facts.filter (fun f => f.factType = factType && f.present)

def absentOf (factType : String) : List ExpectedFact :=
  expected.facts.filter (fun f => f.factType = factType && !f.present)

def extractedOf (factType : String) : List ActualFact :=
  actual.facts.filter (fun f => f.factType = factType)

def matchedPresent (factType : String) : Nat :=
  (presentOf expected factType).countP (fun e =>
    (extractedOf actual factType).any (fun a => keyFieldsMatch e.keyFields a.fields))

/-- What is extracted of a type that the document does not have. -/
def hallucinated (factType : String) : Nat :=
  if !(absentOf expected factType).isEmpty && (presentOf expected factType).isEmpty then
    (extractedOf actual factType).length
  else 0

def allTypes : List String :=
  (expected.facts.map ExpectedFact.factType ++ actual.facts.map ActualFact.factType).dedup

def extractionQuality : ExtractionQuality :=
  let types := allTypes expected actual
  let tp := (types.map (matchedPresent expected actual)).sum
  let totalPresent := (types.map (fun t => (presentOf expected t).length)).sum
  let totalExtracted := (types.map (fun t => (extractedOf actual t).length)).sum
  ⟨rate tp totalPresent, rate tp totalExtracted, (types.map (hallucinated expected actual)).sum⟩

def quoted : List ActualFact := actual.facts.filter (fun f => f.groundingQuote ≠ "")

def fabricatedCitations : Nat :=
  (quoted actual).countP (fun f => !textContains actual.sourceText f.groundingQuote)

def groundingAccuracy : Option ℚ :=
  rate ((quoted actual).length - fabricatedCitations actual) (quoted actual).length

structure ScoringQuality where
  bandAgreement : Option ℚ
  insufficientExpected : Nat
  insufficientCorrect : Nat
  forcedWhenInsufficient : Nat
  mandatoryAccuracy : Option ℚ
  rejectionCorrect : Option Bool
  blocked : Bool

def scoreFor (criterionId : String) : Option ActualCriterionScore :=
  actual.criterionScores.find? (fun cs => cs.criterionId = criterionId)

def saysInsufficient (c : ExpectedCriterion) : Bool :=
  (scoreFor actual c.criterionId).any (fun cs => cs.insufficient || cs.rawScore.isNone)

def inBand (c : ExpectedCriterion) : Bool :=
  c.expectation.band.any (fun band => (scoreFor actual c.criterionId).any (fun cs =>
    cs.rawScore.any (fun score => band.1 ≤ score && score ≤ band.2)))

def decidedAs (m : ExpectedMandatory) : Bool :=
  (actual.complianceDecisions.find? (fun d => d.checkId = m.checkId)).any (fun d =>
    d.decision = m.outcome)

/-- A vendor that was blocked has not been assessed: it is left out of every rate. -/
def blockedResult : ScoringQuality := ⟨none, 0, 0, 0, none, none, true⟩

def scoringQuality : ScoringQuality :=
  if actual.blockedStage.isSome then blockedResult
  else
    let insufficient := expected.criteria.filter (fun c => c.expectation = .insufficient)
    let banded := expected.criteria.filter (fun c => c.expectation.band.isSome)
    let correct := insufficient.countP (saysInsufficient actual)
    { bandAgreement := rate (banded.countP (inBand actual)) banded.length
      insufficientExpected := insufficient.length
      insufficientCorrect := correct
      forcedWhenInsufficient := insufficient.length - correct
      mandatoryAccuracy := rate (expected.mandatory.countP (decidedAs actual)) expected.mandatory.length
      rejectionCorrect := expected.expectedRejected.map (fun b => actual.rejected == b)
      blocked := false }

structure VendorResult where
  vendorId : String
  retrieval : ℚ
  extraction : ExtractionQuality
  grounding : Option ℚ
  fabricated : Nat
  scoring : ScoringQuality

def vendorResult : VendorResult where
  vendorId := expected.vendorId
  retrieval := retrievalRecall expected actual
  extraction := extractionQuality expected actual
  grounding := groundingAccuracy actual
  fabricated := fabricatedCitations actual
  scoring := scoringQuality expected actual

/-- `by_vendor.get(ev.vendor_id, ActualVendor(vendor_id=ev.vendor_id))` -/
def actualOf (scenario : ActualScenario) (vendorId : String) : ActualVendor :=
  (scenario.vendors.reverse.find? (fun v => v.vendorId = vendorId)).getD { vendorId := vendorId }

structure ScenarioResult where
  vendors : List VendorResult
  wallClock : ℚ
  totalCostUsd : ℚ
  blocked : Bool
  errored : Bool

def evaluateScenario (golden : ScenarioGolden) (scenario : ActualScenario) : ScenarioResult where
  vendors := golden.vendors.map (fun ev => vendorResult ev (actualOf scenario ev.vendorId))
  wallClock := round scenario.nodeTimings.sum 3
  totalCostUsd := round scenario.totalCostUsd 6
  blocked := scenario.blocked
  errored := scenario.error ≠ ""

end Metrics

end RfpPlatform.BenchmarkMetrics
