import RfpPlatform.FactTables
import RfpPlatform.MandatoryChecks

namespace RfpPlatform.FactParsing

open ExceptRules FactTables Json MandatoryChecks PyText SelfConsistency

/-- What the schema library makes of a value in a field of the type, and `date.fromisoformat`. -/
structure Coercions where
  float : Json → Option PyFloat
  int : Json → Option Int
  bool : Json → Option Bool
  date : String → Option Nat

variable {α : Type}

def optional (read : Json → Option α) : Json → Option (Option α)
  | .null => some none
  | v => (read v).map some

def invalidFact (model field : String) : Exn :=
  ⟨.validationError, s!"1 validation error for {model}\n{field}"⟩

def missingKey (name : String) : Exn := ⟨.keyError, quote name⟩

def fieldOf (model : String) (read : Json → Option α) (ms : Members) (name : String)
    (dflt : Json) : Except Exn α :=
  orRaise (read (get ms name dflt)) (invalidFact model name)

def parseDate (date : String → Option Nat) : Json → Option Nat
  | .str s => if s = "" then none else date s
  | _ => none

def documentStatuses : List (String × DocumentStatus) :=
  [("current", .current), ("pending", .pending), ("expired", .expired),
    ("not_mentioned", .notMentioned)]

/-- A text that names no status stands for one that is not mentioned. -/
def documentStatus (v : Json) : DocumentStatus :=
  ((v.asString.bind (fun s => documentStatuses.find? (fun p => p.1 = s))).map Prod.snd).getD
    .notMentioned

/-- What the six kinds of facts share. Three of them refuse a quote of fewer than five characters. -/
def parseEvidence (model : String) (quoteRequired : Bool) (ms : Members) : Except Exn Evidence := do
  let number ← (get ms "confidence" (.num (.fin (1 / 2)))).toFloat
  let confidence ← orRaise (Confidence.of? number) (invalidFact model "confidence")
  let groundingQuote ← fieldOf model asString ms "grounding_quote" (.str "")
  raiseIf (quoteRequired = true ∧ strippedLength groundingQuote < 5)
    (invalidFact model "grounding_quote")
  let sourceChunkId ← fieldOf model asString ms "source_chunk_id" (.str "")
  return ⟨confidence, groundingQuote, sourceChunkId⟩

section Items

variable (co : Coercions)

def parseCertification (item : Json) : Except Exn Certification := do
  let ms ← item.asObject
  let name ← orRaise (member "standard_name" ms) (missingKey "standard_name")
  let evidence ← parseEvidence "ExtractedCertification" true ms
  let standardName ← orRaise name.asString (invalidFact "ExtractedCertification" "standard_name")
  let version ← fieldOf "ExtractedCertification" (optional asString) ms "version" .null
  let certNumber ← fieldOf "ExtractedCertification" (optional asString) ms "cert_number" .null
  let issuingBody ← fieldOf "ExtractedCertification" (optional asString) ms "issuing_body" .null
  let scope ← fieldOf "ExtractedCertification" (optional asString) ms "scope" .null
  return {
    toEvidence := evidence
    standardName := standardName
    version := version
    certNumber := certNumber
    issuingBody := issuingBody
    scope := scope
    validUntil := parseDate co.date (get ms "valid_until" .null)
    status := documentStatus (get ms "status" (.str "not_mentioned")) }

def parseInsurance (item : Json) : Except Exn Insurance := do
  let ms ← item.asObject
  let evidence ← parseEvidence "ExtractedInsurance" true ms
  let insuranceType ← fieldOf "ExtractedInsurance" (optional asString) ms "insurance_type" .null
  let amountGbp ← fieldOf "ExtractedInsurance" (optional co.float) ms "amount_gbp" .null
  let provider ← fieldOf "ExtractedInsurance" (optional asString) ms "provider" .null
  return ⟨evidence, insuranceType, amountGbp, provider⟩

def parseSla (item : Json) : Except Exn Sla := do
  let ms ← item.asObject
  let evidence ← parseEvidence "ExtractedSLA" false ms
  let priorityLevel ← fieldOf "ExtractedSLA" (optional asString) ms "priority_level" .null
  let responseMinutes ← fieldOf "ExtractedSLA" (optional co.int) ms "response_minutes" .null
  let resolutionHours ← fieldOf "ExtractedSLA" (optional co.int) ms "resolution_hours" .null
  let uptime ← fieldOf "ExtractedSLA" (optional co.float) ms "uptime_percentage" .null
  return ⟨evidence, priorityLevel, responseMinutes, resolutionHours, uptime⟩

def parseProject (item : Json) : Except Exn Project := do
  let ms ← item.asObject
  let evidence ← parseEvidence "ExtractedProject" false ms
  let clientName ← fieldOf "ExtractedProject" (optional asString) ms "client_name" .null
  let clientSector ← fieldOf "ExtractedProject" (optional asString) ms "client_sector" .null
  let userCount ← fieldOf "ExtractedProject" (optional co.int) ms "user_count" .null
  let outcomes ← fieldOf "ExtractedProject" (optional asString) ms "outcomes" .null
  let reference ← fieldOf "ExtractedProject" (optional co.bool) ms "reference_available" .null
  return ⟨evidence, clientName, clientSector, userCount, outcomes, reference⟩

def parsePricing (item : Json) : Except Exn Pricing := do
  let ms ← item.asObject
  let evidence ← parseEvidence "ExtractedPricing" false ms
  let year ← fieldOf "ExtractedPricing" (optional co.int) ms "year" .null
  let amountGbp ← fieldOf "ExtractedPricing" (optional co.float) ms "amount_gbp" .null
  let totalGbp ← fieldOf "ExtractedPricing" (optional co.float) ms "total_gbp" .null
  let includes ← fieldOf "ExtractedPricing" asStrings ms "includes" (.arr [])
  return ⟨evidence, year, amountGbp, totalGbp, includes⟩

/-- The identifier of the fact itself is only checked: a fresh one is drawn where none is given. -/
def parseExtractedFact (item : Json) : Except Exn CustomFact := do
  let ms ← item.asObject
  let target ← orRaise (member "target_id" ms) (missingKey "target_id")
  let evidence ← parseEvidence "ExtractedFact" true ms
  let _ ← fieldOf "ExtractedFact" asString ms "fact_id" (.str "")
  let targetId ← orRaise target.asString (invalidFact "ExtractedFact" "target_id")
  let factType ← fieldOf "ExtractedFact" asString ms "fact_type" (.str "custom")
  let factName ← fieldOf "ExtractedFact" asString ms "fact_name" (get ms "target_id" (.str ""))
  let textValue ← fieldOf "ExtractedFact" asString ms "text_value" (.str "")
  let numericValue ← fieldOf "ExtractedFact" (optional co.float) ms "numeric_value" .null
  let booleanValue ← fieldOf "ExtractedFact" (optional co.bool) ms "boolean_value" .null
  return {
    toEvidence := evidence
    targetId := targetId
    factType := factType
    factName := factName
    textValue := textValue
    numericValue := numericValue
    booleanValue := booleanValue
    unit := none }

def parseItem : (k : FactTable) → Json → Except Exn (Columns k)
  | .certifications => parseCertification co
  | .insurance => parseInsurance co
  | .slas => parseSla co
  | .projects => parseProject co
  | .pricing => parsePricing co
  | .extractedFacts => parseExtractedFact co

end Items

def itemLabel : FactTable → String
  | .certifications => "certification"
  | .insurance => "insurance"
  | .slas => "SLA"
  | .projects => "project"
  | .pricing => "pricing"
  | .extractedFacts => "extracted_fact"

/-- The facts and the warnings of a list of items. An item that cannot be read is skipped. -/
def parseFacts (co : Coercions) (k : FactTable) (items : List Json) :
    List (Columns k) × List String :=
  (items.filterMap (fun v => (parseItem co k v).toOption),
    items.filterMap (fun v => match parseItem co k v with
      | .ok _ => none
      | .error exc => some s!"Skipped malformed {itemLabel k}: {exc.message}"))

/-- The values that a loop over the value meets. -/
def iterated : Json → Except Exn (List Json)
  | .arr xs => .ok xs
  | .str s => .ok (s.toList.map (fun c => .str (String.singleton c)))
  | .obj ms => .ok ((Tally.tally (ms.map Prod.fst)).keys.map .str)
  | v => .error ⟨.typeError, s!"'{v.typeName}' object is not iterable"⟩

def evidence : (k : FactTable) → Columns k → Evidence
  | .certifications => Certification.toEvidence
  | .insurance => Insurance.toEvidence
  | .slas => Sla.toEvidence
  | .projects => Project.toEvidence
  | .pricing => Pricing.toEvidence
  | .extractedFacts => CustomFact.toEvidence

instance : (k : FactTable) → DecidableEq (Columns k)
  | .certifications => inferInstanceAs (DecidableEq Certification)
  | .insurance => inferInstanceAs (DecidableEq Insurance)
  | .slas => inferInstanceAs (DecidableEq Sla)
  | .projects => inferInstanceAs (DecidableEq Project)
  | .pricing => inferInstanceAs (DecidableEq Pricing)
  | .extractedFacts => inferInstanceAs (DecidableEq CustomFact)

section Targets

variable {co : Coercions}

theorem mem_parseFacts {k : FactTable} {items : List Json} {fact : Columns k} :
    fact ∈ (parseFacts co k items).1 ↔ ∃ v ∈ items, parseItem co k v = .ok fact := by
  change fact ∈ items.filterMap (fun v => (parseItem co k v).toOption) ↔ _
  rw [List.mem_filterMap]
  simp only [toOption_eq_some]

/-- A fact is about the target that its item names. -/
theorem parseExtractedFact_target {ms : Members} {fact : CustomFact}
    (h : parseExtractedFact co (.obj ms) = .ok fact) : targetIdOf ms = some fact.targetId := by
  simp only [parseExtractedFact, bind_eq_ok, pure_eq_ok, orRaise_eq_ok] at h
  obtain ⟨_, hms, target, htarget, _, _, _, _, targetId, hid, _, _, _, _, _, _, _, _, _, _, rfl⟩ := h
  cases hms
  rw [targetIdOf, htarget, Option.bind_some, hid]

end Targets

end RfpPlatform.FactParsing
