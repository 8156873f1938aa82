import RfpPlatform.BenchmarkMetrics
import RfpPlatform.ExceptRules
import RfpPlatform.Rounding
import Mathlib.Algebra.Order.BigOperators.Group.List

namespace RfpPlatform.RegressionGates

open BenchmarkMetrics PyText

section Aggregate

variable (scenarios : List ScenarioResult)

/-- `_mean`, over the values that there are -/
def mean (vals : List (Option ℚ)) : Option ℚ :=
  let nums := vals.filterMap id
  if nums = [] then none else some (round (nums.sum / nums.length) 4)

def ratio (numer denom : Nat) : Option ℚ :=
  if denom = 0 then none else some (round (numer / denom) 4)

def vendorResults : List VendorResult := scenarios.flatMap ScenarioResult.vendors

def total (f : VendorResult → Nat) : Nat := ((vendorResults scenarios).map f).sum

def meanOf (f : VendorResult → Option ℚ) : Option ℚ := mean ((vendorResults scenarios).map f)

def rejectionCorrect : Option ℚ :=
  ratio ((vendorResults scenarios).countP (fun v => v.scoring.rejectionCorrect = some true))
    ((vendorResults scenarios).countP (fun v => v.scoring.rejectionCorrect.isSome))

/-- `aggregate`, with nothing for a rate that has no denominator -/
def aggregate : List (String × Option ℚ) :=
  [("scenarios", some scenarios.length),
    ("vendors", some (vendorResults scenarios).length),
    ("retrieval_recall", meanOf scenarios (fun v => some v.retrieval)),
    ("extraction_recall", meanOf scenarios (fun v => v.extraction.recallPresent)),
    ("extraction_precision_present", meanOf scenarios (fun v => v.extraction.precisionPresent)),
    ("grounding_accuracy", meanOf scenarios VendorResult.grounding),
    ("fabricated_citations_total", some (total scenarios VendorResult.fabricated)),
    ("hallucinated_against_absent_total",
      some (total scenarios (fun v => v.extraction.hallucinatedAgainstAbsent))),
    ("band_agreement", meanOf scenarios (fun v => v.scoring.bandAgreement)),
    ("insufficient_rate", ratio (total scenarios (fun v => v.scoring.insufficientCorrect))
      (total scenarios (fun v => v.scoring.insufficientExpected))),
    ("forced_when_insufficient_total",
      some (total scenarios (fun v => v.scoring.forcedWhenInsufficient))),
    ("mandatory_accuracy", meanOf scenarios (fun v => v.scoring.mandatoryAccuracy)),
    ("rejection_correct", rejectionCorrect scenarios),
    ("total_cost_usd", some (round (scenarios.map ScenarioResult.totalCostUsd).sum 6)),
    ("total_wall_clock_s", some (round (scenarios.map ScenarioResult.wallClock).sum 3)),
    ("operational_failures", some (scenarios.countP (fun s => s.errored || s.blocked))),
    ("blocked_vendors", some ((vendorResults scenarios).countP (fun v => v.scoring.blocked)))]

end Aggregate

section Gates

/-- A gate as it is read, with its direction in lower case. -/
structure Gate where
  metric : String
  direction : String
  threshold : ℚ
  tolerance : ℚ

structure GateRow where
  metric : String
  measured : Option ℚ
  passed : Bool
  skipped : Bool

def evaluate (gate : Gate) (measured : ℚ) : Bool :=
  if gate.direction = "min" then gate.threshold - gate.tolerance ≤ measured
  else if gate.direction = "max" then measured ≤ gate.threshold + gate.tolerance
  else false

/-- A rate without a denominator is skipped; a metric that is not there fails. -/
def checkGate (agg : List (String × Option ℚ)) (gate : Gate) : GateRow :=
  match (agg.find? (fun p => p.1 = gate.metric)).map Prod.snd with
  | none => ⟨gate.metric, none, false, false⟩
  | some none => ⟨gate.metric, none, true, true⟩
  | some (some measured) => ⟨gate.metric, some measured, evaluate gate measured, false⟩

structure GateReport where
  passed : Bool
  rows : List GateRow

def checkGates (agg : List (String × Option ℚ)) (gates : List Gate) : GateReport :=
  let rows := gates.map (checkGate agg)
  ⟨!rows.any (fun r => !r.passed && !r.skipped), rows⟩

/-- The integrity invariants of `gates.yaml`. -/
def integrityGates : List Gate :=
  [⟨"fabricated_citations_total", "max", 0, 0⟩, ⟨"hallucinated_against_absent_total", "max", 0, 0⟩,
    ⟨"operational_failures", "max", 0, 0⟩, ⟨"blocked_vendors", "max", 0, 0⟩,
    ⟨"rejection_correct", "min", 1, 0⟩]

def floorGates : List Gate :=
  [⟨"grounding_accuracy", "min", 1, 5 / 100⟩, ⟨"mandatory_accuracy", "min", 1, 15 / 100⟩,
    ⟨"insufficient_rate", "min", 1, 20 / 100⟩, ⟨"forced_when_insufficient_total", "max", 0, 1⟩,
    ⟨"retrieval_recall", "min", 1, 10 / 100⟩, ⟨"extraction_recall", "min", 75 / 100, 15 / 100⟩]

def gatesYaml : List Gate := integrityGates ++ floorGates

end Gates

section Runner

/-- A scenario with what `run_scenario` returns for it. -/
abbrev Run := ScenarioGolden × Except Exn ActualScenario

structure Progress where
  scenarioResults : List ScenarioResult
  failures : List String

def record (p : Progress) (run : Run) : Progress :=
  match run.2 with
  | .error exc => { p with failures := p.failures ++ [s!"{run.1.scenarioId}: EXCEPTION {exc.message}"] }
  | .ok actual =>
      { scenarioResults := p.scenarioResults ++ [evaluateScenario run.1 actual]
        failures := p.failures ++
          (if actual.error ≠ "" ∨ actual.blocked = true then
            [run.1.scenarioId ++ ": " ++
              (if actual.blocked then "blocked@" ++ actual.blockedAgent else actual.error)]
          else []) }

def recordAll (runs : List Run) : Progress := runs.foldl record ⟨[], []⟩

/-- The exit code of the runner. -/
def exitCode (gate : Bool) (gates : List Gate) (runs : List Run) : Nat :=
  let p := recordAll runs
  let gateFailed := gate && !(checkGates (aggregate p.scenarioResults) gates).passed
  if p.failures ≠ [] ∨ gateFailed = true then 1 else 0

end Runner

section Gates

variable {agg : List (String × Option ℚ)} {gates more : List Gate} {gate : Gate}

/-- The gate holds of what was measured, or its rate has no denominator. -/
def Holds (agg : List (String × Option ℚ)) (gate : Gate) : Prop :=
  ∃ value, (agg.find? (fun p => p.1 = gate.metric)).map Prod.snd = some value ∧
    ∀ measured, value = some measured → evaluate gate measured = true

theorem holds_iff : ((checkGate agg gate).passed || (checkGate agg gate).skipped) = true ↔
    Holds agg gate := by
  rw [checkGate, Holds]
  cases (agg.find? (fun p => p.1 = gate.metric)).map Prod.snd with
  | none => simp
  | some value =>
      cases value with
      | none => simp
      | some measured => simp

theorem passed_iff : (checkGates agg gates).passed = true ↔ ∀ gate ∈ gates, Holds agg gate := by
  have hrow : ∀ r : GateRow, (!(!r.passed && !r.skipped)) = (r.passed || r.skipped) := by
    intro r
    cases r.passed <;> cases r.skipped <;> rfl
  simp only [checkGates, List.not_any_eq_all_not, List.all_map, List.all_eq_true, Function.comp_apply,
    hrow, holds_iff]

theorem passed_append : (checkGates agg (gates ++ more)).passed = true ↔
    (checkGates agg gates).passed = true ∧ (checkGates agg more).passed = true := by
  simp only [passed_iff, List.mem_append, or_imp, forall_and]

theorem holds_max {metric : String} {n : Nat}
    (hagg : (agg.find? (fun p => p.1 = metric)).map Prod.snd = some (some (n : ℚ))) :
    Holds agg ⟨metric, "max", 0, 0⟩ ↔ n = 0 := by
  have heval : evaluate ⟨metric, "max", 0, 0⟩ (n : ℚ) = true ↔ n = 0 := by
    simp [evaluate]
  constructor
  · rintro ⟨value, hvalue, hholds⟩
    obtain rfl := Option.some.inj (hagg.symm.trans hvalue)
    exact heval.mp (hholds _ rfl)
  · intro hzero
    refine ⟨_, hagg, fun measured hmeasured => ?_⟩
    obtain rfl := Option.some.inj hmeasured
    exact heval.mpr hzero

/-- Below twenty thousand cases a ratio that is rounded to one is one. -/
theorem holds_ratio {metric : String} {numer denom : Nat} (hle : numer ≤ denom)
    (hfew : denom < 20000)
    (hagg : (agg.find? (fun p => p.1 = metric)).map Prod.snd = some (ratio numer denom)) :
    Holds agg ⟨metric, "min", 1, 0⟩ ↔ numer = denom := by
  have heval : ∀ q, evaluate ⟨metric, "min", 1, 0⟩ q = true ↔ 1 ≤ q := by
    simp [evaluate]
  have hround : ∀ q : ℚ, 1 ≤ round q 4 ↔ 19999 / 20000 ≤ q := by
    intro q
    have h := @le_round_even q 4 10000 rfl
    norm_num at h
    exact h
  by_cases hzero : denom = 0
  · subst hzero
    refine iff_of_true ⟨_, hagg, fun measured hmeasured => ?_⟩ (Nat.le_zero.mp hle)
    rw [ratio, if_pos rfl] at hmeasured
    cases hmeasured
  · have hpos : (0 : ℚ) < denom := by exact_mod_cast Nat.pos_of_ne_zero hzero
    rw [ratio, if_neg hzero] at hagg
    have hiff : Holds agg ⟨metric, "min", 1, 0⟩ ↔ 19999 / 20000 ≤ (numer : ℚ) / denom := by
      rw [← hround, ← heval]
      constructor
      · rintro ⟨value, hvalue, hholds⟩
        obtain rfl := Option.some.inj (hagg.symm.trans hvalue)
        exact hholds _ rfl
      · intro hpass
        refine ⟨_, hagg, fun measured hmeasured => ?_⟩
        obtain rfl := Option.some.inj hmeasured
        exact hpass
    rw [hiff, le_div_iff₀ hpos]
    constructor
    · intro h
      by_contra hne
      have hstep : (numer : ℚ) + 1 ≤ denom := by exact_mod_cast Nat.lt_of_le_of_ne hle hne
      have hsmall : (denom : ℚ) < 20000 := by exact_mod_cast hfew
      linarith
    · rintro rfl
      linarith

end Gates

section Integrity

variable {ev : ExpectedVendor} {av : ActualVendor} {vs : List VendorResult}
  {scenarios : List ScenarioResult}

structure Intact (v : VendorResult) : Prop where
  fabricated : v.fabricated = 0
  hallucinated : v.extraction.hallucinatedAgainstAbsent = 0
  assessed : v.scoring.blocked = false
  rejection : v.scoring.rejectionCorrect ≠ some false

theorem total_eq_zero {f : VendorResult → Nat} :
    total scenarios f = 0 ↔ ∀ v ∈ vendorResults scenarios, f v = 0 := by
  rw [total, List.sum_eq_zero_iff]
  exact List.forall_mem_map

theorem countP_isSome (vs : List VendorResult) :
    vs.countP (fun v => v.scoring.rejectionCorrect.isSome) =
      vs.countP (fun v => v.scoring.rejectionCorrect = some true) +
        vs.countP (fun v => v.scoring.rejectionCorrect = some false) := by
  induction vs with
  | nil => rfl
  | cons v vs ih =>
      simp only [List.countP_cons, ih]
      cases v.scoring.rejectionCorrect with
      | none => simp
      | some b => cases b <;> simp <;> omega

/-- The five gates of integrity hold just when every result is intact. -/
theorem integrity_iff (hfew : (vendorResults scenarios).length < 20000) :
    (checkGates (aggregate scenarios) integrityGates).passed = true ↔
      (∀ v ∈ vendorResults scenarios, Intact v) ∧
        ∀ s ∈ scenarios, s.errored = false ∧ s.blocked = false := by
  have hdenom := lt_of_le_of_lt (@List.countP_le_length _
    (fun v : VendorResult => v.scoring.rejectionCorrect.isSome) (vendorResults scenarios)) hfew
  have hsplit := countP_isSome (vendorResults scenarios)
  have hrejection := @holds_ratio (aggregate scenarios) "rejection_correct" _ _
    (hsplit ▸ Nat.le_add_right _ _) hdenom rfl
  have hratio : Holds (aggregate scenarios) ⟨"rejection_correct", "min", 1, 0⟩ ↔
      ∀ v ∈ vendorResults scenarios, v.scoring.rejectionCorrect ≠ some false := by
    rw [hrejection, hsplit, left_eq_add, List.countP_eq_zero]
    simp only [decide_eq_true_eq, ne_eq]
  have hfabricated : Holds (aggregate scenarios) ⟨"fabricated_citations_total", "max", 0, 0⟩ ↔ _ :=
    (holds_max rfl).trans (total_eq_zero)
  have hhallucinated : Holds (aggregate scenarios)
      ⟨"hallucinated_against_absent_total", "max", 0, 0⟩ ↔ _ := (holds_max rfl).trans (total_eq_zero)
  have hoperational : Holds (aggregate scenarios) ⟨"operational_failures", "max", 0, 0⟩ ↔ _ :=
    (holds_max rfl).trans List.countP_eq_zero
  have hblocked : Holds (aggregate scenarios) ⟨"blocked_vendors", "max", 0, 0⟩ ↔ _ :=
    (holds_max rfl).trans List.countP_eq_zero
  rw [passed_iff]
  simp only [integrityGates, List.forall_mem_cons, hfabricated, hhallucinated, hoperational,
    hblocked, hratio, List.not_mem_nil, false_implies, implies_true, and_true]
  simp only [Bool.or_eq_true, not_or, Bool.not_eq_true]
  constructor
  · rintro ⟨hfab, hhall, hop, hassessed, hrej⟩
    exact ⟨fun v hv => ⟨hfab v hv, hhall v hv, hassessed v hv, hrej v hv⟩, hop⟩
  · rintro ⟨hintact, hop⟩
    exact ⟨fun v hv => (hintact v hv).fabricated, fun v hv => (hintact v hv).hallucinated, hop,
      fun v hv => (hintact v hv).assessed, fun v hv => (hintact v hv).rejection⟩

/-- What a green benchmark says of a vendor: it was assessed, what is quoted of its document stands
there, nothing was extracted of a type that the document does not have, and it was rejected just
when that was expected. -/
structure Sound (ev : ExpectedVendor) (av : ActualVendor) : Prop where
  assessed : av.blockedStage = none
  quotes : ∀ f ∈ av.facts, f.groundingQuote ≠ "" → textContains av.sourceText f.groundingQuote = true
  types : ∀ f ∈ av.facts, ∀ e ∈ ev.facts, e.factType = f.factType →
    ∃ e ∈ ev.facts, e.factType = f.factType ∧ e.present = true
  rejection : ∀ b, ev.expectedRejected = some b → av.rejected = b

theorem fabricated_iff : fabricatedCitations av = 0 ↔
    ∀ f ∈ av.facts, f.groundingQuote ≠ "" → textContains av.sourceText f.groundingQuote = true := by
  rw [fabricatedCitations, quoted, List.countP_eq_zero]
  simp only [List.mem_filter, decide_eq_true_eq, and_imp, Bool.not_eq_true', Bool.not_eq_false]

theorem hallucinated_eq_zero {t : String} : hallucinated ev av t = 0 ↔
    ∀ f ∈ av.facts, f.factType = t → ∀ e ∈ ev.facts, e.factType = t →
      ∃ e ∈ ev.facts, e.factType = t ∧ e.present = true := by
  have hpresent : (presentOf ev t).isEmpty = false ↔
      ∃ e ∈ ev.facts, e.factType = t ∧ e.present = true := by
    simp [presentOf]
  have habsent : (absentOf ev t).isEmpty = false ↔
      ∃ e ∈ ev.facts, e.factType = t ∧ e.present = false := by
    simp [absentOf]
  rw [hallucinated]
  split
  · rename_i h
    obtain ⟨habs, hpres⟩ := Bool.and_eq_true_iff.mp h
    obtain ⟨e, he, het, _⟩ := habsent.mp (Bool.not_eq_true' _ ▸ habs)
    have hnone : ¬ ∃ e ∈ ev.facts, e.factType = t ∧ e.present = true := by
      rw [← hpresent, hpres]
      decide
    rw [List.length_eq_zero_iff, extractedOf, List.filter_eq_nil_iff]
    simp only [decide_eq_true_eq]
    exact ⟨fun hno f hf hft => absurd hft (hno f hf),
      fun hall f hf hft => hnone (hall f hf hft e he het)⟩
  · rename_i h
    refine iff_of_true rfl fun f _ _ e he het => ?_
    by_contra hnone
    have hpres : (presentOf ev t).isEmpty = true := by
      rw [← Bool.not_eq_false, hpresent]
      exact hnone
    have hmissing : e.present = false := by
      rw [← Bool.not_eq_true]
      exact fun hpresent => hnone ⟨e, he, het, hpresent⟩
    rw [hpres, habsent.mpr ⟨e, he, het, hmissing⟩] at h
    exact h rfl

theorem hallucinated_iff : (extractionQuality ev av).hallucinatedAgainstAbsent = 0 ↔
    ∀ f ∈ av.facts, ∀ e ∈ ev.facts, e.factType = f.factType →
      ∃ e ∈ ev.facts, e.factType = f.factType ∧ e.present = true := by
  rw [extractionQuality, List.sum_eq_zero_iff, List.forall_mem_map]
  simp only [hallucinated_eq_zero]
  constructor
  · intro h f hf
    refine h f.factType ?_ f hf rfl
    rw [allTypes, List.mem_dedup]
    exact List.mem_append_right _ (List.mem_map_of_mem hf)
  · rintro h t _ f hf rfl
    exact h f hf

theorem blocked_iff : (scoringQuality ev av).blocked = false ↔ av.blockedStage = none := by
  rw [scoringQuality]
  cases av.blockedStage <;> simp [blockedResult]

theorem rejection_iff (hassessed : av.blockedStage = none) :
    (scoringQuality ev av).rejectionCorrect ≠ some false ↔
      ∀ b, ev.expectedRejected = some b → av.rejected = b := by
  rw [scoringQuality, hassessed]
  cases ev.expectedRejected with
  | none => simp
  | some b => simp

theorem intact_iff : Intact (vendorResult ev av) ↔ Sound ev av := by
  constructor
  · rintro ⟨hfab, hhall, hassessed, hrej⟩
    have hstage := blocked_iff.mp hassessed
    exact ⟨hstage, fabricated_iff.mp hfab, hallucinated_iff.mp hhall, (rejection_iff hstage).mp hrej⟩
  · rintro ⟨hstage, hquotes, htypes, hrej⟩
    exact ⟨fabricated_iff.mpr hquotes, hallucinated_iff.mpr htypes, blocked_iff.mpr hstage,
      (rejection_iff hstage).mpr hrej⟩

end Integrity

section Green

variable {runs : List Run} {run : Run}

def resultOf (run : Run) : Option ScenarioResult := run.2.toOption.map (evaluateScenario run.1)

def Completed (run : Run) : Prop :=
  ∃ actual, run.2 = .ok actual ∧ actual.error = "" ∧ actual.blocked = false

theorem recordAll_results : (recordAll runs).scenarioResults = runs.filterMap resultOf := by
  induction runs using List.reverseRecOn with
  | nil => rfl
  | append_singleton runs run ih =>
      rw [List.filterMap_append, ← ih, recordAll, List.foldl_concat, ← recordAll, record]
      cases hrun : run.2 with
      | error exc => simp [resultOf, hrun, Except.toOption]
      | ok actual => simp [resultOf, hrun, Except.toOption]

theorem recordAll_failures : (recordAll runs).failures = [] ↔ ∀ run ∈ runs, Completed run := by
  induction runs using List.reverseRecOn with
  | nil => exact iff_of_true rfl fun run hrun => absurd hrun List.not_mem_nil
  | append_singleton runs run ih =>
      simp only [List.mem_append, List.mem_singleton, or_imp, forall_and, forall_eq, ← ih]
      rw [recordAll, List.foldl_concat, ← recordAll, record]
      cases hrun : run.2 with
      | error exc => simp [Completed, hrun]
      | ok actual =>
          simp only [Completed, hrun, List.append_eq_nil_iff, Except.ok.injEq, exists_eq_left']
          refine and_congr Iff.rfl ?_
          by_cases hbad : actual.error ≠ "" ∨ actual.blocked = true
          · simp only [if_pos hbad, List.cons_ne_nil, false_iff, not_and, Bool.not_eq_false]
            exact fun herror => hbad.resolve_left (not_not.mpr herror)
          · rw [if_neg hbad]
            simpa using hbad

/-- The run came to its end, and its vendors are what their documents say. -/
def SoundRun (run : Run) : Prop :=
  ∃ actual, run.2 = .ok actual ∧ actual.error = "" ∧ actual.blocked = false ∧
    ∀ ev ∈ run.1.vendors, Sound ev (actualOf actual ev.vendorId)

theorem mem_vendorResults {v : VendorResult} :
    v ∈ vendorResults (runs.filterMap resultOf) ↔ ∃ run ∈ runs, ∃ actual, run.2 = .ok actual ∧
      ∃ ev ∈ run.1.vendors, vendorResult ev (actualOf actual ev.vendorId) = v := by
  simp only [vendorResults, List.mem_flatMap, List.mem_filterMap]
  constructor
  · rintro ⟨s, ⟨run, hrun, hs⟩, hv⟩
    obtain ⟨actual, hactual, rfl⟩ := Option.map_eq_some_iff.mp hs
    exact ⟨run, hrun, actual, ExceptRules.toOption_eq_some.mp hactual, List.mem_map.mp hv⟩
  · rintro ⟨run, hrun, actual, hactual, hv⟩
    refine ⟨evaluateScenario run.1 actual, ⟨run, hrun, ?_⟩, List.mem_map.mpr hv⟩
    rw [resultOf, hactual]
    rfl

theorem length_vendorResults : (vendorResults (runs.filterMap resultOf)).length ≤
    (runs.flatMap (fun run => run.1.vendors)).length := by
  induction runs with
  | nil => exact le_rfl
  | cons run runs ih =>
      simp only [vendorResults] at ih ⊢
      rw [List.filterMap_cons, List.flatMap_cons, List.length_append, resultOf]
      cases run.2 with
      | error exc => exact ih.trans (Nat.le_add_left _ _)
      | ok actual =>
          change (List.flatMap _ (_ :: _)).length ≤ _
          rw [List.flatMap_cons, List.length_append]
          refine Nat.add_le_add ?_ ih
          rw [evaluateScenario, List.length_map]

/-- A benchmark with gates exits with zero just when every scenario came to its end with every
vendor sound, and the floors of quality hold. -/
theorem green_iff (hfew : (runs.flatMap (fun run => run.1.vendors)).length < 20000) :
    exitCode true gatesYaml runs = 0 ↔ (∀ run ∈ runs, SoundRun run) ∧
      (checkGates (aggregate (runs.filterMap resultOf)) floorGates).passed = true := by
  have hexit : exitCode true gatesYaml runs = 0 ↔ (recordAll runs).failures = [] ∧
      (checkGates (aggregate (recordAll runs).scenarioResults) gatesYaml).passed = true := by
    rw [exitCode]
    by_cases hfailures : (recordAll runs).failures = [] <;> simp [hfailures]
  rw [hexit, recordAll_failures, recordAll_results, gatesYaml, passed_append,
    integrity_iff (length_vendorResults.trans_lt hfew), ← and_assoc]
  refine and_congr_left' ?_
  constructor
  · rintro ⟨hcompleted, hintact, _⟩ run hrun
    obtain ⟨actual, hactual, herror, hblocked⟩ := hcompleted run hrun
    refine ⟨actual, hactual, herror, hblocked, fun ev hev => intact_iff.mp (hintact _ ?_)⟩
    exact mem_vendorResults.mpr ⟨run, hrun, actual, hactual, ev, hev, rfl⟩
  · intro hsound
    refine ⟨fun run hrun => ?_, fun v hv => ?_, fun s hs => ?_⟩
    · obtain ⟨actual, hactual, herror, hblocked, _⟩ := hsound run hrun
      exact ⟨actual, hactual, herror, hblocked⟩
    · obtain ⟨run, hrun, actual, hactual, ev, hev, rfl⟩ := mem_vendorResults.mp hv
      obtain ⟨actual', hactual', _, _, hvendors⟩ := hsound run hrun
      obtain rfl := Except.ok.inj (hactual'.symm.trans hactual)
      exact intact_iff.mpr (hvendors ev hev)
    · obtain ⟨run, hrun, hresult⟩ := List.mem_filterMap.mp hs
      obtain ⟨actual, hactual, rfl⟩ := Option.map_eq_some_iff.mp hresult
      obtain ⟨actual', hactual', herror, hblocked, _⟩ := hsound run hrun
      obtain rfl := Except.ok.inj (hactual'.symm.trans (ExceptRules.toOption_eq_some.mp hactual))
      exact ⟨by simp [evaluateScenario, herror], hblocked⟩

def isoFact : ExpectedFact where
  factType := "certification"
  keyFields := [("standard_name", .text "ISO 27001")]
  groundingSubstring := some "ISO 27001"
  present := true
  present_facts_need_grounding := fun _ => ⟨_, rfl, by decide⟩

def acme : ExpectedVendor where
  vendorId := "acme"
  facts := [isoFact]
  mandatory := [⟨"MC-1", "pass"⟩]
  criteria := [⟨"SC-1", .insufficient⟩]
  expectedRejected := some false

def acmeResult : ActualVendor where
  vendorId := "acme"
  sourceText := "We hold ISO 27001:2022."
  retrievedTexts := ["hold ISO  27001:2022"]
  facts := [⟨"certification", Dict.ofPairs [("standard_name", .text "iso 27001")], "ISO 27001"⟩]
  criterionScores := [⟨"SC-1", none, true⟩]
  complianceDecisions := [⟨"MC-1", "pass"⟩]

def cleanRun : Run := (⟨"01_clean", [acme]⟩, .ok ⟨[acmeResult], [1], 0, false, "", ""⟩)

theorem clean_green : exitCode true gatesYaml [cleanRun] = 0 ∧ ∀ run ∈ [cleanRun], SoundRun run := by
  have hexit : exitCode true gatesYaml [cleanRun] = 0 := by decide +kernel
  exact ⟨hexit, ((green_iff (by decide)).mp hexit).1⟩

end Green

end RfpPlatform.RegressionGates
