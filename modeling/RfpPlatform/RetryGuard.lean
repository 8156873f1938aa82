import RfpPlatform.ExtractionRetries
import RfpPlatform.FailClosed

namespace RfpPlatform.RetryGuard

open Evaluation (VendorCall checkCall)
open ExtractionRetries FactParsing FactTables FoldRuns Json MandatoryChecks SelfConsistency

section Guard

variable (cfg : RetrySettings) (svc : RetryServices) (setup : EvaluationSetup)
  (facts : (k : FactTable) → List (Columns k)) (warnings : List String)

/-- What was extracted, before any retry. -/
def extracted : FactsState := ⟨facts, [], warnings⟩

def afterRetries : FactsState :=
  runExtractionCriticRetries cfg svc (extracted facts warnings) setup

/-- Some retry of the loop gave new facts for the slot. -/
def ReExtracted (slot : Slot) : Prop :=
  SomeStep (fun done p =>
    ShouldRetry cfg svc (extracted facts warnings)
        (run cfg svc (extracted facts warnings) (extracted facts warnings) done) p ∧
      p.1.slot = slot ∧ ∃ made, retryFacts svc p.1.slot p.2 = .ok made) (jobs setup).zipIdx

/-- The first pass finds nothing adequate among the extracted facts of the type. -/
def FirstPassRetries (t : StandardType) : Prop :=
  ∃ p ∈ (jobs setup).zipIdx, p.1.scope = .standard ∧ p.1.slot = .standard t ∧
    Failing cfg svc p ((extracted facts warnings).factsIn p.1.slot) ∧ 0 < cfg.maxRetries

/-- No chunk is consulted on a failure of the check that facts support, whatever these are. -/
def Stands (final : FactsState) (check : MandatoryCheck) (target : ExtractionTarget) : Prop :=
  ∀ call : VendorCall, call.setup = setup →
    (∀ k, k ∈ call.retriedFactTypes ↔ k ∈ final.retriedFactTypes) → ∀ orgSettings stored parsed,
      getFactsForTarget stored target ≠ [] → proposedDecision parsed = .fail →
        ¬ ShouldFallback (checkCall call orgSettings stored check target) parsed

/-- Where the loop extracted the facts of a check again, the check that they fail stays failed. -/
def Guarded : Prop :=
  ∀ check ∈ setup.mandatoryChecks, ∀ target, targetOf setup check = some target →
    ∀ slot, slotOf target = some slot → ReExtracted cfg svc setup facts warnings slot →
      Stands setup (afterRetries cfg svc setup facts warnings) check target

end Guard

section Keys

variable {cfg : RetrySettings} {svc : RetryServices} {setup : EvaluationSetup}
  {facts : (k : FactTable) → List (Columns k)} {warnings : List String} {target : ExtractionTarget}
  {slot : Slot} {t : StandardType}

theorem slotOf_cases (h : slotOf target = some slot) :
    (target.factType = "custom" ∧ slot = .custom target.targetId) ∨
      ∃ t, target.factType = t.name ∧ slot = .standard t := by
  rw [slotOf] at h
  split at h
  · rename_i hcustom
    exact Or.inl ⟨hcustom, (Option.some.inj h).symm⟩
  · obtain ⟨t, ht, rfl⟩ := Option.map_eq_some_iff.mp h
    have hname := List.find?_some ht
    exact Or.inr ⟨t, (of_decide_eq_true hname).symm, rfl⟩

/-- Facts of every kind, the custom ones about this target. -/
def everyFact (targetId : String) : VendorFacts :=
  let row : FactRow := [("target_id", .str targetId)]
  ⟨[row], [row], [row], [row], [row], [row]⟩

theorem getFactsForTarget_everyFact (h : slotOf target = some slot) :
    getFactsForTarget (everyFact target.targetId) target ≠ [] := by
  rcases slotOf_cases h with ⟨htype, _⟩ | ⟨t, htype, _⟩
  · rw [getFactsForTarget, htype]
    refine List.ne_nil_of_mem (a := [("target_id", .str target.targetId)])
      (List.mem_filter.mpr ⟨List.mem_singleton_self _, decide_eq_true ?_⟩)
    rfl
  · rw [getFactsForTarget, htype]
    cases t <;> exact List.cons_ne_nil _ _

/-- The guard looks for the bare type of the target among the keys of the loop. -/
theorem stands_iff {final : FactsState} {check : MandatoryCheck} (h : slotOf target = some slot) :
    Stands setup final check target ↔ target.factType ∈ final.retriedFactTypes := by
  constructor
  · intro hstands
    by_contra hnone
    have hguard := hstands ⟨"v", "o", setup, final.retriedFactTypes⟩ rfl (fun _ => Iff.rfl) none
      (everyFact target.targetId) [("decision", .str "fail")] (getFactsForTarget_everyFact h) rfl
    have horg : "o" ≠ "" := by decide
    refine hguard ⟨horg, rfl, Or.inr ⟨getFactsForTarget_everyFact h, rfl, hnone⟩⟩
  · rintro hmem call _ hkeys orgSettings stored parsed hfacts hfail ⟨_, _, hnone | hretried⟩
    · exact hfacts hnone.1
    · exact hretried.2.2 ((hkeys _).mpr hmem)

theorem append_ne_of_length_lt {word rest s : String} (h : s.length < word.length) :
    word ++ rest ≠ s := by
  intro heq
  rw [← heq, String.length_append] at h
  omega

theorem retried_split {k : String}
    (h : k ∈ (afterRetries cfg svc setup facts warnings).retriedFactTypes) :
    ∃ done p rest, (jobs setup).zipIdx = done ++ p :: rest ∧ p.1 ∈ jobs setup ∧
      ShouldRetry cfg svc (extracted facts warnings)
        (run cfg svc (extracted facts warnings) (extracted facts warnings) done) p ∧ p.1.key = k := by
  rcases mem_retriedFactTypes_run.mp h with hnone | ⟨done, p, rest, hsplit, hretry, hkey⟩
  · cases hnone
  · have hp : p.1 ∈ jobs setup := List.fst_mem_of_mem_zipIdx (mem_of_split hsplit)
    exact ⟨done, p, rest, hsplit, hp, hretry, hkey⟩

/-- No key of the loop is the bare type of the custom targets. -/
theorem custom_not_retried :
    "custom" ∉ (afterRetries cfg svc setup facts warnings).retriedFactTypes := by
  intro hmem
  obtain ⟨_, p, _, _, hp, _, hkey⟩ := retried_split hmem
  rcases mem_jobs.mp hp with hstandard | hcustom | hscoring
  · obtain ⟨_, t, _, hname⟩ := mem_standardJobs hstandard
    rw [hname] at hkey
    revert hkey
    cases t <;> decide
  · obtain ⟨_, targetId, hname⟩ := mem_customJobs hcustom
    exact append_ne_of_length_lt (by decide) (hname.symm.trans hkey)
  · obtain ⟨_, rest, hname⟩ := mem_scoringJobs hscoring
    exact append_ne_of_length_lt (by decide) (hname.symm.trans hkey)

/-- The name of a standard type is a key exactly when the first pass retries the type. -/
theorem name_retried_iff : t.name ∈ (afterRetries cfg svc setup facts warnings).retriedFactTypes ↔
    FirstPassRetries cfg svc setup facts warnings t := by
  constructor
  · intro hmem
    obtain ⟨done, p, rest, hsplit, hp, hretry, hkey⟩ := retried_split hmem
    obtain ⟨hscope, hslot⟩ := (key_eq_name hp).mp hkey
    obtain ⟨hfailing, hmax, _⟩ := (shouldRetry_first hsplit hscope).mp hretry
    exact ⟨p, mem_of_split hsplit, hscope, hslot, hfailing, hmax⟩
  · rintro ⟨p, hp, hscope, hslot, hfailing, hmax⟩
    obtain ⟨done, rest, hsplit⟩ := List.append_of_mem hp
    have hretry : ShouldRetry cfg svc (extracted facts warnings)
        (run cfg svc (extracted facts warnings) (extracted facts warnings) done) p :=
      (shouldRetry_first hsplit hscope).mpr ⟨hfailing, hmax, List.not_mem_nil⟩
    have hkey := (key_eq_name (List.fst_mem_of_mem_zipIdx hp)).mpr ⟨hscope, hslot⟩
    exact mem_retriedFactTypes_run.mpr (Or.inr ⟨done, p, rest, hsplit, hretry, hkey⟩)

end Keys

section Main

variable (cfg : RetrySettings) (svc : RetryServices) (setup : EvaluationSetup)
  (facts : (k : FactTable) → List (Columns k)) (warnings : List String)

/-- The guard holds exactly when the loop extracts no facts of a check again but those of a standard
type that the first pass retries. A custom target, or a type that only a criterion retries, is
recorded under a key that the guard does not look for. -/
theorem guarded_iff : Guarded cfg svc setup facts warnings ↔
    ∀ check ∈ setup.mandatoryChecks, ∀ target, targetOf setup check = some target →
      ∀ slot, slotOf target = some slot → ReExtracted cfg svc setup facts warnings slot →
        ∃ t, slot = .standard t ∧ FirstPassRetries cfg svc setup facts warnings t := by
  refine forall₄_congr fun check _ target _ => ?_
  refine forall₃_congr fun slot hslot _ => ?_
  rw [stands_iff hslot]
  rcases slotOf_cases hslot with ⟨htype, rfl⟩ | ⟨t, htype, rfl⟩
  · rw [htype]
    refine iff_of_false custom_not_retried ?_
    rintro ⟨t, hcustom, _⟩
    cases hcustom
  · rw [htype, name_retried_iff]
    constructor
    · intro hfirst
      exact ⟨t, rfl, hfirst⟩
    · rintro ⟨u, hslots, hfirst⟩
      cases hslots
      exact hfirst

open FailClosed (isoCheck isoSetup isoTarget)

def residency : ExtractionTarget := { isoTarget with factType := "custom" }

/-- A setup whose only check is about a target of the customer's own. -/
def residencySetup : EvaluationSetup :=
  { isoSetup with
    extractionTargets := [residency]
    every_check_has_extraction_target := by decide +kernel }

def plainCoercions : Coercions where
  float v := v.toFloat.toOption
  int _ := none
  bool _ := none
  date _ := none

/-- The verdict of an object that gives its two numbers. -/
def plainVerdict : Json → Option ExtractionVerdict
  | .obj ms => match member "adequate" ms, member "confidence" ms with
    | some (.bool adequate), some (.num x) => (Confidence.of? x).map (fun c => ⟨adequate, c⟩)
    | _, _ => none
  | _ => none

def verdictReply (adequate : Bool) : LlmReply :=
  .json (.obj [("adequate", .bool adequate), ("confidence", .num (.fin (9 / 10)))])

def residencyFact (quote : String) : CustomFact :=
  ⟨⟨⟨1, not_one_lt_zero, not_one_lt_one⟩, quote, "c1"⟩, "t", "custom", "t", "", none, none, none⟩

/-- A judge that finds every fact inadequate, and a retry that finds another sentence. -/
def strictServices : RetryServices where
  coercions := plainCoercions
  verdictOf := plainVerdict
  judge _ _ _ := verdictReply false
  retry _ := .json (.obj [("extracted_facts", .arr [.obj [("target_id", .str "t"),
    ("grounding_quote", .str "Data is held in Leeds"), ("source_chunk_id", .str "c1")]])])

def residencyFacts : (k : FactTable) → List (Columns k)
  | .extractedFacts => [residencyFact "Data is held abroad"]
  | .certifications | .insurance | .slas | .projects | .pricing => []

def shippedRetries : RetrySettings := ⟨1, 7 / 10⟩

/-- The facts of a custom target were extracted again, and a failure on them is still taken to the
chunks. -/
theorem custom_failure_reopened : ¬ ∀ cfg svc setup facts warnings,
    Guarded cfg svc setup facts warnings := by
  intro hall
  have hagain : ReExtracted shippedRetries strictServices residencySetup residencyFacts []
      (.custom "t") := by
    refine ⟨[], ((customJobs residencySetup).head (by decide +kernel), 0), _, rfl, ?_, rfl, _, rfl⟩
    decide +kernel
  have htarget : targetOf residencySetup isoCheck = some residency := by decide +kernel
  have hstands := hall shippedRetries strictServices residencySetup residencyFacts [] isoCheck
    (List.mem_singleton_self _) residency htarget (.custom "t") rfl hagain
  have hslot : slotOf residency = some (.custom "t") := rfl
  exact custom_not_retried ((stands_iff hslot).mp hstands)

end Main

end RfpPlatform.RetryGuard
