import RfpPlatform.CriteriaMerge
import RfpPlatform.Rounding
import RfpPlatform.RunRequests

namespace RfpPlatform.SetupValidation

open CriteriaMerge ExceptRules
open RunRequests (defaultSetup)

section Validation

def invalid (message : String) : Exn := ⟨.validationError, message⟩

/-- A field of type `str`. -/
def textField (v : Json) : Except Exn String :=
  orRaise v.asString (invalid "Input should be a valid string")

/-- A field of type `Optional[str]` that nothing reads. -/
def optionalText (v : Json) : Except Exn Unit :=
  match v with
  | .null => .ok ()
  | v => (textField v).map (fun _ => ())

def validateCheck (mc : CheckDict) : Except Exn MandatoryCheck := do
  let description ← textField mc.description
  let whatPasses ← textField mc.whatPasses
  optionalText mc.pageReference
  return ⟨mc.checkId, mc.name, description, whatPasses, mc.extractionTargetId⟩

/-- `Field(gt=0, le=1.0)`. Not a number passes it, but then fails the sum. -/
def validateWeight (x : PyFloat) : Except Exn {q : ℚ // 0 < q ∧ q ≤ 1} :=
  match x with
  | .fin q => if h : 0 < q ∧ q ≤ 1 then .ok ⟨q, h⟩ else .error (invalid "weight")
  | _ => .error (invalid "weight")

def validateCriterion (sc : CriterionDict) : Except Exn ScoringCriterion := do
  let weight ← validateWeight sc.weight
  let rubric_9_10 ← textField (sc.rubric .rubric_9_10)
  let rubric_6_8 ← textField (sc.rubric .rubric_6_8)
  let rubric_3_5 ← textField (sc.rubric .rubric_3_5)
  let rubric_0_2 ← textField (sc.rubric .rubric_0_2)
  optionalText sc.pageReference
  return ⟨sc.criterionId, sc.name, weight.1, rubric_9_10, rubric_6_8, rubric_3_5, rubric_0_2,
    sc.extractionTargetIds, weight.2.1, weight.2.2⟩

def validateTarget (t : TargetDict) : Except Exn ExtractionTarget := do
  let description ← textField t.description
  return ⟨t.targetId, t.name, description, t.factType, t.isMandatory, t.feedsCriterionId,
    t.feedsCheckId⟩

def sumOf (criteria : List ScoringCriterion) : ℚ := (criteria.map ScoringCriterion.weight).sum

/-- `EvaluationSetup(...)`, over fields that have been validated. -/
def validateSetup (setupId orgId rfpId source : String) (checks : List MandatoryCheck)
    (criteria : List ScoringCriterion) (targets : List ExtractionTarget) (total : PyFloat) :
    Except Exn EvaluationSetup :=
  match total with
  | .fin q =>
      if h : (99 / 100 ≤ q ∧ q ≤ 101 / 100) ∧
          (criteria ≠ [] → 99 / 100 ≤ sumOf criteria ∧ sumOf criteria ≤ 101 / 100) ∧
          ∀ check ∈ checks, check.extractionTargetId ∈ targets.map ExtractionTarget.targetId then
        .ok {
          setupId := setupId
          orgId := orgId
          rfpId := rfpId
          rfpConfirmed := false
          mandatoryChecks := checks
          scoringCriteria := criteria
          extractionTargets := targets
          totalWeight := q
          confirmedBy := "pending"
          source := source
          total_weight_range := h.1
          weights_sum_to_one := h.2.1
          every_check_has_extraction_target := h.2.2 }
      else .error (invalid "EvaluationSetup")
  | _ => .error (invalid "total_weight")

/-- `merged[...] or [...]` -/
def orDefault {α β : Type} (validate : α → Except Exn β) (dflt : List β) :
    List α → Except Exn (List β)
  | [] => .ok dflt
  | xs => xs.mapM validate

/-- What `start_evaluation` builds of the merged criteria. -/
def buildSetup (setupId orgId rfpId : String) (merged : Merged) : Except Exn EvaluationSetup := do
  let dflt := defaultSetup setupId orgId rfpId
  let checks ← orDefault validateCheck dflt.mandatoryChecks merged.mandatoryChecks
  let criteria ← orDefault validateCriterion dflt.scoringCriteria merged.scoringCriteria
  let targets ← orDefault validateTarget dflt.extractionTargets merged.extractionTargets
  let weights := if merged.scoringCriteria.isEmpty
    then dflt.scoringCriteria.map (fun c => PyFloat.fin c.weight)
    else merged.scoringCriteria.map CriterionDict.weight
  validateSetup setupId orgId rfpId merged.source checks criteria targets
    ((PyFloat.sum weights).round 3)

end Validation

section Soundness

/-- All references of a setup resolve, and its weights are in range and sum to one. -/
structure Sound (setup : EvaluationSetup) : Prop where
  weight_range : ∀ c ∈ setup.scoringCriteria, 0 < c.weight ∧ c.weight ≤ 1
  weights_sum : 99 / 100 ≤ sumOf setup.scoringCriteria ∧ sumOf setup.scoringCriteria ≤ 101 / 100
  checks_refer : ∀ check ∈ setup.mandatoryChecks,
    check.extractionTargetId ∈ setup.extractionTargets.map ExtractionTarget.targetId
  criteria_refer : ∀ c ∈ setup.scoringCriteria, ∀ id ∈ c.extractionTargetIds,
    id ∈ setup.extractionTargets.map ExtractionTarget.targetId

def IsText (v : Json) : Prop := ∃ s, v = .str s

def IsOptionalText (v : Json) : Prop := v = .null ∨ IsText v

end Soundness

section Fields

variable {v : Json} {s : String}

theorem textField_eq_ok : textField v = .ok s ↔ v = .str s := by
  rw [textField, orRaise_eq_ok]
  cases v <;> simp [Json.asString]

theorem optionalText_eq_ok {u : Unit} : optionalText v = .ok u ↔ IsOptionalText v := by
  cases v <;> simp [optionalText, IsOptionalText, IsText, textField, orRaise, Json.asString, Except.map]

theorem validateCheck_eq_ok {mc : CheckDict} {check : MandatoryCheck} :
    validateCheck mc = .ok check ↔
      mc.description = .str check.description ∧ mc.whatPasses = .str check.whatPasses ∧
        IsOptionalText mc.pageReference ∧
        check = ⟨mc.checkId, mc.name, check.description, check.whatPasses, mc.extractionTargetId⟩ := by
  simp only [validateCheck, bind_eq_ok, pure_eq_ok, textField_eq_ok, optionalText_eq_ok]
  constructor
  · rintro ⟨description, hdescription, whatPasses, hpasses, _, hpage, rfl⟩
    exact ⟨hdescription, hpasses, hpage, rfl⟩
  · rintro ⟨hdescription, hpasses, hpage, hcheck⟩
    exact ⟨_, hdescription, _, hpasses, (), hpage, hcheck.symm⟩

theorem validateCheck_ok_iff {mc : CheckDict} : (∃ check, validateCheck mc = .ok check) ↔
    IsText mc.description ∧ IsText mc.whatPasses ∧ IsOptionalText mc.pageReference := by
  simp only [validateCheck_eq_ok]
  constructor
  · rintro ⟨check, hdescription, hpasses, hpage, _⟩
    exact ⟨⟨_, hdescription⟩, ⟨_, hpasses⟩, hpage⟩
  · rintro ⟨⟨description, hdescription⟩, ⟨whatPasses, hpasses⟩, hpage⟩
    exact ⟨⟨mc.checkId, mc.name, description, whatPasses, mc.extractionTargetId⟩, hdescription,
      hpasses, hpage, rfl⟩

theorem validateWeight_eq_ok {x : PyFloat} {w : {q : ℚ // 0 < q ∧ q ≤ 1}} :
    validateWeight x = .ok w ↔ x = .fin w.1 := by
  obtain ⟨q, hq⟩ := w
  cases x with
  | fin r =>
      rw [validateWeight]
      split
      · simp [Subtype.ext_iff]
      · rename_i hr
        simp only [reduceCtorEq, PyFloat.fin.injEq, false_iff]
        rintro rfl
        exact hr hq
  | posInf => simp [validateWeight]
  | negInf => simp [validateWeight]
  | nan => simp [validateWeight]

/-- The four bands that a validated criterion has. -/
def bandOf (c : ScoringCriterion) : Band → String
  | .rubric_9_10 => c.rubric_9_10
  | .rubric_6_8 => c.rubric_6_8
  | .rubric_3_5 => c.rubric_3_5
  | .rubric_0_2 => c.rubric_0_2

theorem validateCriterion_eq_ok {sc : CriterionDict} {c : ScoringCriterion} :
    validateCriterion sc = .ok c ↔
      c.criterionId = sc.criterionId ∧ c.name = sc.name ∧ sc.weight = .fin c.weight ∧
        (∀ b, sc.rubric b = .str (bandOf c b)) ∧ c.extractionTargetIds = sc.extractionTargetIds ∧
        IsOptionalText sc.pageReference := by
  simp only [validateCriterion, bind_eq_ok, pure_eq_ok, textField_eq_ok, optionalText_eq_ok,
    validateWeight_eq_ok]
  constructor
  · rintro ⟨w, hw, s₉, h₉, s₆, h₆, s₃, h₃, s₀, h₀, _, hpage, rfl⟩
    refine ⟨rfl, rfl, hw, ?_, rfl, hpage⟩
    rintro (_ | _ | _ | _)
    exacts [h₉, h₆, h₃, h₀]
  · rintro ⟨hid, hname, hw, hbands, hids, hpage⟩
    obtain ⟨id, name, w, s₉, s₆, s₃, s₀, ids, hpos, hle⟩ := c
    obtain rfl := hid
    obtain rfl := hname
    obtain rfl := hids
    exact ⟨⟨w, hpos, hle⟩, hw, s₉, hbands .rubric_9_10, s₆, hbands .rubric_6_8, s₃,
      hbands .rubric_3_5, s₀, hbands .rubric_0_2, (), hpage, rfl⟩

theorem validateCriterion_ok_iff {sc : CriterionDict} : (∃ c, validateCriterion sc = .ok c) ↔
    (∃ q : ℚ, sc.weight = .fin q ∧ 0 < q ∧ q ≤ 1) ∧ (∀ b, IsText (sc.rubric b)) ∧
      IsOptionalText sc.pageReference := by
  simp only [validateCriterion_eq_ok]
  constructor
  · rintro ⟨c, _, _, hw, hbands, _, hpage⟩
    exact ⟨⟨c.weight, hw, c.weight_pos, c.weight_le_one⟩, fun b => ⟨_, hbands b⟩, hpage⟩
  · rintro ⟨⟨q, hw, hpos, hle⟩, hbands, hpage⟩
    choose text htext using hbands
    refine ⟨⟨sc.criterionId, sc.name, q, text .rubric_9_10, text .rubric_6_8, text .rubric_3_5,
      text .rubric_0_2, sc.extractionTargetIds, hpos, hle⟩, rfl, rfl, hw, ?_, rfl, hpage⟩
    rintro (_ | _ | _ | _) <;> exact htext _

theorem validateTarget_eq_ok {t : TargetDict} {target : ExtractionTarget} :
    validateTarget t = .ok target ↔ t.description = .str target.description ∧
      target = ⟨t.targetId, t.name, target.description, t.factType, t.isMandatory,
        t.feedsCriterionId, t.feedsCheckId⟩ := by
  simp only [validateTarget, bind_eq_ok, pure_eq_ok, textField_eq_ok]
  constructor
  · rintro ⟨description, hdescription, rfl⟩
    exact ⟨hdescription, rfl⟩
  · rintro ⟨hdescription, htarget⟩
    exact ⟨_, hdescription, htarget.symm⟩

theorem validateTarget_ok_iff {t : TargetDict} :
    (∃ target, validateTarget t = .ok target) ↔ IsText t.description := by
  simp only [validateTarget_eq_ok]
  constructor
  · rintro ⟨target, hdescription, _⟩
    exact ⟨_, hdescription⟩
  · rintro ⟨description, hdescription⟩
    exact ⟨⟨t.targetId, t.name, description, t.factType, t.isMandatory, t.feedsCriterionId,
      t.feedsCheckId⟩, hdescription, rfl⟩

theorem orDefault_eq_ok {α β : Type} {validate : α → Except Exn β} {dflt ys : List β} {xs : List α} :
    orDefault validate dflt xs = .ok ys ↔
      (xs = [] ∧ ys = dflt) ∨ (xs ≠ [] ∧ xs.mapM validate = .ok ys) := by
  cases xs with
  | nil => simp [orDefault, eq_comm]
  | cons x xs => simp [orDefault]

theorem validateSetup_eq_ok {setupId orgId rfpId source : String} {checks : List MandatoryCheck}
    {criteria : List ScoringCriterion} {targets : List ExtractionTarget} {total : PyFloat}
    {setup : EvaluationSetup}
    (h : validateSetup setupId orgId rfpId source checks criteria targets total = .ok setup) :
    setup.mandatoryChecks = checks ∧ setup.scoringCriteria = criteria ∧
      setup.extractionTargets = targets := by
  unfold validateSetup at h
  split at h
  · split at h
    · cases h
      exact ⟨rfl, rfl, rfl⟩
    · cases h
  · cases h

theorem validateSetup_ok {setupId orgId rfpId source : String} {checks : List MandatoryCheck}
    {criteria : List ScoringCriterion} {targets : List ExtractionTarget}
    (hsum : 99 / 100 ≤ sumOf criteria ∧ sumOf criteria ≤ 101 / 100)
    (hrefer : ∀ check ∈ checks,
      check.extractionTargetId ∈ targets.map ExtractionTarget.targetId) :
    ∃ setup, validateSetup setupId orgId rfpId source checks criteria targets
      (PyFloat.fin (PyText.round (sumOf criteria) 3)) = .ok setup := by
  have htotal : 99 / 100 ≤ PyText.round (sumOf criteria) 3 ∧
      PyText.round (sumOf criteria) 3 ≤ 101 / 100 := by
    have hlo := @PyText.le_round (sumOf criteria) 3 990
    have hhi := @PyText.round_le (sumOf criteria) 3 1010
    norm_num at hlo hhi
    exact ⟨hlo hsum.1, hhi hsum.2⟩
  exact ⟨_, dif_pos ⟨htotal, fun _ => hsum, hrefer⟩⟩

end Fields

end RfpPlatform.SetupValidation
