import RfpPlatform.BackgroundRefinement
import RfpPlatform.SetupAssembly

namespace RfpPlatform.RefinedSetup

open BackgroundRefinement CriteriaMerge ExceptRules MergedCriteria SetupValidation

section Reading

variable {α : Type} (types : FieldTypes)

theorem weight_pos (weight : {q : ℚ // 0 < q ∧ q ≤ 1}) : 0 < weight.1 := weight.2.1

theorem weight_le_one (weight : {q : ℚ // 0 < q ∧ q ≤ 1}) : weight.1 ≤ 1 := weight.2.2

end Reading

section Dumps

variable {types : FieldTypes}

end Dumps

section Validity

variable {types : FieldTypes} {setup existing : SetupJson} {s : EvaluationSetup} {header : Header}
  {checks : List MandatoryCheck} {criteria : List ScoringCriterion}
  {targets : List ExtractionTarget} {source : String}

/-- The two validators of the whole setup. -/
def Consistent (checks : List MandatoryCheck) (criteria : List ScoringCriterion)
    (targets : List ExtractionTarget) : Prop :=
  (criteria ≠ [] → 99 / 100 ≤ sumOf criteria ∧ sumOf criteria ≤ 101 / 100) ∧
    ∀ check ∈ checks, check.extractionTargetId ∈ targets.map ExtractionTarget.targetId

end Validity

section Merging

variable {sha256 : String → String} {src : Sources} {merged : Merged} {s : EvaluationSetup}
  {types : FieldTypes} {existing : SetupJson} {checks : List MandatoryCheck}
  {criteria : List ScoringCriterion} {targets : List ExtractionTarget}

end Merging

section Sample

end Sample

end RfpPlatform.RefinedSetup
