import RfpPlatform.MergedCriteria

namespace RfpPlatform.MergePriority

open CriteriaMerge ExceptRules FirstWins MergedCriteria WeightShares

section Priority

/-- All the rows and entries of a kind: the organisation's, then the department's, the user's and
those of the request for proposals. -/
def prioritised (src : Sources) (kind : CheckType) : List Candidate :=
  orgCandidates src kind ++ laterCandidates src kind

/-- The first row of the highest-priority source that has the name. -/
def representative (src : Sources) (kind : CheckType) (name : String) : Option Candidate :=
  (prioritised src kind).find? (fun c => c.key = normalizeName name)

/-- A criterion that says what the row of its name says, and a weight of that row. Only a band that
the row leaves blank may hold another text. -/
structure Represents (sha256 : String → String) (src : Sources) (sc : CriterionDict)
    (weight : PyFloat) : Prop where
  row : ∃ c rubric, representative src .scoring sc.name = some c ∧ c.weight = .ok weight ∧
    c.rubric = .ok rubric ∧ (∀ b, (rubric b).truthy → sc.rubric b = rubric b) ∧
    sc.criterionId = s!"SC-{c.tag sha256 .scoring}" ∧ sc.name = c.name ∧ sc.source = c.source ∧
    sc.isLocked = c.isLocked ∧ sc.pageReference = c.pageReference

/-- Each name once, every name, and each from the row that comes first. -/
structure Deduplicated (sha256 : String → String) (src : Sources) (merged : Merged) : Prop where
  checks_distinct : (merged.mandatoryChecks.map (fun mc => normalizeName mc.name)).Nodup
  criteria_distinct : (merged.scoringCriteria.map (fun sc => normalizeName sc.name)).Nodup
  check_names : ∀ name, name ∈ merged.mandatoryChecks.map (fun mc => normalizeName mc.name) ↔
    name ∈ (prioritised src .mandatory).map Candidate.key
  criterion_names : ∀ name, name ∈ merged.scoringCriteria.map (fun sc => normalizeName sc.name) ↔
    name ∈ (prioritised src .scoring).map Candidate.key
  checks_represent : ∀ mc ∈ merged.mandatoryChecks, ∃ c,
    representative src .mandatory mc.name = some c ∧ mc = c.check sha256
  criteria_represent : ∃ weights,
    List.Forall₂ (Represents sha256 src) merged.scoringCriteria weights ∧
      merged.scoringCriteria.map CriterionDict.weight = shares weights

end Priority

section Merging

variable {sha256 : String → String} {src : Sources} {merged : Merged} {guides : Guides}
  {checks : List CheckDict} {criteria : List CriterionDict} {sc : CriterionDict} {c : Candidate}

theorem representative_of_mem {kind : CheckType}
    (hfirst : ((orgCandidates src kind).map Candidate.key).Nodup) (hc : c ∈ candidates src kind) :
    representative src kind c.name = some c :=
  find?_of_mem_kept hfirst hc

theorem finish_names :
    (finish checks criteria guides).scoringCriteria.map CriterionDict.name =
      criteria.map CriterionDict.name := by
  by_cases hcriteria : criteria = []
  · subst hcriteria
    rw [finish_empty]
  · obtain ⟨weightOf, hscoring, _⟩ := finish_scoring guides checks hcriteria
    rw [hscoring, List.map_map]
    rfl

theorem names_of_criteria (hcriteria :
    (candidates src .scoring).mapM (Candidate.criterion sha256) = .ok criteria) :
    criteria.map CriterionDict.name = (candidates src .scoring).map Candidate.name :=
  map_eq_of_mapM hcriteria fun c _ sc hsc => by
    obtain ⟨weight, rubric, _, _, rfl⟩ := criterion_eq_ok.mp hsc
    rfl

/-- A band with a text is not filled. -/
theorem enrich_rubric {b : Band} (h : (sc.rubric b).truthy) :
    (enrich guides sc).rubric b = sc.rubric b := by
  simp only [enrich, filled, h]
  cases guides.get? (normalizeName sc.name) <;> rfl

/-- The criteria that are kept stand for their names when the organisation's names are distinct. -/
theorem criteria_represent (hfirst : ((orgCandidates src .scoring).map Candidate.key).Nodup)
    (hcriteria : (candidates src .scoring).mapM (Candidate.criterion sha256) = .ok criteria) :
    List.Forall₂ (Represents sha256 src) (finish checks criteria guides).scoringCriteria
        (criteria.map CriterionDict.weight) ∧
      (finish checks criteria guides).scoringCriteria.map CriterionDict.weight =
        shares (criteria.map CriterionDict.weight) := by
  by_cases hempty : criteria = []
  · subst hempty
    rw [finish_empty]
    exact ⟨List.Forall₂.nil, rfl⟩
  obtain ⟨weightOf, hscoring, _⟩ := finish_scoring guides checks hempty
  refine ⟨?_, finish_weights hempty⟩
  rw [hscoring, List.forall₂_map_left_iff, List.forall₂_map_right_iff, List.forall₂_same]
  intro sc hsc
  obtain ⟨c, hc, hmade⟩ := (mem_of_mapM_eq_ok hcriteria).mp hsc
  obtain ⟨weight, rubric, hweight, hrubric, rfl⟩ := criterion_eq_ok.mp hmade
  exact ⟨c, rubric, representative_of_mem hfirst hc, hweight, hrubric,
    fun b hb => enrich_rubric hb, rfl, rfl, rfl, rfl, rfl⟩

end Merging

section Main

variable {sha256 : String → String} {src : Sources} {merged : Merged}

theorem mandatory_names (h : mergeCriteria sha256 src = .ok merged) :
    merged.mandatoryChecks.map (fun mc => normalizeName mc.name) =
      (candidates src .mandatory).map Candidate.key := by
  obtain ⟨_, _, criteria, _, rfl⟩ := mergeCriteria_eq_ok.mp h
  rw [finish_checks, List.map_map]
  rfl

theorem scoring_names (h : mergeCriteria sha256 src = .ok merged) :
    merged.scoringCriteria.map (fun sc => normalizeName sc.name) =
      (candidates src .scoring).map Candidate.key := by
  obtain ⟨_, _, criteria, hcriteria, rfl⟩ := mergeCriteria_eq_ok.mp h
  have hnames := congrArg (List.map normalizeName) (@finish_names (rfpGuides src)
    ((candidates src .mandatory).map (Candidate.check sha256)) criteria)
  rw [names_of_criteria hcriteria, List.map_map, List.map_map] at hnames
  exact hnames

/-- The organisation's rows are all merged, so that they need names of their own. -/
theorem org_distinct (h : mergeCriteria sha256 src = .ok merged)
    (hmerged : Deduplicated sha256 src merged) (kind : CheckType) :
    ((orgCandidates src kind).map Candidate.key).Nodup := by
  cases kind with
  | mandatory => exact nodup_kept.mp (mandatory_names h ▸ hmerged.checks_distinct)
  | scoring => exact nodup_kept.mp (scoring_names h ▸ hmerged.criteria_distinct)

theorem deduplicated_of_distinct (h : mergeCriteria sha256 src = .ok merged)
    (horg : ∀ kind, ((orgCandidates src kind).map Candidate.key).Nodup) :
    Deduplicated sha256 src merged where
  checks_distinct := by
    rw [mandatory_names h]
    exact nodup_kept.mpr (horg .mandatory)
  criteria_distinct := by
    rw [scoring_names h]
    exact nodup_kept.mpr (horg .scoring)
  check_names name := by
    rw [mandatory_names h]
    exact mem_kept_keys
  criterion_names name := by
    rw [scoring_names h]
    exact mem_kept_keys
  checks_represent mc hmc := by
    obtain ⟨_, _, criteria, _, rfl⟩ := mergeCriteria_eq_ok.mp h
    rw [finish_checks] at hmc
    obtain ⟨c, hc, rfl⟩ := List.mem_map.mp hmc
    exact ⟨c, representative_of_mem (horg .mandatory) hc, rfl⟩
  criteria_represent := by
    obtain ⟨_, _, criteria, hcriteria, rfl⟩ := mergeCriteria_eq_ok.mp h
    exact ⟨_, criteria_represent (horg .scoring) hcriteria⟩

/-- What is merged has each name once, from the row that comes first, exactly when no two of the
organisation's own rows of a kind have one name. -/
theorem deduplicated_iff (h : mergeCriteria sha256 src = .ok merged) :
    Deduplicated sha256 src merged ↔
      ∀ kind, ((orgCandidates src kind).map Candidate.key).Nodup :=
  ⟨org_distinct h, deduplicated_of_distinct h⟩

def isoRow (name : String) : Template :=
  ⟨"aabbccdd-eeff", .mandatory, name, some "", some "Evidence provided", some 1, .obj [],
    some false⟩

/-- Rows of the organisation with these names, and a request that asks for the first of them. -/
def isoSources (names : List String) : Sources where
  org := names.map isoRow
  dept := []
  user := none
  rfp := ⟨[.obj [("name", .str "ISO 27001 Certification")]], []⟩

theorem deduplicated_iff_one : ∃ merged, mergeCriteria id (isoSources ["ISO 27001"]) = .ok merged ∧
    Deduplicated id (isoSources ["ISO 27001"]) merged := by
  obtain ⟨merged, h⟩ := exists_ok_of_toBool
    (show (mergeCriteria id (isoSources ["ISO 27001"])).toBool = true by decide +kernel)
  refine ⟨merged, h, (deduplicated_iff h).mpr ?_⟩
  rintro (_ | _) <;> decide +kernel

/-- The organisation's second row of a name is merged beside the first. -/
theorem org_duplicate_kept : ¬ ∀ sha256 src merged, mergeCriteria sha256 src = .ok merged →
    Deduplicated sha256 src merged := by
  intro hall
  obtain ⟨merged, h⟩ := exists_ok_of_toBool (show (mergeCriteria id
    (isoSources ["ISO 27001", "ISO 27001 Certification"])).toBool = true by decide +kernel)
  have hdistinct := org_distinct h (hall _ _ _ h) .mandatory
  revert hdistinct
  decide +kernel

end Main

end RfpPlatform.MergePriority
