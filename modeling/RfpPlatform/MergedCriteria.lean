import RfpPlatform.WeightShares

namespace RfpPlatform.MergedCriteria

open CriteriaMerge ExceptRules FirstWins WeightShares

section Candidates

/-- An object whose name is a text. -/
def Named (v : Json) : Prop := ∃ ms name, v = .obj ms ∧ Json.member "name" ms = some (.str name)

def entries (criteria : List Json) : List Entry :=
  criteria.filterMap (fun c => (entryOf c).toOption)

def orgCandidates (src : Sources) (kind : CheckType) : List Candidate :=
  (src.org.filter (fun t => t.checkType = kind)).map .org

/-- The criteria that give way to those of the organisation and to earlier ones. -/
def laterCandidates (src : Sources) (kind : CheckType) : List Candidate :=
  (src.dept.filter (fun t => t.checkType = kind)).map .dept ++
    (entries ((userLists src).of kind)).map .user ++ (entries (src.rfp.of kind)).map .rfp

/-- The criteria of a kind that survive the removal of duplicates. -/
def candidates (src : Sources) (kind : CheckType) : List Candidate :=
  kept Candidate.key (orgCandidates src kind) (laterCandidates src kind)

def rfpGuides (src : Sources) : Guides :=
  Dict.ofPairs ((entries src.rfp.scoringCriteria).map (fun e => (normalizeName e.name, e)))

end Candidates

section Merging

variable {sha256 : String → String} {src : Sources} {m : Merge} {merged : Merged} {guides : Guides}

theorem entryOf_eq_ok {v : Json} {e : Entry} :
    entryOf v = .ok e ↔ v = .obj e.members ∧ Json.member "name" e.members = some (.str e.name) := by
  obtain ⟨name, members⟩ := e
  cases v with
  | obj ms =>
      simp only [entryOf, Json.obj.injEq]
      split
      · rename_i n hn
        simp only [Except.ok.injEq, Entry.mk.injEq]
        constructor
        · rintro ⟨rfl, rfl⟩
          exact ⟨rfl, hn⟩
        · rintro ⟨rfl, h⟩
          rw [hn, Option.some.injEq, Json.str.injEq] at h
          exact ⟨h, rfl⟩
      · rename_i w hne hw
        simp only [reduceCtorEq, false_iff, not_and]
        rintro rfl h
        rw [hw, Option.some.injEq] at h
        exact hne name h
      · rename_i hnone
        simp only [reduceCtorEq, false_iff, not_and]
        rintro rfl h
        rw [hnone] at h
        cases h
  | null => simp [entryOf]
  | bool b => simp [entryOf]
  | num x => simp [entryOf]
  | str s => simp [entryOf]
  | arr xs => simp [entryOf]

theorem entryOf_ok_iff {v : Json} : (∃ e, entryOf v = .ok e) ↔ Named v := by
  simp only [entryOf_eq_ok]
  constructor
  · rintro ⟨e, hv, hname⟩
    exact ⟨e.members, e.name, hv, hname⟩
  · rintro ⟨ms, name, hv, hname⟩
    exact ⟨⟨name, ms⟩, hv, hname⟩

theorem mapM_entryOf {xs : List Json} {es : List Entry} :
    xs.mapM entryOf = .ok es ↔ (∀ c ∈ xs, Named c) ∧ entries xs = es := by
  rw [mapM_eq_ok]
  simp only [entryOf_ok_iff]
  rfl

/-- The candidates in the order in which the loops go over them, after the organisation's. -/
def ordered (src : Sources) : List (CheckType × Candidate) :=
  src.dept.map (fun t => (t.checkType, .dept t)) ++
    (entries (userLists src).mandatoryChecks).map (fun e => (.mandatory, .user e)) ++
    (entries (userLists src).scoringCriteria).map (fun e => (.scoring, .user e)) ++
    (entries src.rfp.mandatoryChecks).map (fun e => (.mandatory, .rfp e)) ++
    (entries src.rfp.scoringCriteria).map (fun e => (.scoring, .rfp e))

def orderedOrg (src : Sources) : List (CheckType × Candidate) :=
  src.org.map (fun t => (t.checkType, .org t))

def ofKind (kind : CheckType) (cs : List (CheckType × Candidate)) : List Candidate :=
  (cs.filter (fun p => p.1 = kind)).map Prod.snd

theorem ofKind_append (kind : CheckType) (cs ds : List (CheckType × Candidate)) :
    ofKind kind (cs ++ ds) = ofKind kind cs ++ ofKind kind ds := by
  rw [ofKind, List.filter_append, List.map_append, ofKind, ofKind]

theorem ofKind_map {α : Type} (kind : CheckType) (as : List α) (kindOf : α → CheckType)
    (make : α → Candidate) :
    ofKind kind (as.map (fun a => (kindOf a, make a))) =
      (as.filter (fun a => kindOf a = kind)).map make := by
  rw [ofKind, List.filter_map, List.map_map]
  rfl

theorem ofKind_orderedOrg (kind : CheckType) : ofKind kind (orderedOrg src) = orgCandidates src kind :=
  ofKind_map kind _ _ _

theorem ofKind_ordered (kind : CheckType) : ofKind kind (ordered src) = laterCandidates src kind := by
  simp only [ordered, ofKind_append, ofKind_map, laterCandidates]
  cases kind <;> simp [CriteriaLists.of]

/-- The loops of `collect` over all the candidates, as two. -/
theorem collect_eq_loops : collect sha256 src = .ok m ↔
    (∀ kind, ∀ c ∈ (userLists src).of kind, Named c) ∧ (∀ kind, ∀ c ∈ src.rfp.of kind, Named c) ∧
      ((orderedOrg src).foldlM (fun m p => putCandidate sha256 p.1 p.2 m) (⟨[], []⟩, ⟨[], []⟩) >>=
        fun m => (ordered src).foldlM (fun m p => addCandidate sha256 p.1 p.2 m) m) = .ok m := by
  simp only [collect, ordered, orderedOrg, foldlM_bind_eq_ok, bind_eq_ok, List.foldlM_append,
    List.foldlM_map, mapM_entryOf]
  constructor
  · rintro ⟨m₁, h₁, m₂, h₂, m₃, ⟨_, ⟨hn₃, rfl⟩, h₃⟩, m₄, ⟨_, ⟨hn₄, rfl⟩, h₄⟩, m₅, ⟨_, ⟨hn₅, rfl⟩, h₅⟩,
      _, ⟨hn₆, rfl⟩, h₆⟩
    refine ⟨?_, ?_, m₁, h₁, m₅, ⟨m₄, ⟨m₃, ⟨m₂, h₂, h₃⟩, h₄⟩, h₅⟩, h₆⟩
    · rintro (_ | _)
      exacts [hn₃, hn₄]
    · rintro (_ | _)
      exacts [hn₅, hn₆]
  · rintro ⟨huser, hrfp, m₁, h₁, m₅, ⟨m₄, ⟨m₃, ⟨m₂, h₂, h₃⟩, h₄⟩, h₅⟩, h₆⟩
    exact ⟨m₁, h₁, m₂, h₂, m₃, ⟨_, ⟨huser .mandatory, rfl⟩, h₃⟩, m₄, ⟨_, ⟨huser .scoring, rfl⟩, h₄⟩,
      m₅, ⟨_, ⟨hrfp .mandatory, rfl⟩, h₅⟩, _, ⟨hrfp .scoring, rfl⟩, h₆⟩

theorem foldlM_kinds {left : Collected CheckDict String → Candidate → Except Exn (Collected CheckDict String)}
    {right : Collected CriterionDict String → Candidate → Except Exn (Collected CriterionDict String)}
    {step : Merge → CheckType × Candidate → Except Exn Merge}
    (hstep : ∀ m p, step m p = if (p.1 = CheckType.mandatory : Bool)
      then (left m.1 p.2).map (fun s => (s, m.2)) else (right m.2 p.2).map (fun t => (m.1, t)))
    {cs : List (CheckType × Candidate)} {m m' : Merge} :
    cs.foldlM step m = .ok m' ↔
      (ofKind .mandatory cs).foldlM left m.1 = .ok m'.1 ∧
        (ofKind .scoring cs).foldlM right m.2 = .ok m'.2 := by
  have hscoring : cs.filter (fun p => !decide (p.1 = CheckType.mandatory)) =
      cs.filter (fun p => p.1 = CheckType.scoring) := by
    congr 1
    funext p
    cases p.1 <;> rfl
  obtain rfl : step = _ := funext fun m => funext fun p => hstep m p
  obtain ⟨s, t⟩ := m
  obtain ⟨s', t'⟩ := m'
  have h := @foldlM_pair_eq_ok Exn (CheckType × Candidate) _ _ cs
    (fun p => p.1 = CheckType.mandatory) (fun s p => left s p.2) (fun t p => right t p.2) s s' t t'
  rw [hscoring] at h
  rw [ofKind, ofKind, List.foldlM_map, List.foldlM_map]
  exact h

theorem putCandidate_eq (m : Merge) (p : CheckType × Candidate) :
    putCandidate sha256 p.1 p.2 m = if (p.1 = CheckType.mandatory : Bool)
      then (put Candidate.key (fun c => pure (c.check sha256)) m.1 p.2).map (fun s => (s, m.2))
      else (put Candidate.key (Candidate.criterion sha256) m.2 p.2).map (fun t => (m.1, t)) := by
  obtain ⟨kind, c⟩ := p
  cases kind
  · exact (map_eq_bind).symm
  · exact (map_eq_bind).symm

theorem addCandidate_eq (m : Merge) (p : CheckType × Candidate) :
    addCandidate sha256 p.1 p.2 m = if (p.1 = CheckType.mandatory : Bool)
      then (add Candidate.key (fun c => pure (c.check sha256)) m.1 p.2).map (fun s => (s, m.2))
      else (add Candidate.key (Candidate.criterion sha256) m.2 p.2).map (fun t => (m.1, t)) := by
  obtain ⟨kind, c⟩ := p
  cases kind
  · exact (map_eq_bind).symm
  · exact (map_eq_bind).symm

/-- The merge makes a dictionary of each candidate that is kept. -/
theorem collect_eq_ok {checks : List CheckDict} {criteria : List CriterionDict} :
    (∃ m, collect sha256 src = .ok m ∧ m.1.items = checks ∧ m.2.items = criteria) ↔
      (∀ kind, ∀ c ∈ (userLists src).of kind, Named c) ∧ (∀ kind, ∀ c ∈ src.rfp.of kind, Named c) ∧
        checks = (candidates src .mandatory).map (Candidate.check sha256) ∧
        (candidates src .scoring).mapM (Candidate.criterion sha256) = .ok criteria := by
  have hloops : ∀ m : Merge,
      ((orderedOrg src).foldlM (fun m p => putCandidate sha256 p.1 p.2 m) (⟨[], []⟩, ⟨[], []⟩) >>=
        fun m => (ordered src).foldlM (fun m p => addCandidate sha256 p.1 p.2 m) m) = .ok m ↔
      ((candidates src .mandatory).map (Candidate.check sha256) = m.1.items ∧
        m.1.names = (candidates src .mandatory).map Candidate.key) ∧
      ((candidates src .scoring).mapM (Candidate.criterion sha256) = .ok m.2.items ∧
        m.2.names = (candidates src .scoring).map Candidate.key) := by
    intro m
    have hchecks := @merge_eq_ok Exn Candidate CheckDict String _ Candidate.key
      (fun c => pure (c.check sha256)) (orgCandidates src .mandatory)
      (laterCandidates src .mandatory) m.1
    have hcriteria := @merge_eq_ok Exn Candidate CriterionDict String _ Candidate.key
      (Candidate.criterion sha256) (orgCandidates src .scoring) (laterCandidates src .scoring) m.2
    rw [List.mapM_pure, pure_eq_ok, bind_eq_ok] at hchecks
    rw [bind_eq_ok] at hcriteria
    rw [bind_eq_ok]
    simp only [foldlM_kinds putCandidate_eq, foldlM_kinds addCandidate_eq, ofKind_orderedOrg,
      ofKind_ordered]
    constructor
    · rintro ⟨m₁, ⟨hput, hput'⟩, hadd, hadd'⟩
      exact ⟨hchecks.mp ⟨m₁.1, hput, hadd⟩, hcriteria.mp ⟨m₁.2, hput', hadd'⟩⟩
    · rintro ⟨h, h'⟩
      obtain ⟨checks, hput, hadd⟩ := hchecks.mpr h
      obtain ⟨criteria, hput', hadd'⟩ := hcriteria.mpr h'
      exact ⟨(checks, criteria), ⟨hput, hput'⟩, hadd, hadd'⟩
  simp only [collect_eq_loops, hloops]
  constructor
  · rintro ⟨m, ⟨huser, hrfp, ⟨hchecks, _⟩, hcriteria, _⟩, rfl, rfl⟩
    exact ⟨huser, hrfp, hchecks.symm, hcriteria⟩
  · rintro ⟨huser, hrfp, rfl, hcriteria⟩
    exact ⟨(⟨_, (candidates src .mandatory).map Candidate.key⟩,
      ⟨criteria, (candidates src .scoring).map Candidate.key⟩),
      ⟨huser, hrfp, ⟨rfl, rfl⟩, hcriteria, rfl⟩, rfl, rfl⟩

theorem byName_eq_ok {criteria : List Json} : byName criteria = .ok guides ↔
    (∀ c ∈ criteria, Named c) ∧
      guides = Dict.ofPairs ((entries criteria).map (fun e => (normalizeName e.name, e))) := by
  simp only [byName, bind_eq_ok, pure_eq_ok, mapM_entryOf]
  constructor
  · rintro ⟨_, ⟨hnamed, rfl⟩, rfl⟩
    exact ⟨hnamed, rfl⟩
  · rintro ⟨hnamed, rfl⟩
    exact ⟨_, ⟨hnamed, rfl⟩, rfl⟩

theorem mergeCriteria_eq_ok : mergeCriteria sha256 src = .ok merged ↔
    (∀ kind, ∀ c ∈ (userLists src).of kind, Named c) ∧ (∀ kind, ∀ c ∈ src.rfp.of kind, Named c) ∧
      ∃ criteria, (candidates src .scoring).mapM (Candidate.criterion sha256) = .ok criteria ∧
        merged = finish ((candidates src .mandatory).map (Candidate.check sha256)) criteria
          (rfpGuides src) := by
  simp only [mergeCriteria, bind_eq_ok, pure_eq_ok, byName_eq_ok]
  constructor
  · rintro ⟨m, hm, _, ⟨_, rfl⟩, rfl⟩
    obtain ⟨huser, hrfp, hchecks, hcriteria⟩ := collect_eq_ok.mp ⟨m, hm, rfl, rfl⟩
    exact ⟨huser, hrfp, _, hcriteria, by rw [hchecks]; rfl⟩
  · rintro ⟨huser, hrfp, criteria, hcriteria, rfl⟩
    obtain ⟨m, hm, hchecks, rfl⟩ := collect_eq_ok.mpr ⟨huser, hrfp, rfl, hcriteria⟩
    exact ⟨m, hm, _, ⟨hrfp .scoring, rfl⟩, by rw [hchecks]; rfl⟩

end Merging

section Gaps

variable {sha256 : String → String} {src : Sources} {replies : GapReplies} {guides : Guides}
  {checks : List CheckDict} {criteria : List CriterionDict} {sc : CriterionDict} {c : Candidate}
  {merged : Merged}

theorem criterion_eq_ok : c.criterion sha256 = .ok sc ↔
    ∃ weight rubric, c.weight = .ok weight ∧ c.rubric = .ok rubric ∧
      sc = ⟨s!"SC-{c.tag sha256 .scoring}", c.name, weight, rubric, [], c.source, c.isLocked,
        c.pageReference, none⟩ := by
  simp only [Candidate.criterion, bind_eq_ok, pure_eq_ok]
  constructor
  · rintro ⟨weight, hweight, rubric, hrubric, rfl⟩
    exact ⟨weight, rubric, hweight, hrubric, rfl⟩
  · rintro ⟨weight, rubric, hweight, hrubric, rfl⟩
    exact ⟨weight, hweight, rubric, hrubric, rfl⟩

/-- Normalising changes nothing but the weights. -/
theorem normaliseWeights_eq (criteria : List CriterionDict) :
    ∃ weightOf : CriterionDict → PyFloat,
      normaliseWeights criteria = criteria.map (fun sc => { sc with weight := weightOf sc }) := by
  simp only [normaliseWeights]
  split
  · exact ⟨_, rfl⟩
  · split
    · exact ⟨_, rfl⟩
    · exact ⟨CriterionDict.weight, (List.map_id criteria).symm⟩

/-- The guides that the gap detector applies, if any. -/
def offered (replies : GapReplies) (merged : Merged) : Option Guides :=
  if merged.scoringCriteria.any lacksGuide then
    (itemsOf replies.scoreGuides >>= byName).toOption
  else none

def guidedBy (offer : Option Guides) (sc : CriterionDict) : CriterionDict :=
  offer.elim sc (fun guides => applyGuide guides sc)

theorem gaps_scoring : (detectAndFillGaps sha256 replies merged).1.scoringCriteria =
    merged.scoringCriteria.map (guidedBy (offered replies merged)) := by
  simp only [detectAndFillGaps, offered]
  split
  · rw [fillGuides]
    split
    · rename_i guides hguides
      rw [hguides]
      rfl
    · rename_i e he
      rw [he]
      exact (List.map_id _).symm
  · exact (List.map_id _).symm

theorem guidedBy_frame (offer : Option Guides) : (guidedBy offer sc).weight = sc.weight ∧
    (guidedBy offer sc).pageReference = sc.pageReference ∧
    (guidedBy offer sc).extractionTargetIds = sc.extractionTargetIds := by
  cases offer with
  | none => exact ⟨rfl, rfl, rfl⟩
  | some guides =>
      simp only [guidedBy, Option.elim_some, applyGuide]
      split <;> exact ⟨rfl, rfl, rfl⟩

variable (checks guides) in
theorem finish_scoring (hcriteria : criteria ≠ []) : ∃ weightOf : CriterionDict → PyFloat,
    (finish checks criteria guides).scoringCriteria = criteria.map (fun sc =>
      { enrich guides sc with
        weight := weightOf sc
        extractionTargetIds := [scoringTargetId sc] }) ∧
    (finish checks criteria guides).extractionTargets = checks.map checkTarget ++
      criteria.map (fun sc => criterionTarget sc) := by
  obtain ⟨weightOf, hweight⟩ := normaliseWeights_eq (criteria.map (enrich guides))
  have hne : (criteria.map (enrich guides)).isEmpty = false := by simpa using hcriteria
  refine ⟨fun sc => weightOf (enrich guides sc), ?_⟩
  simp only [finish, hne, hweight, buildTargets, List.map_map]
  exact ⟨rfl, rfl⟩

theorem finish_weights (hcriteria : criteria ≠ []) :
    (finish checks criteria guides).scoringCriteria.map CriterionDict.weight =
      shares (criteria.map CriterionDict.weight) := by
  have hne : (criteria.map (enrich guides)).isEmpty = false := by simpa using hcriteria
  simp only [finish, hne, Bool.false_eq_true, if_false, List.map_map]
  calc _ = (normaliseWeights (criteria.map (enrich guides))).map CriterionDict.weight := rfl
    _ = shares ((criteria.map (enrich guides)).map CriterionDict.weight) :=
        weight_normaliseWeights _
    _ = shares (criteria.map CriterionDict.weight) := by rw [List.map_map]; rfl

theorem finish_empty : finish checks [] guides =
    ⟨checks, [], checks.map checkTarget, none, "merged_empty"⟩ := by
  simp [finish, buildTargets]

theorem finish_checks : (finish checks criteria guides).mandatoryChecks = checks := by
  simp only [finish]
  split <;> rfl

theorem gaps_weights (hcriteria : criteria ≠ []) :
    (detectAndFillGaps sha256 replies (finish checks criteria guides)).1.scoringCriteria.map
      CriterionDict.weight = shares (criteria.map CriterionDict.weight) := by
  rw [gaps_scoring, List.map_map, ← finish_weights hcriteria]
  exact List.map_congr_left fun sc _ => (guidedBy_frame _).1

end Gaps

section References

variable {sha256 : String → String} {replies : GapReplies} {guides : Guides}
  {checks : List CheckDict} {criteria : List CriterionDict} {targets : List TargetDict}

/-- The merged criteria after the gap detector has been over them. -/
def filledIn (sha256 : String → String) (replies : GapReplies) (guides : Guides)
    (checks : List CheckDict) (criteria : List CriterionDict) : Merged :=
  (detectAndFillGaps sha256 replies (finish checks criteria guides)).1

/-- The checks that are suggested when there are none. -/
def added (replies : GapReplies) (checks : List CheckDict) : List Entry :=
  if checks.isEmpty then suggested replies.mandatoryChecks else []

theorem filledIn_checks : (filledIn sha256 replies guides checks criteria).mandatoryChecks =
    checks ++ (added replies checks).map (generatedCheck sha256) := by
  simp only [filledIn, detectAndFillGaps, finish_checks, added]

theorem filledIn_targets : (filledIn sha256 replies guides checks criteria).extractionTargets =
    checks.map checkTarget ++ criteria.map criterionTarget ++
      (added replies checks).map (generatedTarget sha256) := by
  simp only [filledIn, detectAndFillGaps, finish_checks, added]
  by_cases hcriteria : criteria = []
  · subst hcriteria
    rw [finish_empty, List.map_nil, List.append_nil]
  · obtain ⟨_, _, htargets⟩ := finish_scoring guides checks hcriteria
    rw [htargets]

theorem filledIn_scoring_eq_nil :
    (filledIn sha256 replies guides checks criteria).scoringCriteria = [] ↔ criteria = [] := by
  rw [filledIn, gaps_scoring, List.map_eq_nil_iff]
  constructor
  · intro h
    by_contra hcriteria
    obtain ⟨weightOf, hscoring, _⟩ := finish_scoring guides checks hcriteria
    rw [hscoring, List.map_eq_nil_iff] at h
    exact hcriteria h
  · rintro rfl
    rw [finish_empty]

theorem mem_targetIds_of_mem_checks {mc : CheckDict}
    (h : mc ∈ (filledIn sha256 replies guides checks criteria).mandatoryChecks) :
    mc.extractionTargetId ∈
      (filledIn sha256 replies guides checks criteria).extractionTargets.map TargetDict.targetId := by
  rw [filledIn_checks] at h
  rw [filledIn_targets, List.map_append, List.map_append]
  rcases List.mem_append.mp h with hm | hm
  · exact List.mem_append_left _ (List.mem_append_left _
      (List.mem_map.mpr ⟨_, List.mem_map_of_mem hm, rfl⟩))
  · obtain ⟨e, he, rfl⟩ := List.mem_map.mp hm
    exact List.mem_append_right _ (List.mem_map.mpr ⟨_, List.mem_map_of_mem he, rfl⟩)

theorem mem_targetIds_of_mem_scoring {sc : CriterionDict} {id : String} (hcriteria : criteria ≠ [])
    (h : sc ∈ (filledIn sha256 replies guides checks criteria).scoringCriteria)
    (hid : id ∈ sc.extractionTargetIds) :
    id ∈ (filledIn sha256 replies guides checks criteria).extractionTargets.map
      TargetDict.targetId := by
  obtain ⟨weightOf, hscoring, _⟩ := finish_scoring guides checks hcriteria
  rw [filledIn, gaps_scoring, hscoring, List.map_map] at h
  obtain ⟨own, hown, rfl⟩ := List.mem_map.mp h
  rw [Function.comp_apply, (guidedBy_frame _).2.2] at hid
  obtain rfl := List.mem_singleton.mp hid
  rw [filledIn_targets, List.map_append, List.map_append]
  exact List.mem_append_left _ (List.mem_append_right _
    (List.mem_map.mpr ⟨_, List.mem_map_of_mem hown, rfl⟩))

theorem head_append {p s : String} (hp : p.toList.head? = some 'E') :
    (p ++ s).toList.head? = some 'E' := by
  rw [String.toList_append, List.head?_append, hp]
  rfl

end References

end RfpPlatform.MergedCriteria
