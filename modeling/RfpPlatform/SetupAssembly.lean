import RfpPlatform.MergedCriteria
import RfpPlatform.SetupValidation

namespace RfpPlatform.SetupAssembly

open AccountRequests (TokenData duplicateKey)
open CriteriaMerge ExceptRules FirstWins MergedCriteria RunRequests SetupValidation WeightShares

section Conditions

variable (sha256 : String → String)

def assembleSetup (setupId orgId rfpId : String) (src : Sources) (replies : GapReplies) :
    Except Exn EvaluationSetup := do
  let merged ← mergeCriteria sha256 src
  buildSetup setupId orgId rfpId (detectAndFillGaps sha256 replies merged).1

/-- The band of a criterion, or that of the request for proposals where it is blank. -/
def ownBand (src : Sources) (c : Candidate) (rubric : Band → Json) (b : Band) : Json :=
  filled ((rfpGuides src).get? c.key) (rubric b) b

/-- All bands of some criterion are blank. -/
def HasGap (src : Sources) : Prop :=
  ∃ c ∈ candidates src .scoring, ∃ rubric, c.rubric = .ok rubric ∧
    ∀ b, (ownBand src c rubric b).truthy = false

/-- The guide that the gap detector's model gives for a criterion. -/
def Guided (src : Sources) (replies : GapReplies) (c : Candidate) (e : Entry) : Prop :=
  HasGap src ∧ ∃ guides, (itemsOf replies.scoreGuides >>= byName) = .ok guides ∧
    guides.get? c.key = some e

/-- The conditions under which the criteria and the replies make a setup. -/
structure Assemblable (src : Sources) (replies : GapReplies) : Prop where
  user_named : ∀ kind, ∀ c ∈ (userLists src).of kind, Named c
  rfp_named : ∀ kind, ∀ c ∈ src.rfp.of kind, Named c
  check_texts : ∀ c ∈ candidates src .mandatory,
    IsText c.description ∧ IsText c.whatPasses ∧ IsOptionalText c.pageReference
  suggested_checks : candidates src .mandatory = [] →
    suggested replies.mandatoryChecks ≠ [] ∧ ∀ e ∈ suggested replies.mandatoryChecks,
      IsText (e.get "description" (.str "")) ∧ IsText (e.get "what_passes" (.str ""))
  scoring : candidates src .scoring ≠ []
  weights : ∃ ws, (candidates src .scoring).mapM Candidate.weight = .ok (ws.map PyFloat.fin) ∧
    WeightShares.Balanced ws
  guides : ∀ c ∈ candidates src .scoring, ∃ rubric, c.rubric = .ok rubric ∧
    (∀ e, Guided src replies c e → ∀ b : Band, IsText (e.get b.key (.str ""))) ∧
    ((¬ ∃ e, Guided src replies c e) → ∀ b, IsText (ownBand src c rubric b))
  page_references : ∀ c ∈ candidates src .scoring, IsOptionalText c.pageReference

end Conditions

section Assembly

variable {sha256 : String → String} {setupId orgId rfpId : String} {src : Sources}
  {replies : GapReplies} {criteria : List CriterionDict} {c : Candidate} {setup : EvaluationSetup}

theorem mem_criteria (h : (candidates src .scoring).mapM (Candidate.criterion sha256) = .ok criteria)
    {sc : CriterionDict} : sc ∈ criteria ↔ ∃ c ∈ candidates src .scoring, ∃ weight rubric,
      c.weight = .ok weight ∧ c.rubric = .ok rubric ∧
        sc = ⟨s!"SC-{c.tag sha256 .scoring}", c.name, weight, rubric, [], c.source, c.isLocked,
          c.pageReference, none⟩ := by
  rw [mem_of_mapM_eq_ok h]
  simp only [criterion_eq_ok]

theorem hasGap_iff (h : (candidates src .scoring).mapM (Candidate.criterion sha256) = .ok criteria)
    (checks : List CheckDict) :
    (finish checks criteria (rfpGuides src)).scoringCriteria.any lacksGuide = true ↔ HasGap src := by
  have hrubric : ∀ sc : CriterionDict, lacksGuide sc = true ↔ ∀ b, (sc.rubric b).truthy = false := by
    intro sc
    simp only [lacksGuide, Band.all, Bool.not_eq_true', List.any_eq_false]
    constructor
    · intro hall b
      have hb := hall b (by cases b <;> simp)
      simpa using hb
    · intro hall b _
      simp [hall b]
  by_cases hcriteria : criteria = []
  · subst hcriteria
    rw [finish_empty, List.any_nil]
    constructor
    · intro hf
      cases hf
    · rintro ⟨c, hc, rubric, hr, _⟩
      have hall := exists_mapM_eq_ok.mp ⟨_, h⟩ c hc
      obtain ⟨sc, hsc⟩ := hall
      exact absurd ((mem_of_mapM_eq_ok h).mpr ⟨c, hc, hsc⟩) List.not_mem_nil
  · obtain ⟨weightOf, hscoring, _⟩ := finish_scoring (rfpGuides src) checks hcriteria
    rw [hscoring, List.any_map, List.any_eq_true]
    constructor
    · rintro ⟨sc, hsc, hlacks⟩
      obtain ⟨c, hc, weight, rubric, _, hr, rfl⟩ := (mem_criteria h).mp hsc
      exact ⟨c, hc, rubric, hr, (hrubric _).mp hlacks⟩
    · rintro ⟨c, hc, rubric, hr, hblank⟩
      obtain ⟨sc, hsc⟩ := exists_mapM_eq_ok.mp ⟨_, h⟩ c hc
      obtain ⟨weight, rubric', hw, hr', rfl⟩ := criterion_eq_ok.mp hsc
      rw [hr] at hr'
      cases hr'
      exact ⟨_, (mem_of_mapM_eq_ok h).mpr ⟨c, hc, hsc⟩, (hrubric _).mpr hblank⟩

theorem offered_get? (h : (candidates src .scoring).mapM (Candidate.criterion sha256) = .ok criteria)
    {checks : List CheckDict} {e : Entry} :
    ((offered replies (finish checks criteria (rfpGuides src))).bind (fun g => g.get? c.key)) = some e ↔
      Guided src replies c e := by
  unfold offered Guided
  rw [← hasGap_iff h checks]
  by_cases hgap : (finish checks criteria (rfpGuides src)).scoringCriteria.any lacksGuide = true
  · rw [if_pos hgap, Option.bind_eq_some_iff]
    simp only [toOption_eq_some, hgap, true_and]
  · rw [if_neg hgap]
    simp [hgap]

/-- The rubric of a criterion after the gap detector. -/
theorem guidedBy_rubric (offer : Option Guides) (sc : CriterionDict) (b : Band) :
    (guidedBy offer sc).rubric b =
      ((offer.bind (fun g => g.get? (normalizeName sc.name))).map
        (fun e => e.get b.key (.str ""))).getD (sc.rubric b) := by
  cases offer with
  | none => rfl
  | some guides =>
      simp only [guidedBy, Option.elim_some, applyGuide, Option.bind_some]
      cases guides.get? (normalizeName sc.name) with
      | none => rfl
      | some e => rfl

theorem getD_map_iff {α β : Type} {o : Option α} {P : β → Prop} {f : α → Band → β} {own : Band → β} :
    (∀ b, P ((o.map (fun e => f e b)).getD (own b))) ↔
      (∀ e, o = some e → ∀ b, P (f e b)) ∧ ((¬ ∃ e, o = some e) → ∀ b, P (own b)) := by
  cases o <;> simp

/-- What validation asks of the merged criteria, in terms of the candidates. -/
theorem scoring_valid_iff (hne : criteria ≠ [])
    (h : (candidates src .scoring).mapM (Candidate.criterion sha256) = .ok criteria)
    {checks : List CheckDict} :
    (∀ sc ∈ (filledIn sha256 replies (rfpGuides src) checks criteria).scoringCriteria,
        (∀ b, IsText (sc.rubric b)) ∧ IsOptionalText sc.pageReference) ↔
      (∀ c ∈ candidates src .scoring, ∃ rubric, c.rubric = .ok rubric ∧
        (∀ e, Guided src replies c e → ∀ b : Band, IsText (e.get b.key (.str ""))) ∧
        ((¬ ∃ e, Guided src replies c e) → ∀ b, IsText (ownBand src c rubric b))) ∧
      ∀ c ∈ candidates src .scoring, IsOptionalText c.pageReference := by
  obtain ⟨weightOf, hscoring, _⟩ :=
    finish_scoring (rfpGuides src) checks hne
  have hmem : ∀ P : (Band → Json) → Json → Prop,
      (∀ sc ∈ (filledIn sha256 replies (rfpGuides src) checks criteria).scoringCriteria,
        P sc.rubric sc.pageReference) ↔
      ∀ c ∈ candidates src .scoring, ∃ rubric, c.rubric = .ok rubric ∧
        P (fun b => (((offered replies (finish checks criteria (rfpGuides src))).bind
          (fun g => g.get? c.key)).map (fun e => e.get b.key (.str ""))).getD (ownBand src c rubric b))
          c.pageReference := by
    intro P
    rw [filledIn, gaps_scoring, hscoring, List.map_map]
    simp only [List.forall_mem_map, Function.comp_apply, (guidedBy_frame _).2.1]
    constructor
    · intro hall c hc
      obtain ⟨sc, hsc⟩ := exists_mapM_eq_ok.mp ⟨_, h⟩ c hc
      obtain ⟨weight, rubric, hw, hr, rfl⟩ := criterion_eq_ok.mp hsc
      refine ⟨rubric, hr, ?_⟩
      have hP := hall _ ((mem_of_mapM_eq_ok h).mpr ⟨c, hc, hsc⟩)
      rw [funext (guidedBy_rubric _ _)] at hP
      exact hP
    · intro hall sc hsc
      obtain ⟨c, hc, weight, rubric, hw, hr, rfl⟩ := (mem_criteria h).mp hsc
      obtain ⟨rubric', hr', hP⟩ := hall c hc
      rw [hr] at hr'
      cases hr'
      rw [funext (guidedBy_rubric _ _)]
      exact hP
  rw [hmem (fun rubric page => (∀ b, IsText (rubric b)) ∧ IsOptionalText page)]
  simp only [getD_map_iff (P := IsText), offered_get? h]
  constructor
  · intro hall
    refine ⟨fun c hc => ?_, fun c hc => ?_⟩
    · obtain ⟨rubric, hr, htexts, _⟩ := hall c hc
      exact ⟨rubric, hr, htexts⟩
    · obtain ⟨_, _, _, hpage⟩ := hall c hc
      exact hpage
  · rintro ⟨hall, hpage⟩ c hc
    obtain ⟨rubric, hr, htexts⟩ := hall c hc
    exact ⟨rubric, hr, htexts, hpage c hc⟩

theorem checks_valid_iff : (∀ mc ∈ (filledIn sha256 replies (rfpGuides src)
      ((candidates src .mandatory).map (Candidate.check sha256)) criteria).mandatoryChecks,
        IsText mc.description ∧ IsText mc.whatPasses ∧ IsOptionalText mc.pageReference) ↔
      (∀ c ∈ candidates src .mandatory,
        IsText c.description ∧ IsText c.whatPasses ∧ IsOptionalText c.pageReference) ∧
      (candidates src .mandatory = [] → ∀ e ∈ suggested replies.mandatoryChecks,
        IsText (e.get "description" (.str "")) ∧ IsText (e.get "what_passes" (.str ""))) := by
  rw [filledIn_checks, List.forall_mem_append]
  simp only [List.forall_mem_map, added]
  refine and_congr Iff.rfl ?_
  by_cases hnone : candidates src .mandatory = []
  · simp [hnone, generatedCheck, IsOptionalText]
  · simp [hnone]

theorem checks_nonempty_iff : (filledIn sha256 replies (rfpGuides src)
      ((candidates src .mandatory).map (Candidate.check sha256)) criteria).mandatoryChecks ≠ [] ↔
      (candidates src .mandatory = [] → suggested replies.mandatoryChecks ≠ []) := by
  rw [filledIn_checks]
  by_cases hnone : candidates src .mandatory = []
  · simp [hnone, added]
  · simp [hnone]

/-- The targets are texts where the checks are. -/
theorem targets_valid {checks : List CheckDict}
    (hchecks : ∀ mc ∈ (filledIn sha256 replies (rfpGuides src) checks criteria).mandatoryChecks,
      IsText mc.description ∧ IsText mc.whatPasses ∧ IsOptionalText mc.pageReference) :
    ∀ t ∈ (filledIn sha256 replies (rfpGuides src) checks criteria).extractionTargets,
      IsText t.description := by
  rw [filledIn_checks, List.forall_mem_append] at hchecks
  rw [filledIn_targets]
  simp only [List.forall_mem_append, List.forall_mem_map] at hchecks ⊢
  refine ⟨⟨fun mc hmc => (hchecks.1 mc hmc).2.1, fun sc _ => ⟨_, rfl⟩⟩, fun e he => ?_⟩
  obtain ⟨hdescription, hpasses, _⟩ := hchecks.2 e he
  change IsText (Json.get e.members "what_passes" (e.get "description" (.str "")))
  change IsText (Json.get e.members "what_passes" (.str "")) at hpasses
  unfold Json.get at hpasses ⊢
  cases hmember : Json.member "what_passes" e.members with
  | none => exact hdescription
  | some v =>
      rw [hmember] at hpasses
      exact hpasses

end Assembly

section Main

variable {sha256 : String → String} {setupId orgId rfpId : String} {src : Sources}
  {replies : GapReplies} {criteria : List CriterionDict} {setup : EvaluationSetup}

/-- The merged criteria, over the dictionaries of the scoring criteria. -/
abbrev mergedOf (sha256 : String → String) (src : Sources) (replies : GapReplies)
    (criteria : List CriterionDict) : Merged :=
  filledIn sha256 replies (rfpGuides src)
    ((candidates src .mandatory).map (Candidate.check sha256)) criteria

theorem assembleSetup_eq_ok : assembleSetup sha256 setupId orgId rfpId src replies = .ok setup ↔
    (∀ kind, ∀ c ∈ (userLists src).of kind, Named c) ∧ (∀ kind, ∀ c ∈ src.rfp.of kind, Named c) ∧
      ∃ criteria, (candidates src .scoring).mapM (Candidate.criterion sha256) = .ok criteria ∧
        buildSetup setupId orgId rfpId (mergedOf sha256 src replies criteria) = .ok setup := by
  simp only [assembleSetup, bind_eq_ok, mergeCriteria_eq_ok]
  constructor
  · rintro ⟨_, ⟨huser, hrfp, criteria, hcriteria, rfl⟩, hbuild⟩
    exact ⟨huser, hrfp, criteria, hcriteria, hbuild⟩
  · rintro ⟨huser, hrfp, criteria, hcriteria, hbuild⟩
    exact ⟨_, ⟨huser, hrfp, criteria, hcriteria, rfl⟩, hbuild⟩

/-- The weights of the candidates are what their dictionaries hold. -/
theorem mapM_weight (h : (candidates src .scoring).mapM (Candidate.criterion sha256) = .ok criteria) :
    (candidates src .scoring).mapM Candidate.weight = .ok (criteria.map CriterionDict.weight) := by
  refine mapM_map_of_eq_ok h fun c sc hsc => ?_
  obtain ⟨weight, rubric, hw, _, rfl⟩ := criterion_eq_ok.mp hsc
  exact hw

/-- Validated criteria have the weights of their dictionaries. -/
theorem weights_of_valid {dicts : List CriterionDict} {valid : List ScoringCriterion}
    (h : dicts.mapM validateCriterion = .ok valid) :
    dicts.map CriterionDict.weight =
      (valid.map ScoringCriterion.weight).map PyFloat.fin := by
  rw [List.map_map]
  exact (map_eq_of_mapM h fun sc _ c hc => (validateCriterion_eq_ok.mp hc).2.2.1.symm).symm

theorem fin_injective : Function.Injective PyFloat.fin := fun _ _ h => PyFloat.fin.inj h

/-- The criteria of an assemblable request can be read. -/
theorem exists_criteria (sha256 : String → String) (h : Assemblable src replies) : ∃ criteria,
    (candidates src .scoring).mapM (Candidate.criterion sha256) = .ok criteria ∧ criteria ≠ [] := by
  obtain ⟨ws, hws, _⟩ := h.weights
  obtain ⟨criteria, hcriteria⟩ := (exists_mapM_eq_ok (f := Candidate.criterion sha256)).mpr fun c hc => by
    obtain ⟨weight, hw⟩ := (mapM_eq_ok.mp hws).1 c hc
    obtain ⟨rubric, hr, _⟩ := h.guides c hc
    exact ⟨_, criterion_eq_ok.mpr ⟨weight, rubric, hw, hr, rfl⟩⟩
  refine ⟨criteria, hcriteria, ?_⟩
  rintro rfl
  obtain ⟨c, cs, hcons⟩ := List.exists_cons_of_ne_nil h.scoring
  obtain ⟨sc, hsc⟩ := exists_mapM_eq_ok.mp ⟨_, hcriteria⟩ c (hcons ▸ List.mem_cons_self)
  exact absurd ((mem_of_mapM_eq_ok hcriteria).mpr ⟨c, hcons ▸ List.mem_cons_self, hsc⟩)
    List.not_mem_nil

/-- Balanced weights become weights that validation accepts. -/
theorem weights_valid (hne : criteria ≠ []) {ws : List ℚ}
    (hws : criteria.map CriterionDict.weight = ws.map PyFloat.fin)
    (hbalanced : WeightShares.Balanced ws) :
    ∃ ss : List ℚ, (mergedOf sha256 src replies criteria).scoringCriteria.map CriterionDict.weight =
        ss.map PyFloat.fin ∧
      (∀ s ∈ ss, 0 < s ∧ s ≤ 1) ∧ 99 / 100 ≤ ss.sum ∧ ss.sum ≤ 101 / 100 := by
  have hws' : ws ≠ [] := by
    rintro rfl
    exact hne (List.map_eq_nil_iff.mp hws)
  have hweights := @gaps_weights sha256 replies (rfpGuides src)
    ((candidates src .mandatory).map (Candidate.check sha256)) criteria hne
  rw [hws, shares_fin] at hweights
  exact ⟨_, hweights, (shares_valid_iff hws' (shares_fin ws)).mpr hbalanced⟩

/-- Validated criteria whose references resolve make a sound setup. -/
theorem buildSetup_sound {merged : Merged} {ss : List ℚ} (hchecks : merged.mandatoryChecks ≠ [])
    (htexts : ∀ mc ∈ merged.mandatoryChecks,
      IsText mc.description ∧ IsText mc.whatPasses ∧ IsOptionalText mc.pageReference)
    (hscoring : merged.scoringCriteria ≠ [])
    (hbands : ∀ sc ∈ merged.scoringCriteria,
      (∀ b, IsText (sc.rubric b)) ∧ IsOptionalText sc.pageReference)
    (hss : merged.scoringCriteria.map CriterionDict.weight = ss.map PyFloat.fin)
    (hrange : ∀ s ∈ ss, 0 < s ∧ s ≤ 1) (hsum : 99 / 100 ≤ ss.sum ∧ ss.sum ≤ 101 / 100)
    (htargets : ∀ t ∈ merged.extractionTargets, IsText t.description)
    (hrefer : ∀ mc ∈ merged.mandatoryChecks,
      mc.extractionTargetId ∈ merged.extractionTargets.map TargetDict.targetId)
    (hreferred : ∀ sc ∈ merged.scoringCriteria, ∀ id ∈ sc.extractionTargetIds,
      id ∈ merged.extractionTargets.map TargetDict.targetId) :
    ∃ setup, buildSetup setupId orgId rfpId merged = .ok setup ∧ Sound setup := by
  have hweights : ∀ sc ∈ merged.scoringCriteria, ∃ q : ℚ, sc.weight = .fin q ∧ 0 < q ∧ q ≤ 1 := by
    intro sc hsc
    have hmem : sc.weight ∈ ss.map PyFloat.fin := hss ▸ List.mem_map_of_mem hsc
    obtain ⟨q, hq, he⟩ := List.mem_map.mp hmem
    exact ⟨q, he.symm, hrange q hq⟩
  obtain ⟨checks, hcheck⟩ : ∃ checks, merged.mandatoryChecks.mapM validateCheck = .ok checks :=
    exists_mapM_eq_ok.mpr fun mc hmc => validateCheck_ok_iff.mpr (htexts mc hmc)
  obtain ⟨valid, hvalid⟩ : ∃ valid, merged.scoringCriteria.mapM validateCriterion = .ok valid :=
    exists_mapM_eq_ok.mpr fun sc hsc =>
      validateCriterion_ok_iff.mpr ⟨hweights sc hsc, hbands sc hsc⟩
  obtain ⟨targets, htarget⟩ : ∃ targets, merged.extractionTargets.mapM validateTarget = .ok targets :=
    exists_mapM_eq_ok.mpr fun t ht => validateTarget_ok_iff.mpr (htargets t ht)
  have hids : targets.map ExtractionTarget.targetId =
      merged.extractionTargets.map TargetDict.targetId :=
    map_eq_of_mapM htarget fun t _ target ht => by rw [(validateTarget_eq_ok.mp ht).2]
  have hvalues : valid.map ScoringCriterion.weight = ss := by
    rw [weights_of_valid hvalid] at hss
    exact List.map_injective_iff.mpr fin_injective hss
  have hresolved : ∀ check ∈ checks,
      check.extractionTargetId ∈ targets.map ExtractionTarget.targetId := by
    intro check hmem
    obtain ⟨mc, hmc, hval⟩ := (mem_of_mapM_eq_ok hcheck).mp hmem
    rw [(validateCheck_eq_ok.mp hval).2.2.2, hids]
    exact hrefer mc hmc
  have hscored : ∀ c ∈ valid, ∀ id ∈ c.extractionTargetIds,
      id ∈ targets.map ExtractionTarget.targetId := by
    intro c hc id hid
    obtain ⟨sc, hsc, hval⟩ := (mem_of_mapM_eq_ok hvalid).mp hc
    rw [(validateCriterion_eq_ok.mp hval).2.2.2.2.1] at hid
    rw [hids]
    exact hreferred sc hsc id hid
  have hsumOf : 99 / 100 ≤ sumOf valid ∧ sumOf valid ≤ 101 / 100 := by
    rw [sumOf, hvalues]
    exact hsum
  have htargeted : merged.extractionTargets ≠ [] := by
    obtain ⟨mc, rest, hcons⟩ := List.exists_cons_of_ne_nil hchecks
    intro hnone
    have hmem := hrefer mc (hcons ▸ List.mem_cons_self)
    rw [hnone] at hmem
    cases hmem
  have htotal : (PyFloat.sum (if merged.scoringCriteria.isEmpty
      then (defaultSetup setupId orgId rfpId).scoringCriteria.map (fun c => PyFloat.fin c.weight)
      else merged.scoringCriteria.map CriterionDict.weight)).round 3 =
      .fin (PyText.round (sumOf valid) 3) := by
    rw [if_neg (by simpa using hscoring), weights_of_valid hvalid, sum_fin]
    rfl
  obtain ⟨setup, hsetup⟩ :=
    @validateSetup_ok setupId orgId rfpId merged.source checks valid targets hsumOf hresolved
  refine ⟨setup, ?_, ?_⟩
  · simp only [buildSetup, bind_eq_ok]
    refine ⟨checks, orDefault_eq_ok.mpr (Or.inr ⟨hchecks, hcheck⟩), valid,
      orDefault_eq_ok.mpr (Or.inr ⟨hscoring, hvalid⟩), targets,
      orDefault_eq_ok.mpr (Or.inr ⟨htargeted, htarget⟩), ?_⟩
    rw [htotal]
    exact hsetup
  · obtain ⟨rfl, rfl, rfl⟩ := validateSetup_eq_ok hsetup
    exact ⟨fun c _ => ⟨c.weight_pos, c.weight_le_one⟩, hsumOf, hresolved, hscored⟩

variable (sha256 setupId orgId rfpId) in
theorem sound_of_assemblable (h : Assemblable src replies) :
    ∃ setup, assembleSetup sha256 setupId orgId rfpId src replies = .ok setup ∧ Sound setup := by
  obtain ⟨criteria, hcriteria, hne⟩ := exists_criteria sha256 h
  obtain ⟨ws, hws, hbalanced⟩ := h.weights
  rw [mapM_weight hcriteria] at hws
  obtain ⟨ss, hss, hrange, hsum⟩ := @weights_valid sha256 src replies criteria hne ws
    (Except.ok.inj hws) hbalanced
  have htexts : ∀ mc ∈ (mergedOf sha256 src replies criteria).mandatoryChecks,
      IsText mc.description ∧ IsText mc.whatPasses ∧ IsOptionalText mc.pageReference :=
    checks_valid_iff.mpr ⟨h.check_texts, fun hnone => (h.suggested_checks hnone).2⟩
  have hchecked : (mergedOf sha256 src replies criteria).mandatoryChecks ≠ [] :=
    checks_nonempty_iff.mpr fun hnone => (h.suggested_checks hnone).1
  obtain ⟨setup, hbuild, hsound⟩ := @buildSetup_sound setupId orgId rfpId
    (mergedOf sha256 src replies criteria) ss hchecked htexts
    (filledIn_scoring_eq_nil.not.mpr hne)
    ((scoring_valid_iff hne hcriteria).mpr ⟨h.guides, h.page_references⟩) hss hrange hsum
    (targets_valid htexts) (fun _ hmc => mem_targetIds_of_mem_checks hmc)
    (fun _ hsc _ hid => mem_targetIds_of_mem_scoring hne hsc hid)
  exact ⟨setup, assembleSetup_eq_ok.mpr ⟨h.user_named, h.rfp_named, criteria, hcriteria, hbuild⟩,
    hsound⟩

end Main

section Results

variable {sha256 : String → String} {setupId orgId rfpId : String} {src : Sources}
  {replies : GapReplies}

theorem length_sharesOf (ws : List ℚ) : (sharesOf ws).length = ws.length := by
  unfold sharesOf
  split <;> exact List.length_map _

/-- The rounding errors of up to twenty criteria never make weights unbalanced. -/
theorem balanced_iff_of_few {ws : List ℚ} (hfew : ws.length ≤ 20) : WeightShares.Balanced ws ↔
    if |ws.sum - 1| ≤ 1 / 100 then ∀ w ∈ ws, 0 < w ∧ w ≤ 1
    else ∀ s ∈ sharesOf ws, 1 / 2000 < s ∧ s ≤ 1 + 1 / 2000 := by
  have herror := @PyText.abs_sum_round_sub_le 3 (sharesOf ws)
  have hcast : (ws.length : ℚ) ≤ 20 := by exact_mod_cast hfew
  rw [length_sharesOf] at herror
  unfold WeightShares.Balanced
  split
  · exact Iff.rfl
  · refine and_iff_left ?_
    norm_num at herror ⊢
    linarith

example : ¬ WeightShares.Balanced (List.replicate 23 0) := by
  unfold WeightShares.Balanced
  decide +kernel

/-- With nothing in the sources and nothing suggested, everything is by default. -/
theorem assembleSetup_nothing (h : suggested replies.mandatoryChecks = []) :
    assembleSetup sha256 setupId orgId rfpId ⟨[], [], none, ⟨[], []⟩⟩ replies =
      .ok (defaultSetup setupId orgId rfpId) := by
  have hmerged : mergeCriteria sha256 ⟨[], [], none, ⟨[], []⟩⟩ =
      .ok ⟨[], [], [], none, "merged_empty"⟩ := rfl
  have hgaps : (detectAndFillGaps sha256 replies ⟨[], [], [], none, "merged_empty"⟩).1 =
      ⟨[], [], [], none, "merged_empty"⟩ := by
    simp [detectAndFillGaps, h]
  simp only [assembleSetup, hmerged]
  change buildSetup setupId orgId rfpId (detectAndFillGaps sha256 replies _).1 = _
  rw [hgaps]
  have htotal : (PyFloat.sum ((defaultSetup setupId orgId rfpId).scoringCriteria.map
      (fun c => PyFloat.fin c.weight))).round 3 = .fin 1 := by
    change (PyFloat.sum [.fin (1 / 2), .fin (1 / 2)]).round 3 = .fin 1
    decide +kernel
  have hsetup := (defaultSetup setupId orgId rfpId).every_check_has_extraction_target
  have hsum := (defaultSetup setupId orgId rfpId).weights_sum_to_one
  change validateSetup setupId orgId rfpId "merged_empty" _ _ _
    ((PyFloat.sum ((defaultSetup setupId orgId rfpId).scoringCriteria.map
      (fun c => PyFloat.fin c.weight))).round 3) = _
  rw [htotal]
  exact dif_pos ⟨by norm_num, hsum, hsetup⟩

/-- A request whose sources can be assembled is started. -/
theorem startEvaluation_assembled {draw : Draw} {user : TokenData} {req : StartRequest} {db : Db}
    (h : Assemblable src replies)
    (hsetup : draw.setup = assembleSetup sha256 setupId orgId rfpId src replies)
    (hrole : user.role ∈ writeRoles) (hfresh : ∀ run ∈ db.runs, run.runId ≠ draw.runId) :
    ∃ setup runs, startEvaluation draw user req db = .ok { runs := runs, setups := setup :: db.setups } ∧
      Sound setup := by
  obtain ⟨setup, hassembled, hsound⟩ := sound_of_assemblable sha256 setupId orgId rfpId h
  rw [hassembled] at hsetup
  obtain ⟨row, hid, hstart⟩ : ∃ row : RunRow, row.runId = draw.runId ∧
      startEvaluation draw user req db = (orRaise (db.runs.insert? row) duplicateKey).map
        (fun runs => { runs := runs, setups := setup :: db.setups }) := by
    refine ⟨?row, ?id, ?start⟩
    case start =>
      rw [startEvaluation, requireWriteRole, (raiseIf_eq_ok (r := ())).mpr (not_not.mpr hrole), hsetup,
        map_eq_bind]
      rfl
    case id => rfl
  obtain ⟨runs, hruns⟩ := KeyedTable.exists_insert? fun run hrun => hid ▸ hfresh run hrun
  exact ⟨setup, runs, by rw [hstart, hruns]; rfl, hsound⟩

def idle : LlmReply := .raised ⟨.external, "Connection error."⟩

end Results

end RfpPlatform.SetupAssembly
