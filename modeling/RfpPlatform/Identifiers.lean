import Mathlib.Data.Bool.AllAny
import RfpPlatform.MergedCriteria

namespace RfpPlatform.Identifiers

open CriteriaMerge ExceptRules FirstWins MergedCriteria PyText

section Codes

variable {s t label label' code code' : String} {n : Nat}

def hexDigits : List Char := "0123456789abcdef".toList

/-- A text that starts with eight lower-case hexadecimal digits, as a UUID does. -/
structure HexHead (s : String) : Prop where
  long : 8 ≤ s.length
  digits : ∀ c ∈ s.toList.take 8, c ∈ hexDigits

theorem length_code (h : 8 ≤ s.length) : (prefixOf 8 s).toUpper.length = 8 := by
  rw [← String.length_toList, String.toUpper, String.toList_map, List.length_map, prefixOf,
    String.toList_ofList, List.length_take, String.length_toList]
  exact Nat.min_eq_left h

theorem toUpper_injOn : ∀ c ∈ hexDigits, ∀ d ∈ hexDigits, c.toUpper = d.toUpper → c = d := by
  have hall : hexDigits.all (fun c =>
      hexDigits.all (fun d => c.toUpper = d.toUpper → c = d)) = true := by decide
  exact fun c hc => List.all_iff_forall_prop.mp (List.all_eq_true.mp hall c hc)

/-- Upper-casing keeps the digits of two ids apart. -/
theorem prefix_eq_of_code_eq (hs : HexHead s) (ht : HexHead t)
    (h : (prefixOf 8 s).toUpper = (prefixOf 8 t).toUpper) : prefixOf 8 s = prefixOf 8 t := by
  have hmap := congrArg String.toList h
  rw [String.toUpper, String.toUpper, String.toList_map, String.toList_map, prefixOf, prefixOf,
    String.toList_ofList, String.toList_ofList] at hmap
  have heq : s.toList.take 8 = t.toList.take 8 := by
    have hlength := congrArg List.length hmap
    rw [List.length_map, List.length_map] at hlength
    refine List.ext_getElem hlength fun i hi hj => ?_
    have hchar := List.getElem_of_eq hmap (by rwa [List.length_map])
    rw [List.getElem_map, List.getElem_map] at hchar
    exact toUpper_injOn _ (hs.digits _ (List.getElem_mem hi)) _
      (ht.digits _ (List.getElem_mem hj)) hchar
  rw [prefixOf, prefixOf, heq]

theorem append_code_inj (hlength : code.length = code'.length)
    (h : label ++ code = label' ++ code') : label = label' ∧ code = code' := by
  have hlist := congrArg String.toList h
  rw [String.toList_append, String.toList_append] at hlist
  rw [← String.length_toList, ← String.length_toList] at hlength
  obtain ⟨hlabel, hcode⟩ := List.append_inj' hlist hlength
  exact ⟨String.toList_injective hlabel, String.toList_injective hcode⟩

theorem append_left_inj (h : label ++ code = label ++ code') : code = code' := by
  have hlist := congrArg String.toList h
  rw [String.toList_append, String.toList_append] at hlist
  exact String.toList_injective (List.append_cancel_left hlist)

theorem lastOf_append (h : code.length = n) : lastOf n (label ++ code) = code := by
  rw [lastOf, String.length_append, h, Nat.add_sub_cancel, String.toList_append,
    ← String.length_toList, List.drop_left, String.ofList_toList]

end Codes

section Candidates

/-- The template that a row comes from. -/
def template? : Candidate → Option Template
  | .org t | .dept t => some t
  | .user _ | .rfp _ => none

def label : Candidate → String
  | .org _ => "ORG-"
  | .dept _ => "DEPT-"
  | .user _ => "USER-"
  | .rfp _ => "RFP-"

/-- What the stable id of an entry is made of. -/
def parts (kind : CheckType) (c : Candidate) : List String := [c.source, kind.code, c.key]

def generatedParts (e : Entry) : List String := ["gen", "mc", normalizeName e.name]

def kinds : List CheckType := [.mandatory, .scoring]

/-- Everything that a stable id can be made of. -/
def partsAtHand (src : Sources) (replies : GapReplies) : List (List String) :=
  kinds.flatMap (fun kind => (entries ((userLists src).of kind)).map (fun e => parts kind (.user e)) ++
    (entries (src.rfp.of kind)).map (fun e => parts kind (.rfp e))) ++
  (suggested replies.mandatoryChecks).map generatedParts

/-- The last eight characters of the ids that are made for a candidate. -/
def code (sha256 : String → String) (kind : CheckType) (c : Candidate) : String :=
  (template? c).elim (stableId sha256 (parts kind c)) (fun t => (prefixOf 8 t.templateId).toUpper)

/-- No template that is kept has the start of its id as the stable id of an entry that is kept. -/
def PrefixesApart (sha256 : String → String) (src : Sources) : Prop :=
  ∀ c ∈ candidates src .scoring, ∀ d ∈ candidates src .scoring, ∀ t, template? c = some t →
    template? d = none → (prefixOf 8 t.templateId).toUpper ≠ stableId sha256 (parts .scoring d)

/-- Two candidates that differ in the start of their ids, or in their names. -/
structure Apart (c d : Candidate) : Prop where
  prefixes : ∀ t u, template? c = some t → template? d = some u →
    prefixOf 8 t.templateId ≠ prefixOf 8 u.templateId
  keys : template? c = none → template? d = none → c.key ≠ d.key

variable {sha256 : String → String} {src : Sources} {replies : GapReplies} {kind : CheckType}
  {c d : Candidate} {t : Template}

theorem tag_eq : c.tag sha256 kind = label c ++ code sha256 kind c := by
  cases c <;> rfl

theorem isSome_of_label (h : label c = label d) :
    (template? c).isSome = (template? d).isSome := by
  cases c <;> cases d <;> first | rfl | simp [label] at h

theorem mem_sources (h : c ∈ candidates src kind) :
    c ∈ orgCandidates src kind ++ laterCandidates src kind :=
  (kept_sublist _ _).subset h

theorem template_mem (h : c ∈ candidates src kind) (ht : template? c = some t) :
    t ∈ src.org ++ src.dept := by
  have hsource := mem_sources h
  simp only [orgCandidates, laterCandidates, List.mem_append, List.mem_map, List.mem_filter] at hsource
  rcases hsource with ⟨u, ⟨hu, _⟩, rfl⟩ | (⟨u, ⟨hu, _⟩, rfl⟩ | ⟨e, _, rfl⟩) | ⟨e, _, rfl⟩
  · obtain rfl := Option.some.inj ht
    exact List.mem_append_left _ hu
  · obtain rfl := Option.some.inj ht
    exact List.mem_append_right _ hu
  · cases ht
  · cases ht

theorem mem_kinds (kind : CheckType) : kind ∈ kinds := by
  cases kind <;> decide

theorem parts_mem (h : c ∈ candidates src kind) (hc : template? c = none) :
    parts kind c ∈ partsAtHand src replies := by
  refine List.mem_append_left _ (List.mem_flatMap.mpr ⟨kind, mem_kinds kind, ?_⟩)
  have hsource := mem_sources h
  simp only [orgCandidates, laterCandidates, List.mem_append, List.mem_map, List.mem_filter] at hsource
  rcases hsource with ⟨u, _, rfl⟩ | (⟨u, _, rfl⟩ | ⟨e, he, rfl⟩) | ⟨e, he, rfl⟩
  · cases hc
  · cases hc
  · exact List.mem_append_left _ (List.mem_map_of_mem he)
  · exact List.mem_append_right _ (List.mem_map_of_mem he)

theorem length_code_of_mem (hdigest : ∀ s, (sha256 s).length = 64)
    (huuid : ∀ t ∈ src.org ++ src.dept, HexHead t.templateId) (h : c ∈ candidates src kind) :
    (code sha256 kind c).length = 8 := by
  cases ht : template? c with
  | none =>
      rw [code, ht]
      exact length_code (hdigest _ ▸ by decide)
  | some t =>
      rw [code, ht]
      exact length_code (huuid t (template_mem h ht)).long

theorem filterMap_orgCandidates :
    (orgCandidates src kind).filterMap template? = src.org.filter (fun t => t.checkType = kind) := by
  rw [orgCandidates, List.filterMap_map]
  exact List.filterMap_some

theorem filterMap_laterCandidates : (laterCandidates src kind).filterMap template? =
    src.dept.filter (fun t => t.checkType = kind) := by
  have hnone : ∀ (make : Entry → Candidate) (es : List Entry), (∀ e, template? (make e) = none) →
      (es.map make).filterMap template? = [] := by
    intro make es hmake
    rw [List.filterMap_map, List.filterMap_eq_nil_iff]
    exact fun e _ => hmake e
  rw [laterCandidates, List.filterMap_append, List.filterMap_append,
    hnone .user _ (fun _ => rfl), hnone .rfp _ (fun _ => rfl), List.append_nil, List.append_nil,
    List.filterMap_map]
  exact List.filterMap_some

/-- The candidates that are kept are apart from each other. -/
theorem pairwise_apart
    (hheads : ((src.org ++ src.dept).map (fun t => prefixOf 8 t.templateId)).Nodup) :
    (candidates src kind).Pairwise Apart := by
  have hprefixes : (candidates src kind).Pairwise (fun c d => ∀ t, template? c = some t →
      ∀ u, template? d = some u → prefixOf 8 t.templateId ≠ prefixOf 8 u.templateId) := by
    rw [← List.pairwise_filterMap (R := fun t u : Template =>
      prefixOf 8 t.templateId ≠ prefixOf 8 u.templateId)]
    have hsub : ((candidates src kind).filterMap template?).Sublist
        ((orgCandidates src kind ++ laterCandidates src kind).filterMap template?) :=
      (kept_sublist _ _).filterMap template?
    rw [List.filterMap_append, filterMap_orgCandidates, filterMap_laterCandidates] at hsub
    exact (List.pairwise_map.mp hheads).sublist
      (hsub.trans (List.filter_sublist.append List.filter_sublist))
  have hkeys : (candidates src kind).Pairwise
      (fun c d => template? c = none → template? d = none → c.key ≠ d.key) := by
    refine List.pairwise_append.mpr ⟨?_, ?_, ?_⟩
    · refine List.pairwise_of_forall_mem_list fun c hc d _ hnone => ?_
      obtain ⟨t, _, rfl⟩ := List.mem_map.mp hc
      cases hnone
    · exact (List.pairwise_map.mp (nodup_fresh_keys _)).imp fun h _ _ => h
    · intro c hc d _ hnone
      obtain ⟨t, _, rfl⟩ := List.mem_map.mp hc
      cases hnone
  exact hprefixes.imp₂ (fun c d hp hk => ⟨fun t u ht hu => hp t ht u hu, hk⟩) hkeys

theorem parts_ne (h : Apart c d) (hc : template? c = none) (hd : template? d = none) :
    parts kind c ≠ parts kind d := by
  intro heq
  rw [parts, parts] at heq
  exact h.keys hc hd (List.cons.inj (List.cons.inj (List.cons.inj heq).2).2).1

/-- Two templates, and two entries, have codes of their own. -/
theorem code_ne (huuid : ∀ t ∈ src.org ++ src.dept, HexHead t.templateId)
    (hstable : Set.InjOn (stableId sha256) {p | p ∈ partsAtHand src replies})
    (hc : c ∈ candidates src kind) (hd : d ∈ candidates src kind) (h : Apart c d)
    (hsame : (template? c).isSome = (template? d).isSome) :
    code sha256 kind c ≠ code sha256 kind d := by
  intro heq
  rw [code, code] at heq
  cases ht : template? c with
  | none =>
      cases hu : template? d with
      | none =>
          rw [ht, hu] at heq
          exact parts_ne h ht hu (hstable (parts_mem hc ht) (parts_mem hd hu) heq)
      | some u =>
          rw [ht, hu] at hsame
          cases hsame
  | some t =>
      cases hu : template? d with
      | none =>
          rw [ht, hu] at hsame
          cases hsame
      | some u =>
          rw [ht, hu] at heq
          exact h.prefixes t u ht hu (prefix_eq_of_code_eq (huuid t (template_mem hc ht))
            (huuid u (template_mem hd hu)) heq)

theorem nodup_tags (hdigest : ∀ s, (sha256 s).length = 64)
    (huuid : ∀ t ∈ src.org ++ src.dept, HexHead t.templateId)
    (hheads : ((src.org ++ src.dept).map (fun t => prefixOf 8 t.templateId)).Nodup)
    (hstable : Set.InjOn (stableId sha256) {p | p ∈ partsAtHand src replies}) :
    ((candidates src kind).map (Candidate.tag sha256 kind)).Nodup := by
  refine List.pairwise_map.mpr ((pairwise_apart hheads).imp_of_mem fun {c d} hc hd h heq => ?_)
  have hlengths := (length_code_of_mem hdigest huuid hc).trans
    (length_code_of_mem hdigest huuid hd).symm
  rw [tag_eq, tag_eq] at heq
  obtain ⟨hlabel, hcode⟩ := append_code_inj hlengths heq
  exact code_ne huuid hstable hc hd h (isSome_of_label hlabel) hcode

/-- The codes of the scoring criteria are distinct exactly when the templates' are apart from those
of the entries. -/
theorem nodup_codes_iff (huuid : ∀ t ∈ src.org ++ src.dept, HexHead t.templateId)
    (hheads : ((src.org ++ src.dept).map (fun t => prefixOf 8 t.templateId)).Nodup)
    (hstable : Set.InjOn (stableId sha256) {p | p ∈ partsAtHand src replies}) :
    ((candidates src .scoring).map (code sha256 .scoring)).Nodup ↔ PrefixesApart sha256 src := by
  constructor
  · intro hnodup c hc d hd t ht hnone heq
    have hsame : code sha256 .scoring c = code sha256 .scoring d := by
      rw [code, code, ht, hnone]
      exact heq
    rw [List.inj_on_of_nodup_map hnodup hc hd hsame, hnone] at ht
    cases ht
  · intro happart
    refine List.pairwise_map.mpr ((pairwise_apart hheads).imp_of_mem fun {c d} hc hd h heq => ?_)
    by_cases hsame : (template? c).isSome = (template? d).isSome
    · exact code_ne huuid hstable hc hd h hsame heq
    · cases ht : template? c with
      | none =>
          cases hu : template? d with
          | none => exact hsame (by rw [ht, hu])
          | some u =>
              rw [code, code, ht, hu] at heq
              exact happart d hd c hc u hu ht heq.symm
      | some t =>
          cases hu : template? d with
          | none =>
              rw [code, code, ht, hu] at heq
              exact happart c hc d hd t ht hu heq
          | some u => exact hsame (by rw [ht, hu]; rfl)

end Candidates

section Targets

/-- The ids are distinct, and each target feeds the check or the criterion that refers to it. -/
structure Identified (merged : Merged) : Prop where
  check_ids : (merged.mandatoryChecks.map CheckDict.checkId).Nodup
  criterion_ids : (merged.scoringCriteria.map CriterionDict.criterionId).Nodup
  target_ids : (merged.extractionTargets.map TargetDict.targetId).Nodup
  check_targets : ∀ mc ∈ merged.mandatoryChecks, ∃ t ∈ merged.extractionTargets,
    mc.extractionTargetId = t.targetId
  criterion_targets : ∀ sc ∈ merged.scoringCriteria, ∀ id ∈ sc.extractionTargetIds,
    ∃ t ∈ merged.extractionTargets, id = t.targetId
  feeds_check : ∀ t ∈ merged.extractionTargets, ∀ mc ∈ merged.mandatoryChecks,
    t.feedsCheckId = some mc.checkId ↔ mc.extractionTargetId = t.targetId
  feeds_criterion : ∀ t ∈ merged.extractionTargets, ∀ sc ∈ merged.scoringCriteria,
    t.feedsCriterionId = some sc.criterionId ↔ t.targetId ∈ sc.extractionTargetIds
  referred : ∀ t ∈ merged.extractionTargets,
    (∃ mc ∈ merged.mandatoryChecks, mc.extractionTargetId = t.targetId) ∨
      ∃ sc ∈ merged.scoringCriteria, t.targetId ∈ sc.extractionTargetIds

/-- The id of a target, and the ids that it feeds. -/
structure Link where
  targetId : String
  checkId : Option String
  criterionId : Option String

def link (t : TargetDict) : Link := ⟨t.targetId, t.feedsCheckId, t.feedsCriterionId⟩

def checkLink (mc : CheckDict) : Link := ⟨mc.extractionTargetId, some mc.checkId, none⟩

def criterionLink (sc : CriterionDict) : Link := ⟨scoringTargetId sc, none, some sc.criterionId⟩

/-- The ids of a check are made of one text, which is none of a criterion's. -/
structure Tagged (mc : CheckDict) (tag : String) : Prop where
  checkId : mc.checkId = "MC-" ++ tag
  targetId : mc.extractionTargetId = "ET-" ++ tag
  origin : ∃ label ∈ ["ORG-", "DEPT-", "USER-", "RFP-", "GEN-"], ∃ code,
    tag = label ++ code ∧ code.length = 8

/-- The parts of a merge whose targets are those of its checks and criteria. -/
structure Linked (merged : Merged) : Prop where
  links : (merged.extractionTargets.map link).Perm
    (merged.mandatoryChecks.map checkLink ++ merged.scoringCriteria.map criterionLink)
  tagged : ∀ mc ∈ merged.mandatoryChecks, ∃ tag, Tagged mc tag
  coded : ∀ sc ∈ merged.scoringCriteria, sc.extractionTargetIds = [scoringTargetId sc] ∧
    ∃ code, scoringTargetId sc = "ET-SC-" ++ code ∧ code.length = 8

variable {merged : Merged} {mc mc' : CheckDict} {sc : CriterionDict} {tag tag' : String}

theorem check_id_iff (h : Tagged mc tag) (h' : Tagged mc' tag') :
    mc.checkId = mc'.checkId ↔ mc.extractionTargetId = mc'.extractionTargetId := by
  rw [h.checkId, h'.checkId, h.targetId, h'.targetId]
  exact ⟨fun heq => congrArg _ (append_left_inj heq), fun heq => congrArg _ (append_left_inj heq)⟩

/-- A check and a criterion have different targets. -/
theorem target_ids_ne (h : Tagged mc tag) {code : String}
    (hsc : scoringTargetId sc = "ET-SC-" ++ code) (hcode : code.length = 8) :
    mc.extractionTargetId ≠ scoringTargetId sc := by
  obtain ⟨label, hlabel, own, rfl, hown⟩ := h.origin
  intro heq
  rw [h.targetId, hsc, ← String.append_assoc] at heq
  have hlabels : ∀ label ∈ ["ORG-", "DEPT-", "USER-", "RFP-", "GEN-"],
      "ET-" ++ label ≠ "ET-SC-" := by decide
  exact hlabels label hlabel (append_code_inj (hown.trans hcode.symm) heq).1

theorem origin_of_target (h : Linked merged) {t : TargetDict} (ht : t ∈ merged.extractionTargets) :
    (∃ mc ∈ merged.mandatoryChecks, link t = checkLink mc) ∨
      ∃ sc ∈ merged.scoringCriteria, link t = criterionLink sc := by
  rcases List.mem_append.mp (h.links.subset (List.mem_map_of_mem ht)) with hlink | hlink
  · obtain ⟨mc, hmc, heq⟩ := List.mem_map.mp hlink
    exact .inl ⟨mc, hmc, heq.symm⟩
  · obtain ⟨sc, hsc, heq⟩ := List.mem_map.mp hlink
    exact .inr ⟨sc, hsc, heq.symm⟩

theorem target_of_link (h : Linked merged) {l : Link}
    (hl : l ∈ merged.mandatoryChecks.map checkLink ++ merged.scoringCriteria.map criterionLink) :
    ∃ t ∈ merged.extractionTargets, l.targetId = t.targetId := by
  obtain ⟨t, ht, rfl⟩ := List.mem_map.mp (h.links.symm.subset hl)
  exact ⟨t, ht, rfl⟩

theorem targetIds_perm (h : Linked merged) :
    (merged.extractionTargets.map TargetDict.targetId).Perm
      (merged.mandatoryChecks.map CheckDict.extractionTargetId ++
        merged.scoringCriteria.map scoringTargetId) := by
  have hperm := h.links.map Link.targetId
  rw [List.map_append, List.map_map, List.map_map, List.map_map] at hperm
  exact hperm

theorem targets_apart (h : Linked merged) (hmc : mc ∈ merged.mandatoryChecks)
    (hsc : sc ∈ merged.scoringCriteria) : mc.extractionTargetId ≠ scoringTargetId sc := by
  obtain ⟨tag, htag⟩ := h.tagged mc hmc
  obtain ⟨_, code, hcode, hlength⟩ := h.coded sc hsc
  exact target_ids_ne htag hcode hlength

theorem nodup_targetIds (h : Linked merged)
    (hchecks : (merged.mandatoryChecks.map CheckDict.checkId).Nodup)
    (htargets : (merged.scoringCriteria.map scoringTargetId).Nodup) :
    (merged.extractionTargets.map TargetDict.targetId).Nodup := by
  refine (targetIds_perm h).nodup_iff.mpr (List.nodup_append.mpr ⟨?_, htargets, ?_⟩)
  · refine List.pairwise_map.mpr ((List.pairwise_map.mp hchecks).imp_of_mem ?_)
    intro mc mc' hmc hmc' hne heq
    obtain ⟨tag, htag⟩ := h.tagged mc hmc
    obtain ⟨tag', htag'⟩ := h.tagged mc' hmc'
    exact hne ((check_id_iff htag htag').mpr heq)
  · intro id hid id' hid' heq
    obtain ⟨mc, hmc, rfl⟩ := List.mem_map.mp hid
    obtain ⟨sc, hsc, rfl⟩ := List.mem_map.mp hid'
    exact targets_apart h hmc hsc heq

theorem feeds_check_iff (h : Linked merged) {t : TargetDict} (ht : t ∈ merged.extractionTargets)
    (hmc : mc ∈ merged.mandatoryChecks) :
    t.feedsCheckId = some mc.checkId ↔ mc.extractionTargetId = t.targetId := by
  obtain ⟨tag, htag⟩ := h.tagged mc hmc
  rcases origin_of_target h ht with ⟨mc', hmc', hlink⟩ | ⟨sc, hsc, hlink⟩
  · obtain ⟨tag', htag'⟩ := h.tagged mc' hmc'
    have hfeeds : t.feedsCheckId = some mc'.checkId := congrArg Link.checkId hlink
    have hid : t.targetId = mc'.extractionTargetId := congrArg Link.targetId hlink
    rw [hfeeds, hid, Option.some.injEq, check_id_iff htag' htag]
    exact eq_comm
  · have hfeeds : t.feedsCheckId = none := congrArg Link.checkId hlink
    have hid : t.targetId = scoringTargetId sc := congrArg Link.targetId hlink
    rw [hfeeds, hid]
    exact iff_of_false (fun heq => by cases heq) (targets_apart h hmc hsc)

theorem feeds_criterion_iff (h : Linked merged)
    (htargets : (merged.scoringCriteria.map scoringTargetId).Nodup) {t : TargetDict}
    (ht : t ∈ merged.extractionTargets) (hsc : sc ∈ merged.scoringCriteria) :
    t.feedsCriterionId = some sc.criterionId ↔ t.targetId ∈ sc.extractionTargetIds := by
  rw [(h.coded sc hsc).1, List.mem_singleton]
  rcases origin_of_target h ht with ⟨mc, hmc, hlink⟩ | ⟨sc', hsc', hlink⟩
  · have hfeeds : t.feedsCriterionId = none := congrArg Link.criterionId hlink
    have hid : t.targetId = mc.extractionTargetId := congrArg Link.targetId hlink
    rw [hfeeds, hid]
    exact iff_of_false (fun heq => by cases heq) (targets_apart h hmc hsc)
  · have hfeeds : t.feedsCriterionId = some sc'.criterionId := congrArg Link.criterionId hlink
    have hid : t.targetId = scoringTargetId sc' := congrArg Link.targetId hlink
    rw [hfeeds, hid, Option.some.injEq]
    constructor
    · intro heq
      rw [scoringTargetId, scoringTargetId, heq]
    · intro heq
      rw [List.inj_on_of_nodup_map htargets hsc' hsc heq]

/-- Linked parts are identified as soon as the ids of the checks and the criteria and the targets of
the criteria are distinct. -/
theorem identified_iff_of_linked (h : Linked merged) : Identified merged ↔
    (merged.mandatoryChecks.map CheckDict.checkId).Nodup ∧
      (merged.scoringCriteria.map CriterionDict.criterionId).Nodup ∧
      (merged.scoringCriteria.map scoringTargetId).Nodup := by
  constructor
  · intro hids
    exact ⟨hids.check_ids, hids.criterion_ids,
      ((targetIds_perm h).nodup_iff.mp hids.target_ids).of_append_right⟩
  · rintro ⟨hchecks, hcriteria, htargets⟩
    refine ⟨hchecks, hcriteria, nodup_targetIds h hchecks htargets, fun mc hmc => ?_,
      fun sc hsc id hid => ?_, fun t ht mc hmc => feeds_check_iff h ht hmc,
      fun t ht sc hsc => feeds_criterion_iff h htargets ht hsc, fun t ht => ?_⟩
    · exact target_of_link h (List.mem_append_left _ (List.mem_map_of_mem hmc))
    · rw [(h.coded sc hsc).1, List.mem_singleton] at hid
      obtain ⟨t, ht, heq⟩ := target_of_link h (List.mem_append_right _ (List.mem_map_of_mem hsc))
      exact ⟨t, ht, hid.trans heq⟩
    · rcases origin_of_target h ht with ⟨mc, hmc, hlink⟩ | ⟨sc, hsc, hlink⟩
      · exact .inl ⟨mc, hmc, (congrArg Link.targetId hlink).symm⟩
      · refine .inr ⟨sc, hsc, ?_⟩
        rw [(h.coded sc hsc).1, List.mem_singleton]
        exact congrArg Link.targetId hlink

end Targets

section Merging

variable {sha256 : String → String} {src : Sources} {replies : GapReplies} {merged : Merged}
  {guides : Guides} {checks : List CheckDict} {criteria : List CriterionDict} {sc : CriterionDict}

theorem guidedBy_criterionId (offer : Option Guides) :
    (guidedBy offer sc).criterionId = sc.criterionId := by
  cases offer with
  | none => rfl
  | some guides =>
      rw [guidedBy, Option.elim_some, applyGuide]
      split <;> rfl

theorem filledIn_criterionIds :
    (filledIn sha256 replies guides checks criteria).scoringCriteria.map CriterionDict.criterionId =
      criteria.map CriterionDict.criterionId := by
  by_cases hcriteria : criteria = []
  · rw [filledIn_scoring_eq_nil.mpr hcriteria, hcriteria]
  · obtain ⟨weightOf, hscoring, _⟩ := finish_scoring guides checks hcriteria
    rw [filledIn, gaps_scoring, hscoring, List.map_map, List.map_map]
    exact List.map_congr_left fun sc _ => guidedBy_criterionId _

theorem filledIn_scoringTargets
    (h : sc ∈ (filledIn sha256 replies guides checks criteria).scoringCriteria) :
    sc.extractionTargetIds = [scoringTargetId sc] := by
  by_cases hcriteria : criteria = []
  · rw [filledIn_scoring_eq_nil.mpr hcriteria] at h
    cases h
  · obtain ⟨weightOf, hscoring, _⟩ := finish_scoring guides checks hcriteria
    rw [filledIn, gaps_scoring, hscoring, List.map_map] at h
    obtain ⟨own, _, rfl⟩ := List.mem_map.mp h
    rw [Function.comp_apply, (guidedBy_frame _).2.2, scoringTargetId, scoringTargetId,
      guidedBy_criterionId]
    rfl

/-- What is made of the ids of the criteria is made of those before the gaps are filled. -/
theorem map_filledIn {β : Type} {f : CriterionDict → β} {g : String → β}
    (hf : ∀ sc, f sc = g sc.criterionId) :
    (filledIn sha256 replies guides checks criteria).scoringCriteria.map f = criteria.map f := by
  have hids := congrArg (List.map g) (@filledIn_criterionIds sha256 replies guides checks criteria)
  rw [List.map_map, List.map_map] at hids
  rw [show f = g ∘ CriterionDict.criterionId from funext hf]
  exact hids

theorem ids_of_criteria (hcriteria :
    (candidates src .scoring).mapM (Candidate.criterion sha256) = .ok criteria) :
    criteria.map CriterionDict.criterionId =
      (candidates src .scoring).map (fun c => "SC-" ++ c.tag sha256 .scoring) :=
  map_eq_of_mapM hcriteria fun c _ sc hsc => by
    obtain ⟨weight, rubric, _, _, rfl⟩ := criterion_eq_ok.mp hsc
    rfl

theorem filledIn_links :
    ((filledIn sha256 replies guides checks criteria).extractionTargets.map link).Perm
      ((filledIn sha256 replies guides checks criteria).mandatoryChecks.map checkLink ++
        (filledIn sha256 replies guides checks criteria).scoringCriteria.map criterionLink) := by
  have hcriteria := @map_filledIn sha256 replies guides checks criteria Link criterionLink
    (fun id => ⟨s!"ET-SC-{lastOf 8 id}", none, some id⟩) (fun _ => rfl)
  rw [filledIn_targets, filledIn_checks, hcriteria, List.map_append, List.map_append,
    List.map_append, List.map_map, List.map_map, List.map_map, List.map_map, List.append_assoc,
    List.append_assoc]
  exact List.perm_append_comm.append_left _

theorem length_stableId (hdigest : ∀ s, (sha256 s).length = 64) (ps : List String) :
    (stableId sha256 ps).length = 8 :=
  length_code (hdigest _ ▸ by decide)

theorem tagged_check (hdigest : ∀ s, (sha256 s).length = 64)
    (huuid : ∀ t ∈ src.org ++ src.dept, HexHead t.templateId) {c : Candidate}
    (hc : c ∈ candidates src .mandatory) :
    Tagged (c.check sha256) (c.tag sha256 .mandatory) where
  checkId := rfl
  targetId := rfl
  origin := by
    refine ⟨label c, ?_, code sha256 .mandatory c, tag_eq, length_code_of_mem hdigest huuid hc⟩
    cases c <;> simp [label]

theorem tagged_generated (hdigest : ∀ s, (sha256 s).length = 64) (e : Entry) :
    Tagged (generatedCheck sha256 e) ("GEN-" ++ generatedId sha256 e) where
  checkId := by
    rw [← String.append_assoc]
    rfl
  targetId := by
    rw [← String.append_assoc]
    rfl
  origin := ⟨"GEN-", by decide, _, rfl, length_stableId hdigest _⟩

/-- The last eight characters of a criterion's id are its code. -/
theorem scoringTargetId_eq (hdigest : ∀ s, (sha256 s).length = 64)
    (huuid : ∀ t ∈ src.org ++ src.dept, HexHead t.templateId) {c : Candidate}
    (hc : c ∈ candidates src .scoring) (hid : sc.criterionId = "SC-" ++ c.tag sha256 .scoring) :
    scoringTargetId sc = "ET-SC-" ++ code sha256 .scoring c := by
  rw [tag_eq, ← String.append_assoc] at hid
  rw [scoringTargetId, hid, lastOf_append (length_code_of_mem hdigest huuid hc)]
  rfl

theorem linked_filledIn (hdigest : ∀ s, (sha256 s).length = 64)
    (huuid : ∀ t ∈ src.org ++ src.dept, HexHead t.templateId)
    (hcriteria : (candidates src .scoring).mapM (Candidate.criterion sha256) = .ok criteria) :
    Linked (filledIn sha256 replies guides
      ((candidates src .mandatory).map (Candidate.check sha256)) criteria) where
  links := filledIn_links
  tagged mc hmc := by
    rw [filledIn_checks] at hmc
    rcases List.mem_append.mp hmc with hmc | hmc
    · obtain ⟨c, hc, rfl⟩ := List.mem_map.mp hmc
      exact ⟨_, tagged_check hdigest huuid hc⟩
    · obtain ⟨e, _, rfl⟩ := List.mem_map.mp hmc
      exact ⟨_, tagged_generated hdigest e⟩
  coded sc hsc := by
    refine ⟨filledIn_scoringTargets hsc, ?_⟩
    have hid := List.mem_map_of_mem (f := CriterionDict.criterionId) hsc
    rw [filledIn_criterionIds, ids_of_criteria hcriteria] at hid
    obtain ⟨c, hc, heq⟩ := List.mem_map.mp hid
    exact ⟨_, scoringTargetId_eq hdigest huuid hc heq.symm, length_code_of_mem hdigest huuid hc⟩

/-- The names of suggestions tell their ids. -/
theorem nodup_generated_iff (hstable : Set.InjOn (stableId sha256) {p | p ∈ partsAtHand src replies})
    {es : List Entry} (hes : es ⊆ suggested replies.mandatoryChecks) :
    (es.map (fun e => (generatedCheck sha256 e).checkId)).Nodup ↔
      (es.map (fun e => normalizeName e.name)).Nodup := by
  have hid : ∀ e ∈ es, ∀ e' ∈ es, (generatedCheck sha256 e).checkId = (generatedCheck sha256 e').checkId ↔
      normalizeName e.name = normalizeName e'.name := by
    intro e he e' he'
    constructor
    · intro heq
      have hparts : ∀ e ∈ es, generatedParts e ∈ partsAtHand src replies := fun e he =>
        List.mem_append_right _ (List.mem_map_of_mem (hes he))
      have hsame := hstable (hparts e he) (hparts e' he') (append_left_inj heq)
      rw [generatedParts, generatedParts] at hsame
      exact (List.cons.inj (List.cons.inj (List.cons.inj hsame).2).2).1
    · intro heq
      rw [generatedCheck, generatedCheck, generatedId, generatedId, heq]
  refine List.pairwise_map.trans (Iff.trans ?_ List.pairwise_map.symm)
  exact List.Pairwise.iff_of_mem fun he he' => not_congr (hid _ he _ he')

theorem nodup_checkIds_iff (hdigest : ∀ s, (sha256 s).length = 64)
    (huuid : ∀ t ∈ src.org ++ src.dept, HexHead t.templateId)
    (hheads : ((src.org ++ src.dept).map (fun t => prefixOf 8 t.templateId)).Nodup)
    (hstable : Set.InjOn (stableId sha256) {p | p ∈ partsAtHand src replies})
    (hchecks : checks = (candidates src .mandatory).map (Candidate.check sha256)) :
    ((filledIn sha256 replies guides checks criteria).mandatoryChecks.map CheckDict.checkId).Nodup ↔
      ((added replies checks).map (fun e => normalizeName e.name)).Nodup := by
  rw [filledIn_checks, List.map_append, List.map_map]
  by_cases hempty : checks = []
  · have hadded : added replies checks = suggested replies.mandatoryChecks := by
      rw [hempty]
      rfl
    rw [hadded, hempty]
    exact nodup_generated_iff hstable (List.Subset.refl _)
  · have hadded : added replies checks = [] := by
      rw [added, if_neg]
      rwa [List.isEmpty_iff]
    rw [hadded, List.map_nil, List.map_nil, List.append_nil, hchecks, List.map_map]
    refine iff_of_true ?_ List.nodup_nil
    have htags : ((candidates src .mandatory).map (Candidate.tag sha256 .mandatory)).Nodup :=
      nodup_tags hdigest huuid hheads hstable
    exact List.pairwise_map.mpr ((List.pairwise_map.mp htags).imp
      fun hne heq => hne (append_left_inj heq))

/-- After the merge and the gap detector the ids are distinct and each target feeds what refers to
it, exactly when no two suggestions have one name and no template has the start of its id as the
stable id of an entry. -/
theorem identified_iff (hdigest : ∀ s, (sha256 s).length = 64)
    (huuid : ∀ t ∈ src.org ++ src.dept, HexHead t.templateId)
    (hheads : ((src.org ++ src.dept).map (fun t => prefixOf 8 t.templateId)).Nodup)
    (hstable : Set.InjOn (stableId sha256) {p | p ∈ partsAtHand src replies})
    (h : mergeCriteria sha256 src = .ok merged) :
    Identified (detectAndFillGaps sha256 replies merged).1 ↔
      ((added replies merged.mandatoryChecks).map (fun e => normalizeName e.name)).Nodup ∧
        PrefixesApart sha256 src := by
  obtain ⟨_, _, criteria, hcriteria, rfl⟩ := mergeCriteria_eq_ok.mp h
  change Identified (filledIn sha256 replies (rfpGuides src)
    ((candidates src .mandatory).map (Candidate.check sha256)) criteria) ↔ _
  have hcriterionIds : (criteria.map CriterionDict.criterionId).Nodup := by
    rw [ids_of_criteria hcriteria]
    have htags : ((candidates src .scoring).map (Candidate.tag sha256 .scoring)).Nodup :=
      nodup_tags hdigest huuid hheads hstable
    exact List.pairwise_map.mpr ((List.pairwise_map.mp htags).imp
      fun hne heq => hne (append_left_inj heq))
  have htargetIds : criteria.map scoringTargetId =
      (candidates src .scoring).map (fun c => "ET-SC-" ++ code sha256 .scoring c) :=
    map_eq_of_mapM hcriteria fun c hc sc hsc => by
      obtain ⟨weight, rubric, _, _, rfl⟩ := criterion_eq_ok.mp hsc
      exact scoringTargetId_eq hdigest huuid hc rfl
  have htargets : (criteria.map scoringTargetId).Nodup ↔ PrefixesApart sha256 src := by
    rw [htargetIds, ← nodup_codes_iff huuid hheads hstable]
    refine List.pairwise_map.trans (Iff.trans ?_ List.pairwise_map.symm)
    exact List.Pairwise.iff fun _ _ => not_congr ⟨append_left_inj, fun heq => congrArg _ heq⟩
  rw [identified_iff_of_linked (linked_filledIn hdigest huuid hcriteria), filledIn_criterionIds,
    @map_filledIn sha256 replies _ _ criteria String scoringTargetId
      (fun id => s!"ET-SC-{lastOf 8 id}") (fun _ => rfl), htargets, finish_checks,
    nodup_checkIds_iff hdigest huuid hheads hstable rfl]
  exact and_congr_right fun _ => and_iff_right hcriterionIds

end Merging

section Sample

/-- The digests of what the two suggestions' ids are made of. -/
def sampleDigest (s : String) : String :=
  if s = "gen|mc|iso 27001" then "eafa20232d885c60d1bf3a5a010a098d4f02574da9a891227f2131032998aa91"
  else "fd3fcbe04891940c9c33c56bffa7aca4823b79eeace0a0fb6c7a21a2fa6c196c"

def noCriteria : Sources := ⟨[], [], none, ⟨[], []⟩⟩

def suggesting (names : List String) : GapReplies :=
  ⟨.invalidJson "", .json (.arr (names.map (fun name => .obj [("name", .str name)])))⟩

theorem length_sampleDigest (s : String) : (sampleDigest s).length = 64 := by
  rw [sampleDigest]
  split <;> decide

theorem mergeCriteria_noCriteria :
    mergeCriteria sampleDigest noCriteria = .ok ⟨[], [], [], none, "merged_empty"⟩ := rfl

theorem identified_iff_two :
    Identified (detectAndFillGaps sampleDigest (suggesting ["ISO 27001", "GDPR"])
      ⟨[], [], [], none, "merged_empty"⟩).1 := by
  refine (@identified_iff sampleDigest noCriteria _ _ length_sampleDigest ?_ List.nodup_nil ?_
    mergeCriteria_noCriteria).mpr ⟨by decide +kernel, ?_⟩
  · exact fun t ht => absurd ht List.not_mem_nil
  · have hpairs : ∀ p ∈ partsAtHand noCriteria (suggesting ["ISO 27001", "GDPR"]),
        ∀ q ∈ partsAtHand noCriteria (suggesting ["ISO 27001", "GDPR"]),
        stableId sampleDigest p = stableId sampleDigest q → p = q := by decide +kernel
    exact fun p hp q hq => hpairs p hp q hq
  · exact fun c hc => absurd hc List.not_mem_nil

/-- Two suggestions of one name make one id. -/
theorem repeated_suggestion_collides : ¬ ∀ (sha256 : String → String) (src : Sources)
    (replies : GapReplies) (merged : Merged), (∀ s, (sha256 s).length = 64) →
    (∀ t ∈ src.org ++ src.dept, HexHead t.templateId) →
    ((src.org ++ src.dept).map (fun t => prefixOf 8 t.templateId)).Nodup →
    Set.InjOn (stableId sha256) {p | p ∈ partsAtHand src replies} →
    mergeCriteria sha256 src = .ok merged →
    Identified (detectAndFillGaps sha256 replies merged).1 := by
  intro h
  have hpairs : ∀ p ∈ partsAtHand noCriteria (suggesting ["ISO 27001", "ISO 27001 Certification"]),
      ∀ q ∈ partsAtHand noCriteria (suggesting ["ISO 27001", "ISO 27001 Certification"]),
      stableId sampleDigest p = stableId sampleDigest q → p = q := by decide +kernel
  have hids := h sampleDigest noCriteria (suggesting ["ISO 27001", "ISO 27001 Certification"]) _
    length_sampleDigest (fun t ht => absurd ht List.not_mem_nil) List.nodup_nil
    (fun p hp q hq => hpairs p hp q hq) mergeCriteria_noCriteria
  exact absurd hids.check_ids (by decide +kernel)

end Sample

end RfpPlatform.Identifiers
