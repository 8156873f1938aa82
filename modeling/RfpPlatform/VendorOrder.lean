import RfpPlatform.DecisionOrder

namespace RfpPlatform.VendorOrder

open Comparator DecisionOrder ExceptRules PyText

section Positions

variable {rank total k m : Nat}

/-- The places behind the first `k` that hold `m` elements all have one position exactly when they
lie inside one half. -/
theorem relativePosition_ends (hm : 2 ≤ m) (hle : k + m ≤ total) :
    relativePosition (k + 1) total = relativePosition (k + m) total ↔
      (1 ≤ k ∧ 2 * (k + m) < total) ∨ (total < 2 * (k + 1) ∧ k + m < total) := by
  have hfirst : total = 1 ∨ k + 1 = 1 ↔ k = 0 := by omega
  have hlast : ¬ (total = 1 ∨ k + m = 1) := by omega
  have hbefore : k + 1 ≠ total := by omega
  rw [relativePosition, relativePosition, if_neg hlast]
  by_cases hk : k = 0
  · rw [if_pos (hfirst.mpr hk)]
    refine iff_of_false ?_ (by omega)
    split
    · decide
    · split
      · decide
      · split <;> decide
  · rw [if_neg (hfirst.not.mpr hk), if_neg hbefore]
    by_cases hend : k + m = total
    · rw [if_pos hend]
      refine iff_of_false ?_ (by omega)
      split
      · decide
      · split <;> decide
    · rw [if_neg hend]
      split
      · split
        · exact iff_of_true rfl (by omega)
        · refine iff_of_false ?_ (by omega)
          split <;> decide
      · split
        · split
          · omega
          · split
            · exact iff_of_true rfl (by omega)
            · omega
        · split
          · omega
          · split
            · exact iff_of_false (by decide) (by omega)
            · omega

theorem relativePosition_upper (hfirst : 1 < rank) (h : 2 * rank < total) :
    relativePosition rank total = "above_average" := by
  rw [relativePosition, if_neg (by omega), if_neg (by omega), if_pos h]

theorem relativePosition_lower (hlast : rank < total) (h : total < 2 * rank) :
    relativePosition rank total = "below_average" := by
  rw [relativePosition, if_neg (by omega), if_neg (by omega), if_neg (by omega), if_pos h]

/-- Inside a half, all places have one position. -/
theorem relativePosition_inside {i j : Nat} (hi : k < i ∧ i ≤ k + m) (hj : k < j ∧ j ≤ k + m)
    (h : (1 ≤ k ∧ 2 * (k + m) < total) ∨ (total < 2 * (k + 1) ∧ k + m < total)) :
    relativePosition i total = relativePosition j total := by
  rcases h with ⟨hfirst, hupper⟩ | ⟨hlower, hlast⟩
  · rw [relativePosition_upper (by omega) (by omega), relativePosition_upper (by omega) (by omega)]
  · rw [relativePosition_lower (by omega) (by omega), relativePosition_lower (by omega) (by omega)]

end Positions

section Ranks

variable {scores scores' : Dict VendorId Entry} {v : VendorId} {e : Entry}

/-- How many have a higher score, and how many have at least this one. -/
def higher (scores : List Nat) (s : Nat) : Nat := scores.countP (fun t => s < t)

def atLeast (scores : List Nat) (s : Nat) : Nat := scores.countP (fun t => s ≤ t)

def scoresOf (scores : Dict VendorId Entry) : List Nat := scores.rows.map (fun p => p.2.score)

def pairs (scores : Dict VendorId Entry) : List (VendorId × ℚ) :=
  scores.rows.map (fun p => (p.1, (p.2.score : ℚ)))

theorem countP_lt_pairs (s : Nat) :
    (pairs scores).countP (fun p => (s : ℚ) < p.2) = higher (scoresOf scores) s := by
  rw [pairs, higher, scoresOf, List.countP_map, List.countP_map]
  refine List.countP_congr fun p _ => ?_
  simp

theorem countP_le_pairs (s : Nat) :
    (pairs scores).countP (fun p => (s : ℚ) ≤ p.2) = atLeast (scoresOf scores) s := by
  rw [pairs, atLeast, scoresOf, List.countP_map, List.countP_map]
  refine List.countP_congr fun p _ => ?_
  simp

/-- The vendors in the order of their scores. -/
def sorted (scores : Dict VendorId Entry) : List (VendorId × ℚ) :=
  (pairs scores).insertionSort descending

theorem nodup_sorted : ((sorted scores).map Prod.fst).Nodup := by
  have hperm := (List.perm_insertionSort descending (pairs scores)).map Prod.fst
  refine hperm.nodup_iff.mpr ?_
  rw [pairs, List.map_map]
  exact scores.keys_nodup

theorem mem_sorted {p : VendorId × ℚ} :
    p ∈ sorted scores ↔ ∃ e, scores.get? p.1 = some e ∧ p.2 = e.score := by
  rw [sorted, List.mem_insertionSort, pairs, List.mem_map]
  constructor
  · rintro ⟨⟨v, e⟩, hmem, rfl⟩
    exact ⟨e, Dict.get?_eq_some.mpr hmem, rfl⟩
  · rintro ⟨e, hget, hscore⟩
    exact ⟨(p.1, e), Dict.get?_eq_some.mp hget, Prod.ext rfl hscore.symm⟩

/-- A dictionary of elements with distinct labels that maps each to something of its place. -/
theorem get?_zipIdx {κ β γ : Type} [DecidableEq κ] {xs : List (κ × β)}
    (h : (xs.map Prod.fst).Nodup) (f : Nat → γ) {i : Nat} (hi : i < xs.length) :
    (Dict.ofPairs (xs.zipIdx.map (fun p => (p.1.1, f p.2)))).get? xs[i].1 = some (f i) := by
  have hplace : ∀ w, (xs[i].1, w) ∈ xs.zipIdx.map (fun p => (p.1.1, f p.2)) ↔ w = f i := by
    intro w
    rw [List.mem_map]
    constructor
    · rintro ⟨⟨p, j⟩, hp, hpair⟩
      obtain ⟨hj, helem⟩ := List.mem_zipIdx' hp
      obtain ⟨hlabel, rfl⟩ := Prod.mk.inj hpair
      have hj' : j < (xs.map Prod.fst).length := by rwa [List.length_map]
      have hi' : i < (xs.map Prod.fst).length := by rwa [List.length_map]
      have hsame : (xs.map Prod.fst)[j] = (xs.map Prod.fst)[i] := by
        rw [List.getElem_map, List.getElem_map, ← helem]
        exact hlabel
      rw [(h.getElem_inj_iff).mp hsame]
    · rintro rfl
      exact ⟨(xs[i], i), List.mk_mem_zipIdx_iff_getElem?.mpr (List.getElem?_eq_getElem hi), rfl⟩
  rw [Dict.get?_ofPairs fun w _ hw => (hplace w).mp hw, hplace]

/-- The place in the order is the rank. -/
theorem rankMap_getElem {i : Nat} (hi : i < (sorted scores).length) :
    (rankMap scores).get? (sorted scores)[i].1 = some (i + 1) :=
  get?_zipIdx nodup_sorted (fun i => i + 1) hi

theorem score_getElem {i : Nat} (hi : i < (sorted scores).length) {s : Nat} :
    (sorted scores)[i].2 = s ↔
      higher (scoresOf scores) s ≤ i ∧ i < atLeast (scoresOf scores) s := by
  rw [← countP_lt_pairs, ← countP_le_pairs]
  exact Ranking.key_eq_iff descending_iff hi

/-- A vendor ranks behind those of higher scores, and among those of its own. -/
theorem rank_bounds (hget : scores.get? v = some e) : ∃ rank, (rankMap scores).get? v = some rank ∧
    higher (scoresOf scores) e.score < rank ∧ rank ≤ atLeast (scoresOf scores) e.score := by
  obtain ⟨i, hi, helem⟩ := List.mem_iff_getElem.mp
    ((mem_sorted (p := (v, (e.score : ℚ)))).mpr ⟨e, hget, rfl⟩)
  have hrank := rankMap_getElem hi
  obtain ⟨hlo, hhi⟩ := (score_getElem (s := e.score) hi).mp (by rw [helem])
  rw [helem] at hrank
  exact ⟨i + 1, hrank, Nat.lt_succ_of_le hlo, hhi⟩

/-- Every place among the equal scores is the rank of one of them. -/
theorem exists_ranked {s rank : Nat} (hlo : higher (scoresOf scores) s < rank)
    (hhi : rank ≤ atLeast (scoresOf scores) s) : ∃ v e, scores.get? v = some e ∧ e.score = s ∧
      (rankMap scores).get? v = some rank := by
  obtain ⟨i, rfl⟩ := Nat.exists_eq_succ_of_ne_zero (Nat.ne_of_gt (Nat.zero_lt_of_lt hlo))
  have hi : i < (sorted scores).length := by
    have hcount : atLeast (scoresOf scores) s ≤ (scoresOf scores).length := List.countP_le_length
    have hlength : (scoresOf scores).length = scores.rows.length := List.length_map _
    rw [sorted, List.length_insertionSort, pairs, List.length_map]
    omega
  obtain ⟨e, hget, hscore⟩ := mem_sorted.mp (List.getElem_mem hi)
  refine ⟨_, e, hget, ?_, rankMap_getElem hi⟩
  have heq := (score_getElem hi).mpr ⟨Nat.le_of_lt_succ hlo, hhi⟩
  rw [heq] at hscore
  exact_mod_cast hscore.symm

end Ranks

section Comparisons

variable {call call' : ComparisonCall} {criterion : ScoringCriterion} {scores : Dict VendorId Entry}
  {reply : LlmReply} {comparison : CriterionComparison}

/-- The vendors that are compared on a criterion, with what they have for it. -/
def compared (call : ComparisonCall) (criterionId : String) : Dict VendorId Entry :=
  Dict.ofPairs ((entries call criterionId).filterMap
    (fun e => e.2.2.map (fun entry => (e.1, entry))))

theorem mem_entries {criterionId : String} {e : VendorId × List String × Option Entry} :
    e ∈ entries call criterionId ↔ e.1 ∈ call.vendorIds ∧ ∃ evaluation,
      call.evaluations.get? e.1 = some evaluation ∧ e.2 = entryOf criterionId e.1 evaluation := by
  rw [entries, List.mem_filterMap]
  constructor
  · rintro ⟨v, hv, hmade⟩
    obtain ⟨evaluation, hget, rfl⟩ := Option.map_eq_some_iff.mp hmade
    exact ⟨hv, evaluation, hget, rfl⟩
  · rintro ⟨hv, evaluation, hget, hentry⟩
    exact ⟨e.1, hv, Option.map_eq_some_iff.mpr ⟨evaluation, hget, Prod.ext rfl hentry.symm⟩⟩

theorem get?_compared {criterionId : String} {v : VendorId} {entry : Entry} :
    (compared call criterionId).get? v = some entry ↔ v ∈ call.vendorIds ∧ ∃ evaluation,
      call.evaluations.get? v = some evaluation ∧
        (entryOf criterionId v evaluation).2 = some entry := by
  have hmem : ∀ w, (v, w) ∈ (entries call criterionId).filterMap
        (fun e => e.2.2.map (fun entry => (e.1, entry))) ↔
      v ∈ call.vendorIds ∧ ∃ evaluation, call.evaluations.get? v = some evaluation ∧
        (entryOf criterionId v evaluation).2 = some w := by
    intro w
    rw [List.mem_filterMap]
    constructor
    · rintro ⟨e, he, hmade⟩
      obtain ⟨entry, hentry, hpair⟩ := Option.map_eq_some_iff.mp hmade
      obtain ⟨rfl, rfl⟩ := Prod.mk.inj hpair
      obtain ⟨hv, evaluation, hget, heq⟩ := mem_entries.mp he
      exact ⟨hv, evaluation, hget, heq ▸ hentry⟩
    · rintro ⟨hv, evaluation, hget, hentry⟩
      refine ⟨(v, entryOf criterionId v evaluation), mem_entries.mpr ⟨hv, evaluation, hget, rfl⟩, ?_⟩
      rw [hentry]
      rfl
  rw [compared, Dict.get?_ofPairs, hmem]
  intro w hentry hw
  obtain ⟨_, evaluation, hget, heq⟩ := (hmem _).mp hentry
  obtain ⟨_, evaluation', hget', heq'⟩ := (hmem _).mp hw
  obtain rfl := Option.some.inj (hget'.symm.trans hget)
  exact Option.some.inj (heq'.symm.trans heq)

/-- What a comparison says of a vendor. -/
theorem compareVendor_eq_ok {criterionId : String} {differentiators : Json}
    {p : VendorId × Entry} {row : VendorCriterionComparison}
    (h : compareVendor criterionId scores differentiators p = .ok row) :
    row.vendorId = p.1 ∧ row.score = p.2.score ∧ row.relativePosition =
      relativePosition (((rankMap scores).get? p.1).getD 0) scores.rows.length := by
  simp only [compareVendor, bind_eq_ok, pure_eq_ok] at h
  obtain ⟨_, _, _, _, rfl⟩ := h
  exact ⟨rfl, rfl, rfl⟩

theorem compareCriterion_eq_ok (h : compareCriterion criterion scores reply = .ok comparison) :
    comparison.criterionId = criterion.criterionId ∧ ∀ row ∈ comparison.vendors, ∃ entry,
      scores.get? row.vendorId = some entry ∧ row.score = entry.score ∧ row.relativePosition =
        relativePosition (((rankMap scores).get? row.vendorId).getD 0) scores.rows.length := by
  simp only [compareCriterion, bind_eq_ok, pure_eq_ok] at h
  obtain ⟨_, _, _, _, vendors, hvendors, _, _, _, _, rfl⟩ := h
  refine ⟨rfl, fun row hrow => ?_⟩
  obtain ⟨p, hp, hmade⟩ := (mem_of_mapM_eq_ok hvendors).mp hrow
  obtain ⟨hid, hscore, hposition⟩ := compareVendor_eq_ok hmade
  rw [hid]
  exact ⟨p.2, Dict.get?_eq_some.mpr hp, hscore, hposition⟩

def plainRow (criterionId : String) (scores : Dict VendorId Entry) (p : VendorId × Entry) :
    VendorCriterionComparison :=
  ⟨criterionId, p.1, p.2.score, "",
    relativePosition (((rankMap scores).get? p.1).getD 0) scores.rows.length,
    join "; " (p.2.evidence.take 2)⟩

/-- An empty object is a reply that compares the vendors. -/
theorem compareCriterion_empty : ∃ comparison,
    compareCriterion criterion scores (.json (.obj [])) = .ok comparison ∧
      comparison.vendors = scores.rows.map (plainRow criterion.criterionId scores) := by
  have hrows : scores.rows.mapM (compareVendor criterion.criterionId scores (.obj [])) =
      .ok (scores.rows.map (plainRow criterion.criterionId scores)) := by
    have hmap := mapM_map_eq_ok (g := id) (h := plainRow criterion.criterionId scores)
      (f := compareVendor criterion.criterionId scores (.obj [])) (fun p => rfl) scores.rows
    rwa [List.map_id] at hmap
  have hconfidence : (Json.num (.fin (7 / 10))).toFloat = .ok (.fin (7 / 10)) := by
    have hsmall : ¬ ((7 / 10 : ℚ) ≤ -Json.floatLimit ∨ Json.floatLimit ≤ 7 / 10) := by
      decide +kernel
    rw [Json.toFloat, if_neg hsmall]
  simp only [compareCriterion, bind_eq_ok, pure_eq_ok]
  exact ⟨_, ⟨_, rfl, _, rfl, _, hrows, _, hconfidence, _, rfl, rfl⟩, rfl⟩

end Comparisons

section Orders

/-- The same vendors and evaluations, in another order. -/
structure Reordered (call call' : ComparisonCall) : Prop where
  vendorIds : call.vendorIds.Perm call'.vendorIds
  evaluations : call.evaluations.rows.Perm call'.evaluations.rows
  rfpId : call.rfpId = call'.rfpId
  setup : call.setup = call'.setup

/-- Two comparisons of the same vendors rank the same up to equal scores, with the same margin for a
vendor that ties with none, and place each vendor alike on each criterion, as they do equal scores. -/
structure Agree (scoreOf : VendorId → ℚ) (output output' : ComparatorOutput) : Prop where
  vendors : output.overallRanking.Perm output'.overallRanking
  scores : output.overallRanking.map scoreOf = output'.overallRanking.map scoreOf
  margins : ∀ v ∈ output.overallRanking,
    (∀ u ∈ output.overallRanking, u ≠ v → scoreOf u ≠ scoreOf v) →
      output.rankMargins.get? v = output'.rankMargins.get? v
  positions : ∀ c ∈ output.criteriaComparisons, ∀ c' ∈ output'.criteriaComparisons,
    c.criterionId = c'.criterionId → ∀ row ∈ c.vendors, ∀ row' ∈ c'.vendors,
      row.vendorId = row'.vendorId → row.relativePosition = row'.relativePosition
  ties : ∀ c ∈ output.criteriaComparisons, ∀ row ∈ c.vendors, ∀ row' ∈ c.vendors,
    row.score = row'.score → row.relativePosition = row'.relativePosition

/-- Whatever the order and the replies, the comparison comes out the same. -/
def OrderFree (call : ComparisonCall) : Prop :=
  ∀ call', Reordered call call' → ∀ replies replies',
    Agree (normalised call.evaluations) (runComparatorAgent replies call).1
      (runComparatorAgent replies' call').1

/-- Scores that are shared lie inside one half of the places, off the first and the last. -/
def TiesInside (scores : List Nat) : Prop :=
  ∀ s, 2 ≤ scores.count s →
    (1 ≤ higher scores s ∧ 2 * (higher scores s + scores.count s) < scores.length) ∨
    (scores.length < 2 * (higher scores s + 1) ∧
      higher scores s + scores.count s < scores.length)

end Orders

section Agreement

variable {call call' : ComparisonCall} {replies replies' : Nat → LlmReply}

theorem atLeast_eq (scores : List Nat) (s : Nat) :
    atLeast scores s = higher scores s + scores.count s := by
  induction scores with
  | nil => rfl
  | cons t scores ih =>
      rw [atLeast, higher] at ih ⊢
      rw [List.countP_cons, List.countP_cons, List.count_cons, ih]
      rcases lt_trichotomy s t with hlt | rfl | hgt
      · simp [hlt, hlt.le, hlt.ne']
        omega
      · simp
        omega
      · simp [hgt.le, hgt.ne, not_le.mpr hgt]

theorem Reordered.get?_eq (h : Reordered call call') (v : VendorId) :
    call'.evaluations.get? v = call.evaluations.get? v := by
  apply Option.ext
  intro evaluation
  rw [Dict.get?_eq_some, Dict.get?_eq_some, KeyedTable.mem_def, KeyedTable.mem_def]
  exact h.evaluations.mem_iff.symm

theorem perm_vendorTotals (h : Reordered call call') :
    (vendorTotals call).Perm (vendorTotals call') := by
  have hfilter : call'.evaluations.rows.filter (fun p => p.1 ∈ call'.vendorIds) =
      call'.evaluations.rows.filter (fun p => p.1 ∈ call.vendorIds) :=
    List.filter_congr fun p _ => decide_eq_decide.mpr h.vendorIds.mem_iff.symm
  rw [vendorTotals, vendorTotals, hfilter]
  exact (h.evaluations.filter _).map _

theorem perm_compared (h : Reordered call call') (criterionId : String) :
    (compared call criterionId).rows.Perm (compared call' criterionId).rows := by
  rw [List.perm_ext_iff_of_nodup (Dict.nodup_rows _) (Dict.nodup_rows _)]
  rintro ⟨v, entry⟩
  change (v, entry) ∈ compared call criterionId ↔ (v, entry) ∈ compared call' criterionId
  rw [← Dict.get?_eq_some, ← Dict.get?_eq_some, get?_compared, get?_compared, h.get?_eq,
    h.vendorIds.mem_iff]

theorem perm_scoresOf (h : Reordered call call') (criterionId : String) :
    (scoresOf (compared call criterionId)).Perm (scoresOf (compared call' criterionId)) :=
  (perm_compared h criterionId).map _

/-- The margin at a place, over the scores of a ranking. -/
def marginAt (scores : List ℚ) : Nat → ℚ
  | 0 => 0
  | i + 1 => round (scores[i]?.getD 0 - scores[i + 1]?.getD 0) 4

theorem rankMargins_eq (ranking : List (VendorId × ℚ)) : rankMargins ranking =
    Dict.ofPairs (ranking.zipIdx.map (fun p => (p.1.1, marginAt (ranking.map Prod.snd) p.2))) := by
  cases ranking with
  | nil => rfl
  | cons first rest =>
      rw [rankMargins]
      refine congrArg Dict.ofPairs (List.ext_getElem (by simp) fun i hi hi' => ?_)
      cases i with
      | zero => rfl
      | succ i =>
          have hrest : i + 1 < (first :: rest).length := by simpa using hi'
          simp only [List.getElem_cons_succ, List.getElem_zipWith, List.getElem_map,
            List.getElem_zipIdx, Nat.zero_add, marginAt, List.getElem?_map,
            List.getElem?_eq_getElem hrest, List.getElem?_eq_getElem (Nat.lt_of_succ_lt hrest)]
          rfl

/-- Each comparison of the output compares the vendors of its criterion. -/
theorem mem_criteriaComparisons {c : CriterionComparison} :
    c ∈ (runComparatorAgent replies call).1.criteriaComparisons ↔ ∃ p ∈
      call.setup.scoringCriteria.zipIdx, (compared call p.1.criterionId).rows ≠ [] ∧
        compareCriterion p.1 (compared call p.1.criterionId) (replies p.2) = .ok c := by
  change c ∈ (call.setup.scoringCriteria.zipIdx.map (criterionOutcome replies call)).filterMap
    CriterionOutcome.comparison ↔ _
  have houtcome : ∀ p, (criterionOutcome replies call p).comparison = some c ↔
      (compared call p.1.criterionId).rows ≠ [] ∧
        compareCriterion p.1 (compared call p.1.criterionId) (replies p.2) = .ok c := by
    intro p
    have hcompared : Dict.ofPairs ((entries call p.1.criterionId).filterMap
        (fun e => e.2.2.map (fun entry => (e.1, entry)))) = compared call p.1.criterionId := rfl
    simp only [criterionOutcome, hcompared]
    by_cases hempty : (compared call p.1.criterionId).rows = []
    · simp [hempty]
    · rw [if_neg hempty, and_iff_right hempty]
      cases compareCriterion p.1 (compared call p.1.criterionId) (replies p.2) with
      | ok comparison => simp
      | error exc => simp
  rw [List.filterMap_map, List.mem_filterMap]
  exact exists_congr fun p => and_congr_right fun _ => houtcome p

theorem scores_eq (h : Reordered call call') :
    (ranked call).map Prod.snd = (ranked call').map Prod.snd :=
  Ranking.map_key_eq_of_perm descending_iff (perm_vendorTotals h)

theorem ranked_score {i : Nat} (hi : i < (ranked call).length) :
    (ranked call)[i].2 = normalised call.evaluations (ranked call)[i].1 :=
  score_of_mem_vendorTotals ((List.mem_insertionSort _).mp (List.getElem_mem hi))

theorem exists_place {v : VendorId}
    (hv : v ∈ (runComparatorAgent replies call).1.overallRanking) :
    ∃ i, ∃ hi : i < (ranked call).length, (ranked call)[i].1 = v := by
  obtain ⟨p, hp, rfl⟩ := List.mem_map.mp hv
  obtain ⟨i, hi, rfl⟩ := List.mem_iff_getElem.mp hp
  exact ⟨i, hi, rfl⟩

theorem rankMargins_getElem {i : Nat} (hi : i < (ranked call).length) :
    (runComparatorAgent replies call).1.rankMargins.get? (ranked call)[i].1 =
      some (marginAt ((ranked call).map Prod.snd) i) := by
  change (rankMargins (ranked call)).get? _ = _
  rw [rankMargins_eq]
  exact get?_zipIdx nodup_ranked _ hi

theorem Reordered.perm_ranking (h : Reordered call call') :
    (runComparatorAgent replies call).1.overallRanking.Perm
      (runComparatorAgent replies' call').1.overallRanking :=
  (((List.perm_insertionSort _ _).trans (perm_vendorTotals h)).trans
    (List.perm_insertionSort _ _).symm).map Prod.fst

/-- A vendor that shares its score with none has one place, and with it one margin. -/
theorem agree_margins (h : Reordered call call') {v : VendorId}
    (hv : v ∈ (runComparatorAgent replies call).1.overallRanking)
    (halone : ∀ u ∈ (runComparatorAgent replies call).1.overallRanking, u ≠ v →
      normalised call.evaluations u ≠ normalised call.evaluations v) :
    (runComparatorAgent replies call).1.rankMargins.get? v =
      (runComparatorAgent replies' call').1.rankMargins.get? v := by
  obtain ⟨i, hi, rfl⟩ := exists_place hv
  have hperm : (runComparatorAgent replies call).1.overallRanking.Perm
      (runComparatorAgent replies' call').1.overallRanking := h.perm_ranking
  obtain ⟨j, hj, hid⟩ := exists_place (hperm.mem_iff.mp hv)
  have hj' : j < (ranked call).length := by
    have hlength := congrArg List.length (scores_eq h)
    rw [List.length_map, List.length_map] at hlength
    exact hlength ▸ hj
  have hscore : (ranked call)[j].2 = (ranked call')[j].2 := by
    have hget := List.getElem_of_eq (scores_eq h) (i := j) (by simpa using hj')
    simpa using hget
  have hsame : (ranked call)[i].1 = (ranked call)[j].1 := by
    by_contra hne
    refine halone (ranked call)[j].1 (List.mem_map_of_mem (List.getElem_mem hj'))
      (fun heq => hne heq.symm) ?_
    rw [← ranked_score hj', hscore, ranked_score hj, hid, normalised, h.get?_eq]
    rfl
  rw [← hid, rankMargins_getElem hj, ← scores_eq h, hid, hsame, rankMargins_getElem hj']

theorem map_normalised_ranking :
    (runComparatorAgent replies call).1.overallRanking.map (normalised call.evaluations) =
      (ranked call).map Prod.snd := by
  change ((ranked call).map Prod.fst).map _ = _
  rw [List.map_map]
  refine List.map_congr_left fun p hp => ?_
  exact (score_of_mem_vendorTotals ((List.mem_insertionSort _).mp hp)).symm

theorem agree_scores (h : Reordered call call') :
    (runComparatorAgent replies call).1.overallRanking.map (normalised call.evaluations) =
      (runComparatorAgent replies' call').1.overallRanking.map (normalised call.evaluations) := by
  have hsame : normalised call.evaluations = normalised call'.evaluations := by
    funext v
    rw [normalised, normalised, h.get?_eq]
  rw [map_normalised_ranking, scores_eq h, hsame, map_normalised_ranking]

/-- A row of a comparison has the position of a rank among those of its score. -/
theorem row_position {c : CriterionComparison} {row : VendorCriterionComparison}
    (hc : c ∈ (runComparatorAgent replies call).1.criteriaComparisons) (hrow : row ∈ c.vendors) :
    ∃ criterion ∈ call.setup.scoringCriteria, criterion.criterionId = c.criterionId ∧
      ∃ entry rank, (compared call c.criterionId).get? row.vendorId = some entry ∧
        row.score = entry.score ∧
        higher (scoresOf (compared call c.criterionId)) entry.score < rank ∧
        rank ≤ atLeast (scoresOf (compared call c.criterionId)) entry.score ∧
        row.relativePosition =
          relativePosition rank (scoresOf (compared call c.criterionId)).length := by
  obtain ⟨⟨criterion, i⟩, hp, _, hmade⟩ := mem_criteriaComparisons.mp hc
  obtain ⟨hid, hrows⟩ := compareCriterion_eq_ok hmade
  obtain ⟨entry, hget, hscore, hposition⟩ := hrows row hrow
  obtain ⟨rank, hrank, hlo, hhi⟩ := rank_bounds hget
  rw [hrank] at hposition
  rw [hid]
  refine ⟨criterion, List.fst_mem_of_mem_zipIdx hp, rfl, entry, rank, hget, hscore, hlo, hhi, ?_⟩
  rw [hposition, scoresOf, List.length_map]
  rfl

/-- Ranks of one score have one position if shared scores lie inside one half. -/
theorem TiesInside.position_eq {scores : List Nat} (h : TiesInside scores) {s rank rank' : Nat}
    (hlo : higher scores s < rank) (hhi : rank ≤ atLeast scores s)
    (hlo' : higher scores s < rank') (hhi' : rank' ≤ atLeast scores s) :
    relativePosition rank scores.length = relativePosition rank' scores.length := by
  rw [atLeast_eq] at hhi hhi'
  by_cases hshared : 2 ≤ scores.count s
  · exact relativePosition_inside ⟨hlo, hhi⟩ ⟨hlo', hhi'⟩ (h s hshared)
  · obtain rfl : rank = rank' := by omega
    rfl

theorem agree_of_tiesInside (hinside : ∀ criterion ∈ call.setup.scoringCriteria,
      TiesInside (scoresOf (compared call criterion.criterionId))) (h : Reordered call call') :
    Agree (normalised call.evaluations) (runComparatorAgent replies call).1
      (runComparatorAgent replies' call').1 where
  vendors := h.perm_ranking
  scores := agree_scores h
  margins v hv halone := agree_margins h hv halone
  positions c hc c' hc' hid row hrow row' hrow' hvendor := by
    obtain ⟨criterion, hmem, hcid, entry, rank, hget, _, hlo, hhi, hposition⟩ :=
      row_position hc hrow
    obtain ⟨_, _, _, entry', rank', hget', _, hlo', hhi', hposition'⟩ := row_position hc' hrow'
    have hperm := perm_scoresOf h c.criterionId
    rw [← hid, ← hvendor, get?_compared, h.get?_eq, ← h.vendorIds.mem_iff, ← get?_compared,
      hget] at hget'
    obtain rfl := Option.some.inj hget'
    rw [← hid, higher, ← hperm.countP_eq] at hlo'
    rw [← hid, atLeast, ← hperm.countP_eq] at hhi'
    rw [hposition, hposition', ← hid, ← hperm.length_eq]
    exact (hcid ▸ hinside criterion hmem).position_eq hlo hhi hlo' hhi'
  ties c hc row hrow row' hrow' hscore := by
    obtain ⟨criterion, hmem, hcid, entry, rank, _, hentry, hlo, hhi, hposition⟩ :=
      row_position hc hrow
    obtain ⟨_, _, _, entry', rank', _, hentry', hlo', hhi', hposition'⟩ := row_position hc hrow'
    rw [← hentry', ← hscore, hentry] at hlo' hhi'
    rw [hposition, hposition']
    exact (hcid ▸ hinside criterion hmem).position_eq hlo hhi hlo' hhi'

theorem Reordered.refl (call : ComparisonCall) : Reordered call call :=
  ⟨List.Perm.refl _, List.Perm.refl _, rfl, rfl⟩

/-- Replies that are empty objects compare the vendors, and show the positions of shared scores. -/
theorem tiesInside_of_orderFree (h : OrderFree call) {criterion : ScoringCriterion}
    (hmem : criterion ∈ call.setup.scoringCriteria) :
    TiesInside (scoresOf (compared call criterion.criterionId)) := by
  intro s hshared
  generalize hscores : compared call criterion.criterionId = scores at hshared ⊢
  have hatLeast := atLeast_eq (scoresOf scores) s
  have hle : atLeast (scoresOf scores) s ≤ (scoresOf scores).length := List.countP_le_length
  obtain ⟨u, e, hu, he, hfirst⟩ := @exists_ranked scores s (higher (scoresOf scores) s + 1)
    (Nat.lt_succ_self _) (by omega)
  obtain ⟨v, e', hv, he', hlast⟩ := @exists_ranked scores s
    (higher (scoresOf scores) s + (scoresOf scores).count s) (by omega) (by omega)
  obtain ⟨c, hmade, hrows⟩ := @compareCriterion_empty criterion scores
  have hc : c ∈ (runComparatorAgent (fun _ => .json (.obj [])) call).1.criteriaComparisons := by
    obtain ⟨i, hi, rfl⟩ := List.mem_iff_getElem.mp hmem
    refine mem_criteriaComparisons.mpr ⟨(_, i), List.mk_mem_zipIdx_iff_getElem?.mpr
      (List.getElem?_eq_getElem hi), ?_, ?_⟩
    · rw [hscores]
      exact List.ne_nil_of_mem (Dict.get?_eq_some.mp hu)
    · rw [hscores]
      exact hmade
  have hrow : ∀ {w entry}, scores.get? w = some entry →
      plainRow criterion.criterionId scores (w, entry) ∈ c.vendors := by
    intro w entry hget
    rw [hrows]
    exact List.mem_map_of_mem (Dict.get?_eq_some.mp hget)
  have hties := (h call (Reordered.refl call) (fun _ => .json (.obj []))
    (fun _ => .json (.obj []))).ties c hc _ (hrow hu) _ (hrow hv) (he.trans he'.symm)
  simp only [plainRow, hfirst, hlast, Option.getD_some] at hties
  have hlength : (scoresOf scores).length = scores.rows.length := List.length_map _
  rw [← hlength] at hties
  exact (relativePosition_ends hshared (by omega)).mp hties

end Agreement

section Main

variable (call : ComparisonCall)

/-- The comparison does not depend on the order of the vendors exactly when, on each criterion, the
vendors of a shared score lie inside one half of the places. -/
theorem orderFree_iff : OrderFree call ↔ ∀ criterion ∈ call.setup.scoringCriteria,
    TiesInside (scoresOf (compared call criterion.criterionId)) :=
  ⟨fun h _ hmem => tiesInside_of_orderFree h hmem, fun hinside _ h _ _ => agree_of_tiesInside hinside h⟩

def evenScores : Dict VendorId EvaluationOutput :=
  Dict.ofPairs [("alpha", assessed "alpha" [scored "alpha" (Fin.last 10)] 10),
    ("beta", assessed "beta" [scored "beta" (Fin.last 10)] 10)]

/-- Of two vendors with one score, the first to arrive is the best and the other the weakest. -/
theorem even_scores_ranked : ¬ ∀ call, OrderFree call := by
  intro hall
  have hinside := tiesInside_of_orderFree (hall (comparisonOf ["alpha", "beta"] evenScores))
    (List.mem_singleton_self FailClosed.isoCriterion) 10
  revert hinside
  decide +kernel

end Main

end RfpPlatform.VendorOrder
