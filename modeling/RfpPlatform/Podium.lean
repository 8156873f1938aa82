import Mathlib.Data.List.MinMax
import RfpPlatform.DecisionOrder
import RfpPlatform.Rounding

namespace RfpPlatform.Podium

open Comparator Decision DecisionOrder ExceptRules Json

section Report

/-- An entry of the breakdown in a saved decision, each key of which may be missing. -/
structure SavedScore where
  criterionId : Option String
  rawScore : Option ℚ

structure SavedVendor where
  vendorId : Option VendorId
  vendorName : Option String
  rank : Option Nat
  totalScore : Option ℚ
  coverageNormalisedScore : Option ℚ
  criterionBreakdown : Option (List SavedScore)
  recommendation : Option String

structure PodiumEntry where
  rank : Nat
  vendorId : VendorId
  vendorName : String
  totalScore : ℚ
  scoreDeltaVsNext : ℚ
  tippingFactor : String

/-- `names.get(vid) or fallback or vid`, over the names that came with the request. -/
def vendorName (names : List (String × Json)) (vid : VendorId) (fallback : Option String) : Json :=
  (Json.get names vid .null).orElse ((fallback.elim Json.null .str).orElse (.str vid))

def rankScore (v : SavedVendor) : ℚ := v.coverageNormalisedScore.getD (v.totalScore.getD 0)

/-- The criterion with the highest score, or else the recommendation. -/
def tippingFactor (v : SavedVendor) : String :=
  match (v.criterionBreakdown.getD []).argmax (fun s => s.rawScore.getD 0) with
  | some top => "Strongest on " ++ top.criterionId.getD ""
  | none => (v.recommendation.getD "").map (fun c => if c = '_' then ' ' else c)

/-- The name of an entry is validated to be a text. -/
def podiumEntry (names : List (String × Json)) (i : Nat) (v : SavedVendor) (next : Option SavedVendor) :
    Except Exn PodiumEntry := do
  let name ← orRaise (vendorName names (v.vendorId.getD "") v.vendorName).asString
    ⟨.validationError, "1 validation error for PodiumEntry\nvendor_name"⟩
  return {
    rank := v.rank.getD (i + 1)
    vendorId := v.vendorId.getD ""
    vendorName := name
    totalScore := PyText.round (rankScore v) 2
    scoreDeltaVsNext := next.elim 0 (fun n => PyText.round (rankScore v - rankScore n) 2)
    tippingFactor := tippingFactor v }

def byRank (shortlisted : List SavedVendor) : List SavedVendor :=
  shortlisted.insertionSort (fun v w => v.rank.getD 9999 ≤ w.rank.getD 9999)

def podium (shortlisted : List SavedVendor) (names : List (String × Json)) : Except Exn (List PodiumEntry) :=
  (byRank shortlisted).zipIdx.mapM
    (fun p => podiumEntry names p.2 p.1 (byRank shortlisted)[p.2 + 1]?)

def savedScore (s : CriterionScore) : SavedScore := ⟨some s.criterionId, some s.rawScore.val⟩

def saved (v : ShortlistedVendor) : SavedVendor where
  vendorId := some v.vendorId
  vendorName := some v.vendorName
  rank := some v.rank
  totalScore := some v.totalScore
  coverageNormalisedScore := some v.coverageNormalisedScore
  criterionBreakdown := some (v.criterionBreakdown.map savedScore)
  recommendation := some v.recommendation

/-- The podium of the report on a decision. -/
def reportPodium (decision : DecisionOutput) (names : List (String × Json)) : Except Exn (List PodiumEntry) :=
  podium (decision.shortlistedVendors.map saved) names

end Report

section Agreement

/-- Each evaluated vendor is in one of the two lists and once, and rejected only for decisions. -/
structure Partitioned (evaluations : Dict VendorId EvaluationOutput) (decision : DecisionOutput) :
    Prop where
  nodup : (decision.shortlistedVendors.map ShortlistedVendor.vendorId ++
    decision.rejectedVendors.map RejectionNotice.vendorId).Nodup
  perm : (decision.shortlistedVendors.map ShortlistedVendor.vendorId ++
    decision.rejectedVendors.map RejectionNotice.vendorId).Perm evaluations.keys
  rejected : ∀ v evaluation, evaluations.get? v = some evaluation →
    (v ∈ decision.rejectedVendors.map RejectionNotice.vendorId ↔
      rejectingDecisions evaluation.complianceDecisions ≠ [])

/-- The shortlist is what the rejections leave of the ranking, and its ranks count from one. -/
structure InOrder (ranking : List VendorId) (decision : DecisionOutput) : Prop where
  ranks : decision.shortlistedVendors.map ShortlistedVendor.rank =
    List.range' 1 decision.shortlistedVendors.length
  order : decision.shortlistedVendors.map ShortlistedVendor.vendorId =
    ranking.filter (fun v => v ∉ decision.rejectedVendors.map RejectionNotice.vendorId)

structure Lists (decision : DecisionOutput) (entries : List PodiumEntry) : Prop where
  vendors : entries.map PodiumEntry.vendorId =
    decision.shortlistedVendors.map ShortlistedVendor.vendorId
  ranks : entries.map PodiumEntry.rank = decision.shortlistedVendors.map ShortlistedVendor.rank
  deltas : ∀ entry ∈ entries, 0 ≤ entry.scoreDeltaVsNext

end Agreement

section Entries

variable {names : List (String × Json)} {shortlisted : List SavedVendor} {i : Nat} {v : SavedVendor}
  {next : Option SavedVendor} {entry : PodiumEntry} {entries : List PodiumEntry}

theorem podiumEntry_eq_ok (h : podiumEntry names i v next = .ok entry) :
    entry.rank = v.rank.getD (i + 1) ∧ entry.vendorId = v.vendorId.getD "" ∧
      entry.scoreDeltaVsNext =
        next.elim 0 (fun n => PyText.round (rankScore v - rankScore n) 2) := by
  simp only [podiumEntry, bind_eq_ok, pure_eq_ok] at h
  obtain ⟨name, _, rfl⟩ := h
  exact ⟨rfl, rfl, rfl⟩

theorem mem_of_member {v : Json} {vid : VendorId} (h : member vid names = some v) :
    (vid, v) ∈ names := by
  obtain ⟨⟨n, w⟩, hfind, rfl⟩ := Option.map_eq_some_iff.mp h
  have hname : n = vid := by simpa using List.find?_some hfind
  exact hname ▸ List.mem_reverse.mp (List.mem_of_find?_eq_some hfind)

theorem orElse_text {v w : Json} (hv : v = .null ∨ ∃ s, v = .str s) (hw : ∃ s, w = .str s) :
    ∃ s, v.orElse w = .str s := by
  rw [orElse]
  split
  · rename_i htruthy
    rcases hv with rfl | hv
    · cases htruthy
    · exact hv
  · exact hw

/-- Names that are texts are accepted. -/
theorem exists_podiumEntry (hnames : ∀ p ∈ names, ∃ s, p.2 = .str s) :
    ∃ entry, podiumEntry names i v next = .ok entry := by
  have hown : Json.get names (v.vendorId.getD "") .null = .null ∨
      ∃ s, Json.get names (v.vendorId.getD "") .null = .str s := by
    rw [Json.get]
    cases hmember : member (v.vendorId.getD "") names with
    | none => exact Or.inl rfl
    | some w => exact Or.inr (hnames _ (mem_of_member hmember))
  have hfallback : v.vendorName.elim Json.null .str = .null ∨
      ∃ s, v.vendorName.elim Json.null .str = .str s := by
    cases v.vendorName with
    | none => exact Or.inl rfl
    | some s => exact Or.inr ⟨s, rfl⟩
  obtain ⟨name, hname⟩ := orElse_text hown (orElse_text hfallback ⟨v.vendorId.getD "", rfl⟩)
  simp only [podiumEntry, bind_eq_ok, pure_eq_ok]
  refine ⟨_, name, ?_, rfl⟩
  rw [vendorName, hname]
  rfl

end Entries

section Saved

variable {decision : DecisionOutput} {names : List (String × Json)} {entries : List PodiumEntry}

/-- Vendors that are saved in the order of their ranks stay in it. -/
theorem byRank_saved {shortlisted : List ShortlistedVendor}
    (h : shortlisted.Pairwise (fun v w => v.rank ≤ w.rank)) :
    byRank (shortlisted.map saved) = shortlisted.map saved := by
  apply List.Pairwise.insertionSort_eq
  exact List.pairwise_map.mpr h

theorem pairwise_rank (hranks : decision.shortlistedVendors.map ShortlistedVendor.rank =
    List.range' 1 decision.shortlistedVendors.length) :
    decision.shortlistedVendors.Pairwise (fun v w => v.rank ≤ w.rank) := by
  apply List.pairwise_map.mp
  rw [hranks]
  exact (List.pairwise_lt_range' 1 one_pos).imp fun {i j} h => h.le

theorem delta_nonneg {shortlisted : List SavedVendor}
    (h : shortlisted.Pairwise (fun v w => rankScore w ≤ rankScore v)) {i : Nat}
    (hi : i < shortlisted.length) :
    0 ≤ (shortlisted[i + 1]?).elim 0
      (fun n => PyText.round (rankScore shortlisted[i] - rankScore n) 2) := by
  by_cases hnext : i + 1 < shortlisted.length
  · rw [List.getElem?_eq_getElem hnext]
    have hle := List.pairwise_iff_getElem.mp h i (i + 1) hi hnext (Nat.lt_succ_self i)
    have hround := @PyText.le_round (rankScore shortlisted[i] - rankScore shortlisted[i + 1]) 2 0
      (by simpa using hle)
    simpa using hround
  · rw [List.getElem?_eq_none (not_lt.mp hnext)]
    exact le_rfl

/-- The entries follow the order of the ranks. -/
theorem map_podium {γ : Type} {shortlisted : List SavedVendor} {g : PodiumEntry → γ}
    {f : SavedVendor → γ} (h : podium shortlisted names = .ok entries)
    (hg : ∀ i v next entry, podiumEntry names i v next = .ok entry → v ∈ byRank shortlisted →
      g entry = f v) : entries.map g = (byRank shortlisted).map f := by
  rw [podium] at h
  generalize byRank shortlisted = ranked at h hg ⊢
  have hentries : entries.map g = ranked.zipIdx.map (f ∘ Prod.fst) :=
    map_eq_of_mapM h fun p hp entry hentry =>
      hg _ _ _ _ hentry (List.fst_mem_of_mem_zipIdx hp)
  rw [hentries, ← List.map_map, List.zipIdx_map_fst]

/-- A podium of vendors in the order of their ranks, and of scores that go down, lists them. -/
theorem lists_of_podium (hranks : decision.shortlistedVendors.map ShortlistedVendor.rank =
      List.range' 1 decision.shortlistedVendors.length)
    (hscores : decision.shortlistedVendors.Pairwise
      (fun v w => w.coverageNormalisedScore ≤ v.coverageNormalisedScore))
    (h : reportPodium decision names = .ok entries) : Lists decision entries := by
  have hsorted := byRank_saved (pairwise_rank hranks)
  refine ⟨?_, ?_, ?_⟩
  · have hids := map_podium (g := PodiumEntry.vendorId) (f := fun v => v.vendorId.getD "") h
      fun i v next entry hentry _ => (podiumEntry_eq_ok hentry).2.1
    rw [hids, hsorted, List.map_map]
    rfl
  · have hpodium := map_podium (g := fun e => some e.rank) (f := SavedVendor.rank) h
      fun i v next entry hentry hv => by
        rw [hsorted] at hv
        obtain ⟨w, _, rfl⟩ := List.mem_map.mp hv
        exact congrArg some (podiumEntry_eq_ok hentry).1
    rw [hsorted, List.map_map] at hpodium
    refine List.map_injective_iff.mpr (Option.some_injective _) ?_
    rw [List.map_map, List.map_map]
    exact hpodium
  · intro entry hentry
    rw [reportPodium, podium, hsorted] at h
    obtain ⟨⟨v, i⟩, hp, hmade⟩ := (mem_of_mapM_eq_ok h).mp hentry
    obtain ⟨hi, hv⟩ := List.mem_zipIdx' hp
    rw [(podiumEntry_eq_ok hmade).2.2, hv]
    exact delta_nonneg (List.pairwise_map.mpr hscores) hi

theorem exists_reportPodium (hnames : ∀ p ∈ names, ∃ s, p.2 = .str s) :
    ∃ entries, reportPodium decision names = .ok entries :=
  exists_mapM_eq_ok.mpr fun _ _ => exists_podiumEntry hnames

end Saved

section Main

variable {replies : Nat → LlmReply} {derived : VendorId → LlmReply} {call : ComparisonCall}
  {contractValue : ℚ}

variable (replies derived contractValue) in
/-- The decision splits the vendors by their decisions alone, ranks the rest in the order of the
comparison, and the report's podium, which there is for any names that are texts, follows it. -/
theorem decision_in_order (h : Known call) :
    Partitioned call.evaluations (decided replies derived contractValue call) ∧
    InOrder (runComparatorAgent replies call).1.overallRanking
      (decided replies derived contractValue call) ∧
    (∀ names entries,
      reportPodium (decided replies derived contractValue call) names = .ok entries →
        Lists (decided replies derived contractValue call) entries) ∧
    ∀ names : List (String × Json), (∀ p ∈ names, ∃ s, p.2 = .str s) →
      ∃ entries, reportPodium (decided replies derived contractValue call) names = .ok entries := by
  refine ⟨⟨?_, decided_perm, ?_⟩, ⟨decided_ranks, shortlisted_eq_filter h⟩, ?_, ?_⟩
  · exact decided_perm.nodup_iff.mpr call.evaluations.keys_nodup
  · intro v evaluation hget
    rw [decided, rejected_iff, hget]
    simp [Rejected]
  · intro names entries hpodium
    exact lists_of_podium decided_ranks (decided_scores h) hpodium
  · intro names hnames
    exact exists_reportPodium hnames

def tiedPair : Dict VendorId EvaluationOutput :=
  ⟨[("alpha", assessed "alpha" [] 7), ("beta", assessed "beta" [] 7)], by decide⟩

theorem decision_in_order_pair : ∃ entries,
    reportPodium (decided (fun _ => .invalidJson "") (fun _ => .invalidJson "") 500000
      (comparisonOf ["beta", "alpha"] tiedPair)) [("alpha", .str "Alpha Ltd")] = .ok entries ∧
    entries.map PodiumEntry.vendorId = ["alpha", "beta"] := by
  have hknown : Known (comparisonOf ["beta", "alpha"] tiedPair) := by
    intro v hv
    simp only [comparisonOf, tiedPair, Dict.keys, List.map_cons, List.map_nil, List.mem_cons,
      List.not_mem_nil, or_false] at hv ⊢
    exact hv.symm
  obtain ⟨_, horder, hlists, hexists⟩ := decision_in_order (fun _ => .invalidJson "")
    (fun _ => .invalidJson "") 500000 hknown
  obtain ⟨entries, hentries⟩ := hexists [("alpha", .str "Alpha Ltd")] (by
    intro p hp
    obtain rfl := List.mem_singleton.mp hp
    exact ⟨_, rfl⟩)
  refine ⟨entries, hentries, ?_⟩
  rw [(hlists _ _ hentries).vendors, horder.order]
  decide +kernel

end Main

end RfpPlatform.Podium
