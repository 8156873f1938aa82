import RfpPlatform.DecisionPayload
import Mathlib.Data.Finset.Basic
import Mathlib.Data.String.Basic

namespace RfpPlatform.DivergenceFlag

open Decision DecisionPayload Json PyText

section Summaries

structure DecisionSummary where
  winner : Option String
  shortlist : List String
  rejected : List String
  deriving DecidableEq

def Named (vid : VendorId) : Prop := strip vid ≠ ""

instance (vid : VendorId) : Decidable (Named vid) := inferInstanceAs (Decidable (_ ≠ _))

def namedVendor (v : Json) : Option VendorId :=
  match v with
  | .obj ms => (get ms "vendor_id" .null).asString.filter fun vid => Named vid
  | _ => none

def safeVendorIds : Json → List VendorId
  | .arr items => sortedSet (items.filterMap namedVendor)
  | _ => []

def recommendedVendor (recommended : Json) : Option String :=
  match recommended with
  | .obj ms => (get ms "vendor_id" .null).asString
  | _ => none

def extractDecisionSummary : Json → DecisionSummary
  | .obj ms =>
      { winner := recommendedVendor (get ms "recommended_vendor" .null)
        shortlist := safeVendorIds (get ms "shortlisted_vendors" .null)
        rejected := safeVendorIds (get ms "rejected_vendors" .null) }
  | _ => ⟨none, [], []⟩

def dumpSummary (s : DecisionSummary) : Json :=
  .obj [("winner", (s.winner.map .str).getD .null), ("shortlist", strings s.shortlist),
    ("rejected", strings s.rejected)]

def divergenceFlag (originalRunId : String) (cached fresh : DecisionSummary) : Json :=
  .obj [("diverges_from", .str originalRunId), ("cached_signature", dumpSummary cached),
    ("fresh_signature", dumpSummary fresh),
    ("message", .str ("Re-run with bypass_cache produced a different shortlist " ++
      "than the cached run — model is non-deterministic on this RFP. Review both runs."))]

/-- What the column of the new run holds after `_compute_divergence`, from the columns of both
runs. -/
def computeDivergence (originalRunId : String) (original new : Json) : Json :=
  let a := original.orElse (.obj [])
  let b := new.orElse (.obj [])
  if extractDecisionSummary a = extractDecisionSummary b then new
  else
    match b with
    | .obj ms => .obj (ms ++ [("divergence_flag",
        divergenceFlag originalRunId (extractDecisionSummary a) (extractDecisionSummary b))])
    | _ => new

end Summaries

section Law

/-- `decision_output` of a run, null when the run has blocked. -/
def column (d : Option DecisionOutput) : Json := (d.map fun d => .obj (dump d)).getD .null

def firstRanked (d : Option DecisionOutput) : Option VendorId :=
  d.bind fun d => (d.shortlistedVendors.find? fun v => v.rank = 1).map ShortlistedVendor.vendorId

def shortlisted (d : Option DecisionOutput) : List VendorId :=
  (d.map fun d => d.shortlistedVendors.map ShortlistedVendor.vendorId).getD []

def rejected (d : Option DecisionOutput) : List VendorId :=
  (d.map fun d => d.rejectedVendors.map RejectionNotice.vendorId).getD []

structure SameOutcome (a b : Option DecisionOutput) : Prop where
  winner : firstRanked a = firstRanked b
  shortlisted : (shortlisted a).toFinset = (shortlisted b).toFinset
  rejected : (rejected a).toFinset = (rejected b).toFinset

def Flagged (column : Json) : Prop :=
  ∃ ms, column = .obj ms ∧ (member "divergence_flag" ms).isSome = true

/-- The new run carries a flag exactly if it has a decision and this differs from the original
one, and without a decision its column stays null. -/
structure FlagsDivergence (original new : Option DecisionOutput) (after : Json) : Prop where
  flagged : Flagged after ↔ new.isSome = true ∧ ¬ SameOutcome original new
  blocked : new = none → after = .null

def named (vids : List VendorId) : List VendorId := vids.filter fun vid => Named vid

/-- The vendors with a name are the same in both runs. -/
structure SameNamed (a b : Option DecisionOutput) : Prop where
  shortlisted : (named (shortlisted a)).toFinset = (named (shortlisted b)).toFinset
  rejected : (named (rejected a)).toFinset = (named (rejected b)).toFinset

/-- A new decision that has the named vendors of the original one has its outcome, and an original
run beside one that has blocked has no named vendor. -/
structure Discernible (original new : Option DecisionOutput) : Prop where
  decided : new.isSome = true → SameNamed original new → SameOutcome original new
  blocked : new = none → SameNamed original none

end Law

section Columns

variable {α : Type*} {a b d : Option DecisionOutput} {xs ys : List String} {s : String}

theorem mem_sortedSet : s ∈ sortedSet xs ↔ s ∈ xs := by
  rw [sortedSet, List.mem_insertionSort, List.mem_dedup]

theorem sortedSet_eq_iff : sortedSet xs = sortedSet ys ↔ xs.toFinset = ys.toFinset := by
  constructor
  · intro h
    ext s
    rw [List.mem_toFinset, List.mem_toFinset, ← mem_sortedSet, h, mem_sortedSet]
  · intro h
    have hperm : (xs.dedup.insertionSort (· ≤ ·)).Perm (ys.dedup.insertionSort (· ≤ ·)) := by
      refine (List.perm_insertionSort _ _).trans (.trans ?_ (List.perm_insertionSort _ _).symm)
      exact (List.toFinset_eq_iff_perm_dedup).mp h
    exact hperm.eq_of_pairwise' (List.pairwise_insertionSort (· ≤ ·) _)
      (List.pairwise_insertionSort (· ≤ ·) _)

/-- The ids that the summary takes from dumped vendors. -/
theorem filterMap_namedVendor {f : α → Json} {g : α → VendorId}
    (hf : ∀ x, namedVendor (f x) = (some (g x)).filter fun vid => Named vid) (xs : List α) :
    (xs.map f).filterMap namedVendor = named (xs.map g) := by
  induction xs with
  | nil => rfl
  | cons x xs ih =>
      by_cases h : Named (g x)
      · have hx : namedVendor (f x) = some (g x) := by
          rw [hf, Option.filter_some, if_pos (decide_eq_true h)]
        rw [List.map_cons, List.filterMap_cons_some hx, ih]
        exact (List.filter_cons_of_pos (by simpa using h)).symm
      · have hx : namedVendor (f x) = none := by
          rw [hf, Option.filter_some, if_neg (by simpa using h)]
        rw [List.map_cons, List.filterMap_cons_none hx, ih]
        exact (List.filter_cons_of_neg (by simpa using h)).symm

theorem summary_column : extractDecisionSummary ((column d).orElse (.obj [])) =
    ⟨none, sortedSet (named (shortlisted d)), sortedSet (named (rejected d))⟩ := by
  cases d with
  | none => rfl
  | some d =>
      have hshort := filterMap_namedVendor (f := dumpVendor) (fun _ => rfl) d.shortlistedVendors
      have hreject := filterMap_namedVendor (f := dumpNotice) (fun _ => rfl) d.rejectedVendors
      change (⟨recommendedVendor (get (dump d) "recommended_vendor" .null),
        safeVendorIds (get (dump d) "shortlisted_vendors" .null),
        safeVendorIds (get (dump d) "rejected_vendors" .null)⟩ : DecisionSummary) = _
      rw [get_dump_recommended, get_dump_shortlisted, get_dump_rejected, safeVendorIds,
        safeVendorIds, hshort, hreject]
      rfl

theorem summary_eq_iff : extractDecisionSummary ((column a).orElse (.obj [])) =
    extractDecisionSummary ((column b).orElse (.obj [])) ↔ SameNamed a b := by
  rw [summary_column, summary_column]
  simp only [DecisionSummary.mk.injEq, sortedSet_eq_iff, true_and]
  exact ⟨fun h => ⟨h.1, h.2⟩, fun h => ⟨h.shortlisted, h.rejected⟩⟩

end Columns

section Runs

variable {a b : Option DecisionOutput} {runId : String}

theorem SameOutcome.sameNamed (h : SameOutcome a b) : SameNamed a b := by
  constructor
  · rw [named, named, List.toFinset_filter, List.toFinset_filter, h.shortlisted]
  · rw [named, named, List.toFinset_filter, List.toFinset_filter, h.rejected]

theorem not_flagged_column : ¬ Flagged (column b) := by
  rintro ⟨ms, hms, hflag⟩
  cases b with
  | none => cases hms
  | some d =>
      obtain rfl : dump d = ms := Json.obj.inj hms
      cases hflag

theorem computeDivergence_of_same (h : SameNamed a b) :
    computeDivergence runId (column a) (column b) = column b := if_pos (summary_eq_iff.mpr h)

theorem flagged_of_not_same (h : ¬ SameNamed a b) :
    Flagged (computeDivergence runId (column a) (column b)) := by
  have hdiffers := mt summary_eq_iff.mp h
  have hobject : ∃ ms, (column b).orElse (.obj []) = .obj ms := by
    cases b with
    | none => exact ⟨[], rfl⟩
    | some d => exact ⟨dump d, rfl⟩
  obtain ⟨ms, hms⟩ := hobject
  unfold computeDivergence
  rw [if_neg hdiffers, hms]
  exact ⟨_, rfl, by rw [member_append, if_pos rfl]; rfl⟩

/-- The flag stands on the new run exactly if the two runs differ in their named vendors. -/
theorem flagged_iff :
    Flagged (computeDivergence runId (column a) (column b)) ↔ ¬ SameNamed a b := by
  refine ⟨fun hflag hsame => ?_, flagged_of_not_same⟩
  rw [computeDivergence_of_same hsame] at hflag
  exact not_flagged_column hflag

/-- The flag and the null column are as the law says exactly for the pairs of runs that the named
vendors tell apart. -/
theorem flags_divergence_iff (runId : String) (original new : Option DecisionOutput) :
    FlagsDivergence original new (computeDivergence runId (column original) (column new)) ↔
      Discernible original new := by
  constructor
  · intro h
    refine ⟨fun hnew hsame => ?_, ?_⟩
    · by_contra houtcome
      exact flagged_iff.mp (h.flagged.mpr ⟨hnew, houtcome⟩) hsame
    · rintro rfl
      by_contra hdiffers
      obtain ⟨hsome, _⟩ := h.flagged.mp (flagged_of_not_same hdiffers)
      cases hsome
  · intro h
    cases new with
    | none =>
        have hsame := h.blocked rfl
        refine ⟨iff_of_false (fun hflag => flagged_iff.mp hflag hsame) nofun, fun _ => ?_⟩
        exact computeDivergence_of_same hsame
    | some d =>
        refine ⟨flagged_iff.trans ?_, nofun⟩
        constructor
        · exact fun hdiffers => ⟨rfl, fun houtcome => hdiffers houtcome.sameNamed⟩
        · exact fun houtcome hsame => houtcome.2 (h.decided rfl hsame)

end Runs

section Fixtures

def passedEvaluation (vendorId : VendorId) : EvaluationOutput where
  vendorId := vendorId
  complianceDecisions := []
  criterionScores := []
  overallCompliance := .pass
  totalWeightedScore := 0
  coverage := 1
  coverageNormalisedScore := 0
  scoreConfidence := ⟨1, not_one_lt_zero, not_one_lt_one⟩
  evaluationWarnings := []
  coverage_nonneg := full_nonneg
  coverage_le_one := full_le_one

def decisionOn (ranking : List VendorId) : DecisionOutput :=
  (runDecisionAgent (fun _ => .invalidJson "")
    ⟨[("acme", passedEvaluation "acme"), ("apex", passedEvaluation "apex")], by decide⟩
    ⟨"rfp", ["acme", "apex"], [], ranking, 1, ∅, [], []⟩ 500000).1

/-- A rerun with another winner among the same vendors has no flag, and a rerun that blocks has an
output that holds nothing else. -/
theorem winner_change_unflagged :
    (¬ FlagsDivergence (some (decisionOn ["acme", "apex"])) (some (decisionOn ["apex", "acme"]))
      (computeDivergence "run-1" (column (some (decisionOn ["acme", "apex"])))
        (column (some (decisionOn ["apex", "acme"]))))) ∧
    ¬ FlagsDivergence (some (decisionOn ["acme", "apex"])) none
      (computeDivergence "run-1" (column (some (decisionOn ["acme", "apex"]))) (column none)) := by
  have hsame : SameNamed (some (decisionOn ["acme", "apex"]))
      (some (decisionOn ["apex", "acme"])) := ⟨by decide +kernel, by decide +kernel⟩
  have hwinner : firstRanked (some (decisionOn ["acme", "apex"])) ≠
      firstRanked (some (decisionOn ["apex", "acme"])) := by decide +kernel
  have hdiffers : ¬ SameNamed (some (decisionOn ["acme", "apex"])) none := fun h =>
    absurd h.shortlisted (by decide +kernel)
  refine ⟨fun h => ?_, fun h => ?_⟩
  · have hflag := h.flagged.mpr ⟨rfl, fun houtcome => hwinner houtcome.winner⟩
    exact flagged_iff.mp hflag hsame
  · have hflag := @flagged_of_not_same _ _ "run-1" hdiffers
    cases (h.flagged.mp hflag).1

end Fixtures

end RfpPlatform.DivergenceFlag
