import RfpPlatform.DecisionPayload
import RfpPlatform.FailClosed

namespace RfpPlatform.MandatoryTable

open Decision DecisionPayload ExceptRules Json

section Table

inductive TableResult
  | pass | fail
  deriving DecidableEq

structure TableRow where
  vendorId : Json
  vendorName : Json
  check : Json
  result : TableResult

/-- `for x in value` -/
def iterate : Json → Except Exn (List Json)
  | .arr xs => .ok xs
  | .str s => .ok (s.toList.map fun c => .str (String.singleton c))
  | .obj ms => .ok (ms.map fun p => .str p.1)
  | v => .error ⟨.typeError, s!"'{v.typeName}' object is not iterable"⟩

def noticeRows (r : Json) : Except Exn (List TableRow) := do
  let ms ← r.asObject
  let vid := get ms "vendor_id" (.str "")
  let checks ← iterate ((get ms "failed_checks" (.arr [])).orElse (.arr []))
  return checks.map fun check => ⟨vid, get ms "vendor_name" vid, check, .fail⟩

def passedRow (v : Json) : Except Exn TableRow := do
  let ms ← v.asObject
  let vid := get ms "vendor_id" (.str "")
  return ⟨vid, get ms "vendor_name" vid, .str "All mandatory requirements", .pass⟩

def mandatoryTable (rejected shortlisted : Json) : Except Exn (List TableRow) := do
  let notices ← iterate rejected
  let failed ← notices.mapM noticeRows
  let vendors ← iterate shortlisted
  let passed ← vendors.mapM passedRow
  return failed.flatten ++ passed

/-- The table in `build_report_context`, from the decision of the run. -/
def reportTable (dec : List (String × Json)) : Except Exn (List TableRow) :=
  mandatoryTable ((get dec "rejected_vendors" (.arr [])).orElse (.arr []))
    ((get dec "shortlisted_vendors" (.arr [])).orElse (.arr []))

end Table

section Faithful

/-- A check is passed when it is decided and every decision on it is PASS. -/
def DecidedPass (evaluation : EvaluationOutput) (checkId : String) : Prop :=
  (∃ d ∈ evaluation.complianceDecisions, d.checkId = checkId) ∧
    ∀ d ∈ evaluation.complianceDecisions, d.checkId = checkId → d.decision = .pass

def DecidedFail (evaluation : EvaluationOutput) (checkId : String) : Prop :=
  ∃ d ∈ evaluation.complianceDecisions, d.checkId = checkId ∧ d.decision = .fail

/-- A vendor stands as passed only if each check of the setup is decided PASS for it, and a check
stands as failed only if it is decided FAIL. -/
structure Faithful (setup : EvaluationSetup) (evaluations : Dict VendorId EvaluationOutput)
    (table : List TableRow) : Prop where
  passed : ∀ row ∈ table, row.result = .pass → ∀ v evaluation, row.vendorId = .str v →
    evaluations.get? v = some evaluation →
      ∀ check ∈ setup.mandatoryChecks, DecidedPass evaluation check.checkId
  failed : ∀ row ∈ table, row.result = .fail → ∀ v evaluation checkId, row.vendorId = .str v →
    evaluations.get? v = some evaluation → row.check = .str checkId → DecidedFail evaluation checkId

/-- A check that is not demonstrated is decided FAIL as well, unless evidence of the vendor is
contradicted, and a vendor without a FAIL has passed every check of the setup. -/
structure Settled (setup : EvaluationSetup) (evaluation : EvaluationOutput) : Prop where
  undemonstrated : (∀ d ∈ evaluation.complianceDecisions, d.contradictionsFound = []) →
    ∀ d ∈ evaluation.complianceDecisions, d.decision = .insufficientEvidence →
      DecidedFail evaluation d.checkId
  unfailed : (∀ d ∈ evaluation.complianceDecisions, d.decision ≠ .fail) →
    ∀ check ∈ setup.mandatoryChecks, DecidedPass evaluation check.checkId

end Faithful

section Rows

variable {replies : VendorId → LlmReply} {evaluations : Dict VendorId EvaluationOutput}
  {comparator : ComparatorOutput} {contractValue : ℚ} {evaluation : EvaluationOutput}
  {setup : EvaluationSetup} {d : ComplianceDecision}

def failRow (v : VendorId) (checkId : String) : TableRow := ⟨.str v, .str v, .str checkId, .fail⟩

def passRow (v : VendorId) : TableRow :=
  ⟨.str v, .str v, .str "All mandatory requirements", .pass⟩

theorem orElse_arr (xs : List Json) : (Json.arr xs).orElse (.arr []) = .arr xs := by
  cases xs <;> rfl

theorem noticeRows_dump (n : RejectionNotice) : noticeRows (dumpNotice n) =
    .ok (n.failedChecks.map fun c => ⟨.str n.vendorId, .str n.vendorName, .str c, .fail⟩) := by
  have hchecks : iterate ((strings n.failedChecks).orElse (.arr [])) =
      .ok (n.failedChecks.map .str) := by
    rw [strings, orElse_arr]
    rfl
  change (iterate ((strings n.failedChecks).orElse (.arr [])) >>= _) = _
  rw [hchecks]
  change Except.ok ((n.failedChecks.map .str).map fun check =>
    (⟨.str n.vendorId, .str n.vendorName, check, .fail⟩ : TableRow)) = _
  rw [List.map_map]
  rfl

theorem passedRow_dump (v : ShortlistedVendor) : passedRow (dumpVendor v) =
    .ok ⟨.str v.vendorId, .str v.vendorName, .str "All mandatory requirements", .pass⟩ := rfl

theorem reportTable_dump (d : DecisionOutput) : reportTable (dump d) =
    .ok ((d.rejectedVendors.flatMap fun n => n.failedChecks.map fun c =>
        ⟨.str n.vendorId, .str n.vendorName, .str c, .fail⟩) ++
      d.shortlistedVendors.map fun v =>
        ⟨.str v.vendorId, .str v.vendorName, .str "All mandatory requirements", .pass⟩) := by
  rw [reportTable, get_dump_rejected, get_dump_shortlisted, orElse_arr, orElse_arr]
  change ((d.rejectedVendors.map dumpNotice).mapM noticeRows >>= fun failed =>
    (d.shortlistedVendors.map dumpVendor).mapM passedRow >>= fun passed =>
      pure (failed.flatten ++ passed)) = _
  rw [mapM_map_eq_ok noticeRows_dump, mapM_map_eq_ok passedRow_dump]
  rfl

/-- The rows of the report on a decision of the agent. -/
def rowsOf (evaluations : Dict VendorId EvaluationOutput) (comparator : ComparatorOutput) :
    List TableRow :=
  ((evaluations.rows.filter fun p => Rejected p.2).flatMap fun p =>
    (rejectingDecisions p.2.complianceDecisions).map fun d => failRow p.1 d.checkId) ++
  (shortlist evaluations comparator).map fun p => passRow p.1

theorem reportTable_runDecisionAgent :
    reportTable (dump (runDecisionAgent replies evaluations comparator contractValue).1) =
      .ok (rowsOf evaluations comparator) := by
  rw [reportTable_dump]
  refine congrArg Except.ok (congrArg₂ _ ?_ ?_)
  · change ((evaluations.rows.filter fun p => Rejected p.2).map
      fun p => buildRejectionNotice (replies p.1) p.1 p.2).flatMap _ = _
    rw [List.flatMap_map]
    refine List.flatMap_congr fun p _ => ?_
    exact List.map_map
  · change ((shortlist evaluations comparator).zipIdx.map shortlistedVendor).map _ = _
    rw [List.map_map]
    conv_rhs => rw [← List.zipIdx_map_fst 0 (shortlist evaluations comparator), List.map_map]
    rfl

theorem mem_rowsOf {row : TableRow} : row ∈ rowsOf evaluations comparator ↔
    (∃ v evaluation, evaluations.get? v = some evaluation ∧
      ∃ d ∈ rejectingDecisions evaluation.complianceDecisions, failRow v d.checkId = row) ∨
    ∃ v evaluation, evaluations.get? v = some evaluation ∧ ¬ Rejected evaluation ∧
      passRow v = row := by
  rw [rowsOf, List.mem_append, List.mem_flatMap, List.mem_map]
  refine or_congr ⟨?_, ?_⟩ ⟨?_, ?_⟩
  · rintro ⟨⟨v, evaluation⟩, hp, hrow⟩
    obtain ⟨d, hd, rfl⟩ := List.mem_map.mp hrow
    exact ⟨v, evaluation, Dict.get?_eq_some.mpr (List.mem_filter.mp hp).1, d, hd, rfl⟩
  · rintro ⟨v, evaluation, hget, d, hd, rfl⟩
    have hrejected : Rejected evaluation := List.ne_nil_of_mem hd
    exact ⟨(v, evaluation),
      List.mem_filter.mpr ⟨Dict.get?_eq_some.mp hget, decide_eq_true hrejected⟩,
      List.mem_map_of_mem hd⟩
  · rintro ⟨⟨v, evaluation⟩, hp, rfl⟩
    obtain ⟨hmem, hkept⟩ := mem_shortlist.mp hp
    exact ⟨v, evaluation, Dict.get?_eq_some.mpr hmem, hkept, rfl⟩
  · rintro ⟨v, evaluation, hget, hkept, rfl⟩
    exact ⟨(v, evaluation), mem_shortlist.mpr ⟨Dict.get?_eq_some.mp hget, hkept⟩, rfl⟩

end Rows

section Statuses

variable {evaluation : EvaluationOutput} {d : ComplianceDecision}

/-- A decision rejects if it is FAIL, or if it is not demonstrated and nothing is contradicted. -/
theorem mem_rejectingDecisions :
    d ∈ rejectingDecisions evaluation.complianceDecisions ↔ d ∈ evaluation.complianceDecisions ∧
      (d.decision = .fail ∨ d.decision = .insufficientEvidence ∧
        ∀ e ∈ evaluation.complianceDecisions, e.contradictionsFound = []) := by
  have hany : (evaluation.complianceDecisions.any fun e => !e.contradictionsFound.isEmpty) = false ↔
      ∀ e ∈ evaluation.complianceDecisions, e.contradictionsFound = [] := by
    simp [List.any_eq_false]
  rw [rejectingDecisions, List.mem_filter]
  refine and_congr_right fun hd => ?_
  simp only [rejects, Bool.or_eq_true, Bool.and_eq_true, decide_eq_true_iff, Bool.not_eq_true',
    List.isEmpty_iff, hany, and_assoc]
  refine or_congr_right (and_congr_right fun _ => ?_)
  exact ⟨fun h => h.2, fun h => ⟨h d hd, h⟩⟩

theorem not_rejected_iff : ¬ Rejected evaluation ↔ ∀ d ∈ evaluation.complianceDecisions,
    d ∉ rejectingDecisions evaluation.complianceDecisions := by
  rw [Rejected, not_not, List.eq_nil_iff_forall_not_mem]
  refine forall_congr' fun d => ⟨fun h _ => h, fun h hd => ?_⟩
  exact h (mem_rejectingDecisions.mp hd).1 hd

end Statuses

section Reports

variable {evaluations : Dict VendorId EvaluationOutput} {comparator : ComparatorOutput}
  {setup : EvaluationSetup}

theorem settled_of_faithful (h : Faithful setup evaluations (rowsOf evaluations comparator))
    {v : VendorId} {evaluation : EvaluationOutput} (hget : evaluations.get? v = some evaluation) :
    Settled setup evaluation := by
  have hfail {d : ComplianceDecision}
      (hd : d ∈ rejectingDecisions evaluation.complianceDecisions) :
      DecidedFail evaluation d.checkId :=
    h.failed (failRow v d.checkId) (mem_rowsOf.mpr (Or.inl ⟨v, evaluation, hget, d, hd, rfl⟩)) rfl
      v evaluation d.checkId rfl hget rfl
  refine ⟨fun hagree d hd hmissing => ?_, fun hunfailed => ?_⟩
  · exact hfail (mem_rejectingDecisions.mpr ⟨hd, Or.inr ⟨hmissing, hagree⟩⟩)
  · have hkept : ¬ Rejected evaluation := not_rejected_iff.mpr fun d _ hd => by
      obtain ⟨e, he, _, hfailed⟩ := hfail hd
      exact hunfailed e he hfailed
    exact h.passed (passRow v) (mem_rowsOf.mpr (Or.inr ⟨v, evaluation, hget, hkept, rfl⟩)) rfl
      v evaluation rfl hget

theorem faithful_of_settled
    (h : ∀ v evaluation, evaluations.get? v = some evaluation → Settled setup evaluation) :
    Faithful setup evaluations (rowsOf evaluations comparator) := by
  constructor
  · rintro row hrow hpass v evaluation hv hget
    rcases mem_rowsOf.mp hrow with ⟨_, _, _, _, _, rfl⟩ | ⟨v', evaluation', hget', hkept, rfl⟩
    · cases hpass
    · obtain rfl : v' = v := Json.str.inj hv
      obtain rfl : evaluation' = evaluation := Option.some.inj (hget'.symm.trans hget)
      refine (h v' evaluation' hget).unfailed fun d hd hfail => ?_
      exact not_rejected_iff.mp hkept d hd (mem_rejectingDecisions.mpr ⟨hd, Or.inl hfail⟩)
  · rintro row hrow hfail v evaluation checkId hv hget hcheck
    rcases mem_rowsOf.mp hrow with ⟨v', evaluation', hget', d, hd, rfl⟩ | ⟨_, _, _, _, rfl⟩
    · obtain rfl : v' = v := Json.str.inj hv
      obtain rfl : evaluation' = evaluation := Option.some.inj (hget'.symm.trans hget)
      obtain rfl : d.checkId = checkId := Json.str.inj hcheck
      obtain ⟨hmem, hfailed | ⟨hmissing, hagree⟩⟩ := mem_rejectingDecisions.mp hd
      · exact ⟨d, hmem, rfl, hfailed⟩
      · exact (h v' evaluation' hget).undemonstrated hagree d hmem hmissing
    · cases hfail

/-- The report of every decision has a table, which is faithful exactly to the evaluations that
settle each vendor. -/
theorem table_faithful_iff (replies : VendorId → LlmReply)
    (evaluations : Dict VendorId EvaluationOutput) (comparator : ComparatorOutput)
    (contractValue : ℚ) (setup : EvaluationSetup) : ∃ table,
    reportTable (dump (runDecisionAgent replies evaluations comparator contractValue).1) =
        .ok table ∧
      (Faithful setup evaluations table ↔
        ∀ v evaluation, evaluations.get? v = some evaluation → Settled setup evaluation) :=
  ⟨rowsOf evaluations comparator, reportTable_runDecisionAgent,
    fun h _ _ hget => settled_of_faithful h hget, faithful_of_settled⟩

end Reports

section Fixtures

open FailClosed (isoCheck isoSetup)

def undecided (vendorId : VendorId) (contradictions : List String) : EvaluationOutput where
  vendorId := vendorId
  complianceDecisions :=
    [{ checkId := isoCheck.checkId
       vendorId := vendorId
       decision := .insufficientEvidence
       confidence := ⟨1, not_one_lt_zero, not_one_lt_one⟩
       reasoning := ""
       evidenceUsed := []
       contradictionsFound := contradictions
       decisionBasis := .notAddressed
       voteBreakdown := { samples := 1 } }]
  criterionScores := []
  overallCompliance := .reviewRequired
  totalWeightedScore := 0
  coverage := 1
  coverageNormalisedScore := 0
  scoreConfidence := ⟨1, not_one_lt_zero, not_one_lt_one⟩
  evaluationWarnings := []
  coverage_nonneg := full_nonneg
  coverage_le_one := full_le_one

def openEvaluations : Dict VendorId EvaluationOutput :=
  ⟨[("epsilon", undecided "epsilon" ["cover of 10M and of 2M"]), ("omega", undecided "omega" [])],
    by decide⟩

def openComparison : ComparatorOutput :=
  ⟨"rfp", ["epsilon", "omega"], [], ["epsilon", "omega"], 1, ∅, [], []⟩

/-- Neither vendor has a decision but one of missing evidence on its only check. The report has one
of them as passed, and the check as failed for the other. -/
theorem open_checks_in_table : ∃ table,
    reportTable (dump (runDecisionAgent (fun _ => .invalidJson "") openEvaluations openComparison
      500000).1) = .ok table ∧ passRow "epsilon" ∈ table ∧
      failRow "omega" isoCheck.checkId ∈ table ∧ ¬ Faithful isoSetup openEvaluations table := by
  have hepsilon : openEvaluations.get? "epsilon" =
      some (undecided "epsilon" ["cover of 10M and of 2M"]) := rfl
  have homega : openEvaluations.get? "omega" = some (undecided "omega" []) := rfl
  have hkept : ¬ Rejected (undecided "epsilon" ["cover of 10M and of 2M"]) := by decide
  have hpassed : passRow "epsilon" ∈ rowsOf openEvaluations openComparison :=
    mem_rowsOf.mpr (Or.inr ⟨_, _, hepsilon, hkept, rfl⟩)
  have hfailed : failRow "omega" isoCheck.checkId ∈ rowsOf openEvaluations openComparison :=
    mem_rowsOf.mpr (Or.inl ⟨_, _, homega, _, List.mem_singleton_self _, rfl⟩)
  refine ⟨_, reportTable_runDecisionAgent, hpassed, hfailed, fun h => ?_⟩
  have hiso := h.passed _ hpassed rfl _ _ rfl hepsilon isoCheck (List.mem_singleton_self _)
  exact absurd (hiso.2 _ (List.mem_singleton_self _) rfl) (by decide)

end Fixtures

end RfpPlatform.MandatoryTable
