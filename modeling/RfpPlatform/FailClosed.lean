import RfpPlatform.Decision
import RfpPlatform.Evaluation

namespace RfpPlatform.FailClosed

open Decision Evaluation ExceptRules Json MandatoryChecks Retrieval SelfConsistency

variable {cfg : EvaluationSettings} {svc : EvaluationServices} {call : VendorCall}
  {output : EvaluationOutput} {critic : CriticOutput}

def EveryCheckPasses (setup : EvaluationSetup) (decisions : List ComplianceDecision) : Prop :=
  ∀ check ∈ setup.mandatoryChecks, ∃ d ∈ decisions,
    d.checkId = check.checkId ∧ d.decision = .pass

/-- No vendor passes, and none is shortlisted without a review reason, while a mandatory
check of the setup has no PASS. -/
structure FailsClosed (setup : EvaluationSetup) (output : EvaluationOutput) : Prop where
  overall : output.overallCompliance = .pass → EveryCheckPasses setup output.complianceDecisions
  shortlisted : ∀ (replies : VendorId → LlmReply) (evaluations : Dict VendorId EvaluationOutput)
    (comparator : ComparatorOutput) (contractValue : ℚ),
    evaluations.get? output.vendorId = some output →
    output.vendorId ∈ (runDecisionAgent replies evaluations comparator
      contractValue).1.shortlistedVendors.map ShortlistedVendor.vendorId →
    (∀ reason ∈ (runDecisionAgent replies evaluations comparator contractValue).1.reviewReasons,
      ¬ About output.vendorId reason) →
    EveryCheckPasses setup output.complianceDecisions

def Asked (svc : EvaluationServices) (call : VendorCall) (check : MandatoryCheck) (c : CheckCall) :
    Prop :=
  ∃ orgSettings facts target, orgSettingsOf svc call = .ok orgSettings ∧
    svc.vendorFacts call.orgId call.vendorId call.setup.setupId = .ok facts ∧
    (targetById call.setup).get? check.extractionTargetId = some target ∧
    c = checkCall call orgSettings facts check target

def Answered (cfg : EvaluationSettings) (svc : EvaluationServices) (call : VendorCall)
    (p : MandatoryCheck × Nat) : Prop :=
  ∃ c, Asked svc call p.1 c ∧ Usable cfg (svc.check p.2) c

def Denied (cfg : EvaluationSettings) (svc : EvaluationServices) (call : VendorCall)
    (p : MandatoryCheck × Nat) : Prop :=
  ∃ c, Asked svc call p.1 c ∧ Usable cfg (svc.check p.2) c ∧ ¬ Confirmed cfg (svc.check p.2) c

/-- Some check is denied, or every check, or one with its id, is answered. -/
def NoCheckLost (cfg : EvaluationSettings) (svc : EvaluationServices) (call : VendorCall) : Prop :=
  (∃ p ∈ call.setup.mandatoryChecks.zipIdx, Denied cfg svc call p) ∨
    ∀ check ∈ call.setup.mandatoryChecks, ∃ p ∈ call.setup.mandatoryChecks.zipIdx,
      p.1.checkId = check.checkId ∧ Answered cfg svc call p

/-- What an evaluation that returns was made of. -/
theorem runEvaluationAgent_eq_ok (h : runEvaluationAgent cfg svc call = .ok (output, critic)) :
    ∃ orgSettings facts, orgSettingsOf svc call = .ok orgSettings ∧
      svc.vendorFacts call.orgId call.vendorId call.setup.setupId = .ok facts ∧
      output.vendorId = call.vendorId ∧
      output.complianceDecisions = (call.setup.mandatoryChecks.zipIdx.map
        (checkOutcome cfg svc call orgSettings facts)).filterMap Sum.getRight? ∧
      output.overallCompliance = overallCompliance output.complianceDecisions := by
  simp only [runEvaluationAgent, bind_eq_ok] at h
  obtain ⟨orgSettings, hsettings, facts, hfacts, out, hout, hpair⟩ := h
  cases pure_eq_ok.mp hpair
  obtain ⟨hvendor, hdecisions, hoverall⟩ := evaluationOutput_eq_ok hout
  refine ⟨orgSettings, facts, hsettings, hfacts, hvendor, hdecisions, ?_⟩
  rw [hoverall, hdecisions]

theorem checkOutcome_eq_inr {orgSettings : Option OrgSettings} {facts : VendorFacts}
    {p : MandatoryCheck × Nat} {d : ComplianceDecision} :
    checkOutcome cfg svc call orgSettings facts p = .inr d ↔
      ∃ target, (targetById call.setup).get? p.1.extractionTargetId = some target ∧
        evaluateMandatoryCheck cfg (svc.check p.2)
          (checkCall call orgSettings facts p.1 target) = .ok d := by
  unfold checkOutcome
  cases (targetById call.setup).get? p.1.extractionTargetId with
  | none => simp
  | some target =>
      cases heval : evaluateMandatoryCheck cfg (svc.check p.2)
        (checkCall call orgSettings facts p.1 target) with
      | error exc => simp [heval]
      | ok decision => simp [heval]

theorem decisions_spec (h : runEvaluationAgent cfg svc call = .ok (output, critic)) :
    (∀ d ∈ output.complianceDecisions, ∃ p ∈ call.setup.mandatoryChecks.zipIdx, ∃ c,
        Asked svc call p.1 c ∧ Usable cfg (svc.check p.2) c ∧ d.checkId = p.1.checkId ∧
        (d.decision = .pass ↔ Confirmed cfg (svc.check p.2) c)) ∧
      ∀ p ∈ call.setup.mandatoryChecks.zipIdx, ∀ c, Asked svc call p.1 c →
        Usable cfg (svc.check p.2) c → ∃ d ∈ output.complianceDecisions,
          d.checkId = p.1.checkId ∧ (d.decision = .pass ↔ Confirmed cfg (svc.check p.2) c) := by
  obtain ⟨orgSettings, facts, hsettings, hfacts, _, hdecisions, _⟩ := runEvaluationAgent_eq_ok h
  rw [hdecisions]
  constructor
  · intro d hd
    obtain ⟨outcome, houtcome, hright⟩ := List.mem_filterMap.mp hd
    obtain ⟨p, hp, rfl⟩ := List.mem_map.mp houtcome
    obtain ⟨target, htarget, hok⟩ := checkOutcome_eq_inr.mp (Sum.getRight?_eq_some_iff.mp hright)
    exact ⟨p, hp, _, ⟨orgSettings, facts, target, hsettings, hfacts, htarget, rfl⟩,
      (evaluateMandatoryCheck_returns _ _ _).mp ⟨d, hok⟩, evaluateMandatoryCheck_fields _ _ _ hok⟩
  · rintro p hp c ⟨settings', facts', target, hsettings', hfacts', htarget, rfl⟩ husable
    obtain rfl : orgSettings = settings' := Except.ok.inj (hsettings.symm.trans hsettings')
    obtain rfl : facts = facts' := Except.ok.inj (hfacts.symm.trans hfacts')
    obtain ⟨d, hok⟩ := (evaluateMandatoryCheck_returns _ _ _).mpr husable
    have hinr : checkOutcome cfg svc call orgSettings facts p = .inr d :=
      checkOutcome_eq_inr.mpr ⟨target, htarget, hok⟩
    refine ⟨d, List.mem_filterMap.mpr ⟨.inr d, ?_, rfl⟩, evaluateMandatoryCheck_fields _ _ _ hok⟩
    exact List.mem_map.mpr ⟨p, hp, hinr⟩

theorem all_pass_iff_not_denied (h : runEvaluationAgent cfg svc call = .ok (output, critic)) :
    (∀ d ∈ output.complianceDecisions, d.decision = .pass) ↔
      ¬ ∃ p ∈ call.setup.mandatoryChecks.zipIdx, Denied cfg svc call p := by
  obtain ⟨hfrom, hto⟩ := decisions_spec h
  constructor
  · rintro hall ⟨p, hp, c, hasked, husable, hdenied⟩
    obtain ⟨d, hd, _, hpass⟩ := hto p hp c hasked husable
    exact hdenied (hpass.mp (hall d hd))
  · intro hnone d hd
    obtain ⟨p, hp, c, hasked, husable, _, hpass⟩ := hfrom d hd
    by_contra hne
    exact hnone ⟨p, hp, c, hasked, husable, fun hc => hne (hpass.mpr hc)⟩

theorem everyCheckPasses_iff (h : runEvaluationAgent cfg svc call = .ok (output, critic))
    (hall : ∀ d ∈ output.complianceDecisions, d.decision = .pass) :
    EveryCheckPasses call.setup output.complianceDecisions ↔
      ∀ check ∈ call.setup.mandatoryChecks, ∃ p ∈ call.setup.mandatoryChecks.zipIdx,
        p.1.checkId = check.checkId ∧ Answered cfg svc call p := by
  obtain ⟨hfrom, hto⟩ := decisions_spec h
  constructor
  · intro hpasses check hcheck
    obtain ⟨d, hd, hid, _⟩ := hpasses check hcheck
    obtain ⟨p, hp, c, hasked, husable, hpid, _⟩ := hfrom d hd
    exact ⟨p, hp, hpid.symm.trans hid, c, hasked, husable⟩
  · intro hanswered check hcheck
    obtain ⟨p, hp, hid, c, hasked, husable⟩ := hanswered check hcheck
    obtain ⟨d, hd, hdid, _⟩ := hto p hp c hasked husable
    exact ⟨d, hd, hdid.trans hid, hall d hd⟩

/-- An evaluation fails closed exactly when no check is lost. A check whose replies cannot
be turned into a decision leaves a warning, and the verdict is folded over the other checks. -/
theorem failsClosed_iff (h : runEvaluationAgent cfg svc call = .ok (output, critic)) :
    FailsClosed call.setup output ↔ NoCheckLost cfg svc call := by
  obtain ⟨_, _, _, _, _, _, hoverall⟩ := runEvaluationAgent_eq_ok h
  constructor
  · intro hclosed
    by_cases hdenied : ∃ p ∈ call.setup.mandatoryChecks.zipIdx, Denied cfg svc call p
    · exact Or.inl hdenied
    · have hall := (all_pass_iff_not_denied h).mpr hdenied
      have hpass : output.overallCompliance = .pass := by
        rw [hoverall]
        exact overallCompliance_eq_pass.mpr hall
      exact Or.inr ((everyCheckPasses_iff h hall).mp (hclosed.overall hpass))
  · intro hlost
    have hpasses : (∀ d ∈ output.complianceDecisions, d.decision = .pass) →
        EveryCheckPasses call.setup output.complianceDecisions := by
      intro hall
      rcases hlost with hdenied | hanswered
      · exact absurd hdenied ((all_pass_iff_not_denied h).mp hall)
      · exact (everyCheckPasses_iff h hall).mpr hanswered
    constructor
    · intro hpass
      rw [hoverall] at hpass
      exact hpasses (overallCompliance_eq_pass.mp hpass)
    · intro replies evaluations comparator contractValue hget hshort hreasons
      exact hpasses (shortlisted_all_pass hshort hreasons hget)

section Sample

def isoTarget : ExtractionTarget :=
  ⟨"t", "ISO 27001", "certificate", "certification", true, some "k", some "c"⟩

def isoCheck : MandatoryCheck := ⟨"c", "ISO 27001", "certified", "valid", "t"⟩

def isoCriterion : ScoringCriterion where
  criterionId := "k"
  name := "ISO"
  weight := 1
  rubric_9_10 := ""
  rubric_6_8 := ""
  rubric_3_5 := ""
  rubric_0_2 := ""
  extractionTargetIds := ["t"]
  weight_pos := by decide +kernel
  weight_le_one := full_le_one

def isoSetup : EvaluationSetup where
  setupId := "s"
  orgId := "o"
  rfpId := "rfp"
  rfpConfirmed := true
  mandatoryChecks := [isoCheck]
  scoringCriteria := [isoCriterion]
  extractionTargets := [isoTarget]
  totalWeight := 1
  confirmedBy := "u"
  source := "m"
  total_weight_range := full_weight_range
  weights_sum_to_one := fun _ => by decide +kernel
  every_check_has_extraction_target := by decide +kernel

def isoCall : VendorCall := ⟨"v", "o", isoSetup, []⟩

def plainOrg : OrgSettings := ⟨false, false, 5, 5, false, "none"⟩

def servicesReplying (reply : LlmReply) : EvaluationServices where
  orgSettings _ := .ok plainOrg
  vendorFacts _ _ _ := .ok ⟨[[]], [], [], [], [], []⟩
  check _ :=
    { primary := reply
      sample := fun _ => reply
      retrieve := fun _ _ => .error ⟨.external, "down"⟩
      judge := fun _ _ => ⟨false, ⟨1, not_one_lt_zero, not_one_lt_one⟩⟩
      verify := fun _ _ => reply }
  criterion _ := .json (.obj [("raw_score", .num 9), ("confidence", .num 1)])

def shippedEvaluation : EvaluationSettings := ⟨shippedSettings, 1, 6 / 10⟩

def passReply : LlmReply := .json (.obj [("decision", .str "pass"), ("confidence", .num 1)])

def returned {α : Type*} (p : α → Bool) : Except Exn α → Bool
  | .ok a => p a
  | .error _ => false

theorem of_returned {α : Type*} {p : α → Bool} {x : Except Exn α} (h : returned p x = true) :
    ∃ a, x = .ok a ∧ p a = true := by
  cases x with
  | error exc => cases h
  | ok a => exact ⟨a, rfl, h⟩

/-- The reply `[]` on its only mandatory check makes a vendor pass, with no decision on the
check at all. -/
theorem check_lost_on_list_reply : ¬ ∀ cfg svc call output critic,
    runEvaluationAgent cfg svc call = .ok (output, critic) → FailsClosed call.setup output := by
  intro hclosed
  have hrun : returned (fun r => decide (r.1.overallCompliance = .pass ∧
      r.1.complianceDecisions = []))
      (runEvaluationAgent shippedEvaluation (servicesReplying (.json (.arr []))) isoCall) = true := by
    decide +kernel
  obtain ⟨⟨output, critic⟩, hok, hempty⟩ := of_returned hrun
  obtain ⟨hpass, hnil⟩ := of_decide_eq_true hempty
  have hchecks := (hclosed _ _ _ _ _ hok).overall hpass
  obtain ⟨d, hd, _⟩ := hchecks isoCheck (List.mem_singleton_self _)
  rw [hnil] at hd
  cases hd

theorem failsClosed_iff_iso : ∃ output critic,
    runEvaluationAgent shippedEvaluation (servicesReplying passReply) isoCall =
      .ok (output, critic) ∧ FailsClosed isoSetup output := by
  have hrun : returned (fun _ => true)
      (runEvaluationAgent shippedEvaluation (servicesReplying passReply) isoCall) = true := by
    decide +kernel
  obtain ⟨⟨output, critic⟩, hok, _⟩ := of_returned hrun
  have hcheck : returned (fun _ => true) (evaluateMandatoryCheck shippedEvaluation
      ((servicesReplying passReply).check 0)
      (checkCall isoCall (some plainOrg) ⟨[[]], [], [], [], [], []⟩ isoCheck isoTarget)) = true := by
    decide +kernel
  obtain ⟨d, hd, _⟩ := of_returned hcheck
  have husable := (evaluateMandatoryCheck_returns _ _ _).mp ⟨d, hd⟩
  have hasked : Asked (servicesReplying passReply) isoCall isoCheck
      (checkCall isoCall (some plainOrg) ⟨[[]], [], [], [], [], []⟩ isoCheck isoTarget) :=
    ⟨_, _, isoTarget, rfl, rfl, by decide +kernel, rfl⟩
  refine ⟨output, critic, hok, (failsClosed_iff hok).mpr (Or.inr ?_)⟩
  intro check hmem
  rw [List.mem_singleton.mp hmem]
  exact ⟨(isoCheck, 0), List.mem_singleton_self _, rfl, _, hasked, husable⟩

end Sample

end RfpPlatform.FailClosed
