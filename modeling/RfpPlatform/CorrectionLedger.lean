import RfpPlatform.Ingestion
import RfpPlatform.JsonText
import RfpPlatform.KeyedLog
import RfpPlatform.RunAccess

namespace RfpPlatform.CorrectionLedger

open AccountRequests (TokenData)
open CanonicalText (Value)
open ExceptRules Ingestion JsonText RunAccess
open RunRequests (wideRoles)

section Records

abbrev Members := List (String × JsonValue)

/-- A record of a human correction. Its validator asks for a documented reason. -/
structure EvaluationCorrection where
  correctionId : String
  orgId : String
  runId : String
  vendorId : String
  targetType : String
  targetId : String
  targetName : String
  originalValue : Members
  correctedValue : Members
  reason : String
  correctedBy : String
  active : Bool
  createdAt : Nat
  reason_long : 20 ≤ PyText.strippedLength reason

structure AuditOverride where
  overrideId : String
  orgId : String
  runId : String
  overriddenBy : String
  originalDecision : Members
  newDecision : Members
  reason : String
  timestamp : Nat
  reason_long : 20 ≤ PyText.strippedLength reason

structure Ledger where
  evaluationCorrections : List EvaluationCorrection
  auditOverrides : List AuditOverride

def Ledger.empty : Ledger := ⟨[], []⟩

/-- `INSERT ... ON CONFLICT (correction_id) DO NOTHING` -/
def Ledger.saveCorrection (l : Ledger) (c : EvaluationCorrection) : Ledger :=
  { l with evaluationCorrections :=
      KeyedLog.record EvaluationCorrection.correctionId l.evaluationCorrections c }

def Ledger.saveOverride (l : Ledger) (o : AuditOverride) : Ledger :=
  { l with auditOverrides := KeyedLog.record AuditOverride.overrideId l.auditOverrides o }

end Records

section Requests

structure CorrectionRequest where
  targetType : String
  targetId : String
  targetName : String := ""
  vendorId : String := ""
  originalValue : Members := []
  correctedValue : Members
  reason : String

structure OverrideRequest where
  vendorId : String
  reason : String

inductive Call
  | override (body : OverrideRequest)
  | correct (body : CorrectionRequest)

/-- The ids and the clocks that a request draws, and which of its writes the database accepts. -/
structure Draw where
  correctionId : String
  overrideId : String
  createdAt : Nat
  timestamp : Nat
  correctionSaved : Bool
  overrideSaved : Bool

/-- What a request finds: who may see which run, the vendors of the decisions of the runs (the
shortlisted ones first), and the patterns of the configuration. -/
structure Platform where
  access : AccessTables
  decidedVendors : String → List Members
  patterns : List InjectionPattern

structure Request where
  user : TokenData
  runId : String
  call : Call
  finds : Platform
  draw : Draw

variable (r : Request)

def member (name : String) (ms : Members) : Option JsonValue := ms.lookup name

def http (statusCode : Nat) (detail : String) : Exn := ⟨.httpException statusCode, detail⟩

/-- `_db_get_run`, `require_run_access` and `require_admin_role` -/
def authorise : Except Exn AccessRun := do
  let run ← orRaise ((r.finds.access.runs.lookup r.runId).filter fun run =>
    run.orgId = r.user.orgId) (http 404 "Run not found")
  raiseIf (Rbac.canViewRun r.finds.access r.user run = false)
    (http 403 "You do not have access to this evaluation run")
  raiseIf (r.user.role ∉ wideRoles)
    (http 403 "Override and approval actions require department_admin role or above")
  return run

def isScore : Option JsonValue → Bool
  | some (.scalar (.int n)) => 0 ≤ n && n ≤ 10
  | _ => false

def isDecision : Option JsonValue → Bool
  | some (.str s) => s ∈ ComplianceStatus.all.map ComplianceStatus.value
  | _ => false

def checkValue (body : CorrectionRequest) : Except Exn Unit :=
  if body.targetType = "criterion" then
    raiseIf (isScore (member "raw_score" body.correctedValue) = false)
      (http 400 "criterion correction needs corrected_value.raw_score as an integer 0-10")
  else
    raiseIf (isDecision (member "decision" body.correctedValue) = false)
      (http 400 ("check correction needs corrected_value.decision in " ++
        PyText.listRepr ["fail", "insufficient_evidence", "pass"]))

def vendorInRun (run : AccessRun) (vendorId : String) : Bool :=
  (r.finds.decidedVendors run.runId).any fun v =>
    match member "vendor_id" v with
    | some (.str s) => s = vendorId
    | _ => false

/-- The checks of `submit_correction`, up to the record that it builds. -/
def checkedCorrection (body : CorrectionRequest) : Except Exn EvaluationCorrection := do
  let run ← authorise r
  raiseIf (body.targetType ∉ ["criterion", "check"])
    (http 400 "target_type must be \x27criterion\x27 or \x27check\x27")
  checkValue body
  raiseIf (body.vendorId ≠ "" ∧ vendorInRun r run body.vendorId = false)
    (http 404 s!"Vendor {body.vendorId} not found in run {r.runId}")
  if h : 20 ≤ PyText.strippedLength body.reason then
    raiseIf (scanText body.reason r.finds.patterns ≠ [])
      (http 400 "Correction reason rejected: it matches a prompt-injection pattern.")
    return ⟨r.draw.correctionId, r.user.orgId, r.runId, body.vendorId, body.targetType,
      body.targetId, body.targetName, body.originalValue, body.correctedValue, body.reason,
      r.user.email, true, r.draw.createdAt, h⟩
  else .error (http 400 "Correction reason must be at least 20 characters.")

def overrideOf (c : EvaluationCorrection) : AuditOverride :=
  let target : Members := [("target_type", .str c.targetType), ("target_id", .str c.targetId),
    ("vendor_id", .str c.vendorId)]
  ⟨r.draw.overrideId, c.orgId, c.runId, c.correctedBy,
    target ++ [("value", .dict c.originalValue)],
    target ++ [("value", .dict c.correctedValue), ("correction_id", .str c.correctionId)],
    c.reason, r.draw.timestamp, c.reason_long⟩

def submitCorrection (l : Ledger) (body : CorrectionRequest) : Ledger × Except Exn String :=
  match checkedCorrection r body with
  | .error e => (l, .error e)
  | .ok c =>
      if r.draw.correctionSaved then
        if r.draw.overrideSaved then
          ((l.saveCorrection c).saveOverride (overrideOf r c), .ok c.correctionId)
        else (l.saveCorrection c, .error ⟨.external, "audit_overrides"⟩)
      else (l, .error ⟨.external, "evaluation_corrections"⟩)

/-- The first of the vendors whose id is the given one, where an entry without an id raises. -/
def originalOf (vendorId : String) : List Members → Except Exn (Option Members)
  | [] => .ok none
  | v :: vs =>
      match member "vendor_id" v with
      | none => .error ⟨.keyError, "\x27vendor_id\x27"⟩
      | some (.str s) => if s = vendorId then .ok (some v) else originalOf vendorId vs
      | some _ => originalOf vendorId vs

/-- The checks of `submit_override`, up to the record that it builds. -/
def checkedOverride (body : OverrideRequest) : Except Exn AuditOverride := do
  let run ← authorise r
  let found ← originalOf body.vendorId (r.finds.decidedVendors run.runId)
  let original ← orRaise found (http 404 s!"Vendor {body.vendorId} not found")
  if h : 20 ≤ PyText.strippedLength body.reason then
    return ⟨r.draw.overrideId, r.user.orgId, r.runId, r.user.email, original,
      [("vendor_id", .str body.vendorId), ("override", .scalar (.bool true)),
        ("reason", .str body.reason)], body.reason, r.draw.timestamp, h⟩
  else .error ⟨.validationError, "Override reason must be at least 20 characters. " ++
    "Documented reasoning is required for audit compliance."⟩

/-- The table takes no second row under the id of an override. -/
def submitOverride (l : Ledger) (body : OverrideRequest) : Ledger × Except Exn String :=
  match checkedOverride r body with
  | .error e => (l, .error e)
  | .ok o =>
      if r.draw.overrideSaved ∧ o.overrideId ∉ l.auditOverrides.map AuditOverride.overrideId then
        (l.saveOverride o, .ok o.overrideId)
      else (l, .error ⟨.external, "audit_overrides"⟩)

def apply (l : Ledger) (r : Request) : Ledger :=
  match r.call with
  | .override body => (submitOverride r l body).1
  | .correct body => (submitCorrection r l body).1

def ledgerAfter (history : List Request) : Ledger := history.foldl apply .empty

end Requests

section Records

variable {r : Request} {c : EvaluationCorrection} {o : AuditOverride}

/-- What a request leaves in the one table and in the other. -/
def recordedCorrection (r : Request) : Option EvaluationCorrection :=
  match r.call with
  | .correct body =>
      if r.draw.correctionSaved then (checkedCorrection r body).toOption else none
  | .override _ => none

def recordedOverride (r : Request) : Option AuditOverride :=
  if r.draw.overrideSaved then
    match r.call with
    | .correct _ => (recordedCorrection r).map (overrideOf r)
    | .override body => (checkedOverride r body).toOption
  else none

theorem apply_eq (l : Ledger) (r : Request) : apply l r =
    ⟨KeyedLog.recordAll EvaluationCorrection.correctionId l.evaluationCorrections
      (recordedCorrection r).toList,
    KeyedLog.recordAll AuditOverride.overrideId l.auditOverrides (recordedOverride r).toList⟩ := by
  cases hcall : r.call with
  | correct body =>
      rw [apply, hcall, recordedOverride, recordedCorrection, hcall]
      cases hc : checkedCorrection r body with
      | error e => simp [submitCorrection, hc, Except.toOption, KeyedLog.recordAll]
      | ok c =>
          cases h₁ : r.draw.correctionSaved <;> cases h₂ : r.draw.overrideSaved <;>
            simp [submitCorrection, hc, h₁, h₂, Except.toOption, KeyedLog.recordAll,
              Ledger.saveCorrection, Ledger.saveOverride]
  | override body =>
      rw [apply, hcall, recordedOverride, recordedCorrection, hcall]
      cases ho : checkedOverride r body with
      | error e => simp [submitOverride, ho, Except.toOption, KeyedLog.recordAll]
      | ok o =>
          cases hs : r.draw.overrideSaved with
          | false => simp [submitOverride, ho, hs, KeyedLog.recordAll]
          | true =>
              by_cases hid : o.overrideId ∈ l.auditOverrides.map AuditOverride.overrideId
              · simp [submitOverride, ho, hs, hid, Except.toOption, KeyedLog.recordAll,
                  KeyedLog.record]
              · simp [submitOverride, ho, hs, hid, Except.toOption, KeyedLog.recordAll,
                  Ledger.saveOverride]

theorem ledgerAfter_eq (history : List Request) : ledgerAfter history =
    ⟨KeyedLog.recordAll EvaluationCorrection.correctionId [] (history.filterMap recordedCorrection),
    KeyedLog.recordAll AuditOverride.overrideId [] (history.filterMap recordedOverride)⟩ := by
  have hfold : ∀ l : Ledger, history.foldl apply l =
      ⟨history.foldl (fun cs r => KeyedLog.recordAll EvaluationCorrection.correctionId cs
        (recordedCorrection r).toList) l.evaluationCorrections,
      history.foldl (fun os r => KeyedLog.recordAll AuditOverride.overrideId os
        (recordedOverride r).toList) l.auditOverrides⟩ := by
    induction history with
    | nil => intro l; rfl
    | cons r history ih =>
        intro l
        rw [List.foldl_cons, ih, apply_eq, List.foldl_cons, List.foldl_cons]
  rw [ledgerAfter, hfold, KeyedLog.foldl_record_filterMap, KeyedLog.foldl_record_filterMap]
  rfl

theorem ledgerAfter_append (history later : List Request) :
    (ledgerAfter history).evaluationCorrections <+:
        (ledgerAfter (history ++ later)).evaluationCorrections ∧
      (ledgerAfter history).auditOverrides <+: (ledgerAfter (history ++ later)).auditOverrides := by
  rw [ledgerAfter_eq, ledgerAfter_eq, List.filterMap_append, List.filterMap_append,
    KeyedLog.recordAll_append, KeyedLog.recordAll_append]
  exact ⟨KeyedLog.prefix_recordAll _, KeyedLog.prefix_recordAll _⟩

/-- The user acts for an organisation of the run, may see the run and is an administrator. -/
structure Authorised (r : Request) (run : AccessRun) : Prop where
  stored : r.finds.access.runs.lookup r.runId = some run
  org : run.orgId = r.user.orgId
  visible : Rbac.canViewRun r.finds.access r.user run = true
  admin : r.user.role ∈ wideRoles

theorem authorised_of_ok {run : AccessRun} (h : authorise r = .ok run) : Authorised r run := by
  obtain ⟨run₁, hrun, h⟩ := bind_eq_ok.mp h
  obtain ⟨_, hview, h⟩ := bind_eq_ok.mp h
  obtain ⟨_, hadmin, h⟩ := bind_eq_ok.mp h
  obtain rfl := pure_eq_ok.mp h
  obtain ⟨hstored, horg⟩ := Option.filter_eq_some_iff.mp (orRaise_eq_ok.mp hrun)
  exact ⟨hstored, of_decide_eq_true horg, Bool.eq_true_of_not_eq_false (raiseIf_eq_ok.mp hview),
    Decidable.not_not.mp (raiseIf_eq_ok.mp hadmin)⟩

/-- What a stored correction says of the request that made it. -/
structure Sanctioned (r : Request) (c : EvaluationCorrection) : Prop where
  id : c.correctionId = r.draw.correctionId
  org : c.orgId = r.user.orgId
  by_user : c.correctedBy = r.user.email
  on_run : c.runId = r.runId
  authorised : ∃ run, Authorised r run ∧ (c.vendorId ≠ "" → vendorInRun r run c.vendorId = true)
  valid : c.targetType = "criterion" ∧ isScore (member "raw_score" c.correctedValue) = true ∨
    c.targetType = "check" ∧ isDecision (member "decision" c.correctedValue) = true
  clean : scanText c.reason r.finds.patterns = []
  active : c.active = true

theorem valid_of_checkValue {body : CorrectionRequest}
    (htype : body.targetType ∈ ["criterion", "check"]) (h : checkValue body = .ok ()) :
    body.targetType = "criterion" ∧ isScore (member "raw_score" body.correctedValue) = true ∨
      body.targetType = "check" ∧ isDecision (member "decision" body.correctedValue) = true := by
  by_cases hcrit : body.targetType = "criterion"
  · rw [checkValue, if_pos hcrit] at h
    exact Or.inl ⟨hcrit, Bool.eq_true_of_not_eq_false (raiseIf_eq_ok.mp h)⟩
  · rw [checkValue, if_neg hcrit] at h
    have hcheck : body.targetType = "check" :=
      List.mem_singleton.mp ((List.mem_cons.mp htype).resolve_left hcrit)
    exact Or.inr ⟨hcheck, Bool.eq_true_of_not_eq_false (raiseIf_eq_ok.mp h)⟩

theorem sanctioned_of_checked {body : CorrectionRequest} (h : checkedCorrection r body = .ok c) :
    Sanctioned r c := by
  obtain ⟨run, hrun, h⟩ := bind_eq_ok.mp h
  obtain ⟨_, htype, h⟩ := bind_eq_ok.mp h
  obtain ⟨_, hvalue, h⟩ := bind_eq_ok.mp h
  obtain ⟨_, hvendor, h⟩ := bind_eq_ok.mp h
  by_cases hlong : 20 ≤ PyText.strippedLength body.reason
  · rw [dif_pos hlong] at h
    obtain ⟨_, hclean, h⟩ := bind_eq_ok.mp h
    obtain rfl := pure_eq_ok.mp h
    have hfound : body.vendorId ≠ "" → vendorInRun r run body.vendorId = true := fun hne =>
      Bool.eq_true_of_not_eq_false fun hf => raiseIf_eq_ok.mp hvendor ⟨hne, hf⟩
    exact ⟨rfl, rfl, rfl, rfl, ⟨run, authorised_of_ok hrun, hfound⟩,
      valid_of_checkValue (Decidable.not_not.mp (raiseIf_eq_ok.mp htype)) hvalue,
      Decidable.not_not.mp (raiseIf_eq_ok.mp hclean), rfl⟩
  · rw [dif_neg hlong] at h
    cases h

theorem recordedCorrection_eq_some (h : recordedCorrection r = some c) :
    ∃ body, r.call = .correct body ∧ checkedCorrection r body = .ok c ∧
      r.draw.correctionSaved = true := by
  rw [recordedCorrection] at h
  cases hcall : r.call with
  | override body => rw [hcall] at h; cases h
  | correct body =>
      rw [hcall] at h
      obtain ⟨hsaved, h⟩ := Option.ite_none_right_eq_some.mp h
      exact ⟨body, rfl, toOption_eq_some.mp h, hsaved⟩

theorem sanctioned_of_recorded (h : recordedCorrection r = some c) : Sanctioned r c := by
  obtain ⟨body, _, hc, _⟩ := recordedCorrection_eq_some h
  exact sanctioned_of_checked hc

structure Documents (o : AuditOverride) (c : EvaluationCorrection) : Prop where
  org : o.orgId = c.orgId
  run : o.runId = c.runId
  by_user : o.overriddenBy = c.correctedBy
  reason : o.reason = c.reason
  correction : member "correction_id" o.newDecision = some (.str c.correctionId)
  before : member "value" o.originalDecision = some (.dict c.originalValue)
  after : member "value" o.newDecision = some (.dict c.correctedValue)

theorem documents_overrideOf : Documents (overrideOf r c) c :=
  ⟨rfl, rfl, rfl, rfl, rfl, rfl, rfl⟩

/-- What a stored override says of the request that made it. -/
structure Attributed (r : Request) (o : AuditOverride) : Prop where
  org : o.orgId = r.user.orgId
  by_user : o.overriddenBy = r.user.email
  on_run : o.runId = r.runId
  authorised : ∃ run, Authorised r run ∧ ∀ body, r.call = .override body →
    o.originalDecision ∈ r.finds.decidedVendors run.runId ∧
      member "vendor_id" o.originalDecision = some (.str body.vendorId)

theorem originalOf_eq_some {vendorId : String} {vs : List Members} {v : Members}
    (h : originalOf vendorId vs = .ok (some v)) :
    v ∈ vs ∧ member "vendor_id" v = some (.str vendorId) := by
  induction vs with
  | nil => cases h
  | cons w vs ih =>
      have htail (hrest : originalOf vendorId vs = .ok (some v)) :
          v ∈ w :: vs ∧ member "vendor_id" v = some (.str vendorId) :=
        ⟨List.mem_cons_of_mem w (ih hrest).1, (ih hrest).2⟩
      cases hid : member "vendor_id" w with
      | none => simp [originalOf, hid] at h
      | some x =>
          cases x with
          | str s =>
              by_cases hs : s = vendorId
              · simp only [originalOf, hid, if_pos hs, Except.ok.injEq, Option.some.injEq] at h
                exact ⟨h ▸ List.mem_cons_self, by rw [← h, hid, hs]⟩
              · exact htail (by simpa only [originalOf, hid, if_neg hs] using h)
          | _ => exact htail (by simpa only [originalOf, hid] using h)

theorem attributed_of_checked {body : OverrideRequest} (hcall : r.call = .override body)
    (h : checkedOverride r body = .ok o) : Attributed r o ∧ o.overrideId = r.draw.overrideId := by
  obtain ⟨run, hrun, hrest⟩ := bind_eq_ok.mp h
  obtain ⟨found, hfound, hrest⟩ := bind_eq_ok.mp hrest
  obtain ⟨original, horig, hend⟩ := bind_eq_ok.mp hrest
  rw [orRaise_eq_ok.mp horig] at hfound
  by_cases hlong : 20 ≤ PyText.strippedLength body.reason
  · rw [dif_pos hlong] at hend
    obtain rfl := pure_eq_ok.mp hend
    refine ⟨⟨rfl, rfl, rfl, run, authorised_of_ok hrun, fun body' hbody => ?_⟩, rfl⟩
    obtain rfl : body = body' := Call.override.inj (hcall.symm.trans hbody)
    exact originalOf_eq_some hfound
  · rw [dif_neg hlong] at hend
    cases hend

theorem attributed_of_recorded (h : recordedOverride r = some o) :
    Attributed r o ∧ o.overrideId = r.draw.overrideId := by
  obtain ⟨_, h⟩ := Option.ite_none_right_eq_some.mp h
  cases hcall : r.call with
  | override body =>
      rw [hcall] at h
      exact attributed_of_checked hcall (toOption_eq_some.mp h)
  | correct body =>
      rw [hcall] at h
      obtain ⟨c, hc, rfl⟩ := Option.map_eq_some_iff.mp h
      have hs := sanctioned_of_recorded hc
      obtain ⟨run, hrun, _⟩ := hs.authorised
      refine ⟨⟨hs.org, hs.by_user, hs.on_run, run, hrun, fun body' hbody => ?_⟩, rfl⟩
      cases hcall.symm.trans hbody

variable {history : List Request}

theorem evaluationCorrections_eq
    (hids : (history.map fun r => r.draw.correctionId).Nodup) :
    (ledgerAfter history).evaluationCorrections = history.filterMap recordedCorrection := by
  rw [ledgerAfter_eq]
  exact KeyedLog.recordAll_of_nodup _ (KeyedLog.nodup_filterMap _
    (fun _ _ hc => (sanctioned_of_recorded hc).id) hids)

theorem auditOverrides_eq (hids : (history.map fun r => r.draw.overrideId).Nodup) :
    (ledgerAfter history).auditOverrides = history.filterMap recordedOverride := by
  rw [ledgerAfter_eq]
  exact KeyedLog.recordAll_of_nodup _ (KeyedLog.nodup_filterMap _
    (fun _ _ ho => (attributed_of_recorded ho).2) hids)

/-- Whatever the requests are and whichever of their writes fail, the two tables only grow. Each
correction and each override is that of an administrator who may see the run, a correction holds a
valid value and a clean reason, and it has its override unless that one write failed. -/
theorem ledger_audited (hcs : (history.map fun r => r.draw.correctionId).Nodup)
    (hos : (history.map fun r => r.draw.overrideId).Nodup) :
    (∀ c ∈ (ledgerAfter history).evaluationCorrections, ∃ r ∈ history, Sanctioned r c ∧
      (r.draw.overrideSaved = true → ∃ o ∈ (ledgerAfter history).auditOverrides, Documents o c)) ∧
    (∀ o ∈ (ledgerAfter history).auditOverrides, ∃ r ∈ history, Attributed r o) ∧
    (∀ r ∈ history, ∀ body, r.call = .correct body → r.draw.correctionSaved = true →
      ∀ c, checkedCorrection r body = .ok c → c ∈ (ledgerAfter history).evaluationCorrections) ∧
    ∀ later, (ledgerAfter history).evaluationCorrections <+:
        (ledgerAfter (history ++ later)).evaluationCorrections ∧
      (ledgerAfter history).auditOverrides <+:
        (ledgerAfter (history ++ later)).auditOverrides := by
  refine ⟨fun c hc => ?_, fun o ho => ?_, fun r hr body hcall hsaved c hc => ?_,
    fun later => ledgerAfter_append history later⟩
  · rw [evaluationCorrections_eq hcs] at hc
    obtain ⟨r, hr, hrec⟩ := List.mem_filterMap.mp hc
    refine ⟨r, hr, sanctioned_of_recorded hrec, fun hsaved => ?_⟩
    refine ⟨overrideOf r c, ?_, documents_overrideOf⟩
    rw [auditOverrides_eq hos]
    obtain ⟨body, hcall, _⟩ := recordedCorrection_eq_some hrec
    have hover : recordedOverride r = some (overrideOf r c) := by
      rw [recordedOverride, if_pos hsaved, hcall, hrec]
      rfl
    exact List.mem_filterMap.mpr ⟨r, hr, hover⟩
  · rw [auditOverrides_eq hos] at ho
    obtain ⟨r, hr, hrec⟩ := List.mem_filterMap.mp ho
    exact ⟨r, hr, (attributed_of_recorded hrec).1⟩
  · rw [evaluationCorrections_eq hcs]
    refine List.mem_filterMap.mpr ⟨r, hr, ?_⟩
    rw [recordedCorrection, hcall]
    exact (if_pos hsaved).trans (toOption_eq_some.mpr hc)

def adminOf (orgId : String) : TokenData :=
  ⟨"ann@" ++ orgId, orgId, .departmentAdmin, none, "j1", 480⟩

/-- What every request of the two examples finds: one run with one vendor. -/
def oneRun : Platform where
  access :=
    { users := ⟨[], List.nodup_nil⟩
      runs := ⟨[aliceRun], List.nodup_singleton _⟩
      userDepartments := []
      rfpCollaborators := ∅
      approvalAssignments := [] }
  decidedVendors := fun _ => [[("vendor_id", .str "acme")]]
  patterns := []

def correctionOf (user : TokenData) (score : Int) (drawn : String) (overrideSaved : Bool) :
    Request where
  user := user
  runId := "run-1"
  call := .correct
    { targetType := "criterion"
      targetId := "crit-1"
      vendorId := "acme"
      correctedValue := [("raw_score", .scalar (.int score))]
      reason := "The certificate covers all sites." }
  finds := oneRun
  draw := ⟨"c-" ++ drawn, "o-" ++ drawn, 1, 2, true, overrideSaved⟩

/-- Of three requests of which one has too high a score and one comes from another organisation,
the first is kept. -/
theorem ledger_of_three :
    let history := [correctionOf (adminOf "org-1") 7 "1" true,
      correctionOf (adminOf "org-1") 11 "2" true, correctionOf (adminOf "org-2") 7 "3" true]
    (ledgerAfter history).evaluationCorrections.length = 1 ∧
      (ledgerAfter history).auditOverrides.length = 1 ∧
      (∀ c ∈ (ledgerAfter history).evaluationCorrections, ∃ r ∈ history, Sanctioned r c) := by
  intro history
  refine ⟨by decide, by decide, fun c hc => ?_⟩
  have hnodup : (history.map fun r => r.draw.correctionId).Nodup := by decide
  have hall := ledger_audited hnodup (by decide)
  obtain ⟨r, hr, hs, _⟩ := hall.1 c hc
  exact ⟨r, hr, hs⟩

end Records

end RfpPlatform.CorrectionLedger
