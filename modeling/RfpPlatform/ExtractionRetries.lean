import RfpPlatform.Evaluation
import RfpPlatform.FactParsing
import RfpPlatform.FoldRuns

namespace RfpPlatform.ExtractionRetries

open Evaluation (targetById)
open ExceptRules FactParsing FactTables FoldRuns Json MandatoryChecks SelfConsistency

structure FactsState where
  facts : (k : FactTable) → List (Columns k)
  retriedFactTypes : List String
  warnings : List String

inductive StandardType
  | insurance | certification | sla | project | pricing
  deriving DecidableEq

def StandardType.all : List StandardType := [.insurance, .certification, .sla, .project, .pricing]

def StandardType.name : StandardType → String
  | .insurance => "insurance"
  | .certification => "certification"
  | .sla => "sla"
  | .project => "project"
  | .pricing => "pricing"

def StandardType.responseKey : StandardType → String
  | .insurance => "insurance"
  | .certification => "certifications"
  | .sla => "slas"
  | .project => "projects"
  | .pricing => "pricing"

abbrev StandardType.table : StandardType → FactTable
  | .insurance => .insurance
  | .certification => .certifications
  | .sla => .slas
  | .project => .projects
  | .pricing => .pricing

/-- The facts that are judged together: those of a standard type, or those of a custom target. -/
inductive Slot
  | standard (t : StandardType)
  | custom (targetId : String)
  deriving DecidableEq

abbrev Slot.table : Slot → FactTable
  | .standard t => t.table
  | .custom _ => .extractedFacts

def Slot.responseKey : Slot → String
  | .standard t => t.responseKey
  | .custom _ => "extracted_facts"

def slotOf (target : ExtractionTarget) : Option Slot :=
  if target.factType = "custom" then some (.custom target.targetId)
  else (StandardType.all.find? (fun t => t.name = target.factType)).map .standard

def FactsState.factsIn (s : FactsState) : (slot : Slot) → List (Columns slot.table)
  | .standard t => s.facts t.table
  | .custom targetId => (s.facts .extractedFacts).filter (fun f => f.targetId = targetId)

def FactsState.replace (s : FactsState) : (slot : Slot) → List (Columns slot.table) → FactsState
  | .standard t, facts => { s with facts := Function.update s.facts t.table facts }
  | .custom targetId, facts =>
      let others := (s.facts .extractedFacts).filter (fun f => f.targetId ≠ targetId)
      { s with facts := Function.update s.facts .extractedFacts (others ++ facts) }

/-- The facts of a custom target are those that name it. -/
def Belong : (slot : Slot) → List (Columns slot.table) → Prop
  | .standard _, _ => True
  | .custom targetId, facts => ∀ f ∈ facts, CustomFact.targetId f = targetId

/-- `infrastructure.extraction_critic_max_retries` and `..._confidence_floor` -/
structure RetrySettings where
  maxRetries : Nat
  confidenceFloor : ℚ

structure ExtractionVerdict where
  adequate : Bool
  confidence : Confidence

/-- The model calls of the loop: the judge on a fact of a job, before and after a retry, and the
retry of a job. Jobs and facts are numbered by their places. -/
structure RetryServices where
  coercions : Coercions
  verdictOf : Json → Option ExtractionVerdict
  judge : Nat → Nat → Nat → LlmReply
  retry : Nat → LlmReply

/-- A fact without a quote fails, and one that the judge says nothing readable about is let pass. -/
def judgeExtraction (verdictOf : Json → Option ExtractionVerdict) (reply : LlmReply)
    (groundingQuote : String) : ExtractionVerdict :=
  if groundingQuote = "" then ⟨false, ⟨1, not_one_lt_zero, not_one_lt_one⟩⟩
  else
    let unjudged : ExtractionVerdict := ⟨true, ⟨0, not_zero_lt_zero, not_one_lt_zero⟩⟩
    match reply with
    | .json v => (verdictOf v).getD unjudged
    | _ => unjudged

section Verdicts

variable (cfg : RetrySettings) (svc : RetryServices)

def judged (job attempt : Nat) {k : FactTable} (facts : List (Columns k)) :
    List (Columns k × ExtractionVerdict) :=
  facts.zipIdx.map (fun p => (p.1, judgeExtraction svc.verdictOf (svc.judge job attempt p.2)
    (evidence k p.1).groundingQuote))

def Confident (v : ExtractionVerdict) : Prop :=
  PyFloat.le cfg.confidenceFloor v.confidence.value = true

instance (v : ExtractionVerdict) : Decidable (Confident cfg v) := inferInstanceAs (Decidable (_ = _))

/-- The facts that are adequate with high confidence. -/
def highConfPasses (job attempt : Nat) {k : FactTable} (facts : List (Columns k)) :
    List (Columns k) :=
  ((judged svc job attempt facts).filter
    (fun p => Confident cfg p.2 ∧ p.2.adequate = true)).map Prod.fst

def highConfFails (job attempt : Nat) {k : FactTable} (facts : List (Columns k)) :
    List (Columns k) :=
  ((judged svc job attempt facts).filter
    (fun p => Confident cfg p.2 ∧ p.2.adequate = false)).map Prod.fst

end Verdicts

section Jobs

/-- The three passes of the loop. -/
inductive Scope
  | standard | custom | scoring
  deriving DecidableEq

structure Job where
  scope : Scope
  slot : Slot
  key : String
  failed : String
  inadequate : String

def targetOf (setup : EvaluationSetup) (check : MandatoryCheck) : Option ExtractionTarget :=
  (targetById setup).get? check.extractionTargetId

def checksOf (setup : EvaluationSetup) (factType : String) : List MandatoryCheck :=
  setup.mandatoryChecks.filter (fun check =>
    (targetOf setup check).any (fun target => target.factType = factType))

/-- Only the first check of a type is a job. -/
def standardJobs (setup : EvaluationSetup) : List Job :=
  StandardType.all.filterMap (fun t => (checksOf setup t.name).head?.map (fun check =>
    { scope := .standard
      slot := .standard t
      key := t.name
      failed := s!"extraction_critic retry failed for {t.name}: "
      inadequate := s!"extraction_critic: retry for {t.name}/{check.name} still inadequate" }))

def customJobs (setup : EvaluationSetup) : List Job :=
  (checksOf setup "custom").map (fun check =>
    { scope := .custom
      slot := .custom check.extractionTargetId
      key := "custom:" ++ check.extractionTargetId
      failed := s!"extraction_critic retry failed for custom/{check.name}: "
      inadequate := s!"extraction_critic: retry for custom/{check.name} still inadequate" })

def scoringJobs (setup : EvaluationSetup) : List Job :=
  setup.scoringCriteria.flatMap (fun criterion => criterion.extractionTargetIds.filterMap
    (fun targetId => ((targetById setup).get? targetId).bind (fun target =>
      (slotOf target).map (fun slot =>
        { scope := .scoring
          slot := slot
          key := "scoring:" ++ (criterion.criterionId ++ ":" ++ targetId)
          failed := s!"extraction_critic retry failed for scoring/{criterion.name}: "
          inadequate := s!"extraction_critic: retry for scoring/{criterion.name}/" ++
            s!"{target.factType} still inadequate" }))))

def jobs (setup : EvaluationSetup) : List Job :=
  standardJobs setup ++ customJobs setup ++ scoringJobs setup

end Jobs

section Loop

variable (cfg : RetrySettings) (svc : RetryServices)

/-- The items of a reply that are parsed. For a custom target they are those that name it. -/
def selected : Slot → Json → Except Exn (List Json)
  | .standard _, raw => iterated raw
  | .custom targetId, raw => do
      let items ← iterated raw
      let objects ← items.mapM asObject
      return (objects.filter (fun ms => targetIdOf ms = some targetId)).map .obj

def retryFacts (slot : Slot) (job : Nat) :
    Except Exn (List (Columns slot.table) × List String) :=
  match svc.retry job with
  | .raised exc => .error exc
  | .invalidJson text => .error ⟨.jsonDecodeError, text⟩
  | .json v => do
      let reply ← v.asObject
      let items ← selected slot (get reply slot.responseKey (.arr []))
      return parseFacts svc.coercions slot.table items

variable (captured s : FactsState) (p : Job × Nat)

/-- The first pass judges the lists as they were before it. -/
def judgedFacts : List (Columns p.1.slot.table) :=
  match p.1.scope with
  | .standard => captured.factsIn p.1.slot
  | _ => s.factsIn p.1.slot

/-- No fact is adequate with high confidence, and some fact fails with it. In the first pass the
lack of facts is a failure too. -/
def Failing (facts : List (Columns p.1.slot.table)) : Prop :=
  (highConfFails cfg svc p.2 0 facts ≠ [] ∨ (p.1.scope = .standard ∧ facts = [])) ∧
    highConfPasses cfg svc p.2 0 facts = []

instance (facts : List (Columns p.1.slot.table)) : Decidable (Failing cfg svc p facts) :=
  inferInstanceAs (Decidable ((¬ _ ∨ _) ∧ _))

def ShouldRetry : Prop :=
  Failing cfg svc p (judgedFacts captured s p) ∧ 0 < cfg.maxRetries ∧
    p.1.key ∉ s.retriedFactTypes

def retried : FactsState :=
  let marked : FactsState := { s with retriedFactTypes := s.retriedFactTypes ++ [p.1.key] }
  match retryFacts svc p.1.slot p.2 with
  | .error exc => { marked with warnings := s.warnings ++ [p.1.failed ++ exc.message] }
  | .ok (facts, skipped) =>
      { marked.replace p.1.slot facts with
        warnings := s.warnings ++ skipped ++
          if highConfFails cfg svc p.2 1 facts = [] then [] else [p.1.inadequate] }

instance : Decidable (ShouldRetry cfg svc captured s p) :=
  inferInstanceAs (Decidable (_ ∧ _ ∧ _))

def step : FactsState :=
  if ShouldRetry cfg svc captured s p then retried cfg svc s p else s

def run (ps : List (Job × Nat)) : FactsState := ps.foldl (step cfg svc captured) s

def runExtractionCriticRetries (setup : EvaluationSetup) : FactsState :=
  run cfg svc s s (jobs setup).zipIdx

end Loop

section Slots

variable {s : FactsState} {slot other : Slot} {facts : List (Columns slot.table)}

theorem table_injective {t u : StandardType} (h : t.table = u.table) : t = u := by
  cases t <;> cases u <;> first | rfl | cases h

theorem table_ne_extractedFacts (t : StandardType) : t.table ≠ .extractedFacts := by
  cases t <;> exact fun h => nomatch h

theorem factsIn_congr {s' : FactsState} (h : s.facts = s'.facts) (slot : Slot) :
    s.factsIn slot = s'.factsIn slot := by
  cases slot with
  | standard t => exact congrFun h t.table
  | custom targetId => rw [FactsState.factsIn, h]; rfl

theorem facts_replace_custom {targetId : String} {made : List CustomFact} :
    (s.replace (.custom targetId) made).facts .extractedFacts =
      (s.facts .extractedFacts).filter (fun f => f.targetId ≠ targetId) ++ made := by
  rw [FactsState.replace]
  exact Function.update_self FactTable.extractedFacts _ s.facts

theorem factsIn_replace_self (h : Belong slot facts) : (s.replace slot facts).factsIn slot = facts := by
  cases slot with
  | standard t => exact Function.update_self _ _ _
  | custom targetId =>
      rw [FactsState.factsIn, facts_replace_custom, List.filter_append]
      have hothers : ((s.facts .extractedFacts).filter (fun f => f.targetId ≠ targetId)).filter
          (fun f => f.targetId = targetId) = [] := by
        rw [List.filter_filter]
        apply List.filter_eq_nil_iff.mpr
        intro f _
        simp
      have hown : facts.filter (fun f : CustomFact => f.targetId = targetId) = facts :=
        List.filter_eq_self.mpr fun f hf => decide_eq_true (h f hf)
      rw [hothers, hown, List.nil_append]

/-- A replacement leaves the facts of every other slot as they are. -/
theorem factsIn_replace_ne (h : Belong slot facts) (hne : other ≠ slot) :
    (s.replace slot facts).factsIn other = s.factsIn other := by
  cases slot with
  | standard t =>
      cases other with
      | standard u =>
          exact Function.update_of_ne (fun he => hne (congrArg _ (table_injective he))) _ _
      | custom targetId =>
          change (Function.update s.facts t.table facts .extractedFacts).filter _ = _
          rw [Function.update_of_ne (table_ne_extractedFacts t).symm]
          rfl
  | custom targetId =>
      cases other with
      | standard u => exact Function.update_of_ne (table_ne_extractedFacts u) _ _
      | custom otherId =>
          have hid : otherId ≠ targetId := fun he => hne (congrArg _ he)
          rw [FactsState.factsIn, facts_replace_custom, List.filter_append]
          have hothers : ((s.facts .extractedFacts).filter (fun f => f.targetId ≠ targetId)).filter
              (fun f => f.targetId = otherId) =
                (s.facts .extractedFacts).filter (fun f => f.targetId = otherId) := by
            rw [List.filter_filter]
            apply List.filter_congr
            intro f _
            by_cases hf : f.targetId = otherId
            · simp [hf, hid]
            · simp [hf]
          have hown : facts.filter (fun f : CustomFact => f.targetId = otherId) = [] := by
            apply List.filter_eq_nil_iff.mpr
            intro f hf
            rw [h f hf]
            simp [hid.symm]
          rw [hothers, hown, List.append_nil]
          rfl

/-- A retry of a custom target gives facts of that target. -/
theorem belong_of_retryFacts {svc : RetryServices} {job : Nat} {skipped : List String}
    (h : retryFacts svc slot job = .ok (facts, skipped)) : Belong slot facts := by
  cases slot with
  | standard t => exact trivial
  | custom targetId =>
      rw [retryFacts] at h
      cases hreply : svc.retry job with
      | raised exc => simp only [hreply, reduceCtorEq] at h
      | invalidJson text => simp only [hreply, reduceCtorEq] at h
      | json v =>
          simp only [hreply, selected, bind_eq_ok, pure_eq_ok] at h
          obtain ⟨reply, _, items, ⟨_, _, objects, _, rfl⟩, hparsed⟩ := h
          intro fact hfact
          have hmem : fact ∈ (parseFacts svc.coercions .extractedFacts
              ((objects.filter (fun ms => targetIdOf ms = some targetId)).map .obj)).1 := by
            rw [show parseFacts svc.coercions .extractedFacts _ = _ from hparsed]
            exact hfact
          obtain ⟨_, hv, hmade⟩ := mem_parseFacts.mp hmem
          obtain ⟨ms, hms, rfl⟩ := List.mem_map.mp hv
          have htarget := of_decide_eq_true (List.mem_filter.mp hms).2
          rw [parseExtractedFact_target hmade] at htarget
          exact Option.some.inj htarget

end Slots

section Steps

variable {cfg : RetrySettings} {svc : RetryServices} {captured s : FactsState} {p : Job × Nat}
  {ps : List (Job × Nat)} {k : String}

@[simp] theorem retriedFactTypes_replace {slot : Slot} (facts : List (Columns slot.table)) :
    (s.replace slot facts).retriedFactTypes = s.retriedFactTypes := by
  cases slot <;> rfl

theorem retriedFactTypes_retried :
    (retried cfg svc s p).retriedFactTypes = s.retriedFactTypes ++ [p.1.key] := by
  rw [retried]
  cases retryFacts svc p.1.slot p.2 with
  | error exc => rfl
  | ok made => exact retriedFactTypes_replace made.1

/-- A retry that raises leaves all facts as they are. -/
theorem facts_retried_error {exc : Exn} (h : retryFacts svc p.1.slot p.2 = .error exc) :
    (retried cfg svc s p).facts = s.facts := by
  rw [retried, h]

theorem factsIn_retried_ok {facts : List (Columns p.1.slot.table)} {skipped : List String}
    (h : retryFacts svc p.1.slot p.2 = .ok (facts, skipped)) :
    (retried cfg svc s p).factsIn p.1.slot = facts := by
  rw [retried, h]
  exact factsIn_replace_self (s := ⟨s.facts, _, _⟩) (belong_of_retryFacts h)

theorem factsIn_retried_ne {slot : Slot} (hne : slot ≠ p.1.slot) :
    (retried cfg svc s p).factsIn slot = s.factsIn slot := by
  cases hmade : retryFacts svc p.1.slot p.2 with
  | error exc =>
      exact factsIn_congr (facts_retried_error hmade) slot
  | ok made =>
      rw [retried, hmade]
      exact factsIn_replace_ne (s := ⟨s.facts, _, _⟩) (belong_of_retryFacts hmade) hne

theorem mem_retriedFactTypes_step : k ∈ (step cfg svc captured s p).retriedFactTypes ↔
    k ∈ s.retriedFactTypes ∨ (ShouldRetry cfg svc captured s p ∧ p.1.key = k) := by
  rw [step]
  by_cases h : ShouldRetry cfg svc captured s p
  · rw [if_pos h, retriedFactTypes_retried, List.mem_append, List.mem_singleton, and_iff_right h,
      eq_comm]
  · rw [if_neg h, or_iff_left (fun hk => h hk.1)]

theorem run_concat : run cfg svc captured s (ps ++ [p]) =
    step cfg svc captured (run cfg svc captured s ps) p := List.foldl_concat _ _ _ _

/-- The keys of a run are those that it started with, and those of the jobs that were retried. -/
theorem mem_retriedFactTypes_run : k ∈ (run cfg svc captured s ps).retriedFactTypes ↔
    k ∈ s.retriedFactTypes ∨ SomeStep (fun done p =>
      ShouldRetry cfg svc captured (run cfg svc captured s done) p ∧ p.1.key = k) ps := by
  induction ps using List.reverseRecOn with
  | nil => rw [or_iff_left not_someStep_nil]; rfl
  | append_singleton ps p ih =>
      rw [run_concat, mem_retriedFactTypes_step, ih, someStep_concat, or_assoc]

end Steps

section Places

variable {setup : EvaluationSetup} {j : Job} {t : StandardType}

theorem name_injective {u : StandardType} (h : t.name = u.name) : t = u := by
  cases t <;> cases u <;> first | rfl | exact absurd h (by decide)

/-- A key of a later pass starts with a word that starts no name of a standard type. -/
theorem name_ne_append (word rest : String)
    (h : ∀ t : StandardType, ¬ word.toList <+: t.name.toList) : t.name ≠ word ++ rest := by
  intro heq
  apply h t
  rw [heq, String.toList_append]
  exact List.prefix_append _ _

theorem name_ne_custom (targetId : String) : t.name ≠ "custom:" ++ targetId :=
  name_ne_append _ _ (by intro t; cases t <;> decide)

theorem name_ne_scoring (rest : String) : t.name ≠ "scoring:" ++ rest :=
  name_ne_append _ _ (by intro t; cases t <;> decide)

theorem mem_standardJobs (h : j ∈ standardJobs setup) :
    j.scope = .standard ∧ ∃ t, j.slot = .standard t ∧ j.key = t.name := by
  obtain ⟨t, _, hmade⟩ := List.mem_filterMap.mp h
  obtain ⟨check, _, rfl⟩ := Option.map_eq_some_iff.mp hmade
  exact ⟨rfl, t, rfl, rfl⟩

theorem mem_customJobs (h : j ∈ customJobs setup) :
    j.scope = .custom ∧ ∃ targetId, j.key = "custom:" ++ targetId := by
  obtain ⟨check, _, rfl⟩ := List.mem_map.mp h
  exact ⟨rfl, _, rfl⟩

theorem mem_scoringJobs (h : j ∈ scoringJobs setup) :
    j.scope = .scoring ∧ ∃ rest, j.key = "scoring:" ++ rest := by
  obtain ⟨criterion, _, hj⟩ := List.mem_flatMap.mp h
  obtain ⟨targetId, _, hmade⟩ := List.mem_filterMap.mp hj
  obtain ⟨target, _, hslot⟩ := Option.bind_eq_some_iff.mp hmade
  obtain ⟨slot, _, rfl⟩ := Option.map_eq_some_iff.mp hslot
  exact ⟨rfl, _, rfl⟩

theorem mem_jobs : j ∈ jobs setup ↔
    j ∈ standardJobs setup ∨ j ∈ customJobs setup ∨ j ∈ scoringJobs setup := by
  rw [jobs, List.mem_append, List.mem_append, or_assoc]

theorem mem_standardJobs_of_scope (h : j ∈ jobs setup) (hscope : j.scope = .standard) :
    j ∈ standardJobs setup := by
  rcases mem_jobs.mp h with hstandard | hcustom | hscoring
  · exact hstandard
  · cases (mem_customJobs hcustom).1.symm.trans hscope
  · cases (mem_scoringJobs hscoring).1.symm.trans hscope

/-- Only a job of the first pass has the name of a type for its key. -/
theorem key_eq_name (h : j ∈ jobs setup) :
    j.key = t.name ↔ j.scope = .standard ∧ j.slot = .standard t := by
  constructor
  · intro hname
    rcases mem_jobs.mp h with hstandard | hcustom | hscoring
    · obtain ⟨hscope, u, hslot, hkey⟩ := mem_standardJobs hstandard
      rw [hslot, name_injective (hkey.symm.trans hname)]
      exact ⟨hscope, rfl⟩
    · obtain ⟨_, targetId, hkey⟩ := mem_customJobs hcustom
      exact absurd (hname.symm.trans hkey) (name_ne_custom targetId)
    · obtain ⟨_, rest, hkey⟩ := mem_scoringJobs hscoring
      exact absurd (hname.symm.trans hkey) (name_ne_scoring rest)
  · rintro ⟨hscope, hslot⟩
    obtain ⟨_, u, hu, hkey⟩ := mem_standardJobs (mem_standardJobs_of_scope h hscope)
    cases hslot.symm.trans hu
    exact hkey

theorem pairwise_standardJobs (setup : EvaluationSetup) :
    (standardJobs setup).Pairwise (fun q p => q.slot ≠ p.slot) := by
  rw [standardJobs, List.pairwise_filterMap]
  have hdistinct : StandardType.all.Pairwise (· ≠ ·) := by decide
  refine hdistinct.imp ?_
  intro t u hne q hq p hp
  obtain ⟨_, _, rfl⟩ := Option.map_eq_some_iff.mp hq
  obtain ⟨_, _, rfl⟩ := Option.map_eq_some_iff.mp hp
  intro hslot
  cases hslot
  exact hne rfl

/-- Before a job of the first pass stand only jobs of the first pass, on other types. -/
theorem pairwise_jobs (setup : EvaluationSetup) : (jobs setup).Pairwise
    (fun q p => p.scope = .standard → q.scope = .standard ∧ q.slot ≠ p.slot) := by
  have hlate : ∀ p ∈ customJobs setup ++ scoringJobs setup, p.scope ≠ .standard := by
    intro p hp hscope
    rcases List.mem_append.mp hp with hcustom | hscoring
    · cases (mem_customJobs hcustom).1.symm.trans hscope
    · cases (mem_scoringJobs hscoring).1.symm.trans hscope
  rw [jobs, List.append_assoc, List.pairwise_append]
  refine ⟨?_, ?_, ?_⟩
  · refine (pairwise_standardJobs setup).imp_of_mem ?_
    intro q p hq _ hne _
    exact ⟨(mem_standardJobs hq).1, hne⟩
  · refine (List.pairwise_of_forall (R := fun _ _ => True) fun _ _ => trivial).imp_of_mem ?_
    intro q p _ hp _ hscope
    exact absurd hscope (hlate p hp)
  · intro q _ p hp hscope
    exact absurd hscope (hlate p hp)

variable {cfg : RetrySettings} {svc : RetryServices} {s : FactsState} {p : Job × Nat}
  {done rest : List (Job × Nat)}

theorem earlier_jobs (hsplit : (jobs setup).zipIdx = done ++ p :: rest)
    (hscope : p.1.scope = .standard) :
    ∀ q ∈ done, q.1 ∈ jobs setup ∧ q.1.scope = .standard ∧ q.1.slot ≠ p.1.slot := by
  intro q hq
  have hmem : q ∈ (jobs setup).zipIdx := by
    rw [hsplit]
    exact List.mem_append_left _ hq
  have hpairs := pairwise_jobs setup
  rw [← List.zipIdx_map_fst 0 (jobs setup), List.pairwise_map, hsplit, List.pairwise_append] at hpairs
  exact ⟨List.fst_mem_of_mem_zipIdx hmem, hpairs.2.2 q hq p List.mem_cons_self hscope⟩

theorem factsIn_run_ne {captured : FactsState} {slot : Slot} {ps : List (Job × Nat)}
    (h : ∀ q ∈ ps, q.1.slot ≠ slot) :
    (run cfg svc captured s ps).factsIn slot = s.factsIn slot := by
  induction ps using List.reverseRecOn with
  | nil => rfl
  | append_singleton ps q ih =>
      have hslot : slot ≠ q.1.slot :=
        (h q (List.mem_append_right _ (List.mem_singleton_self q))).symm
      rw [run_concat, step, ← ih fun r hr => h r (List.mem_append_left _ hr)]
      split
      · exact factsIn_retried_ne hslot
      · rfl

/-- The lists that the first pass captured are still those of the state when they are judged. -/
theorem judgedFacts_run (hsplit : (jobs setup).zipIdx = done ++ p :: rest) :
    judgedFacts s (run cfg svc s s done) p = (run cfg svc s s done).factsIn p.1.slot := by
  rw [judgedFacts]
  split
  · rename_i hscope
    exact (factsIn_run_ne fun q hq => (earlier_jobs hsplit hscope q hq).2.2).symm
  · rfl

/-- Whether the first pass retries a type can be told from the facts that it starts with. -/
theorem shouldRetry_first (hsplit : (jobs setup).zipIdx = done ++ p :: rest)
    (hscope : p.1.scope = .standard) : ShouldRetry cfg svc s (run cfg svc s s done) p ↔
      Failing cfg svc p (s.factsIn p.1.slot) ∧ 0 < cfg.maxRetries ∧
        p.1.key ∉ s.retriedFactTypes := by
  have hjudged : judgedFacts s (run cfg svc s s done) p = s.factsIn p.1.slot := by
    rw [judgedFacts, hscope]
  have hkeys : p.1.key ∈ (run cfg svc s s done).retriedFactTypes ↔
      p.1.key ∈ s.retriedFactTypes := by
    rw [mem_retriedFactTypes_run, or_iff_left]
    rintro ⟨earlier, q, later, hq, _, hkey⟩
    have hp : p.1 ∈ jobs setup := List.fst_mem_of_mem_zipIdx (mem_of_split hsplit)
    obtain ⟨hjob, _, hslot⟩ := earlier_jobs hsplit hscope q (mem_of_split hq)
    obtain ⟨_, t, hpslot, hpkey⟩ := mem_standardJobs (mem_standardJobs_of_scope hp hscope)
    have hqslot := ((key_eq_name hjob).mp (hkey.trans hpkey)).2
    exact hslot (hqslot.trans hpslot.symm)
  rw [ShouldRetry, hjudged, hkeys]

end Places

end RfpPlatform.ExtractionRetries
