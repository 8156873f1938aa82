import RfpPlatform.CriteriaMerge
import RfpPlatform.RunTasks

namespace RfpPlatform.BackgroundRefinement

open AccountRequests (TokenData httpError)
open CriteriaMerge ExceptRules RunRequests TransitionRuns

section Setups

/-- A `setup_json`. A key that is set again counts as it was set last. -/
abbrev SetupJson := List (String × Json)

def setKey (setup : SetupJson) (key : String) (v : Json) : SetupJson := setup ++ [(key, v)]

theorem member_setKey {setup : SetupJson} {key name : String} {v : Json} :
    Json.member name (setKey setup key v) = if name = key then some v else Json.member name setup := by
  simp only [setKey, Json.member_append, eq_comm]

def boolOf (o : Option Bool) : Json := o.elim .null .bool

/-- The dictionaries of the merge, as they are dumped. A page reference that is null is left
out. -/
def checkJson (mc : CheckDict) : Json :=
  .obj ([("check_id", .str mc.checkId), ("name", .str mc.name), ("description", mc.description),
    ("what_passes", mc.whatPasses), ("extraction_target_id", .str mc.extractionTargetId),
    ("source", .str mc.source), ("is_locked", boolOf mc.isLocked)] ++
    match mc.pageReference with
    | .null => []
    | v => [("page_reference", v)])

def criterionJson (sc : CriterionDict) : Json :=
  .obj ([("criterion_id", .str sc.criterionId), ("name", .str sc.name), ("weight", .num sc.weight)] ++
    Band.all.map (fun b => (b.key, sc.rubric b)) ++
    [("extraction_target_ids", .arr (sc.extractionTargetIds.map .str)), ("source", .str sc.source),
      ("is_locked", boolOf sc.isLocked)] ++
    (match sc.pageReference with
    | .null => []
    | v => [("page_reference", v)]) ++
    (sc.scoreGuideSource.map (fun s => ("score_guide_source", Json.str s))).toList)

def targetJson (t : TargetDict) : Json :=
  .obj ([("target_id", .str t.targetId), ("name", .str t.name), ("description", t.description),
    ("fact_type", .str t.factType), ("is_mandatory", .bool t.isMandatory)] ++
    (t.feedsCriterionId.map (fun s => ("feeds_criterion_id", Json.str s))).toList ++
    (t.feedsCheckId.map (fun s => ("feeds_check_id", Json.str s))).toList ++
    [("source", .str t.source)])

/-- `t["target_id"]` and the like. What is no text is refused by validation at the latest. -/
def textAt (key : String) : Json → Except Exn String
  | .obj ms =>
      match Json.member key ms with
      | some (.str s) => .ok s
      | some v => .error ⟨.attributeError, s!"'{v.typeName}' object has no attribute 'lower'"⟩
      | none => .error ⟨.keyError, PyText.quote key⟩
  | v => .error ⟨.typeError, s!"'{v.typeName}' object is not subscriptable"⟩

/-- `list(v or [])` -/
def listOf (v : Json) : Except Exn (List Json) := if v.truthy then itemsOf (.json v) else .ok []

end Setups

section Updates

structure UpdateSetupRequest where
  scoringCriteria : List SetupJson
  mandatoryChecks : List SetupJson
  extractionTargets : Option (List SetupJson)

/-- The targets and checks of an edit so far. -/
structure Filling where
  targets : List Json
  targetIds : List String
  checks : List Json

def userTarget (chk : SetupJson) (checkId autoTid : String) : Json :=
  .obj [("target_id", .str autoTid), ("name", Json.get chk "name" (.str "User check")),
    ("description", Json.get chk "description" (.str "")), ("fact_type", .str "custom"),
    ("is_mandatory", .bool true), ("feeds_check_id", .str checkId)]

/-- A check without a target gets one. -/
def fillTarget (f : Filling) (chk : SetupJson) : Except Exn Filling :=
  if (Json.get chk "extraction_target_id" .null).truthy then
    .ok { f with checks := f.checks ++ [.obj chk] }
  else do
    let checkId ← textAt "check_id" (.obj chk)
    let autoTid := "ext-user-" ++ String.ofList (PyText.lower checkId)
    let checks := f.checks ++ [.obj (setKey chk "extraction_target_id" (.str autoTid))]
    if autoTid ∈ f.targetIds then return { f with checks := checks }
    return ⟨f.targets ++ [userTarget chk checkId autoTid], f.targetIds ++ [autoTid], checks⟩

/-- The targets of the body, or those of the stored setup. -/
def editTargets (existing : SetupJson) (body : UpdateSetupRequest) : Except Exn (List Json) :=
  match body.extractionTargets with
  | some (t :: ts) => .ok ((t :: ts).map .obj)
  | _ => listOf (Json.get existing "extraction_targets" .null)

/-- What `update_setup` makes of the stored setup. -/
def editSetup (existing : SetupJson) (body : UpdateSetupRequest) : Except Exn SetupJson := do
  let targets ← editTargets existing body
  let ids ← targets.mapM (textAt "target_id")
  let filled ← body.mandatoryChecks.foldlM fillTarget ⟨targets, ids, []⟩
  let edited := setKey (setKey (setKey (setKey existing
    "mandatory_checks" (.arr filled.checks))
    "scoring_criteria" (.arr (body.scoringCriteria.map .obj)))
    "extraction_targets" (.arr filled.targets))
    "source" (.str "manually_edited")
  if body.scoringCriteria.isEmpty then return edited
  let weights ← body.scoringCriteria.mapM (fun c => (Json.get c "weight" (.num 0)).toFloat)
  return setKey edited "total_weight" (.num ((PyFloat.sum weights).round 3))

/-- What `update_setup` asks before it reads the setup. -/
def checkUpdate (draw : Draw) (user : TokenData) (runId : String) (db : Db) : Except Exn Unit := do
  let run ← dbGetRun db runId user.orgId
  requireRunAccess draw user run
  raiseIf (run.status ∉ [.pending, .pendingConfirm])
    (httpError 409 "Cannot edit setup after pipeline has started")

theorem updateSetup_eq_check (draw : Draw) (user : TokenData) (runId : String) (db : Db) :
    updateSetup draw user runId db = (do
      checkUpdate draw user runId db
      let setup ← draw.setup
      return { db with setups := setup :: db.setups }) := by
  simp only [updateSetup, checkUpdate, bind_assoc]

end Updates

section Refinement

/-- The targets that the refinement creates for checks without one. -/
def createTarget (st : List Json × List String) (mc : Json) : Except Exn (List Json × List String) := do
  let ms ← mc.asObject
  match Json.get ms "extraction_target_id" .null with
  | .str id =>
      if id = "" ∨ id ∈ st.2 then return st
      return (st.1 ++ [.obj [("target_id", .str id), ("name", Json.get ms "name" (.str id)),
        ("description", Json.get ms "description" (.str "")), ("fact_type", .str "certification"),
        ("is_mandatory", .bool true), ("feeds_check_id", Json.get ms "check_id" (.str ""))]],
        st.2 ++ [id])
  | _ => return st

def createTargets (setup : SetupJson) : Except Exn SetupJson := do
  let targets ← itemsOf (.json (Json.get setup "extraction_targets" (.arr [])))
  let ids ← targets.mapM (textAt "target_id")
  let checks ← itemsOf (.json (Json.get setup "mandatory_checks" (.arr [])))
  let filled ← checks.foldlM createTarget (targets, ids)
  return setKey setup "extraction_targets" (.arr filled.1)

/-- What `_refine_setup_with_llm` makes of the setup that it has read. -/
def refineSetup (existing : SetupJson) (merged : Merged) : Except Exn SetupJson := do
  let setup := if merged.mandatoryChecks.isEmpty then existing
    else setKey existing "mandatory_checks" (.arr (merged.mandatoryChecks.map checkJson))
  let setup := if merged.scoringCriteria.isEmpty then setup
    else setKey setup "scoring_criteria" (.arr (merged.scoringCriteria.map criterionJson))
  let setup ← if merged.extractionTargets.isEmpty then createTargets setup
    else pure (setKey setup "extraction_targets" (.arr (merged.extractionTargets.map targetJson)))
  return setKey setup "source" (.str merged.source)

end Refinement

section Runs

/-- A merge with something in it, which then has targets. -/
structure Refinable where
  merged : Merged
  targets_ne_nil : merged.extractionTargets ≠ []

theorem targets_of_merge {sha256 : String → String} {src : Sources} {merged : Merged}
    (h : mergeCriteria sha256 src = .ok merged)
    (hsome : merged.mandatoryChecks ≠ [] ∨ merged.scoringCriteria ≠ []) :
    merged.extractionTargets ≠ [] := by
  simp only [mergeCriteria, bind_eq_ok, pure_eq_ok] at h
  obtain ⟨m, _, guides, _, rfl⟩ := h
  revert hsome
  simp only [finish]
  split
  · simp [buildTargets]
  · simp only [buildTargets, ne_eq, List.append_eq_nil_iff, List.map_eq_nil_iff, not_and_or]
    exact id

/-- Where the refinement stands: at the model's call, before it reads the setup, before it writes
the setup back. -/
inductive Refinement
  | waiting
  | merged (m : Refinable)
  | holding (m : Refinable) (existing : SetupJson)

/-- A request that has passed its checks, before and after it has read the setup. -/
inductive Update
  | checked (body : UpdateSetupRequest)
  | editing (setup : SetupJson)

/-- One run, with its stored setup, and what goes on about it. -/
structure World where
  db : Db
  stored : SetupJson
  refinement : Option Refinement
  updates : List Update
  confirms : Nat

inductive Effect
  | silent
  | refined (existing : SetupJson) (m : Refinable)
  | edited (setup : SetupJson)
  | confirmed

/-- The setup that the refinement writes back. -/
def rewritten (existing : SetupJson) (m : Refinable) : SetupJson :=
  let setup := if m.merged.mandatoryChecks.isEmpty then existing
    else setKey existing "mandatory_checks" (.arr (m.merged.mandatoryChecks.map checkJson))
  let setup := if m.merged.scoringCriteria.isEmpty then setup
    else setKey setup "scoring_criteria" (.arr (m.merged.scoringCriteria.map criterionJson))
  setKey (setKey setup "extraction_targets" (.arr (m.merged.extractionTargets.map targetJson)))
    "source" (.str m.merged.source)

theorem refineSetup_eq (existing : SetupJson) (m : Refinable) :
    refineSetup existing m.merged = .ok (rewritten existing m) := by
  have htargets : m.merged.extractionTargets.isEmpty = false := by simpa using m.targets_ne_nil
  simp only [refineSetup, htargets, rewritten]
  rfl

variable (sha256 : String → String) (src : Sources) (accepts : SetupJson → Bool) (runId : String)

/-- One statement or model call a step; `accepts` tells what passes the validators. The sources
are those that the run was started with, with what the model extracts. -/
inductive Step : World → Effect → World → Prop
  | extracted {w : World} {rfp : CriteriaLists} {m : Refinable}
      (hphase : w.refinement = some .waiting)
      (hmerge : mergeCriteria sha256 { src with rfp := rfp } = .ok m.merged) :
      Step w .silent { w with refinement := some (.merged m) }
  | read {w : World} {m : Refinable} (hphase : w.refinement = some (.merged m)) :
      Step w .silent { w with refinement := some (.holding m w.stored) }
  | wrote {w : World} {m : Refinable} {existing setup : SetupJson}
      (hphase : w.refinement = some (.holding m existing))
      (hsetup : refineSetup existing m.merged = .ok setup) :
      Step w (.refined existing m) { w with stored := setup, refinement := none }
  -- an exception, an empty merge, or a setup that is not found
  | abandoned {w : World} : Step w .silent { w with refinement := none }
  | updating {w : World} {draw : Draw} {user : TokenData} {body : UpdateSetupRequest}
      (hcheck : checkUpdate draw user runId w.db = .ok ()) :
      Step w .silent { w with updates := .checked body :: w.updates }
  | editing {w : World} {before after : List Update} {body : UpdateSetupRequest}
      {setup : SetupJson} (hupdates : w.updates = before ++ .checked body :: after)
      (hedit : editSetup w.stored body = .ok setup) (haccepts : accepts setup = true) :
      Step w .silent { w with updates := before ++ .editing setup :: after }
  | saved {w : World} {before after : List Update} {setup : SetupJson}
      (hupdates : w.updates = before ++ .editing setup :: after) :
      Step w (.edited setup) { w with stored := setup, updates := before ++ after }
  | refused {w : World} {before after : List Update} {update : Update}
      (hupdates : w.updates = before ++ update :: after) :
      Step w .silent { w with updates := before ++ after }
  | confirming {w : World} {draw : Draw} {user : TokenData}
      (hcheck : RunTasks.check draw user runId .confirm w.db = .ok ()) :
      Step w .silent { w with confirms := w.confirms + 1 }
  | confirmed {w : World} {draw : Draw} {n : Nat} (hconfirms : w.confirms = n + 1) :
      Step w .confirmed
        { w with db := RunTasks.writeOp draw runId w.db .confirm, confirms := n }
  | unconfirmed {w : World} {n : Nat} (hconfirms : w.confirms = n + 1) :
      Step w .silent { w with confirms := n }

end Runs

section Histories

def Effect.stores : Effect → Option SetupJson
  | .refined existing m => some (rewritten existing m)
  | .edited setup => some setup
  | _ => none

def Effect.edits : Effect → Option SetupJson
  | .edited setup => some setup
  | _ => none

def storedAfter (initial : SetupJson) (effects : List Effect) : SetupJson :=
  ((effects.filterMap Effect.stores).getLast?).getD initial

/-- The last accepted edit. -/
def editedAfter (effects : List Effect) : Option SetupJson :=
  (effects.filterMap Effect.edits).getLast?

/-- The lists of a setup that the user edits. -/
def listKeys : List String := ["mandatory_checks", "scoring_criteria", "extraction_targets"]

def Same (a b : SetupJson) : Prop := ∀ name, Json.member name a = Json.member name b

def Contains (setup edit : SetupJson) : Prop :=
  ∀ name ∈ listKeys, Json.member name setup = Json.member name edit

/-- A setup that is confirmed contains the last edit, and the refinement does not change it
afterwards. -/
structure Respected (initial : SetupJson) (effects : List Effect) : Prop where
  confirms_edit : ∀ pre post edit, effects = pre ++ .confirmed :: post →
    editedAfter pre = some edit → Contains (storedAfter initial pre) edit
  keeps_confirmed : ∀ pre post existing m, effects = pre ++ .refined existing m :: post →
    .confirmed ∈ pre → Same (rewritten existing m) (storedAfter initial pre)

/-- What a key has after the refinement: what was merged, if anything was, else what was read. -/
def refinedMember (existing : SetupJson) (m : Refinable) (name : String) : Option Json :=
  if name = "source" then some (.str m.merged.source)
  else if name = "extraction_targets" then
    some (.arr (m.merged.extractionTargets.map targetJson))
  else if name = "scoring_criteria" ∧ m.merged.scoringCriteria ≠ [] then
    some (.arr (m.merged.scoringCriteria.map criterionJson))
  else if name = "mandatory_checks" ∧ m.merged.mandatoryChecks ≠ [] then
    some (.arr (m.merged.mandatoryChecks.map checkJson))
  else Json.member name existing

/-- A confirmation comes before any further edit. -/
def ConfirmedNext (effects : List Effect) : Prop :=
  ∃ before after, effects = before ++ .confirmed :: after ∧ ∀ setup, .edited setup ∉ before

/-- The refinement writes nothing after a confirmation, and nothing between an edit and its
confirmation, unless what it merged is what the setup has there anyway. -/
def Harmless (initial : SetupJson) (effects : List Effect) : Prop :=
  ∀ pre post existing m, effects = pre ++ .refined existing m :: post →
    (.confirmed ∈ pre → ∀ name,
      refinedMember existing m name = Json.member name (storedAfter initial pre)) ∧
    (∀ edit, editedAfter pre = some edit → ConfirmedNext post →
      ∀ name ∈ listKeys, refinedMember existing m name = Json.member name edit)

variable {sha256 : String → String} {src : Sources} {accepts : SetupJson → Bool} {runId : String}
  {w w' : World} {effects : List Effect} {initial edit : SetupJson}

theorem member_unless_empty {α : Type} {xs : List α} {setup : SetupJson} {key name : String}
    {v : Json} : Json.member name (if xs.isEmpty then setup else setKey setup key v) =
      if name = key ∧ xs ≠ [] then some v else Json.member name setup := by
  cases xs with
  | nil => simp
  | cons x xs => simp [member_setKey]

theorem member_rewritten (existing : SetupJson) (m : Refinable) (name : String) :
    Json.member name (rewritten existing m) = refinedMember existing m name := by
  simp only [rewritten, refinedMember, member_setKey, member_unless_empty]

theorem storedAfter_snoc (effect : Effect) : storedAfter initial (effects ++ [effect]) =
    effect.stores.getD (storedAfter initial effects) := by
  rw [storedAfter, List.filterMap_append, storedAfter]
  cases hstores : effect.stores with
  | none => simp [hstores]
  | some setup => simp [hstores]

theorem editedAfter_snoc (effect : Effect) : editedAfter (effects ++ [effect]) =
    effect.edits.or (editedAfter effects) := by
  rw [editedAfter, List.filterMap_append, editedAfter]
  cases hedits : effect.edits with
  | none => simp [hedits]
  | some setup => simp [hedits]

theorem editedAfter_append {before : List Effect} (h : ∀ setup, .edited setup ∉ effects) :
    editedAfter (before ++ effects) = editedAfter before := by
  have hnone : effects.filterMap Effect.edits = [] := by
    refine List.filterMap_eq_nil_iff.mpr fun effect heffect => ?_
    cases effect with
    | edited setup => exact absurd heffect (h setup)
    | _ => rfl
  rw [editedAfter, List.filterMap_append, hnone, List.append_nil, editedAfter]

theorem storedAfter_append {before : List Effect} (h : ∀ effect ∈ effects, effect.stores = none) :
    storedAfter initial (before ++ effects) = storedAfter initial before := by
  rw [storedAfter, List.filterMap_append, List.filterMap_eq_nil_iff.mpr h, List.append_nil,
    storedAfter]

theorem step_stored {effect : Effect} (h : Step sha256 src accepts runId w effect w') :
    w'.stored = effect.stores.getD w.stored := by
  cases h with
  | wrote hphase hsetup =>
      rw [refineSetup_eq] at hsetup
      cases hsetup
      rfl
  | _ => rfl

/-- The histories tell what is stored. -/
theorem run_stored (h : Run (Step sha256 src accepts runId) w effects w') :
    w'.stored = storedAfter w.stored effects := by
  induction h with
  | nil => rfl
  | @cons w₁ w₂ w₃ effect effects hstep _ ih =>
      rw [ih, step_stored hstep, storedAfter, storedAfter, List.filterMap_cons]
      cases effect.stores with
      | none => rfl
      | some setup => simp [List.getLast?_cons]

def Effect.isRefined : Effect → Bool
  | .refined .. => true
  | _ => false

theorem step_refined {effect : Effect} (h : Step sha256 src accepts runId w effect w') :
    (if effect.isRefined then 1 else 0) + (if w'.refinement.isSome then 1 else 0) ≤
      if w.refinement.isSome then 1 else 0 := by
  cases h with
  | extracted hphase | read hphase | wrote hphase => simp [hphase, Effect.isRefined]
  | abandoned => simp [Effect.isRefined]
  | _ => simp [Effect.isRefined]

/-- There is one refinement, which writes once. -/
theorem refined_once (h : Run (Step sha256 src accepts runId) w effects w') :
    effects.countP Effect.isRefined ≤ if w.refinement.isSome then 1 else 0 := by
  induction h with
  | nil => simp
  | cons hstep _ ih =>
      have hrefined := step_refined hstep
      rw [List.countP_cons]
      omega

/-- What is stored after an edit is the edit, or what the refinement has written over it. -/
theorem stored_of_edited (h : editedAfter effects = some edit) :
    storedAfter initial effects = edit ∨
      ∃ pre existing m post, effects = pre ++ .refined existing m :: post ∧
        editedAfter pre = some edit ∧ (∀ setup, .edited setup ∉ post) ∧
          storedAfter initial effects = rewritten existing m := by
  induction effects using List.reverseRecOn with
  | nil => cases h
  | append_singleton effects effect ih =>
      rw [editedAfter_snoc] at h
      rw [storedAfter_snoc]
      cases effect with
      | edited setup =>
          cases h
          exact Or.inl rfl
      | refined existing m => exact Or.inr ⟨effects, existing, m, [], rfl, h, by simp, rfl⟩
      | silent | confirmed =>
          rcases ih h with hstored | ⟨pre, existing, m, post, rfl, hpre, hpost, hstored⟩
          · exact Or.inl hstored
          · exact Or.inr ⟨pre, existing, m, _, List.append_assoc .., hpre, by simpa using hpost, hstored⟩

/-- After its one write the refinement writes no more. -/
theorem not_refined_of_once {pre post : List Effect} {existing : SetupJson} {m : Refinable}
    (h : (pre ++ .refined existing m :: post).countP Effect.isRefined ≤ 1) :
    ∀ effect ∈ post, effect.isRefined = false := by
  rw [List.countP_append, List.countP_cons_of_pos rfl] at h
  have hzero : post.countP Effect.isRefined = 0 := by omega
  intro effect heffect
  simpa using List.countP_eq_zero.mp hzero effect heffect

/-- The refinement respects the user in a run, exactly if it is harmless in it. -/
theorem respected_iff_harmless (h : Run (Step sha256 src accepts runId) w effects w') :
    Respected w.stored effects ↔ Harmless w.stored effects := by
  constructor
  · rintro ⟨hedit, hkeep⟩ pre post existing m rfl
    refine ⟨fun hconfirmed name => ?_, ?_⟩
    · rw [← member_rewritten]
      exact hkeep pre post existing m rfl hconfirmed name
    · rintro edit hpre ⟨before, after, rfl, hbefore⟩ name hname
      have honce : (pre ++ .refined existing m :: (before ++ .confirmed :: after)).countP
          Effect.isRefined ≤ 1 := (refined_once h).trans (by split <;> omega)
      have hquiet : ∀ effect ∈ before, effect.stores = none := by
        intro effect heffect
        have hnot := not_refined_of_once honce effect (List.mem_append_left _ heffect)
        cases effect with
        | edited setup => exact absurd heffect (hbefore setup)
        | refined existing m => cases hnot
        | _ => rfl
      have hconfirm := hedit (pre ++ .refined existing m :: before) after edit (by simp) ?_ name hname
      · rw [List.append_cons, storedAfter_append hquiet, storedAfter_snoc] at hconfirm
        rw [← member_rewritten]
        exact hconfirm
      · rw [List.append_cons, editedAfter_append hbefore, editedAfter_snoc]
        exact hpre
  · intro hharmless
    refine ⟨?_, ?_⟩
    · rintro pre post edit rfl hlast name hname
      have hcases : storedAfter w.stored pre = edit ∨ _ := stored_of_edited hlast
      rcases hcases with
        hstored | ⟨before, existing, m, after, rfl, hbefore, hafter, hstored⟩
      · rw [hstored]
      · rw [hstored, member_rewritten]
        refine (hharmless before (after ++ .confirmed :: post) existing m (by simp)).2 edit hbefore
          ⟨after, post, rfl, hafter⟩ name hname
    · intro pre post existing m heffects hconfirmed name
      rw [member_rewritten]
      exact (hharmless pre post existing m heffects).1 hconfirmed name

end Histories

section Fixtures

def orgSources : Sources where
  org := [⟨"5f0c2a1e-77aa", .scoring, "Technical capability", some "", some "", some 1,
    .obj [("9_10", .str "Excellent"), ("6_8", .str "Good"), ("3_5", .str "Partial"),
      ("0_2", .str "Poor")], some false⟩]
  dept := []
  user := none
  rfp := ⟨[], []⟩

/-- The model finds nothing in the request for proposals, and the organisation's criterion is
merged. -/
theorem exists_merge : ∃ m : Refinable, mergeCriteria id { orgSources with rfp := ⟨[], []⟩ } =
    .ok m.merged ∧ m.merged.scoringCriteria.length = 1 := by
  have hmerge : (mergeCriteria id { orgSources with rfp := ⟨[], []⟩ }).toOption.map
      (fun m => m.scoringCriteria.length) = some 1 := by decide +kernel
  obtain ⟨merged, hok, hlength⟩ := Option.map_eq_some_iff.mp hmerge
  have hok' := toOption_eq_some.mp hok
  have htargets := targets_of_merge hok' (Or.inr (List.ne_nil_of_length_pos (by omega)))
  exact ⟨⟨merged, htargets⟩, hok', hlength⟩

def criterionOf (id name : String) (weight : ℚ) : SetupJson :=
  [("criterion_id", .str id), ("name", .str name), ("weight", .num weight),
    ("rubric_9_10", .str "Excellent"), ("rubric_6_8", .str "Good"), ("rubric_3_5", .str "Partial"),
    ("rubric_0_2", .str "Poor"), ("extraction_target_ids", .arr [])]

def mergedSetup : SetupJson :=
  [("setup_id", .str "setup-run1"), ("org_id", .str "org-1"), ("department", .str "IT"),
    ("rfp_id", .str "rfp-run1"), ("rfp_confirmed", .bool false), ("mandatory_checks", .arr []),
    ("scoring_criteria", .arr [.obj (criterionOf "SC-1" "Technical capability" 1)]),
    ("extraction_targets", .arr []), ("total_weight", .num 1), ("confirmed_by", .str "pending"),
    ("confirmed_at", .null), ("source", .str "merged")]

/-- The user splits the weight between two criteria. -/
def splitWeight : UpdateSetupRequest :=
  ⟨[criterionOf "SC-1" "Technical capability" (3 / 5), criterionOf "SC-2" "Price" (2 / 5)], [],
    some [[("target_id", .str "ET-1"), ("name", .str "Technical capability"),
      ("description", .str "Find evidence"), ("fact_type", .str "custom"),
      ("is_mandatory", .bool false)]]⟩

theorem editSetup_scoring {existing setup : SetupJson} {body : UpdateSetupRequest}
    (h : editSetup existing body = .ok setup) :
    Json.member "scoring_criteria" setup = some (.arr (body.scoringCriteria.map .obj)) := by
  simp only [editSetup, bind_eq_ok] at h
  obtain ⟨targets, _, ids, _, filled, _, h⟩ := h
  split at h
  · rw [pure_eq_ok] at h
    subst h
    simp [member_setKey]
  · obtain ⟨weights, _, h⟩ := bind_eq_ok.mp h
    rw [pure_eq_ok] at h
    subst h
    simp [member_setKey]

theorem exists_edit (existing : SetupJson) : ∃ edit, editSetup existing splitWeight = .ok edit := by
  have hweights : (splitWeight.scoringCriteria.mapM
      (fun c => (Json.get c "weight" (.num 0)).toFloat)).toOption =
        some [.fin (3 / 5), .fin (2 / 5)] := by decide +kernel
  exact ⟨_, bind_eq_ok.mpr ⟨_, rfl, bind_eq_ok.mpr ⟨["ET-1"], rfl, bind_eq_ok.mpr ⟨_, rfl,
    bind_eq_ok.mpr ⟨_, toOption_eq_some.mp hweights, rfl⟩⟩⟩⟩⟩

def begun : World where
  db := RunTasks.waitingDb
  stored := mergedSetup
  refinement := some .waiting
  updates := []
  confirms := 0

theorem checkUpdate_begun :
    checkUpdate adminDraw companyAdmin "run-1" RunTasks.waitingDb = .ok () := by
  have hok : (checkUpdate adminDraw companyAdmin "run-1" RunTasks.waitingDb).toOption = some () := by
    decide +kernel
  exact toOption_eq_some.mp hok

theorem checkConfirm_begun :
    RunTasks.check adminDraw companyAdmin "run-1" .confirm RunTasks.waitingDb = .ok () := by
  have hok : (RunTasks.check adminDraw companyAdmin "run-1" .confirm RunTasks.waitingDb).toOption =
      some () := by
    decide +kernel
  exact toOption_eq_some.mp hok

/-- The setups here all pass the validators. -/
def anySetup : SetupJson → Bool := fun _ => true

/-- The refinement as a whole, when nothing comes in between. -/
theorem refinement_run {w : World} (hw : w.refinement = some .waiting) {m : Refinable}
    (hm : mergeCriteria id { orgSources with rfp := ⟨[], []⟩ } = .ok m.merged) :
    Run (Step id orgSources anySetup "run-1") w [.silent, .silent, .refined w.stored m]
      { w with stored := rewritten w.stored m, refinement := none } := by
  exact .cons (.extracted hw hm) (.cons (.read rfl)
    (.single (.wrote rfl (refineSetup_eq w.stored m))))

/-- An edit as a whole. -/
theorem edit_run {w : World} (hw : w.db = RunTasks.waitingDb) {edit : SetupJson}
    (hedit : editSetup w.stored splitWeight = .ok edit) :
    Run (Step id orgSources anySetup "run-1") w [.silent, .silent, .edited edit]
      { w with stored := edit } := by
  have hcheck : checkUpdate adminDraw companyAdmin "run-1" w.db = .ok () :=
    hw ▸ checkUpdate_begun
  exact .cons (@Step.updating _ _ _ _ _ _ _ splitWeight hcheck) (.cons
    (@Step.editing _ _ _ _ _ [] w.updates _ _ rfl hedit rfl)
    (.single (@Step.saved _ _ _ _ _ [] w.updates _ rfl)))

/-- A confirmation as a whole. -/
theorem confirm_run {w : World} (hw : w.db = RunTasks.waitingDb) :
    Run (Step id orgSources anySetup "run-1") w [.silent, .confirmed]
      { w with db := RunTasks.writeOp adminDraw "run-1" w.db .confirm } := by
  have hcheck : RunTasks.check adminDraw companyAdmin "run-1" .confirm w.db = .ok () :=
    hw ▸ checkConfirm_begun
  exact .cons (.confirming hcheck) (.single (.confirmed rfl))

/-- The user edits the setup after the refinement, and what they confirm has the edit. -/
theorem edit_confirmed : ∃ m edit w,
    Run (Step id orgSources anySetup "run-1") begun
        ([.silent, .silent, .refined mergedSetup m] ++ [.silent, .silent, .edited edit] ++
          [.silent, .confirmed]) w ∧
      Respected mergedSetup ([.silent, .silent, .refined mergedSetup m] ++
        [.silent, .silent, .edited edit] ++ [.silent, .confirmed]) := by
  obtain ⟨m, hm, -⟩ := exists_merge
  obtain ⟨edit, hedit⟩ := exists_edit (rewritten mergedSetup m)
  have hrun := ((refinement_run (w := begun) rfl hm).append (edit_run rfl hedit)).append
    (confirm_run rfl)
  refine ⟨m, edit, _, hrun, (respected_iff_harmless hrun).mpr ?_⟩
  -- The one write of the refinement comes before the edit and the confirmation.
  intro pre post existing m' heffects
  rcases pre with _ | ⟨_, _ | ⟨_, _ | ⟨_, pre⟩⟩⟩
  · simp at heffects
  · simp at heffects
  · simp only [List.cons_append, List.nil_append, List.cons.injEq] at heffects
    obtain ⟨rfl, rfl, -, -⟩ := heffects
    exact ⟨by simp, fun edit hedited => by cases hedited⟩
  · simp only [List.cons_append, List.nil_append, List.cons.injEq] at heffects
    have hmem : Effect.refined existing m' ∈ pre ++ .refined existing m' :: post := by simp
    rw [← heffects.2.2.2] at hmem
    simp at hmem

/-- The refinement writes over an edit that comes while it waits for the model, and the user
confirms a setup without it. -/
theorem edit_overwritten : ∃ effects w,
    Run (Step id orgSources anySetup "run-1") begun effects w ∧ ¬ Respected begun.stored effects := by
  obtain ⟨m, hm, hlength⟩ := exists_merge
  obtain ⟨edit, hedit⟩ := exists_edit mergedSetup
  refine ⟨_, _, ((edit_run (w := begun) rfl hedit).append (refinement_run rfl hm)).append
    (confirm_run rfl), fun hrespected => ?_⟩
  have hcriteria : m.merged.scoringCriteria ≠ [] := List.ne_nil_of_length_pos (by omega)
  have hcontains := hrespected.confirms_edit
    ([.silent, .silent, .edited edit] ++ [.silent, .silent, .refined edit m] ++ [.silent]) [] edit
    rfl rfl "scoring_criteria" (by simp [listKeys])
  have hstored : storedAfter begun.stored ([.silent, .silent, .edited edit] ++
      [.silent, .silent, .refined edit m] ++ [.silent]) = rewritten edit m := rfl
  rw [hstored, member_rewritten, editSetup_scoring hedit] at hcontains
  simp only [refinedMember, String.reduceEq, if_false, ne_eq, hcriteria,
    not_false_eq_true, and_self, if_true, Option.some.injEq, Json.arr.injEq] at hcontains
  have hcount := congrArg List.length hcontains
  rw [List.length_map, List.length_map, hlength] at hcount
  cases hcount

end Fixtures

end RfpPlatform.BackgroundRefinement
