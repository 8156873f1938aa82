import RfpPlatform.Reducers
import RfpPlatform.RunState

namespace RfpPlatform.MetricsMerge

open CriticRetry Reducers RunState

/-- `_merge_dicts` -/
def mergeDicts {α β : Type*} [DecidableEq α] (left right : Dict α β) : Dict α β := left.update right

/-- What the telemetry has for an agent's work on a vendor. -/
def bucket (m : Metrics) (v : VendorId) (agent : String) : Option Metric :=
  (m.get? v).bind (fun agents => agents.get? agent)

/-- Dictionaries that no key of the one is one of the other. -/
def DisjointKeys {α β : Type*} (d e : Dict α β) : Prop :=
  ∀ a ∈ d.rows.map Prod.fst, a ∉ e.rows.map Prod.fst

def DisjointBuckets (m n : Metrics) : Prop :=
  ∀ v agent x y, bucket m v agent = some x → bucket n v agent = some y → False

/-- `==` on dictionaries. -/
abbrev SameDict {α β : Type*} [DecidableEq α] : Dict α β → Dict α β → Prop := SameAt (· = ·)

abbrev SameMetrics : Metrics → Metrics → Prop := SameAt SameDict

section Laws

theorem mergeDicts_laws {α β : Type*} [DecidableEq α] :
    MergeLaws (mergeDicts : Dict α β → Dict α β → Dict α β) ∅ SameDict DisjointKeys :=
  (reducing_rightWins.mergeLaws_at).of_apart fun _ _ h => apartAt_iff_keys.mpr h

theorem mergeCriticMetrics_eq (left right : Metrics) :
    mergeCriticMetrics left right = mergeWith (putAt rightWins) left right := rfl

theorem apart_of_disjointBuckets {m n : Metrics} (h : DisjointBuckets m n) :
    ApartAt (ApartAt (fun _ _ => False)) m n := by
  intro v agents agents' hm hn agent x y hx hy
  apply h v agent x y
  · rw [bucket, hm]
    exact hx
  · rw [bucket, hn]
    exact hy

theorem mergeCriticMetrics_laws : MergeLaws mergeCriticMetrics ∅ SameMetrics DisjointBuckets :=
  (reducing_rightWins.at.mergeLaws_at).of_apart fun _ _ => apart_of_disjointBuckets

end Laws

section Buckets

variable {v : VendorId} {agent : String}

theorem bucket_merge (left right : Metrics) : bucket (mergeCriticMetrics left right) v agent =
    (bucket right v agent).or (bucket left v agent) := by
  rw [bucket, bucket, bucket, mergeCriticMetrics_eq, get?_mergeWith]
  cases right.get? v with
  | none => rfl
  | some agents =>
      rw [putOver, Option.bind_some, Option.bind_some, putAt, get?_mergeWith]
      cases left.get? v <;> cases agents.get? agent <;> rfl

/-- Telemetry merged one after another has for a bucket what was written there last. -/
theorem bucket_foldl (m : Metrics) (us : List Metrics) :
    bucket (us.foldl mergeCriticMetrics m) v agent =
      (us.filterMap (fun u => bucket u v agent)).getLast?.or (bucket m v agent) := by
  induction us using List.reverseRecOn with
  | nil => rfl
  | append_singleton us u ih =>
      rw [List.foldl_concat, bucket_merge, ih, List.filterMap_append, List.getLast?_append,
        Option.or_assoc]
      cases hu : bucket u v agent with
      | none => simp [hu]
      | some x => simp [hu]

end Buckets

section Driver

variable {γ : Type*}

/-- A state as the driver keeps it, or an update of one: the telemetry of the critics, where the
field is there, and the other fields by their names. -/
structure Fields (γ : Type*) where
  criticMetricsAccum : Option Metrics
  rest : Dict String γ

/-- `{**state, **updated}` -/
def Fields.overwrite (state updated : Fields γ) : Fields γ where
  criticMetricsAccum := updated.criticMetricsAccum.or state.criticMetricsAccum
  rest := state.rest.update updated.rest

/-- A node's name with what the node has returned. -/
abbrev StateDiff (γ : Type*) := String × Option (Fields γ)

def StateDiff.updated (diff : StateDiff γ) : Fields γ := diff.2.getD ⟨none, ∅⟩

/-- The telemetry of a node, where it has returned any. -/
def StateDiff.emitted (diff : StateDiff γ) : Option Metrics := diff.updated.criticMetricsAccum

/-- One turn of the driver's loop. The telemetry is read before the node's fields overwrite it. -/
def driverStep (finalState : Fields γ) (diff : StateDiff γ) : Fields γ :=
  let prevCritic := finalState.criticMetricsAccum.getD ∅
  let overwritten := finalState.overwrite diff.updated
  match diff.updated.criticMetricsAccum with
  | some m => { overwritten with criticMetricsAccum := some (mergeCriticMetrics prevCritic m) }
  | none => overwritten

def drive (initialState : Fields γ) (diffs : List (StateDiff γ)) : Fields γ :=
  diffs.foldl driverStep initialState

/-- `final_state.get("critic_metrics_accum") or {}` -/
def criticAccum (finalState : Fields γ) : Metrics := finalState.criticMetricsAccum.getD ∅

theorem criticAccum_driverStep (finalState : Fields γ) (diff : StateDiff γ) :
    criticAccum (driverStep finalState diff) =
      diff.emitted.toList.foldl mergeCriticMetrics (criticAccum finalState) := by
  rw [driverStep, StateDiff.emitted]
  cases hm : diff.updated.criticMetricsAccum with
  | none => simp [criticAccum, Fields.overwrite, hm]
  | some m => rfl

theorem criticAccum_drive (initialState : Fields γ) (diffs : List (StateDiff γ)) :
    criticAccum (drive initialState diffs) =
      (diffs.filterMap StateDiff.emitted).foldl mergeCriticMetrics (criticAccum initialState) := by
  induction diffs generalizing initialState with
  | nil => rfl
  | cons diff diffs ih =>
      rw [drive, List.foldl_cons]
      refine (ih _).trans ?_
      rw [criticAccum_driverStep, List.filterMap_cons]
      cases diff.emitted <;> rfl

/-- The telemetry of a node as the graph is given it. -/
def StateDiff.telemetry (diff : StateDiff γ) : Update where
  criticMetrics := diff.emitted.getD ∅

/-- What the driver has of the telemetry after a run is what the graph's reducer makes of it, and
nothing of it is lost. Where no two nodes write one bucket, the order of the nodes does not matter. -/
structure DriverAgrees (rest : Dict String γ) (diffs : List (StateDiff γ)) : Prop where
  folded : criticAccum (drive ⟨none, rest⟩ diffs) =
    (diffs.filterMap StateDiff.emitted).foldl mergeCriticMetrics ∅
  graph : criticAccum (drive ⟨none, rest⟩ diffs) =
    (({} : PipelineState).applyAll (diffs.map StateDiff.telemetry)).criticMetrics
  kept : ∀ v agent, bucket (criticAccum (drive ⟨none, rest⟩ diffs)) v agent =
    ((diffs.filterMap StateDiff.emitted).filterMap (fun u => bucket u v agent)).getLast?
  anyOrder : ∀ diffs', diffs.Perm diffs' →
    (diffs.filterMap StateDiff.emitted).Pairwise DisjointBuckets →
    SameMetrics (criticAccum (drive ⟨none, rest⟩ diffs)) (criticAccum (drive ⟨none, rest⟩ diffs'))

end Driver

section States

variable {s : PipelineState} {us vs : List Update}

/-- A field of the state after a superstep is the merge of what the branches have written to it. -/
theorem merged_applyAll {δ : Type*} {get : PipelineState → δ} {written : Update → δ} {merge : δ → δ → δ}
    (happly : ∀ s u, get (s.apply u) = merge (get s) (written u)) (s : PipelineState) (us : List Update) :
    get (s.applyAll us) = (us.map written).foldl merge (get s) := by
  induction us generalizing s with
  | nil => rfl
  | cons u us ih => rw [applyAll_cons, ih, happly, List.map_cons, List.foldl_cons]

theorem applyAll_anyOrder {δ : Type*} {get : PipelineState → δ} {written : Update → δ}
    {merge : δ → δ → δ} {empty : δ} {Same Apart : δ → δ → Prop} (hlaws : MergeLaws merge empty Same Apart)
    (happly : ∀ s u, get (s.apply u) = merge (get s) (written u)) (hperm : us.Perm vs)
    (hapart : us.Pairwise (fun u w => Apart (written u) (written w))) :
    Same (get (s.applyAll us)) (get (s.applyAll vs)) := by
  rw [merged_applyAll happly, merged_applyAll happly]
  exact hlaws.anyOrder _ _ _ (hperm.map written) (List.pairwise_map.mpr hapart)

/-- Two updates that write nothing under the same key. -/
structure ApartUpdates (u w : Update) : Prop where
  retrievalOutputs : DisjointKeys u.retrievalOutputs w.retrievalOutputs
  extractionOutputs : DisjointKeys u.extractionOutputs w.extractionOutputs
  evaluationOutputs : DisjointKeys u.evaluationOutputs w.evaluationOutputs
  sourceChunks : DisjointKeys u.sourceChunks w.sourceChunks
  narratives : DisjointKeys u.narratives w.narratives
  criticMetrics : DisjointBuckets u.criticMetrics w.criticMetrics

/-- The merged fields of two states are equal. -/
structure MergedAlike (s t : PipelineState) : Prop where
  retrievalOutputs : SameDict s.retrievalOutputs t.retrievalOutputs
  extractionOutputs : SameDict s.extractionOutputs t.extractionOutputs
  evaluationOutputs : SameDict s.evaluationOutputs t.evaluationOutputs
  sourceChunks : SameDict s.sourceChunks t.sourceChunks
  narratives : SameDict s.narratives t.narratives
  criticMetrics : SameMetrics s.criticMetrics t.criticMetrics

/-- The branches of a superstep can end in any order. -/
theorem applyAll_mergedAlike (hperm : us.Perm vs) (hapart : us.Pairwise ApartUpdates) :
    MergedAlike (s.applyAll us) (s.applyAll vs) where
  retrievalOutputs := applyAll_anyOrder mergeDicts_laws (fun _ _ => rfl) hperm
    (hapart.imp fun h => h.retrievalOutputs)
  extractionOutputs := applyAll_anyOrder mergeDicts_laws (fun _ _ => rfl) hperm
    (hapart.imp fun h => h.extractionOutputs)
  evaluationOutputs := applyAll_anyOrder mergeDicts_laws (fun _ _ => rfl) hperm
    (hapart.imp fun h => h.evaluationOutputs)
  sourceChunks := applyAll_anyOrder mergeDicts_laws (fun _ _ => rfl) hperm
    (hapart.imp fun h => h.sourceChunks)
  narratives := applyAll_anyOrder mergeDicts_laws (fun _ _ => rfl) hperm
    (hapart.imp fun h => h.narratives)
  criticMetrics := applyAll_anyOrder mergeCriticMetrics_laws (fun _ _ => rfl) hperm
    (hapart.imp fun h => h.criticMetrics)

end States

theorem foldl_telemetry {γ : Type*} (diffs : List (StateDiff γ)) (m : Metrics) :
    ((diffs.map StateDiff.telemetry).map Update.criticMetrics).foldl mergeCriticMetrics m =
      (diffs.filterMap StateDiff.emitted).foldl mergeCriticMetrics m := by
  induction diffs generalizing m with
  | nil => rfl
  | cons diff diffs ih =>
      rw [List.map_cons, List.map_cons, List.foldl_cons, ih, StateDiff.telemetry, List.filterMap_cons]
      cases diff.emitted <;> rfl

theorem driver_agrees {γ : Type*} (rest : Dict String γ) (diffs : List (StateDiff γ)) :
    DriverAgrees rest diffs := by
  have hfolded : ∀ diffs : List (StateDiff γ), criticAccum (drive ⟨none, rest⟩ diffs) =
      (diffs.filterMap StateDiff.emitted).foldl mergeCriticMetrics ∅ :=
    fun diffs => criticAccum_drive ⟨none, rest⟩ diffs
  refine ⟨hfolded diffs, ?_, ?_, ?_⟩
  · have hgraph : (({} : PipelineState).applyAll (diffs.map StateDiff.telemetry)).criticMetrics =
        ((diffs.map StateDiff.telemetry).map Update.criticMetrics).foldl mergeCriticMetrics ∅ :=
      merged_applyAll (fun _ _ => rfl) {} _
    rw [hfolded, hgraph, foldl_telemetry]
  · intro v agent
    rw [hfolded, bucket_foldl]
    exact Option.or_none
  · intro diffs' hperm hapart
    rw [hfolded, hfolded]
    exact mergeCriticMetrics_laws.anyOrder _ _ _ (hperm.filterMap _) hapart

/-- The reducers are merges with any order of what is apart, and the driver's copy of the telemetry
is the one that the graph's reducer makes. -/
theorem reducers_agree {α β γ : Type} [DecidableEq α] :
    MergeLaws (mergeDicts : Dict α β → Dict α β → Dict α β) ∅ SameDict DisjointKeys ∧
      MergeLaws mergeCriticMetrics ∅ SameMetrics DisjointBuckets ∧
      (∀ (s : PipelineState) (us vs : List Update), us.Perm vs → us.Pairwise ApartUpdates →
        MergedAlike (s.applyAll us) (s.applyAll vs)) ∧
      ∀ (rest : Dict String γ) (diffs : List (StateDiff γ)), DriverAgrees rest diffs :=
  ⟨mergeDicts_laws, mergeCriticMetrics_laws, fun _ _ _ hperm hapart => applyAll_mergedAlike hperm hapart,
    driver_agrees⟩

end RfpPlatform.MetricsMerge
