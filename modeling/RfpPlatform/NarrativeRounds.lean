import RfpPlatform.AttemptKeys
import RfpPlatform.KeyedLatest
import RfpPlatform.NarrativeGrounding
import RfpPlatform.NodeWrites

namespace RfpPlatform.NarrativeRounds

open AttemptKeys CriticRetry Explanation KeyedLatest PipelineNodes RunState

section Model

variable (e : Execution) (decision : DecisionOutput)

/-- What a branch comes to in the attempt that starts with a state. -/
def narrated (s : PipelineState) (b : Branch) : Except FailedVendor VendorNarrative :=
  match s.evaluationOutputs.get? b.1 with
  | none => .error (notEvaluated b.1)
  | some evaluation =>
      (generateVendorNarrative e.settings.synthesis
        (e.services.narration (s.explanationRetryCount + 1) b)
        (branchPrompt e s decision b evaluation) (isRejected decision b.1) evaluation
        decision).mapError (fun exc => ⟨b.1, "explanation", exc.message⟩)

/-- An attempt: the state that its branches read, and the order in which they end. -/
structure Round where
  start : PipelineState
  order : List Branch

def Round.attempt (r : Round) : Nat := r.start.explanationRetryCount + 1

def updatesOf (s : PipelineState) (order : List Branch) : List Update :=
  (order.map (explanationUpdate e s decision)).map Prod.fst

def Round.finish (r : Round) : PipelineState :=
  r.start.applyAll (updatesOf e decision r.start r.order)

/-- The state after the output has been built and the critic has seen it. -/
def judged (s : PipelineState) : PipelineState :=
  let built := s.applyAll (explanationFinalise s decision).updates
  built.applyAll (explanationCritic e built).updates

/-- The attempts of an explanation stage so far, and the state behind the branches of the last. The
critic asks for every attempt but the first. -/
inductive Attempted (s₀ : PipelineState) : List Round → PipelineState → Prop
  | first {order : List Branch} (horder : order.Perm (branches e.input)) :
      Attempted s₀ [⟨s₀, order⟩] (Round.finish e decision ⟨s₀, order⟩)
  | retry {rounds : List Round} {s : PipelineState} {order : List Branch}
      (hrounds : Attempted s₀ rounds s) (horder : order.Perm (branches e.input))
      (hasked : (judged e decision s).explanationRetryRequested = true)
      (hopen : (judged e decision s).blocked = false) :
      Attempted s₀ (rounds ++ [⟨judged e decision s, order⟩])
        (Round.finish e decision ⟨judged e decision s, order⟩)

/-- No attempt has been made yet. -/
structure Fresh (s : PipelineState) : Prop where
  narratives : s.narratives = ∅
  attempts : s.explanationRetryCount = 0
  failures : ∀ f ∈ s.failedVendors, f.stage ≠ "explanation"

/-- The narratives of a branch, one for every attempt in which it has not failed. -/
def history (rounds : List Round) (b : Branch) : List VendorNarrative :=
  rounds.filterMap (fun r => (narrated e decision r.start b).toOption)

/-- The branch fails in the last attempt. -/
def FailsLast (rounds : List Round) (b : Branch) : Prop :=
  ∀ r ∈ rounds.getLast?, (narrated e decision r.start b).toOption = none

/-- The failures of the stage that are reported. -/
def Reported (s : PipelineState) (b : Branch) : Prop :=
  ∃ f ∈ s.failedVendors, f.stage = "explanation" ∧ f.vendorId = b.1

def output (s : PipelineState) : ExplanationOutput :=
  explanationOutput decision (sortedNarratives s.narratives) (failureLimitations s.failedVendors)

/-- The output has the narrative of the latest success of every vendor and no other, and reports a
failure only where the latest attempt has failed. -/
structure RoundTrip (rounds : List Round) (s : PipelineState) : Prop where
  narratives : ∀ n, n ∈ (output decision s).vendorNarratives ↔
    ∃ b ∈ branches e.input, (history e decision rounds b).getLast? = some n
  once : ((output decision s).vendorNarratives.map VendorNarrative.vendorId).Nodup
  failures : ∀ b ∈ branches e.input, Reported s b → FailsLast e decision rounds b

end Model

section Branches

variable {e : Execution} {decision : DecisionOutput} {s t : PipelineState} {b : Branch}
  {order : List Branch}

/-- A branch that comes to a narrative adds it under the key of the attempt, and one that fails
adds its failure. -/
theorem narrated_cases (e : Execution) (decision : DecisionOutput) (s : PipelineState)
    (b : Branch) :
    (∃ n, narrated e decision s b = .ok n ∧ n.vendorId = b.1 ∧
      (explanationUpdate e s decision b).1 =
        { narratives := Dict.ofPairs [(accumKey b.1 (s.explanationRetryCount + 1), n)] }) ∨
    (∃ f, narrated e decision s b = .error f ∧ (f.vendorId = b.1 ∧ f.stage = "explanation") ∧
      (explanationUpdate e s decision b).1 = { failedVendors := [f] }) := by
  rw [narrated, explanationUpdate]
  cases hevaluation : s.evaluationOutputs.get? b.1 with
  | none => exact .inr ⟨_, rfl, ⟨rfl, rfl⟩, rfl⟩
  | some evaluation =>
      simp only
      cases hresult : generateVendorNarrative e.settings.synthesis
          (e.services.narration (s.explanationRetryCount + 1) b)
          (branchPrompt e s decision b evaluation) (isRejected decision b.1) evaluation
          decision with
      | error exc => exact .inr ⟨_, rfl, ⟨rfl, rfl⟩, rfl⟩
      | ok narrative =>
          exact .inl ⟨narrative, rfl, (generateVendorNarrative_grounded hresult).1, rfl⟩

theorem updated_of_narrated {n : VendorNarrative} (h : narrated e decision s b = .ok n) :
    n.vendorId = b.1 ∧ (explanationUpdate e s decision b).1 =
      { narratives := Dict.ofPairs [(accumKey b.1 (s.explanationRetryCount + 1), n)] } := by
  rcases narrated_cases e decision s b with ⟨n', hn, hrest⟩ | ⟨f, hf, _⟩
  · rw [h] at hn
    obtain rfl := Except.ok.inj hn
    exact hrest
  · rw [h] at hf
    cases hf

theorem updated_of_failed {f : FailedVendor} (h : narrated e decision s b = .error f) :
    (f.vendorId = b.1 ∧ f.stage = "explanation") ∧
      (explanationUpdate e s decision b).1 = { failedVendors := [f] } := by
  rcases narrated_cases e decision s b with ⟨n, hn, _⟩ | ⟨f', hf, hrest⟩
  · rw [h] at hn
    cases hn
  · rw [h] at hf
    obtain rfl := Except.error.inj hf
    exact hrest

theorem explanationUpdate_ok {n : VendorNarrative} (h : narrated e decision s b = .ok n) :
    (explanationUpdate e s decision b).1 =
      { narratives := Dict.ofPairs [(accumKey b.1 (s.explanationRetryCount + 1), n)] } :=
  (updated_of_narrated h).2

theorem explanationUpdate_error {f : FailedVendor} (h : narrated e decision s b = .error f) :
    (explanationUpdate e s decision b).1 = { failedVendors := [f] } := (updated_of_failed h).2

theorem vendorId_of_narrated {n : VendorNarrative} (h : narrated e decision s b = .ok n) :
    n.vendorId = b.1 := (updated_of_narrated h).1

theorem failure_of_narrated {f : FailedVendor} (h : narrated e decision s b = .error f) :
    f.vendorId = b.1 ∧ f.stage = "explanation" := (updated_of_failed h).1

/-- The row that a branch adds. -/
def row (e : Execution) (decision : DecisionOutput) (s : PipelineState) (b : Branch) :
    Option (String × VendorNarrative) :=
  (narrated e decision s b).toOption.map (fun n => (accumKey b.1 (s.explanationRetryCount + 1), n))

def rowsOf (e : Execution) (decision : DecisionOutput) (r : Round) :
    List (String × VendorNarrative) :=
  r.order.filterMap (row e decision r.start)

theorem ofPairs_singleton {α β : Type*} [DecidableEq α] (p : α × β) :
    (Dict.ofPairs [p]).rows = [p] := by
  have hrows := rows_update (∅ : Dict α β) ⟨[p], List.nodup_singleton _⟩
    (fun q _ h => absurd h List.not_mem_nil)
  exact hrows

/-- The branches of an attempt put their rows last, in the order in which they end. -/
theorem rows_applyAll (hnodup : (order.map Prod.fst).Nodup)
    (hfresh : ∀ b ∈ order, accumKey b.1 (s.explanationRetryCount + 1) ∉ t.narratives.keys) :
    (t.applyAll (updatesOf e decision s order)).narratives.rows =
      t.narratives.rows ++ order.filterMap (row e decision s) := by
  induction order generalizing t with
  | nil => exact (List.append_nil _).symm
  | cons b order ih =>
      obtain ⟨hb, horder⟩ := List.nodup_cons.mp hnodup
      have hnext : ∀ t' : PipelineState, t'.narratives.keys ⊆
          accumKey b.1 (s.explanationRetryCount + 1) :: t.narratives.keys →
          ∀ c ∈ order, accumKey c.1 (s.explanationRetryCount + 1) ∉ t'.narratives.keys := by
        intro t' hkeys c hc hin
        rcases List.mem_cons.mp (hkeys hin) with hsame | hold
        · exact hb ((accumKey_injective hsame).1 ▸ List.mem_map_of_mem hc)
        · exact hfresh c (List.mem_cons_of_mem b hc) hold
      rw [updatesOf, List.map_cons, List.map_cons, applyAll_cons]
      change ((t.apply _).applyAll (updatesOf e decision s order)).narratives.rows = _
      cases hnarrated : narrated e decision s b with
      | error f =>
          have hrow : row e decision s b = none := by
            rw [row, hnarrated]
            rfl
          rw [explanationUpdate_error hnarrated, List.filterMap_cons_none hrow]
          exact ih horder (hnext _ (List.subset_cons_self _ _))
      | ok n =>
          have hrow : row e decision s b =
              some (accumKey b.1 (s.explanationRetryCount + 1), n) := by
            rw [row, hnarrated]
            rfl
          rw [explanationUpdate_ok hnarrated, List.filterMap_cons_some hrow]
          have hrows : (t.narratives.update
              (Dict.ofPairs [(accumKey b.1 (s.explanationRetryCount + 1), n)])).rows =
              t.narratives.rows ++ [(accumKey b.1 (s.explanationRetryCount + 1), n)] := by
            rw [rows_update, ofPairs_singleton]
            intro p hp
            rw [ofPairs_singleton, List.mem_singleton] at hp
            rw [hp]
            exact hfresh b List.mem_cons_self
          rw [ih horder (hnext _ ?_)]
          · change (t.narratives.update _).rows ++ _ = _
            rw [hrows, List.append_assoc, List.singleton_append]
          · intro k hk
            have hk : k ∈ (t.narratives.update
              (Dict.ofPairs [(accumKey b.1 (s.explanationRetryCount + 1), n)])).rows.map Prod.fst := hk
            rw [hrows, List.map_append, List.mem_append] at hk
            rcases hk with hk | hk
            · exact List.mem_cons_of_mem _ hk
            · exact List.mem_cons.mpr (.inl (List.mem_singleton.mp hk))

theorem failures_applyAll (order : List Branch) :
    (t.applyAll (updatesOf e decision s order)).failedVendors =
      t.failedVendors ++ order.flatMap (fun b => (explanationUpdate e s decision b).1.failedVendors) := by
  rw [failedVendors_applyAll, updatesOf, List.map_map, List.flatMap_map]
  rfl

theorem attempts_applyAll (order : List Branch) :
    (t.applyAll (updatesOf e decision s order)).explanationRetryCount = t.explanationRetryCount := by
  refine applyAll_frame PipelineState.explanationRetryCount (fun u hu s' => ?_) t
  obtain ⟨result, hresult, rfl⟩ := List.mem_map.mp hu
  obtain ⟨b, _, rfl⟩ := List.mem_map.mp hresult
  exact congrArg (Option.getD · s'.explanationRetryCount) NodeUpdates.branchOnly_explanation.retries

/-- A critic that asks for a retry counts it, and leaves what has been collected. -/
theorem judged_asked (h : (judged e decision s).explanationRetryRequested = true) :
    (judged e decision s).narratives = s.narratives ∧
      (judged e decision s).failedVendors = s.failedVendors ∧
      (judged e decision s).explanationRetryCount = s.explanationRetryCount + 1 := by
  set built := s.applyAll (explanationFinalise s decision).updates with hbuilt
  have hfailed : built.failedVendors = s.failedVendors := List.append_nil s.failedVendors
  have hjudged : judged e decision s = built.applyAll (explanationCritic e built).updates := rfl
  rw [hjudged] at h ⊢
  obtain ⟨out, hout⟩ : ∃ out, built.explanationOutput = some out := ⟨_, rfl⟩
  by_cases hverdict : (explanationVerdict e built out).overallVerdict ≠ .blocked
  · simp only [explanationCritic, hout, if_pos hverdict] at h
    cases h
  · by_cases hspent : explanationMaxRetries ≤ built.explanationRetryCount
    · simp only [explanationCritic, hout, if_neg hverdict, if_pos hspent] at h
      cases h
    · simp only [explanationCritic, hout, if_neg hverdict, if_neg hspent]
      exact ⟨rfl, (List.append_nil built.failedVendors).trans hfailed, rfl⟩

end Branches

section Records

variable {e : Execution} {decision : DecisionOutput} {s₀ s : PipelineState} {rounds : List Round}
  {b : Branch}

def failuresOf (e : Execution) (decision : DecisionOutput) (r : Round) : List FailedVendor :=
  r.order.flatMap (fun b => (explanationUpdate e r.start decision b).1.failedVendors)

/-- What the append-only state holds after some attempts. -/
structure Recorded (e : Execution) (decision : DecisionOutput) (s₀ : PipelineState)
    (rounds : List Round) (s : PipelineState) : Prop where
  rows : s.narratives.rows = rounds.flatMap (rowsOf e decision)
  failures : s.failedVendors = s₀.failedVendors ++ rounds.flatMap (failuresOf e decision)
  numbers : rounds.Pairwise (fun r r' => r.attempt < r'.attempt)
  last : ∀ r ∈ rounds, r.attempt ≤ s.explanationRetryCount + 1
  orders : ∀ r ∈ rounds, r.order.Perm (branches e.input)

theorem mem_rowsOf {r : Round} {p : String × VendorNarrative} : p ∈ rowsOf e decision r ↔
    ∃ b ∈ r.order, narrated e decision r.start b = .ok p.2 ∧ p.1 = accumKey b.1 r.attempt := by
  rw [rowsOf, List.mem_filterMap]
  refine exists_congr fun b => and_congr_right fun _ => ?_
  rw [row]
  cases narrated e decision r.start b with
  | error f =>
      refine iff_of_false (fun h => by cases h) ?_
      rintro ⟨h, _⟩
      cases h
  | ok n =>
      obtain ⟨k, m⟩ := p
      constructor
      · intro h
        cases h
        exact ⟨rfl, rfl⟩
      · rintro ⟨hm, hk⟩
        obtain rfl := Except.ok.inj hm
        obtain rfl : k = accumKey b.1 r.attempt := hk
        rfl

theorem nodup_names (hnodup : e.input.vendorIds.Nodup) {order : List Branch}
    (horder : order.Perm (branches e.input)) : (order.map Prod.fst).Nodup := by
  refine (horder.map Prod.fst).nodup_iff.mpr ?_
  rw [branches, List.zipIdx_map_fst]
  exact hnodup

/-- An attempt that starts where the others have ended is recorded behind them. -/
theorem Recorded.finish {start : PipelineState} {order : List Branch}
    (h : Recorded e decision s₀ rounds start) (hnodup : e.input.vendorIds.Nodup)
    (hnumber : ∀ r ∈ rounds, r.attempt < start.explanationRetryCount + 1)
    (horder : order.Perm (branches e.input)) :
    Recorded e decision s₀ (rounds ++ [⟨start, order⟩]) (Round.finish e decision ⟨start, order⟩) where
  rows := by
    have hfresh : ∀ b ∈ order,
        accumKey b.1 (start.explanationRetryCount + 1) ∉ start.narratives.keys := by
      intro b _ hin
      obtain ⟨p, hp, hkey⟩ := List.mem_map.mp hin
      rw [h.rows] at hp
      obtain ⟨r, hr, hrow⟩ := List.mem_flatMap.mp hp
      obtain ⟨c, _, _, hpc⟩ := mem_rowsOf.mp hrow
      have hsame := (accumKey_injective (hpc.symm.trans hkey)).2
      exact absurd hsame (Nat.ne_of_lt (hnumber r hr))
    have hrows := @rows_applyAll e decision start start order (nodup_names hnodup horder) hfresh
    rw [List.flatMap_append, List.flatMap_singleton, ← h.rows]
    exact hrows
  failures := by
    rw [List.flatMap_append, List.flatMap_singleton, ← List.append_assoc, ← h.failures]
    exact failures_applyAll order
  numbers := by
    refine List.pairwise_append.mpr ⟨h.numbers, List.pairwise_singleton _ _, ?_⟩
    intro r hr r' hr'
    rw [List.mem_singleton.mp hr']
    exact hnumber r hr
  last := by
    have hcount : (Round.finish e decision ⟨start, order⟩).explanationRetryCount =
        start.explanationRetryCount := attempts_applyAll order
    intro r hr
    rw [hcount]
    rcases List.mem_append.mp hr with hr | hr
    · exact (hnumber r hr).le
    · rw [List.mem_singleton.mp hr]
      exact le_rfl
  orders := by
    intro r hr
    rcases List.mem_append.mp hr with hr | hr
    · exact h.orders r hr
    · rw [List.mem_singleton.mp hr]
      exact horder

theorem recorded (hfresh : Fresh s₀) (hnodup : e.input.vendorIds.Nodup)
    (h : Attempted e decision s₀ rounds s) : Recorded e decision s₀ rounds s := by
  induction h with
  | first horder =>
      have hstart : Recorded e decision s₀ [] s₀ :=
        ⟨congrArg KeyedTable.rows hfresh.narratives, (List.append_nil _).symm, List.Pairwise.nil,
          fun r hr => absurd hr List.not_mem_nil, fun r hr => absurd hr List.not_mem_nil⟩
      exact hstart.finish hnodup (fun r hr => absurd hr List.not_mem_nil) horder
  | @retry rounds s order hrounds horder hasked hopen ih =>
      obtain ⟨hnarratives, hfailed, hcount⟩ := judged_asked hasked
      have hstart : Recorded e decision s₀ rounds (judged e decision s) :=
        ⟨(congrArg KeyedTable.rows hnarratives).trans ih.rows, hfailed.trans ih.failures,
          ih.numbers, fun r hr => hcount ▸ (ih.last r hr).trans (Nat.le_succ _), ih.orders⟩
      refine hstart.finish hnodup (fun r hr => ?_) horder
      rw [hcount]
      exact Nat.lt_succ_of_le (ih.last r hr)

end Records

section Collected

variable {e : Execution} {decision : DecisionOutput} {s₀ s : PipelineState} {rounds : List Round}
  {b : Branch}

/-- What a row is collected as. -/
def entry (p : String × VendorNarrative) : VendorId × Int × VendorNarrative :=
  ((splitKey p.1).1, (splitKey p.1).2, p.2)

theorem latestPerVendor_eq (narratives : Dict String VendorNarrative) :
    latestPerVendor narratives = collect (narratives.rows.map entry) := by
  rw [collect, List.foldl_map]
  rfl

/-- The narrative of a branch in an attempt, under the number that its key tells. -/
def numbered (e : Execution) (decision : DecisionOutput) (b : Branch) (r : Round) :
    Option (Int × VendorNarrative) :=
  (narrated e decision r.start b).toOption.map (fun n => (number b.1 r.attempt, n))

theorem entries_rowsOf (r : Round) : (rowsOf e decision r).map entry =
    r.order.filterMap (fun b => (numbered e decision b r).map (fun p => (name b.1, p))) := by
  rw [rowsOf, List.map_filterMap]
  congr 1
  funext b
  rw [row, numbered, Option.map_map, Option.map_map]
  refine congrArg (fun f => Option.map f _) (funext fun n => ?_)
  simp only [Function.comp_apply, entry]
  rw [← Round.attempt, splitKey_accumKey]

/-- No other branch with a narrative is collected under the name of the branch. -/
def Sole (e : Execution) (decision : DecisionOutput) (rounds : List Round) (b : Branch) : Prop :=
  ∀ c ∈ branches e.input, history e decision rounds c ≠ [] → name c.1 = name b.1 → c = b

theorem history_ne_nil {r : Round} {n : VendorNarrative} (hr : r ∈ rounds)
    (h : narrated e decision r.start b = .ok n) : n ∈ history e decision rounds b :=
  List.mem_filterMap.mpr ⟨r, hr, by rw [h]; rfl⟩

theorem narrated_of_numbered {r : Round} {p : Int × VendorNarrative}
    (h : numbered e decision b r = some p) :
    narrated e decision r.start b = .ok p.2 ∧ p.1 = number b.1 r.attempt := by
  obtain ⟨n, hn, rfl⟩ := Option.map_eq_some_iff.mp h
  exact ⟨ExceptRules.toOption_eq_some.mp hn, rfl⟩

theorem entriesOf_sole (h : Recorded e decision s₀ rounds s) (hnodup : e.input.vendorIds.Nodup)
    (hb : b ∈ branches e.input) (hsole : Sole e decision rounds b) :
    entriesOf (name b.1) (s.narratives.rows.map entry) =
      rounds.filterMap (numbered e decision b) := by
  have hrounds : ∀ rs ⊆ rounds,
      entriesOf (name b.1) ((rs.flatMap (rowsOf e decision)).map entry) =
        rs.filterMap (numbered e decision b) := by
    intro rs
    induction rs with
    | nil => exact fun _ => rfl
    | cons r rs ih =>
        intro hsub
        have hr : r ∈ rounds := hsub List.mem_cons_self
        have horder := h.orders r hr
        have hround : entriesOf (name b.1) ((rowsOf e decision r).map entry) =
            (numbered e decision b r).toList := by
          rw [entries_rowsOf, entriesOf_filterMap (nodup_names hnodup horder).of_map
            (horder.mem_iff.mpr hb), Option.map_map]
          · exact congrArg Option.toList Option.map_id'
          · intro entry hentry
            obtain ⟨p, _, rfl⟩ := Option.map_eq_some_iff.mp hentry
            rfl
          · intro c hc entry hentry hname
            obtain ⟨p, hp, rfl⟩ := Option.map_eq_some_iff.mp hentry
            have hmem := history_ne_nil hr (narrated_of_numbered hp).1
            exact hsole c (horder.mem_iff.mp hc) (List.ne_nil_of_mem hmem) hname
        rw [List.flatMap_cons, List.map_append, entriesOf_append, hround,
          ih fun r' hr' => hsub (List.mem_cons_of_mem r hr')]
        cases hnumbered : numbered e decision b r with
        | none => rw [List.filterMap_cons_none hnumbered]; rfl
        | some p => rw [List.filterMap_cons_some hnumbered]; rfl
  rw [h.rows]
  exact hrounds rounds (List.Subset.refl _)

theorem history_eq : history e decision rounds b =
    (rounds.filterMap (numbered e decision b)).map Prod.snd := by
  rw [history, List.map_filterMap]
  congr 1
  funext r
  rw [numbered, Option.map_map]
  exact Option.map_id'.symm

/-- A branch that is alone under its name has its latest narrative collected, or its first one
where its id is marked. -/
theorem collected_sole (h : Recorded e decision s₀ rounds s) (hnodup : e.input.vendorIds.Nodup)
    (hb : b ∈ branches e.input) (hsole : Sole e decision rounds b) :
    ((latestPerVendor s.narratives).get? (name b.1)).map Prod.snd =
      if Marked b.1 then (history e decision rounds b).head?
      else (history e decision rounds b).getLast? := by
  rw [latestPerVendor_eq, get?_collect, entriesOf_sole h hnodup hb hsole, history_eq,
    List.head?_map, List.getLast?_map]
  by_cases hmarked : Marked b.1
  · rw [if_pos hmarked, foldl_pick_same (n := 0) (by decide)]
    intro p hp
    obtain ⟨r, _, hr⟩ := List.mem_filterMap.mp hp
    rw [(narrated_of_numbered hr).2, number, if_pos hmarked]
  · have hnumbers : ∀ r p, numbered e decision b r = some p → p.1 = (r.attempt : Int) := by
      intro r p hr
      rw [(narrated_of_numbered hr).2, number, if_neg hmarked]
    rw [if_neg hmarked, foldl_pick_increasing, Option.or_none]
    · refine h.numbers.filterMap _ fun r r' hlt p hp q hq => ?_
      rw [hnumbers r p hp, hnumbers r' q hq]
      exact Int.ofNat_lt.mpr hlt
    · intro p hp
      obtain ⟨r, _, hr⟩ := List.mem_filterMap.mp hp
      rw [hnumbers r p hr]
      exact Int.lt_of_lt_of_le (by decide) (Int.natCast_nonneg _)

/-- What is collected under a name is the narrative of a branch of that name. -/
theorem branch_of_collected (h : Recorded e decision s₀ rounds s) {x : VendorId}
    {p : Int × VendorNarrative} (hp : (latestPerVendor s.narratives).get? x = some p) :
    ∃ b ∈ branches e.input, name b.1 = x ∧ p.2.vendorId = b.1 ∧
      p.2 ∈ history e decision rounds b := by
  rw [latestPerVendor_eq, get?_collect] at hp
  rcases mem_of_foldl_pick hp with hnone | hmem
  · cases hnone
  · obtain ⟨q, hq, rfl⟩ := List.mem_map.mp hmem
    obtain ⟨hq, hx⟩ := List.mem_filter.mp hq
    obtain ⟨row, hrow, rfl⟩ := List.mem_map.mp hq
    rw [h.rows] at hrow
    obtain ⟨r, hr, hrow⟩ := List.mem_flatMap.mp hrow
    obtain ⟨b, hb, hnarrated, hkey⟩ := mem_rowsOf.mp hrow
    refine ⟨b, (h.orders r hr).mem_iff.mp hb, ?_, vendorId_of_narrated hnarrated,
      history_ne_nil hr hnarrated⟩
    have hname : (splitKey row.1).1 = x := of_decide_eq_true hx
    rw [hkey, splitKey_accumKey] at hname
    exact hname

end Collected

section RoundTrips

variable {e : Execution} {decision : DecisionOutput} {s₀ s : PipelineState} {rounds : List Round}
  {b : Branch}

/-- A vendor with a marked id has the same narrative first and last, and no other vendor with a
narrative is collected under its name. -/
def MarkedApart (e : Execution) (decision : DecisionOutput) (rounds : List Round) : Prop :=
  ∀ b ∈ branches e.input, history e decision rounds b ≠ [] → Marked b.1 →
    (history e decision rounds b).head? = (history e decision rounds b).getLast? ∧
      Sole e decision rounds b

/-- A vendor that fails in some attempt fails in the last. -/
def FailuresLast (e : Execution) (decision : DecisionOutput) (rounds : List Round) : Prop :=
  ∀ b ∈ branches e.input,
    (∃ r ∈ rounds, (narrated e decision r.start b).toOption = none) → FailsLast e decision rounds b

theorem mem_sortedNarratives {narratives : Dict String VendorNarrative} {n : VendorNarrative} :
    n ∈ sortedNarratives narratives ↔
      ∃ x p, (latestPerVendor narratives).get? x = some p ∧ p.2 = n := by
  rw [sortedNarratives, List.mem_map]
  constructor
  · rintro ⟨⟨x, p⟩, hmem, rfl⟩
    exact ⟨x, p, Dict.get?_eq_some.mpr ((List.mem_insertionSort _).mp hmem), rfl⟩
  · rintro ⟨x, p, hget, rfl⟩
    exact ⟨(x, p), (List.mem_insertionSort _).mpr (Dict.get?_eq_some.mp hget), rfl⟩

theorem sole_of_markedApart (h : MarkedApart e decision rounds) (hnodup : e.input.vendorIds.Nodup)
    (hb : b ∈ branches e.input) (hhistory : history e decision rounds b ≠ []) :
    Sole e decision rounds b := by
  intro c hc hother hname
  by_cases hmarked : Marked c.1
  · exact ((h c hc hother hmarked).2 b hb hhistory hname.symm).symm
  · by_cases hself : Marked b.1
    · exact (h b hb hhistory hself).2 c hc hother hname
    · rw [name_unmarked hmarked, name_unmarked hself] at hname
      exact branch_unique hnodup hc hb hname

/-- What is collected for a vendor is its latest narrative. -/
theorem collected_latest (hrecord : Recorded e decision s₀ rounds s)
    (hnodup : e.input.vendorIds.Nodup) (h : MarkedApart e decision rounds)
    (hb : b ∈ branches e.input) (hhistory : history e decision rounds b ≠ []) :
    ((latestPerVendor s.narratives).get? (name b.1)).map Prod.snd =
      (history e decision rounds b).getLast? := by
  rw [collected_sole hrecord hnodup hb (sole_of_markedApart h hnodup hb hhistory)]
  by_cases hmarked : Marked b.1
  · rw [if_pos hmarked, (h b hb hhistory hmarked).1]
  · rw [if_neg hmarked]

theorem narratives_of_markedApart (hrecord : Recorded e decision s₀ rounds s)
    (hnodup : e.input.vendorIds.Nodup) (h : MarkedApart e decision rounds) (n : VendorNarrative) :
    n ∈ sortedNarratives s.narratives ↔
      ∃ b ∈ branches e.input, (history e decision rounds b).getLast? = some n := by
  rw [mem_sortedNarratives]
  constructor
  · rintro ⟨x, p, hget, rfl⟩
    obtain ⟨b, hb, rfl, _, hmem⟩ := branch_of_collected hrecord hget
    refine ⟨b, hb, ?_⟩
    rw [← collected_latest hrecord hnodup h hb (List.ne_nil_of_mem hmem), hget]
    rfl
  · rintro ⟨b, hb, hlast⟩
    have hhistory : history e decision rounds b ≠ [] := by
      intro hnil
      rw [hnil] at hlast
      cases hlast
    rw [← collected_latest hrecord hnodup h hb hhistory] at hlast
    obtain ⟨p, hget, rfl⟩ := Option.map_eq_some_iff.mp hlast
    exact ⟨name b.1, p, hget, rfl⟩

/-- Every vendor has one narrative at most. -/
theorem once_of_recorded (hrecord : Recorded e decision s₀ rounds s) :
    ((sortedNarratives s.narratives).map VendorNarrative.vendorId).Nodup := by
  have hperm := (List.perm_insertionSort (fun p q : VendorId × Int × VendorNarrative => p.1 ≤ q.1)
    (latestPerVendor s.narratives).rows).map
      (fun p : VendorId × Int × VendorNarrative => p.2.2.vendorId)
  rw [sortedNarratives, List.map_map]
  refine hperm.nodup_iff.mpr (List.Nodup.map_on ?_ (Dict.nodup_rows _))
  rintro ⟨x, p⟩ hp ⟨y, q⟩ hq hsame
  obtain ⟨b, _, hbx, hbp, _⟩ := branch_of_collected hrecord (Dict.get?_eq_some.mpr hp)
  obtain ⟨c, _, hcy, hcq, _⟩ := branch_of_collected hrecord (Dict.get?_eq_some.mpr hq)
  have hvendor : p.2.vendorId = q.2.vendorId := hsame
  have hxy : x = y := by rw [← hbx, ← hcy, ← hbp, ← hcq, hvendor]
  exact KeyedTable.eq_of_key_eq hp hq hxy

/-- The narrative that is output for a vendor is the one collected under its name. -/
theorem collected_of_narratives (hrecord : Recorded e decision s₀ rounds s)
    (h : ∀ n, n ∈ sortedNarratives s.narratives ↔
      ∃ b ∈ branches e.input, (history e decision rounds b).getLast? = some n)
    (hb : b ∈ branches e.input) (hhistory : history e decision rounds b ≠ []) :
    ∃ p, (latestPerVendor s.narratives).get? (name b.1) = some p ∧ p.2.vendorId = b.1 ∧
      (history e decision rounds b).getLast? = some p.2 := by
  have hlast := List.getLast?_eq_some_getLast hhistory
  obtain ⟨x, p, hget, hp⟩ := mem_sortedNarratives.mp ((h _).mpr ⟨b, hb, hlast⟩)
  have hmem : p.2 ∈ history e decision rounds b := hp ▸ List.getLast_mem hhistory
  obtain ⟨r, _, hr⟩ := List.mem_filterMap.mp hmem
  have hvendor := vendorId_of_narrated (ExceptRules.toOption_eq_some.mp hr)
  obtain ⟨c, _, hcx, hcp, _⟩ := branch_of_collected hrecord hget
  have hx : x = name b.1 := by rw [← hcx, ← hcp, hvendor]
  exact ⟨p, hx ▸ hget, hvendor, hlast.trans (congrArg some hp.symm)⟩

theorem markedApart_of_narratives (hrecord : Recorded e decision s₀ rounds s)
    (hnodup : e.input.vendorIds.Nodup)
    (h : ∀ n, n ∈ sortedNarratives s.narratives ↔
      ∃ b ∈ branches e.input, (history e decision rounds b).getLast? = some n) :
    MarkedApart e decision rounds := by
  intro b hb hhistory hmarked
  obtain ⟨p, hget, hp, hlast⟩ := collected_of_narratives hrecord h hb hhistory
  have hsole : Sole e decision rounds b := by
    intro c hc hother hname
    obtain ⟨q, hgetc, hq, _⟩ := collected_of_narratives hrecord h hc hother
    rw [hname, hget] at hgetc
    obtain rfl := Option.some.inj hgetc
    exact branch_unique hnodup hc hb (hq.symm.trans hp)
  refine ⟨?_, hsole⟩
  have hcollected := collected_sole hrecord hnodup hb hsole
  rw [if_pos hmarked, hget] at hcollected
  exact hcollected.symm.trans hlast.symm

theorem reported_iff (hfresh : Fresh s₀) (hrecord : Recorded e decision s₀ rounds s)
    (hnodup : e.input.vendorIds.Nodup) (hb : b ∈ branches e.input) :
    Reported s b ↔ ∃ r ∈ rounds, (narrated e decision r.start b).toOption = none := by
  rw [Reported, hrecord.failures]
  constructor
  · rintro ⟨f, hf, hstage, hvendor⟩
    rcases List.mem_append.mp hf with hf | hf
    · exact absurd hstage (hfresh.failures f hf)
    · obtain ⟨r, hr, hf⟩ := List.mem_flatMap.mp hf
      obtain ⟨c, hc, hf⟩ := List.mem_flatMap.mp hf
      refine ⟨r, hr, ?_⟩
      cases hnarrated : narrated e decision r.start c with
      | ok n =>
          rw [explanationUpdate_ok hnarrated] at hf
          cases hf
      | error g =>
          rw [explanationUpdate_error hnarrated, List.mem_singleton] at hf
          have hcb : c.1 = b.1 := by rw [← (failure_of_narrated hnarrated).1, ← hf, hvendor]
          have hsame := branch_unique hnodup ((hrecord.orders r hr).mem_iff.mp hc) hb hcb
          rw [← hsame, hnarrated]
          rfl
  · rintro ⟨r, hr, hnone⟩
    cases hnarrated : narrated e decision r.start b with
    | ok n =>
        rw [hnarrated] at hnone
        cases hnone
    | error f =>
        obtain ⟨hvendor, hstage⟩ := failure_of_narrated hnarrated
        refine ⟨f, List.mem_append_right _ ?_, hstage, hvendor⟩
        refine List.mem_flatMap.mpr ⟨r, hr, List.mem_flatMap.mpr
          ⟨b, (hrecord.orders r hr).mem_iff.mpr hb, ?_⟩⟩
        rw [explanationUpdate_error hnarrated]
        exact List.mem_singleton_self f

/-- The output has the latest narratives and failures exactly when the marked ids keep apart, and
no vendor that fails in some attempt succeeds in the last. -/
theorem roundTrip_iff (hfresh : Fresh s₀) (hnodup : e.input.vendorIds.Nodup)
    (h : Attempted e decision s₀ rounds s) :
    RoundTrip e decision rounds s ↔
      MarkedApart e decision rounds ∧ FailuresLast e decision rounds := by
  have hrecord := recorded hfresh hnodup h
  constructor
  · intro htrip
    refine ⟨markedApart_of_narratives hrecord hnodup htrip.narratives, fun b hb hfails => ?_⟩
    exact htrip.failures b hb ((reported_iff hfresh hrecord hnodup hb).mpr hfails)
  · rintro ⟨hapart, hlast⟩
    refine ⟨narratives_of_markedApart hrecord hnodup hapart, once_of_recorded hrecord,
      fun b hb hreported => ?_⟩
    exact hlast b hb ((reported_iff hfresh hrecord hnodup hb).mp hreported)

end RoundTrips

section Sample

open PipelineGraph (quietExecution quietServices)
open NarrativeGrounding (sampleEvaluation sampleDecision)

/-- A state in which every vendor has been evaluated. -/
def evaluatedState (vendorIds : List VendorId) : PipelineState :=
  { evaluationOutputs := Dict.ofPairs
      (vendorIds.map (fun v => (v, { sampleEvaluation with vendorId := v }))) }

theorem fresh_evaluatedState (vendorIds : List VendorId) : Fresh (evaluatedState vendorIds) :=
  ⟨rfl, rfl, fun _ hf => absurd hf List.not_mem_nil⟩

theorem roundTrip_iff_once : RoundTrip (quietExecution ["v1"]) sampleDecision
    [⟨evaluatedState ["v1"], branches (quietExecution ["v1"]).input⟩]
    (Round.finish (quietExecution ["v1"]) sampleDecision
      ⟨evaluatedState ["v1"], branches (quietExecution ["v1"]).input⟩) := by
  refine (roundTrip_iff (fresh_evaluatedState _) (List.nodup_singleton _)
    (.first (List.Perm.refl _))).mpr ⟨fun b hb _ hmarked => ?_, fun b hb hfails => ?_⟩
  · obtain rfl := List.mem_singleton.mp hb
    exact absurd hmarked (by decide +kernel)
  · obtain ⟨r, hr, hnone⟩ := hfails
    rw [List.mem_singleton.mp hr] at hnone
    intro r' hr'
    exact (Option.some.inj hr') ▸ hnone

/-- The model cannot be reached for the first vendor in the first attempt, and it writes nothing for
the second one, so that the critic asks for another attempt. -/
def onceDown : Execution :=
  { quietExecution ["v1", "v2"] with
    services := { quietServices with
      narration := fun attempt b =>
        if attempt = 1 ∧ b.1 = "v1" then
          ⟨fun _ => .error ⟨.external, "timed out"⟩, fun _ => .ok []⟩
        else ⟨fun _ => .ok {}, fun _ => .ok []⟩ } }

def firstTry : Round := ⟨evaluatedState ["v1", "v2"], branches onceDown.input⟩

def secondTry : Round :=
  ⟨judged onceDown sampleDecision (firstTry.finish onceDown sampleDecision), branches onceDown.input⟩

theorem secondTry_attempted : Attempted onceDown sampleDecision (evaluatedState ["v1", "v2"])
    [firstTry, secondTry] (secondTry.finish onceDown sampleDecision) :=
  .retry (.first (List.Perm.refl _)) (List.Perm.refl _) (by decide +kernel) (by decide +kernel)

theorem mended_failure_reported : ¬ ∀ (e : Execution) (decision : DecisionOutput)
    (s₀ s : PipelineState) (rounds : List Round), Fresh s₀ → e.input.vendorIds.Nodup →
    Attempted e decision s₀ rounds s → RoundTrip e decision rounds s := by
  intro h
  have hfresh := fresh_evaluatedState ["v1", "v2"]
  have hnodup : onceDown.input.vendorIds.Nodup := by decide
  have hb : ("v1", 0) ∈ branches onceDown.input := List.mem_cons_self
  have htrip := h onceDown sampleDecision _ _ _ hfresh hnodup secondTry_attempted
  have hreported := (reported_iff hfresh (recorded hfresh hnodup secondTry_attempted) hnodup hb).mpr
    ⟨firstTry, List.mem_cons_self, Option.isNone_iff_eq_none.mp (by decide +kernel)⟩
  have hlast := htrip.failures _ hb hreported secondTry rfl
  have hsucceeds :
      (narrated onceDown sampleDecision secondTry.start ("v1", 0)).toOption.isNone = false := by
    decide +kernel
  rw [hlast] at hsucceeds
  cases hsucceeds

end Sample

end RfpPlatform.NarrativeRounds
