import RfpPlatform.ExceptRules
import RfpPlatform.Schemas
import RfpPlatform.Tally

namespace RfpPlatform.SelfConsistency

open ExceptRules Json Tally

abbrev Members := List (String × Json)

structure Settings where
  enabled : Bool
  samples : Nat
  confidenceMin : ℚ
  confidenceMax : ℚ
  samples_pos : 1 ≤ samples

def shippedSettings : Settings := ⟨true, 3, 5 / 10, 75 / 100, by decide⟩

/-- The decision calls of one check: the first, and the resamples by their seed. -/
structure Decisions where
  primary : LlmReply
  sample : Nat → LlmReply

def failSafeReply : Members :=
  [("decision", .str "insufficient_evidence"), ("confidence", .num 0),
    ("reasoning", .str "LLM returned invalid JSON"), ("evidence_used", .arr []),
    ("contradictions_found", .arr []), ("decision_basis", .str "not_addressed")]

/-- A reply that is not JSON counts as the fail-safe object. -/
def parseReply (failSafe : Members) : LlmReply → Except Exn Json
  | .raised exc => .error exc
  | .invalidJson _ => .ok (.obj failSafe)
  | .json v => .ok v

def parseCheckResponse : LlmReply → Except Exn Json := parseReply failSafeReply

def normaliseDecision (parsed : Members) : ComplianceStatus :=
  (memberOf ComplianceStatus.value ComplianceStatus.all
    (get parsed "decision" (.str "insufficient_evidence"))).getD .insufficientEvidence

/-- `float(parsed.get("confidence", default) or 0.0)` -/
def weight (dflt : ℚ) (parsed : Members) : Except Exn PyFloat :=
  ((get parsed "confidence" (.num dflt)).orElse (.num 0)).toFloat

def Settings.Borderline (sc : Settings) (confidence : PyFloat) : Prop :=
  PyFloat.le sc.confidenceMin confidence = true ∧ PyFloat.le confidence sc.confidenceMax = true ∧
    sc.enabled = true ∧ 1 < sc.samples

instance (sc : Settings) (confidence : PyFloat) : Decidable (sc.Borderline confidence) :=
  inferInstanceAs (Decidable (_ ∧ _ ∧ _ ∧ _))

/-- The strict majority and its votes. Without one the fail-safe verdict takes its place. -/
def winner (decisions : List ComplianceStatus) : ComplianceStatus × Nat :=
  match leader decisions with
  | some (d, votes) =>
      if votes * 2 ≤ decisions.length then
        (.insufficientEvidence, ((tally decisions).get? .insufficientEvidence).getD 0)
      else (d, votes)
  | none => (.insufficientEvidence, 0)

def noMajorityReply : Members :=
  [("reasoning", .str ("No majority across self-consistency samples — " ++
      "fail-safe insufficient_evidence.")),
    ("evidence_used", .arr []), ("contradictions_found", .arr []),
    ("decision_basis", .str "not_addressed")]

def heavier (p q : Members × PyFloat) : Bool := q.2.lt p.2

/-- The first of the heaviest samples that voted for the winner. -/
def pickMatching : List (Members × PyFloat) → Members
  | [] => noMajorityReply
  | p :: ps => (firstBest heavier p ps).1

def votedFor (d : ComplianceStatus) (samples : List Members) : List Members :=
  samples.filter (fun p => normaliseDecision p = d)

def representative (samples : List Members) (weighed : List (Members × PyFloat)) : Members :=
  let elected := winner (samples.map normaliseDecision)
  pickMatching weighed ++ [("decision", .str elected.1.value)] ++
    [("confidence", .num (.fin ((elected.2 : ℚ) / samples.length)))]

def breakdown (samples : List Members) : VoteBreakdown :=
  let decisions := samples.map normaliseDecision
  ⟨samples.length, (tally decisions).rows, some (winner decisions).1⟩

def weigh (parsed : Members) : Except Exn (Members × PyFloat) :=
  (weight 0 parsed).map (fun x => (parsed, x))

def elect (samples : List Members) : Except Exn (Members × VoteBreakdown) := do
  let weighed ← (votedFor (winner (samples.map normaliseDecision)).1 samples).mapM weigh
  return (representative samples weighed, breakdown samples)

def Settings.seeds (sc : Settings) : List Nat := List.range' 1 (sc.samples - 1)

def decideCheckWithVoting (sc : Settings) (replies : Decisions) :
    Except Exn (Members × VoteBreakdown) := do
  let parsed ← parseCheckResponse replies.primary
  let first ← parsed.asObject
  let confidence ← weight (1 / 2) first
  if sc.Borderline confidence then
    let resampled ← sc.seeds.mapM (fun seed => parseCheckResponse (replies.sample seed))
    let objects ← resampled.mapM asObject
    elect (first :: objects)
  else return (first, { samples := 1 })

section Majority

/-- Only a strict majority of the ballots elects a verdict other than the fail-safe one. -/
theorem winner_eq_iff {decisions : List ComplianceStatus} {d : ComplianceStatus}
    (hd : d ≠ .insufficientEvidence) :
    (winner decisions).1 = d ↔ decisions.length < 2 * decisions.count d := by
  cases hlead : leader decisions with
  | none =>
      have hnil : decisions = [] := by
        by_contra hne
        obtain ⟨a, n, hsome⟩ := exists_leader hne
        rw [hlead] at hsome
        cases hsome
      subst hnil
      simpa [winner, hlead] using Ne.symm hd
  | some row =>
      obtain ⟨b, n⟩ := row
      obtain ⟨hn, hmax⟩ := leader_spec hlead
      simp only [winner, hlead]
      constructor
      · intro h
        by_cases hhalf : n * 2 ≤ decisions.length
        · rw [if_pos hhalf] at h
          exact absurd h.symm hd
        · rw [if_neg hhalf] at h
          rw [← h]
          change decisions.length < 2 * decisions.count b
          omega
      · intro h
        obtain ⟨rfl, hcount⟩ := leader_majority hlead h
        rw [if_neg (by omega)]

theorem normaliseDecision_representative (samples : List Members)
    (weighed : List (Members × PyFloat)) :
    normaliseDecision (representative samples weighed) =
      (winner (samples.map normaliseDecision)).1 := by
  rw [normaliseDecision, representative, Json.get, member_append, if_neg (by decide),
    member_append, if_pos rfl, Option.getD_some, memberOf_value, Option.getD_some]

end Majority

section Usable

def objectOf (failSafe : Members) : LlmReply → Option Members
  | .invalidJson _ => some failSafe
  | .json (.obj ms) => some ms
  | _ => none

theorem objectOf_eq_some {failSafe : Members} {r : LlmReply} {ms : Members} :
    objectOf failSafe r = some ms ↔ parseReply failSafe r = .ok (.obj ms) := by
  cases r with
  | raised exc => simp [objectOf, parseReply]
  | invalidJson text => simp [objectOf, parseReply]
  | json v => cases v <;> simp [objectOf, parseReply]

theorem parseReply_asObject {failSafe : Members} {r : LlmReply} {ms : Members} :
    (parseReply failSafe r >>= asObject) = .ok ms ↔ objectOf failSafe r = some ms := by
  rw [bind_eq_ok, objectOf_eq_some]
  constructor
  · rintro ⟨v, hv, hms⟩
    rwa [asObject_eq_ok.mp hms] at hv
  · exact fun h => ⟨.obj ms, h, rfl⟩

def weightOf (dflt : ℚ) (parsed : Members) : Option PyFloat := (weight dflt parsed).toOption

variable (sc : Settings) (replies : Decisions)

def resampled : List Members :=
  sc.seeds.filterMap (fun seed => objectOf failSafeReply (replies.sample seed))

def weighed (samples : List Members) : List (Members × PyFloat) :=
  (votedFor (winner (samples.map normaliseDecision)).1 samples).filterMap
    (fun p => (weightOf 0 p).map (fun x => (p, x)))

/-- The answer that the replies of a check amount to. -/
def vote : Members :=
  match objectOf failSafeReply replies.primary with
  | none => failSafeReply
  | some first =>
      match weightOf (1 / 2) first with
      | none => first
      | some confidence =>
          if sc.Borderline confidence then
            let samples := first :: resampled sc replies
            representative samples (weighed samples)
          else first

/-- Every sample is an object, and those that vote for the winner have a weight. -/
structure UsableSamples (first : Members) : Prop where
  objects : ∀ seed ∈ sc.seeds, ∃ p, objectOf failSafeReply (replies.sample seed) = some p
  weights : ∀ p ∈ votedFor (winner ((first :: resampled sc replies).map normaliseDecision)).1
    (first :: resampled sc replies), ∃ x, weightOf 0 p = some x

/-- The replies of a check whose vote comes to an answer. -/
def UsableVote : Prop :=
  ∃ first confidence, objectOf failSafeReply replies.primary = some first ∧
    weightOf (1 / 2) first = some confidence ∧
    (sc.Borderline confidence → UsableSamples sc replies first)

theorem weigh_toOption (p : Members) :
    (weigh p).toOption = (weightOf 0 p).map (fun x => (p, x)) := by
  rw [weigh, weightOf]
  cases weight 0 p with
  | error exc => rfl
  | ok x => rfl

theorem elect_eq_ok {samples : List Members} {p : Members} :
    (∃ b, elect samples = .ok (p, b)) ↔
      (∀ q ∈ votedFor (winner (samples.map normaliseDecision)).1 samples,
        ∃ x, weightOf 0 q = some x) ∧ representative samples (weighed samples) = p := by
  have hweigh : ∀ q, (∃ y, weigh q = .ok y) ↔ ∃ x, weightOf 0 q = some x := by
    intro q
    rw [weigh, weightOf]
    cases weight 0 q with
    | error exc => simp [Except.map, Except.toOption]
    | ok x => simp [Except.map, Except.toOption]
  simp only [elect, bind_eq_ok, mapM_eq_ok, pure_eq_ok, weigh_toOption, hweigh]
  constructor
  · rintro ⟨b, ys, ⟨hall, rfl⟩, heq⟩
    exact ⟨hall, congrArg Prod.fst heq⟩
  · rintro ⟨hall, rfl⟩
    exact ⟨_, _, ⟨hall, rfl⟩, rfl⟩

theorem resampled_eq_ok {objects : List Members} :
    (∃ values, sc.seeds.mapM (fun seed => parseCheckResponse (replies.sample seed)) = .ok values ∧
        values.mapM asObject = .ok objects) ↔
      (∀ seed ∈ sc.seeds, ∃ p, objectOf failSafeReply (replies.sample seed) = some p) ∧
        resampled sc replies = objects := by
  have hok : ∀ seed p, (parseCheckResponse (replies.sample seed) >>= asObject) = .ok p ↔
      objectOf failSafeReply (replies.sample seed) = some p := fun _ _ => parseReply_asObject
  have hobject : (fun seed => (parseCheckResponse (replies.sample seed) >>= asObject).toOption) =
      fun seed => objectOf failSafeReply (replies.sample seed) := by
    funext seed
    apply Option.ext
    intro p
    rw [toOption_eq_some, hok]
  rw [mapM_mapM_eq_ok, mapM_eq_ok, hobject]
  simp only [hok]
  rfl

/-- The vote returns exactly on usable replies, and gives their answer. -/
theorem decideCheckWithVoting_eq_ok {p : Members} :
    (∃ b, decideCheckWithVoting sc replies = .ok (p, b)) ↔
      UsableVote sc replies ∧ vote sc replies = p := by
  have hfirst : ∀ {first}, (∃ v, parseCheckResponse replies.primary = .ok v ∧
      v.asObject = .ok first) ↔ objectOf failSafeReply replies.primary = some first := by
    intro first
    rw [← bind_eq_ok]
    exact parseReply_asObject
  constructor
  · rintro ⟨b, h⟩
    simp only [decideCheckWithVoting, bind_eq_ok] at h
    obtain ⟨v, hv, first, hobject, confidence, hweight, h⟩ := h
    have hprimary := hfirst.mp ⟨v, hv, hobject⟩
    have hweigh : weightOf (1 / 2) first = some confidence := toOption_eq_some.mpr hweight
    by_cases hborder : sc.Borderline confidence
    · rw [if_pos hborder] at h
      simp only [bind_eq_ok] at h
      obtain ⟨values, hvalues, objects, hobjects, helect⟩ := h
      obtain ⟨hall, rfl⟩ := (resampled_eq_ok sc replies).mp ⟨values, hvalues, hobjects⟩
      obtain ⟨hweights, hp⟩ := elect_eq_ok.mp ⟨b, helect⟩
      refine ⟨⟨first, confidence, hprimary, hweigh, fun _ => ⟨hall, hweights⟩⟩, ?_⟩
      simp only [vote, hprimary, hweigh, if_pos hborder]
      exact hp
    · rw [if_neg hborder, pure_eq_ok] at h
      refine ⟨⟨first, confidence, hprimary, hweigh, fun hb => absurd hb hborder⟩, ?_⟩
      simp only [vote, hprimary, hweigh, if_neg hborder]
      exact congrArg Prod.fst h
  · rintro ⟨⟨first, confidence, hprimary, hweigh, hsamples⟩, rfl⟩
    obtain ⟨v, hv, hobject⟩ := hfirst.mpr hprimary
    have hweight := toOption_eq_some.mp hweigh
    simp only [decideCheckWithVoting, bind_eq_ok, vote, hprimary, hweigh]
    by_cases hborder : sc.Borderline confidence
    · obtain ⟨hall, hweights⟩ := hsamples hborder
      obtain ⟨values, hvalues, hobjects⟩ := (resampled_eq_ok sc replies).mpr ⟨hall, rfl⟩
      obtain ⟨b, helect⟩ := elect_eq_ok.mpr ⟨hweights, rfl⟩
      refine ⟨b, v, hv, first, hobject, confidence, hweight, ?_⟩
      rw [if_pos hborder, if_pos hborder]
      exact bind_eq_ok.mpr ⟨values, hvalues, bind_eq_ok.mpr ⟨_, hobjects, helect⟩⟩
    · refine ⟨{ samples := 1 }, v, hv, first, hobject, confidence, hweight, ?_⟩
      rw [if_neg hborder, if_neg hborder]
      rfl

end Usable

end RfpPlatform.SelfConsistency
