import Mathlib.Algebra.BigOperators.Group.List.Lemmas
import Mathlib.Algebra.GroupWithZero.Nat
import RfpPlatform.SelfConsistency

namespace RfpPlatform.VotedChecks

open ExceptRules Json SelfConsistency Tally

/-- The votes of a tally add up to the ballots. -/
theorem sum_tally {α : Type*} [DecidableEq α] (xs : List α) :
    ((tally xs).rows.map Prod.snd).sum = xs.length := by
  have hcounts : (tally xs).rows.map Prod.snd = (tally xs).keys.map (fun a => xs.count a) := by
    rw [Dict.keys, List.map_map]
    exact List.map_congr_left fun p hp => mem_tally hp
  have hkeys : (tally xs).keys.Perm xs.dedup := by
    refine (List.perm_ext_iff_of_nodup (tally xs).keys_nodup (List.nodup_dedup xs)).mpr fun a => ?_
    rw [List.mem_dedup]
    exact mem_keys_tally xs a
  rw [hcounts, (hkeys.map _).sum_eq, List.sum_map_count_dedup_eq_length]

theorem winner_votes (decisions : List ComplianceStatus) :
    (winner decisions).2 = decisions.count (winner decisions).1 := by
  cases hlead : leader decisions with
  | none =>
      have hnil : decisions = [] := by
        by_contra hne
        obtain ⟨a, n, hsome⟩ := exists_leader hne
        rw [hlead] at hsome
        cases hsome
      subst hnil
      rfl
  | some row =>
      obtain ⟨b, n⟩ := row
      simp only [winner, hlead]
      split
      · exact getD_tally decisions .insufficientEvidence
      · exact (leader_spec hlead).1

theorem count_decisions (samples : List Members) (d : ComplianceStatus) :
    (samples.map normaliseDecision).count d = (votedFor d samples).length := by
  rw [List.count_eq_countP, List.countP_map, List.countP_eq_length_filter, votedFor]
  congr 1

/-- The replies of a check that all are JSON objects. -/
def ofObjects (first : Members) (others : Nat → Members) : Decisions :=
  ⟨.json (.obj first), fun seed => .json (.obj (others seed))⟩

def samplesOf (sc : Settings) (first : Members) (others : Nat → Members) : List Members :=
  first :: sc.seeds.map others

/-- The answer carries all of a reply that voted for its verdict but the verdict's own text and
the confidence. -/
def CarriesVoter (samples : List Members) (parsed : Members) : Prop :=
  ∃ p ∈ samples, normaliseDecision p = normaliseDecision parsed ∧
    ∀ name, name ≠ "decision" → name ≠ "confidence" → member name parsed = member name p

/-- No reply voted for the verdict, and the answer says so and cites nothing. -/
def CarriesNothing (samples : List Members) (parsed : Members) : Prop :=
  (∀ p ∈ samples, normaliseDecision p ≠ normaliseDecision parsed) ∧
    normaliseDecision parsed = .insufficientEvidence ∧
    get parsed "reasoning" .null = .str ("No majority across self-consistency samples — " ++
      "fail-safe insufficient_evidence.") ∧
    get parsed "evidence_used" .null = .arr []

structure Elected (sc : Settings) (samples : List Members) (parsed : Members)
    (votes : VoteBreakdown) : Prop where
  sampled : samples.length = sc.samples ∧ votes.samples = sc.samples
  majority : ∀ d, d ≠ .insufficientEvidence →
    (normaliseDecision parsed = d ↔ samples.length < 2 * (votedFor d samples).length)
  failSafe : (∀ d, 2 * (votedFor d samples).length ≤ samples.length) →
    normaliseDecision parsed = .insufficientEvidence
  announced : get parsed "decision" .null = .str (normaliseDecision parsed).value ∧
    votes.winner = some (normaliseDecision parsed)
  tallied : (∀ row ∈ votes.tally, row.2 = (votedFor row.1 samples).length) ∧
    (votes.tally.map Prod.snd).sum = samples.length
  share : ∃ q : ℚ, get parsed "confidence" .null = .num (.fin q) ∧
    q = (votedFor (normaliseDecision parsed) samples).length / samples.length ∧ 0 ≤ q ∧ q ≤ 1

/-- A check is resampled exactly when voting is on, there is more than one sample and the first
confidence lies in the band, and the vote is then as it should be. -/
structure VotesRightly (carries : List Members → Members → Prop) (sc : Settings) (first : Members)
    (others : Nat → Members) : Prop where
  single : ∀ confidence, weight (1 / 2) first = .ok confidence → ¬ sc.Borderline confidence →
    decideCheckWithVoting sc (ofObjects first others) = .ok (first, { samples := 1 })
  resampled : ∀ confidence, weight (1 / 2) first = .ok confidence → sc.Borderline confidence →
    ∀ parsed votes, decideCheckWithVoting sc (ofObjects first others) = .ok (parsed, votes) →
      Elected sc (samplesOf sc first others) parsed votes ∧
        carries (samplesOf sc first others) parsed
  unreadable : ∀ exc, weight (1 / 2) first = .error exc →
    decideCheckWithVoting sc (ofObjects first others) = .error exc

theorem decide_ofObjects (sc : Settings) (first : Members) (others : Nat → Members) :
    decideCheckWithVoting sc (ofObjects first others) =
      (weight (1 / 2) first >>= fun confidence =>
        if sc.Borderline confidence then elect (samplesOf sc first others)
        else pure (first, { samples := 1 })) := by
  have hreplies : sc.seeds.mapM (fun seed =>
      parseCheckResponse ((ofObjects first others).sample seed)) =
      .ok (sc.seeds.map (fun seed => Json.obj (others seed))) := List.mapM_pure
  have hobject : ∀ seed, asObject (.obj (others seed)) = .ok (others seed) := fun _ => rfl
  have hobjects := mapM_map_eq_ok hobject sc.seeds
  have hfirst : decideCheckWithVoting sc (ofObjects first others) =
      (weight (1 / 2) first >>= fun confidence =>
        if sc.Borderline confidence then
          sc.seeds.mapM (fun seed => parseCheckResponse ((ofObjects first others).sample seed)) >>=
            fun resampled => resampled.mapM asObject >>= fun objects => elect (first :: objects)
        else pure (first, { samples := 1 })) := rfl
  have hbind : (Except.ok (sc.seeds.map (fun seed => Json.obj (others seed))) >>=
      fun resampled => resampled.mapM asObject >>= fun objects => elect (first :: objects)) =
      (sc.seeds.map (fun seed => Json.obj (others seed))).mapM asObject >>=
        fun objects => elect (first :: objects) := rfl
  rw [hfirst, hreplies, hbind, hobjects]
  rfl

section Elect

variable {samples : List Members} {parsed : Members} {votes : VoteBreakdown}
  {weighed : List (Members × PyFloat)}

theorem member_representative {name : String} (hdecision : name ≠ "decision")
    (hconfidence : name ≠ "confidence") :
    member name (representative samples weighed) = member name (pickMatching weighed) := by
  rw [representative, member_append, if_neg (Ne.symm hconfidence), member_append,
    if_neg (Ne.symm hdecision)]

theorem weigh_eq_ok {p : Members} {w : Members × PyFloat} (h : weigh p = .ok w) : w.1 = p := by
  rw [weigh] at h
  cases hweight : weight 0 p with
  | error exc =>
      rw [hweight] at h
      cases h
  | ok x =>
      rw [hweight] at h
      cases h
      rfl

/-- The answer of a vote goes back to a reply for its verdict, where there is one. -/
theorem representative_carries
    (hweighed : (votedFor (winner (samples.map normaliseDecision)).1 samples).mapM weigh =
      .ok weighed) :
    CarriesVoter samples (representative samples weighed) ∨
      CarriesNothing samples (representative samples weighed) := by
  have hdecision := normaliseDecision_representative samples weighed
  cases weighed with
  | nil =>
      have hnone : ∀ p ∈ samples, normaliseDecision p ≠
          (winner (samples.map normaliseDecision)).1 := by
        intro p hp heq
        have hvoted : p ∈ votedFor (winner (samples.map normaliseDecision)).1 samples :=
          List.mem_filter.mpr ⟨hp, decide_eq_true heq⟩
        obtain ⟨w, hw⟩ := exists_mapM_eq_ok.mp ⟨_, hweighed⟩ p hvoted
        exact List.not_mem_nil ((mem_of_mapM_eq_ok hweighed).mpr ⟨p, hvoted, hw⟩)
      have hcount : (winner (samples.map normaliseDecision)).2 = 0 := by
        rw [winner_votes, count_decisions, votedFor, List.length_eq_zero_iff, List.filter_eq_nil_iff]
        exact fun p hp heq => hnone p hp (of_decide_eq_true heq)
      have hfail : (winner (samples.map normaliseDecision)).1 = .insufficientEvidence := by
        by_contra hne
        have hmajority := (winner_eq_iff hne).mp rfl
        rw [← winner_votes, hcount] at hmajority
        exact Nat.not_lt_zero _ hmajority
      refine Or.inr ⟨?_, hdecision.trans hfail, ?_, ?_⟩
      · rw [hdecision]
        exact hnone
      · rw [Json.get, member_representative (by decide) (by decide)]
        rfl
      · rw [Json.get, member_representative (by decide) (by decide)]
        rfl
  | cons w ws =>
      obtain ⟨p, hp, hw⟩ := (mem_of_mapM_eq_ok hweighed).mp (firstBest_mem heavier w ws)
      obtain ⟨hsample, hvote⟩ := List.mem_filter.mp hp
      refine Or.inl ⟨p, hsample, ?_, fun name hname hname' => ?_⟩
      · rw [hdecision]
        exact of_decide_eq_true hvote
      · rw [member_representative hname hname', ← weigh_eq_ok hw]
        rfl

theorem elected_of_elect {sc : Settings} (hlength : samples.length = sc.samples)
    (h : elect samples = .ok (parsed, votes)) :
    Elected sc samples parsed votes ∧
      (CarriesVoter samples parsed ∨ CarriesNothing samples parsed) := by
  simp only [elect, bind_eq_ok, pure_eq_ok, Prod.mk.injEq] at h
  obtain ⟨weighed, hweighed, rfl, rfl⟩ := h
  have hdecision := normaliseDecision_representative samples weighed
  have hmajority : ∀ d, d ≠ .insufficientEvidence →
      (normaliseDecision (representative samples weighed) = d ↔
        samples.length < 2 * (votedFor d samples).length) := by
    intro d hd
    rw [hdecision, winner_eq_iff hd, List.length_map, count_decisions]
  refine ⟨⟨⟨hlength, hlength⟩, hmajority, ?_, ⟨?_, ?_⟩, ⟨?_, ?_⟩, ?_⟩,
    representative_carries hweighed⟩
  · intro hsmall
    by_contra hne
    have hmost := (hmajority _ hne).mp rfl
    have hfew := hsmall (normaliseDecision (representative samples weighed))
    omega
  · rw [hdecision, representative, Json.get, member_append, if_neg (by decide), member_append,
      if_pos rfl, Option.getD_some]
  · rw [hdecision, breakdown]
  · intro row hrow
    rw [← count_decisions]
    exact mem_tally hrow
  · exact (sum_tally (samples.map normaliseDecision)).trans (List.length_map _)
  · have hle : (votedFor (winner (samples.map normaliseDecision)).1 samples).length ≤
        samples.length := List.length_filter_le _ _
    have hpos : (0 : ℚ) < samples.length := by
      rw [hlength]
      exact_mod_cast sc.samples_pos
    refine ⟨_, ?_, rfl, by positivity, ?_⟩
    · rw [hdecision, ← count_decisions, ← winner_votes, representative, Json.get, member_append,
        if_pos rfl, Option.getD_some]
    · rw [div_le_one hpos, hdecision]
      exact_mod_cast hle

end Elect

/-- Voting is as it is meant to be, with one exception for what the answer carries: where the
fail-safe verdict wins without a vote, it carries the reply of nobody. -/
theorem votesRightly (sc : Settings) (first : Members) (others : Nat → Members) :
    VotesRightly (fun samples parsed => CarriesVoter samples parsed ∨ CarriesNothing samples parsed)
      sc first others := by
  constructor
  · intro confidence hweight hborder
    rw [decide_ofObjects, hweight]
    exact if_neg hborder
  · intro confidence hweight hborder parsed votes h
    rw [decide_ofObjects, hweight] at h
    have helect : elect (samplesOf sc first others) = .ok (parsed, votes) :=
      (if_pos hborder).symm.trans h
    apply elected_of_elect _ helect
    rw [samplesOf, List.length_cons, List.length_map, Settings.seeds, List.length_range']
    exact Nat.sub_add_cancel sc.samples_pos
  · intro exc hweight
    rw [decide_ofObjects, hweight]
    rfl

/-- Two samples, and a band around one half. -/
def pairSettings : Settings := ⟨true, 2, 1 / 2, 3 / 4, Nat.le_succ 1⟩

def ballot (decision : String) : Members :=
  [("decision", .str decision), ("confidence", .num (.fin (3 / 5))), ("reasoning", .str decision)]

def tie : List Members := samplesOf pairSettings (ballot "pass") (fun _ => ballot "fail")

theorem elect_tie : elect tie = .ok (representative tie [], breakdown tie) := by
  have hvoted : votedFor (winner (tie.map normaliseDecision)).1 tie = [] := by
    rw [votedFor, List.filter_eq_nil_iff]
    decide +kernel
  rw [elect, hvoted]
  rfl

theorem tie_carries_nobody : ¬ ∀ sc first others, VotesRightly CarriesVoter sc first others := by
  intro h
  have hweight : weight (1 / 2) (ballot "pass") = .ok (.fin (3 / 5)) := by decide +kernel
  have hborder : pairSettings.Borderline (.fin (3 / 5)) := by decide +kernel
  have hrun : decideCheckWithVoting pairSettings (ofObjects (ballot "pass") (fun _ => ballot "fail")) =
      .ok (representative tie [], breakdown tie) := by
    rw [decide_ofObjects, hweight]
    exact (if_pos hborder).trans elect_tie
  obtain ⟨_, p, hp, hvote, _⟩ := (h _ _ _).resampled _ hweight hborder _ _ hrun
  rw [normaliseDecision_representative] at hvote
  have hall : ∀ p ∈ tie, normaliseDecision p ≠ (winner (tie.map normaliseDecision)).1 := by
    decide +kernel
  exact hall p hp hvote

end RfpPlatform.VotedChecks
