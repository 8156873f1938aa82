import RfpPlatform.GroupTotals
import RfpPlatform.MandatoryTable
import RfpPlatform.Podium
import RfpPlatform.RejectionQuotes

namespace RfpPlatform.ReportSections

open Decision ExceptRules GroupTotals Json Podium

section Scorecards

/-- What the scorecards read of an entry of a saved breakdown, each key of which may be missing. -/
structure CardScore where
  criterionId : Option String
  rawScore : Option ℚ
  rubricBandApplied : Option String
  insufficientEvidence : Option Bool

structure CardVendor where
  vendorId : Option VendorId
  criterionBreakdown : Option (List CardScore)

structure CriterionScorecard where
  criterionId : String
  criterionName : String
  weight : ℚ
  perVendorScores : Dict VendorId ℚ
  rubricUsed : String

abbrev CardEntry := VendorId × CardScore

def CardScore.cid (c : CardScore) : String := c.criterionId.getD ""

def CardScore.assessed (c : CardScore) : Bool := !c.insufficientEvidence.getD false

def newCard (c : CardScore) : CriterionScorecard :=
  ⟨c.cid, c.cid, 0, ∅, c.rubricBandApplied.getD ""⟩

/-- The card of the criterion, a new one if there is none, with the score on it if there is one. -/
def addScore (card : Option CriterionScorecard) (e : CardEntry) : CriterionScorecard :=
  let card := card.getD (newCard e.2)
  if e.2.assessed then
    { card with perVendorScores := card.perVendorScores.set e.1 (e.2.rawScore.getD 0) }
  else card

def entriesOf (v : CardVendor) : List CardEntry :=
  (v.criterionBreakdown.getD []).map fun c => (v.vendorId.getD "", c)

def cards (shortlisted : List CardVendor) : Dict String CriterionScorecard :=
  collect (fun e : CardEntry => e.2.cid) addScore ∅ (shortlisted.flatMap entriesOf)

/-- `_scorecards` -/
def scorecards (shortlisted : List CardVendor) : List CriterionScorecard :=
  (cards shortlisted).values

def cardScore (s : CriterionScore) : CardScore :=
  ⟨some s.criterionId, some s.rawScore.val, some s.rubricBandApplied, some s.insufficientEvidence⟩

def cardVendor (v : ShortlistedVendor) : CardVendor :=
  ⟨some v.vendorId, some (v.criterionBreakdown.map cardScore)⟩

/-- The score that a vendor was given last on a criterion, of those that were given on evidence. -/
def assessedScore (vendors : List ShortlistedVendor) (cid : String) (vid : VendorId) :
    Option CriterionScore :=
  (((vendors.filter fun v => v.vendorId = vid).flatMap ShortlistedVendor.criterionBreakdown).filter
    fun s => s.criterionId = cid && !s.insufficientEvidence).getLast?

end Scorecards

section Matrix

variable {es : List CardEntry} {card : CriterionScorecard} {cid : String} {vid : VendorId}
  {vendors : List CardVendor}

theorem get?_addScore (o : Option CriterionScorecard) (e : CardEntry) (vid : VendorId) :
    (addScore o e).perVendorScores.get? vid =
      if e.1 = vid && e.2.assessed then some (e.2.rawScore.getD 0)
      else o.bind fun card => card.perVendorScores.get? vid := by
  have hold : (o.getD (newCard e.2)).perVendorScores.get? vid =
      o.bind fun card => card.perVendorScores.get? vid := by
    cases o <;> rfl
  rw [addScore]
  by_cases he : e.2.assessed = true
  · by_cases hv : e.1 = vid
    · subst hv
      simp [he]
    · simp [he, hv, Dict.get?_set_ne (Ne.symm hv), hold]
  · simp [he, hold]

theorem get?_foldl_addScore (es : List CardEntry) (vid : VendorId) :
    ((es.foldl (fun o e => some (addScore o e)) none).bind fun card =>
      card.perVendorScores.get? vid) =
      ((es.filter fun e => e.1 = vid && e.2.assessed).getLast?).map fun e =>
        e.2.rawScore.getD 0 := by
  induction es using List.reverseRecOn with
  | nil => rfl
  | append_singleton es e ih =>
      rw [List.foldl_append, List.foldl_cons, List.foldl_nil, Option.bind_some, get?_addScore, ih,
        List.filter_append, List.getLast?_append, List.filter_singleton]
      split_ifs with he
      · simp [he]
      · simp [he]

theorem criterionId_addScore (hcid : ∀ e ∈ es, e.2.cid = cid)
    (h : es.foldl (fun o e => some (addScore o e)) none = some card) : card.criterionId = cid := by
  induction es using List.reverseRecOn generalizing card with
  | nil => cases h
  | append_singleton es e ih =>
      rw [List.foldl_append] at h
      obtain rfl := Option.some.inj h
      have hprev : ((es.foldl (fun o e => some (addScore o e)) none).getD
          (newCard e.2)).criterionId = cid := by
        cases ho : es.foldl (fun o e => some (addScore o e)) none with
        | none => exact hcid e (by simp)
        | some prev => exact ih (fun e he => hcid e (List.mem_append_left _ he)) ho
      rw [addScore]
      split_ifs
      · exact hprev
      · exact hprev

theorem get?_cards (vendors : List CardVendor) (cid : String) :
    (cards vendors).get? cid = ((vendors.flatMap entriesOf).filter fun e => e.2.cid = cid).foldl
      (fun o e => some (addScore o e)) none := get?_collect ∅ _ cid

theorem mem_scorecards : card ∈ scorecards vendors ↔
    (cards vendors).get? card.criterionId = some card := by
  have hkey : ∀ k, (cards vendors).get? k = some card → card.criterionId = k := fun k hk => by
    rw [get?_cards] at hk
    exact criterionId_addScore (fun e he => of_decide_eq_true (List.mem_filter.mp he).2) hk
  constructor
  · intro h
    obtain ⟨⟨k, c⟩, hrow, rfl⟩ := List.mem_map.mp h
    have hget : (cards vendors).get? k = some c := Dict.get?_eq_some.mpr hrow
    rw [hkey k hget]
    exact hget
  · intro h
    exact List.mem_map.mpr ⟨(card.criterionId, card), Dict.get?_eq_some.mp h, rfl⟩

theorem keys_eq_map_criterionId (vendors : List CardVendor) :
    (cards vendors).keys = (scorecards vendors).map CriterionScorecard.criterionId := by
  rw [scorecards, Dict.keys, Dict.values, List.map_map]
  refine List.map_congr_left fun p hp => ?_
  have hget : (cards vendors).get? p.1 = some p.2 := Dict.get?_eq_some.mpr hp
  rw [get?_cards] at hget
  exact (criterionId_addScore
    (fun e he => of_decide_eq_true (List.mem_filter.mp he).2) hget).symm

theorem entriesOf_cardVendor (v : ShortlistedVendor) :
    entriesOf (cardVendor v) = v.criterionBreakdown.map fun s => (v.vendorId, cardScore s) := by
  change (v.criterionBreakdown.map cardScore).map (fun c => (v.vendorId, c)) = _
  rw [List.map_map]
  rfl

theorem filter_entries (vendors : List ShortlistedVendor) (cid : String) (vid : VendorId) :
    (((vendors.map cardVendor).flatMap entriesOf).filter fun e => e.2.cid = cid).filter
        (fun e => e.1 = vid && e.2.assessed) =
      (((vendors.filter fun v => v.vendorId = vid).flatMap
        ShortlistedVendor.criterionBreakdown).filter
        fun s => s.criterionId = cid && !s.insufficientEvidence).map
        fun s => (vid, cardScore s) := by
  rw [List.filter_filter]
  induction vendors with
  | nil => rfl
  | cons v vendors ih =>
      rw [List.map_cons, List.flatMap_cons, List.filter_append, ih, entriesOf_cardVendor,
        List.filter_map]
      by_cases hv : v.vendorId = vid
      · subst hv
        rw [List.filter_cons_of_pos (by simp), List.flatMap_cons, List.filter_append,
          List.map_append]
        refine congrArg (· ++ _) (congrArg _ (List.filter_congr fun s _ => ?_))
        simp only [Function.comp_apply, CardScore.cid, CardScore.assessed, cardScore,
          Option.getD_some, decide_true, Bool.true_and]
        exact Bool.and_comm _ _
      · rw [List.filter_cons_of_neg (by simpa using hv)]
        have hnil : (v.criterionBreakdown.filter ((fun e : CardEntry =>
            (decide (e.1 = vid) && e.2.assessed) && decide (e.2.cid = cid)) ∘
            fun s => (v.vendorId, cardScore s))) = [] := by
          simp [hv]
        rw [hnil, List.map_nil, List.nil_append]

/-- The scorecards are the exact matrix of the decision: one card for each criterion that a
shortlisted vendor has an entry on, with a score for just the vendors that were assessed on it. -/
theorem scorecards_exact (d : DecisionOutput) :
    let sheet := scorecards (d.shortlistedVendors.map cardVendor)
    (sheet.map CriterionScorecard.criterionId).Nodup ∧
    (∀ cid, cid ∈ sheet.map CriterionScorecard.criterionId ↔
      ∃ v ∈ d.shortlistedVendors, ∃ s ∈ v.criterionBreakdown, s.criterionId = cid) ∧
    ∀ cid vid x, (∃ card ∈ sheet, card.criterionId = cid ∧
        card.perVendorScores.get? vid = some x) ↔
      ∃ s, assessedScore d.shortlistedVendors cid vid = some s ∧ x = (s.rawScore.val : ℚ) := by
  intro sheet
  refine ⟨?_, fun cid => ?_, fun cid vid x => ?_⟩
  · rw [← keys_eq_map_criterionId]
    exact (cards _).keys_nodup
  · rw [← keys_eq_map_criterionId, cards, mem_keys_collect]
    simp only [List.mem_flatMap, List.mem_map, exists_exists_and_eq_and, entriesOf_cardVendor]
    constructor
    · rintro ⟨e, ⟨v, hv, s, hs, rfl⟩, hcid⟩
      exact ⟨v, hv, s, hs, hcid⟩
    · rintro ⟨v, hv, s, hs, hcid⟩
      exact ⟨_, ⟨v, hv, s, hs, rfl⟩, hcid⟩
  · have hscore : ((cards (d.shortlistedVendors.map cardVendor)).get? cid).bind
        (fun card => card.perVendorScores.get? vid) =
        (assessedScore d.shortlistedVendors cid vid).map fun s => (s.rawScore.val : ℚ) := by
      rw [get?_cards, get?_foldl_addScore, filter_entries, List.getLast?_map, Option.map_map,
        assessedScore]
      rfl
    constructor
    · rintro ⟨card, hcard, rfl, hx⟩
      rw [mem_scorecards.mp hcard, Option.bind_some, hx] at hscore
      obtain ⟨s, hs, hval⟩ := Option.map_eq_some_iff.mp hscore.symm
      exact ⟨s, hs, hval.symm⟩
    · rintro ⟨s, hs, rfl⟩
      rw [hs, Option.map_some] at hscore
      obtain ⟨card, hcard, hx⟩ := Option.bind_eq_some_iff.mp hscore
      have hid := hcard
      rw [get?_cards] at hid
      have hcid := criterionId_addScore
        (fun e he => of_decide_eq_true (List.mem_filter.mp he).2) hid
      refine ⟨card, ?_, hcid, hx⟩
      rw [mem_scorecards, hcid]
      exact hcard

end Matrix

section Context

structure SavedNarrative where
  vendorId : Option VendorId
  groundedClaims : Option (List Json)

structure PairwiseComparison where
  winnerId : VendorId
  runnerUpId : VendorId
  narrative : String
  keyEvidence : List GroundedClaim

structure AuditTrailEntry where
  timestamp : String
  agent : String
  action : String
  detail : List (String × Json)

/-- Python's `str`, and the construction of a claim from the members of an object, which fails on
what is not a claim. -/
structure Readers where
  str : Json → String
  claim : Json → Option GroundedClaim

variable (read : Readers)

def textOf : Json → String
  | .str s => s
  | v => read.str v

def nameText (names : List (String × Json)) (v : SavedVendor) : String :=
  textOf read (vendorName names (v.vendorId.getD "") v.vendorName)

def recommendationText (v : SavedVendor) : String :=
  (v.recommendation.getD "").map fun c => if c = '_' then ' ' else c

def noWinner : String := "No vendor met the requirements for shortlisting."

def winnerText (name : String) (score : ℚ) (recommendation : String) : String :=
  s!"{name} is recommended (score {PyText.reprRat (PyText.round score 1)}/10, {recommendation})."

def winnerDeclaration (shortlisted : List SavedVendor) (names : List (String × Json)) : String :=
  match byRank shortlisted with
  | [] => noWinner
  | top :: _ => winnerText (nameText read names top) (rankScore top) (recommendationText top)

/-- `{n.get("vendor_id", ""): n for n in narratives}` read at a vendor -/
def narrativeOf (narratives : List SavedNarrative) (vid : VendorId) : Option SavedNarrative :=
  narratives.reverse.find? fun n => n.vendorId.getD "" = vid

def groundedClaimsOf (n : Option SavedNarrative) : List GroundedClaim :=
  ((n.bind SavedNarrative.groundedClaims).getD []).filterMap read.claim

def pairwiseText (winner runnerUp : String) (score runnerUpScore : ℚ)
    (recommendation runnerUpRecommendation : String) : String :=
  let gap := PyText.round (score - runnerUpScore) 2
  s!"{winner} ranked above {runnerUp} by {PyText.reprRat gap} points " ++
    s!"({PyText.reprRat score} vs {PyText.reprRat runnerUpScore}). " ++
    s!"{winner} was assessed as \x27{recommendation}\x27 " ++
    s!"versus \x27{runnerUpRecommendation}\x27 for {runnerUp}. " ++
    "Supporting evidence below is quoted verbatim from each vendor\x27s submission."

def pairwise (shortlisted : List SavedVendor) (narratives : List SavedNarrative)
    (names : List (String × Json)) : List PairwiseComparison :=
  match byRank shortlisted with
  | w :: r :: _ =>
      [{ winnerId := w.vendorId.getD ""
         runnerUpId := r.vendorId.getD ""
         narrative := pairwiseText (nameText read names w) (nameText read names r)
           (PyText.round (rankScore w) 2) (PyText.round (rankScore r) 2)
           (recommendationText w) (recommendationText r)
         keyEvidence :=
           (groundedClaimsOf read (narrativeOf narratives (w.vendorId.getD ""))).take 3 ++
           (groundedClaimsOf read (narrativeOf narratives (r.vendorId.getD ""))).take 3 }]
  | _ => []

def auditEntry (event : List (String × Json)) : AuditTrailEntry where
  timestamp := textOf read ((get event "ts" .null).orElse
    ((get event "timestamp" .null).orElse (.str "")))
  agent := textOf read (get event "agent" (.str ""))
  action := textOf read ((get event "status" .null).orElse (get event "message" (.str "")))
  detail := event.filter fun p => p.1 ∉ ["agent", "status", "ts", "timestamp", "message"]

structure ReportContext where
  winnerDeclaration : String
  podium : List PodiumEntry
  criterionScorecards : List CriterionScorecard
  pairwiseComparisons : List PairwiseComparison
  mandatoryCheckTable : List MandatoryTable.TableRow
  rejectionReasons : Dict VendorId (List GroundedClaim)
  auditTrail : List AuditTrailEntry

/-- The sections that `build_report_context` makes of a stored decision. -/
def buildReport (d : DecisionOutput) (narratives : List SavedNarrative)
    (names : List (String × Json)) (events : List (List (String × Json))) :
    Except Exn ReportContext := do
  let podium ← reportPodium d names
  let table ← MandatoryTable.reportTable (DecisionPayload.dump d)
  let shortlisted := d.shortlistedVendors.map saved
  return {
    winnerDeclaration := winnerDeclaration read shortlisted names
    podium := podium
    criterionScorecards := scorecards (d.shortlistedVendors.map cardVendor)
    pairwiseComparisons := pairwise read shortlisted narratives names
    mandatoryCheckTable := table
    rejectionReasons := RejectionQuotes.reportReasons d
    auditTrail := events.map (auditEntry read) }

end Context

section Agreement

variable {read : Readers} {names : List (String × Json)} {narratives : List SavedNarrative}

/-- The difference of two printed scores is printed as it is. -/
theorem round_sub_rounded (a b : ℚ) :
    PyText.round (PyText.round a 2 - PyText.round b 2) 2 = PyText.round a 2 - PyText.round b 2 := by
  have hint : PyText.round a 2 - PyText.round b 2 =
      ((PyText.roundHalfEven (a * 10 ^ 2) - PyText.roundHalfEven (b * 10 ^ 2) : ℤ) : ℚ) /
        10 ^ 2 := by
    rw [PyText.round, PyText.round, Int.cast_sub, sub_div]
  rw [hint]
  exact le_antisymm (PyText.round_le le_rfl) (PyText.le_round le_rfl)

/-- It is off the rounded difference by a hundredth at most. -/
theorem gap_close (a b : ℚ) :
    |PyText.round (PyText.round a 2 - PyText.round b 2) 2 - PyText.round (a - b) 2| ≤ 1 / 100 := by
  have ha := abs_le.mp (@PyText.abs_round_sub_le a 2)
  have hb := abs_le.mp (@PyText.abs_round_sub_le b 2)
  have hab := abs_le.mp (@PyText.abs_round_sub_le (a - b) 2)
  rw [round_sub_rounded]
  obtain ⟨n, hn⟩ : ∃ n : ℤ, PyText.round a 2 - PyText.round b 2 - PyText.round (a - b) 2 =
      n / 100 := by
    refine ⟨PyText.roundHalfEven (a * 10 ^ 2) - PyText.roundHalfEven (b * 10 ^ 2) -
      PyText.roundHalfEven ((a - b) * 10 ^ 2), ?_⟩
    rw [PyText.round, PyText.round, PyText.round]
    push_cast
    ring
  have hlo : (-2 : ℚ) < n := by linarith [ha.1, hb.2, hab.2]
  have hhi : (n : ℚ) < 2 := by linarith [ha.2, hb.1, hab.1]
  have hlo' : -2 < n := by exact_mod_cast hlo
  have hhi' : n < 2 := by exact_mod_cast hhi
  have hone : |(n : ℚ)| ≤ 1 := by
    rw [abs_le]
    constructor
    · exact_mod_cast (by omega : -1 ≤ n)
    · exact_mod_cast (by omega : n ≤ 1)
  rw [hn, abs_div, abs_of_pos (by norm_num : (0 : ℚ) < 100)]
  linarith

theorem podiumEntry_shows (read : Readers) {i : Nat} {v : SavedVendor} {next : Option SavedVendor}
    {entry : PodiumEntry} (h : podiumEntry names i v next = .ok entry) :
    entry.vendorId = v.vendorId.getD "" ∧ entry.vendorName = nameText read names v ∧
      entry.totalScore = PyText.round (rankScore v) 2 ∧
      entry.scoreDeltaVsNext =
        next.elim 0 fun n => PyText.round (rankScore v - rankScore n) 2 := by
  simp only [podiumEntry, bind_eq_ok, pure_eq_ok, orRaise_eq_ok] at h
  obtain ⟨name, hname, rfl⟩ := h
  have htext : ∀ j : Json, j.asString = some name → textOf read j = name := fun j hj => by
    cases j with
    | str s => exact Option.some.inj hj
    | _ => cases hj
  exact ⟨rfl, (htext _ hname).symm, rfl, rfl⟩

/-- What the other sections say of the vendors on top, read off the podium. -/
def LeadAgrees (read : Readers) (narratives : List SavedNarrative) (c : ReportContext) : Prop :=
  match c.podium with
  | [] => c.winnerDeclaration = noWinner ∧ c.pairwiseComparisons = []
  | [a] => (∃ score recommendation, PyText.round score 2 = a.totalScore ∧
      c.winnerDeclaration = winnerText a.vendorName score recommendation) ∧
      c.pairwiseComparisons = []
  | a :: b :: _ => (∃ score recommendation, PyText.round score 2 = a.totalScore ∧
      c.winnerDeclaration = winnerText a.vendorName score recommendation) ∧
      ∃ p, c.pairwiseComparisons = [p] ∧ p.winnerId = a.vendorId ∧ p.runnerUpId = b.vendorId ∧
        (∃ rec₁ rec₂, p.narrative =
          pairwiseText a.vendorName b.vendorName a.totalScore b.totalScore rec₁ rec₂) ∧
        PyText.round (a.totalScore - b.totalScore) 2 = a.totalScore - b.totalScore ∧
        |a.totalScore - b.totalScore - a.scoreDeltaVsNext| ≤ 1 / 100 ∧
        ∀ claim ∈ p.keyEvidence, claim ∈ groundedClaimsOf read (narrativeOf narratives a.vendorId) ∨
          claim ∈ groundedClaimsOf read (narrativeOf narratives b.vendorId)

theorem lead_agrees {shortlisted : List SavedVendor} {entries : List PodiumEntry}
    {c : ReportContext} (h : podium shortlisted names = .ok entries) (hp : c.podium = entries)
    (hw : c.winnerDeclaration = winnerDeclaration read shortlisted names)
    (hc : c.pairwiseComparisons = pairwise read shortlisted narratives names) :
    LeadAgrees read narratives c := by
  rw [podium] at h
  rw [winnerDeclaration] at hw
  rw [pairwise] at hc
  rw [LeadAgrees, hp]
  generalize byRank shortlisted = ranked at h hw hc
  cases ranked with
  | nil =>
      obtain rfl := Except.ok.inj h
      exact ⟨hw, hc⟩
  | cons w ranked =>
      rw [List.zipIdx_cons, List.mapM_cons, bind_eq_ok] at h
      obtain ⟨a, ha, h⟩ := h
      obtain ⟨hid, hname, hscore, hdelta⟩ := podiumEntry_shows read ha
      have hwinner : ∃ score recommendation, PyText.round score 2 = a.totalScore ∧
          c.winnerDeclaration = winnerText a.vendorName score recommendation :=
        ⟨rankScore w, recommendationText w, hscore.symm, by rw [hw, hname]⟩
      cases ranked with
      | nil =>
          obtain ⟨rest, hrest, h⟩ := bind_eq_ok.mp h
          obtain rfl := Except.ok.inj hrest
          obtain rfl := Except.ok.inj h
          exact ⟨hwinner, hc⟩
      | cons r ranked =>
          rw [List.zipIdx_cons, List.mapM_cons] at h
          obtain ⟨rest, hrest, h⟩ := bind_eq_ok.mp h
          obtain ⟨b, hb, hrest⟩ := bind_eq_ok.mp hrest
          obtain ⟨tail, -, hrest⟩ := bind_eq_ok.mp hrest
          obtain rfl := Except.ok.inj hrest
          obtain rfl := Except.ok.inj h
          obtain ⟨hid', hname', hscore', -⟩ := podiumEntry_shows read hb
          refine ⟨hwinner, _, hc, hid.symm, hid'.symm,
            ⟨recommendationText w, recommendationText r, ?_⟩, ?_, ?_, ?_⟩
          · rw [hname, hname', hscore, hscore']
          · rw [hscore, hscore', round_sub_rounded]
          · have hgap := gap_close (rankScore w) (rankScore r)
            rw [round_sub_rounded] at hgap
            rw [hscore, hscore', hdelta]
            exact hgap
          · intro claim hclaim
            rw [hid, hid']
            exact (List.mem_append.mp hclaim).imp List.mem_of_mem_take List.mem_of_mem_take

/-- The sections of the report agree on who won: the declaration and the comparison are of the
vendors on top of the podium, with the scores that the podium prints, and the comparison quotes
these two vendors alone. -/
theorem report_agrees (read : Readers) {d : DecisionOutput} {narratives : List SavedNarrative}
    {names : List (String × Json)} {events : List (List (String × Json))} {c : ReportContext}
    (h : buildReport read d narratives names events = .ok c) : LeadAgrees read narratives c := by
  simp only [buildReport, bind_eq_ok, pure_eq_ok] at h
  obtain ⟨entries, hentries, table, -, rfl⟩ := h
  exact lead_agrees hentries rfl rfl rfl

def ranked (vendorId : VendorId) (rank : Nat) (score : ℚ) : ShortlistedVendor :=
  ⟨vendorId, vendorId, rank, score, 1, score, 1, [], "recommended"⟩

/-- Two vendors whose printed scores and whose printed difference are rounded apart. -/
def closeDecision : DecisionOutput where
  rfpId := "rfp"
  rejectedVendors := []
  shortlistedVendors := [ranked "alpha" 1 (8006 / 1000), ranked "beta" 2 (7004 / 1000)]
  approvalRouting := ⟨1, "manager", 0, 24, none⟩
  decisionConfidence := 1
  requiresHumanReview := false
  reviewReasons := []

theorem closeDecision_agrees : ∃ c,
    buildReport ⟨fun _ => "", fun _ => none⟩ closeDecision [] [] [] = .ok c ∧
      LeadAgrees ⟨fun _ => "", fun _ => none⟩ [] c := by
  obtain ⟨c, hc⟩ : ∃ c,
      buildReport ⟨fun _ => "", fun _ => none⟩ closeDecision [] [] [] = .ok c := by
    obtain ⟨entries, hentries⟩ : ∃ entries, reportPodium closeDecision [] = .ok entries :=
      exists_reportPodium fun p hp => by cases hp
    rw [buildReport, hentries]
    exact ⟨_, rfl⟩
  exact ⟨c, hc, report_agrees _ hc⟩

end Agreement

end RfpPlatform.ReportSections
