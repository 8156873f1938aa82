import RfpPlatform.RejectionEvidence

namespace RfpPlatform.RejectionQuotes

open Decision PyText RejectionEvidence

section Places

variable {α : Type} {xss : List (List α)}

/-- The element at the place, or else the first. -/
def placed (xs : List α) (i : Nat) : Option α := xs[i]?.or xs.head?

/-- Lists of one element each, up to the last, have at each place of their concatenation an
element of their own. -/
theorem getElem?_flatten_mem (hone : ∀ xs ∈ xss.dropLast, xs.length = 1) (hne : ∀ xs ∈ xss, xs ≠ [])
    {i : Nat} {xs : List α} (hi : xss[i]? = some xs) : ∃ x, xss.flatten[i]? = some x ∧ x ∈ xs := by
  induction xss generalizing i with
  | nil => cases hi
  | cons ys rest ih =>
      obtain ⟨y, ys', rfl⟩ := List.exists_cons_of_ne_nil (hne ys List.mem_cons_self)
      cases i with
      | zero =>
          obtain rfl : y :: ys' = xs := Option.some.inj hi
          exact ⟨y, rfl, List.mem_cons_self⟩
      | succ i =>
          have hrest : rest ≠ [] := by
            rintro rfl
            cases hi
          rw [List.dropLast_cons_of_ne_nil hrest, List.forall_mem_cons] at hone
          obtain rfl : ys' = [] := List.eq_nil_of_length_eq_zero (Nat.succ.inj hone.1)
          exact ih hone.2 (fun zs hzs => hne zs (List.mem_cons_of_mem _ hzs)) hi

/-- Where no element repeats, each list has its own element at its place exactly when all lists but
the last have one element, and the last has some. -/
theorem placed_mem_iff (h : xss.flatten.Nodup) :
    (∀ i xs, xss[i]? = some xs → ∃ x, placed xss.flatten i = some x ∧ x ∈ xs) ↔
      (∀ xs ∈ xss.dropLast, xs.length = 1) ∧ ∀ xs ∈ xss, xs ≠ [] := by
  constructor
  · intro hplaced
    induction xss with
    | nil => exact ⟨fun _ hxs => absurd hxs List.not_mem_nil, fun _ hxs => absurd hxs List.not_mem_nil⟩
    | cons ys rest ih =>
        obtain ⟨x, hx, hmem⟩ := hplaced 0 ys rfl
        obtain ⟨y, ys', rfl⟩ := List.exists_cons_of_ne_nil (List.ne_nil_of_mem hmem)
        rw [List.flatten_cons, List.nodup_append] at h
        obtain ⟨hys, hrest, hdisjoint⟩ := h
        have hlater : ∀ i zs, rest[i]? = some zs →
            ∃ z, (y :: ys' ++ rest.flatten)[i + 1]? = some z ∧ z ∈ zs := by
          intro i zs hi
          obtain ⟨z, hz, hzs⟩ := hplaced (i + 1) zs hi
          rw [placed, Option.or_eq_some_iff] at hz
          rcases hz with hz | ⟨_, hz⟩
          · exact ⟨z, hz, hzs⟩
          · obtain rfl : y = z := Option.some.inj hz
            have hflat : y ∈ rest.flatten := List.mem_flatten.mpr ⟨zs, List.mem_of_getElem? hi, hzs⟩
            exact absurd rfl (hdisjoint y List.mem_cons_self y hflat)
        cases rest with
        | nil => simp
        | cons zs rest =>
            have hsingle : ys' = [] := by
              obtain ⟨z, hz, hzs⟩ := hlater 0 zs rfl
              by_contra hne
              obtain ⟨w, ys'', rfl⟩ := List.exists_cons_of_ne_nil hne
              obtain rfl : w = z := Option.some.inj hz
              have hflat : w ∈ (zs :: rest).flatten :=
                List.mem_flatten.mpr ⟨zs, List.mem_cons_self, hzs⟩
              exact absurd rfl (hdisjoint w (List.mem_cons_of_mem _ List.mem_cons_self) w hflat)
            subst hsingle
            obtain ⟨hone, hne⟩ := ih hrest fun i ws hi => by
              obtain ⟨z, hz, hzs⟩ := hlater i ws hi
              exact ⟨z, by rw [placed, Option.or_eq_some_iff]; exact Or.inl hz, hzs⟩
            rw [List.dropLast_cons_of_ne_nil (List.cons_ne_nil _ _)]
            exact ⟨List.forall_mem_cons.mpr ⟨rfl, hone⟩,
              List.forall_mem_cons.mpr ⟨List.cons_ne_nil _ _, hne⟩⟩
  · rintro ⟨hone, hne⟩ i xs hi
    obtain ⟨x, hx, hmem⟩ := getElem?_flatten_mem hone hne hi
    exact ⟨x, by rw [placed, hx]; rfl, hmem⟩

end Places

section Report

structure SavedNotice where
  vendorId : Option VendorId
  rejectionReasons : Option (List String)
  evidenceCitations : Option (List String)

def quoteFor (citations : List String) (idx : Nat) : String :=
  match citations[idx]? with
  | some citation => citation
  | none => citations.head?.getD ""

/-- The reasons of a notice, none of them with a chunk. -/
def claimsOf (r : SavedNotice) : List GroundedClaim :=
  (r.rejectionReasons.getD []).zipIdx.map
    (fun p => ⟨p.1, quoteFor (r.evidenceCitations.getD []) p.2, ""⟩)

def rejectionReasons (rejected : List SavedNotice) : Dict VendorId (List GroundedClaim) :=
  Dict.ofPairs (rejected.map (fun r => (r.vendorId.getD "", claimsOf r)))

def savedNotice (n : RejectionNotice) : SavedNotice :=
  ⟨some n.vendorId, some n.rejectionReasons, some n.evidenceCitations⟩

def reportReasons (decision : DecisionOutput) : Dict VendorId (List GroundedClaim) :=
  rejectionReasons (decision.rejectedVendors.map savedNotice)

end Report

section Pairing

/-- Evidence of a check is what its decision used. Where no failed check has any, the reasons are the
evidence, and a quote is a phrase of one. -/
def EvidenceFor (failed : List ComplianceDecision) (d : ComplianceDecision) (q : String) : Prop :=
  q ∈ d.evidenceUsed ∨
    evidenceOf failed = [] ∧ occurs q.toList (rejectionReason d).toList = true

/-- Each failed check has its reason in the report, with a quote only if it is evidence of it. -/
structure Quoted (failed : List ComplianceDecision) (claims : List GroundedClaim) : Prop where
  reasons : claims.map GroundedClaim.claimText = failed.map rejectionReason
  quotes : ∀ (i : Nat) (claim : GroundedClaim) (d : ComplianceDecision), claims[i]? = some claim →
    failed[i]? = some d → claim.groundingQuote ≠ "" → EvidenceFor failed d claim.groundingQuote

/-- At its place among all the evidence, or else at the first, each check has evidence of its own.
Where there is none, so has each its own phrase among those of the reply, and where the reply has none
either, the first reason is a phrase of those from the fourth on. -/
structure Aligned (reply : LlmReply) (failed : List ComplianceDecision) : Prop where
  own : evidenceOf failed ≠ [] → ∀ (i : Nat) d, failed[i]? = some d →
    ∀ q ∈ placed (evidenceOf failed) i, q ≠ "" → q ∈ d.evidenceUsed
  derived : evidenceOf failed = [] → ∀ (i : Nat) d, failed[i]? = some d →
    ∀ q ∈ placed (derivedCitations reply) i, q ≠ "" →
      occurs q.toList (rejectionReason d).toList = true
  absent : evidenceOf failed = [] → derivedCitations reply = [] → ∀ d ∈ failed.drop 3,
    ∀ e ∈ failed.head?, occurs (rejectionReason e).toList (rejectionReason d).toList = true

end Pairing

section Notices

variable {reply : LlmReply} {v : VendorId} {evaluation : EvaluationOutput}
  {failed : List ComplianceDecision} {d : ComplianceDecision} {cs : List String} {i : Nat}

theorem quoteFor_eq : quoteFor cs i = (placed cs i).getD "" := by
  rw [quoteFor, placed]
  cases cs[i]? <;> rfl

theorem placed_eq_none : placed cs i = none ↔ cs = [] := by
  rw [placed, Option.or_eq_none_iff, List.head?_eq_none_iff]
  exact and_iff_right_of_imp fun h => h ▸ List.getElem?_nil

theorem mem_of_placed {q : String} (h : placed cs i = some q) : q ∈ cs := by
  rw [placed, Option.or_eq_some_iff] at h
  rcases h with h | ⟨_, h⟩
  · exact List.mem_of_getElem? h
  · exact List.mem_of_head? h

/-- A quote that is shown is the string at its place. -/
theorem shown_iff {p : String → Prop} :
    (quoteFor cs i ≠ "" → p (quoteFor cs i)) ↔ ∀ q ∈ placed cs i, q ≠ "" → p q := by
  rw [quoteFor_eq]
  cases placed cs i with
  | none => simp
  | some q => simp

/-- The claims of a notice, whose reasons and citations meet by place. -/
def claimsWith (failed : List ComplianceDecision) (cs : List String) : List GroundedClaim :=
  (failed.map rejectionReason).zipIdx.map (fun p => ⟨p.1, quoteFor cs p.2, ""⟩)

theorem claimTexts : (claimsWith failed cs).map GroundedClaim.claimText =
    failed.map rejectionReason := by
  rw [claimsWith, List.map_map]
  exact List.zipIdx_map_fst 0 _

theorem getElem?_claimsWith (hd : failed[i]? = some d) :
    (claimsWith failed cs)[i]? = some ⟨rejectionReason d, quoteFor cs i, ""⟩ := by
  rw [claimsWith, List.getElem?_map, List.getElem?_zipIdx, List.getElem?_map, hd]
  simp

theorem quoted_claimsWith : Quoted failed (claimsWith failed cs) ↔ ∀ (i : Nat) d,
    failed[i]? = some d → ∀ q ∈ placed cs i, q ≠ "" → EvidenceFor failed d q := by
  constructor
  · intro h i d hd
    refine shown_iff.mp fun hshown => ?_
    exact h.quotes i _ d (getElem?_claimsWith hd) hd hshown
  · refine fun h => ⟨claimTexts, fun i claim d hclaim hd => ?_⟩
    rw [getElem?_claimsWith hd] at hclaim
    obtain rfl := Option.some.inj hclaim
    exact shown_iff.mpr (h i d hd)

theorem evidenceFor_of_some (h : evidenceOf failed ≠ []) {q : String} :
    EvidenceFor failed d q ↔ q ∈ d.evidenceUsed :=
  or_iff_left fun hnone => h hnone.1

theorem evidenceFor_of_none (h : evidenceOf failed = []) (hd : d ∈ failed) {q : String} :
    EvidenceFor failed d q ↔ occurs q.toList (rejectionReason d).toList = true := by
  have hnone : q ∉ d.evidenceUsed := fun hq => by
    have hmem : q ∈ evidenceOf failed := List.mem_flatMap.mpr ⟨d, hd, hq⟩
    rw [h] at hmem
    cases hmem
  rw [EvidenceFor, or_iff_right hnone, and_iff_right h]

theorem occurs_self (cs : List Char) : occurs cs cs = true := decide_eq_true List.infix_rfl

theorem rejectionReason_ne_empty : rejectionReason d ≠ "" := by
  rw [rejectionReason]
  split
  · intro h
    have hlist := congrArg String.toList h
    simp only [String.toList_append] at hlist
    cases hlist
  · assumption

theorem placed_reasons_of_lt (hd : failed[i]? = some d) (hi : i < 3) :
    placed ((failed.map rejectionReason).take 3) i = some (rejectionReason d) := by
  rw [placed, List.getElem?_take_of_lt hi, List.getElem?_map, hd]
  rfl

theorem placed_reasons_of_le (hi : 3 ≤ i) :
    placed ((failed.map rejectionReason).take 3) i = failed.head?.map rejectionReason := by
  rw [placed, List.getElem?_eq_none ((List.length_take_le 3 _).trans hi)]
  cases failed <;> rfl

/-- Where the reasons are cited, the first three stand at their own places. -/
theorem placed_reasons : (∀ (i : Nat) d, failed[i]? = some d →
      ∀ q ∈ placed ((failed.map rejectionReason).take 3) i, q ≠ "" →
        occurs q.toList (rejectionReason d).toList = true) ↔
    ∀ d ∈ failed.drop 3, ∀ e ∈ failed.head?,
      occurs (rejectionReason e).toList (rejectionReason d).toList = true := by
  constructor
  · intro h d hd e he
    obtain ⟨j, hj⟩ := List.mem_iff_getElem?.mp hd
    rw [List.getElem?_drop] at hj
    refine h (3 + j) d hj _ ?_ rejectionReason_ne_empty
    rw [placed_reasons_of_le (Nat.le_add_right 3 j)]
    exact Option.mem_map_of_mem _ he
  · intro h i d hd q hq _
    by_cases hi : i < 3
    · rw [placed_reasons_of_lt hd hi] at hq
      obtain rfl := Option.some.inj hq
      exact occurs_self _
    · have hle : 3 ≤ i := not_lt.mp hi
      rw [placed_reasons_of_le hle] at hq
      obtain ⟨e, he, rfl⟩ := Option.map_eq_some_iff.mp hq
      refine h d (List.mem_iff_getElem?.mpr ⟨i - 3, ?_⟩) e he
      rw [List.getElem?_drop, Nat.add_sub_cancel' hle]
      exact hd

/-- The claims on a vendor are quoted exactly when its decisions and the reply are aligned. -/
theorem quoted_iff : Quoted failed (claimsWith failed (citations reply failed)) ↔
    Aligned reply failed := by
  rw [quoted_claimsWith]
  by_cases hcited : evidenceOf failed = []
  · have hnone : ∀ cs : List String, (∀ (i : Nat) d, failed[i]? = some d →
          ∀ q ∈ placed cs i, q ≠ "" → EvidenceFor failed d q) ↔
        ∀ (i : Nat) d, failed[i]? = some d → ∀ q ∈ placed cs i, q ≠ "" →
          occurs q.toList (rejectionReason d).toList = true := fun cs =>
      forall₃_congr fun i d hd => forall₃_congr fun q _ _ =>
        evidenceFor_of_none hcited (List.mem_of_getElem? hd)
    rw [hnone, citations, if_pos hcited]
    by_cases hderived : derivedCitations reply = []
    · rw [if_pos hderived, placed_reasons]
      constructor
      · intro h
        refine ⟨fun hne => absurd hcited hne, fun _ i d _ q hq _ => ?_, fun _ _ => h⟩
        rw [hderived, placed_eq_none.mpr rfl] at hq
        cases hq
      · exact fun h => h.absent hcited hderived
    · rw [if_neg hderived]
      exact ⟨fun h => ⟨fun hne => absurd hcited hne, fun _ => h, fun _ hno => absurd hno hderived⟩,
        fun h => h.derived hcited⟩
  · have hown : ∀ (i : Nat) d, failed[i]? = some d → ((∀ q ∈ placed (evidenceOf failed) i, q ≠ "" →
        EvidenceFor failed d q) ↔ ∀ q ∈ placed (evidenceOf failed) i, q ≠ "" → q ∈ d.evidenceUsed) :=
      fun i d _ => forall₃_congr fun q _ _ => evidenceFor_of_some hcited
    rw [citations, if_neg hcited, forall₃_congr hown]
    exact ⟨fun h => ⟨fun _ => h, fun hno => absurd hno hcited, fun hno => absurd hno hcited⟩,
      fun h => h.own hcited⟩

theorem aligned_nil : Aligned reply [] where
  own hcited := absurd rfl hcited
  derived _ i d hd := by cases hd
  absent _ _ d hd := by cases hd

/-- Where no evidence repeats and none is empty, the checks are aligned exactly when each failed check
but the last has one piece of evidence, and the last has some. -/
theorem aligned_iff_one_each (hcited : evidenceOf failed ≠ []) (hnodup : (evidenceOf failed).Nodup)
    (htext : "" ∉ evidenceOf failed) : Aligned reply failed ↔
      (∀ d ∈ failed.dropLast, d.evidenceUsed.length = 1) ∧ ∀ d ∈ failed, d.evidenceUsed ≠ [] := by
  have hplaced : (∀ i xs, (failed.map ComplianceDecision.evidenceUsed)[i]? = some xs →
      ∃ x, placed (evidenceOf failed) i = some x ∧ x ∈ xs) ↔ _ := placed_mem_iff hnodup
  rw [← List.map_dropLast, List.forall_mem_map, List.forall_mem_map] at hplaced
  rw [← hplaced]
  constructor
  · intro h i xs hxs
    rw [List.getElem?_map] at hxs
    obtain ⟨d, hd, rfl⟩ := Option.map_eq_some_iff.mp hxs
    obtain ⟨q, hq⟩ := Option.ne_none_iff_exists'.mp (placed_eq_none.not.mpr hcited)
    exact ⟨q, hq, h.own hcited i d hd q hq fun hempty => htext (hempty ▸ mem_of_placed hq)⟩
  · intro h
    refine ⟨fun _ i d hd q hq _ => ?_, fun hno => absurd hno hcited, fun hno => absurd hno hcited⟩
    obtain ⟨x, hx, hmem⟩ := h i d.evidenceUsed (by rw [List.getElem?_map, hd]; rfl)
    obtain rfl := Option.some.inj (hx.symm.trans hq)
    exact hmem

end Notices

section Main

variable {replies : VendorId → LlmReply} {evaluations : Dict VendorId EvaluationOutput}
  {comparator : ComparatorOutput} {contractValue : ℚ}

/-- The claims of the report on an evaluation that rejects its vendor. -/
def reportedClaims (replies : VendorId → LlmReply) (p : VendorId × EvaluationOutput) :
    List GroundedClaim :=
  claimsWith (rejectingDecisions p.2.complianceDecisions)
    (citations (replies p.1) (rejectingDecisions p.2.complianceDecisions))

theorem reportReasons_runDecisionAgent :
    reportReasons (runDecisionAgent replies evaluations comparator contractValue).1 =
      Dict.ofPairs ((evaluations.rows.filter (fun p => Rejected p.2)).map
        (fun p => (p.1, reportedClaims replies p))) := by
  change Dict.ofPairs ((((evaluations.rows.filter (fun p => Rejected p.2)).map _).map
    savedNotice).map _) = _
  rw [List.map_map, List.map_map]
  rfl

theorem get?_reportReasons {v : VendorId} {claims : List GroundedClaim} :
    (reportReasons (runDecisionAgent replies evaluations comparator contractValue).1).get? v =
        some claims ↔
      ∃ evaluation, evaluations.get? v = some evaluation ∧ Rejected evaluation ∧
        claims = reportedClaims replies (v, evaluation) := by
  have hmem : ∀ cs, (v, cs) ∈ (evaluations.rows.filter (fun p => Rejected p.2)).map
        (fun p => (p.1, reportedClaims replies p)) ↔
      ∃ evaluation, evaluations.get? v = some evaluation ∧ Rejected evaluation ∧
        cs = reportedClaims replies (v, evaluation) := by
    intro cs
    rw [List.mem_map]
    constructor
    · rintro ⟨⟨w, evaluation⟩, hp, hpair⟩
      obtain ⟨rfl, rfl⟩ := Prod.mk.inj hpair
      obtain ⟨hget, hrejected⟩ := List.mem_filter.mp hp
      exact ⟨evaluation, Dict.get?_eq_some.mpr hget, of_decide_eq_true hrejected, rfl⟩
    · rintro ⟨evaluation, hget, hrejected, rfl⟩
      exact ⟨(v, evaluation),
        List.mem_filter.mpr ⟨Dict.get?_eq_some.mp hget, decide_eq_true hrejected⟩, rfl⟩
  rw [reportReasons_runDecisionAgent, Dict.get?_ofPairs, hmem]
  intro cs hclaims hcs
  obtain ⟨evaluation, hget, _, rfl⟩ := (hmem _).mp hclaims
  obtain ⟨evaluation', hget', _, rfl⟩ := (hmem _).mp hcs
  obtain rfl := Option.some.inj (hget'.symm.trans hget)
  rfl

/-- The report on a decision pairs each reason with evidence of its own check. -/
def ReportQuoted (evaluations : Dict VendorId EvaluationOutput) (decision : DecisionOutput) : Prop :=
  ∀ v evaluation claims, evaluations.get? v = some evaluation →
    (reportReasons decision).get? v = some claims →
      Quoted (rejectingDecisions evaluation.complianceDecisions) claims

/-- The report is quoted exactly when the decisions on each rejected vendor are aligned. -/
theorem report_quoted_iff (replies : VendorId → LlmReply)
    (evaluations : Dict VendorId EvaluationOutput) (comparator : ComparatorOutput)
    (contractValue : ℚ) :
    ReportQuoted evaluations (runDecisionAgent replies evaluations comparator contractValue).1 ↔
      ∀ v evaluation, evaluations.get? v = some evaluation →
        Aligned (replies v) (rejectingDecisions evaluation.complianceDecisions) := by
  constructor
  · intro h v evaluation hget
    by_cases hrejected : Rejected evaluation
    · have hclaims := (@get?_reportReasons replies evaluations comparator contractValue v _).mpr
        ⟨evaluation, hget, hrejected, rfl⟩
      exact quoted_iff.mp (h v evaluation _ hget hclaims)
    · rw [Rejected, not_not] at hrejected
      rw [hrejected]
      exact aligned_nil
  · intro h v evaluation claims hget hclaims
    obtain ⟨evaluation', hget', _, rfl⟩ := get?_reportReasons.mp hclaims
    obtain rfl := Option.some.inj (hget'.symm.trans hget)
    exact quoted_iff.mpr (h v evaluation' hget)

/-- Two failed checks of a vendor, the first without evidence. -/
def halfCited : Dict VendorId EvaluationOutput :=
  ⟨[("v", failing [expired [], expired ["valid until 1 May 2020"]])], by decide⟩

/-- The reason of the first check is shown with the evidence of the second. -/
theorem quote_of_another_check : ¬ ∀ replies evaluations comparator contractValue,
    ReportQuoted evaluations (runDecisionAgent replies evaluations comparator contractValue).1 := by
  intro hall
  have hget : halfCited.get? "v" = some (failing [expired [], expired ["valid until 1 May 2020"]]) :=
    rfl
  have hrejected : Rejected (failing [expired [], expired ["valid until 1 May 2020"]]) := by decide
  have hclaims := (@get?_reportReasons (fun _ => .invalidJson "") halfCited
    ⟨"rfp", ["v"], [], ["v"], 1, ∅, [], []⟩ 500000 "v" _).mpr ⟨_, hget, hrejected, rfl⟩
  have hquoted := quoted_iff.mp (hall _ _ _ _ "v" _ _ hget hclaims)
  have hown := hquoted.own (by decide) 0 (expired []) rfl "valid until 1 May 2020" rfl (by decide)
  cases hown

end Main

end RfpPlatform.RejectionQuotes
