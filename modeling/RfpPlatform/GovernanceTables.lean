import Mathlib.Algebra.Order.Ring.Rat
import Mathlib.Order.WithBot
import RfpPlatform.Decision
import RfpPlatform.SortedScan

namespace RfpPlatform.GovernanceTables

open Decision SortedScan

structure PlatformGovernance where
  approvalTiers : List ApprovalTier
  recommendationThresholds : Dict String ℚ

/-- The upper bound of a tier. A tier without one is sorted as if it were infinite. -/
def limit (t : ApprovalTier) : WithTop ℚ := t.maxValue.elim ⊤ (fun m => (m : WithTop ℚ))

/-- The first of the sorted tiers that covers the value, or the last of them. -/
def selectTier (tiers : List ApprovalTier) (contractValue : ℚ) : Option ApprovalTier :=
  ((sortBy limit tiers).find? (ApprovalTier.admits contractValue)).or (sortBy limit tiers).getLast?

def routing (contractValue : ℚ) (t : ApprovalTier) : ApprovalRouting where
  approvalTier := t.tier
  approverRole := t.approverRole
  contractValue := contractValue
  slaHours := t.slaHours

/-- `route_to_approval_tier`, which raises where no tier is configured. -/
def routeToApprovalTier (tiers : List ApprovalTier) (contractValue : ℚ) : Option ApprovalRouting :=
  (selectTier tiers contractValue).map (routing contractValue)

def fallbackLabel : String := "marginal"

/-- The label with the highest threshold that the score has reached, with that threshold. -/
def band (thresholds : Dict String ℚ) (score : ℚ) : Option (String × ℚ) :=
  (sortBy (fun p => OrderDual.toDual p.2) thresholds.rows).find? (fun p => decide (p.2 ≤ score))

/-- `_recommendation` -/
def recommendation (thresholds : Dict String ℚ) (score : ℚ) : String :=
  ((band thresholds score).map Prod.fst).getD fallbackLabel

/-- The threshold of a label, where the fallback label counts as `lowest`. -/
def level (lowest : WithBot ℚ) (thresholds : Dict String ℚ) (label : String) : WithBot ℚ :=
  if label = fallbackLabel then lowest
  else (thresholds.get? label).elim ⊥ (fun m => (m : WithBot ℚ))

structure ApprovalsMonotone (tiers : List ApprovalTier) : Prop where
  selects : tiers ≠ [] → ∀ v, ∃ t ∈ tiers, selectTier tiers v = some t
  ascends : ∀ v w t u, v ≤ w → selectTier tiers v = some t → selectTier tiers w = some u →
    limit t ≤ limit u
  smallest : ∀ v t, selectTier tiers v = some t → (∃ u ∈ tiers, (v : WithTop ℚ) ≤ limit u) →
    (v : WithTop ℚ) ≤ limit t ∧ ∀ u ∈ tiers, (v : WithTop ℚ) ≤ limit u → limit t ≤ limit u

def LabelsMonotone (lowest : WithBot ℚ) (thresholds : Dict String ℚ) : Prop :=
  ∀ s t, s ≤ t → level lowest thresholds (recommendation thresholds s) ≤
    level lowest thresholds (recommendation thresholds t)

/-- What governance promises of a configuration. -/
structure MonotoneGovernance (g : PlatformGovernance) : Prop where
  approvals : ApprovalsMonotone g.approvalTiers
  labels : LabelsMonotone ⊥ g.recommendationThresholds

/-- Where the table has the fallback label itself, another label of its threshold stands in front
of it, or no label has a smaller threshold. -/
def FallbackLowest (thresholds : Dict String ℚ) : Prop :=
  ∀ m, thresholds.get? fallbackLabel = some m →
    thresholds.rows.find? (fun p => decide (p.2 = m)) ≠ some (fallbackLabel, m) ∨
      ∀ p ∈ thresholds.rows, m ≤ p.2

section Tiers

variable {tiers : List ApprovalTier} {t u : ApprovalTier} {v w : ℚ}

theorem admits_iff : t.admits v = true ↔ (v : WithTop ℚ) ≤ limit t := by
  rw [ApprovalTier.admits, limit]
  cases t.maxValue with
  | none => exact iff_of_true rfl le_top
  | some m => exact decide_eq_true_iff.trans WithTop.coe_le_coe.symm

theorem selectTier_eq_some (h : selectTier tiers v = some t) : t ∈ tiers ∧
    (((v : WithTop ℚ) ≤ limit t ∧ ∀ u ∈ tiers, (v : WithTop ℚ) ≤ limit u → limit t ≤ limit u) ∨
      ((∀ u ∈ tiers, ¬ (v : WithTop ℚ) ≤ limit u) ∧ ∀ u ∈ tiers, limit u ≤ limit t)) := by
  rw [selectTier] at h
  cases hfind : (sortBy limit tiers).find? (ApprovalTier.admits v) with
  | some r =>
      rw [hfind, Option.some_or] at h
      obtain rfl := Option.some.inj h
      obtain ⟨hmem, hcovers, hleast⟩ := find?_sortBy_least hfind
      exact ⟨hmem, Or.inl ⟨admits_iff.mp hcovers, fun u hu huv => hleast u hu (admits_iff.mpr huv)⟩⟩
  | none =>
      rw [hfind, Option.none_or] at h
      obtain ⟨hmem, hgreatest⟩ := getLast?_sortBy_greatest h
      refine ⟨hmem, Or.inr ⟨fun u hu huv => ?_, hgreatest⟩⟩
      have hnone := find?_sortBy_eq_none.mp hfind u hu
      rw [admits_iff.mpr huv] at hnone
      cases hnone

theorem exists_selectTier (h : tiers ≠ []) (v : ℚ) : ∃ t ∈ tiers, selectTier tiers v = some t := by
  have hsome : (selectTier tiers v).isSome := by
    rw [selectTier, Option.isSome_or, Bool.or_eq_true]
    refine Or.inr ?_
    rw [List.getLast?_isSome]
    exact fun hnil => h (sortBy_eq_nil.mp hnil)
  obtain ⟨t, ht⟩ := Option.isSome_iff_exists.mp hsome
  exact ⟨t, (selectTier_eq_some ht).1, ht⟩

theorem limit_le_limit (hvw : v ≤ w) (ht : selectTier tiers v = some t)
    (hu : selectTier tiers w = some u) : limit t ≤ limit u := by
  obtain ⟨htmem, ht⟩ := selectTier_eq_some ht
  obtain ⟨humem, hu⟩ := selectTier_eq_some hu
  rcases hu with ⟨hwu, _⟩ | ⟨_, hgreatest⟩
  · have hvu : (v : WithTop ℚ) ≤ limit u := le_trans (WithTop.coe_le_coe.mpr hvw) hwu
    rcases ht with ⟨_, hleast⟩ | ⟨hnone, _⟩
    · exact hleast u humem hvu
    · exact absurd hvu (hnone u humem)
  · exact hgreatest t htmem

theorem approvals_monotone (tiers : List ApprovalTier) : ApprovalsMonotone tiers where
  selects := exists_selectTier
  ascends := fun _ _ _ _ => limit_le_limit
  smallest := fun v t ht hcovered => by
    obtain ⟨u, hu, huv⟩ := hcovered
    rcases (selectTier_eq_some ht).2 with hleast | ⟨hnone, _⟩
    · exact hleast
    · exact absurd huv (hnone u hu)

/-- The routing of the shipped configuration is the one that the decision agent is modelled with. -/
theorem routeToApprovalTier_shipped (v : ℚ) :
    routeToApprovalTier (approvalTiers ++ [lastTier]) v = some (Decision.routeToApprovalTier v) := by
  have hsorted : sortBy limit (approvalTiers ++ [lastTier]) = approvalTiers ++ [lastTier] := by
    refine List.Pairwise.insertionSort_eq ?_
    decide +kernel
  have hlast : [lastTier].find? (ApprovalTier.admits v) = some lastTier := rfl
  rw [routeToApprovalTier, selectTier, hsorted, List.find?_append, hlast]
  cases hfind : approvalTiers.find? (ApprovalTier.admits v) with
  | some t => simp [Decision.routeToApprovalTier, hfind, routing]
  | none => simp [Decision.routeToApprovalTier, hfind, routing]

end Tiers

section Bands

variable {thresholds : Dict String ℚ} {s t m : ℚ} {p q : String × ℚ}

theorem band_eq_some (h : band thresholds s = some p) :
    p ∈ thresholds ∧ p.2 ≤ s ∧ ∀ q ∈ thresholds, q.2 ≤ s → q.2 ≤ p.2 := by
  obtain ⟨hmem, hreached, hleast⟩ := find?_sortBy_least h
  refine ⟨hmem, of_decide_eq_true hreached, fun q hq hqs => ?_⟩
  exact OrderDual.toDual_le_toDual.mp (hleast q hq (decide_eq_true hqs))

theorem band_eq_none : band thresholds s = none ↔ ∀ q ∈ thresholds, s < q.2 := by
  rw [band, find?_sortBy_eq_none]
  simp [KeyedTable.mem_def]

/-- Of the labels with one threshold, the first of the table is given. -/
theorem band_first (h : band thresholds s = some p) :
    thresholds.rows.find? (fun q => decide (q.2 = p.2)) = some p := by
  have hfound : (sortBy (fun p => OrderDual.toDual p.2) thresholds.rows).find?
      (fun p => decide (p.2 ≤ s)) = some p := h
  have hfirst := find?_sortBy_first hfound fun q hq => by
    rw [OrderDual.toDual.injective hq]
    exact decide_eq_true (band_eq_some h).2.1
  simpa only [OrderDual.toDual_inj] using hfirst

theorem exists_band (hq : q ∈ thresholds) (hqs : q.2 ≤ s) :
    ∃ p, band thresholds s = some p ∧ q.2 ≤ p.2 := by
  cases hband : band thresholds s with
  | none => exact absurd hqs (not_le.mpr (band_eq_none.mp hband q hq))
  | some p => exact ⟨p, rfl, (band_eq_some hband).2.2 q hq hqs⟩

/-- A higher score reaches a band that is at least as high. -/
theorem band_mono (hst : s ≤ t) (hp : band thresholds s = some p) :
    ∃ q, band thresholds t = some q ∧ p.2 ≤ q.2 := by
  obtain ⟨hmem, hreached, _⟩ := band_eq_some hp
  exact exists_band hmem (le_trans hreached hst)

theorem recommendation_band (h : band thresholds s = some p) : recommendation thresholds s = p.1 := by
  rw [recommendation, h]
  rfl

theorem recommendation_none (h : band thresholds s = none) :
    recommendation thresholds s = fallbackLabel := by
  rw [recommendation, h]
  rfl

theorem level_band {lowest : WithBot ℚ} (h : band thresholds s = some p) (hp : p.1 ≠ fallbackLabel) :
    level lowest thresholds (recommendation thresholds s) = p.2 := by
  rw [recommendation_band h, level, if_neg hp, Dict.get?_eq_some.mpr (band_eq_some h).1]
  rfl

/-- A label other than the fallback is given to no score above one that has the fallback label. -/
theorem labelsMonotone_bot_iff : LabelsMonotone ⊥ thresholds ↔
    ∀ s t, s ≤ t → recommendation thresholds t = fallbackLabel →
      recommendation thresholds s = fallbackLabel := by
  have hlevel : level ⊥ thresholds fallbackLabel = ⊥ := if_pos rfl
  constructor
  · intro h s t hst ht
    by_contra hs
    have hle := h s t hst
    cases hband : band thresholds s with
    | none => exact hs (recommendation_none hband)
    | some p =>
        have hp : p.1 ≠ fallbackLabel := fun hp => hs ((recommendation_band hband).trans hp)
        rw [ht, hlevel, level_band hband hp, le_bot_iff] at hle
        exact WithBot.coe_ne_bot hle
  · intro h s t hst
    by_cases ht : recommendation thresholds t = fallbackLabel
    · rw [h s t hst ht, ht]
    · cases hband : band thresholds s with
      | none =>
          rw [recommendation_none hband, hlevel]
          exact bot_le
      | some p =>
          obtain ⟨q, hq, hpq⟩ := band_mono hst hband
          have hne : q.1 ≠ fallbackLabel := fun hq' => ht ((recommendation_band hq).trans hq')
          rw [level_band hq hne]
          by_cases hp : p.1 = fallbackLabel
          · rw [recommendation_band hband, hp, hlevel]
            exact bot_le
          · rw [level_band hband hp]
            exact WithBot.coe_le_coe.mpr hpq

theorem labelsMonotone_iff : LabelsMonotone ⊥ thresholds ↔ FallbackLowest thresholds := by
  rw [labelsMonotone_bot_iff]
  constructor
  · intro h m hm
    by_contra hcross
    rw [not_or, not_not, not_forall] at hcross
    obtain ⟨hfirst, p, hp⟩ := hcross
    rw [Classical.not_imp, not_le] at hp
    obtain ⟨hpmem, hpm⟩ := hp
    -- The score `m` is given the fallback label by the table, and `p.2` is given another one.
    have hfallback : recommendation thresholds m = fallbackLabel := by
      obtain ⟨q, hq, hmq⟩ := exists_band (s := m) (Dict.get?_eq_some.mp hm) le_rfl
      have hqm : q.2 = m := le_antisymm (band_eq_some hq).2.1 hmq
      have hqfirst := band_first hq
      rw [hqm, hfirst] at hqfirst
      rw [recommendation_band hq, ← Option.some.inj hqfirst]
    obtain ⟨q, hq, _⟩ := exists_band (s := p.2) hpmem le_rfl
    have hlabel := h p.2 m hpm.le hfallback
    rw [recommendation_band hq] at hlabel
    have hget : thresholds.get? fallbackLabel = some q.2 := by
      rw [← hlabel]
      exact Dict.get?_eq_some.mpr (band_eq_some hq).1
    rw [hm] at hget
    have hqp := (band_eq_some hq).2.1
    rw [← Option.some.inj hget] at hqp
    exact absurd hpm (not_lt.mpr hqp)
  · intro h s t hst ht
    cases hband : band thresholds s with
    | none => exact recommendation_none hband
    | some p =>
        obtain ⟨q, hq, hpq⟩ := band_mono hst hband
        have hqlabel : q.1 = fallbackLabel := (recommendation_band hq).symm.trans ht
        have hqmem := (band_eq_some hq).1
        have hget : thresholds.get? fallbackLabel = some q.2 := by
          rw [← hqlabel]
          exact Dict.get?_eq_some.mpr hqmem
        have hqfirst := band_first hq
        rcases h q.2 hget with hnot | hleast
        · refine absurd ?_ hnot
          rw [hqfirst, ← hqlabel]
        · have hqp : p.2 = q.2 := le_antisymm hpq (hleast p (band_eq_some hband).1)
          have hpfirst := band_first hband
          rw [hqp, hqfirst] at hpfirst
          rw [recommendation_band hband, ← Option.some.inj hpfirst, hqlabel]

end Bands

/-- Governance is monotone exactly where no label stands below the table's own fallback label. -/
theorem monotoneGovernance_iff (g : PlatformGovernance) :
    MonotoneGovernance g ↔ FallbackLowest g.recommendationThresholds := by
  constructor
  · exact fun h => labelsMonotone_iff.mp h.labels
  · exact fun h => ⟨approvals_monotone g.approvalTiers, labelsMonotone_iff.mpr h⟩

section Sample

/-- Two bands below one that has the name of the fallback. -/
def crossed : Dict String ℚ := Dict.ofPairs [("marginal", 5), ("acceptable", 3), ("recommended", 4)]

/-- Whatever the fallback label counts as, its place in this table is both below and above others. -/
theorem crossed_not_monotone : (¬ ∀ g, MonotoneGovernance g) ∧
    ∀ lowest, ¬ LabelsMonotone lowest crossed := by
  have hbands : recommendation crossed 2 = "marginal" ∧ recommendation crossed 3 = "acceptable" ∧
      recommendation crossed 4 = "recommended" ∧ recommendation crossed 6 = "marginal" := by
    decide +kernel
  obtain ⟨hbelow, hacceptable, hrecommended, habove⟩ := hbands
  have hlevels : ∀ lowest, level lowest crossed "marginal" = lowest ∧
      level lowest crossed "acceptable" = (3 : ℚ) ∧ level lowest crossed "recommended" = (4 : ℚ) :=
    fun lowest => ⟨rfl, rfl, rfl⟩
  have hall : ∀ lowest, ¬ LabelsMonotone lowest crossed := by
    intro lowest h
    have hlow := h 2 3 (by norm_num)
    have hhigh := h 4 6 (by norm_num)
    obtain ⟨hmarginal, h3, h4⟩ := hlevels lowest
    rw [hbelow, hacceptable, hmarginal, h3] at hlow
    rw [hrecommended, habove, hmarginal, h4] at hhigh
    have hle := WithBot.coe_le_coe.mp (le_trans hhigh hlow)
    norm_num at hle
  exact ⟨fun h => hall ⊥ (h ⟨approvalTiers ++ [lastTier], crossed⟩).labels, hall⟩

end Sample

end RfpPlatform.GovernanceTables
