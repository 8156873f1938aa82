import Mathlib.Data.List.Chain
import RfpPlatform.Comparator
import RfpPlatform.Ranking

namespace RfpPlatform.RankStability

open Comparator

def ranking (scores : List (VendorId × ℚ)) : List VendorId :=
  (scores.insertionSort descending).map Prod.fst

/-- The scores, each of them off by what the function says. -/
def shift (e : VendorId → ℚ) (scores : List (VendorId × ℚ)) : List (VendorId × ℚ) :=
  scores.map fun p => (p.1, p.2 + e p.1)

variable {t : ℚ} {e : VendorId → ℚ} {scores sorted : List (VendorId × ℚ)} {p q : VendorId × ℚ}

theorem zip_tail_all_iff (xs : List ℚ) :
    (xs.zip xs.tail).all (fun p => decide (t ≤ p.1 - p.2)) = true ↔
      xs.IsChain fun x y => t ≤ x - y := by
  induction xs with
  | nil => simp
  | cons x xs ih =>
      cases xs with
      | nil => simp
      | cons y xs =>
          rw [List.tail_cons, List.zip_cons_cons, List.all_cons, Bool.and_eq_true,
            decide_eq_true_eq, List.isChain_cons_cons, ← ih, List.tail_cons]

theorem rankIsStable_iff : rankIsStable t scores = true ↔
    (scores.insertionSort descending).IsChain fun p q => t ≤ p.2 - q.2 := by
  rw [rankIsStable, zip_tail_all_iff, List.isChain_map]

theorem pairwise_of_margins (ht : 0 ≤ t) (h : sorted.IsChain fun p q => t ≤ p.2 - q.2) :
    sorted.Pairwise fun p q => t ≤ p.2 - q.2 := by
  have htrans : IsTrans (VendorId × ℚ) fun p q => t ≤ p.2 - q.2 :=
    ⟨fun p q r hpq hqr => by linarith⟩
  exact List.isChain_iff_pairwise.mp h

theorem sorted_eq_of_strict (hperm : sorted.Perm scores)
    (hstrict : sorted.Pairwise fun p q => q.2 < p.2) :
    scores.insertionSort descending = sorted := by
  have hsorted : (scores.insertionSort descending).Pairwise descending :=
    Ranking.pairwise_key (fun _ _ => Iff.rfl) scores
  refine ((List.perm_insertionSort descending scores).trans hperm.symm).eq_of_pairwise ?_ hsorted
    (hstrict.imp fun h => h.le)
  intro p q hp hq hpq hqp
  have hkeys : (sorted.map Prod.snd).Nodup :=
    List.pairwise_map.mpr (hstrict.imp fun h => (ne_of_lt h).symm)
  have hsorted : p ∈ sorted := hperm.mem_iff.mpr ((List.mem_insertionSort _).mp hp)
  exact List.inj_on_of_nodup_map hkeys hsorted hq (le_antisymm hqp hpq)

theorem map_fst_shift : (shift e scores).map Prod.fst = scores.map Prod.fst := by
  rw [shift, List.map_map]
  rfl

/-- Where all margins reach the threshold, errors below half of it change nothing. -/
theorem ranking_shift (ht : 0 ≤ t) (hstable : rankIsStable t scores = true)
    (he : ∀ v, |e v| < t / 2) : ranking (shift e scores) = ranking scores := by
  have hmargins := pairwise_of_margins ht (rankIsStable_iff.mp hstable)
  have hperm : (shift e (scores.insertionSort descending)).Perm (shift e scores) :=
    (List.perm_insertionSort descending scores).map _
  have hstrict : (shift e (scores.insertionSort descending)).Pairwise fun p q => q.2 < p.2 := by
    refine List.pairwise_map.mpr (hmargins.imp fun {p q} h => ?_)
    have hp := (abs_lt.mp (he p.1)).1
    have hq := (abs_lt.mp (he q.1)).2
    change q.2 + e q.1 < p.2 + e p.1
    linarith
  rw [ranking, sorted_eq_of_strict hperm hstrict, map_fst_shift, ranking]

/-- The errors that bring two scores past each other. -/
def towards (p q : VendorId × ℚ) (d : ℚ) (v : VendorId) : ℚ :=
  if v = p.1 then -d else if v = q.1 then d else 0

theorem abs_towards_lt {d : ℚ} (hd : 0 < d) (hdt : d < t / 2) (v : VendorId) :
    |towards p q d v| < t / 2 := by
  rw [towards]
  split_ifs
  · rwa [abs_neg, abs_of_pos hd]
  · rwa [abs_of_pos hd]
  · rw [abs_zero]
    exact hd.trans hdt

theorem mem_shift_of_label (hids : (scores.map Prod.fst).Nodup) (hp : p ∈ scores)
    (hq : q ∈ shift e scores) (hid : q.1 = p.1) : q.2 = p.2 + e p.1 := by
  obtain ⟨r, hr, rfl⟩ := List.mem_map.mp hq
  rw [List.inj_on_of_nodup_map hids hr hp hid]

/-- Two neighbours whose margin is below the threshold change places under some errors below half
of it. -/
theorem ranking_shift_ne (hids : (scores.map Prod.fst).Nodup) {pre post : List (VendorId × ℚ)}
    (hsplit : scores.insertionSort descending = pre ++ p :: q :: post) (hm : p.2 - q.2 < t) :
    ∃ e : VendorId → ℚ, (∀ v, |e v| < t / 2) ∧ ranking (shift e scores) ≠ ranking scores := by
  have hsorted : (scores.insertionSort descending).Pairwise descending :=
    Ranking.pairwise_key (fun _ _ => Iff.rfl) scores
  have hmem : ∀ r ∈ pre ++ p :: q :: post, r ∈ scores := fun r hr =>
    (List.mem_insertionSort _).mp (hsplit ▸ hr)
  have hnodup : ((scores.insertionSort descending).map Prod.fst).Nodup :=
    ((List.perm_insertionSort descending scores).map _).nodup_iff.mpr hids
  have hpq : q.2 ≤ p.2 := by
    rw [hsplit, List.pairwise_append, List.pairwise_cons] at hsorted
    exact hsorted.2.1.1 q List.mem_cons_self
  have hne : q.1 ≠ p.1 := by
    rw [hsplit, List.map_append, List.map_cons, List.map_cons, List.nodup_append,
      List.nodup_cons] at hnodup
    exact fun h => hnodup.2.1.1 (h ▸ List.mem_cons_self)
  refine ⟨towards p q ((p.2 - q.2 + t) / 4),
    abs_towards_lt (by linarith) (by linarith), fun hsame => ?_⟩
  rw [ranking, ranking, hsplit, List.map_append, List.map_cons, List.map_cons] at hsame
  obtain ⟨pre', tail, hsplit', -, htail⟩ := List.map_eq_append_iff.mp hsame
  obtain ⟨p', tail', rfl, hp', htail'⟩ := List.map_eq_cons_iff.mp htail
  obtain ⟨q', post', rfl, hq', -⟩ := List.map_eq_cons_iff.mp htail'
  have hmem' : ∀ r ∈ pre' ++ p' :: q' :: post', r ∈ shift _ scores := fun r hr =>
    (List.mem_insertionSort _).mp (hsplit' ▸ hr)
  have hsorted' : (pre' ++ p' :: q' :: post').Pairwise descending := by
    rw [← hsplit']
    exact Ranking.pairwise_key (fun _ _ => Iff.rfl) _
  rw [List.pairwise_append, List.pairwise_cons] at hsorted'
  have horder : q'.2 ≤ p'.2 := hsorted'.2.1.1 q' List.mem_cons_self
  rw [mem_shift_of_label hids (hmem p (by simp)) (hmem' p' (by simp)) hp',
    mem_shift_of_label hids (hmem q (by simp)) (hmem' q' (by simp)) hq', towards, if_pos rfl,
    towards, if_neg hne, if_pos rfl] at horder
  linarith

/-- The stability flag is exact: it is set just when no errors below half of the threshold in the
scores can change the ranking. -/
theorem rank_stable_iff_robust {t : ℚ} (ht : 0 < t) {scores : List (VendorId × ℚ)}
    (hids : (scores.map Prod.fst).Nodup) : rankIsStable t scores = true ↔
      ∀ e : VendorId → ℚ, (∀ v, |e v| < t / 2) → ranking (shift e scores) = ranking scores := by
  refine ⟨fun hstable e he => ranking_shift ht.le hstable he, fun hrobust => ?_⟩
  refine rankIsStable_iff.mpr (List.isChain_iff_forall_rel_of_append_cons_cons.mpr ?_)
  intro p q pre post hsplit
  by_contra hm
  obtain ⟨e, he, hne⟩ := ranking_shift_ne hids hsplit (not_le.mp hm)
  exact hne (hrobust e he)

theorem clear_margin_robust : rankIsStable (1 / 20) [("alpha", 7), ("beta", 9)] = true ∧
    ∀ e : VendorId → ℚ, (∀ v, |e v| < (1 / 20 : ℚ) / 2) →
      ranking (shift e [("alpha", 7), ("beta", 9)]) = ranking [("alpha", 7), ("beta", 9)] := by
  have hstable : rankIsStable (1 / 20) [("alpha", 7), ("beta", 9)] = true := by decide +kernel
  exact ⟨hstable, (rank_stable_iff_robust (by norm_num) (by decide)).mp hstable⟩

end RfpPlatform.RankStability
