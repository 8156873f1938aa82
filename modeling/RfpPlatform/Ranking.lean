import Mathlib.Data.List.Sort
import Mathlib.Data.List.Nodup

namespace RfpPlatform.Ranking

universe u v

section Places

variable {β : Type u} {xs : List β} {p : β → Bool}

/-- In a list that has all elements of a kind in front, they are as many as the first place that
holds another. -/
theorem holds_iff_lt_countP (h : xs.Pairwise (fun x y => p y → p x)) {i : Nat}
    (hi : i < xs.length) : p xs[i] ↔ i < xs.countP p := by
  induction xs generalizing i with
  | nil => cases hi
  | cons x xs ih =>
      rw [List.pairwise_cons] at h
      by_cases hx : p x
      · rw [List.countP_cons_of_pos hx]
        cases i with
        | zero => simp [hx]
        | succ i =>
            rw [List.getElem_cons_succ, ih h.2, Nat.succ_lt_succ_iff]
      · have hnone : xs.countP p = 0 :=
          List.countP_eq_zero.mpr fun y hy hpy => hx (h.1 y hy hpy)
        rw [List.countP_cons_of_neg hx, hnone]
        refine iff_of_false ?_ (Nat.not_lt_zero i)
        cases i with
        | zero => exact hx
        | succ i => exact fun hpi => hx (h.1 _ (List.getElem_mem _) hpi)

end Places

section Descending

variable {β : Type u} {α : Type v} [LinearOrder α] {key : β → α} {r : β → β → Prop}
  [DecidableRel r] {xs ys : List β} {a : α} {i : Nat}

theorem pairwise_key (hr : ∀ x y, r x y ↔ key y ≤ key x) (xs : List β) :
    (xs.insertionSort r).Pairwise (fun x y => key y ≤ key x) := by
  have htotal : Std.Total r := ⟨fun x y => by simpa only [hr] using le_total (key y) (key x)⟩
  have htrans : IsTrans β r := ⟨fun x y z hxy hyz =>
    (hr x z).mpr (((hr y z).mp hyz).trans ((hr x y).mp hxy))⟩
  exact (List.pairwise_insertionSort r xs).imp fun {x y} hxy => (hr x y).mp hxy

theorem pairwise_ascending (xs : List β) :
    (xs.insertionSort (fun x y => key x ≤ key y)).Pairwise (fun x y => key x ≤ key y) :=
  @pairwise_key β αᵒᵈ _ (fun x => OrderDual.toDual (key x)) _ _ (fun _ _ => Iff.rfl) xs

/-- The keys of a sorted list do not depend on the order before it was sorted. -/
theorem map_key_eq_of_perm (hr : ∀ x y, r x y ↔ key y ≤ key x) (h : xs.Perm ys) :
    (xs.insertionSort r).map key = (ys.insertionSort r).map key := by
  have hperm : ((xs.insertionSort r).map key).Perm ((ys.insertionSort r).map key) :=
    (((List.perm_insertionSort r xs).trans h).trans (List.perm_insertionSort r ys).symm).map key
  exact hperm.eq_of_pairwise (fun a b _ _ hba hab => le_antisymm hab hba)
    (List.pairwise_map.mpr (pairwise_key hr xs)) (List.pairwise_map.mpr (pairwise_key hr ys))

theorem le_key_iff (hr : ∀ x y, r x y ↔ key y ≤ key x) (hi : i < (xs.insertionSort r).length) :
    a ≤ key (xs.insertionSort r)[i] ↔ i < xs.countP (fun x => a ≤ key x) := by
  have hcount := (List.perm_insertionSort r xs).countP_eq (fun x => decide (a ≤ key x))
  rw [← hcount, ← holds_iff_lt_countP _ hi, decide_eq_true_iff]
  refine (pairwise_key hr xs).imp fun {x y} hyx hay => ?_
  exact decide_eq_true ((of_decide_eq_true hay).trans hyx)

theorem lt_key_iff (hr : ∀ x y, r x y ↔ key y ≤ key x) (hi : i < (xs.insertionSort r).length) :
    a < key (xs.insertionSort r)[i] ↔ i < xs.countP (fun x => a < key x) := by
  have hcount := (List.perm_insertionSort r xs).countP_eq (fun x => decide (a < key x))
  rw [← hcount, ← holds_iff_lt_countP _ hi, decide_eq_true_iff]
  refine (pairwise_key hr xs).imp fun {x y} hyx hay => ?_
  exact decide_eq_true ((of_decide_eq_true hay).trans_le hyx)

/-- The elements of a key take the places behind those of greater keys. -/
theorem key_eq_iff (hr : ∀ x y, r x y ↔ key y ≤ key x) (hi : i < (xs.insertionSort r).length) :
    key (xs.insertionSort r)[i] = a ↔
      xs.countP (fun x => a < key x) ≤ i ∧ i < xs.countP (fun x => a ≤ key x) := by
  rw [← le_key_iff hr hi, ← not_lt, ← lt_key_iff hr hi, not_lt, le_antisymm_iff]

end Descending

section Labels

variable {κ : Type u} {α : Type v} {xs : List (κ × α)} {v : κ} {c c' : α}

theorem eq_of_label (h : (xs.map Prod.fst).Nodup) (hmem : (v, c) ∈ xs) {p : κ × α} (hp : p ∈ xs)
    (hlabel : p.1 = v) : p = (v, c) :=
  List.inj_on_of_nodup_map h hp hmem hlabel

variable [DecidableEq κ]

theorem getElem_idxOf_fst (h : v ∈ xs.map Prod.fst) :
    ∃ hi : (xs.map Prod.fst).idxOf v < xs.length, xs[(xs.map Prod.fst).idxOf v].1 = v := by
  have hi : (xs.map Prod.fst).idxOf v < (xs.map Prod.fst).length := List.idxOf_lt_length_of_mem h
  refine ⟨by simpa using hi, ?_⟩
  have hget := List.getElem_idxOf hi
  rwa [List.getElem_map] at hget

/-- The element of a label with another key. -/
def raise (v : κ) (c' : α) (p : κ × α) : κ × α := if p.1 = v then (v, c') else p

theorem map_fst_raise (xs : List (κ × α)) : (xs.map (raise v c')).map Prod.fst = xs.map Prod.fst := by
  rw [List.map_map]
  refine List.map_congr_left fun p _ => ?_
  rw [Function.comp_apply, raise]
  split
  · rename_i hp
    exact hp.symm
  · rfl

end Labels

section Raise

variable {κ : Type u} {α : Type v} [DecidableEq κ] [LinearOrder α] {xs : List (κ × α)} {v : κ}
  {c c' : α} {r : κ × α → κ × α → Prop} [DecidableRel r]

/-- All but the raised element that reach its key had a greater one than it had. -/
theorem countP_raise_le (h : (xs.map Prod.fst).Nodup) (hmem : (v, c) ∈ xs) (hlt : c < c') :
    (xs.map (raise v c')).countP (fun p => c' ≤ p.2) ≤ xs.countP (fun p => c < p.2) + 1 := by
  obtain ⟨before, after, rfl⟩ := List.append_of_mem hmem
  have hothers : ∀ ys : List (κ × α), (∀ p ∈ ys, p.1 ≠ v) →
      (ys.map (raise v c')).countP (fun p => c' ≤ p.2) ≤ ys.countP (fun p => c < p.2) := by
    intro ys hys
    rw [List.countP_map]
    refine List.countP_mono_left fun p hp hle => ?_
    rw [Function.comp_apply, raise, if_neg (hys p hp), decide_eq_true_iff] at hle
    exact decide_eq_true (hlt.trans_le hle)
  rw [List.map_append, List.map_cons, List.nodup_append, List.nodup_cons] at h
  obtain ⟨_, ⟨hafter, _⟩, hbefore⟩ := h
  have hfirst := hothers before fun p hp hv =>
    hbefore p.1 (List.mem_map_of_mem hp) v List.mem_cons_self hv
  have hrest := hothers after fun p hp hv => hafter (List.mem_map.mpr ⟨p, hp, hv⟩)
  rw [List.map_append, List.map_cons, List.countP_append, List.countP_append, List.countP_cons,
    List.countP_cons]
  split <;> split <;> omega

/-- An element whose key is raised does not fall behind its place. -/
theorem idxOf_raise_le (hr : ∀ p q, r p q ↔ q.2 ≤ p.2) (h : (xs.map Prod.fst).Nodup)
    (hmem : (v, c) ∈ xs) (hle : c ≤ c') :
    (((xs.map (raise v c')).insertionSort r).map Prod.fst).idxOf v ≤
      ((xs.insertionSort r).map Prod.fst).idxOf v := by
  rcases hle.eq_or_lt with rfl | hlt
  · have hsame : xs.map (raise v c) = xs := by
      conv_rhs => rw [← List.map_id xs]
      refine List.map_congr_left fun p hp => ?_
      rw [raise]
      split
      · rename_i hlabel
        exact (eq_of_label h hmem hp hlabel).symm
      · rfl
    rw [hsame]
  · have hv : v ∈ (xs.insertionSort r).map Prod.fst :=
      List.mem_map_of_mem ((List.mem_insertionSort r).mpr hmem)
    have hraised : (v, c') ∈ xs.map (raise v c') :=
      List.mem_map.mpr ⟨(v, c), hmem, if_pos rfl⟩
    have hv' : v ∈ ((xs.map (raise v c')).insertionSort r).map Prod.fst :=
      List.mem_map_of_mem ((List.mem_insertionSort r).mpr hraised)
    obtain ⟨hi, hlabel⟩ := getElem_idxOf_fst hv
    obtain ⟨hj, hlabel'⟩ := getElem_idxOf_fst hv'
    have hkey := eq_of_label h hmem ((List.mem_insertionSort r).mp (List.getElem_mem hi)) hlabel
    have hkey' := eq_of_label ((map_fst_raise xs).symm ▸ h) hraised
      ((List.mem_insertionSort r).mp (List.getElem_mem hj)) hlabel'
    have hbehind := ((key_eq_iff hr hi).mp (congrArg Prod.snd hkey)).1
    have hwithin := ((key_eq_iff hr hj).mp (congrArg Prod.snd hkey')).2
    have hcount := countP_raise_le h hmem hlt
    exact (Nat.lt_succ_iff.mp (hwithin.trans_le hcount)).trans hbehind

end Raise

section Order

variable {κ : Type u} [DecidableEq κ] {ranking xs : List κ}

theorem pairwise_idxOf (h : ranking.Nodup) :
    ranking.Pairwise (fun u v => ranking.idxOf u ≤ ranking.idxOf v) := by
  rw [List.pairwise_iff_getElem]
  intro i j hi hj hij
  rw [h.idxOf_getElem i hi, h.idxOf_getElem j hj]
  exact hij.le

/-- What is sorted by its place in a ranking is that part of the ranking. -/
theorem eq_filter_of_pairwise (hranking : ranking.Nodup) (hxs : xs.Nodup)
    (hmem : ∀ v ∈ xs, v ∈ ranking)
    (hsorted : xs.Pairwise (fun u v => ranking.idxOf u ≤ ranking.idxOf v)) :
    xs = ranking.filter (· ∈ xs) := by
  have hperm : xs.Perm (ranking.filter (· ∈ xs)) := by
    rw [List.perm_ext_iff_of_nodup hxs (hranking.filter _)]
    intro v
    rw [List.mem_filter, decide_eq_true_iff]
    exact ⟨fun hv => ⟨hmem v hv, hv⟩, fun hv => hv.2⟩
  exact hperm.eq_of_pairwise
    (fun u v hu _ huv hvu => (List.idxOf_inj (hmem u hu)).mp (le_antisymm huv hvu)) hsorted
    ((pairwise_idxOf hranking).sublist List.filter_sublist)

end Order

end RfpPlatform.Ranking
