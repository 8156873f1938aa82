import Mathlib.Data.List.Sort

namespace RfpPlatform.SortedScan

variable {α K : Type*} [LinearOrder K]

/-- A sort by a key, which leaves elements of one key in the order in which they were. -/
def sortBy (key : α → K) (xs : List α) : List α := xs.insertionSort (fun x y => key x ≤ key y)

variable {key : α → K} {p : α → Bool} {xs : List α} {x y : α}

theorem mem_sortBy : x ∈ sortBy key xs ↔ x ∈ xs := List.mem_insertionSort _

theorem sortBy_eq_nil : sortBy key xs = [] ↔ xs = [] := by
  rw [← List.length_eq_zero_iff, ← List.length_eq_zero_iff, sortBy, List.length_insertionSort]

theorem pairwise_sortBy (key : α → K) (xs : List α) :
    (sortBy key xs).Pairwise (fun x y => key x ≤ key y) :=
  List.pairwise_insertionSort (r := fun x y => key x ≤ key y) xs

/-- The first element of a sorted list that passes a test has the least key of those that do. -/
theorem find?_sortBy_least (h : (sortBy key xs).find? p = some x) :
    x ∈ xs ∧ p x = true ∧ ∀ y ∈ xs, p y = true → key x ≤ key y := by
  obtain ⟨hx, before, after, hsplit, hbefore⟩ := List.find?_eq_some_iff_append.mp h
  have hsorted := pairwise_sortBy key xs
  rw [hsplit] at hsorted
  refine ⟨mem_sortBy.mp (List.mem_of_find?_eq_some h), hx, fun y hy hpy => ?_⟩
  have hmem : y ∈ before ++ x :: after := hsplit ▸ mem_sortBy.mpr hy
  rcases List.mem_append.mp hmem with hy | hy
  · simpa [hpy] using hbefore y hy
  · rcases List.mem_cons.mp hy with rfl | hy
    · exact le_rfl
    · exact (List.pairwise_cons.mp (List.pairwise_append.mp hsorted).2.1).1 y hy

theorem find?_sortBy_eq_none : (sortBy key xs).find? p = none ↔ ∀ y ∈ xs, p y = false := by
  simp [List.find?_eq_none, mem_sortBy]

/-- The last element of a sorted list has the greatest key. -/
theorem getLast?_sortBy_greatest (h : (sortBy key xs).getLast? = some x) :
    x ∈ xs ∧ ∀ y ∈ xs, key y ≤ key x := by
  obtain ⟨init, hsplit⟩ := List.getLast?_eq_some_iff.mp h
  have hsorted := pairwise_sortBy key xs
  rw [hsplit] at hsorted
  refine ⟨mem_sortBy.mp (List.mem_of_getLast? h), fun y hy => ?_⟩
  have hmem : y ∈ init ++ [x] := hsplit ▸ mem_sortBy.mpr hy
  rcases List.mem_append.mp hmem with hy | hy
  · exact (List.pairwise_append.mp hsorted).2.2 y hy x (List.mem_singleton_self x)
  · exact le_of_eq (congrArg key (List.mem_singleton.mp hy))

theorem filter_key_sortBy (k : K) :
    (sortBy key xs).filter (fun y => decide (key y = k)) = xs.filter (fun y => decide (key y = k)) := by
  have hsame : (xs.filter (fun y => decide (key y = k))).Pairwise (fun x y => key x ≤ key y) := by
    refine List.pairwise_of_forall_mem_list fun x hx y hy => ?_
    have hkx : key x = k := by simpa using (List.mem_filter.mp hx).2
    have hky : key y = k := by simpa using (List.mem_filter.mp hy).2
    exact le_of_eq (hkx.trans hky.symm)
  have hsub := (List.sublist_insertionSort hsame List.filter_sublist).filter
    (fun y => decide (key y = k))
  rw [List.filter_filter] at hsub
  simp only [Bool.and_self] at hsub
  refine (hsub.eq_of_length ?_).symm
  exact ((List.perm_insertionSort (fun x y => key x ≤ key y) xs).filter _).length_eq.symm

/-- Of the elements of its key that pass, the one that is found comes first in the unsorted list. -/
theorem find?_sortBy_first (h : (sortBy key xs).find? p = some x)
    (hkey : ∀ y, key y = key x → p y = true) :
    xs.find? (fun y => decide (key y = key x)) = some x := by
  obtain ⟨_, before, after, hsplit, hbefore⟩ := List.find?_eq_some_iff_append.mp h
  have hnone : before.filter (fun y => decide (key y = key x)) = [] := by
    rw [List.filter_eq_nil_iff]
    intro y hy hyx
    simpa [hkey y (of_decide_eq_true hyx)] using hbefore y hy
  have hfilter : (sortBy key xs).filter (fun y => decide (key y = key x)) =
      xs.filter (fun y => decide (key y = key x)) := filter_key_sortBy (key x)
  rw [hsplit, List.filter_append, hnone, List.nil_append,
    List.filter_cons_of_pos (by simp)] at hfilter
  rw [← List.head?_filter, ← hfilter, List.head?_cons]

/-- In a list with the greatest keys first, an element that has its key alone stands behind those
with greater keys. -/
theorem getElem?_countP_lt (hsorted : xs.Pairwise fun x y => key y ≤ key x) (hx : x ∈ xs)
    (halone : ∀ y ∈ xs, key y = key x → y = x) :
    xs[xs.countP fun y => decide (key x < key y)]? = some x := by
  induction xs with
  | nil => cases hx
  | cons y xs ih =>
      obtain ⟨hle, hsorted⟩ := List.pairwise_cons.mp hsorted
      by_cases hlt : key x < key y
      · have hmem := (List.mem_cons.mp hx).resolve_left fun h => by simp [h] at hlt
        rw [List.countP_cons_of_pos (p := fun z => decide (key x < key z)) (decide_eq_true hlt),
          List.getElem?_cons_succ]
        exact ih hsorted hmem fun z hz => halone z (List.mem_cons_of_mem y hz)
      · have hnone : (y :: xs).countP (fun y => decide (key x < key y)) = 0 := by
          refine List.countP_eq_zero.mpr fun z hz => ?_
          rw [decide_eq_true_eq]
          rcases List.mem_cons.mp hz with rfl | hz
          · exact hlt
          · exact fun h => hlt (h.trans_le (hle z hz))
        have hhead : y = x := by
          rcases List.mem_cons.mp hx with rfl | hmem
          · rfl
          · exact halone y List.mem_cons_self (le_antisymm (not_lt.mp hlt) (hle x hmem))
        rw [hnone, hhead, List.getElem?_cons_zero]

end RfpPlatform.SortedScan
