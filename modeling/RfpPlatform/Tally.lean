import Mathlib.Order.Lattice
import Mathlib.Order.Nat
import RfpPlatform.KeyedTable

namespace RfpPlatform.Tally

variable {α : Type*}

section FirstBest

variable (better : α → α → Bool)

/-- The element that a scan keeps: a later one takes the place only where it is better. -/
def firstBest (best : α) : List α → α
  | [] => best
  | x :: xs => firstBest (if better x best then x else best) xs

theorem firstBest_mem (best : α) (xs : List α) : firstBest better best xs ∈ best :: xs := by
  induction xs generalizing best with
  | nil => exact List.mem_singleton_self best
  | cons x xs ih =>
      have h := ih (if better x best then x else best)
      rw [firstBest]
      rcases List.mem_cons.mp h with h | h
      · rw [h]
        by_cases hx : better x best = true
        · rw [if_pos hx]
          exact List.mem_cons_of_mem best List.mem_cons_self
        · rw [if_neg hx]
          exact List.mem_cons_self
      · exact List.mem_cons_of_mem best (List.mem_cons_of_mem x h)

variable {better}

/-- Where "better" compares a key, the kept element has the largest key. -/
theorem le_firstBest {κ : Type*} [LinearOrder κ] {key : α → κ}
    (hbetter : ∀ x y, better x y = true ↔ key y < key x) (best : α) (xs : List α) :
    ∀ y ∈ best :: xs, key y ≤ key (firstBest better best xs) := by
  induction xs generalizing best with
  | nil =>
      intro y hy
      rw [List.mem_singleton.mp hy]
      exact le_rfl
  | cons x xs ih =>
      have hnext := ih (if better x best then x else best)
      have hkept : key best ≤ key (if better x best then x else best) ∧
          key x ≤ key (if better x best then x else best) := by
        by_cases hx : better x best = true
        · rw [if_pos hx]
          exact ⟨le_of_lt ((hbetter x best).mp hx), le_rfl⟩
        · rw [if_neg hx]
          exact ⟨le_rfl, not_lt.mp (fun hlt => hx ((hbetter x best).mpr hlt))⟩
      have hhead := hnext _ List.mem_cons_self
      intro y hy
      rcases List.mem_cons.mp hy with rfl | hy
      · exact le_trans hkept.1 hhead
      · rcases List.mem_cons.mp hy with rfl | hy
        · exact le_trans hkept.2 hhead
        · exact hnext y (List.mem_cons_of_mem _ hy)

end FirstBest

variable [DecidableEq α]

/-- How often each value occurs, in the order of first occurrence. -/
def tally (xs : List α) : Dict α Nat :=
  xs.foldl (fun t x => t.set x ((t.get? x).getD 0 + 1)) ∅

theorem getD_tally (xs : List α) (a : α) : ((tally xs).get? a).getD 0 = xs.count a := by
  have hfold : ∀ (t : Dict α Nat), ((xs.foldl (fun t x => t.set x ((t.get? x).getD 0 + 1)) t).get?
      a).getD 0 = (t.get? a).getD 0 + xs.count a := by
    induction xs with
    | nil => exact fun t => rfl
    | cons x xs ih =>
        intro t
        rw [List.foldl_cons, ih, List.count_cons]
        by_cases hx : x = a
        · subst hx
          simp only [Dict.get?_set_self, Option.getD_some, beq_self_eq_true, if_true]
          omega
        · rw [Dict.get?_set_ne (Ne.symm hx), if_neg (by simpa using hx)]
          omega
  have h := hfold ∅
  rwa [Dict.get?_empty, Option.getD_none, Nat.zero_add] at h

theorem mem_keys_tally (xs : List α) (a : α) : a ∈ (tally xs).keys ↔ a ∈ xs := by
  have hfold : ∀ (t : Dict α Nat), a ∈ (xs.foldl (fun t x => t.set x ((t.get? x).getD 0 + 1))
      t).keys ↔ a ∈ t.keys ∨ a ∈ xs := by
    induction xs with
    | nil => simp
    | cons x xs ih =>
        intro t
        rw [List.foldl_cons, ih, Dict.mem_keys_set, List.mem_cons, or_assoc, or_left_comm]
  rw [tally, hfold]
  exact ⟨fun h => h.resolve_left List.not_mem_nil, Or.inr⟩

theorem mem_tally {xs : List α} {a : α} {n : Nat} (h : (a, n) ∈ (tally xs).rows) :
    n = xs.count a := by
  have hget : (tally xs).get? a = some n := Dict.get?_eq_some.mpr h
  have hcount := getD_tally xs a
  rwa [hget] at hcount

/-- The first value with the most votes, and its votes. -/
def leader (xs : List α) : Option (α × Nat) :=
  match (tally xs).rows with
  | [] => none
  | row :: rows => some (firstBest (fun p q => decide (q.2 < p.2)) row rows)

theorem leader_spec {xs : List α} {a : α} {n : Nat} (h : leader xs = some (a, n)) :
    n = xs.count a ∧ ∀ b, xs.count b ≤ n := by
  cases hrows : (tally xs).rows with
  | nil => simp [leader, hrows] at h
  | cons row rows =>
      simp only [leader, hrows, Option.some.injEq] at h
      have hmem := firstBest_mem (fun p q : α × Nat => decide (q.2 < p.2)) row rows
      have hle : ∀ p ∈ row :: rows,
          p.2 ≤ (firstBest (fun p q : α × Nat => decide (q.2 < p.2)) row rows).2 :=
        le_firstBest (fun p q => decide_eq_true_iff) row rows
      rw [h, ← hrows] at hmem hle
      refine ⟨mem_tally hmem, fun b => ?_⟩
      by_cases hb : b ∈ xs
      · obtain ⟨m, hm⟩ := Dict.mem_keys.mp ((mem_keys_tally xs b).mpr hb)
        have hrow := Dict.get?_eq_some.mp hm
        rw [← mem_tally hrow]
        exact hle (b, m) hrow
      · rw [List.count_eq_zero_of_not_mem hb]
        exact Nat.zero_le n

theorem exists_leader {xs : List α} (h : xs ≠ []) : ∃ a n, leader xs = some (a, n) := by
  obtain ⟨x, ys, rfl⟩ := List.exists_cons_of_ne_nil h
  cases hrows : (tally (x :: ys)).rows with
  | nil =>
      have hx := (mem_keys_tally (x :: ys) x).mpr List.mem_cons_self
      rw [Dict.keys, hrows] at hx
      cases hx
  | cons row rows =>
      have h : leader (x :: ys) = some (firstBest (fun p q => decide (q.2 < p.2)) row rows) := by
        rw [leader, hrows]
      exact ⟨_, _, h⟩

theorem count_add_count_le {a b : α} (h : a ≠ b) (xs : List α) :
    xs.count a + xs.count b ≤ xs.length := by
  induction xs with
  | nil => simp
  | cons x xs ih =>
      rw [List.count_cons, List.count_cons, List.length_cons]
      by_cases ha : x = a
      · have hb : (x == b) = false := by simpa [ha] using h
        rw [hb]
        simp only [Bool.false_eq_true, if_false]
        split <;> omega
      · have ha' : (x == a) = false := by simpa using ha
        rw [ha']
        simp only [Bool.false_eq_true, if_false]
        split <;> omega

/-- Only one value can have more than half of the votes, and it leads. -/
theorem leader_majority {xs : List α} {a b : α} {n : Nat} (h : leader xs = some (b, n))
    (hmajority : xs.length < 2 * xs.count a) : b = a ∧ n = xs.count a := by
  obtain ⟨hn, hmax⟩ := leader_spec h
  by_cases hab : b = a
  · subst hab
    exact ⟨rfl, hn⟩
  · have hsum := count_add_count_le hab xs
    have ha := hmax a
    omega

end RfpPlatform.Tally
