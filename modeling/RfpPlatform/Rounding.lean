import RfpPlatform.PyText
import Mathlib.Algebra.Order.BigOperators.Group.List
import Mathlib.Algebra.Order.Floor.Ring
import Mathlib.Data.Rat.Cast.Order
import Mathlib.Tactic.FieldSimp
import Mathlib.Tactic.Linarith
import Mathlib.Tactic.NormNum
import Mathlib.Tactic.Positivity
import Mathlib.Tactic.Ring

namespace RfpPlatform.PyText

section Integers

variable {q : ℚ} {n : ℤ}

theorem roundHalfEven_bounds : (roundHalfEven q : ℚ) - 1 / 2 ≤ q ∧ q ≤ roundHalfEven q + 1 / 2 := by
  have hlo := Int.floor_le q
  have hhi := Int.lt_floor_add_one q
  unfold roundHalfEven
  dsimp only
  split_ifs <;> push_cast <;> constructor <;> linarith

theorem even_of_tie (h : q = roundHalfEven q + 1 / 2 ∨ q = roundHalfEven q - 1 / 2) :
    roundHalfEven q % 2 = 0 := by
  have hlo := Int.floor_le q
  have hhi := Int.lt_floor_add_one q
  revert h
  unfold roundHalfEven
  dsimp only
  split_ifs <;> push_cast <;> intro h <;> rcases h with h | h <;> first | omega | linarith

theorem le_roundHalfEven (h : (n : ℚ) ≤ q) : n ≤ roundHalfEven q := by
  have hb := (@roundHalfEven_bounds q).2
  by_contra hlt
  have hstep : (roundHalfEven q : ℚ) + 1 ≤ n := by exact_mod_cast not_le.mp hlt
  linarith

theorem roundHalfEven_le (h : q ≤ n) : roundHalfEven q ≤ n := by
  have hb := (@roundHalfEven_bounds q).1
  by_contra hlt
  have hstep : (n : ℚ) + 1 ≤ roundHalfEven q := by exact_mod_cast not_le.mp hlt
  linarith

/-- Ties go to the even neighbour. -/
theorem roundHalfEven_le_even (hn : n % 2 = 0) : roundHalfEven q ≤ n ↔ q ≤ n + 1 / 2 := by
  obtain ⟨hlo, hhi⟩ := @roundHalfEven_bounds q
  constructor
  · intro h
    have hcast : (roundHalfEven q : ℚ) ≤ n := by exact_mod_cast h
    linarith
  · intro h
    by_contra hlt
    have hstep : (n : ℚ) + 1 ≤ roundHalfEven q := by exact_mod_cast not_le.mp hlt
    have htie : q = roundHalfEven q - 1 / 2 := by linarith
    have hnext : roundHalfEven q = n + 1 := by
      have : (roundHalfEven q : ℚ) = n + 1 := by linarith
      exact_mod_cast this
    have heven := even_of_tie (Or.inr htie)
    omega

theorem le_roundHalfEven_even (hn : n % 2 = 0) : n ≤ roundHalfEven q ↔ n - 1 / 2 ≤ q := by
  obtain ⟨hlo, hhi⟩ := @roundHalfEven_bounds q
  constructor
  · intro h
    have hcast : (n : ℚ) ≤ roundHalfEven q := by exact_mod_cast h
    linarith
  · intro h
    by_contra hlt
    have hstep : (roundHalfEven q : ℚ) + 1 ≤ n := by exact_mod_cast not_le.mp hlt
    have htie : q = roundHalfEven q + 1 / 2 := by linarith
    have hnext : n = roundHalfEven q + 1 := by
      have : (n : ℚ) = roundHalfEven q + 1 := by linarith
      exact_mod_cast this
    have heven := even_of_tie (Or.inl htie)
    omega

theorem roundHalfEven_mono {p : ℚ} (h : p ≤ q) : roundHalfEven p ≤ roundHalfEven q := by
  by_contra hlt
  have hstep : (roundHalfEven q : ℚ) + 1 ≤ roundHalfEven p := by exact_mod_cast not_le.mp hlt
  have hlo := (@roundHalfEven_bounds p).1
  have hhi := (@roundHalfEven_bounds q).2
  obtain rfl : p = q := by linarith
  exact hlt le_rfl

end Integers

section Places

variable {q : ℚ} {k : Nat}

theorem round_bounds : round q k - 1 / (2 * 10 ^ k) ≤ q ∧ q ≤ round q k + 1 / (2 * 10 ^ k) := by
  obtain ⟨hlo, hhi⟩ := @roundHalfEven_bounds (q * 10 ^ k)
  have hpow : (0 : ℚ) < 10 ^ k := by positivity
  unfold round
  constructor
  · rw [← mul_le_mul_iff_left₀ hpow]
    calc _ = (roundHalfEven (q * 10 ^ k) : ℚ) - 1 / 2 := by field_simp
      _ ≤ q * 10 ^ k := hlo
  · rw [← mul_le_mul_iff_left₀ hpow]
    calc q * 10 ^ k ≤ roundHalfEven (q * 10 ^ k) + 1 / 2 := hhi
      _ = _ := by field_simp

theorem abs_round_sub_le : |round q k - q| ≤ 1 / (2 * 10 ^ k) := by
  obtain ⟨hlo, hhi⟩ := @round_bounds q k
  rw [abs_le]
  constructor <;> linarith

theorem le_round {n : ℤ} (h : (n : ℚ) / 10 ^ k ≤ q) : (n : ℚ) / 10 ^ k ≤ round q k := by
  have hpow : (0 : ℚ) < 10 ^ k := by positivity
  have hn := le_roundHalfEven ((div_le_iff₀ hpow).mp h)
  unfold round
  gcongr

theorem round_le {n : ℤ} (h : q ≤ (n : ℚ) / 10 ^ k) : round q k ≤ (n : ℚ) / 10 ^ k := by
  have hpow : (0 : ℚ) < 10 ^ k := by positivity
  have hn := roundHalfEven_le ((le_div_iff₀ hpow).mp h)
  unfold round
  gcongr

theorem round_le_even {n : ℤ} (hn : n % 2 = 0) :
    round q k ≤ (n : ℚ) / 10 ^ k ↔ q ≤ (n + 1 / 2) / 10 ^ k := by
  have hpow : (0 : ℚ) < 10 ^ k := by positivity
  unfold round
  rw [div_le_div_iff_of_pos_right hpow, Int.cast_le, roundHalfEven_le_even hn, le_div_iff₀ hpow]

theorem le_round_even {n : ℤ} (hn : n % 2 = 0) :
    (n : ℚ) / 10 ^ k ≤ round q k ↔ (n - 1 / 2) / 10 ^ k ≤ q := by
  have hpow : (0 : ℚ) < 10 ^ k := by positivity
  unfold round
  rw [div_le_div_iff_of_pos_right hpow, Int.cast_le, le_roundHalfEven_even hn, div_le_iff₀ hpow]

theorem round_pos_iff : 0 < round q k ↔ 1 / (2 * 10 ^ k) < q := by
  have h := (@round_le_even q k 0 rfl).not
  rw [Int.cast_zero, zero_div, zero_add, not_le, not_le, div_div] at h
  exact h

theorem round_mono {p : ℚ} (h : p ≤ q) : round p k ≤ round q k := by
  have hpow : (0 : ℚ) < 10 ^ k := by positivity
  have hn := roundHalfEven_mono (mul_le_mul_of_nonneg_right h hpow.le)
  unfold round
  gcongr

theorem round_nonneg (h : 0 ≤ q) : 0 ≤ round q k := by
  have hround := @le_round q k 0 (by simpa using h)
  simpa using hround

theorem round_round : round (round q k) k = round q k :=
  le_antisymm (@round_le (round q k) k (roundHalfEven (q * 10 ^ k)) le_rfl)
    (@le_round (round q k) k (roundHalfEven (q * 10 ^ k)) le_rfl)

/-- The rounding errors of a list add up to at most half of a last place each. -/
theorem abs_sum_round_sub_le (xs : List ℚ) :
    |(xs.map (fun x => round x k - x)).sum| ≤ xs.length * (1 / (2 * 10 ^ k)) := by
  induction xs with
  | nil => simp
  | cons x xs ih =>
      rw [List.map_cons, List.sum_cons, List.length_cons]
      push_cast
      calc |round x k - x + (xs.map (fun x => round x k - x)).sum|
          ≤ |round x k - x| + |(xs.map (fun x => round x k - x)).sum| := abs_add_le _ _
        _ ≤ 1 / (2 * 10 ^ k) + xs.length * (1 / (2 * 10 ^ k)) :=
            add_le_add abs_round_sub_le ih
        _ = (xs.length + 1) * (1 / (2 * 10 ^ k)) := by ring

theorem sum_map_round (xs : List ℚ) :
    (xs.map (fun x => round x k)).sum = (xs.map (fun x => round x k - x)).sum + xs.sum := by
  induction xs with
  | nil => simp
  | cons x xs ih =>
      simp only [List.map_cons, List.sum_cons, ih]
      ring

end Places

end RfpPlatform.PyText
