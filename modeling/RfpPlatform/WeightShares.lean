import RfpPlatform.CriteriaMerge
import RfpPlatform.Rounding
import Mathlib.Algebra.BigOperators.Ring.List

namespace RfpPlatform.WeightShares

open CriteriaMerge

section Balance

/-- The shares of the weights, even ones when the weights cancel. -/
def sharesOf (ws : List ℚ) : List ℚ :=
  if ws.sum = 0 then ws.map (fun _ => 1 / ws.length) else ws.map (fun w => w / ws.sum)

/-- Weights that sum to about one are kept and have to be in range. Otherwise their shares have to
round to weights in range, with rounding errors that add up to at most 0.01. -/
def Balanced (ws : List ℚ) : Prop :=
  if |ws.sum - 1| ≤ 1 / 100 then ∀ w ∈ ws, 0 < w ∧ w ≤ 1
  else (∀ s ∈ sharesOf ws, 1 / 2000 < s ∧ s ≤ 1 + 1 / 2000) ∧
    |((sharesOf ws).map (fun s => PyText.round s 3 - s)).sum| ≤ 1 / 100

end Balance

section Weights

variable {xs : List PyFloat} {q : ℚ}

theorem foldl_add_fin (ws : List ℚ) (a : ℚ) :
    (ws.map PyFloat.fin).foldl PyFloat.add (.fin a) = .fin (a + ws.sum) := by
  induction ws generalizing a with
  | nil => simp
  | cons w ws ih =>
      rw [List.map_cons, List.foldl_cons, List.sum_cons, ← add_assoc]
      exact ih (a + w)

theorem sum_fin (ws : List ℚ) : PyFloat.sum (ws.map PyFloat.fin) = .fin ws.sum := by
  have h := foldl_add_fin ws 0
  rwa [zero_add] at h

/-- The weights that `normaliseWeights` gives, over the weights alone. -/
def shares (xs : List PyFloat) : List PyFloat :=
  let total := PyFloat.sum xs
  if total.isZero then xs.map (fun _ => (PyFloat.fin (1 / xs.length)).round 3)
  else if isOff total then xs.map (fun x => (divide x total).round 3)
  else xs

theorem weight_normaliseWeights (criteria : List CriterionDict) :
    (normaliseWeights criteria).map CriterionDict.weight = shares (criteria.map CriterionDict.weight) := by
  simp only [normaliseWeights, shares, List.length_map]
  split
  · simp [List.map_map, Function.comp_def]
  · split
    · simp [List.map_map, Function.comp_def]
    · rfl

theorem isOff_fin : isOff (.fin q) = true ↔ ¬ |q - 1| ≤ 1 / 100 := by
  rw [isOff, decide_eq_true_eq, not_le]

/-- The shares of finite weights. -/
theorem shares_fin (ws : List ℚ) : shares (ws.map PyFloat.fin) =
    (if |ws.sum - 1| ≤ 1 / 100 then ws
      else (sharesOf ws).map (fun s => PyText.round s 3)).map PyFloat.fin := by
  simp only [shares, sum_fin, PyFloat.isZero, PyFloat.fin.injEq, decide_eq_true_eq, isOff_fin,
    sharesOf, List.length_map]
  by_cases hzero : ws.sum = 0
  · rw [if_pos hzero, hzero, if_neg (by norm_num), if_pos rfl]
    simp [List.map_map, Function.comp_def, PyFloat.round]
  · rw [if_neg hzero]
    by_cases hnear : |ws.sum - 1| ≤ 1 / 100
    · rw [if_neg (not_not.mpr hnear), if_pos hnear]
    · rw [if_pos hnear, if_neg hnear, if_neg hzero]
      simp [List.map_map, Function.comp_def, PyFloat.round, divide]

theorem sum_sharesOf {ws : List ℚ} (hws : ws ≠ []) : (sharesOf ws).sum = 1 := by
  unfold sharesOf
  split
  · have hlength : (ws.length : ℚ) ≠ 0 := by simpa using hws
    rw [List.map_const', List.sum_replicate, nsmul_eq_mul]
    field_simp
  · rename_i hsum
    simp only [div_eq_mul_inv, List.sum_map_mul_right, List.map_id']
    exact mul_inv_cancel₀ hsum

theorem abs_sub_one_le {q : ℚ} : |q - 1| ≤ 1 / 100 ↔ 99 / 100 ≤ q ∧ q ≤ 101 / 100 := by
  rw [abs_le]
  constructor <;> rintro ⟨hlo, hhi⟩ <;> constructor <;> linarith

theorem round_in_range {s : ℚ} :
    (0 < PyText.round s 3 ∧ PyText.round s 3 ≤ 1) ↔ 1 / 2000 < s ∧ s ≤ 1 + 1 / 2000 := by
  have hle := @PyText.round_le_even s 3 1000 rfl
  rw [PyText.round_pos_iff]
  norm_num at hle ⊢
  exact fun _ => hle

/-- The shares are weights in range that sum to about one exactly when the weights are balanced. -/
theorem shares_valid_iff {ws : List ℚ} (hws : ws ≠ []) {ss : List ℚ}
    (hshares : shares (ws.map PyFloat.fin) = ss.map PyFloat.fin) :
    ((∀ s ∈ ss, 0 < s ∧ s ≤ 1) ∧ 99 / 100 ≤ ss.sum ∧ ss.sum ≤ 101 / 100) ↔ Balanced ws := by
  rw [shares_fin, List.map_inj_right (fun _ _ h => PyFloat.fin.inj h)] at hshares
  subst hshares
  rw [← abs_sub_one_le, Balanced]
  split
  · rename_i hnear
    exact and_iff_left hnear
  · rw [PyText.sum_map_round, sum_sharesOf hws, add_sub_cancel_right]
    simp only [List.forall_mem_map, round_in_range]

end Weights

end RfpPlatform.WeightShares
