import Mathlib.Data.List.Infix
import Mathlib.Data.List.Nodup

namespace RfpPlatform.KeyedLog

variable {α κ : Type*} [DecidableEq κ] (key : α → κ) {xs ys : List α} {x : α}

/-- A log that takes an entry at its end, unless it holds one under the same key. -/
def record (xs : List α) (x : α) : List α := if key x ∈ xs.map key then xs else xs ++ [x]

def recordAll (xs ys : List α) : List α := ys.foldl (record key) xs

theorem prefix_record : xs <+: record key xs x := by
  by_cases h : key x ∈ xs.map key
  · rw [record, if_pos h]
  · rw [record, if_neg h]
    exact List.prefix_append xs [x]

theorem prefix_recordAll : xs <+: recordAll key xs ys := by
  induction ys generalizing xs with
  | nil => exact List.prefix_rfl
  | cons y ys ih => exact (prefix_record key).trans ih

theorem recordAll_append {zs : List α} :
    recordAll key xs (ys ++ zs) = recordAll key (recordAll key xs ys) zs :=
  List.foldl_append

theorem recordAll_of_nodup (h : ((xs ++ ys).map key).Nodup) : recordAll key xs ys = xs ++ ys := by
  induction ys generalizing xs with
  | nil => exact (List.append_nil xs).symm
  | cons y ys ih =>
      have hsplit : xs ++ y :: ys = (xs ++ [y]) ++ ys := List.append_cons xs y ys
      have hfresh : key y ∉ xs.map key := by
        rw [List.map_append, List.map_cons] at h
        exact fun hy => (List.nodup_append.mp h).2.2 _ hy _ List.mem_cons_self rfl
      have hstep : recordAll key xs (y :: ys) = recordAll key (xs ++ [y]) ys := by
        rw [recordAll, List.foldl_cons, record, if_neg hfresh, recordAll]
      rw [hstep, hsplit]
      exact ih (hsplit ▸ h)

/-- What a run of requests puts into the log, where a request puts in one entry at most. -/
theorem foldl_record_filterMap {ρ : Type*} (f : ρ → Option α) (rs : List ρ) :
    rs.foldl (fun xs r => recordAll key xs (f r).toList) xs =
      recordAll key xs (rs.filterMap f) := by
  induction rs generalizing xs with
  | nil => rfl
  | cons r rs ih =>
      rw [List.foldl_cons, ih]
      cases hr : f r with
      | none => rw [List.filterMap_cons_none hr]; rfl
      | some y =>
          rw [List.filterMap_cons_some hr, Option.toList_some, ← recordAll_append]
          rfl

omit [DecidableEq κ] in
/-- The entries of a run have keys of their own when the keys that the requests draw differ. -/
theorem nodup_filterMap {ρ : Type*} {f : ρ → Option α} {drawn : ρ → κ}
    (hf : ∀ r a, f r = some a → key a = drawn r) {rs : List ρ} (h : (rs.map drawn).Nodup) :
    ((rs.filterMap f).map key).Nodup := by
  induction rs with
  | nil => exact List.nodup_nil
  | cons r rs ih =>
      obtain ⟨hr, hrs⟩ := List.nodup_cons.mp h
      cases hfr : f r with
      | none =>
          rw [List.filterMap_cons_none hfr]
          exact ih hrs
      | some a =>
          rw [List.filterMap_cons_some hfr, List.map_cons, hf r a hfr]
          refine List.nodup_cons.mpr ⟨fun hmem => hr ?_, ih hrs⟩
          obtain ⟨b, hb, hkey⟩ := List.mem_map.mp hmem
          obtain ⟨r₁, hr₁, hfr₁⟩ := List.mem_filterMap.mp hb
          rw [← hkey, hf r₁ b hfr₁]
          exact List.mem_map_of_mem hr₁

end RfpPlatform.KeyedLog
