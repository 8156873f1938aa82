import Mathlib.Algebra.BigOperators.Group.List.Basic
import Mathlib.Data.List.Induction
import Mathlib.Data.List.Perm.Basic
import Mathlib.Data.List.Perm.Subperm
import RfpPlatform.KeyedTable

namespace RfpPlatform.GroupTotals

section Entries

variable {κ β M : Type*} [DecidableEq κ] [AddCommMonoid M] {d : Dict κ β} {k : κ} {v w : β}

theorem rows_set_perm (d : Dict κ β) (k : κ) (v : β) :
    List.Perm (d.set k v).rows ((k, v) :: d.rows.filter fun p => p.1 ≠ k) := by
  have hfresh : (k, v) ∉ d.rows.filter fun p => p.1 ≠ k := by simp
  refine (List.perm_ext_iff_of_nodup (d.set k v).nodup_rows
    (List.nodup_cons.mpr ⟨hfresh, d.nodup_rows.filter _⟩)).mpr fun p => ?_
  rw [List.mem_cons, List.mem_filter, decide_eq_true_eq]
  exact KeyedTable.mem_upsert

theorem rows_perm_of_get? (h : d.get? k = some w) :
    List.Perm d.rows ((k, w) :: d.rows.filter fun p => p.1 ≠ k) := by
  have hfresh : (k, w) ∉ d.rows.filter fun p => p.1 ≠ k := by simp
  refine (List.perm_ext_iff_of_nodup d.nodup_rows
    (List.nodup_cons.mpr ⟨hfresh, d.nodup_rows.filter _⟩)).mpr fun p => ?_
  rw [List.mem_cons, List.mem_filter, decide_eq_true_eq]
  have hmem := Dict.get?_eq_some.mp h
  constructor
  · intro hp
    by_cases hk : p.1 = k
    · exact .inl (KeyedTable.eq_of_key_eq hp hmem hk)
    · exact .inr ⟨hp, hk⟩
  · rintro (rfl | ⟨hp, -⟩)
    · exact hmem
    · exact hp

theorem filter_ne_of_get?_none (h : d.get? k = none) :
    (d.rows.filter fun p => p.1 ≠ k) = d.rows := by
  refine List.filter_eq_self.mpr fun p hp => decide_eq_true fun hk => ?_
  exact Dict.get?_eq_none.mp h (hk ▸ List.mem_map_of_mem hp)

/-- Writing an entry changes a sum over the entries by what is new over what was there. -/
theorem sum_set (g : β → M) : ((d.set k v).values.map g).sum + ((d.get? k).map g).getD 0 =
    (d.values.map g).sum + g v := by
  have hsum : ∀ e : Dict κ β, (e.values.map g).sum = (e.rows.map (g ∘ Prod.snd)).sum := fun e => by
    rw [Dict.values, List.map_map]
  rw [hsum, hsum, ((rows_set_perm d k v).map _).sum_eq, List.map_cons, List.sum_cons]
  cases h : d.get? k with
  | none =>
      rw [filter_ne_of_get?_none h, Option.map_none, Option.getD_none, add_zero, add_comm]
      rfl
  | some w =>
      rw [((rows_perm_of_get? h).map _).sum_eq, List.map_cons, List.sum_cons, Option.map_some,
        Option.getD_some]
      rw [add_comm, ← add_assoc]
      exact add_right_comm _ _ _

end Entries

section Collected

variable {α κ β : Type*} [DecidableEq κ] (key : α → κ) (f : Option β → α → β)

/-- A loop that writes under the key of each element what the entry was and the element make. -/
def collect (d : Dict κ β) (xs : List α) : Dict κ β :=
  xs.foldl (fun d x => d.set (key x) (f (d.get? (key x)) x)) d

variable {key f}

theorem get?_collect (d : Dict κ β) (xs : List α) (k : κ) : (collect key f d xs).get? k =
    (xs.filter fun x => key x = k).foldl (fun o x => some (f o x)) (d.get? k) := by
  induction xs generalizing d with
  | nil => rfl
  | cons x xs ih =>
      rw [collect, List.foldl_cons]
      change (collect key f _ xs).get? k = _
      rw [ih]
      by_cases hx : key x = k
      · subst hx
        rw [List.filter_cons_of_pos (by simp), List.foldl_cons, Dict.get?_set_self]
      · rw [List.filter_cons_of_neg (by simpa using hx), Dict.get?_set_ne (Ne.symm hx)]

theorem mem_keys_collect {xs : List α} {k : κ} :
    k ∈ (collect key f ∅ xs).keys ↔ ∃ x ∈ xs, key x = k := by
  rw [← not_iff_not, ← Dict.get?_eq_none, get?_collect]
  cases hxs : xs.filter (fun x => key x = k) using List.reverseRecOn with
  | nil =>
      refine iff_of_true rfl ?_
      rintro ⟨x, hx, hk⟩
      exact List.ne_nil_of_mem (List.mem_filter.mpr ⟨hx, decide_eq_true hk⟩) hxs
  | append_singleton ys y _ =>
      have hy : y ∈ xs.filter (fun x => key x = k) := by simp [hxs]
      obtain ⟨hy, hk⟩ := List.mem_filter.mp hy
      refine iff_of_false ?_ (not_not.mpr ⟨y, hy, of_decide_eq_true hk⟩)
      rw [List.foldl_append]
      exact Option.some_ne_none _

end Collected

section Groups

variable {α κ β M : Type*} [DecidableEq κ] [AddCancelCommMonoid M] (key : α → κ) (zero : β)
  (add : β → α → β)

def groupInto (d : Dict κ β) (xs : List α) : Dict κ β :=
  collect key (fun o x => add (o.getD zero) x) d xs

def groupBy (xs : List α) : Dict κ β := groupInto key zero add ∅ xs

variable {key zero add}

/-- What is added up under the keys is what is added up over the list. -/
theorem sum_groupBy {g : β → M} {h : α → M} (hzero : g zero = 0)
    (hadd : ∀ b x, g (add b x) = g b + h x) (xs : List α) :
    ((groupBy key zero add xs).values.map g).sum = (xs.map h).sum := by
  have hinto : ∀ d : Dict κ β, ((groupInto key zero add d xs).values.map g).sum =
      (d.values.map g).sum + (xs.map h).sum := by
    induction xs with
    | nil => exact fun d => (add_zero _).symm
    | cons x xs ih =>
        intro d
        rw [groupInto, collect, List.foldl_cons]
        change ((groupInto key zero add _ xs).values.map g).sum = _
        have hold : g ((d.get? (key x)).getD zero) = ((d.get? (key x)).map g).getD 0 := by
          cases d.get? (key x) with
          | none => exact hzero
          | some b => rfl
        have hset := sum_set (d := d) (k := key x) (v := add ((d.get? (key x)).getD zero) x) g
        rw [hadd, hold, add_left_comm, add_comm] at hset
        rw [ih, add_left_cancel hset, List.map_cons, List.sum_cons, add_assoc]
  exact (hinto ∅).trans (zero_add _)

end Groups

end RfpPlatform.GroupTotals
