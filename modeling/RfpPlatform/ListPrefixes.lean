import Mathlib.Data.List.Basic

namespace RfpPlatform.ListPrefixes

variable {α β : Type*} {xs before : List α} {x : α} {f : α → List β} {k m : Nat} {p : β}

/-- The places of a prefix are the first places of the list. -/
theorem split_take_iff : (∃ after, xs.take k = before ++ x :: after) ↔
    before.length < k ∧ ∃ after, xs = before ++ x :: after := by
  constructor
  · rintro ⟨after, h⟩
    refine ⟨?_, after ++ xs.drop k, ?_⟩
    · have hlength := congrArg List.length h
      rw [List.length_append, List.length_cons, List.length_take] at hlength
      omega
    · rw [← List.cons_append, ← List.append_assoc, ← h, List.take_append_drop]
  · rintro ⟨hk, after, rfl⟩
    refine ⟨after.take (k - before.length - 1), ?_⟩
    rw [List.take_append, List.take_of_length_le (Nat.le_of_lt hk), List.take_cons (by omega)]

/-- What a prefix of a flattened list has comes from one of the parts, with what the parts in front
of it leave of the prefix. -/
theorem mem_take_flatMap : p ∈ (xs.flatMap f).take k ↔ ∃ before x after, xs = before ++ x :: after ∧
    p ∈ (f x).take (k - (before.flatMap f).length) := by
  induction xs generalizing k with
  | nil => simp
  | cons y ys ih =>
      rw [List.flatMap_cons, List.take_append, List.mem_append, ih]
      constructor
      · rintro (h | ⟨before, x, after, rfl, h⟩)
        · exact ⟨[], y, ys, rfl, h⟩
        · refine ⟨y :: before, x, after, rfl, ?_⟩
          rwa [List.flatMap_cons, List.length_append, ← Nat.sub_sub]
      · rintro ⟨before, x, after, hsplit, h⟩
        cases before with
        | nil =>
            obtain ⟨rfl, rfl⟩ := List.cons.inj hsplit
            exact Or.inl h
        | cons z before =>
            obtain ⟨rfl, rfl⟩ := List.cons.inj hsplit
            refine Or.inr ⟨before, x, after, rfl, ?_⟩
            rwa [List.flatMap_cons, List.length_append, ← Nat.sub_sub] at h

theorem mem_take_flatMap_take : p ∈ ((xs.take m).flatMap f).take k ↔
    ∃ before x after, xs = before ++ x :: after ∧ before.length < m ∧
      p ∈ (f x).take (k - (before.flatMap f).length) := by
  rw [mem_take_flatMap]
  constructor
  · rintro ⟨before, x, after, hsplit, hp⟩
    obtain ⟨hlt, after', hxs⟩ := split_take_iff.mp ⟨after, hsplit⟩
    exact ⟨before, x, after', hxs, hlt, hp⟩
  · rintro ⟨before, x, after, hxs, hlt, hp⟩
    obtain ⟨after', hsplit⟩ := split_take_iff.mpr ⟨hlt, after, hxs⟩
    exact ⟨before, x, after', hsplit, hp⟩

theorem take_ne_nil_iff {ys : List β} : (∃ p, p ∈ ys.take k) ↔ 0 < k ∧ ys ≠ [] := by
  have hnonempty : (∃ p, p ∈ ys.take k) ↔ ys.take k ≠ [] := by
    constructor
    · rintro ⟨p, hp⟩
      exact List.ne_nil_of_mem hp
    · exact List.exists_mem_of_ne_nil _
  rw [hnonempty, Ne, List.take_eq_nil_iff, not_or, Nat.pos_iff_ne_zero]

theorem infix_intercalate {sep : List α} {parts : List (List α)} {part : List α} (h : part ∈ parts) :
    part <:+: sep.intercalate parts := by
  induction parts with
  | nil => cases h
  | cons head rest ih =>
      by_cases hrest : rest = []
      · subst hrest
        have hwhole : part = sep.intercalate [head] := by
          rw [List.mem_singleton.mp h, List.intercalate_singleton]
        exact hwhole ▸ List.infix_rfl
      · rw [List.intercalate_cons_of_ne_nil hrest]
        rcases List.mem_cons.mp h with rfl | h
        · rw [List.append_assoc]
          exact (List.prefix_append _ _).isInfix
        · exact (ih h).trans (List.suffix_append _ _).isInfix

end RfpPlatform.ListPrefixes
