import Mathlib.Data.List.Induction

namespace RfpPlatform.FoldRuns

variable {α : Type*} {Q : List α → α → Prop} {xs : List α} {x : α}

/-- At some place of the list, what stands there is so related to what stands before it. -/
def SomeStep (Q : List α → α → Prop) (xs : List α) : Prop :=
  ∃ done x rest, xs = done ++ x :: rest ∧ Q done x

def EveryStep (Q : List α → α → Prop) (xs : List α) : Prop :=
  ∀ done x rest, xs = done ++ x :: rest → Q done x

theorem mem_of_split {done rest : List α} (h : xs = done ++ x :: rest) : x ∈ xs := by
  rw [h]
  exact List.mem_append_right _ List.mem_cons_self

theorem eq_concat_of_split {done rest : List α} {y : α} (h : xs ++ [x] = done ++ y :: rest) :
    (xs = done ∧ x = y) ∨ ∃ rest', xs = done ++ y :: rest' := by
  induction rest using List.reverseRecOn with
  | nil =>
      obtain ⟨hdone, hlast⟩ := List.append_inj' h rfl
      exact Or.inl ⟨hdone, List.head_eq_of_cons_eq hlast⟩
  | append_singleton rest z _ =>
      rw [← List.cons_append, ← List.append_assoc] at h
      exact Or.inr ⟨rest, (List.append_inj' h rfl).1⟩

theorem not_someStep_nil : ¬ SomeStep Q [] := by
  rintro ⟨done, x, rest, hsplit, _⟩
  exact List.cons_ne_nil x rest (List.append_eq_nil_iff.mp hsplit.symm).2

theorem someStep_concat : SomeStep Q (xs ++ [x]) ↔ SomeStep Q xs ∨ Q xs x := by
  constructor
  · rintro ⟨done, y, rest, hsplit, hy⟩
    rcases eq_concat_of_split hsplit with ⟨rfl, rfl⟩ | ⟨rest', hxs⟩
    · exact Or.inr hy
    · exact Or.inl ⟨done, y, rest', hxs, hy⟩
  · rintro (⟨done, y, rest, rfl, hy⟩ | hx)
    · exact ⟨done, y, rest ++ [x], by rw [List.append_assoc, List.cons_append], hy⟩
    · exact ⟨xs, x, [], rfl, hx⟩

/-- What holds of a prefix and is kept by every step behind it holds of every longer prefix. -/
theorem prefix_induction (before : List α) (R : List α → Prop) (hstart : R before)
    (hstep : ∀ mid x rest, xs = before ++ mid ++ x :: rest → R (before ++ mid) →
      R (before ++ mid ++ [x])) :
    ∀ mid rest, xs = before ++ mid ++ rest → R (before ++ mid) := by
  intro mid
  induction mid using List.reverseRecOn with
  | nil =>
      intro rest _
      rwa [List.append_nil]
  | append_singleton mid x ih =>
      intro rest hsplit
      have hx : xs = before ++ mid ++ x :: rest := by
        rw [hsplit, ← List.append_assoc, List.append_assoc (before ++ mid), List.singleton_append]
      rw [← List.append_assoc]
      exact hstep mid x rest hx (ih (x :: rest) hx)

end RfpPlatform.FoldRuns
