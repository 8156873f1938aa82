import Mathlib.Data.List.Basic

namespace RfpPlatform.ListParts

section Cuts

variable {α : Type} {part : List α → Prop} {xs ys us vs : List α}

/-- The second list is the first one without some parts of it. -/
inductive Cut (part : List α → Prop) : List α → List α → Prop
  | nil : Cut part [] []
  | keep (c : α) {xs ys : List α} : Cut part xs ys → Cut part (c :: xs) (c :: ys)
  | cut {p xs ys : List α} : part p → Cut part xs ys → Cut part (p ++ xs) ys

theorem Cut.refl (xs : List α) : Cut part xs xs := by
  induction xs with
  | nil => exact .nil
  | cons c xs ih => exact .keep c ih

theorem Cut.append (h : Cut part xs ys) (h' : Cut part us vs) :
    Cut part (xs ++ us) (ys ++ vs) := by
  induction h with
  | nil => exact h'
  | keep c _ ih => exact .keep c ih
  | cut hp _ ih =>
      rw [List.append_assoc]
      exact .cut hp ih

theorem Cut.sublist (h : Cut part xs ys) : ys.Sublist xs := by
  induction h with
  | nil => exact List.Sublist.refl []
  | keep c _ ih => exact ih.cons_cons c
  | cut _ _ ih => exact ih.trans (List.sublist_append_right _ _)

/-- Parts that all have an element cannot be left out of a list without it. -/
theorem Cut.eq_of_not_mem (h : Cut part xs ys) {c : α} (hpart : ∀ p, part p → c ∈ p)
    (hc : c ∉ xs) : ys = xs := by
  induction h with
  | nil => rfl
  | keep d _ ih => rw [ih fun hmem => hc (List.mem_cons_of_mem d hmem)]
  | cut hp _ _ => exact absurd (List.mem_append_left _ (hpart _ hp)) hc

/-- What is around a list stays. -/
theorem Cut.around (h : Cut part xs ys) (us vs : List α) :
    Cut part (us ++ xs ++ vs) (us ++ ys ++ vs) :=
  ((Cut.refl us).append h).append (Cut.refl vs)

end Cuts

section Meeting

variable {α : Type} [DecidableEq α] {xs ys l rest : List α} {x : α}

/-- What is left of a list when the elements of another one have been met in it, one after the
other. -/
def remaining : List α → List α → Option (List α)
  | [], l => some l
  | _ :: _, [] => none
  | x :: xs, y :: l => if y = x then remaining xs l else remaining (x :: xs) l

theorem remaining_isSome (xs l : List α) : (remaining xs l).isSome = true ↔ xs.Sublist l := by
  induction l generalizing xs with
  | nil =>
      cases xs with
      | nil => exact iff_of_true rfl (List.Sublist.refl [])
      | cons x xs => exact iff_of_false (fun h => by cases h) (fun h => by cases h)
  | cons y l ih =>
      cases xs with
      | nil => exact iff_of_true rfl (List.nil_sublist _)
      | cons x xs =>
          rw [remaining]
          split
          · rename_i heq
            rw [ih, heq, List.cons_sublist_cons]
          · rename_i hne
            rw [ih]
            exact ⟨fun h => h.cons y, fun h => (List.sublist_cons_iff.mp h).resolve_right
              fun ⟨_, heq, _⟩ => hne (List.cons.inj heq).1.symm⟩

theorem remaining_append (xs ys l : List α) :
    remaining (xs ++ ys) l = (remaining xs l).bind (remaining ys) := by
  induction l generalizing xs with
  | nil => cases xs <;> rfl
  | cons y l ih =>
      cases xs with
      | nil => rfl
      | cons x xs =>
          rw [List.cons_append, remaining, remaining]
          split
          · exact ih xs
          · exact ih (x :: xs)

theorem exists_of_remaining (h : remaining xs l = some rest) : ∃ met, l = met ++ rest := by
  induction l generalizing xs with
  | nil =>
      cases xs with
      | nil => exact ⟨[], Option.some.inj h⟩
      | cons x xs => cases h
  | cons y l ih =>
      cases xs with
      | nil => exact ⟨[], Option.some.inj h⟩
      | cons x xs =>
          rw [remaining] at h
          split at h
          all_goals
            obtain ⟨met, rfl⟩ := ih h
            exact ⟨y :: met, rfl⟩

theorem remaining_of_not_mem (h : x ∉ ys) (l : List α) :
    remaining [x] (ys ++ l) = remaining [x] l := by
  induction ys with
  | nil => rfl
  | cons y ys ih =>
      obtain ⟨hne, hys⟩ := not_or.mp (fun hmem => h (List.mem_cons.mpr hmem))
      rw [List.cons_append, remaining, if_neg (Ne.symm hne), ih hys]

/-- In a list without repetitions, an element is met where it stands. -/
theorem remaining_of_mem_right (h : (ys ++ l).Nodup) (hx : x ∈ l) :
    remaining [x] (ys ++ l) = remaining [x] l :=
  remaining_of_not_mem (fun hys => (List.nodup_append.mp h).2.2 _ hys _ hx rfl) l

end Meeting

end RfpPlatform.ListParts
